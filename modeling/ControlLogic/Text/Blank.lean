/-!
Blank characters, words and lines. Blank means the Unicode property `White_Space`.
-/

set_option autoImplicit false
set_option relaxedAutoImplicit false

namespace ControlLogic.Text

def isBlank (c : Char) : Bool :=
  let n := c.toNat
  (9 ≤ n && n ≤ 13) || n == 0x20 || n == 0x85 || n == 0xA0 || n == 0x1680 ||
    (0x2000 ≤ n && n ≤ 0x200A) || n == 0x2028 || n == 0x2029 || n == 0x202F || n == 0x205F ||
    n == 0x3000

/-- The text without its leading blanks. -/
def trimLeft (cs : List Char) : List Char :=
  cs.dropWhile isBlank

/-- The text without leading and trailing blanks. -/
def trim (cs : List Char) : List Char :=
  (trimLeft (trimLeft cs).reverse).reverse

def trimString (s : String) : String :=
  String.ofList (trim s.toList)

/-- The first word of a text, a longest run of characters that are not blank, and what follows. -/
def firstWord (cs : List Char) : Option (List Char) × List Char :=
  match trimLeft cs with
  | [] => (none, [])
  | c :: rest => (some (c :: rest.takeWhile (!isBlank ·)), rest.dropWhile (!isBlank ·))

/--
The lines of a text. A line ends at a line feed, a carriage return directly before the line feed
belongs to the line's end, and a last line without a line feed counts.
-/
def lines : List Char → List (List Char)
  | [] => []
  | '\n' :: rest => [] :: lines rest
  | '\r' :: '\n' :: rest => [] :: lines rest
  | c :: rest =>
    match lines rest with
    | [] => [[c]]
    | line :: others => (c :: line) :: others

end ControlLogic.Text
