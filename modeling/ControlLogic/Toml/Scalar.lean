import ControlLogic.Number.Numeral
import ControlLogic.Toml.Basic

/-!
Values in one piece: texts in quotes, numbers, dates and times. A reader takes what it reads from
the characters that are left, or refuses.
-/

set_option autoImplicit false
set_option relaxedAutoImplicit false

namespace ControlLogic.Toml

abbrev Reader (α : Type) := StateT (List Char) Option α

/-- Characters that can stand in a line: all but control characters, the tab aside. -/
def isPlain (c : Char) : Bool :=
  c == '\t' || (' ' ≤ c && c.toNat != 0x7F)

/-- Blanks inside a line. -/
def isBlank (c : Char) : Bool :=
  c == ' ' || c == '\t'

def newline? : List Char → Option (List Char)
  | '\n' :: rest => some rest
  | '\r' :: '\n' :: rest => some rest
  | _ => none

/-- The characters of an escape sequence with that many hexadecimal digits. -/
def codePoint? (digits : Nat) (cs : List Char) : Option (Char × List Char) := do
  let hex := cs.take digits
  let n ← if hex.length = digits then Number.natural? 16 hex else none
  if n.isValidChar then return (Char.ofNat n, cs.drop digits) else none

/-- The character an escape sequence stands for, behind its backslash. -/
def escape? : List Char → Option (Char × List Char)
  | 'b' :: rest => some ('\x08', rest)
  | 't' :: rest => some ('\t', rest)
  | 'n' :: rest => some ('\n', rest)
  | 'f' :: rest => some ('\x0c', rest)
  | 'r' :: rest => some ('\r', rest)
  | '"' :: rest => some ('"', rest)
  | '\\' :: rest => some ('\\', rest)
  | 'u' :: rest => codePoint? 4 rest
  | 'U' :: rest => codePoint? 8 rest
  | _ => none

/-- Reads a text in one line up to its closing quote. Only double quotes know escapes. -/
def lineText (quote : Char) : Nat → List Char → Option (List Char × List Char)
  | fuel + 1, c :: rest =>
    if c = quote then some ([], rest)
    else if c = '\\' && quote = '"' then do
      let (e, rest) ← escape? rest
      let (cs, rest) ← lineText quote fuel rest
      return (e :: cs, rest)
    else if isPlain c then do
      let (cs, rest) ← lineText quote fuel rest
      return (c :: cs, rest)
    else none
  | _, _ => none

/-- What is left behind a backslash that hides the end of its line, and behind all blanks and ends
of lines after it. -/
def hiddenBreak? (cs : List Char) : Option (List Char) :=
  (newline? (cs.dropWhile isBlank)).map fun rest => skipBreaks rest.length rest
where
  /-- Drops blanks and ends of lines. -/
  skipBreaks : Nat → List Char → List Char
    | fuel + 1, cs =>
      match newline? (cs.dropWhile isBlank) with
      | some rest => skipBreaks fuel rest
      | none => cs.dropWhile isBlank
    | 0, cs => cs

/-- Reads a text of several lines up to its three closing quotes, before which two more quotes can
stand. Ends of lines count as one line feed. -/
def blockText (quote : Char) : Nat → List Char → Option (List Char × List Char)
  | fuel + 1, c :: rest =>
    if c = quote then
      let run := 1 + (rest.takeWhile (· == quote)).length
      if 3 ≤ run then
        let kept := min (run - 3) 2
        some (List.replicate kept quote, rest.drop (kept + 2))
      else do
        let (cs, rest) ← blockText quote fuel rest
        return (c :: cs, rest)
    else if c = '\\' && quote = '"' then
      match hiddenBreak? rest with
      | some rest => blockText quote fuel rest
      | none => do
        let (e, rest) ← escape? rest
        let (cs, rest) ← blockText quote fuel rest
        return (e :: cs, rest)
    else
      match newline? (c :: rest) with
      | some rest => do
        let (cs, rest) ← blockText quote fuel rest
        return ('\n' :: cs, rest)
      | none =>
        if isPlain c then do
          let (cs, rest) ← blockText quote fuel rest
          return (c :: cs, rest)
        else none
  | _, _ => none

def quoted (quote : Char) : Reader String := fun cs => do
  let (text, rest) ← lineText quote cs.length cs
  return (String.ofList text, rest)

/-- Reads a text in quotes, of several lines if there are three of them; an end of line right behind
these is not part of it. -/
def textValue (quote : Char) : Reader String := fun cs =>
  if [quote, quote].isPrefixOf cs then do
    let body := cs.drop 2
    let body := (newline? body).getD body
    let (text, rest) ← blockText quote body.length body
    return (String.ofList text, rest)
  else quoted quote cs

/-- The digits of a numeral without the underscores between them; `none` if an underscore does not
stand between two digits. -/
def plainDigits? (isDigit : Char → Bool) : List Char → Option (List Char)
  | [] => none
  | [c] => if isDigit c then some [c] else none
  | c :: '_' :: rest => if isDigit c then (plainDigits? isDigit rest).map (c :: ·) else none
  | c :: rest => if isDigit c then (plainDigits? isDigit rest).map (c :: ·) else none

def splitSign : List Char → Bool × List Char
  | '-' :: rest => (true, rest)
  | '+' :: rest => (false, rest)
  | cs => (false, cs)

/-- The digits of a whole decimal number, which has no zero in front. -/
def wholeDigits? (cs : List Char) : Option (List Char) :=
  match cs with
  | '0' :: _ :: _ => none
  | _ => plainDigits? Char.isDigit cs

/-- The integer a word spells, in a signed 64-bit word. -/
def integer? (word : List Char) : Option Int := do
  let n ← match word with
    | '0' :: 'x' :: rest => (plainDigits? Text.isHexDigit rest >>= Number.natural? 16).map Int.ofNat
    | '0' :: 'o' :: rest => (plainDigits? Char.isDigit rest >>= Number.natural? 8).map Int.ofNat
    | '0' :: 'b' :: rest => (plainDigits? Char.isDigit rest >>= Number.natural? 2).map Int.ofNat
    | _ =>
      let (negative, rest) := splitSign word
      (wholeDigits? rest >>= Number.natural? 10).map fun n => if negative then -Int.ofNat n else n
  if Number.InWord n then return n else none

def isHuge (m : Nat) (e : Int) : Bool :=
  let magnitude := Int.ofNat (Number.decimalDigits m).length + e
  if m = 0 || magnitude < 300 then false
  else if 320 < magnitude then true
  else (Nat.pow 2 1024 - Nat.pow 2 970) * Nat.pow 10 (-e).toNat ≤ m * Nat.pow 10 e.toNat

def splitBefore (p : Char → Bool) (cs : List Char) : List Char × List Char :=
  (cs.takeWhile (!p ·), cs.dropWhile (!p ·))

/-- Whether a word spells a number with a fraction or an exponent. A positive one that is too large
is refused. -/
def isFloat (word : List Char) : Bool :=
  let (negative, rest) := splitSign word
  if rest = "inf".toList || rest = "nan".toList then true
  else
    let (mantissa, exponent) := splitBefore (fun c => c == 'e' || c == 'E') rest
    let (whole, fraction) := splitBefore (· == '.') mantissa
    let fraction? := if fraction.isEmpty then some [] else plainDigits? Char.isDigit fraction.tail
    let exponent? :=
      if exponent.isEmpty then some 0
      else
        let (minus, digits) := splitSign exponent.tail
        (plainDigits? Char.isDigit digits >>= Number.natural? 10).map fun n =>
          if minus then -Int.ofNat n else Int.ofNat n
    match wholeDigits? whole, fraction?, exponent? with
    | some w, some f, some e =>
      !(fraction.isEmpty && exponent.isEmpty) &&
        (negative || !isHuge ((Number.natural? 10 (w ++ f)).getD 0) (e - Int.ofNat f.length))
    | _, _, _ => false

def twoDigits? : List Char → Option Nat
  | [a, b] => if a.isDigit && b.isDigit then Number.natural? 10 [a, b] else none
  | _ => none

def daysOf (year month : Nat) : Nat :=
  if month = 2 then if year % 4 = 0 && (year % 100 ≠ 0 || year % 400 = 0) then 29 else 28
  else if [4, 6, 9, 11].contains month then 30
  else 31

def isDate (word : List Char) : Bool :=
  match word with
  | [y₁, y₂, y₃, y₄, '-', m₁, m₂, '-', d₁, d₂] =>
    match twoDigits? [y₁, y₂], twoDigits? [y₃, y₄], twoDigits? [m₁, m₂], twoDigits? [d₁, d₂] with
    | some century, some year, some month, some day =>
      1 ≤ month && month ≤ 12 && 1 ≤ day && day ≤ daysOf (100 * century + year) month
    | _, _, _, _ => false
  | _ => false

def afterTime? (word : List Char) : Option (List Char) :=
  match word with
  | h₁ :: h₂ :: ':' :: m₁ :: m₂ :: ':' :: s₁ :: s₂ :: rest =>
    match twoDigits? [h₁, h₂], twoDigits? [m₁, m₂], twoDigits? [s₁, s₂] with
    | some h, some m, some s =>
      if h ≤ 23 && m ≤ 59 && s ≤ 60 then
        match rest with
        | '.' :: d :: more => if d.isDigit then some (more.dropWhile Char.isDigit) else none
        | '.' :: [] => none
        | _ => some rest
      else none
    | _, _, _ => none
  | _ => none

/-- Whether a word is empty or spells a distance from universal time. -/
def isOffset (word : List Char) : Bool :=
  match word with
  | [] | ['Z'] | ['z'] => true
  | sign :: h₁ :: h₂ :: ':' :: rest =>
    (sign == '+' || sign == '-') &&
      match twoDigits? [h₁, h₂], twoDigits? rest with
      | some h, some m => h ≤ 23 && m ≤ 59
      | _, _ => false
  | _ => false

/-- Whether a word spells a time of day with the distance from universal time, if any. -/
def isFullTime (word : List Char) : Bool :=
  match afterTime? word with
  | some rest => isOffset rest
  | none => false

def isMoment (word : List Char) : Bool :=
  isDate word || afterTime? word == some [] ||
    (isDate (word.take 10) &&
      match word.drop 10 with
      | c :: time => (c == 'T' || c == 't') && isFullTime time
      | [] => false)

def endsWord (c : Char) : Bool :=
  [' ', '\t', '\n', '\r', ',', ']', '}', '#'].contains c

def word : Reader (List Char) := fun cs =>
  some (cs.takeWhile (!endsWord ·), cs.dropWhile (!endsWord ·))

/-- Drops a time that stands one blank behind a date. -/
def dropTime (cs : List Char) : List Char :=
  match cs with
  | ' ' :: rest =>
    if isFullTime (rest.takeWhile (!endsWord ·)) then rest.dropWhile (!endsWord ·) else cs
  | _ => cs

def wordValue : Reader Item := do
  let w ← word
  if w = "true".toList then return .bool true
  else if w = "false".toList then return .bool false
  else if isDate w then
    modify dropTime
    return .other
  else if isMoment w || isFloat w then return .other
  else
    match integer? w with
    | some n => return .integer n
    | none => failure

end ControlLogic.Toml
