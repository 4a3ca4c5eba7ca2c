import ControlLogic.Number.Numeral
import ControlLogic.Text.Blank

/-!
Values of the language: numbers and texts, and the views a program takes of them.
-/

set_option autoImplicit false
set_option relaxedAutoImplicit false

namespace ControlLogic

/-- A number, always a signed 64-bit integer, or a text. -/
inductive Value where
  | number (n : Int)
  | text (s : String)
  deriving DecidableEq, Repr

namespace Value

instance : Inhabited Value := ⟨number 0⟩

def zero : Value := number 0

def empty : Value := text ""

def ofBool (b : Bool) : Value := number (if b then 1 else 0)

def isText : Value → Bool
  | number _ => false
  | text _ => true

def leadingNumeral : List Char → List Char
  | [] => []
  | c :: rest =>
    if c.isDigit ∨ c = '-' ∨ c = '+' then c :: rest.takeWhile Char.isDigit else []

/-- The signed 64-bit integer at the head of a text, after blanks. -/
def leadingInteger? (s : String) : Option Int :=
  Number.word? 10 (leadingNumeral (Text.trimLeft s.toList))

/-- The value as a number; a text counts as the integer at its head, or as zero. -/
def toNumber : Value → Int
  | number n => n
  | text s => (leadingInteger? s).getD 0

def toText : Value → String
  | number n => Number.decimal n
  | text s => s

/-- The value as a number; a text counts only if it is a whole integer, blanks around it aside. -/
def exactNumber? : Value → Option Int
  | number n => some n
  | text s => Number.word? 10 (Text.trim s.toList)

/-- A number other than zero and a text other than the empty one hold. -/
def holds : Value → Bool
  | number n => n != 0
  | text s => s != ""

/-- Equality as a program tests it: the same value, or two spellings of one integer. -/
def looselyEquals (a b : Value) : Bool :=
  a == b ||
    match a.exactNumber?, b.exactNumber? with
    | some m, some n => m == n
    | _, _ => false

/-- The first `n` characters of a text; a text that is not longer is kept. -/
def truncate (n : Nat) (s : String) : String :=
  if s.length ≤ n then s else String.ofList (s.toList.take n)

end Value

end ControlLogic
