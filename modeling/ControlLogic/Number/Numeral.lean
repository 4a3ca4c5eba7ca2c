import ControlLogic.Number.Word
import ControlLogic.Text.Ascii

/-!
Reading and writing numerals. A numeral is an optional sign and at least one digit; a reader names
the radix and the range it accepts.
-/

set_option autoImplicit false
set_option relaxedAutoImplicit false

namespace ControlLogic.Number

def digit? (radix : Nat) (c : Char) : Option Nat :=
  (Text.hexDigit? c).filter (· < radix)

/-- The value of a digit list read from the left, or `none` if a character is no digit. -/
def digits? (radix : Nat) (cs : List Char) : Option Nat :=
  cs.foldl (fun acc c => do return radix * (← acc) + (← digit? radix c)) (some 0)

def natural? (radix : Nat) : List Char → Option Nat
  | [] => none
  | cs => digits? radix cs

def integer? (radix : Nat) : List Char → Option Int
  | '+' :: cs => (natural? radix cs).map Int.ofNat
  | '-' :: cs => (natural? radix cs).map (-Int.ofNat ·)
  | cs => (natural? radix cs).map Int.ofNat

/-- The value of a numeral, if it is a signed 64-bit integer. -/
def word? (radix : Nat) (cs : List Char) : Option Int :=
  (integer? radix cs).filter (decide <| InWord ·)

/-- The value of a numeral without minus sign, if it is an unsigned 64-bit integer. -/
def unsignedWord? : List Char → Option Nat
  | '+' :: cs => (natural? 10 cs).filter (· < 18446744073709551616)
  | cs => (natural? 10 cs).filter (· < 18446744073709551616)

def decimalDigits (n : Nat) : List Char :=
  Nat.toDigits 10 n

/-- The decimal numeral of an integer, with a minus sign only if it is negative. -/
def decimal (n : Int) : String :=
  if n < 0 then String.ofList ('-' :: decimalDigits n.natAbs)
  else String.ofList (decimalDigits n.natAbs)

/-- The hexadecimal digits of a natural number, letters in lower case. -/
def hexDigits (n : Nat) : List Char :=
  Nat.toDigits 16 n

end ControlLogic.Number
