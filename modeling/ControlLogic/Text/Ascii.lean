/-!
ASCII case folding. Names, keywords and directives of the language are compared without regard to
the case of the letters `a` to `z`; every other character is compared as it is.
-/

set_option autoImplicit false
set_option relaxedAutoImplicit false

namespace ControlLogic.Text

def upper (s : String) : String :=
  s.map Char.toUpper

def lower (s : String) : String :=
  s.map Char.toLower

def sameWord (a b : String) : Bool :=
  upper a == upper b

def isOneOf (word : String) (table : List String) : Bool :=
  table.any (sameWord word)

theorem sameWord_refl (a : String) : sameWord a a = true := by
  simp [sameWord]

def hexDigit? (c : Char) : Option Nat :=
  if c.isDigit then some (c.toNat - '0'.toNat)
  else if 'a' ≤ c ∧ c ≤ 'f' then some (c.toNat - 'a'.toNat + 10)
  else if 'A' ≤ c ∧ c ≤ 'F' then some (c.toNat - 'A'.toNat + 10)
  else none

def isHexDigit (c : Char) : Bool :=
  (hexDigit? c).isSome

end ControlLogic.Text
