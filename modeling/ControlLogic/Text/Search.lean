/-!
Finding a text inside another. Positions count characters from zero.
-/

set_option autoImplicit false
set_option relaxedAutoImplicit false

namespace ControlLogic.Text

/-- The first position of `needle` in a text whose first character has position `i`. -/
def findAt (needle : List Char) : List Char → Nat → Option Nat
  | [], i => if needle.isEmpty then some i else none
  | c :: rest, i => if needle.isPrefixOf (c :: rest) then some i else findAt needle rest (i + 1)

/-- The first position at or after `start`; an empty text is found nowhere. -/
def findFrom (needle hay : List Char) (start : Nat) : Option Nat :=
  if needle.isEmpty then none else findAt needle (hay.drop start) start

/-- The last position up to `limit` in a text whose first character has position `i`. -/
def findLastAt (needle : List Char) (limit : Nat) : List Char → Nat → Option Nat
  | [], _ => none
  | c :: rest, i =>
    if limit < i then none
    else
      match findLastAt needle limit rest (i + 1) with
      | some p => some p
      | none => if needle.isPrefixOf (c :: rest) then some i else none

def findLast (needle hay : List Char) (limit : Nat) : Option Nat :=
  if needle.isEmpty then none else findLastAt needle limit hay 0

def splitOnce (mark : Char) (cs : List Char) : Option (List Char × List Char) :=
  match cs.dropWhile (· != mark) with
  | [] => none
  | _ :: after => some (cs.takeWhile (· != mark), after)

end ControlLogic.Text
