import ControlLogic.Library.Basic

/-!
Routines on numbers and arrays.
-/

set_option autoImplicit false
set_option relaxedAutoImplicit false

namespace ControlLogic.Library

/-- Which of two numbers to take; they are compared as unsigned 32-bit integers. -/
def chooseUnsigned (choose : Int → Int → Bool) (args : List Arg) : Value :=
  let a := number args 0
  let b := number args 1
  .number (if choose (a % 4294967296) (b % 4294967296) then a else b)

def mulDiv : Routine := fun _ args =>
  let divisor := number args 2
  if divisor = 0 then { value := .zero, effects := [.notice "MulDiv: division by zero"] }
  else .pure (.number (Number.wrap ((number args 0 * number args 1).tdiv divisor)))

/-- A random number from a range, whose ends may come in either order. -/
def random : Routine := fun context args =>
  let low := min (number args 0) (number args 1)
  let high := max (number args 0) (number args 1)
  { value := .number (context.chance.draw 0 low high), chance := some context.chance.next }

def setArray : Routine := fun context args =>
  match target? args 0 with
  | none => .pure .zero
  | some key =>
    let fill := (args[1]?.map Arg.value).getD .zero
    { value := .zero, effects := (context.arrayKeys key.owner).map (.write · fill) }

def resizeArray : Routine := fun _ args =>
  let name := ((target? args 0).map SlotKey.owner).getD "?"
  { value := .zero
    effects := [.notice s!"ResizeArray({name}) has no effect in simulation"] }

def lastModifiedIndex : Routine := fun context args =>
  .pure (.number (context.lastIndex ((target? args 0).map SlotKey.owner)))

def mathRoutines : List (String × Routine) :=
  [("MIN", computing (chooseUnsigned fun a b => a ≤ b)),
    ("MAX", computing (chooseUnsigned fun a b => a ≥ b)),
    ("SMIN", computing fun args => .number (min (number args 0) (number args 1))),
    ("SMAX", computing fun args => .number (max (number args 0) (number args 1))),
    ("ABS", computing fun args => .number (Number.wrap (Int.ofNat (number args 0).natAbs))),
    ("MULDIV", mulDiv), ("RANDOM", random), ("SETARRAY", setArray),
    ("RESIZEARRAY", resizeArray), ("GETLASTMODIFIEDARRAYINDEX", lastModifiedIndex)]

end ControlLogic.Library
