import ControlLogic.Machine.Statement

/-!
Running statements and expressions. Each takes a step first, so a run takes at most one step more
than its limit; `fuel` bounds how deep they nest and is never used up before the steps are.
-/

set_option autoImplicit false
set_option relaxedAutoImplicit false

namespace ControlLogic.Run

mutual

def eval (pump : Nat → Run Unit) : Nat → Expr → Run Value
  | 0, _ => throw .exhausted
  | fuel + 1, e => do
    tick
    expression (eval pump fuel) (sequence (exec pump fuel)) pump fuel e

/-- Runs a statement; a fault in it that has no place gets the place of the statement. -/
def exec (pump : Nat → Run Unit) : Nat → Stmt → Run Flow
  | 0, _ => throw .exhausted
  | fuel + 1, s => do
    tick
    locatedAt s.pos (statement (eval pump fuel) (sequence (exec pump fuel)) pump fuel s)

end

def block (pump : Nat → Run Unit) (fuel : Nat) (body : List Stmt) : Run Flow :=
  sequence (exec pump fuel) body

def noPump (_ : Nat) : Run Unit := pure ()

def immediateBlock (body : List Stmt) : Run Flow := fun m =>
  block noPump m.fuel body m

/-- Calls the function at a place in the program without arguments and runs it to its end at
once. -/
def immediateCall (index : Nat) : Run Value := fun m =>
  callAt (eval noPump m.fuel) (block noPump m.fuel) index [] m

end ControlLogic.Run
