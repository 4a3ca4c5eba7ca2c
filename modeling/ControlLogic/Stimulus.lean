/-!
What the host sends to a program.
-/

set_option autoImplicit false
set_option relaxedAutoImplicit false

namespace ControlLogic

/-- A new value for an input, or the order to stop. -/
inductive Stimulus where
  | digital (name : String) (value : Int)
  | analog (name : String) (value : Int)
  | serial (name : String) (value : String)
  | stop
  deriving DecidableEq, Repr, Inhabited

end ControlLogic
