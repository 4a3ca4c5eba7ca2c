import ControlLogic.Format
import ControlLogic.Library.Basic

/-!
Routines that write texts with conversions.
-/

set_option autoImplicit false
set_option relaxedAutoImplicit false

namespace ControlLogic.Library

/-- The template at a place among the arguments, filled with those behind it. -/
def filled (args : List Arg) (i : Nat) : String :=
  Format.format (text args i) ((args.drop (i + 1)).map Arg.value)

def print : Routine := fun _ args =>
  { value := .zero, effects := [.print (filled args 0)] }

def makeString : Routine := fun _ args =>
  { value := .zero, effects := writeTo args 0 (.text (filled args 1)) }

def userMessage (level : String) : Routine := fun _ args =>
  let message := level ++ ": " ++ filled args 0
  { value := .zero, effects := [.print (message ++ "\n"), .notice message] }

def consoleRoutines : List (String × Routine) :=
  [("PRINT", print), ("TRACE", print), ("MAKESTRING", makeString),
    ("GENERATEUSERNOTICE", userMessage "NOTICE"), ("GENERATEUSERWARNING", userMessage "WARNING"),
    ("GENERATEUSERERROR", userMessage "ERROR")]

end ControlLogic.Library
