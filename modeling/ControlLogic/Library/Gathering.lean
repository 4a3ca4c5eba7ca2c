import ControlLogic.Library.Text

/-!
Routines that gather frames. The third argument is the variable a frame is written to, and its text
that waits is kept under its name; a piece that was passed as a variable is used up.
-/

set_option autoImplicit false
set_option relaxedAutoImplicit false

namespace ControlLogic.Library

/-- Adds the piece to the text that waits and writes a frame if `take` finds one. -/
def gatherWith (take : List Arg → Gather → String → Option String × Gather) : Routine :=
  fun context args =>
    match target? args 2 with
    | none => .pure .zero
    | some key =>
      let (frame, gather) := take args (context.gather.append key.render (text args 1)) key.render
      let used := writeTo args 1 .empty
      match frame with
      | some s =>
        { value := .number 1, effects := used ++ [.write key (.text s)], gather := some gather }
      | none => { value := .zero, effects := used, gather := some gather }

def gatherAsync : Routine :=
  gatherWith fun args g key => g.takeThrough key (text args 0)

def gatherByLength : Routine :=
  gatherWith fun args g key => g.takeLength key (count args 0)

def gatherRoutines : List (String × Routine) :=
  [("GATHERASYNC", gatherAsync), ("GATHERASYNCBYLENGTH", gatherByLength)]

end ControlLogic.Library
