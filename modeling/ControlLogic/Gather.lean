import Std.Data.HashMap
import ControlLogic.Text.Search

/-!
Gathering frames from text that arrives in pieces. Each destination has a text of its own that waits
until a whole frame is there.
-/

set_option autoImplicit false
set_option relaxedAutoImplicit false

namespace ControlLogic

abbrev Gather := Std.HashMap String String

namespace Gather

def pending (g : Gather) (key : String) : String :=
  g.getD key ""

def append (g : Gather) (key chunk : String) : Gather :=
  g.insert key (g.pending key ++ chunk)

def cut (g : Gather) (key : String) (n : Nat) : String × Gather :=
  let cs := (g.pending key).toList
  (String.ofList (cs.take n), g.insert key (String.ofList (cs.drop n)))

/-- Takes the text up to and with the first occurrence of a delimiter, if there is one. -/
def takeThrough (g : Gather) (key delimiter : String) : Option String × Gather :=
  let needle := delimiter.toList
  match Text.findFrom needle (g.pending key).toList 0 with
  | none => (none, g)
  | some i => let (frame, rest) := g.cut key (i + needle.length); (some frame, rest)

/-- Takes a number of characters other than zero, if there are as many. -/
def takeLength (g : Gather) (key : String) (n : Nat) : Option String × Gather :=
  if n = 0 ∨ (g.pending key).toList.length < n then (none, g)
  else let (frame, rest) := g.cut key n; (some frame, rest)

end Gather

end ControlLogic
