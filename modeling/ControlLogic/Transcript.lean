import ControlLogic.Machine.Basic
import ControlLogic.Text.Quoted

/-!
What a host can look up in what it was told, and how outputs are shown to a person.
-/

set_option autoImplicit false
set_option relaxedAutoImplicit false

namespace ControlLogic

/-- What a host was told, in order. -/
abbrev Transcript := List Event

namespace Transcript

def console (t : Transcript) : String :=
  String.join (t.filterMap fun
    | .print text => some text
    | _ => none)

def outputs (t : Transcript) : List (SignalKind × String × Value) :=
  t.filterMap fun
    | .output kind name v => some (kind, name, v)
    | _ => none

def lastOutput? (t : Transcript) (name : String) : Option Value :=
  (t.outputs.reverse.find? fun (_, n, _) => Text.sameWord n name).map fun (_, _, v) => v

def errors (t : Transcript) : List String :=
  t.filterMap fun
    | .error d => some d.render
    | _ => none

def notices (t : Transcript) : List String :=
  t.filterMap fun
    | .notice text => some text
    | _ => none

end Transcript

def describeOutput (kind : SignalKind) (name : String) (v : Value) : String :=
  match kind with
  | .serial => name ++ " = " ++ Text.shown v.toText
  | .digital | .analog => name ++ " = " ++ Number.decimal v.toNumber

end ControlLogic
