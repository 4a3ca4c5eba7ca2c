import Std.Data.HashMap
import ControlLogic.Slot.Basic

/-!
Signals: the inputs the host drives and the outputs the program drives. Names are looked up without
regard to case and kept as they are spelled.
-/

set_option autoImplicit false
set_option relaxedAutoImplicit false

namespace ControlLogic

/-- What a signal carries. -/
inductive SignalKind where
  | digital
  | analog
  | serial
  deriving DecidableEq, Repr, Inhabited

def SignalType.kind : SignalType → SignalKind
  | digitalInput | digitalOutput => .digital
  | analogInput | analogOutput => .analog
  | stringInput | stringOutput | bufferInput => .serial

/-- The tables that values of signals are kept in. Buffers are kept with the string inputs. -/
inductive Bank where
  | digitalInputs
  | digitalOutputs
  | analogInputs
  | analogOutputs
  | stringInputs
  | stringOutputs
  deriving DecidableEq, Hashable, Repr, Inhabited

def SignalType.bank : SignalType → Bank
  | digitalInput => .digitalInputs
  | digitalOutput => .digitalOutputs
  | analogInput => .analogInputs
  | analogOutput => .analogOutputs
  | stringInput | bufferInput => .stringInputs
  | stringOutput => .stringOutputs

/-- A declared signal. -/
structure Signal where
  type : SignalType
  name : String
  capacity : Option Nat
  deriving DecidableEq, Repr, Inhabited

namespace Signal

def baseName? (s : Signal) : Option String :=
  (Text.splitOnce '[' s.name.toList).map fun (base, _) => String.ofList base

def index? (s : Signal) : Option Int := do
  let (_, rest) ← Text.splitOnce '[' s.name.toList
  Number.word? 10 (rest.reverse.dropWhile (· == ']')).reverse

def coerce (s : Signal) (v : Value) : Value :=
  match s.type.kind with
  | .digital => .ofBool (v.toNumber != 0)
  | .analog => .number (Number.Width.unsigned16.wrap v.toNumber)
  | .serial => .text (Value.truncate (s.capacity.getD maxCapacity) v.toText)

def initial (s : Signal) : Value :=
  match s.type.kind with
  | .serial => .empty
  | .digital | .analog => .zero

end Signal

/-- The signals of a program: declarations by name in upper case, values by table and spelling, and
the spellings in the order of declaration. -/
structure SignalTable where
  declared : Std.HashMap String Signal := {}
  values : Std.HashMap (Bank × String) Value := {}
  order : Array String := #[]
  deriving Inhabited

namespace SignalTable

def declare (t : SignalTable) (type : SignalType) (name : String) (capacity : Option Nat) :
    SignalTable :=
  let signal : Signal := ⟨type, name, capacity⟩
  { declared := t.declared.insert (Text.upper name) signal
    values := t.values.insert (type.bank, name) signal.initial
    order := t.order.push name }

def signal? (t : SignalTable) (name : String) : Option Signal :=
  t.declared.get? (Text.upper name)

/-- The signal a key stands for: one by itself or an element of an array. -/
def ofKey? (t : SignalTable) (key : SlotKey) : Option Signal :=
  match key with
  | .plain _ | .element _ _ => t.declared.get? key.render
  | .cell _ _ _ | .field _ _ | .fieldElement _ _ _ => none

def valueOf? (t : SignalTable) (s : Signal) : Option Value :=
  t.values.get? (s.type.bank, s.name)

def value? (t : SignalTable) (name : String) : Option Value :=
  t.signal? name >>= t.valueOf?

def store (t : SignalTable) (s : Signal) (v : Value) : SignalTable :=
  { t with values := t.values.insert (s.type.bank, s.name) v }

def entries (t : SignalTable) (bank : Bank) : List (String × Value) :=
  t.values.toList.filterMap fun ((b, name), v) => if b = bank then some (name, v) else none

end SignalTable

end ControlLogic
