import ControlLogic.Machine.Basic

/-!
Reading and writing what keys stand for: variables in scope, then constants, then signals, then the
state of a socket.
-/

set_option autoImplicit false
set_option relaxedAutoImplicit false

namespace ControlLogic

namespace Machine

def constant? (m : Machine) : SlotKey → Option Value
  | .plain name => m.constants.get? name
  | _ => none

def signalValue? (m : Machine) (key : SlotKey) : Option Value :=
  m.signals.ofKey? key >>= fun s => m.signals.value? s.name

def socketStatus? (m : Machine) : SlotKey → Option Value
  | .field object "SOCKETSTATUS" =>
    (m.sockets.get? object).map fun id => .number (m.network.status id).code
  | _ => none

def read? (m : Machine) (key : SlotKey) : Option Value :=
  match m.scope.get? key with
  | some slot => some slot.value
  | none => (m.constant? key).or ((m.signalValue? key).or (m.socketStatus? key))

def knowsOwner (m : Machine) (key : SlotKey) : Bool :=
  (m.scope.get? (.plain key.owner)).isSome || m.scope.owns key.owner ||
    (m.signals.signal? (elementName key.owner 1)).isSome

def missing (m : Machine) (key : SlotKey) : Fault :=
  if key.firstIndex?.isSome && m.knowsOwner key then .indexOutOfRange key
  else .undefinedVariable key

def trackIndex (m : Machine) (key : SlotKey) : Machine :=
  match key.arrayName?, key.firstIndex? with
  | some name, some i => { m with lastModified := m.lastModified.insert name i, lastAny := i }
  | _, _ => m

/-- What a write to a key reaches. -/
inductive Target where
  | slot (slot : Slot)
  | signal (signal : Signal)

def target (m : Machine) (key : SlotKey) : Except Fault Target :=
  match m.scope.get? key with
  | some slot => .ok (.slot slot)
  | none =>
    if (m.constant? key).isSome then .error (.constantAssigned key.owner)
    else
      match m.signals.ofKey? key with
      | some s =>
        if s.type.isInput && s.type != .bufferInput then .error (.inputAssigned s.name)
        else .ok (.signal s)
      | none => .error (m.missing key)

def writeSlot (m : Machine) (key : SlotKey) (slot : Slot) (v : Value) : Machine :=
  { m with scope := m.scope.set key (slot.write v) }.trackIndex key

def writeSignal (m : Machine) (key : SlotKey) (s : Signal) (v : Value) : Machine :=
  let v := s.coerce v
  let m := { m with signals := m.signals.store s v }.trackIndex key
  if s.type.isInput then m else m.tell (.output s.type.kind s.name v)

def writeTo (m : Machine) (key : SlotKey) (v : Value) : Target → Machine
  | .slot slot => m.writeSlot key slot v
  | .signal s => m.writeSignal key s v

end Machine

namespace Run

def readKey (key : SlotKey) : Run Value := do
  let m ← get
  match m.read? key with
  | some v => return v
  | none => fault (m.missing key)

def tryWrite (key : SlotKey) (v : Value) : Run (Option Fault) := fun m =>
  match m.target key with
  | .ok target => .ok none (m.writeTo key v target)
  | .error f => .ok (some f) m

def writeKey (key : SlotKey) (v : Value) : Run Unit := do
  match ← tryWrite key v with
  | none => return
  | some f => fault f

end Run

end ControlLogic
