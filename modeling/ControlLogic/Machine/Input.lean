import ControlLogic.Machine.Eval
import ControlLogic.Program.Document

/-!
Inputs and the handlers they start. A handler runs to its end at once, with frames and steps of its
own, and leaves the code that it interrupts as it was. Handlers that fail do not hold up the others.
-/

set_option autoImplicit false
set_option relaxedAutoImplicit false

namespace ControlLogic

/-- Where code stands: its frames, how it runs, and the steps and calls it has taken. -/
structure Standing where
  frames : List Frame
  mode : Mode
  steps : Nat
  depth : Nat

namespace Machine

def standing (m : Machine) : Standing :=
  ⟨m.scope.frames, m.mode, m.steps, m.depth⟩

/-- Goes on where code stands. -/
def resume (m : Machine) (s : Standing) : Machine :=
  { m with
    scope := { m.scope with frames := s.frames }
    mode := s.mode
    steps := s.steps
    depth := s.depth }

/-- Begins code that runs to its end at once, on frames of its own and with its own steps. -/
def isolate (m : Machine) (frames : List Frame) : Machine :=
  m.resume ⟨frames, .immediate, 0, 0⟩

end Machine

/-- Runs something on frames of its own, with its own steps, to its end at once. -/
def Run.isolated {α : Type} (frames : List Frame) (x : Run α) : Run α := fun m =>
  match x (m.isolate frames) with
  | .ok a m' => .ok a (m'.resume m.standing)
  | .error u m' => .error u (m'.resume m.standing)

def Run.handlerBody (h : Handler) : Run Flow := do
  let frame ← localFrame h.locals {}
  modify fun m => { m with scope := m.scope.push frame }
  immediateBlock h.body

namespace Machine

def after {α : Type} (m : Machine) (x : Run α) : Machine :=
  match x m with
  | .ok _ m => m
  | .error _ m => m

/-- The machine after a run in the background; the host is told of faults and of too many steps. -/
def background {α : Type} (m : Machine) (x : Run α) : Machine :=
  match x m with
  | .error .stepLimit m => m.tell (.error ⟨.stepLimit, none⟩)
  | .error (.fault f pos) m => m.tell (.error ⟨.fault f, pos⟩)
  | .error _ m => m
  | .ok _ m => m

def runHandler (m : Machine) (h : Handler) : Machine :=
  m.background (Run.isolated [] (Run.handlerBody h))

/-- The handlers of a trigger on any of some names in upper case, in the order of the program. -/
def handlersOf (m : Machine) (trigger : Trigger) (names : List String) : List Handler :=
  m.program.handlers.filter fun h => h.trigger == trigger && names.contains (Text.upper h.signal)

def dispatch (m : Machine) (trigger : Trigger) (names : List String) : Machine :=
  (m.handlersOf trigger names).foldl runHandler m

/-- The names a handler can have a signal under: its own, and that of its array. -/
def signalNames (s : Signal) : List String :=
  Text.upper s.name :: (s.baseName?.map Text.upper).toList

/-- The input of a name, if it has one of some types; else what the host is told. -/
def input (m : Machine) (name : String) (types : List SignalType) : Except String Signal :=
  match m.signals.signal? name with
  | none => .error s!"Unknown input '{name}'"
  | some s =>
    if types.contains s.type then .ok s
    else .error ("'" ++ s.name ++ "' is not a " ++ (types.head?.map SignalType.label).getD "")

def keepInput (m : Machine) (s : Signal) (v : Value) : Machine :=
  let m := { m with signals := m.signals.store s v }
  match s.baseName?, s.index? with
  | some base, some i => m.trackIndex (.element (Text.upper base) i)
  | _, _ => m

/-- Keeps a new value of an input and runs the handlers of a trigger on it. -/
def drive (m : Machine) (s : Signal) (v : Value) (trigger : Trigger) : Machine :=
  (m.keepInput s v).dispatch trigger (signalNames s)

/-- Drives a digital input; nothing happens unless its value changes. -/
def setDigital (m : Machine) (name : String) (n : Int) : Machine :=
  match m.input name [.digitalInput] with
  | .error notice => m.tell (.notice notice)
  | .ok s =>
    let v := s.coerce (.number n)
    if m.signals.value? s.name = some v then m
    else m.drive s v (if v.holds then .push else .release)

/-- Drives an analog input; nothing happens unless its value changes. -/
def setAnalog (m : Machine) (name : String) (n : Int) : Machine :=
  match m.input name [.analogInput] with
  | .error notice => m.tell (.notice notice)
  | .ok s =>
    let v := s.coerce (.number n)
    if m.signals.value? s.name = some v then m else m.drive s v .change

/-- Drives a string input, where nothing happens unless its text changes, or adds to a buffer. -/
def setSerial (m : Machine) (name text : String) : Machine :=
  match m.input name [.stringInput, .bufferInput] with
  | .error notice => m.tell (.notice notice)
  | .ok s =>
    let current := ((m.signals.value? s.name).map Value.toText).getD ""
    if s.type = .bufferInput then m.drive s (s.coerce (.text (current ++ text))) .change
    else
      let v := s.coerce (.text text)
      if v.toText = current then m else m.drive s v .change

def stop (m : Machine) : Machine :=
  { m with abort := true }

def apply (m : Machine) : Stimulus → Machine
  | .digital name n => m.setDigital name n
  | .analog name n => m.setAnalog name n
  | .serial name text => m.setSerial name text
  | .stop => m.stop

end Machine

end ControlLogic
