import ControlLogic.Library.Table
import ControlLogic.Machine.Files
import ControlLogic.Machine.Sockets
import ControlLogic.Machine.Timing

/-!
Calls. A name means a function of the program, then a routine served by the machine, then a routine
of the library. A function works on parameters of its own; what it leaves in those passed by
reference, and in arrays and structures, goes back to the caller when it ends.
-/

set_option autoImplicit false
set_option relaxedAutoImplicit false

namespace ControlLogic

def Parameter.isWhole (p : Parameter) : Bool :=
  p.isArray ||
    match p.type with
    | .instanceOf _ => true
    | _ => false

def FunctionDef.result (f : FunctionDef) (flow : Flow) : Value :=
  match f.returnKind, flow with
  | .nothing, _ => .zero
  | .string, .returned v => .text v.toText
  | .string, _ => .empty
  | .integer, .returned v =>
    .number (((f.returnType.bind VariableType.width?).getD .unsigned16).wrap v.toNumber)
  | .integer, _ => .zero

/-- What goes back to the caller: a parameter to a slot, or all slots of a parameter to a name. -/
inductive CopyBack where
  | slot (parameter : String) (target : SlotKey)
  | whole (parameter owner : String)
  deriving DecidableEq, Repr, Inhabited

/-- The frame of a call, and what goes back after it. -/
structure Binding where
  frame : Frame := {}
  copyBacks : List CopyBack := []
  deriving Inhabited

namespace Binding

def addWhole (b : Binding) (parameter owner : String) (slots : List (SlotKey × Slot)) :
    Binding where
  frame := slots.foldl (fun frame (key, slot) => frame.insert (key.rebase parameter) slot) b.frame
  copyBacks := b.copyBacks ++ [.whole parameter (Text.upper owner)]

def addSlot (b : Binding) (parameter : String) (kind : SlotKind) (v : Value) : Binding :=
  { b with frame := b.frame.insert (.plain parameter) ((Slot.fresh kind).write v) }

def addTarget (b : Binding) (parameter : String) (target : SlotKey) : Binding :=
  { b with copyBacks := b.copyBacks ++ [.slot parameter target] }

end Binding

/-- Adds the slots of local variables to a frame; the first that has an unknown structure is the
fault. -/
def Frame.declareLocals (structures : List StructureDef) :
    List VariableDecl → Frame → Except (Fault × Position) Frame
  | [], frame => .ok frame
  | d :: rest, frame =>
    match Frame.declareVariable structures frame d with
    | .ok frame => declareLocals structures rest frame
    | .error name => .error (.unknownStructure name, d.pos)

namespace Machine

/-- Writes slots of a frame that belong to a parameter to the slots of a name that are there. -/
def copyWhole (m : Machine) (frame : Frame) (parameter owner : String) : Machine :=
  (frame.ownedBy parameter).foldl
    (fun m (key, slot) =>
      match m.scope.get? (key.rebase owner) with
      | some old => { m with scope := m.scope.set (key.rebase owner) (old.write slot.value) }
      | none => m)
    m

def enter (m : Machine) (frame : Frame) : Machine :=
  { m with scope := m.scope.push frame, depth := m.depth + 1 }

def leave (m : Machine) : Machine :=
  { m with scope := m.scope.pop.2, depth := m.depth - 1 }

def context (m : Machine) : Library.Context where
  lastIndex
    | some name => m.lastModified.getD (Text.upper name) 0
    | none => m.lastAny
  arrayKeys := m.scope.arrayKeys
  ticks := m.ticks
  moment := m.config.moment
  gather := m.gather
  chance := m.chance

end Machine

namespace Run

def localFrame (locals : List VariableDecl) (frame : Frame) : Run Frame := do
  match Frame.declareLocals (← get).program.structures locals frame with
  | .ok frame => return frame
  | .error (f, pos) => throw (.fault f (some pos))

/-- Binds a parameter to its argument, or to its initial value if there is none. -/
def bindParameter (eval : Expr → Run Value) (function : String) (p : Parameter)
    (arg : Option Expr) (b : Binding) : Run Binding := do
  let name := Text.upper p.name
  if p.isWhole then
    match arg with
    | some (.name owner) => return b.addWhole name owner ((← get).scope.ownedBy owner)
    | _ => fault (.expectedOwner p.name function)
  else
    let kind := SlotKind.ofType p.type maxCapacity
    match arg with
    | none => return b.addSlot name kind kind.initial
    | some e =>
      let b := b.addSlot name kind (← eval e)
      if p.byRef && e.isPlace then return b.addTarget name (← resolveKey eval e) else return b

def bindParameters (eval : Expr → Run Value) (function : String) :
    List Parameter → List Expr → Binding → Run Binding
  | [], _, b => return b
  | p :: ps, args, b => do
    bindParameters eval function ps args.tail (← bindParameter eval function p args.head? b)

/-- Runs in a new frame and hands the frame back. The frame is left even if the run does not end. -/
def inFrame {α : Type} (frame : Frame) (x : Run α) : Run (α × Frame) := fun m =>
  match x (m.enter frame) with
  | .ok a m => .ok (a, m.scope.pop.1.getD {}) m.leave
  | .error u m => .error u m.leave

/-- Writes slots of a frame that belong to a parameter to the slots of a name. -/
def copyWhole (frame : Frame) (parameter owner : String) : Run Unit :=
  modify (·.copyWhole frame parameter owner)

def copyBack (frame : Frame) : CopyBack → Run Unit
  | .slot parameter target => do
    if let some slot := frame.get? (.plain parameter) then writeKey target slot.value
  | .whole parameter owner => copyWhole frame parameter owner

/-- Binds the parameters of a function, runs its body and hands back what is passed by
reference. -/
def applyFunction (eval : Expr → Run Value) (block : List Stmt → Run Flow) (f : FunctionDef)
    (args : List Expr) : Run Value := do
  let b ← bindParameters eval f.name f.params args {}
  let (flow, frame) ← inFrame (← localFrame f.locals b.frame) (block f.body)
  b.copyBacks.forM (copyBack frame)
  return f.result flow

def callFunction (eval : Expr → Run Value) (block : List Stmt → Run Flow) (f : FunctionDef)
    (args : List Expr) : Run Value := do
  let m ← get
  if m.config.maxCallDepth ≤ m.depth then
    fault (.callDepthExceeded m.config.maxCallDepth f.name)
  applyFunction eval block f args

def callAt (eval : Expr → Run Value) (block : List Stmt → Run Flow) (index : Nat)
    (args : List Expr) : Run Value := do
  match (← get).program.functions[index]? with
  | some f => callFunction eval block f args
  | none => fault .missingFunction

/-- Carries out the effects of a routine in order. A write that cannot be made does not hold up what
comes after it; the first such fault is the answer. -/
def perform : List Library.Effect → Run (Option Fault)
  | [] => return none
  | .print text :: rest => do
    tell (.print text)
    perform rest
  | .notice text :: rest => do
    notice text
    perform rest
  | .write key v :: rest => do
    let refused ← tryWrite key v
    let later ← perform rest
    return refused.or later

def setGather (gather : Gather) : Run Unit :=
  modify fun m => { m with gather := gather }

/-- Keeps what is left of the source of random numbers. -/
def setChance (chance : Library.Chance) : Run Unit :=
  modify fun m => { m with chance := chance }

def answer (reply : Library.Reply) : Run Value := do
  match ← perform reply.effects with
  | some f => fault f
  | none => return reply.value

def callRoutine (eval : Expr → Run Value) (routine : Library.Routine) (args : List Expr) :
    Run Value := do
  let args ← args.mapM (evalArg eval)
  let reply := routine (← get).context args
  reply.gather.forM setGather
  reply.chance.forM setChance
  answer reply

def servedRoutine (eval : Expr → Run Value) (pump : Nat → Run Unit) (fuel : Nat) (name : String)
    (args : List Expr) : Option (Run Value) :=
  (timingRoutine eval pump fuel name args).or
    ((fileRoutine eval name args).or (socketRoutine eval name args))

def call (eval : Expr → Run Value) (block : List Stmt → Run Flow) (pump : Nat → Run Unit)
    (fuel : Nat) (name : String) (args : List Expr) : Run Value := do
  let word := Text.upper name
  match (← get).functions.get? word with
  | some index => callAt eval block index args
  | none =>
    if word = "MAIN" then fault .mainCalled
    else
      match servedRoutine eval pump fuel word args with
      | some run => run
      | none =>
        match Library.lookup? word with
        | some routine => callRoutine eval routine args
        | none => fault (.unknownFunction name)

end Run

end ControlLogic
