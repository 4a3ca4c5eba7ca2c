import Std.Data.HashSet
import ControlLogic.FileSystem.Basic
import ControlLogic.Machine.Config
import ControlLogic.Machine.Fault
import ControlLogic.Network.Basic
import ControlLogic.Schedule
import ControlLogic.Signal

/-!
The state of a machine that runs a program, and the runs over it. A run ends with a value or leaves
everything in progress; the state is kept either way.
-/

set_option autoImplicit false
set_option relaxedAutoImplicit false

namespace ControlLogic

/-- What the host is told. -/
inductive Event where
  | print (text : String)
  | output (kind : SignalKind) (name : String) (value : Value)
  | error (diagnostic : Diagnostic)
  | notice (text : String)
  deriving DecidableEq, Repr, Inhabited

/-- How code runs: the entry function cooperates, so it can be suspended and stopped; all else runs
to its end at once. -/
inductive Mode where
  | cooperative
  | immediate
  deriving DecidableEq, Repr, Inhabited

/-- Work that is put off. -/
inductive Task where
  | waitBody (label : String)
  | spawn (function : String)
  | pulseEnd (output : String)
  | stimulus (stimulus : Stimulus)
  | socketConnected (id : Int)
  | socketDeliver (id : Int) (data : String)
  | socketEvent (trigger : Trigger) (id : Int)
  deriving DecidableEq, Repr, Inhabited

/-- The body of a wait that is put off: the number of its timer, its statements, and the variables
in scope where it stands. -/
structure PendingWait where
  timer : Nat
  body : List Stmt
  frames : List Frame
  deriving Inhabited

/--
The state of a machine. Names are in upper case. `functions` has the places of the functions in the
program; `chance` is the source of the random numbers to come; `lastModified` has the index written
last in each array and `lastAny` in any; `waits` has the waits put off by label; `critical` has the
sections that are held; `log` has all the host was told.
-/
structure Machine where
  config : Settings := {}
  program : Program := {}
  functions : Std.HashMap String Nat := {}
  constants : Std.HashMap String Value := {}
  scope : Scope := {}
  signals : SignalTable := {}
  sockets : Std.HashMap String Int := {}
  lastModified : Std.HashMap String Int := {}
  lastAny : Int := 0
  gather : Gather := {}
  chance : Library.Chance := default
  waits : Std.HashMap String PendingWait := {}
  anonymousWaits : Nat := 0
  critical : Std.HashSet String := {}
  schedule : Schedule Task := {}
  files : FileSystem := {}
  network : Network := {}
  abort : Bool := false
  mode : Mode := .immediate
  steps : Nat := 0
  depth : Nat := 0
  log : Array Event := #[]
  deriving Inhabited

abbrev Run := EStateM Unwind Machine

namespace Machine

def tell (m : Machine) (event : Event) : Machine :=
  { m with log := m.log.push event }

/-- The milliseconds since the start. -/
def now (m : Machine) : Nat :=
  m.schedule.now

def mustAbort (m : Machine) : Bool :=
  m.mode == .cooperative && m.abort

/-- The hundredths of a second since the start, as a signed 64-bit integer. -/
def ticks (m : Machine) : Int :=
  Number.wrap (Int.ofNat (m.now / 10))

/-- Enough fuel for every run that starts without a step taken: each level of nesting and each round
of a loop takes a step. -/
def fuel (m : Machine) : Nat :=
  m.config.stepLimit + 2

end Machine

namespace Run

def tell (event : Event) : Run Unit :=
  modify (·.tell event)

def notice (text : String) : Run Unit :=
  tell (.notice text)

/-- Leaves everything in progress with a fault that has no place yet. -/
def fault {α : Type} (f : Fault) : Run α :=
  throw (.fault f none)

def checkAbort : Run Unit := do
  if (← get).mustAbort then throw .aborted

def tick : Run Unit := fun m =>
  let m := { m with steps := m.steps + 1 }
  if m.config.stepLimit < m.steps then .error .stepLimit m
  else if m.mustAbort then .error .aborted m
  else .ok () m

def locatedAt {α : Type} (p : Position) (x : Run α) : Run α := fun m =>
  match x m with
  | .ok a m => .ok a m
  | .error u m => .error (u.located p) m

/-- Plans work, unless the host wants the code running now to stop. -/
def plan (delay : Nat) (task : Task) : Run Unit := do
  checkAbort
  modify fun m => { m with schedule := (m.schedule.plan delay task).2 }

def repeatUntil {α : Type} (round : Run (Option α)) : Nat → Run α
  | 0 => throw .exhausted
  | fuel + 1 => do
    match ← round with
    | none => repeatUntil round fuel
    | some a => return a

end Run

end ControlLogic
