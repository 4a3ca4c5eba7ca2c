import ControlLogic.Machine.Load
import ControlLogic.Machine.Task

/-!
What a host does with a machine: run the entry function, let time pass, send stimuli, and look at
values.
-/

set_option autoImplicit false
set_option relaxedAutoImplicit false

namespace ControlLogic.Machine

def new (config : Settings) : Machine := { config := config, chance := config.chance }

/-- How a run of the entry function ended; the host is told of faults and of too many steps. -/
def conclude (m : Machine) : Except Unwind Flow → RunOutcome × Machine
  | .ok _ => (.completed, m)
  | .error .terminated => (.completed, m)
  | .error .aborted => (.stopped, m)
  | .error .stepLimit => (.stepLimitExceeded, m.tell (.error ⟨.stepLimit, none⟩))
  | .error (.fault f pos) => (.failed ⟨.fault f, pos⟩, m.tell (.error ⟨.fault f, pos⟩))
  | .error .exhausted => (.unfinished, m)

def beginMain (m : Machine) (frame : Frame) : Machine :=
  m.resume ⟨[frame], .cooperative, 0, 0⟩

def endMain (m : Machine) (frames : List Frame) : Machine :=
  { m with scope := { m.scope with frames := frames }, mode := .immediate }

def runBody (m : Machine) (frame : Frame) (body : List Stmt)
    (pump : Nat → Run Unit := Run.pump) : RunOutcome × Machine :=
  match Run.block pump m.fuel body (m.beginMain frame) with
  | .ok flow m' => (m'.endMain m.scope.frames).conclude (.ok flow)
  | .error u m' => (m'.endMain m.scope.frames).conclude (.error u)

/-- Runs the entry function. How time passes while it waits is a parameter. -/
def runMain (m : Machine) (pump : Nat → Run Unit := Run.pump) : RunOutcome × Machine :=
  let m := { m with abort := false }
  match m.program.main with
  | none => (.noMain, m)
  | some main =>
    match Frame.declareLocals m.program.structures main.locals {} with
    | .ok frame => m.runBody frame main.body pump
    | .error (f, pos) => (.failed ⟨.fault f, some pos⟩, m.tell (.error ⟨.fault f, some pos⟩))

/-- Lets time pass up to a deadline; the order to stop ends this early. -/
def passUntil (m : Machine) (deadline : Nat) : Machine :=
  m.after (Run.pump deadline)

/-- Lets some milliseconds pass. -/
def advance (m : Machine) (duration : Nat) : Machine :=
  m.passUntil (m.now + duration)

/-- Takes all stimuli that wait; orders to stop are dropped. -/
def drain (m : Machine) : Machine :=
  let waiting := m.schedule.inbox.filter (· != .stop)
  waiting.foldl apply { m with schedule := { m.schedule with inbox := [] } }

def settleLimit : Nat := 10000

/-- Rounds of settling: take the stimuli, then do the work that is due first. -/
def settleRounds : Nat → Machine → Machine
  | 0, m => m
  | n + 1, m =>
    let m := m.drain
    match m.schedule.nextDue? with
    | some due => settleRounds n (m.passUntil due)
    | none => m

def settle (m : Machine) : Machine :=
  settleRounds settleLimit m

def scheduleStimulus (m : Machine) (delay : Nat) (stimulus : Stimulus) : Nat × Machine :=
  let (id, schedule) := m.schedule.plan delay (.stimulus stimulus)
  (id, { m with schedule := schedule })

def send (m : Machine) (stimulus : Stimulus) : Machine :=
  { m with schedule := m.schedule.send stimulus }

def requestStop (m : Machine) : Machine :=
  m.stop.send .stop

/-- The value of what a text names: a variable, a constant or a signal. -/
def valueOf? (m : Machine) (path : String) : Option Value :=
  SlotKey.parse? path >>= m.read?

def socketId? (m : Machine) (name : String) : Option Int :=
  m.sockets.get? (Text.upper name)

end ControlLogic.Machine
