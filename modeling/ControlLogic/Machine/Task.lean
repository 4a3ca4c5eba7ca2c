import ControlLogic.Machine.Input

/-!
Work that was put off, and the passing of time. While time passes, stimuli are taken in the order
they were sent and work is done when it falls due.
-/

set_option autoImplicit false
set_option relaxedAutoImplicit false

namespace ControlLogic

namespace Machine

def socketNames (m : Machine) (id : Int) : List String :=
  m.sockets.toList.filterMap fun (name, n) => if n = id then some name else none

def dispatchSocket (m : Machine) (trigger : Trigger) (id : Int) : Machine :=
  m.dispatch trigger (m.socketNames id)

def receiveBuffer (name : String) : SlotKey :=
  .field name "SOCKETRXBUF"

def addReceived (data : String) (globals : Frame) (name : String) : Frame :=
  match globals.get? (receiveBuffer name) with
  | some slot =>
    globals.insert (receiveBuffer name) (slot.write (.text (slot.value.toText ++ data)))
  | none => globals

def deliver (m : Machine) (id : Int) (data : String) : Machine :=
  let (delivered, network) := m.network.deliver id data
  let m := { m with network := network }
  if delivered then
    let names := m.socketNames id
    let m := { m with
      scope := { m.scope with globals := names.foldl (addReceived data) m.scope.globals } }
    m.dispatchSocket .socketReceive id
  else m

def completeConnect (m : Machine) (id : Int) : Machine :=
  let (completed, network) := m.network.completeConnect id
  let m := { m with network := network }
  if completed then m.dispatchSocket .socketConnect id else m

def runWait (m : Machine) (label : String) : Machine :=
  match m.waits.get? label with
  | some w =>
    { m with waits := m.waits.erase label }.background
      (Run.isolated w.frames (Run.immediateBlock w.body))
  | none => m

def pulseKey (output : String) : SlotKey :=
  (SlotKey.parse? output).getD (.plain (Text.upper output))

/-- Does work that was put off. A function started by itself fails in silence. -/
def runTask (m : Machine) : Task → Machine
  | .waitBody label => m.runWait label
  | .spawn function =>
    match m.functions.get? function with
    | some index => m.after (Run.isolated [] (Run.immediateCall index))
    | none => m
  | .pulseEnd output => m.background (Run.writeKey (pulseKey output) .zero)
  | .stimulus stimulus => m.apply stimulus
  | .socketConnected id => m.completeConnect id
  | .socketDeliver id data => m.deliver id data
  | .socketEvent trigger id => m.dispatchSocket trigger id

/-- Takes the stimulus that has waited longest. -/
def receive (m : Machine) : Option Stimulus × Machine :=
  let (stimulus, schedule) := m.schedule.receive
  (stimulus, { m with schedule := schedule })

/-- Takes the first work if it is due by a deadline, and moves the clock to its time. -/
def popDue (m : Machine) (deadline : Nat) : Option (Nat × Task) × Machine :=
  let (next, schedule) := m.schedule.popDue deadline
  (next, { m with schedule := schedule })

/-- Moves the clock to the next work or to a deadline, unless a stimulus waits, which is then
taken. -/
def waitUntil (m : Machine) (deadline : Nat) : Option Stimulus × Machine :=
  let moment := min ((m.schedule.nextDue?).getD deadline) deadline
  let (stimulus, schedule) := m.schedule.waitUntil moment
  (stimulus, { m with schedule := schedule })

end Machine

namespace Run

/-- Takes a stimulus; the order to stop stops code that cooperates at once. -/
def accept (stimulus : Stimulus) : Run Unit := do
  modify (·.apply stimulus)
  if stimulus = .stop then checkAbort

/-- Takes stimuli that wait, at most the given number. -/
def acceptWaiting : Nat → Run Unit
  | 0 => return
  | n + 1 => do
    match ← modifyGet Machine.receive with
    | some stimulus =>
      accept stimulus
      acceptWaiting n
    | none => return

/-- A round of passing time: takes all stimuli, then does the first work that is due by the
deadline; if there is none, moves the clock. -/
def pumpRound (deadline : Nat) : Run (Option Unit) := do
  checkAbort
  acceptWaiting (← get).schedule.inbox.length
  match ← modifyGet (·.popDue deadline) with
  | some (_, task) =>
    modify (·.runTask task)
    return none
  | none =>
    if deadline ≤ (← get).now then return some ()
    else
      if let some stimulus ← modifyGet (·.waitUntil deadline) then accept stimulus
      return none

def pump (deadline : Nat) : Run Unit := fun m =>
  repeatUntil (pumpRound deadline) m.config.rounds m

end Run

end ControlLogic
