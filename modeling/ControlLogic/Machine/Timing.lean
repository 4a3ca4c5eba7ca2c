import ControlLogic.Machine.Place

/-!
Routines that let time pass or put work off. How time passes up to a moment is a parameter, `pump`;
it is used only by code that cooperates.
-/

set_option autoImplicit false
set_option relaxedAutoImplicit false

namespace ControlLogic.Run

/-- A duration in hundredths of a second, in milliseconds; a negative one is zero, and none is
longer than an unsigned 64-bit number of milliseconds. -/
def hundredths (n : Int) : Nat :=
  min (n.toNat * 10) (18446744073709551615)

/-- Lets time pass; code that runs to its end at once only notes that it cannot. -/
def suspend (pump : Nat → Run Unit) (delay : Nat) (what : String) : Run Unit := do
  let m ← get
  if m.mode = .immediate then
    notice s!"{what} has no effect inside an event"
  else
    checkAbort
    pump (m.now + delay)

def waitLabel (label : Option String) : Run String := do
  match label with
  | some name => return Text.upper name
  | none =>
    modifyGet fun m =>
      let n := m.anonymousWaits + 1
      ("__WAIT_" ++ Number.decimal (Int.ofNat n), { m with anonymousWaits := n })

/-- Puts off the body of a wait, unless one of its label is put off already. -/
def scheduleWait (delay : Nat) (label : Option String) (body : List Stmt) : Run Unit := do
  checkAbort
  let name ← waitLabel label
  let m ← get
  if (m.waits.get? name).any fun w => m.schedule.isPending w.timer then
    notice s!"Wait '{name}' is already pending"
  else
    modify fun m =>
      let (timer, schedule) := m.schedule.plan delay (.waitBody name)
      { m with
        schedule := schedule
        waits := m.waits.insert name ⟨timer, body, m.scope.frames⟩ }

def cancelWait (name : String) : Run Unit :=
  modify fun m =>
    match m.waits.get? name with
    | some w => { m with waits := m.waits.erase name, schedule := (m.schedule.cancel w.timer).2 }
    | none => m

def cancelAllWaits : Run Unit :=
  modify fun m =>
    { m with
      waits := {}
      schedule := m.waits.fold (fun schedule _ w => (schedule.cancel w.timer).2) m.schedule }

def retimeWait (delay : Nat) (name : String) : Run Unit :=
  modify fun m =>
    match m.waits.get? name with
    | some w => { m with schedule := (m.schedule.retime w.timer delay).2 }
    | none => m

def pulse (eval : Expr → Run Value) (args : List Expr) : Run Unit := do
  let delay := hundredths (← argNumber eval args 0)
  match args[1]? with
  | none => fault .pulseWithoutOutput
  | some e =>
    let key ← resolveKey eval e
    writeKey key (.number 1)
    plan delay (.pulseEnd key.render)

def createThread (name : String) : Run Unit := do
  if (← get).functions.contains name then
    plan 0 (.spawn name)
  else
    fault (.unknownFunction name)

/-- The milliseconds between two tries to enter a section. -/
def criticalPoll : Nat := 10

def holdSection (name : String) : Run Unit :=
  modify fun m => { m with critical := m.critical.insert name }

def freeSection (name : String) : Run Unit :=
  modify fun m => { m with critical := m.critical.erase name }

/-- A try to enter a section: one if it is free, zero if it is held and the code cannot wait. -/
def tryCritical (pump : Nat → Run Unit) (name : String) : Run (Option Value) := do
  let m ← get
  if !m.critical.contains name then
    holdSection name
    return some (.number 1)
  else if m.mode = .immediate then
    notice s!"Critical section '{name}' is held"
    return some .zero
  else
    tick
    suspend pump criticalPoll "EnterCriticalSection"
    return none

def timingRoutine (eval : Expr → Run Value) (pump : Nat → Run Unit) (fuel : Nat) (name : String)
    (args : List Expr) : Option (Run Value) :=
  match name with
  | "DELAY" => some do
    let delay := hundredths (← argNumber eval args 0)
    suspend pump delay "Delay"
    return .zero
  | "PROCESSLOGIC" => some do
    if (← get).mode = .cooperative then suspend pump 0 "ProcessLogic"
    return .zero
  | "PULSE" => some do
    pulse eval args
    return .zero
  | "CANCELWAIT" => some do
    cancelWait (← argName eval args 0)
    return .zero
  | "CANCELALLWAIT" => some do
    cancelAllWaits
    return .zero
  | "RETIMEWAIT" => some do
    let delay := hundredths (← argNumber eval args 0)
    retimeWait delay (← argName eval args 1)
    return .zero
  | "CREATETHREAD" => some do
    createThread (← argName eval args 0)
    return .zero
  | "ENTERCRITICALSECTION" => some do
    let section_ ← argName eval args 0
    repeatUntil (tryCritical pump section_) fuel
  | "EXITCRITICALSECTION" => some do
    let section_ ← argName eval args 0
    freeSection section_
    return .zero
  | _ => none

end ControlLogic.Run
