import ControlLogic.Proofs.Machine.Pumping

/-!
The stimuli a machine is sent, from the moment they are sent to the moment they are taken and
applied. Each step of a machine leaves the stimuli that wait alone or does one of a few things to
them, which is put down: so what was sent since a program was loaded is what was taken, in the same
order, and then what waits.
-/

set_option autoImplicit false
set_option relaxedAutoImplicit false

namespace ControlLogic

/--
What is put down about the stimuli. One is sent; it is taken and applied as a whole; an order to
stop may be dropped instead, while a machine settles; a host may set an input by itself; and all
are forgotten with the program.
-/
inductive Intake where
  | sent (stimulus : Stimulus)
  | taken (stimulus : Stimulus)
  | dropped
  | set (stimulus : Stimulus)
  | forgotten
  deriving DecidableEq, Repr

namespace Intake

def isHosts : Intake → Bool
  | sent _ | set _ | forgotten => true
  | taken _ | dropped => false

/-- What becomes of a stimulus when all that wait are taken to settle. -/
def settled (stimulus : Stimulus) : Intake :=
  if stimulus = .stop then dropped else taken stimulus

def keepSent (stimuli : List Stimulus) : Intake → List Stimulus
  | sent stimulus => stimuli ++ [stimulus]
  | forgotten => []
  | taken _ | dropped | set _ => stimuli

/-- The stimuli taken since all were forgotten, after one more entry. -/
def keepTaken (stimuli : List Stimulus) : Intake → List Stimulus
  | taken stimulus => stimuli ++ [stimulus]
  | forgotten => []
  | sent _ | dropped | set _ => stimuli

def allSent (log : List Intake) : List Stimulus :=
  log.foldl keepSent []

def allTaken (log : List Intake) : List Stimulus :=
  log.foldl keepTaken []

private theorem allSent_append_single (log : List Intake) (entry : Intake) :
    allSent (log ++ [entry]) = keepSent (allSent log) entry := by
  simp [allSent]

private theorem allTaken_append_single (log : List Intake) (entry : Intake) :
    allTaken (log ++ [entry]) = keepTaken (allTaken log) entry := by
  simp [allTaken]

private theorem isHosts_settled (stimulus : Stimulus) : (settled stimulus).isHosts = false := by
  unfold settled
  split <;> rfl

private theorem allSent_append_settled (log : List Intake) (stimuli : List Stimulus) :
    allSent (log ++ stimuli.map settled) = allSent log := by
  induction stimuli using List.reverseRecOn with
  | nil => simp
  | append_singleton stimuli stimulus ih =>
    rw [List.map_append, ← List.append_assoc, List.map_singleton, allSent_append_single, ih]
    unfold settled
    split <;> rfl

private theorem allTaken_append_settled (log : List Intake) (stimuli : List Stimulus) :
    allTaken (log ++ stimuli.map settled) = allTaken log ++ stimuli.filter (· != .stop) := by
  induction stimuli using List.reverseRecOn with
  | nil => simp
  | append_singleton stimuli stimulus ih =>
    rw [List.map_append, ← List.append_assoc, List.map_singleton, allTaken_append_single, ih]
    unfold settled
    by_cases hstop : stimulus = .stop
    · simp [hstop, keepTaken]
    · simp [hstop, keepTaken]

end Intake

namespace Machine

/--
One thing that leaves the stimuli that wait alone. Code makes an elementary run, or enters or leaves
a call; code that interrupts other code begins, on frames of its own or in the place of a wait, and
goes back; time passes, and work that was planned is taken, or done as a whole if it is a stimulus;
and a host stops the machine, plans a stimulus, or changes files and the network.
-/
inductive Quiet : Machine → Machine → Prop
  | run {α : Type} {x : Run α} (h : Run.Elementary x) (m : Machine) : Quiet m (m.after x)
  | enter (m : Machine) (frame : Frame) : Quiet m (m.enter frame)
  | leave (m : Machine) : Quiet m m.leave
  | stand (m : Machine) (standing : Standing) : Quiet m (m.resume standing)
  | push (m : Machine) (frame : Frame) : Quiet m { m with scope := m.scope.push frame }
  | beginWait (m : Machine) (label : String) : Quiet m { m with waits := m.waits.erase label }
  | abort (m : Machine) (wish : Bool) : Quiet m { m with abort := wish }
  | received (m : Machine) (data name : String) :
      Quiet m { m with scope.globals := addReceived data m.scope.globals name }
  | idle {m : Machine} {deadline : Nat} (h : (m.popDue deadline).1 = none) :
      Quiet m (m.popDue deadline).2
  | work {m : Machine} {deadline timer : Nat} {task : Task}
      (h : (m.popDue deadline).1 = some (timer, task))
      (htask : ∀ stimulus, task ≠ .stimulus stimulus) : Quiet m (m.popDue deadline).2
  | due {m : Machine} {deadline timer : Nat} {stimulus : Stimulus}
      (h : (m.popDue deadline).1 = some (timer, .stimulus stimulus)) :
      Quiet m ((m.popDue deadline).2.runTask (.stimulus stimulus))
  | wait {m : Machine} (deadline : Nat) (h : m.receive.1 = none) :
      Quiet m (m.waitUntil deadline).2
  | plan (m : Machine) (delay : Nat) (stimulus : Stimulus) :
      Quiet m (m.scheduleStimulus delay stimulus).2
  | files (m : Machine) (f : FileSystem → FileSystem) : Quiet m { m with files := f m.files }
  | network (m : Machine) (f : Network → Network) : Quiet m { m with network := f m.network }

/--
Steps of a machine one after another, and what is put down about the stimuli, the latest last. One
can be sent between any two of them. It is taken when it has waited longest, and then applied, with
all that its handlers do; while a machine settles, all that wait are taken like this, but for orders
to stop.
-/
inductive Intakes (m : Machine) : List Intake → Machine → Prop
  | none : Intakes m [] m
  | quiet {log : List Intake} {m' m'' : Machine} (h : Intakes m log m') (hquiet : m'.Quiet m'') :
      Intakes m log m''
  | send {log : List Intake} {m' : Machine} (h : Intakes m log m') (stimulus : Stimulus) :
      Intakes m (log ++ [.sent stimulus]) (m'.send stimulus)
  | take {log : List Intake} {m' : Machine} {stimulus : Stimulus} (h : Intakes m log m')
      (hnext : m'.receive.1 = some stimulus) :
      Intakes m (log ++ [.taken stimulus]) (m'.receive.2.apply stimulus)
  | drain {log : List Intake} {m' : Machine} (h : Intakes m log m') :
      Intakes m (log ++ m'.schedule.inbox.map Intake.settled) m'.drain
  | set {log : List Intake} {m' : Machine} (h : Intakes m log m') (stimulus : Stimulus) :
      Intakes m (log ++ [.set stimulus]) (m'.apply stimulus)
  | load {log : List Intake} {m' : Machine} (h : Intakes m log m') (text : String) :
      Intakes m (log ++ [.forgotten]) (m'.load text).2
  | reset {log : List Intake} {m' : Machine} (h : Intakes m log m') :
      Intakes m (log ++ [.forgotten]) m'.reset

theorem Intakes.trans {a b c : Machine} {log later : List Intake} (h : a.Intakes log b)
    (h' : b.Intakes later c) : a.Intakes (log ++ later) c := by
  induction h' with
  | none =>
    rw [List.append_nil]
    exact h
  | quiet _ hquiet ih => exact ih.quiet hquiet
  | send _ stimulus ih =>
    rw [← List.append_assoc]
    exact ih.send stimulus
  | take _ hnext ih =>
    rw [← List.append_assoc]
    exact ih.take hnext
  | drain _ ih =>
    rw [← List.append_assoc]
    exact ih.drain
  | set _ stimulus ih =>
    rw [← List.append_assoc]
    exact ih.set stimulus
  | load _ text ih =>
    rw [← List.append_assoc]
    exact ih.load text
  | reset _ ih =>
    rw [← List.append_assoc]
    exact ih.reset

/-! ### What waits -/

theorem inbox_apply (m : Machine) (stimulus : Stimulus) :
    (m.apply stimulus).schedule.inbox = m.schedule.inbox :=
  (standsStill_background.apply m stimulus).inbox

theorem inbox_drain (m : Machine) : m.drain.schedule.inbox = [] :=
  (Run.relates_foldl standsStill_background.refl .trans standsStill_background.apply _ _).inbox

private theorem inbox_load (m : Machine) (text : String) : (m.load text).2.schedule.inbox = [] :=
  congrArg Schedule.inbox (m.declares_load text).schedule

theorem Quiet.inbox {m m' : Machine} (h : m.Quiet m') :
    m'.schedule.inbox = m.schedule.inbox := by
  cases h with
  | run h =>
    exact (h.relates standsStill_background.refl .trans Run.Primitive.standsStill m).inbox
  | idle h => exact (popDue_none h).2.2.1
  | work h =>
    obtain ⟨_, -, -, -, -, hinbox⟩ := popDue_some h
    exact hinbox
  | due h =>
    obtain ⟨_, -, -, -, -, hinbox⟩ := popDue_some h
    exact (inbox_apply _ _).trans hinbox
  | wait deadline h =>
    obtain ⟨hinbox, -⟩ := receive_none h
    unfold waitUntil Schedule.waitUntil
    rw [hinbox]
  | _ => rfl

/-- What was sent since all was forgotten is what was taken, in order, and then what waits, but for
orders to stop. -/
theorem Intakes.sent_eq {m m' : Machine} {log : List Intake} (h : m.Intakes log m')
    (hm : m.schedule.inbox = []) :
    (Intake.allSent log).filter (· != .stop) =
      (Intake.allTaken log).filter (· != .stop) ++ m'.schedule.inbox.filter (· != .stop) := by
  induction h with
  | none => simp [hm, Intake.allSent, Intake.allTaken]
  | quiet _ hquiet ih => rw [hquiet.inbox, ih]
  | @send log m' _ stimulus ih =>
    have hinbox : (m'.send stimulus).schedule.inbox = m'.schedule.inbox ++ [stimulus] := rfl
    rw [Intake.allSent_append_single, Intake.allTaken_append_single, hinbox]
    simp only [Intake.keepSent, Intake.keepTaken, List.filter_append]
    rw [ih, List.append_assoc]
  | @take log m' stimulus _ hnext ih =>
    obtain ⟨rest, hinbox, hreceived⟩ := receive_some hnext
    have hleft : (m'.receive.2.apply stimulus).schedule.inbox = rest := by
      rw [inbox_apply, hreceived]
    rw [Intake.allSent_append_single, Intake.allTaken_append_single, hleft]
    simp only [Intake.keepSent, Intake.keepTaken, List.filter_append]
    have hcons : stimulus :: rest = [stimulus] ++ rest := rfl
    rw [ih, hinbox, hcons, List.filter_append, List.append_assoc]
  | @drain log m' _ ih =>
    rw [Intake.allSent_append_settled, Intake.allTaken_append_settled, inbox_drain, ih]
    simp
  | @set log m' _ stimulus ih =>
    rw [Intake.allSent_append_single, Intake.allTaken_append_single, inbox_apply]
    exact ih
  | @load log m' _ text _ =>
    rw [Intake.allSent_append_single, Intake.allTaken_append_single, inbox_load]
    rfl
  | @reset log m' _ _ =>
    rw [Intake.allSent_append_single, Intake.allTaken_append_single]
    rfl

/-! ### What a machine does -/

/-- A machine comes after another one, with nothing put down on the way but what is allowed. -/
def TakesIn (Allowed : Intake → Prop) (m m' : Machine) : Prop :=
  ∃ log, m.Intakes log m' ∧ ∀ entry ∈ log, Allowed entry

section

variable {Allowed : Intake → Prop}

theorem takesIn_refl (m : Machine) : TakesIn Allowed m m :=
  ⟨[], .none, by simp⟩

theorem TakesIn.trans {a b c : Machine} (h : TakesIn Allowed a b) (h' : TakesIn Allowed b c) :
    TakesIn Allowed a c := by
  obtain ⟨log, hlog, hallowed⟩ := h
  obtain ⟨later, hlater, hallowed'⟩ := h'
  exact ⟨log ++ later, hlog.trans hlater, List.forall_mem_append.mpr ⟨hallowed, hallowed'⟩⟩

private theorem Quiet.takesIn {m m' : Machine} (h : m.Quiet m') : TakesIn Allowed m m' :=
  ⟨[], .quiet .none h, by simp⟩

private theorem takesIn_calling : Calling (TakesIn Allowed) where
  refl := takesIn_refl
  trans := .trans
  elementary h m := (Quiet.run h m).takesIn
  enter frame _ := (Quiet.enter _ frame).takesIn
  leave m := (Quiet.leave m).takesIn

private theorem takesIn_isolated {α : Type} {x : Run α} (hx : Run.Relates (TakesIn Allowed) x)
    (m : Machine) (frames : List Frame) :
    TakesIn Allowed m (m.after (Run.isolated frames x)) := by
  rw [after_isolated]
  exact ((Quiet.stand m ⟨frames, .immediate, 0, 0⟩).takesIn.trans (hx (m.isolate frames))).trans
    (Quiet.stand _ m.standing).takesIn

private theorem takesIn_handlerBody (h : Handler) :
    Run.Relates (TakesIn Allowed) (Run.handlerBody h) := by
  have hlocals : Run.Relates (TakesIn Allowed) (Run.localFrame h.locals {}) :=
    fun m => ((takesIn_calling.closed.congruence.localFrame h.locals {}).2 m).1
  have hpush (frame : Frame) : Run.Relates (TakesIn Allowed)
      (modify fun m => { m with scope := m.scope.push frame }) :=
    Run.relates_modify fun m => (Quiet.push m frame).takesIn
  exact hlocals.bind .trans fun frame =>
    (hpush frame).bind .trans fun _ => takesIn_calling.immediateBlock h.body

private theorem takesIn_attending : Attending (TakesIn Allowed) where
  refl := takesIn_refl
  trans := .trans
  tell m event := (Quiet.run (.tell event) m).takesIn
  handler m h := takesIn_isolated (takesIn_handlerBody h) m []
  thread m index := takesIn_isolated (takesIn_calling.immediateCall index) m []
  wait {m label w} _ := (Quiet.beginWait m label).takesIn.trans
    (takesIn_isolated (takesIn_calling.immediateBlock w.body) _ w.frames)
  received m data name := (Quiet.received m data name).takesIn
  network m f := (Quiet.network m f).takesIn

private theorem takesIn_runTask {m : Machine} {deadline timer : Nat} {task : Task}
    (h : (m.popDue deadline).1 = some (timer, task)) :
    TakesIn Allowed m ((m.popDue deadline).2.runTask task) := by
  by_cases hstimulus : ∃ stimulus, task = .stimulus stimulus
  · obtain ⟨stimulus, rfl⟩ := hstimulus
    exact (Quiet.due h).takesIn
  · have htask := not_exists.mp hstimulus
    have C : Calling (TakesIn Allowed) := takesIn_calling
    refine (Quiet.work h htask).takesIn.trans (takesIn_attending.runTask _ task ?_ ?_)
    · exact fun output _ => ((C.closed.congruence.writeKey (pulseKey output) .zero).2 _).1
    · exact fun stimulus hinput => absurd hinput (htask stimulus)

/-- However time passes while the entry function runs, its body takes in stimuli only as time that
passes does. -/
theorem takesIn_main {pump : Nat → Run Unit}
    (hpump : ∀ deadline, Run.Relates (Along (TakesIn Allowed)) (pump deadline)) (m : Machine)
    (frame : Frame) (body : List Stmt) :
    TakesIn Allowed m (((m.beginMain frame).after (Run.block pump m.fuel body)).endMain
      m.scope.frames) := by
  have hbody := ((takesIn_calling.respected hpump).block m.fuel body (m.beginMain frame)).1
  exact ((Quiet.stand m _).takesIn.trans hbody).trans
    (Quiet.stand _ ⟨m.scope.frames, .immediate, _, _⟩).takesIn

variable (hallowed : ∀ entry : Intake, entry.isHosts = false → Allowed entry)
include hallowed

private theorem takesIn_drain (m : Machine) : TakesIn Allowed m m.drain := by
  refine ⟨_, .drain .none, fun entry hentry => hallowed entry ?_⟩
  obtain ⟨stimulus, -, rfl⟩ := List.mem_map.mp hentry
  exact Intake.isHosts_settled stimulus

theorem takesIn_pumped : Pumped (TakesIn Allowed) where
  refl := takesIn_refl
  trans := .trans
  take h := ⟨_, .take .none h, by simpa using hallowed _ rfl⟩
  idle h := (Quiet.idle h).takesIn
  task := takesIn_runTask
  wait h := (Quiet.wait _ h).takesIn

private theorem takesIn_pump (deadline : Nat) :
    Run.Relates (Along (TakesIn Allowed)) (Run.pump deadline) :=
  ((takesIn_pumped hallowed).and balanced_passing.pumped).pump deadline

theorem takesIn_working : Working (TakesIn Allowed) where
  toPumped := takesIn_pumped hallowed
  abort m wish := (Quiet.abort m wish).takesIn
  tell m event := (Quiet.run (.tell event) m).takesIn
  main {m _ frame} body _ := takesIn_main (takesIn_pump hallowed) m frame body
  drain := takesIn_drain hallowed

end

end Machine

end ControlLogic
