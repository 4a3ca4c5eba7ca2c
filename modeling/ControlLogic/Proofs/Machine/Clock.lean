import ControlLogic.Proofs.Machine.Coverage

/-!
Time on a machine. The clock never goes back and never passes work that is planned, so that work is
done exactly when it is due; code that runs to its end at once takes no time; and when time has
passed up to a deadline, all that was due by it has been done.
-/

set_option autoImplicit false
set_option relaxedAutoImplicit false

namespace ControlLogic

namespace Machine

theorem schedule_load (m : Machine) (text : String) :
    (m.load text).2.schedule = m.schedule.clear :=
  (m.declares_load text).schedule

private theorem schedule_keepInput (m : Machine) (s : Signal) (v : Value) :
    (m.keepInput s v).schedule = m.schedule := by
  obtain ⟨signals, indices, last, h⟩ := m.keepInput_eq s v
  rw [h]

end Machine

theorem Step.changes {s s' : Moment} {deeds : List Deed} (h : Step s deeds s') :
    s.machine.schedule.Changes deeds s'.machine.schedule := by
  cases h with
  | primitive _ hs => exact hs
  | schedule h => exact h.changes
  | input m k v hs =>
    dsimp only
    rw [m.schedule_keepInput]
    exact .none _
  | reset m k => exact (Schedule.Change.clear m.schedule).changes
  | load m k text =>
    dsimp only
    rw [m.schedule_load text]
    exact (Schedule.Change.clear m.schedule).changes
  | _ => exact .none _

theorem Course.onTime {config : Settings} {history : List Deed} {s : Moment}
    (h : Course ⟨Machine.new config, []⟩ history s) : s.machine.schedule.OnTime history := by
  induction h with
  | refl => exact Schedule.onTime_empty
  | step _ hstep ih => exact hstep.changes.onTime ih

theorem Moment.Leads.now_le {s s' : Moment} (h : s.Leads s') : s.machine.now ≤ s'.machine.now := by
  obtain ⟨history, hcourse⟩ := h
  induction hcourse with
  | refl => exact Nat.le_refl _
  | step _ hstep ih => exact Nat.le_trans ih hstep.changes.now_le

namespace Machine

/-- Nothing is done to the clock and to the stimuli that wait. -/
structure StandsStill (m m' : Machine) : Prop where
  now : m'.now = m.now
  inbox : m'.schedule.inbox = m.schedule.inbox

private theorem standsStill_of_eq {m m' : Machine} (h : m'.schedule = m.schedule) :
    m.StandsStill m' :=
  ⟨congrArg Schedule.now h, congrArg Schedule.inbox h⟩

theorem StandsStill.trans {a b c : Machine} (h : a.StandsStill b) (h' : b.StandsStill c) :
    a.StandsStill c :=
  ⟨h'.now.trans h.now, h'.inbox.trans h.inbox⟩

/-- Code that runs to its end at once goes on doing so, and takes no time. -/
def StaysImmediate (m m' : Machine) : Prop :=
  m.mode = .immediate → m'.mode = .immediate ∧ m.StandsStill m'

private theorem staysImmediate_refl (m : Machine) : m.StaysImmediate m :=
  fun h => ⟨h, rfl, rfl⟩

theorem StaysImmediate.trans {a b c : Machine} (h : a.StaysImmediate b)
    (h' : b.StaysImmediate c) : a.StaysImmediate c := by
  intro hmode
  obtain ⟨hmode', hstill⟩ := h hmode
  obtain ⟨hmode'', hstill'⟩ := h' hmode'
  exact ⟨hmode'', hstill.trans hstill'⟩

end Machine

namespace Run

theorem Primitive.standsStill {α : Type} {x : Run α} (h : Primitive x) :
    Relates Machine.StandsStill x :=
  fun m => ⟨(h.reschedules m).now, (h.reschedules m).inbox⟩

private theorem Primitive.staysImmediate {α : Type} {x : Run α} (h : Primitive x) :
    Relates Machine.StaysImmediate x :=
  fun m hmode => ⟨(h.reschedules m).mode.trans hmode, h.standsStill m⟩

theorem staysImmediate_respected (pump : Nat → Run Unit) :
    Respected Machine.StaysImmediate pump where
  refl := Machine.staysImmediate_refl
  trans := .trans
  elementary h := h.relates Machine.staysImmediate_refl .trans Primitive.staysImmediate
  suspend delay what := by
    intro m hmode
    have hnotice := suspend_immediate hmode pump delay what
    rw [Machine.after_ok hnotice]
    exact ⟨hmode, rfl, rfl⟩
  call {eval block} heval hblock f args := by
    have C := (relates_closed Machine.staysImmediate_refl .trans fun h =>
      h.relates Machine.staysImmediate_refl .trans Primitive.staysImmediate).congruence
    have hframe (frame : Frame) (body : List Stmt) :
        Relates Machine.StaysImmediate (inFrame frame (block body)) := by
      intro m hmode
      obtain ⟨hmode', hnow, hinbox⟩ := hblock body (m.enter frame) hmode
      rw [m.after_inFrame]
      exact ⟨hmode', hnow, hinbox⟩
    exact (C.callFunction (fun e => ⟨rfl, heval e⟩) (fun frame body => ⟨rfl, hframe frame body⟩)
      f args).2

private theorem staysImmediate_immediateBlock (body : List Stmt) :
    Relates Machine.StaysImmediate (immediateBlock body) := by
  intro m
  rw [m.after_immediateBlock]
  exact (staysImmediate_respected noPump).block m.fuel body m

private theorem staysImmediate_immediateCall (index : Nat) :
    Relates Machine.StaysImmediate (immediateCall index) := by
  intro m
  rw [m.after_immediateCall]
  exact (staysImmediate_respected noPump).callAt m.fuel index [] m

private theorem staysImmediate_handlerBody (h : Handler) :
    Relates Machine.StaysImmediate (handlerBody h) := by
  have C := (staysImmediate_respected noPump).closed.congruence
  refine (C.localFrame h.locals {}).2.bind .trans fun frame => ?_
  refine Relates.bind .trans (relates_modify fun m hmode => ⟨hmode, rfl, rfl⟩) fun _ => ?_
  exact staysImmediate_immediateBlock h.body

end Run

namespace Machine

private theorem standsStill_isolated {α : Type} {x : Run α}
    (hx : Run.Relates Machine.StaysImmediate x)
    (m : Machine) (frames : List Frame) : m.StandsStill (m.after (Run.isolated frames x)) := by
  obtain ⟨-, hnow, hinbox⟩ := hx (m.isolate frames) rfl
  rw [after_isolated]
  exact ⟨hnow, hinbox⟩

theorem standsStill_background : Background Machine.StandsStill where
  refl m := ⟨rfl, rfl⟩
  trans := .trans
  tell m event := ⟨rfl, rfl⟩
  abort m wish := ⟨rfl, rfl⟩
  handler m h := standsStill_isolated (Run.staysImmediate_handlerBody h) m []
  thread m index := standsStill_isolated (Run.staysImmediate_immediateCall index) m []
  wait {m label w} h := by
    obtain ⟨hnow, hinbox⟩ := standsStill_isolated (Run.staysImmediate_immediateBlock w.body)
      { m with waits := m.waits.erase label } w.frames
    exact ⟨hnow, hinbox⟩
  input m _ s v h := standsStill_of_eq (m.schedule_keepInput s _)
  received m data name := ⟨rfl, rfl⟩
  network m f := ⟨rfl, rfl⟩

theorem standsStill_runTask (m : Machine) (task : Task) : m.StandsStill (m.runTask task) := by
  refine standsStill_background.runTask m task fun output _ => ?_
  have C := (Run.relates_closed standsStill_background.refl .trans fun h =>
    h.relates standsStill_background.refl .trans Run.Primitive.standsStill).congruence
  exact (C.writeKey (pulseKey output) .zero).2 m

end Machine

private theorem Machine.waitUntil_now_le (m : Machine) {deadline : Nat} (h : m.now ≤ deadline) :
    (m.waitUntil deadline).2.now ≤ deadline := by
  change (m.schedule.waitUntil (min (m.schedule.nextDue?.getD deadline) deadline)).2.now ≤ deadline
  unfold Schedule.waitUntil
  split
  · exact h
  · exact Nat.max_le.mpr ⟨h, Nat.min_le_right _ _⟩

theorem Machine.popDue_none {m : Machine} {deadline : Nat} (h : (m.popDue deadline).1 = none) :
    (m.popDue deadline).2.now = m.now ∧
      (m.popDue deadline).2.schedule.tasks = m.schedule.tasks ∧
      (m.popDue deadline).2.schedule.inbox = m.schedule.inbox ∧
      ∀ {id due : Nat} {task : Task}, m.schedule.tasks[id]? = some (due, task) →
        deadline < due := by
  obtain ⟨-, hrest⟩ | ⟨_, _, _, hsome, -⟩ := m.schedule.popDue_cases deadline
  · exact hrest
  · cases hsome.symm.trans h

theorem Machine.popDue_some {m : Machine} {deadline id : Nat} {task : Task}
    (h : (m.popDue deadline).1 = some (id, task)) :
    ∃ due, m.schedule.tasks[id]? = some (due, task) ∧ due ≤ deadline ∧
      (m.popDue deadline).2.now = max m.now due ∧
      (m.popDue deadline).2.schedule.tasks = m.schedule.tasks.erase id ∧
      (m.popDue deadline).2.schedule.inbox = m.schedule.inbox := by
  obtain ⟨hnone, -⟩ | ⟨_, due, _, hsome, hlive, hdue, hnow, htasks, hinbox, -⟩ :=
    m.schedule.popDue_cases deadline
  · cases hnone.symm.trans h
  · cases hsome.symm.trans h
    exact ⟨due, hlive, hdue, hnow, htasks, hinbox⟩

private theorem Machine.waitUntil_of_empty {m : Machine} (h : m.schedule.inbox = [])
    (deadline : Nat) :
    (m.waitUntil deadline).1 = none := by
  change (m.schedule.waitUntil _).1 = none
  unfold Schedule.waitUntil
  rw [h]

namespace Run

private theorem standsStill_accept (stimulus : Stimulus) :
    Relates Machine.StandsStill (accept stimulus) := by
  have B := Machine.standsStill_background
  refine (relates_modify fun m => B.apply m stimulus).bind B.trans fun _ => ?_
  split
  · exact relates_checkAbort B.refl
  · exact fun m => B.refl m

private theorem acceptWaiting_ok {n : Nat} {m m' : Machine} (h : acceptWaiting n m = .ok () m') :
    m'.now = m.now ∧ m'.schedule.inbox = m.schedule.inbox.drop n := by
  induction n generalizing m with
  | zero =>
    cases h
    exact ⟨rfl, rfl⟩
  | succ n ih =>
    unfold acceptWaiting at h
    obtain ⟨received, m₁, hreceived, hrest⟩ := bind_eq_ok h
    have hstate : EStateM.Result.ok m.receive.1 m.receive.2 = .ok received m₁ := hreceived
    unfold Machine.receive Schedule.receive at hstate
    cases hinbox : m.schedule.inbox with
    | nil =>
      rw [hinbox] at hstate
      cases hstate
      cases hrest
      exact ⟨rfl, hinbox⟩
    | cons stimulus rest =>
      rw [hinbox] at hstate
      cases hstate
      obtain ⟨a, m₂, haccept, hrest⟩ := bind_eq_ok hrest
      have hstill := standsStill_accept stimulus
        { m with schedule := { m.schedule with inbox := rest } }
      rw [Machine.after_ok haccept] at hstill
      obtain ⟨hnow, hleft⟩ := ih hrest
      refine ⟨hnow.trans hstill.now, ?_⟩
      rw [hleft, hstill.inbox]
      rfl

private theorem checkAbort_ok {m m' : Machine} (h : checkAbort m = .ok () m') : m' = m := by
  have hsame : m.after checkAbort = m :=
    relates_checkAbort (T := fun m m' => m' = m) (fun _ => rfl) m
  exact (Machine.after_ok h).symm.trans hsame

/-- Nothing that is due by a deadline, and no stimulus, waits any more. -/
structure Settled (deadline : Nat) (m : Machine) : Prop where
  now : m.now = deadline
  inbox : m.schedule.inbox = []
  later {id due : Nat} {task : Task} : m.schedule.tasks[id]? = some (due, task) → deadline < due

/-- What a round of passing time does once the stimuli are taken: the first work that is due by the
deadline, or nothing at the deadline, or it moves the clock. -/
inductive Round (deadline : Nat) (m : Machine) : Option Unit → Machine → Prop where
  | work {id : Nat} {task : Task} (h : (m.popDue deadline).1 = some (id, task)) :
    Round deadline m none ((m.popDue deadline).2.runTask task)
  | last (h : (m.popDue deadline).1 = none) (hnow : deadline ≤ m.now) :
    Round deadline m (some ()) (m.popDue deadline).2
  | idle (h : (m.popDue deadline).1 = none) (hnow : m.now < deadline) :
    Round deadline m none ((m.popDue deadline).2.waitUntil deadline).2

theorem pumpRound_cases {deadline : Nat} {m m' : Machine} {last : Option Unit}
    (h : pumpRound deadline m = .ok last m') :
    ∃ taken, acceptWaiting m.schedule.inbox.length m = .ok () taken ∧ taken.now = m.now ∧
      taken.schedule.inbox = [] ∧ Round deadline taken last m' := by
  unfold pumpRound at h
  obtain ⟨_, m₁, habort, hround⟩ := bind_eq_ok h
  obtain rfl := checkAbort_ok habort
  rw [get_bind] at hround
  obtain ⟨_, taken, haccept, hrest⟩ := bind_eq_ok hround
  obtain ⟨hnow, hinbox⟩ := acceptWaiting_ok haccept
  rw [List.drop_length] at hinbox
  refine ⟨taken, haccept, hnow, hinbox, ?_⟩
  rw [modifyGet_bind] at hrest
  cases hnext : (taken.popDue deadline).1 with
  | some next =>
    rw [hnext] at hrest
    cases hrest
    exact .work hnext
  | none =>
    obtain ⟨hkept, -, hinbox', -⟩ := Machine.popDue_none hnext
    rw [hnext] at hrest
    dsimp only at hrest
    rw [get_bind] at hrest
    split at hrest
    next hpast =>
      cases hrest
      exact .last hnext (by omega)
    next hpast =>
      rw [modifyGet_bind, Machine.waitUntil_of_empty (hinbox'.trans hinbox)] at hrest
      cases hrest
      exact .idle hnext (by omega)

theorem pumpRound_ok {deadline : Nat} {m m' : Machine} {last : Option Unit}
    (h : pumpRound deadline m = .ok last m') (hnow : m.now ≤ deadline) :
    m'.now ≤ deadline ∧ (last = some () → Settled deadline m') := by
  obtain ⟨taken, -, hnow', hinbox, hround⟩ := pumpRound_cases h
  cases hround with
  | @work id task hnext =>
    obtain ⟨due, -, hdue, hmoved, -⟩ := Machine.popDue_some hnext
    have hstill := ((taken.popDue deadline).2.standsStill_runTask task).now
    exact ⟨by omega, by simp⟩
  | last hnext hpast =>
    obtain ⟨hkept, htasks, hinbox', hlater⟩ := Machine.popDue_none hnext
    have hend : (taken.popDue deadline).2.now = deadline := by omega
    refine ⟨Nat.le_of_eq hend, fun _ => ⟨hend, hinbox'.trans hinbox, ?_⟩⟩
    intro id due task hlive
    rw [htasks] at hlive
    exact hlater hlive
  | idle hnext hearly =>
    have hkept : (taken.popDue deadline).2.now ≤ deadline :=
      Nat.le_trans (Nat.le_of_eq (Machine.popDue_none hnext).1) (Nat.le_of_lt hearly)
    exact ⟨(taken.popDue deadline).2.waitUntil_now_le hkept, by simp⟩

private theorem pump_ok {deadline : Nat} {m m' : Machine} (h : pump deadline m = .ok () m')
    (hnow : m.now ≤ deadline) : Settled deadline m' := by
  have hrounds : ∀ (n : Nat) (m : Machine), m.now ≤ deadline →
      repeatUntil (pumpRound deadline) n m = .ok () m' → Settled deadline m' := by
    intro n
    induction n with
    | zero =>
      intro m _ hend
      cases hend
    | succ n ih =>
      intro m hnow hend
      unfold repeatUntil at hend
      obtain ⟨last, m₁, hround, hrest⟩ := bind_eq_ok hend
      obtain ⟨hnow₁, hsettled⟩ := pumpRound_ok hround hnow
      cases last with
      | none => exact ih m₁ hnow₁ hrest
      | some _ =>
        cases hrest
        exact hsettled rfl
  exact hrounds m.config.rounds m hnow h

end Run

theorem Schedule.OnTime.taken {history : List Deed} {m m' : Machine}
    (h : m.schedule.OnTime history) {deadline id : Nat} {task : Task}
    (hpop : m.popDue deadline = (some (id, task), m')) :
    ∃ due, m.schedule.tasks[id]? = some (due, task) ∧ due ≤ deadline ∧ m'.now = due ∧
      (m'.runTask task).now = due ∧
      ∀ (id' due' : Nat) (task' : Task), m.schedule.tasks[id']? = some (due', task') →
        Appointment.mk due id ≤ Appointment.mk due' id' := by
  have hanswer : (m.schedule.popDue deadline).1 = some (id, task) := congrArg Prod.fst hpop
  have hstate : m'.now = (m.schedule.popDue deadline).2.now :=
    congrArg (fun r => r.2.now) hpop.symm
  obtain ⟨hnone, -⟩ | ⟨id', due, task', hsome, hlive, hdue, hnow, -, -, hleast⟩ :=
    m.schedule.popDue_cases deadline
  · cases hnone.symm.trans hanswer
  · cases hsome.symm.trans hanswer
    have htime : m'.now = due := by
      rw [hstate, hnow]
      exact Nat.max_eq_right (h.due hlive).1
    have hstill := m'.standsStill_runTask task
    exact ⟨due, hlive, hdue, htime, hstill.now.trans htime, fun _ _ _ hlive' => hleast hlive'⟩

/--
Whatever a host does, with whatever program, and at every moment on the way: work that is planned
is due at the time it was last given and not before now, deeds follow on one another in time, and
work was done when it was due; the clock does not go back; the work that is taken next is the first
of all by time and number, and it is done at its time; time can be let pass at any moment; and when
it has passed up to a deadline, the clock is there, no stimulus waits, and nothing is due by it.
-/
theorem virtual_time_is_exact (config : Settings) (actions : List HostAction) :
    let m := (Machine.new config).afterActions actions
    Moment.Leads ⟨Machine.new config, []⟩ ⟨m, []⟩ ∧
    (∀ action : HostAction, Moment.Leads ⟨m, []⟩ ⟨action.run m, []⟩) ∧
    ∀ (history : List Deed) (s : Moment), Course ⟨Machine.new config, []⟩ history s →
      s.machine.schedule.OnTime history ∧
      (∀ s', s.Leads s' → s.machine.now ≤ s'.machine.now) ∧
      (∀ deadline id task m', s.machine.popDue deadline = (some (id, task), m') →
        ∃ due, s.machine.schedule.tasks[id]? = some (due, task) ∧ due ≤ deadline ∧
          m'.now = due ∧ (m'.runTask task).now = due ∧
          ∀ (id' due' : Nat) (task' : Task),
            s.machine.schedule.tasks[id']? = some (due', task') →
              Appointment.mk due id ≤ Appointment.mk due' id') ∧
      (∀ deadline, s.Leads ⟨s.machine.after (Run.pump deadline), s.around⟩) ∧
      ∀ deadline m', s.machine.now ≤ deadline → Run.pump deadline s.machine = .ok () m' →
        m'.now = deadline ∧ m'.schedule.inbox = [] ∧
          ∀ (id due : Nat) (task : Task), m'.schedule.tasks[id]? = some (due, task) →
            deadline < due := by
  intro m
  refine ⟨(Machine.new config).leads_afterActions actions [], fun action => action.leads m [], ?_⟩
  intro history s hcourse
  have honTime := hcourse.onTime
  refine ⟨honTime, fun s' h => h.now_le, fun deadline id task m' h => honTime.taken h, ?_, ?_⟩
  · exact fun deadline => Run.leads_pump deadline s.machine s.around
  · intro deadline m' hnow hpump
    have hsettled := Run.pump_ok hpump hnow
    exact ⟨hsettled.now, hsettled.inbox, fun id due task h => hsettled.later h⟩

/-- A machine whose host has planned an order to stop: it is taken at its time, and until then a
deadline can be passed without it. -/
theorem planned_stop_is_on_time :
    let m := ((Machine.new {}).scheduleStimulus 10 .stop).2
    Course ⟨Machine.new {}, []⟩ [.set 1 0 10] ⟨m, []⟩ ∧
      (m.popDue 20).1 = some (1, .stimulus .stop) ∧ (m.popDue 20).2.now = 10 ∧
      m.now ≤ 0 ∧ Run.pump 0 m = .ok () (m.popDue 0).2 ∧ (m.popDue 0).2.now = 0 := by
  intro m
  have hcourse : Course ⟨Machine.new {}, []⟩ [.set 1 0 10] ⟨m, []⟩ :=
    .step (.refl _) (.schedule (.plan _ 10 (.stimulus .stop)))
  have hplanned (id due : Nat) (task : Task) :
      m.schedule.tasks[id]? = some (due, task) ↔ 1 = id ∧ due = 10 ∧ task = .stimulus .stop := by
    change (({} : Std.HashMap Nat (Nat × Task)).insert 1 (10, .stimulus .stop))[id]? = _ ↔ _
    rw [Std.HashMap.getElem?_insert]
    by_cases h : 1 = id
    · simp [h, eq_comm]
    · simp [h]
  obtain ⟨-, -, htaken, -, hpumped⟩ := (virtual_time_is_exact {} []).2.2 _ _ hcourse
  have hpop : (m.popDue 20).1 = some (1, .stimulus .stop) := by
    obtain ⟨-, -, -, -, hlater⟩ | ⟨id, due, task, hsome, hlive, -⟩ :=
      m.schedule.popDue_cases 20
    · have hlate := hlater ((hplanned 1 10 _).mpr ⟨rfl, rfl, rfl⟩)
      omega
    · obtain ⟨rfl, -, rfl⟩ := (hplanned id due task).mp hlive
      exact hsome
  have hnone : (m.popDue 0).1 = none := by
    obtain ⟨hnone, -⟩ | ⟨id, due, task, -, hlive, hdue, -⟩ := m.schedule.popDue_cases 0
    · exact hnone
    · obtain ⟨-, rfl, -⟩ := (hplanned id due task).mp hlive
      omega
  have hround : Run.pumpRound 0 m = .ok (some ()) (m.popDue 0).2 := by
    rw [Run.pumpRound_of_empty rfl rfl, Run.working_of_idle hnone]
    exact Run.awaiting_of_le (Nat.zero_le _)
  have hpump : Run.pump 0 m = .ok () (m.popDue 0).2 := by
    change (Run.pumpRound 0 >>= _) m = _
    rw [Run.bind_ok hround]
    rfl
  obtain ⟨due, hlive, -, hnow, -⟩ := htaken 20 1 (.stimulus .stop) (m.popDue 20).2
    (Prod.ext hpop rfl)
  obtain ⟨-, rfl, -⟩ := (hplanned 1 due _).mp hlive
  exact ⟨hcourse, hpop, hnow, Nat.le_refl 0, hpump, (hpumped 0 _ (Nat.le_refl 0) hpump).1⟩

end ControlLogic
