import ControlLogic.Proofs.Machine.Waits

/-!
The runs that drop and move waits. Each does so for the wait of a label or for all of them, and is
the routine of a name; no other elementary run touches a wait that is put off, and where no call
gets to these routines all work that is planned stays as it is.
-/

set_option autoImplicit false
set_option relaxedAutoImplicit false

namespace ControlLogic

namespace Machine

/-- Planned work stays as it is, new work gets numbers of its own, and the functions of the program
are the same. -/
structure Grows (m m' : Machine) : Prop where
  functions : m'.functions = m.functions
  next : m.schedule.nextId ≤ m'.schedule.nextId
  tasks {timer : Nat} (h : timer < m.schedule.nextId) :
    m'.schedule.tasks[timer]? = m.schedule.tasks[timer]?

private theorem grows_of_same {m m' : Machine} (hfunctions : m'.functions = m.functions)
    (hschedule : m'.schedule = m.schedule) : m.Grows m' where
  functions := hfunctions
  next := Nat.le_of_eq (congrArg Schedule.nextId hschedule).symm
  tasks {timer} _ := congrArg (·.tasks[timer]?) hschedule

private theorem grows_refl (m : Machine) : m.Grows m :=
  grows_of_same rfl rfl

theorem Grows.trans {a b c : Machine} (h : a.Grows b) (h' : b.Grows c) : a.Grows c where
  functions := h'.functions.trans h.functions
  next := Nat.le_trans h.next h'.next
  tasks hlt := (h'.tasks (Nat.lt_of_lt_of_le hlt h.next)).trans (h.tasks hlt)

private theorem grows_plan {m m' : Machine} {delay : Nat} {task : Task}
    (hfunctions : m'.functions = m.functions)
    (hschedule : m'.schedule = (m.schedule.plan delay task).2) : m.Grows m' where
  functions := hfunctions
  next := by
    rw [hschedule]
    exact Nat.le_succ _
  tasks hlt := by
    rw [hschedule, m.schedule.getElem?_plan, if_neg (by omega)]

/-- The program has functions of its own under the names of the routines that drop or move waits, so
that no call gets to these routines. -/
def HidesShifting (m : Machine) : Prop :=
  ∀ name ∈ Run.shiftingNames, ∃ index, m.functions.get? name = some index

/-- Planned work stays as it is unless a routine that drops or moves waits can be called. -/
def GrowsIfHidden (m m' : Machine) : Prop :=
  m.HidesShifting → m.Grows m'

theorem GrowsIfHidden.trans {a b c : Machine} (h : a.GrowsIfHidden b) (h' : b.GrowsIfHidden c) :
    a.GrowsIfHidden c := by
  intro hhides
  have hfirst := h hhides
  have hstill : b.HidesShifting := fun name hname => by
    rw [hfirst.functions]
    exact hhides name hname
  exact hfirst.trans (h' hstill)

end Machine

namespace Run

open Machine (Grows grows_refl grows_of_same GrowsIfHidden)

private theorem grows_scheduleWait (delay : Nat) (label : Option String) (body : List Stmt) :
    Relates Grows (scheduleWait delay label body) := by
  have hlabel : Relates Grows (waitLabel label) := by
    unfold waitLabel
    split
    · exact fun m => m.grows_refl
    · exact relates_modifyGet fun m => grows_of_same rfl rfl
  refine (relates_checkAbort grows_refl).bind .trans fun _ => ?_
  refine hlabel.bind .trans fun name => relates_inspect fun m => ?_
  split
  · exact relates_modify fun m => grows_of_same rfl rfl
  · exact relates_modify fun _ => Machine.grows_plan rfl rfl

private theorem grows_plan (delay : Nat) (task : Task) : Relates Grows (plan delay task) :=
  (relates_checkAbort grows_refl).bind .trans fun _ =>
    relates_modify fun _ => Machine.grows_plan rfl rfl

theorem Calm.grows {α : Type} {x : Run α} (h : Calm x) : Relates Grows x := by
  cases h with
  | tick =>
    intro m
    rw [m.after_tick]
    exact grows_of_same rfl rfl
  | tryWrite key v =>
    intro m
    obtain ⟨target, -, hwritten⟩ | hsame := m.after_tryWrite key v
    · obtain ⟨scope, signals, indices, last, log, htouched⟩ := m.writeTo_eq key v target
      rw [hwritten, htouched]
      exact grows_of_same rfl rfl
    · rw [hsame]
      exact m.grows_refl
  | copyWhole frame parameter owner =>
    refine relates_modify fun m => ?_
    obtain ⟨scope, hcopied⟩ := m.copyWhole_eq frame parameter owner
    rw [hcopied]
    exact grows_of_same rfl rfl
  | plan delay h => exact grows_plan delay _
  | scheduleWait delay label body => exact grows_scheduleWait delay label body
  | cancelWait name h => cases h
  | cancelAllWaits h => cases h
  | retimeWait delay name hdelay h => cases h
  | connect id address port =>
    refine Relates.bind .trans (relates_modifyGet fun m => grows_of_same rfl rfl) fun status => ?_
    split
    · exact relates_inspect fun m => (grows_plan _ _).bind .trans fun _ m => m.grows_refl
    · exact fun m => m.grows_refl
  | send id data =>
    refine Relates.bind .trans (relates_modifyGet fun m => grows_of_same rfl rfl) fun sent => ?_
    split
    split
    · exact relates_inspect fun m => (grows_plan _ _).bind .trans fun _ m => m.grows_refl
    · exact fun m => m.grows_refl
  | withFiles | disconnect | listen | enableUdp =>
    exact relates_modifyGet fun m => grows_of_same rfl rfl
  | _ => exact relates_modify fun m => grows_of_same rfl rfl

private theorem growsIfHidden_followed : Followed GrowsIfHidden False where
  refl m _ := m.grows_refl
  trans := .trans
  elementary h m _ := Calm.grows (h.mono (fun _ _ => trivial) id) m
  inFrame frame hx := by
    intro m hhides
    rw [m.after_inFrame]
    obtain ⟨hfunctions, hnext, htasks⟩ := hx (m.enter frame) hhides
    exact ⟨hfunctions, hnext, htasks⟩

/-- Code of a program in which no call gets to the routines that drop or move waits leaves all
planned work as it is. -/
theorem growsIfHidden_pervades : Pervades (Relates GrowsIfHidden) noPump False where
  toClosed := growsIfHidden_followed.closed
  exhausted := fun m _ => m.grows_refl
  locatedAt p hx := hx.locatedAt p
  suspend := growsIfHidden_followed.suspend
  call := growsIfHidden_followed.call
  shifting {eval block} heval hblock n name args hname := by
    refine .inr fun m hhides => ?_
    obtain ⟨index, hindex⟩ := hhides _ hname
    have hcall : call eval block noPump n name args m = callAt eval block index args m := by
      unfold call
      rw [get_bind, hindex]
    have hfunction := (growsIfHidden_followed.closed.congruence.callAt
      (fun f args => ⟨rfl, growsIfHidden_followed.call heval hblock f args⟩) index args).2
    have hafter : m.after (call eval block noPump n name args) =
        m.after (callAt eval block index args) := by
      unfold Machine.after
      rw [hcall]
    rw [hafter]
    exact hfunction m hhides

end Run

namespace Machine

theorem Proceeds.matched {m m' : Machine} (h : m.Proceeds m') (hm : m.Matched) : m'.Matched := by
  obtain ⟨acts, hchain⟩ := h
  exact hchain.fold (T := fun m m' => m.Matched → m'.Matched) (fun _ => id)
    (fun h h' hm => h' (h hm)) (fun hdoes hm => (hdoes.tends hm).matched hm) hm

/-- The names of the routines that drop and move waits mean just the runs that do so, once their
arguments have values, unless the program has functions of its own under these names. -/
structure CallsShifting (m : Machine) : Prop where
  cancel {name : String} (hname : Text.upper name = "CANCELWAIT")
    (hfree : m.functions.get? "CANCELWAIT" = none) (eval : Expr → Run Value)
    (block : List Stmt → Run Flow) (pump : Nat → Run Unit) (fuel : Nat) (args : List Expr) :
    Run.call eval block pump fuel name args m = (do
      Run.cancelWait (← Run.argName eval args 0)
      return Value.zero) m
  cancelAll {name : String} (hname : Text.upper name = "CANCELALLWAIT")
    (hfree : m.functions.get? "CANCELALLWAIT" = none) (eval : Expr → Run Value)
    (block : List Stmt → Run Flow) (pump : Nat → Run Unit) (fuel : Nat) (args : List Expr) :
    Run.call eval block pump fuel name args m = (do
      Run.cancelAllWaits
      return Value.zero) m
  retime {name : String} (hname : Text.upper name = "RETIMEWAIT")
    (hfree : m.functions.get? "RETIMEWAIT" = none) (eval : Expr → Run Value)
    (block : List Stmt → Run Flow) (pump : Nat → Run Unit) (fuel : Nat) (args : List Expr) :
    Run.call eval block pump fuel name args m = (do
      let delay := Run.hundredths (← Run.argNumber eval args 0)
      Run.retimeWait delay (← Run.argName eval args 1)
      return Value.zero) m

private theorem call_of_served {m : Machine} {name word : String} (hname : Text.upper name = word)
    (hfree : m.functions.get? word = none) (hmain : word ≠ "MAIN") {eval : Expr → Run Value}
    {block : List Stmt → Run Flow} {pump : Nat → Run Unit} {fuel : Nat} {args : List Expr}
    {x : Run Value} (h : Run.timingRoutine eval pump fuel word args = some x) :
    Run.call eval block pump fuel name args m = x m := by
  subst hname
  have hserved : Run.servedRoutine eval pump fuel (Text.upper name) args = some x := by
    unfold Run.servedRoutine
    rw [h]
    rfl
  unfold Run.call
  rw [Run.get_bind, hfree, hserved]
  dsimp only
  rw [if_neg hmain]

private theorem callsShifting (m : Machine) : m.CallsShifting where
  cancel hname hfree _ _ _ _ _ := call_of_served hname hfree (by decide) rfl
  cancelAll hname hfree _ _ _ _ _ := call_of_served hname hfree (by decide) rfl
  retime hname hfree _ _ _ _ _ := call_of_served hname hfree (by decide) rfl

end Machine

/--
What drops and moves waits at a moment. The runs of the routines for this do their acts on record to
waits that are put off, and nothing where there are none; no other elementary run drops or moves a
wait.
-/
structure Moment.ShiftsWaits (s : Moment) : Prop where
  calls : s.machine.CallsShifting
  cancel {label : String} {timer : Nat} (h : s.machine.timer? label = some timer) :
    let m' := s.machine.after (Run.cancelWait label)
    Move s [.cancel label timer] ⟨m', s.around⟩ ∧ m'.timer? label = none ∧
      m'.schedule.task? timer = none
  cancelNone {label : String} (h : s.machine.timer? label = none) :
    s.machine.after (Run.cancelWait label) = s.machine
  cancelAll :
    let m' := s.machine.after Run.cancelAllWaits
    Move s (s.machine.waits.toList.map fun entry => .cancel entry.1 entry.2.timer)
        ⟨m', s.around⟩ ∧
      ∀ label timer, s.machine.timer? label = some timer →
        m'.timer? label = none ∧ m'.schedule.task? timer = none
  retime {label : String} {timer : Nat} (h : s.machine.timer? label = some timer) (delay : Nat) :
    let m' := s.machine.after (Run.retimeWait delay label)
    Move s [.retime label timer s.machine.now delay] ⟨m', s.around⟩ ∧
      m'.timer? label = some timer ∧
      m'.schedule.tasks[timer]? = some (s.machine.now + delay, .waitBody label)
  retimeNone {label : String} (h : s.machine.timer? label = none) (delay : Nat) :
    s.machine.after (Run.retimeWait delay label) = s.machine
  calm {α : Type} {x : Run α} (hx : Run.Calm x) {label : String} {timer : Nat}
    (h : s.machine.timer? label = some timer) :
    (s.machine.after x).timer? label = some timer ∧
      (s.machine.after x).schedule.tasks[timer]? = s.machine.schedule.tasks[timer]?

namespace Machine

variable {m : Machine}

private theorem cancelWait_of_timer {label : String} {timer : Nat} (h : m.timer? label = some timer)
    (k : List Around) :
    let m' := m.after (Run.cancelWait label)
    Move ⟨m, k⟩ [.cancel label timer] ⟨m', k⟩ ∧ m'.timer? label = none ∧
      m'.schedule.task? timer = none := by
  obtain ⟨w, hw, rfl⟩ := timer?_eq_some.mp h
  intro m'
  have hdropped : m' = { m with
      waits := m.waits.erase label, schedule := (m.schedule.cancel w.timer).2 } :=
    after_cancelWait hw
  have hwaits : m'.waits = m.waits.erase label := congrArg Machine.waits hdropped
  refine ⟨.code k (.does (.cancel hw)), (timer?_erase hwaits label).trans (if_pos rfl), ?_⟩
  rw [hdropped]
  exact (Schedule.task?_drop (m.schedule.getElem?_cancel w.timer) w.timer).trans (if_pos rfl)

private theorem cancelAllWaits_of_timer {label : String} {timer : Nat}
    (h : m.timer? label = some timer) :
    let m' := m.after Run.cancelAllWaits
    m'.timer? label = none ∧ m'.schedule.task? timer = none := by
  obtain ⟨w, hw, rfl⟩ := timer?_eq_some.mp h
  have hentry : w.timer ∈ m.waits.toList.map (·.2.timer) :=
    List.mem_map_of_mem (Std.HashMap.mem_toList_iff_getElem?_eq_some.mpr hw)
  intro m'
  have hdropped := m.after_cancelAllWaits
  refine ⟨timer?_empty (congrArg Machine.waits hdropped) label, ?_⟩
  change (m.after Run.cancelAllWaits).schedule.task? w.timer = none
  rw [hdropped]
  exact (Schedule.task?_dropAll (m.schedule.getElem?_cancelAll m.waits.toList) w.timer).trans
    (if_pos hentry)

section

variable (hm : m.Matched)
include hm

theorem Matched.retimeWait {label : String} {timer : Nat} (h : m.timer? label = some timer)
    (delay : Nat) (k : List Around) :
    let m' := m.after (Run.retimeWait delay label)
    Move ⟨m, k⟩ [.retime label timer m.now delay] ⟨m', k⟩ ∧ m'.timer? label = some timer ∧
      m'.schedule.tasks[timer]? = some (m.now + delay, .waitBody label) := by
  obtain ⟨due, hlive⟩ := Schedule.task?_eq_some.mp ((hm.agrees label timer).mp h)
  obtain ⟨w, hw, rfl⟩ := timer?_eq_some.mp h
  intro m'
  have hmoved : m' = { m with schedule := (m.schedule.retime w.timer delay).2 } :=
    after_retimeWait hw delay
  refine ⟨.code k (.does (.retime delay hw)), ?_, ?_⟩
  · rw [timer?_congr (congrArg Machine.waits hmoved)]
    exact h
  · rw [hmoved]
    refine (m.schedule.getElem?_retime w.timer delay w.timer).trans ?_
    rw [if_pos rfl, hlive]
    rfl

theorem Matched.calm {α : Type} {x : Run α} (hx : Run.Calm x) {label : String} {timer : Nat}
    (h : m.timer? label = some timer) :
    (m.after x).timer? label = some timer ∧
      (m.after x).schedule.tasks[timer]? = m.schedule.tasks[timer]? := by
  have hplanned := (hm.agrees label timer).mp h
  have hsame := (hx.grows m).tasks (hm.fresh hplanned)
  refine ⟨?_, hsame⟩
  -- The wait is still there because its timer is, and waits and timers go on agreeing.
  refine (((hx.elementary.proceeds m).matched hm).agrees label timer).mpr ?_
  unfold Schedule.task? at hplanned ⊢
  rw [hsame]
  exact hplanned

theorem Matched.shiftsWaits (k : List Around) : Moment.ShiftsWaits ⟨m, k⟩ where
  calls := m.callsShifting
  cancel h := cancelWait_of_timer h k
  cancelNone h := after_cancelWait_of_free (Option.map_eq_none_iff.mp h)
  cancelAll := ⟨.code k (.does (.cancelAll m)), fun _ _ h => cancelAllWaits_of_timer h⟩
  retime h delay := hm.retimeWait h delay k
  retimeNone h := after_retimeWait_of_free (Option.map_eq_none_iff.mp h)
  calm hx _ _ h := hm.calm hx h

end

end Machine

end ControlLogic
