import ControlLogic.Command.Execute
import ControlLogic.Proofs.Machine.Connection

/-!
The stimuli of a scenario, planned for their times before a program runs. The program has no number
of theirs, so that all it can drop or move are its own waits; and a stimulus falls due before all
that is planned for later or was planned after it for the same time. So they are applied one after
another in the order of the timeline, each at its time, and those that are left stay planned.
-/

set_option autoImplicit false
set_option relaxedAutoImplicit false

namespace ControlLogic

/-! ### The timeline -/

namespace Scenario

def notAfter (a b : Nat × Stimulus) : Bool :=
  a.1 ≤ b.1

private theorem notAfter_trans (a b c : Nat × Stimulus) (hab : notAfter a b) (hbc : notAfter b c) :
    notAfter a c := by
  simp only [notAfter, decide_eq_true_eq] at hab hbc ⊢
  exact Nat.le_trans hab hbc

private theorem notAfter_total (a b : Nat × Stimulus) : (notAfter a b || notAfter b a) = true := by
  simp only [notAfter, Bool.or_eq_true, decide_eq_true_eq]
  exact Nat.le_total _ _

private theorem timeline_perm (s : Scenario) : s.timeline.Perm s.stimuli :=
  List.mergeSort_perm _ _

private theorem timeline_pairwise (s : Scenario) : s.timeline.Pairwise fun a b => a.1 ≤ b.1 := by
  have hsorted := List.pairwise_mergeSort notAfter_trans notAfter_total s.stimuli
  exact hsorted.imp of_decide_eq_true

private theorem timeline_filter (s : Scenario) (time : Nat) :
    s.timeline.filter (·.1 = time) = s.stimuli.filter (·.1 = time) := by
  have htimes : ∀ entry ∈ s.stimuli.filter (·.1 = time), entry.1 = time := fun entry hentry => by
    simpa using (List.mem_filter.mp hentry).2
  have hsame : (s.stimuli.filter (·.1 = time)).Pairwise (notAfter · ·) :=
    List.pairwise_of_forall_mem_list fun a ha b hb => by
      simp [notAfter, htimes a ha, htimes b hb]
  have hsub : (s.stimuli.filter (·.1 = time)).Sublist s.timeline :=
    List.sublist_mergeSort notAfter_trans notAfter_total hsame List.filter_sublist
  have hkept := hsub.filter (·.1 = time)
  rw [List.filter_filter] at hkept
  simp only [Bool.and_self] at hkept
  exact (hkept.eq_of_length (s.timeline_perm.filter _).length_eq.symm).symm

end Scenario

/-! ### Planned stimuli -/

namespace Machine

/-- The same stimuli are planned for the same times under the same numbers. -/
def Retains (m m' : Machine) : Prop :=
  ∀ (id due : Nat) (stimulus : Stimulus),
    m'.schedule.tasks[id]? = some (due, .stimulus stimulus) ↔
      m.schedule.tasks[id]? = some (due, .stimulus stimulus)

private theorem retains_of_tasks {m m' : Machine} (h : m'.schedule.tasks = m.schedule.tasks) :
    m.Retains m' := by
  intro id due stimulus
  rw [h]

private theorem Matched.retains_plan {m m' : Machine} (hm : m.Matched) {due : Nat} {task : Task}
    (htask : ∀ stimulus, task ≠ .stimulus stimulus)
    (htasks : ∀ id, m'.schedule.tasks[id]? =
      if m.schedule.nextId = id then some (due, task) else m.schedule.tasks[id]?) :
    m.Retains m' := by
  intro id due' stimulus
  rw [htasks]
  split
  next hid =>
    subst hid
    constructor
    · intro h
      cases h
      exact absurd rfl (htask stimulus)
    · intro h
      exact absurd (hm.fresh (Schedule.task?_eq_some.mpr ⟨due', h⟩)) (Nat.lt_irrefl _)
  next => rfl

private theorem retains_drop {m m' : Machine} {timer : Nat}
    (htimer : ∀ due stimulus, m.schedule.tasks[timer]? ≠ some (due, .stimulus stimulus))
    (htasks : ∀ id, m'.schedule.tasks[id]? =
      if timer = id then none else m.schedule.tasks[id]?) : m.Retains m' := by
  intro id due stimulus
  rw [htasks]
  split
  next hid =>
    subst hid
    simp [htimer due stimulus]
  next => rfl

private theorem Matched.not_stimulus {m : Machine} (hm : m.Matched) {label : String}
    {w : PendingWait}
    (hw : m.waits.get? label = some w) (due : Nat) (stimulus : Stimulus) :
    m.schedule.tasks[w.timer]? ≠ some (due, .stimulus stimulus) := by
  intro h
  cases hm.task_eq hw h

private theorem Matched.retains_cancelAll {m m' : Machine} (hm : m.Matched)
    (htasks : ∀ id, m'.schedule.tasks[id]? =
      if id ∈ m.waits.toList.map (·.2.timer) then none else m.schedule.tasks[id]?) :
    m.Retains m' := by
  intro id due stimulus
  rw [htasks]
  split
  next hid =>
    obtain ⟨⟨label, w⟩, hmem, rfl⟩ := List.mem_map.mp hid
    have hw : m.waits.get? label = some w := Std.HashMap.mem_toList_iff_getElem?_eq_some.mp hmem
    simp [hm.not_stimulus hw due stimulus]
  next => rfl

private theorem Matched.retains_retime {m m' : Machine} (hm : m.Matched) {label : String}
    {w : PendingWait} (hw : m.waits.get? label = some w) {due : Nat}
    (htasks : ∀ id, m'.schedule.tasks[id]? =
      if w.timer = id then (m.schedule.tasks[id]?).map fun entry => (due, entry.2)
      else m.schedule.tasks[id]?) : m.Retains m' := by
  intro id due' stimulus
  rw [htasks]
  split
  next hid =>
    subst hid
    refine iff_of_false (fun h => ?_) (hm.not_stimulus hw due' stimulus)
    obtain ⟨⟨before, task⟩, hlive, hmoved⟩ := Option.map_eq_some_iff.mp h
    cases hmoved
    exact hm.not_stimulus hw before stimulus hlive
  next => rfl

private theorem Does.retains {m m' : Machine} {acts : List Act} (h : m.Does acts m')
    (hm : m.Matched) :
    m.Retains m' := by
  cases h with
  | still h => exact retains_of_tasks (congrArg Schedule.tasks h.schedule)
  | plan delay h =>
    refine hm.retains_plan ?_ (m.schedule.getElem?_plan delay _)
    rintro stimulus rfl
    cases h
  | arm delay label body h => exact hm.retains_plan (by simp) (m.schedule.getElem?_plan delay _)
  | cancel hw =>
    rw [after_cancelWait hw]
    exact retains_drop (hm.not_stimulus hw) (m.schedule.getElem?_cancel _)
  | cancelAll =>
    rw [after_cancelAllWaits]
    exact hm.retains_cancelAll (m.schedule.getElem?_cancelAll _)
  | retime delay hw =>
    rw [after_retimeWait hw]
    exact hm.retains_retime hw (m.schedule.getElem?_retime _ delay)
  | connect h => exact hm.retains_plan (by simp) (m.schedule.getElem?_plan _ _)
  | ask h => exact hm.retains_plan (by simp) (m.schedule.getElem?_plan _ _)
  | _ => exact retains_of_tasks rfl

private theorem retains_take {m m' : Machine} {deadline timer : Nat} {task : Task}
    (h : (m.popDue deadline).1 = some (timer, task)) (htask : ∀ stimulus, task ≠ .stimulus stimulus)
    (hschedule : m'.schedule = (m.popDue deadline).2.schedule) : m.Retains m' := by
  intro id due stimulus
  rw [hschedule]
  exact Schedule.popDue_keeps h (htask stimulus) id due

end Machine

/-- A step that is neither about a stimulus that was planned nor one of a host leaves all stimuli
planned as they are. -/
private theorem Move.retains {s s' : Moment} {acts : List Act} (h : Move s acts s')
    (hown : ∀ act ∈ acts, act.isOwn) (hs : s.machine.Matched) :
    s.machine.Retains s'.machine := by
  cases h with
  | code k h =>
    cases h with
    | does h => exact h.retains hs
    | enter frame h => exact Machine.retains_of_tasks rfl
    | leave => exact Machine.retains_of_tasks rfl
  | clock k h htasks hnext => exact Machine.retains_of_tasks htasks
  | take k h hwait =>
    refine Machine.retains_take h (fun stimulus hstimulus => ?_) rfl
    subst hstimulus
    simp [Act.isOwn] at hown
  | beginWait k h hw => exact Machine.retains_take h (by simp) rfl
  | complete k h => exact Machine.retains_take h (by simp) rfl
  | deliver k h => exact Machine.retains_take h (by simp) rfl
  | reset m k => simp [Act.isOwn] at hown
  | load m k text => simp [Act.isOwn] at hown
  | stimulus m k delay stimulus => simp [Act.isOwn] at hown
  | rewire m k f => simp [Act.isOwn] at hown
  | _ => exact Machine.retains_of_tasks rfl

namespace Machine

/-- Some stimuli are planned in order for their times, under consecutive numbers, and no others
are. -/
structure Awaits (m : Machine) (first : Nat) (left : List (Nat × Stimulus)) : Prop where
  matched : m.Matched
  onTime : ∃ deeds, m.schedule.OnTime deeds
  planned (id due : Nat) (stimulus : Stimulus) :
    m.schedule.tasks[id]? = some (due, .stimulus stimulus) ↔
      ∃ i, id = first + i ∧ left[i]? = some (due, stimulus)
  sorted : left.Pairwise fun a b => a.1 ≤ b.1

namespace Awaits

variable {m : Machine} {first : Nat} {left : List (Nat × Stimulus)} (h : m.Awaits first left)
include h

theorem now_le : ∀ entry ∈ left, m.now ≤ entry.1 := by
  rintro ⟨due, stimulus⟩ hentry
  obtain ⟨i, hi⟩ := List.mem_iff_getElem?.mp hentry
  obtain ⟨deeds, hdeeds⟩ := h.onTime
  exact (hdeeds.due ((h.planned _ due stimulus).mpr ⟨i, rfl, hi⟩)).1

theorem due {deadline timer : Nat} {stimulus : Stimulus}
    (hdue : (m.popDue deadline).1 = some (timer, .stimulus stimulus)) :
    ∃ rest, timer = first ∧ left = ((m.popDue deadline).2.now, stimulus) :: rest := by
  obtain ⟨hnone, -⟩ | ⟨id, due, task, hsome, hlive, -, hnow, -, -, hleast⟩ :=
    m.schedule.popDue_cases deadline
  · cases hnone.symm.trans hdue
  cases hsome.symm.trans hdue
  obtain ⟨i, rfl, hi⟩ := (h.planned _ _ _).mp hlive
  have hentry := List.mem_of_getElem? hi
  cases hleft : left with
  | nil => simp [hleft] at hi
  | cons head rest =>
    obtain ⟨time, other⟩ := head
    have hhead : m.schedule.tasks[first]? = some (time, .stimulus other) :=
      (h.planned first time other).mpr ⟨0, rfl, by rw [hleft]; rfl⟩
    have htime : time ≤ due := by
      have hsorted := h.sorted
      rw [hleft] at hentry hsorted
      rcases List.mem_cons.mp hentry with heq | hrest
      · cases heq
        exact Nat.le_refl _
      · exact (List.pairwise_cons.mp hsorted).1 _ hrest
    have hi0 : i = 0 := by
      have hle := (Appointment.le_def _ _).mp (hleast hhead)
      dsimp only at hle
      omega
    subst hi0
    rw [hleft] at hi
    cases hi
    have hnow' : (m.popDue deadline).2.now = due :=
      hnow.trans (Nat.max_eq_right (h.now_le _ hentry))
    exact ⟨rest, rfl, by rw [hnow']⟩

theorem take {deadline timer : Nat} {stimulus : Stimulus}
    (hdue : (m.popDue deadline).1 = some (timer, .stimulus stimulus)) :
    ∃ rest, left = ((m.popDue deadline).2.now, stimulus) :: rest ∧
      (m.popDue deadline).2.Awaits (first + 1) rest := by
  obtain ⟨rest, rfl, rfl⟩ := h.due hdue
  obtain ⟨due, -, -, htasks⟩ := Schedule.popDue_some hdue
  have hmove : Move ⟨m, []⟩ _ ⟨(m.popDue deadline).2, []⟩ := .take [] hdue (by simp)
  obtain ⟨deeds, hdeeds⟩ := h.onTime
  obtain ⟨more, hmore⟩ := hmove.changes
  refine ⟨rest, rfl, (hmove.tends h.matched).matched h.matched, ⟨_, hmore.onTime hdeeds⟩,
    fun id due stimulus' => ?_, (List.pairwise_cons.mp h.sorted).2⟩
  have htask : (m.popDue deadline).2.schedule.tasks[id]? =
      if timer = id then none else m.schedule.tasks[id]? := htasks id
  rw [htask]
  split
  next hid =>
    refine iff_of_false (by simp) fun hlater => ?_
    obtain ⟨i, hi, -⟩ := hlater
    omega
  next hid =>
    rw [h.planned]
    constructor
    · rintro ⟨i, rfl, hi⟩
      cases i with
      | zero => exact absurd rfl hid
      | succ i => exact ⟨i, by omega, hi⟩
    · rintro ⟨i, rfl, hi⟩
      exact ⟨i + 1, by omega, hi⟩

end Awaits

private theorem awaits_following :
    Following fun s s' => ∀ (first : Nat) (left : List (Nat × Stimulus)),
    s.machine.Awaits first left → s'.machine.Awaits first left where
  refl _ _ _ h := h
  trans h h' first left ha := h' first left (h first left ha)
  move {s s' acts} hmove hown first left h := by
    obtain ⟨deeds, hdeeds⟩ := h.onTime
    obtain ⟨more, hmore⟩ := hmove.changes
    have hretains := hmove.retains hown h.matched
    exact ⟨(hmove.tends h.matched).matched h.matched, ⟨_, hmore.onTime hdeeds⟩,
      fun id due stimulus => (hretains id due stimulus).trans (h.planned id due stimulus), h.sorted⟩

theorem Awaits.apply {m : Machine} {first : Nat} {left : List (Nat × Stimulus)}
    (h : m.Awaits first left) (stimulus : Stimulus) : (m.apply stimulus).Awaits first left :=
  awaits_following.running.reacts.apply m stimulus [] first left h

theorem Awaits.plan {m : Machine} {first : Nat} {left : List (Nat × Stimulus)}
    (h : m.Awaits first left) (hnow : m.now = 0) (hnext : m.schedule.nextId = first + left.length)
    {time : Nat} (htime : ∀ entry ∈ left, entry.1 ≤ time) (stimulus : Stimulus) :
    (m.scheduleStimulus time stimulus).2.Awaits first (left ++ [(time, stimulus)]) := by
  have hmove : Move ⟨m, []⟩ _ ⟨(m.scheduleStimulus time stimulus).2, []⟩ :=
    .stimulus m [] time stimulus
  obtain ⟨deeds, hdeeds⟩ := h.onTime
  obtain ⟨more, hmore⟩ := hmove.changes
  refine ⟨(hmove.tends h.matched).matched h.matched, ⟨_, hmore.onTime hdeeds⟩,
    fun id due stimulus' => ?_, ?_⟩
  · have htask : (m.scheduleStimulus time stimulus).2.schedule.tasks[id]? =
        if m.schedule.nextId = id then some (m.now + time, .stimulus stimulus)
        else m.schedule.tasks[id]? := m.schedule.getElem?_plan time _ id
    rw [htask, hnow, hnext, Nat.zero_add]
    split
    next hid =>
      subst hid
      constructor
      · intro hnew
        cases hnew
        exact ⟨left.length, rfl, by simp⟩
      · rintro ⟨i, hi, hentry⟩
        obtain rfl : i = left.length := by omega
        simp only [List.getElem?_concat_length, Option.some.injEq, Prod.mk.injEq] at hentry
        obtain ⟨rfl, rfl⟩ := hentry
        rfl
    next hid =>
      rw [h.planned]
      refine exists_congr fun i => and_congr_right fun hi => ?_
      have hother : i ≠ left.length := fun hlast => hid (by rw [hi, hlast])
      rw [List.getElem?_append]
      split
      · rfl
      · rw [List.getElem?_eq_none (by omega), List.getElem?_eq_none (by simp; omega)]
  · rw [List.pairwise_append]
    refine ⟨h.sorted, List.pairwise_singleton _ _, fun entry hentry last hlast => ?_⟩
    rw [List.mem_singleton.mp hlast]
    exact htime entry hentry

private theorem Awaits.planAll {m : Machine} {first : Nat} {left : List (Nat × Stimulus)}
    (h : m.Awaits first left) (hnow : m.now = 0) (hnext : m.schedule.nextId = first + left.length)
    {timeline : List (Nat × Stimulus)}
    (hsorted : (left ++ timeline).Pairwise fun a b => a.1 ≤ b.1) :
    (timeline.foldl (fun m (time, stimulus) => (m.scheduleStimulus time stimulus).2) m).Awaits
      first (left ++ timeline) := by
  induction timeline generalizing m left with
  | nil =>
    rw [List.append_nil]
    exact h
  | cons entry timeline ih =>
    obtain ⟨time, stimulus⟩ := entry
    have htime : ∀ entry ∈ left, entry.1 ≤ time := fun entry hentry =>
      (List.pairwise_append.mp hsorted).2.2 entry hentry _ List.mem_cons_self
    have happend : left ++ (time, stimulus) :: timeline = left ++ [(time, stimulus)] ++ timeline :=
      (List.append_cons _ _ _)
    rw [happend] at hsorted ⊢
    refine ih (h.plan hnow hnext htime stimulus) hnow ?_ hsorted
    have hnext' : (m.scheduleStimulus time stimulus).2.schedule.nextId = m.schedule.nextId + 1 :=
      rfl
    rw [hnext', hnext, List.length_append, List.length_singleton, Nat.add_assoc]

private theorem awaits_load (config : Settings) (source : String) :
    ((new config).load source).2.Awaits 1 [] := by
  have hmove : Move ⟨new config, []⟩ _ ⟨((new config).load source).2, []⟩ := .load _ [] source
  have hempty : ((new config).load source).2.schedule.tasks = {} :=
    congrArg Schedule.tasks ((new config).declares_load source).schedule
  refine ⟨(Moment.Reaches.single hmove).matched, Trace.onTime (.single hmove),
    fun id due stimulus => ?_, .nil⟩
  rw [hempty]
  simp

private theorem awaits_timeline (config : Settings) (source : String) (scenario : Scenario) :
    (scenario.timeline.foldl (fun m (time, stimulus) => (m.scheduleStimulus time stimulus).2)
      ((new config).load source).2).Awaits 1 scenario.timeline := by
  have hclear := ((new config).declares_load source).schedule
  have hnow : ((new config).load source).2.now = 0 := congrArg Schedule.now hclear
  have hnext : ((new config).load source).2.schedule.nextId = 1 := congrArg Schedule.nextId hclear
  exact (awaits_load config source).planAll hnow hnext scenario.timeline_pairwise

end Machine

/-! ### Playing a timeline -/

namespace Moment

/-- Moments of a machine one after another, and the stimuli that fell due on the way, the latest
last, with what the clock showed when they were applied. -/
inductive Plays (s : Moment) : List (Nat × Stimulus) → Moment → Prop
  | none : Plays s [] s
  | move {log : List (Nat × Stimulus)} {s' s'' : Moment} {acts : List Act} (h : Plays s log s')
      (hmove : Move s' acts s'') (hown : ∀ act ∈ acts, act.isOwn) : Plays s log s''
  | apply {log : List (Nat × Stimulus)} {m : Machine} {k : List Around} {deadline timer : Nat}
      {stimulus : Stimulus} (h : Plays s log ⟨m, k⟩)
      (hdue : (m.popDue deadline).1 = some (timer, .stimulus stimulus)) :
      Plays s (log ++ [((m.popDue deadline).2.now, stimulus)])
        ⟨(m.popDue deadline).2.runTask (.stimulus stimulus), k⟩

theorem Plays.trans {a b c : Moment} {log later : List (Nat × Stimulus)} (h : a.Plays log b)
    (h' : b.Plays later c) : a.Plays (log ++ later) c := by
  induction h' with
  | none =>
    rw [List.append_nil]
    exact h
  | move _ hmove hown ih => exact ih.move hmove hown
  | apply _ hdue ih =>
    rw [← List.append_assoc]
    exact ih.apply hdue

private theorem Plays.awaits {s s' : Moment} {log timeline : List (Nat × Stimulus)} {first : Nat}
    (h : s.Plays log s') (hs : s.machine.Awaits first timeline) :
    ∃ left, timeline = log ++ left ∧ s'.machine.Awaits (first + log.length) left := by
  induction h with
  | none => exact ⟨timeline, rfl, hs⟩
  | move _ hmove hown ih =>
    obtain ⟨left, hleft, hawaits⟩ := ih
    exact ⟨left, hleft, Machine.awaits_following.move hmove hown _ _ hawaits⟩
  | apply _ hdue ih =>
    obtain ⟨left, hleft, hawaits⟩ := ih
    obtain ⟨rest, rfl, hrest⟩ := hawaits.take hdue
    refine ⟨rest, hleft.trans (List.append_cons _ _ _), ?_⟩
    rw [List.length_append, List.length_singleton, ← Nat.add_assoc]
    exact hrest.apply _

private theorem plays_following : Following fun s s' => ∃ log, s.Plays log s' where
  refl s := ⟨[], .none⟩
  trans := by
    rintro a b c ⟨log, hlog⟩ ⟨later, hlater⟩
    exact ⟨log ++ later, hlog.trans hlater⟩
  move hmove hown := ⟨[], .move .none hmove hown⟩

end Moment

namespace Machine

/-- One machine comes after another one, with the same around it, and stimuli that fall due on the
way are applied. -/
def Plays (m m' : Machine) : Prop :=
  ∀ k : List Around, ∃ log, Moment.Plays ⟨m, k⟩ log ⟨m', k⟩

private theorem plays_playing : Playing Plays where
  toRunning := Moment.plays_following.running
  stimulus hdue _ := ⟨_, .apply .none hdue⟩

private theorem plays_passRest (clock : ClockMode) (m : Machine) (settle : Option Nat)
    (last : Nat) :
    m.Plays (Command.passRest clock m settle last) := by
  have W := plays_playing.working
  unfold Command.passRest
  split
  · exact W.passUntil m _
  · split
    · exact W.settle m
    · exact W.passUntil m _

end Machine

/--
The timeline of a scenario has the stimuli listed, sorted by their times, those of one time in the
order they are listed in. Where it is planned for a program that was just loaded, whatever the
program does: the entry function runs and the rest of the time passes through moments at which
stimuli that fall due are applied, as the work that they are planned as. At each such moment those
that were applied, with what the clock showed then, are the first part of the timeline; and the rest
of it is still planned for its times, under the numbers it was given, none of them being late.
-/
theorem scenario_is_played_in_order (scenario : Scenario) (source : String) (config : Settings) :
    let timeline := scenario.timeline
    let planned := timeline.foldl (fun m (time, stimulus) => (m.scheduleStimulus time stimulus).2)
      ((Machine.new config).load source).2
    (timeline.Perm scenario.stimuli ∧ timeline.Pairwise (fun a b => a.1 ≤ b.1) ∧
      ∀ time, timeline.filter (·.1 = time) = scenario.stimuli.filter (·.1 = time)) ∧
    (∃ log, Moment.Plays ⟨planned, []⟩ log ⟨planned.runMain.2, []⟩) ∧
    (∀ clock settle last, ∃ log, Moment.Plays ⟨planned, []⟩ log
      ⟨Command.passRest clock planned.runMain.2 settle last, []⟩) ∧
    (∀ (m : Machine) stimulus, m.runTask (.stimulus stimulus) = m.apply stimulus) ∧
    ∀ log s, Moment.Plays ⟨planned, []⟩ log s →
      ∃ left, timeline = log ++ left ∧
        (∀ id due stimulus, s.machine.schedule.tasks[id]? = some (due, .stimulus stimulus) ↔
          ∃ i, id = 1 + log.length + i ∧ left[i]? = some (due, stimulus)) ∧
        ∀ entry ∈ left, s.machine.now ≤ entry.1 := by
  intro timeline planned
  have W := Machine.plays_playing.working
  have hmain : planned.Plays planned.runMain.2 := W.runMain planned
  have hplanned : planned.Awaits 1 timeline := Machine.awaits_timeline config source scenario
  refine ⟨⟨scenario.timeline_perm, scenario.timeline_pairwise, scenario.timeline_filter⟩,
    hmain [],
    fun clock settle last => W.trans hmain (Machine.plays_passRest clock _ settle last) [],
    fun _ _ => rfl, fun log s hplays => ?_⟩
  obtain ⟨left, hleft, hawaits⟩ := hplays.awaits hplanned
  exact ⟨left, hleft, hawaits.planned, hawaits.now_le⟩

/-- Of two stimuli the one listed last is for an earlier time: it falls due first, and the other one
stays planned. -/
theorem earlier_stimulus_is_played_first :
    let scenario : Scenario := { stimuli := [(20, .digital "b" 1), (10, .digital "a" 1)] }
    let planned := scenario.timeline.foldl
      (fun m (time, stimulus) => (m.scheduleStimulus time stimulus).2)
      ((Machine.new {}).load "").2
    let played := (planned.popDue 15).2.runTask (.stimulus (.digital "a" 1))
    Moment.Plays ⟨planned, []⟩ [(10, .digital "a" 1)] ⟨played, []⟩ ∧
    ∃ left, scenario.timeline = (10, .digital "a" 1) :: left ∧
      ∀ entry ∈ left, played.now ≤ entry.1 := by
  intro scenario planned played
  have htimeline : scenario.timeline = [(10, .digital "a" 1), (20, .digital "b" 1)] := by
    simp [scenario, Scenario.timeline, List.mergeSort, List.MergeSort.Internal.splitInTwo]
  have hplanned : planned.schedule =
      ((({} : Schedule Task).plan 10 (.stimulus (.digital "a" 1))).2.plan 20
        (.stimulus (.digital "b" 1))).2 := by
    simp only [planned, htimeline, List.foldl, Machine.scheduleStimulus,
      ((Machine.new {}).declares_load "").schedule]
    rfl
  have htasks (id : Nat) : planned.schedule.tasks[id]? =
      if 2 = id then some (20, .stimulus (.digital "b" 1))
      else if 1 = id then some (10, .stimulus (.digital "a" 1)) else none := by
    rw [hplanned, Schedule.getElem?_plan, Schedule.getElem?_plan, Std.HashMap.getElem?_empty]
    rfl
  have hdue : (planned.popDue 15).1 = some (1, .stimulus (.digital "a" 1)) := by
    refine Schedule.popDue_of_least (htasks 1) (by decide) fun {id due task} hlive => ?_
    rw [htasks] at hlive
    rw [Appointment.le_def]
    grind
  have hnow : (planned.popDue 15).2.now = 10 := by
    have hstart : planned.schedule.now = 0 := congrArg Schedule.now hplanned
    obtain ⟨due, hlive, hnow, -⟩ := Schedule.popDue_some hdue
    cases (htasks 1).symm.trans hlive
    exact hnow.trans (by rw [hstart]; rfl)
  have hplays := Moment.Plays.apply (k := []) .none hdue
  rw [hnow] at hplays
  obtain ⟨-, -, -, -, hleft⟩ := scenario_is_played_in_order scenario "" {}
  obtain ⟨left, hrest, -, hlate⟩ := hleft _ _ hplays
  exact ⟨hplays, left, hrest, hlate⟩

end ControlLogic
