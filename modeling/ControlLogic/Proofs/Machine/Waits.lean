import ControlLogic.Proofs.Machine.Trace

/-!
Waits and the timers of their bodies. What each step does to planned work and to waits is said once;
from this, a wait is put off under a label just as long as its timer is planned, and no two labels
share a timer.
-/

set_option autoImplicit false
set_option relaxedAutoImplicit false

namespace ControlLogic

def Schedule.task? {τ : Type} (s : Schedule τ) (id : Nat) : Option τ :=
  (s.tasks[id]?).map Prod.snd

def Machine.timer? (m : Machine) (label : String) : Option Nat :=
  (m.waits.get? label).map PendingWait.timer

def Act.wait? : Act → Option Nat
  | arm _ timer _ _ _ | cancel _ timer | retime _ timer _ _ | begin _ timer _ _ => some timer
  | plan _ _ _ _ | connect _ _ _ | disconnect _ | take _ _ _ | clear | rewire => none

namespace Machine

/-- A wait is put off under a label just if its timer is planned, and all planned work has a number
that was given before. -/
structure Matched (m : Machine) : Prop where
  agrees (label : String) (timer : Nat) :
    m.timer? label = some timer ↔ m.schedule.task? timer = some (.waitBody label)
  fresh {timer : Nat} {task : Task} : m.schedule.task? timer = some task →
    timer < m.schedule.nextId

/-- What a step does to planned work and to waits, and the acts on record. -/
inductive Tends (m m' : Machine) : List Act → Prop where
  | quiet {acts : List Act} (hwaits : m'.waits = m.waits)
    (htasks : m'.schedule.tasks = m.schedule.tasks)
    (hnext : m'.schedule.nextId = m.schedule.nextId) (hacts : ∀ act ∈ acts, act.wait? = none) :
    Tends m m' acts
  | plan {acts : List Act} {due : Nat} {task : Task} (htask : ∀ label, task ≠ .waitBody label)
    (hwaits : m'.waits = m.waits)
    (htasks : ∀ id, m'.schedule.tasks[id]? =
      if m.schedule.nextId = id then some (due, task) else m.schedule.tasks[id]?)
    (hnext : m'.schedule.nextId = m.schedule.nextId + 1) (hacts : ∀ act ∈ acts, act.wait? = none) :
    Tends m m' acts
  | take {acts : List Act} {timer : Nat} {task : Task}
    (htimer : m.schedule.task? timer = some task) (htask : ∀ label, task ≠ .waitBody label)
    (hwaits : m'.waits = m.waits)
    (htasks : ∀ id, m'.schedule.tasks[id]? =
      if timer = id then none else m.schedule.tasks[id]?)
    (hnext : m'.schedule.nextId = m.schedule.nextId) (hacts : ∀ act ∈ acts, act.wait? = none) :
    Tends m m' acts
  | arm {label : String} {due now delay : Nat} {body : List Stmt} {frames : List Frame}
    (hfree : m.timer? label = none)
    (hwaits : m'.waits = m.waits.insert label ⟨m.schedule.nextId, body, frames⟩)
    (htasks : ∀ id, m'.schedule.tasks[id]? =
      if m.schedule.nextId = id then some (due, .waitBody label) else m.schedule.tasks[id]?)
    (hnext : m'.schedule.nextId = m.schedule.nextId + 1) :
    Tends m m' [.arm label m.schedule.nextId now delay body]
  | retime {label : String} {w : PendingWait} {due now delay : Nat}
    (hw : m.waits.get? label = some w) (hwaits : m'.waits = m.waits)
    (htasks : ∀ id, m'.schedule.tasks[id]? =
      if w.timer = id then (m.schedule.tasks[id]?).map fun entry => (due, entry.2)
      else m.schedule.tasks[id]?)
    (hnext : m'.schedule.nextId = m.schedule.nextId) :
    Tends m m' [.retime label w.timer now delay]
  | close {label : String} {w : PendingWait} {act : Act} (hw : m.waits.get? label = some w)
    (hact : act = .cancel label w.timer ∨ ∃ now, act = .begin label w.timer now w.body)
    (hwaits : m'.waits = m.waits.erase label)
    (htasks : ∀ id, m'.schedule.tasks[id]? =
      if w.timer = id then none else m.schedule.tasks[id]?)
    (hnext : m'.schedule.nextId = m.schedule.nextId) : Tends m m' [act]
  | closeAll (hwaits : m'.waits = {})
    (htasks : ∀ id, m'.schedule.tasks[id]? =
      if id ∈ m.waits.toList.map (·.2.timer) then none else m.schedule.tasks[id]?)
    (hnext : m'.schedule.nextId = m.schedule.nextId) :
    Tends m m' (m.waits.toList.map fun entry => .cancel entry.1 entry.2.timer)
  | clear {acts : List Act} (hwaits : m'.waits = {}) (htasks : m'.schedule.tasks = {})
    (hnext : m'.schedule.nextId = m.schedule.nextId) (hacts : ∀ act ∈ acts, act.wait? = none) :
    Tends m m' acts

end Machine

theorem Schedule.getElem?_cancelAll {τ : Type} (s : Schedule τ)
    (waits : List (String × PendingWait)) (id : Nat) :
    (waits.foldl (fun s entry => (s.cancel entry.2.timer).2) s).tasks[id]? =
      if id ∈ waits.map (·.2.timer) then none else s.tasks[id]? := by
  induction waits generalizing s with
  | nil => rfl
  | cons entry waits ih =>
    rw [List.foldl_cons, ih, Schedule.getElem?_cancel]
    simp only [List.map_cons, List.mem_cons]
    by_cases hrest : id ∈ waits.map (·.2.timer)
    · rw [if_pos hrest, if_pos (.inr hrest)]
    · rw [if_neg hrest]
      by_cases hself : entry.2.timer = id
      · rw [if_pos hself, if_pos (.inl hself.symm)]
      · rw [if_neg hself, if_neg (by simp [hrest, Ne.symm hself])]

theorem Schedule.nextId_cancelAll {τ : Type} (s : Schedule τ)
    (waits : List (String × PendingWait)) :
    (waits.foldl (fun s entry => (s.cancel entry.2.timer).2) s).nextId = s.nextId := by
  induction waits generalizing s with
  | nil => rfl
  | cons entry waits ih => exact ih (s.cancel entry.2.timer).2

theorem Schedule.task?_eq_some {τ : Type} {s : Schedule τ} {id : Nat} {task : τ} :
    s.task? id = some task ↔ ∃ due, s.tasks[id]? = some (due, task) := by
  unfold Schedule.task?
  constructor
  · intro h
    obtain ⟨⟨due, task'⟩, hlive, rfl⟩ := Option.map_eq_some_iff.mp h
    exact ⟨due, hlive⟩
  · rintro ⟨due, hlive⟩
    rw [hlive]
    rfl

theorem Schedule.popDue_some {τ : Type} {s : Schedule τ} {deadline timer : Nat} {task : τ}
    (h : (s.popDue deadline).1 = some (timer, task)) :
    ∃ due, s.tasks[timer]? = some (due, task) ∧ (s.popDue deadline).2.now = max s.now due ∧
      ∀ id, (s.popDue deadline).2.tasks[id]? = if timer = id then none else s.tasks[id]? := by
  obtain ⟨hnone, -⟩ | ⟨id, due, task', hsome, hlive, -, hnow, htasks, -⟩ :=
    s.popDue_cases deadline
  · cases hnone.symm.trans h
  · cases hsome.symm.trans h
    refine ⟨due, hlive, hnow, fun id => ?_⟩
    rw [htasks]
    simp only [Std.HashMap.getElem?_erase, beq_iff_eq]

theorem Schedule.popDue_keeps {τ : Type} {s : Schedule τ} {deadline timer : Nat} {task other : τ}
    (h : (s.popDue deadline).1 = some (timer, task)) (hother : task ≠ other) (id due : Nat) :
    (s.popDue deadline).2.tasks[id]? = some (due, other) ↔ s.tasks[id]? = some (due, other) := by
  obtain ⟨_, hlive, -, htasks⟩ := popDue_some h
  rw [htasks]
  split
  next hid =>
    subst hid
    refine iff_of_false nofun fun hplanned => ?_
    cases hlive.symm.trans hplanned
    exact hother rfl
  next => rfl

namespace Machine

theorem timer?_eq_some {m : Machine} {label : String} {timer : Nat} :
    m.timer? label = some timer ↔ ∃ w, m.waits.get? label = some w ∧ w.timer = timer :=
  Option.map_eq_some_iff

theorem timer?_of_get? {m : Machine} {label : String} {w : PendingWait}
    (h : m.waits.get? label = some w) : m.timer? label = some w.timer :=
  timer?_eq_some.mpr ⟨w, h, rfl⟩

private theorem Matched.timer?_eq_none {m : Machine} (hm : m.Matched) {label : String}
    (h : ((m.waits.get? label).any fun w => m.schedule.isPending w.timer) = false) :
    m.timer? label = none := by
  cases htimer : m.timer? label with
  | none => rfl
  | some timer =>
    obtain ⟨due, hlive⟩ := Schedule.task?_eq_some.mp ((hm.agrees label timer).mp htimer)
    obtain ⟨w, hw, rfl⟩ := timer?_eq_some.mp htimer
    rw [hw] at h
    have hpending : m.schedule.isPending w.timer = true := by
      unfold Schedule.isPending
      rw [Std.HashMap.contains_eq_isSome_getElem?, hlive]
      rfl
    cases h.symm.trans hpending

theorem Matched.timer_lt {m : Machine} (hm : m.Matched) {label : String} {w : PendingWait}
    (h : m.waits.get? label = some w) : w.timer < m.schedule.nextId :=
  hm.fresh ((hm.agrees label w.timer).mp (timer?_of_get? h))

theorem Matched.task_eq {m : Machine} (hm : m.Matched) {label : String} {w : PendingWait}
    (hw : m.waits.get? label = some w) {due : Nat} {task : Task}
    (hlive : m.schedule.tasks[w.timer]? = some (due, task)) : task = .waitBody label := by
  have hbody := (hm.agrees label w.timer).mp (timer?_of_get? hw)
  have htask : m.schedule.task? w.timer = some task := Schedule.task?_eq_some.mpr ⟨due, hlive⟩
  exact Option.some.inj (htask.symm.trans hbody)

theorem Matched.timer?_of_due {m : Machine} (hm : m.Matched) {deadline timer : Nat}
    {label : String} (h : (m.popDue deadline).1 = some (timer, .waitBody label)) :
    m.timer? label = some timer := by
  obtain ⟨due, hlive, -, -⟩ := Schedule.popDue_some h
  exact (hm.agrees label timer).mpr (Schedule.task?_eq_some.mpr ⟨due, hlive⟩)

theorem Does.tends {m m' : Machine} {acts : List Act} (h : m.Does acts m') (hm : m.Matched) :
    m.Tends m' acts := by
  cases h with
  | still h =>
    exact .quiet h.waits (congrArg Schedule.tasks h.schedule) (congrArg Schedule.nextId h.schedule)
      nofun
  | plan delay h =>
    refine .plan ?_ rfl (m.schedule.getElem?_plan delay _) rfl (by simp [Act.wait?])
    rintro label rfl
    cases h
  | arm delay label body h =>
    exact .arm (hm.timer?_eq_none h) rfl (m.schedule.getElem?_plan delay _) rfl
  | cancel h =>
    rw [after_cancelWait h]
    exact .close h (.inl rfl) rfl (m.schedule.getElem?_cancel _) rfl
  | cancelAll =>
    rw [after_cancelAllWaits]
    exact .closeAll rfl (m.schedule.getElem?_cancelAll _) (m.schedule.nextId_cancelAll _)
  | retime delay h =>
    rw [after_retimeWait h]
    exact .retime h rfl (m.schedule.getElem?_retime _ delay) (m.schedule.retime_nextId _ delay)
  | connect h =>
    exact .plan (by simp) rfl (m.schedule.getElem?_plan _ _) rfl (by simp [Act.wait?])
  | ask h =>
    exact .plan (by simp) rfl (m.schedule.getElem?_plan _ _) rfl (by simp [Act.wait?])
  | disconnect h => exact .quiet rfl rfl rfl (by simp [Act.wait?])
  | _ => exact .quiet rfl rfl rfl nofun

theorem Work.tends {m m' : Machine} {acts : List Act} (h : m.Work acts m') (hm : m.Matched) :
    m.Tends m' acts := by
  cases h with
  | does h => exact h.tends hm
  | enter frame h => exact .quiet rfl rfl rfl nofun
  | leave => exact .quiet rfl rfl rfl nofun

private theorem tends_take {m m' : Machine} {deadline timer : Nat} {task : Task}
    (h : (m.popDue deadline).1 = some (timer, task)) (htask : ∀ label, task ≠ .waitBody label)
    (hwaits : m'.waits = m.waits) (hschedule : m'.schedule = (m.popDue deadline).2.schedule) :
    m.Tends m' [.take timer (m.popDue deadline).2.now task] := by
  obtain ⟨due, hlive, -, htasks⟩ := Schedule.popDue_some h
  refine .take (Schedule.task?_eq_some.mpr ⟨due, hlive⟩) htask hwaits ?_ ?_ (by simp [Act.wait?])
  · rw [hschedule]
    exact htasks
  · rw [hschedule]
    exact m.schedule.popDue_nextId deadline

end Machine

theorem Move.tends {s s' : Moment} {acts : List Act} (h : Move s acts s')
    (hs : s.machine.Matched) : s.machine.Tends s'.machine acts := by
  cases h with
  | code k h => exact h.tends hs
  | clock k h htasks hnext => exact .quiet rfl htasks hnext nofun
  | @take m k deadline timer task h hwait =>
    refine Machine.tends_take h ?_ rfl rfl
    rintro label rfl
    obtain ⟨w, hw, -⟩ := Machine.timer?_eq_some.mp (hs.timer?_of_due h)
    cases (hwait label rfl).symm.trans hw
  | @beginWait m k deadline timer label w h hw =>
    obtain ⟨-, -, -, htasks⟩ := Schedule.popDue_some h
    obtain rfl : w.timer = timer :=
      Option.some.inj ((Machine.timer?_of_get? hw).symm.trans (hs.timer?_of_due h))
    exact .close hw (.inr ⟨_, rfl⟩) rfl htasks (m.schedule.popDue_nextId deadline)
  | complete k h => exact Machine.tends_take h (by simp) rfl rfl
  | deliver k h => exact Machine.tends_take h (by simp) rfl rfl
  | reset m k => exact .clear rfl rfl rfl (by simp [Act.wait?])
  | load m k text =>
    have hload := m.declares_load text
    have htasks : (m.load text).2.schedule.tasks = {} := congrArg Schedule.tasks hload.schedule
    have hnext : (m.load text).2.schedule.nextId = m.reset.schedule.nextId :=
      congrArg Schedule.nextId hload.schedule
    exact .clear hload.waits htasks hnext (by simp [Act.wait?])
  | stimulus m k delay stimulus =>
    exact .plan (by simp) rfl (m.schedule.getElem?_plan delay _) rfl (by simp [Act.wait?])
  | rewire m k f => exact .quiet rfl rfl rfl (by simp [Act.wait?])
  | _ => exact .quiet rfl rfl rfl nofun

namespace Machine

theorem timer?_congr {m m' : Machine} (h : m'.waits = m.waits) (label : String) :
    m'.timer? label = m.timer? label := by
  unfold timer?
  rw [h]

theorem timer?_erase {m m' : Machine} {name : String} (h : m'.waits = m.waits.erase name)
    (label : String) : m'.timer? label = if name = label then none else m.timer? label := by
  unfold timer?
  rw [h]
  change ((m.waits.erase name)[label]?).map _ = if _ then _ else (m.waits[label]?).map _
  simp only [Std.HashMap.getElem?_erase, beq_iff_eq]
  split
  · rfl
  · rfl

private theorem timer?_insert {m m' : Machine} {name : String} {w : PendingWait}
    (h : m'.waits = m.waits.insert name w) (label : String) :
    m'.timer? label = if name = label then some w.timer else m.timer? label := by
  unfold timer?
  rw [h]
  change ((m.waits.insert name w)[label]?).map _ = if _ then _ else (m.waits[label]?).map _
  simp only [Std.HashMap.getElem?_insert, beq_iff_eq]
  split
  · rfl
  · rfl

theorem timer?_empty {m : Machine} (h : m.waits = {}) (label : String) : m.timer? label = none := by
  unfold timer?
  rw [h]
  simp

end Machine

namespace Schedule

variable {τ : Type} {s s' : Schedule τ} {k : Nat}

theorem task?_congr (h : s'.tasks = s.tasks) (id : Nat) : s'.task? id = s.task? id := by
  unfold task?
  rw [h]

theorem task?_put {due : Nat} {task : τ}
    (h : ∀ id, s'.tasks[id]? = if k = id then some (due, task) else s.tasks[id]?) (id : Nat) :
    s'.task? id = if k = id then some task else s.task? id := by
  unfold task?
  rw [h]
  split
  · rfl
  · rfl

theorem task?_drop (h : ∀ id, s'.tasks[id]? = if k = id then none else s.tasks[id]?) (id : Nat) :
    s'.task? id = if k = id then none else s.task? id := by
  unfold task?
  rw [h]
  split
  · rfl
  · rfl

theorem task?_put_none {task : τ}
    (h : ∀ id, s'.task? id = if s.nextId = id then some task else s.task? id) {timer : Nat}
    (hlt : timer < s.nextId) (hnone : s.task? timer = none) : s'.task? timer = none := by
  rw [h, if_neg (Nat.ne_of_gt hlt)]
  exact hnone

theorem task?_drop_none (h : ∀ id, s'.task? id = if k = id then none else s.task? id) {timer : Nat}
    (hnone : s.task? timer = none) : s'.task? timer = none := by
  rw [h, hnone]
  exact ite_self _

theorem task?_dropAll {timers : List Nat}
    (h : ∀ id, s'.tasks[id]? = if id ∈ timers then none else s.tasks[id]?) (id : Nat) :
    s'.task? id = if id ∈ timers then none else s.task? id := by
  unfold task?
  rw [h]
  split
  · rfl
  · rfl

theorem task?_move {due : Nat} (h : ∀ id, s'.tasks[id]? =
    if k = id then (s.tasks[id]?).map fun entry => (due, entry.2) else s.tasks[id]?) (id : Nat) :
    s'.task? id = s.task? id := by
  unfold task?
  rw [h]
  split
  · rw [Option.map_map]
    rfl
  · rfl

end Schedule

namespace Machine

theorem Matched.congr {m m' : Machine} (hm : m.Matched) (hwaits : m'.waits = m.waits)
    (htasks : ∀ id, m'.schedule.task? id = m.schedule.task? id)
    (hnext : m'.schedule.nextId = m.schedule.nextId) : m'.Matched := by
  refine ⟨fun label id => ?_, fun {id task} h => ?_⟩
  · rw [timer?_congr hwaits, htasks]
    exact hm.agrees label id
  · rw [htasks] at h
    rw [hnext]
    exact hm.fresh h

theorem Matched.put {m m' : Machine} (hm : m.Matched) {task : Task}
    (hfree : ∀ label, task = .waitBody label → m.timer? label = none)
    (htimers : ∀ label, m'.timer? label =
      if task = .waitBody label then some m.schedule.nextId else m.timer? label)
    (htasks : ∀ id, m'.schedule.task? id =
      if m.schedule.nextId = id then some task else m.schedule.task? id)
    (hnext : m'.schedule.nextId = m.schedule.nextId + 1) : m'.Matched := by
  have hunused (task : Task) : m.schedule.task? m.schedule.nextId ≠ some task :=
    fun h => Nat.lt_irrefl _ (hm.fresh h)
  refine ⟨fun label id => ?_, fun {id task'} h => ?_⟩
  · rw [htimers, htasks]
    by_cases hid : m.schedule.nextId = id
    · subst hid
      rw [if_pos rfl]
      by_cases htask : task = .waitBody label
      · simp [htask]
      · have hother : m.timer? label ≠ some m.schedule.nextId :=
          fun h => hunused _ ((hm.agrees label _).mp h)
        simp [htask, hother]
    · rw [if_neg hid]
      by_cases htask : task = .waitBody label
      · have hnone := hfree label htask
        rw [if_pos htask, ← hm.agrees label id, hnone]
        simp [hid]
      · rw [if_neg htask]
        exact hm.agrees label id
  · rw [htasks] at h
    rw [hnext]
    split at h
    next hid => exact Nat.lt_succ_of_le (Nat.le_of_eq hid.symm)
    next => exact Nat.lt_succ_of_lt (hm.fresh h)

theorem Matched.drop {m m' : Machine} (hm : m.Matched) {timer : Nat}
    (htimers : ∀ label, m'.timer? label =
      if m.schedule.task? timer = some (.waitBody label) then none else m.timer? label)
    (htasks : ∀ id, m'.schedule.task? id = if timer = id then none else m.schedule.task? id)
    (hnext : m'.schedule.nextId = m.schedule.nextId) : m'.Matched := by
  refine ⟨fun label id => ?_, fun {id task} h => ?_⟩
  · rw [htimers, htasks]
    by_cases hid : timer = id
    · subst hid
      rw [if_pos rfl]
      by_cases hgone : m.schedule.task? timer = some (.waitBody label)
      · simp [hgone]
      · simp [hgone, hm.agrees]
    · rw [if_neg hid]
      by_cases hgone : m.schedule.task? timer = some (.waitBody label)
      · have htimer := (hm.agrees label timer).mpr hgone
        rw [if_pos hgone, ← hm.agrees label id, htimer]
        simp [hid]
      · rw [if_neg hgone]
        exact hm.agrees label id
  · rw [htasks] at h
    rw [hnext]
    split at h
    · cases h
    · exact hm.fresh h

theorem Matched.clear {m m' : Machine} (hm : m.Matched) (hwaits : m'.waits = {})
    (htasks : ∀ {id : Nat} {task : Task}, m'.schedule.task? id = some task →
      m.schedule.task? id = some task ∧ ∀ label, task ≠ .waitBody label)
    (hnext : m'.schedule.nextId = m.schedule.nextId) : m'.Matched := by
  refine ⟨fun label id => ?_, fun {id task} h => ?_⟩
  · rw [timer?_empty hwaits]
    constructor
    · intro h
      cases h
    · intro h
      exact absurd rfl ((htasks h).2 label)
  · rw [hnext]
    exact hm.fresh (htasks h).1

theorem Tends.matched {m m' : Machine} {acts : List Act} (h : m.Tends m' acts) (hm : m.Matched) :
    m'.Matched := by
  cases h with
  | quiet hwaits htasks hnext hacts => exact hm.congr hwaits (Schedule.task?_congr htasks) hnext
  | plan htask hwaits htasks hnext hacts =>
    refine hm.put (fun label h => absurd h (htask label)) (fun label => ?_)
      (Schedule.task?_put htasks) hnext
    rw [timer?_congr hwaits, if_neg (htask label)]
  | take htimer htask hwaits htasks hnext hacts =>
    refine hm.drop (fun label => ?_) (Schedule.task?_drop htasks) hnext
    rw [timer?_congr hwaits, htimer, if_neg fun h => htask label (Option.some.inj h)]
  | arm hfree hwaits htasks hnext =>
    refine hm.put (fun label h => ?_) (fun label => ?_) (Schedule.task?_put htasks) hnext
    · cases h
      exact hfree
    · rw [timer?_insert hwaits]
      simp only [Task.waitBody.injEq]
  | retime hw hwaits htasks hnext => exact hm.congr hwaits (Schedule.task?_move htasks) hnext
  | @close name w act hw hact hwaits htasks hnext =>
    refine hm.drop (fun label => ?_) (Schedule.task?_drop htasks) hnext
    have hplanned := (hm.agrees name w.timer).mp (timer?_of_get? hw)
    rw [timer?_erase hwaits, hplanned]
    simp only [Option.some.injEq, Task.waitBody.injEq]
  | closeAll hwaits htasks hnext =>
    refine hm.clear hwaits (fun {id task} h => ?_) hnext
    rw [Schedule.task?_dropAll htasks] at h
    split at h
    · cases h
    next hkept =>
      refine ⟨h, ?_⟩
      rintro label rfl
      obtain ⟨w, hw, rfl⟩ := timer?_eq_some.mp ((hm.agrees label id).mpr h)
      have hmem := Std.HashMap.mem_toList_iff_getElem?_eq_some.mpr hw
      exact hkept (List.mem_map_of_mem hmem)
  | clear hwaits htasks hnext hacts =>
    refine hm.clear hwaits (fun {id task} h => ?_) hnext
    obtain ⟨due, hlive⟩ := Schedule.task?_eq_some.mp h
    rw [htasks] at hlive
    simp at hlive

end Machine

theorem Machine.matched_new (config : Settings) : (new config).Matched := by
  refine ⟨fun label timer => ?_, fun {timer task} h => ?_⟩
  · simp [timer?, Schedule.task?, new]
  · simp [Schedule.task?, new] at h

theorem Moment.Reaches.matched {config : Settings} {s : Moment}
    (h : Moment.Reaches ⟨Machine.new config, []⟩ s) : s.machine.Matched := by
  obtain ⟨acts, htrace⟩ := h
  induction htrace with
  | refl => exact Machine.matched_new config
  | step _ hmove ih => exact (hmove.tends ih).matched ih

end ControlLogic
