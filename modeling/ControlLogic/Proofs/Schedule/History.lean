import ControlLogic.Proofs.Schedule.Roster

/-!
The history of a schedule: when work was given its time and when it was done. On a clock that is
moved to the first work or to a deadline before it, work is never late: it is done exactly when it
is due, which is the delay it was last given after the time it was given it.
-/

set_option autoImplicit false
set_option relaxedAutoImplicit false

namespace ControlLogic

variable {τ : Type}

/-- What is done about planned work: a number gets a time from now, or its work is done. -/
inductive Deed where
  | set (id now delay : Nat)
  | run (id now : Nat)
  deriving DecidableEq, Repr

namespace Schedule

/-- One change of a schedule, and what is done by it. -/
inductive Change : Schedule τ → List Deed → Schedule τ → Prop where
  | plan (s : Schedule τ) (delay : Nat) (task : τ) :
    Change s [.set s.nextId s.now delay] (s.plan delay task).2
  | cancel (s : Schedule τ) (id : Nat) : Change s [] (s.cancel id).2
  | retime (s : Schedule τ) (id delay : Nat) :
    Change s [.set id s.now delay] (s.retime id delay).2
  | popDue (s : Schedule τ) (deadline : Nat) :
    Change s (((s.popDue deadline).1.map fun (id, _) =>
      Deed.run id (s.popDue deadline).2.now).toList) (s.popDue deadline).2
  | waitUntil (s : Schedule τ) (deadline : Nat) :
    Change s [] (s.waitUntil (min (s.nextDue?.getD deadline) deadline)).2
  | receive (s : Schedule τ) : Change s [] s.receive.2
  | send (s : Schedule τ) (stimulus : Stimulus) : Change s [] (s.send stimulus)
  | drain (s : Schedule τ) : Change s [] { s with inbox := [] }
  | clear (s : Schedule τ) : Change s [] s.clear

/-- Changes of a schedule one after another, and what is done by them, the latest first. -/
inductive Changes : Schedule τ → List Deed → Schedule τ → Prop where
  | none (s : Schedule τ) : Changes s [] s
  | more {s s' s'' : Schedule τ} {history deeds : List Deed} :
    Changes s history s' → Change s' deeds s'' → Changes s (deeds ++ history) s''

theorem Change.changes {s s' : Schedule τ} {deeds : List Deed}
    (h : Change s deeds s') : Changes s deeds s' := by
  have hmore := Changes.more (.none s) h
  rwa [List.append_nil] at hmore

theorem Changes.trans {s s' s'' : Schedule τ} {history later : List Deed}
    (h : Changes s history s') (h' : Changes s' later s'') : Changes s (later ++ history) s'' := by
  induction h' with
  | none => exact h
  | more _ hchange ih =>
    rw [List.append_assoc]
    exact .more ih hchange

theorem retime_now (s : Schedule τ) (id delay : Nat) :
    (s.retime id delay).2.now = s.now := by
  unfold retime
  split
  · rfl
  · rfl

theorem retime_inbox (s : Schedule τ) (id delay : Nat) :
    (s.retime id delay).2.inbox = s.inbox := by
  unfold retime
  split
  · rfl
  · rfl

theorem retime_nextId (s : Schedule τ) (id delay : Nat) :
    (s.retime id delay).2.nextId = s.nextId := by
  unfold retime
  split
  · rfl
  · rfl

theorem receive_tasks (s : Schedule τ) : s.receive.2.tasks = s.tasks := by
  unfold receive
  split
  · rfl
  · rfl

theorem receive_nextId (s : Schedule τ) : s.receive.2.nextId = s.nextId := by
  unfold receive
  split
  · rfl
  · rfl

theorem waitUntil_tasks (s : Schedule τ) (moment : Nat) :
    (s.waitUntil moment).2.tasks = s.tasks := by
  unfold waitUntil
  split
  · rfl
  · rfl

theorem waitUntil_nextId (s : Schedule τ) (moment : Nat) :
    (s.waitUntil moment).2.nextId = s.nextId := by
  unfold waitUntil
  split
  · rfl
  · rfl

theorem popDue_nextId (s : Schedule τ) (deadline : Nat) :
    (s.popDue deadline).2.nextId = s.nextId := by
  cases h : s.first? with
  | none =>
    rw [popDue_of_none h]
    rfl
  | some e =>
    by_cases hdue : e.due ≤ deadline
    · rw [popDue_of_le h hdue]
      rfl
    · rw [popDue_of_lt h (Nat.not_le.mp hdue)]
      rfl

theorem getElem?_plan (s : Schedule τ) (delay : Nat) (task : τ) (id : Nat) :
    (s.plan delay task).2.tasks[id]? =
      if s.nextId = id then some (s.now + delay, task) else s.tasks[id]? := by
  change (s.tasks.insert s.nextId (s.now + delay, task))[id]? = _
  simp only [Std.HashMap.getElem?_insert, beq_iff_eq]

theorem getElem?_cancel (s : Schedule τ) (k id : Nat) :
    (s.cancel k).2.tasks[id]? = if k = id then none else s.tasks[id]? := by
  change (s.tasks.erase k)[id]? = _
  simp only [Std.HashMap.getElem?_erase, beq_iff_eq]

theorem getElem?_retime (s : Schedule τ) (k delay id : Nat) :
    (s.retime k delay).2.tasks[id]? =
      if k = id then (s.tasks[id]?).map fun entry => (s.now + delay, entry.2)
      else s.tasks[id]? := by
  unfold retime
  split
  next due task h =>
    change (s.tasks.insert k (s.now + delay, task))[id]? = _
    simp only [Std.HashMap.getElem?_insert, beq_iff_eq]
    split
    next hk =>
      subst hk
      rw [h]
      rfl
    next => rfl
  next h =>
    split
    next hk =>
      subst hk
      rw [h]
      rfl
    next => rfl

end Schedule

namespace Deed

def now : Deed → Nat
  | set _ now _ => now
  | run _ now => now

/-- When a number was last given a time, and the delay it was given; the latest deeds come
first. -/
def setting? (id : Nat) : List Deed → Option (Nat × Nat)
  | [] => none
  | set k now delay :: rest => if k = id then some (now, delay) else setting? id rest
  | run _ _ :: rest => setting? id rest

def Promised (history : List Deed) (id due : Nat) : Prop :=
  ∃ now delay, setting? id history = some (now, delay) ∧ due = now + delay

end Deed

/--
A schedule on time after a history of deeds, the latest first: work that is planned is due at the
time its number was last given, and not before now; the deeds follow on one another in time; and
work was done at the time its number had last been given.
-/
structure Schedule.OnTime (history : List Deed) (s : Schedule τ) : Prop where
  due {id due : Nat} {task : τ} : s.tasks[id]? = some (due, task) →
    s.now ≤ due ∧ Deed.Promised history id due
  past {deed : Deed} : deed ∈ history → deed.now ≤ s.now
  ordered : (history.map Deed.now).Pairwise (· ≥ ·)
  punctual {later earlier : List Deed} {id now : Nat} :
    history = later ++ .run id now :: earlier → Deed.Promised earlier id now

namespace Schedule

theorem onTime_empty : ({} : Schedule τ).OnTime [] := by
  refine ⟨?_, ?_, ?_, ?_⟩
  · intro id due task h
    simp at h
  · intro deed h
    simp at h
  · exact List.Pairwise.nil
  · intro later earlier id now h
    simp at h

/-- Taking the first work that is due by a deadline: there is none, or it is the first of all, and
the clock is then at its time or later. -/
theorem popDue_cases (s : Schedule τ) (deadline : Nat) :
    ((s.popDue deadline).1 = none ∧ (s.popDue deadline).2.now = s.now ∧
      (s.popDue deadline).2.tasks = s.tasks ∧ (s.popDue deadline).2.inbox = s.inbox ∧
      ∀ {id due : Nat} {task : τ}, s.tasks[id]? = some (due, task) → deadline < due) ∨
    ∃ id due task, (s.popDue deadline).1 = some (id, task) ∧
      s.tasks[id]? = some (due, task) ∧ due ≤ deadline ∧
      (s.popDue deadline).2.now = max s.now due ∧
      (s.popDue deadline).2.tasks = s.tasks.erase id ∧ (s.popDue deadline).2.inbox = s.inbox ∧
      ∀ {id' due' : Nat} {task' : τ}, s.tasks[id']? = some (due', task') →
        Appointment.mk due id ≤ Appointment.mk due' id' := by
  cases h : s.first? with
  | none =>
    left
    rw [popDue_of_none h]
    refine ⟨rfl, rfl, rfl, rfl, ?_⟩
    intro id due task htask
    rw [first?_eq_least?, Appointment.least?_eq_none_iff] at h
    have hmem : Appointment.mk due id ∈ s.roster.entries := Roster.mem_entries.mpr ⟨task, htask⟩
    rw [h] at hmem
    exact absurd hmem List.not_mem_nil
  | some e =>
    have hleast := h
    rw [first?_eq_least?, Appointment.least?_eq_some_iff] at hleast
    obtain ⟨hmem, hmin⟩ := hleast
    obtain ⟨task, htask⟩ := Roster.mem_entries.mp hmem
    have htask' : s.tasks[e.id]? = some (e.due, task) := htask
    have hfirst {id due : Nat} {task : τ} (hlive : s.tasks[id]? = some (due, task)) :
        e ≤ Appointment.mk due id :=
      hmin _ (Roster.mem_entries.mpr ⟨task, hlive⟩)
    by_cases hdue : e.due ≤ deadline
    · right
      rw [popDue_of_le h hdue]
      refine ⟨e.id, e.due, task, ?_, htask', hdue, rfl, rfl, rfl, hfirst⟩
      rw [htask']
      rfl
    · left
      rw [popDue_of_lt h (Nat.not_le.mp hdue)]
      refine ⟨rfl, rfl, rfl, rfl, ?_⟩
      intro id due task hlive
      have hle := Appointment.due_le_due (hfirst hlive)
      have hlt := Nat.not_le.mp hdue
      exact Nat.lt_of_lt_of_le hlt hle

theorem popDue_of_least {s : Schedule τ} {deadline id due : Nat} {task : τ}
    (hlive : s.tasks[id]? = some (due, task)) (hdue : due ≤ deadline)
    (hleast : ∀ {id' due' : Nat} {task' : τ}, s.tasks[id']? = some (due', task') →
      Appointment.mk due id ≤ Appointment.mk due' id') :
    (s.popDue deadline).1 = some (id, task) := by
  obtain ⟨-, -, -, -, hlater⟩ | ⟨id', due', task', hsome, hlive', -, -, -, -, hfirst⟩ :=
    s.popDue_cases deadline
  · exact absurd (hlater hlive) (Nat.not_lt.mpr hdue)
  · have hsame := Appointment.le_antisymm (hfirst hlive) (hleast hlive')
    cases hsame
    cases hlive.symm.trans hlive'
    exact hsome

theorem min_nextDue?_le (s : Schedule τ) (deadline : Nat) {id due : Nat} {task : τ}
    (h : s.tasks[id]? = some (due, task)) : min (s.nextDue?.getD deadline) deadline ≤ due := by
  have hmem : Appointment.mk due id ∈ s.roster.entries := Roster.mem_entries.mpr ⟨task, h⟩
  unfold nextDue?
  rw [first?_eq_least?]
  cases hfirst : Appointment.least? s.roster.entries with
  | none =>
    rw [Appointment.least?_eq_none_iff.mp hfirst] at hmem
    exact absurd hmem List.not_mem_nil
  | some e =>
    have hle := Appointment.due_le_due ((Appointment.least?_eq_some_iff.mp hfirst).2 _ hmem)
    exact Nat.le_trans (Nat.min_le_left _ _) hle

theorem nextDue?_cases (s : Schedule τ) :
    (s.nextDue? = none ∧ ∀ {id : Nat} {entry : Nat × τ}, s.tasks[id]? ≠ some entry) ∨
      ∃ (id due : Nat) (task : τ), s.nextDue? = some due ∧
        s.tasks[id]? = some (due, task) := by
  unfold nextDue?
  rw [first?_eq_least?]
  cases hfirst : Appointment.least? s.roster.entries with
  | none =>
    refine .inl ⟨rfl, fun {id entry} hlive => ?_⟩
    have hmem : Appointment.mk entry.1 id ∈ s.roster.entries :=
      Roster.mem_entries.mpr ⟨entry.2, hlive⟩
    rw [Appointment.least?_eq_none_iff.mp hfirst] at hmem
    exact absurd hmem List.not_mem_nil
  | some e =>
    obtain ⟨task, hlive⟩ := Roster.mem_entries.mp (Appointment.least?_eq_some_iff.mp hfirst).1
    exact .inr ⟨e.id, e.due, task, rfl, hlive⟩

theorem min_nextDue?_eq {s : Schedule τ} {deadline : Nat}
    (h : ∀ {id due : Nat} {task : τ}, s.tasks[id]? = some (due, task) → deadline ≤ due) :
    min (s.nextDue?.getD deadline) deadline = deadline := by
  obtain ⟨hnone, -⟩ | ⟨_, _, _, hdue, hlive⟩ := s.nextDue?_cases
  · rw [hnone]
    exact Nat.min_self deadline
  · rw [hdue]
    exact Nat.min_eq_right (h hlive)

theorem OnTime.quiet {history : List Deed} {s s' : Schedule τ} (h : s.OnTime history)
    (htasks : ∀ {id due : Nat} {task : τ}, s'.tasks[id]? = some (due, task) →
      s.tasks[id]? = some (due, task) ∧ s'.now ≤ due)
    (hnow : s.now ≤ s'.now) : s'.OnTime history := by
  refine ⟨?_, ?_, h.ordered, h.punctual⟩
  · intro id due task hlive
    obtain ⟨hbefore, hdue⟩ := htasks hlive
    exact ⟨hdue, (h.due hbefore).2⟩
  · intro deed hdeed
    exact Nat.le_trans (h.past hdeed) hnow

private theorem OnTime.ordered_cons {history : List Deed} {s : Schedule τ} (h : s.OnTime history)
    {deed : Deed} (hnow : s.now ≤ deed.now) :
    ((deed :: history).map Deed.now).Pairwise (· ≥ ·) := by
  rw [List.map_cons, List.pairwise_cons]
  refine ⟨?_, h.ordered⟩
  intro time htime
  obtain ⟨earlier, hearlier, rfl⟩ := List.mem_map.mp htime
  exact Nat.le_trans (h.past hearlier) hnow

theorem OnTime.set {history : List Deed} {s s' : Schedule τ} (h : s.OnTime history)
    {id delay : Nat} (hnow : s'.now = s.now)
    (htasks : ∀ {k due : Nat} {task : τ}, s'.tasks[k]? = some (due, task) →
      k = id ∧ due = s.now + delay ∨ k ≠ id ∧ s.tasks[k]? = some (due, task)) :
    s'.OnTime (.set id s.now delay :: history) := by
  refine ⟨?_, ?_, h.ordered_cons (Nat.le_refl _), ?_⟩
  · intro k due task hlive
    rw [hnow]
    rcases htasks hlive with ⟨rfl, rfl⟩ | ⟨hne, hbefore⟩
    · exact ⟨Nat.le_add_right _ _, s.now, delay, if_pos rfl, rfl⟩
    · obtain ⟨hdue, time, given, hsetting, hsum⟩ := h.due hbefore
      exact ⟨hdue, time, given, (if_neg (Ne.symm hne)).trans hsetting, hsum⟩
  · intro deed hdeed
    rw [hnow]
    rcases List.mem_cons.mp hdeed with rfl | hearlier
    · exact Nat.le_refl _
    · exact h.past hearlier
  · intro later earlier k time hsplit
    cases later with
    | nil => cases hsplit
    | cons deed later => exact h.punctual (List.cons.inj hsplit).2

theorem OnTime.popDue {history : List Deed} {s : Schedule τ} (h : s.OnTime history)
    (deadline : Nat) :
    (s.popDue deadline).2.OnTime (((s.popDue deadline).1.map fun (id, _) =>
      Deed.run id (s.popDue deadline).2.now).toList ++ history) := by
  obtain ⟨hnone, hnow, htasks, -, -⟩ | ⟨id, due, task, hsome, hlive, -, hnow, htasks, -, hleast⟩ :=
    s.popDue_cases deadline
  · rw [hnone]
    refine h.quiet ?_ (Nat.le_of_eq hnow.symm)
    intro id due task hlive
    rw [htasks] at hlive
    rw [hnow]
    exact ⟨hlive, (h.due hlive).1⟩
  · obtain ⟨hle, hpromised⟩ := h.due hlive
    have hdue : (s.popDue deadline).2.now = due := by
      rw [hnow]
      exact Nat.max_eq_right hle
    rw [hsome]
    change (s.popDue deadline).2.OnTime (.run id (s.popDue deadline).2.now :: history)
    rw [hdue]
    refine ⟨?_, ?_, h.ordered_cons hle, ?_⟩
    · intro k due' task' hstays
      rw [htasks, Std.HashMap.getElem?_erase] at hstays
      split at hstays
      · cases hstays
      · rw [hdue]
        obtain ⟨-, time, given, hsetting, hsum⟩ := h.due hstays
        exact ⟨Appointment.due_le_due (hleast hstays), time, given, hsetting, hsum⟩
    · intro deed hdeed
      rw [hdue]
      rcases List.mem_cons.mp hdeed with rfl | hearlier
      · exact Nat.le_refl _
      · exact Nat.le_trans (h.past hearlier) hle
    · intro later earlier k time hsplit
      cases later with
      | nil =>
        cases hsplit
        exact hpromised
      | cons deed later => exact h.punctual (List.cons.inj hsplit).2

theorem Change.onTime {history deeds : List Deed} {s s' : Schedule τ} (h : Change s deeds s')
    (hs : s.OnTime history) : s'.OnTime (deeds ++ history) := by
  have hkeeps {id due : Nat} {task : τ} (hlive : s.tasks[id]? = some (due, task)) :
      s.tasks[id]? = some (due, task) ∧ s.now ≤ due :=
    ⟨hlive, (hs.due hlive).1⟩
  have hput (id delay : Nat) (task : τ) {k due : Nat} {task' : τ}
      (hlive : (s.put id delay task).tasks[k]? = some (due, task')) :
      k = id ∧ due = s.now + delay ∨ k ≠ id ∧ s.tasks[k]? = some (due, task') := by
    have hlive' : (s.tasks.insert id (s.now + delay, task))[k]? = some (due, task') := hlive
    rw [Std.HashMap.getElem?_insert] at hlive'
    split at hlive'
    next hk =>
      cases hlive'
      exact .inl ⟨(beq_iff_eq.mp hk).symm, rfl⟩
    next hk =>
      refine .inr ⟨?_, hlive'⟩
      rintro rfl
      exact hk (beq_self_eq_true k)
  cases h with
  | plan delay task => exact hs.set rfl (hput s.nextId delay task)
  | cancel id =>
    refine hs.quiet ?_ (Nat.le_refl _)
    intro k due task hlive
    have hlive' : (s.tasks.erase id)[k]? = some (due, task) := hlive
    rw [Std.HashMap.getElem?_erase] at hlive'
    split at hlive'
    · cases hlive'
    · exact hkeeps hlive'
  | retime id delay =>
    refine hs.set (s.retime_now id delay) ?_
    intro k due task hlive
    unfold Schedule.retime at hlive
    split at hlive
    next old task' hold => exact hput id delay task' hlive
    next hgone =>
      refine .inr ⟨?_, hlive⟩
      rintro rfl
      cases hgone.symm.trans hlive
  | popDue deadline => exact hs.popDue deadline
  | waitUntil deadline =>
    unfold Schedule.waitUntil
    split
    · exact hs.quiet hkeeps (Nat.le_refl _)
    · refine hs.quiet ?_ (Nat.le_max_left _ _)
      intro id due task hlive
      exact ⟨hlive, Nat.max_le.mpr ⟨(hs.due hlive).1, s.min_nextDue?_le deadline hlive⟩⟩
  | receive =>
    unfold Schedule.receive
    split
    · exact hs
    · exact hs.quiet hkeeps (Nat.le_refl _)
  | send stimulus => exact hs.quiet hkeeps (Nat.le_refl _)
  | drain => exact hs.quiet hkeeps (Nat.le_refl _)
  | clear =>
    refine hs.quiet ?_ (Nat.le_refl _)
    intro id due task hlive
    simp [Schedule.clear] at hlive

theorem Changes.onTime {history deeds : List Deed} {s s' : Schedule τ} (h : Changes s deeds s')
    (hs : s.OnTime history) : s'.OnTime (deeds ++ history) := by
  induction h with
  | none => exact hs
  | more _ hchange ih =>
    rw [List.append_assoc]
    exact hchange.onTime ih

theorem Change.now_le {deeds : List Deed} {s s' : Schedule τ} (h : Change s deeds s') :
    s.now ≤ s'.now := by
  cases h with
  | retime id delay => exact Nat.le_of_eq (s.retime_now id delay).symm
  | popDue deadline =>
    obtain ⟨-, hnow, -⟩ | ⟨id, due, task, -, -, -, hnow, -⟩ := s.popDue_cases deadline
    · exact Nat.le_of_eq hnow.symm
    · rw [hnow]
      exact Nat.le_max_left _ _
  | waitUntil deadline =>
    unfold Schedule.waitUntil
    split
    · exact Nat.le_refl _
    · exact Nat.le_max_left _ _
  | receive =>
    unfold Schedule.receive
    split
    · exact Nat.le_refl _
    · exact Nat.le_refl _
  | _ => exact Nat.le_refl _

theorem Changes.now_le {deeds : List Deed} {s s' : Schedule τ} (h : Changes s deeds s') :
    s.now ≤ s'.now := by
  induction h with
  | none => exact Nat.le_refl _
  | more _ hchange ih => exact Nat.le_trans ih hchange.now_le

/-! ### Numbers -/

def Numbered (s : Schedule τ) : Prop :=
  ∀ {id : Nat} {entry : Nat × τ}, s.tasks[id]? = some entry → id < s.nextId

/-- A number has been given, and nothing is planned under it any more. -/
def Gone (s : Schedule τ) (id : Nat) : Prop :=
  id < s.nextId ∧ s.tasks[id]? = none

theorem numbered_empty : ({} : Schedule τ).Numbered := by
  intro id entry h
  simp at h

theorem Change.nextId_le {deeds : List Deed} {s s' : Schedule τ} (h : Change s deeds s') :
    s.nextId ≤ s'.nextId := by
  cases h with
  | plan delay task => exact Nat.le_succ _
  | retime id delay => exact Nat.le_of_eq (s.retime_nextId id delay).symm
  | popDue deadline => exact Nat.le_of_eq (s.popDue_nextId deadline).symm
  | waitUntil deadline => exact Nat.le_of_eq (s.waitUntil_nextId _).symm
  | receive => exact Nat.le_of_eq s.receive_nextId.symm
  | _ => exact Nat.le_refl _

theorem Change.origin {deeds : List Deed} {s s' : Schedule τ} (h : Change s deeds s') {id : Nat}
    {entry : Nat × τ} (hlive : s'.tasks[id]? = some entry) :
    (∃ entry', s.tasks[id]? = some entry') ∨ id = s.nextId ∧ s.nextId < s'.nextId := by
  cases h with
  | plan delay task =>
    rw [getElem?_plan] at hlive
    split at hlive
    next hid => exact .inr ⟨hid.symm, Nat.lt_succ_self _⟩
    next => exact .inl ⟨entry, hlive⟩
  | cancel k =>
    rw [getElem?_cancel] at hlive
    split at hlive
    · cases hlive
    · exact .inl ⟨entry, hlive⟩
  | retime k delay =>
    rw [getElem?_retime] at hlive
    split at hlive
    · obtain ⟨entry', hlive', -⟩ := Option.map_eq_some_iff.mp hlive
      exact .inl ⟨entry', hlive'⟩
    · exact .inl ⟨entry, hlive⟩
  | popDue deadline =>
    obtain ⟨-, -, htasks, -⟩ | ⟨k, due, task, -, -, -, -, htasks, -⟩ := s.popDue_cases deadline
    · rw [htasks] at hlive
      exact .inl ⟨entry, hlive⟩
    · rw [htasks, Std.HashMap.getElem?_erase] at hlive
      split at hlive
      · cases hlive
      · exact .inl ⟨entry, hlive⟩
  | waitUntil deadline =>
    rw [waitUntil_tasks] at hlive
    exact .inl ⟨entry, hlive⟩
  | receive =>
    rw [receive_tasks] at hlive
    exact .inl ⟨entry, hlive⟩
  | clear => simp [Schedule.clear] at hlive
  | _ => exact .inl ⟨entry, hlive⟩

theorem Changes.numbered {deeds : List Deed} {s s' : Schedule τ} (h : Changes s deeds s')
    (hs : s.Numbered) : s'.Numbered := by
  induction h with
  | none => exact hs
  | more _ hchange ih =>
    intro id entry hlive
    rcases hchange.origin hlive with ⟨entry', hlive'⟩ | ⟨rfl, hlt⟩
    · exact Nat.lt_of_lt_of_le (ih hlive') hchange.nextId_le
    · exact hlt

theorem Changes.gone {deeds : List Deed} {s s' : Schedule τ} (h : Changes s deeds s') {id : Nat}
    (hs : s.Gone id) : s'.Gone id := by
  induction h with
  | none => exact hs
  | more _ hchange ih =>
    obtain ⟨hlt, hnone⟩ := ih
    refine ⟨Nat.lt_of_lt_of_le hlt hchange.nextId_le, ?_⟩
    rw [Option.eq_none_iff_forall_ne_some]
    intro entry hlive
    rcases hchange.origin hlive with ⟨entry', hlive'⟩ | ⟨rfl, -⟩
    · cases hnone.symm.trans hlive'
    · exact Nat.lt_irrefl _ hlt

end Schedule

end ControlLogic
