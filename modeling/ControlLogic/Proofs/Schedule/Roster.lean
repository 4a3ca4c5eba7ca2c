import ControlLogic.Schedule

/-!
A schedule seen as what it is for: a table of the work planned, by number, with the time it is due.
The first work is found by looking through the whole table. Whatever is done with a schedule, it
gives the answers of its table, although its agenda keeps entries of work that was dropped or moved.
-/

set_option autoImplicit false
set_option relaxedAutoImplicit false

namespace ControlLogic

variable {τ : Type}

def Appointment.least? : List Appointment → Option Appointment
  | [] => none
  | e :: rest =>
    match least? rest with
    | none => some e
    | some f => some (if e ≤ f then e else f)

theorem Appointment.le_refl (e : Appointment) : e ≤ e :=
  Or.inr ⟨rfl, Nat.le_refl _⟩

theorem Appointment.least?_eq_none_iff {es : List Appointment} : least? es = none ↔ es = [] := by
  cases es with
  | nil => simp [least?]
  | cons e es =>
    simp only [least?]
    split <;> simp

theorem Appointment.least?_eq_some_iff {es : List Appointment} {e : Appointment} :
    least? es = some e ↔ e ∈ es ∧ ∀ f ∈ es, e ≤ f := by
  induction es generalizing e with
  | nil => simp [least?]
  | cons a es ih =>
    simp only [least?]
    split
    next h =>
      obtain rfl := least?_eq_none_iff.mp h
      simp only [Option.some.injEq, List.mem_singleton, forall_eq]
      exact ⟨fun h => ⟨h.symm, h ▸ le_refl a⟩, fun h => h.1.symm⟩
    next f h =>
      obtain ⟨hf, hmin⟩ := ih.mp h
      rw [Option.some.injEq]
      constructor
      · rintro rfl
        split
        next hle =>
          refine ⟨List.mem_cons_self, fun g hg => ?_⟩
          rcases List.mem_cons.mp hg with rfl | hg
          · exact le_refl _
          · exact le_trans hle (hmin g hg)
        next hnle =>
          refine ⟨List.mem_cons_of_mem _ hf, fun g hg => ?_⟩
          rcases List.mem_cons.mp hg with rfl | hg
          · exact le_of_not_le hnle
          · exact hmin g hg
      · rintro ⟨he, hle⟩
        have hea : e ≤ a := hle a List.mem_cons_self
        have hef : e ≤ f := hle f (List.mem_cons_of_mem _ hf)
        rcases List.mem_cons.mp he with rfl | he
        · rw [if_pos hef]
        · obtain rfl : e = f := le_antisymm hef (hmin e he)
          split
          next hae => exact le_antisymm hae hea
          next => rfl

/-- Planned work by number, with the time it is due, on a clock that stands still until it is
moved. -/
structure Roster (τ : Type) where
  now : Nat := 0
  timers : Std.HashMap Nat (Nat × τ) := {}
  nextId : Nat := 1
  inbox : List Stimulus := []

namespace Roster

def entries (r : Roster τ) : List Appointment :=
  r.timers.toList.map fun (id, due, _) => ⟨due, id⟩

def plan (r : Roster τ) (delay : Nat) (task : τ) : Nat × Roster τ :=
  (r.nextId,
    { r with
      timers := r.timers.insert r.nextId (r.now + delay, task)
      nextId := r.nextId + 1 })

def cancel (r : Roster τ) (id : Nat) : Bool × Roster τ :=
  (r.timers.contains id, { r with timers := r.timers.erase id })

/-- Moves planned work to a time from now; whether there was any of this number. -/
def retime (r : Roster τ) (id delay : Nat) : Bool × Roster τ :=
  match r.timers[id]? with
  | some (_, task) => (true, { r with timers := r.timers.insert id (r.now + delay, task) })
  | none => (false, r)

def nextDue? (r : Roster τ) : Option Nat :=
  (r.entries.map Appointment.due).min?

/-- Takes the work whose time, and among those of one time whose number, is the least, if it is due
by a deadline; the clock is then at its time or later. -/
def popDue (r : Roster τ) (deadline : Nat) : Option (Nat × τ) × Roster τ :=
  match Appointment.least? r.entries with
  | some e =>
    if e.due ≤ deadline then
      ((r.timers[e.id]?).map fun (_, task) => (e.id, task),
        { r with now := max r.now e.due, timers := r.timers.erase e.id })
    else (none, r)
  | none => (none, r)

/-- Takes a stimulus if one waits, and else moves the clock to a moment unless it is past it. -/
def waitUntil (r : Roster τ) (moment : Nat) : Option Stimulus × Roster τ :=
  match r.inbox with
  | stimulus :: rest => (some stimulus, { r with inbox := rest })
  | [] => (none, { r with now := max r.now moment })

theorem mem_entries {r : Roster τ} {e : Appointment} :
    e ∈ r.entries ↔ ∃ task, r.timers[e.id]? = some (e.due, task) := by
  simp only [entries, List.mem_map, Prod.exists]
  constructor
  · rintro ⟨id, due, task, hmem, rfl⟩
    exact ⟨task, Std.HashMap.mem_toList_iff_getElem?_eq_some.mp hmem⟩
  · rintro ⟨task, h⟩
    exact ⟨e.id, e.due, task, Std.HashMap.mem_toList_iff_getElem?_eq_some.mpr h, rfl⟩

end Roster

/-- What can be done with planned work. -/
inductive Operation (τ : Type) where
  | plan (delay : Nat) (task : τ)
  | cancel (id : Nat)
  | retime (id delay : Nat)
  | isPending (id : Nat)
  | pending
  | nextDue
  | popDue (deadline : Nat)
  | waitUntil (moment : Nat)
  | send (stimulus : Stimulus)
  | clear
  | now

/-- What an operation answers. -/
inductive Answer (τ : Type) where
  | nothing
  | planned (id : Nat)
  | truth (value : Bool)
  | amount (n : Nat)
  | time (due : Option Nat)
  | work (taken : Option (Nat × τ))
  | stimulus (taken : Option Stimulus)

def Answer.numbers (answers : List (Answer τ)) : List Nat :=
  answers.filterMap fun
    | planned id => some id
    | _ => none

namespace Schedule

def perform (s : Schedule τ) : Operation τ → Answer τ × Schedule τ
  | .plan delay task => (.planned (s.plan delay task).1, (s.plan delay task).2)
  | .cancel id => (.truth (s.cancel id).1, (s.cancel id).2)
  | .retime id delay => (.truth (s.retime id delay).1, (s.retime id delay).2)
  | .isPending id => (.truth (s.isPending id), s)
  | .pending => (.amount s.pending, s)
  | .nextDue => (.time s.nextDue?, s.discardStale)
  | .popDue deadline => (.work (s.popDue deadline).1, (s.popDue deadline).2)
  | .waitUntil moment => (.stimulus (s.waitUntil moment).1, (s.waitUntil moment).2)
  | .send stimulus => (.nothing, s.send stimulus)
  | .clear => (.nothing, s.clear)
  | .now => (.amount s.now, s)

def answers (s : Schedule τ) : List (Operation τ) → List (Answer τ)
  | [] => []
  | op :: ops => (s.perform op).1 :: answers (s.perform op).2 ops

end Schedule

namespace Roster

def perform (r : Roster τ) : Operation τ → Answer τ × Roster τ
  | .plan delay task => (.planned (r.plan delay task).1, (r.plan delay task).2)
  | .cancel id => (.truth (r.cancel id).1, (r.cancel id).2)
  | .retime id delay => (.truth (r.retime id delay).1, (r.retime id delay).2)
  | .isPending id => (.truth (r.timers.contains id), r)
  | .pending => (.amount r.timers.size, r)
  | .nextDue => (.time r.nextDue?, r)
  | .popDue deadline => (.work (r.popDue deadline).1, (r.popDue deadline).2)
  | .waitUntil moment => (.stimulus (r.waitUntil moment).1, (r.waitUntil moment).2)
  | .send stimulus => (.nothing, { r with inbox := r.inbox ++ [stimulus] })
  | .clear => (.nothing, { r with timers := {}, inbox := [] })
  | .now => (.amount r.now, r)

def answers (r : Roster τ) : List (Operation τ) → List (Answer τ)
  | [] => []
  | op :: ops => (r.perform op).1 :: answers (r.perform op).2 ops

end Roster

namespace Schedule

def roster (s : Schedule τ) : Roster τ where
  now := s.now
  timers := s.tasks
  nextId := s.nextId
  inbox := s.inbox

theorem first?_eq_least? (s : Schedule τ) : s.first? = Appointment.least? s.roster.entries := by
  cases h : s.first? with
  | none =>
    symm
    rw [Appointment.least?_eq_none_iff, List.eq_nil_iff_forall_not_mem]
    intro e he
    obtain ⟨task, htask⟩ := Roster.mem_entries.mp he
    exact Agenda.not_mem_of_first?_eq_none h e (s.discardStale.listed htask)
  | some e =>
    symm
    rw [Appointment.least?_eq_some_iff]
    constructor
    · exact Roster.mem_entries.mpr (isStale_eq_false.mp (Agenda.first?_dropWhile h))
    · intro f hf
      obtain ⟨task, htask⟩ := Roster.mem_entries.mp hf
      exact Agenda.first?_le h (s.discardStale.listed htask)

private theorem nextDue?_eq (s : Schedule τ) : s.nextDue? = s.roster.nextDue? := by
  unfold nextDue? Roster.nextDue?
  rw [first?_eq_least?]
  cases h : Appointment.least? s.roster.entries with
  | none =>
    rw [Appointment.least?_eq_none_iff.mp h]
    rfl
  | some e =>
    obtain ⟨he, hmin⟩ := Appointment.least?_eq_some_iff.mp h
    symm
    rw [Option.map_some, List.min?_eq_some_iff]
    refine ⟨List.mem_map_of_mem he, fun due hdue => ?_⟩
    obtain ⟨f, hf, rfl⟩ := List.mem_map.mp hdue
    exact Appointment.due_le_due (hmin f hf)

private theorem popDue_eq (s : Schedule τ) (deadline : Nat) :
    (s.popDue deadline).1 = (s.roster.popDue deadline).1 ∧
      (s.popDue deadline).2.roster = (s.roster.popDue deadline).2 := by
  unfold Roster.popDue
  rw [← first?_eq_least?]
  cases h : s.first? with
  | none =>
    rw [popDue_of_none h]
    exact ⟨rfl, rfl⟩
  | some e =>
    by_cases hdue : e.due ≤ deadline
    · rw [popDue_of_le h hdue]
      dsimp only
      rw [if_pos hdue]
      exact ⟨rfl, rfl⟩
    · rw [popDue_of_lt h (Nat.not_le.mp hdue)]
      dsimp only
      rw [if_neg hdue]
      exact ⟨rfl, rfl⟩

private theorem retime_eq (s : Schedule τ) (id delay : Nat) :
    (s.retime id delay).1 = (s.roster.retime id delay).1 ∧
      (s.retime id delay).2.roster = (s.roster.retime id delay).2 := by
  have htimers : s.roster.timers = s.tasks := rfl
  unfold retime Roster.retime
  rw [htimers]
  cases s.tasks[id]? with
  | none => exact ⟨rfl, rfl⟩
  | some old => exact ⟨rfl, rfl⟩

private theorem waitUntil_eq (s : Schedule τ) (moment : Nat) :
    (s.waitUntil moment).1 = (s.roster.waitUntil moment).1 ∧
      (s.waitUntil moment).2.roster = (s.roster.waitUntil moment).2 := by
  obtain ⟨now, agenda, tasks, nextId, inbox, listed⟩ := s
  cases inbox with
  | nil => exact ⟨rfl, rfl⟩
  | cons stimulus rest => exact ⟨rfl, rfl⟩

private theorem perform_eq (s : Schedule τ) (op : Operation τ) :
    (s.perform op).1 = (s.roster.perform op).1 ∧
      (s.perform op).2.roster = (s.roster.perform op).2 := by
  cases op with
  | plan delay task => exact ⟨rfl, rfl⟩
  | cancel id => exact ⟨rfl, rfl⟩
  | retime id delay =>
    obtain ⟨hanswer, hroster⟩ := s.retime_eq id delay
    exact ⟨congrArg Answer.truth hanswer, hroster⟩
  | isPending id => exact ⟨rfl, rfl⟩
  | pending => exact ⟨rfl, rfl⟩
  | nextDue => exact ⟨congrArg Answer.time s.nextDue?_eq, rfl⟩
  | popDue deadline =>
    obtain ⟨hanswer, hroster⟩ := s.popDue_eq deadline
    exact ⟨congrArg Answer.work hanswer, hroster⟩
  | waitUntil moment =>
    obtain ⟨hanswer, hroster⟩ := s.waitUntil_eq moment
    exact ⟨congrArg Answer.stimulus hanswer, hroster⟩
  | send stimulus => exact ⟨rfl, rfl⟩
  | clear => exact ⟨rfl, rfl⟩
  | now => exact ⟨rfl, rfl⟩

private theorem answers_eq (s : Schedule τ) (ops : List (Operation τ)) :
    s.answers ops = s.roster.answers ops := by
  induction ops generalizing s with
  | nil => rfl
  | cons op ops ih =>
    obtain ⟨hanswer, hroster⟩ := s.perform_eq op
    rw [answers, Roster.answers, hanswer, ih, hroster]

end Schedule

namespace Roster

private theorem perform_nextId (r : Roster τ) (op : Operation τ) :
    ((r.perform op).1 = .planned r.nextId ∧ (r.perform op).2.nextId = r.nextId + 1) ∨
      ((∀ id, (r.perform op).1 ≠ .planned id) ∧ (r.perform op).2.nextId = r.nextId) := by
  cases op with
  | plan delay task => exact Or.inl ⟨rfl, rfl⟩
  | retime id delay =>
    refine Or.inr ⟨by simp [perform], ?_⟩
    simp only [perform, retime]
    split <;> rfl
  | popDue deadline =>
    refine Or.inr ⟨by simp [perform], ?_⟩
    simp only [perform, popDue]
    split
    · split <;> rfl
    · rfl
  | waitUntil moment =>
    refine Or.inr ⟨by simp [perform], ?_⟩
    simp only [perform, waitUntil]
    split <;> rfl
  | _ => exact Or.inr ⟨by simp [perform], rfl⟩

private theorem numbers_answers (r : Roster τ) (ops : List (Operation τ)) :
    (∀ id ∈ Answer.numbers (r.answers ops), r.nextId ≤ id) ∧
      (Answer.numbers (r.answers ops)).Pairwise (· < ·) := by
  induction ops generalizing r with
  | nil => simp [answers, Answer.numbers]
  | cons op ops ih =>
    obtain ⟨hle, hlt⟩ := ih (r.perform op).2
    rcases r.perform_nextId op with ⟨hanswer, hnext⟩ | ⟨hanswer, hnext⟩
    · have hcons : Answer.numbers (r.answers (op :: ops)) =
          r.nextId :: Answer.numbers ((r.perform op).2.answers ops) := by
        simp [answers, Answer.numbers, hanswer]
      rw [hcons]
      rw [hnext] at hle
      constructor
      · intro id hid
        rcases List.mem_cons.mp hid with rfl | hid
        · exact Nat.le_refl _
        · exact Nat.le_of_succ_le (hle id hid)
      · exact List.pairwise_cons.mpr ⟨fun id hid => hle id hid, hlt⟩
    · have hcons : Answer.numbers (r.answers (op :: ops)) =
          Answer.numbers ((r.perform op).2.answers ops) := by
        cases h : (r.perform op).1 <;> simp_all [answers, Answer.numbers]
      rw [hcons]
      rw [hnext] at hle
      exact ⟨hle, hlt⟩

end Roster

/-- Over every sequence of operations a schedule gives the answers of the plain table, and no number
is given to new work twice. -/
theorem schedule_answers_eq_roster_answers (ops : List (Operation τ)) :
    ({} : Schedule τ).answers ops = ({} : Roster τ).answers ops ∧
      (Answer.numbers (({} : Schedule τ).answers ops)).Pairwise (· < ·) := by
  have h : ({} : Schedule τ).answers ops = ({} : Roster τ).answers ops :=
    ({} : Schedule τ).answers_eq ops
  exact ⟨h, h ▸ (({} : Roster τ).numbers_answers ops).2⟩

end ControlLogic
