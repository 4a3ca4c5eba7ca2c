import ControlLogic.Proofs.Schedule.History

/-!
Planned work does not depend on the numbers it goes under, only on their order. Of two schedules
that are alike but for numbers that are raised by a constant, the same is done by every operation,
and they stay alike.
-/

set_option autoImplicit false
set_option relaxedAutoImplicit false

namespace ControlLogic

variable {τ : Type}

def Appointment.raise (d : Nat) (e : Appointment) : Appointment :=
  ⟨e.due, d + e.id⟩

private theorem Appointment.raise_le {d : Nat} {e f : Appointment} (h : e ≤ f) :
    e.raise d ≤ f.raise d := by
  rw [le_def] at h ⊢
  dsimp only [raise]
  omega

namespace Schedule

/-- The work of `s₀` under numbers that are raised by `d`, at the same time and with the same
stimuli waiting. Below the numbers that are raised there is no work. -/
structure Raised (d : Nat) (s₀ s : Schedule τ) : Prop where
  now : s.now = s₀.now
  inbox : s.inbox = s₀.inbox
  nextId : s.nextId = d + s₀.nextId
  tasks (id : Nat) : s.tasks[d + id]? = s₀.tasks[id]?
  below {id : Nat} (h : id < d) : s.tasks[id]? = none

namespace Raised

variable {d : Nat} {s₀ s : Schedule τ} (h : Raised d s₀ s)
include h

theorem task_origin {id : Nat} {entry : Nat × τ} (hlive : s.tasks[id]? = some entry) :
    ∃ id₀, id = d + id₀ ∧ s₀.tasks[id₀]? = some entry := by
  by_cases hid : id < d
  · cases hlive.symm.trans (h.below hid)
  · obtain ⟨id₀, rfl⟩ := Nat.exists_eq_add_of_le (Nat.not_lt.mp hid)
    exact ⟨id₀, rfl, (h.tasks id₀).symm.trans hlive⟩

private theorem update {s₀' s' : Schedule τ} {k : Nat} {entry : Option (Nat × τ)}
    (hnow : s'.now = s₀'.now) (hinbox : s'.inbox = s₀'.inbox)
    (hnext : s'.nextId = d + s₀'.nextId)
    (h₀ : ∀ id, s₀'.tasks[id]? = if k = id then entry else s₀.tasks[id]?)
    (h' : ∀ id, s'.tasks[id]? = if d + k = id then entry else s.tasks[id]?) :
    Raised d s₀' s' where
  now := hnow
  inbox := hinbox
  nextId := hnext
  tasks id := by
    rw [h', h₀, h.tasks]
    simp only [Nat.add_left_cancel_iff]
  below {id} hid := by
    rw [h', if_neg (by omega)]
    exact h.below hid

theorem isPending (id : Nat) : s.isPending (d + id) = s₀.isPending id := by
  unfold Schedule.isPending
  rw [Std.HashMap.contains_eq_isSome_getElem?, Std.HashMap.contains_eq_isSome_getElem?, h.tasks]

theorem plan (delay : Nat) (task : τ) :
    Raised d (s₀.plan delay task).2 (s.plan delay task).2 := by
  refine h.update h.now h.inbox ?_ (s₀.getElem?_plan delay task) fun id => ?_
  · exact congrArg (· + 1) h.nextId
  · rw [s.getElem?_plan, h.nextId, h.now]

theorem cancel (id : Nat) : Raised d (s₀.cancel id).2 (s.cancel (d + id)).2 :=
  h.update h.now h.inbox h.nextId (s₀.getElem?_cancel id) (s.getElem?_cancel (d + id))

theorem retime (id delay : Nat) :
    Raised d (s₀.retime id delay).2 (s.retime (d + id) delay).2 := by
  have h₀ (k : Nat) : (s₀.retime id delay).2.tasks[k]? =
      if id = k then (s₀.tasks[id]?).map fun entry => (s₀.now + delay, entry.2)
      else s₀.tasks[k]? := by
    rw [s₀.getElem?_retime]
    split
    next hk => rw [hk]
    next => rfl
  refine h.update ?_ ?_ ?_ h₀ fun k => ?_
  · rw [retime_now, retime_now, h.now]
  · rw [retime_inbox, retime_inbox, h.inbox]
  · rw [retime_nextId, retime_nextId, h.nextId]
  · rw [s.getElem?_retime]
    split
    next hk => rw [← hk, h.tasks, h.now]
    next => rfl

theorem first? : s.first? = s₀.first?.map (Appointment.raise d) := by
  have hmem {e : Appointment} :
      e ∈ s.roster.entries ↔ ∃ f ∈ s₀.roster.entries, f.raise d = e := by
    constructor
    · intro he
      obtain ⟨task, hlive⟩ := Roster.mem_entries.mp he
      obtain ⟨id₀, hid, hlive₀⟩ := h.task_origin hlive
      refine ⟨⟨e.due, id₀⟩, Roster.mem_entries.mpr ⟨task, hlive₀⟩, ?_⟩
      rw [Appointment.raise, ← hid]
    · rintro ⟨f, hf, rfl⟩
      obtain ⟨task, hlive⟩ := Roster.mem_entries.mp hf
      exact Roster.mem_entries.mpr ⟨task, (h.tasks f.id).trans hlive⟩
  rw [first?_eq_least?, first?_eq_least?]
  cases hfirst : Appointment.least? s₀.roster.entries with
  | none =>
    rw [Appointment.least?_eq_none_iff] at hfirst
    rw [Option.map_none, Appointment.least?_eq_none_iff, List.eq_nil_iff_forall_not_mem]
    intro e he
    obtain ⟨f, hf, -⟩ := hmem.mp he
    rw [hfirst] at hf
    exact absurd hf List.not_mem_nil
  | some e =>
    obtain ⟨he, hleast⟩ := Appointment.least?_eq_some_iff.mp hfirst
    rw [Option.map_some, Appointment.least?_eq_some_iff]
    refine ⟨hmem.mpr ⟨e, he, rfl⟩, fun f hf => ?_⟩
    obtain ⟨f₀, hf₀, rfl⟩ := hmem.mp hf
    exact Appointment.raise_le (hleast f₀ hf₀)

theorem nextDue? : s.nextDue? = s₀.nextDue? := by
  unfold Schedule.nextDue?
  rw [h.first?]
  cases s₀.first? <;> rfl

theorem popDue (deadline : Nat) :
    (s.popDue deadline).1 = (s₀.popDue deadline).1.map (fun next => (d + next.1, next.2)) ∧
      Raised d (s₀.popDue deadline).2 (s.popDue deadline).2 := by
  have hsame : Raised d s₀.discardStale s.discardStale :=
    ⟨h.now, h.inbox, h.nextId, h.tasks, h.below⟩
  cases hfirst : s₀.first? with
  | none =>
    have hnone : s.first? = none := by rw [h.first?, hfirst, Option.map_none]
    rw [popDue_of_none hfirst, popDue_of_none hnone]
    exact ⟨rfl, hsame⟩
  | some e =>
    have hsome : s.first? = some (e.raise d) := by rw [h.first?, hfirst, Option.map_some]
    by_cases hdue : e.due ≤ deadline
    · rw [popDue_of_le hfirst hdue, popDue_of_le hsome hdue]
      constructor
      · dsimp only [Appointment.raise]
        rw [h.tasks, Option.map_map]
        rfl
      · refine h.update ?_ h.inbox h.nextId (s₀.getElem?_cancel e.id)
          (s.getElem?_cancel (d + e.id))
        exact congrArg (max · e.due) h.now
    · rw [popDue_of_lt hfirst (Nat.not_le.mp hdue), popDue_of_lt hsome (Nat.not_le.mp hdue)]
      exact ⟨rfl, hsame⟩

theorem withInbox (inbox : List Stimulus) :
    Raised d { s₀ with inbox := inbox } { s with inbox := inbox } :=
  ⟨h.now, rfl, h.nextId, h.tasks, h.below⟩

theorem send (stimulus : Stimulus) : Raised d (s₀.send stimulus) (s.send stimulus) := by
  unfold Schedule.send
  rw [h.inbox]
  exact h.withInbox _

theorem receive :
    s.receive.1 = s₀.receive.1 ∧ Raised d s₀.receive.2 s.receive.2 := by
  unfold Schedule.receive
  rw [h.inbox]
  split
  · exact ⟨rfl, h⟩
  · exact ⟨rfl, h.withInbox _⟩

theorem waitUntil (moment : Nat) :
    (s.waitUntil moment).1 = (s₀.waitUntil moment).1 ∧
      Raised d (s₀.waitUntil moment).2 (s.waitUntil moment).2 := by
  unfold Schedule.waitUntil
  rw [h.inbox]
  split
  · exact ⟨rfl, h.withInbox _⟩
  · exact ⟨rfl, congrArg (max · moment) h.now, rfl, h.nextId, h.tasks, h.below⟩

end Raised

theorem raised_clear {d : Nat} {s₀ s : Schedule τ} (hnow : s.now = s₀.now)
    (hnext : s.nextId = d + s₀.nextId) : Raised d s₀.clear s.clear where
  now := hnow
  inbox := rfl
  nextId := hnext
  tasks _ := Std.HashMap.getElem?_empty.trans Std.HashMap.getElem?_empty.symm
  below _ := Std.HashMap.getElem?_empty

end Schedule

end ControlLogic
