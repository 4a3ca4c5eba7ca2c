import ControlLogic.Proofs.Schedule.History

/-!
Times on a schedule that code lets pass up to deadlines. The clock is moved up to the last deadline
at most, and deadlines and the times of planned work are a delay from now; so all these times are
bounded by how often a deadline was set and by the longest delay.
-/

set_option autoImplicit false
set_option relaxedAutoImplicit false

namespace ControlLogic

variable {τ : Type}

namespace Deed

def delay : Deed → Nat
  | set _ _ delay => delay
  | run _ _ => 0

/-- The time a deed is about: when work falls due, or when it was done. -/
def due : Deed → Nat
  | set _ now delay => now + delay
  | run _ now => now

private theorem due_eq (deed : Deed) : deed.due = deed.now + deed.delay := by
  cases deed <;> rfl

end Deed

namespace Schedule

variable {s s' : Schedule τ} {deeds : List Deed}

private theorem Change.deed_now_le (h : Change s deeds s') {deed : Deed} (hdeed : deed ∈ deeds) :
    deed.now ≤ s'.now := by
  have hnow := h.now_le
  cases h with
  | plan delay task | retime id delay =>
    rw [List.mem_singleton.mp hdeed]
    exact hnow
  | popDue deadline =>
    rw [Option.mem_toList] at hdeed
    obtain ⟨next, -, rfl⟩ := Option.map_eq_some_iff.mp hdeed
    exact Nat.le_refl _
  | _ => exact absurd hdeed List.not_mem_nil

theorem Change.live (h : Change s deeds s') {id due : Nat} {task : τ}
    (hlive : s'.tasks[id]? = some (due, task)) :
    (∃ task', s.tasks[id]? = some (due, task')) ∨ ∃ deed ∈ deeds, deed.due = due := by
  cases h with
  | plan delay planned =>
    rw [getElem?_plan] at hlive
    split at hlive
    · cases hlive
      exact .inr ⟨_, List.mem_singleton_self _, rfl⟩
    · exact .inl ⟨task, hlive⟩
  | cancel k =>
    rw [getElem?_cancel] at hlive
    split at hlive
    · cases hlive
    · exact .inl ⟨task, hlive⟩
  | retime k delay =>
    rw [getElem?_retime] at hlive
    split at hlive
    · obtain ⟨entry, -, hentry⟩ := Option.map_eq_some_iff.mp hlive
      cases hentry
      exact .inr ⟨_, List.mem_singleton_self _, rfl⟩
    · exact .inl ⟨task, hlive⟩
  | popDue deadline =>
    obtain ⟨-, -, htasks, -⟩ | ⟨k, -, -, -, -, -, -, htasks, -⟩ := s.popDue_cases deadline
    · rw [htasks] at hlive
      exact .inl ⟨task, hlive⟩
    · rw [htasks, Std.HashMap.getElem?_erase] at hlive
      split at hlive
      · cases hlive
      · exact .inl ⟨task, hlive⟩
  | waitUntil deadline =>
    rw [waitUntil_tasks] at hlive
    exact .inl ⟨task, hlive⟩
  | receive =>
    rw [receive_tasks] at hlive
    exact .inl ⟨task, hlive⟩
  | send stimulus => exact .inl ⟨task, hlive⟩
  | drain => exact .inl ⟨task, hlive⟩
  | clear => simp [Schedule.clear] at hlive

theorem isTellable_iff :
    s.isTellable = true ↔ s.now ≤ latestTime ∧
      ∀ (id due : Nat) (task : τ), s.tasks[id]? = some (due, task) → due ≤ latestTime := by
  simp only [isTellable, Bool.and_eq_true, decide_eq_true_eq, List.all_eq_true, Prod.forall,
    Std.HashMap.mem_toList_iff_getElem?_eq_some]

end Schedule

/-- A schedule, and the deadlines up to which code has let time pass, the latest first. -/
structure Timing (τ : Type) where
  schedule : Schedule τ
  deadlines : List Nat

namespace Timing

variable {longest start : Nat} {t t' t'' : Timing τ} {history later deeds : List Deed}

/-- One thing that happens on a schedule: it is changed, and the clock is moved up to the last
deadline at most; or a deadline is set. No delay is longer than the longest. -/
inductive Step (longest : Nat) : Timing τ → List Deed → Timing τ → Prop where
  | change {s s' : Schedule τ} {deeds : List Deed} (deadlines : List Nat) (h : s.Change deeds s')
    (hdelays : ∀ deed ∈ deeds, deed.delay ≤ longest)
    (hnow : s'.now ≤ max s.now (deadlines.headD 0)) :
    Step longest ⟨s, deadlines⟩ deeds ⟨s', deadlines⟩
  | deadline (s : Schedule τ) (deadlines : List Nat) {delay : Nat} (h : delay ≤ longest) :
    Step longest ⟨s, deadlines⟩ [] ⟨s, (s.now + delay) :: deadlines⟩

/-- Things that happen on a schedule one after another, and what is done by them, the latest
first. -/
inductive Course (longest : Nat) : Timing τ → List Deed → Timing τ → Prop where
  | refl (t : Timing τ) : Course longest t [] t
  | step {t t' t'' : Timing τ} {history deeds : List Deed} :
    Course longest t history t' → Step longest t' deeds t'' →
      Course longest t (deeds ++ history) t''

theorem Course.single (h : Step longest t deeds t') : Course longest t deeds t' := by
  have hstep := Course.step (.refl t) h
  rwa [List.append_nil] at hstep

theorem Course.trans (h : Course longest t history t') (h' : Course longest t' later t'') :
    Course longest t (later ++ history) t'' := by
  induction h' with
  | refl => exact h
  | step _ hstep ih =>
    rw [List.append_assoc]
    exact .step ih hstep

/-- The clock and the deadlines are bounded by a longest delay for each deadline. -/
structure Bounded (start longest : Nat) (t : Timing τ) : Prop where
  now : t.schedule.now ≤ start + t.deadlines.length * longest
  deadlines : ∀ deadline ∈ t.deadlines, deadline ≤ start + t.deadlines.length * longest

theorem bounded_start (s : Schedule τ) (longest : Nat) : Bounded s.now longest ⟨s, []⟩ :=
  ⟨Nat.le_add_right _ _, by simp⟩

theorem Bounded.headD_le (h : t.Bounded start longest) :
    t.deadlines.headD 0 ≤ start + t.deadlines.length * longest := by
  have hdeadlines := h.deadlines
  cases hcases : t.deadlines with
  | nil => exact Nat.zero_le _
  | cons first rest =>
    rw [hcases] at hdeadlines
    exact hdeadlines first List.mem_cons_self

theorem Step.length_le (h : Step longest t deeds t') :
    t.deadlines.length ≤ t'.deadlines.length := by
  cases h with
  | change => exact Nat.le_refl _
  | deadline => exact Nat.le_succ _

theorem Step.bounded (h : Step longest t deeds t') (ht : t.Bounded start longest) :
    t'.Bounded start longest ∧
      ∀ deed ∈ deeds, deed.due ≤ start + (t'.deadlines.length + 1) * longest := by
  cases h with
  | @change s s' deeds deadlines h hdelays hnow =>
    have hclock : s'.now ≤ start + deadlines.length * longest :=
      Nat.le_trans hnow (Nat.max_le.mpr ⟨ht.now, ht.headD_le⟩)
    refine ⟨⟨hclock, ht.deadlines⟩, fun deed hdeed => ?_⟩
    have hdelay := hdelays deed hdeed
    have hdone := h.deed_now_le hdeed
    have hmore : (deadlines.length + 1) * longest = deadlines.length * longest + longest :=
      Nat.succ_mul _ _
    rw [deed.due_eq]
    dsimp only
    omega
  | @deadline s deadlines delay hdelay =>
    have hnow : s.now ≤ start + deadlines.length * longest := ht.now
    have hmore : (deadlines.length + 1) * longest = deadlines.length * longest + longest :=
      Nat.succ_mul _ _
    have hbound : ∀ time, time ≤ start + deadlines.length * longest + longest →
        time ≤ start + (deadlines.length + 1) * longest := by
      intro time htime
      omega
    have hclock : s.now ≤ start + deadlines.length * longest + longest := by omega
    refine ⟨⟨hbound _ hclock, fun deadline hmem => hbound _ ?_⟩, by simp⟩
    rcases List.mem_cons.mp hmem with rfl | hmem
    · omega
    · exact Nat.le_trans (ht.deadlines deadline hmem) (Nat.le_add_right _ _)

theorem Course.bounded (h : Course longest t history t') (ht : t.Bounded start longest) :
    t'.Bounded start longest ∧
      ∀ deed ∈ history, deed.due ≤ start + (t'.deadlines.length + 1) * longest := by
  induction h with
  | refl => exact ⟨ht, by simp⟩
  | step _ hstep ih =>
    obtain ⟨hbounded, hhistory⟩ := ih
    obtain ⟨hbounded', hdeeds⟩ := hstep.bounded hbounded
    refine ⟨hbounded', fun deed hdeed => ?_⟩
    rcases List.mem_append.mp hdeed with hdeed | hdeed
    · exact hdeeds deed hdeed
    · have hmore := Nat.mul_le_mul_right longest (Nat.succ_le_succ hstep.length_le)
      exact Nat.le_trans (hhistory deed hdeed) (Nat.add_le_add_left hmore start)

theorem Course.live (h : Course longest t history t') {id due : Nat} {task : τ}
    (hlive : t'.schedule.tasks[id]? = some (due, task)) :
    (∃ task', t.schedule.tasks[id]? = some (due, task')) ∨ ∃ deed ∈ history, deed.due = due := by
  induction h generalizing task with
  | refl => exact .inl ⟨task, hlive⟩
  | @step s s' history deeds _ hstep ih =>
    have hbefore : (∃ task', s.schedule.tasks[id]? = some (due, task')) ∨
        ∃ deed ∈ deeds, deed.due = due := by
      cases hstep with
      | change _ hchange => exact hchange.live hlive
      | deadline => exact .inl ⟨task, hlive⟩
    obtain ⟨task', hbefore⟩ | ⟨deed, hdeed, hdue⟩ := hbefore
    · obtain hstart | ⟨deed, hdeed, hdue⟩ := ih hbefore
      · exact .inl hstart
      · exact .inr ⟨deed, List.mem_append_right _ hdeed, hdue⟩
    · exact .inr ⟨deed, List.mem_append_left _ hdeed, hdue⟩

theorem course_of_changes {s s' : Schedule τ} (h : s.Changes deeds s')
    (hdelays : ∀ deed ∈ deeds, deed.delay ≤ longest) (hnow : s'.now ≤ s.now)
    (deadlines : List Nat) : Course longest ⟨s, deadlines⟩ deeds ⟨s', deadlines⟩ := by
  induction h with
  | none => exact .refl _
  | @more s₁ s₂ history deeds hbefore hchange ih =>
    have hafter := hchange.now_le
    have hpast := ih (fun deed hdeed => hdelays deed (List.mem_append_right _ hdeed)) (by omega)
    refine hpast.step (.change deadlines hchange ?_ ?_)
    · exact fun deed hdeed => hdelays deed (List.mem_append_left _ hdeed)
    · have hsame := hbefore.now_le
      omega

end Timing

end ControlLogic
