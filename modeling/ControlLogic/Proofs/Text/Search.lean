import Mathlib.Order.Bounds.Basic
import ControlLogic.Text.Search

/-!
Where a text stands inside another. A search gives the first such place from a start on, or the last
one up to a limit.
-/

set_option autoImplicit false
set_option relaxedAutoImplicit false

namespace ControlLogic.Text

variable {needle hay : List Char} {i j p : Nat}

def StandsAt (needle hay : List Char) (i : Nat) : Prop :=
  ∃ front back, hay = front ++ needle ++ back ∧ front.length = i

theorem StandsAt.eq_append (h : StandsAt needle hay i) :
    hay = hay.take i ++ needle ++ hay.drop (i + needle.length) := by
  obtain ⟨front, back, rfl, rfl⟩ := h
  simp

theorem StandsAt.take_eq (h : StandsAt needle hay i) :
    hay.take (i + needle.length) = hay.take i ++ needle := by
  obtain ⟨front, back, rfl, rfl⟩ := h
  rw [← List.length_append, List.take_left, List.append_assoc, List.take_left]

private theorem standsAt_zero : StandsAt needle hay 0 ↔ needle.isPrefixOf hay = true := by
  rw [List.isPrefixOf_iff_prefix]
  constructor
  · rintro ⟨front, back, rfl, hfront⟩
    obtain rfl := List.length_eq_zero_iff.mp hfront
    exact ⟨back, rfl⟩
  · rintro ⟨back, rfl⟩
    exact ⟨[], back, rfl, rfl⟩

private theorem standsAt_cons {c : Char} :
    StandsAt needle (c :: hay) (i + 1) ↔ StandsAt needle hay i := by
  constructor
  · rintro ⟨_ | ⟨d, front⟩, back, hhay, hfront⟩
    · cases hfront
    · obtain ⟨-, rfl⟩ := List.cons.inj hhay
      exact ⟨front, back, rfl, Nat.succ.inj hfront⟩
  · rintro ⟨front, back, rfl, rfl⟩
    exact ⟨c :: front, back, rfl, rfl⟩

private theorem not_standsAt_nil (h : needle ≠ []) : ¬ StandsAt needle [] i := by
  rintro ⟨front, back, hnil, -⟩
  simp [h] at hnil

theorem StandsAt.le_length (h : StandsAt needle hay i) : i + needle.length ≤ hay.length := by
  obtain ⟨front, back, rfl, rfl⟩ := h
  simp only [List.length_append]
  omega

private theorem standsAt_drop (h : needle ≠ []) (start : Nat) :
    StandsAt needle (hay.drop start) i ↔ StandsAt needle hay (start + i) := by
  induction start generalizing hay with
  | zero => simp
  | succ start ih =>
    cases hay with
    | nil => simp [not_standsAt_nil h]
    | cons c hay => rw [List.drop_succ_cons, ih, Nat.add_right_comm, standsAt_cons]

/-! ### The first place -/

private theorem findAt_eq_some : findAt needle hay i = some p →
    ∃ j, p = i + j ∧ IsLeast {j | StandsAt needle hay j} j := by
  intro h
  induction hay generalizing i with
  | nil =>
    rw [findAt] at h
    split at h
    next hempty =>
      rw [List.isEmpty_iff] at hempty
      subst hempty
      exact ⟨0, (Option.some.inj h).symm, standsAt_zero.mpr rfl, fun _ _ => Nat.zero_le _⟩
    next => cases h
  | cons c rest ih =>
    rw [findAt] at h
    split at h
    next hfront =>
      exact ⟨0, (Option.some.inj h).symm, standsAt_zero.mpr hfront, fun _ _ => Nat.zero_le _⟩
    next hfront =>
      obtain ⟨j, rfl, hstands, hleast⟩ := ih h
      refine ⟨j + 1, by omega, standsAt_cons.mpr hstands, ?_⟩
      rintro (_ | k) hk
      · exact absurd (standsAt_zero.mp hk) hfront
      · exact Nat.succ_le_succ (hleast (standsAt_cons.mp hk))

private theorem findAt_eq_none (h : findAt needle hay i = none) : ¬ StandsAt needle hay j := by
  induction hay generalizing i j with
  | nil =>
    rw [findAt] at h
    split at h
    next => cases h
    next hempty => exact not_standsAt_nil fun hnil => hempty (List.isEmpty_iff.mpr hnil)
  | cons c rest ih =>
    rw [findAt] at h
    split at h
    next => cases h
    next hfront =>
      cases j with
      | zero => exact fun hzero => hfront (standsAt_zero.mp hzero)
      | succ j => exact fun hsucc => ih h (standsAt_cons.mp hsucc)

def placesFrom (needle hay : List Char) (start : Nat) : Set Nat :=
  {p | start ≤ p ∧ StandsAt needle hay p}

theorem findFrom_eq_some {start : Nat} (h : findFrom needle hay start = some p) :
    needle ≠ [] ∧ IsLeast (placesFrom needle hay start) p := by
  rw [findFrom] at h
  split at h
  next => cases h
  next hempty =>
    have hneedle : needle ≠ [] := fun hnil => hempty (List.isEmpty_iff.mpr hnil)
    obtain ⟨j, rfl, hstands, hleast⟩ := findAt_eq_some h
    refine ⟨hneedle, ⟨Nat.le_add_right _ _, (standsAt_drop hneedle start).mp hstands⟩, ?_⟩
    rintro q ⟨hq, hstandsq⟩
    obtain ⟨k, rfl⟩ := Nat.exists_eq_add_of_le hq
    exact Nat.add_le_add_left (hleast ((standsAt_drop hneedle start).mpr hstandsq)) start

theorem findFrom_eq_none {start : Nat} (hneedle : needle ≠ [])
    (h : findFrom needle hay start = none) : placesFrom needle hay start = ∅ := by
  rw [findFrom, if_neg (by simpa using hneedle)] at h
  refine Set.eq_empty_of_forall_notMem ?_
  rintro q ⟨hq, hstands⟩
  obtain ⟨k, rfl⟩ := Nat.exists_eq_add_of_le hq
  exact findAt_eq_none h ((standsAt_drop hneedle start).mpr hstands)

/-! ### The last place -/

def placesUpTo (needle hay : List Char) (limit : Nat) : Set Nat :=
  {p | p ≤ limit ∧ StandsAt needle hay p}

private theorem findLastAt_eq_none {limit : Nat} (hneedle : needle ≠ [])
    (h : findLastAt needle limit hay i = none) (hj : i + j ≤ limit) : ¬ StandsAt needle hay j := by
  induction hay generalizing i j with
  | nil => exact not_standsAt_nil hneedle
  | cons c rest ih =>
    rw [findLastAt, if_neg (by omega)] at h
    split at h
    next => cases h
    next hlater =>
      split at h
      next => cases h
      next hfront =>
        cases j with
        | zero => exact fun hzero => hfront (standsAt_zero.mp hzero)
        | succ j => exact fun hsucc => ih hlater (by omega) (standsAt_cons.mp hsucc)

/-- A search in a text whose first character has position `i` gives the last place in it that is not
beyond the limit. -/
private theorem findLastAt_eq_some {limit : Nat} (hneedle : needle ≠ [])
    (h : findLastAt needle limit hay i = some p) :
    ∃ j, p = i + j ∧ IsGreatest {j | i + j ≤ limit ∧ StandsAt needle hay j} j := by
  induction hay generalizing i with
  | nil => cases h
  | cons c rest ih =>
    rw [findLastAt] at h
    split at h
    next => cases h
    next hlimit =>
      split at h
      next q hlater =>
        cases h
        obtain ⟨j, hp, ⟨hj, hstands⟩, hgreatest⟩ := ih hlater
        refine ⟨j + 1, by omega, ⟨by omega, standsAt_cons.mpr hstands⟩, ?_⟩
        rintro (_ | k) ⟨hk, hstandsk⟩
        · exact Nat.zero_le _
        · exact Nat.succ_le_succ (hgreatest ⟨by omega, standsAt_cons.mp hstandsk⟩)
      next hlater =>
        split at h
        next hfront =>
          cases h
          refine ⟨0, rfl, ⟨by omega, standsAt_zero.mpr hfront⟩, ?_⟩
          rintro (_ | k) ⟨hk, hstandsk⟩
          · exact Nat.le_refl 0
          · exact absurd (standsAt_cons.mp hstandsk) (findLastAt_eq_none hneedle hlater (by omega))
        next => cases h

theorem findLast_eq_some {limit : Nat} (h : findLast needle hay limit = some p) :
    needle ≠ [] ∧ IsGreatest (placesUpTo needle hay limit) p := by
  rw [findLast] at h
  split at h
  next => cases h
  next hempty =>
    have hneedle : needle ≠ [] := fun hnil => hempty (List.isEmpty_iff.mpr hnil)
    obtain ⟨j, rfl, hgreatest⟩ := findLastAt_eq_some hneedle h
    simp only [Nat.zero_add] at hgreatest ⊢
    exact ⟨hneedle, hgreatest⟩

theorem findLast_eq_none {limit : Nat} (hneedle : needle ≠ [])
    (h : findLast needle hay limit = none) : placesUpTo needle hay limit = ∅ := by
  rw [findLast, if_neg (by simpa using hneedle)] at h
  refine Set.eq_empty_of_forall_notMem ?_
  rintro q ⟨hq, hstands⟩
  exact findLastAt_eq_none hneedle h (by omega) hstands

end ControlLogic.Text
