import ControlLogic.IdTable
import Mathlib.Data.List.Nodup

/-!
Numbers that are used again. A table keeps the numbers it can give once more in a list; whatever is
added, replaced and given up, each number that has no thing is in that list once, and no number that
has one. What is added gets a number that has no thing, and the numbers of the other things stay.
-/

set_option autoImplicit false
set_option relaxedAutoImplicit false

namespace ControlLogic.IdTable

variable {α : Type}

/-! ### Things by their numbers -/

@[simp] private theorem get?_natCast (t : IdTable α) (n : Nat) :
    t.get? (n : Int) = (t.cells[n]?).join :=
  rfl

private theorem get?_of_neg (t : IdTable α) {id : Int} (h : id < 0) : t.get? id = none :=
  if_pos h

theorem insert_of_nil {t : IdTable α} (h : t.free = []) (a : α) :
    t.insert a = { t with cells := t.cells.push (some a) } := by
  unfold insert
  simp only [h]

theorem insert_of_cons {t : IdTable α} {id : Nat} {rest : List Nat} (h : t.free = id :: rest)
    (a : α) : t.insert a = { cells := t.cells.setIfInBounds id (some a), free := rest } := by
  unfold insert
  simp only [h]

theorem get?_set (t : IdTable α) {id : Int} (h : (t.get? id).isSome = true) (a : α) (k : Int) :
    (t.set id a).get? k = if id = k then some a else t.get? k := by
  obtain ⟨old, hold⟩ := Option.isSome_iff_exists.mp h
  unfold set
  rw [if_pos h]
  unfold get? at hold ⊢
  split at hold
  · cases hold
  next hid =>
    have hlt : id.toNat < t.cells.size := by
      refine Nat.lt_of_not_le fun hout => ?_
      rw [Array.getElem?_eq_none hout] at hold
      cases hold
    by_cases hk : k < 0
    · rw [if_pos hk, if_pos hk, if_neg (by omega)]
    · rw [if_neg hk, if_neg hk]
      by_cases hself : id = k
      · subst hself
        simp [hlt]
      · have hne : id.toNat ≠ k.toNat := by omega
        rw [if_neg hself]
        simp [hne]

theorem get?_insert {t : IdTable α} {a b : α} {k : Int} (h : (t.insert a).get? k = some b) :
    k = Int.ofNat t.nextId ∧ b = a ∨ t.get? k = some b := by
  unfold get? at h ⊢
  split at h
  · cases h
  next hk =>
    rw [if_neg hk]
    unfold insert at h
    unfold nextId
    split at h
    next id rest hfree =>
      rw [hfree]
      by_cases hself : id = k.toNat
      · subst hself
        simp only [Array.getElem?_setIfInBounds, if_true] at h
        split at h
        · cases h
          exact .inl ⟨by simp; omega, rfl⟩
        · cases h
      · simp only [Array.getElem?_setIfInBounds, hself, if_false] at h
        exact .inr h
    next hfree =>
      rw [hfree]
      rw [Array.getElem?_push] at h
      split at h
      next hself =>
        cases h
        exact .inl ⟨by simp; omega, rfl⟩
      next => exact .inr h

private theorem exists_of_isSome {t : IdTable α} {id : Int} (h : (t.get? id).isSome = true) :
    ∃ (n : Nat) (a : α), id = n ∧ t.cells[n]? = some (some a) := by
  obtain ⟨a, ha⟩ := Option.isSome_iff_exists.mp h
  have hid : 0 ≤ id := Int.not_lt.mp fun hneg => by simp [t.get?_of_neg hneg] at ha
  obtain ⟨n, rfl⟩ := Int.eq_ofNat_of_zero_le hid
  exact ⟨n, a, rfl, Option.join_eq_some_iff.mp ha⟩

theorem get?_erase (t : IdTable α) (id k : Int) :
    (t.erase id).get? k = if id = k then none else t.get? k := by
  unfold erase
  by_cases h : (t.get? id).isSome = true
  · rw [if_pos h]
    obtain ⟨n, a, rfl, ha⟩ := exists_of_isSome h
    have hn : n < t.cells.size := (Array.getElem?_eq_some_iff.mp ha).1
    rcases Int.lt_or_le k 0 with hk | hk
    · simp [get?_of_neg _ hk]
    · obtain ⟨k, rfl⟩ := Int.eq_ofNat_of_zero_le hk
      by_cases hself : n = k
      · subst hself
        simp [hn]
      · simp [hself, show (n : Int) ≠ k by omega]
  · rw [if_neg h]
    split
    next hself =>
      subst hself
      simpa using h
    next => rfl

@[simp] theorem size_set (t : IdTable α) (id : Int) (a : α) :
    (t.set id a).cells.size = t.cells.size := by
  unfold set
  split <;> simp

@[simp] theorem size_erase (t : IdTable α) (id : Int) : (t.erase id).cells.size = t.cells.size := by
  unfold erase
  split <;> simp

/-! ### The numbers that can be given again -/

/-- The list of the numbers that can be given again has each number once whose place is empty, and
nothing else. -/
structure Sound (t : IdTable α) : Prop where
  nodup : t.free.Nodup
  mem_free (n : Nat) : n ∈ t.free ↔ t.cells[n]? = some none

namespace Sound

variable {t : IdTable α}

theorem empty : ({} : IdTable α).Sound :=
  ⟨List.nodup_nil, fun n => by simp⟩

theorem of_cons (h : t.Sound) {id : Nat} {rest : List Nat} (hfree : t.free = id :: rest) :
    t.cells[id]? = some none ∧ id < t.cells.size := by
  have hempty : t.cells[id]? = some none := (h.mem_free id).mp (by simp [hfree])
  exact ⟨hempty, (Array.getElem?_eq_some_iff.mp hempty).1⟩

theorem get?_nextId (h : t.Sound) : t.get? (t.nextId : Int) = none := by
  unfold nextId
  cases hfree : t.free with
  | nil => simp
  | cons id rest => simp [(h.of_cons hfree).1]

theorem insert (h : t.Sound) (a : α) : (t.insert a).Sound := by
  cases hfree : t.free with
  | nil =>
    rw [insert_of_nil hfree]
    refine ⟨h.nodup, fun n => (h.mem_free n).trans ?_⟩
    -- No place was empty, and none is.
    rw [Array.getElem?_push]
    split
    next hself => simp [hself]
    next => rfl
  | cons id rest =>
    rw [insert_of_cons hfree]
    obtain ⟨hid, hrest⟩ := List.nodup_cons.mp (hfree ▸ h.nodup)
    refine ⟨hrest, fun n => ?_⟩
    rw [Array.getElem?_setIfInBounds]
    by_cases hself : id = n
    · subst hself
      simp [hid, (h.of_cons hfree).2]
    · have hmem : n ∈ t.free ↔ n ∈ rest := by
        rw [hfree, List.mem_cons, or_iff_right (Ne.symm hself)]
      rw [if_neg hself, ← h.mem_free n, hmem]

theorem set (h : t.Sound) (id : Int) (a : α) : (t.set id a).Sound := by
  unfold IdTable.set
  split
  next hsome =>
    obtain ⟨n, b, rfl, hb⟩ := exists_of_isSome hsome
    refine ⟨h.nodup, fun k => (h.mem_free k).trans ?_⟩
    rw [Int.toNat_natCast, Array.getElem?_setIfInBounds]
    split
    next hself =>
      subst hself
      simp [hb]
    next => rfl
  next => exact h

theorem erase (h : t.Sound) (id : Int) : (t.erase id).Sound := by
  unfold IdTable.erase
  split
  next hsome =>
    obtain ⟨n, b, rfl, hb⟩ := exists_of_isSome hsome
    have hlt : n < t.cells.size := (Array.getElem?_eq_some_iff.mp hb).1
    have hn : n ∉ t.free := fun hmem => by simp [(h.mem_free n).mp hmem] at hb
    rw [Int.toNat_natCast]
    refine ⟨List.nodup_cons.mpr ⟨hn, h.nodup⟩, fun k => ?_⟩
    rw [List.mem_cons, h.mem_free k, Array.getElem?_setIfInBounds]
    by_cases hself : n = k
    · subst hself
      simp [hlt]
    · simp [hself, Ne.symm hself]
  next => exact h

theorem get?_insert (h : t.Sound) (a : α) (k : Int) :
    (t.insert a).get? k = if (t.nextId : Int) = k then some a else t.get? k := by
  rcases Int.lt_or_le k 0 with hk | hk
  · have hne : (t.nextId : Int) ≠ k := by omega
    rw [get?_of_neg _ hk, get?_of_neg _ hk, if_neg hne]
  obtain ⟨k, rfl⟩ := Int.eq_ofNat_of_zero_le hk
  unfold nextId
  cases hfree : t.free with
  | nil =>
    rw [insert_of_nil hfree, List.headD_nil, get?_natCast, get?_natCast, Array.getElem?_push]
    by_cases hself : t.cells.size = k
    · subst hself
      simp
    · simp [Ne.symm hself, show (t.cells.size : Int) ≠ k by omega]
  | cons id rest =>
    rw [insert_of_cons hfree, List.headD_cons, get?_natCast, get?_natCast,
      Array.getElem?_setIfInBounds]
    by_cases hself : id = k
    · subst hself
      simp [(h.of_cons hfree).2]
    · simp [hself, show (id : Int) ≠ k by omega]

theorem length_toList_iff (h : t.Sound) : t.toList.length = t.cells.size ↔ t.free = [] := by
  unfold toList
  rw [← Array.length_toList, List.filterMap_length_eq_length, List.eq_nil_iff_forall_not_mem]
  constructor
  · intro hall n hn
    have hmem := Array.mem_of_getElem? ((h.mem_free n).mp hn)
    simpa using hall none (Array.mem_toList_iff.mpr hmem)
  · intro hnone cell hcell
    obtain ⟨n, hn⟩ := Array.getElem?_of_mem (Array.mem_toList_iff.mp hcell)
    cases cell with
    | none => exact absurd ((h.mem_free n).mpr hn) (hnone n)
    | some a => rfl

end Sound

theorem length_toList_le (t : IdTable α) : t.toList.length ≤ t.cells.size := by
  rw [← Array.length_toList]
  exact List.length_filterMap_le _ _

end ControlLogic.IdTable
