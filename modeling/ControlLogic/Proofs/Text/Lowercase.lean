import ControlLogic.Proofs.Text.Upper
import ControlLogic.Text.Lowercase

/-!
A text in lower case stays as it is: what the case mapping gives is its own lower case. The mapping
makes letters only, so that marks in the lower case of a text were there before. It does not tell
the two cases of an ASCII letter apart, and what stands on one side of a mark that is neither a
letter nor passed over does not count on the other.
-/

set_option autoImplicit false
set_option relaxedAutoImplicit false

namespace ControlLogic.Text

def IsLower (c : Char) : Prop :=
  c.toNat ≠ 0x3A3 ∧ lowerChar c = [c]

instance (c : Char) : Decidable (IsLower c) :=
  inferInstanceAs (Decidable (_ ∧ _))

theorem toLower_ascii : ∀ n < 128, IsLower (Char.ofNat n).toLower ∧
    ((Char.ofNat n).toLower.toNat < 97 → (Char.ofNat n).toLower = Char.ofNat n) := by
  decide +kernel

/-- Whether the lower cases of a run are letters behind ASCII other than the one whose lower case
has two characters, or the single ASCII letter. -/
def staysOut (r : Nat × Nat × Nat × Nat) : Bool :=
  (r.1.beq r.2.1 && r.2.2.2.beq 0x6B) ||
    (Nat.blt 127 r.2.2.2 &&
      ((r.2.2.2 + (r.2.1 - r.1)).blt 0x130 || Nat.blt 0x130 r.2.2.2) &&
      ((r.2.2.2 + (r.2.1 - r.1)).blt 0xD800 ||
        (Nat.blt 0xDFFF r.2.2.2 && (r.2.2.2 + (r.2.1 - r.1)).blt 0x110000)))

def inRun (n : Nat) (r : Nat × Nat × Nat × Nat) : Bool :=
  r.1 ≤ n && n ≤ r.2.1 && (n - r.1) % r.2.2.1 == 0

/-- A set of numbers as the bits of one number: so many multiples of a stride, from zero on. -/
def multiples (stride : Nat) : Nat → Nat
  | 0 => 0
  | count + 1 => (multiples stride count <<< stride) ||| 1

private theorem testBit_multiples {stride count j : Nat} (h : j < count) :
    (multiples stride count).testBit (j * stride) = true := by
  induction count generalizing j with
  | zero => omega
  | succ count ih =>
    rw [multiples, Nat.testBit_or, Bool.or_eq_true]
    cases j with
    | zero => exact Or.inr (by simp)
    | succ j =>
      left
      rw [Nat.testBit_shiftLeft, Nat.succ_mul, Nat.add_sub_cancel, ih (by omega)]
      simp

/-- The letters of some runs as one set, with each run moved to a start of its own. -/
def lettersOf (runs : List (Nat × Nat × Nat × Nat)) (start : Nat × Nat × Nat × Nat → Nat) : Nat :=
  runs.foldr
    (fun r set => (multiples r.2.2.1 ((r.2.1 - r.1) / r.2.2.1 + 1) <<< start r) ||| set) 0

private theorem testBit_lettersOf {runs : List (Nat × Nat × Nat × Nat)} {r : Nat × Nat × Nat × Nat}
    (hr : r ∈ runs) {n : Nat} (hn : inRun n r = true) (start : Nat × Nat × Nat × Nat → Nat) :
    (lettersOf runs start).testBit (start r + (n - r.1)) = true := by
  simp only [inRun, Bool.and_eq_true, decide_eq_true_eq, beq_iff_eq] at hn
  obtain ⟨⟨hfirst, hlast⟩, hstride⟩ := hn
  rw [lettersOf]
  induction runs with
  | nil => cases hr
  | cons q rest ih =>
    rw [List.foldr_cons, Nat.testBit_or, Bool.or_eq_true]
    rcases List.mem_cons.mp hr with rfl | hr
    · left
      have hindex : (n - r.1) / r.2.2.1 < (r.2.1 - r.1) / r.2.2.1 + 1 :=
        Nat.lt_succ_of_le (Nat.div_le_div_right (by omega))
      have hbit : (multiples r.2.2.1 ((r.2.1 - r.1) / r.2.2.1 + 1)).testBit (n - r.1) = true := by
        rw [← Nat.div_mul_cancel (Nat.dvd_of_mod_eq_zero hstride)]
        exact testBit_multiples hindex
      simp [Nat.testBit_shiftLeft, hbit]
    · exact Or.inr (ih hr)

/-- What is computed on the table of runs, in one evaluation of it: where the lower cases of a run
lie, that no letter of a run is the lower case of a letter of a run, which run has the sigma, and
that the mark above the letter of two characters and the two forms of sigma are in no run. -/
private theorem lowercaseRuns_facts :
    lowercaseRuns.toList.all staysOut = true ∧
      lettersOf lowercaseRuns.toList (·.1) &&& lettersOf lowercaseRuns.toList (·.2.2.2) = 0 ∧
      (0x3A3, 0x3AB, 1, 0x3C3) ∈ lowercaseRuns.toList ∧
      ∀ n ∈ [0x307, 0x3C2, 0x3C3], 128 ≤ (Char.ofNat n).toNat ∧
        (Char.ofNat n).toNat ≠ 0x130 ∧
        ∀ r ∈ lowercaseRuns.toList, inRun (Char.ofNat n).toNat r = false := by
  decide +kernel

private theorem lowerChar_of_ascii {c : Char} (h : c.toNat < 128) : lowerChar c = [c.toLower] :=
  if_pos h

private theorem lowerChar_of_pair {c : Char} (h : c.toNat = 0x130) :
    lowerChar c = ['i', Char.ofNat 0x307] := by
  rw [lowerChar, if_neg (by omega), if_pos h]

private theorem lowerChar_of_run {c : Char} (hascii : 128 ≤ c.toNat) (hpair : c.toNat ≠ 0x130) :
    lowerChar c = (lowercaseRuns.find? (inRun c.toNat)).elim [c]
      fun r => [Char.ofNat (r.2.2.2 + (c.toNat - r.1))] := by
  rw [lowerChar, if_neg (by omega), if_neg hpair]
  generalize lowercaseRuns = runs
  generalize hfound : runs.find? _ = found
  have hrun : runs.find? (inRun c.toNat) = found := hfound
  rw [hrun]
  cases found with
  | some r => rfl
  | none => rfl

private theorem lowerChar_of_not_inRun {c : Char} (hascii : 128 ≤ c.toNat) (hpair : c.toNat ≠ 0x130)
    (h : ∀ r ∈ lowercaseRuns.toList, inRun c.toNat r = false) : lowerChar c = [c] := by
  have hnone : lowercaseRuns.find? (inRun c.toNat) = none := by
    rw [Array.find?_eq_none]
    intro r hr
    simp [h r (Array.mem_toList_iff.mpr hr)]
  rw [lowerChar_of_run hascii hpair, hnone, Option.elim_none]

private theorem mem_lowerChar_cases {c d : Char} (h : d ∈ lowerChar c) :
    (c.toNat < 128 ∧ d = c.toLower) ∨ d = 'i' ∨ d = Char.ofNat 0x307 ∨
      (∃ r ∈ lowercaseRuns.toList, inRun c.toNat r = true ∧
        d = Char.ofNat (r.2.2.2 + (c.toNat - r.1))) ∨
      (d = c ∧ 128 ≤ c.toNat ∧ c.toNat ≠ 0x130 ∧
        ∀ r ∈ lowercaseRuns.toList, inRun c.toNat r = false) := by
  by_cases hascii : c.toNat < 128
  · rw [lowerChar_of_ascii hascii, List.mem_singleton] at h
    exact Or.inl ⟨hascii, h⟩
  by_cases hpair : c.toNat = 0x130
  · rw [lowerChar_of_pair hpair] at h
    simp only [List.mem_cons, List.not_mem_nil, or_false] at h
    exact Or.inr (h.imp_right Or.inl)
  rw [lowerChar_of_run (by omega) hpair] at h
  refine Or.inr (Or.inr (Or.inr ?_))
  cases hfind : lowercaseRuns.find? (inRun c.toNat) with
  | some r =>
    rw [hfind] at h
    have hmem := Array.mem_toList_iff.mpr (Array.mem_of_find?_eq_some hfind)
    exact Or.inl ⟨r, hmem, Array.find?_some hfind, List.mem_singleton.mp h⟩
  | none =>
    rw [hfind] at h
    refine Or.inr ⟨List.mem_singleton.mp h, by omega, hpair, fun r hr => ?_⟩
    simpa using Array.find?_eq_none.mp hfind r (Array.mem_toList_iff.mp hr)

private theorem inRun_target {n : Nat} {r q : Nat × Nat × Nat × Nat} (hr : r ∈ lowercaseRuns.toList)
    (hq : q ∈ lowercaseRuns.toList) (hn : inRun n r = true) :
    inRun (r.2.2.2 + (n - r.1)) q = false := by
  cases hin : inRun (r.2.2.2 + (n - r.1)) q with
  | false => rfl
  | true =>
    have hfirst : q.1 ≤ r.2.2.2 + (n - r.1) := by
      simp only [inRun, Bool.and_eq_true, decide_eq_true_eq] at hin
      exact hin.1.1
    have hlower := testBit_lettersOf hr hn (·.2.2.2)
    have hupper := testBit_lettersOf hq hin (·.1)
    rw [Nat.add_sub_cancel' hfirst] at hupper
    obtain ⟨-, hdisjoint, -⟩ := lowercaseRuns_facts
    have hboth := congrArg (Nat.testBit · (r.2.2.2 + (n - r.1))) hdisjoint
    simp [Nat.testBit_and, hupper, hlower] at hboth

private theorem target_cases {n : Nat} {r : Nat × Nat × Nat × Nat} (hr : r ∈ lowercaseRuns.toList)
    (hn : inRun n r = true) :
    Char.ofNat (r.2.2.2 + (n - r.1)) = 'k' ∨
      ((Char.ofNat (r.2.2.2 + (n - r.1))).toNat = r.2.2.2 + (n - r.1) ∧
        127 < r.2.2.2 + (n - r.1) ∧ r.2.2.2 + (n - r.1) ≠ 0x130) := by
  obtain ⟨hall, -⟩ := lowercaseRuns_facts
  have hstays := List.all_eq_true.mp hall r hr
  obtain ⟨first, last, stride, target⟩ := r
  simp only [staysOut, inRun, Bool.or_eq_true, Bool.and_eq_true, Nat.blt_eq, Nat.beq_eq,
    decide_eq_true_eq, beq_iff_eq] at hstays hn
  dsimp only
  rcases hstays with ⟨rfl, rfl⟩ | ⟨⟨hlarge, hpair⟩, hvalid⟩
  · obtain rfl : n = first := by omega
    exact Or.inl (by simp)
  · have hchar : (target + (n - first)).isValidChar := by
      unfold Nat.isValidChar
      omega
    refine Or.inr ⟨?_, by omega, by omega⟩
    rw [Char.ofNat, dif_pos hchar]
    rfl

private theorem isLower_of_not_inRun {c : Char} (hascii : 128 ≤ c.toNat) (hpair : c.toNat ≠ 0x130)
    (h : ∀ r ∈ lowercaseRuns.toList, inRun c.toNat r = false) : IsLower c := by
  refine ⟨fun hsigma => ?_, lowerChar_of_not_inRun hascii hpair h⟩
  obtain ⟨-, -, hmem, -⟩ := lowercaseRuns_facts
  have hin := h _ hmem
  simp [hsigma, inRun] at hin

private theorem isLower_marks :
    ∀ n ∈ [0x307, 0x3C2, 0x3C3], IsLower (Char.ofNat n) := by
  intro n hn
  obtain ⟨-, -, -, hmarks⟩ := lowercaseRuns_facts
  obtain ⟨hascii, hpair, hnot⟩ := hmarks n hn
  exact isLower_of_not_inRun hascii hpair hnot

private theorem isLower_of_mem_lowerChar {c d : Char} (h : d ∈ lowerChar c) : IsLower d := by
  rcases mem_lowerChar_cases h with ⟨hascii, rfl⟩ | rfl | rfl | ⟨r, hr, hin, rfl⟩ |
    ⟨rfl, hascii, hpair, hruns⟩
  · simpa using (toLower_ascii c.toNat hascii).1
  · exact (toLower_ascii 105 (by decide)).1
  · exact isLower_marks _ (by simp)
  · rcases target_cases hr hin with hk | ⟨hcode, hlarge, hpair⟩
    · rw [hk]
      exact (toLower_ascii 107 (by decide)).1
    · refine isLower_of_not_inRun (by omega) (by omega) fun q hq => ?_
      rw [hcode]
      exact inRun_target hr hq hin
  · exact isLower_of_not_inRun hascii hpair hruns

private theorem eq_of_mem_lowerChar {c d : Char} (h : d ∈ lowerChar c) (hd : d.toNat < 97) :
    d = c := by
  rcases mem_lowerChar_cases h with ⟨hascii, rfl⟩ | rfl | rfl | ⟨r, hr, hin, rfl⟩ | ⟨rfl, -⟩
  · simpa using (toLower_ascii c.toNat hascii).2 (by simpa using hd)
  · exact absurd hd (by decide)
  · exact absurd hd (by decide)
  · rcases target_cases hr hin with hk | ⟨hcode, hlarge, -⟩
    · rw [hk] at hd
      exact absurd hd (by decide)
    · omega
  · rfl

private theorem mem_lowerFrom {before cs : List Char} {d : Char} (h : d ∈ lowerFrom before cs) :
    d = Char.ofNat 0x3C2 ∨ d = Char.ofNat 0x3C3 ∨ ∃ c ∈ cs, d ∈ lowerChar c := by
  induction cs generalizing before with
  | nil => cases h
  | cons c rest ih =>
    simp only [lowerFrom, List.mem_append] at h
    rcases h with h | h
    · split at h
      · split at h
        · exact Or.inl (List.mem_singleton.mp h)
        · exact Or.inr (Or.inl (List.mem_singleton.mp h))
      · exact Or.inr (Or.inr ⟨c, List.mem_cons_self, h⟩)
    · rcases ih h with h | h | ⟨c', hc', h⟩
      · exact Or.inl h
      · exact Or.inr (Or.inl h)
      · exact Or.inr (Or.inr ⟨c', List.mem_cons_of_mem _ hc', h⟩)

theorem isLower_of_mem_lowercase {cs : List Char} {d : Char} (h : d ∈ lowercase cs) :
    IsLower d := by
  rcases mem_lowerFrom h with rfl | rfl | ⟨c, -, hc⟩
  · exact isLower_marks _ (by simp)
  · exact isLower_marks _ (by simp)
  · exact isLower_of_mem_lowerChar hc

theorem mem_of_mem_lowercase {cs : List Char} {d : Char} (h : d ∈ lowercase cs)
    (hd : d.toNat < 97) : d ∈ cs := by
  rcases mem_lowerFrom h with rfl | rfl | ⟨c, hc, hdc⟩
  · exact absurd hd (by decide)
  · exact absurd hd (by decide)
  · rwa [eq_of_mem_lowerChar hdc hd]

private theorem lowerFrom_of_isLower {before cs : List Char} (h : ∀ c ∈ cs, IsLower c) :
    lowerFrom before cs = cs := by
  induction cs generalizing before with
  | nil => rfl
  | cons c rest ih =>
    obtain ⟨hsigma, himage⟩ := h c List.mem_cons_self
    rw [lowerFrom, if_neg hsigma, himage, ih fun d hd => h d (List.mem_cons_of_mem _ hd)]
    rfl

theorem lowercase_of_isLower {cs : List Char} (h : ∀ c ∈ cs, IsLower c) : lowercase cs = cs :=
  lowerFrom_of_isLower h

private theorem lowerChar_ne_nil (c : Char) : lowerChar c ≠ [] := by
  unfold lowerChar
  split
  · simp
  · split
    · simp
    · split <;> simp

theorem lowercase_eq_nil_iff {cs : List Char} : lowercase cs = [] ↔ cs = [] := by
  cases cs with
  | nil => simp [lowercase, lowerFrom]
  | cons c rest =>
    simp only [lowercase, lowerFrom, reduceCtorEq, iff_false, List.append_eq_nil_iff, not_and]
    intro himage
    split at himage
    · split at himage <;> cases himage
    · exact absurd himage (lowerChar_ne_nil c)

/-! ### ASCII letters of either case -/

private theorem lowerChar_toUpper (c : Char) : lowerChar c.toUpper = lowerChar c :=
  insensitive_of_letters (by decide +kernel) c

theorem inRanges_eq (ranges : Array (Nat × Nat)) (c : Char) :
    inRanges ranges c =
      ranges.toList.any fun (first, last) => first ≤ c.toNat && c.toNat ≤ last :=
  Array.any_toList.symm

private theorem notIgnorable_of_isAlpha {c : Char} (h : c.isAlpha = true) :
    inRanges ignorableRanges c = false := by
  have hranges : ignorableRanges.toList.all (fun r =>
      Nat.blt r.2 65 || (Nat.blt 90 r.1 && Nat.blt r.2 97) || Nat.blt 122 r.1) = true := by
    decide +kernel
  have hcode := toNat_of_isAlpha h
  rw [inRanges_eq, List.any_eq_false]
  intro r hr
  have houtside := List.all_eq_true.mp hranges r hr
  simp only [Bool.or_eq_true, Bool.and_eq_true, Nat.blt_eq] at houtside
  simp only [Bool.and_eq_true, decide_eq_true_eq]
  omega

private theorem inRanges_ignorable_toUpper (c : Char) :
    inRanges ignorableRanges c.toUpper = inRanges ignorableRanges c := by
  refine insensitive_of_letters (List.map_congr_left fun c hc => ?_) c
  obtain ⟨hlower, hupper⟩ := isAlpha_of_mem_lowerLetters hc
  rw [notIgnorable_of_isAlpha hupper, notIgnorable_of_isAlpha hlower]

private theorem inRanges_cased_toUpper (c : Char) :
    inRanges casedRanges c.toUpper = inRanges casedRanges c := by
  refine insensitive_of_letters ?_ c
  simp only [inRanges_eq]
  decide +kernel

private theorem isSigma_toUpper (c : Char) : (c.toUpper.toNat == 0x3A3) = (c.toNat == 0x3A3) :=
  insensitive_of_letters (f := fun c => c.toNat == 0x3A3) (by decide) c

private theorem startsCased_map_toUpper (cs : List Char) :
    startsCased (cs.map Char.toUpper) = startsCased cs := by
  rw [startsCased, startsCased, dropWhile_map_toUpper inRanges_ignorable_toUpper]
  cases cs.dropWhile (inRanges ignorableRanges) with
  | nil => rfl
  | cons c rest => exact inRanges_cased_toUpper c

private theorem lowerFrom_map_toUpper (before cs : List Char) :
    lowerFrom (before.map Char.toUpper) (cs.map Char.toUpper) = lowerFrom before cs := by
  induction cs generalizing before with
  | nil => rfl
  | cons c rest ih =>
    have hsigma : c.toUpper.toNat = 0x3A3 ↔ c.toNat = 0x3A3 := by
      simpa using Bool.eq_iff_iff.mp (isSigma_toUpper c)
    have hrest := ih (c :: before)
    rw [List.map_cons] at hrest
    rw [List.map_cons, lowerFrom, lowerFrom, startsCased_map_toUpper, startsCased_map_toUpper,
      lowerChar_toUpper, hrest]
    simp only [hsigma]

theorem lowercase_map_toUpper (cs : List Char) :
    lowercase (cs.map Char.toUpper) = lowercase cs :=
  lowerFrom_map_toUpper [] cs

/-! ### Marks between words -/

/-- A mark that is its own lower case, is no letter, and is not passed over in looking for one. -/
structure IsBarrier (mark : Char) : Prop where
  isLower : IsLower mark
  notIgnorable : inRanges ignorableRanges mark = false
  notCased : inRanges casedRanges mark = false

namespace IsBarrier

variable {mark : Char} (h : IsBarrier mark)

include h

private theorem startsCased_append (cs more : List Char) :
    startsCased (cs ++ mark :: more) = startsCased cs := by
  have hmark : (mark :: more).dropWhile (inRanges ignorableRanges) = mark :: more :=
    List.dropWhile_cons_of_neg (by simp [h.notIgnorable])
  rw [startsCased, startsCased, List.dropWhile_append, hmark]
  cases cs.dropWhile (inRanges ignorableRanges) with
  | nil => exact h.notCased
  | cons c rest => rfl

private theorem lowerFrom_behind (before more cs : List Char) :
    lowerFrom (before ++ mark :: more) cs = lowerFrom before cs := by
  induction cs generalizing before with
  | nil => rfl
  | cons c rest ih =>
    rw [lowerFrom, lowerFrom, h.startsCased_append, ← List.cons_append, ih]

private theorem lowerFrom_append (before cs rest : List Char) :
    lowerFrom before (cs ++ mark :: rest) = lowerFrom before cs ++ mark :: lowercase rest := by
  induction cs generalizing before with
  | nil =>
    have hrest : lowerFrom (mark :: before) rest = lowerFrom [] rest :=
      h.lowerFrom_behind [] before rest
    rw [List.nil_append, lowerFrom, lowerFrom, if_neg h.isLower.1, h.isLower.2, hrest]
    rfl
  | cons c cs ih =>
    rw [List.cons_append, lowerFrom, lowerFrom, h.startsCased_append, ih, List.append_assoc]

theorem lowercase_append (cs rest : List Char) :
    lowercase (cs ++ mark :: rest) = lowercase cs ++ mark :: lowercase rest :=
  h.lowerFrom_append [] cs rest

end IsBarrier

end ControlLogic.Text
