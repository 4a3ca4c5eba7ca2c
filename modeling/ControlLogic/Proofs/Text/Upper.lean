import Mathlib.Data.List.TakeWhile
import ControlLogic.Number.Numeral
import ControlLogic.Text.Blank

/-!
Texts up to the case of their letters. Two texts are equal up to case if their forms in upper case
are equal; what is said of characters that are no letters does not depend on case.
-/

set_option autoImplicit false
set_option relaxedAutoImplicit false

namespace ControlLogic

namespace Text

/-! ### Characters -/

def lowerLetters : List Char :=
  ['a', 'b', 'c', 'd', 'e', 'f', 'g', 'h', 'i', 'j', 'k', 'l', 'm', 'n', 'o', 'p', 'q', 'r', 's',
    't', 'u', 'v', 'w', 'x', 'y', 'z']

private theorem mem_lowerLetters {c : Char} (h : 97 ≤ c.toNat ∧ c.toNat ≤ 122) :
    c ∈ lowerLetters := by
  have hcodes : ∀ n ≤ 25, Char.ofNat (97 + n) ∈ lowerLetters := by decide
  obtain ⟨n, hn⟩ := Nat.exists_eq_add_of_le h.1
  have hc : Char.ofNat (97 + n) = c := by rw [← hn, Char.ofNat_toNat]
  rw [← hc]
  exact hcodes n (by omega)

theorem isAlpha_of_mem_lowerLetters {c : Char} (h : c ∈ lowerLetters) :
    c.isAlpha = true ∧ c.toUpper.isAlpha = true := by
  have hletters : lowerLetters.all (fun c => c.isAlpha && c.toUpper.isAlpha) = true := by decide
  exact (Bool.and_eq_true _ _).mp (List.all_eq_true.mp hletters c h)

theorem toNat_of_isAlpha {c : Char} (h : c.isAlpha = true) :
    (65 ≤ c.toNat ∧ c.toNat ≤ 90) ∨ (97 ≤ c.toNat ∧ c.toNat ≤ 122) := by
  have hupper : c.isUpper = decide (c.val ≥ 65 ∧ c.val ≤ 90) := rfl
  have hlower : c.isLower = (decide (c.val ≥ 97) && decide (c.val ≤ 122)) := rfl
  have halpha : c.isAlpha = (c.isUpper || c.isLower) := rfl
  simp only [halpha, hupper, hlower, Bool.or_eq_true, Bool.and_eq_true, decide_eq_true_eq,
    ge_iff_le, UInt32.le_iff_toNat_le] at h
  exact h

private theorem toUpper_of_not_letter {c : Char} (h : ¬ (97 ≤ c.toNat ∧ c.toNat ≤ 122)) :
    c.toUpper = c :=
  dif_neg h

theorem insensitive_of_letters {β : Type} {f : Char → β}
    (h : lowerLetters.map (fun c => f c.toUpper) = lowerLetters.map f) (c : Char) :
    f c.toUpper = f c := by
  by_cases hc : 97 ≤ c.toNat ∧ c.toNat ≤ 122
  · exact List.map_inj_left.mp h c (mem_lowerLetters hc)
  · rw [toUpper_of_not_letter hc]

theorem toUpper_toUpper (c : Char) : c.toUpper.toUpper = c.toUpper :=
  insensitive_of_letters (by decide) c

theorem toUpper_eq_iff {c d : Char} (hd : d.isAlpha = false) : c.toUpper = d ↔ c = d := by
  by_cases hc : 97 ≤ c.toNat ∧ c.toNat ≤ 122
  · obtain ⟨hlower, hupper⟩ := isAlpha_of_mem_lowerLetters (mem_lowerLetters hc)
    constructor
    · rintro rfl
      cases hd.symm.trans hupper
    · rintro rfl
      cases hd.symm.trans hlower
  · rw [toUpper_of_not_letter hc]

theorem takeWhile_map_toUpper {p : Char → Bool} (h : ∀ c, p c.toUpper = p c) (cs : List Char) :
    (cs.map Char.toUpper).takeWhile p = (cs.takeWhile p).map Char.toUpper := by
  rw [List.takeWhile_map]
  exact congrArg (fun q => (cs.takeWhile q).map Char.toUpper) (funext h)

theorem dropWhile_map_toUpper {p : Char → Bool} (h : ∀ c, p c.toUpper = p c) (cs : List Char) :
    (cs.map Char.toUpper).dropWhile p = (cs.dropWhile p).map Char.toUpper := by
  rw [List.dropWhile_map]
  exact congrArg (fun q => (cs.dropWhile q).map Char.toUpper) (funext h)

theorem isBlank_toUpper (c : Char) : isBlank c.toUpper = isBlank c :=
  insensitive_of_letters (by decide) c

private theorem hexDigit?_toUpper (c : Char) : hexDigit? c.toUpper = hexDigit? c :=
  insensitive_of_letters (by decide) c

/-! ### Texts -/

theorem toList_upper (s : String) : (upper s).toList = s.toList.map Char.toUpper :=
  String.toList_map

theorem upper_ofList (cs : List Char) :
    upper (String.ofList cs) = String.ofList (cs.map Char.toUpper) := by
  rw [← String.toList_inj, toList_upper, String.toList_ofList, String.toList_ofList]

theorem upper_eq_upper_iff {s t : String} :
    upper s = upper t ↔ s.toList.map Char.toUpper = t.toList.map Char.toUpper := by
  rw [← String.toList_inj, toList_upper, toList_upper]

theorem upper_empty : upper "" = "" := by
  rw [← String.toList_inj, toList_upper]
  rfl

@[simp]
theorem upper_append (s t : String) : upper (s ++ t) = upper s ++ upper t := by
  simp [← String.toList_inj, toList_upper]

@[simp]
theorem upper_upper (s : String) : upper (upper s) = upper s := by
  rw [← String.toList_inj, toList_upper, toList_upper, List.map_map]
  exact congrArg (List.map · s.toList) (funext toUpper_toUpper)

theorem upper_intercalate (separator : String) (texts : List String) :
    upper (separator.intercalate texts) = (upper separator).intercalate (texts.map upper) := by
  rw [← String.toList_inj, toList_upper, String.toList_intercalate, String.toList_intercalate,
    toList_upper, List.map_map]
  induction texts with
  | nil => rfl
  | cons first rest ih =>
    cases rest with
    | nil => simp [toList_upper]
    | cons second rest =>
      simp only [List.map_cons, List.intercalate_cons_cons, List.map_append] at ih ⊢
      rw [ih]
      simp [toList_upper]

theorem sameWord_eq (s t : String) :
    sameWord s t = (s.toList.map Char.toUpper == t.toList.map Char.toUpper) := by
  rw [Bool.eq_iff_iff, sameWord, beq_iff_eq, beq_iff_eq, upper_eq_upper_iff]

theorem sameWord_congr {s t : String} (h : upper s = upper t) (word : String) :
    sameWord s word = sameWord t word := by
  rw [sameWord, h, sameWord]

theorem isOneOf_congr {s t : String} (h : upper s = upper t) (table : List String) :
    isOneOf s table = isOneOf t table := by
  unfold isOneOf
  exact congrArg table.any (funext fun word => sameWord_congr h word)

theorem isOneOf_eq_contains {table : List String} (h : ∀ word ∈ table, upper word = word)
    (s : String) : isOneOf s table = table.contains (upper s) := by
  rw [Bool.eq_iff_iff, isOneOf, List.any_eq_true, List.contains_iff_mem]
  constructor
  · rintro ⟨word, hmem, hsame⟩
    have hupper : upper s = upper word := beq_iff_eq.mp hsame
    rwa [hupper, h word hmem]
  · intro hmem
    exact ⟨upper s, hmem, beq_iff_eq.mpr (upper_upper s).symm⟩

def Caseless (s : String) : Prop :=
  ∀ c ∈ s.toList, c.isAlpha = false

@[simp]
private theorem caseless_iff {s : String} : Caseless s ↔ ∀ c ∈ s.toList, c.isAlpha = false :=
  Iff.rfl

private theorem Caseless.upper_eq_iff {s t : String} (h : Caseless s) : upper t = s ↔ t = s := by
  have hchars : ∀ cs ds : List Char, (∀ d ∈ ds, d.isAlpha = false) →
      (cs.map Char.toUpper = ds ↔ cs = ds) := by
    intro cs ds hds
    induction cs generalizing ds with
    | nil => rw [List.map_nil]
    | cons c cs ih =>
      cases ds with
      | nil => simp
      | cons d ds =>
        obtain ⟨hd, hds⟩ := List.forall_mem_cons.mp hds
        rw [List.map_cons, List.cons_eq_cons, List.cons_eq_cons, toUpper_eq_iff hd, ih ds hds]
  rw [← String.toList_inj, ← String.toList_inj, toList_upper]
  exact hchars _ _ h

theorem Caseless.eq_iff {mark s t : String} (h : Caseless mark) (hst : upper s = upper t) :
    s = mark ↔ t = mark := by
  rw [← h.upper_eq_iff, hst, h.upper_eq_iff]

end Text

/-! ### Numerals -/

namespace Number

private theorem digits?_map_toUpper (radix : Nat) (cs : List Char) :
    digits? radix (cs.map Char.toUpper) = digits? radix cs := by
  unfold digits?
  rw [List.foldl_map]
  simp only [digit?, Text.hexDigit?_toUpper]

private theorem natural?_map_toUpper (radix : Nat) (cs : List Char) :
    natural? radix (cs.map Char.toUpper) = natural? radix cs := by
  cases cs with
  | nil => rfl
  | cons c cs => exact digits?_map_toUpper radix (c :: cs)

theorem integer?_cons (radix : Nat) (c : Char) (cs : List Char) :
    integer? radix (c :: cs) =
      if c = '+' then (natural? radix cs).map Int.ofNat
      else if c = '-' then (natural? radix cs).map (-Int.ofNat ·)
      else (natural? radix (c :: cs)).map Int.ofNat := by
  by_cases hplus : c = '+'
  · subst hplus
    rfl
  · by_cases hminus : c = '-'
    · subst hminus
      rfl
    · rw [if_neg hplus, if_neg hminus, integer?]
      · rintro _ ⟨⟩
        exact hplus rfl
      · rintro _ ⟨⟩
        exact hminus rfl

private theorem integer?_map_toUpper (radix : Nat) (cs : List Char) :
    integer? radix (cs.map Char.toUpper) = integer? radix cs := by
  cases cs with
  | nil => rfl
  | cons c cs =>
    have hrest := natural?_map_toUpper radix cs
    have hall := natural?_map_toUpper radix (c :: cs)
    rw [List.map_cons] at hall ⊢
    rw [integer?_cons, integer?_cons, hrest, hall]
    simp only [Text.toUpper_eq_iff (d := '+') rfl, Text.toUpper_eq_iff (d := '-') rfl]

theorem word?_map_toUpper (radix : Nat) (cs : List Char) :
    word? radix (cs.map Char.toUpper) = word? radix cs := by
  rw [word?, integer?_map_toUpper, word?]

end Number

end ControlLogic
