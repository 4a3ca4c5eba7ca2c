import ControlLogic.Proofs.Token.Case
import ControlLogic.Proofs.Token.Spelling
import ControlLogic.Slot.Key

/-!
Texts of keys. A key of names in upper case is read back from its text, so two such keys with one
text are the same key.
-/

set_option autoImplicit false
set_option relaxedAutoImplicit false

namespace ControlLogic

namespace Text

theorem trimLeft_of_head {cs : List Char} (h : ∀ c ∈ cs.head?, isBlank c = false) :
    trimLeft cs = cs := by
  cases cs with
  | nil => rfl
  | cons c cs => simp [trimLeft, h c rfl]

theorem trim_of_ends {cs : List Char} (hfirst : ∀ c ∈ cs.head?, isBlank c = false)
    (hlast : ∀ c ∈ cs.getLast?, isBlank c = false) : trim cs = cs := by
  rw [← List.head?_reverse] at hlast
  rw [trim, trimLeft_of_head hfirst, trimLeft_of_head hlast, List.reverse_reverse]

private theorem trim_of_forall {cs : List Char} (h : ∀ c ∈ cs, isBlank c = false) : trim cs = cs :=
  trim_of_ends (fun c hc => h c (List.mem_of_mem_head? hc))
    fun c hc => h c (List.mem_of_mem_getLast? hc)

private theorem takeWhile_append_mark {mark : Char} {cs rest : List Char} (h : mark ∉ cs)
    (hrest : ∀ c ∈ rest.head?, c = mark) :
    (cs ++ rest).takeWhile (· != mark) = cs ∧ (cs ++ rest).dropWhile (· != mark) = rest := by
  have hcs : ∀ c ∈ cs, (c != mark) = true := by
    intro c hc
    rw [bne_iff_ne]
    rintro rfl
    exact h hc
  rw [List.takeWhile_append_of_pos hcs, List.dropWhile_append_of_pos hcs]
  cases rest with
  | nil => simp
  | cons c rest =>
    obtain rfl := hrest c rfl
    simp

theorem splitOnce_of_notMem {mark : Char} {cs : List Char} (h : mark ∉ cs) :
    splitOnce mark cs = none := by
  have hend : ∀ c ∈ ([] : List Char).head?, c = mark := by simp
  obtain ⟨-, hdrop⟩ := takeWhile_append_mark h hend
  rw [List.append_nil] at hdrop
  rw [splitOnce, hdrop]

private theorem splitOnce_append {mark : Char} {front : List Char} (h : mark ∉ front)
    (back : List Char) : splitOnce mark (front ++ mark :: back) = some (front, back) := by
  have hmark : ∀ c ∈ (mark :: back).head?, c = mark := by simp
  obtain ⟨htake, hdrop⟩ := takeWhile_append_mark h hmark
  rw [splitOnce, hdrop, htake]

end Text

namespace Number

private theorem mem_decimal {n : Int} {c : Char} (h : c ∈ (decimal n).toList) :
    c = '-' ∨ c.isDigit = true := by
  have hdigit : c ∈ decimalDigits n.natAbs → c.isDigit = true :=
    Nat.isDigit_of_mem_toDigits (by decide) (by decide)
  unfold decimal at h
  split at h
  · rw [String.toList_ofList, List.mem_cons] at h
    exact h.imp_right hdigit
  · rw [String.toList_ofList] at h
    exact .inr (hdigit h)

private theorem natural?_decimalDigits (n : Nat) : natural? 10 (decimalDigits n) = some n := by
  obtain ⟨c, cs, hdigits, -⟩ := decimalDigits_cons n
  have hvalue := digits?_decimalDigits n
  rw [hdigits] at hvalue ⊢
  exact hvalue

private theorem integer?_decimal (n : Int) : integer? 10 (decimal n).toList = some n := by
  have hvalue := natural?_decimalDigits n.natAbs
  unfold decimal
  split
  next hneg =>
    rw [String.toList_ofList]
    simp only [integer?, hvalue, Option.map_some, Option.some.injEq]
    simp only [Int.ofNat_eq_natCast]
    omega
  next hneg =>
    obtain ⟨c, cs, hdigits, hall⟩ := decimalDigits_cons n.natAbs
    have hc : c.isDigit = true := hall c List.mem_cons_self
    rw [hdigits] at hvalue
    rw [String.toList_ofList, hdigits, integer?_cons]
    rw [if_neg (by rintro rfl; exact absurd hc (by decide)),
      if_neg (by rintro rfl; exact absurd hc (by decide)), hvalue]
    simp only [Option.map_some, Int.ofNat_eq_natCast]
    exact congrArg some (by omega)

private theorem decimal_injective {m n : Int} (h : decimal m = decimal n) : m = n := by
  have hread := integer?_decimal m
  rw [h, integer?_decimal n] at hread
  exact (Option.some.inj hread).symm

theorem word?_decimal {n : Int} (h : InWord n) : word? 10 (decimal n).toList = some n := by
  simp [word?, integer?_decimal, Option.filter, h]

end Number

/-- The name of a variable in upper case: letters, digits, underscores and dollar signs. -/
structure IsName (name : String) : Prop where
  ne_empty : name ≠ ""
  wordPart : ∀ c ∈ name.toList, Token.isWordPart c = true
  toUpper : ∀ c ∈ name.toList, c.toUpper = c

-- The characters of the name are gone through, not all characters.
instance (name : String) : Decidable (IsName name) :=
  decidable_of_iff
    (name ≠ "" ∧ name.toList.all Token.isWordPart = true ∧
      name.toList.all (fun c => c.toUpper == c) = true)
    (by
      simp only [List.all_eq_true, beq_iff_eq]
      exact ⟨fun ⟨h, hw, hu⟩ => ⟨h, hw, hu⟩, fun ⟨h, hw, hu⟩ => ⟨h, hw, hu⟩⟩)

namespace IsName

theorem of_isWord {word : String} (h : IsWord word) : IsName (Text.upper word) := by
  obtain ⟨c, cs, hword, hc, hcs⟩ := h
  have hpart : Token.isWordPart c = true := by
    simp only [Token.isWordStart, Token.isWordPart, Char.isAlphanum, Bool.or_eq_true] at hc ⊢
    exact .inl (hc.imp_left .inl)
  refine ⟨?_, ?_, ?_⟩
  · intro hempty
    have hlist := congrArg String.toList hempty
    rw [Text.toList_upper, hword] at hlist
    simp at hlist
  · intro d hd
    rw [Text.toList_upper, List.mem_map] at hd
    obtain ⟨e, he, rfl⟩ := hd
    rw [Token.isWordPart_toUpper]
    rw [hword] at he
    rcases List.mem_cons.mp he with rfl | he
    · exact hpart
    · exact hcs e he
  · intro d hd
    rw [Text.toList_upper, List.mem_map] at hd
    obtain ⟨e, -, rfl⟩ := hd
    exact Text.toUpper_toUpper e

variable {name : String} (h : IsName name)

include h

theorem notMem {mark : Char} (hmark : Token.isWordPart mark = false) : mark ∉ name.toList := by
  intro hmem
  rw [h.wordPart mark hmem] at hmark
  cases hmark

theorem upper : Text.upper name = name := by
  rw [← String.toList_inj, Text.toList_upper]
  exact (List.map_congr_left h.toUpper).trans (List.map_id _)

end IsName

namespace SlotKey

def names : SlotKey → List String
  | plain n | element n _ | cell n _ _ => [n]
  | field o f | fieldElement o f _ => [o, f]

def indices : SlotKey → List Int
  | plain _ | field _ _ => []
  | element _ i | fieldElement _ _ i => [i]
  | cell _ i j => [i, j]

/-- The keys of a program: their names are names of variables in upper case. -/
def IsNamed (key : SlotKey) : Prop :=
  ∀ name ∈ key.names, IsName name

instance (key : SlotKey) : Decidable key.IsNamed :=
  inferInstanceAs (Decidable (∀ name ∈ key.names, IsName name))

def stem (key : SlotKey) : List Char :=
  match key with
  | plain n | element n _ | cell n _ _ => n.toList
  | field o f | fieldElement o f _ => o.toList ++ '.' :: f.toList

def brackets (is : List Int) : List Char :=
  is.flatMap fun i => (bracketed i).toList

theorem toList_bracketed (i : Int) :
    (bracketed i).toList = '[' :: ((Number.decimal i).toList ++ [']']) := by
  simp [bracketed, String.toList_append]

theorem toList_render (key : SlotKey) : key.render.toList = key.stem ++ brackets key.indices := by
  cases key <;> simp [render, stem, brackets, indices, String.toList_append]

private theorem head?_brackets (is : List Int) : ∀ c ∈ (brackets is).head?, c = '[' := by
  intro c hc
  cases is with
  | nil => simp [brackets] at hc
  | cons i is =>
    rw [brackets, List.flatMap_cons, toList_bracketed] at hc
    exact (Option.some.inj hc).symm

variable {key : SlotKey}

private theorem mem_stem {c : Char} (h : c ∈ key.stem) :
    c = '.' ∨ ∃ name ∈ key.names, c ∈ name.toList := by
  cases key with
  | plain n | element n _ | cell n _ _ => exact .inr ⟨n, List.mem_singleton_self n, h⟩
  | field o f | fieldElement o f _ =>
    rcases List.mem_append.mp h with ho | hf
    · exact .inr ⟨o, List.mem_cons_self, ho⟩
    · rcases List.mem_cons.mp hf with hdot | hf
      · exact .inl hdot
      · exact .inr ⟨f, List.mem_cons_of_mem _ (List.mem_singleton_self f), hf⟩

theorem IsNamed.bracket_notMem_stem (h : key.IsNamed) : '[' ∉ key.stem := by
  intro hmem
  rcases mem_stem hmem with hdot | ⟨name, hname, hmem⟩
  · exact absurd hdot (by decide)
  · exact (h name hname).notMem (by decide) hmem

theorem IsNamed.stem_ne_nil (h : key.IsNamed) : key.stem ≠ [] := by
  have hname : ∀ name ∈ key.names, name ≠ "" := fun name hn => (h name hn).ne_empty
  cases key <;> simp_all [stem, names]

private theorem notMem_decimal (i : Int) {c : Char} (hminus : c ≠ '-')
    (hdigit : c.isDigit = false) :
    c ∉ (Number.decimal i).toList := by
  intro hmem
  rcases Number.mem_decimal hmem with rfl | h
  · exact hminus rfl
  · rw [h] at hdigit
    cases hdigit

private theorem isBlank_of_mem_decimal {i : Int} {c : Char} (h : c ∈ (Number.decimal i).toList) :
    Text.isBlank c = false := by
  rcases Number.mem_decimal h with rfl | hdigit
  · decide
  · rw [Char.isDigit_iff_toNat] at hdigit
    simp only [show '0'.toNat = 48 from rfl, show '9'.toNat = 57 from rfl] at hdigit
    simp only [Text.isBlank, Bool.or_eq_false_iff, Bool.and_eq_false_imp, decide_eq_true_eq,
      decide_eq_false_iff_not, beq_eq_false_iff_ne]
    omega

private theorem isBlank_of_isWordPart {c : Char} (h : Token.isWordPart c = true) :
    Text.isBlank c = false := by
  have hcode : 48 ≤ c.toNat ∧ c.toNat ≤ 122 ∨ c.toNat = 36 := by
    simp only [Token.isWordPart, Char.isAlphanum, Bool.or_eq_true, beq_iff_eq] at h
    rcases h with ((halpha | hdigit) | hunderscore) | hdollar
    · have hletter := toNat_of_isWordStart (c := c) (by simp [Token.isWordStart, halpha])
      omega
    · rw [Char.isDigit_iff_toNat] at hdigit
      simp only [show '0'.toNat = 48 from rfl, show '9'.toNat = 57 from rfl] at hdigit
      omega
    · exact .inl (by subst hunderscore; decide)
    · exact .inr (congrArg Char.toNat hdollar)
  simp only [Text.isBlank, Bool.or_eq_false_iff, Bool.and_eq_false_imp, decide_eq_true_eq,
    decide_eq_false_iff_not, beq_eq_false_iff_ne]
  omega

private theorem brackets_cons (i : Int) (is : List Int) :
    brackets (i :: is) = '[' :: ((Number.decimal i).toList ++ ']' :: brackets is) := by
  simp [brackets, toList_bracketed]

private theorem length_le_brackets (is : List Int) : is.length ≤ (brackets is).length := by
  induction is with
  | nil => exact Nat.zero_le _
  | cons i is ih =>
    rw [brackets_cons, List.length_cons, List.length_cons, List.length_append, List.length_cons]
    omega

private theorem cut_brackets (i : Int) (is : List Int) :
    ((Number.decimal i).toList ++ ']' :: brackets is).takeWhile (· != ']') =
        (Number.decimal i).toList ∧
      ((Number.decimal i).toList ++ ']' :: brackets is).dropWhile (· != ']') =
        ']' :: brackets is :=
  Text.takeWhile_append_mark (notMem_decimal i (by decide) (by decide)) (by simp)

private theorem brackets_injective {is js : List Int} (h : brackets is = brackets js) :
    is = js := by
  induction is generalizing js with
  | nil =>
    cases js with
    | nil => rfl
    | cons j js =>
      rw [brackets_cons] at h
      cases h
  | cons i is ih =>
    cases js with
    | nil =>
      rw [brackets_cons] at h
      cases h
    | cons j js =>
      rw [brackets_cons, brackets_cons] at h
      have htail := (List.cons.inj h).2
      obtain ⟨hnumeral, hrest⟩ := cut_brackets i is
      obtain ⟨hnumeral', hrest'⟩ := cut_brackets j js
      rw [htail] at hnumeral hrest
      have hi : i = j :=
        Number.decimal_injective (String.toList_inj.mp (hnumeral.symm.trans hnumeral'))
      rw [hi, ih (List.cons.inj (hrest.symm.trans hrest')).2]

private theorem indices?_brackets {is : List Int} (h : ∀ i ∈ is, Number.InWord i) {fuel : Nat}
    (hfuel : is.length ≤ fuel) : indices? fuel (brackets is) = some is := by
  induction is generalizing fuel with
  | nil => cases fuel <;> rfl
  | cons i is ih =>
    cases fuel with
    | zero => simp at hfuel
    | succ fuel =>
      obtain ⟨hi, his⟩ := List.forall_mem_cons.mp h
      have hrest := ih his (Nat.le_of_succ_le_succ hfuel)
      have htrim := Text.trim_of_forall fun c => isBlank_of_mem_decimal (i := i) (c := c)
      obtain ⟨hnumeral, hbehind⟩ := cut_brackets i is
      rw [brackets_cons, indices?, hnumeral, hbehind, htrim, Number.word?_decimal hi]
      simp [hrest]

private theorem eq_of_names_indices {key' : SlotKey} (hnames : key.names = key'.names)
    (hindices : key.indices = key'.indices) : key = key' := by
  cases key <;> cases key' <;> simp_all [names, indices]

theorem IsNamed.splitOnce_stem (h : key.IsNamed) :
    Text.splitOnce '.' key.stem =
      match key with
      | plain _ | element _ _ | cell _ _ _ => none
      | field o f | fieldElement o f _ => some (o.toList, f.toList) := by
  have hmark : Token.isWordPart '.' = false := by decide
  have hname : ∀ name ∈ key.names, '.' ∉ name.toList := fun name hn => (h name hn).notMem hmark
  cases key with
  | plain n | element n _ | cell n _ _ => exact Text.splitOnce_of_notMem (hname n (by simp [names]))
  | field o f | fieldElement o f _ => exact Text.splitOnce_append (hname o (by simp [names])) _

theorem IsNamed.names_eq (h : key.IsNamed) :
    key.names =
      match Text.splitOnce '.' key.stem with
      | none => [String.ofList key.stem]
      | some (o, f) => [String.ofList o, String.ofList f] := by
  rw [h.splitOnce_stem]
  cases key <;> simp [names, stem]

private theorem IsNamed.cut_render (h : key.IsNamed) :
    key.render.toList.takeWhile (· != '[') = key.stem ∧
      key.render.toList.dropWhile (· != '[') = brackets key.indices := by
  rw [toList_render]
  exact Text.takeWhile_append_mark h.bracket_notMem_stem (head?_brackets _)

theorem IsNamed.render_injective (h : key.IsNamed) {key' : SlotKey} (h' : key'.IsNamed)
    (heq : key.render = key'.render) : key = key' := by
  obtain ⟨hstem, hbrackets⟩ := h.cut_render
  obtain ⟨hstem', hbrackets'⟩ := h'.cut_render
  rw [heq] at hstem hbrackets
  have hnames : key.names = key'.names := by
    rw [h.names_eq, h'.names_eq, ← hstem, ← hstem']
  have hindices : key.indices = key'.indices :=
    brackets_injective (hbrackets.symm.trans hbrackets')
  exact eq_of_names_indices hnames hindices

private theorem IsNamed.isBlank_of_mem_render (h : key.IsNamed) {c : Char}
    (hc : c ∈ key.render.toList) : Text.isBlank c = false := by
  rw [toList_render] at hc
  rcases List.mem_append.mp hc with hstem | hbrackets
  · rcases mem_stem hstem with rfl | ⟨name, hname, hmem⟩
    · decide
    · exact isBlank_of_isWordPart ((h name hname).wordPart c hmem)
  · obtain ⟨i, -, hi⟩ := List.mem_flatMap.mp hbrackets
    rw [toList_bracketed, List.mem_cons, List.mem_append, List.mem_singleton] at hi
    rcases hi with rfl | hdigits | rfl
    · decide
    · exact isBlank_of_mem_decimal hdigits
    · decide

/-- A key that can be told from its text: its owner ends where the text says, its names are in
upper case, no blank stands at an end, and the numbers in it are 64-bit integers. -/
structure Legible (key : SlotKey) : Prop where
  stem_ne_nil : key.stem ≠ []
  bracket_notMem_stem : '[' ∉ key.stem
  dot_notMem_owner : '.' ∉ key.owner.toList
  upper : ∀ name ∈ key.names, Text.upper name = name
  trim : Text.trim key.render.toList = key.render.toList
  inWord : ∀ i ∈ key.indices, Number.InWord i

theorem IsNamed.legible (h : key.IsNamed) (hi : ∀ i ∈ key.indices, Number.InWord i) :
    key.Legible where
  stem_ne_nil := h.stem_ne_nil
  bracket_notMem_stem := h.bracket_notMem_stem
  dot_notMem_owner := by
    have howner : key.owner ∈ key.names := by cases key <;> simp [owner, names]
    exact (h _ howner).notMem (by decide)
  upper name hname := (h name hname).upper
  trim := Text.trim_of_forall fun c => h.isBlank_of_mem_render
  inWord := hi

theorem Legible.parse?_render (h : key.Legible) : parse? key.render = some key := by
  obtain ⟨hstem, hbrackets⟩ :
      key.render.toList.takeWhile (· != '[') = key.stem ∧
        key.render.toList.dropWhile (· != '[') = brackets key.indices := by
    rw [toList_render]
    exact Text.takeWhile_append_mark h.bracket_notMem_stem (head?_brackets _)
  have hfuel : key.indices.length ≤ key.render.toList.length := by
    rw [toList_render, List.length_append]
    exact Nat.le_add_left_of_le (length_le_brackets _)
  have hname : ∀ name ∈ key.names, nameOf name.toList = name := by
    intro name hn
    rw [nameOf, String.ofList_toList, h.upper name hn]
  have hempty : key.stem.isEmpty = false := List.isEmpty_eq_false_iff.mpr h.stem_ne_nil
  unfold parse?
  dsimp only
  rw [h.trim, hstem, hbrackets, indices?_brackets h.inWord hfuel, hempty]
  cases key with
  | plain n | element n _ | cell n _ _ =>
    have hdot : '.' ∉ n.toList := h.dot_notMem_owner
    rw [stem, Text.splitOnce_of_notMem hdot]
    simp_all [indices, names]
  | field o f | fieldElement o f _ =>
    have hdot : '.' ∉ o.toList := h.dot_notMem_owner
    rw [stem, Text.splitOnce_append hdot]
    simp_all [indices, names]

theorem IsNamed.parse?_render (h : key.IsNamed) (hi : ∀ i ∈ key.indices, Number.InWord i) :
    parse? key.render = some key :=
  (h.legible hi).parse?_render

end SlotKey

end ControlLogic
