import ControlLogic.Proofs.Slot.Key

/-!
Texts that are read as keys. Whatever a text looks like, the key it is read as can be told from its
own text, so a key that came from a text is read back from the text it is written as.
-/

set_option autoImplicit false
set_option relaxedAutoImplicit false

namespace ControlLogic

namespace Text

private theorem isBlank_of_mem_head?_trimLeft {cs : List Char} {c : Char}
    (h : c ∈ (trimLeft cs).head?) :
    isBlank c = false := by
  have hfirst := List.head?_dropWhile_not isBlank cs
  rw [show cs.dropWhile isBlank = trimLeft cs from rfl, Option.mem_def.mp h] at hfirst
  exact hfirst

private theorem mem_getLast?_of_trimLeft {cs : List Char} {c : Char}
    (h : c ∈ (trimLeft cs).getLast?) :
    c ∈ cs.getLast? := by
  obtain ⟨blanks, hcs⟩ : trimLeft cs <:+ cs := List.dropWhile_suffix _
  rw [← hcs, List.getLast?_append, Option.mem_def.mp h, Option.some_or]
  exact rfl

private theorem isBlank_of_mem_head?_trim {cs : List Char} {c : Char} (h : c ∈ (trim cs).head?) :
    isBlank c = false := by
  rw [trim, List.head?_reverse] at h
  have hlast := mem_getLast?_of_trimLeft h
  rw [List.getLast?_reverse] at hlast
  exact isBlank_of_mem_head?_trimLeft hlast

private theorem isBlank_of_mem_getLast?_trim {cs : List Char} {c : Char}
    (h : c ∈ (trim cs).getLast?) :
    isBlank c = false := by
  rw [trim, List.getLast?_reverse] at h
  exact isBlank_of_mem_head?_trimLeft h

private theorem splitOnce_spec (mark : Char) (cs : List Char) :
    match splitOnce mark cs with
    | none => mark ∉ cs
    | some (front, back) => cs = front ++ mark :: back ∧ mark ∉ front := by
  have hfront : mark ∉ cs.takeWhile (· != mark) := fun h => by
    simpa using List.mem_takeWhile_imp h
  have hcs := List.takeWhile_append_dropWhile (p := (· != mark)) (l := cs)
  have hmark := List.head?_dropWhile_not (· != mark) cs
  unfold splitOnce
  cases hback : cs.dropWhile (· != mark) with
  | nil =>
    rw [hback, List.append_nil] at hcs
    exact hcs ▸ hfront
  | cons c back =>
    rw [hback] at hcs hmark
    obtain rfl : c = mark := by simpa using hmark
    exact ⟨hcs.symm, hfront⟩

end Text

namespace SlotKey

private theorem toList_nameOf (cs : List Char) : (nameOf cs).toList = cs.map Char.toUpper := by
  rw [nameOf, Text.toList_upper, String.toList_ofList]

private theorem upper_nameOf (cs : List Char) : Text.upper (nameOf cs) = nameOf cs :=
  Text.upper_upper _

private theorem inWord_of_indices? {fuel : Nat} {cs : List Char} {is : List Int}
    (h : indices? fuel cs = some is) : ∀ i ∈ is, Number.InWord i := by
  fun_induction indices? fuel cs generalizing is with
  | case1 => simp_all
  | case2 => cases h
  | case3 fuel rest inner c after =>
    rename_i ih
    obtain ⟨i, hi, his⟩ := Option.bind_eq_some_iff.mp h
    obtain ⟨js, hjs, hcons⟩ := Option.bind_eq_some_iff.mp his
    obtain rfl := Option.some.inj hcons
    have hword : Number.InWord i := by
      simpa using (Option.filter_eq_some_iff.mp hi).2
    exact List.forall_mem_cons.mpr ⟨hword, ih hjs⟩
  | case4 => cases h

private theorem eq_nil_of_indices? {fuel : Nat} {cs : List Char} (h : indices? fuel cs = some []) :
    cs = [] := by
  fun_induction indices? fuel cs with
  | case1 => rfl
  | case2 | case4 => cases h
  | case3 =>
    obtain ⟨i, -, his⟩ := Option.bind_eq_some_iff.mp h
    obtain ⟨js, -, hcons⟩ := Option.bind_eq_some_iff.mp his
    cases hcons

/-- What a key takes from the text it is read from: the stem before the brackets in upper case, cut
for the owner at the first dot, and the numbers in brackets. -/
structure ReadFrom (key : SlotKey) (cs : List Char) : Prop where
  head_ne_nil : cs.takeWhile (· != '[') ≠ []
  stem_eq : key.stem = (cs.takeWhile (· != '[')).map Char.toUpper
  dot_notMem_owner : '.' ∉ key.owner.toList
  upper : ∀ name ∈ key.names, Text.upper name = name
  indices_eq : indices? cs.length (cs.dropWhile (· != '[')) = some key.indices

private theorem readFrom_of_parse? {text : String} {key : SlotKey} (h : parse? text = some key) :
    key.ReadFrom (Text.trim text.toList) := by
  unfold parse? at h
  dsimp only at h
  generalize Text.trim text.toList = cs at h ⊢
  have hcut := Text.splitOnce_spec '.' (cs.takeWhile (· != '['))
  split at h
  next => cases h
  next hhead =>
    have hhead : cs.takeWhile (· != '[') ≠ [] := fun hnil => hhead (by rw [hnil]; rfl)
    have hdot {front : List Char} (hfront : '.' ∉ front) : '.' ∉ (nameOf front).toList := by
      rw [toList_nameOf]
      rintro hmem
      obtain ⟨c, hc, hupper⟩ := List.mem_map.mp hmem
      exact hfront ((Text.toUpper_eq_iff rfl).mp hupper ▸ hc)
    split at h
    case h_6 => cases h
    all_goals
      rename_i hsplit hindices
      rw [hsplit] at hcut
      obtain rfl := Option.some.inj h
    -- a name alone, or followed by one or two numbers
    iterate 3
      exact ⟨hhead, by rw [stem, toList_nameOf], hdot hcut, by simp [names, upper_nameOf], hindices⟩
    -- an owner and a field, alone or followed by a number
    all_goals
      obtain ⟨hfield, howner⟩ := hcut
      refine ⟨hhead, ?_, hdot howner, by simp [names, upper_nameOf], hindices⟩
      rw [stem, toList_nameOf, toList_nameOf, hfield, List.map_append, List.map_cons]
      rfl

theorem ReadFrom.stem_ne_nil {key : SlotKey} {cs : List Char} (h : key.ReadFrom cs) :
    key.stem ≠ [] := by
  rw [h.stem_eq, Ne, List.map_eq_nil_iff]
  exact h.head_ne_nil

private theorem getLast?_brackets {is : List Int} (h : is ≠ []) :
    (brackets is).getLast? = some ']' := by
  obtain ⟨is, i, rfl⟩ := (List.eq_nil_or_concat is).resolve_left h
  rw [List.concat_eq_append, brackets, List.flatMap_append, List.flatMap_singleton,
    toList_bracketed]
  simp [List.getLast?_append, List.getLast?_cons]

private theorem ReadFrom.trim_render {key : SlotKey} {text : List Char}
    (h : key.ReadFrom (Text.trim text)) : Text.trim key.render.toList = key.render.toList := by
  have hblank {o : Option Char} {c : Char} (hc : c ∈ o.map Char.toUpper)
      (ho : ∀ d ∈ o, Text.isBlank d = false) : Text.isBlank c = false := by
    obtain ⟨d, hd, rfl⟩ := Option.map_eq_some_iff.mp hc
    rw [Text.isBlank_toUpper, ho d hd]
  rw [toList_render]
  apply Text.trim_of_ends
  · intro c hc
    rw [List.head?_append, List.head?_eq_some_head h.stem_ne_nil, Option.some_or,
      ← List.head?_eq_some_head, h.stem_eq, List.head?_map, List.head?_takeWhile] at hc
    refine hblank hc fun d hd => ?_
    have hmem : d ∈ (Text.trim text).head? := (Option.filter_eq_some_iff.mp hd).1
    exact Text.isBlank_of_mem_head?_trim hmem
  · intro c hc
    by_cases hnone : key.indices = []
    · have hdrop := eq_nil_of_indices? (hnone ▸ h.indices_eq)
      have hwhole := List.takeWhile_append_dropWhile (p := (· != '[')) (l := Text.trim text)
      rw [hdrop, List.append_nil] at hwhole
      rw [hnone, brackets, List.flatMap_nil, List.append_nil, h.stem_eq, hwhole,
        List.getLast?_map] at hc
      exact hblank hc fun d hd => Text.isBlank_of_mem_getLast?_trim hd
    · rw [List.getLast?_append, getLast?_brackets hnone, Option.some_or] at hc
      obtain rfl := Option.some.inj hc
      decide

theorem ReadFrom.legible {key : SlotKey} {text : List Char} (h : key.ReadFrom (Text.trim text)) :
    key.Legible where
  stem_ne_nil := h.stem_ne_nil
  bracket_notMem_stem := by
    rw [h.stem_eq]
    intro hmem
    obtain ⟨c, hc, hupper⟩ := List.mem_map.mp hmem
    obtain rfl := (Text.toUpper_eq_iff rfl).mp hupper
    simpa using List.mem_takeWhile_imp hc
  dot_notMem_owner := h.dot_notMem_owner
  upper := h.upper
  trim := h.trim_render
  inWord := inWord_of_indices? h.indices_eq

/-- The text of a key is read as the key, both for the keys of a program and for whatever a text is
read as. -/
theorem text_of_key_is_read_as_key :
    (∀ key : SlotKey, key.IsNamed → (∀ i ∈ key.indices, Number.InWord i) →
      parse? key.render = some key) ∧
    ∀ (text : String) (key : SlotKey), parse? text = some key → parse? key.render = some key :=
  ⟨fun _ hnamed hi => hnamed.parse?_render hi,
    fun _ _ h => (readFrom_of_parse? h).legible.parse?_render⟩

/-- The least index there is, and a text with blanks in odd places and a second dot. -/
theorem extreme_key_and_odd_text :
    let extreme := fieldElement "TANK_1" "$LEVEL" (-9223372036854775808)
    let odd := fieldElement "A B " "C.D" (-3)
    (extreme.IsNamed ∧ (∀ i ∈ extreme.indices, Number.InWord i) ∧
        parse? extreme.render = some extreme) ∧
      parse? " a b .c.d[ -3 ]\t" = some odd ∧ odd.render = "A B .C.D[-3]" ∧
        parse? odd.render = some odd := by
  intro extreme odd
  have hnamed : extreme.IsNamed := by decide +kernel
  have hword : ∀ i ∈ extreme.indices, Number.InWord i := by decide
  have hodd : parse? " a b .c.d[ -3 ]\t" = some odd := by decide +kernel
  exact ⟨⟨hnamed, hword, text_of_key_is_read_as_key.1 extreme hnamed hword⟩, hodd,
    by decide +kernel, text_of_key_is_read_as_key.2 _ odd hodd⟩

end SlotKey

end ControlLogic
