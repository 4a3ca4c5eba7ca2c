import ControlLogic.FileSystem.Path
import ControlLogic.Proofs.Text.Lowercase

/-!
Paths in normal form. They are the paths of lists of components, normalizing keeps them, and the
directory a path lies in is the path of all components but the last.
-/

set_option autoImplicit false
set_option relaxedAutoImplicit false

namespace ControlLogic.FileSystem

def IsComponent (part : List Char) : Prop :=
  part ≠ [] ∧ ∀ c ∈ part, c ≠ '/' ∧ c ≠ '\\' ∧ Text.IsLower c

def IsNormal (path : String) : Prop :=
  ∃ parts : List (List Char), (∀ part ∈ parts, IsComponent part) ∧
    path = String.ofList (ofComponents parts)

theorem IsComponent.slash_notMem {part : List Char} (h : IsComponent part) : '/' ∉ part := by
  intro hslash
  exact (h.2 _ hslash).1 rfl

theorem ofComponents_of_ne_nil {parts : List (List Char)} (h : parts ≠ []) :
    ofComponents parts = parts.flatMap ('/' :: ·) := by
  cases parts with
  | nil => exact absurd rfl h
  | cons part rest => rfl

/-! ### Splitting at slashes -/

theorem splitAt_ne_nil (mark : Char) (cs : List Char) : splitAt mark cs ≠ [] := by
  cases cs with
  | nil => simp [splitAt]
  | cons c rest =>
    rw [splitAt]
    split
    · simp
    · split <;> simp

theorem splitAt_append_mark {mark : Char} {part : List Char} (rest : List Char)
    (h : mark ∉ part) : splitAt mark (part ++ mark :: rest) = part :: splitAt mark rest := by
  induction part with
  | nil => simp [splitAt]
  | cons c part ih =>
    have hc : ¬ c = mark := fun heq => h (heq ▸ List.mem_cons_self)
    have hpart : mark ∉ part := fun hmem => h (List.mem_cons_of_mem _ hmem)
    rw [List.cons_append, splitAt, if_neg hc, ih hpart]

theorem splitAt_of_notMem {mark : Char} {part : List Char} (h : mark ∉ part) :
    splitAt mark part = [part] := by
  induction part with
  | nil => rfl
  | cons c part ih =>
    have hc : ¬ c = mark := fun heq => h (heq ▸ List.mem_cons_self)
    have hpart : mark ∉ part := fun hmem => h (List.mem_cons_of_mem _ hmem)
    rw [splitAt, if_neg hc, ih hpart]

private theorem mem_of_mem_splitAt {mark : Char} {cs part : List Char}
    (h : part ∈ splitAt mark cs) :
    ∀ c ∈ part, c ≠ mark ∧ c ∈ cs := by
  induction cs generalizing part with
  | nil =>
    simp only [splitAt, List.mem_singleton] at h
    simp [h]
  | cons d rest ih =>
    rw [splitAt] at h
    split at h
    · rcases List.mem_cons.mp h with rfl | h
      · simp
      · intro c hc
        exact ⟨(ih h c hc).1, List.mem_cons_of_mem _ (ih h c hc).2⟩
    · rename_i hd
      split at h
      · rename_i hnil
        exact absurd hnil (splitAt_ne_nil _ _)
      · rename_i first others hsplit
        intro c hc
        rcases List.mem_cons.mp h with rfl | h
        · rcases List.mem_cons.mp hc with rfl | hc
          · exact ⟨hd, List.mem_cons_self⟩
          · have hfirst := ih (hsplit ▸ List.mem_cons_self) c hc
            exact ⟨hfirst.1, List.mem_cons_of_mem _ hfirst.2⟩
        · have hother := ih (hsplit ▸ List.mem_cons_of_mem _ h) c hc
          exact ⟨hother.1, List.mem_cons_of_mem _ hother.2⟩

theorem splitAt_flatMap {part : List Char} {parts : List (List Char)}
    (hpart : '/' ∉ part) (h : ∀ p ∈ parts, '/' ∉ p) :
    splitAt '/' (part ++ parts.flatMap ('/' :: ·)) = part :: parts := by
  induction parts generalizing part with
  | nil => simp [splitAt_of_notMem hpart]
  | cons next rest ih =>
    have hnext : '/' ∉ next := h next List.mem_cons_self
    have hrest : ∀ p ∈ rest, '/' ∉ p := fun p hp => h p (List.mem_cons_of_mem _ hp)
    rw [List.flatMap_cons, List.cons_append, splitAt_append_mark _ hpart, ih hnext hrest]

/-! ### Normal form -/

theorem components_ofComponents {parts : List (List Char)} (h : ∀ part ∈ parts, IsComponent part) :
    components (ofComponents parts) = parts := by
  have hkeep : parts.filter (!·.isEmpty) = parts := by
    rw [List.filter_eq_self]
    intro part hpart
    simpa using (h part hpart).1
  cases parts with
  | nil => rfl
  | cons part rest =>
    have hsplit : splitAt '/' ([] ++ (part :: rest).flatMap ('/' :: ·)) = [] :: part :: rest :=
      splitAt_flatMap (by simp) fun p hp => (h p hp).slash_notMem
    rw [List.nil_append] at hsplit
    rw [components, ofComponents_of_ne_nil (by simp), hsplit]
    simpa using hkeep

private theorem plain_of_mem_lowercase {path : List Char} {c : Char}
    (h : c ∈ Text.lowercase (path.map fun c => if c = '\\' then '/' else c)) :
    c ≠ '\\' ∧ Text.IsLower c := by
  refine ⟨?_, Text.isLower_of_mem_lowercase h⟩
  rintro rfl
  obtain ⟨d, -, hd⟩ := List.mem_map.mp (Text.mem_of_mem_lowercase h (by decide))
  split at hd
  · exact absurd hd (by decide)
  · contradiction

theorem isNormal_normalize (path : String) : IsNormal (normalize path) := by
  refine ⟨_, fun part hpart => ?_, rfl⟩
  obtain ⟨hmem, hne⟩ := List.mem_filter.mp hpart
  refine ⟨by simpa using hne, fun c hc => ?_⟩
  have hchar := mem_of_mem_splitAt hmem c hc
  exact ⟨hchar.1, plain_of_mem_lowercase hchar.2⟩

theorem slash_isLower : Text.IsLower '/' :=
  (Text.toLower_ascii 47 (by decide)).1

theorem plain_of_mem_ofComponents {parts : List (List Char)} {c : Char}
    (h : ∀ part ∈ parts, IsComponent part) (hc : c ∈ ofComponents parts) :
    c ≠ '\\' ∧ Text.IsLower c := by
  have hslash : '/' ≠ '\\' ∧ Text.IsLower '/' := ⟨by decide, slash_isLower⟩
  cases parts with
  | nil =>
    obtain rfl := List.mem_singleton.mp hc
    exact hslash
  | cons part rest =>
    rw [ofComponents_of_ne_nil (by simp)] at hc
    obtain ⟨p, hp, hc⟩ := List.mem_flatMap.mp hc
    rcases List.mem_cons.mp hc with rfl | hc
    · exact hslash
    · exact ((h p hp).2 c hc).2

theorem normalize_of_isNormal {path : String} (h : IsNormal path) : normalize path = path := by
  obtain ⟨parts, hparts, rfl⟩ := h
  have hplain := fun c => plain_of_mem_ofComponents (c := c) hparts
  have hslashed : (ofComponents parts).map (fun c => if c = '\\' then '/' else c) =
      ofComponents parts := by
    refine (List.map_congr_left fun c hc => ?_).trans (List.map_id _)
    exact if_neg (hplain c hc).1
  have hlower := Text.lowercase_of_isLower fun c hc => (hplain c hc).2
  simp only [normalize, String.toList_ofList, hslashed, hlower, components_ofComponents hparts]

theorem isNormal_iff {path : String} : IsNormal path ↔ normalize path = path :=
  ⟨normalize_of_isNormal, fun h => h ▸ isNormal_normalize path⟩

theorem isNormal_root : IsNormal root :=
  ⟨[], by simp, rfl⟩

/-! ### The directory a path lies in -/

private theorem splitLast?_of_notMem {cs : List Char} (h : '/' ∉ cs) : splitLast? cs = none := by
  induction cs with
  | nil => rfl
  | cons c rest ih =>
    have hc : ¬ c = '/' := fun heq => h (heq ▸ List.mem_cons_self)
    have hrest : '/' ∉ rest := fun hmem => h (List.mem_cons_of_mem _ hmem)
    simp only [splitLast?, ih hrest, if_neg hc]

private theorem splitLast?_append_slash (before : List Char) {after : List Char} (h : '/' ∉ after) :
    splitLast? (before ++ '/' :: after) = some (before, after) := by
  induction before with
  | nil => simp [splitLast?, splitLast?_of_notMem h]
  | cons c before ih => simp [splitLast?, ih]

theorem ofComponents_append_last (parts : List (List Char)) (last : List Char) :
    ofComponents (parts ++ [last]) = parts.flatMap ('/' :: ·) ++ '/' :: last := by
  rw [ofComponents_of_ne_nil (by simp)]
  simp

theorem parent?_ofComponents (parts : List (List Char)) {last : List Char}
    (hlast : IsComponent last) :
    parent? (String.ofList (ofComponents (parts ++ [last]))) =
      some (String.ofList (ofComponents parts)) := by
  have hroot : String.ofList (ofComponents (parts ++ [last])) ≠ root := by
    intro heq
    have hchars : ofComponents (parts ++ [last]) = ['/'] := by
      simpa [root] using congrArg String.toList heq
    have hlength := congrArg List.length hchars
    rw [ofComponents_append_last] at hlength
    simp only [List.length_append, List.length_cons, List.length_nil] at hlength
    have hpos := List.length_pos_iff.mpr hlast.1
    omega
  rw [parent?, if_neg hroot, String.toList_ofList, ofComponents_append_last,
    splitLast?_append_slash _ hlast.slash_notMem]
  cases parts with
  | nil => rfl
  | cons part rest => rfl

theorem fileName_ofComponents (parts : List (List Char)) {last : List Char}
    (hlast : IsComponent last) :
    fileName (String.ofList (ofComponents (parts ++ [last]))) = String.ofList last := by
  unfold fileName splitPath
  rw [String.toList_ofList, ofComponents_append_last,
    splitLast?_append_slash _ hlast.slash_notMem]
  cases parts with
  | nil => rfl
  | cons part rest => rfl

theorem IsNormal.exists_last {path : String} (h : IsNormal path) (hroot : path ≠ root) :
    ∃ parts last, (∀ part ∈ parts, IsComponent part) ∧ IsComponent last ∧
      path = String.ofList (ofComponents (parts ++ [last])) := by
  obtain ⟨parts, hparts, rfl⟩ := h
  rcases List.eq_nil_or_concat parts with rfl | ⟨before, last, rfl⟩
  · exact absurd rfl hroot
  rw [List.concat_eq_append] at hparts ⊢
  refine ⟨before, last, fun part hpart => ?_, hparts last (by simp), rfl⟩
  exact hparts part (by simp [hpart])

theorem IsNormal.parent? {path : String} (h : IsNormal path) (hroot : path ≠ root) :
    ∃ directory, parent? path = some directory ∧ IsNormal directory ∧
      directory.length < path.length := by
  obtain ⟨before, last, hbefore, hlast, rfl⟩ := h.exists_last hroot
  refine ⟨_, parent?_ofComponents before hlast, ⟨before, hbefore, rfl⟩, ?_⟩
  have hpos := List.length_pos_iff.mpr hlast.1
  rw [String.length_ofList, String.length_ofList, ofComponents_append_last]
  cases before with
  | nil => simp [ofComponents]; omega
  | cons part rest => simp [ofComponents]

theorem parent?_root : parent? root = none :=
  if_pos rfl

end ControlLogic.FileSystem
