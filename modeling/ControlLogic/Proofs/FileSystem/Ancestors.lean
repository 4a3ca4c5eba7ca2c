import ControlLogic.Proofs.FileSystem.Tree

/-!
What makes two spellings the same path, and the paths above a path. A path in normal form is made
of the names between its slashes, and the directories above it lose one name after the other down to
the root, so that making directories upwards comes to an end.
-/

set_option autoImplicit false
set_option relaxedAutoImplicit false

namespace ControlLogic.FileSystem

/-! ### Slashes -/

private theorem splitAt_append (mark : Char) (front back : List Char) :
    splitAt mark (front ++ mark :: back) = splitAt mark front ++ splitAt mark back := by
  induction front with
  | nil => simp [splitAt]
  | cons c front ih =>
    rw [List.cons_append, splitAt, splitAt, ih]
    split
    · rfl
    · cases hfront : splitAt mark front with
      | nil => exact absurd hfront (splitAt_ne_nil mark front)
      | cons part others => rfl

private theorem splitAt_ofComponents {parts : List (List Char)}
    (h : ∀ part ∈ parts, IsComponent part)
    (hne : parts ≠ []) : splitAt '/' (ofComponents parts) = [] :: parts := by
  rw [ofComponents_of_ne_nil hne]
  exact splitAt_flatMap List.not_mem_nil fun p hp => (h p hp).slash_notMem

private theorem IsNormal.nil_notMem_behind {path : String} (h : IsNormal path) (hroot : path ≠ root)
    {front back : List Char} (heq : path.toList = front ++ '/' :: back) :
    [] ∉ splitAt '/' back := by
  obtain ⟨parts, hparts, rfl⟩ := h
  have hne : parts ≠ [] := by
    rintro rfl
    exact hroot rfl
  rw [String.toList_ofList] at heq
  have hsplit := splitAt_ofComponents hparts hne
  rw [heq, splitAt_append] at hsplit
  intro hnil
  cases hfront : splitAt '/' front with
  | nil => exact splitAt_ne_nil '/' front hfront
  | cons first others =>
    rw [hfront, List.cons_append] at hsplit
    have hmem : [] ∈ others ++ splitAt '/' back := List.mem_append_right _ hnil
    rw [(List.cons.inj hsplit).2] at hmem
    exact (hparts _ hmem).1 rfl

theorem IsNormal.head? {path : String} (h : IsNormal path) : path.toList.head? = some '/' := by
  obtain ⟨parts, -, rfl⟩ := h
  rw [String.toList_ofList]
  cases parts <;> rfl

private theorem IsNormal.backslash_notMem {path : String} (h : IsNormal path) :
    '\\' ∉ path.toList := by
  obtain ⟨parts, hparts, rfl⟩ := h
  rw [String.toList_ofList]
  intro hmem
  exact (plain_of_mem_ofComponents hparts hmem).1 rfl

private theorem toList_root : root.toList = ['/'] :=
  rfl

private theorem IsNormal.not_double_slash {path : String} (h : IsNormal path) :
    ¬ ['/', '/'] <:+: path.toList := by
  rintro ⟨front, back, heq⟩
  by_cases hroot : path = root
  · have hlength := congrArg List.length heq
    simp only [hroot, toList_root, List.length_append, List.length_cons, List.length_nil] at hlength
    omega
  · have hslash : path.toList = front ++ '/' :: '/' :: back := by simp [← heq]
    exact h.nil_notMem_behind hroot hslash (by simp [splitAt])

private theorem IsNormal.eq_root_of_getLast? {path : String} (h : IsNormal path)
    (hlast : path.toList.getLast? = some '/') : path = root := by
  by_contra hroot
  obtain ⟨front, heq⟩ := List.getLast?_eq_some_iff.mp hlast
  exact h.nil_notMem_behind hroot heq (by simp [splitAt])

/-! ### Spellings of a path -/

/-- The names in a path: what stands between slashes of either direction, with ASCII letters in
upper case. -/
def namesOf (path : String) : List (List Char) :=
  components (path.toList.map fun c => if c = '\\' then '/' else c.toUpper)

private theorem isBarrier_slash : Text.IsBarrier '/' where
  isLower := slash_isLower
  notIgnorable := by
    rw [Text.inRanges_eq]
    decide +kernel
  notCased := by
    rw [Text.inRanges_eq]
    decide +kernel

private theorem splitAt_lowercase (cs : List Char) :
    splitAt '/' (Text.lowercase cs) = (splitAt '/' cs).map Text.lowercase := by
  induction hlength : cs.length using Nat.strong_induction_on generalizing cs with
  | _ n ih =>
    have hkeep {part : List Char} (h : '/' ∉ part) : '/' ∉ Text.lowercase part :=
      fun hmem => h (Text.mem_of_mem_lowercase hmem (by decide))
    by_cases hslash : '/' ∈ cs
    · obtain ⟨part, rest, rfl, hpart⟩ := List.eq_append_cons_of_mem hslash
      have hshorter : rest.length < n := by
        rw [← hlength, List.length_append, List.length_cons]
        omega
      rw [isBarrier_slash.lowercase_append, splitAt_append_mark _ (hkeep hpart),
        splitAt_append_mark _ hpart, List.map_cons, ih _ hshorter rest rfl]
    · rw [splitAt_of_notMem (hkeep hslash), splitAt_of_notMem hslash, List.map_singleton]

private theorem components_lowercase (cs : List Char) :
    components (Text.lowercase cs) = (components cs).map Text.lowercase := by
  rw [components, splitAt_lowercase, List.filter_map, components]
  refine congrArg (List.map _) (List.filter_congr fun part _ => ?_)
  rw [Bool.eq_iff_iff, Bool.eq_iff_iff]
  simp [Text.lowercase_eq_nil_iff]

private theorem normalize_eq (path : String) :
    normalize path = String.ofList (ofComponents ((namesOf path).map Text.lowercase)) := by
  have hupper : (path.toList.map fun c => if c = '\\' then '/' else c).map Char.toUpper =
      path.toList.map fun c => if c = '\\' then '/' else c.toUpper := by
    rw [List.map_map]
    refine List.map_congr_left fun c _ => ?_
    dsimp only [Function.comp]
    split <;> rfl
  rw [namesOf, ← components_lowercase, ← hupper, Text.lowercase_map_toUpper]
  rfl

/-! ### The paths above a path -/

def depth (path : String) : Nat :=
  (components path.toList).length

def ancestor? (path : String) : Nat → Option String
  | 0 => some path
  | i + 1 => (ancestor? path i).bind parent?

private theorem depth_ofComponents {parts : List (List Char)}
    (h : ∀ part ∈ parts, IsComponent part) :
    depth (String.ofList (ofComponents parts)) = parts.length := by
  rw [depth, String.toList_ofList, components_ofComponents h]

private theorem IsNormal.depth_eq_zero_iff {path : String} (h : IsNormal path) :
    depth path = 0 ↔ path = root := by
  obtain ⟨parts, hparts, rfl⟩ := h
  rw [depth_ofComponents hparts, List.length_eq_zero_iff]
  constructor
  · rintro rfl
    rfl
  · intro hroot
    have hcomponents := components_ofComponents hparts
    rw [← String.toList_ofList (l := ofComponents parts), hroot] at hcomponents
    exact hcomponents.symm

private theorem IsNormal.depth_parent? {path d : String} (h : IsNormal path)
    (hd : FileSystem.parent? path = some d) : depth path = depth d + 1 := by
  have hroot : path ≠ root := by
    rintro rfl
    rw [parent?_root] at hd
    cases hd
  obtain ⟨parts, last, hparts, hlast, rfl⟩ := h.exists_last hroot
  have hall : ∀ part ∈ parts ++ [last], IsComponent part := by
    intro part hpart
    rcases List.mem_append.mp hpart with hpart | hpart
    · exact hparts part hpart
    · exact List.mem_singleton.mp hpart ▸ hlast
  obtain rfl := Option.some.inj (hd.symm.trans (parent?_ofComponents parts hlast))
  rw [depth_ofComponents hall, depth_ofComponents hparts, List.length_append, List.length_singleton]

private theorem IsNormal.exists_ancestor? {path : String} (h : IsNormal path) {i : Nat}
    (hi : i ≤ depth path) :
    ∃ q, ancestor? path i = some q ∧ IsNormal q ∧ depth q + i = depth path := by
  induction i with
  | zero => exact ⟨path, rfl, h, rfl⟩
  | succ i ih =>
    obtain ⟨q, hq, hnormal, hdepth⟩ := ih (Nat.le_of_succ_le hi)
    have hroot : q ≠ root := by
      rw [Ne, ← hnormal.depth_eq_zero_iff]
      omega
    obtain ⟨d, hd, hdnormal, -⟩ := hnormal.parent? hroot
    have hone := hnormal.depth_parent? hd
    refine ⟨d, ?_, hdnormal, by omega⟩
    rw [ancestor?, hq, Option.bind_some, hd]

private theorem IsNormal.ancestor?_eq_none {path : String} (h : IsNormal path) {i : Nat}
    (hi : depth path < i) : ancestor? path i = none := by
  induction hi with
  | refl =>
    obtain ⟨q, hq, hnormal, hdepth⟩ := h.exists_ancestor? (Nat.le_refl _)
    have hroot : q = root := hnormal.depth_eq_zero_iff.mp (by omega)
    rw [ancestor?, hq, Option.bind_some, hroot, parent?_root]
  | step _ ih => rw [ancestor?, ih, Option.bind_none]

private theorem IsNormal.isNormal_of_ancestor? {path q : String} {i : Nat} (h : IsNormal path)
    (hq : ancestor? path i = some q) : IsNormal q := by
  by_cases hi : i ≤ depth path
  · obtain ⟨q', hq', hnormal, -⟩ := h.exists_ancestor? hi
    obtain rfl := Option.some.inj (hq.symm.trans hq')
    exact hnormal
  · rw [h.ancestor?_eq_none (by omega)] at hq
    cases hq

private theorem IsNormal.depth_le_length {path : String} (h : IsNormal path) :
    depth path ≤ path.length := by
  induction hlength : path.length using Nat.strong_induction_on generalizing path with
  | _ n ih =>
    by_cases hroot : path = root
    · rw [h.depth_eq_zero_iff.mpr hroot]
      exact Nat.zero_le n
    · obtain ⟨d, hd, hnormal, hshorter⟩ := h.parent? hroot
      have hdepth := ih d.length (by omega) hnormal rfl
      have hone := h.depth_parent? hd
      omega

/-! ### Making directories -/

/-- What is missing upwards from a path is found within as many steps as the path has names, and one
more for the root. -/
theorem IsNormal.missingFrom_eq (fs : FileSystem) {path : String} (h : IsNormal path) {fuel : Nat}
    (hfuel : depth path < fuel) :
    fs.missingFrom fuel path = fs.missingFrom (depth path + 1) path := by
  induction hdepth : depth path generalizing path fuel with
  | zero =>
    obtain ⟨fuel, rfl⟩ := Nat.exists_eq_succ_of_ne_zero (Nat.ne_of_gt (Nat.zero_lt_of_lt hfuel))
    have hroot := h.depth_eq_zero_iff.mp hdepth
    rw [missingFrom, missingFrom, hroot, parent?_root, Option.map_none, Option.map_none]
  | succ n ih =>
    obtain ⟨fuel, rfl⟩ := Nat.exists_eq_succ_of_ne_zero (Nat.ne_of_gt (Nat.zero_lt_of_lt hfuel))
    have hroot : path ≠ root := by
      rw [Ne, ← h.depth_eq_zero_iff]
      omega
    obtain ⟨d, hd, hnormal, -⟩ := h.parent? hroot
    have hone := h.depth_parent? hd
    have hnext : fs.missingFrom fuel d = fs.missingFrom (n + 1) d :=
      ih hnormal (by omega) (by omega)
    rw [missingFrom, missingFrom, hd, Option.map_some, Option.map_some, hnext]

/-- The root has an entry, and so has what any entry lies in. -/
structure Grounded (fs : FileSystem) : Prop where
  root : (fs.entryAt? root).isSome = true
  parent : ∀ q d, (fs.entryAt? q).isSome = true → parent? q = some d →
    (fs.entryAt? d).isSome = true

private theorem Rooted.grounded {fs : FileSystem} (h : fs.Rooted) (hnested : fs.Nested) :
    fs.Grounded := by
  refine ⟨h.isSome_root, fun q d hq hd => ?_⟩
  obtain ⟨entry, hentry⟩ := Option.isSome_iff_exists.mp hq
  obtain ⟨entry', hentry', -⟩ := hnested.isDirectoryAt hentry hd
  rw [hentry']
  rfl

namespace Grounded

variable {fs : FileSystem} (h : fs.Grounded)

include h

private theorem isSome_ancestor? {path q : String} {i : Nat}
    (hpath : (fs.entryAt? path).isSome = true)
    (hq : ancestor? path i = some q) : (fs.entryAt? q).isSome = true := by
  induction i generalizing q with
  | zero => exact Option.some.inj hq ▸ hpath
  | succ i ih =>
    obtain ⟨d, hd, hparent⟩ := Option.bind_eq_some_iff.mp hq
    exact h.parent d q (ih hd) hparent

private theorem entryAt?_ensureDirectories_of_some {path q : String} {entry : Entry}
    (hnormal : IsNormal path) (hq : fs.entryAt? q = some entry) :
    (fs.ensureDirectories path).entryAt? q = some entry := by
  rw [entryAt?_ensureDirectories, if_neg, hq]
  intro hmem
  obtain ⟨hnone, -⟩ := mem_missingFrom h.root hnormal (Nat.lt_succ_self _) hmem
  rw [hq] at hnone
  cases hnone

private theorem isSome_ensureDirectories_of_isSome {path q : String} (hnormal : IsNormal path)
    (hq : (fs.entryAt? q).isSome = true) :
    ((fs.ensureDirectories path).entryAt? q).isSome = true := by
  obtain ⟨entry, hentry⟩ := Option.isSome_iff_exists.mp hq
  rw [h.entryAt?_ensureDirectories_of_some hnormal hentry]
  rfl

theorem ensureDirectories {path : String} (hnormal : IsNormal path) :
    (fs.ensureDirectories path).Grounded := by
  refine ⟨h.isSome_ensureDirectories_of_isSome hnormal h.root, fun q d hq hd => ?_⟩
  rw [entryAt?_ensureDirectories] at hq
  split at hq
  next hmem =>
    obtain ⟨-, -, -, -, d', hd', hcovered⟩ :=
      mem_missingFrom h.root hnormal (Nat.lt_succ_self _) hmem
    obtain rfl := Option.some.inj (hd.symm.trans hd')
    rcases hcovered with hmissing | hsome
    · rw [entryAt?_ensureDirectories, if_pos hmissing]
      rfl
    · exact h.isSome_ensureDirectories_of_isSome hnormal hsome
  next => exact h.isSome_ensureDirectories_of_isSome hnormal (h.parent q d hq hd)

end Grounded

/-- The normal form of a path, which only its names decide, the paths above it down to the root, and
what is there after directories were made upwards from it. -/
theorem normal_form_and_paths_above (text : String) :
    let path := normalize text
    (path.toList.head? = some '/' ∧ '\\' ∉ path.toList ∧ ¬ ['/', '/'] <:+: path.toList ∧
      (path.toList.getLast? = some '/' → path = root)) ∧
    normalize path = path ∧
    (∀ other, namesOf text = namesOf other → normalize other = path) ∧
    (∀ i ≤ depth path, ∃ q, ancestor? path i = some q ∧ normalize q = q ∧
      depth q + i = depth path ∧ (q = root ↔ i = depth path)) ∧
    (∀ i, depth path < i → ancestor? path i = none) ∧
    (∀ i q d, ancestor? path i = some q → parent? q = some d → d.length < q.length) ∧
    ∀ fs : FileSystem,
      (∀ fuel, depth path < fuel →
        fs.missingFrom fuel path = fs.missingFrom (path.length + 1) path) ∧
      (fs.Grounded →
        (∀ i q, ancestor? path i = some q →
          ((fs.ensureDirectories path).entryAt? q).isSome = true) ∧
        (∀ q entry, fs.entryAt? q = some entry →
          (fs.ensureDirectories path).entryAt? q = some entry) ∧
        (fs.ensureDirectories path).Grounded) := by
  intro path
  have h : IsNormal path := isNormal_normalize text
  refine ⟨⟨h.head?, h.backslash_notMem, h.not_double_slash, h.eq_root_of_getLast?⟩,
    normalize_of_isNormal h, ?names, ?above, fun i => h.ancestor?_eq_none, ?shorter,
    fun fs => ⟨?ends, ?made⟩⟩
  case names =>
    intro other hnames
    rw [normalize_eq, ← hnames, ← normalize_eq]
  case above =>
    intro i hi
    obtain ⟨q, hq, hnormal, hdepth⟩ := h.exists_ancestor? hi
    refine ⟨q, hq, normalize_of_isNormal hnormal, hdepth, ?_⟩
    rw [← hnormal.depth_eq_zero_iff]
    omega
  case shorter =>
    intro i q d hq hd
    have hnormal := h.isNormal_of_ancestor? hq
    have hroot : q ≠ root := by
      rintro rfl
      rw [parent?_root] at hd
      cases hd
    obtain ⟨d', hd', -, hshorter⟩ := hnormal.parent? hroot
    obtain rfl := Option.some.inj (hd.symm.trans hd')
    exact hshorter
  case ends =>
    intro fuel hfuel
    rw [h.missingFrom_eq fs hfuel, h.missingFrom_eq fs (Nat.lt_succ_of_le h.depth_le_length)]
  case made =>
    intro hgrounded
    have hafter := hgrounded.ensureDirectories h
    exact ⟨fun i q => hafter.isSome_ancestor? (isSome_ensureDirectories fs path),
      fun q entry => hgrounded.entryAt?_ensureDirectories_of_some h, hafter⟩

private theorem lowercase_final_sigma : Text.lowercase "ΑΣ".toList = "ας".toList := by
  have hletters : "ΑΣ".toList = ['Α', 'Σ'] := by decide
  have halpha : Text.lowerChar 'Α' = ['α'] := by decide +kernel
  have hkept : Text.inRanges Text.ignorableRanges 'Α' = false := by
    rw [Text.inRanges_eq]
    decide +kernel
  have hcased : Text.startsCased ['Α'] = true := by
    rw [Text.startsCased, List.dropWhile_cons_of_neg (by simp [hkept])]
    change Text.inRanges Text.casedRanges 'Α' = true
    rw [Text.inRanges_eq]
    decide +kernel
  rw [hletters, Text.lowercase, Text.lowerFrom, if_neg (by decide), halpha, Text.lowerFrom, hcased]
  decide +kernel

/-- Two spellings of a path, with a sigma at the end of a name, below the directories of a new file
system. -/
theorem two_spellings_of_a_path :
    let path := normalize "\\USER//Log/ΑΣ/"
    let fs : FileSystem := {}
    (namesOf "\\USER//Log/ΑΣ/" = namesOf "user\\log\\\\ΑΣ" ∧
      normalize "user\\log\\\\ΑΣ" = path ∧ path = "/user/log/ας") ∧
    (depth path = 3 ∧ ancestor? path 1 = some "/user/log" ∧ ancestor? path 3 = some root ∧
      ancestor? path 4 = none) ∧
    fs.Grounded ∧ fs.entryAt? "/user/log" = none ∧
      ((fs.ensureDirectories path).entryAt? "/user/log").isSome = true := by
  intro path fs
  have hnames : namesOf "\\USER//Log/ΑΣ/" = namesOf "user\\log\\\\ΑΣ" := by decide +kernel
  have hpath : path = "/user/log/ας" := by
    have hparts : namesOf "\\USER//Log/ΑΣ/" = ["USER".toList, "LOG".toList, "ΑΣ".toList] := by
      decide +kernel
    change normalize _ = _
    rw [normalize_eq, hparts, List.map_cons, List.map_cons, List.map_singleton,
      lowercase_final_sigma]
    decide +kernel
  have hdepth : depth path = 3 := by
    rw [hpath]
    decide +kernel
  have hlog : ancestor? path 1 = some "/user/log" := by
    rw [hpath]
    decide +kernel
  have hgrounded : fs.Grounded := rooted_seed.grounded nested_seed
  obtain ⟨-, -, hsame, habove, hnone, -, hmade⟩ :=
    normal_form_and_paths_above "\\USER//Log/ΑΣ/"
  refine ⟨⟨hnames, hsame _ hnames, hpath⟩, ⟨hdepth, hlog, ?_, ?_⟩, hgrounded,
    by decide +kernel, ((hmade fs).2 hgrounded).1 1 _ hlog⟩
  · obtain ⟨q, hq, -, -, hroot⟩ := habove 3 (Nat.le_of_eq hdepth.symm)
    rw [hq, hroot.mpr hdepth.symm]
  · exact hnone 4 (hdepth.trans_lt (by decide))

end ControlLogic.FileSystem
