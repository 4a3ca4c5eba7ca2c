import ControlLogic.FileSystem.Basic
import ControlLogic.Proofs.FileSystem.Path

/-!
The entries of a file system as a tree. Whatever is done, the directories of a new file system stay
and every entry is kept under a path in normal form. Every entry lies in a directory as long as
nothing was made below a file: what makes files looks no further than the directory they lie in, and
what makes directories looks at no path above them.
-/

set_option autoImplicit false
set_option relaxedAutoImplicit false

namespace ControlLogic.FileSystem

/-! ### Entries -/

def IsFileAt (fs : FileSystem) (path : String) : Prop :=
  ∃ entry, fs.entryAt? path = some entry ∧ entry.isDirectory = false

def IsDirectoryAt (fs : FileSystem) (path : String) : Prop :=
  ∃ entry, fs.entryAt? path = some entry ∧ entry.isDirectory = true

private theorem IsDirectoryAt.not_isFileAt {fs : FileSystem} {path : String}
    (h : fs.IsDirectoryAt path) :
    ¬ fs.IsFileAt path := by
  rintro ⟨entry, hentry, hfile⟩
  obtain ⟨entry', hentry', hdirectory⟩ := h
  have heq : entry = entry' := Option.some.inj (hentry.symm.trans hentry')
  simp [heq, hdirectory] at hfile

private theorem isDirectoryAt_of_not_isFileAt {fs : FileSystem} {path : String} {entry : Entry}
    (hentry : fs.entryAt? path = some entry) (h : ¬ fs.IsFileAt path) : fs.IsDirectoryAt path := by
  refine ⟨entry, hentry, ?_⟩
  cases hkind : entry.isDirectory with
  | true => rfl
  | false => exact absurd ⟨entry, hentry, hkind⟩ h

private theorem any_isFile {fs : FileSystem} {path : String} :
    (fs.entryAt? path).any (!·.isDirectory) = true ↔ fs.IsFileAt path := by
  simp [Option.any_eq_true, IsFileAt]

instance (fs : FileSystem) (path : String) : Decidable (fs.IsFileAt path) :=
  decidable_of_iff _ any_isFile

private theorem entryAt?_eq (fs : FileSystem) (path : String) :
    fs.entryAt? path = fs.entries[path]? :=
  rfl

theorem entryAt?_insert {fs fs' : FileSystem} {path : String} {entry : Entry}
    (h : fs'.entries = fs.entries.insert path entry) (q : String) :
    fs'.entryAt? q = if path = q then some entry else fs.entryAt? q := by
  simp [entryAt?_eq, h, Std.TreeMap.getElem?_insert]

theorem entryAt?_erase {fs fs' : FileSystem} {path : String}
    (h : fs'.entries = fs.entries.erase path) (q : String) :
    fs'.entryAt? q = if path = q then none else fs.entryAt? q := by
  simp [entryAt?_eq, h, Std.TreeMap.getElem?_erase]

private theorem getElem?_foldr_insert (missing : List String) (entries : Std.TreeMap String Entry)
    (q : String) :
    (missing.foldr (fun p entries => entries.insert p Entry.directory) entries)[q]? =
      if q ∈ missing then some Entry.directory else entries[q]? := by
  induction missing with
  | nil => simp
  | cons p rest ih =>
    by_cases hq : p = q
    · simp [hq]
    · simp [Std.TreeMap.getElem?_insert, hq, ih, Ne.symm hq]

/-! ### Paths above a path -/

/-- One path lies above another: it is the directory the other lies in, or lies above it. -/
inductive Above (q : String) : String → Prop
  | directory {path : String} (h : parent? path = some q) : Above q path
  | further {d path : String} (h : parent? path = some d) (above : Above q d) : Above q path

theorem Above.parent {q d path : String} (h : Above q path) (hd : parent? q = some d) :
    Above d path := by
  induction h with
  | directory hq => exact .further hq (.directory hd)
  | further hnext _ ih => exact .further hnext ih

def Blocked (fs : FileSystem) (path : String) : Prop :=
  ∃ q, Above q path ∧ fs.IsFileAt q

private theorem blocked_iff {fs : FileSystem} {path d : String} (hd : parent? path = some d) :
    fs.Blocked path ↔ fs.IsFileAt d ∨ fs.Blocked d := by
  constructor
  · rintro ⟨q, habove, hfile⟩
    cases habove with
    | directory hq =>
      obtain rfl : q = d := Option.some.inj (hq.symm.trans hd)
      exact Or.inl hfile
    | @further d' _ hd' habove =>
      obtain rfl : d' = d := Option.some.inj (hd'.symm.trans hd)
      exact Or.inr ⟨q, habove, hfile⟩
  · rintro (hfile | ⟨q, habove, hfile⟩)
    · exact ⟨d, .directory hd, hfile⟩
    · exact ⟨q, .further hd habove, hfile⟩

private theorem not_blocked_root (fs : FileSystem) : ¬ fs.Blocked root := by
  rintro ⟨q, habove, -⟩
  cases habove with
  | directory h => simp [parent?_root] at h
  | further h _ => simp [parent?_root] at h

/-! ### Invariants -/

/-- The directories of a new file system are there, and every entry is kept under its own path in
normal form. -/
structure Rooted (fs : FileSystem) : Prop where
  seeded : ∀ path ∈ seeded, fs.IsDirectoryAt path
  normal : ∀ path entry, fs.entryAt? path = some entry → IsNormal path

/-- Every entry but the root lies in a directory. -/
def Nested (fs : FileSystem) : Prop :=
  ∀ path entry, fs.entryAt? path = some entry → path ≠ root →
    ∃ d, parent? path = some d ∧ fs.IsDirectoryAt d

theorem Rooted.root {fs : FileSystem} (h : fs.Rooted) : fs.IsDirectoryAt root :=
  h.seeded _ (by simp [FileSystem.seeded])

private theorem Rooted.ne_root {fs : FileSystem} (h : fs.Rooted) {path : String}
    (hpath : fs.entryAt? path = none) : path ≠ FileSystem.root := by
  rintro rfl
  obtain ⟨entry, hentry, -⟩ := h.root
  simp [hpath] at hentry

theorem Rooted.isSome_root {fs : FileSystem} (h : fs.Rooted) :
    (fs.entryAt? FileSystem.root).isSome = true := by
  obtain ⟨entry, hentry, -⟩ := h.root
  rw [hentry]
  rfl

theorem Rooted.parent? {fs : FileSystem} (h : fs.Rooted) {path : String} (hnormal : IsNormal path)
    (hpath : fs.entryAt? path = none) :
    ∃ d, parent? path = some d ∧ IsNormal d ∧ d.length < path.length :=
  hnormal.parent? (h.ne_root hpath)

theorem Nested.isDirectoryAt {fs : FileSystem} (h : fs.Nested) {path d : String} {entry : Entry}
    (hentry : fs.entryAt? path = some entry) (hd : FileSystem.parent? path = some d) :
    fs.IsDirectoryAt d := by
  have hroot : path ≠ root := by
    rintro rfl
    simp [parent?_root] at hd
  obtain ⟨d', hd', hdirectory⟩ := h path entry hentry hroot
  obtain rfl : d = d' := Option.some.inj (hd.symm.trans hd')
  exact hdirectory

private theorem Nested.not_blocked {fs : FileSystem} (h : fs.Nested) {path : String} {entry : Entry}
    (hentry : fs.entryAt? path = some entry) : ¬ fs.Blocked path := by
  rintro ⟨q, habove, hfile⟩
  -- Upwards from the entry every path holds a directory.
  induction habove generalizing entry with
  | directory hd =>
    obtain ⟨entry', hentry', hdirectory⟩ := h.isDirectoryAt hentry hd
    exact IsDirectoryAt.not_isFileAt ⟨entry', hentry', hdirectory⟩ hfile
  | further hd _ ih =>
    obtain ⟨entry', hentry', -⟩ := h.isDirectoryAt hentry hd
    exact ih hentry'

/-! ### The directories above a path -/

theorem contains_eq_isSome (fs : FileSystem) (path : String) :
    fs.entries.contains path = (fs.entryAt? path).isSome := by
  rw [entryAt?_eq, Std.TreeMap.isSome_getElem?_eq_contains]

/-- What is missing upwards from a path has no entry, and lies in a directory that is missing as
well or has an entry. -/
theorem mem_missingFrom {fs : FileSystem} (h : (fs.entryAt? root).isSome = true) {fuel : Nat}
    {path q : String} (hnormal : IsNormal path) (hfuel : path.length < fuel)
    (hq : q ∈ fs.missingFrom fuel path) :
    fs.entryAt? q = none ∧ IsNormal q ∧ q.length ≤ path.length ∧ (q = path ∨ Above q path) ∧
      ∃ d, parent? q = some d ∧
        (d ∈ fs.missingFrom fuel path ∨ (fs.entryAt? d).isSome = true) := by
  induction fuel generalizing path with
  | zero => omega
  | succ fuel ih =>
    rw [missingFrom, contains_eq_isSome] at hq ⊢
    split at hq
    · simp at hq
    rename_i hnone
    rw [if_neg hnone]
    have hpath : fs.entryAt? path = none := by simpa using hnone
    have hroot : path ≠ root := by
      rintro rfl
      simp [hpath] at h
    obtain ⟨d, hd, hdnormal, hlength⟩ := hnormal.parent? hroot
    rw [hd, Option.map_some, Option.getD_some] at hq ⊢
    rcases List.mem_cons.mp hq with rfl | hq
    · refine ⟨hpath, hnormal, Nat.le_refl _, Or.inl rfl, d, hd, ?_⟩
      -- The directory comes next, unless it has an entry.
      cases fuel with
      | zero => omega
      | succ fuel =>
        rw [missingFrom, contains_eq_isSome]
        by_cases hsome : (fs.entryAt? d).isSome = true
        · exact Or.inr hsome
        · rw [if_neg hsome]
          exact Or.inl (by simp)
    · obtain ⟨hnone, hqnormal, hle, habove, d', hd', hcovered⟩ := ih hdnormal (by omega) hq
      refine ⟨hnone, hqnormal, by omega, Or.inr ?_, d', hd', ?_⟩
      · rcases habove with rfl | habove
        · exact .directory hd
        · exact .further hd habove
      · exact hcovered.imp_left (List.mem_cons_of_mem _)

theorem entryAt?_ensureDirectories (fs : FileSystem) (path q : String) :
    (fs.ensureDirectories path).entryAt? q =
      if q ∈ fs.missingFrom (path.length + 1) path then some .directory else fs.entryAt? q := by
  rw [entryAt?_eq, ensureDirectories, getElem?_foldr_insert]
  rfl

theorem isSome_ensureDirectories (fs : FileSystem) (path : String) :
    ((fs.ensureDirectories path).entryAt? path).isSome = true := by
  rw [entryAt?_ensureDirectories]
  split
  · rfl
  · rename_i hnot
    rw [missingFrom, contains_eq_isSome] at hnot
    split at hnot
    · assumption
    · exact absurd List.mem_cons_self hnot

theorem IsDirectoryAt.ensureDirectories {fs : FileSystem} {path q : String}
    (hq : fs.IsDirectoryAt q) : (fs.ensureDirectories path).IsDirectoryAt q := by
  rw [IsDirectoryAt, entryAt?_ensureDirectories]
  split
  · exact ⟨_, rfl, rfl⟩
  · exact hq

theorem Rooted.ensureDirectories {fs : FileSystem} (h : fs.Rooted) {path : String}
    (hnormal : IsNormal path) : (fs.ensureDirectories path).Rooted := by
  constructor
  · intro q hq
    exact (h.seeded q hq).ensureDirectories
  · intro q entry hentry
    rw [entryAt?_ensureDirectories] at hentry
    split at hentry
    · rename_i hmem
      exact (mem_missingFrom h.isSome_root hnormal (Nat.lt_succ_self _) hmem).2.1
    · exact h.normal q entry hentry

theorem Nested.ensureDirectories {fs : FileSystem} (h : fs.Nested) (hrooted : fs.Rooted)
    {path : String} (hnormal : IsNormal path) (hfree : ¬ fs.Blocked path) :
    (fs.ensureDirectories path).Nested := by
  intro q entry hentry hroot
  rw [entryAt?_ensureDirectories] at hentry
  split at hentry
  · rename_i hmem
    obtain ⟨-, -, -, habove, d, hd, hcovered⟩ :=
      mem_missingFrom hrooted.isSome_root hnormal (Nat.lt_succ_self _) hmem
    refine ⟨d, hd, ?_⟩
    rcases hcovered with hmissing | hsome
    · exact ⟨.directory, by rw [entryAt?_ensureDirectories, if_pos hmissing], rfl⟩
    · obtain ⟨entry', hentry'⟩ := Option.isSome_iff_exists.mp hsome
      refine (isDirectoryAt_of_not_isFileAt hentry' ?_).ensureDirectories
      intro hfile
      apply hfree
      rcases habove with rfl | habove
      · exact ⟨d, .directory hd, hfile⟩
      · exact ⟨d, habove.parent hd, hfile⟩
  · obtain ⟨d, hd, hdirectory⟩ := h q entry hentry hroot
    exact ⟨d, hd, hdirectory.ensureDirectories⟩

/-! ### What an action does to the entries -/

/-- What is done to the entries at once; the last argument is the path something new is made at. -/
inductive Edits (fs fs' : FileSystem) : Option String → Prop
  | keep (h : fs'.entries = fs.entries) : Edits fs fs' none
  | reset (h : fs'.entries = seedEntries) : Edits fs fs' none
  | rewrite {path : String} {entry entry' : Entry} (hentry : fs.entryAt? path = some entry)
      (hkind : entry'.isDirectory = entry.isDirectory)
      (h : fs'.entries = fs.entries.insert path entry') : Edits fs fs' none
  | remove {path : String} {entry : Entry} (hseeded : path ∉ seeded)
      (hentry : fs.entryAt? path = some entry)
      (hempty : entry.isDirectory = true → fs.hasChildren path = false)
      (h : fs'.entries = fs.entries.erase path) : Edits fs fs' none
  | directory {path : String} (hnormal : IsNormal path)
      (h : fs'.entries = (fs.ensureDirectories path).entries) : Edits fs fs' (some path)
  | file {path d : String} (hnormal : IsNormal path) (hnone : fs.entryAt? path = none)
      (hd : parent? path = some d) (hfile : ¬ fs.IsFileAt d)
      (h : fs'.entries = (fs.ensureDirectories d).entries.insert path .file) :
      Edits fs fs' (some path)

theorem entryAt?_congr {fs fs' : FileSystem} (h : fs'.entries = fs.entries) (q : String) :
    fs'.entryAt? q = fs.entryAt? q := by
  rw [entryAt?_eq, entryAt?_eq, h]

theorem Rooted.congr {fs fs' : FileSystem} (h : fs.Rooted)
    (heq : ∀ q, fs'.entryAt? q = fs.entryAt? q) : fs'.Rooted := by
  constructor
  · simpa only [IsDirectoryAt, heq] using h.seeded
  · simpa only [heq] using h.normal

theorem Nested.congr {fs fs' : FileSystem} (h : fs.Nested)
    (heq : ∀ q, fs'.entryAt? q = fs.entryAt? q) : fs'.Nested := by
  simpa only [Nested, IsDirectoryAt, heq] using h

theorem entryAt?_seed (q : String) :
    ({} : FileSystem).entryAt? q = if q ∈ seeded then some .directory else none := by
  have hfold : ({} : FileSystem).entryAt? q =
      (seeded.reverse.foldr (fun p entries => entries.insert p Entry.directory)
        (∅ : Std.TreeMap String Entry))[q]? := by
    rw [List.foldr_reverse]
    rfl
  rw [hfold, getElem?_foldr_insert]
  simp

private theorem seeded_cases {path : String} (h : path ∈ seeded) :
    path = root ∨ (IsNormal path ∧ parent? path = some root) := by
  have hpaths : ∀ p ∈ seeded, p = root ∨ (normalize p = p ∧ parent? p = some root) := by
    decide +kernel
  exact (hpaths path h).imp_right (And.imp_left isNormal_iff.mpr)

theorem rooted_seed : ({} : FileSystem).Rooted := by
  constructor
  · intro q hq
    exact ⟨.directory, by rw [entryAt?_seed, if_pos hq], rfl⟩
  · intro q entry hentry
    rw [entryAt?_seed] at hentry
    split at hentry
    · rename_i hmem
      rcases seeded_cases hmem with rfl | hnormal
      · exact isNormal_root
      · exact hnormal.1
    · cases hentry

theorem nested_seed : ({} : FileSystem).Nested := by
  intro q entry hentry hroot
  rw [entryAt?_seed] at hentry
  split at hentry
  · rename_i hmem
    rcases seeded_cases hmem with rfl | ⟨-, hparent⟩
    · exact absurd rfl hroot
    · exact ⟨root, hparent, rooted_seed.root⟩
  · cases hentry

private theorem IsDirectoryAt.rewrite {fs fs' : FileSystem} {path q : String} {entry entry' : Entry}
    (h : fs.IsDirectoryAt q) (hentry : fs.entryAt? path = some entry)
    (hkind : entry'.isDirectory = entry.isDirectory)
    (heq : fs'.entries = fs.entries.insert path entry') : fs'.IsDirectoryAt q := by
  obtain ⟨e, he, hdirectory⟩ := h
  rw [IsDirectoryAt, entryAt?_insert heq]
  split
  · rename_i hpath
    subst hpath
    obtain rfl : e = entry := Option.some.inj (he.symm.trans hentry)
    exact ⟨entry', rfl, hkind.trans hdirectory⟩
  · exact ⟨e, he, hdirectory⟩

private theorem Rooted.entryAt?_ensureDirectories_parent {fs : FileSystem} (h : fs.Rooted)
    {path d : String}
    (hnormal : IsNormal path) (hnone : fs.entryAt? path = none)
    (hd : FileSystem.parent? path = some d) :
    IsNormal d ∧ (fs.ensureDirectories d).entryAt? path = none := by
  obtain ⟨d', hd', hdnormal, hlength⟩ := h.parent? hnormal hnone
  obtain rfl : d = d' := Option.some.inj (hd.symm.trans hd')
  refine ⟨hdnormal, ?_⟩
  rw [entryAt?_ensureDirectories, if_neg, hnone]
  intro hmem
  have hle := (mem_missingFrom h.isSome_root hdnormal (Nat.lt_succ_self _) hmem).2.2.1
  omega

private theorem Edits.rooted {fs fs' : FileSystem} {made : Option String} (h : Edits fs fs' made)
    (hrooted : fs.Rooted) : fs'.Rooted := by
  cases h with
  | keep h => exact hrooted.congr (entryAt?_congr h)
  | reset h => exact rooted_seed.congr (entryAt?_congr h)
  | @rewrite path entry entry' hentry hkind h =>
    constructor
    · intro q hq
      exact (hrooted.seeded q hq).rewrite hentry hkind h
    · intro q e he
      rw [entryAt?_insert h] at he
      split at he
      · rename_i hpath
        exact hpath ▸ hrooted.normal path entry hentry
      · exact hrooted.normal q e he
  | @remove path entry hseeded hentry hempty h =>
    constructor
    · intro q hq
      have hne : path ≠ q := fun heq => hseeded (heq ▸ hq)
      simpa [IsDirectoryAt, entryAt?_erase h, hne] using hrooted.seeded q hq
    · intro q e he
      rw [entryAt?_erase h] at he
      split at he
      · cases he
      · exact hrooted.normal q e he
  | directory hnormal h => exact (hrooted.ensureDirectories hnormal).congr (entryAt?_congr h)
  | @file path d hnormal hnone hd hfile h =>
    obtain ⟨hdnormal, hnone'⟩ := hrooted.entryAt?_ensureDirectories_parent hnormal hnone hd
    have hmade := hrooted.ensureDirectories hdnormal
    constructor
    · intro q hq
      obtain ⟨e, he, hdirectory⟩ := hmade.seeded q hq
      have hne : path ≠ q := by
        rintro rfl
        simp [hnone'] at he
      exact ⟨e, by rw [entryAt?_insert h, if_neg hne, he], hdirectory⟩
    · intro q e he
      rw [entryAt?_insert h] at he
      split at he
      · rename_i hpath
        exact hpath ▸ hnormal
      · exact hmade.normal q e he

private theorem parent?_ne_of_hasChildren {fs : FileSystem} {path q : String} {entry : Entry}
    (h : fs.hasChildren path = false) (hentry : fs.entryAt? q = some entry) (hroot : q ≠ root) :
    parent? q ≠ some path := by
  intro hparent
  have hkey : q ∈ fs.entries.keys := by
    rw [Std.TreeMap.mem_keys, Std.TreeMap.mem_iff_isSome_getElem?]
    rw [← entryAt?_eq, hentry]
    rfl
  have hchild := List.any_eq_false.mp h q hkey
  simp [isChildOf, hroot, hparent] at hchild

theorem Edits.nested {fs fs' : FileSystem} {made : Option String} (h : Edits fs fs' made)
    (hrooted : fs.Rooted) (hnested : fs.Nested)
    (hfree : ∀ path, made = some path → ¬ fs.Blocked path) : fs'.Nested := by
  cases h with
  | keep h => exact hnested.congr (entryAt?_congr h)
  | reset h => exact nested_seed.congr (entryAt?_congr h)
  | @rewrite path entry entry' hentry hkind h =>
    intro q e he hroot
    have hold : ∃ e', fs.entryAt? q = some e' := by
      rw [entryAt?_insert h] at he
      split at he
      · rename_i hpath
        exact ⟨entry, hpath ▸ hentry⟩
      · exact ⟨e, he⟩
    obtain ⟨e', he'⟩ := hold
    obtain ⟨d, hd, hdirectory⟩ := hnested q e' he' hroot
    exact ⟨d, hd, hdirectory.rewrite hentry hkind h⟩
  | @remove path entry hseeded hentry hempty h =>
    intro q e he hroot
    rw [entryAt?_erase h] at he
    split at he
    · cases he
    obtain ⟨d, hd, hdirectory⟩ := hnested q e he hroot
    -- What was removed is no directory, or one that nothing lies in.
    have hne : path ≠ d := by
      rintro rfl
      obtain ⟨e', he', hkind⟩ := hdirectory
      obtain rfl : e' = entry := Option.some.inj (he'.symm.trans hentry)
      exact parent?_ne_of_hasChildren (hempty hkind) he hroot hd
    exact ⟨d, hd, by simpa [IsDirectoryAt, entryAt?_erase h, hne] using hdirectory⟩
  | @directory path hnormal h =>
    exact (hnested.ensureDirectories hrooted hnormal (hfree path rfl)).congr (entryAt?_congr h)
  | @file path d hnormal hnone hd hfile h =>
    obtain ⟨hdnormal, hnone'⟩ := hrooted.entryAt?_ensureDirectories_parent hnormal hnone hd
    have hclear : ¬ fs.Blocked d := fun hb => hfree path rfl ((blocked_iff hd).mpr (Or.inr hb))
    have hmade := hnested.ensureDirectories hrooted hdnormal hclear
    have hkept : ∀ q, (fs.ensureDirectories d).IsDirectoryAt q → fs'.IsDirectoryAt q := by
      rintro q ⟨e, he, hkind⟩
      have hne : path ≠ q := by
        rintro rfl
        simp [hnone'] at he
      exact ⟨e, by rw [entryAt?_insert h, if_neg hne, he], hkind⟩
    intro q e he hroot
    rw [entryAt?_insert h] at he
    split at he
    · rename_i hpath
      subst hpath
      obtain ⟨e', he'⟩ := Option.isSome_iff_exists.mp (isSome_ensureDirectories fs d)
      refine ⟨d, hd, hkept d (isDirectoryAt_of_not_isFileAt he' ?_)⟩
      rintro ⟨e'', he'', hkind⟩
      rw [entryAt?_ensureDirectories] at he''
      split at he''
      · obtain rfl := Option.some.inj he''
        cases hkind
      · exact hfile ⟨e'', he'', hkind⟩
    · obtain ⟨d', hd', hdirectory⟩ := hmade q e he hroot
      exact ⟨d', hd', hkept d' hdirectory⟩

/-! ### Actions -/

/-- What can be done with a file system. -/
inductive Action where
  | openFile (path : String) (mode : OpenMode)
  | close (handle : Int)
  | read (handle : Int) (limit : Nat)
  | write (handle : Int) (bytes : List UInt8)
  | seek (handle offset : Int) (origin : SeekOrigin)
  | delete (path : String)
  | makeDirectory (path : String)
  | findFirst (pattern : String) (regex : Regex)
  | findNext
  | findClose
  | putFile (path : String) (bytes : List UInt8)
  | clear

def Action.run (fs : FileSystem) : Action → FileSystem
  | openFile path mode => (fs.openFile path mode).2
  | close handle => (fs.close handle).2
  | read handle limit => (fs.read handle limit).2
  | write handle bytes => (fs.write handle bytes).2
  | seek handle offset origin => (fs.seek handle offset origin).2
  | delete path => (fs.delete path).2
  | makeDirectory path => (fs.makeDirectory path).2
  | findFirst pattern regex => (fs.findFirst pattern regex).2
  | findNext => fs.findNext.2
  | findClose => fs.findClose.2
  | putFile path bytes => (fs.putFile path bytes).2
  | clear => fs.clear

def runAll (fs : FileSystem) (actions : List Action) : FileSystem :=
  actions.foldl Action.run fs

/-- The path at which an action puts something in place: a file for writing, or a directory; `none`
if it does not do so, or cannot. -/
def Action.made? (fs : FileSystem) : Action → Option String
  | openFile path mode =>
    if mode = .read ∨ (fs.openFile path mode).1 = -1 then none else some (normalize path)
  | makeDirectory path => if (fs.makeDirectory path).1 = -1 then none else some (normalize path)
  | putFile path _ => if (fs.openFile path .write).1 = -1 then none else some (normalize path)
  | _ => none

def StaysClear (fs : FileSystem) : List Action → Prop
  | [] => True
  | action :: rest =>
    (∀ path, action.made? fs = some path → ¬ fs.Blocked path) ∧ StaysClear (action.run fs) rest

private theorem prepare?_edits {fs fs' : FileSystem} (h : fs.Rooted) {path : String}
    {mode : OpenMode}
    (hnormal : IsNormal path) (hprepare : fs.prepare? path mode = some fs') :
    ∃ made, Edits fs fs' made ∧ ∀ q, made = some q → q = path ∧ mode ≠ .read := by
  rw [prepare?] at hprepare
  split at hprepare
  · rename_i entry hentry
    split at hprepare
    · cases hprepare
    rename_i hkind
    split at hprepare
    · obtain rfl := Option.some.inj hprepare
      have hfile : Entry.file.isDirectory = entry.isDirectory := by
        simpa [Entry.file] using hkind
      exact ⟨none, .rewrite hentry hfile rfl, by simp⟩
    · obtain rfl := Option.some.inj hprepare
      exact ⟨none, .keep rfl, by simp⟩
  · rename_i hnone
    split at hprepare
    · cases hprepare
    rename_i hmode
    obtain ⟨d, hd, -⟩ := h.parent? hnormal hnone
    simp only [hd] at hprepare
    split at hprepare
    · cases hprepare
    rename_i hfile
    obtain rfl := Option.some.inj hprepare
    refine ⟨some path, .file hnormal hnone hd (mt any_isFile.mpr hfile) rfl, ?_⟩
    rintro q ⟨rfl⟩
    exact ⟨rfl, hmode⟩

theorem openFile_of_prepare? {fs fs' : FileSystem} {path : String} {mode : OpenMode}
    (h : fs.prepare? (normalize path) mode = some fs') :
    (fs.openFile path mode).1 = Int.ofNat fs'.handles.nextId ∧
      (fs.openFile path mode).2.entries = fs'.entries := by
  simp only [openFile, h, true_and]
  split <;> rfl

theorem openFile_of_prepare?_none {fs : FileSystem} {path : String} {mode : OpenMode}
    (h : fs.prepare? (normalize path) mode = none) : fs.openFile path mode = (-1, fs) := by
  simp only [openFile, h]

private theorem Edits.of_entries_eq {fs fs₁ fs₂ : FileSystem} {made : Option String}
    (h : Edits fs fs₁ made)
    (heq : fs₂.entries = fs₁.entries) : Edits fs fs₂ made := by
  cases h with
  | keep h => exact .keep (heq.trans h)
  | reset h => exact .reset (heq.trans h)
  | rewrite hentry hkind h => exact .rewrite hentry hkind (heq.trans h)
  | remove hseeded hentry hempty h => exact .remove hseeded hentry hempty (heq.trans h)
  | directory hnormal h => exact .directory hnormal (heq.trans h)
  | file hnormal hnone hd hfile h => exact .file hnormal hnone hd hfile (heq.trans h)

private theorem openFile_edits {fs : FileSystem} (h : fs.Rooted) (path : String) (mode : OpenMode) :
    ∃ made, Edits fs (fs.openFile path mode).2 made ∧
      ∀ q, made = some q → (Action.openFile path mode).made? fs = some q := by
  cases hprepare : fs.prepare? (normalize path) mode with
  | none => exact ⟨none, .keep (by rw [openFile_of_prepare?_none hprepare]), by simp⟩
  | some fs' =>
    obtain ⟨made, hedits, hmade⟩ := prepare?_edits h (isNormal_normalize path) hprepare
    obtain ⟨hhandle, hentries⟩ := openFile_of_prepare? hprepare
    refine ⟨made, hedits.of_entries_eq hentries, fun q hq => ?_⟩
    obtain ⟨rfl, hmode⟩ := hmade q hq
    have hne : ¬ (mode = .read ∨ (fs.openFile path mode).1 = -1) := by
      rw [hhandle]
      rintro (hread | hnegative)
      · exact hmode hread
      · cases hnegative
    rw [Action.made?, if_neg hne]

private theorem write_edits (fs : FileSystem) (handle : Int) (bytes : List UInt8) :
    Edits fs (fs.write handle bytes).2 none := by
  rw [write]
  split
  · exact .keep rfl
  split
  · exact .keep rfl
  split
  · exact .keep rfl
  · rename_i file _ _ _ entry hentry
    have hkind : Entry.isDirectory { entry with data := overwrite entry.data file.cursor bytes } =
        entry.isDirectory := rfl
    exact .rewrite hentry hkind rfl

theorem close_entries (fs : FileSystem) (handle : Int) :
    (fs.close handle).2.entries = fs.entries := by
  rw [close]
  split <;> rfl

private theorem read_entries (fs : FileSystem) (handle : Int) (limit : Nat) :
    (fs.read handle limit).2.entries = fs.entries := by
  rw [read]
  split
  · rfl
  split <;> rfl

private theorem seek_entries (fs : FileSystem) (handle offset : Int) (origin : SeekOrigin) :
    (fs.seek handle offset origin).2.entries = fs.entries := by
  rw [seek]
  split <;> rfl

private theorem findNext_entries (fs : FileSystem) : fs.findNext.2.entries = fs.entries := by
  rw [findNext]
  split <;> rfl

private theorem findFirst_entries (fs : FileSystem) (pattern : String) (regex : Regex) :
    (fs.findFirst pattern regex).2.entries = fs.entries := by
  rw [findFirst, findNext_entries]

private theorem findClose_entries (fs : FileSystem) : fs.findClose.2.entries = fs.entries := by
  rw [findClose]
  split <;> rfl

private theorem delete_edits (fs : FileSystem) (path : String) :
    Edits fs (fs.delete path).2 none := by
  rw [delete]
  split
  · exact .keep rfl
  rename_i hseeded
  split
  · exact .keep rfl
  rename_i entry hentry
  split
  · exact .keep rfl
  · rename_i hempty
    refine .remove (by simpa using hseeded) hentry ?_ rfl
    intro hkind
    simpa [hkind] using hempty

private theorem makeDirectory_edits (fs : FileSystem) (path : String) :
    ∃ made, Edits fs (fs.makeDirectory path).2 made ∧
      ∀ q, made = some q → (Action.makeDirectory path).made? fs = some q := by
  cases hentry : fs.entryAt? (normalize path) with
  | some entry => exact ⟨none, .keep (by simp only [makeDirectory, hentry]), by simp⟩
  | none =>
    refine ⟨some (normalize path), .directory (isNormal_normalize path) ?_, ?_⟩
    · simp only [makeDirectory, hentry]
      rfl
    · rintro q ⟨rfl⟩
      simp [Action.made?, makeDirectory, hentry]

theorem putFile_eq (fs : FileSystem) (path : String) (bytes : List UInt8) :
    (fs.putFile path bytes).2 =
      if (fs.openFile path .write).1 < 0 then (fs.openFile path .write).2
      else
        let opened := fs.openFile path .write
        ((opened.2.write opened.1 bytes).2.close opened.1).2 := by
  cases h : fs.openFile path .write with
  | mk handle fs' =>
    simp only [putFile, h]
    split <;> rfl

/-- One action keeps the directories of a new file system, the normal form of the paths and, if it
puts nothing in place below a file, the directory of every entry. -/
private theorem Action.run_keeps (action : Action) {fs : FileSystem} (h : fs.Rooted) :
    (action.run fs).Rooted ∧
      (fs.Nested → (∀ path, action.made? fs = some path → ¬ fs.Blocked path) →
        (action.run fs).Nested) := by
  have single : ∀ {fs' : FileSystem},
      (∃ made, Edits fs fs' made ∧ ∀ q, made = some q → action.made? fs = some q) →
      fs'.Rooted ∧ (fs.Nested → (∀ path, action.made? fs = some path → ¬ fs.Blocked path) →
        fs'.Nested) := by
    rintro fs' ⟨made, hedits, hmade⟩
    refine ⟨hedits.rooted h, fun hnested hfree => hedits.nested h hnested fun path hpath => ?_⟩
    exact hfree path (hmade path hpath)
  cases action with
  | openFile path mode => exact single (openFile_edits h path mode)
  | close handle => exact single ⟨none, .keep (close_entries fs handle), by simp⟩
  | read handle limit => exact single ⟨none, .keep (read_entries fs handle limit), by simp⟩
  | write handle bytes => exact single ⟨none, write_edits fs handle bytes, by simp⟩
  | seek handle offset origin =>
    exact single ⟨none, .keep (seek_entries fs handle offset origin), by simp⟩
  | delete path => exact single ⟨none, delete_edits fs path, by simp⟩
  | makeDirectory path => exact single (makeDirectory_edits fs path)
  | findFirst pattern regex =>
    refine single ⟨none, .keep ?_, by simp⟩
    rw [Action.run, findFirst_entries]
  | findNext => exact single ⟨none, .keep (findNext_entries fs), by simp⟩
  | findClose => exact single ⟨none, .keep (findClose_entries fs), by simp⟩
  | clear => exact single ⟨none, .reset rfl, by simp⟩
  | putFile path bytes =>
    obtain ⟨made, hopened, hmade⟩ := openFile_edits h path .write
    have hmade' : ∀ q, made = some q → (Action.putFile path bytes).made? fs = some q := by
      intro q hq
      simpa [Action.made?] using hmade q hq
    rw [Action.run, putFile_eq]
    split
    · exact single ⟨made, hopened, hmade'⟩
    · -- The file is written and closed after it was opened.
      have hrooted := hopened.rooted h
      have hwritten := write_edits (fs.openFile path .write).2 (fs.openFile path .write).1 bytes
      refine ⟨(hwritten.rooted hrooted).congr (entryAt?_congr (close_entries _ _)), ?_⟩
      intro hnested hfree
      have hnested' := hopened.nested h hnested fun q hq => hfree q (hmade' q hq)
      have hclosed := hwritten.nested hrooted hnested' (by simp)
      exact hclosed.congr (entryAt?_congr (close_entries _ _))

theorem runAll_keeps {fs : FileSystem} (h : fs.Rooted) (actions : List Action) :
    (fs.runAll actions).Rooted ∧
      (fs.Nested → fs.StaysClear actions → (fs.runAll actions).Nested) := by
  induction actions generalizing fs with
  | nil => exact ⟨h, fun hnested _ => hnested⟩
  | cons action rest ih =>
    obtain ⟨hrooted, hnested⟩ := action.run_keeps h
    obtain ⟨hrooted', hnested'⟩ := ih hrooted
    refine ⟨hrooted', fun hbefore hclear => ?_⟩
    exact hnested' (hnested hbefore hclear.1) hclear.2

/-! ### Where nothing can be put in place -/

private theorem makeDirectory_eq_neg_one {fs : FileSystem} {path : String} :
    (fs.makeDirectory path).1 = -1 ↔ fs.IsFileAt (normalize path) := by
  rw [makeDirectory]
  split
  · rename_i entry hentry
    cases hkind : entry.isDirectory with
    | true => simp [IsFileAt, hentry, hkind]
    | false => simp [IsFileAt, hentry, hkind]
  · rename_i hnone
    simp [IsFileAt, hnone]

/-- Of the files above a path, the one that keeps another from being put in place is that in the
place of the path's own directory. -/
private theorem Nested.openFile_eq_neg_one {fs : FileSystem} (h : fs.Nested) {path : String}
    {mode : OpenMode} (hmode : mode ≠ .read) (hblocked : fs.Blocked (normalize path)) :
    (fs.openFile path mode).1 = -1 ↔
      ∃ d, FileSystem.parent? (normalize path) = some d ∧ fs.IsFileAt d := by
  have hnone : fs.entryAt? (normalize path) = none := by
    cases hentry : fs.entryAt? (normalize path) with
    | none => rfl
    | some entry => exact absurd hblocked (h.not_blocked hentry)
  obtain ⟨d, hd⟩ : ∃ d, FileSystem.parent? (normalize path) = some d := by
    obtain ⟨q, habove, -⟩ := hblocked
    cases habove with
    | directory hd => exact ⟨_, hd⟩
    | further hd _ => exact ⟨_, hd⟩
  have hprepare : fs.prepare? (normalize path) mode =
      if (fs.entryAt? d).any (!·.isDirectory) then none
      else some { fs.ensureDirectories d with
        entries := (fs.ensureDirectories d).entries.insert (normalize path) .file } := by
    simp only [prepare?, hnone, hmode, hd, if_false]
  by_cases hfile : fs.IsFileAt d
  · rw [if_pos (any_isFile.mpr hfile)] at hprepare
    rw [openFile_of_prepare?_none hprepare]
    exact ⟨fun _ => ⟨d, hd, hfile⟩, fun _ => rfl⟩
  · rw [if_neg (mt any_isFile.mp hfile)] at hprepare
    rw [(openFile_of_prepare? hprepare).1]
    constructor
    · intro hnegative
      cases hnegative
    · rintro ⟨d', hd', hfile'⟩
      obtain rfl : d = d' := Option.some.inj (hd.symm.trans hd')
      exact absurd hfile' hfile

/-- After any actions the directories of a new file system are there, and every entry is kept under
its own path in normal form. If nothing was put in place below a file on the way, every entry but
the root lies in a directory, and of the files above a path just the one in the place of its
directory keeps a file from being put there. -/
theorem entries_form_a_tree (actions : List Action) :
    (∀ path ∈ seeded, (runAll {} actions).IsDirectoryAt path) ∧
    (∀ path entry, (runAll {} actions).entryAt? path = some entry → normalize path = path) ∧
    (∀ path, ((runAll {} actions).makeDirectory path).1 = -1 ↔
      (runAll {} actions).IsFileAt (normalize path)) ∧
    (StaysClear {} actions →
      (∀ path entry, (runAll {} actions).entryAt? path = some entry → path ≠ root →
        ∃ d, parent? path = some d ∧ (runAll {} actions).IsDirectoryAt d) ∧
      (∀ path mode, mode ≠ .read → (runAll {} actions).Blocked (normalize path) →
        (((runAll {} actions).openFile path mode).1 = -1 ↔
          ∃ d, parent? (normalize path) = some d ∧ (runAll {} actions).IsFileAt d))) := by
  obtain ⟨hrooted, hnested⟩ := runAll_keeps rooted_seed actions
  refine ⟨hrooted.seeded, fun path entry hentry => ?_, fun path => makeDirectory_eq_neg_one,
    fun hclear => ?_⟩
  · exact normalize_of_isNormal (hrooted.normal path entry hentry)
  · have htree := hnested nested_seed hclear
    refine ⟨htree, fun path mode hmode hblocked => ?_⟩
    exact htree.openFile_eq_neg_one hmode hblocked

/-- A file some levels down, and a directory beside it; the file is then in the way of what would
lie in it. -/
theorem logged_entries_form_a_tree :
    let actions : List Action := [.putFile "/User/Log/a" [104], .makeDirectory "\\user\\log\\old"]
    StaysClear {} actions ∧ (runAll {} actions).IsFileAt "/user/log/a" ∧
      ((runAll {} actions).openFile "/user/log/a/b" .append).1 = -1 := by
  intro actions
  have hlog : parent? "/user/log/a" = some "/user/log" := by decide +kernel
  have hold : parent? "/user/log/old" = some "/user/log" := by decide +kernel
  have huser : parent? "/user/log" = some "/user" := by decide +kernel
  have hroot : parent? "/user" = some root := by decide +kernel
  have hclear : StaysClear {} actions := by
    refine ⟨fun path hpath => ?_, fun path hpath => ?_, trivial⟩
    · have hmade : (Action.putFile "/User/Log/a" [104]).made? {} = some "/user/log/a" := by
        decide +kernel
      obtain rfl := Option.some.inj (hpath.symm.trans hmade)
      rw [blocked_iff hlog, blocked_iff huser, blocked_iff hroot]
      have hfiles : ∀ p ∈ ["/user/log", "/user", root], ¬ ({} : FileSystem).IsFileAt p := by
        decide +kernel
      simp [hfiles, not_blocked_root]
    · have hmade : (Action.makeDirectory "\\user\\log\\old").made?
          ((Action.putFile "/User/Log/a" [104]).run {}) = some "/user/log/old" := by
        decide +kernel
      obtain rfl := Option.some.inj (hpath.symm.trans hmade)
      rw [blocked_iff hold, blocked_iff huser, blocked_iff hroot]
      have hfiles : ∀ p ∈ ["/user/log", "/user", root],
          ¬ ((Action.putFile "/User/Log/a" [104]).run {}).IsFileAt p := by
        decide +kernel
      simp [hfiles, not_blocked_root]
  have hfile : (runAll {} actions).IsFileAt "/user/log/a" := by decide +kernel
  have hparent : parent? (normalize "/user/log/a/b") = some "/user/log/a" := by decide +kernel
  have hblocked := (blocked_iff hparent).mpr (Or.inl hfile)
  have htree := (entries_form_a_tree actions).2.2.2 hclear
  refine ⟨hclear, hfile, ?_⟩
  exact (htree.2 "/user/log/a/b" .append (by decide) hblocked).mpr ⟨_, hparent, hfile⟩

/-- Below a file a directory can be made, and a file be opened two levels down; the directory then
lies in a file, and in nothing once that is deleted. -/
theorem directory_made_below_file :
    let fs := runAll {} [.putFile "/a" [120]]
    fs.Blocked (normalize "/a/b/c") ∧ (fs.openFile "/a/b/c" .write).1 = 0 ∧
      fs.Blocked (normalize "/a/b") ∧ (fs.makeDirectory "/a/b").1 = 0 ∧
      ¬ (runAll {} [.putFile "/a" [120], .makeDirectory "/a/b"]).Nested ∧
      ¬ (runAll {} [.putFile "/a" [120], .makeDirectory "/a/b", .delete "/a"]).Nested := by
  intro fs
  have hfile : fs.IsFileAt "/a" := by decide +kernel
  have hb : parent? (normalize "/a/b") = some "/a" := by decide +kernel
  have hc : parent? (normalize "/a/b/c") = some (normalize "/a/b") := by decide +kernel
  have hblocked := (blocked_iff hb).mpr (Or.inl hfile)
  have hmade : (runAll {} [.putFile "/a" [120], .makeDirectory "/a/b"]).entryAt?
      (normalize "/a/b") = some .directory := by
    decide +kernel
  have hleft : (runAll {} [.putFile "/a" [120], .makeDirectory "/a/b", .delete "/a"]).entryAt?
      (normalize "/a/b") = some .directory := by
    decide +kernel
  refine ⟨(blocked_iff hc).mpr (Or.inr hblocked), by decide +kernel, hblocked, by decide +kernel,
    fun h => ?_, fun h => ?_⟩
  · have hstays : (runAll {} [.putFile "/a" [120], .makeDirectory "/a/b"]).IsFileAt "/a" := by
      decide +kernel
    exact (h.isDirectoryAt hmade hb).not_isFileAt hstays
  · obtain ⟨entry, hentry, -⟩ := h.isDirectoryAt hleft hb
    have hnone : (runAll {} [.putFile "/a" [120], .makeDirectory "/a/b", .delete "/a"]).entryAt?
        "/a" = none := by
      decide +kernel
    simp [hnone] at hentry

end ControlLogic.FileSystem
