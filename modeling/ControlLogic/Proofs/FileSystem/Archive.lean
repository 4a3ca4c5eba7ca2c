import ControlLogic.Proofs.Registers

/-!
A file system seen as what it is for: for each path a list of bytes, for each handle a path, a mode
and a place. Bytes are taken out of a list and replaced in it only between places that the list has;
elsewhere this fails, as indexing does. Whatever is done with a file system, it gives the answers of
its lists, and no place is ever beyond them.
-/

set_option autoImplicit false
set_option relaxedAutoImplicit false

namespace ControlLogic

/-! ### Lists of entries -/

namespace Assoc

variable {κ ν : Type} [DecidableEq κ]

def drop (l : List (κ × ν)) (key : κ) : List (κ × ν) :=
  l.filter (·.1 ≠ key)

def put (l : List (κ × ν)) (key : κ) (v : ν) : List (κ × ν) :=
  (key, v) :: drop l key

def Distinct (l : List (κ × ν)) : Prop :=
  (l.map Prod.fst).Nodup

variable {l : List (κ × ν)} {key : κ} {v : ν}

private theorem lookup_drop (l : List (κ × ν)) (key q : κ) :
    (drop l key).lookup q = if key = q then none else l.lookup q := by
  unfold drop
  induction l with
  | nil => simp
  | cons entry l ih =>
    obtain ⟨k, v⟩ := entry
    rw [List.filter_cons]
    by_cases hk : k = key
    · subst hk
      rw [if_neg (by simp), ih, List.lookup_cons]
      by_cases hq : k = q
      · rw [if_pos hq, if_pos hq]
      · rw [if_neg hq, if_neg hq, beq_eq_false_iff_ne.mpr (Ne.symm hq)]
    · rw [if_pos (by simpa using hk), List.lookup_cons, List.lookup_cons, ih]
      by_cases hq : q = k
      · subst hq
        simp [Ne.symm hk]
      · rw [beq_eq_false_iff_ne.mpr hq]

private theorem lookup_put (l : List (κ × ν)) (key : κ) (v : ν) (q : κ) :
    (put l key v).lookup q = if key = q then some v else l.lookup q := by
  unfold put
  rw [List.lookup_cons, lookup_drop]
  by_cases hq : key = q
  · subst hq
    simp
  · rw [beq_eq_false_iff_ne.mpr (Ne.symm hq), if_neg hq, if_neg hq]

theorem Distinct.drop (h : Distinct l) (key : κ) : Distinct (drop l key) :=
  (List.filter_sublist.map Prod.fst).nodup h

theorem Distinct.put (h : Distinct l) (key : κ) (v : ν) : Distinct (put l key v) := by
  refine List.nodup_cons.mpr ⟨?_, h.drop key⟩
  simp [Assoc.drop]

private theorem Distinct.mem_iff (h : Distinct l) : (key, v) ∈ l ↔ l.lookup key = some v := by
  induction l with
  | nil => simp
  | cons entry l ih =>
    obtain ⟨k, w⟩ := entry
    obtain ⟨hnot, hrest⟩ := List.nodup_cons.mp h
    rw [List.mem_cons, List.lookup_cons, ih hrest]
    by_cases hk : key = k
    · subst hk
      have hnone : l.lookup key ≠ some v := fun hv =>
        hnot (List.mem_map.mpr ⟨(key, v), (ih hrest).mpr hv, rfl⟩)
      rw [beq_self_eq_true]
      simp [hnone, eq_comm]
    · rw [beq_eq_false_iff_ne.mpr hk]
      simp [hk]

end Assoc

/-! ### Bytes between places -/

namespace FileSystem

/-- The bytes from one place up to another, if the list has both in this order. -/
def slice? (data : List UInt8) (start finish : Nat) : Option (List UInt8) :=
  if start ≤ finish ∧ finish ≤ data.length then some ((data.drop start).take (finish - start))
  else none

/-- The list with bytes replaced from a place on, if it has as many there. -/
def splice? (data : List UInt8) (start : Nat) (bytes : List UInt8) : Option (List UInt8) :=
  if start + bytes.length ≤ data.length then
    some (data.take start ++ bytes ++ data.drop (start + bytes.length))
  else none

def extended (data : List UInt8) (length : Nat) : List UInt8 :=
  data ++ List.replicate (length - data.length) 0

def upwards : Nat → String → List String
  | 0, _ => []
  | fuel + 1, path => path :: ((parent? path).map (upwards fuel)).getD []

end FileSystem

open FileSystem

/-- A file system as lists: what stands at which path, the files in use by handle, the numbers that
were given up, the latest first, how many were given at all, and the names a search has still to
give. -/
structure Archive where
  entries : List (String × Entry) := seeded.map (·, .directory)
  inUse : List (Int × OpenFile) := []
  spare : List Nat := []
  count : Nat := 0
  search : Option (List String) := none

namespace Archive

def keep (a : Archive) (path : String) (entry : Entry) : Archive :=
  { a with entries := Assoc.put a.entries path entry }

def withDirectories (a : Archive) (path : String) : Archive :=
  let missing := (upwards (path.length + 1) path).takeWhile fun p => (a.entries.lookup p).isNone
  missing.foldr (fun p a => a.keep p .directory) a

/-- Makes a new file and the directories above it, unless a file stands in the place of its own. -/
def make? (a : Archive) (path : String) : Option Archive :=
  match parent? path with
  | none => some (a.keep path .file)
  | some d =>
    if (a.entries.lookup d).any (!·.isDirectory) then none
    else some ((a.withDirectories d).keep path .file)

/-- Makes ready a file at a path: empties it for writing, or makes a new one. -/
def prepare? (a : Archive) (path : String) (mode : OpenMode) : Option Archive :=
  match a.entries.lookup path, mode with
  | some ⟨true, _⟩, _ => none
  | some ⟨false, _⟩, .write => some (a.keep path .file)
  | some ⟨false, _⟩, _ => some a
  | none, .read => none
  | none, _ => a.make? path

/-- Gives a file in use the number that was given up last, or a new one. -/
def lend (a : Archive) (file : OpenFile) : Int × Archive :=
  match a.spare with
  | id :: rest => (id, { a with inUse := Assoc.put a.inUse id file, spare := rest })
  | [] => (a.count, { a with inUse := Assoc.put a.inUse a.count file, count := a.count + 1 })

/-- Opens a file, behind its end for appending and else at its start. -/
def openFile (a : Archive) (path : String) (mode : OpenMode) : Int × Archive :=
  match a.prepare? (normalize path) mode with
  | none => (-1, a)
  | some a =>
    let size := ((a.entries.lookup (normalize path)).map (·.data.length)).getD 0
    a.lend ⟨normalize path, mode, if mode = .append then size else 0⟩

def close (a : Archive) (handle : Int) : Int × Archive :=
  match a.inUse.lookup handle with
  | none => (-1, a)
  | some _ =>
    (0, { a with inUse := Assoc.drop a.inUse handle, spare := handle.toNat :: a.spare })

def moveTo (a : Archive) (handle : Int) (file : OpenFile) (cursor : Nat) : Archive :=
  { a with inUse := Assoc.put a.inUse handle { file with cursor := cursor } }

/-- Gives the bytes from the place of a handle, or from the end if that comes first, up to a number
of them, and moves the place behind them. -/
def read (a : Archive) (handle : Int) (limit : Nat) : Option (Option (List UInt8) × Archive) := do
  match a.inUse.lookup handle with
  | none => return (none, a)
  | some file =>
    match a.entries.lookup file.path with
    | none => return (none, a)
    | some entry =>
      let start := min file.cursor entry.data.length
      let finish := min (start + limit) entry.data.length
      let bytes ← slice? entry.data start finish
      return (some bytes, a.moveTo handle file finish)

/-- Replaces the bytes from the place of a handle on, after the file was made long enough, and moves
the place behind them. -/
def write (a : Archive) (handle : Int) (bytes : List UInt8) : Option (Int × Archive) := do
  match a.inUse.lookup handle with
  | none => return (-1, a)
  | some file =>
    if file.mode = .read then return (-1, a)
    else
      match a.entries.lookup file.path with
      | none => return (-1, a)
      | some entry =>
        let finish := file.cursor + bytes.length
        let data ← splice? (extended entry.data finish) file.cursor bytes
        return (bytes.length,
          (a.keep file.path ⟨entry.isDirectory, data⟩).moveTo handle file finish)

def seek (a : Archive) (handle offset : Int) (origin : SeekOrigin) : Int × Archive :=
  match a.inUse.lookup handle with
  | none => (-1, a)
  | some file =>
    let size : Nat := ((a.entries.lookup file.path).map (·.data.length)).getD 0
    let base : Int :=
      match origin with
      | .start => 0
      | .current => file.cursor
      | .finish => size
    let cursor := min (base + offset).toNat size
    (cursor, a.moveTo handle file cursor)

def length (a : Archive) (handle : Int) : Int :=
  match a.inUse.lookup handle with
  | none => -1
  | some file =>
    match a.entries.lookup file.path with
    | none => -1
    | some entry => entry.data.length

def delete (a : Archive) (path : String) : Int × Archive :=
  let path := normalize path
  match a.entries.lookup path with
  | none => (-1, a)
  | some entry =>
    if seeded.contains path ∨ entry.isDirectory ∧ a.entries.any fun e => isChildOf path e.1 then
      (-1, a)
    else (0, { a with entries := Assoc.drop a.entries path })

def makeDirectory (a : Archive) (path : String) : Int × Archive :=
  match a.entries.lookup (normalize path) with
  | some ⟨true, _⟩ => (0, a)
  | some ⟨false, _⟩ => (-1, a)
  | none => (0, a.withDirectories (normalize path))

def filesIn (a : Archive) (directory : String) : List String :=
  let files := a.entries.filter fun e => isChildOf directory e.1 && !e.2.isDirectory
  let paths := (files.map Prod.fst).mergeSort fun p q => (compare p q).isLE
  paths.map fileName

/-- The names of the files in a directory that match a pattern, if its regular expression is
taken. -/
def matching (a : Archive) (regex : Regex) (directory pattern : String) : List String :=
  (regex.compile? (globExpression regex pattern)).elim [] fun accepts =>
    (a.filesIn directory).filter accepts

def findNext (a : Archive) : String × Archive :=
  match a.search with
  | some (name :: rest) => (name, { a with search := some rest })
  | some [] | none => ("", a)

def findFirst (a : Archive) (pattern : String) (regex : Regex) : String × Archive :=
  let (directory, glob) := splitPath (normalize pattern)
  findNext { a with search := some (a.matching regex directory glob) }

def findClose (a : Archive) : Int × Archive :=
  if a.search.isSome then (0, { a with search := none }) else (-1, a)

/-- Puts a file with some bytes in place: opens it, writes and closes it. -/
def putFile (a : Archive) (path : String) (bytes : List UInt8) : Option (Bool × Archive) := do
  let (handle, a) := a.openFile path .write
  if handle < 0 then return (false, a)
  else
    let (written, a) ← a.write handle bytes
    return (0 ≤ written, (a.close handle).2)

/-- The lists of a file system: they find the entries and the files in use that it finds, and give
the numbers it gives. -/
structure Mirrors (a : Archive) (fs : FileSystem) : Prop where
  entries (path : String) : a.entries.lookup path = fs.entryAt? path
  distinct : Assoc.Distinct a.entries
  inUse (handle : Int) : a.inUse.lookup handle = fs.handles.get? handle
  sound : fs.handles.Sound
  spare : a.spare = fs.handles.free
  count : a.count = fs.handles.cells.size
  search : a.search = fs.search

namespace Mirrors

variable {a : Archive} {fs fs' : FileSystem}

theorem new : ({} : Archive).Mirrors {} where
  entries path := by
    rw [entryAt?_seed]
    change (seeded.map fun p => (p, Entry.directory)).lookup path = _
    generalize seeded = paths
    induction paths with
    | nil => rfl
    | cons p paths ih =>
      rw [List.map_cons, List.lookup_cons, ih]
      by_cases hp : path = p
      · subst hp
        simp
      · rw [beq_eq_false_iff_ne.mpr hp]
        simp [hp]
  distinct := by
    change (List.map Prod.fst (seeded.map fun p => (p, Entry.directory))).Nodup
    rw [List.map_map]
    decide
  inUse handle := by
    unfold IdTable.get?
    simp
  sound := .empty
  spare := rfl
  count := rfl
  search := rfl

theorem congr (h : a.Mirrors fs) (hentries : fs'.entries = fs.entries)
    (hhandles : fs'.handles = fs.handles) (hsearch : fs'.search = fs.search) : a.Mirrors fs' where
  entries path := (h.entries path).trans (entryAt?_congr hentries path).symm
  distinct := h.distinct
  inUse handle := by rw [hhandles, h.inUse]
  sound := hhandles ▸ h.sound
  spare := by rw [hhandles, h.spare]
  count := by rw [hhandles, h.count]
  search := by rw [hsearch, h.search]

theorem changed (h : a.Mirrors fs) : a.Mirrors fs.changed :=
  h.congr rfl rfl rfl

theorem keep (h : a.Mirrors fs) (path : String) (entry : Entry) :
    (a.keep path entry).Mirrors { fs with entries := fs.entries.insert path entry } where
  entries q := by
    have hinserted : FileSystem.entryAt? { fs with entries := fs.entries.insert path entry } q =
        if path = q then some entry else fs.entryAt? q :=
      entryAt?_insert rfl q
    rw [hinserted, ← h.entries]
    exact Assoc.lookup_put _ _ _ _
  distinct := h.distinct.put path entry
  inUse := h.inUse
  sound := h.sound
  spare := h.spare
  count := h.count
  search := h.search

theorem drop (h : a.Mirrors fs) (path : String) :
    ({ a with entries := Assoc.drop a.entries path } : Archive).Mirrors
      { fs with entries := fs.entries.erase path } where
  entries q := by
    have herased : FileSystem.entryAt? { fs with entries := fs.entries.erase path } q =
        if path = q then none else fs.entryAt? q :=
      entryAt?_erase rfl q
    rw [herased, ← h.entries]
    exact Assoc.lookup_drop _ _ _
  distinct := h.distinct.drop path
  inUse := h.inUse
  sound := h.sound
  spare := h.spare
  count := h.count
  search := h.search

private theorem setSearch (h : a.Mirrors fs) (search : Option (List String)) :
    ({ a with search := search } : Archive).Mirrors { fs with search := search } where
  entries := h.entries
  distinct := h.distinct
  inUse := h.inUse
  sound := h.sound
  spare := h.spare
  count := h.count
  search := rfl

theorem moveTo (h : a.Mirrors fs) {handle : Int} {file : OpenFile}
    (hfile : fs.handles.get? handle = some file) (cursor : Nat) :
    (a.moveTo handle file cursor).Mirrors (fs.moveTo handle file cursor) := by
  have hsome : (fs.handles.get? handle).isSome = true := by rw [hfile]; rfl
  have hset : (fs.handles.set handle { file with cursor := cursor }).free = fs.handles.free := by
    rw [IdTable.set, if_pos hsome]
  exact
    { entries := h.entries
      distinct := h.distinct
      inUse := fun k => by
        change (Assoc.put a.inUse handle _).lookup k = _
        rw [Assoc.lookup_put, h.inUse]
        exact (IdTable.get?_set _ hsome _ k).symm
      sound := h.sound.set handle _
      spare := h.spare.trans hset.symm
      count := h.count.trans (IdTable.size_set _ _ _).symm
      search := h.search }

/-! ### Making directories -/

theorem missingFrom_eq (h : a.Mirrors fs) (fuel : Nat) (path : String) :
    (upwards fuel path).takeWhile (fun p => (a.entries.lookup p).isNone) =
      fs.missingFrom fuel path := by
  induction fuel generalizing path with
  | zero => rfl
  | succ fuel ih =>
    rw [upwards, missingFrom, List.takeWhile_cons, h.entries, contains_eq_isSome]
    cases fs.entryAt? path with
    | some entry => rfl
    | none =>
      cases parent? path with
      | none => rfl
      | some d => simpa using ih d

private theorem withDirectories (h : a.Mirrors fs) (path : String) :
    (a.withDirectories path).Mirrors (fs.ensureDirectories path) := by
  unfold Archive.withDirectories ensureDirectories
  dsimp only
  rw [h.missingFrom_eq]
  generalize fs.missingFrom (path.length + 1) path = missing
  induction missing with
  | nil => exact h.congr rfl rfl rfl
  | cons p missing ih => exact ih.keep p .directory

/-! ### Files in use -/

private theorem make? (h : a.Mirrors fs) {path : String} (hnone : fs.entryAt? path = none)
    {mode : OpenMode}
    (hmode : mode ≠ .read) :
    a.make? path = none ∧ fs.prepare? path mode = none ∨
      ∃ a' fs', a.make? path = some a' ∧ fs.prepare? path mode = some fs' ∧ a'.Mirrors fs' := by
  unfold Archive.make? FileSystem.prepare?
  rw [hnone]
  dsimp only
  rw [if_neg hmode]
  cases parent? path with
  | none => exact .inr ⟨_, _, rfl, rfl, h.keep path .file⟩
  | some d =>
    dsimp only
    rw [h.entries]
    split
    · exact .inl ⟨rfl, rfl⟩
    · exact .inr ⟨_, _, rfl, rfl, (h.withDirectories d).keep path .file⟩

theorem prepare? (h : a.Mirrors fs) (path : String) (mode : OpenMode) :
    a.prepare? path mode = none ∧ fs.prepare? path mode = none ∨
      ∃ a' fs', a.prepare? path mode = some a' ∧ fs.prepare? path mode = some fs' ∧
        a'.Mirrors fs' := by
  unfold Archive.prepare?
  rw [h.entries]
  cases hentry : fs.entryAt? path with
  | some entry =>
    unfold FileSystem.prepare?
    rw [hentry]
    obtain ⟨isDirectory, data⟩ := entry
    cases isDirectory with
    | true => exact .inl ⟨rfl, rfl⟩
    | false =>
      cases mode with
      | read => exact .inr ⟨a, fs, rfl, rfl, h⟩
      | write => exact .inr ⟨_, _, rfl, rfl, h.keep path .file⟩
      | append => exact .inr ⟨a, fs, rfl, rfl, h⟩
  | none =>
    cases mode with
    | read =>
      unfold FileSystem.prepare?
      rw [hentry]
      exact .inl ⟨rfl, rfl⟩
    | write => exact h.make? hentry (by decide)
    | append => exact h.make? hentry (by decide)

private theorem lend (h : a.Mirrors fs) (file : OpenFile) :
    (a.lend file).1 = (fs.handles.nextId : Int) ∧
      (a.lend file).2.Mirrors { fs with handles := fs.handles.insert file } := by
  have hinUse (k : Int) := h.sound.get?_insert file k
  unfold Archive.lend IdTable.nextId at *
  cases hfree : fs.handles.free with
  | nil =>
    rw [hfree] at hinUse
    rw [h.spare, hfree]
    refine ⟨congrArg Int.ofNat h.count, ?_⟩
    exact
      { entries := h.entries
        distinct := h.distinct
        inUse := fun k => by
          rw [hinUse, Assoc.lookup_put, h.inUse, h.count]
          rfl
        sound := h.sound.insert file
        spare := by
          rw [IdTable.insert_of_nil hfree]
          exact hfree.symm
        count := by
          rw [IdTable.insert_of_nil hfree, h.count]
          exact (Array.size_push _).symm
        search := h.search }
  | cons id rest =>
    rw [hfree] at hinUse
    rw [h.spare, hfree]
    refine ⟨rfl, ?_⟩
    exact
      { entries := h.entries
        distinct := h.distinct
        inUse := fun k => by
          rw [hinUse, Assoc.lookup_put, h.inUse]
          rfl
        sound := h.sound.insert file
        spare := by rw [IdTable.insert_of_cons hfree]
        count := by
          rw [IdTable.insert_of_cons hfree, h.count]
          exact Array.size_setIfInBounds.symm
        search := h.search }

theorem openFile (h : a.Mirrors fs) (path : String) (mode : OpenMode) :
    (a.openFile path mode).1 = (fs.openFile path mode).1 ∧
      (a.openFile path mode).2.Mirrors (fs.openFile path mode).2 := by
  unfold Archive.openFile FileSystem.openFile
  dsimp only
  obtain ⟨hnone, hnone'⟩ | ⟨a', fs', hready, hready', h'⟩ := h.prepare? (normalize path) mode
  · rw [hnone, hnone']
    exact ⟨rfl, h⟩
  · rw [hready, hready']
    dsimp only
    rw [h'.entries]
    obtain ⟨hnumber, hlent⟩ := h'.lend ⟨normalize path, mode,
      if mode = .append then ((fs'.entryAt? (normalize path)).map (·.data.length)).getD 0 else 0⟩
    refine ⟨hnumber, ?_⟩
    by_cases hread : mode = .read
    · rw [if_pos hread]
      exact hlent
    · rw [if_neg hread]
      exact hlent.changed

theorem close (h : a.Mirrors fs) (handle : Int) :
    (a.close handle).1 = (fs.close handle).1 ∧ (a.close handle).2.Mirrors (fs.close handle).2 := by
  unfold Archive.close FileSystem.close
  rw [h.inUse]
  cases hfile : fs.handles.get? handle with
  | none => exact ⟨rfl, h⟩
  | some file =>
    have hsome : (fs.handles.get? handle).isSome = true := by rw [hfile]; rfl
    refine ⟨rfl, ?_⟩
    exact
      { entries := h.entries
        distinct := h.distinct
        inUse := fun k => by
          change (Assoc.drop a.inUse handle).lookup k = (fs.handles.erase handle).get? k
          rw [Assoc.lookup_drop, IdTable.get?_erase, h.inUse]
        sound := h.sound.erase handle
        spare := by
          change handle.toNat :: a.spare = (fs.handles.erase handle).free
          rw [IdTable.erase, if_pos hsome, h.spare]
        count := h.count.trans (IdTable.size_erase _ _).symm
        search := h.search }

/-! ### Bytes -/

private theorem slice?_eq {data : List UInt8} {start finish : Nat} (hstart : start ≤ finish)
    (hfinish : finish ≤ data.length) :
    slice? data start finish = some ((data.drop start).take (finish - start)) :=
  if_pos ⟨hstart, hfinish⟩

private theorem splice?_extended (data bytes : List UInt8) (start : Nat) :
    splice? (extended data (start + bytes.length)) start bytes =
      some (overwrite data start bytes) := by
  have hlength : (extended data (start + bytes.length)).length =
      max data.length (start + bytes.length) := by
    unfold extended
    rw [List.length_append, List.length_replicate]
    omega
  have hbefore : (extended data (start + bytes.length)).take start =
      data.take start ++ List.replicate (start - data.length) 0 := by
    unfold extended
    rw [List.take_append, List.take_replicate]
    congr 2
    omega
  have hbehind : (extended data (start + bytes.length)).drop (start + bytes.length) =
      data.drop (start + bytes.length) := by
    unfold extended
    rw [List.drop_append, List.drop_replicate]
    have hnone : start + bytes.length - data.length - (start + bytes.length - data.length) = 0 := by
      omega
    rw [hnone, List.replicate_zero, List.append_nil]
  unfold splice? overwrite
  rw [if_pos (by omega), hbefore, hbehind]

theorem read (h : a.Mirrors fs) (handle : Int) (limit : Nat) :
    ∃ a', a.read handle limit = some ((fs.read handle limit).1, a') ∧
      a'.Mirrors (fs.read handle limit).2 := by
  unfold Archive.read FileSystem.read
  rw [h.inUse]
  cases hfile : fs.handles.get? handle with
  | none => exact ⟨a, rfl, h⟩
  | some file =>
    dsimp only
    rw [h.entries]
    cases hentry : fs.entryAt? file.path with
    | none => exact ⟨a, rfl, h⟩
    | some entry =>
      dsimp only
      have hlength : min file.cursor entry.data.length +
          ((entry.data.drop (min file.cursor entry.data.length)).take limit).length =
            min (min file.cursor entry.data.length + limit) entry.data.length := by
        rw [List.length_take, List.length_drop]
        omega
      have htake : (entry.data.drop (min file.cursor entry.data.length)).take
          (min (min file.cursor entry.data.length + limit) entry.data.length -
            min file.cursor entry.data.length) =
          (entry.data.drop (min file.cursor entry.data.length)).take limit := by
        rw [List.take_eq_take_iff, List.length_drop]
        omega
      rw [slice?_eq (by omega) (by omega), htake, hlength]
      exact ⟨_, rfl, h.moveTo hfile _⟩

theorem write (h : a.Mirrors fs) (handle : Int) (bytes : List UInt8) :
    ∃ a', a.write handle bytes = some ((fs.write handle bytes).1, a') ∧
      a'.Mirrors (fs.write handle bytes).2 := by
  unfold Archive.write FileSystem.write
  rw [h.inUse]
  cases hfile : fs.handles.get? handle with
  | none => exact ⟨a, rfl, h⟩
  | some file =>
    dsimp only
    by_cases hmode : file.mode = .read
    · rw [if_pos hmode, if_pos hmode]
      exact ⟨a, rfl, h⟩
    · rw [if_neg hmode, if_neg hmode, h.entries]
      cases hentry : fs.entryAt? file.path with
      | none => exact ⟨a, rfl, h⟩
      | some entry =>
        have hkept := h.keep file.path ⟨entry.isDirectory, overwrite entry.data file.cursor bytes⟩
        dsimp only
        rw [splice?_extended]
        exact ⟨_, rfl, (hkept.moveTo hfile (file.cursor + bytes.length)).changed⟩

theorem seek (h : a.Mirrors fs) (handle offset : Int) (origin : SeekOrigin) :
    (a.seek handle offset origin).1 = (fs.seek handle offset origin).1 ∧
      (a.seek handle offset origin).2.Mirrors (fs.seek handle offset origin).2 := by
  unfold Archive.seek FileSystem.seek
  rw [h.inUse]
  cases hfile : fs.handles.get? handle with
  | none => exact ⟨rfl, h⟩
  | some file =>
    dsimp only
    rw [h.entries]
    generalize ((fs.entryAt? file.path).map (·.data.length)).getD 0 = size
    have hclamped (wanted : Int) :
        ((min wanted.toNat size : Nat) : Int) = max 0 (min (size : Int) wanted) := by
      omega
    have hplace (wanted : Int) :
        (max 0 (min (size : Int) wanted)).toNat = min wanted.toNat size := by
      rw [← hclamped, Int.toNat_natCast]
    refine ⟨hclamped _, ?_⟩
    rw [← hplace]
    exact h.moveTo hfile _

theorem length (h : a.Mirrors fs) (handle : Int) : a.length handle = fs.length handle := by
  unfold Archive.length FileSystem.length
  rw [h.inUse]
  cases hfile : fs.handles.get? handle with
  | none => rfl
  | some file =>
    dsimp only
    rw [h.entries]
    cases fs.entryAt? file.path <;> rfl

/-! ### Entries by path -/

theorem mem_entries (h : a.Mirrors fs) {path : String} {entry : Entry} :
    (path, entry) ∈ a.entries ↔ (path, entry) ∈ fs.entries.toList := by
  rw [h.distinct.mem_iff, h.entries, Std.TreeMap.mem_toList_iff_getElem?_eq_some]
  rfl

private theorem hasChildren_eq (h : a.Mirrors fs) (directory : String) :
    (a.entries.any fun e => isChildOf directory e.1) = fs.hasChildren directory := by
  unfold hasChildren
  rw [← Std.TreeMap.map_fst_toList_eq_keys, List.any_map, Bool.eq_iff_iff, List.any_eq_true,
    List.any_eq_true]
  constructor
  · rintro ⟨⟨path, entry⟩, hmem, hchild⟩
    exact ⟨(path, entry), h.mem_entries.mp hmem, hchild⟩
  · rintro ⟨⟨path, entry⟩, hmem, hchild⟩
    exact ⟨(path, entry), h.mem_entries.mpr hmem, hchild⟩

private theorem sorted_paths (h : a.Mirrors fs) (p : String × Entry → Bool) :
    ((a.entries.filter p).map Prod.fst).mergeSort (fun p q => (compare p q).isLE) =
      (fs.entries.toList.filter p).map Prod.fst := by
  have hordered : ((fs.entries.toList.filter p).map Prod.fst).Pairwise
      fun p q => compare p q = .lt := by
    rw [List.pairwise_map]
    exact Std.TreeMap.ordered_keys_toList.sublist List.filter_sublist
  have hle : ((fs.entries.toList.filter p).map Prod.fst).Pairwise
      fun p q => (compare p q).isLE = true :=
    hordered.imp fun hlt => by rw [hlt]; rfl
  have hnodup : ((fs.entries.toList.filter p).map Prod.fst).Nodup :=
    hordered.imp fun {p q} hlt heq => by
      rw [heq, Std.ReflOrd.compare_self] at hlt
      cases hlt
  have hnodup' : ((a.entries.filter p).map Prod.fst).Nodup :=
    (List.filter_sublist.map Prod.fst).nodup h.distinct
  have hperm : ((a.entries.filter p).map Prod.fst).Perm
      ((fs.entries.toList.filter p).map Prod.fst) := by
    rw [List.perm_ext_iff_of_nodup hnodup' hnodup]
    intro path
    simp only [List.mem_map, List.mem_filter, Prod.exists, exists_and_right, exists_eq_right,
      h.mem_entries]
  have htotal (p q : String) : ((compare p q).isLE || (compare q p).isLE) = true := by
    rw [Std.OrientedOrd.eq_swap (a := q) (b := p)]
    cases compare p q <;> rfl
  have hsorted : (((a.entries.filter p).map Prod.fst).mergeSort
      fun p q => (compare p q).isLE).Pairwise fun p q => (compare p q).isLE = true :=
    List.pairwise_mergeSort (fun _ _ _ => Std.TransCmp.isLE_trans) htotal _
  refine List.Perm.eq_of_pairwise (fun p q _ _ hpq hqp => ?_) hsorted hle
    ((List.mergeSort_perm _ _).trans hperm)
  exact Std.LawfulEqOrd.eq_of_compare (Std.OrientedCmp.isLE_antisymm hpq hqp)

private theorem filesIn_eq (h : a.Mirrors fs) (directory : String) :
    a.filesIn directory = fs.filesIn directory := by
  unfold Archive.filesIn FileSystem.filesIn
  dsimp only
  rw [h.sorted_paths, List.map_map]
  rfl

private theorem matching_eq (h : a.Mirrors fs) (regex : Regex) (directory pattern : String) :
    a.matching regex directory pattern = fs.matching regex directory pattern := by
  unfold Archive.matching FileSystem.matching
  rw [h.filesIn_eq]
  cases regex.compile? (globExpression regex pattern) <;> rfl

theorem delete (h : a.Mirrors fs) (path : String) :
    (a.delete path).1 = (fs.delete path).1 ∧ (a.delete path).2.Mirrors (fs.delete path).2 := by
  unfold Archive.delete FileSystem.delete
  dsimp only
  rw [h.entries, h.hasChildren_eq]
  cases hseeded : seeded.contains (normalize path) with
  | true =>
    rw [if_pos rfl]
    cases fs.entryAt? (normalize path) with
    | none => exact ⟨rfl, h⟩
    | some entry => exact ⟨rfl, h⟩
  | false =>
    rw [if_neg Bool.false_ne_true]
    cases fs.entryAt? (normalize path) with
    | none => exact ⟨rfl, h⟩
    | some entry =>
      dsimp only
      by_cases hfull : (entry.isDirectory && fs.hasChildren (normalize path)) = true
      · rw [if_pos (.inr (by simpa using hfull)), if_pos hfull]
        exact ⟨rfl, h⟩
      · rw [if_neg (by simpa using hfull), if_neg hfull]
        exact ⟨rfl, (h.drop _).changed⟩

theorem makeDirectory (h : a.Mirrors fs) (path : String) :
    (a.makeDirectory path).1 = (fs.makeDirectory path).1 ∧
      (a.makeDirectory path).2.Mirrors (fs.makeDirectory path).2 := by
  unfold Archive.makeDirectory FileSystem.makeDirectory
  dsimp only
  rw [h.entries]
  cases fs.entryAt? (normalize path) with
  | none => exact ⟨rfl, (h.withDirectories _).changed⟩
  | some entry =>
    obtain ⟨isDirectory, data⟩ := entry
    cases isDirectory with
    | true => exact ⟨rfl, h⟩
    | false => exact ⟨rfl, h⟩

/-! ### Searches -/

theorem findNext (h : a.Mirrors fs) :
    a.findNext.1 = fs.findNext.1 ∧ a.findNext.2.Mirrors fs.findNext.2 := by
  unfold Archive.findNext FileSystem.findNext
  rw [h.search]
  cases fs.search with
  | none => exact ⟨rfl, h⟩
  | some names =>
    cases names with
    | nil => exact ⟨rfl, h⟩
    | cons name rest => exact ⟨rfl, h.setSearch _⟩

theorem findFirst (h : a.Mirrors fs) (pattern : String) (regex : Regex) :
    (a.findFirst pattern regex).1 = (fs.findFirst pattern regex).1 ∧
      (a.findFirst pattern regex).2.Mirrors (fs.findFirst pattern regex).2 := by
  unfold Archive.findFirst FileSystem.findFirst
  dsimp only
  rw [h.matching_eq]
  exact (h.setSearch _).findNext

theorem findClose (h : a.Mirrors fs) :
    a.findClose.1 = fs.findClose.1 ∧ a.findClose.2.Mirrors fs.findClose.2 := by
  unfold Archive.findClose FileSystem.findClose
  rw [h.search]
  cases fs.search with
  | none => exact ⟨rfl, h⟩
  | some names => exact ⟨rfl, h.setSearch none⟩

theorem putFile (h : a.Mirrors fs) (path : String) (bytes : List UInt8) :
    ∃ a', a.putFile path bytes = some ((fs.putFile path bytes).1, a') ∧
      a'.Mirrors (fs.putFile path bytes).2 := by
  obtain ⟨hhandle, hopened⟩ := h.openFile path .write
  unfold Archive.putFile FileSystem.putFile
  dsimp only
  rw [hhandle]
  by_cases hfails : (fs.openFile path .write).1 < 0
  · rw [if_pos hfails, if_pos hfails]
    exact ⟨_, rfl, hopened⟩
  · rw [if_neg hfails, if_neg hfails]
    obtain ⟨a', hwrite, hwritten⟩ := hopened.write (fs.openFile path .write).1 bytes
    rw [hwrite]
    exact ⟨_, rfl, (hwritten.close _).2⟩

end Mirrors

end Archive

end ControlLogic
