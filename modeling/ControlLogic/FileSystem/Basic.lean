import Std.Data.TreeMap
import ControlLogic.FileSystem.Path
import ControlLogic.IdTable
import ControlLogic.Number.Word

/-!
A file system in memory: directories and files by their paths in normal form, files in use by
handles, and a search in progress.
-/

set_option autoImplicit false
set_option relaxedAutoImplicit false

namespace ControlLogic

namespace FileSystem

/-- A directory or a file. A directory can come to hold bytes when it takes the path of a file that
is still in use. -/
structure Entry where
  isDirectory : Bool
  data : List UInt8
  deriving DecidableEq, Repr, Inhabited

def Entry.directory : Entry := ⟨true, []⟩

def Entry.file : Entry := ⟨false, []⟩

/-- What a file is opened for: reading, writing from its start after it was emptied, or writing
behind its end. -/
inductive OpenMode where
  | read
  | write
  | append
  deriving DecidableEq, Repr, Inhabited

/-- The mode some flags ask for: bit 3 for `append`; else any of bits 0, 1, 8 and 9 for `write`. -/
def OpenMode.ofFlags (flags : Int) : OpenMode :=
  if Number.bitAnd flags 8 != 0 then .append
  else if Number.bitAnd flags (1 + 2 + 256 + 512) != 0 then .write
  else .read

/-- A file in use and the place in it where reading and writing go on. -/
structure OpenFile where
  path : String
  mode : OpenMode
  cursor : Nat
  deriving DecidableEq, Repr, Inhabited

/-- Where a distance is counted from. -/
inductive SeekOrigin where
  | start
  | current
  | finish
  deriving DecidableEq, Repr, Inhabited

def SeekOrigin.ofCode (code : Int) : SeekOrigin :=
  if code = 1 then .current else if code = 2 then .finish else .start

/-- Directories that are always there. -/
def seeded : List String :=
  [root, "/nvram", "/user"]

def seedEntries : Std.TreeMap String Entry :=
  seeded.foldl (fun entries path => entries.insert path .directory) {}

/-- The bytes of a file after some were written at a place; a gap is filled with zeros. -/
def overwrite (data : List UInt8) (cursor : Nat) (bytes : List UInt8) : List UInt8 :=
  data.take cursor ++ List.replicate (cursor - data.length) 0 ++ bytes ++
    data.drop (cursor + bytes.length)

end FileSystem

open FileSystem in
/-- A file system: entries by path, files in use, the names a search has still to give, and how
often something has changed. -/
structure FileSystem where
  entries : Std.TreeMap String Entry := seedEntries
  handles : IdTable OpenFile := {}
  search : Option (List String) := none
  changes : Nat := 0
  deriving Inhabited

namespace FileSystem

def changed (fs : FileSystem) : FileSystem :=
  { fs with changes := fs.changes + 1 }

def entryAt? (fs : FileSystem) (path : String) : Option Entry :=
  fs.entries.get? path

/-- The paths from `path` upwards that have no entry, up to the first that has one. -/
def missingFrom (fs : FileSystem) : Nat → String → List String
  | 0, _ => []
  | fuel + 1, path =>
    if fs.entries.contains path then []
    else path :: ((parent? path).map (missingFrom fs fuel)).getD []

def ensureDirectories (fs : FileSystem) (path : String) : FileSystem :=
  let missing := fs.missingFrom (path.length + 1) path
  { fs with entries := missing.foldr (fun p entries => entries.insert p .directory) fs.entries }

/-- Makes ready the file at a path in normal form; `none` if there is none and cannot be one. -/
def prepare? (fs : FileSystem) (path : String) (mode : OpenMode) : Option FileSystem :=
  match fs.entryAt? path with
  | some entry =>
    if entry.isDirectory then none
    else if mode = .write then
      some { fs with entries := fs.entries.insert path .file }
    else some fs
  | none =>
    if mode = .read then none
    else
      match parent? path with
      | none => some { fs with entries := fs.entries.insert path .file }
      | some parent =>
        if (fs.entryAt? parent).any (!·.isDirectory) then none
        else
          let fs := fs.ensureDirectories parent
          some { fs with entries := fs.entries.insert path .file }

def openFile (fs : FileSystem) (path : String) (mode : OpenMode) : Int × FileSystem :=
  let path := normalize path
  match fs.prepare? path mode with
  | none => (-1, fs)
  | some fs =>
    let cursor :=
      if mode = .append then ((fs.entryAt? path).map (·.data.length)).getD 0 else 0
    let id := fs.handles.nextId
    let fs := { fs with handles := fs.handles.insert ⟨path, mode, cursor⟩ }
    (Int.ofNat id, if mode = .read then fs else fs.changed)

def close (fs : FileSystem) (handle : Int) : Int × FileSystem :=
  if (fs.handles.get? handle).isSome then (0, { fs with handles := fs.handles.erase handle })
  else (-1, fs)

def moveTo (fs : FileSystem) (handle : Int) (file : OpenFile) (cursor : Nat) : FileSystem :=
  { fs with handles := fs.handles.set handle { file with cursor := cursor } }

/-- Reads up to `limit` bytes; `none` if the handle is not in use or its file is gone. -/
def read (fs : FileSystem) (handle : Int) (limit : Nat) : Option (List UInt8) × FileSystem :=
  match fs.handles.get? handle with
  | none => (none, fs)
  | some file =>
    match fs.entryAt? file.path with
    | none => (none, fs)
    | some entry =>
      let start := min file.cursor entry.data.length
      let bytes := (entry.data.drop start).take limit
      (some bytes, fs.moveTo handle file (start + bytes.length))

/-- Writes bytes; their number, or -1 if the handle is not in use for writing or its file is gone.
-/
def write (fs : FileSystem) (handle : Int) (bytes : List UInt8) : Int × FileSystem :=
  match fs.handles.get? handle with
  | none => (-1, fs)
  | some file =>
    if file.mode = .read then (-1, fs)
    else
      match fs.entryAt? file.path with
      | none => (-1, fs)
      | some entry =>
        let entry := { entry with data := overwrite entry.data file.cursor bytes }
        let fs := { fs with entries := fs.entries.insert file.path entry }
        (Int.ofNat bytes.length, (fs.moveTo handle file (file.cursor + bytes.length)).changed)

/-- Moves the place in a file, not beyond its ends; the new place, or -1. -/
def seek (fs : FileSystem) (handle offset : Int) (origin : SeekOrigin) : Int × FileSystem :=
  match fs.handles.get? handle with
  | none => (-1, fs)
  | some file =>
    let length := Int.ofNat (((fs.entryAt? file.path).map (·.data.length)).getD 0)
    let base :=
      match origin with
      | .start => 0
      | .current => Int.ofNat file.cursor
      | .finish => length
    let target := max 0 (min length (base + offset))
    (target, fs.moveTo handle file target.toNat)

def length (fs : FileSystem) (handle : Int) : Int :=
  match fs.handles.get? handle with
  | none => -1
  | some file => ((fs.entryAt? file.path).map fun e => Int.ofNat e.data.length).getD (-1)

def isChildOf (directory path : String) : Bool :=
  path != root && parent? path == some directory

def hasChildren (fs : FileSystem) (directory : String) : Bool :=
  fs.entries.keys.any (isChildOf directory)

def delete (fs : FileSystem) (path : String) : Int × FileSystem :=
  let path := normalize path
  if seeded.contains path then (-1, fs)
  else
    match fs.entryAt? path with
    | none => (-1, fs)
    | some entry =>
      if entry.isDirectory && fs.hasChildren path then (-1, fs)
      else (0, { fs with entries := fs.entries.erase path }.changed)

def exists? (fs : FileSystem) (path : String) : Bool :=
  (fs.entryAt? (normalize path)).isSome

def isDirectory (fs : FileSystem) (path : String) : Bool :=
  (fs.entryAt? (normalize path)).any Entry.isDirectory

/-- Makes a directory, and those above it; 0, or -1 if a file is in its place. -/
def makeDirectory (fs : FileSystem) (path : String) : Int × FileSystem :=
  let path := normalize path
  match fs.entryAt? path with
  | some entry => (if entry.isDirectory then 0 else -1, fs)
  | none => (0, (fs.ensureDirectories path).changed)

def filesIn (fs : FileSystem) (directory : String) : List String :=
  (fs.entries.toList.filter fun (path, entry) =>
    isChildOf directory path && !entry.isDirectory).map fun (path, _) => fileName path

/-- The names of the files in a directory that match a pattern, ascending; none if the regular
expression of the pattern is not taken. -/
def matching (fs : FileSystem) (regex : Regex) (directory pattern : String) : List String :=
  match regex.compile? (globExpression regex pattern) with
  | some accepts => (fs.filesIn directory).filter accepts
  | none => []

def findNext (fs : FileSystem) : String × FileSystem :=
  match fs.search with
  | some (name :: rest) => (name, { fs with search := some rest })
  | _ => ("", fs)

def findFirst (fs : FileSystem) (pattern : String) (regex : Regex := .standard) :
    String × FileSystem :=
  let (directory, glob) := splitPath (normalize pattern)
  { fs with search := some (fs.matching regex directory glob) }.findNext

def findClose (fs : FileSystem) : Int × FileSystem :=
  match fs.search with
  | some _ => (0, { fs with search := none })
  | none => (-1, fs)

def contents? (fs : FileSystem) (path : String) : Option (List UInt8) :=
  ((fs.entryAt? (normalize path)).filter (!·.isDirectory)).map Entry.data

def putFile (fs : FileSystem) (path : String) (bytes : List UInt8) : Bool × FileSystem :=
  let (handle, fs) := fs.openFile path .write
  if handle < 0 then (false, fs)
  else
    let (written, fs) := fs.write handle bytes
    let (_, fs) := fs.close handle
    (0 ≤ written, fs)

def clear (fs : FileSystem) : FileSystem :=
  ({ changes := fs.changes } : FileSystem).changed

end FileSystem

end ControlLogic
