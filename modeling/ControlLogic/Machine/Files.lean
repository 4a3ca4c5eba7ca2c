import ControlLogic.Machine.Place
import ControlLogic.Text.Bytes

/-!
Routines on files.
-/

set_option autoImplicit false
set_option relaxedAutoImplicit false

namespace ControlLogic.Run

def withFiles {α : Type} (f : FileSystem → α × FileSystem) : Run α :=
  modifyGet fun m =>
    let (a, files) := f m.files
    (a, { m with files := files })

/-- Reads from a file into a variable; the number of bytes read, or -1. -/
def fileRead (eval : Expr → Run Value) (args : List Expr) : Run Value := do
  let handle ← argNumber eval args 0
  let limit := (← argNumber eval args 2).toNat
  match ← withFiles (·.read handle limit) with
  | none => return .number (-1)
  | some bytes =>
    storeText eval args 1 (Text.ofBytes bytes)
    return .number (Int.ofNat bytes.length)

/-- Writes a text, or as many of its characters as asked for, to a file. -/
def fileWrite (eval : Expr → Run Value) (args : List Expr) : Run Value := do
  let handle ← argNumber eval args 0
  let bytes := Text.toBytes (← argText eval args 1)
  let bytes ←
    if args.length > 2 then pure (bytes.take (← argNumber eval args 2).toNat) else pure bytes
  return .number (← withFiles (·.write handle bytes))

def fileRoutine (eval : Expr → Run Value) (name : String) (args : List Expr) :
    Option (Run Value) :=
  match name with
  | "STARTFILEOPERATIONS" => some (return .zero)
  | "ENDFILEOPERATIONS" => some (return .zero)
  | "FILEOPEN" => some do
    let path ← argText eval args 0
    let flags ← argNumber eval args 1
    return .number (← withFiles (·.openFile path (.ofFlags flags)))
  | "FILECLOSE" => some do
    let handle ← argNumber eval args 0
    return .number (← withFiles (·.close handle))
  | "FILEREAD" => some (fileRead eval args)
  | "FILEWRITE" => some (fileWrite eval args)
  | "FILESEEK" => some do
    let handle ← argNumber eval args 0
    let offset ← argNumber eval args 1
    let origin ← argNumber eval args 2
    return .number (← withFiles (·.seek handle offset (.ofCode origin)))
  | "FILEDELETE" => some do
    let path ← argText eval args 0
    return .number (← withFiles (·.delete path))
  | "FILELENGTH" => some do
    let handle ← argNumber eval args 0
    return .number ((← get).files.length handle)
  | "FILEEXISTS" => some do
    let path ← argText eval args 0
    return .ofBool ((← get).files.exists? path)
  | "ISDIRECTORY" => some do
    let path ← argText eval args 0
    return .ofBool ((← get).files.isDirectory path)
  | "MAKEDIRECTORY" => some do
    let path ← argText eval args 0
    return .number (← withFiles (·.makeDirectory path))
  | "FINDFIRST" => some do
    let pattern ← argText eval args 0
    let regex := (← get).config.regex
    let found ← withFiles (·.findFirst pattern regex)
    storeText eval args 1 found
    return .text found
  | "FINDNEXT" => some do
    let found ← withFiles FileSystem.findNext
    storeText eval args 0 found
    return .text found
  | "FINDCLOSE" => some do
    return .number (← withFiles FileSystem.findClose)
  | _ => none

end ControlLogic.Run
