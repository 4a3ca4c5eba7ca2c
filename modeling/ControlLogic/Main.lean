import ControlLogic.Command.Execute

/-!
The command line: reads the files and variables a command asks for, carries it out, and writes what
it leaves.
-/

set_option autoImplicit false
set_option relaxedAutoImplicit false

namespace ControlLogic.Command

def readFailureOf : IO.Error → ReadFailure
  | .noFileOrDirectory _ _ _ => .missing
  | .inappropriateType _ _ _ => .directory
  | .permissionDenied _ _ _ => .denied
  | error => .other (toString error)

def readText (path : String) : IO (Except ReadFailure String) := do
  match ← (IO.FS.readBinFile path).toBaseIO with
  | .error error => return .error (readFailureOf error)
  | .ok bytes =>
    match String.fromUTF8? bytes with
    | some text => return .ok text
    | none => return .error .notText

def variableNames : List String :=
  ["SPLUS_STEP_LIMIT", "SPLUS_VIRTUAL_CLOCK", "SPLUS_DEFINES"]

def surroundingsOf (args : List String) : IO Surroundings := do
  let paths := ((parse? args).map Command.files).getD []
  let texts ← paths.mapM fun path => return (path, ← readText path)
  let values ← variableNames.mapM fun name => return (name, ← IO.getEnv name)
  return {
    read := fun path => (texts.lookup path).getD (.error .missing)
    lookup := fun name => (values.lookup name).join }

end ControlLogic.Command

def main (args : List String) : IO UInt32 := do
  let report := ControlLogic.Command.executeArguments
    (← ControlLogic.Command.surroundingsOf args) args
  IO.print report.output
  IO.eprint report.errors
  return report.code.toUInt32
