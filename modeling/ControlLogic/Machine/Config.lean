import ControlLogic.Library.Basic
import ControlLogic.Number.Numeral
import ControlLogic.Text.Ascii
import ControlLogic.Text.Regex

/-!
Settings of a machine and of its host, and how variables of the surroundings change them.
-/

set_option autoImplicit false
set_option relaxedAutoImplicit false

namespace ControlLogic

/--
Settings of a machine: how many steps a run may take, how deep calls may nest, how long connecting
and an answer take in milliseconds, and the names defined for conditions in a text. `rounds` bounds
the work done while time passes, so that a program that puts off work without end cannot hold the
machine for ever. What the surroundings give is settled too: `moment` is the date the calendar
tells, random numbers come from `chance`, and `regex` matches the names of files.
-/
structure Settings where
  stepLimit : Nat := 1000000
  connectDelay : Nat := 100
  responseDelay : Nat := 50
  defines : List String := []
  maxCallDepth : Nat := 256
  rounds : Nat := 1000000000000
  moment : Library.Moment := ⟨2026, 6, 15, 1, 12, 30, 45⟩
  chance : Library.Chance := default
  regex : Regex := .standard
  deriving Inhabited

/-- The clock a host runs a machine on: the time of day, or a clock that jumps to the next work at
once. -/
inductive ClockMode where
  | real
  | virtual
  deriving DecidableEq, Repr, Inhabited

/-- Settings of a host: those of the machines it runs, and the clock. A machine itself knows nothing
of the time of day: all its time is that of the virtual clock. -/
structure Config extends Settings where
  clock : ClockMode := .real
  deriving Inhabited

instance : Coe Config Settings := ⟨Config.toSettings⟩

namespace Config

/-- The names in a list separated by commas, without blanks around them and without empty ones. -/
def namesOf (list : String) : List String :=
  ((list.toList.splitOn ',').map fun part => String.ofList (Text.trim part)).filter (· != "")

/-- The settings with what some variables of the surroundings say. A step limit that is no unsigned
64-bit integer says nothing. -/
def ofEnvironment (lookup : String → Option String) : Config :=
  let base : Config := {}
  let base :=
    match lookup "SPLUS_STEP_LIMIT" >>= fun s => Number.unsignedWord? (Text.trim s.toList) with
    | some limit => { base with stepLimit := limit }
    | none => base
  let base :=
    match lookup "SPLUS_VIRTUAL_CLOCK" with
    | some flag =>
      if ["1", "true", "yes"].contains (Text.lower (Text.trimString flag)) then
        { base with clock := .virtual }
      else base
    | none => base
  match lookup "SPLUS_DEFINES" with
  | some list => { base with defines := namesOf list }
  | none => base

end Config

end ControlLogic
