import ControlLogic.Command.Arguments
import ControlLogic.Number.Numeral

/-!
Commands of the command line.
-/

set_option autoImplicit false
set_option relaxedAutoImplicit false

namespace ControlLogic

/-- How a program is run: names to define, a scenario, the clock, limits, and whether writes to
outputs are shown. -/
structure RunOptions where
  input : String
  defines : List String := []
  scenario : Option String := none
  virtualClock : Bool := false
  stepLimit : Option Nat := none
  settle : Option Nat := none
  showOutputs : Bool := false
  deriving DecidableEq, Repr, Inhabited

/-- What is to be done: tell the version, run a program, check files, or write the tokens or the
tree of a file. -/
inductive Command where
  | version
  | run (options : RunOptions)
  | check (paths defines : List String)
  | tokens (input : String) (asDocument : Bool)
  | tree (input : String) (defines : List String)
  deriving DecidableEq, Repr, Inhabited

namespace Command

def defineOption : OptionSpec :=
  { long := "define", short := some 'D', takesValue := true, repeats := true }

def runOptions : List OptionSpec :=
  [defineOption, { long := "scenario", short := some 's', takesValue := true },
    { long := "virtual-clock" }, { long := "step-limit", takesValue := true },
    { long := "settle-ms", takesValue := true }, { long := "show-outputs" }]

/-- The only word, which is not empty. -/
def onlyWord? (a : Arguments) : Option String :=
  match a.words with
  | [word] => if word = "" then none else some word
  | _ => none

/-- The number of an option, if it is given: an unsigned 64-bit integer. -/
def number? (a : Arguments) (long : String) : Option (Option Nat) :=
  match a.value? long with
  | none => some none
  | some value => (Number.unsignedWord? value.toList).map some

def run? (args : List String) : Option Command := do
  let a ← arguments? runOptions args
  let input ← onlyWord? a
  let stepLimit ← number? a "step-limit"
  let settle ← number? a "settle-ms"
  if a.value? "scenario" = some "" then none
  else
    return .run {
      input := input
      defines := a.values "define"
      scenario := a.value? "scenario"
      virtualClock := a.has "virtual-clock"
      stepLimit := stepLimit
      settle := settle
      showOutputs := a.has "show-outputs" }

def parse? : List String → Option Command
  | "run" :: args => run? args
  | "check" :: args => do
    let a ← arguments? [defineOption] args
    if a.words.isEmpty || a.words.contains "" then none
    else return .check a.words (a.values "define")
  | "tokens" :: args => do
    let a ← arguments? [{ long := "json" }] args
    return .tokens (← onlyWord? a) (a.has "json")
  | "ast" :: args => do
    let a ← arguments? [defineOption] args
    return .tree (← onlyWord? a) (a.values "define")
  | "--version" :: _ => some .version
  | "-V" :: _ => some .version
  | _ => none

def files : Command → List String
  | version => []
  | run options => options.input :: options.scenario.toList
  | check paths _ => paths
  | tokens input _ => [input]
  | tree input _ => [input]

def usage : String :=
  "\n".intercalate ["Usage:",
    "  splus run [-D NAME] [-s FILE] [--virtual-clock] [--step-limit N] [--settle-ms MS]",
    "            [--show-outputs] FILE",
    "  splus check [-D NAME] FILE...",
    "  splus tokens [--json] FILE",
    "  splus ast [-D NAME] FILE",
    "  splus --version", ""]

end Command

end ControlLogic
