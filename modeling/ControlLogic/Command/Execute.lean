import ControlLogic.Command.Basic
import ControlLogic.Machine.Host
import ControlLogic.Program.Document
import ControlLogic.Scenario
import ControlLogic.Transcript

/-!
What commands do: from the files and variables of the surroundings to texts and an exit code.
-/

set_option autoImplicit false
set_option relaxedAutoImplicit false

namespace ControlLogic

/-- Why a file cannot be read. -/
inductive ReadFailure where
  | missing
  | directory
  | notADirectory
  | denied
  | notText
  | other (wording : String)
  deriving DecidableEq, Repr, Inhabited

def ReadFailure.message : ReadFailure → String
  | missing => "No such file or directory (os error 2)"
  | directory => "Is a directory (os error 21)"
  | notADirectory => "Not a directory (os error 20)"
  | denied => "Permission denied (os error 13)"
  | notText => "stream did not contain valid UTF-8"
  | other wording => wording

/-- The files and the variables a command can see. -/
structure Surroundings where
  read : String → Except ReadFailure String
  lookup : String → Option String

/-- What a command leaves: what it wrote, what it complained about, and its exit code. -/
structure Report where
  output : String := ""
  errors : String := ""
  code : Nat := 0
  deriving DecidableEq, Repr, Inhabited

namespace Report

def line (r : Report) (text : String) : Report :=
  { r with output := r.output ++ text ++ "\n" }

def write (r : Report) (text : String) : Report :=
  { r with output := r.output ++ text }

def complain (r : Report) (text : String) : Report :=
  { r with errors := r.errors ++ text ++ "\n" }

def finish (r : Report) (success : Bool) : Report :=
  { r with code := if success then 0 else 1 }

def fail (r : Report) (text : String) : Report :=
  (r.complain ("Error: " ++ text)).finish false

end Report

namespace Command

def versionText : String := "splus 0.4.0"

/-- The wording of a source file that cannot be read. -/
def readFailure (path : String) (failure : ReadFailure) : String :=
  "Failed to read '" ++ path ++ "': " ++ failure.message

/-- Shows what the host of a run was told: prints as they are, writes to outputs if they are wanted,
errors as complaints. Notices are not shown. -/
def showEvent (showOutputs : Bool) (r : Report) : Event → Report
  | .print text => r.write text
  | .output kind name v =>
    if showOutputs then r.line ("-> " ++ describeOutput kind name v) else r
  | .error d => r.complain ("error: " ++ d.render)
  | .notice _ => r

/-- The settings of a run: from the surroundings, then the scenario, then the options. -/
def settings (surroundings : Surroundings) (scenario : Option Scenario) (options : RunOptions) :
    Config :=
  let config := Config.ofEnvironment surroundings.lookup
  let config := (scenario.map (·.configure config)).getD config
  { config with
    clock := if options.virtualClock then .virtual else config.clock
    stepLimit := options.stepLimit.getD config.stepLimit
    defines := config.defines ++ options.defines }

/-- Lets the time pass that a run still wants after its entry function: as long as it was told to,
or else on the virtual clock until nothing is planned, and on the real one until the last
stimulus. -/
def passRest (clock : ClockMode) (m : Machine) (settle : Option Nat) (lastStimulus : Nat) :
    Machine :=
  match settle with
  | some duration => m.advance duration
  | none => if clock = .virtual then m.settle else m.advance (lastStimulus - m.now)

def runProgram (source : String) (scenario : Option Scenario) (config : Config)
    (options : RunOptions) : Report :=
  let (loaded, m) := (Machine.new config).load source
  let timeline := (scenario.map Scenario.timeline).getD []
  let m := timeline.foldl (fun m (time, stimulus) => (m.scheduleStimulus time stimulus).2) m
  let (outcome, m) := m.runMain
  let settle := options.settle.or (scenario.bind Scenario.settle)
  let m := passRest config.clock m settle ((timeline.getLast?.map Prod.fst).getD 0)
  let failed :=
    match outcome with
    | .failed _ | .stepLimitExceeded => true
    | .completed | .stopped | .noMain | .unfinished => false
  (m.log.foldl (showEvent options.showOutputs) {}).finish (!failed && loaded.errors.isEmpty)

def scenarioOf (surroundings : Surroundings) : Option String → Except String (Option Scenario)
  | none => .ok none
  | some path =>
    match surroundings.read path with
    | .error failure =>
      .error ("Failed to read scenario '" ++ path ++ "': " ++ failure.message)
    | .ok text =>
      match Scenario.parse? text with
      | some scenario => .ok (some scenario)
      | none => .error Scenario.parseFailure

def executeRun (surroundings : Surroundings) (options : RunOptions) : Report :=
  match surroundings.read options.input with
  | .error failure => Report.fail {} (readFailure options.input failure)
  | .ok source =>
    match scenarioOf surroundings options.scenario with
    | .error wording => Report.fail {} wording
    | .ok scenario =>
      runProgram source scenario (settings surroundings scenario options) options

def placeIn (path : String) (numbers : List Nat) : String :=
  numbers.foldl (fun s n => s ++ ":" ++ Number.decimal (Int.ofNat n)) path ++ ": "

/-- Reports what is wrong with a source. -/
def checkSource (path : String) (defines : List String) (r : Report) (source : String) :
    Report :=
  let parsed := Program.parse source defines
  let r := parsed.notices.foldl
    (fun r n => r.line (placeIn path [n.line] ++ "note: " ++ n.message)) r
  let r := parsed.errors.foldl
    (fun r e => r.line (placeIn path [e.pos.line, e.pos.column] ++ "error: " ++ e.message)) r
  if parsed.isClean then r.line (path ++ ": ok") else r.finish false

/-- Checks files one after another; a file that cannot be read ends this. -/
def checkFiles (surroundings : Surroundings) (defines : List String) : List String → Report → Report
  | [], r => r
  | path :: rest, r =>
    match surroundings.read path with
    | .error failure => r.fail (readFailure path failure)
    | .ok source => checkFiles surroundings defines rest (checkSource path defines r source)

/-- A text filled up with blanks in front. -/
def padLeft (width : Nat) (s : String) : String :=
  String.ofList (List.replicate (width - s.length) ' ') ++ s

/-- A text filled up with blanks behind. -/
def padRight (width : Nat) (s : String) : String :=
  s ++ String.ofList (List.replicate (width - s.length) ' ')

def tokenLine (t : Token) : String :=
  padLeft 4 (Number.decimal (Int.ofNat t.pos.line)) ++ ":" ++
    padRight 3 (Number.decimal (Int.ofNat t.pos.column)) ++ " " ++ padRight 10 t.kind.label ++
    " " ++ t.text

/-- Writes the tokens of a source: a line for each but the ends of lines, or a document of all. -/
def writeTokens (asDocument : Bool) (source : String) : Report :=
  let tokens := Token.scan source
  if asDocument then Report.line {} (Document.ofList .ofToken tokens).render
  else
    (tokens.filter (·.kind != .newline)).foldl (fun r t => r.line (tokenLine t)) {}

/-- Writes the tree of a source. -/
def writeTree (path : String) (defines : List String) (source : String) : Report :=
  let parsed := Program.parse source defines
  let r : Report := parsed.errors.foldl (fun r e => r.complain (path ++ ": " ++ e.render)) {}
  (r.line (Document.ofProgram parsed.program).render).finish parsed.isClean

def withSource (surroundings : Surroundings) (path : String) (f : String → Report) : Report :=
  match surroundings.read path with
  | .ok source => f source
  | .error failure => Report.fail {} (readFailure path failure)

def execute (surroundings : Surroundings) : Command → Report
  | version => Report.line {} versionText
  | run options => executeRun surroundings options
  | check paths defines => checkFiles surroundings defines paths {}
  | tokens input asDocument => withSource surroundings input (writeTokens asDocument)
  | tree input defines => withSource surroundings input (writeTree input defines)

/-- Carries out the command that arguments ask for; without one it tells how they are written. -/
def executeArguments (surroundings : Surroundings) (args : List String) : Report :=
  match parse? args with
  | some command => command.execute surroundings
  | none => { errors := usage, code := 2 }

end Command

end ControlLogic
