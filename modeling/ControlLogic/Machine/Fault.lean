import ControlLogic.Program.Parser.Basic
import ControlLogic.Scope

/-!
How running a program can end: faults and their wordings, the other reasons to leave everything in
progress, and the outcomes of a whole run.
-/

set_option autoImplicit false
set_option relaxedAutoImplicit false

namespace ControlLogic

/-- Why a statement cannot be carried out. -/
inductive Fault where
  | pairOutsideBrackets
  | unexpectedPair
  | notAVariable
  | indexOutOfRange (key : SlotKey)
  | undefinedVariable (key : SlotKey)
  | constantAssigned (name : String)
  | inputAssigned (name : String)
  | mainCalled
  | missingFunction
  | unknownFunction (name : String)
  | callDepthExceeded (limit : Nat) (name : String)
  | expectedOwner (parameter function : String)
  | unknownStructure (name : String)
  | missingName
  | expectedSocket
  | notASocket (name : String)
  | pulseWithoutOutput
  deriving DecidableEq, Repr, Inhabited

def Fault.message : Fault → String
  | pairOutsideBrackets => "Two indices are only valid inside brackets"
  | unexpectedPair => "Unexpected index pair"
  | notAVariable => "Expression is not a variable"
  | indexOutOfRange key => "Index out of range: " ++ key.render
  | undefinedVariable key => "Undefined variable '" ++ key.render ++ "'"
  | constantAssigned name => s!"Cannot assign to constant '{name}'"
  | inputAssigned name => s!"Cannot assign to input '{name}'"
  | mainCalled => "Main cannot be called"
  | missingFunction => "Unknown function"
  | unknownFunction name => s!"Unknown function '{name}'"
  | callDepthExceeded limit name =>
    "Call depth limit of " ++ Number.decimal (Int.ofNat limit) ++ " exceeded in '" ++ name ++ "'"
  | expectedOwner parameter function =>
    s!"Parameter '{parameter}' of '{function}' expects an array or structure variable"
  | unknownStructure name => ControlLogic.unknownStructure name
  | missingName => "Missing name argument"
  | expectedSocket => "Expected a socket variable"
  | notASocket name => s!"'{name}' is not a socket"
  | pulseWithoutOutput => "Pulse needs an output"

/-- What is reported to the host as an error. -/
inductive Complaint where
  | fault (fault : Fault)
  | parse (cause : ParseCause)
  | stepLimit
  deriving DecidableEq, Repr, Inhabited

def stepLimitMessage : String := "exceeded step limit"

def Complaint.message : Complaint → String
  | fault f => f.message
  | parse cause => cause.message
  | stepLimit => stepLimitMessage

/-- A complaint, with its place if it has one. -/
structure Diagnostic where
  complaint : Complaint
  pos : Option Position := none
  deriving DecidableEq, Repr, Inhabited

namespace Diagnostic

def message (d : Diagnostic) : String :=
  d.complaint.message

def render (d : Diagnostic) : String :=
  match d.pos with
  | some p =>
    "line " ++ Number.decimal (Int.ofNat p.line) ++ ", col " ++
      Number.decimal (Int.ofNat p.column) ++ ": " ++ d.message
  | none => d.message

def ofParseError (e : ParseError) : Diagnostic :=
  ⟨.parse e.cause, some e.pos⟩

end Diagnostic

/-- Where running goes on after a statement: behind it, behind the loop or switch around it, or
behind the call in progress, with a value. -/
inductive Flow where
  | normal
  | broken
  | returned (value : Value)
  deriving DecidableEq, Repr, Inhabited

/-- Why everything in progress is left: the program ends its event, the steps are used up, the host
stops it, a fault, or the rounds of passing time are used up. -/
inductive Unwind where
  | terminated
  | stepLimit
  | aborted
  | fault (fault : Fault) (pos : Option Position)
  | exhausted
  deriving DecidableEq, Repr, Inhabited

/-- Gives a fault a place unless it has one. -/
def Unwind.located (p : Position) : Unwind → Unwind
  | fault f none => fault f (some p)
  | other => other

/-- How a run of the entry function ended. -/
inductive RunOutcome where
  | completed
  | stopped
  | stepLimitExceeded
  | failed (diagnostic : Diagnostic)
  | noMain
  | unfinished
  deriving DecidableEq, Repr, Inhabited

namespace RunOutcome

def isSuccess : RunOutcome → Bool
  | completed | noMain => true
  | stopped | stepLimitExceeded | failed _ | unfinished => false

def message : RunOutcome → String
  | completed => "completed"
  | stopped => "stopped by user"
  | stepLimitExceeded => stepLimitMessage
  | failed d => d.render
  | noMain => "no Main function"
  | unfinished => "unfinished"

end RunOutcome

end ControlLogic
