import ControlLogic.Text.Ascii
import ControlLogic.Text.Blank

/-!
Conditional source text. Lines between a condition that fails and its `#ENDIF`, the directive lines
themselves and help blocks are replaced by empty lines, so that every line keeps its number.
-/

set_option autoImplicit false
set_option relaxedAutoImplicit false

namespace ControlLogic.Source

/-- Names that are always defined. -/
def platformDefines : List String :=
  ["SERIES3", "SERIES4", "SIMULATION"]

/-- Directives that carry information for the host only; they stay in the text and are noted. -/
def informational : List String :=
  ["#PRINT_TO_TRACE", "#DIGITAL_EXPAND", "#ANALOG_SERIAL_EXPAND", "#OUTPUT_SHIFT", "#INPUT_SHIFT"]

/-- A remark on a line, counted from one. -/
structure Notice where
  line : Nat
  message : String
  deriving DecidableEq, Repr, Inhabited

/-- A directive at the head of a line: its keyword in upper case and its first argument. -/
structure Heading where
  keyword : String
  argument : Option String
  deriving DecidableEq, Repr, Inhabited

namespace Heading

/-- The directive of a line whose first character that is not blank is a number sign. -/
def ofLine? (line : List Char) : Option Heading :=
  match Text.firstWord line with
  | (some ('#' :: word), rest) =>
    some ⟨Text.upper (String.ofList ('#' :: word)),
      (Text.firstWord rest).1.map String.ofList⟩
  | _ => none

def constant? : Heading → Option String
  | ⟨keyword, argument⟩ => if keyword = "#DEFINE_CONSTANT" then argument.map Text.upper else none

/-- The condition a line opens: the name it asks for and whether it wants it defined. -/
def condition? : Heading → Option (String × Bool)
  | ⟨keyword, argument⟩ =>
    let name := (argument.map Text.upper).getD ""
    if keyword = "#IF_DEFINED" then some (name, true)
    else if keyword = "#IF_NOT_DEFINED" then some (name, false)
    else none

end Heading

def insertName (name : String) : List String → List String
  | [] => [name]
  | other :: rest =>
    if name < other then name :: other :: rest
    else if name = other then other :: rest
    else other :: insertName name rest

/-- The names that count as defined, ascending: those of the platform, those given, and every
constant defined on any line, kept or not, before or after its use. -/
def resolveDefines (lines : List (List Char)) (given : List String) : List String :=
  let constants := lines.filterMap fun line => Heading.ofLine? line >>= Heading.constant?
  (platformDefines ++ given.map Text.upper ++ constants).foldl
    (fun names n => insertName n names) []

/-- What has been read so far: the number of lines, whether a help block is open, and the truth of
each open condition, innermost first. -/
structure Pass where
  count : Nat
  inHelp : Bool
  conditions : List Bool
  deriving Repr, Inhabited

/-- What becomes of a line. -/
inductive Fate where
  /-- Replaced by an empty line. -/
  | dropped
  /-- Replaced by an empty line and added to the help text. -/
  | help
  /-- Kept. -/
  | kept
  /-- Kept, with a notice. -/
  | noted (keyword : String)
  deriving DecidableEq, Repr, Inhabited

def Pass.step (defines : List String) (pass : Pass) (line : List Char) : Fate × Pass :=
  let heading := Heading.ofLine? line
  let keyword := heading.map Heading.keyword
  let next := { pass with count := pass.count + 1 }
  if pass.inHelp then
    if keyword = some "#HELP_END" then (.dropped, { next with inHelp := false })
    else (.help, next)
  else
    let active := pass.conditions.all id
    if active ∧ keyword = some "#HELP_BEGIN" then (.dropped, { next with inHelp := true })
    else
      match heading >>= Heading.condition? with
      | some (name, wanted) =>
        (.dropped, { next with conditions := (defines.contains name == wanted) :: pass.conditions })
      | none =>
        if keyword = some "#ENDIF" then (.dropped, { next with conditions := pass.conditions.tail })
        else if !active then (.dropped, next)
        else
          match keyword with
          | some k => (if informational.contains k then .noted k else .kept, next)
          | none => (.kept, next)

def fates (defines : List String) (pass : Pass) : List (List Char) → List Fate
  | [] => []
  | line :: rest =>
    let (fate, next) := pass.step defines line
    fate :: fates defines next rest

def Fate.text (fate : Fate) (line : List Char) : List Char :=
  match fate with
  | .dropped => []
  | .help => []
  | .kept => line
  | .noted _ => line

/-- A text with its conditions resolved. -/
structure Resolved where
  text : String
  help : String
  defines : List String
  notices : List Notice
  deriving DecidableEq, Repr, Inhabited

def notedMessage (keyword : String) : String :=
  keyword ++ " noted (no effect in simulation)"

def noticesFrom (n : Nat) : List Fate → List Notice
  | [] => []
  | .noted keyword :: rest => ⟨n, notedMessage keyword⟩ :: noticesFrom (n + 1) rest
  | _ :: rest => noticesFrom (n + 1) rest

def resolve (text : String) (given : List String) : Resolved :=
  let lines := Text.lines text.toList
  let defines := resolveDefines lines given
  let marks := fates defines ⟨0, false, []⟩ lines
  let body := "\n".intercalate
    ((lines.zip marks).map fun (line, fate) => String.ofList (fate.text line))
  { text := if text.toList.getLast? = some '\n' then body ++ "\n" else body
    help := "\n".intercalate
      ((lines.zip marks).filterMap fun (line, fate) =>
        if fate = .help then some (String.ofList line) else none)
    defines := defines
    notices := noticesFrom 1 marks }

end ControlLogic.Source
