import ControlLogic.Program.Basic
import ControlLogic.Token.Literal

/-!
The state of reading a program, the causes a reading can fail for, and the operations on the tokens
still to be read. A failure keeps the state, so that reading can go on behind it.
-/

set_option autoImplicit false
set_option relaxedAutoImplicit false

namespace ControlLogic

/-- Why a piece of a program is refused. `found` is the token met instead. -/
inductive ParseCause where
  | strayAtTopLevel (found : String)
  | constantWithoutName
  | constantWithoutValue (name : String)
  | expectedArraySize (found : String)
  | negativeArraySize (size : Int)
  | unknownSignalType
  | unknownVariableType
  | unknownParameterType
  | expectedType (found : String)
  | expectedParameterType (found : String)
  | expectedField (structureName found : String)
  | expectedTrigger
  | strayKeyword (found : String)
  | stray (found : String)
  | expectedAlternative (found : String)
  | expectedVariable (found : String)
  | assignmentToCall
  | invalidNumber
  | expectedExpression (found : String)
  | expected (wanted found : String)
  | expectedName (found : String)
  deriving DecidableEq, Repr, Inhabited

def ParseCause.message : ParseCause → String
  | strayAtTopLevel found => s!"Unexpected '{found}' at top level"
  | constantWithoutName => "#DEFINE_CONSTANT needs a name"
  | constantWithoutValue name => s!"#DEFINE_CONSTANT {name} has no usable value"
  | expectedArraySize found => s!"Expected array size, got '{found}'"
  | negativeArraySize size => "Array size must not be negative (" ++ Number.decimal size ++ ")"
  | unknownSignalType => "Unknown I/O type"
  | unknownVariableType => "Unknown variable type"
  | unknownParameterType => "Unknown parameter type"
  | expectedType found => s!"Expected a type, got '{found}'"
  | expectedParameterType found => s!"Expected a parameter type, got '{found}'"
  | expectedField structureName found =>
    s!"Expected a field declaration in structure {structureName}, got '{found}'"
  | expectedTrigger => "Expected an event trigger"
  | strayKeyword found => s!"Unexpected keyword '{found}'"
  | stray found => s!"Unexpected '{found}'"
  | expectedAlternative found => s!"Expected CASE or DEFAULT, got '{found}'"
  | expectedVariable found => s!"Expected a variable name, got '{found}'"
  | assignmentToCall => "Cannot assign to a function call"
  | invalidNumber => "Invalid number"
  | expectedExpression found => s!"Expected an expression, got '{found}'"
  | expected wanted found => s!"Expected '{wanted}', got '{found}'"
  | expectedName found => s!"Expected a name, got '{found}'"

/-- A refusal and its place. -/
structure ParseError where
  cause : ParseCause
  pos : Position
  deriving DecidableEq, Repr, Inhabited

namespace ParseError

def message (e : ParseError) : String :=
  e.cause.message

def render (e : ParseError) : String :=
  "line " ++ Number.decimal (Int.ofNat e.pos.line) ++ ", col " ++
    Number.decimal (Int.ofNat e.pos.column) ++ ": " ++ e.message

end ParseError

/-- Why reading halts: a refusal, from which it recovers, or a point it cannot get past. -/
inductive Halt where
  | error (e : ParseError)
  | stuck
  deriving DecidableEq, Repr, Inhabited

/--
The state of reading: the tokens still to be read with the place of the end behind them, how many
have been read, the refusals so far, the structures and numeric constants declared so far by their
names in upper case, and the variables declared so far in the body being read.
-/
structure ParserState where
  rest : List Token
  finish : Position
  read : Nat := 0
  errors : List ParseError := []
  structures : List String := []
  constants : List (String × Int) := []
  locals : List VariableDecl := []
  deriving Repr, Inhabited

namespace ParserState

/-- The token at the end of a text. Such a token has no text of its own. -/
def endToken (s : ParserState) : Token :=
  ⟨.endOfText, "", s.finish⟩

def current (s : ParserState) : Token :=
  s.rest.headD s.endToken

def following (s : ParserState) : Token :=
  s.rest.tail.headD s.endToken

/-- The start of reading some tokens. Comments and line ends are left out, and nothing behind an end
token is read. Without an end token the end is where the last token starts. -/
def ofTokens (tokens : List Token) : ParserState :=
  let significant := tokens.filter (!·.isTrivia)
  let before := significant.takeWhile (·.kind != .endOfText)
  let finish :=
    match significant.find? (·.kind == .endOfText) with
    | some t => t.pos
    | none => (significant.getLast?.map Token.pos).getD .start
  { rest := before, finish := finish }

def fuel (s : ParserState) : Nat :=
  s.rest.length + 1

/-- The number a constant has. The latest declaration counts. -/
def constant? (s : ParserState) (name : String) : Option Int :=
  s.constants.lookup (Text.upper name)

def isStructure (s : ParserState) (name : String) : Bool :=
  s.structures.contains (Text.upper name)

end ParserState

abbrev Parser := EStateM Halt ParserState

namespace Parser

def current : Parser Token := do
  return (← get).current

def advance : Parser Token :=
  modifyGet fun s =>
    match s.rest with
    | [] => (s.endToken, s)
    | t :: rest => (t, { s with rest := rest, read := s.read + 1 })

def failAt {α : Type} (pos : Position) (cause : ParseCause) : Parser α :=
  throw (.error ⟨cause, pos⟩)

def fail {α : Type} (cause : ParseCause) : Parser α := do
  failAt (← current).pos cause

def stuck {α : Type} : Parser α :=
  throw .stuck

def atEnd : Parser Bool := do
  return (← get).rest.isEmpty

def isMark (mark : String) (t : Token) : Bool :=
  t.isMark && t.text == mark

def check (mark : String) : Parser Bool := do
  return isMark mark (← current)

def checkWord (word : String) : Parser Bool := do
  return Text.sameWord (← current).text word

def consume (mark : String) : Parser Bool := do
  if ← check mark then
    let _ ← advance
    return true
  else
    return false

def describe (t : Token) : String :=
  if t.kind = .endOfText then "end of input" else t.text

def expect (mark : String) : Parser Unit := do
  unless ← consume mark do
    fail (.expected mark (describe (← current)))

def expectWord (word : String) : Parser Unit := do
  let t ← current
  if t.kind = .keyword ∧ Text.sameWord t.text word then
    let _ ← advance
  else
    fail (.expected word (describe t))

def expectName : Parser String := do
  let t ← current
  if t.isName then
    let _ ← advance
    return t.text
  else
    fail (.expectedName (describe t))

def commaList {α : Type} (item : Parser α) : Nat → Parser (List α)
  | 0 => stuck
  | fuel + 1 => do
    let first ← item
    if ← consume "," then
      return first :: (← commaList item fuel)
    else
      return [first]

/-- The tokens from the first one that reading goes on with after a refusal: behind the next
semicolon, or at the next brace. -/
def skipItem : List Token → Nat → List Token × Nat
  | [], n => ([], n)
  | t :: rest, n =>
    if isMark ";" t then (rest, n + 1)
    else if isMark "\x7d" t || isMark "\x7b" t then (t :: rest, n)
    else skipItem rest (n + 1)

/-- Skips to where reading goes on after a refusal. -/
def synchronize : Parser Unit :=
  modify fun s =>
    let (rest, read) := skipItem s.rest s.read
    { s with rest := rest, read := read }

def recover (e : ParseError) : Parser Unit := do
  modify fun s => { s with errors := s.errors ++ [e] }
  synchronize

/-- Reads an item; a refusal is noted and skipped, and counts as no item. -/
def recovering {α : Type} (item : Parser α) : Parser (Option α) :=
  tryCatch (some <$> item) fun
    | .error e => do
      recover e
      return none
    | .stuck => stuck

end Parser

end ControlLogic
