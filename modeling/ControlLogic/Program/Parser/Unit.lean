import ControlLogic.Program.Parser.Stmt
import ControlLogic.Source.Conditional
import ControlLogic.Token.Scan

/-!
Reading whole programs. Reading never fails: what is refused is skipped and listed, and the rest of
the program stands.
-/

set_option autoImplicit false
set_option relaxedAutoImplicit false

namespace ControlLogic

namespace Parser

/-- A piece of a program at its top level. -/
inductive Item where
  | symbolName (name : String) (directive : Directive)
  | constant (constant : Constant) (directive : Directive)
  | directive (directive : Directive)
  | signals (decl : SignalDecl)
  | globals (decls : List VariableDecl)
  | structureDef (definition : StructureDef)
  | handlers (handlers : List Handler)
  | function (definition : FunctionDef)
  | nothing
  deriving Inhabited

/-- Adds a piece to a program. A later entry function replaces an earlier one. -/
def Item.addTo (p : Program) : Item → Program
  | symbolName name d => { p with symbolName := some name, directives := p.directives ++ [d] }
  | constant c d => { p with constants := p.constants ++ [c], directives := p.directives ++ [d] }
  | directive d => { p with directives := p.directives ++ [d] }
  | signals d => { p with signals := p.signals ++ [d] }
  | globals ds => { p with globals := p.globals ++ ds }
  | structureDef d => { p with structures := p.structures ++ [d] }
  | handlers hs => { p with handlers := p.handlers ++ hs }
  | function f =>
    if f.isMain then { p with main := some f } else { p with functions := p.functions ++ [f] }
  | nothing => p

/-- The value of a constant: a text, a number, the negative of a number, or a constant declared
before. -/
def constantValue? (s : ParserState) (args : List Token) : Option Value :=
  match args with
  | [t] =>
    match t.kind with
    | .text => some (.text (Token.literalText t.text))
    | .number => (Token.literalNumber? t.text).map .number
    | .identifier => (s.constant? t.text).map .number
    | _ => none
  | [sign, t] =>
    if sign.text = "-" ∧ t.kind = .number then
      (Token.literalNumber? t.text).map fun n => .number (-n)
    else none
  | _ => none

def restOfLine (line : Nat) : Parser (List Token) :=
  modifyGet fun s =>
    let (args, rest) := s.rest.span (·.pos.line == line)
    (args, { s with rest := rest, read := s.read + args.length })

/-- The name of a directive: its word in upper case without the number sign. -/
def directiveName (t : Token) : String :=
  Text.upper (String.ofList (t.text.toList.dropWhile (· == '#')))

def directiveItem : Parser Item := do
  let t ← advance
  let args ← restOfLine t.pos.line
  let d : Directive := ⟨directiveName t, " ".intercalate (args.map Token.text), t.pos⟩
  match d.name, args with
  | "SYMBOL_NAME", arg :: _ =>
    return .symbolName (if arg.kind = .text then Token.literalText arg.text else arg.text) d
  | "DEFINE_CONSTANT", [] => failAt t.pos .constantWithoutName
  | "DEFINE_CONSTANT", name :: values =>
    match constantValue? (← get) values with
    | none => failAt name.pos (.constantWithoutValue name.text)
    | some value =>
      if let .number n := value then
        modify fun s => { s with constants := (Text.upper name.text, n) :: s.constants }
      return .constant ⟨name.text, value, t.pos⟩ d
  | _, _ => return .directive d

/-- The body of a function or handler and the variables declared in it. -/
def bodyWithLocals (fuel : Nat) : Parser (List VariableDecl × List Stmt) := do
  modify fun s => { s with locals := [] }
  let stmts ← block (statement fuel) fuel
  let locals ← modifyGet fun s => (s.locals, { s with locals := [] })
  return (locals, stmts)

/-- Handlers of one trigger with a common body, one for each signal named. -/
def handlerItems (fuel : Nat) : Parser (List Handler) := do
  if ← checkWord "THREADSAFE" then
    let _ ← advance
  let t ← advance
  match Trigger.ofWord? t.text with
  | none => failAt t.pos .expectedTrigger
  | some trigger =>
    let signals ← commaList expectName fuel
    let (locals, stmts) ← bodyWithLocals fuel
    return signals.map fun signal => ⟨trigger, signal, locals, stmts, t.pos⟩

def returnOf (word : String) : ReturnKind × Option VariableType :=
  match Text.upper word with
  | "FUNCTION" => (.nothing, none)
  | "INTEGER_FUNCTION" => (.integer, some .integer)
  | "LONG_INTEGER_FUNCTION" => (.integer, some .longInteger)
  | "SIGNED_INTEGER_FUNCTION" => (.integer, some .signedInteger)
  | "SIGNED_LONG_INTEGER_FUNCTION" => (.integer, some .signedLongInteger)
  | _ => (.string, some .string)

/-- Brackets after a parameter, with at most one token in each; whether there are any. -/
def parameterBrackets : Nat → Parser Bool
  | 0 => stuck
  | fuel + 1 => do
    if ← consume "[" then
      unless ← check "]" do
        let _ ← advance
      expect "]"
      let _ ← parameterBrackets fuel
      return true
    else
      return false

def parameter (fuel : Nat) : Parser Parameter := do
  let byRef ← checkWord "BYREF"
  if byRef || (← checkWord "BYVAL") then
    let _ ← advance
  let t ← advance
  let type ←
    match t.kind with
    | .variableType =>
      match VariableType.ofWord? t.text with
      | some type => pure type
      | none => failAt t.pos .unknownParameterType
    | .identifier =>
      if (← get).isStructure t.text then pure (.instanceOf t.text)
      else failAt t.pos (.expectedParameterType t.text)
    | _ => failAt t.pos (.expectedParameterType t.text)
  let name ← expectName
  let isArray ← parameterBrackets fuel
  return ⟨type, name, byRef, isArray⟩

def functionDef (fuel : Nat) : Parser FunctionDef := do
  let t ← advance
  let (returnKind, returnType) := returnOf t.text
  let name ← expectName
  expect "("
  let params ← if ← check ")" then pure [] else commaList (parameter fuel) fuel
  expect ")"
  let (locals, stmts) ← bodyWithLocals fuel
  return ⟨name, returnKind, returnType, params, locals, stmts, t.pos⟩

def handlerWords : List String :=
  ["PUSH", "RELEASE", "CHANGE", "SOCKETCONNECT", "SOCKETDISCONNECT", "SOCKETRECEIVE", "THREADSAFE"]

def functionWords : List String :=
  ["FUNCTION", "INTEGER_FUNCTION", "LONG_INTEGER_FUNCTION", "SIGNED_INTEGER_FUNCTION",
    "SIGNED_LONG_INTEGER_FUNCTION", "STRING_FUNCTION"]

def item (fuel : Nat) : Parser Item := do
  let t ← current
  match t.kind with
  | .directive => directiveItem
  | .signalType => .signals <$> signalDecl fuel
  | .variableType => .globals <$> variableDecls fuel
  | .keyword =>
    if Text.sameWord t.text "STRUCTURE" then .structureDef <$> structureDef fuel
    else if Text.isOneOf t.text handlerWords then .handlers <$> handlerItems fuel
    else if Text.isOneOf t.text functionWords then .function <$> functionDef fuel
    else if isStorageWord t then
      let _ ← advance
      return .nothing
    else
      fail (.strayAtTopLevel t.text)
  | _ =>
    if ← startsInstance then .globals <$> variableDecls fuel
    else fail (.strayAtTopLevel t.text)

/-- Adds the pieces up to the end to a program. At least one token is read in each round. -/
def items (allFuel : Nat) : Nat → Program → Parser Program
  | 0, _ => stuck
  | fuel + 1, p => do
    if ← atEnd then return p
    else
      let before := (← get).read
      let found ← recovering (item allFuel)
      if (← get).read = before then
        let _ ← advance
      items allFuel fuel ((found.getD .nothing).addTo p)

/-- A program read from tokens, and what was refused. `stuck` says that reading came to a point it
cannot get past, an opening brace among the fields of a structure; then no program was read. -/
structure Outcome where
  program : Program
  errors : List ParseError
  stuck : Bool
  deriving Inhabited

def ofTokens (tokens : List Token) : Outcome :=
  let start := ParserState.ofTokens tokens
  match items start.fuel start.fuel {} start with
  | .ok program s => ⟨program, s.errors, false⟩
  | .error _ s => ⟨{}, s.errors, true⟩

def expressionOf (text : String) : Except Halt Expr :=
  let start := ParserState.ofTokens (Token.scan text)
  match expression start.fuel start with
  | .ok e _ => .ok e
  | .error h _ => .error h

end Parser

/-- A program read from a text. -/
structure ParsedProgram where
  program : Program
  errors : List ParseError
  notices : List Source.Notice
  defines : List String
  stuck : Bool
  deriving Inhabited

def ParsedProgram.isClean (p : ParsedProgram) : Bool :=
  p.errors.isEmpty

/-- Reads a program from a text whose conditions are resolved for the given names. -/
def Program.parse (text : String) (defines : List String) : ParsedProgram :=
  let source := Source.resolve text defines
  let outcome := Parser.ofTokens (Token.scan source.text)
  { program := { outcome.program with helpText := source.help }
    errors := outcome.errors
    notices := source.notices
    defines := source.defines
    stuck := outcome.stuck }

theorem Program.parse_errors (text : String) (defines : List String) :
    (Program.parse text defines).errors =
      (Parser.ofTokens (Token.scan (Source.resolve text defines).text)).errors :=
  rfl

theorem Program.parse_main (text : String) (defines : List String) :
    (Program.parse text defines).program.main =
      (Parser.ofTokens (Token.scan (Source.resolve text defines).text)).program.main :=
  rfl

end ControlLogic
