import ControlLogic.Program.Parser.Basic

/-!
Reading declarations of signals, variables and structures.
-/

set_option autoImplicit false
set_option relaxedAutoImplicit false

namespace ControlLogic.Parser

/-- The number a token stands for in brackets: a numeral or a numeric constant. -/
def size? (s : ParserState) (t : Token) : Option Int :=
  match t.kind with
  | .number => Token.literalNumber? t.text
  | .identifier => s.constant? t.text
  | _ => none

def dimension : Parser Nat := do
  expect "["
  let t ← advance
  match size? (← get) t with
  | none => failAt t.pos (.expectedArraySize t.text)
  | some n =>
    expect "]"
    if n < 0 then failAt t.pos (.negativeArraySize n) else return n.toNat

def dimensions : Parser (Option Nat × Option Nat) := do
  if ← check "[" then
    let first ← dimension
    if ← check "[" then
      return (some first, some (← dimension))
    else
      return (some first, none)
  else
    return (none, none)

/-- A signal name with its brackets. For serial signals a single number is the capacity, and two are
the array size and the capacity. -/
def signalName (type : SignalType) : Parser SignalName := do
  let name ← expectName
  let (first, second) ← dimensions
  if type.isSerial then
    match first, second with
    | some n, some capacity => return ⟨name, some n, some capacity⟩
    | capacity, _ => return ⟨name, none, capacity⟩
  else
    return ⟨name, first, none⟩

def signalDecl (fuel : Nat) : Parser SignalDecl := do
  let t ← advance
  match SignalType.ofWord? t.text with
  | none => failAt t.pos .unknownSignalType
  | some type =>
    let names ← commaList (signalName type) fuel
    expect ";"
    return ⟨type, names, t.pos⟩

/-- Whether the next two tokens are the name of a structure and another identifier. -/
def startsInstance : Parser Bool := do
  let s ← get
  return s.current.kind == .identifier && s.isStructure s.current.text &&
    s.following.kind == .identifier

def isStorageWord (t : Token) : Bool :=
  Text.sameWord t.text "VOLATILE" || Text.sameWord t.text "NONVOLATILE"

def startsVariableDecl : Parser Bool := do
  let t ← current
  if t.kind == .variableType || isStorageWord t then return true else startsInstance

def skipStorageWords : Parser Unit :=
  modify fun s =>
    { s with rest := s.rest.dropWhile isStorageWord,
             read := s.read + (s.rest.takeWhile isStorageWord).length }

def variableName (type : VariableType) : Parser VariableDecl := do
  let t ← current
  let name ← expectName
  let (first, second) ← dimensions
  return ⟨type, name, first, second, t.pos⟩

def variableDecls (fuel : Nat) : Parser (List VariableDecl) := do
  skipStorageWords
  let t ← advance
  let type ←
    match t.kind with
    | .variableType =>
      match VariableType.ofWord? t.text with
      | some type => pure type
      | none => failAt t.pos .unknownVariableType
    | .identifier => pure (.instanceOf t.text)
    | _ => failAt t.pos (.expectedType t.text)
  let decls ← commaList (variableName type) fuel
  expect ";"
  return decls

/-- The fields of a structure up to its closing brace. A token that is no part of a declaration is
refused and skipped; reading halts at an opening brace, which cannot be skipped. -/
def fields (structureName : String) (allFuel : Nat) : Nat → Parser (List VariableDecl)
  | 0 => stuck
  | fuel + 1 => do
    if (← check "\x7d") || (← atEnd) then
      return []
    else
      let before := (← get).read
      let decls ← recovering do
        if ← startsVariableDecl then variableDecls allFuel
        else fail (.expectedField structureName (← current).text)
      if (← get).read = before then stuck
      else return decls.getD [] ++ (← fields structureName allFuel fuel)

/-- A structure. Its name is known from here on, also in its own fields. -/
def structureDef (fuel : Nat) : Parser StructureDef := do
  let keyword ← advance
  let name ← expectName
  modify fun s => { s with structures := Text.upper name :: s.structures }
  expect "\x7b"
  let decls ← fields name fuel fuel
  expect "\x7d"
  let _ ← consume ";"
  return ⟨name, decls, keyword.pos⟩

end ControlLogic.Parser
