import ControlLogic.Program.Parser.Declaration
import ControlLogic.Program.Parser.Expr

/-!
Reading statements. Variables may be declared anywhere in a body; they belong to the whole function
or handler.
-/

set_option autoImplicit false
set_option relaxedAutoImplicit false

namespace ControlLogic.Parser

/-- Statements and declarations up to a closing brace. What is refused is skipped, and at least one
token is read in each round. -/
def blockItems (stmt : Parser Stmt) (allFuel : Nat) : Nat → Parser (List Stmt)
  | 0 => stuck
  | fuel + 1 => do
    if (← check "\x7d") || (← atEnd) then
      return []
    else
      let before := (← get).read
      let item ←
        if ← startsVariableDecl then
          let decls ← recovering (variableDecls allFuel)
          modify fun s => { s with locals := s.locals ++ decls.getD [] }
          pure none
        else
          recovering stmt
      if (← get).read = before then
        let _ ← advance
      return item.toList ++ (← blockItems stmt allFuel fuel)

def block (stmt : Parser Stmt) (fuel : Nat) : Parser (List Stmt) := do
  expect "\x7b"
  let body ← blockItems stmt fuel fuel
  expect "\x7d"
  return body

def body (stmt : Parser Stmt) (fuel : Nat) : Parser (List Stmt) := do
  if ← check "\x7b" then block stmt fuel else return [← stmt]

def parenthesized (fuel : Nat) : Parser Expr := do
  expect "("
  let e ← expression fuel
  expect ")"
  return e

def branchRest (stmt : Parser Stmt) (fuel : Nat) (pos : Position) : Parser Stmt := do
  let condition ← parenthesized fuel
  let thenBody ← body stmt fuel
  if ← checkWord "ELSE" then
    let _ ← advance
    if ← checkWord "IF" then
      return .branch pos condition thenBody (some [← stmt])
    else
      return .branch pos condition thenBody (some (← body stmt fuel))
  else
    return .branch pos condition thenBody none

def countRest (stmt : Parser Stmt) (fuel : Nat) (pos : Position) : Parser Stmt := do
  expect "("
  let counter ← place fuel
  expect "="
  let start ← expression fuel
  expectWord "TO"
  let finish ← expression fuel
  let step ←
    if ← checkWord "STEP" then
      let _ ← advance
      some <$> expression fuel
    else
      pure none
  expect ")"
  let loopBody ← body stmt fuel
  return .count pos counter start finish step loopBody

/-- Whether the statements of an alternative without braces end here. -/
def endsAlternative : Parser Bool := do
  return (← check "\x7d") || (← checkWord "CASE") || (← checkWord "DEFAULT") || (← atEnd)

def openStatements (stmt : Parser Stmt) : Nat → Parser (List Stmt)
  | 0 => stuck
  | fuel + 1 => do
    if ← endsAlternative then return []
    else
      let first ← stmt
      return first :: (← openStatements stmt fuel)

def label (fuel : Nat) : Parser (Option Expr) := do
  let value ←
    if ← checkWord "CASE" then
      let _ ← advance
      some <$> expression fuel
    else if ← checkWord "DEFAULT" then
      let _ ← advance
      pure none
    else
      fail (.expectedAlternative (← current).text)
  expect ":"
  return value

def alternatives (stmt : Parser Stmt) (allFuel : Nat) : Nat → Parser (List (Alternative Stmt))
  | 0 => stuck
  | fuel + 1 => do
    if (← check "\x7d") || (← atEnd) then return []
    else
      let value ← label allFuel
      let statements ←
        if ← check "\x7b" then block stmt allFuel else openStatements stmt allFuel
      return ⟨value, statements⟩ :: (← alternatives stmt allFuel fuel)

def switchRest (stmt : Parser Stmt) (fuel : Nat) (pos : Position) (runsOn : Bool) :
    Parser Stmt := do
  let subject ← parenthesized fuel
  expect "\x7b"
  let cases ← alternatives stmt fuel fuel
  expect "\x7d"
  return .switch pos subject cases runsOn

def waitRest (stmt : Parser Stmt) (fuel : Nat) (pos : Position) : Parser Stmt := do
  expect "("
  let duration ← expression fuel
  let name ← if ← consume "," then some <$> expectName else pure none
  expect ")"
  if ← check "\x7b" then
    return .wait pos duration name (some (← block stmt fuel))
  else
    expect ";"
    return .wait pos duration name none

/-- The rest of a statement after its keyword; `none` if no statement starts with the keyword. -/
def keywordStmt (stmt : Parser Stmt) (fuel : Nat) (pos : Position) (keyword : String) :
    Option (Parser Stmt) :=
  match keyword with
  | "IF" => some (branchRest stmt fuel pos)
  | "FOR" => some (countRest stmt fuel pos)
  | "WHILE" => some do
    let condition ← parenthesized fuel
    let loopBody ← body stmt fuel
    return .whileLoop pos condition loopBody
  | "DO" => some do
    let loopBody ← body stmt fuel
    expectWord "UNTIL"
    let condition ← parenthesized fuel
    let _ ← consume ";"
    return .untilLoop pos loopBody condition
  | "SWITCH" => some (switchRest stmt fuel pos false)
  | "CSWITCH" => some (switchRest stmt fuel pos true)
  | "WAIT" => some (waitRest stmt fuel pos)
  | "RETURN" => some do
    let value ← if ← check ";" then pure none else some <$> expression fuel
    expect ";"
    return .returns pos value
  | "BREAK" => some do
    expect ";"
    return .breaks pos
  | "TERMINATEEVENT" => some do
    expect ";"
    return .terminateEvent pos
  | _ => none

def simpleStmt (fuel : Nat) (pos : Position) : Parser Stmt := do
  if (← get).following.text = "(" then
    let routine ← expression fuel
    expect ";"
    return .call pos routine
  else
    let target ← place fuel
    expect "="
    let value ← expression fuel
    expect ";"
    return .assign pos target value

def statement : Nat → Parser Stmt
  | 0 => stuck
  | fuel + 1 => do
    let t ← current
    if t.kind = .keyword then
      match keywordStmt (statement fuel) fuel t.pos (Text.upper t.text) with
      | some rest =>
        let _ ← advance
        rest
      | none => fail (.strayKeyword t.text)
    else if t.text = "\x7b" then
      return .block t.pos (← block (statement fuel) fuel)
    else if t.text = ";" then
      let _ ← advance
      return .block t.pos []
    else if t.isName then
      simpleStmt (fuel + 1) t.pos
    else
      fail (.stray t.text)

end ControlLogic.Parser
