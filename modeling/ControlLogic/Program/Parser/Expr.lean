import ControlLogic.Program.Parser.Basic

/-!
Reading expressions. Operators stand on nine levels; those of one level associate to the left.
-/

set_option autoImplicit false
set_option relaxedAutoImplicit false

namespace ControlLogic.Parser

abbrev Level := List (String × BinaryOp)

def levels : List Level :=
  [[("||", .or)],
    [("&&", .and)],
    [("|", .bitOr)],
    [("^", .bitXor)],
    [("&", .bitAnd)],
    [("=", .eq), ("==", .eq), ("!=", .ne), ("<>", .ne), ("<", .lt), (">", .gt), ("<=", .le),
      (">=", .ge)],
    [("<<", .shiftLeft), (">>", .shiftRight)],
    [("+", .add), ("-", .sub)],
    [("*", .mul), ("/", .div), ("%", .mod), ("MOD", .mod)]]

def binaryOp? (level : Level) (t : Token) : Option BinaryOp :=
  if t.kind = .operator ∨ (t.kind = .keyword ∧ Text.sameWord t.text "MOD") then
    (level.find? (Text.sameWord t.text ·.1)).map Prod.snd
  else
    none

def unaryOp? (t : Token) : Option UnaryOp :=
  if t.kind = .operator ∧ t.text = "-" then some .neg
  else if t.kind = .operator ∧ t.text = "!" then some .not
  else if t.kind = .keyword ∧ Text.sameWord t.text "NOT" then some .not
  else if t.kind = .operator ∧ t.text = "~" then some .bitNot
  else none

/-- Applies an operator to its operand; the negative of a numeral is a numeral. -/
def applyUnary (op : UnaryOp) (operand : Expr) : Expr :=
  match op, operand with
  | .neg, .number n => .number (-n)
  | op, operand => .unary op operand

/-- Extends `left` by the operators of a level and their right operands. -/
def chain (level : Level) (operand : Parser Expr) : Nat → Expr → Parser Expr
  | 0, _ => stuck
  | fuel + 1, left => do
    match binaryOp? level (← current) with
    | some op =>
      let _ ← advance
      let right ← operand
      chain level operand fuel (.binary op left right)
    | none => return left

def binary (fuel : Nat) (operand : Parser Expr) : List Level → Parser Expr
  | [] => operand
  | level :: tighter => do
    let left ← binary fuel operand tighter
    chain level (binary fuel operand tighter) fuel left

def arguments (fuel : Nat) (expr : Parser Expr) : Parser (List Expr) := do
  if ← check ")" then return [] else commaList expr fuel

def indices (expr : Parser Expr) : Parser Expr := do
  expect "["
  let first ← expr
  expect "]"
  if ← consume "[" then
    let second ← expr
    expect "]"
    return .binary .pair first second
  else
    return first

/-- A name, which comes next, and a call, an index or a field after it. -/
def named (fuel : Nat) (expr : Parser Expr) (name : String) : Parser Expr := do
  let _ ← advance
  if ← consume "(" then
    let args ← arguments fuel expr
    expect ")"
    return .call name args
  else if ← check "[" then
    return .element name (← indices expr)
  else if ← consume "." then
    let field ← expectName
    if ← consume "[" then
      let index ← expr
      expect "]"
      return .field name field (some index)
    else
      return .field name field none
  else
    return .name name

/-- An expression without operators outside parentheses and brackets. -/
def atom (fuel : Nat) (expr : Parser Expr) : Parser Expr := do
  let t ← current
  match t.kind with
  | .number =>
    let _ ← advance
    match Token.literalNumber? t.text with
    | some n => return .number n
    | none => failAt t.pos .invalidNumber
  | .text =>
    let _ ← advance
    return .text (Token.literalText t.text)
  | .identifier | .routine => named fuel expr t.text
  | _ =>
    if t.kind = .punctuation ∧ t.text = "(" then
      let _ ← advance
      let inner ← expr
      expect ")"
      return inner
    else
      fail (.expectedExpression (describe t))

/-- An expression with no operator between two operands outside parentheses and brackets. -/
def unary : Nat → Parser Expr
  | 0 => stuck
  | fuel + 1 => do
    match unaryOp? (← current) with
    | some op =>
      let _ ← advance
      return applyUnary op (← unary fuel)
    | none => atom fuel (binary fuel (unary fuel) levels)

def expression (fuel : Nat) : Parser Expr :=
  binary fuel (unary fuel) levels

def place (fuel : Nat) : Parser Expr := do
  let t ← current
  if t.isName then
    let e ← named fuel (expression fuel) t.text
    if e.isPlace then return e else failAt t.pos .assignmentToCall
  else
    fail (.expectedVariable t.text)

end ControlLogic.Parser
