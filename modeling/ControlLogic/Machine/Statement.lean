import ControlLogic.Machine.Call
import ControlLogic.Machine.Operator

/-!
What each kind of statement and expression does, given how its parts are run. `eval` evaluates an
expression and `block` runs statements; both are parameters, so that a statement is understood one
level at a time.
-/

set_option autoImplicit false
set_option relaxedAutoImplicit false

namespace ControlLogic

/-- What a loop does after a round: go on, end, or leave the function. -/
def Flow.afterRound : Flow → Option Flow
  | normal => none
  | broken => some normal
  | returned v => some (returned v)

def isPast (finish step n : Int) : Bool :=
  if step < 0 then n < finish else finish < n

namespace Run

/-- Runs statements one after another until one does not go on behind itself. -/
def sequence (exec : Stmt → Run Flow) : List Stmt → Run Flow
  | [] => return .normal
  | s :: rest => do
    match ← exec s with
    | .normal => sequence exec rest
    | flow => return flow

variable (eval : Expr → Run Value) (block : List Stmt → Run Flow)

def whileRound (condition : Expr) (body : List Stmt) : Run (Option Flow) := do
  if (← eval condition).holds then return (← block body).afterRound else return some .normal

def untilRound (body : List Stmt) (condition : Expr) : Run (Option Flow) := do
  match (← block body).afterRound with
  | some flow => return some flow
  | none => if (← eval condition).holds then return some .normal else return none

/-- A round of a loop that counts. The counter is read again, so the body can move it; a counter
that cannot go on ends the loop. -/
def countRound (key : SlotKey) (finish step : Int) (body : List Stmt) : Run (Option Flow) := do
  match (← block body).afterRound with
  | some flow => return some flow
  | none =>
    tick
    let next := (← readKey key).toNumber + step
    if Number.InWord next then
      writeKey key (.number next)
      return if isPast finish step next then some .normal else none
    else return some .normal

def countLoop (fuel : Nat) (counter start finish : Expr) (step : Option Expr) (body : List Stmt) :
    Run Flow := do
  let key ← resolveKey eval counter
  let first := (← eval start).toNumber
  let finish := (← eval finish).toNumber
  let step ← match step with
    | some e => pure (← eval e).toNumber
    | none => pure 1
  writeKey key (.number first)
  if isPast finish step first then return .normal
  else repeatUntil (countRound block key finish step body) fuel

/-- Whether an alternative of a switch is run. With `runsOn`, once one was run, all others with a
label are, and the default is not. -/
def selects (subject : Value) (runsOn started : Bool) (label : Option Expr) : Run Bool := do
  match label with
  | some e => if runsOn && started then return true else return subject.looselyEquals (← eval e)
  | none => return !(runsOn && started)

def switchFrom (subject : Value) (runsOn : Bool) : Bool → List (Alternative Stmt) → Run Flow
  | _, [] => return .normal
  | started, a :: rest => do
    if ← selects eval subject runsOn started a.label then
      match ← block a.body with
      | .normal => if runsOn then switchFrom subject runsOn true rest else return .normal
      | .broken => return .normal
      | .returned v => return .returned v
    else switchFrom subject runsOn started rest

def statement (pump : Nat → Run Unit) (fuel : Nat) : Stmt → Run Flow
  | .branch _ condition thenBody elseBody => do
    if (← eval condition).holds then block thenBody else block (elseBody.getD [])
  | .count _ counter start finish step body =>
    countLoop eval block fuel counter start finish step body
  | .whileLoop _ condition body => repeatUntil (whileRound eval block condition body) fuel
  | .untilLoop _ body condition => repeatUntil (untilRound eval block body condition) fuel
  | .switch _ subject alternatives runsOn => do
    switchFrom eval block (← eval subject) runsOn false alternatives
  | .wait _ duration label body => do
    let delay := hundredths (← eval duration).toNumber
    match body with
    | none => suspend pump delay "Wait"
    | some body => scheduleWait delay label body
    return .normal
  | .assign _ target value => do
    let v ← eval value
    writeKey (← resolveKey eval target) v
    return .normal
  | .call _ routine => do
    let _ ← eval routine
    return .normal
  | .returns _ none => return .returned .zero
  | .returns _ (some e) => do return .returned (← eval e)
  | .breaks _ => return .broken
  | .terminateEvent _ => throw .terminated
  | .block _ body => block body

/-- What an expression does. Both operands of an operator are always evaluated. -/
def expression (pump : Nat → Run Unit) (fuel : Nat) (e : Expr) : Run Value :=
  match e with
  | .number n => return .number n
  | .text s => return .text s
  | .name _ | .element _ _ | .field _ _ _ => do readKey (← resolveKey eval e)
  | .unary op operand => do return op.apply (← eval operand)
  | .binary .pair _ _ => fault .pairOutsideBrackets
  | .binary op left right => do
    let a ← eval left
    let b ← eval right
    applyBinary op a b
  | .call name args => call eval block pump fuel name args

end Run

end ControlLogic
