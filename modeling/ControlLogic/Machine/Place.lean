import ControlLogic.Machine.Store

/-!
From expressions to keys and to arguments of routines. How parts of expressions are evaluated is a
parameter.
-/

set_option autoImplicit false
set_option relaxedAutoImplicit false

namespace ControlLogic.Run

def resolveKey (eval : Expr → Run Value) : Expr → Run SlotKey
  | .name id => return .plain (Text.upper id)
  | .element name (.binary .pair first second) => do
    let i := (← eval first).toNumber
    let j := (← eval second).toNumber
    return .cell (Text.upper name) i j
  | .element name index => do
    let i := (← eval index).toNumber
    return .element (Text.upper name) i
  | .field object field none => return .field (Text.upper object) (Text.upper field)
  | .field object field (some index) => do
    let i := (← eval index).toNumber
    return .fieldElement (Text.upper object) (Text.upper field) i
  | _ => fault .notAVariable

/-- An argument of a routine. A variable keeps its key; an array or structure goes by its name. -/
def evalArg (eval : Expr → Run Value) (e : Expr) : Run Library.Arg := do
  match e with
  | .name id =>
    let key := SlotKey.plain (Text.upper id)
    let m ← get
    match m.read? key with
    | some v => return ⟨v, some key⟩
    | none =>
      if m.scope.owns id then return ⟨.zero, some key⟩ else fault (m.missing key)
  | .element _ _ | .field _ _ _ =>
    let key ← resolveKey eval e
    return ⟨← readKey key, some key⟩
  | _ => return ⟨← eval e, none⟩

/-- The value of an argument, zero if it is missing. -/
def argValue (eval : Expr → Run Value) (args : List Expr) (i : Nat) : Run Value :=
  match args[i]? with
  | some e => eval e
  | none => return .zero

/-- The number of an argument, zero if it is missing. -/
def argNumber (eval : Expr → Run Value) (args : List Expr) (i : Nat) : Run Int := do
  return (← argValue eval args i).toNumber

/-- The text of an argument, empty if it is missing. -/
def argText (eval : Expr → Run Value) (args : List Expr) (i : Nat) : Run String := do
  match args[i]? with
  | some e => return (← eval e).toText
  | none => return ""

def argName (eval : Expr → Run Value) (args : List Expr) (i : Nat) : Run String := do
  match args[i]? with
  | some (.name id) => return Text.upper id
  | some e => return Text.upper (← eval e).toText
  | none => fault .missingName

def storeText (eval : Expr → Run Value) (args : List Expr) (i : Nat) (text : String) :
    Run Unit := do
  match args[i]? with
  | some e =>
    if e.isPlace then
      let key ← resolveKey eval e
      writeKey key (.text text)
  | none => return

end ControlLogic.Run
