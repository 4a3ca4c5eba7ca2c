import ControlLogic.Machine.Basic

/-!
Operators on values. Numbers are signed 64-bit integers that wrap.
-/

set_option autoImplicit false
set_option relaxedAutoImplicit false

namespace ControlLogic

open Number

def UnaryOp.apply : UnaryOp → Value → Value
  | neg, v => .number (wrap (-v.toNumber))
  | not, v => .ofBool !v.holds
  | bitNot, v => .number (Number.bitNot v.toNumber)

/-- How two values compare: two texts by their characters, all else by numbers. -/
def Value.order : Value → Value → Ordering
  | .text a, .text b => compare a b
  | a, b => compare a.toNumber b.toNumber

/-- The sum of two numbers, or two texts put together if either is a text. -/
def Value.plus (a b : Value) : Value :=
  if a.isText || b.isText then .text (a.toText ++ b.toText)
  else .number (wrap (a.toNumber + b.toNumber))

def shiftCount (b : Int) : Nat :=
  (b % 64).toNat

/-- The number whose bits are moved up; bits that leave the word are lost. -/
def shiftLeft (a b : Int) : Int :=
  wrap (a * Int.ofNat (Nat.pow 2 (shiftCount b)))

/-- The number whose bits are moved down; its sign is kept. -/
def shiftRight (a b : Int) : Int :=
  a / Int.ofNat (Nat.pow 2 (shiftCount b))

def Value.combine (f : Int → Int → Int) (a b : Value) : Value :=
  .number (f a.toNumber b.toNumber)

/-- Applies an operator other than division to two values; `none` for the pair of indices, which is
no operator, and for division. -/
def BinaryOp.apply? (op : BinaryOp) (left right : Value) : Option Value :=
  match op with
  | add => some (left.plus right)
  | sub => some (Value.combine (fun a b => wrap (a - b)) left right)
  | mul => some (Value.combine (fun a b => wrap (a * b)) left right)
  | bitAnd => some (Value.combine Number.bitAnd left right)
  | bitOr => some (Value.combine Number.bitOr left right)
  | bitXor => some (Value.combine Number.bitXor left right)
  | shiftLeft => some (Value.combine ControlLogic.shiftLeft left right)
  | shiftRight => some (Value.combine ControlLogic.shiftRight left right)
  | and => some (.ofBool (left.holds && right.holds))
  | or => some (.ofBool (left.holds || right.holds))
  | eq => some (.ofBool (left.looselyEquals right))
  | ne => some (.ofBool (!left.looselyEquals right))
  | lt => some (.ofBool (left.order right == .lt))
  | gt => some (.ofBool (left.order right == .gt))
  | le => some (.ofBool (left.order right != .gt))
  | ge => some (.ofBool (left.order right != .lt))
  | div | mod | pair => none

def BinaryOp.divide (op : BinaryOp) (a b : Int) : Value :=
  if op = .div then .number (wrap (a.tdiv b)) else .number (wrap (a.tmod b))

/-- Applies an operator to two values. Division by zero gives zero and a notice. -/
def Run.applyBinary (op : BinaryOp) (left right : Value) : Run Value := do
  match op.apply? left right with
  | some v => return v
  | none =>
    if op = .pair then fault .unexpectedPair
    else if right.toNumber = 0 then
      notice "Division by zero evaluates to 0"
      return .zero
    else
      return op.divide left.toNumber right.toNumber

end ControlLogic
