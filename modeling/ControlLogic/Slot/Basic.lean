import ControlLogic.Program.Basic
import ControlLogic.Slot.Key

/-!
Slots: a value together with what it is narrowed to when it is written.
-/

set_option autoImplicit false
set_option relaxedAutoImplicit false

namespace ControlLogic

def defaultCapacity : Nat := 255

def maxCapacity : Nat := 65535

/-- What a slot accepts. -/
inductive SlotKind where
  | integer (width : Number.Width)
  | text (capacity : Nat)
  | untyped
  deriving DecidableEq, Repr, Inhabited

namespace SlotKind

def initial : SlotKind → Value
  | text _ => .empty
  | integer _ | untyped => .zero

/-- The value as the slot keeps it: numbers wrap to the width, texts are cut to the capacity. -/
def coerce : SlotKind → Value → Value
  | integer width, v => .number (width.wrap v.toNumber)
  | text capacity, v => .text (Value.truncate capacity v.toText)
  | untyped, v => v

def ofType (type : VariableType) (capacity : Nat) : SlotKind :=
  match type.width? with
  | some width => integer width
  | none => if type = .string then text capacity else untyped

end SlotKind

/-- A stored value and what it is narrowed to. -/
structure Slot where
  value : Value
  kind : SlotKind
  deriving DecidableEq, Repr, Inhabited

namespace Slot

def fresh (kind : SlotKind) : Slot :=
  ⟨kind.initial, kind⟩

def write (slot : Slot) (v : Value) : Slot :=
  { slot with value := slot.kind.coerce v }

end Slot

/-- How many slots a declaration has: one, those from zero through `n`, or a grid of them. -/
inductive Shape where
  | single
  | array (n : Nat)
  | grid (n m : Nat)
  deriving DecidableEq, Repr, Inhabited

/-- The kind and shape of a declaration. For strings a single number is the capacity and a second
one makes it an array; for other types the numbers are dimensions. -/
def VariableDecl.layout (d : VariableDecl) : SlotKind × Shape :=
  match d.type, d.first, d.second with
  | .string, none, _ => (.text defaultCapacity, .single)
  | .string, some capacity, none => (.text capacity, .single)
  | .string, some n, some capacity => (.text capacity, .array n)
  | type, none, _ => (.ofType type maxCapacity, .single)
  | type, some n, none => (.ofType type maxCapacity, .array n)
  | type, some n, some m => (.ofType type maxCapacity, .grid n m)

end ControlLogic
