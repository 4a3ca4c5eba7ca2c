/-!
Tables of things numbered from zero. The number of a thing that was given up is used again, the
latest one first.
-/

set_option autoImplicit false
set_option relaxedAutoImplicit false

namespace ControlLogic

/-- Things by number, and the numbers that can be used again. -/
structure IdTable (α : Type) where
  cells : Array (Option α) := #[]
  free : List Nat := []

namespace IdTable

variable {α : Type}

instance : Inhabited (IdTable α) := ⟨{}⟩

def nextId (t : IdTable α) : Nat :=
  t.free.headD t.cells.size

def insert (t : IdTable α) (a : α) : IdTable α :=
  match t.free with
  | id :: rest => { cells := t.cells.setIfInBounds id (some a), free := rest }
  | [] => { t with cells := t.cells.push (some a) }

def get? (t : IdTable α) (id : Int) : Option α :=
  if id < 0 then none else (t.cells[id.toNat]?).join

def set (t : IdTable α) (id : Int) (a : α) : IdTable α :=
  if (t.get? id).isSome then { t with cells := t.cells.setIfInBounds id.toNat (some a) } else t

def erase (t : IdTable α) (id : Int) : IdTable α :=
  if (t.get? id).isSome then
    { cells := t.cells.setIfInBounds id.toNat none, free := id.toNat :: t.free }
  else t

/-- The things in use, in the order of their numbers. -/
def toList (t : IdTable α) : List α :=
  t.cells.toList.filterMap id

end IdTable

end ControlLogic
