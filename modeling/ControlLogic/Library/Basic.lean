import ControlLogic.Gather
import ControlLogic.Slot.Key
import ControlLogic.Value

/-!
Routines that need nothing of a running program but its values. A routine sees the values of its
arguments and what the context tells, and answers with a value and with effects for the program to
carry out in order.
-/

set_option autoImplicit false
set_option relaxedAutoImplicit false

namespace ControlLogic.Library

/-- An argument: its value, and its slot if it is a variable. -/
structure Arg where
  value : Value
  target : Option SlotKey := none
  deriving DecidableEq, Repr, Inhabited

/-- What a routine wants done. -/
inductive Effect where
  | print (text : String)
  | notice (text : String)
  | write (key : SlotKey) (value : Value)
  deriving DecidableEq, Repr, Inhabited

/-- A date and a time of day. Weekdays count from Sunday, which is zero. -/
structure Moment where
  year : Nat
  month : Nat
  day : Nat
  weekday : Nat
  hour : Nat
  minute : Nat
  second : Nat
  deriving DecidableEq, Repr, Inhabited

/-- A source of random numbers: the number of each draw from a range that is not empty, which lies
in the range. -/
structure Chance where
  draw : Nat → Int → Int → Int
  inRange (n : Nat) {low high : Int} (h : low ≤ high) :
    low ≤ draw n low high ∧ draw n low high ≤ high

namespace Chance

instance : Inhabited Chance :=
  ⟨⟨fun _ low _ => low, fun _ _ _ h => ⟨Int.le_refl _, h⟩⟩⟩

/-- What is left of a source after a draw. -/
def next (c : Chance) : Chance where
  draw n := c.draw (n + 1)
  inRange n := c.inRange (n + 1)

end Chance

/-- What a routine can ask: the index written last in an array, or in any; the keys of an array; the
hundredths of a second since the start; the date; the text gathered so far; and a random number. -/
structure Context where
  lastIndex : Option String → Int
  arrayKeys : String → List SlotKey
  ticks : Int
  moment : Moment
  gather : Gather
  chance : Chance := default

/-- The answer of a routine; what it leaves of the text gathered and of the source of random numbers
if it touches them. -/
structure Reply where
  value : Value
  effects : List Effect := []
  gather : Option Gather := none
  chance : Option Chance := none

abbrev Routine := Context → List Arg → Reply

def Reply.pure (v : Value) : Reply := { value := v }

/-- A routine that only computes. -/
def computing (f : List Arg → Value) : Routine := fun _ args => .pure (f args)

/-- The number of an argument, zero if it is missing. -/
def number (args : List Arg) (i : Nat) : Int :=
  (args[i]?.map (·.value.toNumber)).getD 0

/-- The text of an argument, empty if it is missing. -/
def text (args : List Arg) (i : Nat) : String :=
  (args[i]?.map (·.value.toText)).getD ""

def chars (args : List Arg) (i : Nat) : List Char :=
  (text args i).toList

def target? (args : List Arg) (i : Nat) : Option SlotKey :=
  args[i]?.bind Arg.target

def writeTo (args : List Arg) (i : Nat) (v : Value) : List Effect :=
  ((target? args i).map (.write · v)).toList

end ControlLogic.Library
