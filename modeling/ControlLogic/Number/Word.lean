/-!
Integers of a fixed width. Arithmetic of the language is done on signed 64-bit integers that wrap;
variables narrow a value to 16 or 32 bits. Values are integers that satisfy `InWord`, and every
operation that could leave the range ends in `wrap`.
-/

set_option autoImplicit false
set_option relaxedAutoImplicit false

namespace ControlLogic.Number

/-- The range of a signed 64-bit integer. -/
def InWord (n : Int) : Prop :=
  -9223372036854775808 ≤ n ∧ n < 9223372036854775808

instance (n : Int) : Decidable (InWord n) :=
  inferInstanceAs (Decidable (_ ∧ _))

/-- The signed 64-bit integer congruent to `n`. -/
def wrap (n : Int) : Int :=
  n.bmod 18446744073709551616

/-- Widths a variable or a function result narrows its numbers to. -/
inductive Width where
  | unsigned16
  | unsigned32
  | signed16
  | signed32
  deriving DecidableEq, Repr, Inhabited

namespace Width

def wrap : Width → Int → Int
  | unsigned16, n => n % 65536
  | unsigned32, n => n % 4294967296
  | signed16, n => n.bmod 65536
  | signed32, n => n.bmod 4294967296

def lowest : Width → Int
  | unsigned16 => 0
  | unsigned32 => 0
  | signed16 => -32768
  | signed32 => -2147483648

def highest : Width → Int
  | unsigned16 => 65535
  | unsigned32 => 4294967295
  | signed16 => 32767
  | signed32 => 2147483647

theorem wrap_mem (w : Width) (n : Int) : w.lowest ≤ w.wrap n ∧ w.wrap n ≤ w.highest := by
  cases w with
  | unsigned16 => simp only [wrap, lowest, highest]; omega
  | unsigned32 => simp only [wrap, lowest, highest]; omega
  | signed16 =>
    have lower := Int.le_bmod (x := n) (m := 65536) (by decide)
    have upper := Int.bmod_lt (x := n) (m := 65536) (by decide)
    simp only [wrap, lowest, highest]
    omega
  | signed32 =>
    have lower := Int.le_bmod (x := n) (m := 4294967296) (by decide)
    have upper := Int.bmod_lt (x := n) (m := 4294967296) (by decide)
    simp only [wrap, lowest, highest]
    omega

theorem wrap_of_mem (w : Width) {n : Int} (low : w.lowest ≤ n) (high : n ≤ w.highest) :
    w.wrap n = n := by
  cases w with
  | unsigned16 => simp only [wrap, lowest, highest] at *; omega
  | unsigned32 => simp only [wrap, lowest, highest] at *; omega
  | signed16 =>
    simp only [wrap, lowest, highest] at *
    exact Int.bmod_eq_of_le (by omega) (by omega)
  | signed32 =>
    simp only [wrap, lowest, highest] at *
    exact Int.bmod_eq_of_le (by omega) (by omega)

@[simp] theorem wrap_wrap (w : Width) (n : Int) : w.wrap (w.wrap n) = w.wrap n :=
  w.wrap_of_mem (w.wrap_mem n).1 (w.wrap_mem n).2

end Width

/-- A bitwise operation on the two's complement form of 64-bit integers. -/
def bitwise (f : BitVec 64 → BitVec 64 → BitVec 64) (a b : Int) : Int :=
  (f (BitVec.ofInt 64 a) (BitVec.ofInt 64 b)).toInt

def bitAnd (a b : Int) : Int := bitwise (· &&& ·) a b

def bitOr (a b : Int) : Int := bitwise (· ||| ·) a b

def bitXor (a b : Int) : Int := bitwise (· ^^^ ·) a b

/-- Bitwise complement, which on two's complement integers is `-n - 1`. -/
def bitNot (n : Int) : Int := -n - 1

end ControlLogic.Number
