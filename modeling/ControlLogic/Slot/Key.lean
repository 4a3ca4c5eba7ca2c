import ControlLogic.Number.Numeral
import ControlLogic.Text.Blank
import ControlLogic.Text.Search

/-!
Addresses of stored values. A variable, an element of an array, a cell of a grid, a field of a
structure and an element of a field each have a slot of their own, named by a key.
-/

set_option autoImplicit false
set_option relaxedAutoImplicit false

namespace ControlLogic

/-- The address of a slot. Names are in upper case. -/
inductive SlotKey where
  | plain (name : String)
  | element (name : String) (i : Int)
  | cell (name : String) (i j : Int)
  | field (object field : String)
  | fieldElement (object field : String) (i : Int)
  deriving DecidableEq, Hashable, Repr, Inhabited

namespace SlotKey

def bracketed (i : Int) : String :=
  "[" ++ Number.decimal i ++ "]"

def render : SlotKey → String
  | plain n => n
  | element n i => n ++ bracketed i
  | cell n i j => n ++ bracketed i ++ bracketed j
  | field o f => o ++ "." ++ f
  | fieldElement o f i => o ++ "." ++ f ++ bracketed i

/-- The numbers in brackets that make up a text; each pass reads one. -/
def indices? : Nat → List Char → Option (List Int)
  | _, [] => some []
  | fuel + 1, '[' :: rest => do
    let inner := rest.takeWhile (· != ']')
    match rest.dropWhile (· != ']') with
    | [] => none
    | _ :: after =>
      let i ← Number.word? 10 (Text.trim inner)
      return i :: (← indices? fuel after)
  | _, _ => none

def nameOf (cs : List Char) : String :=
  Text.upper (String.ofList cs)

/-- The key a text stands for, blanks around it aside. -/
def parse? (text : String) : Option SlotKey :=
  let cs := Text.trim text.toList
  let head := cs.takeWhile (· != '[')
  if head.isEmpty then none
  else
    match Text.splitOnce '.' head, indices? cs.length (cs.dropWhile (· != '[')) with
    | none, some [] => some (plain (nameOf head))
    | none, some [i] => some (element (nameOf head) i)
    | none, some [i, j] => some (cell (nameOf head) i j)
    | some (o, f), some [] => some (field (nameOf o) (nameOf f))
    | some (o, f), some [i] => some (fieldElement (nameOf o) (nameOf f) i)
    | _, _ => none

def owner : SlotKey → String
  | plain n | element n _ | cell n _ _ => n
  | field o _ | fieldElement o _ _ => o

def arrayName? : SlotKey → Option String
  | element n _ | cell n _ _ => some n
  | fieldElement o f _ => some (o ++ "." ++ f)
  | plain _ | field _ _ => none

def firstIndex? : SlotKey → Option Int
  | element _ i | cell _ i _ | fieldElement _ _ i => some i
  | plain _ | field _ _ => none

def rebase (key : SlotKey) (owner : String) : SlotKey :=
  let o := Text.upper owner
  match key with
  | plain _ => plain o
  | element _ i => element o i
  | cell _ i j => cell o i j
  | field _ f => field o f
  | fieldElement _ f i => fieldElement o f i

def isPlain : SlotKey → Bool
  | plain _ => true
  | _ => false

def isElement : SlotKey → Bool
  | element _ _ | cell _ _ _ => true
  | _ => false

/-- What keys are ordered by: kind, owner, field, numbers in brackets. -/
def rank : SlotKey → Nat × String × String × Int × Int
  | plain n => (0, n, "", 0, 0)
  | element n i => (1, n, "", i, 0)
  | cell n i j => (2, n, "", i, j)
  | field o f => (3, o, f, 0, 0)
  | fieldElement o f i => (4, o, f, i, 0)

/-- The order of keys in listings. -/
def le (a b : SlotKey) : Bool :=
  let (k, n, f, i, j) := a.rank
  let (k', n', f', i', j') := b.rank
  ((compare k k').then <| (compare n n').then <| (compare f f').then <|
    (compare i i').then <| compare j j') != .gt

end SlotKey

end ControlLogic
