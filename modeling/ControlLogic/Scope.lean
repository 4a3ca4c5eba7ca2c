import Std.Data.HashMap
import ControlLogic.Slot.Basic

/-!
Variables in scope: the frames of the calls in progress above the global frame. A name means what
the innermost frame that has it says.
-/

set_option autoImplicit false
set_option relaxedAutoImplicit false

namespace ControlLogic

abbrev Frame := Std.HashMap SlotKey Slot

namespace Frame

/-- Adds a slot that has not been written, or makes an existing one so. -/
def declare (frame : Frame) (key : SlotKey) (kind : SlotKind) : Frame :=
  frame.insert key (.fresh kind)

def declareUpTo (frame : Frame) (n : Nat) (key : Int → SlotKey) (kind : SlotKind) : Frame :=
  (List.range (n + 1)).foldl (fun f i => declare f (key (Int.ofNat i)) kind) frame

/-- Adds the slots of a field. A field has at most one number in brackets. -/
def declareField (object : String) (frame : Frame) (d : VariableDecl) : Frame :=
  let name := Text.upper d.name
  match d.layout with
  | (kind, .single) => declare frame (.field object name) kind
  | (kind, .array n) => declareUpTo frame n (.fieldElement object name) kind
  | (kind, .grid n _) => declareUpTo frame n (.fieldElement object name) kind

/-- Adds the slots of a variable; the name of its structure if there is no such structure. -/
def declareVariable (structures : List StructureDef) (frame : Frame) (d : VariableDecl) :
    Except String Frame :=
  let name := Text.upper d.name
  match d.type with
  | .instanceOf typeName =>
    match structures.find? (Text.sameWord ·.name typeName) with
    | none => .error typeName
    | some definition => .ok (definition.fields.foldl (declareField name) frame)
  | _ =>
    match d.layout with
    | (kind, .single) => .ok (declare frame (.plain name) kind)
    | (kind, .array n) => .ok (declareUpTo frame n (.element name) kind)
    | (kind, .grid n m) =>
      .ok ((List.range (n + 1)).foldl
        (fun f i => declareUpTo f m (.cell name (Int.ofNat i)) kind) frame)

/-- The elements and fields that belong to a name in upper case, in the order of their keys. -/
def ownedBy (frame : Frame) (name : String) : List (SlotKey × Slot) :=
  (frame.toList.filter fun (key, _) => !key.isPlain && key.owner == name).mergeSort
    fun a b => a.1.le b.1

end Frame

def unknownStructure (name : String) : String :=
  s!"Unknown structure type '{name}'"

/-- The frames of the calls in progress, the innermost first, and the global frame. -/
structure Scope where
  frames : List Frame := []
  globals : Frame := {}
  deriving Inhabited

namespace Scope

def push (s : Scope) (frame : Frame) : Scope :=
  { s with frames := frame :: s.frames }

def pop (s : Scope) : Option Frame × Scope :=
  match s.frames with
  | [] => (none, s)
  | frame :: rest => (some frame, { s with frames := rest })

def findIn (key : SlotKey) : List Frame → Option Slot
  | [] => none
  | frame :: rest =>
    match frame.get? key with
    | some slot => some slot
    | none => findIn key rest

def get? (s : Scope) (key : SlotKey) : Option Slot :=
  (findIn key s.frames).or (s.globals.get? key)

/-- Replaces a slot in the first of some frames that has its key, if one has. -/
def setIn (key : SlotKey) (slot : Slot) : List Frame → List Frame
  | [] => []
  | frame :: rest =>
    if frame.contains key then frame.insert key slot :: rest else frame :: setIn key slot rest

def set (s : Scope) (key : SlotKey) (slot : Slot) : Scope :=
  if s.frames.any (·.contains key) then { s with frames := setIn key slot s.frames }
  else if s.globals.contains key then { s with globals := s.globals.insert key slot }
  else s

def write? (s : Scope) (key : SlotKey) (v : Value) : Option Scope :=
  (s.get? key).map fun slot => s.set key (slot.write v)

def isArray (s : Scope) (name : String) : Bool :=
  let n := Text.upper name
  (s.get? (.element n 0)).isSome || (s.get? (.cell n 0 0)).isSome

def owns (s : Scope) (name : String) : Bool :=
  let n := Text.upper name
  (s.frames ++ [s.globals]).any fun frame =>
    frame.any fun key _ => !key.isPlain && key.owner == n

/-- The elements and fields of a name in the innermost frame that has any. -/
def ownedBy (s : Scope) (name : String) : List (SlotKey × Slot) :=
  let n := Text.upper name
  ((s.frames ++ [s.globals]).findSome? fun frame =>
    match frame.ownedBy n with
    | [] => none
    | owned => some owned).getD []

def arrayKeys (s : Scope) (name : String) : List SlotKey :=
  ((s.ownedBy name).map Prod.fst).filter SlotKey.isElement

end Scope

end ControlLogic
