import ControlLogic.Number.Numeral

/-!
Documents: trees of named and listed data, and their text as JSON with two spaces for each level.
-/

set_option autoImplicit false
set_option relaxedAutoImplicit false

namespace ControlLogic

/-- A tree of data. The order of the entries of a record is the order they are written in. -/
inductive Document where
  | null
  | bool (b : Bool)
  | number (n : Int)
  | text (s : String)
  | list (items : List Document)
  | record (entries : List (String × Document))
  deriving Inhabited

namespace Document

def ofOption {α : Type} (f : α → Document) : Option α → Document
  | none => null
  | some a => f a

def ofList {α : Type} (f : α → Document) (as : List α) : Document :=
  list (as.map f)

def ofNat (n : Nat) : Document :=
  number (Int.ofNat n)

def tagged (name : String) (data : Document) : Document :=
  record [(name, data)]

def hexPair (n : Nat) : List Char :=
  [Nat.digitChar (n / 16), Nat.digitChar (n % 16)]

/-- A character inside quotes: control characters, quotes and backslashes are escaped. -/
def quotedChar (c : Char) : List Char :=
  if c = '"' then ['\\', '"']
  else if c = '\\' then ['\\', '\\']
  else if c = '\n' then ['\\', 'n']
  else if c = '\r' then ['\\', 'r']
  else if c = '\t' then ['\\', 't']
  else if c.toNat = 8 then ['\\', 'b']
  else if c.toNat = 12 then ['\\', 'f']
  else if c.toNat < 32 then ['\\', 'u', '0', '0'] ++ hexPair c.toNat
  else [c]

def quoted (s : String) : String :=
  String.ofList ('"' :: s.toList.flatMap quotedChar ++ ['"'])

def indent (level : Nat) : String :=
  String.ofList ('\n' :: List.replicate (2 * level) ' ')

/-- Items on lines of their own between two marks; nothing between them if there are none. -/
def enclose (opening closing : String) (level : Nat) : List String → String
  | [] => opening ++ closing
  | items =>
    opening ++ indent (level + 1) ++ ("," ++ indent (level + 1)).intercalate items ++
      indent level ++ closing

mutual

def renderAt (level : Nat) : Document → String
  | null => "null"
  | bool b => if b then "true" else "false"
  | number n => Number.decimal n
  | text s => quoted s
  | list items => enclose "[" "]" level (renderItems (level + 1) items)
  | record entries => enclose "\x7b" "\x7d" level (renderEntries (level + 1) entries)

def renderItems (level : Nat) : List Document → List String
  | [] => []
  | item :: rest => renderAt level item :: renderItems level rest

def renderEntries (level : Nat) : List (String × Document) → List String
  | [] => []
  | (name, data) :: rest =>
    (quoted name ++ ": " ++ renderAt level data) :: renderEntries level rest

end

def render (d : Document) : String :=
  d.renderAt 0

end Document

end ControlLogic
