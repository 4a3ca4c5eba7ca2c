/-!
Settings as a tree of tables, and how lines of a settings file add to it. A key names a value once;
a table is opened by one heading, and keys with dots open tables that no heading can open again.
-/

set_option autoImplicit false
set_option relaxedAutoImplicit false

namespace ControlLogic.Toml

/-- How a table came to be: by a heading or as the root, on the way to one, or by a dotted key. -/
inductive Origin where
  | heading
  | implied
  | dotted
  deriving DecidableEq, Repr, Inhabited

/-- A value. Numbers with a fraction, dates and times are read but not kept. Lists and tables
written inside a line are closed; the others can grow. -/
inductive Item where
  | text (s : String)
  | integer (n : Int)
  | bool (b : Bool)
  | other
  | list (items : List Item)
  | inline (entries : List (String × Item))
  | table (origin : Origin) (entries : List (String × Item))
  | tables (elements : List (List (String × Item)))
  deriving Inhabited

/-- Keys and their values, in the order they were added. -/
abbrev Entries := List (String × Item)

namespace Entries

def get? (es : Entries) (key : String) : Option Item :=
  es.lookup key

def replace (es : Entries) (key : String) (item : Item) : Entries :=
  es.map fun (k, old) => if k = key then (k, item) else (k, old)

def add? (es : Entries) (key : String) (item : Item) : Option Entries :=
  if (es.get? key).isSome then none else some (es ++ [(key, item)])

/-- Changes the table at a path, where tables that are missing are opened. With `byDots` the path is
that of a dotted key, which may not enter a table that a heading opened. -/
def descend (byDots : Bool) (change : Origin → Entries → Option Entries) :
    List String → Origin → Entries → Option Entries
  | [], origin, es => change origin es
  | key :: path, _, es =>
    match es.get? key with
    | none => do
      let origin := if byDots then .dotted else .implied
      return es ++ [(key, .table origin (← descend byDots change path origin []))]
    | some (.table origin inner) => do
      if byDots && origin = .heading then none
      else return es.replace key (.table origin (← descend byDots change path origin inner))
    | some (.tables elements) => do
      let last ← elements.getLast?
      let changed ← descend byDots change path .heading last
      return es.replace key (.tables (elements.dropLast ++ [changed]))
    | some _ => none

def put? (es : Entries) (path : List String) (key : String) (item : Item) : Option Entries :=
  descend true
    (fun origin inner =>
      if (origin == .dotted) == path.isEmpty then none else inner.add? key item)
    path .heading es

def openTable? (es : Entries) (path : List String) (key : String) : Option Entries :=
  descend false
    (fun _ inner =>
      match inner.get? key with
      | none => some (inner ++ [(key, .table .heading [])])
      | some (.table .implied old) => some (inner.replace key (.table .heading old))
      | some _ => none)
    path .heading es

def openElement? (es : Entries) (path : List String) (key : String) : Option Entries :=
  descend false
    (fun _ inner =>
      match inner.get? key with
      | none => some (inner ++ [(key, .tables [[]])])
      | some (.tables elements) => some (inner.replace key (.tables (elements ++ [[]])))
      | some _ => none)
    path .heading es

def putAt? (es : Entries) (table : List String) (path : List String) (key : String)
    (item : Item) : Option Entries :=
  descend false (fun _ inner => inner.put? path key item) table .heading es

end Entries

end ControlLogic.Toml
