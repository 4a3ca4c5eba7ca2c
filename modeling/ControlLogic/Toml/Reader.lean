import ControlLogic.Toml.Scalar

/-!
Reading a settings file: lines with a key and its value, headings of tables, comments.
-/

set_option autoImplicit false
set_option relaxedAutoImplicit false

namespace ControlLogic.Toml

/-- Drops blanks. -/
def skipBlanks : Reader Unit :=
  modify (·.dropWhile isBlank)

def mark (c : Char) : Reader Unit := do
  match ← get with
  | d :: rest => if d = c then set rest else failure
  | [] => failure

def dropComment : List Char → List Char
  | '#' :: rest => rest.dropWhile isPlain
  | cs => cs

/-- Takes blanks, a comment, and the end of the line or of the text. -/
def lineEnd : Reader Unit := do
  skipBlanks
  modify dropComment
  match ← get with
  | [] => return
  | cs =>
    match newline? cs with
    | some rest => set rest
    | none => failure

/-- Drops blanks, comments and ends of lines. -/
def skipLines : Nat → List Char → List Char
  | 0, cs => cs
  | fuel + 1, cs =>
    let cs := dropComment (cs.dropWhile isBlank)
    match newline? cs with
    | some rest => skipLines fuel rest
    | none => cs

/-- Drops blanks, comments and ends of lines. -/
def skipSpace : Reader Unit :=
  modify fun cs => skipLines cs.length cs

def isKeyChar (c : Char) : Bool :=
  c.isAlphanum || c == '_' || c == '-'

/-- Reads a key without dots, with the blanks around it. -/
def simpleKey : Reader String := do
  skipBlanks
  let key ← match ← get with
    | '"' :: rest => do set rest; quoted '"'
    | '\'' :: rest => do set rest; quoted '\''
    | cs =>
      let name := cs.takeWhile isKeyChar
      if name.isEmpty then failure
      else do
        set (cs.dropWhile isKeyChar)
        pure (String.ofList name)
  skipBlanks
  return key

def maxKeyParts : Nat := 79

def dottedKey : Nat → Reader (List String × String)
  | 0 => failure
  | parts + 1 => do
    let key ← simpleKey
    match ← get with
    | '.' :: rest =>
      set rest
      let (path, last) ← dottedKey parts
      return (key :: path, last)
    | _ => return ([], key)

/-- Reads the elements of a list up to its closing bracket; a comma may stand behind the last. -/
def elements (value : Reader Item) : Nat → Reader (List Item)
  | 0 => failure
  | fuel + 1 => do
    skipSpace
    match ← get with
    | ']' :: rest =>
      set rest
      return []
    | _ =>
      let item ← value
      skipSpace
      match ← get with
      | ',' :: rest =>
        set rest
        return item :: (← elements value fuel)
      | ']' :: rest =>
        set rest
        return [item]
      | _ => failure

/-- Reads the keys and values of a table inside a line, up to its closing brace. -/
def members (value : Reader Item) : Nat → Entries → Reader Entries
  | 0, _ => failure
  | fuel + 1, es => do
    let (path, key) ← dottedKey maxKeyParts
    mark '='
    skipBlanks
    let item ← value
    skipBlanks
    match es.put? path key item with
    | none => failure
    | some es =>
      match ← get with
      | ',' :: rest =>
        set rest
        members value fuel es
      | '}' :: rest =>
        set rest
        return es
      | _ => failure

def inlineTable (value : Reader Item) : Reader Entries := do
  skipBlanks
  match ← get with
  | '}' :: rest =>
    set rest
    return []
  | cs => members value cs.length []

/-- Reads a value, given how values inside it are read, if there may be any. -/
def valueWith (inner : Option (Reader Item)) : Reader Item := do
  match ← get with
  | '"' :: rest =>
    set rest
    return .text (← textValue '"')
  | '\'' :: rest =>
    set rest
    return .text (← textValue '\'')
  | '[' :: rest =>
    set rest
    match inner with
    | some value => return .list (← elements value (rest.length + 1))
    | none => failure
  | '{' :: rest =>
    set rest
    match inner with
    | some value => return .inline (← inlineTable value)
    | none => failure
  | _ => wordValue

/-- Reads a value in which lists and tables nest at most that deep. -/
def value : Nat → Reader Item
  | 0 => valueWith none
  | depth + 1 => valueWith (some (value depth))

def maxDepth : Nat := 79

/-- A file in part read: the tree, and the path of the table that keys are added to. -/
structure Progress where
  root : Entries := []
  table : List String := []

def heading (p : Progress) : Reader Progress := do
  let isElement ← match ← get with
    | '[' :: rest => do set rest; pure true
    | _ => pure false
  let (path, key) ← dottedKey maxKeyParts
  mark ']'
  if isElement then mark ']'
  lineEnd
  match if isElement then p.root.openElement? path key else p.root.openTable? path key with
  | some root => return { root := root, table := path ++ [key] }
  | none => failure

def assignment (p : Progress) : Reader Progress := do
  let (path, key) ← dottedKey maxKeyParts
  mark '='
  skipBlanks
  let item ← value maxDepth
  lineEnd
  match p.root.putAt? p.table path key item with
  | some root => return { p with root := root }
  | none => failure

def lines : Nat → Progress → Reader Progress
  | 0, _ => failure
  | fuel + 1, p => do
    skipBlanks
    match ← get with
    | [] => return p
    | '[' :: rest =>
      set rest
      lines fuel (← heading p)
    | c :: _ =>
      if c = '#' || c = '\n' || c = '\r' then
        lineEnd
        lines fuel p
      else lines fuel (← assignment p)

/-- The tree of a settings file. A byte order mark in front of it is dropped. -/
def parse? (text : String) : Option Entries := do
  let cs := text.toList
  let cs := if cs.head? = some '\uFEFF' then cs.tail else cs
  let (p, _) ← lines (cs.length + 1) {} cs
  return p.root

end ControlLogic.Toml
