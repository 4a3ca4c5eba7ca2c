import ControlLogic.Text.Lowercase
import ControlLogic.Text.Regex

/-!
Paths of the file system. A path in normal form starts with a slash, is in lower case, has no
backslash and no empty component, and ends in a slash only if it is the root.
-/

set_option autoImplicit false
set_option relaxedAutoImplicit false

namespace ControlLogic.FileSystem

def splitAt (mark : Char) : List Char → List (List Char)
  | [] => [[]]
  | c :: rest =>
    if c = mark then [] :: splitAt mark rest
    else
      match splitAt mark rest with
      | [] => [[c]]
      | part :: others => (c :: part) :: others

def components (path : List Char) : List (List Char) :=
  (splitAt '/' path).filter (!·.isEmpty)

def ofComponents : List (List Char) → List Char
  | [] => ['/']
  | parts => parts.flatMap ('/' :: ·)

def normalize (path : String) : String :=
  let slashed := path.toList.map fun c => if c = '\\' then '/' else c
  String.ofList (ofComponents (components (Text.lowercase slashed)))

def root : String := "/"

def splitLast? : List Char → Option (List Char × List Char)
  | [] => none
  | c :: rest =>
    match splitLast? rest with
    | some (before, after) => some (c :: before, after)
    | none => if c = '/' then some ([], rest) else none

def splitPath (path : String) : String × String :=
  match splitLast? path.toList with
  | some ([], name) => (root, String.ofList name)
  | some (before, name) => (String.ofList before, String.ofList name)
  | none => (root, path)

def parent? (path : String) : Option String :=
  if path = root then none
  else
    match splitLast? path.toList with
    | some ([], _) => some root
    | some (before, _) => some (String.ofList before)
    | none => none

def fileName (path : String) : String :=
  (splitPath path).2

def globPiece (regex : Regex) (c : Char) : String :=
  if c = '*' then ".*" else if c = '?' then "." else regex.escape c

def globBody (regex : Regex) : List Char → String
  | [] => ""
  | c :: rest => globPiece regex c ++ globBody regex rest

/-- The regular expression of a pattern: a star stands for any characters and a question mark for
one, and any other character for itself. -/
def globExpression (regex : Regex) (pattern : String) : String :=
  "^" ++ globBody regex pattern.toList ++ "$"

end ControlLogic.FileSystem
