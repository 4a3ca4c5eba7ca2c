/-!
Tokens and their places in a text.
-/

set_option autoImplicit false
set_option relaxedAutoImplicit false

namespace ControlLogic

/-- A place in a text: line and column, both counted from one, columns in characters. -/
structure Position where
  line : Nat
  column : Nat
  deriving DecidableEq, Repr, Inhabited

namespace Position

def start : Position := ⟨1, 1⟩

def after (p : Position) (c : Char) : Position :=
  if c = '\n' then ⟨p.line + 1, 1⟩ else ⟨p.line, p.column + 1⟩

def afterText (p : Position) (cs : List Char) : Position :=
  cs.foldl after p

theorem afterText_append (p : Position) (cs ds : List Char) :
    p.afterText (cs ++ ds) = (p.afterText cs).afterText ds := by
  simp [afterText]

end Position

/-- Classes of tokens. -/
inductive TokenKind where
  | keyword
  | signalType
  | variableType
  | routine
  | directive
  | identifier
  | number
  | text
  | operator
  | punctuation
  | comment
  | newline
  | endOfText
  deriving DecidableEq, Repr, Inhabited

/-- A token: its class, its characters as written and the place of its first character. -/
structure Token where
  kind : TokenKind
  text : String
  pos : Position
  deriving DecidableEq, Repr, Inhabited

namespace Token

def isTrivia (t : Token) : Bool :=
  t.kind == .comment || t.kind == .newline

def isName (t : Token) : Bool :=
  t.kind == .identifier || t.kind == .routine

def isMark (t : Token) : Bool :=
  t.kind == .punctuation || t.kind == .operator

end Token

end ControlLogic
