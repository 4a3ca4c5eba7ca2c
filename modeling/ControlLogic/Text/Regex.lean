/-!
Regular expressions, as far as an engine for them is asked: to write a character that stands for
itself, and to match texts with an expression. The standard engine reads expressions of characters,
dots and stars between a caret and a dollar sign.
-/

set_option autoImplicit false
set_option relaxedAutoImplicit false

namespace ControlLogic

/-- An engine for regular expressions: how a character is written that stands for itself, and
whether a text matches an expression, if the engine takes the expression. -/
structure Regex where
  escape : Char → String
  compile? : String → Option (String → Bool)

namespace Regex

/-- What one character of a text is matched with. -/
inductive Atom where
  | any
  | char (c : Char)
  deriving DecidableEq, Repr, Inhabited

/-- A dot stands for any character but a line feed. -/
def Atom.accepts : Atom → Char → Bool
  | any, c => c != '\n'
  | char d, c => c == d

/-- An atom, and whether it stands for any number of characters. -/
structure Item where
  atom : Atom
  starred : Bool
  deriving DecidableEq, Repr, Inhabited

/-- The characters that mean something else than themselves. -/
def isMeta (c : Char) : Bool :=
  "\\.+*?()|[]{}^$#&-~".toList.contains c

/-- Reads an expression behind its caret, given the items before it, the last of them first. -/
def readItems : List Item → List Char → Option (List Item)
  | items, ['$'] => some items.reverse
  | ⟨atom, false⟩ :: items, '*' :: rest => readItems (⟨atom, true⟩ :: items) rest
  | items, '.' :: rest => readItems (⟨.any, false⟩ :: items) rest
  | items, '\\' :: c :: rest =>
    if isMeta c then readItems (⟨.char c, false⟩ :: items) rest else none
  | items, c :: rest => if isMeta c then none else readItems (⟨.char c, false⟩ :: items) rest
  | _, [] => none

/-- Whether each suffix of a text matches a star and what is behind it, given whether it matches
what is behind it. The star stands for characters that satisfy `p`. -/
def starRow (p : Char → Bool) : List Char → List Bool → List Bool
  | c :: text, r :: row =>
    let behind := starRow p text row
    (r || (p c && behind.headD false)) :: behind
  | _, row => row

/-- Whether each suffix of a text matches a character that satisfies `p` and what is behind it,
given whether it matches what is behind it. -/
def charRow (p : Char → Bool) : List Char → List Bool → List Bool
  | c :: text, _ :: row => (p c && row.headD false) :: charRow p text row
  | _, _ => [false]

/-- Whether each suffix of a text, the whole first and the empty one last, matches some items. -/
def row (text : List Char) : List Item → List Bool
  | [] => List.replicate text.length false ++ [true]
  | item :: items =>
    if item.starred then starRow item.atom.accepts text (row text items)
    else charRow item.atom.accepts text (row text items)

/-- An engine for expressions of characters, dots and stars that match whole texts. -/
def standard : Regex where
  escape c := if isMeta c then String.ofList ['\\', c] else c.toString
  compile? expression :=
    match expression.toList with
    | '^' :: rest => (readItems [] rest).map fun items text => (row text.toList items).headD false
    | _ => none

end Regex

end ControlLogic
