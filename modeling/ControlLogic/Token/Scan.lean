import ControlLogic.Text.Blank
import ControlLogic.Token.Basic
import ControlLogic.Vocabulary

/-!
Cutting a text into tokens. A lexeme is the longest text of its class at the head of the input.
Blanks other than line feeds and characters that begin no token are passed over, so no text is
refused.
-/

set_option autoImplicit false
set_option relaxedAutoImplicit false

namespace ControlLogic.Token

def isWordStart (c : Char) : Bool :=
  c.isAlpha || c == '_'

def isWordPart (c : Char) : Bool :=
  c.isAlphanum || c == '_' || c == '$'

def pairOperators : List (Char × Char) :=
  [('=', '='), ('!', '='), ('<', '>'), ('<', '='), ('>', '='), ('&', '&'), ('|', '|'), ('<', '<'),
    ('>', '>')]

def operatorMarks : List Char :=
  ['+', '-', '*', '/', '%', '=', '<', '>', '&', '|', '^', '!', '~']

def punctuationMarks : List Char :=
  ['(', ')', '[', ']', '{', '}', ',', ';', '.', ':']

def wordKind (word : String) : TokenKind :=
  if Vocabulary.isControl word then .keyword
  else if Vocabulary.isSignalType word then .signalType
  else if Vocabulary.isVariableType word then .variableType
  else if Vocabulary.isRoutine word then .routine
  else .identifier

/-- The part of a block comment after its opening, up to and with the closing mark if there is one.
-/
def commentTail : List Char → List Char × List Char
  | [] => ([], [])
  | '*' :: '/' :: rest => (['*', '/'], rest)
  | c :: rest => (c :: (commentTail rest).1, (commentTail rest).2)

/--
The part of a string literal after its opening quote, with the closing quote if there is one. A
backslash protects the character after it; an unprotected line feed ends an unclosed literal.
-/
def quotedTail (quote : Char) : List Char → List Char × List Char
  | [] => ([], [])
  | ['\\'] => (['\\'], [])
  | '\\' :: c :: rest => ('\\' :: c :: (quotedTail quote rest).1, (quotedTail quote rest).2)
  | c :: rest =>
    if c = '\n' then ([], c :: rest)
    else if c = quote then ([c], rest)
    else (c :: (quotedTail quote rest).1, (quotedTail quote rest).2)

/-- The head of an input: the class of the token there, or `none` for a character passed over, the
characters of the lexeme after its first one, and the rest of the input. -/
structure Lexeme where
  kind : Option TokenKind
  tail : List Char
  rest : List Char

namespace Lexeme

/-- The lexeme of a class that goes on as long as its characters satisfy `p`. -/
def run (kind : TokenKind) (p : Char → Bool) (cs : List Char) : Lexeme :=
  ⟨some kind, cs.takeWhile p, cs.dropWhile p⟩

def word (c : Char) (cs : List Char) : Lexeme :=
  ⟨some (wordKind (String.ofList (c :: cs.takeWhile isWordPart))), cs.takeWhile isWordPart,
    cs.dropWhile isWordPart⟩

/-- The numeral that begins with the digit `c`: hexadecimal after `0x`, else decimal. -/
def numeral (c : Char) (cs : List Char) : Lexeme :=
  match cs with
  | x :: rest =>
    if c = '0' ∧ (x = 'x' ∨ x = 'X') then
      ⟨some .number, x :: rest.takeWhile Text.isHexDigit, rest.dropWhile Text.isHexDigit⟩
    else run .number Char.isDigit cs
  | [] => ⟨some .number, [], []⟩

def comment? (cs : List Char) : Option Lexeme :=
  match cs with
  | '/' :: _ => some (run .comment (· != '\n') cs)
  | '*' :: rest => some ⟨some .comment, '*' :: (commentTail rest).1, (commentTail rest).2⟩
  | _ => none

/-- The operator or punctuation mark that begins with `c`; any other character is passed over. -/
def mark (c : Char) (cs : List Char) : Lexeme :=
  let single : Lexeme :=
    if operatorMarks.contains c then ⟨some .operator, [], cs⟩
    else if punctuationMarks.contains c then ⟨some .punctuation, [], cs⟩
    else ⟨none, [], cs⟩
  match cs with
  | d :: rest => if pairOperators.contains (c, d) then ⟨some .operator, [d], rest⟩ else single
  | [] => single

def first (c : Char) (cs : List Char) : Lexeme :=
  if c = '\n' then ⟨some .newline, [], cs⟩
  else if Text.isBlank c then ⟨none, [], cs⟩
  else if c = '/' then (comment? cs).getD (mark c cs)
  else if c = '#' then run .directive isWordPart cs
  else if c = '"' ∨ c = '\'' then
    ⟨some .text, (quotedTail c cs).1, (quotedTail c cs).2⟩
  else if c.isDigit then numeral c cs
  else if isWordStart c then word c cs
  else mark c cs

end Lexeme

theorem commentTail_append (cs : List Char) : (commentTail cs).1 ++ (commentTail cs).2 = cs := by
  fun_induction commentTail cs <;> simp_all

theorem quotedTail_append (quote : Char) (cs : List Char) :
    (quotedTail quote cs).1 ++ (quotedTail quote cs).2 = cs := by
  fun_induction quotedTail quote cs <;> simp_all

theorem Lexeme.mark_append (c : Char) (cs : List Char) :
    (mark c cs).tail ++ (mark c cs).rest = cs := by
  unfold mark
  cases cs <;> grind

theorem Lexeme.comment?_append {cs : List Char} {x : Lexeme} (h : comment? cs = some x) :
    x.tail ++ x.rest = cs := by
  unfold comment? at h
  split at h
  · cases h
    simp only [run]
    exact List.takeWhile_append_dropWhile
  · rename_i rest
    cases h
    simp [commentTail_append]
  · cases h

theorem Lexeme.numeral_append (c : Char) (cs : List Char) :
    (numeral c cs).tail ++ (numeral c cs).rest = cs := by
  unfold numeral
  split
  · split <;> simp [run]
  · rfl

/-- A lexeme and the rest after it make up the input. -/
theorem Lexeme.first_append (c : Char) (cs : List Char) :
    (first c cs).tail ++ (first c cs).rest = cs := by
  unfold first
  repeat' split
  · rfl
  · rfl
  · cases h : comment? cs with
    | none => simpa using mark_append c cs
    | some x => simpa using comment?_append h
  · simp [run]
  · simp [quotedTail_append]
  · exact numeral_append c cs
  · simp [word]
  · exact mark_append c cs

theorem Lexeme.rest_length_le (c : Char) (cs : List Char) :
    (first c cs).rest.length ≤ cs.length := by
  have h := congrArg List.length (first_append c cs)
  simp only [List.length_append] at h
  omega

/-- The tokens of a text that starts at `p`; the end of the text is the last one. -/
def scanFrom (p : Position) (input : List Char) : List Token :=
  match input with
  | [] => [⟨.endOfText, "", p⟩]
  | c :: cs =>
    let lexeme := Lexeme.first c cs
    let tokens := scanFrom (p.afterText (c :: lexeme.tail)) lexeme.rest
    match lexeme.kind with
    | some kind => ⟨kind, String.ofList (c :: lexeme.tail), p⟩ :: tokens
    | none => tokens
termination_by input.length
decreasing_by
  have := Lexeme.rest_length_le c cs
  simp only [List.length_cons]
  omega

def scan (text : String) : List Token :=
  scanFrom .start text.toList

end ControlLogic.Token
