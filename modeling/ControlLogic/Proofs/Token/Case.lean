import ControlLogic.Proofs.Text.Upper
import ControlLogic.Proofs.Token.Quoting

/-!
Tokens up to the case of their letters. A text in upper case is cut into the tokens of the text, in
upper case, of the same classes and at the same places; so case never decides where a token begins
or ends, or of which class it is.
-/

set_option autoImplicit false
set_option relaxedAutoImplicit false

namespace ControlLogic.Token

open Text (toUpper_eq_iff insensitive_of_letters takeWhile_map_toUpper dropWhile_map_toUpper)

/-! ### Characters -/

private theorem isDigit_toUpper (c : Char) : c.toUpper.isDigit = c.isDigit :=
  insensitive_of_letters (by decide) c

private theorem isWordStart_toUpper (c : Char) : isWordStart c.toUpper = isWordStart c :=
  insensitive_of_letters (by decide) c

theorem isWordPart_toUpper (c : Char) : isWordPart c.toUpper = isWordPart c :=
  insensitive_of_letters (by decide) c

private theorem isHexDigit_toUpper (c : Char) : Text.isHexDigit c.toUpper = Text.isHexDigit c :=
  insensitive_of_letters (by decide) c

private theorem isOperatorMark_toUpper (c : Char) :
    operatorMarks.contains c.toUpper = operatorMarks.contains c :=
  insensitive_of_letters (by decide) c

private theorem isPunctuationMark_toUpper (c : Char) :
    punctuationMarks.contains c.toUpper = punctuationMarks.contains c :=
  insensitive_of_letters (by decide) c

private theorem isPairOperator_toUpper (c d : Char) :
    pairOperators.contains (c.toUpper, d.toUpper) = pairOperators.contains (c, d) := by
  rw [Bool.eq_iff_iff]
  simp (disch := decide) only [pairOperators, List.contains_cons, List.contains_nil, Bool.or_false,
    Bool.or_eq_true, beq_iff_eq, Prod.mk.injEq, toUpper_eq_iff]

def isHexMark (x : Char) : Bool :=
  x == 'x' || x == 'X'

private theorem isHexMark_toUpper (x : Char) : isHexMark x.toUpper = isHexMark x :=
  insensitive_of_letters (by decide) x

/-! ### Lexemes -/

theorem wordKind_upper (word : String) : wordKind (Text.upper word) = wordKind word := by
  have hsame (table : List String) :
      Text.isOneOf (Text.upper word) table = Text.isOneOf word table :=
    Text.isOneOf_congr (Text.upper_upper word) table
  unfold wordKind Vocabulary.isControl Vocabulary.isSignalType Vocabulary.isVariableType
    Vocabulary.isRoutine
  rw [hsame, hsame, hsame, hsame]

private theorem commentTail_map_toUpper (cs : List Char) :
    commentTail (cs.map Char.toUpper) =
      ((commentTail cs).1.map Char.toUpper, (commentTail cs).2.map Char.toUpper) := by
  fun_induction commentTail cs with
  | case1 => rfl
  | case2 rest => rfl
  | case3 c rest hopen ih =>
    rw [List.map_cons, commentTail]
    · rw [ih]
      rfl
    · intro more hc hmore
      rw [toUpper_eq_iff rfl] at hc
      cases rest with
      | nil => cases hmore
      | cons d rest =>
        obtain ⟨hd, -⟩ := List.cons.inj hmore
        rw [toUpper_eq_iff rfl] at hd
        exact hopen rest hc (by rw [hd])

private theorem quotedTail_map_toUpper {quote : Char} (hquote : quote.isAlpha = false)
    (cs : List Char) :
    quotedTail quote (cs.map Char.toUpper) =
      ((quotedTail quote cs).1.map Char.toUpper, (quotedTail quote cs).2.map Char.toUpper) := by
  have hplain {c : Char} {rest : List Char} (hlast : c = '\\' → rest = [] → False)
      (hmore : ∀ d more, c = '\\' → rest = d :: more → False) : c ≠ '\\' := by
    rintro rfl
    cases rest with
    | nil => exact hlast rfl rfl
    | cons d more => exact hmore d more rfl rfl
  fun_induction quotedTail quote cs with
  | case1 => rfl
  | case2 => rfl
  | case3 c rest ih =>
    have hbackslash : ('\\' : Char).toUpper = '\\' := rfl
    rw [List.map_cons, List.map_cons, hbackslash, quotedTail, ih]
    rfl
  | case4 rest hlast hmore => rfl
  | case5 rest hlast hmore hfeed =>
    have hupper : quote.toUpper = quote := (toUpper_eq_iff hquote).mpr rfl
    rw [List.map_cons, hupper, quotedTail_cons (hplain hlast hmore), if_neg hfeed, if_pos rfl,
      List.map_cons, List.map_nil, hupper]
  | case6 c rest hlast hmore hfeed hother ih =>
    have hne : c.toUpper ≠ '\\' := mt (toUpper_eq_iff rfl).mp (hplain hlast hmore)
    rw [List.map_cons, quotedTail_cons hne, if_neg (mt (toUpper_eq_iff rfl).mp hfeed),
      if_neg (mt (toUpper_eq_iff hquote).mp hother), ih]
    rfl

def Lexeme.inUpper (lexeme : Lexeme) : Lexeme :=
  ⟨lexeme.kind, lexeme.tail.map Char.toUpper, lexeme.rest.map Char.toUpper⟩

namespace Lexeme

private theorem run_map_toUpper (kind : TokenKind) {p : Char → Bool} (h : ∀ c, p c.toUpper = p c)
    (cs : List Char) : run kind p (cs.map Char.toUpper) = (run kind p cs).inUpper := by
  rw [run, takeWhile_map_toUpper h, dropWhile_map_toUpper h]
  rfl

private theorem word_map_toUpper (c : Char) (cs : List Char) :
    word c.toUpper (cs.map Char.toUpper) = (word c cs).inUpper := by
  have hword := wordKind_upper (String.ofList (c :: cs.takeWhile isWordPart))
  rw [Text.upper_ofList, List.map_cons] at hword
  rw [word, takeWhile_map_toUpper isWordPart_toUpper, dropWhile_map_toUpper isWordPart_toUpper,
    hword]
  rfl

private theorem numeral_map_toUpper (c : Char) (cs : List Char) :
    numeral c.toUpper (cs.map Char.toUpper) = (numeral c cs).inUpper := by
  have hx (x : Char) : (x.toUpper = 'x' ∨ x.toUpper = 'X') ↔ x = 'x' ∨ x = 'X' := by
    simpa [isHexMark] using Bool.eq_iff_iff.mp (isHexMark_toUpper x)
  cases cs with
  | nil => rfl
  | cons x rest =>
    rw [List.map_cons, numeral, numeral]
    simp only [toUpper_eq_iff (d := '0') rfl, hx]
    split
    · rw [takeWhile_map_toUpper isHexDigit_toUpper, dropWhile_map_toUpper isHexDigit_toUpper]
      rfl
    · exact run_map_toUpper .number isDigit_toUpper (x :: rest)

private theorem comment?_map_toUpper (cs : List Char) :
    comment? (cs.map Char.toUpper) = (comment? cs).map inUpper := by
  have hfeed (c : Char) : (c.toUpper != '\n') = (c != '\n') :=
    insensitive_of_letters (f := (· != '\n')) (by decide) c
  cases cs with
  | nil => rfl
  | cons c rest =>
    by_cases hslash : c = '/'
    · subst hslash
      exact congrArg some (run_map_toUpper .comment hfeed ('/' :: rest))
    by_cases hstar : c = '*'
    · subst hstar
      have hend := commentTail_map_toUpper rest
      change some (⟨_, _ :: (commentTail (rest.map Char.toUpper)).1, _⟩ : Lexeme) = _
      rw [hend]
      rfl
    · have hnone {d : Char} (hd : d ≠ '/') (hd' : d ≠ '*') (ds : List Char) :
          comment? (d :: ds) = none := by
        unfold comment?
        split
        next heq => exact absurd (List.cons.inj heq).1 hd
        next heq => exact absurd (List.cons.inj heq).1 hd'
        next => rfl
      rw [List.map_cons, hnone (mt (toUpper_eq_iff rfl).mp hslash)
        (mt (toUpper_eq_iff rfl).mp hstar), hnone hslash hstar]
      rfl

private theorem mark_map_toUpper (c : Char) (cs : List Char) :
    mark c.toUpper (cs.map Char.toUpper) = (mark c cs).inUpper := by
  cases cs with
  | nil =>
    simp only [mark, List.map_nil, isOperatorMark_toUpper, isPunctuationMark_toUpper]
    split
    · rfl
    · split <;> rfl
  | cons d rest =>
    simp only [mark, List.map_cons, isOperatorMark_toUpper, isPunctuationMark_toUpper,
      isPairOperator_toUpper]
    split
    · rfl
    · split
      · rfl
      · split <;> rfl

private theorem first_map_toUpper (c : Char) (cs : List Char) :
    first c.toUpper (cs.map Char.toUpper) = (first c cs).inUpper := by
  have hmark {d : Char} (hd : d.isAlpha = false) : c.toUpper = d ↔ c = d := toUpper_eq_iff hd
  unfold first
  simp only [hmark (d := '\n') rfl, hmark (d := '/') rfl, hmark (d := '#') rfl,
    hmark (d := '"') rfl, hmark (d := '\'') rfl, Text.isBlank_toUpper, isDigit_toUpper,
    isWordStart_toUpper]
  split
  · rfl
  split
  · rfl
  split
  · rw [comment?_map_toUpper, mark_map_toUpper]
    cases comment? cs <;> rfl
  split
  · exact run_map_toUpper .directive isWordPart_toUpper cs
  split
  next hquote =>
    have hcaseless : c.isAlpha = false := by rcases hquote with rfl | rfl <;> rfl
    have hupper : c.toUpper = c := (toUpper_eq_iff hcaseless).mpr rfl
    rw [hupper, quotedTail_map_toUpper hcaseless]
    rfl
  split
  · exact numeral_map_toUpper c cs
  split
  · exact word_map_toUpper c cs
  · exact mark_map_toUpper c cs

end Lexeme

/-! ### Texts -/

private theorem afterText_map_toUpper (p : Position) (cs : List Char) :
    p.afterText (cs.map Char.toUpper) = p.afterText cs := by
  have hafter (p : Position) (c : Char) : p.after c.toUpper = p.after c := by
    simp only [Position.after, toUpper_eq_iff (d := '\n') rfl]
  unfold Position.afterText
  rw [List.foldl_map]
  simp only [hafter]

def inUpper (t : Token) : Token :=
  { t with text := Text.upper t.text }

private theorem scanFrom_cons (p : Position) (c : Char) (cs : List Char) :
    scanFrom p (c :: cs) =
      ((Lexeme.first c cs).kind.map fun kind =>
        ⟨kind, String.ofList (c :: (Lexeme.first c cs).tail), p⟩).toList ++
      scanFrom (p.afterText (c :: (Lexeme.first c cs).tail)) (Lexeme.first c cs).rest := by
  rw [scanFrom]
  cases (Lexeme.first c cs).kind <;> rfl

private theorem scanFrom_map_toUpper (p : Position) (cs : List Char) :
    scanFrom p (cs.map Char.toUpper) = (scanFrom p cs).map inUpper := by
  induction hlength : cs.length using Nat.strongRecOn generalizing p cs with
  | ind length ih =>
  cases cs with
  | nil =>
    rw [List.map_nil, scanFrom, List.map_singleton, inUpper, Text.upper_empty]
  | cons c cs =>
    have hless := Lexeme.rest_length_le c cs
    have hplace := afterText_map_toUpper p (c :: (Lexeme.first c cs).tail)
    have hrest := ih _ (by simp only [List.length_cons] at hlength; omega)
      (p.afterText (c :: (Lexeme.first c cs).tail)) (Lexeme.first c cs).rest rfl
    rw [List.map_cons, scanFrom_cons, scanFrom_cons, Lexeme.first_map_toUpper, List.map_append]
    simp only [Lexeme.inUpper]
    rw [← List.map_cons, hplace, hrest, ← Text.upper_ofList]
    cases (Lexeme.first c cs).kind <;> rfl

theorem scan_upper (text : String) : scan (Text.upper text) = (scan text).map inUpper := by
  rw [scan, Text.toList_upper, scanFrom_map_toUpper, scan]

/-! ### Numerals -/

private theorem literalNumber?_eq (text : String) :
    literalNumber? text =
      if text.toList.head? = some '0' ∧ text.toList.tail.head?.any isHexMark then
        Number.word? 16 (text.toList.drop 2)
      else Number.word? 10 text.toList := by
  unfold literalNumber?
  split
  next digits h => simp [h, isHexMark]
  next digits h => simp [h, isHexMark]
  next hlower hupper =>
    rw [if_neg]
    rintro ⟨hzero, hmark⟩
    obtain ⟨cs, hchars⟩ := List.head?_eq_some_iff.mp hzero
    cases cs with
    | nil => simp [hchars] at hmark
    | cons x digits =>
      have hx : x = 'x' ∨ x = 'X' := by simpa [hchars, isHexMark] using hmark
      rcases hx with rfl | rfl
      · exact hlower digits hchars
      · exact hupper digits hchars

theorem literalNumber?_upper (text : String) :
    literalNumber? (Text.upper text) = literalNumber? text := by
  have hzero : (text.toList.map Char.toUpper).head? = some '0' ↔ text.toList.head? = some '0' := by
    cases text.toList with
    | nil => rfl
    | cons c cs => simp [toUpper_eq_iff (d := '0') rfl]
  have hmark : (text.toList.map Char.toUpper).tail.head?.any isHexMark =
      text.toList.tail.head?.any isHexMark := by
    rw [← List.map_tail, List.head?_map, Option.any_map]
    simp only [isHexMark_toUpper]
  rw [literalNumber?_eq, literalNumber?_eq, Text.toList_upper, ← List.map_drop,
    Number.word?_map_toUpper, Number.word?_map_toUpper, hmark]
  simp only [hzero]

end ControlLogic.Token
