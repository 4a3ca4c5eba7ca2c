import ControlLogic.Proofs.Token.Lookup
import ControlLogic.Proofs.Token.Tiling

/-!
Texts spaced anew. The longest lexeme at the head of a text is the longest one also where nothing
but a blank follows it, so the tokens of a program can be written with single blanks between them
and are cut as they were. Only a literal that was not closed would go on over the blank.
-/

set_option autoImplicit false
set_option relaxedAutoImplicit false

namespace ControlLogic.Token

open Spelling

/-- What the tokens of a text that are part of a program are and how they are written; the last is
the end of the text. -/
def significant (text : String) : List Spelling :=
  ((scan text).filter (!·.isTrivia)).map spelling

/-- Whether a literal is closed: it ends in the quote it begins with, and no backslash protects that
one. -/
def IsClosed (t : Token) : Prop :=
  ∃ quote body, t.text.toList = quote :: (body ++ [quote]) ∧ endsUnprotected body = true

def looksClosed (t : Token) : Bool :=
  t.text.toList.head?.any fun quote =>
    t.text.toList.tail.getLast? == some quote && endsUnprotected t.text.toList.tail.dropLast

private theorem looksClosed_iff {t : Token} : t.looksClosed = true ↔ t.IsClosed := by
  simp only [looksClosed, Option.any_eq_true, Bool.and_eq_true, beq_iff_eq]
  constructor
  · rintro ⟨quote, hhead, hlast, hfree⟩
    obtain ⟨cs, hchars⟩ := List.head?_eq_some_iff.mp hhead
    rw [hchars, List.tail_cons] at hlast hfree
    obtain ⟨body, rfl⟩ := List.getLast?_eq_some_iff.mp hlast
    rw [List.dropLast_concat] at hfree
    exact ⟨quote, body, hchars, hfree⟩
  · rintro ⟨quote, body, hchars, hfree⟩
    refine ⟨quote, by rw [hchars]; rfl, ?_⟩
    rw [hchars, List.tail_cons, List.dropLast_concat]
    exact ⟨by simp, hfree⟩

instance (t : Token) : Decidable t.IsClosed :=
  decidable_of_iff _ looksClosed_iff

/-! ### Literals -/

theorem GoesOn.of_cons {quote c : Char} {cs : List Char} (h : GoesOn quote (c :: cs))
    (hc : c ≠ '\\') : (c ≠ quote ∧ c ≠ '\n') ∧ GoesOn quote cs := by
  refine ⟨h [] c cs rfl rfl, fun before d after hsplit hfree => ?_⟩
  refine h (c :: before) d after (by rw [hsplit]; rfl) ?_
  rwa [endsProtecting_cons hc]

private theorem GoesOn.of_pair {quote c : Char} {cs : List Char}
    (h : GoesOn quote ('\\' :: c :: cs)) :
    GoesOn quote cs := by
  intro before d after hsplit hfree
  refine h ('\\' :: c :: before) d after (by rw [hsplit]; rfl) ?_
  rwa [endsProtecting_pair]

private theorem quotedTail_of_goesOn {quote : Char} (hquote : IsQuote quote) (rest : List Char) :
    ∀ body, GoesOn quote body → endsProtecting body = false →
      quotedTail quote (body ++ quote :: rest) = (body ++ [quote], rest)
  | [], _, _ => by
    rw [List.nil_append, quotedTail_cons hquote.ne_backslash, if_neg hquote.ne_newline, if_pos rfl]
    rfl
  | c :: body, hgoes, hfree => by
    by_cases hc : c = '\\'
    · subst hc
      cases body with
      | nil => exact absurd hfree (by decide)
      | cons d body =>
        rw [endsProtecting_pair] at hfree
        rw [List.cons_append, List.cons_append, quotedTail_pair,
          quotedTail_of_goesOn hquote rest body hgoes.of_pair hfree]
        rfl
    · obtain ⟨⟨hother, hline⟩, hbody⟩ := hgoes.of_cons hc
      rw [endsProtecting_cons hc] at hfree
      rw [List.cons_append, quotedTail_cons hc, if_neg hline, if_neg hother,
        quotedTail_of_goesOn hquote rest body hbody hfree]
      rfl

private theorem quotedTail_append_of_closed {quote : Char} (hquote : IsQuote quote)
    {cs body : List Char}
    (hclosed : (quotedTail quote cs).1 = body ++ [quote]) (hfree : endsProtecting body = false)
    (rest : List Char) :
    quotedTail quote ((quotedTail quote cs).1 ++ rest) = ((quotedTail quote cs).1, rest) := by
  -- Nothing else than the quote has ended the literal.
  have hended (hgoes : GoesOn quote (body ++ [quote])) : False :=
    (hgoes body quote [] rfl hfree).1 rfl
  obtain ⟨ending, hends⟩ := ends_quotedTail hquote cs
  generalize (quotedTail quote cs).2 = behind at hends
  rw [hclosed] at hends ⊢
  generalize hwhole : body ++ [quote] = whole at hends hended
  cases hends with
  | @quote inner _ hgoes hinner =>
    rw [List.append_assoc, List.singleton_append]
    exact quotedTail_of_goesOn hquote rest inner hgoes hinner
  | line hgoes _ => exact (hended hgoes).elim
  | text hgoes => exact (hended hgoes).elim

private theorem lasts_literal {quote : Char} (hquote : IsQuote quote) {cs body : List Char}
    (hclosed : (quotedTail quote cs).1 = body ++ [quote]) (hfree : endsUnprotected body = true) :
    Lasts ⟨.text, String.ofList (quote :: (quotedTail quote cs).1)⟩ := by
  rw [endsUnprotected_eq, Bool.not_eq_true'] at hfree
  refine ⟨quote, _, String.toList_ofList, fun rest _ => ?_⟩
  rw [first_quote hquote, quotedTail_append_of_closed hquote hclosed hfree]

/-! ### Other lexemes -/

private theorem lasts_directive (cs : List Char) :
    Lasts ⟨.directive, String.ofList ('#' :: cs.takeWhile isWordPart)⟩ := by
  refine ⟨'#', _, String.toList_ofList, fun rest hrest => ?_⟩
  have hpart : ∀ c ∈ cs.takeWhile isWordPart, isWordPart c = true :=
    List.all_eq_true.mp List.all_takeWhile
  obtain ⟨htake, hdrop⟩ := takeWhile_append_gap hpart (by decide) hrest
  change Lexeme.run .directive isWordPart _ = _
  rw [Lexeme.run, htake, hdrop]

private theorem lasts_word {c : Char} (hc : isWordStart c = true) (cs : List Char) :
    Lasts (word (String.ofList (c :: cs.takeWhile isWordPart))) :=
  (word_stands (isWord_of_toList String.toList_ofList hc List.all_takeWhile)).lasts

private theorem lasts_numeral {c : Char} (hc : c.isDigit = true) (cs : List Char) :
    Lasts ⟨.number, String.ofList (c :: (Lexeme.numeral c cs).tail)⟩ := by
  refine ⟨c, _, String.toList_ofList, fun rest hrest => ?_⟩
  rw [first_eq_numeral hc]
  by_cases hhex : c = '0' ∧ ∃ x ∈ cs.head?, x = 'x' ∨ x = 'X'
  · obtain ⟨rfl, x, hx, hletter⟩ := hhex
    obtain ⟨digits, rfl⟩ := List.head?_eq_some_iff.mp hx
    have hdigits : ∀ d ∈ digits.takeWhile Text.isHexDigit, Text.isHexDigit d = true :=
      List.all_eq_true.mp List.all_takeWhile
    obtain ⟨htake, hdrop⟩ := takeWhile_append_gap hdigits (by decide) hrest
    simp [Lexeme.numeral, hletter, htake, hdrop]
  · have hrun : Lexeme.numeral c cs = Lexeme.run .number Char.isDigit cs := by
      cases cs with
      | nil => rfl
      | cons x digits =>
        refine if_neg fun hx => hhex ⟨hx.1, x, rfl, hx.2⟩
    have hdigits : ∀ d ∈ cs.takeWhile Char.isDigit, d.isDigit = true :=
      List.all_eq_true.mp List.all_takeWhile
    obtain ⟨htake, hdrop⟩ := takeWhile_append_gap hdigits (by decide) hrest
    rw [hrun]
    change Lexeme.numeral c (cs.takeWhile Char.isDigit ++ rest) = _
    rw [numeral_eq_run (head?_append_gap hdigits hrest), Lexeme.run, htake, hdrop]
    rfl

private theorem mark_mem {c : Char} {cs : List Char} {kind : TokenKind}
    (h : (Lexeme.mark c cs).kind = some kind) :
    ⟨kind, String.ofList (c :: (Lexeme.mark c cs).tail)⟩ ∈
      operatorTexts.map operator ++ punctuationTexts.map punctuation := by
  have hpairs : ∀ pair ∈ pairOperators, operator (String.ofList [pair.1, pair.2]) ∈
      operatorTexts.map operator ++ punctuationTexts.map punctuation := by decide
  have hoperators : operatorMarks.map (fun c => operator (String.ofList [c])) ⊆
      operatorTexts.map operator ++ punctuationTexts.map punctuation := by decide
  have hpunctuation : punctuationMarks.map (fun c => punctuation (String.ofList [c])) ⊆
      operatorTexts.map operator ++ punctuationTexts.map punctuation := by decide
  have hsingle {rest : List Char} (x : Lexeme)
      (hx : x = if operatorMarks.contains c then ⟨some .operator, [], rest⟩
        else if punctuationMarks.contains c then ⟨some .punctuation, [], rest⟩
        else ⟨none, [], rest⟩) (hkind : x.kind = some kind) :
      ⟨kind, String.ofList (c :: x.tail)⟩ ∈
        operatorTexts.map operator ++ punctuationTexts.map punctuation := by
    split at hx
    next hmem =>
      subst hx
      cases hkind
      exact hoperators (List.mem_map_of_mem (by simpa using hmem))
    split at hx
    next hmem =>
      subst hx
      cases hkind
      exact hpunctuation (List.mem_map_of_mem (by simpa using hmem))
    next =>
      subst hx
      cases hkind
  unfold Lexeme.mark at h ⊢
  cases cs with
  | nil => exact hsingle _ rfl h
  | cons d rest =>
    dsimp only at h ⊢
    split
    next hmem =>
      rw [if_pos hmem] at h
      cases h
      exact hpairs (c, d) (by simpa using hmem)
    next hmem =>
      rw [if_neg hmem] at h
      exact hsingle _ rfl h

private theorem lasts_mark {c : Char} {cs : List Char} {kind : TokenKind}
    (h : (Lexeme.mark c cs).kind = some kind) :
    Lasts ⟨kind, String.ofList (c :: (Lexeme.mark c cs).tail)⟩ := by
  rcases List.mem_append.mp (mark_mem h) with hmem | hmem
  · obtain ⟨text, htext, heq⟩ := List.mem_map.mp hmem
    rw [← heq]
    exact (operator_stands htext).lasts
  · obtain ⟨text, htext, heq⟩ := List.mem_map.mp hmem
    rw [← heq]
    exact (punctuation_stands htext).lasts

/-- A lexeme that is part of a program is one wherever a gap follows it, if it is no literal that
was left open. -/
private theorem lasts_first {c : Char} {cs : List Char} {kind : TokenKind}
    (hkind : (Lexeme.first c cs).kind = some kind) (hcomment : kind ≠ .comment)
    (hnewline : kind ≠ .newline)
    (hclosed : kind = .text → ∃ quote body,
      c :: (Lexeme.first c cs).tail = quote :: (body ++ [quote]) ∧ endsUnprotected body = true) :
    Lasts ⟨kind, String.ofList (c :: (Lexeme.first c cs).tail)⟩ := by
  by_cases hword : isWordStart c = true
  · rw [first_eq_word hword] at hkind ⊢
    cases hkind
    exact lasts_word hword cs
  by_cases hdigit : c.isDigit = true
  · rw [first_eq_numeral hdigit, numeral_kind] at hkind
    cases hkind
    rw [first_eq_numeral hdigit]
    exact lasts_numeral hdigit cs
  by_cases hquote : IsQuote c
  · rw [first_quote hquote] at hkind hclosed ⊢
    cases hkind
    obtain ⟨quote, body, htail, hfree⟩ := hclosed rfl
    obtain ⟨rfl, htail⟩ := List.cons.inj htail
    exact lasts_literal hquote htail hfree
  have hmarks : ¬ (c = '"' ∨ c = '\'') := hquote
  unfold Lexeme.first at hkind ⊢
  rw [if_neg hword, if_neg hdigit, if_neg hmarks] at hkind ⊢
  split at hkind
  next => exact absurd (Option.some.inj hkind).symm hnewline
  rw [if_neg ‹_›]
  split at hkind
  next => cases hkind
  rw [if_neg ‹_›]
  split at hkind
  next hslash =>
    rw [if_pos hslash]
    cases hfound : Lexeme.comment? cs with
    | some x =>
      rw [hfound, Option.getD_some, comment?_kind hfound] at hkind
      exact absurd (Option.some.inj hkind).symm hcomment
    | none =>
      rw [hfound] at hkind
      exact lasts_mark hkind
  rw [if_neg ‹_›]
  split at hkind
  next hhash =>
    subst hhash
    cases hkind
    exact lasts_directive cs
  next hhash =>
    rw [if_neg hhash]
    exact lasts_mark hkind

/-! ### Texts written anew -/

private theorem lasts_of_mem_scan {text : String} {t : Token} (h : t ∈ scan text)
    (htrivia : t.isTrivia = false) (hclosed : t.kind = .text → t.IsClosed) :
    t.kind = .endOfText ∨ Lasts t.spelling := by
  rcases isLexemeOf_of_mem_scanFrom h with hend | ⟨-, c, cs, -, -, hkind, htext⟩
  · exact .inl hend
  right
  rw [Token.isTrivia, Bool.or_eq_false_iff, beq_eq_false_iff_ne, beq_eq_false_iff_ne] at htrivia
  rw [Token.spelling, htext]
  refine lasts_first hkind htrivia.1 htrivia.2 fun htextual => ?_
  obtain ⟨quote, body, hchars, hfree⟩ := hclosed htextual
  rw [htext, String.toList_ofList] at hchars
  exact ⟨quote, body, hchars, hfree⟩

theorem exists_scan (text : String) :
    ∃ ts p, scan text = ts ++ [⟨.endOfText, "", p⟩] ∧ ∀ t ∈ ts, t.kind ≠ .endOfText := by
  obtain ⟨tiles, last, hscan, htiling⟩ := scanFrom_tiling [] [] text.toList (by simp)
  refine ⟨tiles.map Tile.token, _, hscan, fun t ht => ?_⟩
  obtain ⟨tile, htile, rfl⟩ := List.mem_map.mp ht
  exact (htiling.tokens tile htile).1

/-- The tokens of a text that are part of a program, the end of the text aside, are each one lexeme
wherever a gap follows it. -/
private theorem exists_significant (text : String)
    (h : ∀ t ∈ scan text, t.kind = .text → t.IsClosed) :
    ∃ ws : List Spelling, significant text = ws ++ [finish] ∧
      ∀ w ∈ ws, w.Lasts ∧ w.kind ≠ .comment ∧ w.kind ≠ .newline := by
  obtain ⟨ts, p, hscan, hts⟩ := exists_scan text
  refine ⟨(ts.filter (!·.isTrivia)).map spelling, ?_, fun w hw => ?_⟩
  · rw [significant, hscan, List.filter_append, List.map_append]
    rfl
  obtain ⟨t, ht, rfl⟩ := List.mem_map.mp hw
  obtain ⟨hmem, htrivia⟩ := List.mem_filter.mp ht
  have hin : t ∈ scan text := hscan ▸ List.mem_append_left _ hmem
  have hnot : t.isTrivia = false := by simpa using htrivia
  have hlasts := (lasts_of_mem_scan hin hnot (h t hin)).resolve_left (hts t hmem)
  rw [isTrivia, Bool.or_eq_false_iff, beq_eq_false_iff_ne, beq_eq_false_iff_ne] at hnot
  exact ⟨hlasts, hnot⟩

private theorem toList_unwords_finish (ws : List Spelling) :
    ∃ gap, (gap = [] ∨ gap = [' ']) ∧
      (unwords (ws ++ [finish])).toList = (unwords ws).toList ++ gap := by
  induction ws with
  | nil => exact ⟨[], .inl rfl, by simp [unwords, finish]⟩
  | cons w ws ih =>
    cases ws with
    | nil =>
      refine ⟨[' '], .inr rfl, ?_⟩
      rw [List.singleton_append, toList_unwords_cons]
      simp [unwords, finish]
    | cons v ws =>
      obtain ⟨gap, hgap, hchars⟩ := ih
      refine ⟨gap, hgap, ?_⟩
      rw [List.cons_append] at hchars
      rw [List.cons_append, List.cons_append, toList_unwords_cons, hchars, toList_unwords_cons]
      simp

/--
The tokens of a program can be written anew with single blanks between them: the text they make has
the same tokens, comments and line ends aside, if all literals in it are closed.
-/
theorem respaced_text_has_same_tokens (text : String)
    (h : ∀ t ∈ scan text, t.kind = .text → t.IsClosed) :
    significant (unwords (significant text)) = significant text := by
  obtain ⟨ws, hws, hlasts⟩ := exists_significant text h
  obtain ⟨gap, hgap, hchars⟩ := toList_unwords_finish ws
  have hsame : (scan (unwords (ws ++ [finish]))).map spelling = ws ++ [finish] := by
    obtain ⟨p, hscan⟩ := map_spelling_scanFrom (fun w hw => (hlasts w hw).1) .start
      (hgap.imp_right fun hblank => ⟨[], hblank⟩)
    rw [scan, hchars, hscan]
    rcases hgap with rfl | rfl
    · rw [scanFrom]
      rfl
    · rw [scanFrom_blank, scanFrom]
      rfl
  have hkept : ∀ w ∈ ws ++ [finish], !(w.kind == .comment || w.kind == .newline) := by
    intro w hw
    rcases List.mem_append.mp hw with hw | hw
    · simpa using (hlasts w hw).2
    · obtain rfl := List.mem_singleton.mp hw
      rfl
  rw [hws, significant]
  change ((scan _).filter ((fun w => !(w.kind == .comment || w.kind == .newline)) ∘ spelling)).map
    spelling = _
  rw [← List.filter_map, hsame, List.filter_eq_self.mpr hkept]

/-- A line without a blank, with comments, a protected quote and operators of two characters. -/
theorem crowded_line_is_respaced :
    (∀ t ∈ scan "x$1<=0x1F/*>*/>>'it\\'s'-2a;#b//c", t.kind = .text → t.IsClosed) ∧
      significant (unwords (significant "x$1<=0x1F/*>*/>>'it\\'s'-2a;#b//c")) =
        significant "x$1<=0x1F/*>*/>>'it\\'s'-2a;#b//c" := by
  have hclosed : ∀ t ∈ scan "x$1<=0x1F/*>*/>>'it\\'s'-2a;#b//c", t.kind = .text → t.IsClosed := by
    rw [scan_eq_map_lookedUp]
    decide +kernel
  exact ⟨hclosed, respaced_text_has_same_tokens _ hclosed⟩

-- A literal left open ends with its line, and goes on over the blank that stands for the line's
-- end.
example : significant (unwords (significant "'a\nb")) ≠ significant "'a\nb" := by
  rw [significant, significant, scan_eq_map_lookedUp, scan_eq_map_lookedUp "'a\nb"]
  decide +kernel

end ControlLogic.Token
