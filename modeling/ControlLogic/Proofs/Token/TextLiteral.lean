import ControlLogic.Proofs.Token.Tiling

/-!
Literals of texts, as they are cut from a text and as they are read. What is written for a text is
one token that stands for it; and of any literal, reading takes the last character for the closing
quote just if cutting ended there.
-/

set_option autoImplicit false
set_option relaxedAutoImplicit false

namespace ControlLogic.Token

private theorem wordKind_ne_text (word : String) : wordKind word ≠ .text := by
  unfold wordKind
  repeat' split
  all_goals decide

private theorem isQuote_of_kind_first {c : Char} {cs : List Char}
    (h : (Lexeme.first c cs).kind = some .text) : IsQuote c := by
  have hmark : (Lexeme.mark c cs).kind ≠ some .text := by
    intro hkind
    have hmem := mark_kind c cs
    simp [hkind] at hmem
  unfold Lexeme.first at h
  split at h
  · cases h
  split at h
  · cases h
  split at h
  · cases hcomment : Lexeme.comment? cs with
    | none =>
      rw [hcomment] at h
      exact absurd h hmark
    | some x =>
      rw [hcomment, Option.getD_some, comment?_kind hcomment] at h
      cases h
  split at h
  · cases h
  split at h
  · assumption
  split at h
  · rw [numeral_kind] at h
    cases h
  split at h
  · exact absurd (Option.some.inj h) (wordKind_ne_text _)
  · exact absurd h hmark

/-- A literal in a text, and how it is read: behind some part of the text stand a quote and a body,
which ends in one of three ways, and what is read is the body without the quote that ends it. -/
structure Literal (source : String) (t : Token) (before : List Char) (quote : Char)
    (body rest : List Char) (ending : Ending) : Prop where
  whole : source.toList = before ++ quote :: (body ++ rest)
  place : t.pos = .behind before
  text : t.text.toList = quote :: body
  isQuote : IsQuote quote
  ends : Ends quote body rest ending
  read : body = literalBody t.text.toList ++ (if ending = .quote then [quote] else [])

private theorem exists_literal {source : String} {t : Token} (h : t ∈ scan source)
    (hkind : t.kind = .text) :
    ∃ before quote body rest ending, Literal source t before quote body rest ending := by
  rcases isLexemeOf_of_mem_scanFrom h with hend | ⟨before, quote, cs, hsource, hpos, hfirst, htext⟩
  · rw [hkind] at hend
    cases hend
  rw [hkind] at hfirst
  have hquote := isQuote_of_kind_first hfirst
  rw [first_quote hquote] at htext
  obtain ⟨ending, hends⟩ := ends_quotedTail hquote cs
  have hchars : t.text.toList = quote :: (quotedTail quote cs).1 := by
    rw [htext, String.toList_ofList]
  refine ⟨before, quote, (quotedTail quote cs).1, (quotedTail quote cs).2, ending,
    ?_, ?_, hchars, hquote, hends, ?_⟩
  · rw [hsource, quotedTail_append]
  · rw [hpos, Position.afterText_start]
  · rw [hchars]
    exact eq_literalBody_of_ends hends

private theorem scan_quotedWith {quote : Char} (h : IsQuote quote) (s : String) :
    scan (quotedWith quote s) =
      [⟨.text, quotedWith quote s, .start⟩,
        ⟨.endOfText, "", .behind (quotedWith quote s).toList⟩] := by
  have hchars : (quotedWith quote s).toList = quote :: (protectAll quote s.toList ++ quote :: []) :=
    String.toList_ofList
  rw [scan, hchars, scanFrom]
  simp only [first_quote h, quotedTail_protectAll h]
  rw [scanFrom, Position.afterText_start]
  rfl

/--
Between either kind of quotes, every text can be written: its literal is one token, and that stands
for the text. And every literal in a text, closed or not, goes on up to the first unprotected quote,
the first unprotected line feed or the end of the text; just in the first case the character it ends
with is left out as the closing quote when it is read.
-/
theorem literals_are_read_as_cut :
    (∀ quote, IsQuote quote → ∀ s,
      scan (quotedWith quote s) =
        [⟨.text, quotedWith quote s, .start⟩,
          ⟨.endOfText, "", .behind (quotedWith quote s).toList⟩] ∧
      literalText (quotedWith quote s) = s) ∧
    (∀ source, ∀ t ∈ scan source, t.kind = .text →
      ∃ before quote body rest ending, Literal source t before quote body rest ending) := by
  refine ⟨fun quote h s => ?_, fun source t ht hkind => ?_⟩
  · exact ⟨scan_quotedWith h s, literalText_quotedWith h s⟩
  · exact exists_literal ht hkind

/-- A literal that ends at a line feed, behind a protected quote. -/
theorem protected_quote_is_read :
    let source := "\"a\\\"\nx"
    let t : Token := ⟨.text, "\"a\\\"", .start⟩
    t ∈ scan source ∧ t.kind = .text ∧ literalText t.text = "a\"" ∧ IsQuote '\'' ∧
      literalText (quotedWith '\'' "it's") = "it's" ∧
      ∃ before quote body rest ending, Literal source t before quote body rest ending := by
  intro source t
  have hmem : t ∈ scan source := by decide +kernel
  have hkind : t.kind = .text := rfl
  have hquote : IsQuote '\'' := Or.inr rfl
  refine ⟨hmem, hkind, by decide +kernel, hquote, ?_, ?_⟩
  · exact (literals_are_read_as_cut.1 '\'' hquote "it's").2
  · exact literals_are_read_as_cut.2 source t hmem hkind

end ControlLogic.Token
