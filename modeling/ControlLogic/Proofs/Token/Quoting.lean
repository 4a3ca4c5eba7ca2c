import Mathlib.Data.List.Induction
import ControlLogic.Token.Literal
import ControlLogic.Token.Scan

/-!
Texts between quotes. A backslash protects the character behind it unless it is protected itself,
and a literal ends at the first quote that is not protected. Whether a character is protected is
told alike by going on from the left and by counting the backslashes before it.
-/

set_option autoImplicit false
set_option relaxedAutoImplicit false

namespace ControlLogic.Token

def IsQuote (quote : Char) : Prop :=
  quote = '"' ∨ quote = '\''

def protect (quote c : Char) : List Char :=
  if c = '\\' then ['\\', '\\']
  else if c = quote then ['\\', quote]
  else if c = '\n' then ['\\', 'n']
  else [c]

def protectAll (quote : Char) (cs : List Char) : List Char :=
  cs.flatMap (protect quote)

def quotedWith (quote : Char) (s : String) : String :=
  String.ofList (quote :: (protectAll quote s.toList ++ [quote]))

variable {quote : Char}

theorem IsQuote.ne_backslash (h : IsQuote quote) : quote ≠ '\\' := by
  rcases h with rfl | rfl <;> decide

theorem IsQuote.ne_newline (h : IsQuote quote) : quote ≠ '\n' := by
  rcases h with rfl | rfl <;> decide

private theorem protectAll_cons (quote c : Char) (cs : List Char) :
    protectAll quote (c :: cs) = protect quote c ++ protectAll quote cs :=
  rfl

/-! ### Where a literal ends -/

theorem quotedTail_cons {c : Char} (hc : c ≠ '\\') (rest : List Char) :
    quotedTail quote (c :: rest) =
      if c = '\n' then ([], c :: rest)
      else if c = quote then ([c], rest)
      else (c :: (quotedTail quote rest).1, (quotedTail quote rest).2) := by
  rw [quotedTail]
  · exact fun h _ => hc h
  · exact fun _ _ h _ => hc h

theorem quotedTail_pair (c : Char) (rest : List Char) :
    quotedTail quote ('\\' :: c :: rest) =
      ('\\' :: c :: (quotedTail quote rest).1, (quotedTail quote rest).2) := by
  rw [quotedTail]

/-- Whether the end of a text protects what comes next: from the left, each backslash does unless it
is protected by the one before it. -/
def endsProtecting (cs : List Char) : Bool :=
  cs.foldl (fun flag c => !flag && c == '\\') false

private theorem endsProtecting_concat (cs : List Char) (c : Char) :
    endsProtecting (cs ++ [c]) = (!endsProtecting cs && c == '\\') := by
  simp [endsProtecting]

theorem endsProtecting_cons {c : Char} (hc : c ≠ '\\') (cs : List Char) :
    endsProtecting (c :: cs) = endsProtecting cs := by
  simp only [endsProtecting, List.foldl_cons, beq_eq_false_iff_ne.mpr hc, Bool.and_false]

theorem endsProtecting_pair (c : Char) (cs : List Char) :
    endsProtecting ('\\' :: c :: cs) = endsProtecting cs := by
  simp [endsProtecting]

theorem endsUnprotected_eq (cs : List Char) : endsUnprotected cs = !endsProtecting cs := by
  induction cs using List.reverseRecOn with
  | nil => rfl
  | append_singleton cs c ih =>
    rw [endsProtecting_concat]
    by_cases hc : c = '\\'
    · subst hc
      have hparity : endsUnprotected (cs ++ ['\\']) = !endsUnprotected cs := by
        simp only [endsUnprotected, List.reverse_append, List.reverse_singleton,
          List.singleton_append, List.takeWhile_cons, beq_self_eq_true, if_true, List.length_cons]
        rcases Nat.mod_two_eq_zero_or_one (cs.reverse.takeWhile (· == '\\')).length with h | h
        · simp [Nat.add_mod, h]
        · simp [Nat.add_mod, h]
      rw [hparity, ih]
      simp
    · simp [endsUnprotected, hc]

/-- No character of a text ends a literal: those that are not protected are neither the quote nor a
line feed. -/
def GoesOn (quote : Char) (cs : List Char) : Prop :=
  ∀ before c after, cs = before ++ c :: after → endsProtecting before = false →
    c ≠ quote ∧ c ≠ '\n'

private theorem goesOn_nil : GoesOn quote [] := by
  intro before c after h
  simp at h

theorem GoesOn.cons {c : Char} {cs : List Char} (h : GoesOn quote cs) (hbackslash : c ≠ '\\')
    (hquote : c ≠ quote) (hline : c ≠ '\n') : GoesOn quote (c :: cs) := by
  intro before d after hsplit hfree
  rcases List.cons_eq_append_iff.mp hsplit with ⟨rfl, heq⟩ | ⟨before, rfl, heq⟩
  · obtain ⟨rfl, -⟩ := List.cons.inj heq
    exact ⟨hquote, hline⟩
  · rw [endsProtecting_cons hbackslash] at hfree
    exact h before d after heq hfree

private theorem goesOn_backslash (hquote : IsQuote quote) : GoesOn quote ['\\'] := by
  intro before c after hsplit hfree
  rcases List.cons_eq_append_iff.mp hsplit with ⟨rfl, heq⟩ | ⟨before, rfl, heq⟩
  · obtain ⟨rfl, -⟩ := List.cons.inj heq
    exact ⟨hquote.ne_backslash.symm, by decide⟩
  · simp at heq

theorem GoesOn.pair {cs : List Char} (h : GoesOn quote cs) (hquote : IsQuote quote) (c : Char) :
    GoesOn quote ('\\' :: c :: cs) := by
  intro before d after hsplit hfree
  rcases List.cons_eq_append_iff.mp hsplit with ⟨rfl, heq⟩ | ⟨before, rfl, heq⟩
  · obtain ⟨rfl, -⟩ := List.cons.inj heq
    exact ⟨hquote.ne_backslash.symm, by decide⟩
  rcases List.cons_eq_append_iff.mp heq with ⟨rfl, -⟩ | ⟨before, rfl, hrest⟩
  · exact absurd hfree (by decide)
  · rw [endsProtecting_pair] at hfree
    exact h before d after hrest hfree

/-- What ends a literal: a quote, a line feed behind it or the end of the text. -/
inductive Ending where
  | quote
  | line
  | text
  deriving DecidableEq, Repr

/-- The part of a literal behind its opening quote, and what follows it, by what ends the literal:
the first unprotected quote, which belongs to it, the first unprotected line feed, which does not,
or nothing but the end of the text. -/
inductive Ends (quote : Char) : List Char → List Char → Ending → Prop
  | quote {inner rest : List Char} (h : GoesOn quote inner)
      (hfree : endsProtecting inner = false) : Ends quote (inner ++ [quote]) rest .quote
  | line {body rest : List Char} (h : GoesOn quote body) (hfree : endsProtecting body = false) :
      Ends quote body ('\n' :: rest) .line
  | text {body : List Char} (h : GoesOn quote body) : Ends quote body [] .text

private theorem Ends.prepend {body rest : List Char} {ending : Ending}
    (h : Ends quote body rest ending)
    (unit : List Char) (hgoes : ∀ cs, GoesOn quote cs → GoesOn quote (unit ++ cs))
    (hfree : ∀ cs, endsProtecting (unit ++ cs) = endsProtecting cs) :
    Ends quote (unit ++ body) rest ending := by
  cases h with
  | @quote inner rest h hinner =>
    rw [← List.append_assoc]
    exact .quote (hgoes inner h) ((hfree inner).trans hinner)
  | line h hbody => exact .line (hgoes body h) ((hfree body).trans hbody)
  | text h => exact .text (hgoes body h)

theorem ends_quotedTail (hquote : IsQuote quote) (cs : List Char) :
    ∃ ending, Ends quote (quotedTail quote cs).1 (quotedTail quote cs).2 ending := by
  fun_induction quotedTail quote cs with
  | case1 => exact ⟨.text, .text goesOn_nil⟩
  | case2 => exact ⟨.text, .text (goesOn_backslash hquote)⟩
  | case3 c rest ih =>
    obtain ⟨ending, h⟩ := ih
    exact ⟨ending, h.prepend ['\\', c] (fun cs hcs => hcs.pair hquote c) (endsProtecting_pair c)⟩
  | case4 rest hlast hmore => exact ⟨.line, .line goesOn_nil rfl⟩
  | case5 rest hlast hmore hfeed => exact ⟨.quote, @Ends.quote quote [] rest goesOn_nil rfl⟩
  | case6 c rest hlast hmore hfeed hother ih =>
    obtain ⟨ending, h⟩ := ih
    have hbackslash : c ≠ '\\' := by
      rintro rfl
      cases rest with
      | nil => exact hlast rfl rfl
      | cons d more => exact hmore d more rfl rfl
    exact ⟨ending, h.prepend [c] (fun cs hcs => hcs.cons hbackslash hother hfeed)
      (endsProtecting_cons hbackslash)⟩

/-- Counting backslashes from the end, the last character of a literal is taken for its closing
quote just if it ends the literal. -/
theorem eq_literalBody_of_ends {body rest : List Char} {ending : Ending}
    (h : Ends quote body rest ending) :
    body = literalBody (quote :: body) ++ (if ending = .quote then [quote] else []) := by
  -- What goes on has no unprotected quote at its end.
  have hopen {body : List Char} (h : GoesOn quote body) : literalBody (quote :: body) = body := by
    rw [literalBody]
    refine if_neg ?_
    rintro ⟨hlast, hfree⟩
    rw [endsUnprotected_eq, Bool.not_eq_true'] at hfree
    obtain ⟨inner, rfl⟩ := List.getLast?_eq_some_iff.mp hlast
    rw [List.dropLast_concat] at hfree
    exact (h inner quote [] rfl hfree).1 rfl
  cases h with
  | @quote inner rest h hfree => simp [literalBody, endsUnprotected_eq, hfree]
  | line h hfree => simp [hopen h]
  | text h => simp [hopen h]

theorem first_quote (h : IsQuote quote) (cs : List Char) :
    Lexeme.first quote cs =
      ⟨some .text, (quotedTail quote cs).1, (quotedTail quote cs).2⟩ := by
  rcases h with rfl | rfl <;> rfl

/-! ### Writing and reading back -/

theorem quotedTail_protectAll (h : IsQuote quote) (cs rest : List Char) :
    quotedTail quote (protectAll quote cs ++ quote :: rest) =
      (protectAll quote cs ++ [quote], rest) := by
  induction cs with
  | nil =>
    have hclose : quotedTail quote (quote :: rest) = _ := quotedTail_cons h.ne_backslash rest
    rw [if_neg h.ne_newline, if_pos rfl] at hclose
    exact hclose
  | cons c cs ih =>
    rw [protectAll_cons, List.append_assoc, List.append_assoc]
    unfold protect
    split
    next => simp [quotedTail_pair, ih]
    next hbackslash =>
    split
    next => simp [quotedTail_pair, ih]
    next hquote =>
    split
    next => simp [quotedTail_pair, ih]
    next hline => simp [quotedTail_cons hbackslash, hquote, hline, ih]

theorem newline_notMem_protectAll (h : IsQuote quote) (cs : List Char) :
    '\n' ∉ protectAll quote cs := by
  rw [protectAll, List.mem_flatMap]
  rintro ⟨c, -, hmem⟩
  unfold protect at hmem
  split at hmem
  · simp at hmem
  split at hmem
  · simp [h.ne_newline.symm] at hmem
  split at hmem
  · simp at hmem
  · rename_i hline
    exact hline (List.mem_singleton.mp hmem).symm

private theorem decodeEscapes_backslash {c : Char} (hx : c ≠ 'x') (hX : c ≠ 'X') (cs : List Char) :
    decodeEscapes ('\\' :: c :: cs) = escapeChar c :: decodeEscapes cs := by
  rw [decodeEscapes.eq_def]
  exact if_neg (by simp [hx, hX])

private theorem decodeEscapes_protectAll (h : IsQuote quote) (cs : List Char) :
    decodeEscapes (protectAll quote cs) = cs := by
  have hquoted (cs : List Char) :
      decodeEscapes ('\\' :: quote :: cs) = quote :: decodeEscapes cs := by
    rcases h with rfl | rfl
    · exact decodeEscapes_backslash (by decide) (by decide) cs
    · exact decodeEscapes_backslash (by decide) (by decide) cs
  induction cs with
  | nil => rfl
  | cons c cs ih =>
    rw [protectAll_cons]
    unfold protect
    split
    next hc => simp [hc, decodeEscapes_backslash, escapeChar, ih]
    next hbackslash =>
    split
    next hc => simp [hc, hquoted, ih]
    next =>
    split
    next hc => simp [hc, decodeEscapes_backslash, escapeChar, ih]
    next => simp [hbackslash, decodeEscapes, ih]

private theorem endsProtecting_protectAll (quote : Char) (cs : List Char) :
    endsProtecting (protectAll quote cs) = false := by
  induction cs with
  | nil => rfl
  | cons c cs ih =>
    rw [protectAll_cons]
    unfold protect
    split
    next => exact (endsProtecting_pair _ _).trans ih
    next hbackslash =>
    split
    next => exact (endsProtecting_pair _ _).trans ih
    next =>
    split
    next => exact (endsProtecting_pair _ _).trans ih
    next => exact (endsProtecting_cons hbackslash _).trans ih

theorem literalText_quotedWith (h : IsQuote quote) (s : String) :
    literalText (quotedWith quote s) = s := by
  have hbody : literalBody (quote :: (protectAll quote s.toList ++ [quote])) =
      protectAll quote s.toList := by
    simp [literalBody, endsUnprotected_eq, endsProtecting_protectAll]
  rw [literalText, quotedWith, String.toList_ofList, hbody, decodeEscapes_protectAll h,
    String.ofList_toList]

end ControlLogic.Token
