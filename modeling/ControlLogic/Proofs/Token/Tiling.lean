import Mathlib.Data.List.Induction
import ControlLogic.Proofs.Token.Spelling

/-!
Tokens tile the text they are cut from. Between neighbours stand only characters that begin no
token, and the place of a token is that of its first character, counted from the whole text before
it.
-/

set_option autoImplicit false
set_option relaxedAutoImplicit false

namespace ControlLogic

namespace Position

/-- The place behind a text, counted: a line for each line feed, and a column for each character
since the last one. -/
def behind (before : List Char) : Position :=
  ⟨1 + before.count '\n', 1 + (before.reverse.takeWhile (· != '\n')).length⟩

private theorem behind_concat (before : List Char) (c : Char) :
    behind (before ++ [c]) = (behind before).after c := by
  by_cases h : c = '\n'
  · simp only [behind, after, h]
    simp
    omega
  · simp only [behind, after, if_neg h]
    simp [h]
    omega

theorem afterText_start (before : List Char) : start.afterText before = behind before := by
  induction before using List.reverseRecOn with
  | nil => rfl
  | append_singleton before c ih =>
    rw [afterText_append, ih, behind_concat]
    rfl

private theorem afterText_behind (before cs : List Char) :
    (behind before).afterText cs = behind (before ++ cs) := by
  rw [← afterText_start, ← afterText_start, afterText_append]

end Position

namespace Token

def opens (c : Char) : Bool :=
  c == '\n' || c == '#' || c == '"' || c == '\'' || c.isDigit || isWordStart c ||
    operatorMarks.contains c || punctuationMarks.contains c

def BeginsNone (c : Char) : Prop :=
  ∀ (text : String), ∀ t ∈ scan text, t.text.toList.head? ≠ some c

/-- A character between tokens: a blank other than a line feed, or one that begins no token. -/
def Skipped (c : Char) : Prop :=
  (Text.isBlank c = true ∧ c ≠ '\n') ∨ BeginsNone c

private theorem opens_eq_false_of_isBlank {c : Char} (h : Text.isBlank c = true) (hc : c ≠ '\n') :
    opens c = false := by
  have hmarks : (['#', '"', '\''] ++ operatorMarks ++ punctuationMarks).all
      (fun d => !Text.isBlank d) = true := by decide
  have hne : c ∉ ['#', '"', '\''] ++ operatorMarks ++ punctuationMarks := by
    intro hmem
    have hmark := List.all_eq_true.mp hmarks c hmem
    simp [h] at hmark
  have hcode : c.toNat ≤ 32 ∨ 128 ≤ c.toNat := by
    simp only [Text.isBlank, Bool.or_eq_true, Bool.and_eq_true, decide_eq_true_eq,
      beq_iff_eq] at h
    omega
  have hdigit : c.isDigit = false := by
    rw [← Bool.not_eq_true, Char.isDigit_iff_toNat]
    simp only [show '0'.toNat = 48 from rfl, show '9'.toNat = 57 from rfl]
    omega
  have hword : isWordStart c = false := by
    rw [← Bool.not_eq_true]
    intro hstart
    have hletter := toNat_of_isWordStart hstart
    omega
  simp only [List.mem_append, List.mem_cons, List.not_mem_nil, or_false, not_or] at hne
  simp [opens, hc, hdigit, hword, hne]

namespace Lexeme

private theorem mark_of_notMem {c : Char} (hoperator : operatorMarks.contains c = false)
    (hpunctuation : punctuationMarks.contains c = false) (cs : List Char) :
    mark c cs = ⟨none, [], cs⟩ := by
  have hpairs : ∀ pair ∈ pairOperators, operatorMarks.contains pair.1 = true := by decide
  unfold mark
  cases cs with
  | nil => simp only [hoperator, hpunctuation, Bool.false_eq_true, if_false]
  | cons d cs =>
    have hpair : pairOperators.contains (c, d) = false := by
      by_contra hmem
      have hfirst : operatorMarks.contains c = true := hpairs (c, d) (by simpa using hmem)
      rw [hoperator] at hfirst
      cases hfirst
    simp only [hpair, hoperator, hpunctuation, Bool.false_eq_true, if_false]

private theorem kind_mark (c : Char) (cs : List Char) :
    (mark c cs).kind = none ↔
      operatorMarks.contains c = false ∧ punctuationMarks.contains c = false := by
  constructor
  · intro h
    unfold mark at h
    cases cs <;> grind
  · rintro ⟨hoperator, hpunctuation⟩
    rw [mark_of_notMem hoperator hpunctuation]

private theorem kind_first (c : Char) (cs : List Char) :
    (first c cs).kind = none ↔ opens c = false := by
  have hmark := kind_mark c cs
  unfold first
  split
  next h => simp [opens, h]
  split
  next hnewline hblank => simp [opens_eq_false_of_isBlank hblank hnewline]
  split
  next h =>
    subst h
    have hopens : opens '/' = true := by decide
    cases h : comment? cs with
    | some x => simp [comment?_kind h, hopens]
    | none => simp [hmark, hopens, operatorMarks]
  split
  next h => simp [opens, h, run]
  split
  next h => rcases h with rfl | rfl <;> simp [opens]
  split
  next h => simp [opens, h, numeral_kind]
  split
  next h => simp [opens, h, word]
  next hnewline _ _ hdirective hquote hdigit hword =>
    obtain ⟨hdouble, hsingle⟩ := not_or.mp hquote
    simp [hmark, opens, hnewline, hdirective, hdouble, hsingle, hdigit, hword]

private theorem tail_first_of_kind {c : Char} {cs : List Char} (h : (first c cs).kind = none) :
    (first c cs).tail = [] := by
  have hopens := (kind_first c cs).mp h
  simp only [opens, Bool.or_eq_false_iff, beq_eq_false_iff_ne] at hopens
  obtain ⟨⟨⟨⟨⟨⟨⟨hnewline, hdirective⟩, hdouble⟩, hsingle⟩, hdigit⟩, hword⟩, hoperator⟩,
    hpunctuation⟩ := hopens
  have hslash : c ≠ '/' := by
    rintro rfl
    exact absurd hoperator (by decide)
  simp only [first, hnewline, hdirective, hdouble, hsingle, hdigit, hword, hslash, if_false,
    or_false, Bool.false_eq_true]
  split
  · rfl
  · rw [mark_of_notMem hoperator hpunctuation]

private theorem kind_first_ne_endOfText (c : Char) (cs : List Char) :
    (first c cs).kind ≠ some .endOfText := by
  rcases first_cases c cs with ⟨-, hfirst⟩ | ⟨-, hfirst⟩ | hkind
  · simp [hfirst, numeral_kind]
  · have hword := wordKind_notMem (String.ofList (c :: cs.takeWhile isWordPart))
    simp only [List.mem_cons, not_or] at hword
    simpa [hfirst, word] using hword.2.2.1
  · intro hend
    simp [hend] at hkind

end Lexeme

private theorem text_eq_empty_of_endOfText {p : Position} {input : List Char} {t : Token}
    (h : t ∈ scanFrom p input) (hend : t.kind = .endOfText) : t.text = "" := by
  fun_induction scanFrom p input with
  | case1 p =>
    rw [List.mem_singleton.mp h]
  | case2 p c cs lexeme tokens kind hkind ih =>
    rcases List.mem_cons.mp h with rfl | hmem
    · exact absurd (hend ▸ hkind) (Lexeme.kind_first_ne_endOfText c cs)
    · exact ih hmem
  | case3 p c cs lexeme tokens hkind ih => exact ih h

private theorem beginsNone_iff (c : Char) : BeginsNone c ↔ opens c = false := by
  constructor
  · intro h
    rw [← Lexeme.kind_first c []]
    by_contra hkind
    obtain ⟨kind, hkind⟩ := Option.ne_none_iff_exists'.mp hkind
    refine h (String.ofList [c]) ⟨kind, String.ofList (c :: (Lexeme.first c []).tail), .start⟩ ?_ ?_
    · rw [scan, String.toList_ofList, scanFrom]
      simp [hkind]
    · simp
  · intro h text t ht
    rcases isLexemeOf_of_mem_scanFrom ht with hend | ⟨-, c', cs, -, -, hkind, htext⟩
    · simp [text_eq_empty_of_endOfText ht hend]
    · rw [htext, String.toList_ofList, List.head?_cons]
      intro hsame
      obtain rfl := Option.some.inj hsame
      rw [(Lexeme.kind_first c' cs).mpr h] at hkind
      cases hkind

/-- A piece of a text: what is passed over, and the token behind it. -/
structure Tile where
  gap : List Char
  token : Token

def Tile.chars (tile : Tile) : List Char :=
  tile.gap ++ tile.token.text.toList

/--
Pieces that make up a text together with what is passed over at its end. `before` is the text before
it, so that the place of each token can be counted.
-/
structure Tiling (before text : List Char) (tiles : List Tile) (last : List Char) : Prop where
  whole : text = tiles.flatMap Tile.chars ++ last
  gaps : ∀ gap ∈ last :: tiles.map Tile.gap, ∀ c ∈ gap, Skipped c
  tokens : ∀ tile ∈ tiles, tile.token.kind ≠ .endOfText ∧ tile.token.text ≠ ""
  places : ∀ earlier tile later, tiles = earlier ++ tile :: later →
    tile.token.pos = .behind (before ++ earlier.flatMap Tile.chars ++ tile.gap)

namespace Tiling

theorem nil (before : List Char) {last : List Char} (h : ∀ c ∈ last, Skipped c) :
    Tiling before last [] last where
  whole := rfl
  gaps := by simpa using h
  tokens := by simp
  places := by simp

theorem cons {before rest last : List Char} {tiles : List Tile} {tile : Tile}
    (h : Tiling (before ++ tile.chars) rest tiles last) (hgap : ∀ c ∈ tile.gap, Skipped c)
    (htoken : tile.token.kind ≠ .endOfText ∧ tile.token.text ≠ "")
    (hpos : tile.token.pos = .behind (before ++ tile.gap)) :
    Tiling before (tile.chars ++ rest) (tile :: tiles) last where
  whole := by rw [List.flatMap_cons, List.append_assoc, ← h.whole]
  gaps := by
    have hgaps := h.gaps
    simp only [List.map_cons, List.forall_mem_cons] at hgaps ⊢
    exact ⟨hgaps.1, hgap, hgaps.2⟩
  tokens := List.forall_mem_cons.mpr ⟨htoken, h.tokens⟩
  places := by
    intro earlier tile' later hsplit
    cases earlier with
    | nil =>
      cases hsplit
      simpa using hpos
    | cons first earlier =>
      obtain ⟨rfl, hrest⟩ := List.cons.inj hsplit
      have hplace := h.places earlier tile' later hrest
      simpa using hplace

end Tiling

theorem scanFrom_tiling (before gap input : List Char) (hgap : ∀ c ∈ gap, Skipped c) :
    ∃ tiles last,
      scanFrom (.behind (before ++ gap)) input =
        tiles.map Tile.token ++ [⟨.endOfText, "", .behind (before ++ gap ++ input)⟩] ∧
      Tiling before (gap ++ input) tiles last := by
  generalize hp : Position.behind (before ++ gap) = p
  fun_induction scanFrom p input generalizing before gap with
  | case1 p =>
    refine ⟨[], gap, by simp [hp], ?_⟩
    simpa using Tiling.nil before hgap
  | case2 p c cs lexeme tokens kind hkind ih =>
    have hinput : c :: cs = c :: lexeme.tail ++ lexeme.rest := by
      rw [List.cons_append, Lexeme.first_append]
    let tile : Tile := ⟨gap, ⟨kind, String.ofList (c :: lexeme.tail), p⟩⟩
    have hchars : tile.chars = gap ++ c :: lexeme.tail := by simp [tile, Tile.chars]
    obtain ⟨tiles, last, hscan, htiling⟩ := ih (before ++ tile.chars) [] (by simp)
      (by rw [← hp, Position.afterText_behind, hchars]; simp)
    refine ⟨tile :: tiles, last, ?_, ?_⟩
    · simp only [tokens, hscan, hinput, hchars, List.map_cons, List.cons_append, List.append_assoc,
        List.append_nil]
      rfl
    · rw [hinput, ← List.append_assoc, ← hchars]
      have hkind' : kind ≠ .endOfText := by
        rintro rfl
        exact Lexeme.kind_first_ne_endOfText c cs hkind
      exact htiling.cons hgap ⟨hkind', by simp [tile]⟩ hp.symm
  | case3 p c cs lexeme tokens hkind ih =>
    have htail : lexeme.tail = [] := Lexeme.tail_first_of_kind hkind
    have hrest : lexeme.rest = cs := by
      rw [← Lexeme.first_append c cs]
      simp [lexeme, htail]
    have hskipped : Skipped c := .inr ((beginsNone_iff c).mpr ((Lexeme.kind_first c cs).mp hkind))
    have hgap' : ∀ d ∈ gap ++ [c], Skipped d := by
      simpa [or_imp, forall_and] using ⟨hgap, hskipped⟩
    obtain ⟨tiles, last, hscan, htiling⟩ := ih before (gap ++ [c]) hgap'
      (by rw [← hp, Position.afterText_behind, htail, List.append_assoc])
    refine ⟨tiles, last, ?_, ?_⟩
    · simp only [tokens, hscan, hrest, List.append_assoc, List.singleton_append]
    · simpa [hrest] using htiling

/--
Every text is its tokens with gaps around them. Between neighbours, before the first and behind the
last stand only blanks other than line feeds and characters that no token of any text begins with,
which are those of no class. Each token stands where the line feeds and characters before it count
to, and the last one is the end of the text.
-/
theorem tokens_tile_text (text : String) :
    (∃ tiles last,
      scan text = tiles.map Tile.token ++ [⟨.endOfText, "", .behind text.toList⟩] ∧
      Tiling [] text.toList tiles last) ∧
    ∀ c, BeginsNone c ↔ opens c = false := by
  refine ⟨?_, beginsNone_iff⟩
  simpa [scan, Position.start, Position.behind] using scanFrom_tiling [] [] text.toList (by simp)

end Token

end ControlLogic
