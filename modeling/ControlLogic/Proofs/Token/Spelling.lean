import ControlLogic.Proofs.Text.Upper
import ControlLogic.Proofs.Token.Quoting

/-!
Texts written token by token. A spelling says what class a token has and how it is written; where
each spelling stands for itself and blanks separate them, cutting the text gives the tokens back.
-/

set_option autoImplicit false
set_option relaxedAutoImplicit false

namespace ControlLogic

/-- The class and the characters of a token, wherever it stands. -/
structure Spelling where
  kind : TokenKind
  text : String
  deriving DecidableEq, Repr

def Token.spelling (t : Token) : Spelling :=
  ⟨t.kind, t.text⟩

def Token.escapeOf (c : Char) : List Char :=
  if c = '\\' then ['\\', '\\']
  else if c = '"' then ['\\', '"']
  else if c = '\n' then ['\\', 'n']
  else [c]

def Token.escape (cs : List Char) : List Char :=
  cs.flatMap escapeOf

namespace Spelling

def finish : Spelling := ⟨.endOfText, ""⟩

def operator (text : String) : Spelling := ⟨.operator, text⟩

def punctuation (text : String) : Spelling := ⟨.punctuation, text⟩

def word (text : String) : Spelling := ⟨Token.wordKind text, text⟩

def keyword (text : String) : Spelling := ⟨.keyword, text⟩

def numeral (n : Nat) : Spelling := ⟨.number, String.ofList (Number.decimalDigits n)⟩

def quoted (s : String) : Spelling :=
  ⟨.text, String.ofList ('"' :: (Token.escape s.toList ++ ['"']))⟩

/-- Spellings as one text, a blank between neighbours. -/
def unwords (ws : List Spelling) : String :=
  " ".intercalate (ws.map text)

/-- What may stand behind a spelling: nothing, or a blank first. -/
def IsGap (rest : List Char) : Prop :=
  rest = [] ∨ ∃ behind, rest = ' ' :: behind

def Lasts (w : Spelling) : Prop :=
  ∃ c cs, w.text.toList = c :: cs ∧
    ∀ rest, IsGap rest → Token.Lexeme.first c (cs ++ rest) = ⟨some w.kind, cs, rest⟩

/-- A spelling is one lexeme before a gap, part of a program and on one line. -/
def Stands (w : Spelling) : Prop :=
  w.kind ∉ [.comment, .newline, .endOfText] ∧ '\n' ∉ w.text.toList ∧
    ∃ c cs, w.text.toList = c :: cs ∧
      ∀ rest, IsGap rest → Token.Lexeme.first c (cs ++ rest) = ⟨some w.kind, cs, rest⟩

theorem Stands.lasts {w : Spelling} (h : w.Stands) : w.Lasts :=
  h.2.2

end Spelling

open Spelling Token

/-! ### Cutting a text into spellings -/

theorem scanFrom_blank (p : Position) (cs : List Char) :
    scanFrom p (' ' :: cs) = scanFrom (p.after ' ') cs := by
  rw [scanFrom]
  rfl

private theorem scanFrom_lasts {w : Spelling} (h : w.Lasts) (p : Position) {rest : List Char}
    (hrest : IsGap rest) :
    scanFrom p (w.text.toList ++ rest) =
      ⟨w.kind, w.text, p⟩ :: scanFrom (p.afterText w.text.toList) rest := by
  obtain ⟨c, cs, htext, hfirst⟩ := h
  have hword : String.ofList (c :: cs) = w.text := by
    rw [← htext, String.ofList_toList]
  rw [htext, List.cons_append, scanFrom]
  simp only [hfirst rest hrest, hword]

theorem toList_unwords_cons (w v : Spelling) (ws : List Spelling) :
    (unwords (w :: v :: ws)).toList = w.text.toList ++ ' ' :: (unwords (v :: ws)).toList := by
  rw [unwords, List.map_cons, List.map_cons, String.intercalate_cons_cons]
  simp [unwords]

theorem newline_notMem_unwords {ws : List Spelling} (h : ∀ w ∈ ws, w.Stands) :
    '\n' ∉ (unwords ws).toList := by
  induction ws with
  | nil => simp [unwords]
  | cons w ws ih =>
    have hw := (h w List.mem_cons_self).2.1
    have hws := ih fun u hu => h u (List.mem_cons_of_mem _ hu)
    cases ws with
    | nil => simpa [unwords] using hw
    | cons v ws =>
      rw [toList_unwords_cons, List.mem_append, List.mem_cons]
      rintro (hmem | hmem | hmem)
      · exact hw hmem
      · exact absurd hmem (by decide)
      · exact hws hmem

/-- A text written from spellings is cut into tokens of these spellings, and then what follows
behind a gap is cut. -/
theorem map_spelling_scanFrom {ws : List Spelling} (h : ∀ w ∈ ws, w.Lasts) (p : Position)
    {rest : List Char} (hrest : IsGap rest) :
    ∃ p', (scanFrom p ((unwords ws).toList ++ rest)).map Token.spelling =
      ws ++ (scanFrom p' rest).map Token.spelling := by
  induction ws generalizing p with
  | nil => exact ⟨p, by simp [unwords]⟩
  | cons w ws ih =>
    have hw : w.Lasts := h w List.mem_cons_self
    cases ws with
    | nil =>
      have hsingle : (unwords [w]).toList = w.text.toList := by simp [unwords]
      rw [hsingle, scanFrom_lasts hw p hrest]
      exact ⟨_, rfl⟩
    | cons v ws =>
      obtain ⟨p', hws⟩ := ih (fun u hu => h u (List.mem_cons_of_mem _ hu))
        ((p.afterText w.text.toList).after ' ')
      refine ⟨p', ?_⟩
      rw [toList_unwords_cons, List.append_assoc, List.cons_append,
        scanFrom_lasts hw p (Or.inr ⟨_, rfl⟩), scanFrom_blank, List.map_cons, hws]
      rfl

theorem map_spelling_scan {ws : List Spelling} (h : ∀ w ∈ ws, w.Stands) :
    (scan (unwords ws)).map Token.spelling = ws ++ [finish] := by
  have hend : IsGap [] := Or.inl rfl
  obtain ⟨p, hscan⟩ := map_spelling_scanFrom (fun w hw => (h w hw).lasts) .start hend
  rw [List.append_nil] at hscan
  rw [scan, hscan, scanFrom]
  rfl

/-! ### Marks -/

def operatorTexts : List String :=
  ["||", "&&", "|", "^", "&", "=", "==", "!=", "<>", "<", ">", "<=", ">=", "<<", ">>", "+", "-",
    "*", "/", "%", "!", "~"]

def punctuationTexts : List String :=
  ["(", ")", "[", "]", "\x7b", "\x7d", ",", ";", ".", ":"]

theorem operator_stands {text : String} (h : text ∈ operatorTexts) :
    (operator text).Stands := by
  simp only [operatorTexts, List.mem_cons, List.not_mem_nil, or_false] at h
  rcases h with rfl | rfl | rfl | rfl | rfl | rfl | rfl | rfl | rfl | rfl | rfl | rfl | rfl | rfl |
    rfl | rfl | rfl | rfl | rfl | rfl | rfl | rfl <;>
  · refine ⟨by decide, by decide, _, _, rfl, ?_⟩
    rintro rest (rfl | ⟨behind, rfl⟩) <;> rfl

theorem punctuation_stands {text : String} (h : text ∈ punctuationTexts) :
    (punctuation text).Stands := by
  simp only [punctuationTexts, List.mem_cons, List.not_mem_nil, or_false] at h
  rcases h with rfl | rfl | rfl | rfl | rfl | rfl | rfl | rfl | rfl | rfl <;>
  · refine ⟨by decide, by decide, _, _, rfl, ?_⟩
    rintro rest (rfl | ⟨behind, rfl⟩) <;> rfl

/-! ### Words -/

theorem takeWhile_append_gap {p : Char → Bool} {cs rest : List Char} (hcs : ∀ c ∈ cs, p c = true)
    (hp : p ' ' = false) (h : IsGap rest) :
    (cs ++ rest).takeWhile p = cs ∧ (cs ++ rest).dropWhile p = rest := by
  rw [List.takeWhile_append_of_pos hcs, List.dropWhile_append_of_pos hcs]
  rcases h with rfl | ⟨behind, rfl⟩
  · simp
  · simp [hp]

theorem toNat_of_isWordStart {c : Char} (h : isWordStart c = true) :
    (65 ≤ c.toNat ∧ c.toNat ≤ 90) ∨ (97 ≤ c.toNat ∧ c.toNat ≤ 122) ∨ c.toNat = 95 := by
  rw [isWordStart, Bool.or_eq_true, beq_iff_eq] at h
  rcases h with hletter | rfl
  · exact (Text.toNat_of_isAlpha hletter).imp_right .inl
  · exact Or.inr (Or.inr rfl)

theorem ne_of_toNat_ne {c d : Char} (h : c.toNat ≠ d.toNat) : c ≠ d :=
  fun heq => h (congrArg Char.toNat heq)

private theorem first_of_plain {c : Char} (hlow : 48 ≤ c.toNat) (hhigh : c.toNat ≤ 122)
    (cs : List Char) :
    Lexeme.first c cs =
      if c.isDigit then Lexeme.numeral c cs
      else if isWordStart c then Lexeme.word c cs
      else Lexeme.mark c cs := by
  have hmarks : ∀ d ∈ ['\n', '/', '#', '"', '\''], c ≠ d := by
    intro d hd
    apply ne_of_toNat_ne
    simp only [List.mem_cons, List.not_mem_nil, or_false] at hd
    rcases hd with rfl | rfl | rfl | rfl | rfl <;> simp <;> omega
  have hblank : Text.isBlank c = false := by
    simp only [Text.isBlank, Bool.or_eq_false_iff, Bool.and_eq_false_imp, decide_eq_true_eq,
      decide_eq_false_iff_not, beq_eq_false_iff_ne]
    omega
  simp only [List.forall_mem_cons] at hmarks
  simp [Lexeme.first, hmarks, hblank]

theorem first_eq_word {c : Char} (h : isWordStart c = true) (cs : List Char) :
    Lexeme.first c cs = Lexeme.word c cs := by
  have hcode := toNat_of_isWordStart h
  have hdigit : ¬ c.isDigit = true := by
    rw [Char.isDigit_iff_toNat]
    simp only [show '0'.toNat = 48 from rfl, show '9'.toNat = 57 from rfl]
    omega
  rw [first_of_plain (by omega) (by omega), if_neg hdigit, if_pos h]

def IsWord (text : String) : Prop :=
  ∃ c cs, text.toList = c :: cs ∧ isWordStart c = true ∧ ∀ d ∈ cs, isWordPart d = true

theorem isWord_of_toList {text : String} {c : Char} {cs : List Char} (h : text.toList = c :: cs)
    (hc : isWordStart c = true) (hcs : cs.all isWordPart = true) : IsWord text :=
  ⟨c, cs, h, hc, List.all_eq_true.mp hcs⟩

theorem wordKind_notMem (text : String) :
    wordKind text ∉ [TokenKind.comment, .newline, .endOfText] := by
  unfold wordKind
  repeat' split
  all_goals decide

theorem word_stands {text : String} (h : IsWord text) : (word text).Stands := by
  obtain ⟨c, cs, htext, hc, hcs⟩ := h
  refine ⟨wordKind_notMem text, ?_, c, cs, htext, fun rest hrest => ?_⟩
  · change '\n' ∉ text.toList
    rw [htext, List.mem_cons, not_or]
    refine ⟨?_, fun hmem => absurd (hcs _ hmem) (by decide)⟩
    rintro rfl
    exact absurd hc (by decide)
  obtain ⟨htake, hdrop⟩ := takeWhile_append_gap hcs (by decide) hrest
  rw [first_eq_word hc, Lexeme.word, htake, hdrop, ← htext, String.ofList_toList]
  rfl

theorem keyword_stands {text : String} (h : IsWord text) (hmem : text ∈ Vocabulary.control) :
    (keyword text).Stands := by
  have hcontrol : Vocabulary.isControl text = true :=
    List.any_eq_true.mpr ⟨text, hmem, Text.sameWord_refl text⟩
  have hword : keyword text = word text := by
    rw [keyword, word, wordKind, if_pos hcontrol]
  rw [hword]
  exact word_stands h

/-! ### Numerals -/

theorem decimalDigits_cons (n : Nat) :
    ∃ c cs, Number.decimalDigits n = c :: cs ∧ ∀ d ∈ c :: cs, d.isDigit = true := by
  have hdigits : ∀ d ∈ Nat.toDigits 10 n, d.isDigit = true := by
    intro d hd
    exact Nat.isDigit_of_mem_toDigits (by decide) (by decide) hd
  cases h : Nat.toDigits 10 n with
  | nil => exact absurd h Nat.toDigits_ne_nil
  | cons c cs => exact ⟨c, cs, h, h ▸ hdigits⟩

theorem first_eq_numeral {c : Char} (h : c.isDigit = true) (cs : List Char) :
    Lexeme.first c cs = Lexeme.numeral c cs := by
  have hcode := Char.isDigit_iff_toNat.mp h
  simp only [show '0'.toNat = 48 from rfl, show '9'.toNat = 57 from rfl] at hcode
  rw [first_of_plain (by omega) (by omega), if_pos h]

theorem numeral_eq_run {c : Char} {cs : List Char} (h : ∀ d ∈ cs.head?, d ≠ 'x' ∧ d ≠ 'X') :
    Lexeme.numeral c cs = Lexeme.run .number Char.isDigit cs := by
  cases cs with
  | nil => rfl
  | cons d cs =>
    have hd : d ≠ 'x' ∧ d ≠ 'X' := h d rfl
    simp [Lexeme.numeral, hd.1, hd.2]

theorem head?_append_gap {ds rest : List Char} (hds : ∀ d ∈ ds, d.isDigit = true)
    (hrest : IsGap rest) : ∀ d ∈ (ds ++ rest).head?, d ≠ 'x' ∧ d ≠ 'X' := by
  intro d hd
  have hcases : d = ' ' ∨ d.isDigit = true := by
    cases ds with
    | nil =>
      rcases hrest with rfl | ⟨behind, rfl⟩
      · simp at hd
      · exact .inl (by simpa using hd.symm)
    | cons e ds =>
      obtain rfl : e = d := by simpa using hd
      exact .inr (hds e List.mem_cons_self)
  constructor
  · rintro rfl
    exact absurd hcases (by decide)
  · rintro rfl
    exact absurd hcases (by decide)

theorem numeral_stands (n : Nat) : (numeral n).Stands := by
  obtain ⟨c, cs, hdigits, hall⟩ := decimalDigits_cons n
  refine ⟨by simp [numeral], ?_, c, cs, by simp [numeral, hdigits], fun rest hrest => ?_⟩
  · rw [numeral, String.toList_ofList, hdigits]
    exact fun hmem => absurd (hall _ hmem) (by decide)
  have hcs : ∀ d ∈ cs, d.isDigit = true := fun d hd => hall d (List.mem_cons_of_mem _ hd)
  obtain ⟨htake, hdrop⟩ := takeWhile_append_gap hcs (by decide) hrest
  rw [first_eq_numeral (hall c List.mem_cons_self), numeral_eq_run (head?_append_gap hcs hrest),
    Lexeme.run, htake, hdrop]
  rfl

private theorem hexDigit?_digitChar {d : Nat} (h : d < 10) :
    Text.hexDigit? d.digitChar = some d := by
  have hall : ∀ d < 10, Text.hexDigit? (Nat.digitChar d) = some d := by decide
  exact hall d h

private theorem digits?_append_digit (cs : List Char) {d : Nat} (h : d < 10) :
    Number.digits? 10 (cs ++ [d.digitChar]) = (Number.digits? 10 cs).map (10 * · + d) := by
  have hdigit : Number.digit? 10 d.digitChar = some d := by
    simp [Number.digit?, hexDigit?_digitChar h, Option.filter, h]
  rw [Number.digits?, List.foldl_append]
  change _ = (cs.foldl _ (some 0)).map _
  generalize cs.foldl (fun acc c => do return 10 * (← acc) + (← Number.digit? 10 c)) (some 0) = acc
  cases acc with
  | none => rfl
  | some m => simp [hdigit]

theorem digits?_decimalDigits (n : Nat) :
    Number.digits? 10 (Number.decimalDigits n) = some n := by
  induction n using Nat.strongRecOn with
  | ind n ih =>
    have hdigit : n % 10 < 10 := Nat.mod_lt _ (by decide)
    by_cases hn : n < 10
    · have hmod : n % 10 = n := Nat.mod_eq_of_lt hn
      have happend := digits?_append_digit [] hdigit
      rw [Number.decimalDigits, Nat.toDigits_of_lt_base hn]
      simpa [hmod, Number.digits?] using happend
    · have hsplit : Nat.toDigits 10 n = Nat.toDigits 10 (n / 10) ++ [(n % 10).digitChar] := by
        have happend := Nat.toDigits_append_toDigits (b := 10) (n := n / 10) (by decide)
          (by omega) hdigit
        rw [Nat.toDigits_of_lt_base hdigit] at happend
        rw [happend]
        congr 1
        omega
      have hquotient := ih (n / 10) (by omega)
      rw [Number.decimalDigits] at hquotient ⊢
      rw [hsplit, digits?_append_digit _ hdigit, hquotient, Option.map_some]
      congr 1
      omega

theorem literalNumber?_numeral {n : Nat} (h : Number.InWord n) :
    literalNumber? (numeral n).text = some (n : Int) := by
  obtain ⟨c, cs, hdigits, hall⟩ := decimalDigits_cons n
  have hvalue : Number.word? 10 (c :: cs) = some (n : Int) := by
    have hc : c.isDigit = true := hall c List.mem_cons_self
    have hplus : c ≠ '+' := by
      rintro rfl
      exact absurd hc (by decide)
    have hminus : c ≠ '-' := by
      rintro rfl
      exact absurd hc (by decide)
    have hread : Number.integer? 10 (c :: cs) = some (n : Int) := by
      have hnatural : Number.natural? 10 (c :: cs) = some n := by
        rw [← hdigits]
        rw [← digits?_decimalDigits n]
        simp [hdigits, Number.natural?]
      simp [Number.integer?, hplus, hminus, hnatural]
    simp [Number.word?, hread, Option.filter, h]
  have hx : ∀ digits, c :: cs ≠ '0' :: 'x' :: digits := by
    rintro digits ⟨rfl, rfl⟩
    exact absurd (hall 'x' (by simp)) (by decide)
  have hX : ∀ digits, c :: cs ≠ '0' :: 'X' :: digits := by
    rintro digits ⟨rfl, rfl⟩
    exact absurd (hall 'X' (by simp)) (by decide)
  rw [literalNumber?, numeral, String.toList_ofList, hdigits]
  split
  · rename_i digits heq
    exact absurd heq (hx digits)
  · rename_i digits heq
    exact absurd heq (hX digits)
  · exact hvalue

/-! ### Texts -/

private theorem escape_eq (cs : List Char) : escape cs = protectAll '"' cs :=
  rfl

theorem quoted_stands (s : String) : (quoted s).Stands := by
  have hquote : IsQuote '"' := Or.inl rfl
  have hline : '\n' ∉ (quoted s).text.toList := by
    simp [quoted, escape_eq, newline_notMem_protectAll hquote]
  refine ⟨by simp [quoted], hline, '"', escape s.toList ++ ['"'], by simp [quoted],
    fun rest _ => ?_⟩
  rw [first_quote hquote, List.append_assoc, List.singleton_append, escape_eq,
    quotedTail_protectAll hquote]
  rfl

theorem literalText_quoted (s : String) : literalText (quoted s).text = s :=
  literalText_quotedWith (Or.inl rfl) s

/-! ### Where tokens come from -/

theorem mark_kind (c : Char) (cs : List Char) :
    (Lexeme.mark c cs).kind ∈ [none, some .operator, some .punctuation] := by
  unfold Lexeme.mark
  cases cs with
  | nil => grind
  | cons d cs => grind

theorem comment?_kind {cs : List Char} {x : Lexeme} (h : Lexeme.comment? cs = some x) :
    x.kind = some .comment := by
  unfold Lexeme.comment? at h
  split at h
  · cases h
    rfl
  · cases h
    rfl
  · cases h

theorem numeral_kind (c : Char) (cs : List Char) : (Lexeme.numeral c cs).kind = some .number := by
  unfold Lexeme.numeral
  split
  · split <;> rfl
  · rfl

theorem first_cases (c : Char) (cs : List Char) :
    (c.isDigit = true ∧ Lexeme.first c cs = Lexeme.numeral c cs) ∨
      (isWordStart c = true ∧ Lexeme.first c cs = Lexeme.word c cs) ∨
      (Lexeme.first c cs).kind ∈ [none, some .newline, some .comment, some .directive, some .text,
        some .operator, some .punctuation] := by
  have hmark : (Lexeme.mark c cs).kind ∈ [none, some .newline, some .comment, some .directive,
      some .text, some .operator, some .punctuation] := by
    have hkind := mark_kind c cs
    simp only [List.mem_cons, List.not_mem_nil, or_false] at hkind ⊢
    rcases hkind with hkind | hkind | hkind <;> simp [hkind]
  unfold Lexeme.first
  split
  · simp
  split
  · simp
  split
  · right
    right
    cases h : Lexeme.comment? cs with
    | none => exact hmark
    | some x => simp [comment?_kind h]
  split
  · simp [Lexeme.run]
  split
  · simp
  split
  · rename_i hdigit
    exact Or.inl ⟨hdigit, rfl⟩
  split
  · rename_i hstart
    exact Or.inr (Or.inl ⟨hstart, rfl⟩)
  · exact Or.inr (Or.inr hmark)

/-- A token is the lexeme behind some part of a text that starts at a place. -/
def IsLexemeOf (p : Position) (input : List Char) (t : Token) : Prop :=
  ∃ before c cs, input = before ++ c :: cs ∧ t.pos = p.afterText before ∧
    (Lexeme.first c cs).kind = some t.kind ∧ t.text = String.ofList (c :: (Lexeme.first c cs).tail)

theorem IsLexemeOf.behind {p : Position} {c : Char} {cs : List Char} {t : Token}
    (h : IsLexemeOf (p.afterText (c :: (Lexeme.first c cs).tail)) (Lexeme.first c cs).rest t) :
    IsLexemeOf p (c :: cs) t := by
  obtain ⟨before, d, ds, hrest, hpos, hlexeme⟩ := h
  refine ⟨c :: (Lexeme.first c cs).tail ++ before, d, ds, ?_, ?_, hlexeme⟩
  · rw [List.append_assoc, ← hrest, List.cons_append, Lexeme.first_append]
  · rw [hpos, Position.afterText_append]

theorem isLexemeOf_of_mem_scanFrom {p : Position} {input : List Char} {t : Token}
    (h : t ∈ scanFrom p input) : t.kind = .endOfText ∨ IsLexemeOf p input t := by
  fun_induction scanFrom p input with
  | case1 p =>
    obtain rfl := List.mem_singleton.mp h
    exact Or.inl rfl
  | case2 p c cs lexeme tokens kind hkind ih =>
    rcases List.mem_cons.mp h with rfl | h
    · exact Or.inr ⟨[], c, cs, rfl, rfl, hkind, rfl⟩
    · exact (ih h).imp_right IsLexemeOf.behind
  | case3 p c cs lexeme tokens hkind ih => exact (ih h).imp_right IsLexemeOf.behind

theorem isWord_of_kind {text : String} {t : Token} (h : t ∈ scan text)
    (hkinds : t.kind = .identifier ∨ t.kind = .routine ∨ t.kind = .variableType) :
    IsWord t.text ∧ t.kind = wordKind t.text := by
  rcases isLexemeOf_of_mem_scanFrom h with hend | ⟨-, c, cs, -, -, hkind, htext⟩
  · simp [hend] at hkinds
  rcases first_cases c cs with ⟨-, hfirst⟩ | ⟨hstart, hfirst⟩ | hother
  · rw [hfirst, numeral_kind] at hkind
    rcases hkinds with heq | heq | heq <;> simp [heq] at hkind
  · rw [hfirst] at hkind htext
    refine ⟨⟨c, cs.takeWhile isWordPart, by rw [htext]; simp [Lexeme.word], hstart, ?_⟩, ?_⟩
    · exact fun d hd => List.all_eq_true.mp List.all_takeWhile d hd
    · rw [htext]
      exact (Option.some.inj hkind).symm
  · rw [hkind] at hother
    rcases hkinds with heq | heq | heq <;> simp [heq] at hother

theorem isWord_of_mem_scan {text : String} {t : Token} (h : t ∈ scan text)
    (hname : t.isName = true) : IsWord t.text ∧ t.kind = wordKind t.text := by
  have hkinds : t.kind = .identifier ∨ t.kind = .routine := by simpa [Token.isName] using hname
  exact isWord_of_kind h (hkinds.imp_right .inl)

private theorem nonneg_of_word? {radix : Nat} {cs : List Char} {n : Int}
    (hminus : cs.head? ≠ some '-')
    (h : Number.word? radix cs = some n) : 0 ≤ n := by
  have hread : Number.integer? radix cs = some n := (Option.eq_some_of_filter_eq_some h)
  unfold Number.integer? at hread
  split at hread
  · obtain ⟨m, -, rfl⟩ := Option.map_eq_some_iff.mp hread
    exact Int.natCast_nonneg m
  · simp at hminus
  · obtain ⟨m, -, rfl⟩ := Option.map_eq_some_iff.mp hread
    exact Int.natCast_nonneg m

private theorem minus_notMem_numeral {c : Char} (hc : c.isDigit = true) (cs : List Char) :
    '-' ∉ c :: (Lexeme.numeral c cs).tail := by
  have htake : ∀ (p : Char → Bool) (ds : List Char), p '-' = false → '-' ∉ ds.takeWhile p := by
    intro p ds hp hmem
    have htrue : p '-' = true := List.all_eq_true.mp List.all_takeWhile _ hmem
    simp [hp] at htrue
  rw [List.mem_cons, not_or]
  constructor
  · rintro rfl
    exact absurd hc (by decide)
  · unfold Lexeme.numeral
    split
    · rename_i x rest
      split
      · rename_i hx
        rw [List.mem_cons, not_or]
        refine ⟨?_, htake _ _ (by decide)⟩
        rintro rfl
        exact absurd hx.2 (by decide)
      · exact htake _ _ (by decide)
    · simp

theorem nonneg_of_mem_scan {text : String} {t : Token} {n : Int} (h : t ∈ scan text)
    (hkind : t.kind = .number) (hn : literalNumber? t.text = some n) : 0 ≤ n := by
  have hminus : '-' ∉ t.text.toList := by
    rcases isLexemeOf_of_mem_scanFrom h with hend | ⟨-, c, cs, -, -, hlexeme, htext⟩
    · simp [hend] at hkind
    rw [hkind] at hlexeme
    rcases first_cases c cs with ⟨hdigit, hfirst⟩ | ⟨-, hfirst⟩ | hother
    · rw [htext, hfirst, String.toList_ofList]
      exact minus_notMem_numeral hdigit cs
    · have hword : wordKind (String.ofList (c :: cs.takeWhile isWordPart)) = .number := by
        rw [hfirst] at hlexeme
        exact Option.some.inj hlexeme
      unfold wordKind at hword
      repeat' split at hword
      all_goals cases hword
    · simp [hlexeme] at hother
  have hhead : ∀ digits, (∃ front, t.text.toList = front ++ digits) → digits.head? ≠ some '-' := by
    rintro digits ⟨front, heq⟩ hdigits
    exact hminus (heq ▸ List.mem_append_right _ (List.mem_of_mem_head? hdigits))
  rw [literalNumber?] at hn
  split at hn
  · rename_i digits heq
    exact nonneg_of_word? (hhead digits ⟨['0', 'x'], heq⟩) hn
  · rename_i digits heq
    exact nonneg_of_word? (hhead digits ⟨['0', 'X'], heq⟩) hn
  · exact nonneg_of_word? (hhead _ ⟨[], rfl⟩) hn

end ControlLogic
