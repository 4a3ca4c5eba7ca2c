import ControlLogic.Program.Parser.Expr
import ControlLogic.Proofs.Program.Reading

/-!
Expressions as they are written: with parentheses only where the levels of the operators ask for
them, a blank between neighbouring tokens, and each operator in one of its spellings.
-/

set_option autoImplicit false
set_option relaxedAutoImplicit false

namespace ControlLogic

open Spelling

/-! ### Operators -/

def BinaryOp.spellings (op : BinaryOp) : List Spelling :=
  (Parser.levels.flatten.filter (·.2 == op)).map fun entry =>
    if entry.1 = "MOD" then keyword entry.1 else operator entry.1

def BinaryOp.level (op : BinaryOp) : Nat :=
  Parser.levels.findIdx (·.any (·.2 == op))

def UnaryOp.spellings : UnaryOp → List Spelling
  | .neg => [operator "-"]
  | .not => [operator "!", keyword "NOT"]
  | .bitNot => [operator "~"]

/-- A choice among the spellings of each operator. The indices of a grid element are joined by no
operator of their own. -/
structure Style where
  binary : BinaryOp → Spelling
  unary : UnaryOp → Spelling
  binary_mem : ∀ op, op ≠ .pair → binary op ∈ op.spellings
  unary_mem : ∀ op, unary op ∈ op.spellings

/-- Each operator in the last of its spellings: the doubled equality sign, the angle brackets for
inequality, and words where there are words. -/
def Style.last : Style where
  binary op := op.spellings.getLastD finish
  unary op := op.spellings.getLastD finish
  binary_mem op := by cases op <;> decide +kernel
  unary_mem op := by cases op <;> decide +kernel

namespace Expr

/-- The level of an expression: that of its outermost operator, or behind all levels if it has no
operator between two operands outside parentheses and brackets. -/
def level : Expr → Nat
  | binary op _ _ => op.level
  | _ => Parser.levels.length

def enclose (needed : Bool) (ws : List Spelling) : List Spelling :=
  if needed then punctuation "(" :: (ws ++ [punctuation ")"]) else ws

mutual

/-- The tokens of an expression. A left operand is put in parentheses if its level is looser, a
right operand if it is looser or the same, and the operand of an operator before it if it has a
level. -/
def words (style : Style) : Expr → List Spelling
  | number n => if n < 0 then [operator "-", numeral n.natAbs] else [numeral n.natAbs]
  | text s => [quoted s]
  | name id => [word id]
  | binary op left right =>
    enclose (left.level < op.level) (left.words style) ++
      style.binary op :: enclose (right.level < op.level + 1) (right.words style)
  | unary op operand =>
    style.unary op :: enclose (operand.level < Parser.levels.length) (operand.words style)
  | call f args =>
    word f :: punctuation "(" :: (argumentWords style args ++ [punctuation ")"])
  | element id (binary .pair row column) =>
    word id :: punctuation "[" :: (row.words style ++
      punctuation "]" :: punctuation "[" :: (column.words style ++ [punctuation "]"]))
  | element id index =>
    word id :: punctuation "[" :: (index.words style ++ [punctuation "]"])
  | field object part none => [word object, punctuation ".", word part]
  | field object part (some index) =>
    word object :: punctuation "." :: word part :: punctuation "[" ::
      (index.words style ++ [punctuation "]"])

def argumentWords (style : Style) : List Expr → List Spelling
  | [] => []
  | [e] => e.words style
  | e :: es => e.words style ++ punctuation "," :: argumentWords style es

end

/-- An expression as it is written, a blank between neighbouring tokens. -/
def print (style : Style) (e : Expr) : String :=
  unwords (e.words style)

def IsName (text : String) : Prop :=
  ∃ kind, (kind = .identifier ∨ kind = .routine) ∧
    (Token.scan text).map Token.spelling = [⟨kind, text⟩, finish]

/-- Expressions that can be written: numbers are numerals or their negatives, names are single
tokens, two indices stand only directly in an element, and the negative of a numeral is a number
itself. -/
inductive Canonical : Expr → Prop
  | number {n : Int} (low : -9223372036854775807 ≤ n) (high : n ≤ 9223372036854775807) :
      Canonical (number n)
  | text (s : String) : Canonical (text s)
  | name {id : String} (named : IsName id) : Canonical (name id)
  | binary {op : BinaryOp} {left right : Expr} (single : op ≠ .pair) (hleft : Canonical left)
      (hright : Canonical right) : Canonical (binary op left right)
  | unary {op : UnaryOp} {operand : Expr} (unfolded : op = .neg → ∀ n, operand ≠ number n)
      (hoperand : Canonical operand) : Canonical (unary op operand)
  | call {f : String} {args : List Expr} (named : IsName f)
      (hargs : ∀ e ∈ args, Canonical e) : Canonical (call f args)
  | element {id : String} {index : Expr} (named : IsName id) (hindex : Canonical index) :
      Canonical (element id index)
  | grid {id : String} {row column : Expr} (named : IsName id) (hrow : Canonical row)
      (hcolumn : Canonical column) : Canonical (element id (binary .pair row column))
  | field {object part : String} {index : Option Expr} (named : IsName object)
      (partNamed : IsName part) (hindex : ∀ e ∈ index, Canonical e) :
      Canonical (field object part index)

theorem isName_iff {text : String} :
    IsName text ↔ IsWord text ∧ (word text).token.isName = true := by
  constructor
  · rintro ⟨kind, hkind, hscan⟩
    obtain ⟨t, rest, htokens, ht, -⟩ := List.map_eq_cons_iff.mp hscan
    have hmem : t ∈ Token.scan text := htokens ▸ List.mem_cons_self
    have hname : t.isName = true := by
      rcases hkind with rfl | rfl <;> simp [Token.isName, show t.kind = _ from congrArg kind ht]
    obtain ⟨hword, hclass⟩ := isWord_of_mem_scan hmem hname
    have htext : t.text = text := congrArg Spelling.text ht
    rw [htext] at hword hclass
    refine ⟨hword, ?_⟩
    rw [Token.isName, hclass] at hname
    exact hname
  · rintro ⟨hword, hname⟩
    refine ⟨(word text).kind, by simpa [Token.isName, Spelling.token] using hname, ?_⟩
    have hscan : (Token.scan (unwords [word text])).map Token.spelling = [word text] ++ [finish] :=
      map_spelling_scan (by simpa using word_stands hword)
    have hsingle : unwords [word text] = text := by simp [unwords, word]
    rwa [hsingle] at hscan

private theorem utf8ByteSize_le_of_length {s : String} (h : s.length = 1) : s.utf8ByteSize ≤ 4 := by
  rw [← String.length_toList, List.length_eq_one_iff] at h
  obtain ⟨c, hc⟩ := h
  have hs : s = String.singleton c := by
    rw [← String.ofList_toList (s := s), hc]
    simp
  rw [hs, String.utf8ByteSize_singleton]
  exact Char.utf8Size_le_four c

private theorem reserved_length :
    ∀ word ∈ Vocabulary.control ++ Vocabulary.signalTypes ++ Vocabulary.variableTypes ++
      Vocabulary.routines, word.length ≠ 1 := by
  -- The letters of the longer words need not be counted: one letter has at most four bytes.
  have hwords : ∀ word ∈ Vocabulary.control ++ Vocabulary.signalTypes ++
      Vocabulary.variableTypes ++ Vocabulary.routines,
      4 < word.utf8ByteSize ∨ word.length ≠ 1 := by
    decide +kernel
  intro word hword hone
  have hsize := utf8ByteSize_le_of_length hone
  rcases hwords word hword with hlarge | hlong
  · omega
  · exact hlong hone

private theorem wordKind_letter {text : String} (hlength : text.length = 1) :
    Token.wordKind text = .identifier := by
  have hfresh : ∀ table : List String, (∀ word ∈ table, word.length ≠ 1) →
      Text.isOneOf text table = false := by
    intro table htable
    rw [Text.isOneOf, List.any_eq_false]
    intro word hmem hsame
    rw [Text.sameWord, Text.upper, Text.upper, beq_iff_eq] at hsame
    have hsameLength := congrArg String.length hsame
    rw [String.length_map, String.length_map, hlength] at hsameLength
    exact htable word hmem hsameLength.symm
  have hreserved := reserved_length
  simp only [List.forall_mem_append] at hreserved
  obtain ⟨⟨⟨hcontrol, hsignal⟩, hvariable⟩, hroutine⟩ := hreserved
  simp [Token.wordKind, Vocabulary.isControl, Vocabulary.isSignalType,
    Vocabulary.isVariableType, Vocabulary.isRoutine, hfresh _ hcontrol, hfresh _ hsignal,
    hfresh _ hvariable, hfresh _ hroutine]

theorem isName_letter {text : String} (hword : IsWord text) (hlength : text.length = 1) :
    IsName text := by
  refine isName_iff.mpr ⟨hword, ?_⟩
  simp [Token.isName, Spelling.token, word, wordKind_letter hlength]

theorem IsName.stands {text : String} (h : IsName text) : (word text).Stands :=
  word_stands (isName_iff.mp h).1

theorem IsName.isName {text : String} (h : IsName text) : (word text).token.isName = true :=
  (isName_iff.mp h).2

variable {style : Style} {ws : List Spelling} {e : Expr}

theorem level_le (e : Expr) : e.level ≤ Parser.levels.length := by
  cases e with
  | binary op _ _ => exact List.findIdx_le_length
  | _ => exact Nat.le_refl _

theorem words_pos (style : Style) (e : Expr) : 0 < (e.words style).length := by
  unfold Expr.words
  split
  · split <;> simp
  all_goals simp only [List.length_append, List.length_cons]; omega

theorem words_element {id : String} {index : Expr} (h : Canonical index) :
    (Expr.element id index).words style =
      word id :: punctuation "[" :: (index.words style ++ [punctuation "]"]) := by
  rw [Expr.words]
  rintro row column rfl
  cases h with
  | binary single _ _ => exact single rfl

/-! ### The tokens of an expression stand for themselves -/

theorem stands_enclose {needed : Bool} (h : ∀ w ∈ ws, w.Stands) :
    ∀ w ∈ enclose needed ws, w.Stands := by
  have hmarks : ∀ w ∈ [punctuation "(", punctuation ")"], w.Stands := by
    intro w hw
    simp only [List.mem_cons, List.not_mem_nil, or_false] at hw
    rcases hw with rfl | rfl <;> exact punctuation_stands (by decide)
  intro w hw
  cases needed with
  | false => exact h w hw
  | true =>
    simp only [enclose, if_true, List.mem_cons, List.mem_append, List.not_mem_nil,
      or_false] at hw
    rcases hw with rfl | hw | rfl
    · exact hmarks _ (by simp)
    · exact h w hw
    · exact hmarks _ (by simp)

private theorem operator_spelling_stands {w : Spelling}
    (h : w ∈ [keyword "MOD", keyword "NOT"] ∨ w ∈ operatorTexts.map operator) : w.Stands := by
  rcases h with h | h
  · simp only [List.mem_cons, List.not_mem_nil, or_false] at h
    rcases h with rfl | rfl
    · exact keyword_stands (isWord_of_toList rfl (by decide) (by decide)) (by decide)
    · exact keyword_stands (isWord_of_toList rfl (by decide) (by decide)) (by decide)
  · obtain ⟨text, htext, rfl⟩ := List.mem_map.mp h
    exact operator_stands htext

private theorem style_binary_stands {op : BinaryOp} (hop : op ≠ .pair) :
    (style.binary op).Stands := by
  have hspelled : ∀ w ∈ op.spellings,
      w ∈ [keyword "MOD", keyword "NOT"] ∨ w ∈ operatorTexts.map operator := by
    cases op <;> decide +kernel
  exact operator_spelling_stands (hspelled _ (style.binary_mem op hop))

private theorem style_unary_stands (op : UnaryOp) : (style.unary op).Stands := by
  have hspelled : ∀ w ∈ op.spellings,
      w ∈ [keyword "MOD", keyword "NOT"] ∨ w ∈ operatorTexts.map operator := by
    cases op <;> decide +kernel
  exact operator_spelling_stands (hspelled _ (style.unary_mem op))

private theorem stands_argumentWords {args : List Expr}
    (h : ∀ e ∈ args, ∀ w ∈ e.words style, w.Stands) :
    ∀ w ∈ argumentWords style args, w.Stands := by
  induction args with
  | nil => simp [argumentWords]
  | cons e es ih =>
    have he := h e List.mem_cons_self
    have hes := ih fun x hx => h x (List.mem_cons_of_mem _ hx)
    cases es with
    | nil => simpa only [argumentWords] using he
    | cons e' es =>
      rw [argumentWords]
      · intro w hw
        simp only [List.mem_append, List.mem_cons] at hw
        rcases hw with hw | rfl | hw
        · exact he w hw
        · exact punctuation_stands (by decide)
        · exact hes w hw
      · simp

theorem Canonical.stands (h : Canonical e) : ∀ w ∈ e.words style, w.Stands := by
  have hmarks : ∀ text ∈ punctuationTexts, (punctuation text).Stands := fun _ => punctuation_stands
  have hminus : (operator "-").Stands := operator_stands (by decide)
  simp only [punctuationTexts, List.forall_mem_cons] at hmarks
  induction h with
  | number low high =>
    rw [Expr.words]
    split
    · simp [hminus, numeral_stands]
    · simp [numeral_stands]
  | text s => simp [Expr.words, quoted_stands]
  | name named => simp [Expr.words, named.stands]
  | binary single _ _ ihleft ihright =>
    rw [Expr.words]
    intro w hw
    rcases List.mem_append.mp hw with hw | hw
    · exact stands_enclose ihleft w hw
    rcases List.mem_cons.mp hw with rfl | hw
    · exact style_binary_stands single
    · exact stands_enclose ihright w hw
  | unary _ _ ih =>
    rw [Expr.words]
    intro w hw
    rcases List.mem_cons.mp hw with rfl | hw
    · exact style_unary_stands _
    · exact stands_enclose ih w hw
  | call named _ ih =>
    simp only [Expr.words, List.forall_mem_cons, List.forall_mem_append]
    exact ⟨named.stands, hmarks.1, stands_argumentWords ih, by simp [hmarks]⟩
  | element named hindex ih =>
    rw [words_element hindex]
    simp only [List.forall_mem_cons, List.forall_mem_append]
    exact ⟨named.stands, hmarks.2.2.1, ih, by simp [hmarks]⟩
  | grid named _ _ ihrow ihcolumn =>
    simp only [Expr.words, List.forall_mem_cons, List.forall_mem_append]
    exact ⟨named.stands, hmarks.2.2.1, ihrow, hmarks.2.2.2.1, hmarks.2.2.1, ihcolumn,
      by simp [hmarks]⟩
  | @field object part index named partNamed _ ih =>
    cases index with
    | none => simp [Expr.words, named.stands, partNamed.stands, hmarks]
    | some index =>
      simp only [Expr.words, List.forall_mem_cons, List.forall_mem_append]
      exact ⟨named.stands, by simp [hmarks], partNamed.stands, hmarks.2.2.1, ih index rfl,
        by simp [hmarks]⟩

end Expr

end ControlLogic
