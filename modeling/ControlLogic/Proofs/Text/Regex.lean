import Mathlib.Computability.Language
import ControlLogic.Text.Regex

/-!
What regular expressions match. An engine is documented if every expression of characters, dots and
stars that it takes matches the texts of the language of the expression. The standard engine is, and
takes all of these expressions.
-/

set_option autoImplicit false
set_option relaxedAutoImplicit false

namespace ControlLogic.Regex

open scoped Computability

def anyChar : Language Char :=
  {text | ∃ c, c ≠ '\n' ∧ text = [c]}

/-- The languages of expressions that are put together from characters that stand for themselves,
from dots, and from dots with a star. -/
inductive Denotes (regex : Regex) : String → Language Char → Prop
  | nothing : Denotes regex "" 1
  | itself (c : Char) {body : String} {L : Language Char} (h : Denotes regex body L) :
    Denotes regex (regex.escape c ++ body) ({[c]} * L)
  | dot {body : String} {L : Language Char} (h : Denotes regex body L) :
    Denotes regex ("." ++ body) (anyChar * L)
  | dots {body : String} {L : Language Char} (h : Denotes regex body L) :
    Denotes regex (".*" ++ body) (anyChar∗ * L)

/-- An engine does what regular expressions are documented to do: between its anchors, an expression
that the engine takes matches the texts of its language. -/
def Documented (regex : Regex) : Prop :=
  ∀ {body : String} {L : Language Char} {accepts : String → Bool}, regex.Denotes body L →
    regex.compile? ("^" ++ body ++ "$") = some accepts →
      ∀ text : String, accepts text = true ↔ text.toList ∈ L

/-! ### Rows -/

def Atom.language (a : Atom) : Language Char :=
  {text | ∃ c, a.accepts c = true ∧ text = [c]}

def Item.language (item : Item) : Language Char :=
  if item.starred then item.atom.language∗ else item.atom.language

def language (items : List Item) : Language Char :=
  (items.map Item.language).prod

variable {a : Atom} {L : Language Char} {c : Char} {text : List Char} {told : Bool}
  {row : List Bool}

private theorem nil_mem_atom_mul : [] ∈ a.language * L ↔ False := by
  rw [iff_false, Language.mem_mul]
  rintro ⟨part, ⟨c, -, rfl⟩, rest, -, h⟩
  cases h

private theorem cons_mem_atom_mul :
    c :: text ∈ a.language * L ↔ a.accepts c = true ∧ text ∈ L := by
  rw [Language.mem_mul]
  constructor
  · rintro ⟨part, ⟨d, hd, rfl⟩, rest, hrest, h⟩
    obtain ⟨rfl, rfl⟩ := List.cons.inj h
    exact ⟨hd, hrest⟩
  · rintro ⟨hc, htext⟩
    exact ⟨[c], ⟨c, hc, rfl⟩, text, htext, rfl⟩

private theorem star_mul (a : Atom) (L : Language Char) :
    a.language∗ * L = L + a.language * (a.language∗ * L) := by
  conv_lhs => rw [← Language.one_add_self_mul_kstar_eq_kstar]
  rw [add_mul, one_mul, mul_assoc]

private theorem nil_mem_star_mul : [] ∈ a.language∗ * L ↔ [] ∈ L := by
  rw [star_mul, Language.mem_add, nil_mem_atom_mul, or_false]

private theorem cons_mem_star_mul :
    c :: text ∈ a.language∗ * L ↔
      c :: text ∈ L ∨ a.accepts c = true ∧ text ∈ a.language∗ * L := by
  conv_lhs => rw [star_mul]
  rw [Language.mem_add, cons_mem_atom_mul]

/-- A row tells of every suffix of a text, the whole first and the empty one last, whether it is in
a language. -/
def IsRow (L : Language Char) (text : List Char) (row : List Bool) : Prop :=
  List.Forall₂ (fun suffix told => told = true ↔ suffix ∈ L) text.tails row

private theorem isRow_cons :
    IsRow L (c :: text) row ↔
      ∃ told behind, (told = true ↔ c :: text ∈ L) ∧ IsRow L text behind ∧ row = told :: behind :=
  List.forall₂_cons_left_iff

private theorem isRow_nil : IsRow L [] row ↔ ∃ told, (told = true ↔ [] ∈ L) ∧ row = [told] := by
  constructor
  · intro h
    obtain ⟨told, _, htold, hnone, rfl⟩ := List.forall₂_cons_left_iff.mp h
    exact ⟨told, htold, by rw [List.forall₂_nil_left_iff.mp hnone]⟩
  · rintro ⟨told, htold, rfl⟩
    exact .cons htold .nil

theorem IsRow.head (h : IsRow L text row) : row.headD false = true ↔ text ∈ L := by
  cases text with
  | nil =>
    obtain ⟨told, htold, rfl⟩ := isRow_nil.mp h
    exact htold
  | cons c text =>
    obtain ⟨told, _, htold, -, rfl⟩ := isRow_cons.mp h
    exact htold

private theorem isRow_starRow (a : Atom) (h : IsRow L text row) :
    IsRow (a.language∗ * L) text (starRow a.accepts text row) := by
  induction text generalizing row with
  | nil =>
    obtain ⟨told, htold, rfl⟩ := isRow_nil.mp h
    exact isRow_nil.mpr ⟨told, htold.trans nil_mem_star_mul.symm, rfl⟩
  | cons c text ih =>
    obtain ⟨told, behind, htold, hbehind, rfl⟩ := isRow_cons.mp h
    refine isRow_cons.mpr ⟨_, _, ?_, ih hbehind, rfl⟩
    rw [cons_mem_star_mul, ← htold, ← (ih hbehind).head, Bool.or_eq_true, Bool.and_eq_true]

private theorem isRow_charRow (a : Atom) (h : IsRow L text row) :
    IsRow (a.language * L) text (charRow a.accepts text row) := by
  induction text generalizing row with
  | nil => exact isRow_nil.mpr ⟨false, by simp [nil_mem_atom_mul], rfl⟩
  | cons c text ih =>
    obtain ⟨told, behind, -, hbehind, rfl⟩ := isRow_cons.mp h
    refine isRow_cons.mpr ⟨_, _, ?_, ih hbehind, rfl⟩
    rw [cons_mem_atom_mul, Bool.and_eq_true, hbehind.head]

private theorem isRow_end (text : List Char) :
    IsRow 1 text (List.replicate text.length false ++ [true]) := by
  induction text with
  | nil => exact isRow_nil.mpr ⟨true, by simp [Language.mem_one], rfl⟩
  | cons c text ih => exact isRow_cons.mpr ⟨false, _, by simp [Language.mem_one], ih, rfl⟩

private theorem isRow_row (text : List Char) (items : List Item) :
    IsRow (language items) text (Regex.row text items) := by
  induction items with
  | nil => exact isRow_end text
  | cons item items ih =>
    have hcons : language (item :: items) = item.language * language items := List.prod_cons
    rw [hcons, Item.language, Regex.row]
    split
    · exact isRow_starRow item.atom ih
    · exact isRow_charRow item.atom ih

/-! ### The standard engine -/

private theorem language_any : Atom.any.language = anyChar := by
  ext text
  simp only [Atom.language, anyChar, Atom.accepts, bne_iff_ne]

private theorem language_char (c : Char) : (Atom.char c).language = {[c]} := by
  ext text
  constructor
  · rintro ⟨d, hd, rfl⟩
    obtain rfl := beq_iff_eq.mp hd
    rfl
  · rintro rfl
    exact ⟨c, beq_self_eq_true c, rfl⟩

private theorem readItems_dot (items : List Item) (rest : List Char) :
    readItems items ('.' :: rest) = readItems (⟨.any, false⟩ :: items) rest := by
  rw [readItems.eq_def]
  cases rest <;> rfl

private theorem readItems_star (a : Atom) (items : List Item) (rest : List Char) :
    readItems (⟨a, false⟩ :: items) ('*' :: rest) = readItems (⟨a, true⟩ :: items) rest := by
  rw [readItems.eq_def]
  cases rest <;> rfl

private theorem readItems_escape (items : List Item) (c : Char) (rest : List Char) :
    readItems items ((standard.escape c).toList ++ rest) =
      readItems (⟨.char c, false⟩ :: items) rest := by
  cases hmeta : isMeta c with
  | true =>
    have hescape : (standard.escape c).toList = ['\\', c] := by
      simp only [standard, hmeta, if_true, String.toList_ofList]
    rw [hescape]
    change readItems items ('\\' :: c :: rest) = _
    rw [readItems.eq_def]
    exact if_pos hmeta
  | false =>
    have hescape : (standard.escape c).toList = [c] := by
      simp only [standard, hmeta, Bool.false_eq_true, if_false, Char.toString,
        String.toList_singleton]
    have hplain {d : Char} {behind : List Char} (hd : isMeta d = true)
        (h : c :: rest = d :: behind) : False := by
      obtain ⟨rfl, -⟩ := List.cons.inj h
      cases hmeta.symm.trans hd
    rw [hescape, List.singleton_append, readItems.eq_def]
    split
    next h => exact (hplain (by decide +kernel) h).elim
    next h => exact (hplain (by decide +kernel) h).elim
    next h => exact (hplain (by decide +kernel) h).elim
    next h => exact (hplain (by decide +kernel) h).elim
    next h =>
      obtain ⟨rfl, rfl⟩ := List.cons.inj h
      exact if_neg (ne_true_of_eq_false hmeta)
    next h => cases h

private theorem readItems_of_denotes {body : String} (h : standard.Denotes body L)
    (before : List Item) :
    ∃ items, readItems before (body.toList ++ ['$']) = some (before.reverse ++ items) ∧
      language items = L := by
  induction h generalizing before with
  | nothing => exact ⟨[], by simp [readItems], rfl⟩
  | itself c h ih =>
    obtain ⟨items, hread, hlanguage⟩ := ih (⟨.char c, false⟩ :: before)
    refine ⟨⟨.char c, false⟩ :: items, ?_, ?_⟩
    · rw [String.toList_append, List.append_assoc, readItems_escape, hread]
      simp
    · change (Atom.char c).language * language items = _
      rw [language_char, hlanguage]
  | @dot body L h ih =>
    obtain ⟨items, hread, hlanguage⟩ := ih (⟨.any, false⟩ :: before)
    refine ⟨⟨.any, false⟩ :: items, ?_, ?_⟩
    · rw [String.toList_append]
      change readItems before ('.' :: (body.toList ++ ['$'])) = _
      rw [readItems_dot, hread]
      simp
    · change Atom.any.language * language items = _
      rw [language_any, hlanguage]
  | @dots body L h ih =>
    obtain ⟨items, hread, hlanguage⟩ := ih (⟨.any, true⟩ :: before)
    refine ⟨⟨.any, true⟩ :: items, ?_, ?_⟩
    · rw [String.toList_append]
      change readItems before ('.' :: '*' :: (body.toList ++ ['$'])) = _
      rw [readItems_dot, readItems_star, hread]
      simp
    · change Atom.any.language∗ * language items = _
      rw [language_any, hlanguage]

/-- The standard engine takes every expression that is put together from characters, dots and stars,
and matches the texts of its language. -/
theorem compile?_standard {body : String} (h : standard.Denotes body L) :
    ∃ accepts, standard.compile? ("^" ++ body ++ "$") = some accepts ∧
      ∀ text : String, accepts text = true ↔ text.toList ∈ L := by
  obtain ⟨items, hread, hlanguage⟩ := readItems_of_denotes h []
  refine ⟨fun text => (Regex.row text.toList items).headD false, ?_, fun text => ?_⟩
  · have hexpression : ("^" ++ body ++ "$").toList = '^' :: (body.toList ++ ['$']) := by
      simp [String.toList_append]
    unfold standard
    simp only [hexpression]
    rw [hread]
    rfl
  · rw [← hlanguage]
    exact (isRow_row text.toList items).head

theorem documented_standard : standard.Documented := by
  intro body L accepts h htaken
  obtain ⟨accepts', htaken', haccepts⟩ := compile?_standard h
  obtain rfl := Option.some.inj (htaken'.symm.trans htaken)
  exact haccepts

end ControlLogic.Regex
