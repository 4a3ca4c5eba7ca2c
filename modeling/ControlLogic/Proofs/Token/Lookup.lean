import ControlLogic.Proofs.Token.Spelling

/-!
Looking words up. The reserved words stand in their tables in upper case, so the class of a word is
found by its form in upper case, without raising the words of the tables. The tokens of a text do
not change if their classes are looked up again; in this form the tokens of a given text reduce
without much work.
-/

set_option autoImplicit false
set_option relaxedAutoImplicit false

namespace ControlLogic.Token

open Text (isOneOf_eq_contains upper)

private theorem upper_reserved :
    ∀ table ∈ [Vocabulary.control, Vocabulary.signalTypes, Vocabulary.variableTypes,
      Vocabulary.routines], ∀ word ∈ table, upper word = word := by
  have hchars : ∀ table ∈ [Vocabulary.control, Vocabulary.signalTypes, Vocabulary.variableTypes,
      Vocabulary.routines], ∀ word ∈ table, word.toList.map Char.toUpper = word.toList := by
    decide +kernel
  intro table htable word hword
  rw [← String.toList_inj, Text.toList_upper, hchars table htable word hword]

def upperKind (word : String) : TokenKind :=
  if Vocabulary.control.contains word then .keyword
  else if Vocabulary.signalTypes.contains word then .signalType
  else if Vocabulary.variableTypes.contains word then .variableType
  else if Vocabulary.routines.contains word then .routine
  else .identifier

theorem wordKind_eq_upperKind (word : String) : wordKind word = upperKind (upper word) := by
  have hupper := upper_reserved
  simp only [List.forall_mem_cons] at hupper
  obtain ⟨hcontrol, hsignal, hvariable, hroutine, -⟩ := hupper
  rw [wordKind, Vocabulary.isControl, Vocabulary.isSignalType, Vocabulary.isVariableType,
    Vocabulary.isRoutine, isOneOf_eq_contains hcontrol, isOneOf_eq_contains hsignal,
    isOneOf_eq_contains hvariable, isOneOf_eq_contains hroutine, upperKind]

def lookedUp (t : Token) : Token :=
  if t.text.toList.head?.any isWordStart then { t with kind := upperKind (upper t.text) } else t

private theorem map_lookedUp_scanFrom (p : Position) (input : List Char) :
    (scanFrom p input).map lookedUp = scanFrom p input := by
  fun_induction scanFrom p input with
  | case1 p => simp [lookedUp]
  | case2 p c cs lexeme tokens kind hkind ih =>
    rw [List.map_cons, ih, lookedUp, String.toList_ofList, List.head?_cons, Option.any_some]
    split
    next hstart =>
      have hclass : kind = wordKind (String.ofList (c :: lexeme.tail)) := by
        have hfirst : lexeme = Lexeme.word c cs := first_eq_word hstart cs
        rw [hfirst] at hkind ⊢
        exact (Option.some.inj hkind).symm
      rw [hclass, wordKind_eq_upperKind]
    next => rfl
  | case3 p c cs lexeme tokens hkind ih => exact ih

theorem scan_eq_map_lookedUp (text : String) : scan text = (scan text).map lookedUp :=
  (map_lookedUp_scanFrom .start text.toList).symm

end ControlLogic.Token
