import Mathlib.Data.List.Forall2
import ControlLogic.FileSystem.Path
import ControlLogic.Proofs.Text.Regex

/-!
Names that match a pattern. The regular expression of a pattern denotes the names that are put
together from parts its characters stand for, so a documented engine that takes the expression
matches just these names.
-/

set_option autoImplicit false
set_option relaxedAutoImplicit false

namespace ControlLogic.FileSystem

open scoped Computability

/-- What a character of a pattern can stand for. -/
inductive StandsFor : Char → List Char → Prop
  | any {part : List Char} (h : '\n' ∉ part) : StandsFor '*' part
  | one {c : Char} (h : c ≠ '\n') : StandsFor '?' [c]
  | itself {p : Char} (hstar : p ≠ '*') (hmark : p ≠ '?') : StandsFor p [p]

/-- A name is put together from parts that the characters of a pattern stand for, in their order. -/
def MatchesPattern (pattern name : List Char) : Prop :=
  ∃ parts, List.Forall₂ StandsFor pattern parts ∧ parts.flatten = name

def patternLanguage (pattern : List Char) : Language Char :=
  {name | MatchesPattern pattern name}

def standsFor (p : Char) : Language Char :=
  {part | StandsFor p part}

private theorem patternLanguage_nil : patternLanguage [] = 1 := by
  ext name
  rw [Language.mem_one]
  change MatchesPattern [] name ↔ _
  simp [MatchesPattern, eq_comm]

private theorem patternLanguage_cons (p : Char) (pattern : List Char) :
    patternLanguage (p :: pattern) = standsFor p * patternLanguage pattern := by
  ext name
  rw [Language.mem_mul]
  constructor
  · rintro ⟨parts, hparts, rfl⟩
    obtain ⟨part, rest, hpart, hrest, rfl⟩ := List.forall₂_cons_left_iff.mp hparts
    exact ⟨part, hpart, rest.flatten, ⟨rest, hrest, rfl⟩, List.flatten_cons.symm⟩
  · rintro ⟨part, hpart, _, ⟨parts, hparts, rfl⟩, rfl⟩
    exact ⟨part :: parts, .cons hpart hparts, List.flatten_cons⟩

private theorem standsFor_star : standsFor '*' = Regex.anyChar∗ := by
  ext part
  rw [Language.mem_kstar]
  constructor
  · rintro (h | _ | ⟨hstar, -⟩)
    · have hpart : part = (part.map ([·])).flatten := by
        rw [← List.flatMap_def, List.flatMap_singleton']
      refine ⟨part.map ([·]), hpart, fun text htext => ?_⟩
      obtain ⟨c, hc, rfl⟩ := List.mem_map.mp htext
      exact ⟨c, ne_of_mem_of_not_mem hc h, rfl⟩
    · exact absurd rfl hstar
  · rintro ⟨texts, rfl, htexts⟩
    refine .any fun hfeed => ?_
    obtain ⟨text, htext, hmem⟩ := List.mem_flatten.mp hfeed
    obtain ⟨c, hc, rfl⟩ := htexts text htext
    exact hc (List.mem_singleton.mp hmem).symm

private theorem standsFor_mark : standsFor '?' = Regex.anyChar := by
  ext part
  constructor
  · intro h
    cases h with
    | one h => exact ⟨_, h, rfl⟩
    | itself _ hmark => exact absurd rfl hmark
  · rintro ⟨c, hc, rfl⟩
    exact .one hc

private theorem standsFor_itself {p : Char} (hstar : p ≠ '*') (hmark : p ≠ '?') :
    standsFor p = {[p]} := by
  ext part
  constructor
  · intro h
    cases h with
    | any h => exact absurd rfl hstar
    | one h => exact absurd rfl hmark
    | itself _ _ => rfl
  · rintro rfl
    exact .itself hstar hmark

private theorem denotes_globBody (regex : Regex) (pattern : List Char) :
    regex.Denotes (globBody regex pattern) (patternLanguage pattern) := by
  induction pattern with
  | nil =>
    rw [patternLanguage_nil]
    exact .nothing
  | cons p pattern ih =>
    rw [patternLanguage_cons, globBody, globPiece]
    split
    next hstar =>
      rw [hstar, standsFor_star]
      exact .dots ih
    next hstar =>
      split
      next hmark =>
        rw [hmark, standsFor_mark]
        exact .dot ih
      next hmark =>
        rw [standsFor_itself hstar hmark]
        exact .itself p ih

/-- A documented engine that takes the regular expression of a pattern matches the names that match
the pattern. -/
theorem accepts_iff {regex : Regex} (h : regex.Documented) {pattern : String}
    {accepts : String → Bool}
    (htaken : regex.compile? (globExpression regex pattern) = some accepts)
    (name : String) : accepts name = true ↔ MatchesPattern pattern.toList name.toList :=
  h (denotes_globBody regex pattern.toList) htaken name

theorem compile?_globExpression (pattern : String) :
    ∃ accepts, Regex.standard.compile? (globExpression .standard pattern) = some accepts := by
  obtain ⟨accepts, htaken, -⟩ :=
    Regex.compile?_standard (denotes_globBody .standard pattern.toList)
  exact ⟨accepts, htaken⟩

end ControlLogic.FileSystem
