import ControlLogic.Proofs.Source.Blocks
import ControlLogic.Proofs.Source.Places

/-!
Constants that count as defined, and the lines that define them. The names are collected before any
condition is looked at, so a constant counts even if all its lines are dropped; but a line that is
kept only ever defines a name that counts.
-/

set_option autoImplicit false
set_option relaxedAutoImplicit false

namespace ControlLogic.Source

def constant? (line : List Char) : Option String :=
  Heading.ofLine? line >>= Heading.constant?

/-! ### The names that count as defined -/

private theorem mem_insertName {name other : String} {names : List String} :
    other ∈ insertName name names ↔ other = name ∨ other ∈ names := by
  induction names with
  | nil => simp [insertName]
  | cons first names ih =>
    rw [insertName]
    split
    · simp
    split
    next heq =>
      subst heq
      simp
    next =>
      rw [List.mem_cons, ih, List.mem_cons]
      tauto

private theorem mem_foldl_insertName {name : String} {added names : List String} :
    name ∈ added.foldl (fun names n => insertName n names) names ↔ name ∈ added ∨ name ∈ names := by
  induction added generalizing names with
  | nil => simp
  | cons first added ih =>
    rw [List.foldl_cons, ih, mem_insertName, List.mem_cons]
    tauto

private theorem mem_resolveDefines {name : String} {lines : List (List Char)}
    {given : List String} :
    name ∈ resolveDefines lines given ↔
      name ∈ platformDefines ∨ name ∈ given.map Text.upper ∨
        ∃ line ∈ lines, constant? line = some name := by
  unfold resolveDefines
  rw [mem_foldl_insertName, List.mem_append, List.mem_append, List.mem_filterMap]
  simp only [List.not_mem_nil, or_false, or_assoc]
  rfl

/-! ### What becomes of the lines that define constants -/

def Pass.after (defines : List String) (pass : Pass) (lines : List (List Char)) : Pass :=
  lines.foldl (fun pass line => (pass.step defines line).2) pass

/-- Lines are dropped here: a help block is open, or a condition that fails. -/
def Pass.Drops (pass : Pass) : Prop :=
  pass.inHelp = true ∨ false ∈ pass.conditions

instance (pass : Pass) : Decidable pass.Drops :=
  inferInstanceAs (Decidable (_ ∨ _))

private theorem getElem?_fates (defines : List String) (pass : Pass) (lines : List (List Char))
    (i : Nat) :
    (fates defines pass lines)[i]? =
      lines[i]?.map fun line => ((pass.after defines (lines.take i)).step defines line).1 := by
  induction lines generalizing pass i with
  | nil => rfl
  | cons line lines ih =>
    cases i with
    | zero => rfl
    | succ i =>
      rw [fates_cons, List.getElem?_cons_succ, ih, List.getElem?_cons_succ, List.take_succ_cons]
      rfl

private theorem keyword?_of_constant? {line : List Char} {name : String}
    (h : constant? line = some name) : keyword? line = some "#DEFINE_CONSTANT" := by
  unfold constant? at h
  obtain ⟨⟨keyword, argument⟩, hheading, hdefines⟩ := Option.bind_eq_some_iff.mp h
  have hkeyword : keyword? line = some keyword := by rw [keyword?, hheading]; rfl
  dsimp only [Heading.constant?] at hdefines
  split at hdefines
  next heq => rw [hkeyword, heq]
  next => cases hdefines

private theorem text_step_constant {line : List Char} {name : String}
    (h : constant? line = some name)
    (defines : List String) (pass : Pass) :
    (pass.step defines line).1.text line = if pass.Drops then [] else line := by
  obtain ⟨n, hopen, conditions⟩ := pass
  have hkeyword := keyword?_of_constant? h
  cases hopen with
  | true =>
    unfold keyword? at hkeyword
    simp [Pass.step, hkeyword, Pass.Drops, Fate.text]
  | false =>
    have hnone : condition? line = none :=
      condition?_eq_none (by simp [hkeyword]) (by simp [hkeyword])
    rw [step_other (by simp [hkeyword]) hnone (by simp [hkeyword]), hkeyword]
    have hplain : (some "#DEFINE_CONSTANT").filter informational.contains = none := by decide
    by_cases hactive : conditions.all id = true
    · have hkeeps : ¬ Pass.Drops ⟨n, false, conditions⟩ := by
        rintro (hhelp | hfails)
        · cases hhelp
        · exact absurd (List.all_eq_true.mp hactive _ hfails) Bool.false_ne_true
      rw [if_pos hactive, if_neg hkeeps, hplain]
      rfl
    · have hdrops : Pass.Drops ⟨n, false, conditions⟩ := Or.inr (by simpa using hactive)
      rw [if_neg hactive, if_pos hdrops]
      rfl

private theorem getElem?_keptLines {defines : List String} {pass : Pass} {lines : List (List Char)}
    {i : Nat} {line : List Char} (h : lines[i]? = some line) :
    (keptLines defines pass lines)[i]? =
      some (((pass.after defines (lines.take i)).step defines line).1.text line) := by
  have hfate : (fates defines pass lines)[i]? =
      some ((pass.after defines (lines.take i)).step defines line).1 := by
    rw [getElem?_fates, h]
    rfl
  have hboth : (lines.zip (fates defines pass lines))[i]? =
      some (line, ((pass.after defines (lines.take i)).step defines line).1) :=
    List.getElem?_zip_eq_some.mpr ⟨h, hfate⟩
  rw [keptLines, List.getElem?_map, hboth]
  rfl

private theorem eq_nil_or_mem_of_mem_keptLines {defines : List String} {pass : Pass}
    {lines : List (List Char)} {kept : List Char} (h : kept ∈ keptLines defines pass lines) :
    kept = [] ∨ kept ∈ lines := by
  obtain ⟨⟨line, fate⟩, hmem, rfl⟩ := List.mem_map.mp h
  have hline := (List.of_mem_zip hmem).1
  cases fate with
  | dropped => exact Or.inl rfl
  | help => exact Or.inl rfl
  | kept => exact Or.inr hline
  | noted keyword => exact Or.inr hline

private theorem mem_splitOn_resolve {text : String} {given : List String} {line : List Char}
    (h : line ∈ (resolve text given).text.toList.splitOn '\n') :
    line = [] ∨ line ∈ Text.lines text.toList := by
  rw [splitOn_resolve] at h
  rcases List.mem_append.mp h with hkept | hopen
  · exact eq_nil_or_mem_of_mem_keptLines hkept
  · left
    unfold Text.openLine at hopen
    split at hopen
    · exact List.mem_singleton.mp hopen
    · cases hopen

/--
A name that counts as defined, other than those of the platform and those given, has a line that
defines it. In the resolved text such a line stands in its place, unless a help block or a condition
that fails is open there; and what is kept defines only names that count as defined, so that a
condition on a name that does not is never at odds with the lines that are kept.
-/
theorem defined_names_have_lines (text : String) (given : List String) :
    let resolved := resolve text given
    let lines := Text.lines text.toList
    let kept := resolved.text.toList.splitOn '\n'
    (∀ name ∈ resolved.defines, name ∉ platformDefines → name ∉ given.map Text.upper →
      ∃ line ∈ lines, constant? line = some name) ∧
    (∀ i line name, lines[i]? = some line → constant? line = some name →
      kept[i]? = some (if (Pass.after resolved.defines ⟨0, false, []⟩ (lines.take i)).Drops then []
        else line)) ∧
    (∀ line ∈ kept, ∀ name, constant? line = some name → name ∈ resolved.defines) := by
  intro resolved lines kept
  refine ⟨fun name hname hplatform hgiven => ?_, fun i line name hline hname => ?_,
    fun line hline name hname => ?_⟩
  · rcases mem_resolveDefines.mp hname with h | h | hconstant
    · exact absurd h hplatform
    · exact absurd h hgiven
    · exact hconstant
  · have hkept : (keptLines resolved.defines ⟨0, false, []⟩ lines)[i]? = _ :=
      getElem?_keptLines hline
    rw [text_step_constant hname] at hkept
    have hsplit : kept = keptLines resolved.defines ⟨0, false, []⟩ lines ++
        Text.openLine text.toList := splitOn_resolve text given
    rw [hsplit, List.getElem?_append_left (List.getElem?_eq_some_iff.mp hkept).1]
    exact hkept
  · rcases mem_splitOn_resolve hline with rfl | hmem
    · cases hname
    · exact mem_resolveDefines.mpr (Or.inr (Or.inr ⟨line, hmem, hname⟩))

/-- A constant behind a condition that fails, and behind help. -/
theorem constant_behind_blocks_is_kept :
    let text := "#IF_DEFINED B\n#ENDIF\n#HELP_BEGIN\n#HELP_END\n#define_constant a 1"
    let resolved := resolve text []
    "A" ∈ resolved.defines ∧ "A" ∉ platformDefines ∧ "A" ∉ ([] : List String).map Text.upper ∧
      (∃ line ∈ Text.lines text.toList, constant? line = some "A") ∧
      (resolved.text.toList.splitOn '\n')[4]? = some "#define_constant a 1".toList := by
  intro text resolved
  have hname : "A" ∈ resolved.defines := by decide +kernel
  have hplatform : "A" ∉ platformDefines := by decide
  have hgiven : "A" ∉ ([] : List String).map Text.upper := by simp
  have hline : (Text.lines text.toList)[4]? = some "#define_constant a 1".toList := by
    decide +kernel
  have hconstant : constant? "#define_constant a 1".toList = some "A" := by decide +kernel
  have hkeeps : ¬ (Pass.after resolved.defines ⟨0, false, []⟩
      ((Text.lines text.toList).take 4)).Drops := by
    decide +kernel
  obtain ⟨hlines, hplaces, -⟩ := defined_names_have_lines text []
  have hplace := hplaces 4 _ "A" hline hconstant
  rw [if_neg hkeeps] at hplace
  exact ⟨hname, hplatform, hgiven, hlines "A" hname hplatform hgiven, hplace⟩

/-- A constant whose only line is dropped counts as defined, so that a condition on it holds where
no line defines it. -/
theorem constant_of_dropped_line_counts :
    let resolved :=
      resolve "#IF_DEFINED B\n#DEFINE_CONSTANT A 1\n#ENDIF\n#IF_DEFINED A\nx\n#ENDIF" []
    "A" ∈ resolved.defines ∧ "A" ∉ platformDefines ∧ "A" ∉ ([] : List String).map Text.upper ∧
      (∀ line ∈ resolved.text.toList.splitOn '\n', constant? line ≠ some "A") ∧
      resolved.text = "\n\n\n\nx\n" := by
  intro resolved
  have htext : resolved.text = "\n\n\n\nx\n" := by decide +kernel
  have hnone : ∀ line ∈ "\n\n\n\nx\n".toList.splitOn '\n', constant? line ≠ some "A" := by
    decide +kernel
  refine ⟨by decide +kernel, by decide, by simp, ?_, htext⟩
  rw [htext]
  exact hnone

end ControlLogic.Source
