import Mathlib.Data.List.Basic
import ControlLogic.Source.Conditional

/-!
Conditional text as nested blocks. Lines that open and close blocks in pairs make up a tree, and
what becomes of a line is told by the blocks around it: one pass over the lines, with a stack of
truth values, gives what the tree means.
-/

set_option autoImplicit false
set_option relaxedAutoImplicit false

namespace ControlLogic.Source

/-! ### Lines by their directives -/

def keyword? (line : List Char) : Option String :=
  (Heading.ofLine? line).map Heading.keyword

def condition? (line : List Char) : Option (String × Bool) :=
  Heading.ofLine? line >>= Heading.condition?

/-- A line with a directive at its head. -/
structure DirectiveLine (keyword : String) where
  line : List Char
  heads : keyword? line = some keyword

/-- A line that opens a condition: a name, and whether it has to be defined. -/
structure ConditionLine where
  line : List Char
  condition : String × Bool
  opens : condition? line = some condition

/-- A line with none of some directives at its head. -/
structure LineBesides (keywords : List String) where
  line : List Char
  heads : ∀ k ∈ keywords, keyword? line ≠ some k

def conditionMarks : List String :=
  ["#IF_DEFINED", "#IF_NOT_DEFINED", "#ENDIF"]

/-- A line that begins no block and ends no condition. An end of help outside of help is such a line
like any other. -/
abbrev PlainLine :=
  LineBesides ("#HELP_BEGIN" :: conditionMarks)

abbrev HelpLine :=
  LineBesides ("#HELP_END" :: conditionMarks)

/-! ### Blocks -/

/-- Lines and blocks one after another. -/
inductive Blocks where
  | nil
  | plain (line : PlainLine) (rest : Blocks)
  | conditional (opening : ConditionLine) (body : Blocks) (closing : DirectiveLine "#ENDIF")
      (rest : Blocks)
  | help (opening : DirectiveLine "#HELP_BEGIN") (body : List HelpLine)
      (closing : DirectiveLine "#HELP_END") (rest : Blocks)

/-- What a line is for: to be read as a part of the program or of the help, or to mark a block. -/
inductive Role where
  | plain
  | help
  | mark
  deriving DecidableEq

/-- A line in its place: what it is for, and the conditions of the blocks around it, innermost
first. -/
structure Placed where
  role : Role
  line : List Char
  around : List (String × Bool)

namespace Blocks

def lines : Blocks → List (List Char)
  | nil => []
  | plain line rest => line.line :: rest.lines
  | conditional opening body closing rest =>
    opening.line :: (body.lines ++ closing.line :: rest.lines)
  | help opening body closing rest =>
    opening.line :: (body.map LineBesides.line ++ closing.line :: rest.lines)

/-- The lines of blocks in their places, when the blocks stand under some conditions. -/
def placed (around : List (String × Bool)) : Blocks → List Placed
  | nil => []
  | plain line rest => ⟨.plain, line.line, around⟩ :: rest.placed around
  | conditional opening body closing rest =>
    ⟨.mark, opening.line, around⟩ ::
      (body.placed (opening.condition :: around) ++
        ⟨.mark, closing.line, around⟩ :: rest.placed around)
  | help opening body closing rest =>
    ⟨.mark, opening.line, around⟩ ::
      (body.map (fun line => ⟨.help, line.line, around⟩) ++
        ⟨.mark, closing.line, around⟩ :: rest.placed around)

private theorem lines_placed (around : List (String × Bool)) (blocks : Blocks) :
    (blocks.placed around).map Placed.line = blocks.lines := by
  induction blocks generalizing around with
  | nil => rfl
  | plain line rest ih => simp [placed, lines, ih]
  | conditional opening body closing rest ihBody ih => simp [placed, lines, ihBody, ih]
  | help opening body closing rest ih => simp [placed, lines, ih, Function.comp_def]

end Blocks

def Holds (defines : List String) (condition : String × Bool) : Prop :=
  condition.1 ∈ defines ↔ condition.2 = true

instance (defines : List String) (condition : String × Bool) :
    Decidable (Holds defines condition) :=
  inferInstanceAs (Decidable (_ ↔ _))

def truth (defines : List String) (condition : String × Bool) : Bool :=
  defines.contains condition.1 == condition.2

private theorem truth_iff {defines : List String} {condition : String × Bool} :
    truth defines condition = true ↔ Holds defines condition := by
  obtain ⟨name, wanted⟩ := condition
  cases wanted <;> simp [truth, Holds]

namespace Placed

def IsActive (defines : List String) (p : Placed) : Prop :=
  ∀ condition ∈ p.around, Holds defines condition

instance (defines : List String) (p : Placed) : Decidable (p.IsActive defines) :=
  inferInstanceAs (Decidable (∀ condition ∈ p.around, Holds defines condition))

def IsKept (defines : List String) (p : Placed) : Prop :=
  p.role = .plain ∧ p.IsActive defines

instance (defines : List String) (p : Placed) : Decidable (p.IsKept defines) :=
  inferInstanceAs (Decidable (_ ∧ _))

def IsHelp (defines : List String) (p : Placed) : Prop :=
  p.role = .help ∧ p.IsActive defines

instance (defines : List String) (p : Placed) : Decidable (p.IsHelp defines) :=
  inferInstanceAs (Decidable (_ ∧ _))

/-- The remark on a kept line of a number, if its directive is for information. -/
def notice? (defines : List String) (p : Placed) (number : Nat) : Option Notice :=
  if p.IsKept defines then
    ((keyword? p.line).filter informational.contains).map fun keyword =>
      ⟨number, notedMessage keyword⟩
  else none

def fate (defines : List String) (p : Placed) : Fate :=
  if p.IsKept defines then
    (((keyword? p.line).filter informational.contains).map Fate.noted).getD .kept
  else if p.IsHelp defines then .help
  else .dropped

private theorem text_fate (defines : List String) (p : Placed) :
    (p.fate defines).text p.line = if p.IsKept defines then p.line else [] := by
  unfold fate
  split
  · cases (keyword? p.line).filter informational.contains with
    | none => rfl
    | some keyword => rfl
  · split <;> rfl

private theorem fate_eq_help (defines : List String) (p : Placed) :
    p.fate defines = .help ↔ p.IsHelp defines := by
  unfold fate
  split
  next hkept =>
    have hrole : ¬ p.IsHelp defines := fun hhelp => by
      have hboth := hkept.1.symm.trans hhelp.1
      cases hboth
    cases (keyword? p.line).filter informational.contains <;> simp [hrole]
  next => split <;> simp_all

private theorem noticesFrom_fate_cons (defines : List String) (p : Placed) (n : Nat)
    (marks : List Fate) :
    noticesFrom n (p.fate defines :: marks) =
      (p.notice? defines n).toList ++ noticesFrom (n + 1) marks := by
  unfold fate notice?
  split
  · cases (keyword? p.line).filter informational.contains with
    | none => rfl
    | some keyword => rfl
  · split <;> rfl

private theorem noticesFrom_map_fate (defines : List String) (placed : List Placed) (n : Nat) :
    noticesFrom n (placed.map (fate defines)) =
      (placed.zipIdx n).filterMap fun (p, number) => p.notice? defines number := by
  induction placed generalizing n with
  | nil => rfl
  | cons p placed ih =>
    rw [List.map_cons, noticesFrom_fate_cons, ih, List.zipIdx_cons]
    cases hnotice : p.notice? defines n with
    | none => simp [hnotice]
    | some notice => simp [hnotice]

end Placed

/-! ### One pass over blocks -/

private theorem condition?_cases {line : List Char} {condition : String × Bool}
    (h : condition? line = some condition) :
    keyword? line = some "#IF_DEFINED" ∨ keyword? line = some "#IF_NOT_DEFINED" := by
  unfold condition? at h
  obtain ⟨⟨keyword, argument⟩, hheading, hopens⟩ := Option.bind_eq_some_iff.mp h
  have hkeyword : keyword? line = some keyword := by rw [keyword?, hheading]; rfl
  rw [hkeyword]
  dsimp only [Heading.condition?] at hopens
  split at hopens
  next hdefined => exact Or.inl (congrArg some hdefined)
  split at hopens
  next hnotDefined => exact Or.inr (congrArg some hnotDefined)
  next => cases hopens

theorem condition?_eq_none {line : List Char} (hdefined : keyword? line ≠ some "#IF_DEFINED")
    (hnotDefined : keyword? line ≠ some "#IF_NOT_DEFINED") : condition? line = none := by
  cases h : condition? line with
  | none => rfl
  | some condition =>
    rcases condition?_cases h with hkeyword | hkeyword
    · exact absurd hkeyword hdefined
    · exact absurd hkeyword hnotDefined

section Steps

variable {defines : List String} {n : Nat} {conditions : List Bool} {line : List Char}

private theorem step_condition {condition : String × Bool} (h : condition? line = some condition) :
    Pass.step defines ⟨n, false, conditions⟩ line =
      (.dropped, ⟨n + 1, false, truth defines condition :: conditions⟩) := by
  have hbegin : keyword? line ≠ some "#HELP_BEGIN" := by
    rcases condition?_cases h with hkeyword | hkeyword <;> simp [hkeyword]
  unfold keyword? at hbegin
  unfold condition? at h
  simp [Pass.step, hbegin, h, truth]

private theorem step_endif (h : keyword? line = some "#ENDIF") :
    Pass.step defines ⟨n, false, conditions⟩ line =
      (.dropped, ⟨n + 1, false, conditions.tail⟩) := by
  have hnone : condition? line = none := condition?_eq_none (by simp [h]) (by simp [h])
  unfold condition? at hnone
  unfold keyword? at h
  simp [Pass.step, h, hnone]

private theorem step_helpBegin (h : keyword? line = some "#HELP_BEGIN") :
    Pass.step defines ⟨n, false, conditions⟩ line =
      (.dropped, ⟨n + 1, conditions.all id, conditions⟩) := by
  have hnone : condition? line = none := condition?_eq_none (by simp [h]) (by simp [h])
  unfold condition? at hnone
  unfold keyword? at h
  by_cases hactive : conditions.all id = true
  · simp [Pass.step, h, hactive]
  · simp [Pass.step, h, hnone, hactive]

theorem step_other (hbegin : keyword? line ≠ some "#HELP_BEGIN")
    (hnone : condition? line = none) (hend : keyword? line ≠ some "#ENDIF") :
    Pass.step defines ⟨n, false, conditions⟩ line =
      (if conditions.all id then
          (((keyword? line).filter informational.contains).map Fate.noted).getD .kept
        else .dropped,
        ⟨n + 1, false, conditions⟩) := by
  unfold condition? at hnone
  unfold keyword? at hbegin hend ⊢
  by_cases hactive : conditions.all id = true
  · cases hkeyword : (Heading.ofLine? line).map Heading.keyword with
    | none => simp [Pass.step, hnone, hkeyword, hactive]
    | some keyword =>
      rw [hkeyword] at hbegin hend
      by_cases hnoted : keyword ∈ informational
      · simp [Pass.step, hbegin, hnone, hend, hkeyword, hactive, Option.filter, hnoted]
      · simp [Pass.step, hbegin, hnone, hend, hkeyword, hactive, Option.filter, hnoted]
  · simp [Pass.step, hbegin, hnone, hend, hactive]

private theorem step_helpLine (h : HelpLine) :
    Pass.step defines ⟨n, conditions.all id, conditions⟩ h.line =
      (if conditions.all id then .help else .dropped,
        ⟨n + 1, conditions.all id, conditions⟩) := by
  obtain ⟨line, hheads⟩ := h
  simp only [conditionMarks, List.forall_mem_cons] at hheads
  obtain ⟨hhelpEnd, hdefined, hnotDefined, hend, -⟩ := hheads
  by_cases hactive : conditions.all id = true
  · unfold keyword? at hhelpEnd
    simp [Pass.step, hhelpEnd, hactive]
  · rw [if_neg hactive]
    rw [Bool.not_eq_true] at hactive
    rw [hactive]
    by_cases hbegin : keyword? line = some "#HELP_BEGIN"
    · rw [step_helpBegin hbegin, hactive]
    · rw [step_other hbegin (condition?_eq_none hdefined hnotDefined) hend, hactive]
      rfl

private theorem step_helpEnd (h : keyword? line = some "#HELP_END") (hopen : Bool)
    (hactive : hopen = conditions.all id) :
    Pass.step defines ⟨n, hopen, conditions⟩ line = (.dropped, ⟨n + 1, false, conditions⟩) := by
  cases hopen with
  | true =>
    unfold keyword? at h
    simp [Pass.step, h]
  | false =>
    rw [step_other (by simp [h]) (condition?_eq_none (by simp [h]) (by simp [h])) (by simp [h]),
      ← hactive]
    rfl

theorem fates_cons (defines : List String) (pass : Pass) (line : List Char)
    (rest : List (List Char)) :
    fates defines pass (line :: rest) =
      (pass.step defines line).1 :: fates defines (pass.step defines line).2 rest :=
  rfl

private theorem fates_helpLines (body : List HelpLine) (rest : List (List Char)) :
    fates defines ⟨n, conditions.all id, conditions⟩ (body.map LineBesides.line ++ rest) =
      body.map (fun _ => if conditions.all id then .help else .dropped) ++
        fates defines ⟨n + body.length, conditions.all id, conditions⟩ rest := by
  induction body generalizing n with
  | nil => rfl
  | cons line body ih =>
    rw [List.map_cons, List.cons_append, fates_cons, step_helpLine, ih, List.map_cons,
      List.cons_append, List.length_cons, Nat.add_right_comm, Nat.add_assoc]

end Steps

private theorem isActive_iff {defines : List String} {p : Placed} :
    p.IsActive defines ↔ (p.around.map (truth defines)).all id = true := by
  simp [Placed.IsActive, List.all_map, truth_iff]

private theorem fate_mark (defines : List String) (line : List Char)
    (around : List (String × Bool)) :
    Placed.fate defines ⟨.mark, line, around⟩ = .dropped := by
  simp [Placed.fate, Placed.IsKept, Placed.IsHelp]

private theorem fate_help (defines : List String) (line : List Char)
    (around : List (String × Bool)) :
    Placed.fate defines ⟨.help, line, around⟩ =
      if (around.map (truth defines)).all id then .help else .dropped := by
  simp only [Placed.fate, Placed.IsKept, Placed.IsHelp, isActive_iff, true_and, reduceCtorEq,
    false_and, if_false]

private theorem fate_plain (defines : List String) (line : List Char)
    (around : List (String × Bool)) :
    Placed.fate defines ⟨.plain, line, around⟩ =
      if (around.map (truth defines)).all id then
        (((keyword? line).filter informational.contains).map Fate.noted).getD .kept
      else .dropped := by
  simp only [Placed.fate, Placed.IsKept, Placed.IsHelp, isActive_iff, true_and, reduceCtorEq,
    false_and, if_false]

/-- One pass over the lines of blocks does with each of them what its place says, and goes on behind
them with the conditions it came with. -/
private theorem fates_lines (defines : List String) (blocks : Blocks)
    (around : List (String × Bool))
    (n : Nat) (rest : List (List Char)) :
    fates defines ⟨n, false, around.map (truth defines)⟩ (blocks.lines ++ rest) =
      (blocks.placed around).map (Placed.fate defines) ++
        fates defines ⟨n + blocks.lines.length, false, around.map (truth defines)⟩ rest := by
  induction blocks generalizing around n rest with
  | nil => rfl
  | plain line blocks ih =>
    obtain ⟨line, hheads⟩ := line
    simp only [conditionMarks, List.forall_mem_cons] at hheads
    obtain ⟨hbegin, hdefined, hnotDefined, hend, -⟩ := hheads
    simp only [Blocks.lines, Blocks.placed, List.cons_append, List.map_cons, List.length_cons]
    rw [fates_cons, step_other hbegin (condition?_eq_none hdefined hnotDefined) hend, ih,
      fate_plain, Nat.add_right_comm n, Nat.add_assoc]
  | conditional opening body closing blocks ihBody ih =>
    simp only [Blocks.lines, Blocks.placed, List.cons_append, List.append_assoc, List.map_cons,
      List.map_append, List.length_cons, List.length_append]
    rw [fates_cons, step_condition opening.opens]
    -- Inside, the condition of the block is one more around the lines.
    have hbody := ihBody (opening.condition :: around) (n + 1)
      (closing.line :: (blocks.lines ++ rest))
    rw [List.map_cons] at hbody
    have hcount : n + 1 + body.lines.length + 1 + blocks.lines.length =
        n + (body.lines.length + (blocks.lines.length + 1) + 1) := by omega
    rw [hbody, fates_cons, step_endif closing.heads, List.tail_cons, ih, fate_mark, fate_mark,
      hcount]
  | help opening body closing blocks ih =>
    simp only [Blocks.lines, Blocks.placed, List.cons_append, List.append_assoc, List.map_cons,
      List.map_append, List.length_cons, List.length_append]
    have hcount : n + 1 + body.length + 1 + blocks.lines.length =
        n + (body.length + (blocks.lines.length + 1) + 1) := by omega
    rw [fates_cons, step_helpBegin opening.heads, fates_helpLines, fates_cons,
      step_helpEnd closing.heads _ rfl, ih, fate_mark, fate_mark, hcount, List.map_map,
      List.length_map]
    simp only [Function.comp_def, fate_help]

private theorem fates_blocks (defines : List String) (blocks : Blocks) :
    fates defines ⟨0, false, []⟩ blocks.lines =
      (blocks.placed []).map (Placed.fate defines) := by
  have h := fates_lines defines blocks [] 0 []
  rw [List.append_nil] at h
  rw [← List.append_nil ((blocks.placed []).map (Placed.fate defines))]
  exact h

/--
A text whose lines are those of nested blocks means what the blocks say for the names that count as
defined. In the place of each line stands the line itself, if it is a plain one and all conditions
around it hold, and else an empty line. The help text is made up of the lines of those help blocks
all conditions around which hold, and the notices are those on the kept lines with an informational
directive, by the numbers of the lines counted from one.
-/
theorem conditions_have_block_meaning (text : String) (given : List String) (blocks : Blocks)
    (h : Text.lines text.toList = blocks.lines) :
    let resolved := resolve text given
    let placed := blocks.placed []
    placed.map Placed.line = Text.lines text.toList ∧
      resolved.text =
        "\n".intercalate (placed.map fun p =>
          if p.IsKept resolved.defines then String.ofList p.line else "") ++
          (if text.toList.getLast? = some '\n' then "\n" else "") ∧
      resolved.help =
        "\n".intercalate ((placed.filter (·.IsHelp resolved.defines)).map fun p =>
          String.ofList p.line) ∧
      resolved.notices =
        (placed.zipIdx 1).filterMap fun (p, number) =>
          if p.IsKept resolved.defines then
            ((keyword? p.line).filter informational.contains).map fun keyword =>
              ⟨number, notedMessage keyword⟩
          else none := by
  intro resolved placed
  have hlines : placed.map Placed.line = Text.lines text.toList :=
    (Blocks.lines_placed [] blocks).trans h.symm
  let defines := resolveDefines (Text.lines text.toList) given
  have hdefines : resolved.defines = defines := rfl
  have hmarks : fates defines ⟨0, false, []⟩ (Text.lines text.toList) =
      placed.map (Placed.fate defines) := by
    rw [h]
    exact fates_blocks defines blocks
  have hzip : (Text.lines text.toList).zip (fates defines ⟨0, false, []⟩
      (Text.lines text.toList)) = placed.map fun p => (p.line, p.fate defines) := by
    rw [hmarks, ← hlines, List.zip_map']
  rw [hdefines]
  refine ⟨hlines, ?_, ?_, ?_⟩
  · have hkept (p : Placed) : String.ofList ((p.fate defines).text p.line) =
        if p.IsKept defines then String.ofList p.line else "" := by
      rw [Placed.text_fate]
      split <;> rfl
    change ite _ ("\n".intercalate _ ++ "\n") ("\n".intercalate _) = _
    rw [hzip, List.map_map]
    simp only [Function.comp_def, hkept]
    split
    · rfl
    · rw [String.append_empty]
  · change "\n".intercalate _ = _
    rw [hzip, List.filterMap_map, ← List.filterMap_eq_map, List.filterMap_filter]
    simp only [Function.comp_def, Placed.fate_eq_help, decide_eq_true_eq]
  · change noticesFrom 1 _ = _
    rw [hmarks, Placed.noticesFrom_map_fate]
    rfl

/-- A condition that holds, and in it help, a condition that fails and a directive for information.
-/
theorem nested_conditions_have_block_meaning :
    let text :=
      "#IF_DEFINED A\n#HELP_BEGIN\nh\n#HELP_END\n#IF_NOT_DEFINED A\nx\n#ENDIF\n#INPUT_SHIFT\n#ENDIF"
    let resolved := resolve text ["a"]
    ∃ blocks : Blocks, Text.lines text.toList = blocks.lines ∧
      resolved.text = "\n\n\n\n\n\n\n#INPUT_SHIFT\n" ∧ resolved.help = "h" ∧
      resolved.notices = [⟨8, "#INPUT_SHIFT noted (no effect in simulation)"⟩] := by
  intro text resolved
  let failing : Blocks → Blocks :=
    .conditional ⟨"#IF_NOT_DEFINED A".toList, ("A", false), by decide +kernel⟩
      (.plain ⟨['x'], by decide +kernel⟩ .nil) ⟨"#ENDIF".toList, by decide +kernel⟩
  let help : Blocks → Blocks :=
    .help ⟨"#HELP_BEGIN".toList, by decide +kernel⟩ [⟨['h'], by decide +kernel⟩]
      ⟨"#HELP_END".toList, by decide +kernel⟩
  let blocks : Blocks :=
    .conditional ⟨"#IF_DEFINED A".toList, ("A", true), by decide +kernel⟩
      (help (failing (.plain ⟨"#INPUT_SHIFT".toList, by decide +kernel⟩ .nil)))
      ⟨"#ENDIF".toList, by decide +kernel⟩ .nil
  have hlines : Text.lines text.toList = blocks.lines := by decide +kernel
  have hdefines : resolved.defines = ["A", "SERIES3", "SERIES4", "SIMULATION"] := by
    decide +kernel
  obtain ⟨-, htext, hhelp, hnotices⟩ := conditions_have_block_meaning text ["a"] blocks hlines
  rw [hdefines] at htext hhelp hnotices
  refine ⟨blocks, hlines, htext.trans ?_, hhelp.trans ?_, hnotices.trans ?_⟩
  · decide +kernel
  · decide +kernel
  · decide +kernel

end ControlLogic.Source
