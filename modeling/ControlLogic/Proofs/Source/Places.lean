import Mathlib.Data.List.Forall2
import Mathlib.Data.List.Infix
import ControlLogic.Proofs.Token.Lookup
import ControlLogic.Proofs.Token.Tiling
import ControlLogic.Source.Conditional

/-!
Places survive the resolving of conditions. Line by line, a resolved text has the beginning of what
the text has there, and just as many line feeds, so that a token of the one stands at its line and
column of the other.
-/

set_option autoImplicit false
set_option relaxedAutoImplicit false

namespace ControlLogic

namespace Text

def endsLine (cs : List Char) : Bool :=
  cs.getLast?.all (· == '\n')

def openLine (cs : List Char) : List (List Char) :=
  if endsLine cs then [[]] else []

private theorem openLine_cons {rest : List Char} (h : rest ≠ []) (c : Char) :
    openLine (c :: rest) = openLine rest := by
  obtain ⟨d, rest, rfl⟩ := List.exists_cons_of_ne_nil h
  unfold openLine endsLine
  rw [List.getLast?_cons_cons]

private theorem openLine_newline (rest : List Char) : openLine ('\n' :: rest) = openLine rest := by
  cases rest with
  | nil => rfl
  | cons c rest => exact openLine_cons (by simp) '\n'

private theorem splitOn_newline_cons (rest : List Char) :
    ('\n' :: rest).splitOn '\n' = [] :: rest.splitOn '\n' := by
  simp [List.splitOn_eq_splitOnP, List.splitOnP_cons_eq_if_modifyHead]

private theorem splitOn_cons {c : Char} (h : c ≠ '\n') (rest : List Char) :
    (c :: rest).splitOn '\n' = (rest.splitOn '\n').modifyHead (c :: ·) := by
  simp [List.splitOn_eq_splitOnP, List.splitOnP_cons_eq_if_modifyHead, h]

private theorem splitOn_append_newline (before rest : List Char) :
    (before ++ '\n' :: rest).splitOn '\n' = before.splitOn '\n' ++ rest.splitOn '\n' := by
  simp only [List.splitOn_eq_splitOnP]
  exact List.splitOnP_append_cons before rest (by simp)

private theorem length_splitOn (cs : List Char) : (cs.splitOn '\n').length = cs.count '\n' + 1 := by
  induction cs with
  | nil => rfl
  | cons c rest ih =>
    by_cases h : c = '\n'
    · subst h
      simp [splitOn_newline_cons, ih]
    · simp [splitOn_cons h, h, ih]

private theorem getElem?_splitOn_append (before rest : List Char) :
    ∃ line, ((before ++ rest).splitOn '\n')[before.count '\n']? = some line ∧
      ∃ first, (rest.splitOn '\n').head? = some first ∧
        line.drop (before.reverse.takeWhile (· != '\n')).length = first := by
  induction before using List.reverseRecOn generalizing rest with
  | nil =>
    obtain ⟨first, others, hsplit⟩ := List.exists_cons_of_ne_nil (List.splitOn_ne_nil '\n' rest)
    refine ⟨first, ?_, first, ?_, rfl⟩
    · simp [hsplit]
    · simp [hsplit]
  | append_singleton before c ih =>
    by_cases h : c = '\n'
    · subst h
      obtain ⟨first, others, hsplit⟩ := List.exists_cons_of_ne_nil (List.splitOn_ne_nil '\n' rest)
      refine ⟨first, ?_, first, by simp [hsplit], by simp⟩
      rw [List.append_assoc, List.singleton_append, splitOn_append_newline,
        List.getElem?_append_right (by simp [length_splitOn]), length_splitOn, hsplit]
      simp
    · obtain ⟨line, hline, first, hfirst, hdrop⟩ := ih (c :: rest)
      rw [splitOn_cons h] at hfirst
      obtain ⟨first', others, hsplit⟩ :=
        List.exists_cons_of_ne_nil (List.splitOn_ne_nil '\n' rest)
      simp only [hsplit, List.modifyHead_cons, List.head?_cons, Option.some.injEq] at hfirst
      subst hfirst
      refine ⟨line, ?_, first', by simp [hsplit], ?_⟩
      · rw [List.append_assoc, List.singleton_append]
        simpa [h] using hline
      · simp only [List.reverse_append, List.reverse_singleton, List.singleton_append,
          List.takeWhile_cons, bne_iff_ne, ne_eq, h, not_false_eq_true, if_true,
          List.length_cons]
        rw [← List.drop_drop, hdrop]
        rfl

private theorem prefix_of_head?_splitOn {cs rest first : List Char} (hcs : '\n' ∉ cs)
    (h : ((cs ++ rest).splitOn '\n').head? = some first) : cs <+: first := by
  induction cs generalizing first with
  | nil => exact List.nil_prefix
  | cons c cs ih =>
    rw [List.mem_cons, not_or] at hcs
    obtain ⟨first', others, hsplit⟩ :=
      List.exists_cons_of_ne_nil (List.splitOn_ne_nil '\n' (cs ++ rest))
    rw [List.cons_append, splitOn_cons (Ne.symm hcs.1), hsplit] at h
    cases h
    exact List.cons_prefix_cons.mpr ⟨rfl, ih hcs.2 (by rw [hsplit]; rfl)⟩

private theorem prefix_at_behind (before rest : List Char) {cs : List Char} (hcs : '\n' ∉ cs) :
    ∃ line, ((before ++ (cs ++ rest)).splitOn '\n')[(Position.behind before).line - 1]? =
      some line ∧ cs <+: line.drop ((Position.behind before).column - 1) := by
  obtain ⟨line, hline, first, hfirst, hdrop⟩ := getElem?_splitOn_append before (cs ++ rest)
  refine ⟨line, ?_, ?_⟩
  · simpa [Position.behind] using hline
  · have hcolumn : (Position.behind before).column - 1 =
        (before.reverse.takeWhile (· != '\n')).length := by simp [Position.behind]
    rw [hcolumn, hdrop]
    exact prefix_of_head?_splitOn hcs hfirst

private theorem lines_ne_nil {cs : List Char} (h : cs ≠ []) : lines cs ≠ [] := by
  fun_cases lines cs <;> simp_all

private theorem newline_notMem_of_mem_lines {cs line : List Char} (h : line ∈ lines cs) :
    '\n' ∉ line := by
  fun_induction lines cs generalizing line with
  | case1 => simp at h
  | case2 rest ih =>
    rcases List.mem_cons.mp h with rfl | h
    · simp
    · exact ih h
  | case3 rest ih =>
    rcases List.mem_cons.mp h with rfl | h
    · simp
    · exact ih h
  | case4 c rest hnewline hreturn hrest ih =>
    rcases List.mem_singleton.mp h
    simpa [eq_comm] using hnewline
  | case5 c rest hnewline hreturn line' others hrest ih =>
    rcases List.mem_cons.mp h with rfl | h
    · simpa [eq_comm] using ⟨hnewline, ih (hrest ▸ List.mem_cons_self)⟩
    · exact ih (hrest ▸ List.mem_cons_of_mem _ h)

/-- The lines of a text are the beginnings of what stands between its line feeds: a carriage return
at the end of a line is left out. -/
private theorem forall₂_lines {cs : List Char} {kept : List (List Char)}
    (h : List.Forall₂ (· <+: ·) kept (lines cs)) :
    List.Forall₂ (· <+: ·) (kept ++ openLine cs) (cs.splitOn '\n') := by
  fun_induction lines cs generalizing kept with
  | case1 =>
    cases h
    exact .cons (List.prefix_refl []) .nil
  | case2 rest ih =>
    cases h with
    | cons hfirst hothers =>
      rw [splitOn_newline_cons, openLine_newline]
      exact .cons hfirst (ih hothers)
  | case3 rest ih =>
    cases h with
    | cons hfirst hothers =>
      rw [splitOn_cons (by decide), splitOn_newline_cons, openLine_cons (by simp),
        openLine_newline]
      exact .cons (hfirst.trans List.nil_prefix) (ih hothers)
  | case4 c rest hnewline hreturn hrest ih =>
    obtain rfl : rest = [] := by_contra fun hne => lines_ne_nil hne hrest
    have hc : c ≠ '\n' := hnewline
    have hopen : openLine [c] = [] := by simp [openLine, endsLine, hc]
    have hsplit : [c].splitOn '\n' = [[c]] := by simp [splitOn_cons hc]
    rw [hopen, hsplit, List.append_nil]
    exact h
  | case5 c rest hnewline hreturn line others hrest ih =>
    have hne : rest ≠ [] := by
      rintro rfl
      cases hrest
    rw [splitOn_cons hnewline, openLine_cons hne]
    rw [hrest] at ih
    obtain ⟨first', others', hsplit⟩ := List.exists_cons_of_ne_nil (List.splitOn_ne_nil '\n' rest)
    rw [hsplit] at ih ⊢
    cases h with
    | @cons first _ kept _ hfirst hothers =>
      -- What is kept of the first line is nothing, or begins with its first character.
      rcases List.prefix_cons_iff.mp hfirst with rfl | ⟨tail, rfl, htail⟩
      · cases ih (.cons List.nil_prefix hothers) with
        | cons _ hlater => exact .cons List.nil_prefix hlater
      · cases ih (.cons htail hothers) with
        | cons hhead hlater => exact .cons (List.cons_prefix_cons.mpr ⟨rfl, hhead⟩) hlater

end Text

namespace Source

private theorem Fate.text_starts (fate : Fate) (line : List Char) : fate.text line <+: line := by
  cases fate with
  | dropped => exact List.nil_prefix
  | help => exact List.nil_prefix
  | kept => exact List.prefix_refl line
  | noted keyword => exact List.prefix_refl line

def keptLines (defines : List String) (pass : Pass) (lines : List (List Char)) :
    List (List Char) :=
  (lines.zip (fates defines pass lines)).map fun (line, fate) => fate.text line

private theorem forall₂_keptLines (defines : List String) (pass : Pass) (lines : List (List Char)) :
    List.Forall₂ (· <+: ·) (keptLines defines pass lines) lines := by
  induction lines generalizing pass with
  | nil => exact .nil
  | cons line lines ih => exact .cons (Fate.text_starts _ line) (ih _)

private theorem newline_notMem_of_mem_keptLines {defines : List String} {pass : Pass}
    {cs kept : List Char}
    (h : kept ∈ keptLines defines pass (Text.lines cs)) : '\n' ∉ kept := by
  obtain ⟨⟨line, fate⟩, hmem, rfl⟩ := List.mem_map.mp h
  have hline := Text.newline_notMem_of_mem_lines (List.of_mem_zip hmem).1
  exact fun hnewline => hline ((fate.text_starts line).subset hnewline)

theorem splitOn_resolve (text : String) (given : List String) :
    let lines := Text.lines text.toList
    (resolve text given).text.toList.splitOn '\n' =
      keptLines (resolveDefines lines given) ⟨0, false, []⟩ lines ++
        Text.openLine text.toList := by
  intro lines
  have hbody : (resolve text given).text.toList =
      if text.toList.getLast? = some '\n' then
        ['\n'].intercalate (keptLines (resolveDefines lines given) ⟨0, false, []⟩ lines) ++ ['\n']
      else ['\n'].intercalate (keptLines (resolveDefines lines given) ⟨0, false, []⟩ lines) := by
    unfold resolve keptLines
    dsimp only
    split
    · simp [String.toList_intercalate, Function.comp_def, lines]
    · simp [String.toList_intercalate, Function.comp_def, lines]
  have hlength := (forall₂_keptLines (resolveDefines lines given) ⟨0, false, []⟩ lines).length_eq
  have hnewline {kept : List Char}
      (h : kept ∈ keptLines (resolveDefines lines given) ⟨0, false, []⟩ lines) : '\n' ∉ kept :=
    newline_notMem_of_mem_keptLines h
  rw [hbody]
  generalize keptLines (resolveDefines lines given) ⟨0, false, []⟩ lines = kept at hlength hnewline
  cases hlast : text.toList.getLast? with
  | none =>
    have hempty : text.toList = [] := List.getLast?_eq_none_iff.mp hlast
    have hkept : kept = [] := by simpa [lines, hempty, Text.lines] using hlength
    simp [hkept, hempty, Text.openLine, Text.endsLine]
  | some c =>
    have hkept : kept ≠ [] := by
      rintro rfl
      have hne : text.toList ≠ [] := by
        intro hempty
        simp [hempty] at hlast
      exact Text.lines_ne_nil hne (List.length_eq_zero_iff.mp hlength.symm)
    have hjoined : (['\n'].intercalate kept).splitOn '\n' = kept :=
      List.splitOn_intercalate '\n' (fun _ => hnewline) hkept
    by_cases hc : c = '\n'
    · rw [if_pos (by rw [hc]), Text.splitOn_append_newline, hjoined]
      simp [Text.openLine, Text.endsLine, hlast, hc]
    · rw [if_neg (by simpa using hc), hjoined]
      simp [Text.openLine, Text.endsLine, hlast, hc]

private theorem forall₂_splitOn_resolve (text : String) (given : List String) :
    List.Forall₂ (· <+: ·) ((resolve text given).text.toList.splitOn '\n')
      (text.toList.splitOn '\n') := by
  rw [splitOn_resolve]
  exact Text.forall₂_lines (forall₂_keptLines _ _ _)

end Source

namespace Token

private theorem exists_behind_of_mem_scan {text : String} {t : Token} (h : t ∈ scan text) :
    ∃ before rest, text.toList = before ++ (t.text.toList ++ rest) ∧ t.pos = .behind before := by
  obtain ⟨tiles, last, hscan, htiling⟩ := scanFrom_tiling [] [] text.toList (by simp)
  have hmem : t ∈ tiles.map Tile.token ++ [⟨.endOfText, "", .behind text.toList⟩] := hscan ▸ h
  rcases List.mem_append.mp hmem with htile | hend
  · obtain ⟨tile, hpiece, rfl⟩ := List.mem_map.mp htile
    obtain ⟨earlier, later, rfl⟩ := List.append_of_mem hpiece
    refine ⟨earlier.flatMap Tile.chars ++ tile.gap, later.flatMap Tile.chars ++ last, ?_, ?_⟩
    · have hwhole := htiling.whole
      simpa [Tile.chars] using hwhole
    · simpa using htiling.places earlier tile later rfl
  · rw [List.mem_singleton.mp hend]
    exact ⟨text.toList, [], by simp, rfl⟩

end Token

/--
Whatever the text and the names that are defined: a token of the resolved text that stands on one
line stands at the same place of the text, so that on the token's line, from its column on, the text
has the characters of the token. And resolving leaves the number of line feeds as it is.
-/
theorem tokens_keep_places (text : String) (given : List String) :
    (∀ t ∈ Token.scan (Source.resolve text given).text, '\n' ∉ t.text.toList →
      1 ≤ t.pos.line ∧ 1 ≤ t.pos.column ∧
      ∃ line, (text.toList.splitOn '\n')[t.pos.line - 1]? = some line ∧
        t.text.toList <+: line.drop (t.pos.column - 1)) ∧
    (Source.resolve text given).text.toList.count '\n' = text.toList.count '\n' := by
  have hlines := Source.forall₂_splitOn_resolve text given
  refine ⟨fun t ht hline => ?_, ?_⟩
  · obtain ⟨before, rest, hsplit, hpos⟩ := Token.exists_behind_of_mem_scan ht
    obtain ⟨kept, hkept, hfound⟩ := Text.prefix_at_behind before rest hline
    rw [← hsplit, ← hpos] at hkept
    rw [← hpos] at hfound
    refine ⟨hpos ▸ Nat.le_add_right 1 _, hpos ▸ Nat.le_add_right 1 _, ?_⟩
    obtain ⟨hkeptLine, hget⟩ := List.getElem?_eq_some_iff.mp hkept
    have horiginal := hlines.length_eq ▸ hkeptLine
    have hstarts := hlines.get hkeptLine horiginal
    rw [List.get_eq_getElem, hget] at hstarts
    exact ⟨_, List.getElem?_eq_getElem horiginal, hfound.trans (hstarts.drop _)⟩
  · have hlength := hlines.length_eq
    rw [Text.length_splitOn, Text.length_splitOn] at hlength
    exact Nat.succ.inj hlength

/-- A name behind a condition that fails, and behind a carriage return, keeps its place. -/
theorem name_behind_condition_keeps_place :
    let text := "#IF_DEFINED A\nx\n#ENDIF\r\n y"
    let name : Token := ⟨.identifier, "y", ⟨4, 2⟩⟩
    name ∈ Token.scan (Source.resolve text []).text ∧ '\n' ∉ name.text.toList ∧
      ∃ line, (text.toList.splitOn '\n')[3]? = some line ∧ name.text.toList <+: line.drop 1 := by
  intro text name
  have hmem : name ∈ Token.scan (Source.resolve text []).text := by
    rw [Token.scan_eq_map_lookedUp]
    decide +kernel
  have hline : '\n' ∉ name.text.toList := by decide
  exact ⟨hmem, hline, ((tokens_keep_places text []).1 name hmem hline).2.2⟩

end ControlLogic
