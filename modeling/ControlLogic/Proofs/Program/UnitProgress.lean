import Mathlib.Data.List.TakeDrop
import ControlLogic.Program.Parser.Unit
import ControlLogic.Proofs.Program.StmtProgress
import ControlLogic.Proofs.Token.Respacing

/-!
Reading a program ends, unless an opening brace stands where a field of a structure should. There a
round of the field loop notes a refusal and reads nothing, so that the loop would go on for ever.
-/

set_option autoImplicit false
set_option relaxedAutoImplicit false

namespace ControlLogic

namespace Parser

variable {α : Type} {n k fuel fuel' : Nat} {s s' : ParserState}

/-! ### Fields of a structure -/

/-- A declaration of fields, or the refusal of what stands in its place. -/
def fieldItem (name : String) (fuel : Nat) : Parser (List VariableDecl) := do
  if ← startsVariableDecl then variableDecls fuel
  else fail (.expectedField name (← current).text)

def fieldRound (name : String) (fuel : Nat) : Parser (Option (List VariableDecl)) :=
  recovering (fieldItem name fuel)

private theorem fields_succ (name : String) (allFuel fuel : Nat) :
    fields name allFuel (fuel + 1) = (do
      if (← check "\x7d") || (← atEnd) then
        return []
      else
        let before := (← get).read
        let decls ← fieldRound name allFuel
        if (← get).read = before then stuck
        else return decls.getD [] ++ (← fields name allFuel fuel)) :=
  rfl

def fieldRefusal (name : String) (s : ParserState) : ParseError :=
  ⟨.expectedField name s.current.text, s.current.pos⟩

private theorem fieldItem_of_declares {name : String} (h : declares s = true) :
    fieldItem name fuel s = variableDecls fuel s := by
  rw [fieldItem, bind_ok (startsVariableDecl_ok s), h]
  rfl

private theorem fieldItem_of_not_declares {name : String} (h : declares s = false) :
    fieldItem name fuel s = .error (.error (fieldRefusal name s)) s := by
  rw [fieldItem, bind_ok (startsVariableDecl_ok s), h]
  rfl

private theorem not_declares_of_brace (h : isMark "\x7b" s.current = true) :
    declares s = false := by
  obtain ⟨hmark, htext⟩ := (Bool.and_eq_true _ _).mp h
  rw [beq_iff_eq] at htext
  have hword : isStorageWord s.current = false := by
    rw [isStorageWord, htext]
    decide +kernel
  have hkind : s.current.kind = .punctuation ∨ s.current.kind = .operator := by
    simpa [Token.isMark] using hmark
  rw [declares, hword]
  rcases hkind with hkind | hkind <;> simp [hkind]

private theorem closes_of_brace (h : isMark "\x7b" s.current = true) : closes s = false := by
  have htext := beq_iff_eq.mp ((Bool.and_eq_true _ _).mp h).2
  have hclose : isMark "\x7d" s.current = false := by
    rw [isMark, htext]
    simp
  have hrest : s.rest.isEmpty = false := by
    simpa using isMark_ne_nil h
  rw [closes, hclose, hrest]
  rfl

private theorem skipItem_of_brace {ts : List Token} {t : Token} {count : Nat}
    (h : isMark "\x7b" t = true) : skipItem (t :: ts) count = (t :: ts, count) := by
  have htext := beq_iff_eq.mp ((Bool.and_eq_true _ _).mp h).2
  have hsemicolon : isMark ";" t = false := by
    rw [isMark, htext]
    simp
  rw [skipItem, hsemicolon, h]
  simp

private theorem length_skipItem_lt {ts : List Token} {t : Token} {count : Nat}
    (hopen : isMark "\x7b" t = false) (hclose : isMark "\x7d" t = false) :
    (skipItem (t :: ts) count).1.length < (t :: ts).length := by
  rw [skipItem, hopen, hclose]
  split
  · exact Nat.lt_succ_self _
  · exact Nat.lt_succ_of_le (skipItem_onward ts (count + 1)).1.length_le

private theorem fieldRound_brace (name : String) (fuel : Nat) (h : isMark "\x7b" s.current = true) :
    fieldRound name fuel s =
      .ok none { s with errors := s.errors ++ [fieldRefusal name s] } := by
  obtain ⟨t, ts, hrest⟩ := List.exists_cons_of_ne_nil (isMark_ne_nil h)
  have hcurrent : s.current = t := by rw [ParserState.current, hrest]; rfl
  have hskip : skipItem (t :: ts) s.read = (t :: ts, s.read) := skipItem_of_brace (hcurrent ▸ h)
  have hitem : fieldItem name fuel s = .error (.error (fieldRefusal name s)) s :=
    fieldItem_of_not_declares (not_declares_of_brace h)
  rw [fieldRound, recovering_refused hitem, behind, hrest, hskip, ← hrest]

private theorem advance_behind_storageWords (hrest : s.rest ≠ []) :
    ∃ t s', (skipStorageWords >>= fun _ => advance) s = .ok t s' ∧ s.Onward s' ∧
      s'.rest.length < s.rest.length := by
  obtain ⟨_, s₁, hskip, -, hon, -⟩ | ⟨e, s₁, hskip, -⟩ :=
    (goes_skipStorageWords (n := s.rest.length + 1) s (Nat.lt_succ_self _)).cases
  · by_cases hnil : s₁.rest = []
    · refine ⟨_, s₁, (bind_ok hskip).trans (advance_nil hnil), hon, ?_⟩
      rw [hnil]
      exact List.length_pos_iff.mpr hrest
    · obtain ⟨t, ts, hcons⟩ := List.exists_cons_of_ne_nil hnil
      refine ⟨t, _, (bind_ok hskip).trans (advance_cons hcons), hon.trans (onward_tail hcons), ?_⟩
      have hlength := hon.length_le
      rw [hcons, List.length_cons] at hlength
      exact hlength
  · cases hskip

private theorem fieldRound_moves (name : String) (hs : s.rest.length < fuel) (hfuel : fuel ≤ fuel')
    (hopen : closes s = false) (hbrace : isMark "\x7b" s.current = false) :
    ∃ decls s', fieldRound name fuel s = .ok decls s' ∧ fieldRound name fuel' s = .ok decls s' ∧
      s.Onward s' ∧ s'.rest.length < s.rest.length := by
  have hrest := rest_ne_nil_of_open hopen
  cases hdeclares : declares s with
  | true =>
    obtain ⟨t, s₁, hhead, hon, hless⟩ := advance_behind_storageWords hrest
    have hitem : ∀ fuel, fieldItem name fuel s = declaredBehind fuel t s₁ := by
      intro fuel
      rw [fieldItem_of_declares hdeclares, variableDecls_eq, bind_ok hhead]
    obtain ⟨decls, s₂, hp, hq, hon', _⟩ | ⟨e, s₂, hp, hq, hon'⟩ :=
      (goes_declaredBehind hfuel t s₁ (by omega)).cases
    · have hlength := hon'.length_le
      exact ⟨some decls, s₂, recovering_ok ((hitem fuel).trans hp),
        recovering_ok ((hitem fuel').trans hq), hon.trans hon', by omega⟩
    · have hlength := (hon'.trans (onward_behind e s₂)).length_le
      exact ⟨none, behind e s₂, recovering_refused ((hitem fuel).trans hp),
        recovering_refused ((hitem fuel').trans hq), hon.trans (hon'.trans (onward_behind e s₂)),
        by omega⟩
  | false =>
    refine ⟨none, behind (fieldRefusal name s) s,
      recovering_refused (fieldItem_of_not_declares hdeclares),
      recovering_refused (fieldItem_of_not_declares hdeclares), onward_behind _ s, ?_⟩
    obtain ⟨t, ts, hcons⟩ := List.exists_cons_of_ne_nil hrest
    have hcurrent : s.current = t := by rw [ParserState.current, hcons]; rfl
    have hclose : isMark "\x7d" t = false := by
      rw [← hcurrent]
      exact (Bool.or_eq_false_iff.mp hopen).1
    rw [behind, hcons]
    exact length_skipItem_lt (hcurrent ▸ hbrace) hclose

/-! ### Loops with rounds -/

/-- Rounds of a loop one after another. A round begins only where the loop does not end, with fuel
enough for the tokens still to be read. -/
inductive Rounds (ends : ParserState → Bool) (round : Nat → Parser α) :
    Nat → ParserState → ParserState → Prop
  | done (s : ParserState) : Rounds ends round 0 s s
  | more {n : Nat} {s s₁ s₂ : ParserState} {a : α} : ends s = false →
      round s.fuel s = .ok a s₁ → Rounds ends round n s₁ s₂ → Rounds ends round (n + 1) s s₂

def Meets (ends : ParserState → Bool) (round : Nat → Parser α) (trap : ParserState → Prop)
    (s : ParserState) : Prop :=
  ∃ n t, Rounds ends round n s t ∧ trap t

/-- With fuel enough for the tokens still to be read, a loop comes to an end further on, whatever
the fuel. -/
def Returns (loop : Nat → Nat → Parser α) (s : ParserState) : Prop :=
  ∃ a s', s.Onward s' ∧ ∀ fuel n, s.fuel ≤ fuel → s.fuel ≤ n → loop fuel n s = .ok a s'

def Halts (loop : Nat → Nat → Parser α) (s : ParserState) : Prop :=
  ∀ fuel n, s.fuel ≤ fuel → s.fuel ≤ n → ∃ s', loop fuel n s = .error .stuck s'

section Rounds

variable {β γ : Type} {ends : ParserState → Bool} {round : Nat → Parser α}
  {trap : ParserState → Prop} {loop : Nat → Nat → Parser β} {later : Nat → Nat → Parser γ}
  {add : γ → β} {s₁ : ParserState} {a : α}

private theorem meets_of_ends (h : ends s = true) : Meets ends round trap s ↔ trap s := by
  constructor
  · rintro ⟨n, t, hrounds, ht⟩
    cases hrounds with
    | done => exact ht
    | more hopen => cases h.symm.trans hopen
  · exact fun ht => ⟨0, s, .done s, ht⟩

private theorem meets_of_round (hopen : ends s = false) (hround : round s.fuel s = .ok a s₁)
    (hs : ¬ trap s) : Meets ends round trap s ↔ Meets ends round trap s₁ := by
  constructor
  · rintro ⟨n, t, hrounds, ht⟩
    cases hrounds with
    | done => exact absurd ht hs
    | more _ hfirst hlater =>
      cases hfirst.symm.trans hround
      exact ⟨_, t, hlater, ht⟩
  · rintro ⟨n, t, hrounds, ht⟩
    exact ⟨n + 1, t, .more hopen hround hrounds, ht⟩

theorem exists_succ_of_fuel_le (h : s.fuel ≤ n) : ∃ m, n = m + 1 :=
  ⟨n - 1, (Nat.sub_add_cancel (Nat.le_trans (Nat.le_add_left 1 _) h)).symm⟩

private theorem fuel_le_of_less (hless : s₁.rest.length < s.rest.length) (h : s.fuel ≤ n + 1) :
    s₁.fuel ≤ n := by
  rw [ParserState.fuel] at h ⊢
  omega

theorem Returns.of_round (hon : s.Onward s₁) (hless : s₁.rest.length < s.rest.length)
    (hloop : ∀ fuel n, s.fuel ≤ fuel → loop fuel (n + 1) s = (add <$> later fuel n) s₁)
    (h : Returns later s₁) : Returns loop s := by
  obtain ⟨c, s₂, hon', hlater⟩ := h
  refine ⟨add c, s₂, hon.trans hon', fun fuel n hfuel hn => ?_⟩
  obtain ⟨n, rfl⟩ := exists_succ_of_fuel_le hn
  have hrest := hlater fuel n (fuel_le_of_less hless (Nat.le_succ_of_le hfuel))
    (fuel_le_of_less hless hn)
  rw [hloop fuel n hfuel, ← bind_pure_comp, bind_ok hrest]
  rfl

theorem Halts.of_round (hless : s₁.rest.length < s.rest.length)
    (hloop : ∀ fuel n, s.fuel ≤ fuel → loop fuel (n + 1) s = (add <$> later fuel n) s₁)
    (h : Halts later s₁) : Halts loop s := by
  intro fuel n hfuel hn
  obtain ⟨n, rfl⟩ := exists_succ_of_fuel_le hn
  obtain ⟨s₂, hrest⟩ := h fuel n (fuel_le_of_less hless (Nat.le_succ_of_le hfuel))
    (fuel_le_of_less hless hn)
  rw [hloop fuel n hfuel, ← bind_pure_comp]
  exact ⟨s₂, bind_error hrest⟩

end Rounds

/-! ### The field loop -/

/-- Before an opening brace the rounds of the field loop go on for ever, and each of them only notes
the same refusal once more. -/
private theorem rounds_brace_iff {name : String} (h : isMark "\x7b" s.current = true) :
    Rounds closes (fieldRound name) n s s' ↔
      s' = { s with errors := s.errors ++ List.replicate n (fieldRefusal name s) } := by
  induction n generalizing s with
  | zero =>
    constructor
    · rintro ⟨⟩
      simp
    · rintro rfl
      simpa using Rounds.done s
  | succ n ih =>
    -- The cursor stays, so the next round begins before the same brace.
    have hnext := @ih { s with errors := s.errors ++ [fieldRefusal name s] } h
    have hsame : fieldRefusal name { s with errors := s.errors ++ [fieldRefusal name s] } =
      fieldRefusal name s := rfl
    rw [hsame, List.append_assoc, List.singleton_append, ← List.replicate_succ] at hnext
    rw [← hnext]
    constructor
    · rintro ⟨⟩
      rename_i hround hlater
      cases (fieldRound_brace name s.fuel h).symm.trans hround
      exact hlater
    · exact fun hlater => .more (closes_of_brace h) (fieldRound_brace name s.fuel h) hlater

private theorem fields_closed {name : String} (h : closes s = true) :
    fields name fuel (n + 1) s = .ok [] s := by
  rw [fields_succ, bind_ok (looks_check "\x7d" s), bind_ok (show atEnd s = .ok _ s from rfl)]
  change (if closes s = true then _ else _ : Parser (List VariableDecl)) s = _
  rw [if_pos h]
  rfl

private theorem fields_open {name : String} {decls : Option (List VariableDecl)}
    (h : closes s = false)
    (hround : fieldRound name fuel s = .ok decls s') :
    fields name fuel (n + 1) s =
      if s'.read = s.read then .error .stuck s'
      else (do return decls.getD [] ++ (← fields name fuel n)) s' := by
  rw [fields_succ, bind_ok (looks_check "\x7d" s), bind_ok (show atEnd s = .ok _ s from rfl)]
  change (if closes s = true then _ else _ : Parser (List VariableDecl)) s = _
  rw [if_neg (by simp [h])]
  change (fieldRound name fuel >>= fun decls => _) s = _
  rw [bind_ok hround]
  change (if s'.read = s.read then stuck else _ : Parser (List VariableDecl)) s' = _
  split
  · rfl
  · rfl

def Braced (s : ParserState) : Prop :=
  isMark "\x7b" s.current = true

private theorem fields_cases (name : String) (s : ParserState) :
    (Returns (fields name) s ∧ ¬ Meets closes (fieldRound name) Braced s) ∨
      (Halts (fields name) s ∧ Meets closes (fieldRound name) Braced s) := by
  induction hlength : s.rest.length using Nat.strongRecOn generalizing s with
  | ind length ih =>
  subst hlength
  by_cases hbrace : Braced s
  · refine .inr ⟨fun fuel n _ hn => ?_, 0, s, .done s, hbrace⟩
    obtain ⟨n, rfl⟩ := exists_succ_of_fuel_le hn
    rw [fields_open (closes_of_brace hbrace) (fieldRound_brace name fuel hbrace)]
    exact ⟨_, if_pos rfl⟩
  cases hclose : closes s with
  | true =>
    refine .inl ⟨⟨[], s, .refl s, fun fuel n _ hn => ?_⟩, mt (meets_of_ends hclose).mp hbrace⟩
    obtain ⟨n, rfl⟩ := exists_succ_of_fuel_le hn
    exact fields_closed hclose
  | false =>
    have hother : isMark "\x7b" s.current = false := Bool.not_eq_true _ ▸ hbrace
    obtain ⟨decls, s₁, hround, -, hon, hless⟩ :=
      fieldRound_moves name (Nat.lt_succ_self _) (Nat.le_refl _) hclose hother
    have hfields : ∀ fuel n, s.fuel ≤ fuel → fields name fuel (n + 1) s =
        ((decls.getD [] ++ ·) <$> fields name fuel n) s₁ := by
      intro fuel n hfuel
      obtain ⟨decls', s₁', hround', hround'', -, -⟩ :=
        fieldRound_moves name (Nat.lt_succ_self _) hfuel hclose hother
      cases hround.symm.trans hround'
      rw [fields_open hclose hround'', if_neg (Nat.ne_of_gt (hon.read_lt_iff.mpr hless)),
        ← bind_pure_comp]
    have hmeets := meets_of_round hclose hround hbrace
    rcases ih s₁.rest.length hless s₁ rfl with ⟨hreturns, hnone⟩ | ⟨hhalts, hmet⟩
    · exact .inl ⟨hreturns.of_round hon hless hfields, mt hmeets.mp hnone⟩
    · exact .inr ⟨hhalts.of_round hless hfields, hmeets.mpr hmet⟩

/-! ### Pieces of a program -/

theorem goes_restOfLine (line : Nat) : Goes n 0 (restOfLine line) (restOfLine line) := by
  intro s _
  have hrun : restOfLine line s = .ok (s.rest.takeWhile (·.pos.line == line))
      { s with rest := s.rest.dropWhile (·.pos.line == line),
               read := s.read + (s.rest.takeWhile (·.pos.line == line)).length } := by
    rw [restOfLine]
    simp only [List.span_eq_takeWhile_dropWhile]
    rfl
  exact .ok hrun hrun (onward_while _ s) (onward_while _ s).length_le

private theorem goes_directiveItem : Goes n 0 directiveItem directiveItem := by
  rw [directiveItem]
  refine goes_advance.bind fun t => (goes_restOfLine t.pos.line).bind fun args => ?_
  dsimp only
  split
  · exact .pure _
  · exact .failAt
  · refine .get fun s => ?_
    split
    · exact .failAt
    · split
      · refine Goes.bind (k := 0) (.note ?_ ?_) fun _ => .pure _
        · exact fun _ => rfl
        · exact fun _ => rfl
      · exact .pure _
  · exact .pure _

private theorem goes_bodyWithLocals (h : fuel ≤ fuel') :
    Goes fuel 0 (bodyWithLocals fuel) (bodyWithLocals fuel') := by
  rw [bodyWithLocals, bodyWithLocals]
  refine Goes.bind (k := 0) (.note ?_ ?_) fun _ => ?_
  · exact fun _ => rfl
  · exact fun _ => rfl
  have hblock := (goes_block (goes_statement h) h).mono (Nat.le_succ fuel) (Nat.zero_le 1)
  refine hblock.bind fun stmts s hs => ?_
  exact .ok rfl rfl ⟨List.suffix_rfl, rfl⟩ (Nat.le_refl _)

private theorem goes_handlerItems (h : fuel ≤ fuel') :
    Goes fuel 0 (handlerItems fuel) (handlerItems fuel') := by
  rw [handlerItems, handlerItems]
  refine .checkWord fun b => .ite (fun _ => goes_advance.bind fun _ => ?_) fun _ => ?_
  all_goals
    refine goes_advance.bind fun t => ?_
    split
    · exact .failAt
    · refine (goes_commaList goes_expectName h).bind fun signals => ?_
      exact (goes_bodyWithLocals h).bind fun found => .pure _

private theorem goes_parameterBrackets (h : fuel ≤ fuel') :
    Goes fuel 0 (parameterBrackets fuel) (parameterBrackets fuel') := by
  induction fuel generalizing fuel' with
  | zero => exact fun s hs => absurd hs (Nat.not_lt_zero _)
  | succ fuel ih =>
    obtain ⟨fuel', rfl⟩ : ∃ m, fuel' = m + 1 := ⟨fuel' - 1, by omega⟩
    have hmore := (ih (Nat.le_of_succ_le_succ h)).bind fun _ => Goes.pure (n := fuel) true
    rw [parameterBrackets, parameterBrackets]
    refine .consume_descend (j := 0) ?_ (.pure false) (Nat.zero_le 1)
    refine .check fun b => .ite (fun _ => ?_) fun _ => ?_
    · exact goes_expect.bind fun _ => hmore
    · exact goes_advance.bind fun _ => goes_expect.bind fun _ => hmore

theorem goes_parameter (h : fuel ≤ fuel') : Goes fuel 1 (parameter fuel) (parameter fuel') := by
  rw [parameter, parameter]
  refine .checkWord fun byRef => .checkWord fun byVal => ?_
  have hname : ∀ type : VariableType,
      Goes fuel 1
        (do
          let name ← expectName
          let isArray ← parameterBrackets fuel
          return (⟨type, name, byRef, isArray⟩ : Parameter))
        (do
          let name ← expectName
          let isArray ← parameterBrackets fuel'
          return (⟨type, name, byRef, isArray⟩ : Parameter)) := fun type =>
    goes_expectName.bind fun name => (goes_parameterBrackets h).bind fun isArray => .pure _
  refine .ite (fun _ => goes_advance.bind fun _ => ?_) fun _ => ?_
  all_goals
    refine goes_advance.bind fun t => ?_
    split
    · split
      · exact (Goes.pure _).bind hname
      · exact Goes.bind (k := 0) .failAt hname
    · refine .get fun s => .ite (fun _ => (Goes.pure _).bind hname) fun _ => ?_
      exact Goes.bind (k := 0) .failAt hname
    · exact Goes.bind (k := 0) .failAt hname

theorem goes_functionDef (h : fuel ≤ fuel') :
    Goes fuel 0 (functionDef fuel) (functionDef fuel') := by
  rw [functionDef, functionDef]
  refine goes_advance.bind fun t => goes_expectName.bind fun name => goes_expect.bind fun _ => ?_
  have hparams := goes_commaList (goes_parameter h) h
  refine .check fun b => .ite (fun _ => (Goes.pure []).bind fun params => ?_) fun _ =>
    hparams.bind fun params => ?_
  all_goals exact goes_expect.bind fun _ => (goes_bodyWithLocals h).bind fun found => .pure _

def StartsStructure (s : ParserState) : Prop :=
  s.current.kind = .keyword ∧ Text.sameWord s.current.text "STRUCTURE" = true

private theorem goesAt_item (h : ¬ StartsStructure s) (hs : s.rest.length < fuel)
    (hfuel : fuel ≤ fuel') :
    GoesAt 0 (item fuel) (item fuel') s := by
  rw [item, item]
  refine .current ?_
  split
  · exact goes_directiveItem s hs
  · exact ((goes_signalDecl hfuel).map.mono (Nat.le_refl _) (Nat.zero_le 1)) s hs
  · exact ((goes_variableDecls hfuel).map.mono (Nat.le_refl _) (Nat.zero_le 1)) s hs
  · rename_i hkind
    refine Goes.ite (fun hword => absurd ⟨hkind, hword⟩ h) (fun _ => ?_) s hs
    refine .ite (fun _ => (goes_handlerItems hfuel).map) fun _ => ?_
    refine .ite (fun _ => (goes_functionDef hfuel).map) fun _ => ?_
    exact .ite (fun _ => goes_advance.bind fun _ => .pure _) fun _ => .fail
  · refine .look (a := _) rfl ?_
    refine Goes.ite (fun _ => ?_) (fun _ => .fail) s hs
    exact (goes_variableDecls hfuel).map.mono (Nat.le_refl _) (Nat.zero_le 1)

/-! ### Structures -/

private theorem item_structure (h : StartsStructure s) :
    item fuel s = (Item.structureDef <$> structureDef fuel) s := by
  rw [item, bind_ok (show current s = .ok s.current s from rfl), h.1]
  dsimp only
  rw [if_pos h.2]

/-- The head of a structure up to its opening brace gives its place and its name. -/
def structureHead : Parser (Position × String) := do
  let keyword ← advance
  let name ← expectName
  modify fun s => { s with structures := Text.upper name :: s.structures }
  expect "\x7b"
  return (keyword.pos, name)

def structureEnd (head : Position × String) (decls : List VariableDecl) :
    Parser StructureDef := do
  expect "\x7d"
  let _ ← consume ";"
  return ⟨head.2, decls, head.1⟩

private theorem structureDef_eq (fuel : Nat) :
    structureDef fuel =
      structureHead >>= fun head => fields head.2 fuel fuel >>= structureEnd head := by
  rw [structureDef, structureHead]
  simp only [bind_assoc, pure_bind]
  rfl

private theorem goes_structureHead : Goes n 0 structureHead structureHead := by
  rw [structureHead]
  refine goes_advance.bind fun keyword => goes_expectName.bind fun name => ?_
  refine Goes.bind (k := 0) (.note ?_ ?_) fun _ => goes_expect.bind fun _ => .pure _
  · exact fun _ => rfl
  · exact fun _ => rfl

private theorem goes_structureEnd (head : Position × String) (decls : List VariableDecl) :
    Goes n 0 (structureEnd head decls) (structureEnd head decls) := by
  rw [structureEnd]
  exact goes_expect.bind fun _ => goes_consume.bind fun _ => .pure _

/-- While the structure at the first state is read, a round of its field loop begins at the second
state. -/
def InFields (s : ParserState) (name : String) (t : ParserState) : Prop :=
  StartsStructure s ∧ ∃ pos s₁ n, structureHead s = .ok (pos, name) s₁ ∧
    Rounds closes (fieldRound name) n s₁ t ∧ closes t = false

/-- A round of the field loop of the structure that comes next begins before an opening brace. -/
def Trapped (s : ParserState) : Prop :=
  ∃ name t, InFields s name t ∧ Braced t

private theorem trapped_iff {head : Position × String} {s₁ : ParserState} (h : StartsStructure s)
    (hhead : structureHead s = .ok head s₁) :
    Trapped s ↔ Meets closes (fieldRound head.2) Braced s₁ := by
  constructor
  · rintro ⟨name, t, ⟨-, pos, s₁', n, hhead', hrounds, -⟩, hbrace⟩
    cases hhead.symm.trans hhead'
    exact ⟨n, t, hrounds, hbrace⟩
  · rintro ⟨n, t, hrounds, hbrace⟩
    exact ⟨head.2, t, ⟨h, head.1, s₁, n, hhead, hrounds, closes_of_brace hbrace⟩, hbrace⟩

theorem Onward.fuel_le (h : s.Onward s') : s'.fuel ≤ s.fuel :=
  Nat.succ_le_succ h.length_le

private theorem structureDef_cases (h : StartsStructure s) :
    ((∀ fuel, s.fuel ≤ fuel → GoesAt 0 (structureDef s.fuel) (structureDef fuel) s) ∧
        ¬ Trapped s) ∨
      ((∀ fuel, s.fuel ≤ fuel → ∃ s', structureDef fuel s = .error .stuck s') ∧ Trapped s) := by
  obtain ⟨head, s₁, hhead, -, hon, -⟩ | ⟨e, s₁, hhead, -, hon⟩ :=
    (goes_structureHead (n := s.fuel) s (Nat.lt_succ_self _)).cases
  · have hdef : ∀ fuel, structureDef fuel s =
        (fields head.2 fuel fuel >>= structureEnd head) s₁ := by
      intro fuel
      rw [structureDef_eq, bind_ok hhead]
    have henough : ∀ {fuel}, s.fuel ≤ fuel → s₁.fuel ≤ fuel := fun hfuel =>
      Nat.le_trans (Onward.fuel_le hon) hfuel
    rw [trapped_iff h hhead]
    rcases fields_cases head.2 s₁ with ⟨⟨decls, s₂, hon', hfields⟩, hnone⟩ | ⟨hhalts, hmet⟩
    · refine .inl ⟨fun fuel hfuel => ?_, hnone⟩
      have hend : ∀ fuel, s.fuel ≤ fuel → structureDef fuel s = structureEnd head decls s₂ := by
        intro fuel hfuel
        rw [hdef, bind_ok (hfields fuel fuel (henough hfuel) (henough hfuel))]
      have hgoes := goes_structureEnd head decls s₂ (Nat.lt_succ_self _)
      obtain ⟨d, s₃, hok, -, hon'', -⟩ | ⟨e, s₃, hrefused, -, hon''⟩ := hgoes.cases
      · have hall := (hon.trans hon').trans hon''
        exact .ok ((hend _ (Nat.le_refl _)).trans hok) ((hend fuel hfuel).trans hok) hall
          hall.length_le
      · exact .refused ((hend _ (Nat.le_refl _)).trans hrefused)
          ((hend fuel hfuel).trans hrefused) ((hon.trans hon').trans hon'')
    · refine .inr ⟨fun fuel hfuel => ?_, hmet⟩
      obtain ⟨s₂, hstuck⟩ := hhalts fuel fuel (henough hfuel) (henough hfuel)
      exact ⟨s₂, (hdef fuel).trans (bind_error hstuck)⟩
  · have hdef : ∀ fuel, structureDef fuel s = .error (.error e) s₁ := by
      intro fuel
      rw [structureDef_eq, bind_error hhead]
    refine .inl ⟨fun fuel _ => .refused (hdef _) (hdef fuel) hon, ?_⟩
    rintro ⟨name, t, ⟨-, pos, s₁', n, hhead', -⟩, -⟩
    cases hhead.symm.trans hhead'

private theorem item_cases (s : ParserState) :
    ((∀ fuel, s.fuel ≤ fuel → GoesAt 0 (item s.fuel) (item fuel) s) ∧ ¬ Trapped s) ∨
      ((∀ fuel, s.fuel ≤ fuel → ∃ s', item fuel s = .error .stuck s') ∧ Trapped s) := by
  by_cases hstarts : StartsStructure s
  · have hitem : ∀ fuel, item fuel s =
        (structureDef fuel >>= fun found => pure (.structureDef found)) s := by
      intro fuel
      rw [item_structure hstarts, ← bind_pure_comp]
    rcases structureDef_cases hstarts with ⟨hgoes, hfree⟩ | ⟨hstuck, htrapped⟩
    · refine .inl ⟨fun fuel hfuel => ?_, hfree⟩
      rw [GoesAt, hitem, hitem]
      exact (hgoes fuel hfuel).bind (fun found s' _ => Goes.pure _ s' (Nat.lt_succ_self _))
        (Nat.le_refl 0)
    · refine .inr ⟨fun fuel hfuel => ?_, htrapped⟩
      obtain ⟨s₁, hrun⟩ := hstuck fuel hfuel
      exact ⟨s₁, (hitem fuel).trans (bind_error hrun)⟩
  · refine .inl ⟨fun fuel hfuel => goesAt_item hstarts (Nat.lt_succ_self _) hfuel, ?_⟩
    rintro ⟨name, t, ⟨hstarts', -⟩, -⟩
    exact hstarts hstarts'

/-! ### Whole programs -/

def itemRound (fuel : Nat) : Parser (Option Item) :=
  movingOn (recovering (item fuel))

private theorem items_succ (allFuel fuel : Nat) (p : Program) :
    items allFuel (fuel + 1) p = (do
      if ← atEnd then return p
      else
        let found ← itemRound allFuel
        items allFuel fuel ((found.getD .nothing).addTo p)) := by
  simp only [items, itemRound, movingOn, advancePast, bind_assoc, pure_bind, ite_bind]

theorem itemRound_cases (hrest : s.rest ≠ []) :
    ((∃ found s', s.Onward s' ∧ s'.rest.length < s.rest.length ∧
        ∀ fuel, s.fuel ≤ fuel → itemRound fuel s = .ok found s') ∧ ¬ Trapped s) ∨
      ((∀ fuel, s.fuel ≤ fuel → ∃ s', itemRound fuel s = .error .stuck s') ∧ Trapped s) := by
  rcases item_cases s with ⟨hgoes, hfree⟩ | ⟨hstuck, htrapped⟩
  · obtain ⟨found, s₁, hfound, -, hon⟩ := (hgoes s.fuel (Nat.le_refl _)).recovering
    obtain ⟨s₂, hpast, hon', hless⟩ := advancePast_ok hon hrest
    refine .inl ⟨⟨found, s₂, hon', hless, fun fuel hfuel => ?_⟩, hfree⟩
    obtain ⟨found', s₁', hfound', hsame, -⟩ := (hgoes fuel hfuel).recovering
    cases hfound.symm.trans hfound'
    exact movingOn_ok hsame hpast
  · refine .inr ⟨fun fuel hfuel => ?_, htrapped⟩
    obtain ⟨s₁, hrun⟩ := hstuck fuel hfuel
    exact ⟨s₁, movingOn_error (recovering_stuck hrun)⟩

def finished (s : ParserState) : Bool :=
  s.rest.isEmpty

theorem items_finished {p : Program} (h : finished s = true) :
    items fuel (n + 1) p s = .ok p s := by
  rw [items_succ, bind_ok (show atEnd s = .ok (finished s) s from rfl), if_pos h]
  rfl

theorem items_unfinished {p : Program} (h : finished s = false) :
    items fuel (n + 1) p s =
      (itemRound fuel >>= fun found => items fuel n ((found.getD .nothing).addTo p)) s := by
  rw [items_succ, bind_ok (show atEnd s = .ok (finished s) s from rfl), if_neg (by simp [h])]

private theorem finished_of_items {p program : Program} (h : items fuel n p s = .ok program s') :
    finished s' = true := by
  induction n generalizing p s with
  | zero => cases h
  | succ n ih =>
    cases hend : finished s with
    | true =>
      rw [items_finished hend] at h
      cases h
      exact hend
    | false =>
      rw [items_unfinished hend] at h
      cases hround : itemRound fuel s with
      | ok found s₁ =>
        rw [bind_ok hround] at h
        exact ih h
      | error halt s₁ =>
        rw [bind_error hround] at h
        cases h

private theorem items_cases (p : Program) (s : ParserState) :
    (Returns (items · · p) s ∧ ¬ Meets finished itemRound Trapped s) ∨
      (Halts (items · · p) s ∧ Meets finished itemRound Trapped s) := by
  induction hlength : s.rest.length using Nat.strongRecOn generalizing p s with
  | ind length ih =>
  subst hlength
  cases hend : finished s with
  | true =>
    have hrest : s.rest = [] := List.isEmpty_iff.mp hend
    refine .inl ⟨⟨p, s, .refl s, fun fuel n _ hn => ?_⟩, fun hmet => ?_⟩
    · obtain ⟨n, rfl⟩ := exists_succ_of_fuel_le hn
      exact items_finished hend
    · obtain ⟨name, t, ⟨⟨hkind, -⟩, -⟩, -⟩ := (meets_of_ends hend).mp hmet
      exact ParserState.rest_ne_nil (P := fun t => t.kind = .keyword) hkind (by simp) hrest
  | false =>
    have hrest : s.rest ≠ [] := fun hnil => by simp [finished, hnil] at hend
    rcases itemRound_cases hrest with ⟨⟨found, s₁, hon, hless, hround⟩, hfree⟩ | ⟨hstuck, htrapped⟩
    · have hitems : ∀ fuel n, s.fuel ≤ fuel → items fuel (n + 1) p s =
          (id <$> items fuel n ((found.getD .nothing).addTo p)) s₁ := by
        intro fuel n hfuel
        rw [items_unfinished hend, bind_ok (hround fuel hfuel), id_map]
      have hmeets := meets_of_round hend (hround s.fuel (Nat.le_refl _)) hfree
      rcases ih s₁.rest.length hless ((found.getD .nothing).addTo p) s₁ rfl with
        ⟨hreturns, hnone⟩ | ⟨hhalts, hmet⟩
      · exact .inl ⟨hreturns.of_round hon hless hitems, mt hmeets.mp hnone⟩
      · exact .inr ⟨hhalts.of_round hless hitems, hmeets.mpr hmet⟩
    · refine .inr ⟨fun fuel n hfuel hn => ?_, 0, s, .done s, htrapped⟩
      obtain ⟨n, rfl⟩ := exists_succ_of_fuel_le hn
      obtain ⟨s₁, hrun⟩ := hstuck fuel hfuel
      exact ⟨s₁, (items_unfinished hend).trans (bind_error hrun)⟩

/-- While some tokens are read, a round of the field loop of a structure begins at a state. -/
def FieldRoundAt (tokens : List Token) (name : String) (t : ParserState) : Prop :=
  ∃ n s, Rounds finished itemRound n (.ofTokens tokens) s ∧ InFields s name t

private theorem meets_trapped_iff {tokens : List Token} :
    Meets finished itemRound Trapped (.ofTokens tokens) ↔
      ∃ name t, FieldRoundAt tokens name t ∧ Braced t := by
  constructor
  · rintro ⟨n, s, hrounds, name, t, hfields, hbrace⟩
    exact ⟨name, t, ⟨n, s, hrounds, hfields⟩, hbrace⟩
  · rintro ⟨name, t, ⟨n, s, hrounds, hfields⟩, hbrace⟩
    exact ⟨n, s, hrounds, name, t, hfields, hbrace⟩

private theorem fieldRound_stays_iff (name : String) (h : closes s = false) :
    ∃ decls s', s.Onward s' ∧ (s'.read = s.read ↔ Braced s) ∧
      ∀ fuel, s.fuel ≤ fuel → fieldRound name fuel s = .ok decls s' := by
  by_cases hbrace : Braced s
  · exact ⟨none, { s with errors := s.errors ++ [fieldRefusal name s] }, ⟨List.suffix_rfl, rfl⟩,
      iff_of_true rfl hbrace, fun fuel _ => fieldRound_brace name fuel hbrace⟩
  · have hother : isMark "\x7b" s.current = false := Bool.not_eq_true _ ▸ hbrace
    obtain ⟨decls, s', hrun, -, hon, hless⟩ :=
      fieldRound_moves name (Nat.lt_succ_self _) (Nat.le_refl s.fuel) h hother
    have hread : s'.read ≠ s.read := Nat.ne_of_gt (hon.read_lt_iff.mpr hless)
    refine ⟨decls, s', hon, iff_of_false hread hbrace, fun fuel hfuel => ?_⟩
    obtain ⟨decls', s'', hrun', hsame, -⟩ :=
      fieldRound_moves name (Nat.lt_succ_self _) hfuel h hother
    cases hrun.symm.trans hrun'
    exact hsame

private theorem ofTokens_of_returns {tokens : List Token}
    (h : Returns (items · · {}) (.ofTokens tokens)) :
    ∃ program s', s'.rest = [] ∧ ofTokens tokens = ⟨program, s'.errors, false⟩ ∧
      ∀ fuel n, (ParserState.ofTokens tokens).fuel ≤ fuel →
        (ParserState.ofTokens tokens).fuel ≤ n →
        items fuel n {} (.ofTokens tokens) = .ok program s' := by
  obtain ⟨program, s', -, hrun⟩ := h
  have hstart := hrun _ _ (Nat.le_refl _) (Nat.le_refl _)
  refine ⟨program, s', List.isEmpty_iff.mp (finished_of_items hstart), ?_, hrun⟩
  unfold ofTokens
  simp only [hstart]

private theorem stuck_of_halts {tokens : List Token} (h : Halts (items · · {}) (.ofTokens tokens)) :
    (ofTokens tokens).stuck = true := by
  obtain ⟨s', hrun⟩ := h _ _ (Nat.le_refl _) (Nat.le_refl _)
  unfold ofTokens
  simp only [hrun]

/-- The token a parser sees behind all tokens of a text is the one the text itself ends with:
nothing is lost by keeping only its place. -/
theorem endToken_ofTokens (text : String) :
    (ParserState.ofTokens (Token.scan text)).endToken ∈ (Token.scan text).getLast? := by
  obtain ⟨ts, p, hscan, hts⟩ := Token.exists_scan text
  generalize hend : Token.mk .endOfText "" p = t at hscan
  have hkept : (ts ++ [t]).filter (!·.isTrivia) = ts.filter (!·.isTrivia) ++ [t] := by
    rw [List.filter_append, ← hend]
    rfl
  have hfound : (ts.filter (!·.isTrivia) ++ [t]).find? (·.kind == .endOfText) = some t := by
    rw [List.find?_append, List.find?_eq_none.mpr, ← hend]
    · rfl
    · intro u hu
      simp [hts u (List.mem_filter.mp hu).1]
  rw [hscan, List.getLast?_concat, ParserState.endToken, ParserState.ofTokens]
  rw [hkept, hfound, ← hend]
  rfl

/-- Reading moves on. With fuel for one token more than are left, expressions, statements, blocks
and alternatives are read, at least one token of them, or refused, and more fuel changes nothing;
each round of reading a body reads at least one token, and so does each round of reading a program,
unless it comes to an opening brace in the place of a field; each round of the field loop reads at
least one token exactly when it begins at any other token. So a program is read to its end if no
such round begins at an opening brace. If one does, reading has no end: the rounds go on from there
for ever, and each of them leaves the cursor and notes the same refusal once more. -/
theorem reading_moves_on_except_at_brace (tokens : List Token) :
    (∀ (s : ParserState) (fuel : Nat), s.fuel ≤ fuel →
      GoesAt 1 (expression s.fuel) (expression fuel) s ∧
      GoesAt 1 (statement s.fuel) (statement fuel) s ∧
      GoesAt 1 (block (statement s.fuel) s.fuel) (block (statement fuel) fuel) s ∧
      GoesAt 1 (alternativeRound (statement s.fuel) s.fuel)
        (alternativeRound (statement fuel) fuel) s) ∧
    (∀ s : ParserState, closes s = false → ∃ item s', s.Onward s' ∧ s.read < s'.read ∧
      ∀ fuel, s.fuel ≤ fuel → blockRound (statement fuel) fuel s = .ok item s') ∧
    (∀ s : ParserState, finished s = false → Trapped s ∨
      ∃ found s', s.Onward s' ∧ s.read < s'.read ∧
        ∀ fuel, s.fuel ≤ fuel → itemRound fuel s = .ok found s') ∧
    (∀ (s : ParserState) (name : String), closes s = false → ∃ decls s', s.Onward s' ∧
      (s'.read = s.read ↔ isMark "\x7b" s.current = true) ∧
      ∀ fuel, s.fuel ≤ fuel → fieldRound name fuel s = .ok decls s') ∧
    ((∀ name t, FieldRoundAt tokens name t → isMark "\x7b" t.current = false) →
      ∃ program s', s'.rest = [] ∧ ofTokens tokens = ⟨program, s'.errors, false⟩ ∧
        ∀ fuel n, (ParserState.ofTokens tokens).fuel ≤ fuel →
          (ParserState.ofTokens tokens).fuel ≤ n →
          items fuel n {} (.ofTokens tokens) = .ok program s') ∧
    (∀ name t, FieldRoundAt tokens name t → isMark "\x7b" t.current = true →
      (ofTokens tokens).stuck = true ∧ Halts (items · · {}) (.ofTokens tokens) ∧
      ∀ n s', Rounds closes (fieldRound name) n t s' ↔
        s' = { t with errors := t.errors ++ List.replicate n (fieldRefusal name t) }) := by
  refine ⟨fun s fuel hfuel => ?_, fun s hopen => ?_, fun s hmore => ?_, fun s name hopen => ?_,
    fun hfree => ?_, fun name t hround hbrace => ?_⟩
  · have hs : s.rest.length < s.fuel := Nat.lt_succ_self _
    have hstmt := goes_statement hfuel
    exact ⟨goes_expression hfuel s hs, hstmt s hs,
      goes_block hstmt hfuel s (Nat.lt_succ_of_lt hs), goes_alternativeRound hstmt hfuel s hs⟩
  · obtain ⟨item, s', hrun, -, hon, hless⟩ :=
      blockRound_ok (goes_statement (Nat.le_refl s.fuel)) (Nat.le_refl _) (Nat.lt_succ_self _) hopen
    refine ⟨item, s', hon, hon.read_lt_iff.mpr hless, fun fuel hfuel => ?_⟩
    obtain ⟨item', s'', hrun', hsame, -⟩ :=
      blockRound_ok (goes_statement hfuel) hfuel (Nat.lt_succ_self _) hopen
    cases hrun.symm.trans hrun'
    exact hsame
  · have hrest : s.rest ≠ [] := fun hnil => by simp [finished, hnil] at hmore
    rcases itemRound_cases hrest with ⟨⟨found, s', hon, hless, hrun⟩, -⟩ | ⟨-, htrapped⟩
    · exact .inr ⟨found, s', hon, hon.read_lt_iff.mpr hless, hrun⟩
    · exact .inl htrapped
  · exact fieldRound_stays_iff name hopen
  · rcases items_cases {} (.ofTokens tokens) with ⟨hreturns, -⟩ | ⟨-, hmet⟩
    · exact ofTokens_of_returns hreturns
    · obtain ⟨name, t, hround, hbrace⟩ := meets_trapped_iff.mp hmet
      cases (hfree name t hround).symm.trans hbrace
  · rcases items_cases {} (.ofTokens tokens) with ⟨-, hnone⟩ | ⟨hhalts, -⟩
    · exact absurd (meets_trapped_iff.mpr ⟨name, t, hround, hbrace⟩) hnone
    · exact ⟨stuck_of_halts hhalts, hhalts, fun n s' => rounds_brace_iff hbrace⟩

/-- The tokens of a structure with an opening brace behind its first field. -/
def bracedFields : List Token :=
  Token.scan "STRUCTURE point\n\x7b\n  INTEGER x;\n  \x7b\n\x7d;\n"

/-- A brace behind the first field is met, and the refusals there have no end. -/
theorem brace_behind_field_has_no_end :
    (ofTokens bracedFields).stuck = true ∧
      ∃ name t, FieldRoundAt bracedFields name t ∧ isMark "\x7b" t.current = true ∧
        ∀ n, Rounds closes (fieldRound name) n t
          { t with errors := t.errors ++ List.replicate n (fieldRefusal name t) } := by
  have hstuck : (ofTokens bracedFields).stuck = true := by
    rw [bracedFields, Token.scan_eq_map_lookedUp]
    decide +kernel
  obtain ⟨-, -, -, -, hreads, hloops⟩ := reading_moves_on_except_at_brace bracedFields
  by_cases hmet : ∃ name t, FieldRoundAt bracedFields name t ∧ isMark "\x7b" t.current = true
  · obtain ⟨name, t, hround, hbrace⟩ := hmet
    obtain ⟨-, -, hrounds⟩ := hloops name t hround hbrace
    exact ⟨hstuck, name, t, hround, hbrace, fun n => (hrounds n _).mpr rfl⟩
  · have hfree : ∀ name t, FieldRoundAt bracedFields name t →
        isMark "\x7b" t.current = false := by
      intro name t hround
      by_contra hbrace
      exact hmet ⟨name, t, hround, Bool.not_eq_false _ ▸ hbrace⟩
    obtain ⟨program, s', -, hread, -⟩ := hreads hfree
    rw [hread] at hstuck
    cases hstuck

end Parser

end ControlLogic
