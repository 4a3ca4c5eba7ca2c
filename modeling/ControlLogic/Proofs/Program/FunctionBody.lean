import ControlLogic.Proofs.Program.StmtLookahead
import ControlLogic.Proofs.Program.UnitProgress

/-!
The body of a function, item by item. A function is read up to a place among the items of its body
and then from there on; if nothing is refused up to the place, it makes no difference which items
stand behind.
-/

set_option autoImplicit false
set_option relaxedAutoImplicit false

namespace ControlLogic

namespace Parser

variable {α β : Type} {s s' t : ParserState} {p : Parser α} {S : Option Token → Prop}

/-! ### Bodies -/

def bodyRound (fuel : Nat) : Parser (Option Stmt) :=
  blockRound (statement fuel) fuel

private theorem blockItems_closed {fuel n : Nat} (h : closes s = true) :
    blockItems (statement fuel) fuel (n + 1) s = .ok [] s := by
  rw [blockItems_succ, bind_ok (looks_check "\x7d" s), bind_ok (show atEnd s = .ok _ s from rfl)]
  change (if closes s = true then _ else _ : Parser (List Stmt)) s = _
  rw [if_pos h]
  rfl

theorem blockItems_open {fuel n : Nat} {found : Option Stmt} (h : closes s = false)
    (hround : bodyRound fuel s = .ok found s') :
    blockItems (statement fuel) fuel (n + 1) s =
      ((found.toList ++ ·) <$> blockItems (statement fuel) fuel n) s' := by
  rw [blockItems_succ, bind_ok (looks_check "\x7d" s), bind_ok (show atEnd s = .ok _ s from rfl)]
  change (if closes s = true then _ else _ : Parser (List Stmt)) s = _
  rw [if_neg (by simp [h]), ← bind_pure_comp]
  exact bind_ok hround

private theorem bodyRound_fuel {fuel : Nat} {found : Option Stmt} (hopen : closes s = false)
    (hround : bodyRound s.fuel s = .ok found s') (hfuel : s.fuel ≤ fuel) :
    bodyRound fuel s = .ok found s' ∧ s.Onward s' ∧ s'.rest.length < s.rest.length := by
  obtain ⟨found', s'', hround', hsame, hon, hless⟩ :=
    blockRound_ok (goes_statement hfuel) hfuel (Nat.lt_succ_self _) hopen
  cases hround.symm.trans hround'
  exact ⟨hsame, hon, hless⟩

private theorem returns_blockItems (s : ParserState) :
    Returns (fun fuel n => blockItems (statement fuel) fuel n) s := by
  induction hlength : s.rest.length using Nat.strongRecOn generalizing s with
  | ind length ih =>
  subst hlength
  cases hclose : closes s with
  | true =>
    refine ⟨[], s, .refl s, fun fuel n _ hn => ?_⟩
    obtain ⟨n, rfl⟩ := exists_succ_of_fuel_le hn
    exact blockItems_closed hclose
  | false =>
    obtain ⟨found, s₁, hround, -, hon, hless⟩ := blockRound_ok (goes_statement (Nat.le_refl s.fuel))
      (Nat.le_refl _) (Nat.lt_succ_self _) hclose
    have hloop : ∀ fuel n, s.fuel ≤ fuel → blockItems (statement fuel) fuel (n + 1) s =
        ((found.toList ++ ·) <$> blockItems (statement fuel) fuel n) s₁ := fun fuel n hfuel =>
      blockItems_open hclose (bodyRound_fuel hclose hround hfuel).1
    exact .of_round hon hless hloop (ih _ hless s₁ rfl)

private theorem within_bodyRound (fuel : Nat) : Within 1 Apart (bodyRound fuel) :=
  within_blockRound (stmtWithin_statement fuel) fuel

private theorem closes_moved {rest : List Token} (read : Nat) (errors : List ParseError)
    (h : rest.head? = s.rest.head?) : closes (s.moved rest read errors) = closes s := by
  rw [closes, closes, current_moved read errors h, ParserState.moved_rest, isEmpty_congr h]

theorem bind_of_map {γ : Type} {q : Parser α} {p : Parser β} {g : α → β} {f : β → Parser γ}
    {s s' : ParserState} (h : p s = (g <$> q) s') : (p >>= f) s = (q >>= fun a => f (g a)) s' := by
  change EStateM.bind p f s = EStateM.bind q (fun a => f (g a)) s'
  change p s = EStateM.map g q s' at h
  rw [EStateM.bind, h, EStateM.map, EStateM.bind]
  cases q s' <;> rfl

private theorem blockItems_moved {u more : List Token} {fuel n : Nat} {found : Option Stmt}
    (hs : s.Cut)
    (hopen : closes s = false) (hround : bodyRound s.fuel s = .ok found s') (htakes : s.Takes u s')
    (hclean : s'.errors = s.errors) (hfuel : s.fuel ≤ fuel)
    (hnext : more.head? = s'.rest.head? ∨ Apart more.head?) (read : Nat)
    (errors : List ParseError) :
    blockItems (statement fuel) fuel (n + 1) (s.moved (u ++ more) read errors) =
      ((found.toList ++ ·) <$> blockItems (statement fuel) fuel n)
        (s'.moved more (read + u.length) errors) := by
  obtain ⟨v, htakes', hrepeats⟩ :=
    (within_bodyRound fuel s hs).takes (bodyRound_fuel hopen hround hfuel).1
  obtain rfl : v = u := List.append_cancel_right (htakes'.rest.symm.trans htakes.rest)
  obtain ⟨hpos, hsame⟩ := hrepeats hclean
  refine blockItems_open ?_ (hsame more read errors hnext)
  rw [closes_moved read errors, hopen]
  rw [htakes.rest]
  exact head?_append (.inl (List.ne_nil_of_length_pos hpos))

/-- Some rounds take a token each and give the first statements of a body. If nothing is refused in
them, they go on in the same way before other items. -/
private theorem blockItems_rounds {n : Nat} (h : Rounds closes bodyRound n s t) (hs : s.Cut) :
    ∃ (first : List Stmt) (u : List Token), s.Takes u t ∧ n ≤ u.length ∧
      (∀ fuel m, s.fuel ≤ fuel → blockItems (statement fuel) fuel (m + n) s =
        ((first ++ ·) <$> blockItems (statement fuel) fuel m) t) ∧
      (t.errors = s.errors → ∀ fuel m more read errors, s.fuel ≤ fuel →
        (more.head? = t.rest.head? ∨ Apart more.head?) →
        blockItems (statement fuel) fuel (m + n) (s.moved (u ++ more) read errors) =
          ((first ++ ·) <$> blockItems (statement fuel) fuel m)
            (t.moved more (read + u.length) errors)) := by
  induction h with
  | done s =>
    exact ⟨[], [], .refl s, Nat.le_refl 0, fun fuel m _ => (congrFun (id_map _) _).symm,
      fun _ fuel m more read errors _ _ => (congrFun (id_map _) _).symm⟩
  | @more n s s₁ t found hopen hround _ ih =>
    obtain ⟨u, htakes, -⟩ := (within_bodyRound s.fuel s hs).takes hround
    obtain ⟨first, v, htakes', hlength, hrun, hrepeats⟩ := ih (hs.of_takes htakes)
    have hless := (bodyRound_fuel hopen hround (Nat.le_refl _)).2.2
    have hfuel₁ {fuel : Nat} (hfuel : s.fuel ≤ fuel) : s₁.fuel ≤ fuel := by
      rw [ParserState.fuel] at hfuel ⊢
      omega
    have hadd (m fuel : Nat) {s s₁ t : ParserState}
        (hstep : blockItems (statement fuel) fuel (m + n + 1) s =
          ((found.toList ++ ·) <$> blockItems (statement fuel) fuel (m + n)) s₁)
        (hbehind : blockItems (statement fuel) fuel (m + n) s₁ =
          ((first ++ ·) <$> blockItems (statement fuel) fuel m) t) :
        blockItems (statement fuel) fuel (m + (n + 1)) s =
          ((found.toList ++ first ++ ·) <$> blockItems (statement fuel) fuel m) t := by
      rw [← Nat.add_assoc, hstep, ← bind_pure_comp, bind_of_map hbehind, ← bind_pure_comp]
      simp only [List.append_assoc]
    refine ⟨found.toList ++ first, u ++ v, htakes.trans htakes', ?_, fun fuel m hfuel => ?_, ?_⟩
    · rw [htakes.rest, List.length_append] at hless
      rw [List.length_append]
      omega
    · exact hadd m fuel (blockItems_open hopen (bodyRound_fuel hopen hround hfuel).1)
        (hrun fuel m (hfuel₁ hfuel))
    · intro hclean fuel m more read errors hfuel hnext
      obtain ⟨hclean₁, hclean₂⟩ := htakes.errors_eq htakes' hclean
      have hmiddle : (v ++ more).head? = s₁.rest.head? ∨ Apart (v ++ more).head? := by
        rw [htakes'.rest]
        cases v with
        | nil => exact hnext
        | cons x v => exact .inl rfl
      rw [List.append_assoc, List.length_append, ← Nat.add_assoc read]
      exact hadd m fuel (blockItems_moved hs hopen hround htakes hclean₁ hfuel hmiddle read errors)
        (hrepeats hclean₂ fuel m more (read + u.length) errors (hfuel₁ hfuel) hnext)

/-! ### Functions -/

/-- A function up to the opening brace of its body: what the variables and the statements of the
body make of it. -/
def functionHead (fuel : Nat) : Parser (List VariableDecl × List Stmt → FunctionDef) := do
  let t ← advance
  let name ← expectName
  expect "("
  let params ← if ← check ")" then pure [] else commaList (parameter fuel) fuel
  expect ")"
  modify fun s => { s with locals := [] }
  expect "\x7b"
  return fun body =>
    ⟨name, (returnOf t.text).1, (returnOf t.text).2, params, body.1, body.2, t.pos⟩

def closeBody (stmts : List Stmt) : Parser (List VariableDecl × List Stmt) := do
  expect "\x7d"
  let locals ← modifyGet fun s => (s.locals, { s with locals := [] })
  return (locals, stmts)

private theorem functionDef_eq (fuel : Nat) :
    functionDef fuel = (functionHead fuel >>= fun build =>
      (blockItems (statement fuel) fuel fuel >>= closeBody) >>= fun body => pure (build body)) := by
  rw [functionDef, functionHead]
  simp only [bodyWithLocals, block, closeBody, bind_assoc, pure_bind, ite_bind]

private theorem goes_functionHead {fuel fuel' : Nat} (h : fuel ≤ fuel') :
    Goes fuel 0 (functionHead fuel) (functionHead fuel') := by
  have hrest (build : List Parameter → List VariableDecl × List Stmt → FunctionDef)
      (params : List Parameter) : Goes fuel 0
        (do expect ")"; modify fun s => { s with locals := [] }; expect "\x7b"; return build params)
        (do expect ")"; modify fun s => { s with locals := [] }; expect "\x7b"; return build params) := by
    refine goes_expect.bind fun _ => Goes.bind (k := 0) (.note ?_ ?_) fun _ =>
      goes_expect.bind fun _ => .pure _
    · exact fun _ => rfl
    · exact fun _ => rfl
  rw [functionHead, functionHead]
  refine goes_advance.bind fun t => goes_expectName.bind fun name => goes_expect.bind fun _ => ?_
  refine .check fun b => .ite (fun _ => (Goes.pure []).bind fun params => ?_) fun _ =>
    (goes_commaList (goes_parameter h) h).bind fun params => ?_
  all_goals exact hrest (fun params body => ⟨name, (returnOf t.text).1, (returnOf t.text).2, params,
    body.1, body.2, t.pos⟩) params

private theorem within_parameterBrackets (fuel : Nat) :
    Within 0 Never (parameterBrackets fuel) := by
  induction fuel with
  | zero => exact within_stuck
  | succ fuel ih =>
    have hmore : Within 0 Never (do
        expect "]"
        let _ ← parameterBrackets fuel
        return true) :=
      within_expect.never (S := Never) |>.bind fun _ => ih.bind fun _ => .pure true
    refine within_consume.never.bind fun opened => .ite ?_ (.pure false)
    exact .check (fun closed => .ite hmore (within_advance.bind fun _ => hmore)) never_stops

theorem within_parameter (fuel : Nat) : Within 1 Never (parameter fuel) := by
  have hname (byRef : Bool) (type : VariableType) : Within 1 Never (do
      let name ← expectName
      let isArray ← parameterBrackets fuel
      return (⟨type, name, byRef, isArray⟩ : Parameter)) :=
    within_expectName.bind fun _ => (within_parameterBrackets fuel).bind fun _ => .pure _
  rw [parameter]
  refine .checkWord (fun byRef => .checkWord (fun byVal => ?_) (.inl Nat.one_pos))
    (.inl Nat.one_pos)
  refine .ite (within_advance.before fun _ => within_advance.before fun t => ?_)
    (within_advance.before fun t => ?_)
  all_goals
    split
    · split
      · exact (Within.pure (S := Never) _).before (hname byRef)
      · exact Within.bind (k := 0) .failAt (hname byRef)
    · refine .get (fun s => .ite ?_ ?_) fun _ _ _ _ => rfl
      · exact (Within.pure (S := Never) _).before (hname byRef)
      · exact Within.bind (k := 0) .failAt (hname byRef)
    · exact Within.bind (k := 0) .failAt (hname byRef)

theorem within_clearLocals :
    Within 0 S (modify fun s => { s with locals := [] } : Parser PUnit) := by
  refine .note (fun s => ?_) fun _ _ _ _ => rfl
  exact ⟨rfl, rfl, List.prefix_rfl, rfl⟩

private theorem within_functionHead (fuel : Nat) : Within 1 S (functionHead fuel) := by
  have hrest (build : List Parameter → List VariableDecl × List Stmt → FunctionDef)
      (params : List Parameter) : Within 1 S
        (do expect ")"; modify fun s => { s with locals := [] }; expect "\x7b"; return build params) :=
    (within_expect (S := Never)).before fun _ => (within_clearLocals (S := Never)).before
      fun _ => within_expect.bind fun _ => .pure _
  refine within_advance.before fun t => (within_expectName (S := Never)).before fun name => ?_
  refine (within_expect (S := Never)).before fun _ => .check (fun empty => .ite ?_ ?_)
    (.inl Nat.one_pos)
  · exact (Within.pure (S := Never) _).before fun params => hrest
      (fun params body => ⟨name, (returnOf t.text).1, (returnOf t.text).2, params, body.1, body.2,
        t.pos⟩) params
  · exact (within_commaList (within_parameter fuel) (fun _ => False.elim) fuel).before fun params =>
      hrest (fun params body => ⟨name, (returnOf t.text).1, (returnOf t.text).2, params, body.1,
        body.2, t.pos⟩) params

private theorem within_closeBody (stmts : List Stmt) : Within 1 S (closeBody stmts) := by
  have htake : Within 0 S (modifyGet fun s => (s.locals, { s with locals := [] }) :
      Parser (List VariableDecl)) :=
    fun s _ => .ok (u := []) rfl ⟨rfl, rfl, List.prefix_rfl, rfl⟩ fun _ =>
      ⟨Nat.le_refl 0, fun _ _ _ _ => rfl⟩
  exact within_expect.bind fun _ => htake.bind fun _ => .pure _

/-- A state among the items of the body of a function: behind the head and some items. -/
def AmongItems (s t : ParserState) : Prop :=
  ∃ n build s₁, functionHead s.fuel s = .ok build s₁ ∧ Rounds closes bodyRound n s₁ t

def bodyBehind (first : List Stmt) (fuel n : Nat) : Parser (List VariableDecl × List Stmt) := do
  let more ← blockItems (statement fuel) fuel n
  closeBody (first ++ more)

theorem within_bodyBehind (first : List Stmt) (fuel n : Nat) :
    Within 1 S (bodyBehind first fuel n) :=
  (within_blockItems (stmtWithin_statement fuel) fuel n).before fun _ => within_closeBody _

theorem bodyBehind_fuel {first : List Stmt} {fuel n m : Nat} (hfuel : s.fuel ≤ fuel)
    (hn : s.fuel ≤ n) (hm : s.fuel ≤ m) :
    bodyBehind first fuel n s = bodyBehind first fuel m s := by
  obtain ⟨stmts, t, -, hreturns⟩ := returns_blockItems s
  rw [bodyBehind, bodyBehind, bind_ok (hreturns fuel n hfuel hn),
    bind_ok (hreturns fuel m hfuel hm)]

theorem WithinAt.moved_rest {k : Nat} {a : α} (h : WithinAt k S p s) (hrun : p s = .ok a s')
    (hclean : s'.errors = s.errors) (read : Nat) (errors : List ParseError) :
    ∃ u, s.Takes u s' ∧
      p (s.moved s.rest read errors) = .ok a (s'.moved s'.rest (read + u.length) errors) := by
  obtain ⟨u, htakes, hrepeats⟩ := h.takes hrun
  refine ⟨u, htakes, ?_⟩
  rw [htakes.rest]
  exact (hrepeats hclean).2 s'.rest read errors (.inl rfl)

/-- A function is read up to a place among the items of its body, and then what is left of the body.
If nothing is refused up to there, other items may stand behind the place. -/
theorem AmongItems.functionDef_split (hs : s.Cut) (h : AmongItems s t) :
    ∃ (build : List VariableDecl × List Stmt → FunctionDef) (first : List Stmt) (u : List Token)
      (n : Nat), s.Takes u t ∧ n ≤ u.length ∧
      ∀ m, s.fuel ≤ m + n →
        functionDef (m + n) s = (build <$> bodyBehind first (m + n) m) t ∧
        (t.errors = s.errors → ∀ more read errors, Apart more.head? →
          functionDef (m + n) (s.moved (u ++ more) read errors) =
            (build <$> bodyBehind first (m + n) m) (t.moved more (read + u.length) errors)) := by
  obtain ⟨n, build, s₁, hhead, hrounds⟩ := h
  obtain ⟨u, htakes, -⟩ := (within_functionHead (S := Never) s.fuel s hs).takes hhead
  obtain ⟨first, v, htakes', hlength, hrun, hrepeats⟩ :=
    blockItems_rounds hrounds (hs.of_takes htakes)
  -- Behind the head the items are read, and from the place on what is left of the body.
  have hbody {fuel m : Nat} {s s₁ t : ParserState} (hhead : functionHead fuel s = .ok build s₁)
      (hitems : blockItems (statement fuel) fuel fuel s₁ =
        ((first ++ ·) <$> blockItems (statement fuel) fuel m) t) :
      functionDef fuel s = (build <$> bodyBehind first fuel m) t := by
    have hread : (blockItems (statement fuel) fuel fuel >>= closeBody) s₁ =
        bodyBehind first fuel m t := bind_of_map hitems
    rw [functionDef_eq, bind_ok hhead, ← bind_pure_comp]
    change EStateM.bind _ _ s₁ = EStateM.bind _ _ t
    rw [EStateM.bind, hread, EStateM.bind]
  refine ⟨build, first, u ++ v, n, htakes.trans htakes', ?_, fun m hfuel => ?_⟩
  · rw [List.length_append]
    omega
  have hhead' := (goes_functionHead hfuel s (Nat.lt_succ_self _)).ok_iff.mp hhead
  have hfuel₁ : s₁.fuel ≤ m + n := by
    rw [ParserState.fuel, htakes.rest, List.length_append] at hfuel
    rw [ParserState.fuel]
    omega
  refine ⟨hbody hhead' (hrun _ m hfuel₁), fun hclean more read errors hnext => ?_⟩
  obtain ⟨hclean₁, hclean₂⟩ := htakes.errors_eq htakes' hclean
  obtain ⟨u', htakes₁, hsame⟩ := (within_functionHead (S := fun _ => True) _ s hs).takes hhead'
  obtain rfl : u' = u := List.append_cancel_right (htakes₁.rest.symm.trans htakes.rest)
  rw [List.append_assoc, List.length_append, ← Nat.add_assoc read]
  exact hbody ((hsame hclean₁).2 (v ++ more) read errors (.inr trivial))
    (hrepeats hclean₂ _ m more (read + u'.length) errors hfuel₁ (.inr hnext))

end Parser

end ControlLogic
