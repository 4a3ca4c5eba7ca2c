import ControlLogic.Proofs.Program.Lookahead
import ControlLogic.Proofs.Program.StmtProgress

/-!
What readers of statements look at. Behind the tokens of a statement they look at the next token
only: the word that goes on with a branch, or the semicolon that may end a loop. Before any other
token a statement of which nothing is refused is read in the same way.
-/

set_option autoImplicit false
set_option relaxedAutoImplicit false

namespace ControlLogic

namespace Parser

variable {α β : Type} {k fuel : Nat} {S : Option Token → Prop} {s : ParserState} {p : Parser α}

/-- The next token does not go on with a statement that may end before it. -/
def Apart : Option Token → Prop :=
  fun next => ∀ t ∈ next, Text.sameWord t.text "ELSE" = false ∧ isMark ";" t = false

theorem apart_none : Apart none := by
  rintro t ⟨⟩

/-! ### Going on behind a refusal -/

private theorem takes_behind (e : ParseError) (s : ParserState) : ∃ u, s.Takes u (behind e s) := by
  obtain ⟨⟨u, hu⟩, hcount⟩ := skipItem_onward s.rest s.read
  refine ⟨u, hu.symm, ?_, List.prefix_append _ _, rfl⟩
  have hlength := congrArg List.length hu
  rw [List.length_append] at hlength
  change (skipItem s.rest s.read).2 = s.read + u.length
  omega

theorem WithinAt.recovering (h : WithinAt k S p s) :
    WithinAt k S (Parser.recovering p) s := by
  cases h with
  | ok hrun htakes hclean =>
    refine .ok (recovering_ok hrun) htakes fun hsame => ⟨(hclean hsame).1, ?_⟩
    exact fun more read errors hnext => recovering_ok ((hclean hsame).2 more read errors hnext)
  | @halts halt u s₁ hrun htakes =>
    cases halt with
    | stuck => exact .halts (recovering_stuck hrun) htakes
    | error e =>
      obtain ⟨v, hbehind⟩ := takes_behind e s₁
      refine .ok (recovering_refused hrun) (htakes.trans hbehind) fun hsame => ?_
      -- A refusal has been added.
      have hlength := congrArg List.length (htakes.errors_eq hbehind hsame).2
      rw [behind, List.length_append, List.length_singleton] at hlength
      omega

theorem advancePast_cases (before : Nat) (s : ParserState) :
    (s.read ≠ before → advancePast before s = .ok () s) ∧
      ∃ u s', advancePast before s = .ok () s' ∧ s.Takes u s' := by
  have hrun : advancePast before s =
      (if s.read = before then advance >>= fun _ => pure () else pure () : Parser Unit) s := rfl
  rw [hrun]
  split
  next hread =>
    refine ⟨fun hne => absurd hread hne, ?_⟩
    cases hrest : s.rest with
    | nil => exact ⟨[], s, bind_ok (advance_nil hrest), .refl s⟩
    | cons t rest => exact ⟨[t], _, bind_ok (advance_cons hrest), ParserState.takes_cons hrest⟩
  next => exact ⟨fun _ => rfl, [], s, rfl, .refl s⟩

theorem WithinAt.movingOn (h : WithinAt (k + 1) S p s) :
    WithinAt (k + 1) S (Parser.movingOn p) s := by
  cases h with
  | halts hrun htakes => exact .halts (movingOn_error hrun) htakes
  | @ok a u s₁ hrun htakes hclean =>
    obtain ⟨hpast, v, s₂, hadvance, htakes'⟩ := advancePast_cases s.read s₁
    refine .ok (movingOn_ok hrun hadvance) (htakes.trans htakes') fun hsame => ?_
    obtain ⟨hlength, hrepeats⟩ := hclean (htakes.errors_eq htakes' hsame).1
    have hread : s₁.read ≠ s.read := by
      have hcount := htakes.read
      omega
    cases hadvance.symm.trans (hpast hread)
    obtain rfl : v = [] := by
      have hv := congrArg List.length htakes'.rest
      rw [List.length_append] at hv
      exact List.length_eq_zero_iff.mp (by omega)
    rw [List.append_nil]
    refine ⟨hlength, fun more read errors hnext => ?_⟩
    refine movingOn_ok (hrepeats more read errors hnext) ?_
    refine (advancePast_cases _ _).1 ?_
    rw [ParserState.moved_read, ParserState.moved_read]
    omega

/-! ### Items of a body -/

private theorem following_moved {u more rest : List Token} (hrest : s.rest = u ++ rest)
    (hlength : 2 ≤ u.length) (read : Nat) (errors : List ParseError) :
    (s.moved (u ++ more) read errors).following = s.following := by
  obtain ⟨x, y, v, rfl⟩ : ∃ x y v, u = x :: y :: v := by
    match u, hlength with
    | x :: y :: v, _ => exact ⟨x, y, v, rfl⟩
  rw [ParserState.following, ParserState.following, hrest]
  rfl

theorem declares_moved {u more rest : List Token} (hrest : s.rest = u ++ rest) (hpos : u ≠ [])
    (hshort : u.length < 2 → s.current.kind ≠ .identifier) (read : Nat)
    (errors : List ParseError) : declares (s.moved (u ++ more) read errors) = declares s := by
  have hcurrent : (s.moved (u ++ more) read errors).current = s.current :=
    current_moved _ _ (by rw [hrest]; exact head?_append (.inl hpos))
  rw [declares, declares, hcurrent]
  by_cases hkind : s.current.kind = .identifier
  · have hlength : 2 ≤ u.length := by
      by_contra hless
      exact hshort (by omega) hkind
    rw [following_moved hrest hlength]
    rfl
  · rw [beq_eq_false_iff_ne.mpr hkind]
    rfl

def declaredItem (fuel : Nat) : Parser (Option Stmt) := do
  let decls ← recovering (variableDecls fuel)
  modify fun s => { s with locals := s.locals ++ decls.getD [] }
  return none

theorem blockItem_apply (stmt : Parser Stmt) (fuel : Nat) (s : ParserState) :
    blockItem stmt fuel s = (if declares s = true then declaredItem fuel else recovering stmt) s :=
  bind_ok (startsVariableDecl_ok s)

private theorem within_declaredItem (fuel : Nat) : Within 2 S (declaredItem fuel) := by
  have hdecls : Within 2 S (recovering (variableDecls fuel)) :=
    fun s hs => (within_variableDecls fuel s hs).recovering
  refine hdecls.bind fun decls => Within.bind (k := 0) (.note ?_ ?_) fun _ => .pure none
  · exact fun s => ⟨rfl, rfl, List.prefix_rfl, rfl⟩
  · exact fun _ _ _ _ => rfl

/-- Statements are read with no look behind their end but at the next token, and those that begin
with an identifier have two tokens at least. -/
structure StmtWithin (stmt : Parser Stmt) : Prop where
  all : Within 1 Apart stmt
  named : ∀ s : ParserState, s.Cut → s.current.kind = .identifier → WithinAt 2 Apart stmt s

theorem WithinAt.congr {q : Parser α} (h : WithinAt k S q s) (hsame : p s = q s)
    (hmoved : ∀ u rest more read errors, s.rest = u ++ rest → k ≤ u.length →
      p (s.moved (u ++ more) read errors) = q (s.moved (u ++ more) read errors)) :
    WithinAt k S p s := by
  cases h with
  | halts hrun htakes => exact .halts (hsame.trans hrun) htakes
  | ok hrun htakes hclean =>
    refine .ok (hsame.trans hrun) htakes fun herrors => ?_
    obtain ⟨hlength, hrepeats⟩ := hclean herrors
    refine ⟨hlength, fun more read errors hnext => ?_⟩
    rw [hmoved _ _ more read errors htakes.rest hlength]
    exact hrepeats more read errors hnext

section

variable {stmt : Parser Stmt} (h : StmtWithin stmt)
include h

private theorem within_blockItem (fuel : Nat) : Within 1 Apart (blockItem stmt fuel) := by
  intro s hs
  have hitem (k : Nat) (hk : 0 < k) (hshort : k < 2 → s.current.kind ≠ .identifier)
      (hrun :
        WithinAt k Apart (if declares s = true then declaredItem fuel else recovering stmt) s) :
      WithinAt 1 Apart (blockItem stmt fuel) s := by
    refine (hrun.congr (blockItem_apply stmt fuel s) ?_).mono hk fun _ h => h
    intro u rest more read errors hrest hlength
    rw [blockItem_apply, declares_moved hrest (List.ne_nil_of_length_pos (by omega))
      fun hless => hshort (by omega)]
  cases hdeclares : declares s with
  | true =>
    rw [hdeclares] at hitem
    exact hitem 2 Nat.two_pos (fun hless => absurd hless (lt_irrefl 2))
      (within_declaredItem fuel s hs)
  | false =>
    rw [hdeclares] at hitem
    by_cases hkind : s.current.kind = .identifier
    · exact hitem 2 Nat.two_pos (fun hless => absurd hless (lt_irrefl 2))
        (h.named s hs hkind).recovering
    · exact hitem 1 Nat.one_pos (fun _ => hkind) (h.all s hs).recovering

theorem within_blockRound (fuel : Nat) : Within 1 Apart (blockRound stmt fuel) :=
  fun s hs => (within_blockItem h fuel s hs).movingOn

theorem within_blockItems (allFuel fuel : Nat) : Within 0 Never (blockItems stmt allFuel fuel) := by
  induction fuel with
  | zero => exact within_stuck
  | succ fuel ih =>
    rw [blockItems_succ]
    refine .check (fun closed => .atEnd (fun ended => .ite (.pure _) ?_) never_stops)
      never_stops
    refine (within_blockRound h allFuel).never.bind fun item => ?_
    exact ih.bind fun rest => .pure _

theorem within_block (fuel : Nat) : Within 2 S (block stmt fuel) :=
  (within_expect (S := Never)).andThen (fun _ => (within_blockItems h fuel fuel).andThen
    (fun _ => within_expect.bind fun _ => .pure _) (Nat.le_refl 1)) (Nat.le_refl 2)

theorem within_body (fuel : Nat) : Within 1 Apart (body stmt fuel) :=
  .check (fun _ => .ite ((within_block h fuel).mono (Nat.le_succ 1) fun _ h => h)
    (h.all.bind fun _ => .pure _)) (.inl Nat.one_pos)

theorem within_openStatements (fuel : Nat) : Within 0 Never (openStatements stmt fuel) := by
  induction fuel with
  | zero => exact within_stuck
  | succ fuel ih =>
    rw [openStatements, endsAlternative]
    simp only [bind_assoc, pure_bind]
    refine .check (fun _ => .checkWord (fun _ => .checkWord (fun _ => .atEnd (fun _ => .ite
      (.pure _) ?_) never_stops) never_stops) never_stops) never_stops
    exact h.all.never.bind fun first => ih.bind fun rest => .pure _

end

theorem within_parenthesized (fuel : Nat) : Within 2 S (parenthesized fuel) :=
  (within_expect (S := Never)).andThen (fun _ => (within_expression fuel).never.andThen
    (fun _ => within_expect.bind fun _ => .pure _) (Nat.le_refl 1)) (Nat.le_refl 2)

theorem within_label (fuel : Nat) : Within 1 S (label fuel) := by
  have hcolon (value : Option Expr) : Within 1 S (do expect ":"; return value) :=
    within_expect.bind fun _ => .pure value
  refine .checkWord (fun a => .checkWord (fun b => .ite ?_ (.ite ?_ ?_)) (.inl Nat.one_pos))
    (.inl Nat.one_pos)
  · exact within_advance.andThen
      (fun _ => (within_expression fuel).map.andThen hcolon (Nat.le_succ 1)) (Nat.le_refl 1)
  · exact within_advance.andThen
      (fun _ => (Within.pure (S := Never) none).andThen hcolon (Nat.le_refl 1)) (Nat.le_refl 1)
  · exact .current (fun t => Within.bind (k := 0) .fail hcolon) (.inl Nat.one_pos)

section

variable {stmt : Parser Stmt} (h : StmtWithin stmt)
include h

theorem within_alternativeRound (fuel : Nat) : Within 0 Never (alternativeRound stmt fuel) := by
  refine (within_label fuel).never (S := Never) |>.bind fun value => ?_
  refine .check (fun b => .ite ?_ ?_) never_stops
  · exact ((within_block h fuel).never (S := Never)).bind fun body => .pure _
  · exact (within_openStatements h fuel).bind fun body => .pure _

theorem within_alternatives (allFuel fuel : Nat) :
    Within 0 Never (alternatives stmt allFuel fuel) := by
  induction fuel with
  | zero => exact within_stuck
  | succ fuel ih =>
    rw [alternatives_succ]
    refine .check (fun closed => .atEnd (fun ended => .ite (.pure _) ?_) never_stops) never_stops
    exact (within_alternativeRound h allFuel).bind fun first => ih.bind fun rest => .pure _

private theorem within_branchRest (fuel : Nat) (pos : Position) :
    Within 1 Apart (branchRest stmt fuel pos) := by
  refine (within_parenthesized fuel).before (T := Never) fun condition => ?_
  refine (within_body h fuel).bind fun body s hs => ?_
  refine .optional (looks_checkWord "ELSE") (fun _ => ?_) (fun _ => Within.pure _ s hs)
    fun next hnext => ?_
  · refine within_advance.before (fun _ => ?_) s hs
    refine .checkWord (fun nested => .ite ?_ ?_) (.inl Nat.one_pos)
    · exact h.all.bind fun other => .pure _
    · exact (within_body h fuel).bind fun other => .pure _
  · cases next with
    | none =>
      have hend : Text.sameWord "" "ELSE" = false := by decide +kernel
      exact hend
    | some t => exact (hnext t rfl).1

private theorem within_countRest (fuel : Nat) (pos : Position) :
    Within 1 Apart (countRest stmt fuel pos) := by
  have hrest (counter start finish : Expr) (step : Option Expr) : Within 1 Apart (do
      expect ")"
      let loopBody ← body stmt fuel
      return Stmt.count pos counter start finish step loopBody) :=
    within_expect.bind fun _ => (within_body h fuel).bind fun _ => .pure _
  refine (within_expect (S := Never)).before fun _ => ?_
  refine (within_place fuel).before fun counter => ?_
  refine (within_expect (S := Never)).before fun _ => ?_
  refine (within_expression fuel).before fun start => ?_
  refine (within_expectWord (S := Never)).before fun _ => ?_
  refine (within_expression fuel).before fun finish => ?_
  refine .checkWord (fun stepped => .ite ?_ ?_) (.inl Nat.one_pos)
  · exact within_advance.before fun _ =>
      (within_expression fuel).map.before fun step => hrest _ _ _ _
  · exact (Within.pure (S := Never) _).before fun step => hrest _ _ _ _

private theorem within_switchRest (fuel : Nat) (pos : Position) (runsOn : Bool) :
    Within 1 S (switchRest stmt fuel pos runsOn) :=
  (within_parenthesized fuel (S := Never)).before fun _ =>
    (within_expect (S := Never)).before fun _ =>
      (within_alternatives h fuel fuel).before fun _ => within_expect.bind fun _ => .pure _

private theorem within_waitRest (fuel : Nat) (pos : Position) :
    Within 1 S (waitRest stmt fuel pos) := by
  have hrest (duration : Expr) (name : Option String) : Within 1 S (do
      expect ")"
      if ← check "\x7b" then
        return Stmt.wait pos duration name (some (← block stmt fuel))
      else
        expect ";"
        return Stmt.wait pos duration name none) := by
    refine (within_expect (S := Never)).before fun _ => .check (fun b => .ite ?_ ?_)
      (.inl Nat.one_pos)
    · exact ((within_block h fuel).mono (Nat.le_succ 1) fun _ h => h).bind fun body => .pure _
    · exact within_expect.bind fun _ => .pure _
  refine (within_expect (S := Never)).before fun _ => ?_
  refine (within_expression fuel).before fun duration => ?_
  refine within_consume.before fun named => .ite ?_ ?_
  · exact (within_expectName (S := Never)).map.before fun name => hrest _ _
  · exact (Within.pure (S := Never) _).before fun name => hrest _ _

private theorem within_keywordStmt (fuel : Nat) (pos : Position) (keyword : String) :
    ∀ rest ∈ keywordStmt stmt fuel pos keyword, Within 1 Apart rest := by
  intro rest hrest
  unfold keywordStmt at hrest
  split at hrest <;> cases hrest
  · exact within_branchRest h fuel pos
  · exact within_countRest h fuel pos
  · exact (within_parenthesized fuel (S := Never)).before fun _ =>
      (within_body h fuel).bind fun _ => .pure _
  · have hsemicolon : Within 0 Apart (consume ";") :=
      within_consume.mono (Nat.le_refl 0) fun _ hnext t ht => (hnext t ht).2
    refine (within_body h fuel).before fun loopBody => ?_
    refine (within_expectWord (S := Never)).before fun _ => ?_
    refine ((within_parenthesized fuel).mono (Nat.le_succ 1) fun _ h => h).bind fun condition => ?_
    exact hsemicolon.bind fun _ => .pure _
  · exact within_switchRest h fuel pos false
  · exact within_switchRest h fuel pos true
  · exact within_waitRest h fuel pos
  · refine .check (fun b => .ite ?_ ?_) (.inl Nat.one_pos)
    · exact (Within.pure (S := Never) _).before fun _ => within_expect.bind fun _ => .pure _
    · exact (within_expression fuel).map.before fun _ => within_expect.bind fun _ => .pure _
  · exact within_expect.bind fun _ => .pure _
  · exact within_expect.bind fun _ => .pure _

end

def callStmt (fuel : Nat) (pos : Position) : Parser Stmt := do
  let routine ← expression fuel
  expect ";"
  return .call pos routine

def assignStmt (fuel : Nat) (pos : Position) : Parser Stmt := do
  let target ← place fuel
  expect "="
  let value ← expression fuel
  expect ";"
  return .assign pos target value

theorem simpleStmt_apply (fuel : Nat) (pos : Position) (s : ParserState) :
    simpleStmt fuel pos s =
      (if s.following.text = "(" then callStmt fuel pos else assignStmt fuel pos) s :=
  rfl

private theorem within_simpleStmt (fuel : Nat) (pos : Position) :
    Within 2 S (simpleStmt fuel pos) := by
  intro s hs
  have hcall : Within 2 S (callStmt fuel pos) :=
    (within_expression fuel).andThen (fun _ => within_expect.bind fun _ => .pure _) (Nat.le_refl 2)
  have hassign : Within 2 S (assignStmt fuel pos) :=
    (within_place fuel).andThen (fun _ => (within_expect (S := Never)).before fun _ =>
      (within_expression fuel).before fun _ => within_expect.bind fun _ => .pure _) (Nat.le_refl 2)
  refine (Within.ite hcall hassign s hs).congr (simpleStmt_apply fuel pos s) ?_
  intro u rest more read errors hrest hlength
  rw [simpleStmt_apply, following_moved hrest hlength]

theorem text_notMem_marks {t : Token} (h : ∃ text, t ∈ Token.scan text) (hname : t.isName = true) :
    t.text ∉ [";", "\x7b"] := by
  obtain ⟨text, h⟩ := h
  obtain ⟨⟨c, cs, htext, hstart, -⟩, -⟩ := isWord_of_mem_scan h hname
  intro hmark
  simp only [List.mem_cons, List.not_mem_nil, or_false] at hmark
  rcases hmark with hmark | hmark
  all_goals
    rw [hmark] at htext
    rw [← (List.cons.inj htext).1] at hstart
    exact absurd hstart (by decide)

theorem current_mem (h : s.rest ≠ []) : s.current ∈ s.rest := by
  obtain ⟨t, rest, hrest⟩ := List.exists_cons_of_ne_nil h
  rw [ParserState.current, hrest]
  exact List.mem_cons_self

theorem stmtWithin_statement (fuel : Nat) : StmtWithin (statement fuel) := by
  induction fuel with
  | zero => exact ⟨within_stuck, fun s hs _ => within_stuck s hs⟩
  | succ fuel ih =>
    have hblock (pos : Position) : Within 2 Apart (do
        return Stmt.block pos (← block (statement fuel) fuel)) :=
      (within_block ih fuel).bind fun _ => .pure _
    constructor
    · intro s hs
      refine .current ?_ (.inl Nat.one_pos)
      split
      next hkeyword =>
        have hrest : s.rest ≠ [] :=
          ParserState.rest_ne_nil (P := fun t => t.kind = .keyword) hkeyword (by simp)
        have hbehind := within_keywordStmt ih fuel s.current.pos (Text.upper s.current.text)
        cases hfound : keywordStmt (statement fuel) fuel s.current.pos
          (Text.upper s.current.text) with
        | none => exact Within.fail s hs
        | some rest =>
          exact within_advance.before (fun _ => hbehind rest hfound) s hs
      next =>
        split
        · exact (hblock _ s hs).mono (Nat.le_succ 1) fun _ h => h
        split
        next htext =>
          have hrest : s.rest ≠ [] :=
            ParserState.rest_ne_nil (P := fun t => t.text = ";") htext (by simp)
          exact .step hrest hs fun _ => .pure _
        next =>
          split
          · exact (within_simpleStmt _ _ s hs).mono (Nat.le_succ 1) fun _ h => h
          · exact Within.fail s hs
    · intro s hs hkind
      have hname : s.current.isName = true := by simp [Token.isName, hkind]
      have htext := text_notMem_marks (hs _ (current_mem (name_ne_nil hname))) hname
      simp only [List.mem_cons, List.not_mem_nil, or_false, not_or] at htext
      refine .current ?_ (.inl Nat.two_pos)
      rw [if_neg (by simp [hkind]), if_neg htext.2, if_neg htext.1, if_pos hname]
      exact within_simpleStmt _ _ s hs

end Parser

end ControlLogic
