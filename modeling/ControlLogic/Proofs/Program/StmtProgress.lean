import ControlLogic.Program.Parser.Stmt
import ControlLogic.Proofs.Program.Progress

/-!
How far readers of statements get. Each round of their loops reads at least one token or refuses
what it finds, and each descent into a statement inside another costs a token.
-/

set_option autoImplicit false
set_option relaxedAutoImplicit false

namespace ControlLogic

namespace Parser

variable {α β : Type} {n k fuel fuel' : Nat} {s : ParserState} {p q : Parser α}

/-! ### Loops that read at least one token in each round -/

/-- Reads one token if none has been read since `before` tokens were. -/
def advancePast (before : Nat) : Parser Unit := do
  if (← get).read = before then
    let _ ← advance

def movingOn (p : Parser α) : Parser α := do
  let before := (← get).read
  let a ← p
  advancePast before
  return a

theorem advancePast_ok {s' : ParserState} (hon : s.Onward s') (hrest : s.rest ≠ []) :
    ∃ s'', advancePast s.read s' = .ok () s'' ∧ s.Onward s'' ∧
      s''.rest.length < s.rest.length := by
  have hrun : advancePast s.read s' =
      (if s'.read = s.read then advance >>= fun _ => pure () else pure () : Parser Unit) s' := rfl
  rw [hrun]
  split
  · rename_i hread
    have hlength := hon.read_eq_iff.mp hread
    obtain ⟨t, rest, ht⟩ : ∃ t rest, s'.rest = t :: rest := by
      refine List.exists_cons_of_ne_nil fun hnil => hrest ?_
      rw [hnil] at hlength
      exact List.length_eq_zero_iff.mp hlength.symm
    refine ⟨_, bind_ok (advance_cons ht), hon.trans (onward_tail ht), ?_⟩
    rw [← hlength, ht]
    exact Nat.lt_succ_self _
  · rename_i hread
    have hlength := hon.length_le
    have hne := mt hon.read_eq_iff.mpr hread
    exact ⟨s', rfl, hon, by omega⟩

theorem movingOn_ok {a : α} {s' s'' : ParserState} (hp : p s = .ok a s')
    (hpast : advancePast s.read s' = .ok () s'') : movingOn p s = .ok a s'' := by
  have hrun : movingOn p s = (p >>= fun a => advancePast s.read >>= fun _ => pure a) s := rfl
  rw [hrun, bind_ok hp, bind_ok hpast]
  rfl

theorem movingOn_error {halt : Halt} {s' : ParserState} (hp : p s = .error halt s') :
    movingOn p s = .error halt s' := by
  have hrun : movingOn p s = (p >>= fun a => advancePast s.read >>= fun _ => pure a) s := rfl
  rw [hrun, bind_error hp]

theorem ite_bind {c : Prop} [Decidable c] (p q : Parser α) (f : α → Parser β) :
    (if c then p else q) >>= f = if c then p >>= f else q >>= f := by
  split <;> rfl

def closes (s : ParserState) : Bool :=
  isMark "\x7d" s.current || s.rest.isEmpty

theorem rest_ne_nil_of_open (h : closes s = false) : s.rest ≠ [] := by
  intro hrest
  simp [closes, hrest] at h

/-! ### Statements -/

section

variable {stmt stmt' : Parser Stmt}

def blockItem (stmt : Parser Stmt) (fuel : Nat) : Parser (Option Stmt) := do
  if ← startsVariableDecl then
    let decls ← recovering (variableDecls fuel)
    modify fun s => { s with locals := s.locals ++ decls.getD [] }
    return none
  else
    recovering stmt

def blockRound (stmt : Parser Stmt) (fuel : Nat) : Parser (Option Stmt) :=
  movingOn (blockItem stmt fuel)

theorem blockItems_succ (stmt : Parser Stmt) (allFuel fuel : Nat) :
    blockItems stmt allFuel (fuel + 1) = (do
      if (← check "\x7d") || (← atEnd) then
        return []
      else
        let item ← blockRound stmt allFuel
        return item.toList ++ (← blockItems stmt allFuel fuel)) := by
  simp only [blockItems, blockRound, movingOn, advancePast, blockItem, bind_assoc, pure_bind,
    ite_bind]

def alternativeRound (stmt : Parser Stmt) (fuel : Nat) : Parser (Alternative Stmt) := do
  let value ← label fuel
  let statements ← if ← check "\x7b" then block stmt fuel else openStatements stmt fuel
  return ⟨value, statements⟩

theorem alternatives_succ (stmt : Parser Stmt) (allFuel fuel : Nat) :
    alternatives stmt allFuel (fuel + 1) = (do
      if (← check "\x7d") || (← atEnd) then
        return []
      else
        let alternative ← alternativeRound stmt allFuel
        return alternative :: (← alternatives stmt allFuel fuel)) := by
  simp only [alternatives, alternativeRound, bind_assoc, pure_bind, ite_bind]

variable (h : Goes fuel 1 stmt stmt')

include h

private theorem blockItem_ok (hfuel : fuel ≤ fuel') (hs : s.rest.length < fuel) :
    ∃ item s', blockItem stmt fuel s = .ok item s' ∧ blockItem stmt' fuel' s = .ok item s' ∧
      s.Onward s' := by
  have hrun : ∀ (stmt : Parser Stmt) (fuel : Nat), blockItem stmt fuel s =
      (if declares s = true then recovering (variableDecls fuel) >>= fun decls => do
        modify fun s => { s with locals := s.locals ++ decls.getD [] }
        return none
      else recovering stmt : Parser (Option Stmt)) s :=
    fun stmt fuel => bind_ok (startsVariableDecl_ok s)
  rw [hrun, hrun]
  split
  · obtain ⟨decls, s', hp, hq, hon⟩ := (goes_variableDecls hfuel s hs).recovering
    rw [bind_ok hp, bind_ok hq]
    exact ⟨none, _, rfl, rfl, hon.suffix, hon.count⟩
  · exact (h s hs).recovering

theorem blockRound_ok (hfuel : fuel ≤ fuel') (hs : s.rest.length < fuel)
    (hopen : closes s = false) :
    ∃ item s', blockRound stmt fuel s = .ok item s' ∧ blockRound stmt' fuel' s = .ok item s' ∧
      s.Onward s' ∧ s'.rest.length < s.rest.length := by
  obtain ⟨item, s', hp, hq, hon⟩ := blockItem_ok h hfuel hs
  obtain ⟨s'', hpast, hon', hless⟩ := advancePast_ok hon (rest_ne_nil_of_open hopen)
  exact ⟨item, s'', movingOn_ok hp hpast, movingOn_ok hq hpast, hon', hless⟩

private theorem goes_blockItems (hfuel : fuel ≤ fuel') :
    Goes fuel 0 (blockItems stmt fuel fuel) (blockItems stmt' fuel' fuel') := by
  have hloop : ∀ n n', n ≤ fuel → n ≤ n' →
      Goes n 0 (blockItems stmt fuel n) (blockItems stmt' fuel' n') := by
    intro n
    induction n with
    | zero => exact fun n' _ _ s hs => absurd hs (Nat.not_lt_zero _)
    | succ n ih =>
      intro n' hn hn' s hs
      obtain ⟨n', rfl⟩ : ∃ m, n' = m + 1 := ⟨n' - 1, by omega⟩
      rw [blockItems_succ, blockItems_succ]
      refine .look (looks_check _ s) (.look rfl ?_)
      split
      · exact Goes.pure _ s hs
      · rename_i hopen
        obtain ⟨item, s₁, hp, hq, hon, hless⟩ :=
          blockRound_ok h hfuel (by omega) (Bool.not_eq_true _ ▸ hopen)
        refine GoesAt.bind (.ok hp hq hon hless) (fun item s' hs' => ?_) (Nat.zero_le (1 + 0))
        exact (ih n' (by omega) (by omega)).bind (fun more => .pure _) s' (by omega)
  exact hloop fuel fuel' (Nat.le_refl _) hfuel

theorem goes_block (hfuel : fuel ≤ fuel') :
    Goes (fuel + 1) 1 (block stmt fuel) (block stmt' fuel') := by
  rw [block, block]
  refine goes_expect.descend fun _ => (goes_blockItems h hfuel).bind fun body => ?_
  exact goes_expect.bind fun _ => .pure body

private theorem goes_body (hfuel : fuel ≤ fuel') :
    Goes fuel 1 (body stmt fuel) (body stmt' fuel') := by
  rw [body, body]
  refine .check fun b => .ite (fun _ => ?_) fun _ => h.bind fun first => .pure [first]
  exact (goes_block h hfuel).mono (Nat.le_succ fuel) (Nat.le_refl 1)

private theorem goes_openStatements (hfuel : fuel ≤ fuel') :
    Goes fuel 0 (openStatements stmt fuel) (openStatements stmt' fuel') := by
  have hloop : ∀ n n', n ≤ fuel → n ≤ n' →
      Goes n 0 (openStatements stmt n) (openStatements stmt' n') := by
    intro n
    induction n with
    | zero => exact fun n' _ _ s hs => absurd hs (Nat.not_lt_zero _)
    | succ n ih =>
      intro n' hn hn' s hs
      obtain ⟨n', rfl⟩ : ∃ m, n' = m + 1 := ⟨n' - 1, by omega⟩
      rw [openStatements, openStatements]
      refine .look (a := _) rfl ?_
      refine Goes.ite (fun _ => .pure []) (fun _ => ?_) s hs
      refine ((h.mono hn (Nat.le_refl 1)).descend fun first => ?_).mono (Nat.le_refl _)
        (Nat.zero_le 1)
      exact (ih n' (by omega) (by omega)).bind fun more => .pure (first :: more)
  exact hloop fuel fuel' (Nat.le_refl _) hfuel

end

private theorem goes_parenthesized (h : fuel ≤ fuel') :
    Goes fuel 1 (parenthesized fuel) (parenthesized fuel') := by
  rw [parenthesized, parenthesized]
  refine goes_expect.bind fun _ => (goes_expression h).bind fun e => ?_
  exact goes_expect.bind fun _ => .pure e

private theorem goes_label (h : fuel ≤ fuel') : Goes fuel 1 (label fuel) (label fuel') := by
  have hcolon : ∀ value : Option Expr,
      Goes fuel 1 (do expect ":"; return value) (do expect ":"; return value) :=
    fun value => goes_expect.bind fun _ => .pure value
  rw [label, label]
  refine .checkWord fun a => .checkWord fun b => .ite (fun _ => ?_) fun _ => .ite (fun _ => ?_) ?_
  · have hvalue := (goes_expression h).mono (Nat.le_refl fuel) (Nat.zero_le 1)
    exact goes_advance.bind fun _ => hvalue.map.bind hcolon
  · exact goes_advance.bind fun _ => (Goes.pure none).bind hcolon
  · exact fun _ => .current fun t => Goes.bind (k := 0) .fail hcolon

section

variable {stmt stmt' : Parser Stmt} (h : Goes fuel 1 stmt stmt') (hfuel : fuel ≤ fuel')

include h hfuel

theorem goes_alternativeRound :
    Goes fuel 1 (alternativeRound stmt fuel) (alternativeRound stmt' fuel') := by
  rw [alternativeRound, alternativeRound]
  refine (goes_label hfuel).bind fun value => .check fun b => .ite (fun _ => ?_) fun _ => ?_
  · refine ((goes_block h hfuel).mono (Nat.le_succ fuel) (Nat.zero_le 1)).bind fun stmts => ?_
    exact .pure _
  · exact (goes_openStatements h hfuel).bind fun stmts => .pure _

private theorem goes_alternatives :
    Goes fuel 0 (alternatives stmt fuel fuel) (alternatives stmt' fuel' fuel') := by
  have hloop : ∀ n n', n ≤ fuel → n ≤ n' →
      Goes n 0 (alternatives stmt fuel n) (alternatives stmt' fuel' n') := by
    intro n
    induction n with
    | zero => exact fun n' _ _ s hs => absurd hs (Nat.not_lt_zero _)
    | succ n ih =>
      intro n' hn hn'
      obtain ⟨n', rfl⟩ : ∃ m, n' = m + 1 := ⟨n' - 1, by omega⟩
      rw [alternatives_succ, alternatives_succ]
      refine .check fun a => .atEnd fun b => .ite (fun _ => .pure []) fun _ => ?_
      have hround := (goes_alternativeRound h hfuel).mono hn (Nat.le_refl 1)
      refine (hround.descend fun alternative => ?_).mono (Nat.le_refl _) (Nat.zero_le 1)
      exact (ih n' (by omega) (by omega)).bind fun more => .pure (alternative :: more)
  exact hloop fuel fuel' (Nat.le_refl _) hfuel

private theorem goes_branchRest (pos : Position) :
    Goes fuel 1 (branchRest stmt fuel pos) (branchRest stmt' fuel' pos) := by
  rw [branchRest, branchRest]
  refine (goes_parenthesized hfuel).bind fun condition => (goes_body h hfuel).bind fun body => ?_
  refine .checkWord fun b => .ite (fun _ => ?_) fun _ => .pure _
  refine goes_advance.bind fun _ => .checkWord fun b => .ite (fun _ => ?_) fun _ => ?_
  · exact h.bind fun other => .pure _
  · exact (goes_body h hfuel).bind fun other => .pure _

private theorem goes_countRest (pos : Position) :
    Goes fuel 1 (countRest stmt fuel pos) (countRest stmt' fuel' pos) := by
  rw [countRest, countRest]
  refine goes_expect.bind fun _ => (goes_place hfuel).bind fun counter => ?_
  refine goes_expect.bind fun _ => (goes_expression hfuel).bind fun start => ?_
  refine goes_expectWord.bind fun _ => (goes_expression hfuel).bind fun finish => ?_
  refine .checkWord fun b => .ite (fun _ => goes_advance.bind fun _ => ?_) fun _ => ?_
  · refine (goes_expression hfuel).map.bind fun step => goes_expect.bind fun _ => ?_
    exact (goes_body h hfuel).bind fun loopBody => .pure _
  · refine (Goes.pure none).bind fun step => goes_expect.bind fun _ => ?_
    exact (goes_body h hfuel).bind fun loopBody => .pure _

private theorem goes_switchRest (pos : Position) (runsOn : Bool) :
    Goes fuel 1 (switchRest stmt fuel pos runsOn) (switchRest stmt' fuel' pos runsOn) := by
  rw [switchRest, switchRest]
  refine (goes_parenthesized hfuel).bind fun subject => goes_expect.bind fun _ => ?_
  refine (goes_alternatives h hfuel).bind fun cases => ?_
  exact goes_expect.bind fun _ => .pure _

private theorem goes_waitRest (pos : Position) :
    Goes fuel 1 (waitRest stmt fuel pos) (waitRest stmt' fuel' pos) := by
  rw [waitRest, waitRest]
  refine goes_expect.bind fun _ => (goes_expression hfuel).bind fun duration => ?_
  have hblock := (goes_block h hfuel).mono (Nat.le_succ fuel) (Nat.le_refl 1)
  refine .consume (j := 0) (goes_expectName.map.bind fun name => ?_)
    ((Goes.pure none).bind fun name => ?_) (Nat.zero_le 1)
  all_goals
    refine goes_expect.bind fun _ => .check fun b => .ite (fun _ => ?_) fun _ => ?_
    · exact hblock.bind fun body => .pure _
    · exact goes_expect.bind fun _ => .pure _

private theorem goes_keywordStmt (pos : Position) (keyword : String) :
    Option.Rel (Goes fuel 0) (keywordStmt stmt fuel pos keyword)
      (keywordStmt stmt' fuel' pos keyword) := by
  have hless : ∀ {p q : Parser Stmt}, Goes fuel 1 p q → Goes fuel 0 p q :=
    fun hp => hp.mono (Nat.le_refl _) (Nat.zero_le 1)
  unfold keywordStmt
  split
  · exact .some (hless (goes_branchRest h hfuel pos))
  · exact .some (hless (goes_countRest h hfuel pos))
  · refine .some ((goes_parenthesized hfuel).bind fun condition => ?_)
    exact (goes_body h hfuel).bind fun loopBody => .pure _
  · refine .some ((goes_body h hfuel).bind fun loopBody => goes_expectWord.bind fun _ => ?_)
    exact (goes_parenthesized hfuel).bind fun condition => goes_consume.bind fun _ => .pure _
  · exact .some (hless (goes_switchRest h hfuel pos false))
  · exact .some (hless (goes_switchRest h hfuel pos true))
  · exact .some (hless (goes_waitRest h hfuel pos))
  · refine .some (.check fun b => .ite (fun _ => ?_) fun _ => ?_)
    · exact (Goes.pure none).bind fun value => goes_expect.bind fun _ => .pure _
    · refine (goes_expression hfuel).map.bind fun value => ?_
      exact goes_expect.bind fun _ => .pure _
  · exact .some (goes_expect.bind fun _ => .pure _)
  · exact .some (goes_expect.bind fun _ => .pure _)
  · exact .none

end

private theorem goes_simpleStmt (h : fuel ≤ fuel') (pos : Position) :
    Goes fuel 1 (simpleStmt fuel pos) (simpleStmt fuel' pos) := by
  rw [simpleStmt, simpleStmt]
  refine .get fun s => .ite (fun _ => ?_) fun _ => ?_
  · exact (goes_expression h).bind fun routine => goes_expect.bind fun _ => .pure _
  · refine (goes_place h).bind fun target => goes_expect.bind fun _ => ?_
    exact (goes_expression h).bind fun value => goes_expect.bind fun _ => .pure _

theorem goes_statement (h : fuel ≤ fuel') : Goes fuel 1 (statement fuel) (statement fuel') := by
  induction fuel generalizing fuel' with
  | zero => exact fun s hs => absurd hs (Nat.not_lt_zero _)
  | succ fuel ih =>
    obtain ⟨fuel', rfl⟩ : ∃ m, fuel' = m + 1 := ⟨fuel' - 1, by omega⟩
    have hless : fuel ≤ fuel' := by omega
    intro s hs
    rw [statement, statement]
    refine .current ?_
    split
    · rename_i hkeyword
      have hrest : s.rest ≠ [] :=
        ParserState.rest_ne_nil (P := fun t => t.kind = .keyword) hkeyword (by simp)
      have hbehind := goes_keywordStmt (ih hless) hless s.current.pos (Text.upper s.current.text)
      generalize keywordStmt (statement fuel) fuel s.current.pos (Text.upper s.current.text) =
        found at hbehind
      generalize keywordStmt (statement fuel') fuel' s.current.pos (Text.upper s.current.text) =
        found' at hbehind
      cases hbehind with
      | some hbehind => exact .step hrest hs fun _ => hbehind
      | none => exact Goes.fail s hs
    split
    · exact (goes_block (ih hless) hless).bind (fun body => .pure _) s hs
    split
    · rename_i htext
      have hrest : s.rest ≠ [] :=
        ParserState.rest_ne_nil (P := fun t => t.text = ";") htext (by simp)
      exact .step hrest hs fun _ => .pure _
    split
    · exact goes_simpleStmt h s.current.pos s hs
    · exact Goes.fail s hs

end Parser

end ControlLogic
