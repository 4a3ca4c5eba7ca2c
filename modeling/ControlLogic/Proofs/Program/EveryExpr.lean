import ControlLogic.Proofs.Program.FunctionBody
import ControlLogic.Proofs.Program.Parts

/-!
What the expressions of a program satisfy. What expressions and places satisfy where they are read,
those of the whole program satisfy, however deep the statements they belong to stand in others.
-/

set_option autoImplicit false
set_option relaxedAutoImplicit false

namespace ControlLogic

open Stmt

namespace Stmt

/-- What is demanded of the expressions of a statement: of those whose values it uses, of those it
writes to, and of the one of a call statement. -/
structure Demands where
  value : Expr → Prop
  target : Expr → Prop
  routine : Expr → Prop

/-- The expressions of a statement, those of the statements in it aside, are as demanded. -/
structure Meets (D : Demands) (s : Stmt) : Prop where
  targets : ∀ e ∈ s.targets, D.target e
  values : ∀ e ∈ s.values, D.value e
  routine : ∀ e ∈ s.routine?, D.routine e

/-- The expressions of a statement and of all statements in it are as demanded. -/
abbrev Suits (D : Demands) : Stmt → Prop :=
  Every Stmt.parts (Meets D)

/-- The expressions of the statements of a body, however deep, are as demanded. -/
def AllSuit (D : Demands) (body : List Stmt) : Prop :=
  ∀ s ∈ body, s.Suits D

variable {D : Demands}

private theorem allSuit_nil : AllSuit D [] :=
  List.forall_mem_nil _

private theorem allSuit_cons {first : Stmt} {rest : List Stmt} (hfirst : first.Suits D)
    (hrest : AllSuit D rest) : AllSuit D (first :: rest) :=
  List.forall_mem_cons.mpr ⟨hfirst, hrest⟩

private theorem suits_of_values {s : Stmt} (htargets : s.targets = [])
    (hroutine : s.routine? = none)
    (hvalues : ∀ e ∈ s.values, D.value e) (hparts : AllSuit D s.parts) : s.Suits D := by
  refine .intro ⟨?_, hvalues, ?_⟩ hparts
  · rw [htargets]
    exact List.forall_mem_nil _
  · rw [hroutine]
    rintro _ ⟨⟩

theorem suits_assign {pos : Position} {target value : Expr} (htarget : D.target target)
    (hvalue : D.value value) : (Stmt.assign pos target value).Suits D :=
  .intro ⟨List.forall_mem_singleton.mpr htarget, List.forall_mem_singleton.mpr hvalue,
    by rintro _ ⟨⟩⟩ allSuit_nil

theorem suits_call {pos : Position} {routine : Expr} (h : D.routine routine) :
    (Stmt.call pos routine).Suits D := by
  refine .intro ⟨List.forall_mem_nil _, List.forall_mem_nil _, ?_⟩ allSuit_nil
  rintro _ ⟨⟩
  exact h

end Stmt

def Program.Suits (D : Demands) (p : Program) : Prop :=
  ∀ body ∈ p.bodies, AllSuit D body

namespace Parser

variable {α β : Type} {tokens : List Token} {p : Parser α} {f : α → Parser β} {Q : α → Prop}
  {R : β → Prop}

/-! ### What readers give -/

/-- A place among the tokens, which are cut from texts. -/
structure Among (tokens : List Token) (s : ParserState) : Prop where
  cut : s.Cut
  suffix : s.rest <:+ tokens

private theorem Among.of_suffix {s s' : ParserState} (h : Among tokens s)
    (hsuffix : s'.rest <:+ s.rest) :
    Among tokens s' :=
  ⟨fun t ht => h.cut t (hsuffix.subset ht), hsuffix.trans h.suffix⟩

/-- Whatever the reader gives at a place among the tokens satisfies `Q`. -/
def Yields (tokens : List Token) (p : Parser α) (Q : α → Prop) : Prop :=
  ∀ s, Among tokens s → ∀ a s', p s = .ok a s' → Q a

theorem Yields.pure {a : α} (h : Q a) : Yields tokens (Pure.pure a) Q := by
  rintro s - _ s' ⟨⟩
  exact h

theorem Yields.bind {k : Nat} (hwithin : Within k Never p) (hp : Yields tokens p Q)
    (hf : ∀ a, Q a → Yields tokens (f a) R) : Yields tokens (p >>= f) R := by
  intro s hs b s' h
  obtain ⟨a, s₁, hfirst, hrest⟩ := bind_eq_ok h
  obtain ⟨u, htakes, -⟩ := (hwithin s hs.cut).takes hfirst
  exact hf a (hp s hs a s₁ hfirst) s₁ (hs.of_suffix ⟨u, htakes.rest.symm⟩) b s' hrest

theorem Yields.after {k : Nat} (hwithin : Within k Never p) (hf : ∀ a, Yields tokens (f a) R) :
    Yields tokens (p >>= f) R :=
  .bind (Q := fun _ => True) hwithin (fun _ _ _ _ _ => trivial) fun a _ => hf a

theorem Yields.past (hgoes : ∀ n, Goes n 0 p p) (hf : ∀ a, Yields tokens (f a) R) :
    Yields tokens (p >>= f) R := by
  intro s hs b s' h
  obtain ⟨a, s₁, hfirst, hrest⟩ := bind_eq_ok h
  obtain ⟨a', s₂, hrun, -, hon, -⟩ | ⟨e, s₂, hrun, -⟩ :=
    (hgoes _ s (Nat.lt_succ_self s.rest.length)).cases
  · cases hfirst.symm.trans hrun
    exact hf a s₁ (hs.of_suffix hon.suffix) b s' hrest
  · cases hfirst.symm.trans hrun

theorem Yields.look (hp : ∀ s, ∃ a, p s = .ok a s) (hf : ∀ a, Yields tokens (f a) R) :
    Yields tokens (p >>= f) R := by
  intro s hs b s' h
  obtain ⟨a, hlook⟩ := hp s
  exact hf a s hs b s' ((bind_ok hlook).symm.trans h)

theorem Yields.check {mark : String} {f : Bool → Parser β} (hf : ∀ b, Yields tokens (f b) R) :
    Yields tokens (Parser.check mark >>= f) R :=
  .look (fun _ => ⟨_, rfl⟩) hf

theorem Yields.checkWord {word : String} {f : Bool → Parser β} (hf : ∀ b, Yields tokens (f b) R) :
    Yields tokens (Parser.checkWord word >>= f) R :=
  .look (fun _ => ⟨_, rfl⟩) hf

theorem Yields.atEnd {f : Bool → Parser β} (hf : ∀ b, Yields tokens (f b) R) :
    Yields tokens (Parser.atEnd >>= f) R :=
  .look (fun _ => ⟨_, rfl⟩) hf

theorem Yields.ite {c : Prop} [Decidable c] {q : Parser α} (hp : Yields tokens p Q)
    (hq : Yields tokens q Q) : Yields tokens (if c then p else q) Q := by
  split
  · exact hp
  · exact hq

private theorem yields_stuck : Yields tokens (stuck : Parser α) Q := by
  rintro s - a s' ⟨⟩

theorem Yields.failAt {pos : Position} {cause : ParseCause} :
    Yields tokens (Parser.failAt pos cause : Parser α) Q := by
  rintro s - a s' ⟨⟩

theorem Yields.fail {cause : ParseCause} : Yields tokens (Parser.fail cause : Parser α) Q := by
  rintro s - a s' ⟨⟩

theorem Yields.map {m : α → β} (hp : Yields tokens p Q) (hm : ∀ a, Q a → R (m a)) :
    Yields tokens (m <$> p) R := by
  intro s hs b s' h
  rw [← bind_pure_comp] at h
  obtain ⟨a, s₁, hrun, hgiven⟩ := bind_eq_ok h
  cases hgiven
  exact hm a (hp s hs a _ hrun)

theorem Yields.recovering (hp : Yields tokens p Q) :
    Yields tokens (Parser.recovering p) (fun found => ∀ a ∈ found, Q a) := by
  intro s hs found s' h
  rw [recovering_apply] at h
  split at h
  next a s₁ hrun =>
    cases h
    rintro _ ⟨⟩
    exact hp s hs _ _ hrun
  next =>
    cases h
    rintro _ ⟨⟩
  next => cases h

theorem Yields.movingOn (hp : Yields tokens p Q) : Yields tokens (Parser.movingOn p) Q := by
  intro s hs a s' h
  have hget : (get : Parser ParserState) s = .ok s s := rfl
  obtain ⟨a, s₁, hrun, hpast⟩ := bind_eq_ok ((bind_ok hget).symm.trans h)
  obtain ⟨u, s₂, -, hgiven⟩ := bind_eq_ok hpast
  cases hgiven
  exact hp s hs a s₁ hrun

/-! ### Statements inside statements -/

section

variable {D : Demands} {stmt : Parser Stmt} (hstmt : StmtWithin stmt)
  (h : Yields tokens stmt (Suits D))
include h

private theorem yields_blockItem (fuel : Nat) :
    Yields tokens (blockItem stmt fuel) (fun item => ∀ s ∈ item, s.Suits D) := by
  intro s hs found s' hrun
  rw [blockItem_apply] at hrun
  split at hrun
  · obtain ⟨decls, s₁, -, hrest⟩ := bind_eq_ok hrun
    obtain ⟨u, s₂, -, hnone⟩ := bind_eq_ok hrest
    cases hnone
    rintro _ ⟨⟩
  · exact h.recovering s hs found s' hrun

include hstmt

private theorem yields_blockItems (allFuel fuel : Nat) :
    Yields tokens (blockItems stmt allFuel fuel) (AllSuit D) := by
  induction fuel with
  | zero => exact yields_stuck
  | succ fuel ih =>
    rw [blockItems_succ]
    refine .check fun closed => .atEnd fun ended => .ite (.pure allSuit_nil) ?_
    have hround : Yields tokens (blockRound stmt allFuel) (fun item => ∀ s ∈ item, s.Suits D) :=
      (yields_blockItem h allFuel).movingOn
    refine .bind (within_blockRound hstmt allFuel).strict hround fun item hitem => ?_
    refine .bind (within_blockItems hstmt allFuel fuel) ih fun rest hrest => .pure fun s hs => ?_
    rcases List.mem_append.mp hs with hs | hs
    · exact hitem s (Option.mem_toList.mp hs)
    · exact hrest s hs

private theorem yields_block (fuel : Nat) : Yields tokens (block stmt fuel) (AllSuit D) :=
  .after within_expect fun _ =>
    .bind (within_blockItems hstmt fuel fuel) (yields_blockItems hstmt h fuel fuel) fun _ hbody =>
      .after within_expect fun _ => .pure hbody

private theorem yields_body (fuel : Nat) : Yields tokens (body stmt fuel) (AllSuit D) :=
  .check fun _ => .ite (yields_block hstmt h fuel)
    (.bind hstmt.all.strict h fun _ hs => .pure (allSuit_cons hs allSuit_nil))

private theorem yields_openStatements (fuel : Nat) :
    Yields tokens (openStatements stmt fuel) (AllSuit D) := by
  induction fuel with
  | zero => exact yields_stuck
  | succ fuel ih =>
    refine .look (fun _ => ⟨_, rfl⟩) fun ends => .ite (.pure allSuit_nil) ?_
    refine .bind hstmt.all.strict h fun first hfirst => ?_
    exact .bind (within_openStatements hstmt fuel) ih fun rest hrest =>
      .pure (allSuit_cons hfirst hrest)

end

/-- Expressions and places are as demanded where they are read. -/
structure Provides (tokens : List Token) (D : Demands) : Prop where
  value (fuel : Nat) : Yields tokens (expression fuel) D.value
  target (fuel : Nat) : Yields tokens (place fuel) D.target

section

variable {D : Demands} (E : Provides tokens D)
include E

private theorem yields_parenthesized (fuel : Nat) : Yields tokens (parenthesized fuel) D.value :=
  .after within_expect fun _ => .bind (within_expression fuel) (E.value fuel) fun _ he =>
    .after within_expect fun _ => .pure he

private theorem yields_optional (fuel : Nat) :
    Yields tokens (some <$> expression fuel) (fun value => ∀ e ∈ value, D.value e) :=
  (E.value fuel).map fun _ he => by
    rintro _ ⟨⟩
    exact he

private theorem yields_label (fuel : Nat) :
    Yields tokens (label fuel) (fun value => ∀ e ∈ value, D.value e) := by
  have hrest (value : Option Expr) (hvalue : ∀ e ∈ value, D.value e) :
      Yields tokens (do expect ":"; return value) (fun value => ∀ e ∈ value, D.value e) :=
    .after within_expect fun _ => .pure hvalue
  refine .checkWord fun labelled => .checkWord fun default => .ite ?_ (.ite ?_ ?_)
  · exact .after within_advance fun _ =>
      .bind (within_expression fuel).map (yields_optional E fuel) hrest
  · exact .after within_advance fun _ => .bind (.pure none) (.pure (by rintro _ ⟨⟩)) hrest
  · rintro s - a s' ⟨⟩

variable {stmt : Parser Stmt} (hstmt : StmtWithin stmt) (h : Yields tokens stmt (Suits D))
include hstmt h

private theorem yields_alternatives (allFuel fuel : Nat) :
    Yields tokens (alternatives stmt allFuel fuel)
      (fun cases => ∀ a ∈ cases, (∀ e ∈ a.label, D.value e) ∧ AllSuit D a.body) := by
  induction fuel with
  | zero => exact yields_stuck
  | succ fuel ih =>
    rw [alternatives_succ]
    refine .check fun closed => .atEnd fun ended => .ite (.pure (by simp)) ?_
    have hround : Yields tokens (alternativeRound stmt allFuel)
        (fun a => (∀ e ∈ a.label, D.value e) ∧ AllSuit D a.body) := by
      refine .bind (within_label allFuel) (yields_label E allFuel) fun value hvalue => ?_
      refine .check fun braced => .ite ?_ ?_
      · exact .bind (within_block hstmt allFuel) (yields_block hstmt h allFuel) fun _ hbody =>
          .pure ⟨hvalue, hbody⟩
      · exact .bind (within_openStatements hstmt allFuel) (yields_openStatements hstmt h allFuel)
          fun _ hbody => .pure ⟨hvalue, hbody⟩
    refine .bind (within_alternativeRound hstmt allFuel) hround fun first hfirst => ?_
    refine .bind (within_alternatives hstmt allFuel fuel) ih fun rest hrest => .pure ?_
    exact List.forall_mem_cons.mpr ⟨hfirst, hrest⟩

private theorem yields_branchRest (fuel : Nat) (pos : Position) :
    Yields tokens (branchRest stmt fuel pos) (Suits D) := by
  refine .bind (within_parenthesized fuel) (yields_parenthesized E fuel) fun condition hvalue => ?_
  refine .bind (within_body hstmt fuel).strict (yields_body hstmt h fuel) fun body hbody => ?_
  have hbranch (other : Option (List Stmt)) (hother : AllSuit D (other.getD [])) :
      (Stmt.branch pos condition body other).Suits D :=
    suits_of_values rfl rfl (List.forall_mem_singleton.mpr hvalue)
      (List.forall_mem_append.mpr ⟨hbody, hother⟩)
  refine .checkWord fun found => .ite (.after within_advance fun _ => .checkWord fun nested => ?_)
    (.pure (hbranch none allSuit_nil))
  refine .ite ?_ ?_
  · exact .bind hstmt.all.strict h fun other hother =>
      .pure (hbranch (some [other]) (allSuit_cons hother allSuit_nil))
  · exact .bind (within_body hstmt fuel).strict (yields_body hstmt h fuel) fun other hother =>
      .pure (hbranch (some other) hother)

private theorem yields_countRest (fuel : Nat) (pos : Position) :
    Yields tokens (countRest stmt fuel pos) (Suits D) := by
  have hexpr := E.value fuel
  refine .after within_expect fun _ => ?_
  refine .bind (within_place fuel) (E.target fuel) fun counter hc => ?_
  refine .after within_expect fun _ => .bind (within_expression fuel) hexpr fun start hstart => ?_
  refine .after within_expectWord fun _ => ?_
  refine .bind (within_expression fuel) hexpr fun finish hfinish => ?_
  have hrest (step : Option Expr) (hstep : ∀ e ∈ step, D.value e) : Yields tokens (do
      expect ")"
      let loopBody ← body stmt fuel
      return Stmt.count pos counter start finish step loopBody) (Suits D) := by
    refine .after within_expect fun _ => ?_
    refine .bind (within_body hstmt fuel).strict (yields_body hstmt h fuel) fun body hbody => ?_
    refine .pure (.intro ⟨List.forall_mem_singleton.mpr hc, ?_, by rintro _ ⟨⟩⟩ hbody)
    simpa [Stmt.values] using ⟨hstart, hfinish, hstep⟩
  refine .checkWord fun stepped => .ite (.after within_advance fun _ => ?_) ?_
  · exact .bind (within_expression fuel).map (yields_optional E fuel) hrest
  · exact .bind (.pure none) (.pure (by rintro _ ⟨⟩)) hrest

private theorem yields_switchRest (fuel : Nat) (pos : Position) (runsOn : Bool) :
    Yields tokens (switchRest stmt fuel pos runsOn) (Suits D) := by
  refine .bind (within_parenthesized fuel) (yields_parenthesized E fuel) fun subject hsubject => ?_
  refine .after within_expect fun _ => ?_
  refine .bind (within_alternatives hstmt fuel fuel) (yields_alternatives E hstmt h fuel fuel)
    fun found hfound => .after within_expect fun _ => .pure (suits_of_values rfl rfl ?_ ?_)
  · refine List.forall_mem_cons.mpr ⟨hsubject, fun e he => ?_⟩
    obtain ⟨a, ha, hlabel⟩ := List.mem_filterMap.mp he
    exact (hfound a ha).1 e hlabel
  · intro s hs
    obtain ⟨a, ha, hbody⟩ := List.mem_flatMap.mp hs
    exact (hfound a ha).2 s hbody

private theorem yields_waitRest (fuel : Nat) (pos : Position) :
    Yields tokens (waitRest stmt fuel pos) (Suits D) := by
  refine .after within_expect fun _ => ?_
  refine .bind (within_expression fuel) (E.value fuel) fun duration hvalue => ?_
  have hwait (name : Option String) (body : Option (List Stmt)) (hbody : AllSuit D (body.getD [])) :
      (Stmt.wait pos duration name body).Suits D :=
    suits_of_values rfl rfl (List.forall_mem_singleton.mpr hvalue) hbody
  have hrest (name : Option String) : Yields tokens (do
      expect ")"
      if ← check "\x7b" then
        return Stmt.wait pos duration name (some (← block stmt fuel))
      else
        expect ";"
        return Stmt.wait pos duration name none) (Suits D) := by
    refine .after within_expect fun _ => .check fun braced => .ite ?_
      (.after within_expect fun _ => .pure (hwait name none allSuit_nil))
    exact .bind (within_block hstmt fuel) (yields_block hstmt h fuel) fun body hbody =>
      .pure (hwait name (some body) hbody)
  refine .after within_consume.never fun named => .ite ?_ ?_
  · exact .after within_expectName.map fun name => hrest name
  · exact .after (.pure none) fun name => hrest name

private theorem yields_keywordStmt (fuel : Nat) (pos : Position) (keyword : String) :
    ∀ rest ∈ keywordStmt stmt fuel pos keyword, Yields tokens rest (Suits D) := by
  intro rest hrest
  have hbody := yields_body hstmt h fuel
  have hwithin := (within_body hstmt fuel).strict
  have hcondition := yields_parenthesized E fuel
  have hbare (s : Stmt) (htargets : s.targets = []) (hvalues : s.values = [])
      (hroutine : s.routine? = none) (hparts : s.parts = []) :
      Yields tokens (do expect ";"; return s) (Suits D) := by
    refine .after within_expect fun _ => .pure (suits_of_values htargets hroutine ?_ ?_)
    · rw [hvalues]
      exact List.forall_mem_nil _
    · rw [hparts]
      exact allSuit_nil
  unfold keywordStmt at hrest
  split at hrest <;> cases hrest
  · exact yields_branchRest E hstmt h fuel pos
  · exact yields_countRest E hstmt h fuel pos
  · exact .bind (within_parenthesized fuel) hcondition fun _ hvalue =>
      .bind hwithin hbody fun _ hbody =>
        .pure (suits_of_values rfl rfl (List.forall_mem_singleton.mpr hvalue) hbody)
  · exact .bind hwithin hbody fun _ hbody => .after within_expectWord fun _ =>
      .bind (within_parenthesized fuel) hcondition fun _ hvalue =>
        .after within_consume.never fun _ =>
          .pure (suits_of_values rfl rfl (List.forall_mem_singleton.mpr hvalue) hbody)
  · exact yields_switchRest E hstmt h fuel pos false
  · exact yields_switchRest E hstmt h fuel pos true
  · exact yields_waitRest E hstmt h fuel pos
  · have hreturn (value : Option Expr) (hvalue : ∀ e ∈ value, D.value e) :
        Yields tokens (do expect ";"; return Stmt.returns pos value) (Suits D) := by
      refine .after within_expect fun _ => .pure (suits_of_values rfl rfl ?_ allSuit_nil)
      exact fun e he => hvalue e (Option.mem_toList.mp he)
    refine .check fun bare => .ite ?_ ?_
    · exact .bind (.pure none) (.pure (by rintro _ ⟨⟩)) hreturn
    · exact .bind (within_expression fuel).map (yields_optional E fuel) hreturn
  · exact hbare _ rfl rfl rfl rfl
  · exact hbare _ rfl rfl rfl rfl

end

theorem yields_statement {D : Demands} (E : Provides tokens D)
    (hsimple : ∀ fuel pos s, Among tokens s → s.current.isName = true → ∀ stmt s',
      simpleStmt fuel pos s = .ok stmt s' → stmt.Suits D) (fuel : Nat) :
    Yields tokens (statement fuel) (Suits D) := by
  induction fuel with
  | zero => exact yields_stuck
  | succ fuel ih =>
    have hstmt := stmtWithin_statement fuel
    intro s hs stmt s' h
    rw [statement, bind_ok (looks_current s), id] at h
    split at h
    next =>
      have hkeyword := yields_keywordStmt E hstmt ih fuel s.current.pos (Text.upper s.current.text)
      cases hrest : keywordStmt (statement fuel) fuel s.current.pos (Text.upper s.current.text) with
      | some rest =>
        rw [hrest] at h hkeyword
        exact Yields.after within_advance (fun _ => hkeyword rest rfl) s hs stmt s' h
      | none =>
        rw [hrest] at h
        exact Yields.fail s hs stmt s' h
    next =>
      have hblock (body : List Stmt) (hbody : AllSuit D body) :
          (Stmt.block s.current.pos body).Suits D :=
        suits_of_values rfl rfl (List.forall_mem_nil _) hbody
      split at h
      · exact Yields.bind (within_block hstmt fuel) (yields_block hstmt ih fuel)
          (fun body hbody => .pure (hblock body hbody)) s hs stmt s' h
      split at h
      · exact Yields.after within_advance (fun _ => .pure (hblock [] allSuit_nil)) s hs stmt s' h
      split at h
      next hname => exact hsimple (fuel + 1) s.current.pos s hs hname stmt s' h
      next => exact Yields.fail s hs stmt s' h

/-! ### Programs -/

section

variable {D : Demands} (h : ∀ fuel, Yields tokens (statement fuel) (Suits D))
include h

private theorem yields_bodyWithLocals (fuel : Nat) :
    Yields tokens (bodyWithLocals fuel) (fun found => AllSuit D found.2) := by
  have hstmt := stmtWithin_statement fuel
  refine .after within_clearLocals fun _ => ?_
  refine .bind (within_block hstmt fuel) (yields_block hstmt (h fuel) fuel) fun body hbody => ?_
  rintro s - _ s' ⟨⟩
  exact hbody

private theorem yields_handlerItems (fuel : Nat) :
    Yields tokens (handlerItems fuel) (fun found => ∀ h ∈ found, AllSuit D h.body) := by
  refine .checkWord fun safe => .ite (.after within_advance fun _ => ?_) ?_
  all_goals
    refine .after within_advance fun t => ?_
    cases Trigger.ofWord? t.text with
    | none => exact .failAt
    | some trigger =>
      refine .after (within_commaList within_expectName (fun _ => False.elim) fuel) fun _ => ?_
      intro s hs handlers s' hrun
      obtain ⟨found, s₁, hbody, hgiven⟩ := bind_eq_ok hrun
      cases hgiven
      have hsuit := yields_bodyWithLocals h fuel s hs found _ hbody
      exact List.forall_mem_map.mpr fun signal _ => hsuit

private theorem yields_functionDef (fuel : Nat) :
    Yields tokens (functionDef fuel) (fun f => AllSuit D f.body) := by
  have hparams : Within 1 Never (commaList (parameter fuel) fuel) :=
    within_commaList (within_parameter fuel) (fun _ => False.elim) fuel
  refine .after within_advance fun t => .after within_expectName fun name => ?_
  refine .after within_expect fun _ => .check fun empty => .ite (.after (.pure []) fun params => ?_)
    (.after hparams fun params => ?_)
  all_goals
    refine .after within_expect fun _ => ?_
    intro s hs f s' hrun
    obtain ⟨found, s₁, hbody, hgiven⟩ := bind_eq_ok hrun
    cases hgiven
    exact yields_bodyWithLocals h fuel s hs found _ hbody

end

def Item.bodies : Item → List (List Stmt)
  | handlers found => found.map Handler.body
  | function f => [f.body]
  | _ => []

def Item.Suits (D : Demands) (i : Item) : Prop :=
  ∀ body ∈ i.bodies, AllSuit D body

private theorem suits_of_bodies_eq {D : Demands} {i : Item} (h : i.bodies = []) : i.Suits D := by
  rw [Item.Suits, h]
  exact List.forall_mem_nil _

private theorem yields_directiveItem {D : Demands} :
    Yields tokens directiveItem (Item.Suits D) := by
  refine .after within_advance fun t => .past (fun _ => goes_restOfLine _) fun args => ?_
  dsimp only
  split
  · exact .pure (suits_of_bodies_eq rfl)
  · exact .failAt
  · refine .look (fun _ => ⟨_, rfl⟩) fun s => ?_
    split
    · exact .failAt
    · split
      · exact .past (fun _ => .note (fun _ => rfl) fun _ => rfl) fun _ =>
          .pure (suits_of_bodies_eq rfl)
      · exact .pure (suits_of_bodies_eq rfl)
  · exact .pure (suits_of_bodies_eq rfl)

private theorem yields_item {D : Demands} (h : ∀ fuel, Yields tokens (statement fuel) (Suits D))
    (fuel : Nat) : Yields tokens (item fuel) (Item.Suits D) := by
  have hwithout {α : Type} {p : Parser α} {m : α → Item} (hm : ∀ a, (m a).bodies = []) :
      Yields tokens (m <$> p) (Item.Suits D) :=
    .map (Q := fun _ => True) (fun _ _ _ _ _ => trivial) fun a _ => suits_of_bodies_eq (hm a)
  refine .look (fun _ => ⟨_, rfl⟩) fun t => ?_
  split
  · exact yields_directiveItem
  · exact hwithout fun _ => rfl
  · exact hwithout fun _ => rfl
  · refine .ite (hwithout fun _ => rfl) (.ite ?_ (.ite ?_ ?_))
    · exact (yields_handlerItems h fuel).map fun _ h => List.forall_mem_map.mpr h
    · exact (yields_functionDef h fuel).map fun _ h => List.forall_mem_singleton.mpr h
    · exact .ite (.after within_advance fun _ => .pure (suits_of_bodies_eq rfl)) .fail
  · exact .look (fun _ => ⟨_, rfl⟩) fun _ => .ite (hwithout fun _ => rfl) .fail

/-- A program with a piece added has the bodies it had and those of the piece, but for an entry
function that is replaced. -/
private theorem mem_bodies_addTo {i : Item} {p : Program} {body : List Stmt}
    (h : body ∈ (i.addTo p).bodies) : body ∈ i.bodies ∨ body ∈ p.bodies := by
  cases i with
  | handlers found =>
    simp only [Item.addTo, Program.bodies, List.map_append, List.append_assoc, List.mem_append] at h
    simp only [Item.bodies, Program.bodies, List.map_append, List.mem_append]
    tauto
  | function f =>
    rw [Item.addTo] at h
    split at h
    all_goals
      simp only [Program.bodies, List.map_append, List.map_cons, List.map_nil, Option.toList_some,
        List.mem_append, List.mem_singleton] at h
      simp only [Item.bodies, Program.bodies, List.map_append, List.mem_append, List.mem_singleton]
      tauto
  | symbolName | constant | directive | signals | globals | structureDef | nothing => exact .inr h

theorem Item.Suits.addTo {D : Demands} {i : Item} {p : Program} (hi : i.Suits D)
    (hp : p.Suits D) : (i.addTo p).Suits D :=
  fun body hbody => (mem_bodies_addTo hbody).elim (hi body) (hp body)

private theorem suits_items {D : Demands} (h : ∀ fuel, Yields tokens (statement fuel) (Suits D))
    {allFuel fuel : Nat} {p program : Program} {s s' : ParserState} (hs : Among tokens s)
    (hfuel : s.fuel ≤ allFuel) (hp : p.Suits D)
    (hrun : items allFuel fuel p s = .ok program s') : program.Suits D := by
  induction fuel generalizing p s with
  | zero => cases hrun
  | succ fuel ih =>
    cases hend : finished s with
    | true =>
      rw [items_finished hend] at hrun
      cases hrun
      exact hp
    | false =>
      rw [items_unfinished hend] at hrun
      obtain ⟨found, s₁, hround, hrest⟩ := bind_eq_ok hrun
      have hleft : s.rest ≠ [] := fun hnil => by simp [finished, hnil] at hend
      obtain ⟨⟨found', s₂, hon, -, hround'⟩, -⟩ | ⟨hstuck, -⟩ := itemRound_cases hleft
      · cases (hround' allFuel hfuel).symm.trans hround
        have hfound := (yields_item h allFuel).recovering.movingOn s hs found s₁ hround
        refine ih (hs.of_suffix hon.suffix) (Nat.le_trans (Onward.fuel_le hon) hfuel) ?_ hrest
        cases found with
        | none => exact Item.Suits.addTo (i := .nothing) (suits_of_bodies_eq rfl) hp
        | some i => exact (hfound i rfl).addTo hp
      · obtain ⟨s₂, hstuck⟩ := hstuck allFuel hfuel
        cases hstuck.symm.trans hround

theorem suits_empty (D : Demands) : Program.Suits D {} :=
  List.forall_mem_nil _

/-- The expressions of a program that is read from a text are as demanded if all calls and
assignments among its tokens are. -/
theorem suits_ofTokens {D : Demands} (text : String)
    (h : ∀ fuel, Yields (ParserState.ofTokens (Token.scan text)).rest (statement fuel) (Suits D)) :
    (ofTokens (Token.scan text)).program.Suits D := by
  rw [ofTokens]
  split
  next program s hrun =>
    exact suits_items h ⟨ParserState.cut_ofTokens text, List.suffix_rfl⟩ (Nat.le_refl _)
      (suits_empty D) hrun
  next => exact suits_empty D

end Parser

end ControlLogic
