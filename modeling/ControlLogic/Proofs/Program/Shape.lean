import ControlLogic.Proofs.Program.EveryExpr
import ControlLogic.Proofs.Program.ExprRoundTrip

/-!
The shape of what is read from a text: two indices stand only in elements, what is written to is a
place, and the negative of every number that is read is a number of a word.
-/

set_option autoImplicit false
set_option relaxedAutoImplicit false

namespace ControlLogic

open Stmt

namespace Expr

def IsPair (e : Expr) : Prop :=
  ∃ first second, e = .binary .pair first second

def Shaped : Expr → Prop :=
  Every parts fun e => ¬ e.IsPair

theorem parts_element {id : String} {index : Expr} (h : ¬ index.IsPair) :
    (element id index).parts = [index] := by
  rw [parts]
  exact fun first second hpair => h ⟨first, second, hpair⟩

theorem Canonical.shaped {e : Expr} (h : e.Canonical) : e.Shaped := by
  have hother {e : Expr} (hpair : ∀ first second, e ≠ .binary .pair first second)
      (hparts : ∀ part ∈ e.parts, part.Shaped) : e.Shaped :=
    .intro (fun ⟨first, second, heq⟩ => hpair first second heq) hparts
  induction h with
  | number | text | name => exact hother (by simp) (by simp [parts])
  | binary single hleft hright ihleft ihright =>
    refine hother (fun first second heq => ?_) (by simpa [parts] using ⟨ihleft, ihright⟩)
    cases heq
    exact single rfl
  | unary unfolded hoperand ih => exact hother (by simp) (by simpa [parts] using ih)
  | call named hargs ih => exact hother (by simp) ih
  | element named hindex ih =>
    refine hother (by simp) ?_
    rw [parts_element ih.whole]
    exact List.forall_mem_singleton.mpr ih
  | grid named hrow hcolumn ihrow ihcolumn =>
    exact hother (by simp) (by simpa [parts] using ⟨ihrow, ihcolumn⟩)
  | field named partNamed hindex ih => exact hother (by simp) (by simpa [parts] using ih)

theorem Canonical.inWord_neg {n : Int} (h : Canonical (.number n)) :
    Number.InWord n ∧ Number.InWord (-n) := by
  cases h with
  | number low high =>
    unfold Number.InWord
    omega

def Misaims (e : Expr) : Prop :=
  ∃ name args output, e = .call name args ∧ Text.upper name = "PULSE" ∧ args[1]? = some output ∧
    output.isPlace = false

end Expr

/-- The expressions of statements are shaped, and what they write to are places. -/
def shapeDemands : Demands where
  value := Expr.Shaped
  target e := e.Shaped ∧ e.isPlace = true
  routine := Expr.Shaped

theorem Stmt.Meets.shaped {s : Stmt} (h : s.Meets shapeDemands) {e : Expr} (he : e ∈ s.exprs) :
    e.Shaped := by
  rcases List.mem_append.mp he with he | he
  · rcases List.mem_append.mp he with he | he
    · exact (h.targets e he).1
    · exact h.values e he
  · exact h.routine e (Option.mem_toList.mp he)

namespace Program

/-- A program all of whose expressions are shaped, and which writes to places only. -/
def Shaped (p : Program) : Prop :=
  p.Suits shapeDemands

theorem Shaped.meets {p : Program} (hp : p.Shaped) {s : Stmt} (hs : p.HasStmt s) :
    s.Meets shapeDemands := by
  obtain ⟨body, hbody, whole, hwhole, hoccurs⟩ := hs
  exact ((hp body hbody whole hwhole).occurring hoccurs).whole

/-- A statement of the program that starts at a place has a call in it that is to pulse something
other than a place. -/
def MisaimsAt (p : Program) (pos : Position) : Prop :=
  ∃ s, p.HasStmt s ∧ s.pos = pos ∧
    ∃ e ∈ s.exprs, ∃ routine, Occurs Expr.parts routine e ∧ routine.Misaims

end Program

namespace Parser

variable {tokens : List Token}

theorem Among.genuine {s : ParserState} (hs : Among tokens s) : ∀ t ∈ s.rest, Genuine t := by
  intro t ht
  obtain ⟨text, htext⟩ := hs.cut t ht
  exact genuine_of_mem_scan htext

private theorem gives_expression (fuel : Nat) : Gives (expression fuel) Expr.Canonical :=
  gives_binary (gives_unary fuel) fun _ h => h

private theorem gives_place (fuel : Nat) :
    Gives (place fuel) (fun e => e.Canonical ∧ e.isPlace = true) := by
  refine .bind .current fun t ht => ?_
  split
  next hname =>
    refine .bind (gives_named (gives_expression fuel) (ht.1 hname)) fun e he => ?_
    split
    next hplace => exact .pure ⟨he, hplace⟩
    next => exact .failAt
  next => exact .fail

private theorem gives_simpleStmt (fuel : Nat) (pos : Position) :
    Gives (simpleStmt fuel pos) (Suits shapeDemands) := by
  intro s stmt s' hs hrun
  rw [simpleStmt_apply] at hrun
  have hcall : Gives (do
      let routine ← expression fuel
      expect ";"
      return Stmt.call pos routine) (Suits shapeDemands) :=
    .bind (gives_expression fuel) fun routine hroutine => .bind (.expect ";") fun _ _ =>
      .pure (suits_call hroutine.shaped)
  have hassign : Gives (do
      let target ← place fuel
      expect "="
      let value ← expression fuel
      expect ";"
      return Stmt.assign pos target value) (Suits shapeDemands) := by
    refine .bind (gives_place fuel) fun target htarget => .bind (.expect "=") fun _ _ => ?_
    refine .bind (gives_expression fuel) fun value hvalue => .bind (.expect ";") fun _ _ => ?_
    exact .pure (suits_assign ⟨htarget.1.shaped, htarget.2⟩ hvalue.shaped)
  split at hrun
  · exact hcall s stmt s' hs hrun
  · exact hassign s stmt s' hs hrun

private theorem provides_shapes : Provides tokens shapeDemands where
  value fuel s hs e s' hrun := (gives_expression fuel s e s' hs.genuine hrun).1.shaped
  target fuel s hs e s' hrun := by
    obtain ⟨hcanonical, hplace⟩ := (gives_place fuel s e s' hs.genuine hrun).1
    exact ⟨hcanonical.shaped, hplace⟩

private theorem shaped_ofTokens (text : String) : (ofTokens (Token.scan text)).program.Shaped := by
  refine suits_ofTokens text (yields_statement provides_shapes ?_)
  intro fuel pos s hs _ stmt s' hrun
  exact (gives_simpleStmt fuel pos s stmt s' hs.genuine hrun).1

end Parser

theorem Program.shaped_parse (text : String) (defines : List String) :
    (Program.parse text defines).program.Shaped :=
  Parser.shaped_ofTokens (Source.resolve text defines).text

theorem Program.shaped_empty : Program.Shaped {} :=
  Parser.suits_empty shapeDemands

/-- No number that is read from the tokens of a text is turned into its negative out of a word:
neither behind a sign in an expression, nor behind a sign in the value of a constant. -/
theorem Parser.inWord_neg {text : String} :
    (∀ (fuel : Nat) (s s' : ParserState) (n : Int), (∀ t ∈ s.rest, t ∈ Token.scan text) →
      unary fuel s = .ok (.number n) s' → Number.InWord n ∧ Number.InWord (-n)) ∧
    ∀ t ∈ Token.scan text, t.kind = .number → ∀ n, Token.literalNumber? t.text = some n →
      Number.InWord n ∧ Number.InWord (-n) := by
  constructor
  · intro fuel s s' n hs hrun
    have hgenuine : ∀ t ∈ s.rest, Genuine t := fun t ht => genuine_of_mem_scan (hs t ht)
    exact (gives_unary fuel s (.number n) s' hgenuine hrun).1.inWord_neg
  · intro t ht hkind n hn
    exact (canonical_literal (genuine_of_mem_scan ht) hkind hn).inWord_neg

end ControlLogic
