import ControlLogic.Proofs.Program.Alike
import ControlLogic.Proofs.Program.StmtProgress

/-!
Readers of statements on two inputs that are equal up to case. The word a statement starts with is
looked up in upper case, so that both runs read a statement of the same kind.
-/

set_option autoImplicit false
set_option relaxedAutoImplicit false

namespace ControlLogic

open Text (upper Caseless)

namespace Parser

private theorem alike_parenthesized (fuel : Nat) :
    Alike Expr.folded (parenthesized fuel) (parenthesized fuel) := by
  refine (alike_expect (by simp)).andThen fun _ => (alike_expression fuel).bind fun e e' he => ?_
  exact (alike_expect (by simp)).andThen fun _ => .pure he

private theorem alike_optionalExpression (fuel : Nat) :
    Alike (Option.map Expr.folded) (some <$> expression fuel) (some <$> expression fuel) :=
  (alike_expression fuel).map fun _ _ h => congrArg some h

private theorem alike_endsAlternative : Alike id endsAlternative endsAlternative := by
  refine (alike_check (by simp)).andThen fun closed => ?_
  refine (alike_checkWord "CASE").andThen fun labelled => ?_
  refine (alike_checkWord "DEFAULT").andThen fun default => ?_
  exact alike_atEnd.andThen fun ended => .pure rfl

private theorem alike_label (fuel : Nat) :
    Alike (Option.map Expr.folded) (label fuel) (label fuel) := by
  have hcolon {value value' : Option Expr} (h : value.map Expr.folded = value'.map Expr.folded) :
      Alike (Option.map Expr.folded) (do expect ":"; return value) (do expect ":"; return value') :=
    (alike_expect (by simp)).andThen fun _ => .pure h
  refine (alike_checkWord "CASE").andThen fun labelled => ?_
  refine (alike_checkWord "DEFAULT").andThen fun default => ?_
  refine .ite Iff.rfl (fun _ _ => ?_) fun _ _ => .ite Iff.rfl (fun _ _ => ?_) fun _ _ => ?_
  · exact alike_advance.bind fun _ _ _ =>
      (alike_optionalExpression fuel).bind fun _ _ => hcolon
  · exact alike_advance.bind fun _ _ _ => (Alike.pure rfl).bind fun _ _ => hcolon
  · refine .current fun t u h => Alike.bind (.fail ?_) fun _ _ => hcolon
    exact congrArg ParseCause.expectedAlternative (Token.upper_eq h)

private theorem alike_advancePast (before : Nat) :
    Alike id (advancePast before) (advancePast before) := by
  refine .get fun s t hst => .ite (by rw [hst.read]) (fun _ _ => ?_) fun _ _ => .pure rfl
  exact alike_advance.bind fun _ _ _ => .pure rfl

private theorem alike_movingOn {α β : Type} {view : α → β} {p q : Parser α} (h : Alike view p q) :
    Alike view (movingOn p) (movingOn q) := by
  refine .get fun s t hst => h.bind fun a b hab => ?_
  rw [hst.read]
  exact (alike_advancePast t.read).andThen fun _ => .pure hab

section

variable {stmt stmt' : Parser Stmt} (h : Alike Stmt.folded stmt stmt')
include h

private theorem alike_blockItem (fuel : Nat) :
    Alike (Option.map Stmt.folded) (blockItem stmt fuel) (blockItem stmt' fuel) := by
  refine alike_startsVariableDecl.andThen fun starts => ?_
  refine .ite Iff.rfl (fun _ _ => ?_) fun _ _ => h.recovering
  refine (alike_variableDecls fuel).recovering.bind fun decls decls' hdecls => ?_
  refine Alike.andThen (.modify fun s t hst => ?_) fun _ => .pure rfl
  have hlocals : (s.locals ++ decls.getD []).map VariableDecl.folded =
      (t.locals ++ decls'.getD []).map VariableDecl.folded := by
    rw [List.map_append, hst.locals, map_getD_eq hdecls, List.map_append]
  exact { hst with locals := hlocals }

private theorem alike_blockItems (allFuel fuel : Nat) :
    Alike (List.map Stmt.folded) (blockItems stmt allFuel fuel)
      (blockItems stmt' allFuel fuel) := by
  induction fuel with
  | zero => exact alike_stuck
  | succ fuel ih =>
    rw [blockItems_succ, blockItems_succ]
    refine (alike_check (by simp)).andThen fun closed => alike_atEnd.andThen fun ended => ?_
    refine .ite Iff.rfl (fun _ _ => .pure rfl) fun _ _ => ?_
    refine (alike_movingOn (alike_blockItem h allFuel)).bind fun item item' hitem => ?_
    refine ih.bind fun more more' hmore => .pure ?_
    have hlist := congrArg Option.toList hitem
    rw [Option.toList_map, Option.toList_map] at hlist
    rw [List.map_append, hlist, hmore, List.map_append]

theorem alike_block (fuel : Nat) :
    Alike (List.map Stmt.folded) (block stmt fuel) (block stmt' fuel) := by
  refine (alike_expect (by simp)).andThen fun _ => ?_
  refine (alike_blockItems h fuel fuel).bind fun body body' hbody => ?_
  exact (alike_expect (by simp)).andThen fun _ => .pure hbody

private theorem alike_body (fuel : Nat) :
    Alike (List.map Stmt.folded) (body stmt fuel) (body stmt' fuel) := by
  refine (alike_check (by simp)).andThen fun braced => ?_
  refine .ite Iff.rfl (fun _ _ => alike_block h fuel) fun _ _ => ?_
  exact h.bind fun first first' hfirst => .pure (congrArg (fun s => [s]) hfirst)

private theorem alike_openStatements (fuel : Nat) :
    Alike (List.map Stmt.folded) (openStatements stmt fuel) (openStatements stmt' fuel) := by
  induction fuel with
  | zero => exact alike_stuck
  | succ fuel ih =>
    rw [openStatements, openStatements]
    refine alike_endsAlternative.andThen fun ends => ?_
    refine .ite Iff.rfl (fun _ _ => .pure rfl) fun _ _ => h.bind fun first first' hfirst => ?_
    exact ih.bind fun more more' hmore => .pure (congrArg₂ List.cons hfirst hmore)

private theorem alike_alternativeRound (fuel : Nat) :
    Alike Alternative.folded (alternativeRound stmt fuel) (alternativeRound stmt' fuel) := by
  refine (alike_label fuel).bind fun value value' hvalue => ?_
  refine (alike_check (by simp)).andThen fun braced => ?_
  refine .ite Iff.rfl (fun _ _ => ?_) fun _ _ => ?_
  · exact (alike_block h fuel).bind fun body body' hbody =>
      .pure (congrArg₂ Alternative.mk hvalue hbody)
  · exact (alike_openStatements h fuel).bind fun body body' hbody =>
      .pure (congrArg₂ Alternative.mk hvalue hbody)

private theorem alike_alternatives (allFuel fuel : Nat) :
    Alike (List.map Alternative.folded) (alternatives stmt allFuel fuel)
      (alternatives stmt' allFuel fuel) := by
  induction fuel with
  | zero => exact alike_stuck
  | succ fuel ih =>
    rw [alternatives_succ, alternatives_succ]
    refine (alike_check (by simp)).andThen fun closed => alike_atEnd.andThen fun ended => ?_
    refine .ite Iff.rfl (fun _ _ => .pure rfl) fun _ _ => ?_
    refine (alike_alternativeRound h allFuel).bind fun first first' hfirst => ?_
    exact ih.bind fun more more' hmore => .pure (congrArg₂ List.cons hfirst hmore)

private theorem alike_branchRest (fuel : Nat) (pos : Position) :
    Alike Stmt.folded (branchRest stmt fuel pos) (branchRest stmt' fuel pos) := by
  refine (alike_parenthesized fuel).bind fun condition condition' hcondition => ?_
  refine (alike_body h fuel).bind fun body body' hbody => ?_
  have hbranch {other other' : Option (List Stmt)}
      (hother : other.map (List.map Stmt.folded) = other'.map (List.map Stmt.folded)) :
      (Stmt.branch pos condition body other).folded =
        (Stmt.branch pos condition' body' other').folded := by
    rw [Stmt.folded_branch, Stmt.folded_branch, hcondition, hbody, hother]
  refine (alike_checkWord "ELSE").andThen fun found => .ite Iff.rfl (fun _ _ => ?_) fun _ _ => ?_
  · refine alike_advance.bind fun _ _ _ => (alike_checkWord "IF").andThen fun nested => ?_
    refine .ite Iff.rfl (fun _ _ => ?_) fun _ _ => ?_
    · exact h.bind fun other other' hother => .pure (hbranch (congrArg (fun s => some [s]) hother))
    · exact (alike_body h fuel).bind fun other other' hother =>
        .pure (hbranch (congrArg some hother))
  · exact .pure (hbranch rfl)

private theorem alike_countRest (fuel : Nat) (pos : Position) :
    Alike Stmt.folded (countRest stmt fuel pos) (countRest stmt' fuel pos) := by
  refine (alike_expect (by simp)).andThen fun _ => ?_
  refine (alike_place fuel).bind fun counter counter' hcounter => ?_
  refine (alike_expect (by simp)).andThen fun _ => ?_
  refine (alike_expression fuel).bind fun start start' hstart => ?_
  refine (alike_expectWord "TO").andThen fun _ => ?_
  refine (alike_expression fuel).bind fun finish finish' hfinish => ?_
  have hrest {step step' : Option Expr} (hstep : step.map Expr.folded = step'.map Expr.folded) :
      Alike Stmt.folded
        (do
          expect ")"
          let loopBody ← body stmt fuel
          return .count pos counter start finish step loopBody)
        (do
          expect ")"
          let loopBody ← body stmt' fuel
          return .count pos counter' start' finish' step' loopBody) := by
    refine (alike_expect (by simp)).andThen fun _ => ?_
    refine (alike_body h fuel).bind fun body body' hbody => .pure ?_
    simp only [Stmt.folded, Stmt.foldedList_eq_map, hcounter, hstart, hfinish, hstep, hbody]
  refine (alike_checkWord "STEP").andThen fun found => .ite Iff.rfl (fun _ _ => ?_) fun _ _ => ?_
  · exact alike_advance.bind fun _ _ _ => (alike_optionalExpression fuel).bind fun _ _ => hrest
  · exact (Alike.pure rfl).bind fun _ _ => hrest

private theorem alike_switchRest (fuel : Nat) (pos : Position) (runsOn : Bool) :
    Alike Stmt.folded (switchRest stmt fuel pos runsOn) (switchRest stmt' fuel pos runsOn) := by
  refine (alike_parenthesized fuel).bind fun subject subject' hsubject => ?_
  refine (alike_expect (by simp)).andThen fun _ => ?_
  refine (alike_alternatives h fuel fuel).bind fun cases cases' hcases => ?_
  refine (alike_expect (by simp)).andThen fun _ => .pure ?_
  simp only [Stmt.folded, Stmt.foldedAlternatives_eq_map, hsubject, hcases]

private theorem alike_waitRest (fuel : Nat) (pos : Position) :
    Alike Stmt.folded (waitRest stmt fuel pos) (waitRest stmt' fuel pos) := by
  refine (alike_expect (by simp)).andThen fun _ => ?_
  refine (alike_expression fuel).bind fun duration duration' hduration => ?_
  have hrest {name name' : Option String} (hname : name.map upper = name'.map upper) :
      Alike Stmt.folded
        (do
          expect ")"
          if ← check "\x7b" then
            return .wait pos duration name (some (← block stmt fuel))
          else
            expect ";"
            return .wait pos duration name none)
        (do
          expect ")"
          if ← check "\x7b" then
            return .wait pos duration' name' (some (← block stmt' fuel))
          else
            expect ";"
            return .wait pos duration' name' none) := by
    refine (alike_expect (by simp)).andThen fun _ => ?_
    refine (alike_check (by simp)).andThen fun braced => ?_
    refine .ite Iff.rfl (fun _ _ => ?_) fun _ _ => ?_
    · refine (alike_block h fuel).bind fun body body' hbody => .pure ?_
      rw [Stmt.folded_wait, Stmt.folded_wait, hduration, hname, Option.map_some, hbody,
        Option.map_some]
    · refine (alike_expect (by simp)).andThen fun _ => .pure ?_
      rw [Stmt.folded_wait, Stmt.folded_wait, hduration, hname]
  refine (alike_consume (by simp)).andThen fun named => .ite Iff.rfl (fun _ _ => ?_) fun _ _ => ?_
  · have hname : Alike (Option.map upper) (some <$> expectName) (some <$> expectName) :=
      alike_expectName.map fun _ _ h => congrArg some h
    exact hname.bind fun _ _ => hrest
  · exact (Alike.pure rfl).bind fun _ _ => hrest

private theorem alike_keywordStmt (fuel : Nat) (pos : Position) (keyword : String) :
    Option.Rel (Alike Stmt.folded) (keywordStmt stmt fuel pos keyword)
      (keywordStmt stmt' fuel pos keyword) := by
  unfold keywordStmt
  split
  · exact .some (alike_branchRest h fuel pos)
  · exact .some (alike_countRest h fuel pos)
  · refine .some ((alike_parenthesized fuel).bind fun condition condition' hcondition => ?_)
    refine (alike_body h fuel).bind fun body body' hbody => .pure ?_
    simp only [Stmt.folded, Stmt.foldedList_eq_map, hcondition, hbody]
  · refine .some ((alike_body h fuel).bind fun body body' hbody => ?_)
    refine (alike_expectWord "UNTIL").andThen fun _ => ?_
    refine (alike_parenthesized fuel).bind fun condition condition' hcondition => ?_
    refine (alike_consume (by simp)).andThen fun _ => .pure ?_
    simp only [Stmt.folded, Stmt.foldedList_eq_map, hcondition, hbody]
  · exact .some (alike_switchRest h fuel pos false)
  · exact .some (alike_switchRest h fuel pos true)
  · exact .some (alike_waitRest h fuel pos)
  · have hrest {value value' : Option Expr} (h : value.map Expr.folded = value'.map Expr.folded) :
        Alike Stmt.folded (do expect ";"; return .returns pos value)
          (do expect ";"; return .returns pos value') :=
      (alike_expect (by simp)).andThen fun _ => .pure (congrArg (Stmt.returns pos) h)
    refine .some ((alike_check (by simp)).andThen fun ends => ?_)
    refine .ite Iff.rfl (fun _ _ => ?_) fun _ _ => ?_
    · exact (Alike.pure rfl).bind fun _ _ => hrest
    · exact (alike_optionalExpression fuel).bind fun _ _ => hrest
  · exact .some ((alike_expect (by simp)).andThen fun _ => .pure rfl)
  · exact .some ((alike_expect (by simp)).andThen fun _ => .pure rfl)
  · exact .none

end

private theorem alike_simpleStmt (fuel : Nat) (pos : Position) :
    Alike Stmt.folded (simpleStmt fuel pos) (simpleStmt fuel pos) := by
  refine .get fun s t hst => ?_
  have hopen : s.following.text = "(" ↔ t.following.text = "(" :=
    Caseless.eq_iff (by simp) (Token.upper_eq hst.following)
  refine .ite hopen (fun _ _ => ?_) fun _ _ => ?_
  · refine (alike_expression fuel).bind fun routine routine' h => ?_
    refine (alike_expect (by simp)).andThen fun _ => ?_
    exact .pure (congrArg (Stmt.call pos) h)
  · refine (alike_place fuel).bind fun target target' htarget => ?_
    refine (alike_expect (by simp)).andThen fun _ => ?_
    refine (alike_expression fuel).bind fun value value' hvalue => ?_
    refine (alike_expect (by simp)).andThen fun _ => ?_
    exact .pure (congrArg₂ (Stmt.assign pos) htarget hvalue)

theorem alike_statement (fuel : Nat) : Alike Stmt.folded (statement fuel) (statement fuel) := by
  induction fuel with
  | zero => exact alike_stuck
  | succ fuel ih =>
    rw [statement]
    refine .current fun t u h => ?_
    have hmark {mark : String} (hmark : Caseless mark) : t.text = mark ↔ u.text = mark :=
      hmark.eq_iff (Token.upper_eq h)
    refine .ite (by rw [Token.kind_eq h]) (fun _ _ => ?_) fun _ _ => ?_
    · rw [Token.upper_eq h, Token.pos_eq h]
      have hrest := alike_keywordStmt ih fuel u.pos (upper u.text)
      generalize keywordStmt (statement fuel) fuel u.pos (upper u.text) = found at hrest ⊢
      cases hrest with
      | some hrest => exact alike_advance.bind fun _ _ _ => hrest
      | none => exact .fail (congrArg ParseCause.strayKeyword (Token.upper_eq h))
    refine .ite (hmark (by simp)) (fun _ _ => ?_) fun _ _ => ?_
    · refine (alike_block ih fuel).bind fun body body' hbody => .pure ?_
      simp only [Stmt.folded, Stmt.foldedList_eq_map, hbody, Token.pos_eq h]
    refine .ite (hmark (by simp)) (fun _ _ => ?_) fun _ _ => ?_
    · exact alike_advance.bind fun _ _ _ => .pure (by rw [Token.pos_eq h])
    refine .ite (by rw [Token.isName_eq h]) (fun _ _ => ?_) fun _ _ => ?_
    · rw [Token.pos_eq h]
      exact alike_simpleStmt (fuel + 1) u.pos
    · exact .fail (congrArg ParseCause.stray (Token.upper_eq h))

end Parser

end ControlLogic
