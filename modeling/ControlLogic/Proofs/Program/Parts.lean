import Mathlib.Logic.Relation
import ControlLogic.Program.Basic

/-!
The parts of expressions and statements. What holds of a whole and of all that occurs in it is
gone through part by part, whatever the whole is made of.
-/

set_option autoImplicit false
set_option relaxedAutoImplicit false

namespace ControlLogic

/-! ### Wholes and parts -/

section

variable {α : Type} {parts : α → List α} {P : α → Prop} {a b : α}

/-- Something is the whole, one of its parts, or occurs in one of them. -/
def Occurs (parts : α → List α) (a whole : α) : Prop :=
  Relation.ReflTransGen (fun part whole => part ∈ parts whole) a whole

/-- A property of the whole and of all that occurs in it. -/
inductive Every (parts : α → List α) (P : α → Prop) : α → Prop
  | intro {whole : α} (h : P whole) (hparts : ∀ part ∈ parts whole, Every parts P part) :
    Every parts P whole

theorem Every.whole (h : Every parts P a) : P a := by
  obtain ⟨h, -⟩ := h
  exact h

theorem Every.part (h : Every parts P a) (hb : b ∈ parts a) : Every parts P b := by
  obtain ⟨-, hparts⟩ := h
  exact hparts b hb

theorem Every.occurring (h : Every parts P a) (hb : Occurs parts b a) : Every parts P b := by
  induction hb using Relation.ReflTransGen.head_induction_on with
  | refl => exact h
  | head hpart hrest ih => exact ih.part hpart

end

/-! ### Expressions -/

namespace Expr

/-- The expressions that an expression is put together from. Two indices in brackets are parts of
the element. -/
def parts : Expr → List Expr
  | number _ | text _ | name _ => []
  | binary _ left right => [left, right]
  | unary _ operand => [operand]
  | call _ args => args
  | element _ (.binary .pair first second) => [first, second]
  | element _ index => [index]
  | field _ _ index => index.toList

end Expr

/-! ### Statements -/

namespace Stmt

def targets : Stmt → List Expr
  | count _ counter _ _ _ _ => [counter]
  | assign _ target _ => [target]
  | _ => []

def values : Stmt → List Expr
  | branch _ condition _ _ | whileLoop _ condition _ | untilLoop _ _ condition => [condition]
  | count _ _ start finish step _ => start :: finish :: step.toList
  | switch _ subject alternatives _ => subject :: alternatives.filterMap (·.label)
  | wait _ duration _ _ => [duration]
  | assign _ _ value => [value]
  | returns _ value => value.toList
  | call _ _ | breaks _ | terminateEvent _ | block _ _ => []

def routine? : Stmt → Option Expr
  | call _ routine => some routine
  | _ => none

/-- The expressions of a statement, without those of the statements in it. -/
def exprs (s : Stmt) : List Expr :=
  s.targets ++ s.values ++ s.routine?.toList

/-- The statements that stand in a statement, but in no other one in it. -/
def parts : Stmt → List Stmt
  | branch _ _ thenBody elseBody => thenBody ++ elseBody.getD []
  | count _ _ _ _ _ body | whileLoop _ _ body | untilLoop _ body _ | block _ body => body
  | switch _ _ alternatives _ => alternatives.flatMap (·.body)
  | wait _ _ _ body => body.getD []
  | assign _ _ _ | call _ _ | returns _ _ | breaks _ | terminateEvent _ => []

end Stmt

/-! ### Programs -/

namespace Program

def bodies (p : Program) : List (List Stmt) :=
  p.handlers.map Handler.body ++ (p.functions ++ p.main.toList).map FunctionDef.body

theorem mem_bodies {p : Program} {body : List Stmt} :
    body ∈ p.bodies ↔ (∃ h ∈ p.handlers, h.body = body) ∨ (∃ f ∈ p.functions, f.body = body) ∨
      ∃ f ∈ p.main, f.body = body := by
  simp only [bodies, List.mem_append, List.mem_map, Option.mem_toList, or_and_right, exists_or,
    Option.mem_def]

def HasStmt (p : Program) (s : Stmt) : Prop :=
  ∃ body ∈ p.bodies, ∃ whole ∈ body, Occurs Stmt.parts s whole

theorem hasStmt_of_mem {p : Program} {body : List Stmt} {s : Stmt} (hbody : body ∈ p.bodies)
    (hs : s ∈ body) : p.HasStmt s :=
  ⟨body, hbody, s, hs, .refl⟩

theorem HasStmt.part {p : Program} {s t : Stmt} (h : p.HasStmt s) (ht : t ∈ s.parts) :
    p.HasStmt t := by
  obtain ⟨body, hbody, whole, hwhole, hs⟩ := h
  exact ⟨body, hbody, whole, hwhole, hs.head ht⟩

end Program

end ControlLogic
