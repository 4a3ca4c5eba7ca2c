import ControlLogic.Proofs.Program.EveryExpr

/-!
What the call statements of a program hold, however deep they stand in other statements.
-/

set_option autoImplicit false
set_option relaxedAutoImplicit false

namespace ControlLogic

open Stmt

/-- Every call statement in a statement, however deep in it, holds an expression that satisfies
`P`. -/
inductive Stmt.EveryCall (P : Expr → Prop) : Stmt → Prop
  | branch {pos : Position} {condition : Expr} {body : List Stmt} {other : Option (List Stmt)}
      (hbody : ∀ s ∈ body, EveryCall P s) (hother : ∀ b ∈ other, ∀ s ∈ b, EveryCall P s) :
      EveryCall P (branch pos condition body other)
  | count {pos : Position} {counter start finish : Expr} {step : Option Expr} {body : List Stmt}
      (hbody : ∀ s ∈ body, EveryCall P s) : EveryCall P (count pos counter start finish step body)
  | whileLoop {pos : Position} {condition : Expr} {body : List Stmt}
      (hbody : ∀ s ∈ body, EveryCall P s) : EveryCall P (whileLoop pos condition body)
  | untilLoop {pos : Position} {body : List Stmt} {condition : Expr}
      (hbody : ∀ s ∈ body, EveryCall P s) : EveryCall P (untilLoop pos body condition)
  | switch {pos : Position} {subject : Expr} {alternatives : List (Alternative Stmt)}
      {runsOn : Bool} (hbodies : ∀ a ∈ alternatives, ∀ s ∈ a.body, EveryCall P s) :
      EveryCall P (switch pos subject alternatives runsOn)
  | wait {pos : Position} {duration : Expr} {name : Option String} {body : Option (List Stmt)}
      (hbody : ∀ b ∈ body, ∀ s ∈ b, EveryCall P s) : EveryCall P (wait pos duration name body)
  | assign {pos : Position} {target value : Expr} : EveryCall P (assign pos target value)
  | call {pos : Position} {routine : Expr} (h : P routine) : EveryCall P (call pos routine)
  | returns {pos : Position} {value : Option Expr} : EveryCall P (returns pos value)
  | breaks {pos : Position} : EveryCall P (breaks pos)
  | terminateEvent {pos : Position} : EveryCall P (terminateEvent pos)
  | block {pos : Position} {body : List Stmt} (hbody : ∀ s ∈ body, EveryCall P s) :
      EveryCall P (block pos body)

/-- Every call statement in the handlers and functions of a program holds an expression that
satisfies `P`. -/
structure Program.EveryCall (P : Expr → Prop) (p : Program) : Prop where
  handlers : ∀ h ∈ p.handlers, ∀ s ∈ h.body, s.EveryCall P
  functions : ∀ f ∈ p.functions, ∀ s ∈ f.body, s.EveryCall P
  main : ∀ f ∈ p.main, ∀ s ∈ f.body, s.EveryCall P

theorem Stmt.Suits.everyCall {D : Demands} {P : Expr → Prop} (hP : ∀ e, D.routine e → P e)
    {s : Stmt} (h : s.Suits D) : s.EveryCall P := by
  induction h with
  | @intro s hmeets hparts ih =>
    cases s with
    | branch pos condition thenBody elseBody =>
      have hboth := List.forall_mem_append.mp ih
      refine .branch hboth.1 ?_
      rintro body rfl
      exact hboth.2
    | count => exact .count ih
    | whileLoop => exact .whileLoop ih
    | untilLoop => exact .untilLoop ih
    | switch => exact .switch fun a ha s hs => ih s (List.mem_flatMap.mpr ⟨a, ha, hs⟩)
    | wait =>
      refine .wait ?_
      rintro body rfl
      exact ih
    | assign => exact .assign
    | call pos routine => exact .call (hP routine (hmeets.routine routine rfl))
    | returns => exact .returns
    | breaks => exact .breaks
    | terminateEvent => exact .terminateEvent
    | block => exact .block ih

theorem Program.Suits.everyCall {D : Demands} {P : Expr → Prop} (hP : ∀ e, D.routine e → P e)
    {p : Program} (h : p.Suits D) : p.EveryCall P := by
  have hbody {body : List Stmt} (hmem : body ∈ p.bodies) : ∀ s ∈ body, s.EveryCall P :=
    fun s hs => (h body hmem s hs).everyCall hP
  exact
    { handlers := fun x hx => hbody (mem_bodies.mpr (.inl ⟨x, hx, rfl⟩))
      functions := fun f hf => hbody (mem_bodies.mpr (.inr (.inl ⟨f, hf, rfl⟩)))
      main := fun f hf => hbody (mem_bodies.mpr (.inr (.inr ⟨f, hf, rfl⟩))) }

end ControlLogic
