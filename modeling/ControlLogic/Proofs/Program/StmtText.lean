import ControlLogic.Proofs.Program.ExprText

/-!
Statements as they are written: every body in braces, one statement after the other, a blank between
neighbouring tokens.
-/

set_option autoImplicit false
set_option relaxedAutoImplicit false

namespace ControlLogic

open Spelling

namespace Spelling

def parens (ws : List Spelling) : List Spelling :=
  punctuation "(" :: (ws ++ [punctuation ")"])

def braces (ws : List Spelling) : List Spelling :=
  punctuation "\x7b" :: (ws ++ [punctuation "\x7d"])

def semicolon : List Spelling := [punctuation ";"]

end Spelling

namespace Stmt

def stepWords (style : Style) : Option Expr → List Spelling
  | none => []
  | some e => keyword "STEP" :: e.words style

def nameWords : Option String → List Spelling
  | none => []
  | some name => [punctuation ",", word name]

def labelWords (style : Style) : Option Expr → List Spelling
  | none => [keyword "DEFAULT", punctuation ":"]
  | some e => keyword "CASE" :: (e.words style ++ [punctuation ":"])

mutual

def words (style : Style) : Stmt → List Spelling
  | branch _ condition body none =>
    keyword "IF" :: (parens (condition.words style) ++ braces (listWords style body))
  | branch _ condition body (some other) =>
    keyword "IF" :: (parens (condition.words style) ++ (braces (listWords style body) ++
      keyword "ELSE" :: braces (listWords style other)))
  | count _ counter start finish step body =>
    keyword "FOR" :: (parens (counter.words style ++ operator "=" :: (start.words style ++
      keyword "TO" :: (finish.words style ++ stepWords style step))) ++
      braces (listWords style body))
  | whileLoop _ condition body =>
    keyword "WHILE" :: (parens (condition.words style) ++ braces (listWords style body))
  | untilLoop _ body condition =>
    keyword "DO" :: (braces (listWords style body) ++
      keyword "UNTIL" :: (parens (condition.words style) ++ semicolon))
  | switch _ subject alternatives runsOn =>
    keyword (if runsOn then "CSWITCH" else "SWITCH") ::
      (parens (subject.words style) ++ braces (alternativeWords style alternatives))
  | wait _ duration name none =>
    keyword "WAIT" :: (parens (duration.words style ++ nameWords name) ++ semicolon)
  | wait _ duration name (some body) =>
    keyword "WAIT" :: (parens (duration.words style ++ nameWords name) ++
      braces (listWords style body))
  | assign _ target value =>
    target.words style ++ operator "=" :: (value.words style ++ semicolon)
  | call _ routine => routine.words style ++ semicolon
  | returns _ none => keyword "RETURN" :: semicolon
  | returns _ (some value) => keyword "RETURN" :: (value.words style ++ semicolon)
  | breaks _ => keyword "BREAK" :: semicolon
  | terminateEvent _ => keyword "TERMINATEEVENT" :: semicolon
  | block _ body => braces (listWords style body)

def listWords (style : Style) : List Stmt → List Spelling
  | [] => []
  | s :: rest => s.words style ++ listWords style rest

def alternativeWords (style : Style) : List (Alternative Stmt) → List Spelling
  | [] => []
  | ⟨label, body⟩ :: rest =>
    labelWords style label ++ (braces (listWords style body) ++ alternativeWords style rest)

end

mutual

@[simp] def unplaced : Stmt → Stmt
  | branch _ condition body none => branch .start condition (unplacedList body) none
  | branch _ condition body (some other) =>
    branch .start condition (unplacedList body) (some (unplacedList other))
  | count _ counter start finish step body =>
    count .start counter start finish step (unplacedList body)
  | whileLoop _ condition body => whileLoop .start condition (unplacedList body)
  | untilLoop _ body condition => untilLoop .start (unplacedList body) condition
  | switch _ subject alternatives runsOn =>
    switch .start subject (unplacedAlternatives alternatives) runsOn
  | wait _ duration name none => wait .start duration name none
  | wait _ duration name (some body) => wait .start duration name (some (unplacedList body))
  | assign _ target value => assign .start target value
  | call _ routine => call .start routine
  | returns _ value => returns .start value
  | breaks _ => breaks .start
  | terminateEvent _ => terminateEvent .start
  | block _ body => block .start (unplacedList body)

@[simp] def unplacedList : List Stmt → List Stmt
  | [] => []
  | s :: rest => s.unplaced :: unplacedList rest

@[simp] def unplacedAlternatives : List (Alternative Stmt) → List (Alternative Stmt)
  | [] => []
  | ⟨label, body⟩ :: rest => ⟨label, unplacedList body⟩ :: unplacedAlternatives rest

end

/-- Statements that can be written: expressions can be, what is assigned to and what counts is a
place, what is called is a call, and waits have single tokens for names. -/
inductive Canonical : Stmt → Prop
  | branch {pos : Position} {condition : Expr} {body : List Stmt} {other : Option (List Stmt)}
      (hcondition : condition.Canonical) (hbody : ∀ s ∈ body, Canonical s)
      (hother : ∀ b ∈ other, ∀ s ∈ b, Canonical s) :
      Canonical (branch pos condition body other)
  | count {pos : Position} {counter start finish : Expr} {step : Option Expr} {body : List Stmt}
      (place : counter.isPlace = true) (hcounter : counter.Canonical) (hstart : start.Canonical)
      (hfinish : finish.Canonical) (hstep : ∀ e ∈ step, Expr.Canonical e)
      (hbody : ∀ s ∈ body, Canonical s) : Canonical (count pos counter start finish step body)
  | whileLoop {pos : Position} {condition : Expr} {body : List Stmt}
      (hcondition : condition.Canonical) (hbody : ∀ s ∈ body, Canonical s) :
      Canonical (whileLoop pos condition body)
  | untilLoop {pos : Position} {body : List Stmt} {condition : Expr}
      (hbody : ∀ s ∈ body, Canonical s) (hcondition : condition.Canonical) :
      Canonical (untilLoop pos body condition)
  | switch {pos : Position} {subject : Expr} {alternatives : List (Alternative Stmt)}
      {runsOn : Bool} (hsubject : subject.Canonical)
      (hlabels : ∀ a ∈ alternatives, ∀ e ∈ a.label, Expr.Canonical e)
      (hbodies : ∀ a ∈ alternatives, ∀ s ∈ a.body, Canonical s) :
      Canonical (switch pos subject alternatives runsOn)
  | wait {pos : Position} {duration : Expr} {name : Option String} {body : Option (List Stmt)}
      (hduration : duration.Canonical) (hname : ∀ id ∈ name, Expr.IsName id)
      (hbody : ∀ b ∈ body, ∀ s ∈ b, Canonical s) : Canonical (wait pos duration name body)
  | assign {pos : Position} {target value : Expr} (place : target.isPlace = true)
      (htarget : target.Canonical) (hvalue : value.Canonical) :
      Canonical (assign pos target value)
  | call {pos : Position} {f : String} {args : List Expr}
      (hcall : (Expr.call f args).Canonical) : Canonical (call pos (.call f args))
  | returns {pos : Position} {value : Option Expr} (hvalue : ∀ e ∈ value, Expr.Canonical e) :
      Canonical (returns pos value)
  | breaks {pos : Position} : Canonical (breaks pos)
  | terminateEvent {pos : Position} : Canonical (terminateEvent pos)
  | block {pos : Position} {body : List Stmt} (hbody : ∀ s ∈ body, Canonical s) :
      Canonical (block pos body)

theorem unplacedList_eq_map (body : List Stmt) : unplacedList body = body.map unplaced := by
  induction body with
  | nil => rfl
  | cons s rest ih => rw [unplacedList, ih, List.map_cons]

theorem call_of_unplaced {body : List Stmt} {p : Position} {routine : Expr}
    (h : body.map unplaced = [call p routine].map unplaced) : ∃ q, body = [call q routine] := by
  obtain ⟨s, rfl, hs⟩ := List.map_eq_singleton_iff.mp h
  cases s with
  | call q routine =>
    simp only [unplaced, call.injEq, true_and] at hs
    exact ⟨q, by rw [hs]⟩
  | branch _ _ _ other => cases other <;> simp at hs
  | wait _ _ _ body => cases body <;> simp at hs
  | _ => simp at hs

/-! ### The tokens of statements stand for themselves -/

variable {style : Style} {ws : List Spelling}

def keywords : List String :=
  ["IF", "ELSE", "FOR", "TO", "STEP", "WHILE", "DO", "UNTIL", "SWITCH", "CSWITCH", "CASE",
    "DEFAULT", "WAIT", "RETURN", "BREAK", "TERMINATEEVENT", "FUNCTION"]

theorem keywords_stand : ∀ text ∈ keywords, (keyword text).Stands := by
  intro text htext
  have hcontrol : text ∈ Vocabulary.control := List.take_subset 17 _ htext
  refine keyword_stands ?_ hcontrol
  simp only [keywords, List.mem_cons, List.not_mem_nil, or_false] at htext
  rcases htext with rfl | rfl | rfl | rfl | rfl | rfl | rfl | rfl | rfl | rfl | rfl | rfl | rfl |
    rfl | rfl | rfl | rfl <;> exact isWord_of_toList rfl (by decide) (by decide)

private theorem stands_parens (h : ∀ w ∈ ws, w.Stands) : ∀ w ∈ parens ws, w.Stands := by
  have henclosed : ∀ w ∈ Expr.enclose true ws, w.Stands := Expr.stands_enclose h
  exact henclosed

theorem stands_braces (h : ∀ w ∈ ws, w.Stands) : ∀ w ∈ braces ws, w.Stands := by
  intro w hw
  simp only [braces, List.mem_cons, List.mem_append, List.not_mem_nil, or_false] at hw
  rcases hw with rfl | hw | rfl
  · exact punctuation_stands (by decide)
  · exact h w hw
  · exact punctuation_stands (by decide)

private theorem stands_semicolon : ∀ w ∈ semicolon, w.Stands := by
  simpa [semicolon] using (punctuation_stands (by decide) : (punctuation ";").Stands)

private theorem stands_stepWords {step : Option Expr} (h : ∀ e ∈ step, Expr.Canonical e) :
    ∀ w ∈ stepWords style step, w.Stands := by
  cases step with
  | none => simp [stepWords]
  | some e =>
    rw [stepWords, List.forall_mem_cons]
    exact ⟨keywords_stand _ (by simp [keywords]), (h e rfl).stands⟩

private theorem stands_nameWords {name : Option String} (h : ∀ id ∈ name, Expr.IsName id) :
    ∀ w ∈ nameWords name, w.Stands := by
  cases name with
  | none => simp [nameWords]
  | some id =>
    have hcomma : (punctuation ",").Stands := punctuation_stands (by decide)
    simpa [nameWords] using ⟨hcomma, (h id rfl).stands⟩

private theorem stands_labelWords {label : Option Expr} (h : ∀ e ∈ label, Expr.Canonical e) :
    ∀ w ∈ labelWords style label, w.Stands := by
  have hcolon : (punctuation ":").Stands := punctuation_stands (by decide)
  cases label with
  | none => simpa [labelWords] using ⟨keywords_stand "DEFAULT" (by simp [keywords]), hcolon⟩
  | some e =>
    rw [labelWords, List.forall_mem_cons, List.forall_mem_append]
    exact ⟨keywords_stand _ (by simp [keywords]), (h e rfl).stands, by simpa using hcolon⟩

theorem stands_listWords {body : List Stmt} (h : ∀ s ∈ body, ∀ w ∈ s.words style, w.Stands) :
    ∀ w ∈ listWords style body, w.Stands := by
  induction body with
  | nil => simp [listWords]
  | cons s rest ih =>
    rw [listWords, List.forall_mem_append]
    exact ⟨h s List.mem_cons_self, ih fun x hx => h x (List.mem_cons_of_mem _ hx)⟩

private theorem stands_alternativeWords {alternatives : List (Alternative Stmt)}
    (hlabels : ∀ a ∈ alternatives, ∀ e ∈ a.label, Expr.Canonical e)
    (hbodies : ∀ a ∈ alternatives, ∀ s ∈ a.body, ∀ w ∈ s.words style, w.Stands) :
    ∀ w ∈ alternativeWords style alternatives, w.Stands := by
  induction alternatives with
  | nil => simp [alternativeWords]
  | cons a rest ih =>
    obtain ⟨label, body⟩ := a
    rw [alternativeWords, List.forall_mem_append, List.forall_mem_append]
    refine ⟨stands_labelWords (hlabels _ List.mem_cons_self),
      stands_braces (stands_listWords (hbodies _ List.mem_cons_self)), ?_⟩
    exact ih (fun x hx => hlabels x (List.mem_cons_of_mem _ hx))
      fun x hx => hbodies x (List.mem_cons_of_mem _ hx)

theorem Canonical.stands {s : Stmt} (h : s.Canonical) : ∀ w ∈ s.words style, w.Stands := by
  have hkeywords : ∀ text, text ∈ keywords → (keyword text).Stands := keywords_stand
  have hequals : (operator "=").Stands := operator_stands (by decide)
  induction h with
  | @branch _ _ _ other hcondition _ _ ihbody ihother =>
    cases other with
    | none =>
      rw [words, List.forall_mem_cons, List.forall_mem_append]
      exact ⟨hkeywords _ (by simp [keywords]), stands_parens hcondition.stands,
        stands_braces (stands_listWords ihbody)⟩
    | some other =>
      rw [words, List.forall_mem_cons, List.forall_mem_append, List.forall_mem_append,
        List.forall_mem_cons]
      exact ⟨hkeywords _ (by simp [keywords]), stands_parens hcondition.stands,
        stands_braces (stands_listWords ihbody), hkeywords _ (by simp [keywords]),
        stands_braces (stands_listWords (ihother other rfl))⟩
  | count _ hcounter hstart hfinish hstep _ ihbody =>
    rw [words, List.forall_mem_cons, List.forall_mem_append]
    refine ⟨hkeywords _ (by simp [keywords]), stands_parens ?_,
      stands_braces (stands_listWords ihbody)⟩
    rw [List.forall_mem_append, List.forall_mem_cons, List.forall_mem_append,
      List.forall_mem_cons, List.forall_mem_append]
    exact ⟨hcounter.stands, hequals, hstart.stands, hkeywords _ (by simp [keywords]),
      hfinish.stands, stands_stepWords hstep⟩
  | whileLoop hcondition _ ihbody =>
    rw [words, List.forall_mem_cons, List.forall_mem_append]
    exact ⟨hkeywords _ (by simp [keywords]), stands_parens hcondition.stands,
      stands_braces (stands_listWords ihbody)⟩
  | untilLoop _ hcondition ihbody =>
    rw [words, List.forall_mem_cons, List.forall_mem_append, List.forall_mem_cons,
      List.forall_mem_append]
    exact ⟨hkeywords _ (by simp [keywords]), stands_braces (stands_listWords ihbody),
      hkeywords _ (by simp [keywords]), stands_parens hcondition.stands, stands_semicolon⟩
  | @switch _ _ _ runsOn hsubject hlabels _ ihbodies =>
    rw [words, List.forall_mem_cons, List.forall_mem_append]
    refine ⟨?_, stands_parens hsubject.stands,
      stands_braces (stands_alternativeWords hlabels ihbodies)⟩
    cases runsOn <;> exact hkeywords _ (by simp [keywords])
  | @wait _ duration name body hduration hname _ ihbody =>
    have hhead : ∀ w ∈ parens (duration.words style ++ nameWords name), w.Stands :=
      stands_parens (List.forall_mem_append.mpr ⟨hduration.stands, stands_nameWords hname⟩)
    cases body with
    | none =>
      rw [words, List.forall_mem_cons, List.forall_mem_append]
      exact ⟨hkeywords _ (by simp [keywords]), hhead, stands_semicolon⟩
    | some body =>
      rw [words, List.forall_mem_cons, List.forall_mem_append]
      exact ⟨hkeywords _ (by simp [keywords]), hhead,
        stands_braces (stands_listWords (ihbody body rfl))⟩
  | assign _ htarget hvalue =>
    rw [words, List.forall_mem_append, List.forall_mem_cons, List.forall_mem_append]
    exact ⟨htarget.stands, hequals, hvalue.stands, stands_semicolon⟩
  | call hcall =>
    rw [words, List.forall_mem_append]
    exact ⟨hcall.stands, stands_semicolon⟩
  | @returns _ value hvalue =>
    cases value with
    | none =>
      rw [words, List.forall_mem_cons]
      exact ⟨hkeywords _ (by simp [keywords]), stands_semicolon⟩
    | some value =>
      rw [words, List.forall_mem_cons, List.forall_mem_append]
      exact ⟨hkeywords _ (by simp [keywords]), (hvalue value rfl).stands, stands_semicolon⟩
  | breaks =>
    rw [words, List.forall_mem_cons]
    exact ⟨hkeywords _ (by simp [keywords]), stands_semicolon⟩
  | terminateEvent =>
    rw [words, List.forall_mem_cons]
    exact ⟨hkeywords _ (by simp [keywords]), stands_semicolon⟩
  | block _ ihbody =>
    rw [words]
    exact stands_braces (stands_listWords ihbody)

end Stmt

end ControlLogic
