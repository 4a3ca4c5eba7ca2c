import ControlLogic.Proofs.Program.EveryCall
import ControlLogic.Proofs.Program.Refusal
import ControlLogic.Proofs.Program.StmtReading
import ControlLogic.Proofs.Token.Lookup

/-!
Call statements. A statement that begins with a name and a parenthesis is read as an expression, so
that operators may follow the call: every call statement of a program holds an expression whose
first operand is a call, and it holds the call alone exactly if no operator stands behind the call.
An equals sign there compares the call.
-/

set_option autoImplicit false
set_option relaxedAutoImplicit false

namespace ControlLogic

open Spelling Stmt

/-- The first operand of an expression, none of whose operators stand in parentheses. -/
def Expr.firstOperand : Expr → Expr
  | binary _ left _ => left.firstOperand
  | e => e

def Expr.IsCall (e : Expr) : Prop :=
  ∃ f args, e = .call f args

def OperatorNext (tokens : List Token) : Prop :=
  ∃ t ∈ tokens.head?, ∃ level ∈ Parser.levels, (Parser.binaryOp? level t).isSome

/-- Among the tokens there is a name with parentheses behind it. The expression begins with this
call, and it is nothing but a call exactly if no operator comes behind the parentheses. -/
def Expr.BeginsWithCallIn (tokens : List Token) (e : Expr) : Prop :=
  ∃ front name opening inner closing behind,
    tokens = front ++ name :: opening :: (inner ++ closing :: behind) ∧
    name.isName = true ∧ Parser.isMark "(" opening = true ∧ Parser.NoSemicolon inner ∧
    Parser.isMark ")" closing = true ∧ (∃ args, e.firstOperand = .call name.text args) ∧
    (e.IsCall ↔ ¬ OperatorNext behind)

namespace Parser

variable {tokens : List Token}

/-! ### Expressions that begin with a call -/

private theorem chain_cases {level : Level} {operand : Parser Expr} {fuel : Nat} {left e : Expr}
    {s s' : ParserState} (h : chain level operand fuel left s = .ok e s') :
    binaryOp? level s.current = none ∧ e = left ∧ s' = s ∨
      binaryOp? level s.current ≠ none ∧ ¬ e.IsCall ∧ e.firstOperand = left.firstOperand := by
  induction fuel generalizing left s with
  | zero => cases h
  | succ fuel ih =>
    rw [chain, bind_ok (looks_current s), id] at h
    cases hop : binaryOp? level s.current with
    | none =>
      rw [hop] at h
      cases h
      exact .inl ⟨rfl, rfl, rfl⟩
    | some op =>
      rw [hop] at h
      obtain ⟨t, s₁, -, hoperand⟩ := bind_eq_ok h
      obtain ⟨right, s₂, -, hchain⟩ := bind_eq_ok hoperand
      refine .inr ⟨by simp, ?_⟩
      obtain ⟨-, rfl, -⟩ | ⟨-, hother, hfirst⟩ := ih hchain
      · refine ⟨?_, rfl⟩
        rintro ⟨f, args, ⟨⟩⟩
      · exact ⟨hother, hfirst⟩

/-- An expression of the levels begins with an operand; it is nothing but the operand exactly if no
operator of the levels stands behind. -/
private theorem binary_cases {operand : Parser Expr} {fuel : Nat} {table : List Level} {e : Expr}
    {s s' : ParserState} (h : binary fuel operand table s = .ok e s') :
    ∃ first s₁, operand s = .ok first s₁ ∧
      ((∀ level ∈ table, binaryOp? level s₁.current = none) ∧ e = first ∧ s' = s₁ ∨
        (∃ level ∈ table, binaryOp? level s₁.current ≠ none) ∧ ¬ e.IsCall ∧
          e.firstOperand = first.firstOperand) := by
  induction table generalizing e s' with
  | nil => exact ⟨e, s', h, .inl ⟨List.forall_mem_nil _, rfl, rfl⟩⟩
  | cons level tighter ih =>
    obtain ⟨left, s₂, hleft, hchain⟩ := bind_eq_ok h
    obtain ⟨first, s₁, hoperand, hbehind⟩ := ih hleft
    refine ⟨first, s₁, hoperand, ?_⟩
    obtain ⟨hnone, rfl, rfl⟩ | ⟨⟨level', hlevel', hop⟩, hother, hfirst⟩ := hbehind
    · refine (chain_cases hchain).imp (fun ⟨hlevel, hsame⟩ => ?_) fun ⟨hop, hextended⟩ => ?_
      · exact ⟨List.forall_mem_cons.mpr ⟨hlevel, hnone⟩, hsame⟩
      · exact ⟨⟨level, List.mem_cons_self, hop⟩, hextended⟩
    · refine .inr ⟨⟨level', List.mem_cons_of_mem _ hlevel', hop⟩, ?_⟩
      obtain ⟨-, rfl, -⟩ | ⟨-, hother', hfirst'⟩ := chain_cases hchain
      · exact ⟨hother, hfirst⟩
      · exact ⟨hother', hfirst'.trans hfirst⟩

private theorem rest_of_expect {mark : String} {s s' : ParserState} {u : Unit}
    (h : expect mark s = .ok u s') : ∃ t, isMark mark t = true ∧ s.rest = t :: s'.rest := by
  cases hmark : isMark mark s.current with
  | true =>
    obtain ⟨t, rest, hrest⟩ := List.exists_cons_of_ne_nil (isMark_ne_nil hmark)
    have ht : isMark mark t = true := by rwa [ParserState.current, hrest] at hmark
    cases (expect_cons ht hrest).symm.trans h
    exact ⟨t, ht, hrest⟩
  | false =>
    rw [expect, Parser.consume, bind_assoc, bind_ok (looks_check mark s), hmark] at h
    cases h

/-- The tokens between two places are a name and parentheses behind it. -/
def CallBetween (s s' : ParserState) : Prop :=
  ∃ opening inner closing, s.rest = s.current :: opening :: (inner ++ closing :: s'.rest) ∧
    isMark "(" opening = true ∧ NoSemicolon inner ∧ isMark ")" closing = true

private theorem named_cases {fuel : Nat} {expr : Parser Expr} (hexpr : Spares expr) {name : String}
    {e : Expr} {s s' : ParserState} (hrest : s.rest ≠ []) (hopen : s.following.text = "(")
    (h : named fuel expr name s = .ok e s') :
    (CallBetween s s' ∧ ∃ args, e = .call name args) ∨ s'.current.text = "(" := by
  obtain ⟨t, rest, hcons⟩ := List.exists_cons_of_ne_nil hrest
  rw [named, bind_ok (advance_cons hcons)] at h
  generalize hs₁ : { s with rest := rest, read := s.read + 1 } = s₁ at h
  have hname : s.rest = s.current :: s₁.rest := by
    rw [← hs₁, ParserState.current, hcons]
    rfl
  have hcurrent : s₁.current.text = "(" := by
    rw [← hopen, ← hs₁, ParserState.current, ParserState.following, hcons]
    rfl
  obtain ⟨called, s₂, hcalled, hbehind⟩ := bind_eq_ok h
  rw [Parser.consume, bind_ok (looks_check "(" s₁)] at hcalled
  cases hmark : isMark "(" s₁.current with
  | true =>
    obtain ⟨opening, rest', hcons'⟩ := List.exists_cons_of_ne_nil (isMark_ne_nil hmark)
    rw [hmark, if_pos rfl, bind_ok (advance_cons hcons')] at hcalled
    cases hcalled
    rw [if_pos rfl] at hbehind
    obtain ⟨args, s₃, hargs, hclosed⟩ := bind_eq_ok hbehind
    obtain ⟨u, s₄, hclosing, hcall⟩ := bind_eq_ok hclosed
    cases hcall
    obtain ⟨inner, hinner, hbetween, -⟩ := (spares_arguments hexpr fuel _).spared hargs
    obtain ⟨closing, hclose, hlast⟩ := rest_of_expect hclosing
    refine .inl ⟨⟨opening, inner, closing, ?_, ?_, hinner, hclose⟩, args, rfl⟩
    · rw [hname, hcons', ← hlast, ← hbetween]
    · rwa [ParserState.current, hcons'] at hmark
  | false =>
    rw [hmark] at hcalled
    cases hcalled
    have hother : ∀ mark ∈ ["[", "."], isMark mark s₁.current = false := by
      intro mark hmem
      refine isMark_of_text ?_
      rw [hcurrent]
      rintro rfl
      simp at hmem
    have hdot : Parser.consume "." s₁ = .ok false s₁ := by
      rw [Parser.consume, bind_ok (looks_check "." s₁), hother "." (by simp)]
      rfl
    rw [if_neg (by decide), bind_ok (looks_check "[" s₁), hother "[" (by simp),
      if_neg (by decide), bind_ok hdot, if_neg (by decide)] at hbehind
    cases hbehind
    exact .inr hcurrent

private theorem expression_cases {fuel : Nat} {e : Expr} {s s' : ParserState}
    (hname : s.current.isName = true) (h : expression fuel s = .ok e s') :
    ∃ n first s₁, named n (expression n) s.current.text s = .ok first s₁ ∧
      ((∀ level ∈ levels, binaryOp? level s₁.current = none) ∧ e = first ∧ s' = s₁ ∨
        (∃ level ∈ levels, binaryOp? level s₁.current ≠ none) ∧ ¬ e.IsCall ∧
          e.firstOperand = first.firstOperand) := by
  obtain ⟨first, s₁, hunary, hbehind⟩ := binary_cases h
  have hkind : s.current.kind = .identifier ∨ s.current.kind = .routine := by
    simpa [Token.isName] using hname
  cases fuel with
  | zero => cases hunary
  | succ fuel =>
    refine ⟨fuel, first, s₁, ?_, hbehind⟩
    have hnone : unaryOp? (id s.current) = none := by
      rcases hkind with hkind | hkind <;> simp [unaryOp?, hkind]
    rw [unary, bind_ok (looks_current s), hnone] at hunary
    simp only [atom] at hunary
    rw [bind_ok (looks_current s)] at hunary
    rcases hkind with hkind | hkind
    · simp only [id, hkind] at hunary
      exact hunary
    · simp only [id, hkind] at hunary
      exact hunary

private theorem operatorNext_iff (s : ParserState) :
    OperatorNext s.rest ↔ ∃ level ∈ levels, binaryOp? level s.current ≠ none := by
  constructor
  · rintro ⟨t, ht, level, hlevel, hop⟩
    refine ⟨level, hlevel, ?_⟩
    rw [ParserState.current_eq_getD, show s.rest.head? = some t from ht]
    exact Option.isSome_iff_ne_none.mp hop
  · rintro ⟨level, hlevel, hop⟩
    have hrest : s.rest ≠ [] :=
      ParserState.rest_ne_nil (P := fun t => binaryOp? level t ≠ none) hop (by simp [binaryOp?])
    obtain ⟨t, rest, hcons⟩ := List.exists_cons_of_ne_nil hrest
    rw [ParserState.current, hcons] at hop
    exact ⟨t, by rw [hcons]; rfl, level, hlevel, Option.isSome_iff_ne_none.mpr hop⟩

/-! ### Programs -/

def callDemands (tokens : List Token) : Demands where
  value _ := True
  target _ := True
  routine := Expr.BeginsWithCallIn tokens

private theorem simpleStmt_suits {fuel : Nat} {pos : Position} {stmt : Stmt} {s s' : ParserState}
    (hs : Among tokens s) (hname : s.current.isName = true)
    (h : simpleStmt fuel pos s = .ok stmt s') : stmt.Suits (callDemands tokens) := by
  rw [simpleStmt_apply] at h
  split at h
  next hopen =>
    obtain ⟨routine, s₁, hroutine, h⟩ := bind_eq_ok h
    obtain ⟨u, s₂, hend, h⟩ := bind_eq_ok h
    cases h
    obtain ⟨n, first, s₃, hnamed, hbehind⟩ := expression_cases hname hroutine
    obtain ⟨hcall, args, rfl⟩ | hstopped :=
      named_cases (spares_expression n) (name_ne_nil hname) hopen hnamed
    · obtain ⟨front, hfront⟩ := hs.suffix
      obtain ⟨opening, inner, closing, hrest, hopening, hinner, hclosing⟩ := hcall
      refine suits_call ⟨front, s.current, opening, inner, closing, s₃.rest, ?_, hname, hopening,
        hinner, hclosing, ?_⟩
      · rw [← hfront, hrest]
      · rw [operatorNext_iff]
        obtain ⟨hnone, rfl, rfl⟩ | ⟨hop, hother, hfirst⟩ := hbehind
        · refine ⟨⟨args, rfl⟩, fun _ ⟨level, hlevel, hop⟩ => hop (hnone level hlevel), fun _ => ?_⟩
          exact ⟨_, args, rfl⟩
        · exact ⟨⟨args, hfirst⟩, fun hcall => absurd hcall hother, fun hnone => absurd hop hnone⟩
    · -- The parenthesis would stand in the place of the semicolon.
      obtain ⟨-, -, rfl⟩ | ⟨⟨level, hlevel, hop⟩, -⟩ := hbehind
      · obtain ⟨semicolon, hsemicolon, hrest⟩ := rest_of_expect hend
        rw [ParserState.current, hrest, List.headD_cons, text_eq_of_isMark hsemicolon] at hstopped
        exact absurd hstopped (by decide)
      · exact absurd (binaryOp?_of_text hlevel (.inl hstopped)) hop
  next =>
    obtain ⟨target, s₁, -, h⟩ := bind_eq_ok h
    obtain ⟨u, s₂, -, h⟩ := bind_eq_ok h
    obtain ⟨value, s₃, -, h⟩ := bind_eq_ok h
    obtain ⟨v, s₄, -, h⟩ := bind_eq_ok h
    cases h
    exact suits_assign trivial trivial

private theorem everyCall_ofTokens (text : String) :
    (ofTokens (Token.scan text)).program.EveryCall
      (Expr.BeginsWithCallIn (ParserState.ofTokens (Token.scan text)).rest) := by
  refine Program.Suits.everyCall (D := callDemands _) (fun _ he => he) (suits_ofTokens text ?_)
  refine yields_statement ⟨fun _ _ _ _ _ _ => trivial, fun _ _ _ _ _ _ => trivial⟩ ?_
  exact fun fuel pos s hs hname stmt s' => simpleStmt_suits hs hname

/-- An equals sign behind a call compares it: the tokens of the comparison and a semicolon are read
as a call statement. -/
private theorem reads_comparedCall {style : Style} {fuel : Nat} {stops : Spelling → Prop}
    {f : String}
    {args : List Expr} {e : Expr} (hcall : (Expr.call f args).Canonical) (he : e.Canonical)
    (hfuel : ((Expr.binary .eq (.call f args) e).words style).length < fuel) :
    Reads (statement fuel) ((Expr.binary .eq (.call f args) e).words style ++ semicolon) stops
      (fun stmt => ∃ pos, stmt = .call pos (.binary .eq (.call f args) e)) := by
  have hnamed : Expr.IsName f := by
    cases hcall with
    | call named _ => exact named
  obtain ⟨fuel, rfl⟩ : ∃ n, fuel = n + 1 := ⟨fuel - 1, by omega⟩
  have hread : Reads (expression (fuel + 1)) ((Expr.binary .eq (.call f args) e).words style)
      (StopsAt 0) (· = .binary .eq (.call f args) e) :=
    (readBack_of_canonical (.binary (by decide) hcall he)).expression (by omega)
  obtain ⟨behind, hwords⟩ : ∃ behind, (Expr.binary .eq (.call f args) e).words style =
      word f :: punctuation "(" :: behind := by
    rw [Expr.words, Expr.words]
    exact ⟨_, rfl⟩
  rw [hwords] at hread ⊢
  refine reads_simpleStmt hnamed fun pos => ?_
  rw [simpleStmt]
  refine Reads.following (f := fun text => if text = "(" then _ else _) ?_
  rw [if_pos (by rfl)]
  refine .bind hread (fun a ha => ?_) fun _ _ => stopsAt_marks _ (by simp)
  subst ha
  exact .expect rfl (.pure ⟨pos, rfl⟩)

end Parser

def Program.tokens (text : String) (defines : List String) : List Token :=
  (ParserState.ofTokens (Token.scan (Source.resolve text defines).text)).rest

/-- In the program that is read from a text, the expression of each call statement begins with a
call, and it is nothing but a call exactly if no operator stands in the text behind the parentheses.
A comparison of a call with an expression, written with an equals sign, is read as a call statement
of which nothing is refused. -/
theorem call_statements_begin_with_call (text : String) (defines : List String) :
    (Program.parse text defines).program.EveryCall
        (Expr.BeginsWithCallIn (Program.tokens text defines)) ∧
      ∀ (style : Style) (f : String) (args : List Expr) (e : Expr) (fuel : Nat),
        (Expr.call f args).Canonical → e.Canonical →
        ((Expr.binary .eq (.call f args) e).words style).length < fuel →
        Parser.Reads (Parser.statement fuel)
          ((Expr.binary .eq (.call f args) e).words style ++ semicolon) (fun _ => True)
          (fun stmt => ∃ pos, stmt = .call pos (.binary .eq (.call f args) e)) := by
  constructor
  · exact { Parser.everyCall_ofTokens (Source.resolve text defines).text with }
  · intro style f args e fuel hcall he hfuel
    exact Parser.reads_comparedCall hcall he hfuel

/-- A call with an equals sign and a number behind it. -/
theorem equals_sign_compares_call :
    ∃ style : Style, style.binary .eq = operator "=" ∧
      Parser.Reads (Parser.statement 7)
        ((Expr.binary .eq (.call "f" [.name "x"]) (.number 1)).words style ++ semicolon)
        (fun _ => True)
        (fun stmt => ∃ pos, stmt = .call pos (.binary .eq (.call "f" [.name "x"]) (.number 1))) := by
  have hletters : ∀ id ∈ ["f", "x"], Expr.IsName id := by
    intro id hid
    simp only [List.mem_cons, List.not_mem_nil, or_false] at hid
    rcases hid with rfl | rfl <;> exact Expr.isName_letter ⟨_, [], rfl, by decide, by simp⟩ rfl
  simp only [List.forall_mem_cons] at hletters
  obtain ⟨hf, hx, -⟩ := hletters
  have hcall : (Expr.call "f" [.name "x"]).Canonical := .call hf (by simpa using .name hx)
  let style : Style :=
    { Style.last with
      binary := fun op => op.spellings.headD finish
      binary_mem := fun op => by cases op <;> decide +kernel }
  refine ⟨style, by decide +kernel, ?_⟩
  exact (call_statements_begin_with_call "" []).2 style "f" [.name "x"] (.number 1) 7 hcall
    (.number (by decide) (by decide)) (by decide +kernel)

def Stmt.comparesCall : Stmt → Bool
  | call _ (.binary .eq _ _) => true
  | _ => false

/-- An assignment to a call is accepted as a call statement that holds a comparison. -/
theorem assignment_to_call_is_accepted :
    let text := "FUNCTION Main()\n\x7b\n    f(x) = 1;\n\x7d\n"
    (Program.parse text []).errors = [] ∧
      ¬ (Program.parse text []).program.EveryCall Expr.IsCall := by
  intro text
  have hread : (Program.parse text []).errors = [] ∧
      (Program.parse text []).program.main.any (fun f => f.body.any comparesCall) = true := by
    rw [Program.parse_errors, Program.parse_main, Token.scan_eq_map_lookedUp]
    decide +kernel
  obtain ⟨hclean, hbody⟩ := hread
  refine ⟨hclean, fun hcalls => ?_⟩
  cases hmain : (Program.parse text []).program.main with
  | none =>
    rw [hmain] at hbody
    cases hbody
  | some f =>
    rw [hmain, Option.any_some, List.any_eq_true] at hbody
    obtain ⟨stmt, hstmt, hshape⟩ := hbody
    unfold comparesCall at hshape
    split at hshape
    next =>
      cases hcalls.main f hmain _ hstmt with
      | call h =>
        obtain ⟨name, args, hcall⟩ := h
        cases hcall
    next => cases hshape

end ControlLogic
