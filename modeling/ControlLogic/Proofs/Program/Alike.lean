import ControlLogic.Proofs.Program.Folding
import ControlLogic.Proofs.Program.Progress

/-!
Readers on two inputs that are equal up to case. Whatever a reader looks at is the same on both, so
that both runs go the same way: they give what is equal up to case, or both refuse what they find at
the same place, or both are stuck. Here this is shown of tokens, declarations and expressions.
-/

set_option autoImplicit false
set_option relaxedAutoImplicit false

namespace ControlLogic

open Text (upper Caseless)

/-- States that are equal up to case. The structures and constants noted are noted in upper case. -/
structure ParserState.Like (s t : ParserState) : Prop where
  rest : s.rest.map Token.folded = t.rest.map Token.folded
  finish : s.finish = t.finish
  read : s.read = t.read
  errors : s.errors.map ParseError.folded = t.errors.map ParseError.folded
  structures : s.structures = t.structures
  constants : s.constants = t.constants
  locals : s.locals.map VariableDecl.folded = t.locals.map VariableDecl.folded

namespace ParserState.Like

variable {s t : ParserState} (h : s.Like t)
include h

theorem length_eq : s.rest.length = t.rest.length := by
  simpa using congrArg List.length h.rest

private theorem isEmpty_eq : s.rest.isEmpty = t.rest.isEmpty := by
  simpa using congrArg List.isEmpty h.rest

private theorem endToken_eq : s.endToken = t.endToken := by
  rw [endToken, h.finish, endToken]

theorem current : s.current.folded = t.current.folded := by
  have hhead := congrArg (List.headD · s.endToken.folded) h.rest
  rw [List.headD_map, List.headD_map, h.endToken_eq] at hhead
  rw [ParserState.current, h.endToken_eq, hhead, ParserState.current]

theorem following : s.following.folded = t.following.folded := by
  have hhead := congrArg (fun ts => ts.tail.headD s.endToken.folded) h.rest
  rw [← List.map_tail, ← List.map_tail, List.headD_map, List.headD_map] at hhead
  rw [ParserState.following, hhead, h.endToken_eq, ParserState.following]

end ParserState.Like

namespace Parser

variable {α β γ δ : Type}

/-- Two outcomes that are equal up to case, as far as `view` shows what was read. -/
inductive Agrees (view : α → β) :
    EStateM.Result Halt ParserState α → EStateM.Result Halt ParserState α → Prop
  | ok {a b : α} {s t : ParserState} (h : view a = view b) (hs : s.Like t) :
    Agrees view (.ok a s) (.ok b t)
  | refused {e e' : ParseError} {s t : ParserState} (h : e.folded = e'.folded) (hs : s.Like t) :
    Agrees view (.error (.error e) s) (.error (.error e') t)
  | stuck {s t : ParserState} (hs : s.Like t) : Agrees view (.error .stuck s) (.error .stuck t)

/-- On inputs that are equal up to case the readers do the same up to case. -/
def Alike (view : α → β) (p q : Parser α) : Prop :=
  ∀ s t : ParserState, s.Like t → Agrees view (p s) (q t)

variable {view : α → β} {view' : γ → δ} {p q : Parser α} {f g : α → Parser γ}

/-! ### Sequences -/

theorem Alike.bind (hp : Alike view p q)
    (hf : ∀ a b, view a = view b → Alike view' (f a) (g b)) :
    Alike view' (p >>= f) (q >>= g) := by
  intro s t hst
  change Agrees view' (EStateM.bind p f s) (EStateM.bind q g t)
  unfold EStateM.bind
  have h := hp s t hst
  generalize p s = r at h
  generalize q t = r' at h
  cases h with
  | ok h hs => exact hf _ _ h _ _ hs
  | refused h hs => exact .refused h hs
  | stuck hs => exact .stuck hs

theorem Alike.andThen {p q : Parser α} (hp : Alike id p q) (hf : ∀ a, Alike view' (f a) (g a)) :
    Alike view' (p >>= f) (q >>= g) := by
  refine hp.bind fun a b h => ?_
  obtain rfl : a = b := h
  exact hf a

theorem Alike.pure {a b : α} (h : view a = view b) :
    Alike view (Pure.pure a : Parser α) (Pure.pure b) :=
  fun _ _ hst => .ok h hst

theorem Alike.map {m : α → γ} (hp : Alike view p q)
    (hm : ∀ a b, view a = view b → view' (m a) = view' (m b)) :
    Alike view' (m <$> p) (m <$> q) := by
  rw [← bind_pure_comp, ← bind_pure_comp]
  exact hp.bind fun a b h => .pure (hm a b h)

theorem Alike.ite {c c' : Prop} [Decidable c] [Decidable c'] {p' q' : Parser α} (hc : c ↔ c')
    (h : c → c' → Alike view p q) (h' : ¬ c → ¬ c' → Alike view p' q') :
    Alike view (if c then p else p') (if c' then q else q') := by
  by_cases hif : c
  · rw [if_pos hif, if_pos (hc.mp hif)]
    exact h hif (hc.mp hif)
  · rw [if_neg hif, if_neg (mt hc.mpr hif)]
    exact h' hif (mt hc.mpr hif)

theorem Alike.failAt {pos pos' : Position} {cause cause' : ParseCause} (hpos : pos = pos')
    (h : cause.folded = cause'.folded) :
    Alike view (Parser.failAt pos cause : Parser α) (Parser.failAt pos' cause') := by
  intro s t hst
  refine .refused ?_ hst
  rw [ParseError.folded, h, hpos, ParseError.folded]

theorem alike_stuck : Alike view (stuck : Parser α) stuck :=
  fun _ _ hst => .stuck hst

theorem Alike.get {f g : ParserState → Parser γ}
    (hf : ∀ s t, s.Like t → Alike view' (f s) (g t)) :
    Alike view' (MonadState.get >>= f) (MonadState.get >>= g) :=
  fun s t hst => hf s t hst s t hst

theorem Alike.modify {step step' : ParserState → ParserState}
    (h : ∀ s t, s.Like t → (step s).Like (step' t)) :
    Alike id (modify step : Parser PUnit) (modify step') :=
  fun s t hst => .ok rfl (h s t hst)

theorem Alike.modifyGet {step : ParserState → α × ParserState}
    (h : ∀ s t, s.Like t → view (step s).1 = view (step t).1 ∧ (step s).2.Like (step t).2) :
    Alike view (modifyGet step : Parser α) (modifyGet step) :=
  fun s t hst => .ok (h s t hst).1 (h s t hst).2

/-! ### Tokens -/

private theorem alike_current : Alike Token.folded current current :=
  fun _ _ hst => .ok hst.current hst

theorem Alike.current {f g : Token → Parser γ}
    (hf : ∀ t u, t.folded = u.folded → Alike view' (f t) (g u)) :
    Alike view' (Parser.current >>= f) (Parser.current >>= g) :=
  alike_current.bind hf

theorem Alike.fail {cause cause' : ParseCause} (h : cause.folded = cause'.folded) :
    Alike view (Parser.fail cause : Parser α) (Parser.fail cause') :=
  .current fun _ _ ht => .failAt (Token.pos_eq ht) h

theorem alike_advance : Alike Token.folded advance advance := by
  refine .modifyGet fun s t hst => ?_
  have hrest := hst.rest
  cases hs : s.rest with
  | nil =>
    rw [hs, List.map_nil, eq_comm, List.map_eq_nil_iff] at hrest
    rw [hrest]
    exact ⟨congrArg Token.folded hst.endToken_eq, hst⟩
  | cons head tail =>
    rw [hs, List.map_cons, eq_comm, List.map_eq_cons_iff] at hrest
    obtain ⟨head', tail', ht, hhead, htail⟩ := hrest
    rw [ht]
    exact ⟨hhead.symm, { hst with rest := htail.symm, read := congrArg (· + 1) hst.read }⟩

private theorem isMark_eq {mark : String} (hmark : Caseless mark) {t u : Token}
    (h : t.folded = u.folded) :
    isMark mark t = isMark mark u := by
  rw [Bool.eq_iff_iff, isMark, isMark, Token.isMark, Token.isMark, Token.kind_eq h]
  simp only [Bool.and_eq_true, beq_iff_eq, hmark.eq_iff (Token.upper_eq h)]

theorem alike_check {mark : String} (hmark : Caseless mark) :
    Alike id (check mark) (check mark) :=
  .current fun _ _ h => .pure (isMark_eq hmark h)

theorem alike_checkWord (word : String) : Alike id (checkWord word) (checkWord word) :=
  .current fun _ _ h => .pure (Text.sameWord_congr (Token.upper_eq h) word)

theorem alike_atEnd : Alike id atEnd atEnd :=
  .get fun _ _ hst => .pure hst.isEmpty_eq

theorem alike_consume {mark : String} (hmark : Caseless mark) :
    Alike id (consume mark) (consume mark) := by
  refine (alike_check hmark).andThen fun found => .ite Iff.rfl (fun _ _ => ?_) fun _ _ => .pure rfl
  exact alike_advance.bind fun _ _ _ => .pure rfl

private theorem upper_describe {t u : Token} (h : t.folded = u.folded) :
    upper (describe t) = upper (describe u) := by
  rw [describe, describe, Token.kind_eq h]
  split
  · rfl
  · exact Token.upper_eq h

theorem alike_expect {mark : String} (hmark : Caseless mark) :
    Alike id (expect mark) (expect mark) := by
  refine (alike_consume hmark).andThen fun found => ?_
  refine .ite Iff.rfl (fun _ _ => .pure rfl) fun _ _ => ?_
  exact .current fun t u h => .fail (congrArg (ParseCause.expected mark) (upper_describe h))

theorem alike_expectWord (word : String) : Alike id (expectWord word) (expectWord word) := by
  refine .current fun t u h => .ite ?_ (fun _ _ => ?_) fun _ _ => ?_
  · rw [Token.kind_eq h, Text.sameWord_congr (Token.upper_eq h)]
  · exact alike_advance.bind fun _ _ _ => .pure rfl
  · exact .fail (congrArg (ParseCause.expected word) (upper_describe h))

theorem alike_expectName : Alike upper expectName expectName := by
  refine .current fun t u h => .ite (by rw [Token.isName_eq h]) (fun _ _ => ?_) fun _ _ => ?_
  · exact alike_advance.bind fun _ _ _ => .pure (Token.upper_eq h)
  · exact .fail (congrArg ParseCause.expectedName (upper_describe h))

theorem alike_commaList {item item' : Parser α} (h : Alike view item item') (fuel : Nat) :
    Alike (List.map view) (commaList item fuel) (commaList item' fuel) := by
  induction fuel with
  | zero => exact alike_stuck
  | succ fuel ih =>
    rw [commaList, commaList]
    refine h.bind fun a b hab => (alike_consume (by simp)).andThen fun found => ?_
    refine .ite Iff.rfl (fun _ _ => ?_) fun _ _ => .pure (congrArg (fun b => [b]) hab)
    exact ih.bind fun more more' hmore => .pure (congrArg₂ List.cons hab hmore)

/-! ### Going on behind a refusal -/

private theorem skipItem_folded (ts : List Token) (count : Nat) :
    skipItem (ts.map Token.folded) count =
      ((skipItem ts count).1.map Token.folded, (skipItem ts count).2) := by
  have hmark {mark : String} (hmark : Caseless mark) (t : Token) :
      isMark mark t.folded = isMark mark t := isMark_eq hmark t.folded_folded
  induction ts generalizing count with
  | nil => rfl
  | cons t ts ih =>
    rw [List.map_cons, skipItem, skipItem, ih, hmark (by simp),
      hmark (by simp), hmark (by simp)]
    split
    · rfl
    · split
      · rfl
      · rfl

private theorem like_behind {e e' : ParseError} (h : e.folded = e'.folded) {s t : ParserState}
    (hst : s.Like t) : (behind e s).Like (behind e' t) := by
  have hskip : skipItem (s.rest.map Token.folded) s.read =
      skipItem (t.rest.map Token.folded) t.read := by rw [hst.rest, hst.read]
  rw [skipItem_folded, skipItem_folded, Prod.mk.injEq] at hskip
  have herrors : (s.errors ++ [e]).map ParseError.folded =
      (t.errors ++ [e']).map ParseError.folded := by
    rw [List.map_append, hst.errors, List.map_singleton, h, List.map_append, List.map_singleton]
  exact { hst with
    rest := hskip.1
    read := hskip.2
    errors := herrors }

theorem Alike.recovering (h : Alike view p q) :
    Alike (Option.map view) (Parser.recovering p) (Parser.recovering q) := by
  intro s t hst
  rw [recovering_apply, recovering_apply]
  have hpq := h s t hst
  generalize p s = r at hpq
  generalize q t = r' at hpq
  cases hpq with
  | ok h hs => exact .ok (congrArg some h) hs
  | refused h hs => exact .ok rfl (like_behind h hs)
  | stuck hs => exact .stuck hs

/-! ### Declarations -/

private theorem size?_eq {s t : ParserState} (hst : s.Like t) {tok tok' : Token}
    (h : tok.folded = tok'.folded) : size? s tok = size? t tok' := by
  rw [size?, size?, Token.kind_eq h, Token.number_eq h, ParserState.constant?,
    ParserState.constant?, hst.constants, Token.upper_eq h]

private theorem alike_dimension : Alike id dimension dimension := by
  refine (alike_expect (by simp)).andThen fun _ => ?_
  refine alike_advance.bind fun tok tok' h => .get fun s t hst => ?_
  rw [size?_eq hst h, Token.pos_eq h]
  split
  · exact .failAt rfl (congrArg ParseCause.expectedArraySize (Token.upper_eq h))
  · refine (alike_expect (by simp)).andThen fun _ => ?_
    refine .ite Iff.rfl (fun _ _ => ?_) fun _ _ => .pure rfl
    exact .failAt rfl rfl

private theorem alike_dimensions : Alike id dimensions dimensions := by
  refine (alike_check (by simp)).andThen fun found => ?_
  refine .ite Iff.rfl (fun _ _ => ?_) fun _ _ => .pure rfl
  refine alike_dimension.andThen fun first => (alike_check (by simp)).andThen fun found => ?_
  refine .ite Iff.rfl (fun _ _ => ?_) fun _ _ => .pure rfl
  exact alike_dimension.andThen fun second => .pure rfl

private theorem alike_signalName (type : SignalType) :
    Alike SignalName.folded (signalName type) (signalName type) := by
  refine alike_expectName.bind fun name name' h => alike_dimensions.andThen fun sizes => ?_
  have hname (size capacity : Option Nat) :
      SignalName.folded ⟨name, size, capacity⟩ = SignalName.folded ⟨name', size, capacity⟩ :=
    congrArg (fun name => SignalName.mk name size capacity) h
  refine .ite Iff.rfl (fun _ _ => ?_) fun _ _ => .pure (hname _ _)
  split
  · exact .pure (hname _ _)
  · exact .pure (hname _ _)

private theorem signalType_eq {t u : Token} (h : t.folded = u.folded) :
    SignalType.ofWord? t.text = SignalType.ofWord? u.text := by
  rw [SignalType.ofWord?, Token.upper_eq h, SignalType.ofWord?]

theorem variableType_eq {t u : Token} (h : t.folded = u.folded) :
    VariableType.ofWord? t.text = VariableType.ofWord? u.text := by
  rw [VariableType.ofWord?, Token.upper_eq h, VariableType.ofWord?]

theorem alike_signalDecl (fuel : Nat) :
    Alike SignalDecl.folded (signalDecl fuel) (signalDecl fuel) := by
  refine alike_advance.bind fun t u h => ?_
  rw [signalType_eq h, Token.pos_eq h]
  split
  · exact .failAt rfl rfl
  next type _ =>
    refine (alike_commaList (alike_signalName type) fuel).bind fun names names' hnames => ?_
    exact (alike_expect (by simp)).andThen fun _ =>
      .pure (congrArg (fun names => SignalDecl.mk type names u.pos) hnames)

theorem isStructure_eq {s t : ParserState} (hst : s.Like t) {name name' : String}
    (h : upper name = upper name') : s.isStructure name = t.isStructure name' := by
  rw [ParserState.isStructure, hst.structures, h, ParserState.isStructure]

theorem alike_startsInstance : Alike id startsInstance startsInstance := by
  refine .get fun s t hst => .pure ?_
  rw [Token.kind_eq hst.current, isStructure_eq hst (Token.upper_eq hst.current),
    Token.kind_eq hst.following]

theorem isStorageWord_eq {t u : Token} (h : t.folded = u.folded) :
    isStorageWord t = isStorageWord u := by
  have hword := Text.sameWord_congr (Token.upper_eq h)
  rw [isStorageWord, hword, hword, isStorageWord]

theorem alike_startsVariableDecl : Alike id startsVariableDecl startsVariableDecl := by
  refine .current fun t u h => .ite ?_ (fun _ _ => .pure rfl) fun _ _ => alike_startsInstance
  rw [Token.kind_eq h, isStorageWord_eq h]

private theorem alike_skipStorageWords : Alike id skipStorageWords skipStorageWords := by
  refine .modify fun s t hst => ?_
  have hword : ∀ t, isStorageWord t.folded = isStorageWord t :=
    fun t => isStorageWord_eq t.folded_folded
  have hpassed := congrArg List.length (Token.takeWhile_eq hword hst.rest)
  rw [List.length_map, List.length_map] at hpassed
  exact { hst with
    rest := Token.dropWhile_eq hword hst.rest
    read := congrArg₂ (· + ·) hst.read hpassed }

private theorem alike_variableName {type type' : VariableType} (h : type.folded = type'.folded) :
    Alike VariableDecl.folded (variableName type) (variableName type') := by
  refine .current fun t u ht => alike_expectName.bind fun name name' hname => ?_
  refine alike_dimensions.andThen fun sizes => .pure ?_
  rw [VariableDecl.folded, VariableDecl.folded, h, hname, Token.pos_eq ht]

private theorem alike_declaredBehind (fuel : Nat) {t u : Token} (h : t.folded = u.folded) :
    Alike (List.map VariableDecl.folded) (declaredBehind fuel t) (declaredBehind fuel u) := by
  have hdecls {type type' : VariableType} (htype : type.folded = type'.folded) :
      Alike (List.map VariableDecl.folded)
        (do let decls ← commaList (variableName type) fuel; expect ";"; return decls)
        (do let decls ← commaList (variableName type') fuel; expect ";"; return decls) := by
    refine (alike_commaList (alike_variableName htype) fuel).bind fun decls decls' hdecls => ?_
    exact (alike_expect (by simp)).andThen fun _ => .pure hdecls
  rw [declaredBehind, declaredBehind, Token.kind_eq h, variableType_eq h, Token.pos_eq h]
  split
  · split
    next type _ => exact (Alike.pure (rfl : type.folded = type.folded)).bind fun _ _ => hdecls
    next => exact Alike.bind (.failAt rfl rfl) fun _ _ => hdecls
  · refine Alike.bind (.pure ?_) fun _ _ => hdecls
    exact congrArg VariableType.instanceOf (Token.upper_eq h)
  · refine Alike.bind (.failAt rfl ?_) fun _ _ => hdecls
    exact congrArg ParseCause.expectedType (Token.upper_eq h)

theorem alike_variableDecls (fuel : Nat) :
    Alike (List.map VariableDecl.folded) (variableDecls fuel) (variableDecls fuel) := by
  rw [variableDecls_eq]
  exact (alike_skipStorageWords.andThen fun _ => alike_advance).bind fun _ _ =>
    alike_declaredBehind fuel

theorem map_getD_eq {f : α → β} {as as' : Option (List α)}
    (h : as.map (List.map f) = as'.map (List.map f)) :
    (as.getD []).map f = (as'.getD []).map f := by
  cases as with
  | none =>
    rw [Option.map_none, eq_comm, Option.map_eq_none_iff] at h
    rw [h]
  | some list =>
    obtain ⟨list', rfl, hlist⟩ := Option.map_eq_some_iff.mp h.symm
    exact hlist.symm

/-! ### Expressions -/

private theorem binaryOp?_eq (level : Level) {t u : Token} (h : t.folded = u.folded) :
    binaryOp? level t = binaryOp? level u := by
  have hword : Text.sameWord t.text = Text.sameWord u.text :=
    funext (Text.sameWord_congr (Token.upper_eq h))
  rw [binaryOp?, Token.kind_eq h, hword, binaryOp?]

private theorem unaryOp?_eq {t u : Token} (h : t.folded = u.folded) : unaryOp? t = unaryOp? u := by
  have hmark {m : String} (hm : Caseless m) : t.text = m ↔ u.text = m :=
    hm.eq_iff (Token.upper_eq h)
  rw [unaryOp?, unaryOp?, Token.kind_eq h, Text.sameWord_congr (Token.upper_eq h)]
  simp only [hmark (m := "-") (by simp), hmark (m := "!") (by simp),
    hmark (m := "~") (by simp)]

private theorem folded_applyUnary (op : UnaryOp) (e : Expr) :
    (applyUnary op e).folded = applyUnary op e.folded := by
  cases e with
  | number n => cases op <;> rfl
  | field object part index => cases index <;> cases op <;> rfl
  | _ => cases op <;> rfl

private theorem isPlace_folded (e : Expr) : e.folded.isPlace = e.isPlace := by
  cases e with
  | field object part index => cases index <;> rfl
  | _ => rfl

private theorem alike_chain {operand operand' : Parser Expr} (level : Level)
    (h : Alike Expr.folded operand operand') (fuel : Nat) {left left' : Expr}
    (hleft : left.folded = left'.folded) :
    Alike Expr.folded (chain level operand fuel left) (chain level operand' fuel left') := by
  induction fuel generalizing left left' with
  | zero => exact alike_stuck
  | succ fuel ih =>
    rw [chain, chain]
    refine .current fun t u ht => ?_
    rw [binaryOp?_eq level ht]
    split
    next op _ =>
      refine alike_advance.bind fun _ _ _ => h.bind fun right right' hright => ih ?_
      exact congrArg₂ (Expr.binary op) hleft hright
    next => exact .pure hleft

private theorem alike_binary {operand operand' : Parser Expr}
    (h : Alike Expr.folded operand operand')
    (fuel : Nat) (table : List Level) :
    Alike Expr.folded (binary fuel operand table) (binary fuel operand' table) := by
  induction table with
  | nil => exact h
  | cons level tighter ih => exact ih.bind fun left left' hleft => alike_chain level ih fuel hleft

section

variable {expr expr' : Parser Expr} (h : Alike Expr.folded expr expr')
include h

private theorem alike_arguments (fuel : Nat) :
    Alike (List.map Expr.folded) (arguments fuel expr) (arguments fuel expr') :=
  (alike_check (by simp)).andThen fun _ =>
    .ite Iff.rfl (fun _ _ => .pure rfl) fun _ _ => alike_commaList h fuel

private theorem alike_indices : Alike Expr.folded (indices expr) (indices expr') := by
  refine (alike_expect (by simp)).andThen fun _ => h.bind fun first first' hfirst => ?_
  refine (alike_expect (by simp)).andThen fun _ => (alike_consume (by simp)).andThen fun found => ?_
  refine .ite Iff.rfl (fun _ _ => ?_) fun _ _ => .pure hfirst
  refine h.bind fun second second' hsecond => (alike_expect (by simp)).andThen fun _ => .pure ?_
  exact congrArg₂ (Expr.binary .pair) hfirst hsecond

private theorem alike_named (fuel : Nat) {name name' : String} (hname : upper name = upper name') :
    Alike Expr.folded (named fuel expr name) (named fuel expr' name') := by
  refine alike_advance.bind fun _ _ _ => (alike_consume (by simp)).andThen fun called => ?_
  refine .ite Iff.rfl (fun _ _ => ?_) fun _ _ => (alike_check (by simp)).andThen fun indexed => ?_
  · refine (alike_arguments h fuel).bind fun args args' hargs => ?_
    refine (alike_expect (by simp)).andThen fun _ => .pure ?_
    rw [Expr.folded_call, Expr.folded_call, hname, hargs]
  refine .ite Iff.rfl (fun _ _ => ?_) fun _ _ => (alike_consume (by simp)).andThen fun dotted => ?_
  · exact (alike_indices h).bind fun index index' hindex =>
      .pure (congrArg₂ Expr.element hname hindex)
  refine .ite Iff.rfl (fun _ _ => ?_) fun _ _ => .pure (congrArg Expr.name hname)
  refine alike_expectName.bind fun part part' hpart => ?_
  refine (alike_consume (by simp)).andThen fun indexed => ?_
  refine .ite Iff.rfl (fun _ _ => ?_) fun _ _ => .pure ?_
  · refine h.bind fun index index' hindex => (alike_expect (by simp)).andThen fun _ => .pure ?_
    rw [Expr.folded_field, Expr.folded_field, hname, hpart, Option.map_some, hindex,
      Option.map_some]
  · exact congrArg₂ (fun object part => Expr.field object part none) hname hpart

private theorem alike_atom (fuel : Nat) : Alike Expr.folded (atom fuel expr) (atom fuel expr') := by
  refine .current fun t u ht => ?_
  have hopen : t.text = "(" ↔ u.text = "(" :=
    Caseless.eq_iff (by simp) (Token.upper_eq ht)
  rw [Token.kind_eq ht, Token.number_eq ht, Token.pos_eq ht]
  split
  · refine alike_advance.bind fun _ _ _ => ?_
    split
    · exact .pure rfl
    · exact .failAt rfl rfl
  next hkind =>
    refine alike_advance.bind fun _ _ _ => .pure ?_
    rw [Token.literal_eq ht ((Token.kind_eq ht).trans hkind)]
  · exact alike_named h fuel (Token.upper_eq ht)
  · exact alike_named h fuel (Token.upper_eq ht)
  · refine .ite (by rw [hopen]) (fun _ _ => ?_) fun _ _ => ?_
    · refine alike_advance.bind fun _ _ _ => h.bind fun inner inner' hinner => ?_
      exact (alike_expect (by simp)).andThen fun _ => .pure hinner
    · exact .fail (congrArg ParseCause.expectedExpression (upper_describe ht))

end

private theorem alike_unary (fuel : Nat) : Alike Expr.folded (unary fuel) (unary fuel) := by
  induction fuel with
  | zero => exact alike_stuck
  | succ fuel ih =>
    rw [unary]
    refine .current fun t u ht => ?_
    rw [unaryOp?_eq ht]
    split
    next op _ =>
      refine alike_advance.bind fun _ _ _ => ih.bind fun operand operand' h => .pure ?_
      rw [folded_applyUnary, h, folded_applyUnary]
    next => exact alike_atom (alike_binary ih fuel levels) fuel

theorem alike_expression (fuel : Nat) : Alike Expr.folded (expression fuel) (expression fuel) :=
  alike_binary (alike_unary fuel) fuel levels

theorem alike_place (fuel : Nat) : Alike Expr.folded (place fuel) (place fuel) := by
  refine .current fun t u ht => .ite (by rw [Token.isName_eq ht]) (fun _ _ => ?_) fun _ _ => ?_
  · refine (alike_named (alike_expression fuel) fuel (Token.upper_eq ht)).bind fun e e' he => ?_
    have hplace : e.isPlace = e'.isPlace := by rw [← isPlace_folded, he, isPlace_folded]
    exact .ite (by rw [hplace]) (fun _ _ => .pure he) fun _ _ => .failAt (Token.pos_eq ht) rfl
  · exact .fail (congrArg ParseCause.expectedVariable (Token.upper_eq ht))

end Parser

end ControlLogic
