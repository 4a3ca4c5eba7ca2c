import ControlLogic.Proofs.Program.StmtLookahead
import ControlLogic.Proofs.Token.Case

/-!
Where the reading of an item ends that is refused. Expressions hold no semicolons, and a reader that
wants something else than the semicolon it meets leaves it; so a refused item is skipped up to its
own semicolon. The one exception is a declaration that breaks off behind an opening bracket: the
size of an array is taken before it is looked at.
-/

set_option autoImplicit false
set_option relaxedAutoImplicit false

namespace ControlLogic

namespace Parser

variable {α β γ : Type} {s s₁ s₂ : ParserState} {p : Parser α} {f : α → Parser β}

/-! ### Readers that take no semicolon -/

def NoSemicolon (u : List Token) : Prop :=
  ∀ t ∈ u, isMark ";" t = false

theorem NoSemicolon.append {u v : List Token} (hu : NoSemicolon u) (hv : NoSemicolon v) :
    NoSemicolon (u ++ v) :=
  List.forall_mem_append.mpr ⟨hu, hv⟩

/-- The second state comes from the first by taking tokens without a semicolon, and in no other way
is it different. -/
def Spared (s s' : ParserState) : Prop :=
  ∃ u, NoSemicolon u ∧ s.rest = u ++ s'.rest ∧
    s' = s.moved s'.rest (s.read + u.length) s.errors

theorem Spared.refl (s : ParserState) : Spared s s :=
  ⟨[], List.forall_mem_nil _, rfl, rfl⟩

theorem Spared.trans (h : Spared s s₁) (h' : Spared s₁ s₂) : Spared s s₂ := by
  obtain ⟨u, hu, hrest, hs₁⟩ := h
  obtain ⟨v, hv, hrest', hs₂⟩ := h'
  refine ⟨u ++ v, hu.append hv, by rw [hrest, hrest', List.append_assoc], ?_⟩
  rw [hs₂, hs₁, List.length_append]
  simp only [ParserState.moved, Nat.add_assoc]

theorem Spared.cons {t : Token} {rest : List Token} (hrest : s.rest = t :: rest)
    (ht : isMark ";" t = false) : Spared s { s with rest := rest, read := s.read + 1 } :=
  ⟨[t], List.forall_mem_singleton.mpr ht, hrest, rfl⟩

/-- At a state the reader takes no semicolon, whether it gives something or halts. -/
inductive SparesAt (p : Parser α) (s : ParserState) : Prop
  | ok {a : α} {s' : ParserState} (hrun : p s = .ok a s') (h : Spared s s')
  | halts {halt : Halt} {s' : ParserState} (hrun : p s = .error halt s') (h : Spared s s')

def Spares (p : Parser α) : Prop :=
  ∀ s, SparesAt p s

theorem SparesAt.spared {a : α} {s' : ParserState} (h : SparesAt p s) (hrun : p s = .ok a s') :
    Spared s s' := by
  cases h with
  | ok hrun' h =>
    cases hrun.symm.trans hrun'
    exact h
  | halts hrun' => cases hrun.symm.trans hrun'

theorem SparesAt.bind (hp : SparesAt p s) (hf : ∀ a s', p s = .ok a s' → SparesAt (f a) s') :
    SparesAt (p >>= f) s := by
  cases hp with
  | halts hrun h => exact .halts (bind_error hrun) h
  | @ok a s₁ hrun h =>
    cases hf a s₁ hrun with
    | halts hrun' h' => exact .halts ((bind_ok hrun).trans hrun') (h.trans h')
    | ok hrun' h' => exact .ok ((bind_ok hrun).trans hrun') (h.trans h')

theorem Spares.bind (hp : Spares p) (hf : ∀ a, Spares (f a)) : Spares (p >>= f) :=
  fun s => (hp s).bind fun a s' _ => hf a s'

theorem Spares.pure (a : α) : Spares (Pure.pure a) :=
  fun s => .ok rfl (.refl s)

theorem Spares.failAt {pos : Position} {cause : ParseCause} :
    Spares (Parser.failAt pos cause : Parser α) :=
  fun s => .halts rfl (.refl s)

theorem Spares.fail {cause : ParseCause} : Spares (Parser.fail cause : Parser α) :=
  fun s => .halts rfl (.refl s)

private theorem spares_stuck : Spares (stuck : Parser α) :=
  fun s => .halts rfl (.refl s)

theorem Spares.map {m : α → β} (hp : Spares p) : Spares (m <$> p) := by
  rw [← bind_pure_comp]
  exact hp.bind fun a => .pure (m a)

theorem Spares.ite {c : Prop} [Decidable c] {q : Parser α} (hp : Spares p) (hq : Spares q) :
    Spares (if c then p else q) := by
  split
  · exact hp
  · exact hq

theorem SparesAt.look {a : α} (hp : p s = .ok a s) (hf : SparesAt (f a) s) :
    SparesAt (p >>= f) s := by
  refine SparesAt.bind (.ok hp (.refl s)) fun b s' hrun => ?_
  cases hp.symm.trans hrun
  exact hf

theorem Spares.look {view : Token → α} (hp : Looks p view) (hf : ∀ a, Spares (f a)) :
    Spares (p >>= f) :=
  fun s => .look (hp s) (hf _ s)

theorem SparesAt.step {f : Token → Parser β} (h : isMark ";" s.current = false)
    (hf : ∀ t, Spares (f t)) : SparesAt (advance >>= f) s := by
  refine SparesAt.bind ?_ fun t s' _ => hf t s'
  cases hrest : s.rest with
  | nil => exact .ok (advance_nil hrest) (.refl s)
  | cons t rest =>
    rw [ParserState.current, hrest] at h
    exact .ok (advance_cons hrest) (.cons hrest h)

private theorem isMark_of_kind {mark : String} {t : Token} (h : t.kind ≠ .punctuation)
    (h' : t.kind ≠ .operator) : isMark mark t = false := by
  simp [isMark, Token.isMark, h, h']

theorem isMark_of_text {mark : String} {t : Token} (h : t.text ≠ mark) : isMark mark t = false := by
  simp [isMark, h]

theorem text_eq_of_isMark {mark : String} {t : Token} (h : isMark mark t = true) :
    t.text = mark := by
  rw [isMark, Bool.and_eq_true, beq_iff_eq] at h
  exact h.2

private theorem isMark_of_name {mark : String} {t : Token} (h : t.isName = true) :
    isMark mark t = false := by
  have hkind : t.kind = .identifier ∨ t.kind = .routine := by simpa [Token.isName] using h
  rcases hkind with hkind | hkind <;> exact isMark_of_kind (by simp [hkind]) (by simp [hkind])

section

variable {mark : String} (hmark : mark ≠ ";")
include hmark

private theorem spares_consume : Spares (consume mark) := by
  intro s
  refine .look (looks_check mark s) ?_
  split
  next hnext =>
    refine .step (isMark_of_text ?_) fun _ => .pure true
    rw [text_eq_of_isMark hnext]
    exact hmark
  next => exact Spares.pure false s

private theorem spares_expect : Spares (expect mark) :=
  (spares_consume hmark).bind fun _ => .ite (.pure _) (.look looks_current fun _ => .fail)

end

private theorem spares_expectName : Spares expectName := by
  intro s
  refine .look (looks_current s) ?_
  split
  next hname => exact .step (isMark_of_name hname) fun _ => .pure _
  next => exact Spares.fail s

private theorem spares_commaList {item : Parser α} (h : Spares item) (fuel : Nat) :
    Spares (commaList item fuel) := by
  induction fuel with
  | zero => exact spares_stuck
  | succ fuel ih =>
    exact h.bind fun _ => (spares_consume (by decide)).bind fun _ =>
      .ite (ih.bind fun _ => .pure _) (.pure _)

private theorem spares_chain {level : Level} (hlevel : level ∈ levels) {operand : Parser Expr}
    (h : Spares operand) (fuel : Nat) (left : Expr) : Spares (chain level operand fuel left) := by
  induction fuel generalizing left with
  | zero => exact spares_stuck
  | succ fuel ih =>
    intro s
    refine .look (looks_current s) ?_
    split
    next op hop =>
      refine .step (isMark_of_text fun htext => ?_) fun _ => h.bind fun _ => ih _
      cases (binaryOp?_of_text hlevel (.inr htext)).symm.trans hop
    next => exact Spares.pure left s

private theorem spares_binary {operand : Parser Expr} (h : Spares operand) (fuel : Nat)
    {table : List Level} (htable : table ⊆ levels) : Spares (binary fuel operand table) := by
  induction table with
  | nil => exact h
  | cons level tighter ih =>
    obtain ⟨hlevel, htighter⟩ := List.cons_subset.mp htable
    exact (ih htighter).bind fun left => spares_chain hlevel (ih htighter) fuel left

section

variable {expr : Parser Expr} (h : Spares expr)
include h

theorem spares_arguments (fuel : Nat) : Spares (arguments fuel expr) :=
  .look (looks_check _) fun _ => .ite (.pure _) (spares_commaList h fuel)

private theorem spares_indices : Spares (indices expr) := by
  refine (spares_expect (by decide)).bind fun _ => h.bind fun first => ?_
  refine (spares_expect (by decide)).bind fun _ => (spares_consume (by decide)).bind fun more => ?_
  exact .ite (h.bind fun _ => (spares_expect (by decide)).bind fun _ => .pure _) (.pure _)

private theorem sparesAt_named (fuel : Nat) {name : String} (hname : s.current.isName = true) :
    SparesAt (named fuel expr name) s := by
  refine .step (isMark_of_name hname) fun _ => (spares_consume (by decide)).bind fun _ => .ite ?_ ?_
  · exact (spares_arguments h fuel).bind fun _ => (spares_expect (by decide)).bind fun _ => .pure _
  refine .look (looks_check _) fun _ => .ite ((spares_indices h).bind fun _ => .pure _) ?_
  refine (spares_consume (by decide)).bind fun _ => .ite ?_ (.pure _)
  refine spares_expectName.bind fun _ =>
    (spares_consume (by decide)).bind fun _ => .ite ?_ (.pure _)
  exact h.bind fun _ => (spares_expect (by decide)).bind fun _ => .pure _

private theorem spares_atom (fuel : Nat) : Spares (atom fuel expr) := by
  intro s
  refine .look (looks_current s) ?_
  have hother (hpunctuation : s.current.kind ≠ .punctuation)
      (hoperator : s.current.kind ≠ .operator) :
      isMark ";" s.current = false :=
    isMark_of_kind hpunctuation hoperator
  dsimp only [id]
  split
  case h_1 hkind =>
    refine .step (hother (by simp [hkind]) (by simp [hkind])) fun _ => ?_
    split
    · exact .pure _
    · exact .failAt
  case h_2 hkind =>
    exact .step (hother (by simp [hkind]) (by simp [hkind])) fun _ => .pure _
  case h_3 hkind => exact sparesAt_named h fuel (by simp [Token.isName, hkind])
  case h_4 hkind => exact sparesAt_named h fuel (by simp [Token.isName, hkind])
  case h_5 =>
    split
    next hopen =>
      refine .step (isMark_of_text (by simp [hopen.2])) fun _ => h.bind fun _ => ?_
      exact (spares_expect (by decide)).bind fun _ => .pure _
    next => exact Spares.fail s

end

private theorem spares_unary (fuel : Nat) : Spares (unary fuel) := by
  induction fuel with
  | zero => exact spares_stuck
  | succ fuel ih =>
    intro s
    refine .look (looks_current s) ?_
    split
    next op hop =>
      refine .step (isMark_of_text fun htext => ?_) fun _ => ih.bind fun _ => .pure _
      have hword : Text.sameWord ";" "NOT" = false := by decide +kernel
      simp [unaryOp?, htext, hword] at hop
    next => exact spares_atom (spares_binary ih fuel fun _ h => h) fuel s

theorem spares_expression (fuel : Nat) : Spares (expression fuel) :=
  spares_binary (spares_unary fuel) fuel fun _ h => h

private theorem spares_place (fuel : Nat) : Spares (place fuel) := by
  intro s
  refine .look (looks_current s) ?_
  split
  next hname =>
    refine (sparesAt_named (spares_expression fuel) fuel hname).bind fun _ s' _ => ?_
    exact Spares.ite (.pure _) .failAt s'
  next => exact Spares.fail s

/-! ### Items with a semicolon at their end -/

/-- At a state the reader takes tokens up to the next semicolon and the semicolon, or it halts and
takes no semicolon. -/
inductive EndsAt (p : Parser α) (s : ParserState) : Prop
  | ok {a : α} {s' : ParserState} {u : List Token} {semicolon : Token} (hrun : p s = .ok a s')
      (hu : NoSemicolon u) (hsemicolon : isMark ";" semicolon = true)
      (hrest : s.rest = u ++ semicolon :: s'.rest) (herrors : s'.errors = s.errors)
  | halts {halt : Halt} {s' : ParserState} (hrun : p s = .error halt s') (h : Spared s s')

theorem SparesAt.thenEnds (hp : SparesAt p s) (hf : ∀ a s', p s = .ok a s' → EndsAt (f a) s') :
    EndsAt (p >>= f) s := by
  cases hp with
  | halts hrun h => exact .halts (bind_error hrun) h
  | @ok a s₁ hrun h =>
    cases hf a s₁ hrun with
    | halts hrun' h' => exact .halts ((bind_ok hrun).trans hrun') (h.trans h')
    | ok hrun' hv hsemicolon hrest herrors =>
      obtain ⟨u, hu, hrest₁, hs₁⟩ := h
      refine .ok ((bind_ok hrun).trans hrun') (hu.append hv) hsemicolon ?_ ?_
      · rw [hrest₁, hrest, List.append_assoc]
      · rw [herrors, hs₁]
        rfl

theorem Spares.thenEnds (hp : Spares p) (hf : ∀ a s, EndsAt (f a) s) : EndsAt (p >>= f) s :=
  (hp s).thenEnds fun a s' _ => hf a s'

theorem expect_cons {mark : String} {t : Token} {rest : List Token} (h : isMark mark t = true)
    (hrest : s.rest = t :: rest) :
    expect mark s = .ok () { s with rest := rest, read := s.read + 1 } := by
  have hcurrent : isMark mark s.current = true := by
    rw [ParserState.current, hrest]
    exact h
  rw [expect, Parser.consume, bind_assoc, bind_ok (looks_check mark s), if_pos hcurrent, bind_assoc,
    bind_ok (advance_cons hrest)]
  rfl

private theorem endsAt_semicolon (a : α) (s : ParserState) :
    EndsAt (do expect ";"; return a) s := by
  by_cases hmark : isMark ";" s.current = true
  · obtain ⟨t, rest, hrest⟩ := List.exists_cons_of_ne_nil (isMark_ne_nil hmark)
    rw [ParserState.current, hrest] at hmark
    have hrun : (do expect ";"; return a : Parser α) s =
        .ok a { s with rest := rest, read := s.read + 1 } :=
      bind_ok (expect_cons hmark hrest)
    exact .ok (u := []) hrun (List.forall_mem_nil _) hmark hrest rfl
  · have hrun : (do expect ";"; return a : Parser α) s =
        .error (.error ⟨.expected ";" (describe s.current), s.current.pos⟩) s := by
      rw [expect, Parser.consume, bind_assoc, bind_assoc, bind_ok (looks_check ";" s), if_neg hmark]
      rfl
    exact .halts hrun (.refl s)

private theorem endsAt_callStmt (fuel : Nat) (pos : Position) (s : ParserState) :
    EndsAt (callStmt fuel pos) s :=
  (spares_expression fuel).thenEnds fun _ => endsAt_semicolon _

private theorem endsAt_assignStmt (fuel : Nat) (pos : Position) (s : ParserState) :
    EndsAt (assignStmt fuel pos) s :=
  (spares_place fuel).thenEnds fun _ _ => (spares_expect (by decide)).thenEnds fun _ _ =>
    (spares_expression fuel).thenEnds fun _ => endsAt_semicolon _

theorem EndsAt.congr {q : Parser α} (h : EndsAt q s) (hsame : p s = q s) : EndsAt p s := by
  cases h with
  | ok hrun hu hsemicolon hrest herrors => exact .ok (hsame.trans hrun) hu hsemicolon hrest herrors
  | halts hrun h => exact .halts (hsame.trans hrun) h

/-- Tokens that a statement or a declaration can begin with which ends at its first semicolon: a
name, the type of a variable, and two words. -/
def Begins (t : Token) : Prop :=
  t.isName = true ∨ t.kind = .variableType ∨
    t.kind = .keyword ∧ Text.upper t.text ∈ ["RETURN", "BREAK"]

theorem Begins.isMark {mark : String} {t : Token} (h : Begins t) : isMark mark t = false := by
  rcases h with hname | hkind | ⟨hkind, -⟩
  · exact isMark_of_name hname
  · exact isMark_of_kind (by simp [hkind]) (by simp [hkind])
  · exact isMark_of_kind (by simp [hkind]) (by simp [hkind])

private theorem endsAt_keywordStmt {keyword : String} (h : keyword ∈ ["RETURN", "BREAK"])
    (stmt : Parser Stmt) (fuel : Nat) (pos : Position) :
    ∃ rest, keywordStmt stmt fuel pos keyword = some rest ∧ ∀ s, EndsAt rest s := by
  simp only [List.mem_cons, List.not_mem_nil, or_false] at h
  rcases h with rfl | rfl
  · refine ⟨_, rfl, fun s => ?_⟩
    have hlook : Spares (check ";") := fun s => .ok (looks_check ";" s) (.refl s)
    refine hlook.thenEnds fun bare s => ?_
    dsimp only
    split
    · exact (Spares.pure none).thenEnds fun _ => endsAt_semicolon _
    · exact (spares_expression fuel).map.thenEnds fun _ => endsAt_semicolon _
  · exact ⟨_, rfl, endsAt_semicolon _⟩

theorem endsAt_statement {fuel : Nat} (hs : s.Cut) (hrest : s.rest ≠ []) (h : Begins s.current)
    (htype : s.current.kind ≠ .variableType) : EndsAt (statement fuel) s := by
  cases fuel with
  | zero => exact .halts rfl (.refl s)
  | succ fuel =>
    rcases h with hname | hkind | ⟨hkind, hword⟩
    · have hkeyword : s.current.kind ≠ .keyword := by
        intro hkind
        simp [Token.isName, hkind] at hname
      have htext := text_notMem_marks (hs _ (current_mem hrest)) hname
      simp only [List.mem_cons, List.not_mem_nil, or_false, not_or] at htext
      have hrun : statement (fuel + 1) s = simpleStmt (fuel + 1) s.current.pos s := by
        rw [statement, bind_ok (show current s = .ok s.current s from rfl), if_neg hkeyword,
          if_neg htext.2, if_neg htext.1, if_pos hname]
      refine EndsAt.congr ?_ (hrun.trans (simpleStmt_apply _ _ s))
      split
      · exact endsAt_callStmt _ _ s
      · exact endsAt_assignStmt _ _ s
    · exact absurd hkind htype
    · obtain ⟨rest, hfound, hends⟩ :=
        endsAt_keywordStmt hword (statement fuel) fuel s.current.pos
      have hrun : statement (fuel + 1) s = (advance >>= fun _ => rest) s := by
        rw [statement, bind_ok (show current s = .ok s.current s from rfl), if_pos hkind, hfound]
      refine EndsAt.congr (SparesAt.thenEnds ?_ fun _ s' _ => hends s') hrun
      obtain ⟨t, rest, hcons⟩ := List.exists_cons_of_ne_nil hrest
      have hmark : isMark ";" s.current = false :=
        isMark_of_kind (by simp [hkind]) (by simp [hkind])
      rw [ParserState.current, hcons] at hmark
      exact .ok (advance_cons hcons) (.cons hcons hmark)

/-! ### Declarations that break off -/

def AtSemicolon : Option Token → Prop :=
  fun next => ∃ t ∈ next, isMark ";" t = true

private theorem AtSemicolon.noMark {mark : String} {next : Option Token} (h : AtSemicolon next)
    (hmark : mark ≠ ";") : NoMark mark next := by
  obtain ⟨t, ht, hsemicolon⟩ := h
  intro t' ht'
  cases ht.symm.trans ht'
  exact isMark_of_text (by rw [text_eq_of_isMark hsemicolon]; exact hmark.symm)

/-- The tokens to be read hold an opening bracket with a semicolon behind it, and reading has taken
both. Where a semicolon stands in the place of the bracket, the reader takes what stands before it
and gives something that satisfies `Q`. -/
def BrokenOff (Q : α → Prop) (p : Parser α) (s s' : ParserState) : Prop :=
  ∃ u bracket semicolon, NoSemicolon u ∧ isMark "[" bracket = true ∧ isMark ";" semicolon = true ∧
    s.rest = u ++ bracket :: semicolon :: s'.rest ∧
    ∀ more read errors, AtSemicolon more.head? → ∃ a, Q a ∧
      p (s.moved (u ++ more) read errors) = .ok a (s.moved more (read + u.length) errors)

/-- At a state the reader takes no semicolon, or it halts and has taken one behind an opening
bracket. -/
inductive BreaksAt (Q : α → Prop) (p : Parser α) (s : ParserState) : Prop
  | ok {a : α} {s' : ParserState} (hrun : p s = .ok a s') (h : Spared s s')
  | halts {halt : Halt} {s' : ParserState} (hrun : p s = .error halt s') (h : Spared s s')
  | broken {halt : Halt} {s' : ParserState} (hrun : p s = .error halt s')
      (h : BrokenOff Q p s s')

theorem SparesAt.breaks {Q : α → Prop} (h : SparesAt p s) : BreaksAt Q p s := by
  cases h with
  | ok hrun h => exact .ok hrun h
  | halts hrun h => exact .halts hrun h

theorem BreaksAt.bind {k : Nat} {Q : α → Prop} {R : β → Prop} (hp : BreaksAt Q p s)
    (hwithin : WithinAt k AtSemicolon p s)
    (hf : ∀ a s', p s = .ok a s' → BreaksAt R (f a) s')
    (hend : ∀ a s', Q a → AtSemicolon s'.rest.head? → ∃ b, R b ∧ f a s' = .ok b s') :
    BreaksAt R (p >>= f) s := by
  cases hp with
  | halts hrun h => exact .halts (bind_error hrun) h
  | broken hrun h =>
    obtain ⟨u, bracket, semicolon, hu, hbracket, hsemicolon, hrest, hmoved⟩ := h
    refine .broken (bind_error hrun) ⟨u, bracket, semicolon, hu, hbracket, hsemicolon, hrest, ?_⟩
    intro more read errors hmore
    obtain ⟨a, ha, hrun'⟩ := hmoved more read errors hmore
    obtain ⟨b, hb, hbehind⟩ := hend a (s.moved more (read + u.length) errors) ha hmore
    exact ⟨b, hb, (bind_ok hrun').trans hbehind⟩
  | @ok a s₁ hrun h =>
    cases hf a s₁ hrun with
    | ok hrun' h' => exact .ok ((bind_ok hrun).trans hrun') (h.trans h')
    | halts hrun' h' => exact .halts ((bind_ok hrun).trans hrun') (h.trans h')
    | broken hrun' h' =>
      obtain ⟨v, bracket, semicolon, hv, hbracket, hsemicolon, hrest, hmoved⟩ := h'
      obtain ⟨u, hu, hrest₁, hs₁⟩ := h
      obtain ⟨u', htakes, hclean⟩ := hwithin.takes hrun
      obtain rfl : u' = u := List.append_cancel_right (htakes.rest.symm.trans hrest₁)
      have hrepeats := (hclean (by rw [hs₁]; rfl)).2
      refine .broken ((bind_ok hrun).trans hrun') ⟨u' ++ v, bracket, semicolon, hu.append hv,
        hbracket, hsemicolon, by rw [hrest₁, hrest, List.append_assoc], ?_⟩
      intro more read errors hmore
      obtain ⟨b, hb, hbehind⟩ := hmoved more (read + u'.length) errors hmore
      refine ⟨b, hb, ?_⟩
      have hnext : (v ++ more).head? = s₁.rest.head? ∨ AtSemicolon (v ++ more).head? := by
        rw [hrest]
        cases v with
        | nil => exact .inr hmore
        | cons t v => exact .inl rfl
      rw [List.append_assoc, bind_ok (hrepeats (v ++ more) read errors hnext), hbehind, hs₁,
        List.length_append, ← Nat.add_assoc]
      rfl

private theorem Spares.thenBreaks {k : Nat} {Q : β → Prop} (hp : Spares p)
    (hwithin : WithinAt k AtSemicolon p s)
    (hf : ∀ a s', p s = .ok a s' → BreaksAt Q (f a) s') : BreaksAt Q (p >>= f) s :=
  ((hp s).breaks (Q := fun _ => False)).bind hwithin hf fun _ _ => False.elim

/-- The next tokens are an opening bracket and a semicolon, and the reader halts behind both. -/
def BreaksHere (p : Parser α) (s : ParserState) : Prop :=
  ∃ halt s' bracket semicolon, p s = .error halt s' ∧ s.rest = bracket :: semicolon :: s'.rest ∧
    isMark "[" bracket = true ∧ isMark ";" semicolon = true

theorem BreaksHere.bind (h : BreaksHere p s) : BreaksHere (p >>= f) s := by
  obtain ⟨halt, s', bracket, semicolon, hrun, hrest, hbracket, hsemicolon⟩ := h
  exact ⟨halt, s', bracket, semicolon, bind_error hrun, hrest, hbracket, hsemicolon⟩

theorem BreaksAt.optional {Q : β → Prop} {f : Bool → Parser β}
    (ht : isMark "[" s.current = true → BreaksAt Q (f true) s ∨ BreaksHere (f true) s)
    (hf : ∀ s', ∃ b, Q b ∧ f false s' = .ok b s') :
    BreaksAt Q (Parser.check "[" >>= f) s := by
  have hclosed (s : ParserState) (h : isMark "[" s.current = false) :
      ∃ b, Q b ∧ (Parser.check "[" >>= f) s = .ok b s := by
    obtain ⟨b, hb, hrun⟩ := hf s
    exact ⟨b, hb, by rw [bind_ok (looks_check "[" s), h, hrun]⟩
  have hsemicolon {more : List Token} (read : Nat) (errors : List ParseError)
      (h : AtSemicolon more.head?) : isMark "[" (s.moved more read errors).current = false :=
    NoMark.current (h.noMark (by decide))
  cases hopen : isMark "[" s.current with
  | false =>
    obtain ⟨b, -, hrun⟩ := hclosed s hopen
    exact .ok hrun (.refl s)
  | true =>
    have hrun₀ : (Parser.check "[" >>= f) s = f true s := by
      rw [bind_ok (looks_check "[" s), hopen]
    rcases ht hopen with hbreaks | ⟨halt, s', bracket, semicolon, hrun, hrest, hmarks⟩
    · cases hbreaks with
      | ok hrun h => exact .ok (hrun₀.trans hrun) h
      | halts hrun h => exact .halts (hrun₀.trans hrun) h
      | broken hrun h =>
        obtain ⟨u, bracket, semicolon, hu, hbracket, hmark, hrest, hmoved⟩ := h
        refine .broken (hrun₀.trans hrun) ⟨u, bracket, semicolon, hu, hbracket, hmark, hrest, ?_⟩
        intro more read errors hmore
        cases u with
        | nil => exact hclosed _ (hsemicolon read errors hmore)
        | cons t u =>
          obtain ⟨b, hb, hrun'⟩ := hmoved more read errors hmore
          have hcurrent : (s.moved (t :: u ++ more) read errors).current = s.current :=
            current_moved read errors (by rw [hrest]; rfl)
          refine ⟨b, hb, ?_⟩
          rw [bind_ok (looks_check "[" _), hcurrent, hopen]
          exact hrun'
    · refine .broken (hrun₀.trans hrun) ⟨[], bracket, semicolon, List.forall_mem_nil _, hmarks.1,
        hmarks.2, hrest, fun more read errors hmore => ?_⟩
      exact hclosed _ (hsemicolon read errors hmore)

private theorem dimension_cases (h : isMark "[" s.current = true) :
    SparesAt dimension s ∨ BreaksHere dimension s := by
  obtain ⟨bracket, rest, hrest⟩ := List.exists_cons_of_ne_nil (isMark_ne_nil h)
  have hbracket : isMark "[" bracket = true := by
    rwa [ParserState.current, hrest] at h
  have hexpect := expect_cons hbracket hrest
  have hbehind (n : Int) (t : Token) : Spares (do
      expect "]"
      if n < 0 then failAt t.pos (.negativeArraySize n) else return n.toNat) :=
    (spares_expect (by decide)).bind fun _ => .ite .failAt (.pure _)
  by_cases hsemicolon : isMark ";" (ParserState.current { s with rest := rest }) = true
  · right
    obtain ⟨semicolon, rest', rfl⟩ := List.exists_cons_of_ne_nil (isMark_ne_nil hsemicolon)
    change isMark ";" semicolon = true at hsemicolon
    have hsize : size? { s with rest := rest', read := s.read + 1 + 1 } semicolon = none := by
      have hkind : semicolon.kind = .punctuation ∨ semicolon.kind = .operator := by
        have hmark := (Bool.and_eq_true_iff.mp hsemicolon).1
        simpa [Token.isMark] using hmark
      rcases hkind with hkind | hkind <;> simp [size?, hkind]
    refine ⟨.error ⟨.expectedArraySize semicolon.text, semicolon.pos⟩,
      { s with rest := rest', read := s.read + 1 + 1 }, bracket, semicolon, ?_, hrest, hbracket,
      hsemicolon⟩
    rw [dimension, bind_ok hexpect, bind_ok (advance_cons rfl),
      bind_ok (show (get : Parser ParserState) _ = .ok _ _ from rfl), hsize]
    rfl
  · left
    refine (spares_expect (by decide) s).bind fun _ s₁ hrun => ?_
    cases hexpect.symm.trans hrun
    refine .step (Bool.not_eq_true _ ▸ hsemicolon) fun t s₂ => ?_
    refine SparesAt.look (a := s₂) rfl ?_
    split
    · exact Spares.failAt s₂
    · exact hbehind _ t s₂

private theorem breaksAt_dimensions (hs : s.Cut) :
    BreaksAt (fun sizes => sizes.2 = none) dimensions s := by
  refine .optional (fun hopen => ?_) fun s' => ⟨_, rfl, rfl⟩
  refine (dimension_cases hopen).imp (fun hspares => ?_) fun hhere => hhere.bind
  refine (hspares.breaks (Q := fun _ => False)).bind (within_dimension s hs)
    (fun first s₁ _ => ?_) fun _ _ => False.elim
  refine .optional (fun hopen => ?_) fun s' => ⟨_, rfl, rfl⟩
  refine (dimension_cases hopen).imp (fun hspares => ?_) fun hhere => hhere.bind
  exact (hspares.bind fun second s₂ _ => Spares.pure _ s₂).breaks

def namedToken : Parser (Token × String) := do
  let t ← current
  let name ← expectName
  return (t, name)

private theorem variableName_eq (type : VariableType) :
    variableName type = (namedToken >>= fun found => dimensions >>= fun sizes =>
      pure ⟨type, found.2, sizes.1, sizes.2, found.1.pos⟩) := by
  rw [variableName, namedToken]
  simp only [bind_assoc, pure_bind]

private theorem breaksAt_variableName (type : VariableType) (hs : s.Cut) :
    BreaksAt (fun d => d.second = none) (variableName type) s := by
  have hspares : Spares namedToken :=
    .look looks_current fun t => spares_expectName.bind fun name => .pure _
  have hwithin : Within 1 AtSemicolon namedToken :=
    .current (fun t => within_expectName.bind fun name => .pure _) (.inl Nat.one_pos)
  rw [variableName_eq]
  refine hspares.thenBreaks (hwithin s hs) fun found s₁ hrun => ?_
  obtain ⟨u, htakes, -⟩ := (hwithin s hs).takes hrun
  have hs₁ : s₁.Cut := hs.of_takes htakes
  have hdimensions : WithinAt 0 AtSemicolon dimensions s₁ :=
    (within_dimensions s₁ hs₁).mono (Nat.le_refl 0) fun _ h => h.noMark (by decide)
  refine (breaksAt_dimensions hs₁).bind hdimensions (fun sizes s₂ _ => (Spares.pure _ s₂).breaks) ?_
  exact fun sizes s₂ hsizes _ => ⟨_, hsizes, rfl⟩

private theorem breaksAt_commaList {item : Parser α} {Q : α → Prop}
    (h : ∀ s : ParserState, s.Cut → BreaksAt Q item s) (hwithin : Within 1 AtSemicolon item)
    (fuel : Nat) (hs : s.Cut) :
    BreaksAt (fun found => ∃ a ∈ found.getLast?, Q a) (commaList item fuel) s := by
  induction fuel generalizing s with
  | zero => exact .halts rfl (.refl s)
  | succ fuel ih =>
    refine (h s hs).bind (hwithin s hs) (fun first s₁ hrun => ?_) fun a s₁ ha hsemicolon => ?_
    · obtain ⟨u, htakes, -⟩ := (hwithin s hs).takes hrun
      have hs₁ : s₁.Cut := hs.of_takes htakes
      have hcomma : WithinAt 0 AtSemicolon (Parser.consume ",") s₁ :=
        (within_consume s₁ hs₁).mono (Nat.le_refl 0) fun _ h => h.noMark (by decide)
      refine (spares_consume (by decide)).thenBreaks hcomma fun more s₂ hrun₂ => ?_
      obtain ⟨v, htakes₂, -⟩ := hcomma.takes hrun₂
      cases more with
      | false => exact (Spares.pure [first] s₂).breaks
      | true =>
        refine (ih (hs₁.of_takes htakes₂)).bind
          (within_commaList hwithin (fun _ h => h.noMark (by decide)) fuel s₂
            (hs₁.of_takes htakes₂))
          (fun rest s₃ _ => (Spares.pure (first :: rest) s₃).breaks) ?_
        rintro rest s₃ ⟨a, ha, hpost⟩ -
        refine ⟨first :: rest, ⟨a, ?_, hpost⟩, rfl⟩
        rw [List.getLast?_cons, Option.mem_def.mp ha]
        rfl
    · have hnext : isMark "," s₁.current = false := NoMark.current (hsemicolon.noMark (by decide))
      refine ⟨[a], ⟨a, rfl, ha⟩, ?_⟩
      rw [Parser.consume, bind_assoc, bind_ok (looks_check "," s₁), hnext]
      rfl

/-- Some of the variables are declared, the last of them with less than two sizes. -/
def OpenEnded (decls : List VariableDecl) : Prop :=
  ∃ d ∈ decls.getLast?, d.second = none

/-- The tokens to be read hold an opening bracket with a semicolon behind it, and reading a
declaration has taken both. Without the bracket the tokens up to the semicolon are a declaration. -/
def BreaksOffBehind (p : Parser (List VariableDecl)) (s s' : ParserState) : Prop :=
  ∃ u bracket semicolon, NoSemicolon u ∧ isMark "[" bracket = true ∧ isMark ";" semicolon = true ∧
    s.rest = u ++ bracket :: semicolon :: s'.rest ∧
    ∀ more read errors, ∃ decls, OpenEnded decls ∧
      p (s.moved (u ++ semicolon :: more) read errors) =
        .ok decls (s.moved more (read + u.length + 1) errors)

theorem declaredBehind_cases (fuel : Nat) (t : Token) (hs : s.Cut) :
    EndsAt (declaredBehind fuel t) s ∨ ∃ halt s', declaredBehind fuel t s = .error halt s' ∧
      BreaksOffBehind (declaredBehind fuel t) s s' := by
  have htype (type : VariableType) (hrun : ∀ s, declaredBehind fuel t s =
      (do let decls ← commaList (variableName type) fuel; expect ";"; return decls) s) :
      EndsAt (declaredBehind fuel t) s ∨ ∃ halt s', declaredBehind fuel t s = .error halt s' ∧
        BreaksOffBehind (declaredBehind fuel t) s s' := by
    have hwithin : Within 1 AtSemicolon (variableName type) :=
      (within_variableName type).mono (Nat.le_refl 1) fun _ h => h.noMark (by decide)
    cases breaksAt_commaList (fun s => breaksAt_variableName type) hwithin fuel hs with
    | ok hlist h =>
      exact .inl (((SparesAt.ok hlist h).thenEnds fun decls s₁ _ =>
        endsAt_semicolon decls s₁).congr (hrun s))
    | halts hlist h =>
      exact .inl (((SparesAt.halts hlist h).thenEnds fun decls s₁ _ =>
        endsAt_semicolon decls s₁).congr (hrun s))
    | @broken halt s' hlist h =>
      obtain ⟨u, bracket, semicolon, hu, hbracket, hsemicolon, hrest, hmoved⟩ := h
      refine .inr ⟨halt, s', (hrun s).trans (bind_error hlist), u, bracket, semicolon, hu, hbracket,
        hsemicolon, hrest, fun more read errors => ?_⟩
      obtain ⟨decls, hdecls, hread⟩ := hmoved (semicolon :: more) read errors
        ⟨semicolon, rfl, hsemicolon⟩
      refine ⟨decls, hdecls, ?_⟩
      rw [hrun, bind_ok hread, bind_ok (expect_cons hsemicolon rfl)]
      rfl
  have hrefused {e : ParseError} (hrun : declaredBehind fuel t s = .error (.error e) s) :
      EndsAt (declaredBehind fuel t) s :=
    .halts hrun (.refl s)
  cases hkind : t.kind with
  | variableType =>
    cases hword : VariableType.ofWord? t.text with
    | some type => exact htype type fun s => by simp only [declaredBehind, hkind, hword, pure_bind]
    | none =>
      refine .inl (hrefused (e := ⟨.unknownVariableType, t.pos⟩) ?_)
      simp only [declaredBehind, hkind, hword]
      rfl
  | identifier =>
    exact htype (.instanceOf t.text) fun s => by simp only [declaredBehind, hkind, pure_bind]
  | _ =>
    refine .inl (hrefused (e := ⟨.expectedType t.text, t.pos⟩) ?_)
    simp only [declaredBehind, hkind]
    rfl

end Parser

end ControlLogic
