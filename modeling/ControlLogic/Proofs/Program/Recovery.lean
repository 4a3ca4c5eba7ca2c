import ControlLogic.Proofs.Program.FunctionBody
import ControlLogic.Proofs.Program.Refusal
import ControlLogic.Proofs.Token.Lookup

/-!
Reading goes on behind a malformed item. Where a body is read with nothing refused, a malformed item
among its items adds one refusal and changes nothing else, as long as its semicolon is not taken as
the size of an array.
-/

set_option autoImplicit false
set_option relaxedAutoImplicit false

namespace ControlLogic

namespace Parser

variable {α β : Type} {s s' t : ParserState} {p q : Parser α} {S : Option Token → Prop}

/-! ### Malformed items -/

/-- On their own the tokens are a declaration of variables, or a statement of which nothing is
refused, with no token behind it. -/
def StandsAlone (t : ParserState) (item : List Token) : Prop :=
  let alone := { t with rest := item }
  (declares alone = true ∧
      ∃ decls s', variableDecls alone.fuel alone = .ok decls s' ∧ s'.rest = []) ∨
    (declares alone = false ∧ ∃ stmt s', statement alone.fuel alone = .ok stmt s' ∧ s'.rest = [] ∧
      s'.errors = t.errors)

/-- Tokens cut from texts that begin like an assignment, a call, a declaration, or a statement of
one word, hold no brace and no semicolon but at their end, and are no item. -/
structure Malformed (t : ParserState) (item : List Token) : Prop where
  cut : ∀ x ∈ item, ∃ text, x ∈ Token.scan text
  begins : ∃ x ∈ item.head?, Begins x
  ends : ∃ init semicolon, item = init ++ [semicolon] ∧ NoSemicolon init ∧
    isMark ";" semicolon = true
  flat : ∀ x ∈ item, isMark "\x7b" x = false ∧ isMark "\x7d" x = false
  malformed : ¬ StandsAlone t item

/-- The tokens are a declaration, its last variable with less than two sizes, but for an opening
bracket before the semicolon. -/
def BreaksOff (t : ParserState) (item : List Token) : Prop :=
  declares { t with rest := item } = true ∧ ∃ front bracket semicolon,
    item = front ++ [bracket, semicolon] ∧ isMark "[" bracket = true ∧
    let whole := { t with rest := front ++ [semicolon] }
    ∃ decls s', variableDecls whole.fuel whole = .ok decls s' ∧ s'.rest = [] ∧ OpenEnded decls

theorem Begins.sameWord {x : Token} (h : Begins x) (hcut : ∃ text, x ∈ Token.scan text)
    {word : String} (hword : word ∈ ["ELSE", "VOLATILE", "NONVOLATILE"]) :
    Text.sameWord x.text word = false := by
  have hkeyword : ∀ word ∈ ["ELSE", "VOLATILE", "NONVOLATILE"],
      Token.wordKind word = .keyword ∧ Text.upper word ∉ ["RETURN", "BREAK"] := by
    simp only [Token.wordKind_eq_upperKind]
    decide +kernel
  obtain ⟨hkind, hother⟩ := hkeyword word hword
  obtain ⟨text, hcut⟩ := hcut
  cases hsame : Text.sameWord x.text word with
  | false => rfl
  | true =>
    have hupper : Text.upper x.text = Text.upper word := beq_iff_eq.mp hsame
    have hclass : Token.wordKind x.text = .keyword := by
      rw [← Token.wordKind_upper, hupper, Token.wordKind_upper, hkind]
    rcases h with hname | htype | ⟨-, hmember⟩
    · have hword := (isWord_of_mem_scan hcut hname).2
      rw [hclass] at hword
      simp [Token.isName, hword] at hname
    · have hword := (isWord_of_kind hcut (.inr (.inr htype))).2
      rw [hclass, htype] at hword
      cases hword
    · exact absurd (hupper ▸ hmember) hother

/-! ### Where the first semicolon stands -/

section

variable {init u v rest more : List Token} {semicolon semicolon' : Token}

private theorem append_of_noSemicolon (hsemicolon : isMark ";" semicolon = true)
    (hu : NoSemicolon u)
    (h : init ++ semicolon :: more = u ++ rest) :
    ∃ v, init = u ++ v ∧ rest = v ++ semicolon :: more := by
  rcases List.append_eq_append_iff.mp h with ⟨v, rfl, hrest⟩ | ⟨v, hinit, hrest⟩
  · cases v with
    | nil => exact ⟨[], by simp, by simpa using hrest.symm⟩
    | cons x v =>
      obtain ⟨rfl, -⟩ := List.cons.inj hrest
      have hx := hu semicolon (by simp)
      rw [hsemicolon] at hx
      cases hx
  · exact ⟨v, hinit, hrest⟩

private theorem eq_of_semicolon (hinit : NoSemicolon init)
    (hsemicolon : isMark ";" semicolon = true)
    (hu : NoSemicolon u) (hsemicolon' : isMark ";" semicolon' = true)
    (h : init ++ semicolon :: more = u ++ semicolon' :: rest) :
    init = u ∧ semicolon = semicolon' ∧ more = rest := by
  obtain ⟨v, rfl, hrest⟩ := append_of_noSemicolon hsemicolon hu h
  cases v with
  | nil =>
    obtain ⟨rfl, rfl⟩ := List.cons.inj hrest
    exact ⟨by simp, rfl, rfl⟩
  | cons x v =>
    obtain ⟨rfl, -⟩ := List.cons.inj hrest
    have hx := hinit semicolon' (by simp)
    rw [hsemicolon'] at hx
    cases hx

private theorem skipItem_append (hsemicolon : isMark ";" semicolon = true) (hv : NoSemicolon v)
    (hflat : ∀ x ∈ v, isMark "\x7b" x = false ∧ isMark "\x7d" x = false) (more : List Token)
    (count : Nat) :
    skipItem (v ++ semicolon :: more) count = (more, count + v.length + 1) := by
  induction v generalizing count with
  | nil =>
    rw [List.nil_append, skipItem, if_pos hsemicolon]
    rfl
  | cons x v ih =>
    obtain ⟨hx, hv⟩ := List.forall_mem_cons.mp hv
    obtain ⟨⟨hopen, hclose⟩, hflat⟩ := List.forall_mem_cons.mp hflat
    rw [List.cons_append, skipItem, if_neg (by simp [hx]), if_neg (by simp [hopen, hclose]),
      ih hv hflat, List.length_cons]
    congr 1
    omega

private theorem behind_of_spared (hrest : s.rest = init ++ semicolon :: more)
    (hsemicolon : isMark ";" semicolon = true) (hinit : NoSemicolon init)
    (hflat : ∀ x ∈ init, isMark "\x7b" x = false ∧ isMark "\x7d" x = false) (h : Spared s s')
    (e : ParseError) :
    behind e s' = s.moved more (s.read + init.length + 1) (s.errors ++ [e]) := by
  obtain ⟨u, hu, hrest', hs'⟩ := h
  obtain ⟨v, rfl, hrest₁⟩ := append_of_noSemicolon hsemicolon hu (hrest.symm.trans hrest')
  have hskip := skipItem_append hsemicolon (List.forall_mem_append.mp hinit).2
    (List.forall_mem_append.mp hflat).2 more (s.read + u.length)
  have hread : s'.read = s.read + u.length := by
    rw [hs']
    rfl
  have herrors : s'.errors = s.errors := by
    rw [hs']
    rfl
  rw [behind, hread, herrors, hrest₁, hskip, List.length_append, hs']
  simp only [ParserState.moved, Nat.add_assoc]

end

/-! ### The round of a malformed item -/

private theorem skipStorageWords_advance {first : Token} (h : isStorageWord first = false)
    (tail : List Token) (read : Nat) (errors : List ParseError) :
    (skipStorageWords >>= fun _ => advance) (s.moved (first :: tail) read errors) =
      .ok first (s.moved tail (read + 1) errors) := by
  rw [bind_ok (skipStorageWords_ok _)]
  simp only [ParserState.moved_rest, List.dropWhile_cons, List.takeWhile_cons, h]
  rfl

namespace Malformed

variable {item more : List Token} {read fuel : Nat} {errors : List ParseError}

private theorem exists_init (h : Malformed t item) : ∃ first init semicolon,
    item = first :: init ++ [semicolon] ∧ Begins first ∧ NoSemicolon (first :: init) ∧
      isMark ";" semicolon = true := by
  obtain ⟨init, semicolon, hitem, hinit, hsemicolon⟩ := h.ends
  obtain ⟨first, hfirst, hbegins⟩ := h.begins
  cases init with
  | nil =>
    rw [hitem] at hfirst
    obtain rfl : semicolon = first := Option.some.inj hfirst
    cases hsemicolon.symm.trans hbegins.isMark
  | cons x init =>
    rw [hitem] at hfirst
    obtain rfl : x = first := Option.some.inj hfirst
    exact ⟨x, init, semicolon, hitem, hbegins, hinit, hsemicolon⟩

private theorem declares_eq (h : Malformed t item) :
    declares (t.moved (item ++ more) read errors) = declares { t with rest := item } := by
  obtain ⟨first, init, semicolon, hitem, -⟩ := h.exists_init
  refine declares_moved (s := { t with rest := item }) (List.append_nil item).symm ?_
    (fun hshort => absurd hshort ?_) read errors
  · rw [hitem]
    exact List.cons_ne_nil _ _
  · rw [hitem, List.length_append, List.length_cons, List.length_singleton]
    omega

private theorem cut_append (h : Malformed t item) (ht : ∀ x ∈ more, ∃ text, x ∈ Token.scan text)
    (read : Nat) (errors : List ParseError) :
    (t.moved (item ++ more) read errors).Cut :=
  List.forall_mem_append.mpr ⟨h.cut, ht⟩

/-- What ends at the item's semicolon reads the item on its own, or refuses it and does not take the
semicolon. -/
private theorem alone_or_refused {k j : Nat} (h : Malformed t item)
    (hends : EndsAt p (t.moved (item ++ more) read errors))
    (hwithin : WithinAt k S p (t.moved (item ++ more) read errors)) (hstops : S none)
    (hgoes : GoesAt j p q (t.moved (item ++ more) read errors)) :
    (∃ a s'', p { t with rest := item } = .ok a s'' ∧ s''.rest = [] ∧ s''.errors = t.errors) ∨
      ∃ e s', p (t.moved (item ++ more) read errors) = .error (.error e) s' ∧
        Spared (t.moved (item ++ more) read errors) s' := by
  obtain ⟨init, semicolon, hitem, hinit, hsemicolon⟩ := h.ends
  obtain ⟨a, s', hrun, -⟩ | ⟨e, s', hrun, -⟩ := hgoes.cases
  · left
    obtain ⟨u, htakes, hclean⟩ := hwithin.takes hrun
    cases hends with
    | halts hrun' => cases hrun.symm.trans hrun'
    | @ok a' s₁ v semicolon' hrun' hv hsemicolon' hrest herrors =>
      cases hrun.symm.trans hrun'
      rw [ParserState.moved_rest, hitem, List.append_assoc, List.singleton_append] at hrest
      obtain ⟨-, -, hmore⟩ := eq_of_semicolon hinit hsemicolon hv hsemicolon' hrest
      have htaken : item ++ more = u ++ s'.rest := htakes.rest
      rw [hmore] at htaken
      obtain rfl : item = u := List.append_cancel_right htaken
      have hrepeats := (hclean herrors).2 [] t.read t.errors (.inr hstops)
      rw [List.append_nil] at hrepeats
      exact ⟨a, _, hrepeats, rfl, rfl⟩
  · right
    cases hends with
    | ok hrun' => cases hrun.symm.trans hrun'
    | halts hrun' hspared =>
      cases hrun.symm.trans hrun'
      exact ⟨e, s', hrun, hspared⟩

private theorem statement_refused (h : Malformed t item)
    (hdeclares : declares { t with rest := item } = false)
    (ht : ∀ x ∈ more, ∃ text, x ∈ Token.scan text) (hfuel : (item ++ more).length < fuel)
    (read : Nat) (errors : List ParseError) :
    ∃ e s', statement fuel (t.moved (item ++ more) read errors) = .error (.error e) s' ∧
      Spared (t.moved (item ++ more) read errors) s' := by
  obtain ⟨first, init, semicolon, hitem, hbegins, -⟩ := h.exists_init
  have hcurrent : (t.moved (item ++ more) read errors).current = first := by
    rw [ParserState.current, ParserState.moved_rest, hitem]
    rfl
  have hkind : first.kind ≠ .variableType := by
    intro hkind
    rw [hitem] at hdeclares
    simp [declares, ParserState.current, hkind] at hdeclares
  have hcut := h.cut_append ht read errors
  have hends : EndsAt (statement fuel) (t.moved (item ++ more) read errors) := by
    refine endsAt_statement hcut ?_ (by rwa [hcurrent]) (by rwa [hcurrent])
    rw [ParserState.moved_rest, hitem]
    exact List.cons_ne_nil _ _
  have hlength : item.length + 1 ≤ fuel := by
    rw [List.length_append] at hfuel
    omega
  refine (h.alone_or_refused hends ((stmtWithin_statement fuel).all _ hcut) apart_none
    (goes_statement (Nat.le_refl fuel) _ hfuel)).resolve_left ?_
  rintro ⟨stmt, s', hrun, hrest, herrors⟩
  have halone :=
    (goes_statement hlength { t with rest := item } (Nat.lt_succ_self _)).ok_iff.mpr hrun
  exact h.malformed (.inr ⟨hdeclares, stmt, s', halone, hrest, herrors⟩)

private theorem isStorageWord_first {first : Token} {init : List Token} (h : Malformed t item)
    (hitem : item = first :: init) (hbegins : Begins first) : isStorageWord first = false := by
  have hcut : ∃ text, first ∈ Token.scan text := h.cut first (hitem ▸ List.mem_cons_self)
  rw [isStorageWord, hbegins.sameWord hcut (by simp), hbegins.sameWord hcut (by simp)]
  rfl

private theorem breaksOff_of_behind {first : Token} {init : List Token} {semicolon : Token}
    (h : Malformed t item) (hdeclares : declares { t with rest := item } = true)
    (hitem : item = first :: init ++ [semicolon]) (hinit : NoSemicolon init)
    (hsemicolon : isMark ";" semicolon = true) (hbegins : Begins first)
    (hfuel : item.length + 1 ≤ fuel)
    (hbehind : BreaksOffBehind (declaredBehind fuel first)
      (t.moved (init ++ semicolon :: more) read errors) s') : BreaksOff t item := by
  obtain ⟨u, bracket, semicolon', hu, hbracket, hsemicolon', hrest, hread⟩ := hbehind
  have hfront : NoSemicolon (u ++ [bracket]) :=
    hu.append (List.forall_mem_singleton.mpr (isMark_of_text (by
      rw [text_eq_of_isMark hbracket]
      decide)))
  have hsplit : init ++ semicolon :: more = (u ++ [bracket]) ++ semicolon' :: s'.rest := by
    rw [List.append_assoc]
    exact hrest
  obtain ⟨rfl, rfl, rfl⟩ := eq_of_semicolon hinit hsemicolon hfront hsemicolon' hsplit
  obtain ⟨decls, hopen, hdecls⟩ := hread [] (t.read + 1) t.errors
  have hrun : variableDecls fuel { t with rest := first :: (u ++ [semicolon]) } =
      .ok decls (t.moved [] (t.read + 1 + u.length + 1) t.errors) := by
    have hword := h.isStorageWord_first hitem hbegins
    rw [variableDecls_eq]
    exact (bind_ok (skipStorageWords_advance hword (u ++ [semicolon]) t.read t.errors)).trans hdecls
  have hshort : (first :: (u ++ [semicolon])).length + 1 ≤ fuel := by
    rw [hitem] at hfuel
    simp only [List.length_cons, List.length_append, List.length_nil] at hfuel ⊢
    omega
  have halone := (goes_variableDecls hshort { t with rest := first :: (u ++ [semicolon]) }
    (Nat.lt_succ_self _)).ok_iff.mpr hrun
  refine ⟨hdeclares, first :: u, bracket, semicolon, ?_, hbracket, decls, _, halone, rfl, hopen⟩
  rw [hitem, List.cons_append, List.append_assoc]
  rfl

private theorem variableDecls_refused (h : Malformed t item) (hwhole : ¬ BreaksOff t item)
    (hdeclares : declares { t with rest := item } = true)
    (ht : ∀ x ∈ more, ∃ text, x ∈ Token.scan text) (hfuel : (item ++ more).length < fuel)
    (read : Nat) (errors : List ParseError) :
    ∃ e s', variableDecls fuel (t.moved (item ++ more) read errors) = .error (.error e) s' ∧
      Spared (t.moved (item ++ more) read errors) s' := by
  obtain ⟨first, init, semicolon, hitem, hbegins, hinit, hsemicolon⟩ := h.exists_init
  have hcut := h.cut_append ht read errors
  have hlength : item.length + 1 ≤ fuel := by
    rw [List.length_append] at hfuel
    omega
  have hmoved : t.moved (item ++ more) read errors =
      t.moved (first :: (init ++ semicolon :: more)) read errors := by
    rw [hitem, List.append_assoc]
    rfl
  have htail : ParserState.Cut (t.moved (init ++ semicolon :: more) (read + 1) errors) := by
    intro x hx
    refine hcut x ?_
    rw [hmoved]
    exact List.mem_cons_of_mem first hx
  rcases declaredBehind_cases fuel first htail with hends | ⟨halt, s', -, hbehind⟩
  · have hhead := skipStorageWords_advance (s := t) (h.isStorageWord_first hitem hbegins)
      (init ++ semicolon :: more) read errors
    have hends' : EndsAt (variableDecls fuel) (t.moved (item ++ more) read errors) := by
      rw [hmoved, variableDecls_eq]
      refine (SparesAt.ok hhead (.cons rfl hbegins.isMark)).thenEnds fun a s' hrun => ?_
      cases hhead.symm.trans hrun
      exact hends
    refine (h.alone_or_refused hends' (S := fun _ => True) (within_variableDecls fuel _ hcut)
      trivial
      (goes_variableDecls (Nat.le_refl fuel) _ hfuel)).resolve_left ?_
    rintro ⟨decls, s', hrun, hrest, -⟩
    have halone :=
      (goes_variableDecls hlength { t with rest := item } (Nat.lt_succ_self _)).ok_iff.mpr hrun
    exact h.malformed (.inl ⟨hdeclares, decls, s', halone, hrest⟩)
  · -- The semicolon would be taken as a size.
    exact absurd (h.breaksOff_of_behind hdeclares hitem (List.forall_mem_cons.mp hinit).2 hsemicolon
      hbegins hlength hbehind) hwhole

private theorem blockRound_refused (h : Malformed t item) (hwhole : ¬ BreaksOff t item)
    (ht : ∀ x ∈ more, ∃ text, x ∈ Token.scan text) (hfuel : (item ++ more).length < fuel)
    (read : Nat) (errors : List ParseError) :
    ∃ e, blockRound (statement fuel) fuel (t.moved (item ++ more) read errors) =
      .ok none (t.moved more (read + item.length) (errors ++ [e])) := by
  obtain ⟨init, semicolon, hitem, hinit, hsemicolon⟩ := h.ends
  have hbehind {s' : ParserState} (hspared : Spared (t.moved (item ++ more) read errors) s')
      (e : ParseError) :
      behind e s' = t.moved more (read + item.length) (errors ++ [e]) := by
    have hrest : (t.moved (item ++ more) read errors).rest = init ++ semicolon :: more := by
      rw [ParserState.moved_rest, hitem, List.append_assoc]
      rfl
    have hflat : ∀ x ∈ init, isMark "\x7b" x = false ∧ isMark "\x7d" x = false :=
      fun x hx => h.flat x (hitem ▸ List.mem_append_left _ hx)
    rw [behind_of_spared hrest hsemicolon hinit hflat hspared, hitem, List.length_append]
    rfl
  have hitem' : ∃ e, blockItem (statement fuel) fuel (t.moved (item ++ more) read errors) =
      .ok none (t.moved more (read + item.length) (errors ++ [e])) := by
    rw [blockItem_apply, h.declares_eq]
    cases hdeclares : declares { t with rest := item } with
    | true =>
      obtain ⟨e, s', hrun, hspared⟩ := h.variableDecls_refused hwhole hdeclares ht hfuel read errors
      refine ⟨e, ?_⟩
      rw [if_pos rfl, declaredItem, bind_ok (recovering_refused hrun), hbehind hspared]
      change EStateM.Result.ok none
        { t.moved more (read + item.length) (errors ++ [e]) with locals := t.locals ++ [] } = _
      rw [List.append_nil]
      rfl
    | false =>
      obtain ⟨e, s', hrun, hspared⟩ := h.statement_refused hdeclares ht hfuel read errors
      exact ⟨e, by rw [if_neg (by decide), recovering_refused hrun, hbehind hspared]⟩
  obtain ⟨e, hrun⟩ := hitem'
  refine ⟨e, movingOn_ok hrun ((advancePast_cases _ _).1 ?_)⟩
  rw [ParserState.moved_read, ParserState.moved_read, hitem, List.length_append]
  simp

end Malformed

/-! ### Functions with a malformed item -/

private theorem Malformed.bodyBehind_eq {item : List Token} (h : Malformed t item)
    (hwhole : ¬ BreaksOff t item) (ht : t.Cut) {first : List Stmt} {fuel n m : Nat}
    {body : List VariableDecl × List Stmt}
    (hrun : bodyBehind first fuel n t = .ok body s') (hclean : s'.errors = t.errors)
    (hfuel : (item ++ t.rest).length < fuel) (hn : t.fuel ≤ n) (hm : t.fuel ≤ m) (read : Nat)
    (errors : List ParseError) :
    ∃ u e, t.Takes u s' ∧ bodyBehind first fuel (m + 1) (t.moved (item ++ t.rest) read errors) =
      .ok body (s'.moved s'.rest (read + item.length + u.length) (errors ++ [e])) := by
  obtain ⟨x, init, semicolon, hitem, hbegins, -⟩ := h.exists_init
  have hopen : closes (t.moved (item ++ t.rest) read errors) = false := by
    rw [closes, ParserState.current, ParserState.moved_rest, hitem]
    exact Bool.or_eq_false_iff.mpr ⟨hbegins.isMark, rfl⟩
  have hless : t.fuel ≤ fuel := by
    rw [List.length_append] at hfuel
    rw [ParserState.fuel]
    omega
  obtain ⟨e, hround⟩ := h.blockRound_refused hwhole ht hfuel read errors
  rw [bodyBehind_fuel hless hn hm] at hrun
  obtain ⟨u, htakes, hrest⟩ := ((within_bodyBehind (S := Never) first fuel m) t ht).moved_rest
    hrun hclean (read + item.length) (errors ++ [e])
  refine ⟨u, e, htakes, ?_⟩
  rw [bodyBehind, bind_of_map (blockItems_open hopen hround)]
  exact hrest

theorem Malformed.apart {item : List Token} (h : Malformed t item) (more : List Token) :
    Apart (item ++ more).head? := by
  obtain ⟨x, init, semicolon, hitem, hbegins, -⟩ := h.exists_init
  rw [hitem]
  intro y hy
  obtain rfl : x = y := Option.some.inj hy
  exact ⟨hbegins.sameWord (h.cut x (hitem ▸ List.mem_cons_self)) (by simp), hbegins.isMark⟩

/-- Where the function is read with nothing refused, a malformed item among the items of its body
adds one refusal and is passed over: the function is read with the same variables and statements,
and reading goes on behind it as before. Only a declaration that breaks off behind an opening
bracket is excepted. -/
theorem malformed_item_is_passed_over {f : FunctionDef} {item : List Token} (hs : s.Cut)
    (hread : functionDef s.fuel s = .ok f s') (hclean : s'.errors = s.errors)
    (hamong : AmongItems s t) (hitem : Malformed t item) (hwhole : ¬ BreaksOff t item) :
    ∃ front e, s.rest = front ++ t.rest ∧
      let longer := { s with rest := front ++ (item ++ t.rest) }
      functionDef longer.fuel longer =
        .ok f { s' with errors := s'.errors ++ [e], read := s'.read + item.length } := by
  obtain ⟨build, first, u, n, htakes, hn, hplace⟩ := hamong.functionDef_split hs
  have hlength : s.rest.length = u.length + t.rest.length := by
    rw [htakes.rest, List.length_append]
  have hpos : 0 < item.length := by
    obtain ⟨x, init, semicolon, hitem', -⟩ := hitem.exists_init
    rw [hitem']
    exact Nat.succ_pos _
  -- The fuel for the longer text is enough for both; one round of the loop is left for the item.
  obtain ⟨m, hm⟩ : ∃ m, s.rest.length + item.length + 1 = m + 1 + n :=
    ⟨s.rest.length + item.length - n, by omega⟩
  have hfuel : s.fuel ≤ m + 1 + n := by
    rw [ParserState.fuel]
    omega
  have hless : t.fuel ≤ m := by
    rw [ParserState.fuel]
    omega
  obtain ⟨hshort, hlong⟩ := hplace (m + 1) hfuel
  have hread' := (goes_functionDef hfuel s (Nat.lt_succ_self _)).ok_iff.mp hread
  rw [hshort, ← bind_pure_comp] at hread'
  obtain ⟨body, s₂, hbody, hf⟩ := bind_eq_ok hread'
  cases hf
  have ht : t.Cut := hs.of_takes htakes
  obtain ⟨v, htakes', -⟩ := ((within_bodyBehind (S := Never) first _ (m + 1)) t ht).takes hbody
  obtain ⟨hclean₁, hclean₂⟩ := htakes.errors_eq htakes' hclean
  obtain ⟨v', e, htakes₂, hbehind⟩ := hitem.bodyBehind_eq hwhole ht hbody hclean₂
    (by rw [List.length_append]; omega) (Nat.le_succ_of_le hless) hless (s.read + u.length) s.errors
  refine ⟨u, e, htakes.rest, ?_⟩
  intro longer
  have hlonger : longer = s.moved (u ++ (item ++ t.rest)) s.read s.errors := rfl
  have hfuel' : longer.fuel = m + 1 + n := by
    rw [hlonger, ParserState.fuel, ParserState.moved_rest, ← hm, hlength]
    simp only [List.length_append]
    omega
  have hcount : s'.read + item.length = s.read + u.length + item.length + v'.length := by
    rw [htakes₂.read, htakes.read]
    omega
  rw [hfuel', hlonger, hlong hclean₁ _ s.read s.errors (hitem.apart t.rest), ← bind_pure_comp,
    bind_ok hbehind, hcount, hclean]
  rfl

/-! ### An assignment without a value -/

def stateBehind (p : Parser α) (s : ParserState) : ParserState :=
  match p s with
  | .ok _ s' => s'
  | .error _ s' => s'

def succeeds (p : Parser α) (s : ParserState) : Bool :=
  match p s with
  | .ok _ _ => true
  | .error _ _ => false

private theorem exists_of_succeeds (h : succeeds p s = true) :
    ∃ a, p s = .ok a (stateBehind p s) := by
  rw [succeeds] at h
  rw [stateBehind]
  cases hrun : p s with
  | ok a s' => exact ⟨a, rfl⟩
  | error halt s' =>
    rw [hrun] at h
    cases h

private theorem ne_ok_of_not_succeeds (h : succeeds p s = false) (a : α) (s' : ParserState) :
    p s ≠ .ok a s' := by
  intro hrun
  rw [succeeds, hrun] at h
  cases h

def withValue : ParserState :=
  .ofTokens (Token.scan "FUNCTION F()\n\x7b\n    INTEGER b;\n    b = 1;\n\x7d\n")

def bodyWithValue : ParserState :=
  stateBehind (functionHead withValue.fuel) withValue

def behindVariable : ParserState :=
  stateBehind (bodyRound bodyWithValue.fuel) bodyWithValue

def withoutValue : List Token :=
  (ParserState.ofTokens (Token.scan "b = ;")).rest

private theorem withValue_eq_lookedUp :
    withValue =
      .ofTokens ((Token.scan "FUNCTION F()\n\x7b\n    INTEGER b;\n    b = 1;\n\x7d\n").map
        Token.lookedUp) := by
  rw [withValue, ← Token.scan_eq_map_lookedUp]

private theorem withValue_reads :
    succeeds (functionDef withValue.fuel) withValue = true ∧
      (stateBehind (functionDef withValue.fuel) withValue).errors = withValue.errors ∧
      succeeds (functionHead withValue.fuel) withValue = true ∧
      closes bodyWithValue = false ∧
      succeeds (bodyRound bodyWithValue.fuel) bodyWithValue = true ∧
      (∃ x ∈ withoutValue.head?, x.isName = true) ∧
      (∃ semicolon ∈ withoutValue.getLast?, isMark ";" semicolon = true) ∧
      (∀ x ∈ withoutValue.dropLast, isMark ";" x = false) ∧
      (∀ x ∈ withoutValue, isMark "\x7b" x = false ∧ isMark "\x7d" x = false) ∧
      declares { behindVariable with rest := withoutValue } = false ∧
      succeeds (statement (withoutValue.length + 1))
        { behindVariable with rest := withoutValue } = false := by
  rw [withoutValue, Token.scan_eq_map_lookedUp, behindVariable, bodyWithValue,
    withValue_eq_lookedUp]
  decide +kernel

/-- An assignment without a value between a declaration and an assignment. -/
theorem assignment_without_value_is_passed_over :
    ∃ f s', withValue.Cut ∧ functionDef withValue.fuel withValue = .ok f s' ∧
      s'.errors = withValue.errors ∧ AmongItems withValue behindVariable ∧
      Malformed behindVariable withoutValue ∧ ¬ BreaksOff behindVariable withoutValue ∧
      ∃ front e, withValue.rest = front ++ behindVariable.rest ∧
        let longer := { withValue with rest := front ++ (withoutValue ++ behindVariable.rest) }
        functionDef longer.fuel longer =
          .ok f { s' with errors := s'.errors ++ [e], read := s'.read + withoutValue.length } := by
  obtain ⟨hread, hclean, hhead, hopen, hround, ⟨x, hx, hname⟩, ⟨semicolon, hlast, hsemicolon⟩,
    hinit, hflat, hdeclares, hfails⟩ := withValue_reads
  obtain ⟨build, hhead⟩ := exists_of_succeeds hhead
  obtain ⟨f, hread⟩ := exists_of_succeeds hread
  obtain ⟨found, hround⟩ := exists_of_succeeds hround
  have hs : withValue.Cut := ParserState.cut_ofTokens _
  have hamong : AmongItems withValue behindVariable :=
    ⟨1, build, bodyWithValue, hhead, .more hopen hround (.done _)⟩
  have hitem : Malformed behindVariable withoutValue := by
    obtain ⟨init, hends⟩ := List.getLast?_eq_some_iff.mp hlast
    rw [hends, List.dropLast_concat] at hinit
    refine ⟨ParserState.cut_ofTokens "b = ;", ⟨x, hx, .inl hname⟩,
      ⟨init, semicolon, hends, hinit, hsemicolon⟩, hflat, ?_⟩
    rintro (⟨hdeclares', -⟩ | ⟨-, stmt, s', hrun, -⟩)
    · cases hdeclares.symm.trans hdeclares'
    · exact ne_ok_of_not_succeeds hfails stmt s' hrun
  have hwhole : ¬ BreaksOff behindVariable withoutValue := fun h => by
    cases hdeclares.symm.trans h.1
  exact ⟨f, _, hs, hread, hclean, hamong, hitem, hwhole,
    malformed_item_is_passed_over hs hread hclean hamong hitem hwhole⟩

/-- A declaration that breaks off behind an opening bracket takes the statement behind it along. -/
theorem statement_behind_open_bracket_is_lost :
    let whole := Program.parse "FUNCTION Main()\n\x7b\n    b = 1;\n    c = 2;\n\x7d\n" []
    let broken :=
      Program.parse "FUNCTION Main()\n\x7b\n    INTEGER a[;\n    b = 1;\n    c = 2;\n\x7d\n" []
    whole.errors = [] ∧ whole.program.main.map (·.body.length) = some 2 ∧
      broken.errors = [⟨.expectedArraySize ";", ⟨3, 15⟩⟩] ∧
      broken.program.main.map (·.body.length) = some 1 := by
  intro whole broken
  have hwhole : whole.errors = [] ∧ whole.program.main.map (·.body.length) = some 2 := by
    rw [Program.parse_errors, Program.parse_main, Token.scan_eq_map_lookedUp]
    decide +kernel
  have hbroken : broken.errors = [⟨.expectedArraySize ";", ⟨3, 15⟩⟩] ∧
      broken.program.main.map (·.body.length) = some 1 := by
    rw [Program.parse_errors, Program.parse_main, Token.scan_eq_map_lookedUp]
    decide +kernel
  exact ⟨hwhole.1, hwhole.2, hbroken⟩

end Parser

end ControlLogic
