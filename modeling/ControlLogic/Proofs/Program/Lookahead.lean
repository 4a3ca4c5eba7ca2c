import ControlLogic.Proofs.Program.Progress
import Mathlib.Data.List.TakeWhile

/-!
What readers look at. Where nothing is refused, what a reader does hangs on the tokens it takes and
on the token behind them: with other tokens further on it does the same. Here this is shown of
declarations and expressions.
-/

set_option autoImplicit false
set_option relaxedAutoImplicit false

namespace ControlLogic

namespace ParserState

/-- The state with other tokens to be read, another count of those read and other refusals. -/
def moved (s : ParserState) (rest : List Token) (read : Nat) (errors : List ParseError) :
    ParserState :=
  { s with rest := rest, read := read, errors := errors }

@[simp] theorem moved_rest (s : ParserState) (rest : List Token) (read : Nat)
    (errors : List ParseError) : (s.moved rest read errors).rest = rest :=
  rfl

@[simp] theorem moved_read (s : ParserState) (rest : List Token) (read : Nat)
    (errors : List ParseError) : (s.moved rest read errors).read = read :=
  rfl

theorem current_eq_getD (s : ParserState) : s.current = s.rest.head?.getD s.endToken := by
  rw [current, List.headD_eq_head?_getD]

/-- The second state comes from the first by taking the tokens `u`; refusals may have been added. -/
structure Takes (s : ParserState) (u : List Token) (s' : ParserState) : Prop where
  rest : s.rest = u ++ s'.rest
  read : s'.read = s.read + u.length
  errors : s.errors <+: s'.errors
  finish : s'.finish = s.finish

theorem Takes.refl (s : ParserState) : s.Takes [] s :=
  ⟨rfl, rfl, List.prefix_rfl, rfl⟩

theorem Takes.trans {s s₁ s₂ : ParserState} {u v : List Token} (h : s.Takes u s₁)
    (h' : s₁.Takes v s₂) : s.Takes (u ++ v) s₂ where
  rest := by rw [h.rest, h'.rest, List.append_assoc]
  read := by rw [h'.read, h.read, List.length_append, Nat.add_assoc]
  errors := h.errors.trans h'.errors
  finish := h'.finish.trans h.finish

theorem takes_cons {s : ParserState} {t : Token} {rest : List Token} (h : s.rest = t :: rest) :
    s.Takes [t] { s with rest := rest, read := s.read + 1 } :=
  ⟨h, rfl, List.prefix_rfl, rfl⟩

theorem Takes.errors_eq {s s₁ s₂ : ParserState} {u v : List Token} (h : s.Takes u s₁)
    (h' : s₁.Takes v s₂) (hsame : s₂.errors = s.errors) :
    s₁.errors = s.errors ∧ s₂.errors = s₁.errors := by
  have hlength : s₁.errors.length = s.errors.length :=
    Nat.le_antisymm (hsame ▸ h'.errors.length_le) h.errors.length_le
  have hfirst : s₁.errors = s.errors := (h.errors.eq_of_length hlength.symm).symm
  exact ⟨hfirst, hsame.trans hfirst.symm⟩

def Cut (s : ParserState) : Prop :=
  ∀ t ∈ s.rest, ∃ text, t ∈ Token.scan text

theorem cut_ofTokens (text : String) : (ofTokens (Token.scan text)).Cut := by
  intro t ht
  exact ⟨text, (List.mem_filter.mp ((List.takeWhile_prefix _).subset ht)).1⟩

theorem Cut.of_takes {s s' : ParserState} {u : List Token} (h : s.Cut) (htakes : s.Takes u s') :
    s'.Cut := by
  intro t ht
  refine h t ?_
  rw [htakes.rest]
  exact List.mem_append_right u ht

end ParserState

namespace Parser

variable {α β γ : Type} {k : Nat} {S : Option Token → Prop} {s : ParserState} {p : Parser α}
  {f : α → Parser β}

/-- The run of a reader that takes the tokens `u` happens in the same way before other tokens, if
these begin with the same token or with one before which it stops, as `S` tells. -/
def Repeats (S : Option Token → Prop) (p : Parser α) (s : ParserState) (u : List Token) (a : α)
    (s' : ParserState) : Prop :=
  ∀ more read errors, more.head? = s'.rest.head? ∨ S more.head? →
    p (s.moved (u ++ more) read errors) = .ok a (s'.moved more (read + u.length) errors)

/-- At a state the reader halts or gives something; then, if nothing has been refused on the way, at
least `k` tokens were taken and the run hangs on nothing behind the next token. -/
inductive WithinAt (k : Nat) (S : Option Token → Prop) (p : Parser α) (s : ParserState) : Prop
  | ok {a : α} {u : List Token} {s' : ParserState} (hrun : p s = .ok a s') (htakes : s.Takes u s')
      (hclean : s'.errors = s.errors → k ≤ u.length ∧ Repeats S p s u a s')
  | halts {halt : Halt} {u : List Token} {s' : ParserState} (hrun : p s = .error halt s')
      (htakes : s.Takes u s')

def Within (k : Nat) (S : Option Token → Prop) (p : Parser α) : Prop :=
  ∀ s : ParserState, s.Cut → WithinAt k S p s

/-- No other token than the same one will do behind the tokens that are taken. -/
def Never : Option Token → Prop :=
  fun _ => False

def NoMark (mark : String) : Option Token → Prop :=
  fun next => ∀ t ∈ next, isMark mark t = false

/-! ### Sequences -/

theorem WithinAt.takes {a : α} {s' : ParserState} (h : WithinAt k S p s)
    (hrun : p s = .ok a s') :
    ∃ u, s.Takes u s' ∧ (s'.errors = s.errors → k ≤ u.length ∧ Repeats S p s u a s') := by
  cases h with
  | ok hrun' htakes hclean =>
    cases hrun.symm.trans hrun'
    exact ⟨_, htakes, hclean⟩
  | halts hrun' => cases hrun.symm.trans hrun'

theorem WithinAt.mono {j : Nat} {T : Option Token → Prop} (h : WithinAt k S p s)
    (hj : j ≤ k) (hstops : ∀ next, T next → S next) : WithinAt j T p s := by
  cases h with
  | ok hrun htakes hclean =>
    refine .ok hrun htakes fun hsame =>
      ⟨Nat.le_trans hj (hclean hsame).1, fun more read errors hnext => ?_⟩
    exact (hclean hsame).2 more read errors (hnext.imp_right (hstops _))
  | halts hrun htakes => exact .halts hrun htakes

theorem Within.mono {j : Nat} {T : Option Token → Prop} (h : Within k S p) (hj : j ≤ k)
    (hstops : ∀ next, T next → S next) : Within j T p :=
  fun s hs => (h s hs).mono hj hstops

theorem Within.never (h : Within k S p) : Within 0 Never p :=
  h.mono (Nat.zero_le k) fun _ => False.elim

theorem Within.strict (h : Within k S p) : Within k Never p :=
  h.mono (Nat.le_refl k) fun _ => False.elim

theorem never_stops : 0 < k ∨ ∀ next, ¬ Never next :=
  .inr fun _ => id

theorem WithinAt.bind {j i : Nat} {T : Option Token → Prop} (hp : WithinAt k T p s)
    (hf : ∀ a u s', s.Takes u s' → WithinAt j S (f a) s') (hi : i ≤ k + j)
    (hstops : j = 0 → ∀ next, S next → T next) : WithinAt i S (p >>= f) s := by
  cases hp with
  | halts hrun htakes => exact .halts (bind_error hrun) htakes
  | @ok a u s₁ hrun htakes hclean =>
    cases hf a u s₁ htakes with
    | halts hrun' htakes' => exact .halts ((bind_ok hrun).trans hrun') (htakes.trans htakes')
    | @ok b v s₂ hrun' htakes' hclean' =>
      refine .ok ((bind_ok hrun).trans hrun') (htakes.trans htakes') fun hsame => ?_
      obtain ⟨hsame₁, hsame₂⟩ := htakes.errors_eq htakes' hsame
      obtain ⟨hk, hrepeats⟩ := hclean hsame₁
      obtain ⟨hj, hrepeats'⟩ := hclean' hsame₂
      refine ⟨by rw [List.length_append]; omega, fun more read errors hnext => ?_⟩
      have hmiddle : (v ++ more).head? = s₁.rest.head? ∨ T (v ++ more).head? := by
        rw [htakes'.rest]
        cases v with
        | nil => exact hnext.imp_right (hstops (Nat.le_zero.mp hj) _)
        | cons t v => exact .inl rfl
      rw [List.append_assoc, bind_ok (hrepeats (v ++ more) read errors hmiddle),
        hrepeats' more (read + u.length) errors hnext, List.length_append, Nat.add_assoc]

theorem Within.bind {i : Nat} (hp : Within k S p) (hf : ∀ a, Within (i - k) S (f a)) :
    Within i S (p >>= f) :=
  fun s hs => (hp s hs).bind (fun a _ s' htakes => hf a s' (hs.of_takes htakes)) (by omega)
    fun _ _ h => h

theorem Within.andThen {i j : Nat} {T : Option Token → Prop} (hp : Within k T p)
    (hf : ∀ a, Within (j + 1) S (f a)) (hi : i ≤ k + (j + 1)) : Within i S (p >>= f) :=
  fun s hs => (hp s hs).bind (fun a _ s' htakes => hf a s' (hs.of_takes htakes)) hi nofun

theorem Within.before {T : Option Token → Prop} (hp : Within k T p)
    (hf : ∀ a, Within 1 S (f a)) : Within 1 S (p >>= f) :=
  hp.andThen hf (Nat.le_add_left 1 k)

theorem Within.pure (a : α) : Within 0 S (Pure.pure a) :=
  fun s _ => .ok rfl (.refl s) fun _ => ⟨Nat.le_refl 0, fun _ _ _ _ => rfl⟩

theorem Within.failAt {pos : Position} {cause : ParseCause} :
    Within k S (Parser.failAt pos cause : Parser α) :=
  fun s _ => .halts rfl (.refl s)

theorem Within.fail {cause : ParseCause} : Within k S (Parser.fail cause : Parser α) :=
  fun s _ => .halts rfl (.refl s)

theorem within_stuck : Within k S (stuck : Parser α) :=
  fun s _ => .halts rfl (.refl s)

theorem Within.map {m : α → β} (hp : Within k S p) : Within k S (m <$> p) := by
  rw [← bind_pure_comp]
  exact hp.bind fun a => (Within.pure (m a)).mono (by omega) fun _ h => h

theorem Within.ite {c : Prop} [Decidable c] {q : Parser α} (hp : Within k S p)
    (hq : Within k S q) : Within k S (if c then p else q) := by
  split
  · exact hp
  · exact hq

theorem Within.note {step : ParserState → ParserState}
    (htakes : ∀ s : ParserState, s.Takes [] (step s))
    (hmoved : ∀ s rest read errors,
      step (s.moved rest read errors) = (step s).moved rest read errors) :
    Within 0 S (modify step : Parser PUnit) := by
  refine fun s _ => .ok rfl (htakes s) fun _ => ⟨Nat.le_refl 0, fun more read errors _ => ?_⟩
  change EStateM.Result.ok _ (step (s.moved more read errors)) = _
  rw [hmoved]
  rfl

/-! ### Looking ahead -/

theorem head?_append {u more rest : List Token} (h : u ≠ [] ∨ more.head? = rest.head?) :
    (u ++ more).head? = (u ++ rest).head? := by
  cases u with
  | nil => exact h.resolve_left fun hne => hne rfl
  | cons t u => rfl

/-- A reader that looks at the next token and reads nothing. What follows takes a token, or nothing
but the same token may come behind. -/
theorem WithinAt.look {p : Parser γ} {g : ParserState → γ} {f : γ → Parser β}
    (hp : ∀ s, p s = .ok (g s) s)
    (hview : ∀ s rest read errors, rest.head? = s.rest.head? →
      g (s.moved rest read errors) = g s)
    (hf : WithinAt k S (f (g s)) s) (hk : 0 < k ∨ ∀ next, ¬ S next) :
    WithinAt k S (p >>= f) s := by
  cases hf with
  | halts hrun htakes => exact .halts ((bind_ok (hp s)).trans hrun) htakes
  | @ok b u s' hrun htakes hclean =>
    refine .ok ((bind_ok (hp s)).trans hrun) htakes fun hsame => ?_
    obtain ⟨hlength, hrepeats⟩ := hclean hsame
    refine ⟨hlength, fun more read errors hnext => ?_⟩
    have hhead : (u ++ more).head? = s.rest.head? := by
      rw [htakes.rest]
      refine head?_append ?_
      rcases hk with hk | hnone
      · exact .inl (List.ne_nil_of_length_pos (by omega))
      · exact .inr (hnext.resolve_right (hnone _))
    rw [bind_ok (hp _), hview s _ read errors hhead]
    exact hrepeats more read errors hnext

theorem current_moved {rest : List Token} (read : Nat) (errors : List ParseError)
    (h : rest.head? = s.rest.head?) : (s.moved rest read errors).current = s.current := by
  rw [ParserState.current_eq_getD, ParserState.current_eq_getD, ParserState.moved_rest, h]
  rfl

theorem WithinAt.current {f : Token → Parser β} (hf : WithinAt k S (f s.current) s)
    (hk : 0 < k ∨ ∀ next, ¬ S next) : WithinAt k S (Parser.current >>= f) s :=
  .look (fun _ => rfl) (fun _ _ _ _ h => current_moved _ _ h) hf hk

theorem Within.look {p : Parser γ} {g : ParserState → γ} {f : γ → Parser β}
    (hp : ∀ s, p s = .ok (g s) s)
    (hview : ∀ s rest read errors, rest.head? = s.rest.head? →
      g (s.moved rest read errors) = g s)
    (hf : ∀ a, Within k S (f a)) (hk : 0 < k ∨ ∀ next, ¬ S next) :
    Within k S (p >>= f) :=
  fun s hs => .look hp hview (hf _ s hs) hk

theorem Within.current {f : Token → Parser β} (hf : ∀ t, Within k S (f t))
    (hk : 0 < k ∨ ∀ next, ¬ S next) : Within k S (Parser.current >>= f) :=
  fun s hs => .current (hf _ s hs) hk

theorem Within.check {mark : String} {f : Bool → Parser β} (hf : ∀ b, Within k S (f b))
    (hk : 0 < k ∨ ∀ next, ¬ S next) : Within k S (Parser.check mark >>= f) :=
  .look (fun _ => rfl) (fun _ _ _ _ h => congrArg (isMark mark) (current_moved _ _ h)) hf hk

theorem Within.checkWord {word : String} {f : Bool → Parser β} (hf : ∀ b, Within k S (f b))
    (hk : 0 < k ∨ ∀ next, ¬ S next) : Within k S (Parser.checkWord word >>= f) :=
  .look (fun _ => rfl)
    (fun _ _ _ _ h => congrArg (fun t => Text.sameWord t.text word) (current_moved _ _ h)) hf hk

theorem isEmpty_congr {rest rest' : List Token} (h : rest.head? = rest'.head?) :
    rest.isEmpty = rest'.isEmpty := by
  cases rest with
  | nil => rw [List.head?_eq_none_iff.mp h.symm]
  | cons t rest =>
    obtain ⟨behind, rfl⟩ := List.head?_eq_some_iff.mp h.symm
    rfl

theorem Within.atEnd {f : Bool → Parser β} (hf : ∀ b, Within k S (f b))
    (hk : 0 < k ∨ ∀ next, ¬ S next) : Within k S (Parser.atEnd >>= f) :=
  .look (fun _ => rfl) (fun _ _ _ _ h => isEmpty_congr h) hf hk

theorem Within.get {f : ParserState → Parser β} (hf : ∀ s, Within k S (f s))
    (hmoved : ∀ s rest read errors, f (s.moved rest read errors) = f s) :
    Within k S (MonadState.get >>= f) := by
  intro s hs
  have hget (s : ParserState) : (MonadState.get : Parser ParserState) s = .ok s s := rfl
  cases hf s s hs with
  | halts hrun htakes => exact .halts ((bind_ok (hget s)).trans hrun) htakes
  | ok hrun htakes hclean =>
    refine .ok ((bind_ok (hget s)).trans hrun) htakes fun hsame => ?_
    obtain ⟨hlength, hrepeats⟩ := hclean hsame
    refine ⟨hlength, fun more read errors hnext => ?_⟩
    rw [bind_ok (hget _), hmoved]
    exact hrepeats more read errors hnext

theorem WithinAt.optional {p : Parser Bool} {g : Token → Bool} {f : Bool → Parser β}
    (hp : Looks p g) (ht : g s.current = true → WithinAt (k + 1) S (f true) s)
    (hf : g s.current = false → WithinAt k S (f false) s)
    (hstops : ∀ next, S next → g (next.getD s.endToken) = false) :
    WithinAt k S (p >>= f) s := by
  cases hview : g s.current with
  | true =>
    have hcurrent : WithinAt (k + 1) S (p >>= f) s :=
      .look (g := fun s => g s.current) hp
        (fun _ _ _ _ h => congrArg g (current_moved _ _ h)) (by rw [hview]; exact ht hview)
        (.inl (Nat.succ_pos k))
    exact hcurrent.mono (Nat.le_succ k) fun _ h => h
  | false =>
    have hrun₀ : (p >>= f) s = f false s := by rw [bind_ok (hp s), hview]
    cases hf hview with
    | halts hrun htakes => exact .halts (hrun₀.trans hrun) htakes
    | @ok b u s' hrun htakes hclean =>
      refine .ok (hrun₀.trans hrun) htakes fun hsame => ?_
      obtain ⟨hlength, hrepeats⟩ := hclean hsame
      refine ⟨hlength, fun more read errors hnext => ?_⟩
      have hahead : g (s.moved (u ++ more) read errors).current = false := by
        by_cases hsame' : u ≠ [] ∨ more.head? = s'.rest.head?
        · rw [current_moved read errors (by rw [htakes.rest]; exact head?_append hsame')]
          exact hview
        · -- Nothing is taken, and another token comes behind.
          rw [not_or, not_not] at hsame'
          obtain ⟨rfl, hother⟩ := hsame'
          rw [ParserState.current_eq_getD]
          exact hstops _ (hnext.resolve_left hother)
      rw [bind_ok (hp _), hahead]
      exact hrepeats more read errors hnext

/-! ### Tokens -/

private theorem withinAt_advance (h : s.rest ≠ []) : WithinAt 1 S advance s := by
  obtain ⟨t, rest, hrest⟩ := List.exists_cons_of_ne_nil h
  exact .ok (advance_cons hrest) (ParserState.takes_cons hrest) fun _ =>
    ⟨Nat.le_refl 1, fun _ _ _ _ => rfl⟩

theorem within_advance : Within 0 Never advance := by
  intro s _
  by_cases h : s.rest = []
  · refine .ok (advance_nil h) (.refl s) fun _ => ⟨Nat.le_refl 0, fun more read errors hnext => ?_⟩
    rw [h] at hnext
    obtain rfl : more = [] := List.head?_eq_none_iff.mp (hnext.resolve_right id)
    exact advance_nil rfl
  · exact (withinAt_advance h).mono (Nat.zero_le 1) fun _ h => h

theorem WithinAt.step {f : Token → Parser β} (h : s.rest ≠ []) (hs : s.Cut)
    (hf : ∀ t, Within k S (f t)) : WithinAt (k + 1) S (advance >>= f) s :=
  (withinAt_advance h).bind (fun t _ s' htakes => hf t s' (hs.of_takes htakes))
    (Nat.le_of_eq (Nat.add_comm k 1)) fun _ _ h => h

theorem NoMark.getD {mark : String} {next : Option Token} (h : NoMark mark next)
    (s : ParserState) : isMark mark (next.getD s.endToken) = false := by
  cases next with
  | none => simp [isMark, Token.isMark, ParserState.endToken]
  | some t => exact h t rfl

theorem NoMark.current {mark : String} (h : NoMark mark s.rest.head?) :
    isMark mark s.current = false := by
  rw [ParserState.current_eq_getD]
  exact h.getD s

theorem within_consume {mark : String} : Within 0 (NoMark mark) (consume mark) := by
  intro s hs
  refine .optional (looks_check mark) (fun hmark => ?_) (fun _ => Within.pure false s hs)
    fun next hnext => hnext.getD s
  exact .step (isMark_ne_nil hmark) hs fun _ => .pure true

theorem within_expect {mark : String} : Within 1 S (expect mark) := by
  intro s hs
  rw [expect, Parser.consume, bind_assoc]
  refine .look (g := fun s => isMark mark s.current) (fun _ => rfl)
    (fun _ _ _ _ h => congrArg (isMark mark) (current_moved _ _ h)) ?_ (.inl Nat.one_pos)
  split
  next hmark =>
    rw [bind_assoc]
    exact .step (isMark_ne_nil hmark) hs fun _ => .pure _
  next => exact .halts rfl (.refl s)

theorem within_expectWord {word : String} : Within 1 S (expectWord word) := by
  intro s hs
  refine .current ?_ (.inl Nat.one_pos)
  split
  next hword =>
    have hrest : s.rest ≠ [] :=
      ParserState.rest_ne_nil (P := fun t => t.kind = .keyword) hword.1 (by simp)
    exact .step hrest hs fun _ => .pure _
  next => exact Within.fail s hs

theorem within_expectName : Within 1 S expectName := by
  intro s hs
  refine .current ?_ (.inl Nat.one_pos)
  split
  next hname => exact .step (name_ne_nil hname) hs fun _ => .pure _
  next => exact Within.fail s hs

theorem within_commaList {item : Parser α} (h : Within 1 S item)
    (hstops : ∀ next, S next → NoMark "," next) (fuel : Nat) :
    Within 1 S (commaList item fuel) := by
  induction fuel with
  | zero => exact within_stuck
  | succ fuel ih =>
    rw [commaList]
    refine h.bind fun first => ?_
    refine (within_consume.mono (Nat.le_refl 0) hstops).bind fun more => ?_
    exact .ite ((ih.mono (Nat.zero_le 1) fun _ h => h).bind fun _ => .pure _) (.pure _)

/-! ### Declarations -/

theorem within_dimension : Within 1 S dimension := by
  refine within_expect.bind fun _ => within_advance.andThen (j := 0) (fun t => ?_) (Nat.zero_le _)
  refine .get (fun s => ?_) fun _ _ _ _ => rfl
  split
  · exact .failAt
  · exact within_expect.bind fun _ => .ite .failAt (.pure _)

theorem within_dimensions : Within 0 (NoMark "[") dimensions := by
  intro s hs
  refine .optional (looks_check "[") (fun _ => ?_) (fun _ => Within.pure _ s hs)
    fun next hnext => hnext.getD s
  refine (within_dimension s hs).bind (j := 0) (fun first _ s' htakes => ?_) (Nat.le_refl 1)
    fun _ _ h => h
  refine .optional (looks_check "[") (fun _ => ?_)
    (fun _ => Within.pure _ s' (hs.of_takes htakes)) fun next hnext => hnext.getD s'
  exact (within_dimension.bind fun second => .pure _) s' (hs.of_takes htakes)

theorem within_variableName (type : VariableType) :
    Within 1 (NoMark "[") (variableName type) := by
  refine .current (fun t => ?_) (.inl Nat.one_pos)
  exact within_expectName.bind fun name => within_dimensions.bind fun sizes => .pure _

private theorem within_declaredBehind (fuel : Nat) (t : Token) :
    Within 2 S (declaredBehind fuel t) := by
  have htype (type : VariableType) : Within 2 S (do
      let decls ← commaList (variableName type) fuel
      expect ";"
      return decls) :=
    (within_commaList (within_variableName type).strict (fun _ => False.elim) fuel).andThen
      (fun decls => within_expect.bind fun _ => .pure _) (Nat.le_refl 2)
  rw [declaredBehind]
  split
  · split
    · exact (Within.pure _).bind htype
    · exact Within.bind (k := 0) .failAt htype
  · exact (Within.pure _).bind htype
  · exact Within.bind (k := 0) .failAt htype

theorem skipStorageWords_ok (s : ParserState) :
    skipStorageWords s = .ok () (s.moved (s.rest.dropWhile isStorageWord)
      (s.read + (s.rest.takeWhile isStorageWord).length) s.errors) :=
  rfl

private theorem within_skipStorageWords : Within 0 Never skipStorageWords := by
  intro s _
  refine .ok (skipStorageWords_ok s)
    ⟨List.takeWhile_append_dropWhile.symm, rfl, List.prefix_rfl, rfl⟩
    fun _ => ⟨Nat.zero_le _, fun more read errors hnext => ?_⟩
  have hhead : more.head? = (s.rest.dropWhile isStorageWord).head? := hnext.resolve_right id
  have hwords : ∀ t ∈ s.rest.takeWhile isStorageWord, isStorageWord t = true :=
    fun t ht => List.mem_takeWhile_imp ht
  have hbehind : more.dropWhile isStorageWord = more ∧ more.takeWhile isStorageWord = [] := by
    cases more with
    | nil => exact ⟨rfl, rfl⟩
    | cons t more =>
      have hnot := List.head?_dropWhile_not isStorageWord s.rest
      rw [← hhead, List.head?_cons] at hnot
      rw [List.dropWhile_cons, List.takeWhile_cons, hnot]
      exact ⟨rfl, rfl⟩
  rw [skipStorageWords_ok, ParserState.moved_rest, List.dropWhile_append_of_pos hwords,
    List.takeWhile_append_of_pos hwords, hbehind.1, hbehind.2, List.append_nil]
  rfl

theorem within_variableDecls (fuel : Nat) : Within 2 S (variableDecls fuel) := by
  rw [variableDecls_eq]
  exact (within_skipStorageWords.bind fun _ => within_advance).andThen (within_declaredBehind fuel)
    (Nat.le_refl 2)

/-! ### Expressions -/

private theorem within_chain {level : Level} {operand : Parser Expr} (h : Within 1 Never operand)
    (fuel : Nat) (left : Expr) : Within 0 Never (chain level operand fuel left) := by
  induction fuel generalizing left with
  | zero => exact within_stuck
  | succ fuel ih =>
    rw [chain]
    refine .current (fun t => ?_) never_stops
    split
    · exact within_advance.bind fun _ =>
        h.never.bind fun right => ih _
    · exact .pure left

private theorem within_binary {operand : Parser Expr} (h : Within 1 Never operand) (fuel : Nat)
    (table : List Level) : Within 1 Never (binary fuel operand table) := by
  induction table with
  | nil => exact h
  | cons level tighter ih =>
    rw [binary]
    exact ih.bind fun left => within_chain ih fuel left

section

variable {expr : Parser Expr} (h : Within 1 Never expr)

include h

private theorem within_arguments (fuel : Nat) : Within 0 Never (arguments fuel expr) := by
  refine .check (fun b => .ite (.pure _) ?_) never_stops
  exact (within_commaList h (fun _ => False.elim) fuel).never

private theorem within_indices : Within 1 Never (indices expr) := by
  have hless := h.never
  have hexpect : ∀ mark, Within 0 Never (expect mark) :=
    fun mark => within_expect.never (S := Never)
  refine within_expect.bind fun _ => hless.bind fun first => (hexpect "]").bind fun _ => ?_
  refine within_consume.never.bind fun more => ?_
  exact .ite (hless.bind fun second => (hexpect "]").bind fun _ => .pure _) (.pure _)

private theorem withinAt_named (fuel : Nat) (name : String) (hrest : s.rest ≠ []) (hs : s.Cut) :
    WithinAt 1 Never (named fuel expr name) s := by
  have hless := h.never
  have hexpect : ∀ mark, Within 0 Never (expect mark) :=
    fun mark => within_expect.never (S := Never)
  have hconsume : ∀ mark, Within 0 Never (Parser.consume mark) :=
    fun mark => within_consume.never
  refine .step hrest hs fun _ => (hconsume "(").bind fun called => .ite ?_ ?_
  · exact (within_arguments h fuel).bind fun args => (hexpect ")").bind fun _ => .pure _
  refine .check (fun b => .ite ?_ ?_) never_stops
  · exact (within_indices h).never.bind fun index => .pure _
  refine (hconsume ".").bind fun part => .ite ?_ (.pure _)
  refine (within_expectName.never (S := Never)).bind fun field => ?_
  refine (hconsume "[").bind fun more => .ite ?_ (.pure _)
  exact hless.bind fun index => (hexpect "]").bind fun _ => .pure _

private theorem within_atom (fuel : Nat) : Within 1 Never (atom fuel expr) := by
  intro s hs
  refine .current ?_ (.inl Nat.one_pos)
  have hrest : s.current.kind ≠ .endOfText → s.rest ≠ [] := fun hkind =>
    ParserState.rest_ne_nil (P := fun t => t.kind ≠ .endOfText) hkind (by simp)
  split
  case h_1 hkind =>
    refine .step (hrest (by simp [hkind])) hs fun _ => ?_
    split
    · exact .pure _
    · exact .failAt
  case h_2 hkind => exact .step (hrest (by simp [hkind])) hs fun _ => .pure _
  case h_3 hkind => exact withinAt_named h fuel _ (hrest (by simp [hkind])) hs
  case h_4 hkind => exact withinAt_named h fuel _ (hrest (by simp [hkind])) hs
  case h_5 =>
    split
    next hopen =>
      refine .step (hrest (by simp [hopen.1])) hs fun _ => ?_
      refine h.never.bind fun inner => ?_
      exact (within_expect.never (S := Never)).bind fun _ => .pure _
    next => exact Within.fail s hs

end

private theorem within_unary (fuel : Nat) : Within 1 Never (unary fuel) := by
  induction fuel with
  | zero => exact within_stuck
  | succ fuel ih =>
    rw [unary]
    refine .current (fun t => ?_) (.inl Nat.one_pos)
    split
    · exact within_advance.bind fun _ => ih.bind fun operand => .pure _
    · exact within_atom (within_binary ih fuel levels) fuel

theorem within_expression (fuel : Nat) : Within 1 Never (expression fuel) :=
  within_binary (within_unary fuel) fuel levels

theorem within_place (fuel : Nat) : Within 1 Never (place fuel) := by
  intro s hs
  refine .current ?_ (.inl Nat.one_pos)
  split
  next hname =>
    refine (withinAt_named (within_expression fuel) fuel _ (name_ne_nil hname) hs).bind (j := 0)
      (fun e _ s' htakes => ?_) (Nat.le_refl 1) fun _ _ h => h
    exact Within.ite (.pure e) .failAt s' (hs.of_takes htakes)
  next => exact Within.fail s hs

end Parser

end ControlLogic
