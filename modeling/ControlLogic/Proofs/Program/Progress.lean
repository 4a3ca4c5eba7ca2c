import ControlLogic.Program.Parser.Declaration
import ControlLogic.Program.Parser.Expr
import ControlLogic.Proofs.Program.Reading

/-!
How far readers get. A reader never goes back; most of them read at least one token when they
succeed; and with more fuel than tokens left none of them halts for want of fuel, so that more fuel
changes nothing. Here this is shown of declarations and expressions.
-/

set_option autoImplicit false
set_option relaxedAutoImplicit false

namespace ControlLogic

/-- The second state comes from the first by reading on. -/
structure ParserState.Onward (s s' : ParserState) : Prop where
  suffix : s'.rest <:+ s.rest
  count : s'.read + s'.rest.length = s.read + s.rest.length

namespace ParserState

theorem Onward.refl (s : ParserState) : s.Onward s :=
  ⟨List.suffix_rfl, rfl⟩

theorem Onward.trans {s s₁ s₂ : ParserState} (h : s.Onward s₁) (h' : s₁.Onward s₂) :
    s.Onward s₂ :=
  ⟨h'.suffix.trans h.suffix, h'.count.trans h.count⟩

theorem Onward.length_le {s s' : ParserState} (h : s.Onward s') :
    s'.rest.length ≤ s.rest.length :=
  h.suffix.length_le

theorem Onward.read_lt_iff {s s' : ParserState} (h : s.Onward s') :
    s.read < s'.read ↔ s'.rest.length < s.rest.length := by
  have hcount := h.count
  omega

theorem Onward.read_eq_iff {s s' : ParserState} (h : s.Onward s') :
    s'.read = s.read ↔ s'.rest.length = s.rest.length := by
  have hcount := h.count
  omega

theorem rest_ne_nil {s : ParserState} {P : Token → Prop} (h : P s.current)
    (hend : ∀ pos, ¬ P ⟨.endOfText, "", pos⟩) : s.rest ≠ [] := by
  intro hrest
  rw [current, hrest] at h
  exact hend _ h

end ParserState

namespace Parser

variable {α β : Type} {n k : Nat} {s : ParserState} {p q : Parser α} {f g : α → Parser β}

/-- At a state the reader `p` succeeds and reads at least `k` tokens, or refuses what it finds; and
`q` does the same. -/
def GoesAt (k : Nat) (p q : Parser α) (s : ParserState) : Prop :=
  match p s with
  | .ok a s' => q s = .ok a s' ∧ s.Onward s' ∧ s'.rest.length + k ≤ s.rest.length
  | .error (.error e) s' => q s = .error (.error e) s' ∧ s.Onward s'
  | .error .stuck _ => False

/-- The readers do the same wherever fewer than `n` tokens are left, and read at least `k` of them
when they succeed. -/
def Goes (n k : Nat) (p q : Parser α) : Prop :=
  ∀ s : ParserState, s.rest.length < n → GoesAt k p q s

/-! ### Sequences -/

theorem GoesAt.ok {a : α} {s' : ParserState} (hp : p s = .ok a s') (hq : q s = .ok a s')
    (hon : s.Onward s') (hk : s'.rest.length + k ≤ s.rest.length) : GoesAt k p q s := by
  rw [GoesAt, hp]
  exact ⟨hq, hon, hk⟩

theorem GoesAt.cases (h : GoesAt k p q s) :
    (∃ a s', p s = .ok a s' ∧ q s = .ok a s' ∧ s.Onward s' ∧
      s'.rest.length + k ≤ s.rest.length) ∨
    ∃ e s', p s = .error (.error e) s' ∧ q s = .error (.error e) s' ∧ s.Onward s' := by
  rw [GoesAt] at h
  split at h
  case h_1 a s' hp => exact .inl ⟨a, s', hp, h.1, h.2.1, h.2.2⟩
  case h_2 e s' hp => exact .inr ⟨e, s', hp, h.1, h.2⟩
  case h_3 => exact h.elim

theorem GoesAt.ok_iff {a : α} {s' : ParserState} (h : GoesAt k p q s) :
    p s = .ok a s' ↔ q s = .ok a s' := by
  obtain ⟨b, s₁, hp, hq, -⟩ | ⟨e, s₁, hp, hq, -⟩ := h.cases
  · rw [hp, hq]
  · rw [hp, hq]

theorem GoesAt.refused {e : ParseError} {s' : ParserState} (hp : p s = .error (.error e) s')
    (hq : q s = .error (.error e) s') (hon : s.Onward s') : GoesAt k p q s := by
  rw [GoesAt, hp]
  exact ⟨hq, hon⟩

theorem bind_error {h : Halt} {s' : ParserState} (hp : p s = .error h s') :
    (p >>= f) s = .error h s' := by
  change EStateM.bind p f s = _
  rw [EStateM.bind, hp]

theorem bind_eq_ok {s' : ParserState} {b : β} (h : (p >>= f) s = .ok b s') :
    ∃ a s₁, p s = .ok a s₁ ∧ f a s₁ = .ok b s' := by
  cases hp : p s with
  | ok a s₁ => exact ⟨a, s₁, rfl, (bind_ok hp).symm.trans h⟩
  | error halt s₁ => cases (bind_error hp).symm.trans h

theorem GoesAt.bind {j i : Nat} (hp : GoesAt k p q s)
    (hf : ∀ a s', s'.rest.length + k ≤ s.rest.length → GoesAt j (f a) (g a) s')
    (hi : i ≤ k + j) : GoesAt i (p >>= f) (q >>= g) s := by
  obtain ⟨a, s₁, hp, hq, hon, hk⟩ | ⟨e, s₁, hp, hq, hon⟩ := hp.cases
  · obtain ⟨b, s₂, hfa, hga, hon', hj⟩ | ⟨e, s₂, hfa, hga, hon'⟩ := (hf a s₁ hk).cases
    · exact .ok ((bind_ok hp).trans hfa) ((bind_ok hq).trans hga) (hon.trans hon') (by omega)
    · exact .refused ((bind_ok hp).trans hfa) ((bind_ok hq).trans hga) (hon.trans hon')
  · exact .refused (bind_error hp) (bind_error hq) hon

theorem Goes.bind {i : Nat} (hp : Goes n k p q) (hf : ∀ a, Goes n (i - k) (f a) (g a)) :
    Goes n i (p >>= f) (q >>= g) := by
  intro s hs
  exact (hp s hs).bind (fun a s' hs' => hf a s' (by omega)) (by omega)

theorem Goes.descend (hp : Goes (n + 1) 1 p q) (hf : ∀ a, Goes n 0 (f a) (g a)) :
    Goes (n + 1) 1 (p >>= f) (q >>= g) := by
  intro s hs
  exact (hp s hs).bind (fun a s' hs' => hf a s' (by omega)) (by omega)

theorem GoesAt.mono {j : Nat} (h : GoesAt k p q s) (hj : j ≤ k) : GoesAt j p q s := by
  obtain ⟨a, s', hp, hq, hon, hk⟩ | ⟨e, s', hp, hq, hon⟩ := h.cases
  · exact .ok hp hq hon (by omega)
  · exact .refused hp hq hon

theorem Goes.mono {m j : Nat} (h : Goes n k p q) (hm : m ≤ n) (hj : j ≤ k) : Goes m j p q :=
  fun s hs => (h s (by omega)).mono hj

theorem Goes.pure (a : α) : Goes n 0 (Pure.pure a) (Pure.pure a) :=
  fun s _ => .ok rfl rfl (.refl s) (Nat.le_refl _)

theorem Goes.failAt {pos : Position} {cause : ParseCause} :
    Goes n k (Parser.failAt pos cause : Parser α) (Parser.failAt pos cause) :=
  fun s _ => .refused rfl rfl (.refl s)

theorem Goes.fail {cause : ParseCause} :
    Goes n k (Parser.fail cause : Parser α) (Parser.fail cause) :=
  fun s _ => .refused rfl rfl (.refl s)

theorem Goes.map {m : α → β} (hp : Goes n k p q) : Goes n k (m <$> p) (m <$> q) := by
  rw [← bind_pure_comp, ← bind_pure_comp]
  exact hp.bind fun a => (Goes.pure (m a)).mono (Nat.le_refl _) (by omega)

theorem GoesAt.look {a : α} (hp : p s = .ok a s) (hf : GoesAt k (f a) (g a) s) :
    GoesAt k (p >>= f) (p >>= g) s := by
  unfold GoesAt
  rw [bind_ok hp, bind_ok hp]
  exact hf

theorem GoesAt.current {f g : Token → Parser β} (hf : GoesAt k (f s.current) (g s.current) s) :
    GoesAt k (Parser.current >>= f) (Parser.current >>= g) s :=
  .look rfl hf

theorem Goes.note {step : ParserState → ParserState} (hrest : ∀ s, (step s).rest = s.rest)
    (hread : ∀ s, (step s).read = s.read) :
    Goes n 0 (modify step : Parser PUnit) (modify step) := by
  intro s _
  have hon : s.Onward (step s) := by
    constructor
    · exact ⟨[], hrest s⟩
    · rw [hrest, hread]
  have hlength := congrArg List.length (hrest s)
  exact .ok rfl rfl hon (by omega)

theorem Goes.ite {c : Prop} [Decidable c] {p' q' : Parser α} (h : c → Goes n k p q)
    (h' : ¬ c → Goes n k p' q') : Goes n k (if c then p else p') (if c then q else q') := by
  split
  · exact h ‹_›
  · exact h' ‹_›

/-! ### Tokens -/

theorem Goes.look {p : Parser α} {view : Token → α} (hp : Looks p view)
    (hf : ∀ a, Goes n k (f a) (g a)) : Goes n k (p >>= f) (p >>= g) :=
  fun s hs => .look (hp s) (hf _ s hs)

theorem Goes.current {f g : Token → Parser β} (hf : ∀ t, Goes n k (f t) (g t)) :
    Goes n k (Parser.current >>= f) (Parser.current >>= g) :=
  .look looks_current hf

theorem Goes.check {mark : String} {f g : Bool → Parser β} (hf : ∀ b, Goes n k (f b) (g b)) :
    Goes n k (Parser.check mark >>= f) (Parser.check mark >>= g) :=
  .look (looks_check mark) hf

theorem Goes.checkWord {word : String} {f g : Bool → Parser β}
    (hf : ∀ b, Goes n k (f b) (g b)) :
    Goes n k (Parser.checkWord word >>= f) (Parser.checkWord word >>= g) :=
  .look (looks_checkWord word) hf

theorem Goes.atEnd {f g : Bool → Parser β} (hf : ∀ b, Goes n k (f b) (g b)) :
    Goes n k (Parser.atEnd >>= f) (Parser.atEnd >>= g) :=
  fun s hs => .look rfl (hf _ s hs)

theorem Goes.get {f g : ParserState → Parser β} (hf : ∀ s, Goes n k (f s) (g s)) :
    Goes n k (MonadState.get >>= f) (MonadState.get >>= g) :=
  fun s hs => .look rfl (hf s s hs)

theorem advance_nil (h : s.rest = []) : advance s = .ok s.endToken s := by
  obtain ⟨ts, finish, read, errors, structures, constants, locals⟩ := s
  obtain rfl : ts = [] := h
  rfl

theorem onward_tail {t : Token} {rest : List Token} (h : s.rest = t :: rest) :
    s.Onward { s with rest := rest, read := s.read + 1 } := by
  constructor
  · rw [h]
    exact List.suffix_cons t rest
  · simp only [h, List.length_cons]
    omega

private theorem goesAt_advance (h : s.rest ≠ []) : GoesAt 1 advance advance s := by
  obtain ⟨t, rest, hrest⟩ := List.exists_cons_of_ne_nil h
  refine .ok (advance_cons hrest) (advance_cons hrest) (onward_tail hrest) ?_
  simp only [hrest, List.length_cons, Nat.le_refl]

theorem goes_advance : Goes n 0 advance advance := by
  intro s _
  by_cases h : s.rest = []
  · exact .ok (advance_nil h) (advance_nil h) (.refl s) (Nat.le_refl _)
  · exact (goesAt_advance h).mono (Nat.zero_le 1)

theorem GoesAt.step {f g : Token → Parser β} (h : s.rest ≠ []) (hs : s.rest.length < n + 1)
    (hf : ∀ t, Goes n 0 (f t) (g t)) : GoesAt 1 (advance >>= f) (advance >>= g) s :=
  (goesAt_advance h).bind (fun t s' hs' => hf t s' (by omega)) (Nat.le_refl 1)

theorem isMark_ne_nil {mark : String} (h : isMark mark s.current = true) : s.rest ≠ [] :=
  ParserState.rest_ne_nil (P := fun t => isMark mark t = true) h
    (by simp [isMark, Token.isMark])

theorem Goes.consume_descend {mark : String} {j : Nat} {f g : Bool → Parser β}
    (ht : Goes n j (f true) (g true)) (hf : Goes (n + 1) k (f false) (g false))
    (hk : k ≤ j + 1) : Goes (n + 1) k (Parser.consume mark >>= f) (Parser.consume mark >>= g) := by
  intro s hs
  rw [Parser.consume, bind_assoc, bind_assoc]
  refine .look (looks_check mark s) ?_
  by_cases hmark : isMark mark s.current = true
  · rw [if_pos hmark, bind_assoc, bind_assoc]
    refine (goesAt_advance (isMark_ne_nil hmark)).bind (fun t s' hs' => ?_)
      (by omega : k ≤ 1 + j)
    rw [pure_bind, pure_bind]
    exact ht s' (by omega)
  · rw [if_neg hmark, pure_bind, pure_bind]
    exact hf s hs

theorem Goes.consume {mark : String} {j : Nat} {f g : Bool → Parser β}
    (ht : Goes n j (f true) (g true)) (hf : Goes n k (f false) (g false)) (hk : k ≤ j + 1) :
    Goes n k (Parser.consume mark >>= f) (Parser.consume mark >>= g) := by
  cases n with
  | zero => exact fun s hs => absurd hs (Nat.not_lt_zero _)
  | succ n => exact .consume_descend (ht.mono (Nat.le_succ n) (Nat.le_refl j)) hf hk

theorem goes_consume {mark : String} : Goes n 0 (consume mark) (consume mark) := by
  rw [consume]
  refine .check fun b => .ite (fun _ => ?_) fun _ => .pure false
  exact goes_advance.bind fun _ => .pure true

theorem goes_expect {mark : String} : Goes n 1 (expect mark) (expect mark) := by
  rw [expect]
  refine .consume (.pure _) ?_ (Nat.le_refl 1)
  exact .current fun t => .fail

theorem goes_expectWord {word : String} : Goes n 1 (expectWord word) (expectWord word) := by
  intro s _
  rw [expectWord]
  refine .current ?_
  split
  · rename_i hword
    have hrest : s.rest ≠ [] :=
      ParserState.rest_ne_nil (P := fun t => t.kind = .keyword) hword.1 (by simp)
    exact (goesAt_advance hrest).bind (fun _ s' _ => Goes.pure _ s' (Nat.lt_succ_self _))
      (Nat.le_refl 1)
  · exact Goes.fail s (Nat.lt_succ_self _)

theorem name_ne_nil (h : s.current.isName = true) : s.rest ≠ [] :=
  ParserState.rest_ne_nil (P := fun t => t.isName = true) h (by simp [Token.isName])

theorem goes_expectName : Goes n 1 expectName expectName := by
  intro s _
  rw [expectName]
  refine .current ?_
  split
  · rename_i hname
    exact (goesAt_advance (name_ne_nil hname)).bind
      (fun _ s' _ => Goes.pure _ s' (Nat.lt_succ_self _)) (Nat.le_refl 1)
  · exact Goes.fail s (Nat.lt_succ_self _)

theorem goes_commaList {item item' : Parser α} {fuel fuel' : Nat} (h : Goes fuel 1 item item')
    (hfuel : fuel ≤ fuel') : Goes fuel 1 (commaList item fuel) (commaList item' fuel') := by
  have hloop : ∀ n n', n ≤ fuel → n ≤ n' → Goes n 1 (commaList item n) (commaList item' n') := by
    intro n
    induction n with
    | zero => exact fun n' _ _ s hs => absurd hs (Nat.not_lt_zero _)
    | succ n ih =>
      intro n' hn hn'
      obtain ⟨n', rfl⟩ : ∃ m, n' = m + 1 := ⟨n' - 1, by omega⟩
      rw [commaList, commaList]
      refine (h.mono hn (Nat.le_refl 1)).descend fun first => ?_
      refine .consume ?_ (.pure [first]) (Nat.zero_le 2)
      exact (ih n' (by omega) (by omega)).bind fun more => .pure (first :: more)
  exact hloop fuel fuel' (Nat.le_refl _) hfuel

/-! ### Going on behind a refusal -/

theorem skipItem_onward (ts : List Token) (count : Nat) :
    (skipItem ts count).1 <:+ ts ∧
      (skipItem ts count).2 + (skipItem ts count).1.length = count + ts.length := by
  fun_induction skipItem ts count with
  | case1 count => exact ⟨List.suffix_rfl, rfl⟩
  | case2 t rest count =>
    refine ⟨List.suffix_cons t rest, ?_⟩
    simp only [List.length_cons]
    omega
  | case3 t rest count => exact ⟨List.suffix_rfl, rfl⟩
  | case4 t rest count _ _ ih =>
    refine ⟨ih.1.trans (List.suffix_cons t rest), ?_⟩
    simp only [List.length_cons]
    omega

def behind (e : ParseError) (s : ParserState) : ParserState :=
  { s with errors := s.errors ++ [e], rest := (skipItem s.rest s.read).1,
           read := (skipItem s.rest s.read).2 }

theorem onward_behind (e : ParseError) (s : ParserState) : s.Onward (behind e s) :=
  ⟨(skipItem_onward s.rest s.read).1, (skipItem_onward s.rest s.read).2⟩

theorem recovering_apply (p : Parser α) (s : ParserState) :
    Parser.recovering p s =
      match p s with
      | .ok a s' => .ok (some a) s'
      | .error (.error e) s' => .ok none (behind e s')
      | .error .stuck s' => .error .stuck s' := by
  have hmap : (some <$> p) s =
      match p s with
      | .ok a s' => .ok (some a) s'
      | .error e s' => .error e s' := by
    change EStateM.map some p s = _
    rw [EStateM.map]
    cases p s <;> rfl
  rw [Parser.recovering]
  change EStateM.tryCatch (some <$> p) _ s = _
  delta EStateM.tryCatch
  simp only [hmap]
  obtain ⟨a, s'⟩ | ⟨e | _, s'⟩ := p s <;> rfl

theorem recovering_ok {a : α} {s' : ParserState} (h : p s = .ok a s') :
    recovering p s = .ok (some a) s' := by
  rw [recovering_apply, h]

theorem recovering_refused {e : ParseError} {s' : ParserState}
    (h : p s = .error (.error e) s') : recovering p s = .ok none (behind e s') := by
  rw [recovering_apply, h]

theorem recovering_stuck {s' : ParserState} (h : p s = .error .stuck s') :
    recovering p s = .error .stuck s' := by
  rw [recovering_apply, h]

theorem GoesAt.recovering (h : GoesAt k p q s) :
    ∃ a s', Parser.recovering p s = .ok a s' ∧ Parser.recovering q s = .ok a s' ∧ s.Onward s' := by
  obtain ⟨a, s', hp, hq, hon, _⟩ | ⟨e, s', hp, hq, hon⟩ := h.cases
  · exact ⟨some a, s', recovering_ok hp, recovering_ok hq, hon⟩
  · exact ⟨none, behind e s', recovering_refused hp, recovering_refused hq,
      hon.trans (onward_behind e s')⟩

/-! ### Declarations -/

variable {fuel fuel' : Nat}

private theorem goes_dimension : Goes n 1 dimension dimension := by
  rw [dimension]
  refine goes_expect.bind fun _ => goes_advance.bind fun t => .get fun s => ?_
  split
  · exact .failAt
  · refine goes_expect.bind fun _ => .ite (fun _ => .failAt) fun _ => .pure _

private theorem goes_dimensions : Goes n 0 dimensions dimensions := by
  rw [dimensions]
  refine .check fun b => .ite (fun _ => ?_) fun _ => .pure _
  refine goes_dimension.bind fun first => .check fun b => .ite (fun _ => ?_) fun _ => .pure _
  exact goes_dimension.bind fun second => .pure _

private theorem goes_signalName (type : SignalType) :
    Goes n 1 (signalName type) (signalName type) := by
  rw [signalName]
  refine goes_expectName.bind fun name => goes_dimensions.bind fun sizes => ?_
  refine .ite (fun _ => ?_) fun _ => .pure _
  split <;> exact .pure _

theorem goes_signalDecl (h : fuel ≤ fuel') : Goes fuel 1 (signalDecl fuel) (signalDecl fuel') := by
  rw [signalDecl, signalDecl]
  refine goes_advance.bind fun t => ?_
  split
  · exact .failAt
  · refine (goes_commaList (goes_signalName _) h).bind fun names => ?_
    exact goes_expect.bind fun _ => .pure _

private theorem goes_variableName (type : VariableType) :
    Goes n 1 (variableName type) (variableName type) := by
  rw [variableName]
  refine .current fun t => goes_expectName.bind fun name => ?_
  exact goes_dimensions.bind fun sizes => .pure _

theorem onward_while (keeps : Token → Bool) (s : ParserState) :
    s.Onward { s with rest := s.rest.dropWhile keeps,
                      read := s.read + (s.rest.takeWhile keeps).length } := by
  have hsplit : (s.rest.takeWhile keeps).length + (s.rest.dropWhile keeps).length =
      s.rest.length := by
    rw [← List.length_append, List.takeWhile_append_dropWhile]
  constructor
  · exact List.dropWhile_suffix _
  · change s.read + (s.rest.takeWhile keeps).length + (s.rest.dropWhile keeps).length = _
    omega

theorem goes_skipStorageWords : Goes n 0 skipStorageWords skipStorageWords :=
  fun s _ => .ok rfl rfl (onward_while isStorageWord s) (onward_while isStorageWord s).length_le

def declares (s : ParserState) : Bool :=
  s.current.kind == .variableType || isStorageWord s.current ||
    (s.current.kind == .identifier && s.isStructure s.current.text &&
      s.following.kind == .identifier)

theorem startsVariableDecl_ok (s : ParserState) :
    startsVariableDecl s = .ok (declares s) s := by
  have hrun : startsVariableDecl s =
      (if s.current.kind == .variableType || isStorageWord s.current then pure true
        else startsInstance : Parser Bool) s := rfl
  rw [hrun, declares]
  split
  · rename_i htype
    rw [htype]
    rfl
  · rename_i htype
    rw [Bool.not_eq_true] at htype
    rw [htype]
    rfl

/-- What follows the token of the type in a declaration of variables. -/
def declaredBehind (fuel : Nat) (t : Token) : Parser (List VariableDecl) := do
  let type ←
    match t.kind with
    | .variableType =>
      match VariableType.ofWord? t.text with
      | some type => pure type
      | none => failAt t.pos .unknownVariableType
    | .identifier => pure (.instanceOf t.text)
    | _ => failAt t.pos (.expectedType t.text)
  let decls ← commaList (variableName type) fuel
  expect ";"
  return decls

theorem variableDecls_eq (fuel : Nat) :
    variableDecls fuel = (skipStorageWords >>= fun _ => advance) >>= declaredBehind fuel := by
  rw [bind_assoc]
  rfl

theorem goes_declaredBehind (h : fuel ≤ fuel') (t : Token) :
    Goes fuel 1 (declaredBehind fuel t) (declaredBehind fuel' t) := by
  rw [declaredBehind, declaredBehind]
  have htype : ∀ type : VariableType,
      Goes fuel 1 (do let decls ← commaList (variableName type) fuel; expect ";"; return decls)
        (do let decls ← commaList (variableName type) fuel'; expect ";"; return decls) := by
    intro type
    refine (goes_commaList (goes_variableName type) h).bind fun decls => ?_
    exact goes_expect.bind fun _ => .pure _
  split
  · split
    · exact (Goes.pure _).bind htype
    · exact Goes.bind (k := 0) .failAt htype
  · exact (Goes.pure _).bind htype
  · exact Goes.bind (k := 0) .failAt htype

theorem goes_variableDecls (h : fuel ≤ fuel') :
    Goes fuel 1 (variableDecls fuel) (variableDecls fuel') := by
  rw [variableDecls_eq, variableDecls_eq]
  exact (goes_skipStorageWords.bind fun _ => goes_advance).bind (goes_declaredBehind h)

/-! ### Expressions -/

theorem binaryOp?_of_text {level : Level} (hlevel : level ∈ levels) {t : Token}
    (h : t.text = "(" ∨ t.text = ";") : binaryOp? level t = none := by
  have hspelled : ∀ level ∈ levels, ∀ text ∈ ["(", ";"],
      level.find? (Text.sameWord text ·.1) = none := by
    decide +kernel
  rw [binaryOp?, hspelled level hlevel t.text (by simpa using h)]
  split <;> rfl

private theorem goes_chain {level : Level} {operand operand' : Parser Expr}
    (h : Goes fuel 1 operand operand') (hfuel : fuel ≤ fuel') (left : Expr) :
    Goes fuel 0 (chain level operand fuel left) (chain level operand' fuel' left) := by
  have hloop : ∀ n n' left, n ≤ fuel → n ≤ n' →
      Goes n 0 (chain level operand n left) (chain level operand' n' left) := by
    intro n
    induction n with
    | zero => exact fun n' _ _ _ s hs => absurd hs (Nat.not_lt_zero _)
    | succ n ih =>
      intro n' left hn hn' s hs
      obtain ⟨n', rfl⟩ : ∃ m, n' = m + 1 := ⟨n' - 1, by omega⟩
      rw [chain, chain]
      refine .current ?_
      split
      · rename_i op hop
        have hrest : s.rest ≠ [] :=
          ParserState.rest_ne_nil (P := fun t => binaryOp? level t = some op) hop
            (by simp [binaryOp?])
        refine (GoesAt.step hrest hs fun _ => ?_).mono (Nat.zero_le 1)
        refine (h.mono (by omega) (Nat.le_refl 1)).bind fun right => ?_
        exact ih n' _ (by omega) (by omega)
      · exact Goes.pure left s hs
  exact hloop fuel fuel' left (Nat.le_refl _) hfuel

private theorem goes_binary {operand operand' : Parser Expr} (h : Goes fuel 1 operand operand')
    (hfuel : fuel ≤ fuel') (table : List Level) :
    Goes fuel 1 (binary fuel operand table) (binary fuel' operand' table) := by
  induction table with
  | nil => exact h
  | cons level tighter ih =>
    rw [binary, binary]
    exact ih.bind fun left => goes_chain ih hfuel left

section

variable {expr expr' : Parser Expr} (h : Goes fuel 1 expr expr')

include h

private theorem goes_arguments (hfuel : fuel ≤ fuel') :
    Goes fuel 0 (arguments fuel expr) (arguments fuel' expr') := by
  rw [arguments, arguments]
  refine .check fun b => .ite (fun _ => .pure _) fun _ => ?_
  exact (goes_commaList h hfuel).mono (Nat.le_refl _) (Nat.zero_le 1)

private theorem goes_indices : Goes fuel 1 (indices expr) (indices expr') := by
  rw [indices, indices]
  refine goes_expect.bind fun _ => h.bind fun first => goes_expect.bind fun _ => ?_
  refine .consume (h.bind fun second => ?_) (.pure _) (Nat.zero_le 1)
  exact goes_expect.bind fun _ => .pure _

private theorem goesAt_named (hfuel : fuel ≤ fuel') (name : String) (hrest : s.rest ≠ [])
    (hs : s.rest.length < fuel + 1) :
    GoesAt 1 (named fuel expr name) (named fuel' expr' name) s := by
  rw [named, named]
  refine .step hrest hs fun _ => .consume ?_ ?_ (Nat.zero_le 1)
  · refine (goes_arguments h hfuel).bind fun args => ?_
    exact goes_expect.bind fun _ => .pure _
  refine .check fun b => .ite (fun _ => (goes_indices h).bind fun index => .pure _) fun _ => ?_
  refine .consume (j := 0) ?_ (.pure _) (Nat.zero_le 1)
  refine goes_expectName.bind fun field => .consume ?_ (.pure _) (Nat.zero_le 1)
  exact h.bind fun index => goes_expect.bind fun _ => .pure _

private theorem goes_atom (hfuel : fuel ≤ fuel') :
    Goes (fuel + 1) 1 (atom fuel expr) (atom fuel' expr') := by
  intro s hs
  rw [atom, atom]
  refine .current ?_
  have hrest : s.current.kind ≠ .endOfText → s.rest ≠ [] := fun hkind =>
    ParserState.rest_ne_nil (P := fun t => t.kind ≠ .endOfText) hkind (by simp)
  split
  case h_1 hkind =>
    refine .step (hrest (by simp [hkind])) hs fun _ => ?_
    split
    · exact .pure _
    · exact .failAt
  case h_2 hkind => exact .step (hrest (by simp [hkind])) hs fun _ => .pure _
  case h_3 hkind => exact goesAt_named h hfuel _ (hrest (by simp [hkind])) hs
  case h_4 hkind => exact goesAt_named h hfuel _ (hrest (by simp [hkind])) hs
  case h_5 =>
    split
    · rename_i hopen
      refine .step (hrest (by simp [hopen.1])) hs fun _ => h.bind fun inner => ?_
      exact goes_expect.bind fun _ => .pure _
    · exact Goes.fail s hs

end

private theorem goes_unary (h : fuel ≤ fuel') : Goes fuel 1 (unary fuel) (unary fuel') := by
  induction fuel generalizing fuel' with
  | zero => exact fun s hs => absurd hs (Nat.not_lt_zero _)
  | succ fuel ih =>
    obtain ⟨fuel', rfl⟩ : ∃ m, fuel' = m + 1 := ⟨fuel' - 1, by omega⟩
    have hless : fuel ≤ fuel' := by omega
    intro s hs
    rw [unary, unary]
    refine .current ?_
    split
    · rename_i op hop
      have hrest : s.rest ≠ [] :=
        ParserState.rest_ne_nil (P := fun t => unaryOp? t = some op) hop (by simp [unaryOp?])
      refine .step hrest hs fun _ => ?_
      exact (ih hless).bind fun operand => .pure _
    · exact goes_atom (goes_binary (ih hless) hless levels) hless s hs

theorem goes_expression (h : fuel ≤ fuel') : Goes fuel 1 (expression fuel) (expression fuel') :=
  goes_binary (goes_unary h) h levels

theorem goes_place (h : fuel ≤ fuel') : Goes fuel 1 (place fuel) (place fuel') := by
  intro s hs
  rw [place, place]
  refine .current ?_
  split
  · rename_i hname
    refine GoesAt.bind (j := 0)
      (goesAt_named (goes_expression h) h _ (name_ne_nil hname) (by omega))
      (fun e s' hs' => ?_) (Nat.le_refl 1)
    exact Goes.ite (fun _ => .pure e) (fun _ => .failAt) s' (Nat.lt_succ_self _)
  · exact Goes.fail s hs

end Parser

end ControlLogic
