import ControlLogic.Program.Parser.Basic
import ControlLogic.Proofs.Token.Spelling

/-!
What readers do on tokens of known spellings. `Reads` says that a reader takes just these tokens off
the input and gives what is wanted, if the token behind them does not go on with what it reads. The
places of the tokens do not matter.
-/

set_option autoImplicit false
set_option relaxedAutoImplicit false

namespace ControlLogic

def Spelling.token (w : Spelling) : Token :=
  ⟨w.kind, w.text, .start⟩

namespace Parser

open Spelling

/-- The spelling of the first of some tokens, or of the end behind them. -/
def nextOf (tokens : List Token) : Spelling :=
  (tokens.map Token.spelling).headD finish

/-- On input that begins with tokens spelled `ws`, with a token behind them that satisfies `stops`,
the reader reads these tokens, changes nothing else and gives something that satisfies `post`. No
variable has been declared before in the body that is being read. -/
def Reads {α : Type} (p : Parser α) (ws : List Spelling) (stops : Spelling → Prop)
    (post : α → Prop) : Prop :=
  ∀ (s : ParserState) (ts more : List Token), s.locals = [] → s.rest = ts ++ more →
    ts.map Token.spelling = ws → stops (nextOf more) →
    ∃ a, post a ∧ p s = .ok a { s with rest := more, read := s.read + ws.length }

variable {α β : Type} {w : Spelling} {ws vs : List Spelling} {stops : Spelling → Prop}

theorem nextOf_append {ts more : List Token} (h : ts.map Token.spelling = ws) :
    nextOf (ts ++ more) = ws.headD (nextOf more) := by
  subst h
  cases ts with
  | nil => rfl
  | cons t ts => rfl

private theorem spelling_current (s : ParserState) : s.current.spelling = nextOf s.rest := by
  cases h : s.rest with
  | nil => simp [ParserState.current, h, nextOf, ParserState.endToken, Token.spelling, finish]
  | cons t ts => simp [ParserState.current, h, nextOf]

theorem bind_ok {p : Parser α} {f : α → Parser β} {s s' : ParserState} {a : α}
    (h : p s = .ok a s') : (p >>= f) s = f a s' := by
  change EStateM.bind p f s = _
  rw [EStateM.bind, h]

/-! ### Sequences -/

theorem Reads.pure {a : α} {post : α → Prop} (h : post a) :
    Reads (Pure.pure a) [] stops post := by
  intro s ts more hlocals hrest hts _
  obtain rfl : ts = [] := by simpa using hts
  refine ⟨a, h, ?_⟩
  rw [List.nil_append] at hrest
  subst hrest
  rfl

theorem Reads.bind {p : Parser α} {f : α → Parser β} {mid : Spelling → Prop} {post : α → Prop}
    {post' : β → Prop} (hp : Reads p ws mid post)
    (hf : ∀ a, post a → Reads (f a) vs stops post')
    (hmid : ∀ next, stops next → mid (vs.headD next)) :
    Reads (p >>= f) (ws ++ vs) stops post' := by
  intro s ts more hlocals hrest hts hstops
  obtain ⟨front, behind, rfl, hfront, hbehind⟩ := List.map_eq_append_iff.mp hts
  have hnext : mid (nextOf (behind ++ more)) := by
    rw [nextOf_append hbehind]
    exact hmid _ hstops
  rw [List.append_assoc] at hrest
  obtain ⟨a, ha, hread⟩ := hp s front (behind ++ more) hlocals hrest hfront hnext
  obtain ⟨b, hb, hread'⟩ := hf a ha { s with rest := behind ++ more, read := s.read + ws.length }
    behind more hlocals rfl hbehind hstops
  refine ⟨b, hb, ?_⟩
  rw [bind_ok hread, hread', List.length_append, ← Nat.add_assoc]

theorem Reads.andThen {p : Parser α} {f : α → Parser β} {post : α → Prop} {post' : β → Prop}
    (hp : Reads p ws (fun _ => True) post) (hf : ∀ a, post a → Reads (f a) vs stops post') :
    Reads (p >>= f) (ws ++ vs) stops post' :=
  .bind hp hf fun _ _ => trivial

theorem Reads.map {p : Parser α} {f : α → β} {post : α → Prop} {post' : β → Prop}
    (hp : Reads p ws stops post) (hf : ∀ a, post a → post' (f a)) :
    Reads (f <$> p) ws stops post' := by
  intro s ts more hlocals hrest hts hstops
  obtain ⟨a, ha, hread⟩ := hp s ts more hlocals hrest hts hstops
  refine ⟨f a, hf a ha, ?_⟩
  change EStateM.map f p s = _
  rw [EStateM.map, hread]

theorem Reads.mono {p : Parser α} {stops' : Spelling → Prop} {post post' : α → Prop}
    (hp : Reads p ws stops post) (hstops : ∀ next, stops' next → stops next)
    (hpost : ∀ a, post a → post' a) : Reads p ws stops' post' := by
  intro s ts more hlocals hrest hts hnext
  obtain ⟨a, ha, hread⟩ := hp s ts more hlocals hrest hts (hstops _ hnext)
  exact ⟨a, hpost a ha, hread⟩

/-! ### Looking at the next token -/

def Looks (p : Parser α) (view : Token → α) : Prop :=
  ∀ s : ParserState, p s = .ok (view s.current) s

theorem looks_current : Looks current id :=
  fun _ => rfl

theorem looks_check (mark : String) : Looks (check mark) (isMark mark) :=
  fun _ => rfl

theorem looks_checkWord (word : String) :
    Looks (checkWord word) (fun t => Text.sameWord t.text word) :=
  fun _ => rfl

theorem Reads.look {p : Parser α} {view : Token → α} {f : α → Parser β} {post : β → Prop}
    (hp : Looks p view)
    (hf : ∀ t next, stops next → t.spelling = ws.headD next → Reads (f (view t)) ws stops post) :
    Reads (p >>= f) ws stops post := by
  intro s ts more hlocals hrest hts hstops
  have hcurrent : s.current.spelling = ws.headD (nextOf more) := by
    rw [spelling_current, hrest, nextOf_append hts]
  rw [bind_ok (hp s)]
  exact hf s.current _ hstops hcurrent s ts more hlocals hrest hts hstops

theorem Reads.current {f : Token → Parser α} {post : α → Prop}
    (hf : ∀ t, t.spelling = w → Reads (f t) (w :: ws) stops post) :
    Reads (Parser.current >>= f) (w :: ws) stops post :=
  .look looks_current fun t _ _ ht => hf t ht

theorem Reads.check {mark : String} (b : Bool) {f : Bool → Parser α} {post : α → Prop}
    (hb : ∀ next, stops next → isMark mark (ws.headD next).token = b)
    (hf : Reads (f b) ws stops post) : Reads (Parser.check mark >>= f) ws stops post := by
  refine .look (looks_check mark) fun t next hnext ht => ?_
  have hview : isMark mark t = b := by
    rw [← hb next hnext, ← ht]
    rfl
  rw [hview]
  exact hf

theorem Reads.checkWord {word : String} (b : Bool) {f : Bool → Parser α} {post : α → Prop}
    (hb : ∀ next, stops next → Text.sameWord (ws.headD next).text word = b)
    (hf : Reads (f b) ws stops post) : Reads (Parser.checkWord word >>= f) ws stops post := by
  refine .look (looks_checkWord word) fun t next hnext ht => ?_
  have hview : Text.sameWord t.text word = b := by
    rw [← hb next hnext, ← ht]
    rfl
  rw [hview]
  exact hf

theorem Reads.atEnd {f : Bool → Parser α} {post : α → Prop}
    (hf : Reads (f false) (w :: ws) stops post) :
    Reads (Parser.atEnd >>= f) (w :: ws) stops post := by
  intro s ts more hlocals hrest hts hstops
  have hend : Parser.atEnd s = .ok false s := by
    cases ts with
    | nil => simp at hts
    | cons t ts =>
      have hempty : s.rest.isEmpty = false := by simp [hrest]
      rw [← hempty]
      rfl
  rw [bind_ok hend]
  exact hf s ts more hlocals hrest hts hstops

/-! ### Reading one token -/

theorem advance_cons {s : ParserState} {t : Token} {rest : List Token} (h : s.rest = t :: rest) :
    advance s = .ok t { s with rest := rest, read := s.read + 1 } := by
  obtain ⟨ts, finish, read, errors, structures, constants, locals⟩ := s
  obtain rfl : ts = t :: rest := h
  rfl

theorem Reads.advance : Reads Parser.advance [w] stops (fun t => t.spelling = w) := by
  intro s ts more hlocals hrest hts _
  obtain ⟨t, rfl, ht⟩ := List.map_eq_singleton_iff.mp hts
  exact ⟨t, ht, advance_cons hrest⟩

theorem Reads.step {f : Token → Parser α} {post : α → Prop}
    (hf : ∀ t, t.spelling = w → Reads (f t) ws stops post) :
    Reads (Parser.advance >>= f) (w :: ws) stops post :=
  Reads.andThen .advance hf

theorem Reads.consume {mark : String} (hw : isMark mark w.token = true) {f : Bool → Parser α}
    {post : α → Prop} (hf : Reads (f true) ws stops post) :
    Reads (Parser.consume mark >>= f) (w :: ws) stops post := by
  rw [Parser.consume, bind_assoc]
  refine .check true (fun _ _ => hw) ?_
  rw [if_pos rfl, bind_assoc]
  refine .step fun t _ => ?_
  rwa [pure_bind]

theorem Reads.consume_not {mark : String} {f : Bool → Parser α} {post : α → Prop}
    (hb : ∀ next, stops next → isMark mark (ws.headD next).token = false)
    (hf : Reads (f false) ws stops post) :
    Reads (Parser.consume mark >>= f) ws stops post := by
  rw [Parser.consume, bind_assoc]
  refine .check false hb ?_
  rwa [if_neg (by decide), pure_bind]

theorem Reads.expect {mark : String} (hw : isMark mark w.token = true) {f : Unit → Parser α}
    {post : α → Prop} (hf : Reads (f ()) ws stops post) :
    Reads (Parser.expect mark >>= f) (w :: ws) stops post := by
  rw [Parser.expect, bind_assoc]
  refine .consume hw ?_
  simpa using hf

theorem Reads.expectWord {word : String} (hkind : w.kind = .keyword)
    (hw : Text.sameWord w.text word = true) {f : Unit → Parser α} {post : α → Prop}
    (hf : Reads (f ()) ws stops post) :
    Reads (Parser.expectWord word >>= f) (w :: ws) stops post := by
  rw [Parser.expectWord, bind_assoc]
  refine .current fun t ht => ?_
  subst ht
  rw [if_pos ⟨hkind, hw⟩, bind_assoc]
  refine .step fun _ _ => ?_
  rwa [pure_bind]

theorem Reads.expectName (hw : w.token.isName = true) {f : String → Parser α} {post : α → Prop}
    (hf : Reads (f w.text) ws stops post) :
    Reads (Parser.expectName >>= f) (w :: ws) stops post := by
  rw [Parser.expectName, bind_assoc]
  refine .current fun t ht => ?_
  subst ht
  have hname : t.isName = true := hw
  rw [if_pos hname, bind_assoc]
  refine .step fun _ _ => ?_
  rwa [pure_bind]

/-! ### The start of a text -/

theorem ofTokens_unwords {ws : List Spelling} (h : ∀ w ∈ ws, w.Stands) :
    ∃ ts finish, ts.map Token.spelling = ws ∧
      ParserState.ofTokens (Token.scan (unwords ws)) = { rest := ts, finish := finish } := by
  obtain ⟨ts, last, hscan, hts, hlast⟩ := List.map_eq_append_iff.mp (map_spelling_scan h)
  obtain ⟨t, rfl, ht⟩ := List.map_eq_singleton_iff.mp hlast
  have hend : t.kind = .endOfText := congrArg Spelling.kind ht
  have hkinds : ∀ u ∈ ts, u.kind ∉ [TokenKind.comment, .newline, .endOfText] := by
    intro u hu
    have hmem : u.spelling ∈ ws := hts ▸ List.mem_map_of_mem hu
    exact (h _ hmem).1
  have hkept : (ts ++ [t]).filter (!·.isTrivia) = ts ++ [t] := by
    rw [List.filter_eq_self]
    intro u hu
    rcases List.mem_append.mp hu with hu | hu
    · have hkind := hkinds u hu
      simp only [List.mem_cons, not_or] at hkind
      simp [Token.isTrivia, hkind]
    · obtain rfl := List.mem_singleton.mp hu
      simp [Token.isTrivia, hend]
  have hbefore : (ts ++ [t]).takeWhile (·.kind != .endOfText) = ts := by
    rw [List.takeWhile_append_of_pos]
    · simp [hend]
    · intro u hu
      have hkind := hkinds u hu
      simp only [List.mem_cons, not_or] at hkind
      simp [hkind]
  exact ⟨ts, _, hts, by simp only [ParserState.ofTokens, hscan, hkept, hbefore]; rfl⟩

theorem Reads.run {p : Parser α} {post : α → Prop} {ts : List Token}
    (hp : Reads p ws stops post) (finish : Position) (hstops : stops Spelling.finish)
    (hts : ts.map Token.spelling = ws) :
    ∃ a, post a ∧ p { rest := ts, finish := finish } =
      .ok a { rest := [], finish := finish, read := ws.length } := by
  obtain ⟨a, ha, hread⟩ := hp { rest := ts, finish := finish } ts [] rfl (List.append_nil ts).symm
    hts hstops
  refine ⟨a, ha, ?_⟩
  rw [hread, Nat.zero_add]

end Parser

end ControlLogic
