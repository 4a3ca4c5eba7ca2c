import ControlLogic.Program.Parser.Unit
import ControlLogic.Proofs.Program.ExprReading

/-!
Expressions and their texts. The text of an expression is read back as the expression, and every
expression that is read from a text can be written.
-/

set_option autoImplicit false
set_option relaxedAutoImplicit false

namespace ControlLogic

open Spelling

namespace Parser

open ControlLogic.Expr

variable {fuel : Nat}

/-! ### What reading gives can be written -/

/-- What holds of every token of a text: names are single tokens, and numerals are not negative. -/
def Genuine (t : Token) : Prop :=
  (t.isName = true → IsName t.text) ∧
    (t.kind = .number → ∀ n, Token.literalNumber? t.text = some n → 0 ≤ n)

theorem genuine_of_mem_scan {text : String} {t : Token} (h : t ∈ Token.scan text) : Genuine t := by
  refine ⟨fun hname => ?_, fun hkind n hn => nonneg_of_mem_scan h hkind hn⟩
  obtain ⟨hword, hkind⟩ := isWord_of_mem_scan h hname
  refine isName_iff.mpr ⟨hword, ?_⟩
  rw [Token.isName, hkind] at hname
  exact hname

/-- On genuine tokens the reader gives what satisfies `post`, and leaves genuine tokens. -/
def Gives {α : Type} (p : Parser α) (post : α → Prop) : Prop :=
  ∀ (s : ParserState) (a : α) (s' : ParserState), (∀ t ∈ s.rest, Genuine t) → p s = .ok a s' →
    post a ∧ ∀ t ∈ s'.rest, Genuine t

section Gives

variable {α β : Type} {post : α → Prop}

theorem Gives.pure {a : α} (h : post a) : Gives (Pure.pure a) post := by
  rintro s b s' hs ⟨⟩
  exact ⟨h, hs⟩

theorem Gives.bind {p : Parser α} {f : α → Parser β} {post' : β → Prop} (hp : Gives p post)
    (hf : ∀ a, post a → Gives (f a) post') : Gives (p >>= f) post' := by
  intro s b s' hs hrun
  change EStateM.bind p f s = _ at hrun
  rw [EStateM.bind] at hrun
  split at hrun
  · rename_i a s₁ hread
    obtain ⟨ha, hs₁⟩ := hp s a s₁ hs hread
    exact hf a ha s₁ b s' hs₁ hrun
  · cases hrun

theorem Gives.fail {cause : ParseCause} : Gives (Parser.fail cause) post := by
  rintro s a s' _ ⟨⟩

theorem Gives.failAt {pos : Position} {cause : ParseCause} :
    Gives (Parser.failAt pos cause) post := by
  rintro s a s' _ ⟨⟩

theorem Gives.stuck : Gives Parser.stuck post := by
  rintro s a s' _ ⟨⟩

private theorem genuine_current {s : ParserState} (h : ∀ t ∈ s.rest, Genuine t) :
    Genuine s.current := by
  cases hrest : s.rest with
  | nil =>
    have hend : s.current = s.endToken := by simp [ParserState.current, hrest]
    rw [hend]
    constructor
    · intro hname
      cases hname
    · intro hkind
      cases hkind
  | cons t rest =>
    have hhead : s.current = t := by simp [ParserState.current, hrest]
    rw [hhead]
    exact h t (by simp [hrest])

theorem Gives.look {p : Parser α} {view : Token → α} (hp : Looks p view)
    (h : ∀ t, Genuine t → post (view t)) : Gives p post := by
  intro s a s' hs hrun
  rw [hp s] at hrun
  cases hrun
  exact ⟨h _ (genuine_current hs), hs⟩

theorem Gives.current : Gives Parser.current Genuine :=
  .look looks_current fun _ h => h

theorem Gives.check (mark : String) : Gives (Parser.check mark) (fun _ => True) :=
  .look (looks_check mark) fun _ _ => trivial

theorem Gives.advance : Gives Parser.advance (fun _ => True) := by
  intro s a s' hs hrun
  refine ⟨trivial, ?_⟩
  cases hrest : s.rest with
  | nil =>
    have hstay : Parser.advance s = .ok s.endToken s := by
      obtain ⟨ts, finish, read, errors, structures, constants, locals⟩ := s
      obtain rfl : ts = [] := hrest
      rfl
    rw [hstay] at hrun
    cases hrun
    exact hs
  | cons t rest =>
    rw [advance_cons hrest] at hrun
    cases hrun
    exact fun u hu => hs u (by rw [hrest]; exact List.mem_cons_of_mem _ hu)

theorem Gives.consume (mark : String) : Gives (Parser.consume mark) (fun _ => True) := by
  rw [Parser.consume]
  refine .bind (.check mark) fun b _ => ?_
  split
  · exact .bind .advance fun _ _ => .pure trivial
  · exact .pure trivial

theorem Gives.expect (mark : String) : Gives (Parser.expect mark) (fun _ => True) := by
  rw [Parser.expect]
  refine .bind (.consume mark) fun b _ => ?_
  split
  · exact .pure trivial
  · exact .bind .current fun _ _ => .fail

theorem Gives.expectName : Gives Parser.expectName IsName := by
  rw [Parser.expectName]
  refine .bind .current fun t ht => ?_
  split
  · rename_i hname
    exact .bind .advance fun _ _ => .pure (ht.1 hname)
  · exact .fail

end Gives

private theorem gives_commaList {expr : Parser Expr} (h : Gives expr Canonical) (n : Nat) :
    Gives (commaList expr n) (fun args => ∀ e ∈ args, Canonical e) := by
  induction n with
  | zero => exact .stuck
  | succ n ih =>
    rw [commaList]
    refine .bind h fun e he => .bind (.consume ",") fun b _ => ?_
    split
    · refine .bind ih fun es hes => .pure ?_
      simpa using ⟨he, hes⟩
    · exact .pure (by simpa using he)

private theorem gives_arguments {expr : Parser Expr} (h : Gives expr Canonical) :
    Gives (arguments fuel expr) (fun args => ∀ e ∈ args, Canonical e) := by
  rw [arguments]
  refine .bind (.check ")") fun b _ => ?_
  split
  · exact .pure (by simp)
  · exact gives_commaList h fuel

def IsIndex (e : Expr) : Prop :=
  Canonical e ∨ ∃ row column, e = .binary .pair row column ∧ Canonical row ∧ Canonical column

private theorem gives_indices {expr : Parser Expr} (h : Gives expr Canonical) :
    Gives (indices expr) IsIndex := by
  rw [indices]
  refine .bind (.expect "[") fun _ _ => .bind h fun row hrow => .bind (.expect "]") fun _ _ => ?_
  refine .bind (.consume "[") fun b _ => ?_
  split
  · refine .bind h fun column hcolumn => .bind (.expect "]") fun _ _ => .pure ?_
    exact Or.inr ⟨row, column, rfl, hrow, hcolumn⟩
  · exact .pure (Or.inl hrow)

theorem gives_named {expr : Parser Expr} (h : Gives expr Canonical) {id : String}
    (hid : IsName id) : Gives (named fuel expr id) Canonical := by
  rw [named]
  refine .bind .advance fun _ _ => .bind (.consume "(") fun b _ => ?_
  split
  · refine .bind (gives_arguments h) fun args hargs => .bind (.expect ")") fun _ _ => .pure ?_
    exact .call hid hargs
  refine .bind (.check "[") fun b _ => ?_
  split
  · refine .bind (gives_indices h) fun index hindex => .pure ?_
    rcases hindex with hindex | ⟨row, column, rfl, hrow, hcolumn⟩
    · exact .element hid hindex
    · exact .grid hid hrow hcolumn
  refine .bind (.consume ".") fun b _ => ?_
  split
  · refine .bind .expectName fun part hpart => .bind (.consume "[") fun b _ => ?_
    split
    · refine .bind h fun index hindex => .bind (.expect "]") fun _ _ => .pure ?_
      exact .field hid hpart (by simpa using hindex)
    · exact .pure (.field hid hpart (by simp))
  · exact .pure (.name hid)

theorem canonical_literal {t : Token} (ht : Genuine t) (hkind : t.kind = .number) {n : Int}
    (hn : Token.literalNumber? t.text = some n) : Canonical (.number n) := by
  have hnonneg := ht.2 hkind n hn
  have hword : Number.InWord n := by
    have hfilter : ∀ m : Option Int, (m.filter (decide <| Number.InWord ·)) = some n →
        Number.InWord n := by
      intro m hm
      exact of_decide_eq_true (Option.filter_eq_some_iff.mp hm).2
    unfold Token.literalNumber? Number.word? at hn
    split at hn <;> exact hfilter _ hn
  unfold Number.InWord at hword
  exact .number (by omega) (by omega)

private theorem gives_atom {expr : Parser Expr} (h : Gives expr Canonical) :
    Gives (atom fuel expr) Canonical := by
  rw [atom]
  refine .bind .current fun t ht => ?_
  split
  · rename_i hkind
    refine .bind .advance fun _ _ => ?_
    split
    · rename_i n hn
      exact .pure (canonical_literal ht hkind hn)
    · exact .failAt
  · exact .bind .advance fun _ _ => .pure (.text _)
  · rename_i hkind
    exact gives_named h (ht.1 (by simp [Token.isName, hkind]))
  · rename_i hkind
    exact gives_named h (ht.1 (by simp [Token.isName, hkind]))
  · split
    · refine .bind .advance fun _ _ => .bind h fun e he => ?_
      exact .bind (.expect ")") fun _ _ => .pure he
    · exact .fail

private theorem canonical_applyUnary {op : UnaryOp} {operand : Expr} (h : Canonical operand) :
    Canonical (applyUnary op operand) := by
  unfold applyUnary
  split
  · cases h with
    | number low high => exact .number (by omega) (by omega)
  · rename_i hnot
    refine .unary ?_ h
    rintro rfl n rfl
    exact hnot n rfl rfl

private theorem gives_chain {entries : Level} {operand : Parser Expr} (hentries : entries ∈ levels)
    (h : Gives operand Canonical) (n : Nat) {left : Expr} (hleft : Canonical left) :
    Gives (chain entries operand n left) Canonical := by
  induction n generalizing left with
  | zero => exact .stuck
  | succ n ih =>
    rw [chain]
    refine .bind .current fun t _ => ?_
    split
    · rename_i op hop
      refine .bind .advance fun _ _ => .bind h fun right hright => ih (.binary ?_ hleft hright)
      -- No level has the joining of two indices.
      have htable : ∀ entries ∈ levels, ∀ entry ∈ entries, entry.2 ≠ BinaryOp.pair := by decide
      unfold binaryOp? at hop
      split at hop
      · obtain ⟨entry, hentry, rfl⟩ := Option.map_eq_some_iff.mp hop
        exact htable entries hentries entry (List.mem_of_find?_eq_some hentry)
      · cases hop
    · exact .pure hleft

theorem gives_binary {operand : Parser Expr} (h : Gives operand Canonical) {table : List Level}
    (htable : ∀ entries ∈ table, entries ∈ levels) :
    Gives (binary fuel operand table) Canonical := by
  induction table with
  | nil => exact h
  | cons entries tighter ih =>
    have htighter := ih fun x hx => htable x (List.mem_cons_of_mem _ hx)
    rw [binary]
    refine .bind htighter fun left hleft => ?_
    exact gives_chain (htable entries List.mem_cons_self) htighter fuel hleft

theorem gives_unary (n : Nat) : Gives (unary n) Canonical := by
  induction n with
  | zero => exact .stuck
  | succ n ih =>
    rw [unary]
    refine .bind .current fun t _ => ?_
    split
    · exact .bind .advance fun _ _ => .bind ih fun e he => .pure (canonical_applyUnary he)
    · exact gives_atom (gives_binary ih fun _ hx => hx)

private theorem canonical_of_expressionOf {text : String} {e : Expr}
    (h : expressionOf text = .ok e) :
    Canonical e := by
  have hstart : ∀ t ∈ (ParserState.ofTokens (Token.scan text)).rest, Genuine t := by
    intro t ht
    have hmem := List.mem_filter.mp ((List.takeWhile_subset _) ht)
    exact genuine_of_mem_scan hmem.1
  unfold expressionOf at h
  dsimp only at h
  split at h
  · rename_i e' s hread
    cases h
    exact (gives_binary (gives_unary _) (fun _ hx => hx) _ _ _ hstart hread).1
  · cases h

/-- Whatever spellings are chosen, the printed form of every expression that can be written is read
as the expression, up to the end; and every expression that is read from a text can be written. -/
theorem expressions_read_back :
    (∀ (style : Style) (e : Expr), Canonical e →
      let start := ParserState.ofTokens (Token.scan (e.print style))
      ∃ s, expression start.fuel start = .ok e s ∧ s.rest = []) ∧
    ∀ (text : String) (e : Expr), expressionOf text = .ok e → Canonical e := by
  refine ⟨fun style e he => ?_, fun text e => canonical_of_expressionOf⟩
  have hstands : ∀ w ∈ e.words style, w.Stands := he.stands
  obtain ⟨ts, finish, hts, hstart⟩ := ofTokens_unwords hstands
  have hlength : ts.length = (e.words style).length := by rw [← hts, List.length_map]
  have hread : Reads (expression (ts.length + 1)) (e.words style) (StopsAt 0) (· = e) :=
    (readBack_of_canonical he).expression (by omega)
  obtain ⟨e', rfl, hrun⟩ := hread.run finish stopsAt_finish hts
  intro start
  have hstart' : start = { rest := ts, finish := finish } := hstart
  rw [hstart']
  exact ⟨_, hrun, rfl⟩

/-- Operators of one level on both sides, an operator before an operand with a level, the negative
of a numeral, a grid element, a field, a call and an escaped text. -/
theorem mixed_expression_reads_back :
    let e : Expr := .binary .sub (.binary .mod (.name "x") (.number (-5)))
      (.binary .sub (.element "g" (.binary .pair (.number 1) (.field "s" "p" none)))
        (.unary .not (.binary .eq (.text "a\"b") (.call "f" [.name "x", .number 2]))))
    Canonical e ∧
      let start := ParserState.ofTokens (Token.scan (e.print .last))
      ∃ s, expression start.fuel start = .ok e s ∧ s.rest = [] := by
  have hletters : ∀ id ∈ ["x", "g", "s", "p", "f"], IsName id := by
    intro id hid
    simp only [List.mem_cons, List.not_mem_nil, or_false] at hid
    rcases hid with rfl | rfl | rfl | rfl | rfl <;>
      exact isName_letter ⟨_, [], rfl, by decide, by simp⟩ rfl
  simp only [List.forall_mem_cons] at hletters
  obtain ⟨hx, hg, hs, hp, hf, -⟩ := hletters
  have hnumber : ∀ n : Int, -5 ≤ n → n ≤ 2 → Canonical (.number n) :=
    fun n hlow hhigh => .number (by omega) (by omega)
  have hindices : Canonical (.element "g" (.binary .pair (.number 1) (.field "s" "p" none))) :=
    .grid hg (hnumber 1 (by decide) (by decide)) (.field hs hp (by simp))
  have hcall : Canonical (.call "f" [.name "x", .number 2]) := by
    refine .call hf ?_
    simpa using ⟨.name hx, hnumber 2 (by decide) (by decide)⟩
  intro e
  have he : Canonical e := by
    refine .binary (by decide)
      (.binary (by decide) (.name hx) (hnumber _ (by decide) (by decide))) ?_
    refine .binary (by decide) hindices (.unary (by simp) ?_)
    exact .binary (by decide) (.text _) hcall
  exact ⟨he, expressions_read_back.1 .last e he⟩

example : (Expr.binary .sub (.binary .sub (.name "a") (.name "b"))
    (.unary .not (.binary .sub (.name "c") (.number (-1))))).print .last =
      "a - b - NOT ( c - - 1 )" := by
  decide +kernel

end Parser

end ControlLogic
