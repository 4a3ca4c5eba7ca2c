import ControlLogic.Proofs.Program.ExprText

/-!
Reading expressions that were written. Operators of one level are read in a chain, whose first
operand may be a chain of the same level itself; every other operand is tighter or stands in
parentheses.
-/

set_option autoImplicit false
set_option relaxedAutoImplicit false

namespace ControlLogic

open Spelling

namespace Parser

open ControlLogic.Expr

/-- A token that goes on with no expression whose operators stand on the levels from the given one
on. -/
def StopsAt (level : Nat) (w : Spelling) : Prop :=
  (∀ entries ∈ levels.drop level, binaryOp? entries w.token = none) ∧
    ∀ mark ∈ ["(", "[", "."], isMark mark w.token = false

instance (level : Nat) (w : Spelling) : Decidable (StopsAt level w) :=
  inferInstanceAs (Decidable (_ ∧ _))

theorem StopsAt.tighter {level : Nat} {w : Spelling} (h : StopsAt level w) :
    StopsAt (level + 1) w := by
  refine ⟨fun entries hentries => h.1 entries ?_, h.2⟩
  exact List.mem_of_mem_drop (i := 1) (by rwa [List.drop_drop])

def levelAt (level : Nat) : Level :=
  levels.getD level []

private theorem drop_levels {level : Nat} (h : level < levels.length) :
    levels.drop level = levelAt level :: levels.drop (level + 1) := by
  rw [List.drop_eq_getElem_cons h, levelAt, List.getD_eq_getElem?_getD, List.getElem?_eq_getElem h]
  rfl

private theorem binaryOp?_of_mem_spellings {op : BinaryOp} {w : Spelling} (hop : op ≠ .pair)
    (h : w ∈ op.spellings) :
    op.level < levels.length ∧ binaryOp? (levelAt op.level) w.token = some op ∧
      StopsAt (op.level + 1) w := by
  revert w
  cases op <;> first | exact absurd rfl hop | decide +kernel

private theorem unaryOp?_of_mem_spellings {op : UnaryOp} {w : Spelling} (h : w ∈ op.spellings) :
    unaryOp? w.token = some op := by
  revert w
  cases op <;> decide +kernel

theorem stopsAt_marks : ∀ text ∈ [")", "]", ",", ";", ":", "\x7b", "\x7d"],
    StopsAt 0 (punctuation text) := by
  decide +kernel

theorem stopsAt_finish : StopsAt 0 finish := by
  decide +kernel

/-! ### Reading operators -/

variable {fuel : Nat} {ws vs : List Spelling} {e : Expr}

private theorem reads_chain_nil {entries : Level} {operand : Parser Expr} {left : Expr} :
    Reads (chain entries operand (fuel + 1) left) []
      (fun next => binaryOp? entries next.token = none) (· = left) := by
  rw [chain]
  refine .look looks_current fun t next hnext ht => ?_
  have hop : binaryOp? entries t = none := by
    rw [← hnext, show next = t.spelling from ht.symm]
    rfl
  simp only [id, hop]
  exact .pure rfl

private theorem reads_chain_cons {entries : Level} {operand : Parser Expr} {left right : Expr}
    {op : BinaryOp} {w : Spelling} {mid stops : Spelling → Prop} {post : Expr → Prop}
    (hop : binaryOp? entries w.token = some op) (hright : Reads operand ws mid (· = right))
    (hrest : Reads (chain entries operand fuel (.binary op left right)) vs stops post)
    (hmid : ∀ next, stops next → mid (vs.headD next)) :
    Reads (chain entries operand (fuel + 1) left) (w :: (ws ++ vs)) stops post := by
  rw [chain]
  refine .current fun t ht => ?_
  subst ht
  have htoken : binaryOp? entries t = some op := hop
  simp only [htoken]
  refine .step fun _ _ => ?_
  refine .bind hright (fun r hr => ?_) hmid
  subst hr
  exact hrest

private theorem reads_looser {operand : Parser Expr} {level : Nat} (hfuel : 0 < fuel)
    (hlevel : level ≤ levels.length)
    (h : Reads (binary fuel operand (levels.drop level)) ws (StopsAt level) (· = e)) {looser : Nat}
    (hle : looser ≤ level) :
    Reads (binary fuel operand (levels.drop looser)) ws (StopsAt looser) (· = e) := by
  obtain ⟨distance, rfl⟩ := Nat.exists_eq_add_of_le hle
  induction distance generalizing looser with
  | zero => exact h
  | succ distance ih =>
    have hlt' : looser < levels.length := by omega
    have htighter : Reads (binary fuel operand (levels.drop (looser + 1))) ws
        (StopsAt (looser + 1)) (· = e) :=
      ih (by omega) (by rwa [Nat.add_assoc, Nat.add_comm 1]) (by omega)
    obtain ⟨fuel, rfl⟩ : ∃ n, fuel = n + 1 := ⟨fuel - 1, by omega⟩
    rw [drop_levels hlt', binary, ← List.append_nil ws]
    refine .bind htighter (fun left hleft => ?_) fun next hnext => hnext.tighter
    subst hleft
    refine reads_chain_nil.mono (fun next hnext => ?_) fun _ h => h
    exact hnext.1 _ (by rw [drop_levels hlt']; exact List.mem_cons_self)

/-! ### Reading expressions back -/

/-- Wherever operators of the expression's level may stand, its tokens are read as the expression,
if there is fuel for each of them. -/
def ReadBack (style : Style) (e : Expr) : Prop :=
  ∀ (fuel level : Nat), (e.words style).length ≤ fuel → level ≤ e.level →
    Reads (binary fuel (unary fuel) (levels.drop level)) (e.words style) (StopsAt level) (· = e)

variable {style : Style}

theorem ReadBack.expression (h : ReadBack style e) (hfuel : (e.words style).length ≤ fuel) :
    Reads (expression fuel) (e.words style) (StopsAt 0) (· = e) :=
  h fuel 0 hfuel (Nat.zero_le _)

private theorem ReadBack.of_unary (hlevel : e.level = levels.length)
    (h : ∀ fuel, (e.words style).length ≤ fuel + 1 →
      Reads (unary (fuel + 1)) (e.words style) (StopsAt levels.length) (· = e)) :
    ReadBack style e := by
  intro fuel level hfuel hle
  have hpos := words_pos style e
  obtain ⟨fuel, rfl⟩ : ∃ n, fuel = n + 1 := ⟨fuel - 1, by omega⟩
  refine reads_looser (by omega) (Nat.le_refl _) ?_ (hlevel ▸ hle)
  rw [List.drop_length]
  exact h fuel hfuel

private theorem reads_parenthesized (h : Reads (expression fuel) ws (StopsAt 0) (· = e)) :
    Reads (unary (fuel + 1)) (punctuation "(" :: (ws ++ [punctuation ")"])) (fun _ => True)
      (· = e) := by
  rw [unary]
  refine .current fun t ht => ?_
  obtain ⟨kind, text, pos⟩ := t
  obtain ⟨rfl, rfl⟩ : kind = .punctuation ∧ text = "(" := by
    simpa [Token.spelling, punctuation] using ht
  have hunary : unaryOp? ⟨.punctuation, "(", pos⟩ = none := rfl
  simp only [hunary]
  rw [atom]
  refine .current fun t ht => ?_
  obtain ⟨kind, text, pos⟩ := t
  obtain ⟨rfl, rfl⟩ : kind = .punctuation ∧ text = "(" := by
    simpa [Token.spelling, punctuation] using ht
  simp only [and_self, if_true]
  refine .step fun _ _ => ?_
  refine .bind h (fun inner hinner => ?_) fun _ _ => stopsAt_marks _ (by simp)
  refine .expect rfl ?_
  exact .pure hinner

theorem ReadBack.operand (h : ReadBack style e) {level : Nat} (hlevel : level ≤ levels.length)
    (hfuel : (enclose (e.level < level) (e.words style)).length ≤ fuel) :
    Reads (binary fuel (unary fuel) (levels.drop level))
      (enclose (e.level < level) (e.words style)) (StopsAt level) (· = e) := by
  by_cases hloose : e.level < level
  · simp only [enclose, hloose, decide_true, if_true, List.length_cons, List.length_append,
      List.length_nil] at hfuel ⊢
    obtain ⟨fuel, rfl⟩ : ∃ n, fuel = n + 1 := ⟨fuel - 1, by omega⟩
    refine reads_looser (by omega) (Nat.le_refl _) ?_ hlevel
    rw [List.drop_length]
    refine (reads_parenthesized (h.expression ?_)).mono (fun _ _ => trivial) fun _ h => h
    omega
  · simp only [enclose, hloose, decide_false, Bool.false_eq_true, if_false] at hfuel ⊢
    exact h fuel level hfuel (by omega)

/-- The expression can be the first operand of a chain at a level: whatever the chain reads behind
it is read behind its tokens, with enough fuel left for the chain. -/
def Continues (style : Style) (e : Expr) (level : Nat) : Prop :=
  ∀ (fuel : Nat) (vs : List Spelling) (stops : Spelling → Prop) (post : Expr → Prop),
    (e.words style).length ≤ fuel →
    (∀ left, fuel + 1 ≤ left + (e.words style).length →
      Reads (chain (levelAt level) (binary fuel (unary fuel) (levels.drop (level + 1))) left e) vs
        stops post) →
    (∀ next, stops next → StopsAt (level + 1) (vs.headD next)) →
    Reads (binary fuel (unary fuel) (levels.drop level)) (e.words style ++ vs) stops post

private theorem ReadBack.continues (h : ReadBack style e) {level : Nat} (hlevel : level < e.level) :
    Continues style e level := by
  intro fuel vs stops post hfuel hchain hmid
  have hpos := words_pos style e
  have hlt : level < levels.length := Nat.lt_of_lt_of_le hlevel (level_le e)
  rw [drop_levels hlt, binary]
  refine .bind (h fuel (level + 1) hfuel hlevel) (fun a ha => ?_) hmid
  subst ha
  exact hchain fuel (by omega)

private theorem continues_binary {op : BinaryOp} {left right : Expr} (hop : op ≠ .pair)
    (hleft : ReadBack style left)
    (hspine : op.level ≤ left.level → Continues style left op.level)
    (hright : ReadBack style right) : Continues style (.binary op left right) op.level := by
  intro fuel vs stops post hfuel hchain hmid
  obtain ⟨hlt, htoken, hstop⟩ := binaryOp?_of_mem_spellings hop (style.binary_mem op hop)
  simp only [Expr.words, List.length_append, List.length_cons] at hfuel hchain
  rw [Expr.words, List.append_assoc, List.cons_append]
  -- The operator and the right operand, after the left operand has been read in either way.
  have hrest : ∀ n, fuel + 1 ≤ n + (enclose (left.level < op.level) (left.words style)).length →
      Reads
        (chain (levelAt op.level) (binary fuel (unary fuel) (levels.drop (op.level + 1))) n left)
        (style.binary op ::
          (enclose (right.level < op.level + 1) (right.words style) ++ vs)) stops post := by
    intro n hn
    obtain ⟨n, rfl⟩ : ∃ m, n = m + 1 := ⟨n - 1, by omega⟩
    refine reads_chain_cons htoken (hright.operand hlt (by omega)) (hchain n (by omega)) hmid
  by_cases hloose : left.level < op.level
  · have henclosed : enclose (left.level < op.level) (left.words style) =
        enclose (left.level < op.level + 1) (left.words style) := by
      rw [decide_eq_true hloose, decide_eq_true (by omega : left.level < op.level + 1)]
    rw [henclosed] at hfuel hrest ⊢
    rw [drop_levels hlt, binary]
    refine .bind (hleft.operand hlt (by omega)) (fun a ha => ?_) fun _ _ => hstop
    subst ha
    refine hrest fuel ?_
    simp only [enclose, (by omega : a.level < op.level + 1), decide_true, if_true,
      List.length_cons]
    omega
  · have hsame : enclose (left.level < op.level) (left.words style) = left.words style := by
      simp [enclose, hloose]
    rw [hsame] at hrest hfuel ⊢
    refine hspine (by omega) fuel _ stops post (by omega) hrest fun next _ => hstop

private theorem readBack_binary {op : BinaryOp} {left right : Expr} (hop : op ≠ .pair)
    (h : Continues style (.binary op left right) op.level) :
    ReadBack style (.binary op left right) := by
  intro fuel level hfuel hlevel
  obtain ⟨hlt, -⟩ := binaryOp?_of_mem_spellings hop (style.binary_mem op hop)
  have hpos := words_pos style (.binary op left right)
  refine reads_looser (by omega) (Nat.le_of_lt hlt) ?_ hlevel
  have hread := h fuel [] (StopsAt op.level) (· = .binary op left right) hfuel ?_
    fun next hnext => hnext.tighter
  · rwa [List.append_nil] at hread
  · intro n hn
    obtain ⟨n, rfl⟩ : ∃ m, n = m + 1 := ⟨n - 1, by omega⟩
    refine reads_chain_nil.mono (fun next hnext => ?_) fun _ h => h
    exact hnext.1 _ (by rw [drop_levels hlt]; exact List.mem_cons_self)

/-! ### Reading operands back -/

private theorem reads_unary_atom {w : Spelling} {stops : Spelling → Prop} {post : Expr → Prop}
    (hw : unaryOp? w.token = none)
    (h : Reads (atom fuel (expression fuel)) (w :: ws) stops post) :
    Reads (unary (fuel + 1)) (w :: ws) stops post := by
  rw [unary]
  refine .current fun t ht => ?_
  subst ht
  have hnone : unaryOp? t = none := hw
  simp only [hnone]
  exact h

private theorem reads_unary_operator {w : Spelling} {op : UnaryOp} {stops : Spelling → Prop}
    (hw : unaryOp? w.token = some op) {operand : Expr}
    (h : Reads (unary fuel) ws stops (· = operand)) :
    Reads (unary (fuel + 1)) (w :: ws) stops (· = applyUnary op operand) := by
  rw [unary]
  refine .current fun t ht => ?_
  subst ht
  have hsome : unaryOp? t = some op := hw
  simp only [hsome]
  refine .step fun _ _ => ?_
  rw [← List.append_nil ws]
  refine .bind h (fun e he => ?_) fun _ hnext => hnext
  exact .pure (he ▸ rfl)

theorem reads_numeral {n : Nat} (hn : (n : Int) ≤ 9223372036854775807) :
    Reads (unary (fuel + 1)) [numeral n] (StopsAt levels.length) (· = .number n) := by
  have hword : Number.InWord n := by
    unfold Number.InWord
    omega
  refine reads_unary_atom (by simp [unaryOp?, Spelling.token, numeral]) ?_
  rw [atom]
  refine .current fun t ht => ?_
  obtain ⟨kind, text, pos⟩ := t
  obtain ⟨rfl, rfl⟩ : kind = .number ∧ text = (numeral n).text := by
    simpa [Token.spelling, numeral] using ht
  simp only [literalNumber?_numeral hword]
  exact .step fun _ _ => .pure rfl

private theorem readBack_number {n : Int} (low : -9223372036854775807 ≤ n)
    (high : n ≤ 9223372036854775807) :
    ReadBack style (.number n) := by
  refine .of_unary rfl fun fuel hfuel => ?_
  rw [Expr.words] at hfuel ⊢
  by_cases hn : n < 0
  · rw [if_pos hn] at hfuel ⊢
    obtain ⟨fuel, rfl⟩ : ∃ m, fuel = m + 1 := ⟨fuel - 1, by simp at hfuel; omega⟩
    have hread : Reads (unary (fuel + 2)) [operator "-", numeral n.natAbs]
        (StopsAt levels.length) (· = applyUnary .neg (.number n.natAbs)) :=
      reads_unary_operator rfl (reads_numeral (by omega))
    have hvalue : -(n.natAbs : Int) = n := by omega
    simpa only [applyUnary, hvalue] using hread
  · rw [if_neg hn]
    have hread : Reads (unary (fuel + 1)) [numeral n.natAbs] (StopsAt levels.length)
        (· = .number n.natAbs) :=
      reads_numeral (by omega)
    have hvalue : (n.natAbs : Int) = n := by omega
    rwa [hvalue] at hread

private theorem readBack_text (s : String) : ReadBack style (.text s) := by
  refine .of_unary rfl fun fuel _ => ?_
  rw [Expr.words]
  refine reads_unary_atom (by simp [unaryOp?, Spelling.token, quoted]) ?_
  rw [atom]
  refine .current fun t ht => ?_
  obtain ⟨kind, text, pos⟩ := t
  obtain ⟨rfl, rfl⟩ : kind = .text ∧ text = (quoted s).text := by
    simpa [Token.spelling, quoted] using ht
  simp only [literalText_quoted]
  exact .step fun _ _ => .pure rfl

private theorem readBack_unary {op : UnaryOp} {operand : Expr}
    (unfolded : op = .neg → ∀ n, operand ≠ .number n) (h : ReadBack style operand) :
    ReadBack style (.unary op operand) := by
  refine .of_unary rfl fun fuel hfuel => ?_
  rw [Expr.words] at hfuel ⊢
  have hlength : (enclose (operand.level < levels.length) (operand.words style)).length ≤ fuel := by
    simpa using hfuel
  have hoperand := h.operand (Nat.le_refl _) hlength
  rw [List.drop_length] at hoperand
  have hread := reads_unary_operator (unaryOp?_of_mem_spellings (style.unary_mem op)) hoperand
  have hvalue : applyUnary op operand = .unary op operand := by
    cases op with
    | neg =>
      cases operand with
      | number n => exact absurd rfl (unfolded rfl n)
      | _ => rfl
    | not => rfl
    | bitNot => rfl
  rwa [hvalue] at hread

/-! ### Reading names back -/

theorem isMark_word (mark text : String) : isMark mark (word text).token = false := by
  have hkind : Token.isMark (word text).token = false := by
    simp only [Token.isMark, Spelling.token, word, Token.wordKind]
    repeat' split
    all_goals rfl
  rw [isMark, hkind, Bool.false_and]

theorem isMark_head_words {mark : String} (hmark : mark ∈ [")", ";"]) (e : Expr)
    (next : Spelling) : isMark mark ((e.words style).headD next).token = false := by
  have hopening : ∀ mark ∈ [")", ";"], ∀ w ∈ [operator "-", punctuation "("],
      isMark mark w.token = false := by
    decide
  match e with
  | .number n =>
    rw [Expr.words]
    split
    · exact hopening mark hmark (operator "-") (by simp)
    · simp [isMark, Token.isMark, Spelling.token, numeral]
  | .text s => simp [Expr.words, isMark, Token.isMark, Spelling.token, quoted]
  | .name id => exact isMark_word mark id
  | .binary op left right =>
    have hleft := isMark_head_words hmark left next
    have hpos := words_pos style left
    rw [Expr.words, enclose]
    split
    · exact hopening mark hmark (punctuation "(") (by simp)
    · cases hwords : left.words style with
      | nil => simp [hwords] at hpos
      | cons w ws =>
        rw [hwords] at hleft
        exact hleft
  | .unary op operand =>
    have hop := style.unary_mem op
    rw [Expr.words, List.headD_cons]
    generalize style.unary op = w at hop
    revert w mark
    cases op <;> decide +kernel
  | .call f args => exact isMark_word mark f
  | .element id index =>
    rw [Expr.words.eq_def]
    split <;> simp_all [isMark_word]
  | .field object part index => cases index <;> exact isMark_word mark object

private theorem reads_unary_named {id : String} (h : IsName id) {stops : Spelling → Prop}
    {post : Expr → Prop}
    (hnamed : Reads (named fuel (expression fuel) id) (word id :: ws) stops post) :
    Reads (unary (fuel + 1)) (word id :: ws) stops post := by
  have hkind : (word id).kind = .identifier ∨ (word id).kind = .routine := by
    simpa [Token.isName, Spelling.token] using h.isName
  refine reads_unary_atom ?_ ?_
  · rcases hkind with hkind | hkind <;> simp [unaryOp?, Spelling.token, hkind]
  rw [atom]
  refine .current fun t ht => ?_
  obtain ⟨kind, text, pos⟩ := t
  obtain ⟨rfl, rfl⟩ : kind = (word id).kind ∧ text = id := by
    simpa [Token.spelling, word] using ht
  rcases hkind with hkind | hkind
  · simp only [hkind]
    exact hnamed
  · simp only [hkind]
    exact hnamed

theorem reads_named_name (id : String) :
    Reads (named fuel (expression fuel) id) [word id] (StopsAt levels.length) (· = .name id) := by
  rw [named]
  refine .step fun _ _ => ?_
  refine .consume_not (fun next hnext => hnext.2 "(" (by simp)) ?_
  rw [if_neg (by decide)]
  refine .check false (fun next hnext => hnext.2 "[" (by simp)) ?_
  rw [if_neg (by decide)]
  refine .consume_not (fun next hnext => hnext.2 "." (by simp)) ?_
  rw [if_neg (by decide)]
  exact .pure rfl

private theorem reads_commaList {args : List Expr}
    (hargs : ∀ e ∈ args, Reads (expression fuel) (e.words style) (StopsAt 0) (· = e))
    {n : Nat} (hne : args ≠ []) (hn : args.length ≤ n) :
    Reads (commaList (expression fuel) n) (argumentWords style args)
      (· = punctuation ")") (· = args) := by
  induction args generalizing n with
  | nil => exact absurd rfl hne
  | cons e es ih =>
    obtain ⟨n, rfl⟩ : ∃ m, n = m + 1 := ⟨n - 1, by simp at hn; omega⟩
    have he := hargs e List.mem_cons_self
    rw [commaList]
    cases es with
    | nil =>
      rw [argumentWords, ← List.append_nil (e.words style)]
      refine .bind he (fun a ha => ?_) fun next hnext => ?_
      · subst ha
        refine .consume_not (fun next hnext => ?_) (.pure rfl)
        subst hnext
        rfl
      · subst hnext
        exact stopsAt_marks _ (by simp)
    | cons e' es =>
      rw [argumentWords]
      · refine .bind he (fun a ha => ?_) fun _ _ => stopsAt_marks _ (by simp)
        subst ha
        refine .consume rfl ?_
        rw [if_pos rfl, ← List.append_nil (argumentWords style (e' :: es))]
        refine .bind (ih (fun x hx => hargs x (List.mem_cons_of_mem _ hx)) (by simp)
          (by simpa using hn)) (fun rest hrest => ?_) fun _ hnext => hnext
        subst hrest
        exact .pure rfl
      · simp

private theorem length_le_argumentWords (args : List Expr) :
    args.length ≤ (argumentWords style args).length := by
  induction args with
  | nil => simp
  | cons e es ih =>
    have hpos := words_pos style e
    cases es with
    | nil =>
      simp only [argumentWords, List.length_cons, List.length_nil]
      omega
    | cons e' es =>
      rw [argumentWords]
      · simp only [List.length_cons, List.length_append] at ih ⊢
        omega
      · simp

private theorem words_le_argumentWords {args : List Expr} {e : Expr} (h : e ∈ args) :
    (e.words style).length ≤ (argumentWords style args).length := by
  induction args with
  | nil => cases h
  | cons e' es ih =>
    cases es with
    | nil =>
      obtain rfl := List.mem_singleton.mp h
      simp [argumentWords]
    | cons e'' es =>
      rw [argumentWords]
      · simp only [List.length_cons, List.length_append]
        rcases List.mem_cons.mp h with rfl | h
        · omega
        · have hrest := ih h
          omega
      · simp

private theorem isMark_head_argumentWords {mark : String} (hmark : mark ∈ [")", ";"]) (e : Expr)
    (es : List Expr) (next : Spelling) :
    isMark mark ((argumentWords style (e :: es)).headD next).token = false := by
  have hhead : isMark mark ((e.words style).headD next).token = false :=
    isMark_head_words hmark e next
  have hpos := words_pos style e
  cases es with
  | nil => simpa only [argumentWords] using hhead
  | cons e' es =>
    rw [argumentWords]
    · cases hwords : e.words style with
      | nil => simp [hwords] at hpos
      | cons w ws =>
        rw [hwords] at hhead
        exact hhead
    · simp

private theorem reads_arguments {args : List Expr}
    (hargs : ∀ e ∈ args, ReadBack style e) (hfuel : (argumentWords style args).length ≤ fuel) :
    Reads (arguments fuel (expression fuel)) (argumentWords style args)
      (· = punctuation ")") (· = args) := by
  rw [arguments]
  cases args with
  | nil =>
    refine .check true (fun next hnext => ?_) (.pure rfl)
    subst hnext
    rfl
  | cons e es =>
    refine .check false (fun next _ => ?_) ?_
    · exact isMark_head_argumentWords (by simp) e es next
    · rw [if_neg (by decide)]
      refine reads_commaList (fun x hx => (hargs x hx).expression ?_) (by simp) ?_
      · exact Nat.le_trans (words_le_argumentWords hx) hfuel
      · exact Nat.le_trans (length_le_argumentWords _) hfuel

private theorem readBack_name {id : String} (h : IsName id) : ReadBack style (.name id) := by
  refine .of_unary rfl fun fuel _ => ?_
  rw [Expr.words]
  exact reads_unary_named h (reads_named_name id)

/-! What follows a name is read alike where the name begins an expression and where it begins a
place. -/

private theorem reads_named_call {f : String} {args : List Expr} {stops : Spelling → Prop}
    (hargs : ∀ e ∈ args, ReadBack style e)
    (hfuel : ((Expr.call f args).words style).length ≤ fuel + 1) :
    Reads (named fuel (expression fuel) f) ((Expr.call f args).words style) stops
      (· = .call f args) := by
  simp only [Expr.words, List.length_cons, List.length_append] at hfuel
  rw [named, Expr.words]
  refine .step fun _ _ => ?_
  refine .consume rfl ?_
  rw [if_pos rfl]
  refine .bind (reads_arguments hargs (by omega)) (fun a ha => ?_) fun _ _ => rfl
  subst ha
  exact .expect rfl (.pure rfl)

private theorem reads_indices_one {index : Expr}
    (h : Reads (expression fuel) (index.words style) (StopsAt 0) (· = index)) :
    Reads (indices (expression fuel))
      (punctuation "[" :: (index.words style ++ [punctuation "]"]))
      (StopsAt levels.length) (· = index) := by
  rw [indices]
  refine .expect rfl ?_
  refine .bind h (fun a ha => ?_) fun _ _ => stopsAt_marks _ (by simp)
  refine .expect rfl ?_
  refine .consume_not (fun next hnext => hnext.2 "[" (by simp)) ?_
  exact .pure ha

private theorem reads_indices_two {row column : Expr} {stops : Spelling → Prop}
    (hrow : Reads (expression fuel) (row.words style) (StopsAt 0) (· = row))
    (hcolumn : Reads (expression fuel) (column.words style) (StopsAt 0) (· = column)) :
    Reads (indices (expression fuel))
      (punctuation "[" :: (row.words style ++ punctuation "]" :: punctuation "[" ::
        (column.words style ++ [punctuation "]"])))
      stops (· = .binary .pair row column) := by
  rw [indices]
  refine .expect rfl ?_
  refine .bind hrow (fun a ha => ?_) fun _ _ => stopsAt_marks _ (by simp)
  refine .expect rfl ?_
  refine .consume rfl ?_
  rw [if_pos rfl]
  refine .bind hcolumn (fun b hb => ?_) fun _ _ => stopsAt_marks _ (by simp)
  subst ha hb
  exact .expect rfl (.pure rfl)

private theorem reads_named_indices {id : String} {index : Expr} {stops : Spelling → Prop}
    (h : Reads (indices (expression fuel)) (punctuation "[" :: ws) stops (· = index)) :
    Reads (named fuel (expression fuel) id) (word id :: punctuation "[" :: ws) stops
      (· = .element id index) := by
  rw [named]
  refine .step fun _ _ => ?_
  refine .consume_not (fun _ _ => rfl) ?_
  rw [if_neg (by decide)]
  refine .check true (fun _ _ => rfl) ?_
  rw [if_pos rfl, ← List.append_nil (punctuation "[" :: ws)]
  refine .bind h (fun a ha => ?_) fun _ hnext => hnext
  subst ha
  exact .pure rfl

theorem reads_named_element {id : String} {index : Expr} (hcanonical : Canonical index)
    (h : ReadBack style index)
    (hfuel : ((Expr.element id index).words style).length ≤ fuel + 1) :
    Reads (named fuel (expression fuel) id) ((Expr.element id index).words style)
      (StopsAt levels.length) (· = .element id index) := by
  rw [words_element hcanonical] at hfuel ⊢
  simp only [List.length_cons, List.length_append] at hfuel
  exact reads_named_indices (reads_indices_one (h.expression (by omega)))

theorem reads_named_grid {id : String} {row column : Expr} (hrow : ReadBack style row)
    (hcolumn : ReadBack style column)
    (hfuel : ((Expr.element id (.binary .pair row column)).words style).length ≤ fuel + 1) :
    Reads (named fuel (expression fuel) id)
      ((Expr.element id (.binary .pair row column)).words style)
      (StopsAt levels.length) (· = .element id (.binary .pair row column)) := by
  simp only [Expr.words, List.length_cons, List.length_append] at hfuel
  rw [Expr.words]
  exact reads_named_indices
    (reads_indices_two (hrow.expression (by omega)) (hcolumn.expression (by omega)))

theorem reads_named_field {object part : String} {index : Option Expr} (hpart : IsName part)
    (h : ∀ e ∈ index, ReadBack style e)
    (hfuel : ((Expr.field object part index).words style).length ≤ fuel + 1) :
    Reads (named fuel (expression fuel) object) ((Expr.field object part index).words style)
      (StopsAt levels.length) (· = .field object part index) := by
  rw [named]
  cases index with
  | none =>
    rw [Expr.words]
    refine .step fun _ _ => ?_
    refine .consume_not (fun _ _ => rfl) ?_
    rw [if_neg (by decide)]
    refine .check false (fun _ _ => rfl) ?_
    rw [if_neg (by decide)]
    refine .consume rfl ?_
    rw [if_pos rfl]
    refine .expectName hpart.isName ?_
    refine .consume_not (fun next hnext => hnext.2 "[" (by simp)) ?_
    exact .pure rfl
  | some index =>
    rw [Expr.words] at hfuel ⊢
    simp only [List.length_cons, List.length_append] at hfuel
    refine .step fun _ _ => ?_
    refine .consume_not (fun _ _ => rfl) ?_
    rw [if_neg (by decide)]
    refine .check false (fun _ _ => rfl) ?_
    rw [if_neg (by decide)]
    refine .consume rfl ?_
    rw [if_pos rfl]
    refine .expectName hpart.isName ?_
    refine .consume rfl ?_
    rw [if_pos rfl]
    refine .bind ((h index rfl).expression (by omega)) (fun a ha => ?_)
      fun _ _ => stopsAt_marks _ (by simp)
    subst ha
    exact .expect rfl (.pure rfl)

/-- The tokens of every expression that can be written are read back as the expression, and can
begin a chain at every level up to its own. -/
private theorem readBack_and_continues (h : Canonical e) :
    ReadBack style e ∧
      ∀ level, level < levels.length → level ≤ e.level → Continues style e level := by
  -- Without an operator between operands the expression is tighter than every level.
  have atomic : ∀ {e : Expr}, e.level = levels.length → ReadBack style e → ReadBack style e ∧
      ∀ level, level < levels.length → level ≤ e.level → Continues style e level := by
    intro e hlevel hread
    exact ⟨hread, fun level hlt _ => hread.continues (by omega)⟩
  induction h with
  | number low high => exact atomic rfl (readBack_number low high)
  | text s => exact atomic rfl (readBack_text s)
  | name named => exact atomic rfl (readBack_name named)
  | @binary op left right single _ _ ihleft ihright =>
    obtain ⟨hlt, -⟩ := binaryOp?_of_mem_spellings single (style.binary_mem op single)
    have hown : Continues style (.binary op left right) op.level :=
      continues_binary single ihleft.1 (ihleft.2 op.level hlt) ihright.1
    have hread := readBack_binary single hown
    refine ⟨hread, fun level _ hle => ?_⟩
    rcases Nat.lt_or_eq_of_le hle with hless | rfl
    · exact hread.continues hless
    · exact hown
  | unary unfolded _ ih => exact atomic rfl (readBack_unary unfolded ih.1)
  | call named _ ih =>
    refine atomic rfl (.of_unary rfl fun fuel hfuel => ?_)
    exact reads_unary_named named (reads_named_call (fun e he => (ih e he).1) hfuel)
  | element named hindex ih =>
    refine atomic rfl (.of_unary rfl fun fuel hfuel => ?_)
    have hread := reads_named_element hindex ih.1 hfuel
    rw [words_element hindex] at hread ⊢
    exact reads_unary_named named hread
  | grid named _ _ ihrow ihcolumn =>
    refine atomic rfl (.of_unary rfl fun fuel hfuel => ?_)
    have hread := reads_named_grid ihrow.1 ihcolumn.1 hfuel
    rw [Expr.words] at hread ⊢
    exact reads_unary_named named hread
  | @field object part index named partNamed _ ih =>
    refine atomic rfl (.of_unary rfl fun fuel hfuel => ?_)
    have hread : Reads (Parser.named fuel (expression fuel) object)
        ((Expr.field object part index).words style) (StopsAt levels.length)
        (· = .field object part index) :=
      reads_named_field partNamed (fun e he => (ih e he).1) hfuel
    cases index with
    | none =>
      rw [Expr.words] at hread ⊢
      exact reads_unary_named named hread
    | some index =>
      rw [Expr.words] at hread ⊢
      exact reads_unary_named named hread

theorem readBack_of_canonical (h : Canonical e) : ReadBack style e :=
  (readBack_and_continues h).1

theorem reads_some (h : Canonical e) (hfuel : (e.words style).length ≤ fuel) :
    Reads (some <$> expression fuel) (e.words style) (StopsAt 0) (· = some e) :=
  ((readBack_of_canonical h).expression hfuel).map fun _ he => congrArg some he

end Parser

end ControlLogic
