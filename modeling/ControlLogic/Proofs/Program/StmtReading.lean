import ControlLogic.Program.Parser.Stmt
import ControlLogic.Proofs.Program.ExprReading
import ControlLogic.Proofs.Program.StmtText
import ControlLogic.Proofs.Text.Upper

/-!
Reading statements that were written. A body is read statement by statement up to its closing brace;
what a statement begins with tells it from a declaration, and nothing that follows a statement goes
on with it.
-/

set_option autoImplicit false
set_option relaxedAutoImplicit false

namespace ControlLogic.Parser

open Spelling Stmt

variable {α β : Type} {fuel : Nat} {style : Style} {w : Spelling} {ws vs : List Spelling}
  {stops : Spelling → Prop}

/-! ### How statements begin -/

private theorem sameWord_of_isName {id word : String} (h : Expr.IsName id)
    (hword : word ∈ Vocabulary.control) : Text.sameWord id word = false := by
  cases hsame : Text.sameWord id word with
  | false => rfl
  | true =>
    have hcontrol : Vocabulary.isControl id = true := List.any_eq_true.mpr ⟨word, hword, hsame⟩
    have hname := h.isName
    simp [Token.isName, Spelling.token, Spelling.word, Token.wordKind, hcontrol] at hname

/-- Tokens that can begin a statement: neither a declaration nor the end of a block nor the second
half of a branch begins like this. -/
def BeginsStmt (ws : List Spelling) : Prop :=
  ∃ w rest, ws = w :: rest ∧ w.kind ≠ .variableType ∧ isStorageWord w.token = false ∧
    isMark "\x7d" w.token = false ∧ Text.sameWord w.text "ELSE" = false ∧
    (w.kind = .identifier → ∃ v behind, rest = v :: behind ∧ v.kind ≠ .identifier)

theorem BeginsStmt.append (h : BeginsStmt ws) (vs : List Spelling) : BeginsStmt (ws ++ vs) := by
  obtain ⟨w, rest, rfl, hkind, hstorage, hbrace, helse, hnext⟩ := h
  refine ⟨w, rest ++ vs, rfl, hkind, hstorage, hbrace, helse, fun hidentifier => ?_⟩
  obtain ⟨v, behind, rfl, hv⟩ := hnext hidentifier
  exact ⟨v, behind ++ vs, rfl, hv⟩

def openingWords : List String :=
  ["IF", "FOR", "WHILE", "DO", "SWITCH", "CSWITCH", "WAIT", "RETURN", "BREAK", "TERMINATEEVENT"]

private theorem openingWords_differ : ∀ text ∈ "\x7b" :: openingWords,
    (Text.sameWord text "VOLATILE" || Text.sameWord text "NONVOLATILE") = false ∧
      Text.sameWord text "ELSE" = false := by
  simp only [Text.sameWord_eq]
  decide

private theorem sameWord_eq_false : ∀ pair ∈ [("\x7d", "ELSE"), ("\x7b", "IF"), (")", "STEP"),
    ("DEFAULT", "CASE"), ("CASE", "DEFAULT")], Text.sameWord pair.1 pair.2 = false := by
  simp only [Text.sameWord_eq]
  decide

private theorem beginsStmt_keyword {text : String} (h : text ∈ openingWords) (ws : List Spelling) :
    BeginsStmt (keyword text :: ws) := by
  obtain ⟨hstorage, helse⟩ := openingWords_differ text (List.mem_cons_of_mem _ h)
  exact ⟨keyword text, ws, rfl, by simp [keyword], hstorage, rfl, helse, by simp [keyword]⟩

private theorem beginsStmt_brace (ws : List Spelling) : BeginsStmt (punctuation "\x7b" :: ws) := by
  obtain ⟨hstorage, helse⟩ := openingWords_differ _ List.mem_cons_self
  exact ⟨_, ws, rfl, by decide, hstorage, rfl, helse, by simp [punctuation]⟩

private theorem beginsStmt_name {id : String} (h : Expr.IsName id) {v : Spelling}
    (hv : v.kind ≠ .identifier) (ws : List Spelling) : BeginsStmt (word id :: v :: ws) := by
  refine ⟨word id, v :: ws, rfl, ?_, ?_, isMark_word _ _, sameWord_of_isName h (by decide),
    fun _ => ⟨v, ws, rfl, hv⟩⟩
  · intro hkind
    have hname := h.isName
    simp [Token.isName, Spelling.token, hkind] at hname
  · have hvolatile : Text.sameWord id "VOLATILE" = false := sameWord_of_isName h (by decide)
    have hnonvolatile : Text.sameWord id "NONVOLATILE" = false :=
      sameWord_of_isName h (by decide)
    rw [isStorageWord]
    simp only [Spelling.token, word, hvolatile, hnonvolatile, Bool.or_self]

private theorem assigned_words (style : Style) {e : Expr} (h : e.Canonical)
    (hplace : e.isPlace = true) (ws : List Spelling) :
    ∃ id v behind, Expr.IsName id ∧ v.kind ≠ .identifier ∧ v.text ≠ "(" ∧
      e.words style ++ operator "=" :: ws = word id :: v :: behind := by
  cases h with
  | name named => exact ⟨_, operator "=", _, named, by decide, by decide, rfl⟩
  | element named hindex =>
    rw [Expr.words_element hindex]
    exact ⟨_, punctuation "[", _, named, by decide, by decide, rfl⟩
  | grid named _ _ =>
    rw [Expr.words]
    exact ⟨_, punctuation "[", _, named, by decide, by decide, rfl⟩
  | @field object part index named _ _ =>
    cases index with
    | none =>
      rw [Expr.words]
      exact ⟨_, punctuation ".", _, named, by decide, by decide, rfl⟩
    | some index =>
      rw [Expr.words]
      exact ⟨_, punctuation ".", _, named, by decide, by decide, rfl⟩
  | number | text | binary | unary | call => cases hplace

private theorem beginsStmt_words {s : Stmt} (h : s.Canonical) : BeginsStmt (s.words style) := by
  cases h with
  | @branch _ _ _ other =>
    cases other <;> exact beginsStmt_keyword (by decide) _
  | @switch _ _ _ runsOn =>
    cases runsOn <;> exact beginsStmt_keyword (by decide) _
  | @wait _ _ _ body =>
    cases body <;> exact beginsStmt_keyword (by decide) _
  | @returns _ value =>
    cases value <;> exact beginsStmt_keyword (by decide) _
  | assign place htarget _ =>
    obtain ⟨id, v, behind, hid, hv, -, hwords⟩ := assigned_words style htarget place _
    rw [Stmt.words, hwords]
    exact beginsStmt_name hid hv behind
  | call hcall =>
    rw [Stmt.words, Expr.words]
    cases hcall with
    | call named _ => exact beginsStmt_name named (by decide) _
  | count | whileLoop | untilLoop | breaks | terminateEvent =>
    exact beginsStmt_keyword (by decide) _
  | block => exact beginsStmt_brace _

/-! ### Reading with recovery -/

theorem Reads.recovering {p : Parser α} {post : α → Prop} (h : Reads p ws stops post) :
    Reads (Parser.recovering p) ws stops (fun found => ∃ a, found = some a ∧ post a) := by
  intro s ts more hlocals hrest hts hstops
  obtain ⟨a, ha, hread⟩ := h s ts more hlocals hrest hts hstops
  refine ⟨some a, ⟨a, rfl, ha⟩, ?_⟩
  have hmap : (some <$> p) s =
      .ok (some a) { s with rest := more, read := s.read + ws.length } := by
    change EStateM.map some p s = _
    rw [EStateM.map, hread]
  rw [Parser.recovering]
  change EStateM.tryCatch (some <$> p) _ s = _
  delta EStateM.tryCatch
  simp only [hmap]

private theorem Reads.atEnd_any {f : Bool → Parser α} {post : α → Prop}
    (hf : ∀ b, Reads (f b) ws stops post) : Reads (Parser.atEnd >>= f) ws stops post := by
  intro s ts more hlocals hrest hts hstops
  have hend : Parser.atEnd s = .ok s.rest.isEmpty s := rfl
  rw [bind_ok hend]
  exact hf _ s ts more hlocals hrest hts hstops

private theorem startsVariableDecl_eq_false {s : ParserState} {ts more : List Token}
    (hrest : s.rest = ts ++ more) (hts : ts.map Token.spelling = ws) (h : BeginsStmt ws) :
    startsVariableDecl s = .ok false s := by
  obtain ⟨w, rest, rfl, hkind, hstorage, -, -, hnext⟩ := h
  obtain ⟨t, tail, rfl, ht, htail⟩ := List.map_eq_cons_iff.mp hts
  subst ht
  have hcurrent : s.current = t := by simp [ParserState.current, hrest]
  have hstorage' : isStorageWord t = false := hstorage
  have hkind' : (t.kind == .variableType) = false := beq_eq_false_iff_ne.mpr hkind
  have hinstance : startsInstance s = .ok (s.current.kind == .identifier &&
      s.isStructure s.current.text && s.following.kind == .identifier) s := rfl
  rw [startsVariableDecl, bind_ok (looks_current s)]
  simp only [id, hcurrent, hkind', hstorage', Bool.or_self, Bool.false_eq_true, if_false]
  rw [hinstance, hcurrent]
  by_cases hidentifier : t.kind = .identifier
  · obtain ⟨v, behind, rfl, hv⟩ := hnext hidentifier
    obtain ⟨u, tail, rfl, rfl, -⟩ := List.map_eq_cons_iff.mp htail
    have hfollowing : s.following = u := by simp [ParserState.following, hrest]
    have hu : (u.kind == .identifier) = false := beq_eq_false_iff_ne.mpr hv
    rw [hfollowing, hu, Bool.and_false]
  · simp [hidentifier]

/-! ### Blocks -/

private theorem reads_blockItems_nil {stmt : Parser Stmt} {allFuel : Nat} :
    Reads (blockItems stmt allFuel (fuel + 1)) [] (· = punctuation "\x7d") (· = []) := by
  rw [blockItems]
  refine .check true (fun next hnext => ?_) ?_
  · subst hnext
    rfl
  refine .atEnd_any fun b => ?_
  rw [Bool.true_or, if_pos rfl]
  exact .pure rfl

private theorem reads_blockItems_cons {stmt : Parser Stmt} {allFuel : Nat} {mid : Spelling → Prop}
    {post : Stmt → Prop} {post' : List Stmt → Prop} (hbegins : BeginsStmt ws)
    (hstmt : Reads stmt ws mid post)
    (hrest : Reads (blockItems stmt allFuel fuel) vs stops post')
    (hmid : ∀ next, stops next → mid (vs.headD next)) :
    Reads (blockItems stmt allFuel (fuel + 1)) (ws ++ vs) stops
      (fun body => ∃ s rest, body = s :: rest ∧ post s ∧ post' rest) := by
  intro s ts more hlocals hs hts hstops
  obtain ⟨front, behind, rfl, hfront, hbehind⟩ := List.map_eq_append_iff.mp hts
  rw [List.append_assoc] at hs
  have hnext : mid (nextOf (behind ++ more)) := by
    rw [nextOf_append hbehind]
    exact hmid _ hstops
  obtain ⟨found, ⟨a, rfl, ha⟩, hread⟩ := hstmt.recovering s front (behind ++ more)
    hlocals hs hfront hnext
  have hstart := startsVariableDecl_eq_false hs hfront hbegins
  obtain ⟨w, rest, rfl, -, -, hbrace, -⟩ := hbegins
  obtain ⟨t, tail, rfl, ht, -⟩ := List.map_eq_cons_iff.mp hfront
  subst ht
  have hcheck : Parser.check "\x7d" s = .ok false s := by
    have hcurrent : s.current = t := by simp [ParserState.current, hs]
    have hmark : isMark "\x7d" t = false := hbrace
    rw [looks_check "\x7d" s, hcurrent, hmark]
  have hend : Parser.atEnd s = .ok false s := by
    have hempty : s.rest.isEmpty = false := by simp [hs]
    rw [← hempty]
    rfl
  have hget : ∀ s : ParserState, (get : Parser ParserState) s = .ok s s := fun _ => rfl
  obtain ⟨rest', hrest', hread'⟩ := hrest
    { s with rest := behind ++ more, read := s.read + (t.spelling :: rest).length } behind more
    hlocals rfl hbehind hstops
  refine ⟨a :: rest', ⟨a, rest', rfl, ha, hrest'⟩, ?_⟩
  rw [blockItems, bind_ok hcheck, bind_ok hend]
  simp only [Bool.or_self, Bool.false_eq_true, if_false]
  rw [bind_ok (hget s), bind_ok hstart]
  simp only [Bool.false_eq_true, if_false]
  rw [bind_ok hread, bind_ok (hget _)]
  have hprogress : ¬ s.read + (t.spelling :: rest).length = s.read := by
    simp only [List.length_cons]
    omega
  simp only [hprogress, if_false]
  rw [bind_ok hread', List.length_append, ← Nat.add_assoc]
  rfl

/-- The statement is read back up to its places, if there is fuel for each of its tokens. -/
def StmtReadBack (style : Style) (s : Stmt) : Prop :=
  ∀ fuel, (s.words style).length ≤ fuel →
    Reads (statement fuel) (s.words style)
      (fun next => Text.sameWord next.text "ELSE" = false) (fun s' => s'.unplaced = s.unplaced)

theorem reads_blockItems {body : List Stmt} {allFuel n : Nat}
    (hcanonical : ∀ s ∈ body, s.Canonical) (h : ∀ s ∈ body, StmtReadBack style s)
    (hfuel : (listWords style body).length ≤ fuel) (hn : (listWords style body).length < n) :
    Reads (blockItems (statement fuel) allFuel n) (listWords style body)
      (· = punctuation "\x7d") (fun body' => unplacedList body' = unplacedList body) := by
  induction body generalizing n with
  | nil =>
    obtain ⟨n, rfl⟩ : ∃ m, n = m + 1 := ⟨n - 1, by omega⟩
    rw [listWords]
    exact reads_blockItems_nil.mono (fun _ hnext => hnext) fun _ hbody => hbody ▸ rfl
  | cons s rest ih =>
    have hs := hcanonical s List.mem_cons_self
    have hbegins : BeginsStmt (s.words style) := beginsStmt_words hs
    have hpos : 0 < (s.words style).length := by
      obtain ⟨w, ws, heq, -⟩ := hbegins
      simp [heq]
    simp only [listWords, List.length_append] at hfuel hn ⊢
    obtain ⟨n, rfl⟩ : ∃ m, n = m + 1 := ⟨n - 1, by omega⟩
    have hrest := ih (n := n) (fun x hx => hcanonical x (List.mem_cons_of_mem _ hx))
      (fun x hx => h x (List.mem_cons_of_mem _ hx)) (by omega) (by omega)
    have hread := reads_blockItems_cons hbegins (h s List.mem_cons_self fuel (by omega)) hrest ?_
    · refine hread.mono (fun _ hnext => hnext) ?_
      rintro _ ⟨s', rest', rfl, hs', hrest'⟩
      simp only [unplacedList, hs', hrest']
    · rintro next rfl
      -- A closing brace follows, or the next statement.
      cases rest with
      | nil => exact sameWord_eq_false ("\x7d", "ELSE") (by simp)
      | cons s₂ rest =>
        have hnext : BeginsStmt (s₂.words style) := beginsStmt_words (hcanonical s₂ (by simp))
        obtain ⟨w, behind, heq, -, -, -, helse, -⟩ := hnext.append (listWords style rest)
        rw [listWords, heq]
        exact helse

/-! ### Parts of statements -/

theorem reads_block {stmt : Parser Stmt} {post : List Stmt → Prop}
    (h : Reads (blockItems stmt fuel fuel) ws (· = punctuation "\x7d") post) :
    Reads (block stmt fuel) (braces ws) stops post := by
  rw [block, braces]
  refine .expect rfl ?_
  refine .bind h (fun body hbody => ?_) fun _ _ => rfl
  exact .expect rfl (.pure hbody)

private theorem reads_body {stmt : Parser Stmt} {post : List Stmt → Prop}
    (h : Reads (blockItems stmt fuel fuel) ws (· = punctuation "\x7d") post) :
    Reads (body stmt fuel) (braces ws) stops post := by
  rw [body]
  refine .check true (fun _ _ => rfl) ?_
  rw [if_pos rfl]
  exact reads_block h

private theorem reads_condition {e : Expr} (h : Reads (expression fuel) ws (StopsAt 0) (· = e)) :
    Reads (parenthesized fuel) (parens ws) stops (· = e) := by
  rw [parenthesized, parens]
  refine .expect rfl ?_
  refine .bind h (fun a ha => ?_) fun _ _ => stopsAt_marks _ (by simp)
  exact .expect rfl (.pure ha)

private theorem reads_place {e : Expr} (h : e.Canonical) (hplace : e.isPlace = true)
    (hfuel : (e.words style).length ≤ fuel + 1) :
    Reads (place fuel) (e.words style) (StopsAt levels.length) (· = e) := by
  -- Whatever follows the name, the place is read like an expression that begins with it.
  have named_place : ∀ {id : String} {ws : List Spelling}, Expr.IsName id →
      e.words style = word id :: ws →
      Reads (named fuel (expression fuel) id) (e.words style) (StopsAt levels.length) (· = e) →
      Reads (place fuel) (e.words style) (StopsAt levels.length) (· = e) := by
    intro id ws hid hwords hread
    rw [hwords] at hread ⊢
    rw [place]
    refine .current fun t ht => ?_
    have hname : t.isName = true := by
      have hid' := hid.isName
      rw [← ht] at hid'
      exact hid'
    have htext : t.text = id := congrArg Spelling.text ht
    rw [if_pos hname, htext, ← List.append_nil (word id :: ws)]
    refine .bind hread (fun a ha => ?_) fun _ hnext => hnext
    subst ha
    rw [if_pos hplace]
    exact .pure rfl
  cases h with
  | name named => exact named_place named rfl (reads_named_name _)
  | element named hindex =>
    exact named_place named (Expr.words_element hindex)
      (reads_named_element hindex (readBack_of_canonical hindex) hfuel)
  | grid named hrow hcolumn =>
    exact named_place named (by rw [Expr.words])
      (reads_named_grid (readBack_of_canonical hrow) (readBack_of_canonical hcolumn) hfuel)
  | @field object part index named partNamed hindex =>
    have hread : Reads (Parser.named fuel (expression fuel) object)
        ((Expr.field object part index).words style) (StopsAt levels.length)
        (· = .field object part index) :=
      reads_named_field partNamed (fun e he => readBack_of_canonical (hindex e he)) hfuel
    cases index with
    | none => exact named_place named (by rw [Expr.words]) hread
    | some index => exact named_place named (by rw [Expr.words]) hread
  | number | text | binary | unary | call => cases hplace

private theorem reads_keywordStmt {text : String} {rest : Position → Parser Stmt}
    {post : Stmt → Prop}
    (hupper : Text.upper text = text)
    (hkeyword : ∀ pos, keywordStmt (statement fuel) fuel pos text = some (rest pos))
    (h : ∀ pos, Reads (rest pos) ws stops post) :
    Reads (statement (fuel + 1)) (keyword text :: ws) stops post := by
  rw [statement]
  refine .current fun t ht => ?_
  obtain ⟨kind, text', pos⟩ := t
  obtain ⟨rfl, rfl⟩ : kind = .keyword ∧ text' = text := by
    simpa [Token.spelling, keyword] using ht
  simp only [if_true, hupper, hkeyword pos]
  exact .step fun _ _ => h pos

private theorem upper_keywords : ∀ text ∈ keywords, Text.upper text = text := by
  intro text htext
  rw [← String.toList_inj, Text.toList_upper]
  revert text
  decide

/-! ### Statements -/

variable {pos : Position}

private theorem stmtReadBack_branch {condition : Expr} {body : List Stmt}
    {other : Option (List Stmt)}
    (hcondition : condition.Canonical) (hcanonical : ∀ s ∈ body, s.Canonical)
    (hbody : ∀ s ∈ body, StmtReadBack style s)
    (hcanonical' : ∀ b ∈ other, ∀ s ∈ b, s.Canonical)
    (hother : ∀ b ∈ other, ∀ s ∈ b, StmtReadBack style s) :
    StmtReadBack style (.branch pos condition body other) := by
  intro fuel hfuel
  have hread : ReadBack style condition := readBack_of_canonical hcondition
  cases other with
  | none =>
    simp only [Stmt.words, parens, braces, List.length_cons, List.length_append] at hfuel
    obtain ⟨fuel, rfl⟩ : ∃ n, fuel = n + 1 := ⟨fuel - 1, by omega⟩
    rw [Stmt.words]
    refine reads_keywordStmt (upper_keywords _ (by simp [keywords])) (fun _ => rfl) fun pos' => ?_
    rw [branchRest]
    refine .andThen (reads_condition (hread.expression (by omega))) fun a ha => ?_
    subst ha
    rw [← List.append_nil (braces _)]
    refine .andThen (reads_body (reads_blockItems hcanonical hbody (by omega) (by omega)))
      fun b hb => ?_
    refine .checkWord false (fun next hnext => hnext) ?_
    exact .pure (by simp only [unplaced, hb])
  | some other =>
    simp only [Stmt.words, parens, braces, List.length_cons, List.length_append] at hfuel
    obtain ⟨fuel, rfl⟩ : ∃ n, fuel = n + 1 := ⟨fuel - 1, by omega⟩
    rw [Stmt.words]
    refine reads_keywordStmt (upper_keywords _ (by simp [keywords])) (fun _ => rfl) fun pos' => ?_
    rw [branchRest]
    refine .andThen (reads_condition (hread.expression (by omega))) fun a ha => ?_
    subst ha
    refine .andThen (reads_body (reads_blockItems hcanonical hbody (by omega) (by omega)))
      fun b hb => ?_
    refine .checkWord true (fun _ _ => Text.sameWord_refl _) ?_
    rw [if_pos rfl]
    refine .step fun _ _ => ?_
    refine .checkWord false (fun _ _ => sameWord_eq_false ("\x7b", "IF") (by simp)) ?_
    rw [if_neg (by decide), ← List.append_nil (braces _)]
    refine .andThen
      (reads_body (reads_blockItems (hcanonical' other rfl) (hother other rfl) (by omega)
        (by omega))) fun b' hb' => ?_
    exact .pure (by simp only [unplaced, hb, hb'])

private theorem stopsAt_words : (∀ text ∈ ["TO", "STEP"], StopsAt 0 (keyword text)) ∧
    StopsAt levels.length (operator "=") := by
  decide +kernel

private theorem stmtReadBack_count {counter start finish : Expr} {step : Option Expr}
    {body : List Stmt}
    (hplace : counter.isPlace = true) (hcounter : counter.Canonical) (hstart : start.Canonical)
    (hfinish : finish.Canonical) (hstep : ∀ e ∈ step, Expr.Canonical e)
    (hcanonical : ∀ s ∈ body, s.Canonical) (hbody : ∀ s ∈ body, StmtReadBack style s) :
    StmtReadBack style (.count pos counter start finish step body) := by
  intro fuel hfuel
  simp only [Stmt.words, parens, braces, List.length_cons, List.length_append] at hfuel
  obtain ⟨fuel, rfl⟩ : ∃ n, fuel = n + 1 := ⟨fuel - 1, by omega⟩
  rw [Stmt.words]
  refine reads_keywordStmt (upper_keywords _ (by simp [keywords])) (fun _ => rfl) fun pos' => ?_
  rw [countRest, parens]
  simp only [List.cons_append, List.append_assoc, List.nil_append]
  refine .expect rfl ?_
  refine .bind (reads_place hcounter hplace (by omega)) (fun a ha => ?_)
    fun _ _ => stopsAt_words.2
  subst a
  refine .expect rfl ?_
  refine .bind ((readBack_of_canonical hstart).expression (by omega)) (fun a ha => ?_)
    fun _ _ => stopsAt_words.1 _ (by simp)
  subst a
  refine Reads.expectWord (w := keyword "TO") rfl (Text.sameWord_refl _) ?_
  -- What follows the step, which may be missing.
  have hrest : ∀ found : Option Expr, found = step → Reads (do
      expect ")"
      let loopBody ← Parser.body (statement fuel) fuel
      return Stmt.count pos' counter start finish found loopBody)
      (punctuation ")" :: braces (listWords style body))
      (fun next => Text.sameWord next.text "ELSE" = false)
      (fun s' => s'.unplaced = (Stmt.count pos counter start finish step body).unplaced) := by
    rintro _ rfl
    refine .expect rfl ?_
    rw [← List.append_nil (braces _)]
    refine .andThen (reads_body (reads_blockItems hcanonical hbody (by omega) (by omega)))
      fun b hb => ?_
    exact .pure (by simp only [unplaced, hb])
  cases step with
  | none =>
    refine .bind ((readBack_of_canonical hfinish).expression (by omega)) (fun a ha => ?_)
      fun _ _ => stopsAt_marks _ (by simp)
    subst a
    refine .checkWord false (fun _ _ => sameWord_eq_false (")", "STEP") (by simp)) ?_
    rw [if_neg (by decide), pure_bind]
    exact hrest none rfl
  | some step =>
    simp only [stepWords, List.length_cons] at hfuel
    refine .bind ((readBack_of_canonical hfinish).expression (by omega)) (fun a ha => ?_)
      fun _ _ => stopsAt_words.1 _ (by simp)
    subst a
    refine .checkWord true (fun _ _ => Text.sameWord_refl _) ?_
    rw [if_pos rfl]
    refine .step fun _ _ => ?_
    exact .bind (reads_some (hstep step rfl) (by omega))
      (fun found hfound => hrest found hfound) fun _ _ => stopsAt_marks _ (by simp)

private theorem stmtReadBack_whileLoop {condition : Expr} {body : List Stmt}
    (hcondition : condition.Canonical) (hcanonical : ∀ s ∈ body, s.Canonical)
    (hbody : ∀ s ∈ body, StmtReadBack style s) :
    StmtReadBack style (.whileLoop pos condition body) := by
  intro fuel hfuel
  simp only [Stmt.words, parens, braces, List.length_cons, List.length_append] at hfuel
  obtain ⟨fuel, rfl⟩ : ∃ n, fuel = n + 1 := ⟨fuel - 1, by omega⟩
  rw [Stmt.words]
  refine reads_keywordStmt (upper_keywords _ (by simp [keywords])) (fun _ => rfl) fun pos' => ?_
  refine .andThen (reads_condition ((readBack_of_canonical hcondition).expression (by omega)))
    fun a ha => ?_
  subst ha
  rw [← List.append_nil (braces _)]
  refine .andThen (reads_body (reads_blockItems hcanonical hbody (by omega) (by omega)))
    fun b hb => ?_
  exact .pure (by simp only [unplaced, hb])

private theorem stmtReadBack_untilLoop {condition : Expr} {body : List Stmt}
    (hcanonical : ∀ s ∈ body, s.Canonical) (hbody : ∀ s ∈ body, StmtReadBack style s)
    (hcondition : condition.Canonical) : StmtReadBack style (.untilLoop pos body condition) := by
  intro fuel hfuel
  simp only [Stmt.words, parens, braces, semicolon, List.length_cons, List.length_append] at hfuel
  obtain ⟨fuel, rfl⟩ : ∃ n, fuel = n + 1 := ⟨fuel - 1, by omega⟩
  rw [Stmt.words]
  refine reads_keywordStmt (upper_keywords _ (by simp [keywords])) (fun _ => rfl) fun pos' => ?_
  refine .andThen (reads_body (reads_blockItems hcanonical hbody (by omega) (by omega)))
    fun b hb => ?_
  refine Reads.expectWord (w := keyword "UNTIL") rfl (Text.sameWord_refl _) ?_
  refine .andThen (reads_condition ((readBack_of_canonical hcondition).expression (by omega)))
    fun a ha => ?_
  subst ha
  refine .consume rfl ?_
  exact .pure (by simp only [unplaced, hb])

private theorem reads_label {label : Option Expr} (h : ∀ e ∈ label, Expr.Canonical e)
    (hfuel : (labelWords style label).length ≤ fuel) :
    Reads (Parser.label fuel) (labelWords style label) stops (· = label) := by
  rw [Parser.label]
  cases label with
  | none =>
    rw [labelWords]
    refine .checkWord false (fun _ _ => sameWord_eq_false ("DEFAULT", "CASE") (by simp)) ?_
    refine .checkWord true (fun _ _ => Text.sameWord_refl _) ?_
    rw [if_neg (by decide), if_pos rfl]
    refine .step fun _ _ => ?_
    rw [pure_bind]
    exact .expect rfl (.pure rfl)
  | some e =>
    simp only [labelWords, List.length_cons, List.length_append] at hfuel
    rw [labelWords]
    refine .checkWord true (fun _ _ => Text.sameWord_refl _) ?_
    refine .checkWord false (fun _ _ => sameWord_eq_false ("CASE", "DEFAULT") (by simp)) ?_
    rw [if_pos rfl]
    refine .step fun _ _ => ?_
    refine .bind (reads_some (h e rfl) (by omega)) (fun found hfound => ?_)
      fun _ _ => stopsAt_marks _ (by simp)
    exact .expect rfl (.pure hfound)

private theorem labelWords_cons (style : Style) (label : Option Expr) (vs : List Spelling) :
    ∃ text rest, labelWords style label ++ vs = keyword text :: rest := by
  cases label with
  | none => exact ⟨_, _, rfl⟩
  | some e => exact ⟨_, _, rfl⟩

private theorem reads_alternatives {alternatives : List (Alternative Stmt)} {n : Nat}
    (hlabels : ∀ a ∈ alternatives, ∀ e ∈ a.label, Expr.Canonical e)
    (hcanonical : ∀ a ∈ alternatives, ∀ s ∈ a.body, s.Canonical)
    (hbodies : ∀ a ∈ alternatives, ∀ s ∈ a.body, StmtReadBack style s)
    (hfuel : (alternativeWords style alternatives).length < fuel)
    (hn : (alternativeWords style alternatives).length < n) :
    Reads (Parser.alternatives (statement fuel) fuel n) (alternativeWords style alternatives)
      (· = punctuation "\x7d")
      (fun found => unplacedAlternatives found = unplacedAlternatives alternatives) := by
  induction alternatives generalizing n with
  | nil =>
    obtain ⟨n, rfl⟩ : ∃ m, n = m + 1 := ⟨n - 1, by omega⟩
    rw [alternativeWords, Parser.alternatives]
    refine .check true (fun next hnext => ?_) ?_
    · subst hnext
      rfl
    refine .atEnd_any fun b => ?_
    rw [Bool.true_or, if_pos rfl]
    exact .pure rfl
  | cons a rest ih =>
    obtain ⟨label, body⟩ := a
    simp only [alternativeWords, braces, List.length_append, List.length_cons] at hfuel hn
    obtain ⟨n, rfl⟩ : ∃ m, n = m + 1 := ⟨n - 1, by omega⟩
    have hrest := ih (n := n) (fun x hx => hlabels x (List.mem_cons_of_mem _ hx))
      (fun x hx => hcanonical x (List.mem_cons_of_mem _ hx))
      (fun x hx => hbodies x (List.mem_cons_of_mem _ hx)) (by omega) (by omega)
    rw [alternativeWords, Parser.alternatives]
    obtain ⟨text, behind, hwords⟩ := labelWords_cons style label
      (braces (listWords style body) ++ alternativeWords style rest)
    refine .check false (fun _ _ => by rw [hwords]; rfl) ?_
    rw [hwords]
    refine .atEnd ?_
    rw [← hwords, Bool.or_self, if_neg (by decide)]
    refine .andThen (reads_label (hlabels _ List.mem_cons_self) (by omega)) fun found hfound => ?_
    subst hfound
    refine .check true (fun _ _ => rfl) ?_
    rw [if_pos rfl]
    refine .andThen
      (reads_block (reads_blockItems (hcanonical _ List.mem_cons_self)
        (hbodies _ List.mem_cons_self) (by omega) (by omega)))
      fun b hb => ?_
    rw [← List.append_nil (alternativeWords _ _)]
    refine .bind hrest (fun others hothers => ?_) fun _ hnext => hnext
    exact .pure (by simp only [unplacedAlternatives, hb, hothers])

private theorem stmtReadBack_switch {subject : Expr} {alternatives : List (Alternative Stmt)}
    {runsOn : Bool} (hsubject : subject.Canonical)
    (hlabels : ∀ a ∈ alternatives, ∀ e ∈ a.label, Expr.Canonical e)
    (hcanonical : ∀ a ∈ alternatives, ∀ s ∈ a.body, s.Canonical)
    (hbodies : ∀ a ∈ alternatives, ∀ s ∈ a.body, StmtReadBack style s) :
    StmtReadBack style (.switch pos subject alternatives runsOn) := by
  intro fuel hfuel
  simp only [Stmt.words, parens, braces, List.length_cons, List.length_append] at hfuel
  obtain ⟨fuel, rfl⟩ : ∃ n, fuel = n + 1 := ⟨fuel - 1, by omega⟩
  have hrest : ∀ pos', Reads (switchRest (statement fuel) fuel pos' runsOn)
      (parens (subject.words style) ++ braces (alternativeWords style alternatives))
      (fun next => Text.sameWord next.text "ELSE" = false)
      (fun s' => s'.unplaced = (Stmt.switch pos subject alternatives runsOn).unplaced) := by
    intro pos'
    rw [switchRest]
    refine .andThen (reads_condition ((readBack_of_canonical hsubject).expression (by omega)))
      fun a ha => ?_
    subst ha
    rw [braces]
    refine .expect rfl ?_
    refine .bind (reads_alternatives hlabels hcanonical hbodies (by omega) (by omega))
      (fun found hfound => ?_) fun _ _ => rfl
    refine .expect rfl ?_
    exact .pure (by simp only [unplaced, hfound])
  rw [Stmt.words]
  cases runsOn with
  | false =>
    exact reads_keywordStmt (upper_keywords "SWITCH" (by simp [keywords])) (fun _ => rfl) hrest
  | true =>
    exact reads_keywordStmt (upper_keywords "CSWITCH" (by simp [keywords])) (fun _ => rfl) hrest

private theorem stmtReadBack_wait {duration : Expr} {name : Option String}
    {body : Option (List Stmt)}
    (hduration : duration.Canonical) (hname : ∀ id ∈ name, Expr.IsName id)
    (hcanonical : ∀ b ∈ body, ∀ s ∈ b, s.Canonical)
    (hbody : ∀ b ∈ body, ∀ s ∈ b, StmtReadBack style s) :
    StmtReadBack style (.wait pos duration name body) := by
  intro fuel hfuel
  -- The duration and the name, with what the wait ends in behind them.
  have head : ∀ {fuel : Nat} {pos' : Position} {ws : List Spelling},
      (duration.words style).length ≤ fuel →
      Reads (do
        if ← check "\x7b" then
          return Stmt.wait pos' duration name (some (← block (statement fuel) fuel))
        else
          expect ";"
          return Stmt.wait pos' duration name none) ws
        (fun next => Text.sameWord next.text "ELSE" = false)
        (fun s' => s'.unplaced = (Stmt.wait pos duration name body).unplaced) →
      Reads (waitRest (statement fuel) fuel pos')
        (parens (duration.words style ++ nameWords name) ++ ws)
        (fun next => Text.sameWord next.text "ELSE" = false)
        (fun s' => s'.unplaced = (Stmt.wait pos duration name body).unplaced) := by
    intro fuel pos' ws hfuel hrest
    rw [waitRest, parens]
    simp only [List.cons_append, List.append_assoc, List.nil_append]
    refine .expect rfl ?_
    have hread : Reads (expression fuel) (duration.words style) (StopsAt 0) (· = duration) :=
      (readBack_of_canonical hduration).expression hfuel
    cases name with
    | none =>
      refine .bind hread (fun a ha => ?_) fun _ _ => stopsAt_marks _ (by simp)
      subst a
      refine .consume_not (fun _ _ => rfl) ?_
      rw [if_neg (by decide), pure_bind]
      exact .expect rfl hrest
    | some id =>
      refine .bind hread (fun a ha => ?_) fun _ _ => stopsAt_marks _ (by simp)
      subst a
      refine .consume rfl ?_
      rw [if_pos rfl, map_eq_pure_bind, bind_assoc]
      refine .expectName (hname id rfl).isName ?_
      rw [pure_bind]
      exact .expect rfl hrest
  cases body with
  | none =>
    simp only [Stmt.words, parens, semicolon, List.length_cons, List.length_append] at hfuel
    obtain ⟨fuel, rfl⟩ : ∃ n, fuel = n + 1 := ⟨fuel - 1, by omega⟩
    rw [Stmt.words]
    refine reads_keywordStmt (upper_keywords _ (by simp [keywords])) (fun _ => rfl) fun pos' => ?_
    refine head (by omega) ?_
    refine .check false (fun _ _ => rfl) ?_
    rw [if_neg (by decide)]
    refine .expect rfl ?_
    exact .pure rfl
  | some body =>
    simp only [Stmt.words, parens, braces, List.length_cons, List.length_append] at hfuel
    obtain ⟨fuel, rfl⟩ : ∃ n, fuel = n + 1 := ⟨fuel - 1, by omega⟩
    rw [Stmt.words]
    refine reads_keywordStmt (upper_keywords _ (by simp [keywords])) (fun _ => rfl) fun pos' => ?_
    refine head (by omega) ?_
    refine .check true (fun _ _ => rfl) ?_
    rw [if_pos rfl, ← List.append_nil (braces _)]
    refine .andThen
      (reads_block (reads_blockItems (hcanonical body rfl) (hbody body rfl) (by omega) (by omega)))
      fun b hb => ?_
    exact .pure (by simp only [unplaced, hb])

theorem Reads.following {v : Spelling} {f : String → Parser α} {post : α → Prop}
    (hf : Reads (f v.text) (w :: v :: ws) stops post) :
    Reads (get >>= fun s => f s.following.text) (w :: v :: ws) stops post := by
  intro s ts more hlocals hrest hts hstops
  have hfollowing : s.following.text = v.text := by
    obtain ⟨t, tail, rfl, -, htail⟩ := List.map_eq_cons_iff.mp hts
    obtain ⟨u, tail, rfl, rfl, -⟩ := List.map_eq_cons_iff.mp htail
    simp [ParserState.following, hrest, Token.spelling]
  have hget : (get : Parser ParserState) s = .ok s s := rfl
  rw [bind_ok hget, hfollowing]
  exact hf s ts more hlocals hrest hts hstops

theorem reads_simpleStmt {id : String} {post : Stmt → Prop} (h : Expr.IsName id)
    (hread : ∀ pos, Reads (simpleStmt (fuel + 1) pos) (word id :: ws) stops post) :
    Reads (statement (fuel + 1)) (word id :: ws) stops post := by
  have hname := h.isName
  have hkind : (word id).kind ≠ .keyword := by
    intro hkind
    simp [Token.isName, Spelling.token, hkind] at hname
  have hbrace : id ≠ "\x7b" := by
    rintro rfl
    obtain ⟨⟨c, cs, htext, hstart, -⟩, -⟩ := Expr.isName_iff.mp h
    obtain rfl : '\x7b' = c := (List.cons.inj htext).1
    exact absurd hstart (by decide)
  have hsemicolon : id ≠ ";" := by
    rintro rfl
    obtain ⟨⟨c, cs, htext, hstart, -⟩, -⟩ := Expr.isName_iff.mp h
    obtain rfl : ';' = c := (List.cons.inj htext).1
    exact absurd hstart (by decide)
  rw [statement]
  refine .current fun t ht => ?_
  obtain ⟨kind, text, pos⟩ := t
  obtain ⟨rfl, rfl⟩ : kind = (word id).kind ∧ text = id := by
    simpa [Token.spelling, word] using ht
  have hname' : Token.isName ⟨(word text).kind, text, pos⟩ = true := hname
  simp only [hkind, hbrace, hsemicolon, hname', if_true, if_false]
  exact hread pos

private theorem stmtReadBack_assign {target value : Expr} (hplace : target.isPlace = true)
    (htarget : target.Canonical) (hvalue : value.Canonical) :
    StmtReadBack style (.assign pos target value) := by
  intro fuel hfuel
  simp only [Stmt.words, semicolon, List.length_cons, List.length_append] at hfuel
  obtain ⟨fuel, rfl⟩ : ∃ n, fuel = n + 1 := ⟨fuel - 1, by omega⟩
  obtain ⟨id, v, behind, hid, -, hv, hwords⟩ := assigned_words style htarget hplace
    (value.words style ++ semicolon)
  rw [Stmt.words, hwords]
  refine reads_simpleStmt hid fun pos' => ?_
  rw [simpleStmt]
  refine Reads.following (f := fun text => if text = "(" then _ else _) ?_
  rw [if_neg hv, ← hwords]
  refine .bind (reads_place htarget hplace (by omega)) (fun a ha => ?_)
    fun _ _ => stopsAt_words.2
  subst a
  refine .expect rfl ?_
  refine .bind ((readBack_of_canonical hvalue).expression (by omega)) (fun a ha => ?_)
    fun _ _ => stopsAt_marks _ (by simp)
  subst a
  refine .expect rfl ?_
  exact .pure rfl

private theorem stmtReadBack_call {f : String} {args : List Expr}
    (h : (Expr.call f args).Canonical) :
    StmtReadBack style (.call pos (.call f args)) := by
  intro fuel hfuel
  have hnamed : Expr.IsName f := by
    cases h with
    | call named _ => exact named
  simp only [Stmt.words, semicolon, List.length_cons, List.length_append] at hfuel
  obtain ⟨fuel, rfl⟩ : ∃ n, fuel = n + 1 := ⟨fuel - 1, by omega⟩
  have hread : Reads (expression (fuel + 1)) ((Expr.call f args).words style) (StopsAt 0)
      (· = .call f args) :=
    (readBack_of_canonical h).expression (by omega)
  rw [Stmt.words]
  rw [Expr.words] at hread ⊢
  refine reads_simpleStmt hnamed fun pos' => ?_
  rw [simpleStmt]
  refine Reads.following (f := fun text => if text = "(" then _ else _) ?_
  rw [if_pos (by rfl)]
  refine .bind hread (fun a ha => ?_) fun _ _ => stopsAt_marks _ (by simp)
  subst ha
  refine .expect rfl ?_
  exact .pure rfl

private theorem stmtReadBack_returns {value : Option Expr} (h : ∀ e ∈ value, Expr.Canonical e) :
    StmtReadBack style (.returns pos value) := by
  intro fuel hfuel
  cases value with
  | none =>
    obtain ⟨fuel, rfl⟩ : ∃ n, fuel = n + 1 := ⟨fuel - 1, by simp [Stmt.words] at hfuel; omega⟩
    rw [Stmt.words]
    refine reads_keywordStmt (upper_keywords _ (by simp [keywords])) (fun _ => rfl) fun pos' => ?_
    rw [semicolon]
    refine .check true (fun _ _ => rfl) ?_
    rw [if_pos rfl, pure_bind]
    refine .expect rfl ?_
    exact .pure rfl
  | some value =>
    simp only [Stmt.words, semicolon, List.length_cons, List.length_append] at hfuel
    obtain ⟨fuel, rfl⟩ : ∃ n, fuel = n + 1 := ⟨fuel - 1, by omega⟩
    rw [Stmt.words]
    refine reads_keywordStmt (upper_keywords _ (by simp [keywords])) (fun _ => rfl) fun pos' => ?_
    refine .check false (fun next _ => ?_) ?_
    · have hhead : isMark ";" ((value.words style).headD next).token = false :=
        isMark_head_words (by simp) value next
      have hpos := Expr.words_pos style value
      cases hwords : value.words style with
      | nil => simp [hwords] at hpos
      | cons w ws =>
        rw [hwords] at hhead
        exact hhead
    rw [if_neg (by decide)]
    refine .bind (reads_some (h value rfl) (by omega)) (fun found hfound => ?_)
      fun _ _ => stopsAt_marks _ (by simp)
    refine .expect rfl ?_
    exact .pure (by rw [hfound]; rfl)

private theorem stmtReadBack_breaks : StmtReadBack style (.breaks pos) := by
  intro fuel hfuel
  obtain ⟨fuel, rfl⟩ : ∃ n, fuel = n + 1 := ⟨fuel - 1, by simp [Stmt.words] at hfuel; omega⟩
  rw [Stmt.words]
  refine reads_keywordStmt (upper_keywords _ (by simp [keywords])) (fun _ => rfl) fun pos' => ?_
  exact .expect rfl (.pure rfl)

private theorem stmtReadBack_terminateEvent : StmtReadBack style (.terminateEvent pos) := by
  intro fuel hfuel
  obtain ⟨fuel, rfl⟩ : ∃ n, fuel = n + 1 := ⟨fuel - 1, by simp [Stmt.words] at hfuel; omega⟩
  rw [Stmt.words]
  refine reads_keywordStmt (upper_keywords _ (by simp [keywords])) (fun _ => rfl) fun pos' => ?_
  exact .expect rfl (.pure rfl)

private theorem stmtReadBack_block {body : List Stmt} (hcanonical : ∀ s ∈ body, s.Canonical)
    (hbody : ∀ s ∈ body, StmtReadBack style s) : StmtReadBack style (.block pos body) := by
  intro fuel hfuel
  simp only [Stmt.words, braces, List.length_cons, List.length_append] at hfuel
  obtain ⟨fuel, rfl⟩ : ∃ n, fuel = n + 1 := ⟨fuel - 1, by omega⟩
  have hread : Reads (blockItems (statement fuel) fuel fuel) (listWords style body)
      (· = punctuation "\x7d") (fun body' => unplacedList body' = unplacedList body) :=
    reads_blockItems hcanonical hbody (by omega) (by omega)
  rw [Stmt.words, statement, braces]
  refine .current fun t ht => ?_
  obtain ⟨kind, text, pos'⟩ := t
  obtain ⟨rfl, rfl⟩ : kind = .punctuation ∧ text = "\x7b" := by
    simpa [Token.spelling, punctuation] using ht
  simp only [reduceCtorEq, if_false, if_true]
  change Reads _ (braces (listWords style body)) _ _
  rw [← List.append_nil (braces _)]
  refine .andThen (reads_block hread) fun b hb => ?_
  exact .pure (by simp only [unplaced, hb])

theorem stmtReadBack_of_canonical {s : Stmt} (h : s.Canonical) : StmtReadBack style s := by
  induction h with
  | branch hcondition hbody hother ihbody ihother =>
    exact stmtReadBack_branch hcondition hbody ihbody hother ihother
  | count place hcounter hstart hfinish hstep hbody ihbody =>
    exact stmtReadBack_count place hcounter hstart hfinish hstep hbody ihbody
  | whileLoop hcondition hbody ihbody => exact stmtReadBack_whileLoop hcondition hbody ihbody
  | untilLoop hbody hcondition ihbody => exact stmtReadBack_untilLoop hbody ihbody hcondition
  | switch hsubject hlabels hbodies ihbodies =>
    exact stmtReadBack_switch hsubject hlabels hbodies ihbodies
  | wait hduration hname hbody ihbody => exact stmtReadBack_wait hduration hname hbody ihbody
  | assign place htarget hvalue => exact stmtReadBack_assign place htarget hvalue
  | call hcall => exact stmtReadBack_call hcall
  | returns hvalue => exact stmtReadBack_returns hvalue
  | breaks => exact stmtReadBack_breaks
  | terminateEvent => exact stmtReadBack_terminateEvent
  | block hbody ihbody => exact stmtReadBack_block hbody ihbody

end ControlLogic.Parser
