import ControlLogic.Program.Parser.Unit
import ControlLogic.Proofs.Program.StmtReading

/-!
Statements and their texts. A function with statements as its body is read back from its text with
nothing refused, up to the places of the statements.
-/

set_option autoImplicit false
set_option relaxedAutoImplicit false

namespace ControlLogic

open Spelling

namespace Stmt

def inFunction (style : Style) (body : List Stmt) : List Spelling :=
  keyword "FUNCTION" :: word "F" :: punctuation "(" :: punctuation ")" ::
    braces (listWords style body)

/-- A function as it is written, a blank between neighbouring tokens. -/
def printFunction (style : Style) (body : List Stmt) : String :=
  unwords (inFunction style body)

end Stmt

/-! ### Source without directives -/

namespace Source

private theorem lines_of_notMem {cs : List Char} (hne : cs ≠ []) (h : '\n' ∉ cs) :
    Text.lines cs = [cs] := by
  induction cs with
  | nil => exact absurd rfl hne
  | cons c rest ih =>
    have hc : c ≠ '\n' := fun heq => h (heq ▸ List.mem_cons_self)
    have hrest : '\n' ∉ rest := fun hmem => h (List.mem_cons_of_mem _ hmem)
    cases rest with
    | nil => simp [Text.lines]
    | cons d rest =>
      have hd : d ≠ '\n' := fun heq => hrest (heq ▸ List.mem_cons_self)
      rw [Text.lines, ih (by simp) hrest]
      · exact hc
      · rintro behind - heq
        exact hd (List.cons.inj heq).1

theorem resolve_line {text : String} {c : Char} {cs : List Char} (htext : text.toList = c :: cs)
    (hline : '\n' ∉ text.toList) (hstart : Token.isWordStart c = true) (defines : List String) :
    (resolve text defines).text = text ∧ (resolve text defines).help = "" := by
  have hlines : Text.lines text.toList = [text.toList] := by
    refine lines_of_notMem ?_ hline
    simp [htext]
  have hheading : Heading.ofLine? text.toList = none := by
    have hcode := toNat_of_isWordStart hstart
    have hblank : Text.isBlank c = false := by
      simp only [Text.isBlank, Bool.or_eq_false_iff, Bool.and_eq_false_imp, decide_eq_true_eq,
        decide_eq_false_iff_not, beq_eq_false_iff_ne]
      omega
    have hsign : c ≠ '#' := by
      apply ne_of_toNat_ne
      simp
      omega
    simp [Heading.ofLine?, Text.firstWord, Text.trimLeft, htext, hblank, hsign]
  have hlast : ¬ text.toList.getLast? = some '\n' := by
    intro hlast
    exact hline (List.mem_of_mem_getLast? hlast)
  have hfates : ∀ names, fates names ⟨0, false, []⟩ [text.toList] = [.kept] := by
    intro names
    simp [fates, Pass.step, hheading]
  simp only [resolve, hlines, hfates, hlast, if_false]
  simp [Fate.text]

end Source

/-! ### Functions -/

namespace Parser

open Stmt

variable {fuel : Nat} {style : Style} {body : List Stmt} {stops : Spelling → Prop}

theorem reads_bodyWithLocals {post : List Stmt → Prop} {ws : List Spelling}
    (h : Reads (block (statement fuel) fuel) ws stops post) :
    Reads (bodyWithLocals fuel) ws stops (fun found => found.1 = [] ∧ post found.2) := by
  intro s ts more hlocals hrest hts hstops
  obtain ⟨stmts, hpost, hread⟩ := h s ts more hlocals hrest hts hstops
  have hfresh : { s with locals := [] } = s := by
    cases s
    cases hlocals
    rfl
  refine ⟨([], stmts), ⟨rfl, hpost⟩, ?_⟩
  have hmodify : (modify fun s : ParserState => { s with locals := [] } : Parser PUnit) s =
      .ok () s := by
    change EStateM.Result.ok () { s with locals := [] } = _
    rw [hfresh]
  rw [bodyWithLocals, bind_ok hmodify, bind_ok hread]
  change EStateM.Result.ok (s.locals, stmts) _ = _
  rw [hlocals]

private theorem isName_F : Expr.IsName "F" :=
  Expr.isName_letter ⟨'F', [], rfl, by decide, by simp⟩ rfl

def IsFunction (body : List Stmt) (f : FunctionDef) : Prop :=
  f.name = "F" ∧ f.returnKind = .nothing ∧ f.params = [] ∧ f.locals = [] ∧
    f.body.map unplaced = body.map unplaced

theorem IsFunction.isMain {f : FunctionDef} (h : IsFunction body f) : f.isMain = false := by
  rw [FunctionDef.isMain, h.1]
  decide +kernel

private theorem reads_functionDef (hcanonical : ∀ s ∈ body, s.Canonical)
    (hfuel : (inFunction style body).length ≤ fuel) :
    Reads (functionDef fuel) (inFunction style body) stops (IsFunction body) := by
  simp only [inFunction, braces, List.length_cons, List.length_append] at hfuel
  have hblock : Reads (blockItems (statement fuel) fuel fuel) (listWords style body)
      (· = punctuation "\x7d") (fun body' => unplacedList body' = unplacedList body) :=
    reads_blockItems hcanonical (fun s hs => stmtReadBack_of_canonical (hcanonical s hs))
      (by omega) (by omega)
  rw [functionDef, inFunction]
  refine .step fun t ht => ?_
  have htext : t.text = "FUNCTION" := congrArg Spelling.text ht
  have hreturn : returnOf t.text = (.nothing, none) := by
    rw [htext]
    decide +kernel
  simp only [hreturn]
  refine .expectName isName_F.isName ?_
  refine .expect rfl ?_
  refine .check true (fun _ _ => rfl) ?_
  rw [if_pos rfl, pure_bind]
  refine .expect rfl ?_
  rw [← List.append_nil (braces _)]
  refine .andThen (reads_bodyWithLocals (reads_block hblock)) fun found hfound => ?_
  obtain ⟨hlocals, hbody⟩ := hfound
  refine .pure ⟨rfl, rfl, rfl, hlocals, ?_⟩
  rw [← unplacedList_eq_map, ← unplacedList_eq_map]
  exact hbody

theorem reads_item (hcanonical : ∀ s ∈ body, s.Canonical)
    (hfuel : (inFunction style body).length ≤ fuel) :
    Reads (item fuel) (inFunction style body) stops
      (fun found => ∃ f, found = .function f ∧ IsFunction body f) := by
  have hstructure : Text.sameWord "FUNCTION" "STRUCTURE" = false := by decide +kernel
  have hhandler : Text.isOneOf "FUNCTION" handlerWords = false := by decide +kernel
  have hfunction : Text.isOneOf "FUNCTION" functionWords = true := by decide +kernel
  have hread : Reads (Item.function <$> functionDef fuel) (inFunction style body) stops
      (fun found => ∃ f, found = .function f ∧ IsFunction body f) :=
    (reads_functionDef hcanonical hfuel).map fun f hf => ⟨f, rfl, hf⟩
  rw [item]
  rw [inFunction] at hread ⊢
  refine .current fun t ht => ?_
  obtain ⟨kind, text, pos⟩ := t
  obtain ⟨rfl, rfl⟩ : kind = .keyword ∧ text = "FUNCTION" := by
    simpa [Token.spelling, keyword] using ht
  simp only [hstructure, hhandler, hfunction, Bool.false_eq_true, if_false, if_true]
  exact hread

theorem stands_inFunction (hcanonical : ∀ s ∈ body, s.Canonical) :
    ∀ w ∈ inFunction style body, w.Stands := by
  have hmarks : ∀ text ∈ ["(", ")"], (punctuation text).Stands := fun text htext =>
    punctuation_stands (by revert text; decide)
  rw [inFunction, List.forall_mem_cons, List.forall_mem_cons, List.forall_mem_cons,
    List.forall_mem_cons]
  exact ⟨keywords_stand _ (by simp [keywords]), isName_F.stands, hmarks _ (by simp),
    hmarks _ (by simp), stands_braces (stands_listWords fun s hs => (hcanonical s hs).stands)⟩

theorem items_nil {s : ParserState} (h : s.rest = []) (allFuel fuel : Nat) (p : Program) :
    items allFuel (fuel + 1) p s = .ok p s := by
  have hend : Parser.atEnd s = .ok true s := by
    change EStateM.Result.ok s.rest.isEmpty s = _
    rw [h]
    rfl
  rw [items, bind_ok hend]
  rfl

theorem items_cons {allFuel : Nat} {w : Spelling} {ws : List Spelling} {post : Item → Prop}
    (h : Reads (item allFuel) (w :: ws) (fun _ => True) post) {s : ParserState}
    {ts more : List Token} (hlocals : s.locals = []) (hrest : s.rest = ts ++ more)
    (hts : ts.map Token.spelling = w :: ws) (fuel : Nat) (p : Program) :
    ∃ found, post found ∧ items allFuel (fuel + 1) p s =
      items allFuel fuel (found.addTo p)
        { s with rest := more, read := s.read + (ws.length + 1) } := by
  obtain ⟨_, ⟨found, rfl, hfound⟩, hread⟩ := h.recovering s ts more hlocals hrest hts trivial
  refine ⟨found, hfound, ?_⟩
  have hget : ∀ s : ParserState, (get : Parser ParserState) s = .ok s s := fun _ => rfl
  have hend : Parser.atEnd s = .ok false s := by
    obtain ⟨t, ts, rfl⟩ : ∃ t ts', ts = t :: ts' := by
      cases ts with
      | nil => cases hts
      | cons t ts => exact ⟨t, ts, rfl⟩
    change EStateM.Result.ok s.rest.isEmpty s = _
    rw [hrest]
    rfl
  rw [items, bind_ok hend]
  simp only [Bool.false_eq_true, if_false]
  rw [bind_ok (hget _), bind_ok hread, bind_ok (hget _)]
  have hprogress : ¬ s.read + (w :: ws).length = s.read := by
    rw [List.length_cons]
    omega
  simp only [hprogress, if_false, Option.getD_some]
  rfl

private theorem ofTokens_inFunction (style : Style) (hcanonical : ∀ s ∈ body, s.Canonical) :
    ∃ f, IsFunction body f ∧
      Parser.ofTokens (Token.scan (printFunction style body)) =
        ⟨{ functions := [f] }, [], false⟩ := by
  have hstands : ∀ w ∈ inFunction style body, w.Stands := stands_inFunction hcanonical
  obtain ⟨ts, finish, hts, hstart⟩ := ofTokens_unwords hstands
  have hlength : ts.length = (inFunction style body).length := by rw [← hts, List.length_map]
  have hread : Reads (item (ts.length + 1)) (inFunction style body) (fun _ => True)
      (fun found => ∃ f, found = .function f ∧ IsFunction body f) :=
    reads_item hcanonical (by omega)
  -- The first round reads the function, the second one finds the end.
  obtain ⟨_, ⟨f, rfl, hf⟩, hround⟩ := items_cons (s := { rest := ts, finish := finish }) hread rfl
    (List.append_nil ts).symm hts ts.length {}
  have hmain := hf.isMain
  have hadd : (Item.function f).addTo {} = { functions := [f] } := by
    simp [Item.addTo, hmain]
  obtain ⟨n, hn⟩ : ∃ n, ts.length = n + 1 :=
    ⟨(braces (listWords style body)).length + 3, hlength⟩
  have hfuel : ParserState.fuel { rest := ts, finish := finish } = ts.length + 1 := rfl
  refine ⟨f, hf, ?_⟩
  simp only [Parser.ofTokens, printFunction, hstart, hfuel, hround, hadd]
  rw [hn, items_nil rfl]

private theorem toList_printFunction (style : Style) (hcanonical : ∀ s ∈ body, s.Canonical) :
    '\n' ∉ (printFunction style body).toList ∧
      ∃ cs, (printFunction style body).toList = 'F' :: cs := by
  constructor
  · exact newline_notMem_unwords (stands_inFunction hcanonical)
  · rw [printFunction, inFunction, toList_unwords_cons]
    exact ⟨_, rfl⟩

/-- The text of a function whose body consists of statements that can be written is read, for any
names defined, with nothing refused, as the program of this one function, which declares no
variables and has the statements as its body, up to their places. -/
theorem statements_read_back (style : Style) (body : List Stmt) (defines : List String)
    (hcanonical : ∀ s ∈ body, s.Canonical) :
    ∃ f : FunctionDef,
      (Program.parse (printFunction style body) defines).program = { functions := [f] } ∧
      (Program.parse (printFunction style body) defines).errors = [] ∧
      (Program.parse (printFunction style body) defines).stuck = false ∧
      f.name = "F" ∧ f.params = [] ∧ f.locals = [] ∧
      f.body.map unplaced = body.map unplaced := by
  obtain ⟨f, ⟨hname, -, hparams, hlocals, hbody⟩, hread⟩ :=
    ofTokens_inFunction style hcanonical
  obtain ⟨hline, cs, htext⟩ := toList_printFunction style hcanonical
  obtain ⟨hsource, hhelp⟩ := Source.resolve_line htext hline (by decide) defines
  refine ⟨f, ?_, ?_, ?_, hname, hparams, hlocals, hbody⟩
  · simp only [Program.parse, hsource, hhelp, hread]
  · simp only [Program.parse, hsource, hread]
  · simp only [Program.parse, hsource, hread]

/-- Nested bodies, both kinds of waits, a switch with a default and a grid element assigned to. -/
theorem nested_statements_read_back :
    let body : List Stmt :=
      [.branch .start (.binary .lt (.name "x") (.number (-1)))
        [.untilLoop .start [.breaks .start] (.name "x")]
        (some [.count .start (.name "i") (.number 1) (.number 2) (some (.number 1))
          [.assign .start (.element "g" (.binary .pair (.name "i") (.number 1))) (.name "x")]]),
        .wait .start (.number 5) (some "w") (some []), .wait .start (.number 5) none none,
        .switch .start (.name "x") [⟨some (.number 1), [.call .start (.call "f" [.text "a"])]⟩,
          ⟨none, [.returns .start none]⟩] true]
    (∀ s ∈ body, s.Canonical) ∧ ∃ f : FunctionDef,
      (Program.parse (printFunction .last body) []).program = { functions := [f] } ∧
      (Program.parse (printFunction .last body) []).errors = [] ∧
      (Program.parse (printFunction .last body) []).stuck = false ∧
      f.name = "F" ∧ f.params = [] ∧ f.locals = [] ∧
      f.body.map unplaced = body.map unplaced := by
  have hletters : ∀ id ∈ ["x", "i", "g", "w", "f"], Expr.IsName id := by
    intro id hid
    simp only [List.mem_cons, List.not_mem_nil, or_false] at hid
    rcases hid with rfl | rfl | rfl | rfl | rfl <;>
      exact Expr.isName_letter ⟨_, [], rfl, by decide, by simp⟩ rfl
  simp only [List.forall_mem_cons] at hletters
  obtain ⟨hx, hi, hg, hw, hf, -⟩ := hletters
  have hnumber : ∀ n : Int, -1 ≤ n → n ≤ 5 → (Expr.number n).Canonical :=
    fun n hlow hhigh => .number (by omega) (by omega)
  have hone := hnumber 1 (by decide) (by decide)
  have hfive := hnumber 5 (by decide) (by decide)
  have huntil : (Stmt.untilLoop .start [.breaks .start] (.name "x")).Canonical :=
    .untilLoop (by simpa using .breaks) (.name hx)
  have hassign : (Stmt.assign .start (.element "g" (.binary .pair (.name "i") (.number 1)))
      (.name "x")).Canonical :=
    .assign rfl (.grid hg (.name hi) hone) (.name hx)
  have hcount : ∀ body : List Stmt, (∀ s ∈ body, s.Canonical) →
      (Stmt.count .start (.name "i") (.number 1) (.number 2) (some (.number 1)) body).Canonical :=
    fun body hbody => .count rfl (.name hi) hone (hnumber 2 (by decide) (by decide))
      (by simpa using hone) hbody
  have hcall : (Stmt.call .start (.call "f" [.text "a"])).Canonical :=
    .call (.call hf (by simpa using .text _))
  intro body
  have hbody : ∀ s ∈ body, s.Canonical := by
    simp only [body, List.forall_mem_cons]
    refine ⟨.branch ?_ (by simpa using huntil) ?_, .wait hfive (by simpa using hw) (by simp),
      .wait hfive (by simp) (by simp), .switch (.name hx) (by simpa using hone) ?_, by simp⟩
    · exact .binary (by decide) (.name hx) (hnumber _ (by decide) (by decide))
    · simpa using hcount _ (by simpa using hassign)
    · simpa using ⟨hcall, .returns (by simp)⟩
  exact ⟨hbody, statements_read_back .last body [] hbody⟩

end Parser

end ControlLogic
