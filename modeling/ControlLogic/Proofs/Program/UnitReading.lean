import ControlLogic.Proofs.Program.StmtRoundTrip
import ControlLogic.Proofs.Token.Lookup

/-!
Pieces of a program and their tokens: digital inputs and handlers of pushes, to be read one after
another with the functions.
-/

set_option autoImplicit false
set_option relaxedAutoImplicit false

namespace ControlLogic

open Spelling

def SignalName.inputWords (name : String) : List Spelling :=
  [word "DIGITAL_INPUT", word name, punctuation ";"]

namespace Stmt

def inHandler (style : Style) (signal : String) (body : List Stmt) : List Spelling :=
  keyword "PUSH" :: word signal :: braces (listWords style body)

/-- The tokens of a program with a digital input, a function, and a handler of pushes of it. -/
def unitWords (style : Style) (signal : String) (body action : List Stmt) : List Spelling :=
  SignalName.inputWords signal ++ (inFunction style body ++ inHandler style signal action)

end Stmt

namespace Parser

open Stmt

variable {fuel : Nat} {style : Style} {name : String} {body action : List Stmt}
  {stops : Spelling → Prop}

private theorem openingWords_unit :
    (Token.wordKind "DIGITAL_INPUT" = .signalType ∧
      SignalType.ofWord? "DIGITAL_INPUT" = some .digitalInput) ∧
    (Text.sameWord "PUSH" "STRUCTURE" = false ∧ Text.isOneOf "PUSH" handlerWords = true) ∧
    Text.sameWord "PUSH" "THREADSAFE" = false ∧ Trigger.ofWord? "PUSH" = some .push := by
  rw [Token.wordKind_eq_upperKind]
  decide +kernel

private theorem stands_inputWords (hname : Expr.IsName name) :
    ∀ w ∈ SignalName.inputWords name, w.Stands := by
  have hword : (word "DIGITAL_INPUT").Stands :=
    word_stands (isWord_of_toList rfl (by decide) (by decide))
  have hmark : (punctuation ";").Stands := punctuation_stands (by decide)
  simpa [SignalName.inputWords] using ⟨hword, hname.stands, hmark⟩

private theorem stands_inHandler (hname : Expr.IsName name) (hcanonical : ∀ s ∈ body, s.Canonical) :
    ∀ w ∈ inHandler style name body, w.Stands := by
  have hkeyword : (keyword "PUSH").Stands :=
    keyword_stands (isWord_of_toList rfl (by decide) (by decide)) (by decide)
  rw [inHandler, List.forall_mem_cons, List.forall_mem_cons]
  exact ⟨hkeyword, hname.stands,
    stands_braces (stands_listWords fun s hs => (hcanonical s hs).stands)⟩

private theorem reads_single {α : Type} {p : Parser α} {ws : List Spelling} {post : α → Prop}
    (h : Reads p ws stops post) (hcomma : ∀ next, stops next → isMark "," next.token = false) :
    Reads (commaList p (fuel + 1)) ws stops (fun found => ∃ a, found = [a] ∧ post a) := by
  rw [commaList, ← List.append_nil ws]
  refine .bind h (fun a ha => ?_) fun next hnext => hnext
  refine .consume_not hcomma ?_
  exact .pure ⟨a, rfl, ha⟩

private theorem reads_expectName (hname : Expr.IsName name) :
    Reads expectName [word name] stops (· = name) := by
  have hread : Reads (expectName >>= pure) [word name] stops (· = name) :=
    .expectName hname.isName (.pure rfl)
  rwa [bind_pure] at hread

private theorem reads_signalName (hname : Expr.IsName name) :
    Reads (signalName .digitalInput) [word name] (· = punctuation ";")
      (· = ⟨name, none, none⟩) := by
  rw [signalName]
  refine .expectName hname.isName ?_
  rw [dimensions, bind_assoc]
  refine .check false (fun next hnext => ?_) ?_
  · subst hnext
    rfl
  · exact .pure rfl

private theorem reads_signalDecl (hname : Expr.IsName name) :
    Reads (signalDecl (fuel + 1)) (SignalName.inputWords name) stops
      (fun d => ∃ p, d = ⟨.digitalInput, [⟨name, none, none⟩], p⟩) := by
  rw [signalDecl, SignalName.inputWords]
  refine .step fun t ht => ?_
  have htype : SignalType.ofWord? t.text = some .digitalInput := by
    rw [show t.text = "DIGITAL_INPUT" from congrArg Spelling.text ht]
    exact openingWords_unit.1.2
  rw [htype]
  have hnames : Reads (commaList (signalName .digitalInput) (fuel + 1)) [word name]
      (· = punctuation ";") (fun found => ∃ a, found = [a] ∧ a = ⟨name, none, none⟩) := by
    refine reads_single (reads_signalName hname) fun next hnext => ?_
    subst hnext
    rfl
  refine .bind hnames ?_ fun next _ => rfl
  rintro _ ⟨_, rfl, rfl⟩
  refine .expect rfl ?_
  exact .pure ⟨t.pos, rfl⟩

private theorem reads_input (hname : Expr.IsName name) :
    Reads (item (fuel + 1)) (SignalName.inputWords name) stops
      (fun found => ∃ p, found = .signals ⟨.digitalInput, [⟨name, none, none⟩], p⟩) := by
  have hread : Reads (Item.signals <$> signalDecl (fuel + 1)) (SignalName.inputWords name) stops
      (fun found => ∃ p, found = .signals ⟨.digitalInput, [⟨name, none, none⟩], p⟩) :=
    (reads_signalDecl hname).map fun d ⟨p, hd⟩ => ⟨p, by rw [hd]⟩
  rw [item]
  refine .current fun t ht => ?_
  have hkind : t.kind = .signalType := (congrArg Spelling.kind ht).trans openingWords_unit.1.1
  rw [hkind]
  exact hread

def IsHandler (signal : String) (body : List Stmt) (h : Handler) : Prop :=
  h.trigger = .push ∧ h.signal = signal ∧ h.locals = [] ∧
    h.body.map unplaced = body.map unplaced

private theorem reads_handlerItems (hname : Expr.IsName name) (hcanonical : ∀ s ∈ body, s.Canonical)
    (hfuel : (inHandler style name body).length ≤ fuel) :
    Reads (handlerItems fuel) (inHandler style name body) stops
      (fun found => ∃ h, found = [h] ∧ IsHandler name body h) := by
  simp only [inHandler, braces, List.length_cons, List.length_append] at hfuel
  obtain ⟨fuel, rfl⟩ : ∃ n, fuel = n + 1 := ⟨fuel - 1, by omega⟩
  have hblock : Reads (blockItems (statement (fuel + 1)) (fuel + 1) (fuel + 1))
      (listWords style body) (· = punctuation "\x7d")
      (fun body' => unplacedList body' = unplacedList body) :=
    reads_blockItems hcanonical (fun s hs => stmtReadBack_of_canonical (hcanonical s hs))
      (by omega) (by omega)
  obtain ⟨-, -, hthread, hpush⟩ := openingWords_unit
  rw [handlerItems, inHandler]
  refine .checkWord false (fun _ _ => hthread) ?_
  rw [if_neg (by decide)]
  refine .step fun t ht => ?_
  rw [show t.text = "PUSH" from congrArg Spelling.text ht, hpush]
  have hsignals : Reads (commaList expectName (fuel + 1)) [word name]
      (· = punctuation "\x7b") (fun found => ∃ a, found = [a] ∧ a = name) := by
    refine reads_single (reads_expectName hname) fun next hnext => ?_
    subst hnext
    rfl
  rw [← List.singleton_append, ← List.append_nil (braces _)]
  refine .bind hsignals ?_ fun next _ => rfl
  rintro _ ⟨_, rfl, rfl⟩
  refine .andThen (reads_bodyWithLocals (reads_block hblock)) fun found hfound => ?_
  obtain ⟨hlocals, hbody⟩ := hfound
  refine .pure ⟨_, rfl, rfl, rfl, hlocals, ?_⟩
  rw [← unplacedList_eq_map, ← unplacedList_eq_map]
  exact hbody

private theorem reads_handler (hname : Expr.IsName name) (hcanonical : ∀ s ∈ body, s.Canonical)
    (hfuel : (inHandler style name body).length ≤ fuel) :
    Reads (item fuel) (inHandler style name body) stops
      (fun found => ∃ h, found = .handlers [h] ∧ IsHandler name body h) := by
  obtain ⟨-, ⟨hstructure, hhandler⟩, -⟩ := openingWords_unit
  have hread : Reads (Item.handlers <$> handlerItems fuel) (inHandler style name body) stops
      (fun found => ∃ h, found = .handlers [h] ∧ IsHandler name body h) :=
    (reads_handlerItems hname hcanonical hfuel).map fun found ⟨h, hfound, hh⟩ =>
      ⟨h, by rw [hfound], hh⟩
  rw [item]
  rw [inHandler] at hread ⊢
  refine .current fun t ht => ?_
  obtain ⟨kind, text, pos⟩ := t
  obtain ⟨rfl, rfl⟩ : kind = .keyword ∧ text = "PUSH" := by
    simpa [Token.spelling, keyword] using ht
  simp only [hstructure, hhandler, Bool.false_eq_true, if_false, if_true]
  exact hread

private theorem stands_unitWords (hname : Expr.IsName name) (hbody : ∀ s ∈ body, s.Canonical)
    (haction : ∀ s ∈ action, s.Canonical) : ∀ w ∈ unitWords style name body action, w.Stands := by
  rw [unitWords, List.forall_mem_append, List.forall_mem_append]
  exact ⟨stands_inputWords hname, stands_inFunction hbody, stands_inHandler hname haction⟩

private theorem ofTokens_unitWords (style : Style) (hname : Expr.IsName name)
    (hbody : ∀ s ∈ body, s.Canonical) (haction : ∀ s ∈ action, s.Canonical) :
    ∃ pos f h, IsFunction body f ∧ IsHandler name action h ∧
      (Parser.ofTokens (Token.scan (unwords (unitWords style name body action)))).program =
        { signals := [⟨.digitalInput, [⟨name, none, none⟩], pos⟩]
          functions := [f]
          handlers := [h] } := by
  have hstands : ∀ w ∈ unitWords style name body action, w.Stands :=
    stands_unitWords hname hbody haction
  obtain ⟨ts, finish, hts, hstart⟩ := ofTokens_unwords hstands
  have hlength : ts.length = (unitWords style name body action).length := by
    rw [← hts, List.length_map]
  rw [unitWords, List.length_append, List.length_append] at hlength
  obtain ⟨n, hn⟩ : ∃ n, ts.length = n + 3 :=
    ⟨(inFunction style body).length + (inHandler style name action).length,
      hlength.trans (Nat.add_comm _ _)⟩
  have hfuel : ParserState.fuel { rest := ts, finish := finish } = n + 4 := by
    rw [ParserState.fuel, hn]
  have hinput : Reads (item (n + 4)) (SignalName.inputWords name) (fun _ => True) _ :=
    reads_input hname
  have hfunction : Reads (item (n + 4)) (inFunction style body) (fun _ => True) _ :=
    reads_item hbody (by omega)
  have hhandler : Reads (item (n + 4)) (inHandler style name action) (fun _ => True) _ :=
    reads_handler hname haction (by omega)
  obtain ⟨first, more, rfl, hfirst, hmore⟩ := List.map_eq_append_iff.mp hts
  obtain ⟨second, third, rfl, hsecond, hthird⟩ := List.map_eq_append_iff.mp hmore
  -- One round for each piece, and one that finds the end.
  obtain ⟨_, ⟨pos, rfl⟩, hround₁⟩ := items_cons hinput
    (s := { rest := first ++ (second ++ third), finish := finish }) rfl rfl hfirst (n + 3) {}
  obtain ⟨_, ⟨f, rfl, hf⟩, hround₂⟩ := items_cons hfunction
    (s := { rest := second ++ third, finish := finish, read := 3 }) rfl rfl hsecond (n + 2)
    { signals := [⟨.digitalInput, [⟨name, none, none⟩], pos⟩] }
  obtain ⟨_, ⟨h, rfl, hh⟩, hround₃⟩ := items_cons hhandler
    (s := { rest := third, finish := finish, read := 3 + (inFunction style body).length }) rfl
    (List.append_nil third).symm hthird (n + 1)
    { signals := [⟨.digitalInput, [⟨name, none, none⟩], pos⟩], functions := [f] }
  have hmain := hf.isMain
  have hadd : (Item.function f).addTo { signals := [⟨.digitalInput, [⟨name, none, none⟩], pos⟩] } =
      { signals := [⟨.digitalInput, [⟨name, none, none⟩], pos⟩], functions := [f] } := by
    simp [Item.addTo, hmain]
  rw [hadd] at hround₂
  have hitems := hround₁.trans (hround₂.trans (hround₃.trans (items_nil rfl _ _ _)))
  exact ⟨pos, f, h, hf, hh, by simp only [Parser.ofTokens, hstart, hfuel, hitems]; rfl⟩

end Parser

open ControlLogic.Parser Stmt in
theorem Program.parse_unitWords {name : String} {body action : List Stmt} (style : Style)
    (hname : Expr.IsName name) (hbody : ∀ s ∈ body, s.Canonical)
    (haction : ∀ s ∈ action, s.Canonical) (defines : List String) :
    ∃ pos f h, IsFunction body f ∧ IsHandler name action h ∧
      (parse (unwords (unitWords style name body action)) defines).program =
        { signals := [⟨.digitalInput, [⟨name, none, none⟩], pos⟩]
          functions := [f]
          handlers := [h] } := by
  obtain ⟨pos, f, h, hf, hh, hread⟩ := ofTokens_unitWords style hname hbody haction
  have hline : '\n' ∉ (unwords (unitWords style name body action)).toList :=
    newline_notMem_unwords (stands_unitWords hname hbody haction)
  have htext : ∃ cs, (unwords (unitWords style name body action)).toList = 'D' :: cs := by
    rw [unitWords, SignalName.inputWords, List.cons_append, List.cons_append, toList_unwords_cons]
    exact ⟨_, rfl⟩
  obtain ⟨cs, hcs⟩ := htext
  obtain ⟨hsource, hhelp⟩ := Source.resolve_line hcs hline (by decide) defines
  exact ⟨pos, f, h, hf, hh, by simp only [parse, hsource, hhelp, hread]⟩

end ControlLogic
