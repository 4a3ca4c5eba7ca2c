import Mathlib.Data.List.TakeDrop
import ControlLogic.Program.Parser.Unit
import ControlLogic.Proofs.Program.StmtAlike

/-!
Whole programs read from two inputs that are equal up to case. The programs read are equal up to the
case of their names, and so are the wordings of what was refused.
-/

set_option autoImplicit false
set_option relaxedAutoImplicit false

namespace ControlLogic

open Text (upper Caseless)

namespace Parser

/-! ### Structures -/

private theorem alike_fields {name name' : String} (h : upper name = upper name')
    (allFuel fuel : Nat) :
    Alike (List.map VariableDecl.folded) (fields name allFuel fuel)
      (fields name' allFuel fuel) := by
  have hfield : Alike (List.map VariableDecl.folded)
      (do
        if ← startsVariableDecl then variableDecls allFuel
        else Parser.fail (.expectedField name (← current).text))
      (do
        if ← startsVariableDecl then variableDecls allFuel
        else Parser.fail (.expectedField name' (← current).text)) := by
    refine alike_startsVariableDecl.andThen fun starts => ?_
    refine .ite Iff.rfl (fun _ _ => alike_variableDecls allFuel) fun _ _ => ?_
    refine .current fun t u ht => ?_
    exact .fail (congrArg₂ ParseCause.expectedField h (Token.upper_eq ht))
  induction fuel with
  | zero => exact alike_stuck
  | succ fuel ih =>
    rw [fields, fields]
    refine (alike_check (by simp)).andThen fun closed => alike_atEnd.andThen fun ended => ?_
    refine .ite Iff.rfl (fun _ _ => .pure rfl) fun _ _ => .get fun s t hst => ?_
    refine hfield.recovering.bind fun decls decls' hdecls => .get fun s' t' hst' => ?_
    refine .ite (by rw [hst'.read, hst.read]) (fun _ _ => alike_stuck) fun _ _ => ?_
    refine ih.bind fun more more' hmore => .pure ?_
    rw [List.map_append, map_getD_eq hdecls, hmore, List.map_append]

private theorem alike_structureDef (fuel : Nat) :
    Alike StructureDef.folded (structureDef fuel) (structureDef fuel) := by
  refine alike_advance.bind fun t u h => alike_expectName.bind fun name name' hname => ?_
  refine Alike.andThen (.modify fun s t hst => ?_) fun _ => ?_
  · exact { hst with structures := congrArg₂ List.cons hname hst.structures }
  refine (alike_expect (by simp)).andThen fun _ => ?_
  refine (alike_fields hname fuel fuel).bind fun decls decls' hdecls => ?_
  refine (alike_expect (by simp)).andThen fun _ => ?_
  refine (alike_consume (by simp)).andThen fun _ => .pure ?_
  rw [StructureDef.folded, StructureDef.folded, hname, hdecls, Token.pos_eq h]

/-! ### Directives -/

def Item.folded : Item → Item
  | symbolName name d => symbolName (upper name) d.folded
  | constant c d => constant c.folded d.folded
  | directive d => directive d.folded
  | signals d => signals d.folded
  | globals ds => globals (ds.map VariableDecl.folded)
  | structureDef d => structureDef d.folded
  | handlers hs => handlers (hs.map Handler.folded)
  | function f => function f.folded
  | nothing => nothing

private theorem isMain_folded (f : FunctionDef) : f.folded.isMain = f.isMain :=
  Text.sameWord_congr (Text.upper_upper f.name) "main"

private theorem folded_addTo (p : Program) (item : Item) :
    (item.addTo p).folded = item.folded.addTo p.folded := by
  cases item with
  | function f =>
    rw [Item.addTo, Item.folded, Item.addTo, isMain_folded]
    split
    · rfl
    · simp [Program.folded]
  | _ => simp [Item.addTo, Item.folded, Program.folded]

private theorem constantValue?_folded (s : ParserState) (args : List Token) :
    constantValue? s (args.map Token.folded) = constantValue? s args := by
  have hconstant (t : Token) : s.constant? t.folded.text = s.constant? t.text := by
    rw [ParserState.constant?, Token.upper_folded_text, ParserState.constant?]
  rcases args with _ | ⟨t, _ | ⟨u, _ | ⟨_, _⟩⟩⟩
  · rfl
  · simp only [List.map_cons, List.map_nil, constantValue?, Token.folded_kind,
      Token.number_eq t.folded_folded, hconstant]
    split
    next hkind => rw [Token.folded_text hkind]
    all_goals rfl
  · have hminus : t.folded.text = "-" ↔ t.text = "-" :=
      Caseless.eq_iff (by simp) t.upper_folded_text
    simp only [List.map_cons, List.map_nil, constantValue?, Token.folded_kind,
      Token.number_eq u.folded_folded, hminus]
  · rfl

private theorem constantValue?_eq {s t : ParserState} (hst : s.Like t) {args args' : List Token}
    (h : args.map Token.folded = args'.map Token.folded) :
    constantValue? s args = constantValue? t args' := by
  rw [← constantValue?_folded, h, constantValue?_folded]
  unfold constantValue? ParserState.constant?
  rw [hst.constants]

private theorem directiveName_eq {t u : Token} (h : t.folded = u.folded) :
    directiveName t = directiveName u := by
  have hsign (c : Char) : (c.toUpper == '#') = (c == '#') :=
    Text.insensitive_of_letters (f := (· == '#')) (by decide) c
  rw [directiveName, directiveName, Text.upper_ofList, Text.upper_ofList,
    ← Text.dropWhile_map_toUpper hsign, ← Text.dropWhile_map_toUpper hsign,
    Text.upper_eq_upper_iff.mp (Token.upper_eq h)]

private theorem alike_restOfLine (line : Nat) :
    Alike (List.map Token.folded) (restOfLine line) (restOfLine line) := by
  refine .modifyGet fun s t hst => ?_
  have hline : ∀ t : Token, (t.folded.pos.line == line) = (t.pos.line == line) :=
    fun t => by rw [Token.folded_pos]
  have hargs := Token.takeWhile_eq (p := (·.pos.line == line)) hline hst.rest
  have hread := congrArg List.length hargs
  rw [List.length_map, List.length_map] at hread
  simp only [List.span_eq_takeWhile_dropWhile]
  exact ⟨hargs, { hst with
    rest := Token.dropWhile_eq (p := (·.pos.line == line)) hline hst.rest
    read := congrArg₂ (· + ·) hst.read hread }⟩

/-- What follows the arguments of a directive that declares a constant. -/
def constantItem (pos : Position) (d : Directive) (name : Token) (values : List Token) :
    Parser Item := do
  match constantValue? (← get) values with
  | none => failAt name.pos (.constantWithoutValue name.text)
  | some value =>
    if let .number n := value then
      modify fun s => { s with constants := (Text.upper name.text, n) :: s.constants }
    return .constant ⟨name.text, value, pos⟩ d

def directiveBehind (pos : Position) (d : Directive) (args : List Token) : Parser Item :=
  match d.name, args with
  | "SYMBOL_NAME", arg :: _ =>
    return .symbolName (if arg.kind = .text then Token.literalText arg.text else arg.text) d
  | "DEFINE_CONSTANT", [] => failAt pos .constantWithoutName
  | "DEFINE_CONSTANT", name :: values => constantItem pos d name values
  | _, _ => return .directive d

private theorem directiveItem_eq :
    directiveItem = (do
      let t ← advance
      let args ← restOfLine t.pos.line
      directiveBehind t.pos ⟨directiveName t, " ".intercalate (args.map Token.text), t.pos⟩ args) :=
  rfl

private theorem directive_eq {t u : Token} (h : t.folded = u.folded) {args args' : List Token}
    (hargs : args.map Token.folded = args'.map Token.folded) :
    Directive.folded ⟨directiveName t, " ".intercalate (args.map Token.text), t.pos⟩ =
      Directive.folded ⟨directiveName u, " ".intercalate (args'.map Token.text), u.pos⟩ := by
  have htexts := congrArg (List.map fun t => upper t.text) hargs
  simp only [List.map_map, Function.comp_def, Token.upper_folded_text] at htexts
  simp only [Directive.folded, Text.upper_intercalate, List.map_map, Function.comp_def, htexts,
    directiveName_eq h, Token.pos_eq h]

private theorem alike_constantItem (pos : Position) {d d' : Directive} (hd : d.folded = d'.folded)
    {name name' : Token} (hname : name.folded = name'.folded) {values values' : List Token}
    (h : values.map Token.folded = values'.map Token.folded) :
    Alike Item.folded (constantItem pos d name values) (constantItem pos d' name' values') := by
  have hconstant (value : Value) :
      Item.folded (.constant ⟨name.text, value, pos⟩ d) =
        Item.folded (.constant ⟨name'.text, value, pos⟩ d') := by
    rw [Item.folded, Constant.folded, Token.upper_eq hname, hd, Item.folded, Constant.folded]
  refine .get fun s t hst => ?_
  rw [constantValue?_eq hst h]
  split
  · refine .failAt (Token.pos_eq hname) ?_
    exact congrArg ParseCause.constantWithoutValue (Token.upper_eq hname)
  next value _ =>
    cases value with
    | number n =>
      refine Alike.andThen (.modify fun s t hst => ?_) fun _ => .pure (hconstant _)
      have hconstants := congrArg₂ (fun name old => (name, n) :: old) (Token.upper_eq hname)
        hst.constants
      exact { hst with constants := hconstants }
    | text s => exact .pure (hconstant _)

private theorem symbolName_eq {t u : Token} (h : t.folded = u.folded) :
    upper (if t.kind = .text then Token.literalText t.text else t.text) =
      upper (if u.kind = .text then Token.literalText u.text else u.text) := by
  by_cases hkind : t.kind = .text
  · rw [if_pos hkind, if_pos ((Token.kind_eq h).symm.trans hkind), Token.literal_eq h hkind]
  · rw [if_neg hkind, if_neg (Token.kind_eq h ▸ hkind), Token.upper_eq h]

private theorem alike_directiveBehind (pos : Position) {d d' : Directive}
    (hd : d.folded = d'.folded)
    {args args' : List Token} (hargs : args.map Token.folded = args'.map Token.folded) :
    Alike Item.folded (directiveBehind pos d args) (directiveBehind pos d' args') := by
  have hname := congrArg Directive.name hd
  change d.name = d'.name at hname
  unfold directiveBehind
  rw [hname]
  cases args with
  | nil =>
    obtain rfl : args' = [] := List.map_eq_nil_iff.mp hargs.symm
    split
    next heq => cases heq
    · exact .failAt rfl rfl
    next heq => cases heq
    · exact .pure (congrArg Item.directive hd)
  | cons arg rest =>
    obtain ⟨arg', rest', rfl, harg, hrest⟩ := List.map_eq_cons_iff.mp hargs.symm
    split
    next hsymbol heq =>
      obtain ⟨rfl, rfl⟩ := List.cons.inj heq
      rw [hsymbol]
      exact .pure (congrArg₂ Item.symbolName (symbolName_eq harg.symm) hd)
    next heq => cases heq
    next hconstant heq =>
      obtain ⟨rfl, rfl⟩ := List.cons.inj heq
      rw [hconstant]
      exact alike_constantItem pos hd harg.symm hrest.symm
    next hsymbol _ hconstant =>
      split
      next hname _ => exact (hsymbol _ _ hname rfl).elim
      next heq => cases heq
      next hname _ => exact (hconstant _ _ hname rfl).elim
      · exact .pure (congrArg Item.directive hd)

private theorem alike_directiveItem : Alike Item.folded directiveItem directiveItem := by
  rw [directiveItem_eq]
  refine alike_advance.bind fun t u h => ?_
  rw [Token.pos_eq h]
  refine (alike_restOfLine u.pos.line).bind fun args args' hargs => ?_
  have hd := directive_eq h hargs
  rw [Token.pos_eq h] at hd
  exact alike_directiveBehind u.pos hd hargs

/-! ### Functions and handlers -/

private theorem alike_bodyWithLocals (fuel : Nat) :
    Alike (Prod.map (List.map VariableDecl.folded) (List.map Stmt.folded)) (bodyWithLocals fuel)
      (bodyWithLocals fuel) := by
  refine Alike.andThen (.modify fun s t hst => { hst with locals := rfl }) fun _ => ?_
  refine (alike_block (alike_statement fuel) fuel).bind fun stmts stmts' hstmts => ?_
  have htaken : Alike (List.map VariableDecl.folded)
      (modifyGet fun s => (s.locals, { s with locals := [] }))
      (modifyGet fun s => (s.locals, { s with locals := [] })) :=
    .modifyGet fun s t hst => ⟨hst.locals, { hst with locals := rfl }⟩
  exact htaken.bind fun locals locals' hlocals => .pure (congrArg₂ Prod.mk hlocals hstmts)

private theorem trigger_eq {t u : Token} (h : t.folded = u.folded) :
    Trigger.ofWord? t.text = Trigger.ofWord? u.text := by
  rw [Trigger.ofWord?, Token.upper_eq h, Trigger.ofWord?]

private theorem alike_handlerItems (fuel : Nat) :
    Alike (List.map Handler.folded) (handlerItems fuel) (handlerItems fuel) := by
  have hhandlers (trigger : Trigger) (pos : Position) (signals : List String)
      (locals : List VariableDecl) (body : List Stmt) :
      (signals.map (Handler.mk trigger · locals body pos)).map Handler.folded =
        (signals.map upper).map
          (Handler.mk trigger · (locals.map VariableDecl.folded) (body.map Stmt.folded) pos) := by
    rw [List.map_map, List.map_map]
    rfl
  refine (alike_checkWord "THREADSAFE").andThen fun found => ?_
  refine .ite Iff.rfl (fun _ _ => alike_advance.bind fun _ _ _ => ?_) fun _ _ => ?_
  all_goals
    refine alike_advance.bind fun t u h => ?_
    rw [trigger_eq h, Token.pos_eq h]
    split
    · exact .failAt rfl rfl
    refine (alike_commaList alike_expectName fuel).bind fun signals signals' hsignals => ?_
    refine (alike_bodyWithLocals fuel).bind fun (locals, body) (locals', body') hparts => .pure ?_
    obtain ⟨hlocals, hbody⟩ := Prod.mk.inj hparts
    rw [hhandlers, hhandlers, hsignals, hlocals, hbody]

private theorem returnOf_eq {t u : Token} (h : t.folded = u.folded) :
    returnOf t.text = returnOf u.text := by
  rw [returnOf, Token.upper_eq h, returnOf]

private theorem alike_parameterBrackets (fuel : Nat) :
    Alike id (parameterBrackets fuel) (parameterBrackets fuel) := by
  induction fuel with
  | zero => exact alike_stuck
  | succ fuel ih =>
    rw [parameterBrackets]
    refine (alike_consume (by simp)).andThen fun found => ?_
    refine .ite Iff.rfl (fun _ _ => ?_) fun _ _ => .pure rfl
    have hrest : Alike id (do expect "]"; let _ ← parameterBrackets fuel; return true)
        (do expect "]"; let _ ← parameterBrackets fuel; return true) :=
      (alike_expect (by simp)).andThen fun _ => ih.andThen fun _ => .pure rfl
    refine (alike_check (by simp)).andThen fun empty => .ite Iff.rfl (fun _ _ => ?_) fun _ _ => ?_
    · exact hrest
    · exact alike_advance.bind fun _ _ _ => hrest

private theorem alike_parameter (fuel : Nat) :
    Alike Parameter.folded (parameter fuel) (parameter fuel) := by
  rw [parameter]
  refine (alike_checkWord "BYREF").andThen fun byRef => ?_
  refine (alike_checkWord "BYVAL").andThen fun byVal => ?_
  have hname {type type' : VariableType} (htype : type.folded = type'.folded) :
      Alike Parameter.folded
        (do
          let name ← expectName
          let isArray ← parameterBrackets fuel
          return (⟨type, name, byRef, isArray⟩ : Parameter))
        (do
          let name ← expectName
          let isArray ← parameterBrackets fuel
          return (⟨type', name, byRef, isArray⟩ : Parameter)) := by
    refine alike_expectName.bind fun name name' hname => ?_
    refine (alike_parameterBrackets fuel).andThen fun isArray => .pure ?_
    rw [Parameter.folded, htype, hname, Parameter.folded]
  have hrefused {pos : Position} {cause cause' : ParseCause} (h : cause.folded = cause'.folded) :
      Alike VariableType.folded (failAt pos cause) (failAt pos cause') := .failAt rfl h
  refine .ite Iff.rfl (fun _ _ => alike_advance.bind fun _ _ _ => ?_) fun _ _ => ?_
  all_goals
    refine alike_advance.bind fun t u h => ?_
    have hstray : (ParseCause.expectedParameterType t.text).folded =
        (ParseCause.expectedParameterType u.text).folded :=
      congrArg ParseCause.expectedParameterType (Token.upper_eq h)
    rw [Token.kind_eq h, variableType_eq h, Token.pos_eq h]
    split
    · split
      · exact (Alike.pure rfl).bind fun _ _ => hname
      · exact (hrefused rfl).bind fun _ _ => hname
    · refine .get fun s t hst => .ite (by rw [isStructure_eq hst (Token.upper_eq h)]) ?_ ?_
      · refine fun _ _ => Alike.bind (.pure ?_) fun _ _ => hname
        exact congrArg VariableType.instanceOf (Token.upper_eq h)
      · exact fun _ _ => (hrefused hstray).bind fun _ _ => hname
    · exact (hrefused hstray).bind fun _ _ => hname

private theorem alike_functionDef (fuel : Nat) :
    Alike FunctionDef.folded (functionDef fuel) (functionDef fuel) := by
  rw [functionDef]
  refine alike_advance.bind fun t u h => ?_
  rw [Token.pos_eq h, returnOf_eq h]
  refine alike_expectName.bind fun name name' hname => (alike_expect (by simp)).andThen fun _ => ?_
  have hrest {params params' : List Parameter}
      (hparams : params.map Parameter.folded = params'.map Parameter.folded) :
      Alike FunctionDef.folded
        (do
          expect ")"
          let parts ← bodyWithLocals fuel
          return ⟨name, (returnOf u.text).1, (returnOf u.text).2, params, parts.1, parts.2, u.pos⟩)
        (do
          expect ")"
          let parts ← bodyWithLocals fuel
          return ⟨name', (returnOf u.text).1, (returnOf u.text).2, params', parts.1, parts.2,
            u.pos⟩) := by
    refine (alike_expect (by simp)).andThen fun _ => ?_
    refine (alike_bodyWithLocals fuel).bind fun parts parts' hparts => .pure ?_
    obtain ⟨hlocals, hstmts⟩ := Prod.mk.inj hparts
    simp only [FunctionDef.folded, hname, hparams, hlocals, hstmts]
  refine (alike_check (by simp)).andThen fun empty => .ite Iff.rfl (fun _ _ => ?_) fun _ _ => ?_
  · exact (Alike.pure rfl).bind fun _ _ => hrest
  · exact (alike_commaList (alike_parameter fuel) fuel).bind fun _ _ => hrest

/-! ### Pieces of a program -/

private theorem alike_item (fuel : Nat) : Alike Item.folded (item fuel) (item fuel) := by
  refine .current fun t u h => ?_
  have hword (word : String) : Text.sameWord t.text word = Text.sameWord u.text word :=
    Text.sameWord_congr (Token.upper_eq h) word
  have hgroup (words : List String) : Text.isOneOf t.text words = Text.isOneOf u.text words :=
    Text.isOneOf_congr (Token.upper_eq h) words
  have hstray : Alike Item.folded (fail (.strayAtTopLevel t.text))
      (fail (.strayAtTopLevel u.text)) :=
    .fail (congrArg ParseCause.strayAtTopLevel (Token.upper_eq h))
  have hglobals : Alike Item.folded (.globals <$> variableDecls fuel)
      (.globals <$> variableDecls fuel) :=
    (alike_variableDecls fuel).map fun _ _ h => congrArg Item.globals h
  rw [Token.kind_eq h]
  split
  · exact alike_directiveItem
  · exact (alike_signalDecl fuel).map fun _ _ h => congrArg Item.signals h
  · exact hglobals
  · rw [hword, hgroup, hgroup, isStorageWord_eq h]
    refine .ite Iff.rfl (fun _ _ => ?_) fun _ _ => .ite Iff.rfl (fun _ _ => ?_) fun _ _ =>
      .ite Iff.rfl (fun _ _ => ?_) fun _ _ => .ite Iff.rfl (fun _ _ => ?_) fun _ _ => hstray
    · exact (alike_structureDef fuel).map fun _ _ h => congrArg Item.structureDef h
    · exact (alike_handlerItems fuel).map fun _ _ h => congrArg Item.handlers h
    · exact (alike_functionDef fuel).map fun _ _ h => congrArg Item.function h
    · exact alike_advance.bind fun _ _ _ => .pure rfl
  · exact alike_startsInstance.andThen fun starts =>
      .ite Iff.rfl (fun _ _ => hglobals) fun _ _ => hstray

private theorem folded_addTo_eq {p p' : Program} (hp : p.folded = p'.folded)
    {found found' : Option Item}
    (h : found.map Item.folded = found'.map Item.folded) :
    ((found.getD .nothing).addTo p).folded = ((found'.getD .nothing).addTo p').folded := by
  have hfound := congrArg (Option.getD · Item.nothing) h
  change (found.map Item.folded).getD (Item.folded .nothing) =
    (found'.map Item.folded).getD (Item.folded .nothing) at hfound
  rw [Option.getD_map, Option.getD_map] at hfound
  rw [folded_addTo, folded_addTo, hfound, hp]

private theorem alike_items (allFuel fuel : Nat) {p p' : Program} (h : p.folded = p'.folded) :
    Alike Program.folded (items allFuel fuel p) (items allFuel fuel p') := by
  induction fuel generalizing p p' with
  | zero => exact alike_stuck
  | succ fuel ih =>
    rw [items, items]
    refine alike_atEnd.andThen fun ended => .ite Iff.rfl (fun _ _ => .pure h) fun _ _ => ?_
    refine .get fun s t hst => (alike_item allFuel).recovering.bind fun found found' hfound => ?_
    have hmore := ih (folded_addTo_eq h hfound)
    refine .get fun s' t' hst' =>
      .ite (by rw [hst'.read, hst.read]) (fun _ _ => ?_) fun _ _ => hmore
    exact alike_advance.bind fun _ _ _ => hmore

/-! ### Whole programs -/

private theorem finish_eq {ts ts' : List Token} (h : ts.map Token.folded = ts'.map Token.folded) :
    (match ts.find? (·.kind == .endOfText) with
      | some t => t.pos
      | none => (ts.getLast?.map Token.pos).getD .start) =
      match ts'.find? (·.kind == .endOfText) with
      | some t => t.pos
      | none => (ts'.getLast?.map Token.pos).getD .start := by
  have hfind (ts : List Token) : (ts.find? (·.kind == .endOfText)).map Token.folded =
      (ts.map Token.folded).find? (·.kind == .endOfText) := by
    rw [List.find?_map]
    refine congrArg (fun p => (ts.find? p).map Token.folded) (funext fun t => ?_)
    rw [Function.comp_apply, Token.folded_kind]
  have hlast (ts : List Token) : ts.getLast?.map Token.pos =
      (ts.map Token.folded).getLast?.map Token.pos := by
    rw [List.getLast?_map, Option.map_map]
    exact congrArg (Option.map · ts.getLast?) (funext fun t => (Token.folded_pos t).symm)
  have hend := hfind ts
  rw [h, ← hfind] at hend
  rw [hlast, h, ← hlast]
  cases hts : ts.find? (·.kind == .endOfText) with
  | none =>
    rw [hts, Option.map_none, eq_comm, Option.map_eq_none_iff] at hend
    rw [hend]
  | some t =>
    rw [hts] at hend
    obtain ⟨t', ht', hsame⟩ := Option.map_eq_some_iff.mp hend.symm
    rw [ht']
    exact (Token.pos_eq hsame).symm

private theorem like_ofTokens {tokens tokens' : List Token}
    (h : tokens.map Token.folded = tokens'.map Token.folded) :
    (ParserState.ofTokens tokens).Like (ParserState.ofTokens tokens') := by
  have htrivia (t : Token) : (!t.folded.isTrivia) = !t.isTrivia := by
    rw [Token.isTrivia, Token.folded_kind, Token.isTrivia]
  have hend (t : Token) : (t.folded.kind != .endOfText) = (t.kind != .endOfText) := by
    rw [Token.folded_kind]
  have hsignificant := Token.filter_eq (p := (!·.isTrivia)) htrivia h
  exact {
    rest := Token.takeWhile_eq (p := (·.kind != .endOfText)) hend hsignificant
    finish := finish_eq hsignificant
    read := rfl
    errors := rfl
    structures := rfl
    constants := rfl
    locals := rfl }

private theorem ofTokens_alike {tokens tokens' : List Token}
    (h : tokens.map Token.folded = tokens'.map Token.folded) :
    (ofTokens tokens).program.folded = (ofTokens tokens').program.folded ∧
      (ofTokens tokens).errors.map ParseError.folded =
        (ofTokens tokens').errors.map ParseError.folded ∧
      (ofTokens tokens).stuck = (ofTokens tokens').stuck := by
  have hst := like_ofTokens h
  have hfuel : (ParserState.ofTokens tokens).fuel = (ParserState.ofTokens tokens').fuel :=
    congrArg (· + 1) hst.length_eq
  have hread := alike_items (ParserState.ofTokens tokens).fuel (ParserState.ofTokens tokens).fuel
    (p := {}) rfl _ _ hst
  unfold ofTokens
  dsimp only
  rw [← hfuel]
  generalize items _ _ {} (ParserState.ofTokens tokens) = r at hread ⊢
  generalize items _ _ {} (ParserState.ofTokens tokens') = r' at hread ⊢
  cases hread with
  | ok hprogram hs => exact ⟨hprogram, hs.errors, rfl⟩
  | refused _ hs => exact ⟨rfl, hs.errors, rfl⟩
  | stuck hs => exact ⟨rfl, hs.errors, rfl⟩

private theorem wordings_eq {es es' : List ParseError}
    (h : es.map ParseError.folded = es'.map ParseError.folded) :
    es.map (fun e => (e.pos, upper e.message)) = es'.map fun e => (e.pos, upper e.message) := by
  induction es generalizing es' with
  | nil =>
    rw [List.map_nil, eq_comm, List.map_eq_nil_iff] at h
    rw [h]
  | cons e es ih =>
    obtain ⟨e', rest, rfl, he, hrest⟩ := List.map_eq_cons_iff.mp h.symm
    obtain ⟨hpos, hmessage⟩ := ParseError.wording_eq he
    rw [List.map_cons, List.map_cons, ih hrest.symm, hpos, hmessage]

/-- Reading does not depend on the case of names and words. Tokens of the same kinds at the same
places, the same where they are literals and up to case elsewhere, are read as programs that are the
same up to the case of names and arguments of directives; what is refused is refused at the same
places, in wordings that are the same up to case. And a text written in other cases has tokens of
the same kinds at the same places, the same up to case. -/
theorem reading_ignores_case :
    (∀ tokens tokens' : List Token, tokens.map Token.folded = tokens'.map Token.folded →
      (ofTokens tokens).program.folded = (ofTokens tokens').program.folded ∧
      (ofTokens tokens).errors.map (fun e => (e.pos, upper e.message)) =
        (ofTokens tokens').errors.map (fun e => (e.pos, upper e.message)) ∧
      (ofTokens tokens).stuck = (ofTokens tokens').stuck) ∧
    (∀ text text' : String, upper text = upper text' →
      (Token.scan text).map (fun t => (t.kind, upper t.text, t.pos)) =
        (Token.scan text').map fun t => (t.kind, upper t.text, t.pos)) := by
  refine ⟨fun tokens tokens' h => ?_, fun text text' h => ?_⟩
  · obtain ⟨hprogram, herrors, hstuck⟩ := ofTokens_alike h
    exact ⟨hprogram, wordings_eq herrors, hstuck⟩
  · have hscan : (Token.scan text).map Token.inUpper = (Token.scan text').map Token.inUpper := by
      rw [← Token.scan_upper, h, Token.scan_upper]
    have hparts := congrArg (List.map fun t => (t.kind, t.text, t.pos)) hscan
    rwa [List.map_map, List.map_map] at hparts

def functionTokens (word name routine : String) : List Token :=
  [⟨.keyword, word, ⟨1, 1⟩⟩, ⟨.identifier, name, ⟨1, 10⟩⟩, ⟨.punctuation, "(", ⟨1, 14⟩⟩,
    ⟨.punctuation, ")", ⟨1, 15⟩⟩, ⟨.punctuation, "\x7b", ⟨2, 1⟩⟩, ⟨.routine, routine, ⟨3, 3⟩⟩,
    ⟨.punctuation, "(", ⟨3, 8⟩⟩, ⟨.text, "\"Hi\"", ⟨3, 9⟩⟩, ⟨.punctuation, ")", ⟨3, 13⟩⟩,
    ⟨.punctuation, ";", ⟨3, 14⟩⟩, ⟨.punctuation, "\x7d", ⟨4, 1⟩⟩, ⟨.endOfText, "", ⟨4, 2⟩⟩]

/-- A function is read alike with its words in either case, and a numeral in a comment is scanned
alike. -/
theorem function_in_either_case_reads_alike :
    (functionTokens "function" "main" "print").map Token.folded =
        (functionTokens "FUNCTION" "Main" "PRINT").map Token.folded ∧
      (ofTokens (functionTokens "function" "main" "print")).program.folded =
        (ofTokens (functionTokens "FUNCTION" "Main" "PRINT")).program.folded ∧
      (ofTokens (functionTokens "function" "main" "print")).errors.map
          (fun e => (e.pos, upper e.message)) =
        (ofTokens (functionTokens "FUNCTION" "Main" "PRINT")).errors.map
          (fun e => (e.pos, upper e.message)) ∧
      upper "print(\"Hi\"); // 0x1f" = upper "PRINT(\"hi\"); // 0X1F" ∧
      (Token.scan "print(\"Hi\"); // 0x1f").map (fun t => (t.kind, upper t.text, t.pos)) =
        (Token.scan "PRINT(\"hi\"); // 0X1F").map fun t => (t.kind, upper t.text, t.pos) := by
  have hword : upper "function" = upper "FUNCTION" := by simp [Text.upper_eq_upper_iff]
  have hname : upper "main" = upper "Main" := by simp [Text.upper_eq_upper_iff]
  have hroutine : upper "print" = upper "PRINT" := by simp [Text.upper_eq_upper_iff]
  have htokens : (functionTokens "function" "main" "print").map Token.folded =
      (functionTokens "FUNCTION" "Main" "PRINT").map Token.folded := by
    simp [functionTokens, Token.folded, Token.inUpper, hword, hname, hroutine]
  have htexts : upper "print(\"Hi\"); // 0x1f" = upper "PRINT(\"hi\"); // 0X1F" := by
    simp [Text.upper_eq_upper_iff]
  obtain ⟨hread, hscan⟩ := reading_ignores_case
  obtain ⟨hprogram, herrors, -⟩ := hread _ _ htokens
  exact ⟨htokens, hprogram, herrors, htexts, hscan _ _ htexts⟩

end Parser

end ControlLogic
