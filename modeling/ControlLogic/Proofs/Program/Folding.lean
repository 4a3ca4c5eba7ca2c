import ControlLogic.Program.Parser.Unit
import ControlLogic.Proofs.Token.Case

/-!
Programs up to the case of their names. A folded token has its characters in upper case unless it is
a literal; a folded program has all its names and the arguments of its directives in upper case, and
is otherwise the same: its shape, its numbers, its literals and its places.
-/

set_option autoImplicit false
set_option relaxedAutoImplicit false

namespace ControlLogic

/-- A token with its characters in upper case, unless it is a literal. -/
def Token.folded (t : Token) : Token :=
  if t.kind = .text then t else t.inUpper

/-! ### Programs -/

def VariableType.folded : VariableType → VariableType
  | instanceOf name => instanceOf (Text.upper name)
  | type => type

namespace Expr

mutual

def folded : Expr → Expr
  | number n => number n
  | text s => text s
  | name id => name (Text.upper id)
  | binary op left right => binary op left.folded right.folded
  | unary op operand => unary op operand.folded
  | call f args => call (Text.upper f) (foldedList args)
  | element id index => element (Text.upper id) index.folded
  | field object part none => field (Text.upper object) (Text.upper part) none
  | field object part (some index) =>
    field (Text.upper object) (Text.upper part) (some index.folded)

def foldedList : List Expr → List Expr
  | [] => []
  | e :: es => e.folded :: foldedList es

end

@[simp]
theorem foldedList_eq_map (es : List Expr) : foldedList es = es.map folded := by
  induction es with
  | nil => rfl
  | cons e es ih => rw [foldedList, ih, List.map_cons]

theorem folded_call (f : String) (args : List Expr) :
    (call f args).folded = call (Text.upper f) (args.map folded) := by
  rw [folded, foldedList_eq_map]

theorem folded_field (object part : String) (index : Option Expr) :
    (field object part index).folded =
      field (Text.upper object) (Text.upper part) (index.map folded) := by
  cases index <;> rfl

end Expr

namespace Stmt

mutual

def folded : Stmt → Stmt
  | branch pos condition body none => branch pos condition.folded (foldedList body) none
  | branch pos condition body (some other) =>
    branch pos condition.folded (foldedList body) (some (foldedList other))
  | count pos counter start finish step body =>
    count pos counter.folded start.folded finish.folded (step.map Expr.folded) (foldedList body)
  | whileLoop pos condition body => whileLoop pos condition.folded (foldedList body)
  | untilLoop pos body condition => untilLoop pos (foldedList body) condition.folded
  | switch pos subject alternatives runsOn =>
    switch pos subject.folded (foldedAlternatives alternatives) runsOn
  | wait pos duration name none => wait pos duration.folded (name.map Text.upper) none
  | wait pos duration name (some body) =>
    wait pos duration.folded (name.map Text.upper) (some (foldedList body))
  | assign pos target value => assign pos target.folded value.folded
  | call pos routine => call pos routine.folded
  | returns pos value => returns pos (value.map Expr.folded)
  | breaks pos => breaks pos
  | terminateEvent pos => terminateEvent pos
  | block pos body => block pos (foldedList body)

def foldedList : List Stmt → List Stmt
  | [] => []
  | s :: rest => s.folded :: foldedList rest

def foldedAlternatives : List (Alternative Stmt) → List (Alternative Stmt)
  | [] => []
  | ⟨label, body⟩ :: rest =>
    ⟨label.map Expr.folded, foldedList body⟩ :: foldedAlternatives rest

end

@[simp]
theorem foldedList_eq_map (stmts : List Stmt) : foldedList stmts = stmts.map folded := by
  induction stmts with
  | nil => rfl
  | cons s rest ih => rw [foldedList, ih, List.map_cons]

end Stmt

def Alternative.folded (alternative : Alternative Stmt) : Alternative Stmt :=
  ⟨alternative.label.map Expr.folded, alternative.body.map Stmt.folded⟩

namespace Stmt

@[simp]
theorem foldedAlternatives_eq_map (alternatives : List (Alternative Stmt)) :
    foldedAlternatives alternatives = alternatives.map Alternative.folded := by
  induction alternatives with
  | nil => rfl
  | cons alternative rest ih =>
    rw [foldedAlternatives, ih, List.map_cons, foldedList_eq_map]
    rfl

theorem folded_branch (pos : Position) (condition : Expr) (body : List Stmt)
    (other : Option (List Stmt)) :
    (branch pos condition body other).folded =
      branch pos condition.folded (body.map folded) (other.map (List.map folded)) := by
  cases other <;> simp [folded]

theorem folded_wait (pos : Position) (duration : Expr) (name : Option String)
    (body : Option (List Stmt)) :
    (wait pos duration name body).folded =
      wait pos duration.folded (name.map Text.upper) (body.map (List.map folded)) := by
  cases body <;> simp [folded]

end Stmt

def Directive.folded (d : Directive) : Directive :=
  { d with args := Text.upper d.args }

def Constant.folded (c : Constant) : Constant :=
  { c with name := Text.upper c.name }

def SignalName.folded (entry : SignalName) : SignalName :=
  { entry with name := Text.upper entry.name }

def SignalDecl.folded (d : SignalDecl) : SignalDecl :=
  { d with names := d.names.map SignalName.folded }

def VariableDecl.folded (d : VariableDecl) : VariableDecl :=
  { d with type := d.type.folded, name := Text.upper d.name }

def StructureDef.folded (d : StructureDef) : StructureDef :=
  { d with name := Text.upper d.name, fields := d.fields.map VariableDecl.folded }

def Handler.folded (h : Handler) : Handler :=
  { h with
    signal := Text.upper h.signal
    locals := h.locals.map VariableDecl.folded
    body := h.body.map Stmt.folded }

def Parameter.folded (p : Parameter) : Parameter :=
  { p with type := p.type.folded, name := Text.upper p.name }

def FunctionDef.folded (f : FunctionDef) : FunctionDef :=
  { f with
    name := Text.upper f.name
    returnType := f.returnType.map VariableType.folded
    params := f.params.map Parameter.folded
    locals := f.locals.map VariableDecl.folded
    body := f.body.map Stmt.folded }

/-- A program with its names and the arguments of its directives in upper case. -/
def Program.folded (p : Program) : Program :=
  { p with
    symbolName := p.symbolName.map Text.upper
    directives := p.directives.map Directive.folded
    constants := p.constants.map Constant.folded
    signals := p.signals.map SignalDecl.folded
    globals := p.globals.map VariableDecl.folded
    structures := p.structures.map StructureDef.folded
    handlers := p.handlers.map Handler.folded
    functions := p.functions.map FunctionDef.folded
    main := p.main.map FunctionDef.folded }

/-! ### Refusals -/

def ParseCause.folded : ParseCause → ParseCause
  | strayAtTopLevel found => strayAtTopLevel (Text.upper found)
  | constantWithoutValue name => constantWithoutValue (Text.upper name)
  | expectedArraySize found => expectedArraySize (Text.upper found)
  | expectedType found => expectedType (Text.upper found)
  | expectedParameterType found => expectedParameterType (Text.upper found)
  | expectedField structureName found =>
    expectedField (Text.upper structureName) (Text.upper found)
  | strayKeyword found => strayKeyword (Text.upper found)
  | stray found => stray (Text.upper found)
  | expectedAlternative found => expectedAlternative (Text.upper found)
  | expectedVariable found => expectedVariable (Text.upper found)
  | expectedExpression found => expectedExpression (Text.upper found)
  | expected wanted found => expected wanted (Text.upper found)
  | expectedName found => expectedName (Text.upper found)
  | cause => cause

def ParseError.folded (e : ParseError) : ParseError :=
  ⟨e.cause.folded, e.pos⟩

private theorem ParseCause.upper_message (cause : ParseCause) :
    Text.upper cause.folded.message = Text.upper cause.message := by
  have hfound (before found behind : String) :
      Text.upper (before ++ Text.upper found ++ behind) =
        Text.upper (before ++ found ++ behind) := by
    simp only [Text.upper_append, Text.upper_upper]
  cases cause with
  | expectedField structureName found =>
    change Text.upper ("Expected a field declaration in structure " ++ Text.upper structureName ++
        ", got '" ++ Text.upper found ++ "'") =
      Text.upper ("Expected a field declaration in structure " ++ structureName ++
        ", got '" ++ found ++ "'")
    simp only [Text.upper_append, Text.upper_upper]
  | expected wanted found =>
    change Text.upper ("Expected '" ++ wanted ++ "', got '" ++ Text.upper found ++ "'") =
      Text.upper ("Expected '" ++ wanted ++ "', got '" ++ found ++ "'")
    simp only [Text.upper_append, Text.upper_upper]
  | _ => first | rfl | exact hfound _ _ _

theorem ParseError.wording_eq {e e' : ParseError} (h : e.folded = e'.folded) :
    e.pos = e'.pos ∧ Text.upper e.message = Text.upper e'.message := by
  have hcause : e.cause.folded = e'.cause.folded := congrArg ParseError.cause h
  have hpos : e.folded.pos = e'.folded.pos := congrArg ParseError.pos h
  refine ⟨hpos, ?_⟩
  rw [message, ← e.cause.upper_message, hcause, e'.cause.upper_message, message]

/-! ### Tokens -/

namespace Token

theorem folded_kind (t : Token) : t.folded.kind = t.kind := by
  unfold folded
  split <;> rfl

theorem folded_pos (t : Token) : t.folded.pos = t.pos := by
  unfold folded
  split <;> rfl

theorem upper_folded_text (t : Token) : Text.upper t.folded.text = Text.upper t.text := by
  unfold folded
  split
  · rfl
  · exact Text.upper_upper t.text

theorem folded_text {t : Token} (h : t.kind = .text) : t.folded.text = t.text := by
  rw [folded, if_pos h]

theorem folded_folded (t : Token) : t.folded.folded = t.folded := by
  by_cases h : t.kind = .text
  · have hsame : t.folded = t := if_pos h
    rw [hsame, hsame]
  · have hupper : t.folded = t.inUpper := if_neg h
    have hkind : t.inUpper.kind ≠ .text := h
    rw [hupper, folded, if_neg hkind, inUpper, inUpper, Text.upper_upper]

variable {t u : Token} (h : t.folded = u.folded)
include h

theorem kind_eq : t.kind = u.kind := by
  rw [← folded_kind, h, folded_kind]

theorem pos_eq : t.pos = u.pos := by
  rw [← folded_pos, h, folded_pos]

theorem upper_eq : Text.upper t.text = Text.upper u.text := by
  rw [← upper_folded_text, h, upper_folded_text]

theorem literal_eq (ht : t.kind = .text) : t.text = u.text := by
  rw [← folded_text ht, h, folded_text ((kind_eq h).symm.trans ht)]

theorem number_eq : literalNumber? t.text = literalNumber? u.text := by
  rw [← literalNumber?_upper, upper_eq h, literalNumber?_upper]

theorem isName_eq : t.isName = u.isName := by
  rw [isName, kind_eq h, isName]

omit h

theorem takeWhile_eq {p : Token → Bool} (hp : ∀ t, p t.folded = p t) {ts us : List Token}
    (h : ts.map folded = us.map folded) :
    (ts.takeWhile p).map folded = (us.takeWhile p).map folded := by
  have hcut (ts : List Token) : (ts.takeWhile p).map folded = (ts.map folded).takeWhile p := by
    rw [List.takeWhile_map]
    exact congrArg (fun q => (ts.takeWhile q).map folded) (funext fun t => (hp t).symm)
  rw [hcut, h, hcut]

theorem dropWhile_eq {p : Token → Bool} (hp : ∀ t, p t.folded = p t) {ts us : List Token}
    (h : ts.map folded = us.map folded) :
    (ts.dropWhile p).map folded = (us.dropWhile p).map folded := by
  have hcut (ts : List Token) : (ts.dropWhile p).map folded = (ts.map folded).dropWhile p := by
    rw [List.dropWhile_map]
    exact congrArg (fun q => (ts.dropWhile q).map folded) (funext fun t => (hp t).symm)
  rw [hcut, h, hcut]

theorem filter_eq {p : Token → Bool} (hp : ∀ t, p t.folded = p t) {ts us : List Token}
    (h : ts.map folded = us.map folded) :
    (ts.filter p).map folded = (us.filter p).map folded := by
  have hkept (ts : List Token) : (ts.filter p).map folded = (ts.map folded).filter p := by
    rw [List.filter_map]
    exact congrArg (fun q => (ts.filter q).map folded) (funext fun t => (hp t).symm)
  rw [hkept, h, hkept]

end Token

end ControlLogic
