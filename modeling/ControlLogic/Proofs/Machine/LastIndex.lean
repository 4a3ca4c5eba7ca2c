import ControlLogic.Proofs.Library.Table
import ControlLogic.Proofs.Machine.ValueResult

/-!
The index that was written last in an array. A write notes it under the name of the array, which for
an array that is a field of a structure is the name of the structure, a dot and the name of the
field; who asks for it is answered what is noted under the name of the variable alone. So arrays and
grids are answered the index written last, and fields what is noted for an array of the name of
their structure.
-/

set_option autoImplicit false
set_option relaxedAutoImplicit false

namespace ControlLogic

def lastIndexWord : String := "GETLASTMODIFIEDARRAYINDEX"

private theorem upper_lastIndexWord : Text.upper lastIndexWord = lastIndexWord := by
  decide +kernel

private theorem lookup?_lastIndexWord :
    Library.lookup? lastIndexWord = some Library.lastModifiedIndex := by
  refine Library.lookup?_of_mem (Library.mathRoutines_subset_table ?_)
  rw [upper_lastIndexWord]
  simp [lastIndexWord, Library.mathRoutines]

namespace SlotKey

variable {key other : SlotKey} {name : String}

private theorem toList_arrayName (h : key.arrayName? = some name) : name.toList = key.stem := by
  cases key with
  | plain n => cases h
  | field o f => cases h
  | element n i | cell n i j =>
    cases h
    rfl
  | fieldElement o f i =>
    cases h
    simp [stem, String.toList_append]

private theorem isElement_eq_splitOnce (hkey : key.IsNamed) (h : key.arrayName? = some name) :
    key.isElement = (Text.splitOnce '.' name.toList).isNone := by
  rw [toList_arrayName h, hkey.splitOnce_stem]
  cases key <;> first | rfl | cases h

private theorem head?_names (key : SlotKey) : key.names.head? = some key.owner := by
  cases key <;> rfl

private theorem owner_eq_of_arrayName (hkey : key.IsNamed) (hother : other.IsNamed)
    (h : key.arrayName? = some name) (hsame : other.arrayName? = some name) :
    other.owner = key.owner := by
  have hnames : other.names = key.names := by
    rw [hother.names_eq, hkey.names_eq, ← toList_arrayName h, ← toList_arrayName hsame]
  have hhead := congrArg List.head? hnames
  rw [head?_names, head?_names] at hhead
  exact Option.some.inj hhead

private theorem arrayName_of_firstIndex {i : Int} (h : key.firstIndex? = some i) :
    ∃ name, key.arrayName? = some name := by
  cases key <;> first | exact ⟨_, rfl⟩ | cases h

private theorem arrayName_eq_owner_iff (hkey : key.IsNamed) (h : key.arrayName? = some name) :
    name = key.owner ↔ key.isElement = true := by
  rw [isElement_eq_splitOnce hkey h]
  constructor
  · rintro rfl
    have hdot : '.' ∉ key.owner.toList := (Machine.isName_owner hkey).notMem (by decide)
    rw [Text.splitOnce_of_notMem hdot]
    rfl
  · intro hnone
    rw [← isElement_eq_splitOnce hkey h] at hnone
    cases key <;> first | exact (Option.some.inj h).symm | cases hnone

end SlotKey

namespace Run

variable {eval : Expr → Run Value} {block : List Stmt → Run Flow} {pump : Nat → Run Unit}
  {fuel : Nat} {name : String} {m m' : Machine}

private theorem call_lastIndexWord (hname : Text.upper name = lastIndexWord)
    (hfunctions : m.functions.get? lastIndexWord = none) (args : List Expr) :
    call eval block pump fuel name args m =
      callRoutine eval Library.lastModifiedIndex args m := by
  have hserved : servedRoutine eval pump fuel lastIndexWord args = none := rfl
  have hmain : lastIndexWord ≠ "MAIN" := by decide
  unfold call
  rw [hname, get_bind, hfunctions]
  dsimp only
  rw [if_neg hmain, hserved, lookup?_lastIndexWord]

private theorem callRoutine_lastModifiedIndex {args : List Expr} {given : List Library.Arg}
    (h : args.mapM (evalArg eval) m = .ok given m') :
    callRoutine eval Library.lastModifiedIndex args m =
      .ok (.number (m'.context.lastIndex ((Library.target? given 0).map SlotKey.owner))) m' := by
  unfold callRoutine
  rw [bind_ok h]
  rfl

private theorem mapM_evalArg_single {e : Expr} {arg : Library.Arg}
    (h : evalArg eval e m = .ok arg m') :
    [e].mapM (evalArg eval) m = .ok [arg] m' := by
  rw [List.mapM_cons, bind_ok h]
  rfl

private theorem resolveKey_fieldElement {eval : Expr → Run Value} (object part : String)
    {index : Expr}
    {v : Value} (h : eval index m = .ok v m') :
    resolveKey eval (.field object part (some index)) m =
      .ok (.fieldElement (Text.upper object) (Text.upper part) v.toNumber) m' := by
  unfold resolveKey
  exact bind_ok h _

private theorem evalArg_of_get? {eval : Expr → Run Value} {e : Expr} {key : SlotKey} {slot : Slot}
    (hplace : e.isPlace = true) (hname : ∀ id, e ≠ .name id)
    (hkey : resolveKey eval e m = .ok key m') (hslot : m'.scope.get? key = some slot) :
    evalArg eval e m = .ok ⟨slot.value, some key⟩ m' := by
  have hread : readKey key m' = .ok slot.value m' :=
    readKey_of_some (Machine.read?_of_get? hslot)
  have hgiven : (resolveKey eval e >>= fun key => readKey key >>= fun v =>
      pure (⟨v, some key⟩ : Library.Arg)) m = .ok ⟨slot.value, some key⟩ m' := by
    rw [bind_ok hkey, bind_ok hread]
    rfl
  cases e with
  | element name index => exact hgiven
  | field object part index => exact hgiven
  | name id => exact absurd rfl (hname id)
  | _ => cases hplace

end Run

namespace Machine

variable {m m' : Machine} {key : SlotKey}

private theorem noted_of_writeKey {v : Value} (h : Run.writeKey key v m = .ok () m') :
    m.Noted key m' ∧ m'.functions = m.functions := by
  cases htarget : m.target key with
  | error f =>
    rw [Run.writeKey_of_refused htarget] at h
    cases h
  | ok target =>
    rw [Run.writeKey_of_target htarget] at h
    cases h
    obtain ⟨scope, signals, indices, last, log, hwritten⟩ := m.writeTo_eq key v target
    refine ⟨m.noted_writeTo key v target, ?_⟩
    rw [hwritten]

/-- What is noted for the name of a variable after a write to an array: the index, unless the array
is a field. -/
theorem Noted.owner (h : m.Noted key m') (hkey : key.IsNamed) {i : Int}
    (hi : key.firstIndex? = some i) :
    m'.lastModified.getD key.owner 0 =
      if key.isElement then i else m.lastModified.getD key.owner 0 := by
  obtain ⟨name, hname⟩ := SlotKey.arrayName_of_firstIndex hi
  rw [Std.HashMap.getD_eq_getD_getElem?, Std.HashMap.getD_eq_getD_getElem?]
  split
  next helement =>
    obtain rfl := (SlotKey.arrayName_eq_owner_iff hkey hname).mpr helement
    have hnoted := (h.noted hname hi).1
    rw [Std.HashMap.get?_eq_getElem?] at hnoted
    rw [hnoted]
    rfl
  next hfield =>
    have hother : key.arrayName? ≠ some key.owner := by
      intro howner
      rw [hname] at howner
      exact hfield ((SlotKey.arrayName_eq_owner_iff hkey hname).mp (Option.some.inj howner))
    have hunnoted := h.unnoted hother
    rw [Std.HashMap.get?_eq_getElem?, Std.HashMap.get?_eq_getElem?] at hunnoted
    rw [hunnoted]

end Machine

private theorem Run.call_of_noted {m m' : Machine} {key : SlotKey} (hnoted : m.Noted key m')
    (hkey : key.IsNamed) {i : Int} (hi : key.firstIndex? = some i) {name : String}
    (hname : Text.upper name = lastIndexWord)
    (hfunctions : m'.functions.get? lastIndexWord = none) {eval : Expr → Run Value}
    {block : List Stmt → Run Flow} {pump : Nat → Run Unit} {fuel : Nat} {e : Expr} {w : Value}
    {other : SlotKey} {asked : Machine} (harg : Run.evalArg eval e m' = .ok ⟨w, some other⟩ asked)
    (hother : other.IsNamed) (hsame : other.arrayName? = key.arrayName?)
    (hmodified : asked.lastModified = m'.lastModified) :
    Run.call eval block pump fuel name [e] m' =
      .ok (.number (if key.isElement then i else m.lastModified.getD key.owner 0)) asked := by
  obtain ⟨array, harray⟩ := SlotKey.arrayName_of_firstIndex hi
  have howner : other.owner = key.owner :=
    SlotKey.owner_eq_of_arrayName hkey hother harray (hsame.trans harray)
  have htold : asked.context.lastIndex (some other.owner) =
      if key.isElement then i else m.lastModified.getD key.owner 0 := by
    change asked.lastModified.getD (Text.upper other.owner) 0 = _
    rw [hmodified, howner, (Machine.isName_owner hkey).upper, hnoted.owner hkey hi]
  rw [Run.call_lastIndexWord hname hfunctions,
    Run.callRoutine_lastModifiedIndex (Run.mapM_evalArg_single harg)]
  exact congrArg (fun n => EStateM.Result.ok (Value.number n) asked) htold

/--
After a write to an element of an array, to a cell of a grid or to an element of a field: who asks
for the index written last in any array is told the first index of the write, and who asks with an
element of the same array is told it just if the array is no field. Asked with an element of a
field, the answer is what was noted before for an array of the name of the structure, if there was
any.
-/
theorem index_written_last {m m' : Machine} {key : SlotKey} (hkey : key.IsNamed) {i : Int}
    (hi : key.firstIndex? = some i) {v : Value} (hwrite : Run.writeKey key v m = .ok () m')
    {name : String} (hname : Text.upper name = lastIndexWord)
    (hfunctions : m.functions.get? lastIndexWord = none) (eval : Expr → Run Value)
    (block : List Stmt → Run Flow) (pump : Nat → Run Unit) (fuel : Nat) :
    Run.call eval block pump fuel name [] m' = .ok (.number i) m' ∧
      ∀ (e : Expr) (w : Value) (other : SlotKey) (asked : Machine),
        Run.evalArg eval e m' = .ok ⟨w, some other⟩ asked → other.IsNamed →
          other.arrayName? = key.arrayName? → asked.lastModified = m'.lastModified →
            Run.call eval block pump fuel name [e] m' =
              .ok (.number (if key.isElement then i else m.lastModified.getD key.owner 0))
                asked := by
  obtain ⟨hnoted, hsame⟩ := Machine.noted_of_writeKey hwrite
  rw [← hsame] at hfunctions
  refine ⟨?_, fun e w other asked harg hother hothers hmodified => ?_⟩
  · obtain ⟨array, harray⟩ := SlotKey.arrayName_of_firstIndex hi
    have hany : m'.lastAny = i := (hnoted.noted harray hi).2
    have hgiven : [].mapM (Run.evalArg eval) m' = .ok [] m' := rfl
    rw [Run.call_lastIndexWord hname hfunctions, Run.callRoutine_lastModifiedIndex hgiven]
    exact congrArg (fun n => EStateM.Result.ok (Value.number n) m') hany
  · exact Run.call_of_noted hnoted hkey hi hname hfunctions harg hother hothers hmodified

/-! ### An array and a field of the same shape -/

/-- A number that was never written. -/
def freshNumber : Slot :=
  .fresh (.integer .unsigned16)

def fieldFrame : Frame :=
  Frame.declareUpTo {} 3 (.fieldElement "P" "F") (.integer .unsigned16)

private theorem upper_places :
    Text.upper "A" = "A" ∧ Text.upper "P" = "P" ∧ Text.upper "F" = "F" := by
  decide +kernel

private theorem declareLocals_fieldFrame :
    Frame.declareLocals [⟨"R", [⟨.integer, "F", some 3, none, .start⟩], .start⟩]
      [⟨.instanceOf "R", "P", none, none, .start⟩] {} = .ok fieldFrame := by
  obtain ⟨-, hobject, hfield⟩ := upper_places
  have hfields : Frame.declareField (Text.upper "P") {} ⟨.integer, "F", some 3, none, .start⟩ =
      fieldFrame := by
    change Frame.declareUpTo {} 3 (.fieldElement (Text.upper "P") (Text.upper "F")) _ = _
    rw [hobject, hfield]
    rfl
  have hfound : Text.sameWord "R" "R" = true := beq_self_eq_true _
  simp only [Frame.declareLocals, Frame.declareVariable, List.find?_cons, hfound, List.foldl_cons,
    List.foldl_nil, hfields]

private theorem fieldFrame_three : fieldFrame[SlotKey.fieldElement "P" "F" 3]? = some freshNumber :=
  Frame.getElem?_declareUpTo (i := 3) (by decide) _ _ _

def inCall (frame : Frame) : Machine :=
  (Machine.new {}).enter frame

private theorem leads_inCall {structures : List StructureDef} {locals : List VariableDecl}
    {frame : Frame}
    (h : Frame.declareLocals structures locals {} = .ok frame) :
    Moment.Leads ⟨Machine.new {}, []⟩ ⟨inCall frame, []⟩ :=
  ((Moment.Leads.single (.beginBinding _ [])).step (.declare _ [] h)).step (.enter _ [] frame)

private theorem functions_inCall (frame : Frame) :
    (inCall frame).functions.get? lastIndexWord = none := by
  simp [inCall, Machine.new, Machine.enter]

private theorem get?_inCall {frame : Frame} {key : SlotKey} (h : frame[key]? = some freshNumber) :
    (inCall frame).scope.get? key = some freshNumber := by
  exact (Scope.get?_push _ frame key).trans (by rw [h, Option.some_or])

def sevenWritten (frame : Frame) (key : SlotKey) : Machine :=
  (inCall frame).writeSlot key freshNumber (.number 7)

private theorem writeKey_seven {frame : Frame} {key : SlotKey}
    (h : frame[key]? = some freshNumber) :
    Run.writeKey key (.number 7) (inCall frame) = .ok () (sevenWritten frame key) :=
  Run.writeKey_of_target (Machine.target_of_get? (get?_inCall h)) _

private theorem evalArg_seven {frame : Frame} {key : SlotKey} (h : frame[key]? = some freshNumber)
    {e : Expr} (hplace : e.isPlace = true) (hname : ∀ id, e ≠ .name id)
    (hkey : ∀ m asked : Machine, Run.eval Run.noPump 1 (.number 3) m = .ok (.number 3) asked →
      Run.resolveKey (Run.eval Run.noPump 1) e m = .ok key asked) :
    Run.evalArg (Run.eval Run.noPump 1) e (sevenWritten frame key) =
      .ok ⟨.number 7, some key⟩ { sevenWritten frame key with steps := 1 } := by
  obtain ⟨indices, last, hwritten⟩ := (inCall frame).writeSlot_eq key freshNumber (.number 7)
  have hslot : (sevenWritten frame key).scope.get? key = some (freshNumber.write (.number 7)) :=
    Machine.get?_writeSlot (get?_inCall h) _
  have hindex : Run.eval Run.noPump 1 (.number 3) (sevenWritten frame key) =
      .ok (.number 3) { sevenWritten frame key with steps := 1 } := by
    have hsteps : 0 < ({} : Settings).stepLimit := by decide
    unfold sevenWritten
    rw [hwritten]
    exact Run.eval_number rfl hsteps Run.noPump 0 3
  exact Run.evalArg_of_get? hplace hname (hkey _ _ hindex) hslot

/-- The element three of an array is written, and three is the answer. -/
theorem index_of_array_is_told :
    let key := SlotKey.element "A" 3
    Moment.Leads ⟨Machine.new {}, []⟩ ⟨inCall (arrayFrame 10), []⟩ ∧
      Run.writeKey key (.number 7) (inCall (arrayFrame 10)) =
        .ok () (sevenWritten (arrayFrame 10) key) ∧
      Run.call (Run.eval Run.noPump 1) (Run.block Run.noPump 1) Run.noPump 1
        lastIndexWord [.element "A" (.number 3)] (sevenWritten (arrayFrame 10) key) =
          .ok (.number 3) { sevenWritten (arrayFrame 10) key with steps := 1 } := by
  intro key
  have hslot : (arrayFrame 10)[key]? = some freshNumber := arrayFrame_element (i := 3) (by decide)
  have hkey : key.IsNamed := by decide
  have harg := evalArg_seven hslot (e := .element "A" (.number 3)) rfl (fun _ h => by cases h)
    fun m asked hindex => by
      have hresolved := Run.resolveKey_element "A" (fun _ _ h => by cases h) hindex
      rw [upper_places.1] at hresolved
      exact hresolved
  have hwrite := writeKey_seven hslot
  refine ⟨leads_inCall (declareLocals_arrayFrame 10), hwrite, ?_⟩
  exact (index_written_last hkey rfl hwrite upper_lastIndexWord
    (functions_inCall _) _ _ _ 1).2 _ _ key _ harg hkey rfl rfl

/-- Who asks with an element of a field that was just written is not always told its index. -/
theorem index_of_field_is_not_told :
    ¬ ∀ (s : Moment) (key : SlotKey) (i : Int) (v : Value) (m' : Machine) (fuel : Nat) (e : Expr)
        (w : Value) (other : SlotKey) (asked : Machine),
      Moment.Leads ⟨Machine.new {}, []⟩ s → s.machine.functions.get? lastIndexWord = none →
        key.IsNamed → key.firstIndex? = some i → Run.writeKey key v s.machine = .ok () m' →
          Run.evalArg (Run.eval Run.noPump fuel) e m' = .ok ⟨w, some other⟩ asked →
            other.IsNamed → other.arrayName? = key.arrayName? →
              asked.lastModified = m'.lastModified →
                Run.call (Run.eval Run.noPump fuel) (Run.block Run.noPump fuel) Run.noPump fuel
                  lastIndexWord [e] m' = .ok (.number i) asked := by
  intro hclaim
  let key := SlotKey.fieldElement "P" "F" 3
  have hkey : key.IsNamed := by decide
  have hwrite := writeKey_seven fieldFrame_three
  have harg := evalArg_seven fieldFrame_three (e := .field "P" "F" (some (.number 3))) rfl
    (fun _ h => by cases h) fun m asked hindex => by
      have hresolved := Run.resolveKey_fieldElement "P" "F" hindex
      rw [upper_places.2.1, upper_places.2.2] at hresolved
      exact hresolved
  have hthree := hclaim ⟨inCall fieldFrame, []⟩ key 3 _ _ 1 _ _ key _
    (leads_inCall declareLocals_fieldFrame) (functions_inCall _) hkey rfl hwrite harg hkey rfl rfl
  obtain ⟨hnoted, hsame⟩ := Machine.noted_of_writeKey hwrite
  have hfunctions : (sevenWritten fieldFrame key).functions.get? lastIndexWord = none := by
    rw [hsame]
    exact functions_inCall fieldFrame
  have hzero : (inCall fieldFrame).lastModified.getD key.owner 0 = 0 := by
    simp [inCall, Machine.new, Machine.enter]
  rw [Run.call_of_noted hnoted hkey rfl upper_lastIndexWord hfunctions harg hkey rfl rfl,
    if_neg (by decide), hzero] at hthree
  cases hthree

end ControlLogic
