import ControlLogic.Proofs.Machine.Pumping
import ControlLogic.Proofs.Program.Shape

/-!
The faults that the code of a program can end with. What is read from a text is shaped, so code
never meets two indices outside an element and never writes to anything but a place; only a pulse
can be asked of something else. This is followed through every routine, statement and expression.
-/

set_option autoImplicit false
set_option relaxedAutoImplicit false

namespace ControlLogic

/-! ### Faults -/

private theorem begins_append {a s b : String} (h : a.toList <+: s.toList) :
    a.toList <+: (s ++ b).toList := by
  rw [String.toList_append]
  exact h.trans (List.prefix_append _ _)

private theorem ne_of_begins {a s text : String} (h : a.toList <+: s.toList)
    (hother : a.toList.isPrefixOf text.toList = false) : s ≠ text := by
  rintro rfl
  rw [← Bool.not_eq_true, List.isPrefixOf_iff_prefix] at hother
  exact hother h

namespace Fault

private theorem message_ne {f : Fault} (h : f ≠ missingFunction) :
    f.message ≠ "Unknown function" := by
  have hself (a : String) : a.toList <+: a.toList := List.prefix_rfl
  have hnamed (a : String) {name behind : String} : a.toList <+: (a ++ name ++ behind).toList :=
    begins_append (begins_append (hself a))
  have hlong (a : String) {b c d e : String} : a.toList <+: (a ++ b ++ c ++ d ++ e).toList :=
    begins_append (begins_append (hnamed a))
  cases f with
  | pairOutsideBrackets | unexpectedPair | notAVariable | mainCalled | missingName | expectedSocket
  | pulseWithoutOutput => decide +kernel
  | missingFunction => exact absurd rfl h
  | indexOutOfRange key =>
    exact ne_of_begins (begins_append (hself "Index out of range: ")) (by decide +kernel)
  | undefinedVariable key => exact ne_of_begins (hnamed "Undefined variable '") (by decide +kernel)
  | constantAssigned name =>
    exact ne_of_begins (hnamed "Cannot assign to constant '") (by decide +kernel)
  | inputAssigned name => exact ne_of_begins (hnamed "Cannot assign to input '") (by decide +kernel)
  | unknownFunction name => exact ne_of_begins (hnamed "Unknown function '") (by decide +kernel)
  | callDepthExceeded limit name =>
    exact ne_of_begins (hlong "Call depth limit of ") (by decide +kernel)
  | expectedOwner parameter function => exact ne_of_begins (hlong "Parameter '") (by decide +kernel)
  | unknownStructure name =>
    exact ne_of_begins (hnamed "Unknown structure type '") (by decide +kernel)
  | notASocket name => exact ne_of_begins (hnamed "'") (by decide +kernel)

/-- The faults of expressions that have the wrong shape, and of functions that are not there. -/
def isMisshapen : Fault → Bool
  | pairOutsideBrackets | unexpectedPair | notAVariable | missingFunction => true
  | _ => false

/-- A fault that code can end with: of the faults of a wrong shape only that something is no
variable, and that only where `A` allows it; and none that tells of an unknown function without a
name. -/
structure AllowedAt (A : Option Position → Prop) (f : Fault) (pos : Option Position) : Prop where
  outside : f ≠ pairOutsideBrackets
  unexpected : f ≠ unexpectedPair
  named : f.message ≠ "Unknown function"
  place : f = notAVariable → A pos

variable {A B : Option Position → Prop} {f : Fault} {pos pos' : Option Position}

theorem AllowedAt.mono (h : f.AllowedAt A pos) (hAB : A pos → B pos') : f.AllowedAt B pos' :=
  ⟨h.outside, h.unexpected, h.named, fun hf => hAB (h.place hf)⟩

theorem allowedAt_of_shape (h : f.isMisshapen = false) : f.AllowedAt A pos where
  outside := by
    rintro rfl
    cases h
  unexpected := by
    rintro rfl
    cases h
  named := message_ne <| by
    rintro rfl
    cases h
  place := by
    rintro rfl
    cases h

private theorem allowedAt_notAVariable (h : A pos) : notAVariable.AllowedAt A pos :=
  ⟨by simp, by simp, message_ne (by simp), fun _ => h⟩

end Fault

/-! ### Machines that have the code of a program -/

namespace Machine

/-- All code that a machine can run stands in the program: its functions, each at its place and
found by its own name, and the bodies of the waits that are put off. -/
structure Carries (p : Program) (m : Machine) : Prop where
  program : m.program = p
  functions {name : String} {index : Nat} (h : m.functions.get? name = some index) :
    ∃ f, p.functions[index]? = some f ∧ Text.upper f.name = name
  waits {label : String} {w : PendingWait} (h : m.waits.get? label = some w) :
    ∀ s ∈ w.body, p.HasStmt s

/-- A machine that has the code of a program, and whose host was told of nothing that `Told` does
not hold of. -/
structure Sound (p : Program) (Told : Diagnostic → Prop) (m : Machine) : Prop
    extends Carries p m where
  told {d : Diagnostic} (h : .error d ∈ m.log) : Told d

variable {p : Program} {Told : Diagnostic → Prop} {m m' : Machine}

theorem Sound.of_eq (h : m.Sound p Told) (hprogram : m'.program = m.program)
    (hfunctions : m'.functions = m.functions) (hwaits : m'.waits = m.waits)
    (hlog : m'.log = m.log) : m'.Sound p Told where
  program := hprogram.trans h.program
  functions := by
    rw [hfunctions]
    exact h.functions
  waits := by
    rw [hwaits]
    exact h.waits
  told := by
    rw [hlog]
    exact h.told

theorem Sound.tell (h : m.Sound p Told) {event : Event} (hevent : ∀ d, event = .error d → Told d) :
    (m.tell event).Sound p Told where
  toCarries := ⟨h.program, h.functions, h.waits⟩
  told hd := (Array.mem_push.mp hd).elim h.told fun heq => hevent _ heq.symm

private theorem Sound.of_waits (h : m.Sound p Told) (hprogram : m'.program = m.program)
    (hfunctions : m'.functions = m.functions) (hlog : m'.log = m.log)
    (hwaits : ∀ label w, m'.waits.get? label = some w →
      m.waits.get? label = some w ∨ ∀ s ∈ w.body, p.HasStmt s) : m'.Sound p Told where
  program := hprogram.trans h.program
  functions := by
    rw [hfunctions]
    exact h.functions
  waits hw := (hwaits _ _ hw).elim h.waits id
  told := by
    rw [hlog]
    exact h.told

theorem Sound.erase (h : m.Sound p Told) (label : String) (schedule : Schedule Task) :
    ({ m with waits := m.waits.erase label, schedule := schedule } : Machine).Sound p Told := by
  exact h.of_waits rfl rfl rfl fun other w hw => .inl (PendingWait.get?_of_erase hw)

theorem Sound.trackIndex (h : m.Sound p Told) (key : SlotKey) :
    (m.trackIndex key).Sound p Told := by
  obtain ⟨indices, last, htrack⟩ := m.trackIndex_eq key
  rw [htrack]
  exact h.of_eq rfl rfl rfl rfl

theorem Sound.writeTo (h : m.Sound p Told) (key : SlotKey) (v : Value) (target : Target) :
    (m.writeTo key v target).Sound p Told := by
  cases target with
  | slot slot =>
    have hset : ({ m with scope := m.scope.set key (slot.write v) } : Machine).Sound p Told :=
      h.of_eq rfl rfl rfl rfl
    exact hset.trackIndex key
  | signal s =>
    have hstored : ({ m with signals := m.signals.store s (s.coerce v) } : Machine).Sound p Told :=
      h.of_eq rfl rfl rfl rfl
    have htracked := hstored.trackIndex key
    simp only [Machine.writeTo, writeSignal]
    split
    · exact htracked
    · exact htracked.tell (by rintro _ ⟨⟩)

private theorem isMisshapen_missing (m : Machine) (key : SlotKey) :
    (m.missing key).isMisshapen = false := by
  unfold missing
  split <;> rfl

private theorem isMisshapen_target {key : SlotKey} {f : Fault} (h : m.target key = .error f) :
    f.isMisshapen = false := by
  unfold target at h
  split at h
  · cases h
  split at h
  · cases h
    rfl
  split at h
  · split at h <;> cases h
    rfl
  · cases h
    exact isMisshapen_missing m key

end Machine

theorem Run.isMisshapen_declareLocals {structures : List StructureDef} {locals : List VariableDecl}
    {frame : Frame} {f : Fault} {pos : Position}
    (h : Frame.declareLocals structures locals frame = .error (f, pos)) :
    f.isMisshapen = false := by
  induction locals generalizing frame with
  | nil => cases h
  | cons d rest ih =>
    unfold Frame.declareLocals at h
    split at h
    · exact ih h
    · cases h
      rfl

namespace Run

/-- From each sound machine a run leaves a sound machine, and it ends with no fault but an allowed
one. -/
def Behaves (p : Program) (Told : Diagnostic → Prop) (A : Option Position → Prop) {α : Type}
    (x : Run α) : Prop :=
  ∀ m : Machine, m.Sound p Told → (m.after x).Sound p Told ∧
    ∀ f pos m', x m = .error (.fault f pos) m' → f.AllowedAt A pos

variable {p : Program} {Told : Diagnostic → Prop} {A B : Option Position → Prop} {α β : Type}

/-! ### Putting runs together -/

namespace Behaves

theorem pure (a : α) : Behaves p Told A (Pure.pure a : Run α) := by
  refine fun m hm => ⟨hm, ?_⟩
  rintro f pos m' ⟨⟩

private theorem bind_given {x : Run α} {f : α → Run β} (hx : Behaves p Told A x)
    (hf : ∀ a, (∃ m m', x m = .ok a m') → Behaves p Told A (f a)) :
    Behaves p Told A (x >>= f) := by
  intro m hm
  obtain ⟨hsound, hfault⟩ := hx m hm
  cases h : x m with
  | ok a m' =>
    rw [Machine.after_ok h] at hsound
    rw [Machine.after_bind_ok h, bind_ok h]
    exact hf a ⟨m, m', h⟩ m' hsound
  | error u m' =>
    rw [Machine.after_error h] at hsound
    rw [Machine.after_error (bind_error h f), bind_error h]
    refine ⟨hsound, ?_⟩
    rintro fault pos m'' ⟨⟩
    exact hfault fault pos _ h

theorem bind {x : Run α} {f : α → Run β} (hx : Behaves p Told A x)
    (hf : ∀ a, Behaves p Told A (f a)) : Behaves p Told A (x >>= f) :=
  hx.bind_given fun a _ => hf a

theorem inspect {f : Machine → Run α} (h : ∀ m, m.Sound p Told → Behaves p Told A (f m)) :
    Behaves p Told A (get >>= f) :=
  fun m hm => h m hm m hm

theorem looking {x : Machine → Run α} (h : ∀ m, Behaves p Told A (x m)) :
    Behaves p Told A (fun m => x m m) :=
  fun m hm => h m m hm

theorem modifyGet {f : Machine → α × Machine} (h : ∀ m, m.Sound p Told → (f m).2.Sound p Told) :
    Behaves p Told A (modifyGet f) := by
  refine fun m hm => ⟨h m hm, ?_⟩
  rintro fault pos m' ⟨⟩

theorem modify {f : Machine → Machine} (h : ∀ m, m.Sound p Told → (f m).Sound p Told) :
    Behaves p Told A (modify f) :=
  modifyGet h

theorem leave {u : Unwind} (h : ∀ f pos, u = .fault f pos → f.AllowedAt A pos) :
    Behaves p Told A (throw u : Run α) := by
  refine fun m hm => ⟨hm, ?_⟩
  rintro f pos m' ⟨⟩
  exact h f pos rfl

theorem fault {f : Fault} (h : f.isMisshapen = false) :
    Behaves p Told A (Run.fault f : Run α) := by
  refine leave ?_
  rintro _ _ ⟨⟩
  exact Fault.allowedAt_of_shape h

theorem notAVariable (h : A none) : Behaves p Told A (Run.fault .notAVariable : Run α) := by
  refine leave ?_
  rintro _ _ ⟨⟩
  exact Fault.allowedAt_notAVariable h

theorem mono {x : Run α} (h : Behaves p Told A x) (hAB : ∀ pos, A pos → B pos) :
    Behaves p Told B x := by
  refine fun m hm => ⟨(h m hm).1, fun f pos m' hrun => ?_⟩
  exact ((h m hm).2 f pos m' hrun).mono (hAB pos)

theorem locatedAt {x : Run α} (q : Position) (h : Behaves p Told A x)
    (hAB : ∀ pos, A pos → B (some (pos.getD q))) : Behaves p Told B (locatedAt q x) := by
  intro m hm
  rw [m.after_locatedAt]
  refine ⟨(h m hm).1, fun f pos m' hrun => ?_⟩
  unfold Run.locatedAt at hrun
  split at hrun
  · cases hrun
  next u m₁ hx =>
    cases u with
    | fault f' pos' =>
      have hallowed := (h m hm).2 f' pos' m₁ hx
      cases pos' with
      | none =>
        cases hrun
        exact hallowed.mono (hAB none)
      | some q' =>
        cases hrun
        exact hallowed.mono (hAB (some q'))
    | terminated | stepLimit | aborted | exhausted => cases hrun

theorem repeatUntil {round : Run (Option α)} (h : Behaves p Told A round) (n : Nat) :
    Behaves p Told A (repeatUntil round n) := by
  induction n with
  | zero => exact leave (by rintro _ _ ⟨⟩)
  | succ n ih =>
    refine h.bind fun a => ?_
    cases a with
    | none => exact ih
    | some a => exact pure a

end Behaves

/-! ### Runs that touch the machine -/

private theorem behaves_tell {event : Event} (h : ∀ d, event = .error d → Told d) :
    Behaves p Told A (tell event) :=
  .modify fun _ hm => hm.tell h

private theorem behaves_notice (text : String) : Behaves p Told A (notice text) :=
  behaves_tell (by rintro _ ⟨⟩)

theorem behaves_checkAbort : Behaves p Told A checkAbort := by
  refine .inspect fun m _ => ?_
  split
  · exact .leave (by rintro _ _ ⟨⟩)
  · exact .pure ()

private theorem behaves_tick : Behaves p Told A tick := by
  intro m hm
  rw [m.after_tick]
  refine ⟨hm.of_eq rfl rfl rfl rfl, fun f pos m' hrun => ?_⟩
  unfold tick at hrun
  dsimp only at hrun
  split at hrun
  · cases hrun
  · split at hrun <;> cases hrun

private theorem behaves_plan (delay : Nat) (task : Task) : Behaves p Told A (plan delay task) :=
  behaves_checkAbort.bind fun _ => .modify fun _ hm => hm.of_eq rfl rfl rfl rfl

private theorem behaves_withFiles (f : FileSystem → α × FileSystem) :
    Behaves p Told A (withFiles f) :=
  .modifyGet fun _ hm => hm.of_eq rfl rfl rfl rfl

private theorem behaves_withNetwork (f : Network → α × Network) :
    Behaves p Told A (withNetwork f) :=
  .modifyGet fun _ hm => hm.of_eq rfl rfl rfl rfl

private theorem behaves_setGather (gather : Gather) : Behaves p Told A (setGather gather) :=
  .modify fun _ hm => hm.of_eq rfl rfl rfl rfl

private theorem behaves_setChance (chance : Library.Chance) : Behaves p Told A (setChance chance) :=
  .modify fun _ hm => hm.of_eq rfl rfl rfl rfl

private theorem behaves_holdSection (name : String) : Behaves p Told A (holdSection name) :=
  .modify fun _ hm => hm.of_eq rfl rfl rfl rfl

private theorem behaves_freeSection (name : String) : Behaves p Told A (freeSection name) :=
  .modify fun _ hm => hm.of_eq rfl rfl rfl rfl

private theorem behaves_copyWhole (frame : Frame) (parameter owner : String) :
    Behaves p Told A (copyWhole frame parameter owner) := by
  refine .modify fun m hm => ?_
  obtain ⟨scope, h⟩ := m.copyWhole_eq frame parameter owner
  rw [h]
  exact hm.of_eq rfl rfl rfl rfl

private theorem behaves_cancelWait (name : String) : Behaves p Told A (cancelWait name) := by
  refine .modify fun m hm => ?_
  split
  · exact hm.erase name _
  · exact hm

private theorem behaves_cancelAllWaits : Behaves p Told A cancelAllWaits := by
  refine .modify fun m hm => hm.of_waits rfl rfl rfl fun label w hw => ?_
  exact absurd (hw.symm.trans Std.HashMap.getElem?_empty) (by simp)

private theorem behaves_retimeWait (delay : Nat) (name : String) :
    Behaves p Told A (retimeWait delay name) := by
  refine .modify fun m hm => ?_
  split
  · exact hm.of_eq rfl rfl rfl rfl
  · exact hm

private theorem behaves_waitLabel (label : Option String) : Behaves p Told A (waitLabel label) := by
  unfold waitLabel
  split
  · exact .pure _
  · exact .modifyGet fun _ hm => hm.of_eq rfl rfl rfl rfl

private theorem behaves_scheduleWait {body : List Stmt} (h : ∀ s ∈ body, p.HasStmt s) (delay : Nat)
    (label : Option String) : Behaves p Told A (scheduleWait delay label body) := by
  refine behaves_checkAbort.bind fun _ => (behaves_waitLabel label).bind fun name => ?_
  refine .inspect fun m _ => ?_
  split
  · exact behaves_notice _
  · refine .modify fun m hm => hm.of_waits rfl rfl rfl fun other w hw => ?_
    obtain ⟨-, rfl⟩ | hbefore := PendingWait.get?_of_insert hw
    · exact .inr h
    · exact .inl hbefore

private theorem behaves_tryWrite (key : SlotKey) (v : Value) :
    Behaves p Told A (tryWrite key v) := by
  intro m hm
  constructor
  · obtain ⟨target, -, h⟩ | h := m.after_tryWrite key v
    · rw [h]
      exact hm.writeTo key v target
    · rw [h]
      exact hm
  · intro f pos m' hrun
    unfold tryWrite at hrun
    split at hrun <;> cases hrun

private theorem isMisshapen_tryWrite {key : SlotKey} {v : Value} {m m' : Machine} {f : Fault}
    (h : tryWrite key v m = .ok (some f) m') : f.isMisshapen = false := by
  unfold tryWrite at h
  split at h
  · cases h
  next htarget =>
    cases h
    exact Machine.isMisshapen_target htarget

theorem behaves_writeKey (key : SlotKey) (v : Value) : Behaves p Told A (writeKey key v) := by
  refine (behaves_tryWrite key v).bind_given fun refused hgiven => ?_
  obtain ⟨m, m', h⟩ := hgiven
  cases refused with
  | none => exact .pure ()
  | some f => exact .fault (isMisshapen_tryWrite h)

private theorem behaves_readKey (key : SlotKey) : Behaves p Told A (readKey key) := by
  refine .inspect fun m _ => ?_
  split
  · exact .pure _
  · exact .fault (m.isMisshapen_missing key)

/-! ### Places and arguments -/

/-- An expression and its parts are evaluated by runs that behave. -/
structure Evaluates (p : Program) (Told : Diagnostic → Prop) (A : Option Position → Prop)
    (eval : Expr → Run Value) (e : Expr) : Prop where
  whole : Behaves p Told A (eval e)
  parts : ∀ part ∈ e.parts, Behaves p Told A (eval part)

theorem Evaluates.mono {B : Option Position → Prop} {eval : Expr → Run Value} {e : Expr}
    (h : Evaluates p Told A eval e) (hAB : ∀ pos, A pos → B pos) : Evaluates p Told B eval e :=
  ⟨h.whole.mono hAB, fun part hpart => (h.parts part hpart).mono hAB⟩

section

variable {eval : Expr → Run Value}

private theorem behaves_resolveKey {e : Expr}
    (hparts : ∀ part ∈ e.parts, Behaves p Told A (eval part))
    (hplace : e.isPlace = false → A none) : Behaves p Told A (resolveKey eval e) := by
  unfold resolveKey
  split
  · exact .pure _
  next id first second =>
    refine (hparts first (by simp [Expr.parts])).bind fun i => ?_
    exact (hparts second (by simp [Expr.parts])).bind fun j => .pure _
  next id index hpair =>
    have hindex : ¬ index.IsPair := by
      rintro ⟨first, second, heq⟩
      exact hpair first second heq
    refine (hparts index ?_).bind fun i => .pure _
    rw [Expr.parts_element hindex]
    exact List.mem_singleton_self index
  · exact .pure _
  next object field index => exact (hparts index (by simp [Expr.parts])).bind fun i => .pure _
  next hname hpair helement hfield hindexed =>
    refine .notAVariable (hplace ?_)
    cases e with
    | name id => exact absurd rfl (hname id)
    | element id index => exact absurd rfl (helement id index)
    | field object part index =>
      cases index with
      | none => exact absurd rfl (hfield object part)
      | some index => exact absurd rfl (hindexed object part index)
    | number | text | binary | unary | call => rfl

private theorem behaves_evalArg {e : Expr} (he : Evaluates p Told A eval e) :
    Behaves p Told A (evalArg eval e) := by
  have hkey (hplace : e.isPlace = true) :
      Behaves p Told A (do
        let key ← resolveKey eval e
        return (⟨← readKey key, some key⟩ : Library.Arg)) := by
    refine (behaves_resolveKey he.parts fun hother => ?_).bind fun key => ?_
    · rw [hplace] at hother
      cases hother
    · exact (behaves_readKey key).bind fun v => .pure _
  unfold evalArg
  split
  · refine .inspect fun m _ => ?_
    split
    · exact .pure _
    · split
      · exact .pure _
      · exact .fault (m.isMisshapen_missing _)
  · exact hkey rfl
  · exact hkey rfl
  · exact he.whole.bind fun v => .pure _

variable {args : List Expr} (hargs : ∀ e ∈ args, Evaluates p Told A eval e)
include hargs

private theorem behaves_argValue (i : Nat) : Behaves p Told A (argValue eval args i) := by
  unfold argValue
  split
  next e h => exact (hargs e (List.mem_of_getElem? h)).whole
  next => exact .pure _

private theorem behaves_argNumber (i : Nat) : Behaves p Told A (argNumber eval args i) :=
  (behaves_argValue hargs i).bind fun _ => .pure _

private theorem behaves_argText (i : Nat) : Behaves p Told A (argText eval args i) := by
  unfold argText
  split
  next e h => exact (hargs e (List.mem_of_getElem? h)).whole.bind fun v => .pure _
  next => exact .pure _

private theorem behaves_argName (i : Nat) : Behaves p Told A (argName eval args i) := by
  unfold argName
  split
  next => exact .pure _
  next e _ h => exact (hargs e (List.mem_of_getElem? h)).whole.bind fun v => .pure _
  next => exact .fault rfl

private theorem behaves_storeText (i : Nat) (text : String) :
    Behaves p Told A (storeText eval args i text) := by
  unfold storeText
  split
  next e h =>
    split
    next hplace =>
      refine (behaves_resolveKey (hargs e (List.mem_of_getElem? h)).parts ?_).bind fun key =>
        behaves_writeKey key _
      intro hother
      rw [hplace] at hother
      cases hother
    next => exact .pure ()
  next => exact .pure ()

/-! ### Routines -/

private theorem behaves_fileRead : Behaves p Told A (fileRead eval args) := by
  refine (behaves_argNumber hargs 0).bind fun handle => ?_
  refine (behaves_argNumber hargs 2).bind fun limit => ?_
  refine (behaves_withFiles _).bind fun bytes => ?_
  split
  · exact .pure _
  · exact (behaves_storeText hargs 1 _).bind fun _ => .pure _

private theorem behaves_fileWrite : Behaves p Told A (fileWrite eval args) := by
  refine (behaves_argNumber hargs 0).bind fun handle => ?_
  refine (behaves_argText hargs 1).bind fun text => ?_
  have hwrite (bytes : List UInt8) :
      Behaves p Told A (do return Value.number (← withFiles (·.write handle bytes))) :=
    (behaves_withFiles _).bind fun n => .pure _
  split
  · exact (behaves_argNumber hargs 2).bind fun n => Behaves.bind (.pure _) hwrite
  · exact Behaves.bind (.pure _) hwrite

private theorem behaves_fileRoutine (name : String) :
    ∀ x ∈ fileRoutine eval name args, Behaves p Told A x := by
  intro x hx
  unfold fileRoutine at hx
  split at hx <;> cases hx
  · exact .pure _
  · exact .pure _
  · exact (behaves_argText hargs 0).bind fun path => (behaves_argNumber hargs 1).bind fun flags =>
      (behaves_withFiles _).bind fun n => .pure _
  · exact (behaves_argNumber hargs 0).bind fun handle => (behaves_withFiles _).bind fun n => .pure _
  · exact behaves_fileRead hargs
  · exact behaves_fileWrite hargs
  · exact (behaves_argNumber hargs 0).bind fun handle => (behaves_argNumber hargs 1).bind fun n =>
      (behaves_argNumber hargs 2).bind fun origin => (behaves_withFiles _).bind fun n => .pure _
  · exact (behaves_argText hargs 0).bind fun path => (behaves_withFiles _).bind fun n => .pure _
  · exact (behaves_argNumber hargs 0).bind fun handle => .inspect fun m _ => .pure _
  · exact (behaves_argText hargs 0).bind fun path => .inspect fun m _ => .pure _
  · exact (behaves_argText hargs 0).bind fun path => .inspect fun m _ => .pure _
  · exact (behaves_argText hargs 0).bind fun path => (behaves_withFiles _).bind fun n => .pure _
  · exact (behaves_argText hargs 0).bind fun pattern => .inspect fun m _ =>
      (behaves_withFiles _).bind fun found =>
        (behaves_storeText hargs 1 found).bind fun _ => .pure _
  · exact (behaves_withFiles _).bind fun found =>
      (behaves_storeText hargs 0 found).bind fun _ => .pure _
  · exact (behaves_withFiles _).bind fun n => .pure _

omit hargs in
private theorem behaves_socketArg (args : List Expr) : Behaves p Told A (socketArg args) := by
  unfold socketArg
  split
  · refine .inspect fun m _ => ?_
    split
    · exact .pure _
    · exact .fault rfl
  · exact .fault rfl

private theorem behaves_socketConnect : Behaves p Told A (socketConnect eval args) := by
  refine (behaves_socketArg args).bind fun id => (behaves_argText hargs 1).bind fun address => ?_
  refine (behaves_argNumber hargs 2).bind fun port => (behaves_withNetwork _).bind fun status => ?_
  split
  · exact .inspect fun m _ => (behaves_plan _ _).bind fun _ => .pure _
  · exact .pure _

omit hargs in
private theorem behaves_socketDisconnect (args : List Expr) :
    Behaves p Told A (socketDisconnect args) := by
  refine (behaves_socketArg args).bind fun id => (behaves_withNetwork _).bind fun status => ?_
  split
  · exact (behaves_plan _ _).bind fun _ => .pure _
  · exact .pure _

private theorem behaves_socketSend : Behaves p Told A (socketSend eval args) := by
  refine (behaves_socketArg args).bind fun id => (behaves_argText hargs 1).bind fun data => ?_
  refine (behaves_withNetwork _).bind fun sent => ?_
  split
  split
  · exact .inspect fun m _ => (behaves_plan _ _).bind fun _ => .pure _
  · exact .pure _

private theorem behaves_socketAddress : Behaves p Told A (socketAddress eval args) := by
  refine (behaves_socketArg args).bind fun id => .inspect fun m _ => ?_
  exact (behaves_storeText hargs 1 _).bind fun _ => .pure _

private theorem behaves_socketListen : Behaves p Told A (socketListen eval args) := by
  refine (behaves_socketArg args).bind fun id => (behaves_argNumber hargs _).bind fun port => ?_
  refine (behaves_withNetwork _).bind fun status => ?_
  split
  · exact (behaves_plan _ _).bind fun _ => .pure _
  · exact .pure _

private theorem behaves_socketRoutine (name : String) :
    ∀ x ∈ socketRoutine eval name args, Behaves p Told A x := by
  intro x hx
  unfold socketRoutine at hx
  split at hx <;> cases hx
  · exact behaves_socketConnect hargs
  · exact behaves_socketDisconnect args
  · exact behaves_socketDisconnect args
  · exact behaves_socketSend hargs
  · exact (behaves_socketArg args).bind fun id => .inspect fun m _ => .pure _
  · exact behaves_socketAddress hargs
  · exact behaves_socketAddress hargs
  · exact (behaves_socketArg args).bind fun id => .inspect fun m _ => .pure _
  · exact behaves_socketListen hargs
  · exact (behaves_socketArg args).bind fun id => (behaves_argText hargs 1).bind fun address =>
      (behaves_argNumber hargs 2).bind fun port => (behaves_withNetwork _).bind fun n => .pure _
  · exact (behaves_socketArg args).bind fun id => (behaves_withNetwork _).bind fun n => .pure _

private theorem behaves_pulse
    (hplace : ∀ output, args[1]? = some output → output.isPlace = false → A none) :
    Behaves p Told A (pulse eval args) := by
  refine (behaves_argNumber hargs 0).bind fun delay => ?_
  split
  next => exact .fault rfl
  next output h =>
    have hkey := behaves_resolveKey (hargs output (List.mem_of_getElem? h)).parts (hplace output h)
    exact hkey.bind fun key => (behaves_writeKey key _).bind fun _ => behaves_plan _ _

omit hargs in
private theorem behaves_createThread (name : String) : Behaves p Told A (createThread name) := by
  refine .inspect fun m _ => ?_
  split
  · exact behaves_plan _ _
  · exact .fault rfl

omit hargs in
private theorem behaves_suspend {pump : Nat → Run Unit} (hpump : ∀ n, Behaves p Told A (pump n))
    (delay : Nat) (what : String) : Behaves p Told A (suspend pump delay what) := by
  refine .inspect fun m _ => ?_
  split
  · exact behaves_notice _
  · exact behaves_checkAbort.bind fun _ => hpump _

omit hargs in
private theorem behaves_tryCritical {pump : Nat → Run Unit} (hpump : ∀ n, Behaves p Told A (pump n))
    (name : String) : Behaves p Told A (tryCritical pump name) := by
  refine .inspect fun m _ => ?_
  split
  · exact (behaves_holdSection name).bind fun _ => .pure _
  · split
    · exact (behaves_notice _).bind fun _ => .pure _
    · exact behaves_tick.bind fun _ => (behaves_suspend hpump _ _).bind fun _ => .pure _

private theorem behaves_timingRoutine {pump : Nat → Run Unit}
    (hpump : ∀ n, Behaves p Told A (pump n))
    (fuel : Nat) {name : String}
    (hpulse : name = "PULSE" → ∀ output, args[1]? = some output → output.isPlace = false → A none) :
    ∀ x ∈ timingRoutine eval pump fuel name args, Behaves p Told A x := by
  intro x hx
  unfold timingRoutine at hx
  split at hx <;> cases hx
  · exact (behaves_argNumber hargs 0).bind fun delay =>
      (behaves_suspend hpump _ _).bind fun _ => .pure _
  · refine .inspect fun m _ => ?_
    split
    · exact (behaves_suspend hpump _ _).bind fun _ => .pure _
    · exact .pure _
  · exact (behaves_pulse hargs (hpulse rfl)).bind fun _ => .pure _
  · exact (behaves_argName hargs 0).bind fun name => (behaves_cancelWait name).bind fun _ => .pure _
  · exact behaves_cancelAllWaits.bind fun _ => .pure _
  · exact (behaves_argNumber hargs 0).bind fun delay => (behaves_argName hargs 1).bind fun name =>
      (behaves_retimeWait _ name).bind fun _ => .pure _
  · exact (behaves_argName hargs 0).bind fun name =>
      (behaves_createThread name).bind fun _ => .pure _
  · exact (behaves_argName hargs 0).bind fun name =>
      (behaves_tryCritical hpump name).repeatUntil fuel
  · exact (behaves_argName hargs 0).bind fun name =>
      (behaves_freeSection name).bind fun _ => .pure _

private theorem behaves_servedRoutine {pump : Nat → Run Unit}
    (hpump : ∀ n, Behaves p Told A (pump n))
    (fuel : Nat) {name : String}
    (hpulse : name = "PULSE" → ∀ output, args[1]? = some output → output.isPlace = false → A none) :
    ∀ x ∈ servedRoutine eval pump fuel name args, Behaves p Told A x := by
  intro x hx
  unfold servedRoutine at hx
  rcases Option.or_eq_some_iff.mp hx with hx | ⟨-, hx⟩
  · exact behaves_timingRoutine hargs hpump fuel hpulse x hx
  rcases Option.or_eq_some_iff.mp hx with hx | ⟨-, hx⟩
  · exact behaves_fileRoutine hargs name x hx
  · exact behaves_socketRoutine hargs name x hx

/-! ### Calls -/

omit hargs in
theorem behaves_localFrame (locals : List VariableDecl) (frame : Frame) :
    Behaves p Told A (localFrame locals frame) := by
  refine .inspect fun m _ => ?_
  generalize hdeclared : Frame.declareLocals m.program.structures locals frame = declared
  cases declared with
  | ok frame => exact .pure frame
  | error refused =>
    obtain ⟨f, pos⟩ := refused
    refine .leave ?_
    rintro _ _ ⟨⟩
    exact Fault.allowedAt_of_shape (isMisshapen_declareLocals hdeclared)

omit hargs in
private theorem behaves_bindParameter {arg : Option Expr}
    (harg : ∀ e ∈ arg, Evaluates p Told A eval e) (function : String) (param : Parameter)
    (b : Binding) : Behaves p Told A (bindParameter eval function param arg b) := by
  unfold bindParameter
  dsimp only
  split
  · split
    · exact .inspect fun m _ => .pure _
    · exact .fault rfl
  · split
    next => exact .pure _
    next e =>
      refine (harg e rfl).whole.bind fun v => ?_
      split
      next h =>
        refine (behaves_resolveKey (harg e rfl).parts fun hother => ?_).bind fun key => .pure _
        simp [hother] at h
      next => exact .pure _

private theorem behaves_bindParameters (function : String) (params : List Parameter) (b : Binding) :
    Behaves p Told A (bindParameters eval function params args b) := by
  induction params generalizing args b with
  | nil => exact .pure b
  | cons param params ih =>
    refine (behaves_bindParameter ?_ function param b).bind fun b' => ?_
    · exact fun e he => hargs e (List.mem_of_mem_head? he)
    · exact ih (fun e he => hargs e (List.mem_of_mem_tail he)) b'

omit hargs in
private theorem behaves_inFrame {x : Run α} (h : Behaves p Told A x) (frame : Frame) :
    Behaves p Told A (inFrame frame x) := by
  intro m hm
  have hentered : (m.enter frame).Sound p Told := hm.of_eq rfl rfl rfl rfl
  rw [m.after_inFrame]
  refine ⟨(h _ hentered).1.of_eq rfl rfl rfl rfl, fun f pos m' hrun => ?_⟩
  unfold inFrame at hrun
  split at hrun
  · cases hrun
  next u m₁ hx =>
    cases hrun
    exact (h _ hentered).2 f pos m₁ hx

omit hargs in
private theorem behaves_copyBacks (frame : Frame) (copyBacks : List CopyBack) :
    Behaves p Told A (copyBacks.forM (copyBack frame)) := by
  induction copyBacks with
  | nil => exact .pure ()
  | cons first rest ih =>
    refine Behaves.bind ?_ fun _ => ih
    cases first with
    | slot parameter target =>
      dsimp only [copyBack]
      split
      · exact behaves_writeKey _ _
      · exact .pure ()
    | whole parameter owner => exact behaves_copyWhole _ _ _

theorem behaves_callFunction {block : List Stmt → Run Flow} {f : FunctionDef}
    (hbody : Behaves p Told A (block f.body)) :
    Behaves p Told A (callFunction eval block f args) := by
  have happly : Behaves p Told A (applyFunction eval block f args) := by
    refine (behaves_bindParameters hargs f.name f.params {}).bind fun b => ?_
    refine (behaves_localFrame f.locals b.frame).bind fun frame => ?_
    refine (behaves_inFrame hbody frame).bind fun left => ?_
    exact (behaves_copyBacks left.2 b.copyBacks).bind fun _ => .pure _
  refine .inspect fun m _ => ?_
  split
  · exact Behaves.bind (.fault rfl) fun _ => happly
  · exact happly

theorem behaves_callAt {block : List Stmt → Run Flow} {f : FunctionDef} {index : Nat}
    (hf : p.functions[index]? = some f) (hblock : Behaves p Told A (block f.body)) :
    Behaves p Told A (callAt eval block index args) := by
  refine .inspect fun m hm => ?_
  rw [hm.program, hf]
  exact behaves_callFunction hargs hblock

omit hargs in
private theorem isMisshapen_perform {effects : List Library.Effect} {m m' : Machine} {f : Fault}
    (h : perform effects m = .ok (some f) m') : f.isMisshapen = false := by
  induction effects generalizing m m' f with
  | nil => cases h
  | cons effect effects ih =>
    cases effect with
    | print text =>
      obtain ⟨_, m₁, -, h⟩ := bind_eq_ok h
      exact ih h
    | notice text =>
      obtain ⟨_, m₁, -, h⟩ := bind_eq_ok h
      exact ih h
    | write key v =>
      obtain ⟨refused, m₁, hwrite, h⟩ := bind_eq_ok h
      obtain ⟨later, m₂, hrest, h⟩ := bind_eq_ok h
      cases refused with
      | some f' =>
        cases h
        exact isMisshapen_tryWrite hwrite
      | none =>
        cases h
        exact ih hrest

omit hargs in
private theorem behaves_perform (effects : List Library.Effect) :
    Behaves p Told A (perform effects) := by
  induction effects with
  | nil => exact .pure none
  | cons effect effects ih =>
    cases effect with
    | print text => exact (behaves_tell (by rintro _ ⟨⟩)).bind fun _ => ih
    | notice text => exact (behaves_notice text).bind fun _ => ih
    | write key v => exact (behaves_tryWrite key v).bind fun _ => ih.bind fun _ => .pure _

omit hargs in
private theorem behaves_answer (reply : Library.Reply) : Behaves p Told A (answer reply) := by
  refine (behaves_perform reply.effects).bind_given fun refused hgiven => ?_
  obtain ⟨m, m', h⟩ := hgiven
  cases refused with
  | some f => exact .fault (isMisshapen_perform h)
  | none => exact .pure _

private theorem behaves_evalArgs : Behaves p Told A (args.mapM (evalArg eval)) := by
  induction args with
  | nil => exact .pure _
  | cons e args ih =>
    rw [List.mapM_cons]
    obtain ⟨he, hrest⟩ := List.forall_mem_cons.mp hargs
    exact (behaves_evalArg he).bind fun a => (ih hrest).bind fun rest => .pure _

private theorem behaves_callRoutine (routine : Library.Routine) :
    Behaves p Told A (callRoutine eval routine args) := by
  refine (behaves_evalArgs hargs).bind fun given => .inspect fun m _ => ?_
  have hkept {α : Type} (kept : Option α) {f : α → Run Unit}
      (h : ∀ a, Behaves p Told A (f a)) : Behaves p Told A (kept.forM f) := by
    cases kept with
    | none => exact .pure ()
    | some a => exact h a
  refine (hkept _ behaves_setGather).bind fun _ => ?_
  exact (hkept _ behaves_setChance).bind fun _ => behaves_answer _

private theorem behaves_call {block : List Stmt → Run Flow} {pump : Nat → Run Unit} {name : String}
    (hblock : ∀ f ∈ p.functions, Behaves p Told A (block f.body))
    (hpump : ∀ n, Behaves p Told A (pump n)) (fuel : Nat)
    (hmisaims : (Expr.call name args).Misaims → A none) :
    Behaves p Told A (call eval block pump fuel name args) := by
  refine .inspect fun m hm => ?_
  split
  next index h =>
    obtain ⟨f, hf, -⟩ := hm.functions h
    exact behaves_callAt hargs hf (hblock f (List.mem_of_getElem? hf))
  next =>
    split
    · exact .fault rfl
    · have hpulse (hword : Text.upper name = "PULSE") (output : Expr)
          (houtput : args[1]? = some output) (hplace : output.isPlace = false) : A none :=
        hmisaims ⟨name, args, output, rfl, hword, houtput, hplace⟩
      have hserved := behaves_servedRoutine hargs hpump fuel hpulse
      split
      next x hx => exact hserved x hx
      next =>
        split
        · exact behaves_callRoutine hargs _
        · exact .fault rfl

end

/-! ### Statements and expressions -/

private theorem behaves_applyBinary {op : BinaryOp} (h : op ≠ .pair) (a b : Value) :
    Behaves p Told A (applyBinary op a b) := by
  unfold applyBinary
  split
  · exact .pure _
  · rw [if_neg h]
    split
    · exact (behaves_notice _).bind fun _ => .pure _
    · exact .pure _

/-- An expression other than two indices behaves if what it is put together from does, and if it is
allowed to pulse what is no place. -/
private theorem behaves_expression {eval : Expr → Run Value} {block : List Stmt → Run Flow}
    {pump : Nat → Run Unit} {e : Expr}
    (hparts : ∀ part ∈ e.parts, Evaluates p Told A eval part)
    (hblock : ∀ f ∈ p.functions, Behaves p Told A (block f.body))
    (hpump : ∀ n, Behaves p Told A (pump n)) (fuel : Nat) (hsingle : ¬ e.IsPair)
    (hmisaims : e.Misaims → A none) : Behaves p Told A (expression eval block pump fuel e) := by
  have hkey (hplace : e.isPlace = true) :
      Behaves p Told A (do readKey (← resolveKey eval e)) := by
    refine (behaves_resolveKey (fun part hpart => (hparts part hpart).whole) ?_).bind
      fun key => behaves_readKey key
    intro hother
    rw [hplace] at hother
    cases hother
  cases e with
  | number | text => exact .pure _
  | name | element | field => exact hkey rfl
  | unary op operand => exact (hparts operand List.mem_cons_self).whole.bind fun v => .pure _
  | binary op left right =>
    have hop : op ≠ .pair := fun h => hsingle ⟨left, right, by rw [h]⟩
    have hrun : Behaves p Told A (do
        let a ← eval left
        let b ← eval right
        applyBinary op a b) := by
      refine (hparts left List.mem_cons_self).whole.bind fun a => ?_
      exact (hparts right (by simp [Expr.parts])).whole.bind fun b => behaves_applyBinary hop a b
    cases op with
    | pair => exact absurd rfl hop
    | _ => exact hrun
  | call name args => exact behaves_call hparts hblock hpump fuel hmisaims

private theorem behaves_sequence {exec : Stmt → Run Flow} {body : List Stmt}
    (h : ∀ s ∈ body, Behaves p Told A (exec s)) : Behaves p Told A (sequence exec body) := by
  induction body with
  | nil => exact .pure _
  | cons s rest ih =>
    obtain ⟨hfirst, hrest⟩ := List.forall_mem_cons.mp h
    refine hfirst.bind fun flow => ?_
    split
    · exact ih hrest
    · exact .pure _

section

variable {eval : Expr → Run Value} {block : List Stmt → Run Flow}

private theorem behaves_whileRound {condition : Expr} {body : List Stmt}
    (hcondition : Behaves p Told A (eval condition)) (hbody : Behaves p Told A (block body)) :
    Behaves p Told A (whileRound eval block condition body) := by
  refine hcondition.bind fun v => ?_
  split
  · exact hbody.bind fun flow => .pure _
  · exact .pure _

private theorem behaves_untilRound {condition : Expr} {body : List Stmt}
    (hcondition : Behaves p Told A (eval condition)) (hbody : Behaves p Told A (block body)) :
    Behaves p Told A (untilRound eval block body condition) := by
  refine hbody.bind fun flow => ?_
  split
  · exact .pure _
  · refine hcondition.bind fun v => ?_
    split
    · exact .pure _
    · exact .pure _

private theorem behaves_countRound {body : List Stmt} (hbody : Behaves p Told A (block body))
    (key : SlotKey) (finish step : Int) :
    Behaves p Told A (countRound block key finish step body) := by
  refine hbody.bind fun flow => ?_
  split
  · exact .pure _
  · refine behaves_tick.bind fun _ => (behaves_readKey key).bind fun v => ?_
    dsimp only
    split
    · exact (behaves_writeKey key _).bind fun _ => .pure _
    · exact .pure _

private theorem behaves_countLoop {counter start finish : Expr} {step : Option Expr}
    {body : List Stmt}
    (hcounter : Behaves p Told A (resolveKey eval counter))
    (hstart : Behaves p Told A (eval start)) (hfinish : Behaves p Told A (eval finish))
    (hstep : ∀ e ∈ step, Behaves p Told A (eval e)) (hbody : Behaves p Told A (block body))
    (fuel : Nat) :
    Behaves p Told A (countLoop eval block fuel counter start finish step body) := by
  refine hcounter.bind fun key => hstart.bind fun first => hfinish.bind fun last => ?_
  have hloop (n : Int) : Behaves p Told A (do
      writeKey key (.number first.toNumber)
      if isPast last.toNumber n first.toNumber then return .normal
      else repeatUntil (countRound block key last.toNumber n body) fuel) := by
    refine (behaves_writeKey key _).bind fun _ => ?_
    split
    · exact .pure _
    · exact (behaves_countRound hbody key _ n).repeatUntil fuel
  split
  next e => exact (hstep e rfl).bind fun n => Behaves.bind (.pure _) hloop
  next => exact Behaves.bind (.pure _) hloop

private theorem behaves_switchFrom (subject : Value) (runsOn started : Bool)
    {alternatives : List (Alternative Stmt)}
    (hlabels : ∀ a ∈ alternatives, ∀ e ∈ a.label, Behaves p Told A (eval e))
    (hbodies : ∀ a ∈ alternatives, Behaves p Told A (block a.body)) :
    Behaves p Told A (switchFrom eval block subject runsOn started alternatives) := by
  induction alternatives generalizing started with
  | nil => exact .pure _
  | cons a rest ih =>
    obtain ⟨hlabel, hlabels⟩ := List.forall_mem_cons.mp hlabels
    obtain ⟨hbody, hbodies⟩ := List.forall_mem_cons.mp hbodies
    have hselects : Behaves p Told A (selects eval subject runsOn started a.label) := by
      unfold selects
      split
      next e he =>
        split
        · exact .pure _
        · exact (hlabel e he).bind fun v => .pure _
      next => exact .pure _
    refine hselects.bind fun selected => ?_
    split
    · refine hbody.bind fun flow => ?_
      split
      · split
        · exact ih true hlabels hbodies
        · exact .pure _
      · exact .pure _
      · exact .pure _
    · exact ih started hlabels hbodies

private theorem behaves_statement {pump : Nat → Run Unit} {s : Stmt}
    (hexprs : ∀ e ∈ s.exprs, Evaluates p Told A eval e)
    (htargets : ∀ e ∈ s.targets, e.isPlace = true)
    (hblock : ∀ body : List Stmt, (∀ t ∈ body, t ∈ s.parts) → Behaves p Told A (block body))
    (hs : p.HasStmt s) (hpump : ∀ n, Behaves p Told A (pump n)) (fuel : Nat) :
    Behaves p Told A (statement eval block pump fuel s) := by
  have htarget {e : Expr} (he : e ∈ s.targets) : Behaves p Told A (resolveKey eval e) := by
    refine behaves_resolveKey (hexprs e (by simp [Stmt.exprs, he])).parts fun hother => ?_
    rw [htargets e he] at hother
    cases hother
  have hvalue {e : Expr} (he : e ∈ s.values) : Behaves p Told A (eval e) :=
    (hexprs e (by simp [Stmt.exprs, he])).whole
  cases s with
  | branch pos condition thenBody elseBody =>
    refine (hvalue List.mem_cons_self).bind fun v => ?_
    split
    · exact hblock _ fun t ht => List.mem_append_left _ ht
    · exact hblock _ fun t ht => List.mem_append_right _ ht
  | count pos counter start finish step body =>
    refine behaves_countLoop (htarget List.mem_cons_self) (hvalue (by simp [Stmt.values]))
      (hvalue (by simp [Stmt.values])) (fun e he => hvalue ?_) (hblock body fun t ht => ht) fuel
    exact List.mem_cons_of_mem _ (List.mem_cons_of_mem _ (Option.mem_toList.mpr he))
  | whileLoop pos condition body =>
    exact (behaves_whileRound (hvalue List.mem_cons_self) (hblock body fun t ht => ht)).repeatUntil
      fuel
  | untilLoop pos body condition =>
    exact (behaves_untilRound (hvalue List.mem_cons_self) (hblock body fun t ht => ht)).repeatUntil
      fuel
  | switch pos subject alternatives runsOn =>
    refine (hvalue List.mem_cons_self).bind fun v => behaves_switchFrom v runsOn false ?_ ?_
    · intro a ha e he
      exact hvalue (List.mem_cons_of_mem _ (List.mem_filterMap.mpr ⟨a, ha, he⟩))
    · exact fun a ha => hblock a.body fun t ht => List.mem_flatMap.mpr ⟨a, ha, ht⟩
  | wait pos duration label body =>
    refine (hvalue List.mem_cons_self).bind fun v => ?_
    cases body with
    | none => exact (behaves_suspend hpump _ _).bind fun _ => .pure _
    | some body =>
      exact (behaves_scheduleWait (fun t ht => hs.part ht) _ label).bind fun _ => .pure _
  | assign pos target value =>
    refine (hvalue List.mem_cons_self).bind fun v => (htarget List.mem_cons_self).bind fun key => ?_
    exact (behaves_writeKey key v).bind fun _ => .pure _
  | call pos routine =>
    exact (hexprs routine (by simp [Stmt.exprs, Stmt.routine?])).whole.bind fun _ => .pure _
  | returns pos value =>
    cases value with
    | none => exact .pure _
    | some e => exact (hvalue List.mem_cons_self).bind fun v => .pure _
  | breaks pos => exact .pure _
  | terminateEvent pos => exact .leave (by rintro _ _ ⟨⟩)
  | block pos body => exact hblock body fun t ht => ht

end

end Run

/-! ### The code of a program -/

namespace Program

/-- The places of the statements that are to pulse something other than a place. -/
def Blamed (p : Program) (pos : Option Position) : Prop :=
  ∃ q, pos = some q ∧ p.MisaimsAt q

/-- What evaluating an expression is blamed for: pulses in it of what is no place, which have no
place yet, and the statements of the functions it calls. -/
def BlamedIn (p : Program) (e : Expr) (pos : Option Position) : Prop :=
  p.Blamed pos ∨ pos = none ∧ ∃ routine, Occurs Expr.parts routine e ∧ routine.Misaims

variable {p : Program} {e : Expr} {pos : Option Position}

private theorem BlamedIn.of_part {part : Expr} (h : p.BlamedIn part pos) (hpart : part ∈ e.parts) :
    p.BlamedIn e pos :=
  h.imp_right fun ⟨hpos, routine, hoccurs, hmisaims⟩ =>
    ⟨hpos, routine, hoccurs.tail hpart, hmisaims⟩

theorem BlamedIn.located {s : Stmt} (h : p.BlamedIn e pos) (hs : p.HasStmt s) (he : e ∈ s.exprs) :
    p.Blamed (some (pos.getD s.pos)) := by
  obtain ⟨q, rfl, hq⟩ | ⟨rfl, hroutine⟩ := h
  · exact ⟨q, rfl, hq⟩
  · exact ⟨s.pos, rfl, s, hs, rfl, e, he, hroutine⟩

end Program

namespace Run

variable {p : Program} {Told : Diagnostic → Prop} {pump : Nat → Run Unit}

/-- In a shaped program expressions and statements end with allowed faults only: an expression is
blamed for the pulses in it of what is no place, a statement for those in its expressions. -/
theorem behaves_code (hp : p.Shaped) (hpump : ∀ n, Behaves p Told p.Blamed (pump n)) (fuel : Nat) :
    (∀ e : Expr, e.Shaped → Behaves p Told (p.BlamedIn e) (eval pump fuel e)) ∧
      ∀ s, p.HasStmt s → Behaves p Told p.Blamed (exec pump fuel s) := by
  induction fuel with
  | zero =>
    have hstuck {A : Option Position → Prop} {α : Type} :
        Behaves p Told A (throw .exhausted : Run α) := .leave (by rintro _ _ ⟨⟩)
    exact ⟨fun _ _ => hstuck, fun _ _ => hstuck⟩
  | succ fuel ih =>
    obtain ⟨heval, hexec⟩ := ih
    have hblock {body : List Stmt} (h : ∀ t ∈ body, p.HasStmt t) :
        Behaves p Told p.Blamed (block pump fuel body) :=
      behaves_sequence fun t ht => hexec t (h t ht)
    have hevaluates {e : Expr} (he : e.Shaped) :
        Evaluates p Told (p.BlamedIn e) (eval pump fuel) e :=
      ⟨heval e he, fun part hpart => (heval part (he.part hpart)).mono fun _ h => h.of_part hpart⟩
    refine ⟨fun e he => ?_, fun s hs => ?_⟩
    · have hkept : ∀ pos, p.Blamed pos → p.BlamedIn e pos := fun _ h => .inl h
      refine behaves_tick.bind fun _ => behaves_expression ?_ ?_ (fun n => (hpump n).mono hkept)
        fuel he.whole fun hmisaims => .inr ⟨rfl, e, .refl, hmisaims⟩
      · intro part hpart
        exact (hevaluates (he.part hpart)).mono fun _ h => h.of_part hpart
      · intro f hf
        have hbody : f.body ∈ p.bodies := Program.mem_bodies.mpr (.inr (.inl ⟨f, hf, rfl⟩))
        exact (hblock fun t ht => p.hasStmt_of_mem hbody ht).mono hkept
    · -- Until it is located, what the statement is blamed for may have no place.
      have hmeets := hp.meets hs
      let A (pos : Option Position) : Prop := p.Blamed (some (pos.getD s.pos))
      have hkept : ∀ pos, p.Blamed pos → A pos := by
        rintro _ ⟨q, rfl, hq⟩
        exact ⟨q, rfl, hq⟩
      refine behaves_tick.bind fun _ => Behaves.locatedAt (A := A) s.pos ?_ fun _ h => h
      refine behaves_statement ?_ (fun e he => (hmeets.targets e he).2) ?_ hs
        (fun n => (hpump n).mono hkept) fuel
      · exact fun e he => (hevaluates (hmeets.shaped he)).mono fun _ h => h.located hs he
      · exact fun body hbody => (hblock fun t ht => hs.part (hbody t ht)).mono hkept

theorem behaves_block (hp : p.Shaped) (hpump : ∀ n, Behaves p Told p.Blamed (pump n)) (fuel : Nat)
    {body : List Stmt} (h : ∀ s ∈ body, p.HasStmt s) :
    Behaves p Told p.Blamed (block pump fuel body) :=
  behaves_sequence fun s hs => (behaves_code hp hpump fuel).2 s (h s hs)

end Run

end ControlLogic
