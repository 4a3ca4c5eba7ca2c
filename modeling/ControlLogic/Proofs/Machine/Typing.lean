import ControlLogic.Proofs.Machine.Coverage

/-!
What is kept is always narrowed: at every moment each slot, in the global frame, in the frames of
calls in progress, of code that was interrupted and of waits that are put off, has a value normal
for its kind, and each declared signal has a value as it keeps it.
-/

set_option autoImplicit false
set_option relaxedAutoImplicit false

namespace ControlLogic

/-- A value that is normal for a kind of slot: a number in the range of a width, or a text of at
most so many characters. -/
def SlotKind.Holds : SlotKind → Value → Prop
  | integer width, .number n => width.wrap n = n
  | text capacity, .text s => s.length ≤ capacity
  | untyped, _ => True
  | _, _ => False

def Signal.Holds (s : Signal) (v : Value) : Prop :=
  match s.type.kind, v with
  | .digital, .number n => n = 0 ∨ n = 1
  | .analog, .number n => 0 ≤ n ∧ n ≤ 65535
  | .serial, .text t => t.length ≤ s.capacity.getD 65535
  | _, _ => False

private theorem Value.length_truncate_le (n : Nat) (s : String) : (truncate n s).length ≤ n := by
  unfold truncate
  split
  next h => exact h
  next h =>
    rw [String.length_ofList, List.length_take]
    omega

theorem Value.truncate_of_length_le {n : Nat} {s : String} (h : s.length ≤ n) :
    truncate n s = s :=
  if_pos h

private theorem SlotKind.holds_initial (kind : SlotKind) : kind.Holds kind.initial := by
  cases kind with
  | integer width => cases width <;> rfl
  | text capacity => exact Nat.zero_le capacity
  | untyped => trivial

theorem SlotKind.holds_coerce (kind : SlotKind) (v : Value) : kind.Holds (kind.coerce v) := by
  cases kind with
  | integer width => exact width.wrap_wrap _
  | text capacity => exact Value.length_truncate_le capacity _
  | untyped => trivial

private theorem Signal.holds_initial (s : Signal) : s.Holds s.initial := by
  unfold Holds initial
  cases s.type.kind with
  | digital => exact .inl rfl
  | analog => exact ⟨by decide, by decide⟩
  | serial => exact Nat.zero_le _

theorem Signal.holds_coerce (s : Signal) (v : Value) : s.Holds (s.coerce v) := by
  unfold Holds coerce
  cases s.type.kind with
  | digital =>
    by_cases h : (v.toNumber != 0) = true
    · rw [h]
      exact .inr rfl
    · rw [Bool.not_eq_true] at h
      rw [h]
      exact .inl rfl
  | analog => exact Number.Width.unsigned16.wrap_mem _
  | serial => exact Value.length_truncate_le _ _

theorem Signal.coerce_of_holds {s : Signal} {v : Value} (h : s.Holds v) : s.coerce v = v := by
  unfold Holds at h
  unfold coerce
  cases hkind : s.type.kind with
  | digital =>
    cases v with
    | number n =>
      rw [hkind] at h
      obtain rfl | rfl := h
      · rfl
      · rfl
    | text t =>
      rw [hkind] at h
      exact h.elim
  | analog =>
    cases v with
    | number n =>
      rw [hkind] at h
      exact congrArg Value.number (Number.Width.unsigned16.wrap_of_mem h.1 h.2)
    | text t =>
      rw [hkind] at h
      exact h.elim
  | serial =>
    cases v with
    | number n =>
      rw [hkind] at h
      exact h.elim
    | text t =>
      rw [hkind] at h
      exact congrArg Value.text (Value.truncate_of_length_le h)

def Slot.Typed (slot : Slot) : Prop :=
  slot.kind.Holds slot.value

private theorem Slot.typed_fresh (kind : SlotKind) : (Slot.fresh kind).Typed :=
  kind.holds_initial

private theorem Slot.typed_write (slot : Slot) (v : Value) : (slot.write v).Typed :=
  slot.kind.holds_coerce v

def Frame.Typed (frame : Frame) : Prop :=
  ∀ (key : SlotKey) (slot : Slot), frame[key]? = some slot → slot.Typed

namespace Frame

theorem typed_empty : Typed {} := by
  intro key slot h
  simp at h

theorem Typed.insert {frame : Frame} (h : Typed frame) {slot : Slot} (hslot : slot.Typed)
    (key : SlotKey) : Typed (frame.insert key slot) := by
  intro key' slot' h'
  rw [Std.HashMap.getElem?_insert] at h'
  split at h'
  · cases h'
    exact hslot
  · exact h key' slot' h'

theorem Typed.declare {frame : Frame} (h : Typed frame) (key : SlotKey) (kind : SlotKind) :
    Typed (declare frame key kind) :=
  h.insert (Slot.typed_fresh kind) key

theorem Typed.foldl {α : Type} {f : Frame → α → Frame}
    (hf : ∀ frame a, Typed frame → Typed (f frame a)) (as : List α) {frame : Frame}
    (h : Typed frame) : Typed (as.foldl f frame) := by
  induction as generalizing frame with
  | nil => exact h
  | cons a as ih => exact ih (hf frame a h)

theorem Typed.declareUpTo {frame : Frame} (h : Typed frame) (n : Nat) (key : Int → SlotKey)
    (kind : SlotKind) : Typed (declareUpTo frame n key kind) :=
  Typed.foldl (fun _ _ h => h.declare _ kind) _ h

theorem Typed.declareField {frame : Frame} (h : Typed frame) (object : String)
    (d : VariableDecl) : Typed (declareField object frame d) := by
  unfold Frame.declareField
  dsimp only
  split
  · exact h.declare _ _
  · exact h.declareUpTo _ _ _
  · exact h.declareUpTo _ _ _

theorem Typed.declareVariable {structures : List StructureDef} {frame frame' : Frame}
    (h : Typed frame) {d : VariableDecl}
    (hd : declareVariable structures frame d = .ok frame') : Typed frame' := by
  unfold Frame.declareVariable at hd
  dsimp only at hd
  split at hd
  · split at hd
    · cases hd
    · cases hd
      exact Typed.foldl (fun _ d h => h.declareField _ d) _ h
  · split at hd
    · cases hd
      exact h.declare _ _
    · cases hd
      exact h.declareUpTo _ _ _
    · cases hd
      exact Typed.foldl (fun _ _ h => h.declareUpTo _ _ _) _ h

theorem Typed.declareLocals {structures : List StructureDef} {locals : List VariableDecl}
    {frame frame' : Frame} (h : Typed frame)
    (hl : declareLocals structures locals frame = .ok frame') : Typed frame' := by
  induction locals generalizing frame with
  | nil =>
    cases hl
    exact h
  | cons d rest ih =>
    unfold Frame.declareLocals at hl
    split at hl
    next declared hd => exact ih (h.declareVariable hd) hl
    next => cases hl

theorem Typed.ownedBy {frame : Frame} (h : Typed frame) (name : String) :
    ∀ entry ∈ frame.ownedBy name, entry.2.Typed := by
  intro entry hentry
  unfold Frame.ownedBy at hentry
  rw [List.mem_mergeSort] at hentry
  have hmem := (List.mem_filter.mp hentry).1
  exact h entry.1 entry.2 (Std.HashMap.mem_toList_iff_getElem?_eq_some.mp hmem)

end Frame

def FramesTyped (frames : List Frame) : Prop :=
  ∀ frame ∈ frames, Frame.Typed frame

/-- Variables in scope all of whose slots are typed. -/
structure Scope.Typed (s : Scope) : Prop where
  globals : Frame.Typed s.globals
  frames : FramesTyped s.frames

namespace Scope

private theorem framesTyped_setIn {key : SlotKey} {slot : Slot} (hslot : slot.Typed)
    {frames : List Frame} (h : FramesTyped frames) : FramesTyped (setIn key slot frames) := by
  induction frames with
  | nil => exact h
  | cons frame rest ih =>
    obtain ⟨hframe, hrest⟩ := List.forall_mem_cons.mp h
    unfold setIn
    split
    · exact List.forall_mem_cons.mpr ⟨hframe.insert hslot key, hrest⟩
    · exact List.forall_mem_cons.mpr ⟨hframe, ih hrest⟩

theorem Typed.set {s : Scope} (h : s.Typed) {slot : Slot} (hslot : slot.Typed)
    (key : SlotKey) : (s.set key slot).Typed := by
  unfold Scope.set
  split
  · exact ⟨h.globals, framesTyped_setIn hslot h.frames⟩
  · split
    · exact ⟨h.globals.insert hslot key, h.frames⟩
    · exact h

theorem Typed.push {s : Scope} (h : s.Typed) {frame : Frame} (hframe : Frame.Typed frame) :
    (s.push frame).Typed :=
  ⟨h.globals, List.forall_mem_cons.mpr ⟨hframe, h.frames⟩⟩

theorem Typed.pop {s : Scope} (h : s.Typed) : s.pop.2.Typed := by
  unfold Scope.pop
  split
  · exact h
  next frame rest hframes =>
    have hall := h.frames
    rw [hframes] at hall
    exact ⟨h.globals, (List.forall_mem_cons.mp hall).2⟩

theorem Typed.ownedBy {s : Scope} (h : s.Typed) (name : String) :
    ∀ entry ∈ s.ownedBy name, entry.2.Typed := by
  intro entry hentry
  have hframes : ∀ frame ∈ s.frames ++ [s.globals], Frame.Typed frame := by
    intro frame hframe
    rcases List.mem_append.mp hframe with hframe | hframe
    · exact h.frames frame hframe
    · rw [List.mem_singleton.mp hframe]
      exact h.globals
  unfold Scope.ownedBy at hentry
  dsimp only at hentry
  generalize hfound : (s.frames ++ [s.globals]).findSome? _ = found at hentry
  cases found with
  | none => exact absurd hentry List.not_mem_nil
  | some owned =>
    obtain ⟨frame, hframe, howned⟩ := List.exists_of_findSome?_eq_some hfound
    split at howned
    · cases howned
    · cases howned
      exact (hframes frame hframe).ownedBy _ entry hentry

end Scope

/-- Each declared signal is listed under its name and has a value as it keeps it. -/
def SignalTable.Typed (t : SignalTable) : Prop :=
  ∀ (key : String) (s : Signal), t.declared[key]? = some s →
    key = Text.upper s.name ∧ ∃ v, t.valueOf? s = some v ∧ s.Holds v

namespace SignalTable

theorem typed_empty : SignalTable.Typed {} := by
  intro key s h
  simp at h

theorem Typed.declare {t : SignalTable} (h : t.Typed) (type : SignalType) (name : String)
    (capacity : Option Nat) : (t.declare type name capacity).Typed := by
  intro key s hs
  unfold SignalTable.declare at hs ⊢
  dsimp only at hs
  rw [Std.HashMap.getElem?_insert] at hs
  split at hs
  next hkey =>
    cases hs
    refine ⟨(beq_iff_eq.mp hkey).symm, _, ?_, Signal.holds_initial _⟩
    exact Std.HashMap.getElem?_insert_self
  next hkey =>
    obtain ⟨hname, v, hv, hholds⟩ := h key s hs
    refine ⟨hname, v, ?_, hholds⟩
    have hne : ¬ ((type.bank, name) == (s.type.bank, s.name)) = true := by
      intro heq
      have hsame := (Prod.mk.inj (beq_iff_eq.mp heq)).2
      exact hkey (by rw [hname, hsame]; exact beq_self_eq_true _)
    exact (Std.HashMap.getElem?_insert.trans (if_neg hne)).trans hv

/-- Keeping a value that a declared signal holds. Signals of different names are kept apart, and
a signal is declared under its name only. -/
theorem Typed.store {t : SignalTable} (h : t.Typed) {key : String} {s : Signal}
    (hs : t.declared[key]? = some s) {v : Value} (hv : s.Holds v) : (t.store s v).Typed := by
  intro key' s' hs'
  obtain ⟨hname', v', hvalue', hholds'⟩ := h key' s' hs'
  refine ⟨hname', ?_⟩
  obtain ⟨hname, -⟩ := h key s hs
  by_cases hsame : ((s.type.bank, s.name) == (s'.type.bank, s'.name)) = true
  · have hnames := (Prod.mk.inj (beq_iff_eq.mp hsame)).2
    have hkeys : key = key' := by rw [hname, hname', hnames]
    subst hkeys
    obtain rfl := Option.some.inj (hs.symm.trans hs')
    exact ⟨v, Std.HashMap.getElem?_insert_self, hv⟩
  · exact ⟨v', (Std.HashMap.getElem?_insert.trans (if_neg hsame)).trans hvalue', hholds'⟩

end SignalTable

/-- A machine all of whose slots are typed, those of waits that are put off among them, and whose
signals have values as they keep them. -/
structure Machine.Typed (m : Machine) : Prop where
  scope : m.scope.Typed
  waits : ∀ (label : String) (w : PendingWait), m.waits[label]? = some w → FramesTyped w.frames
  signals : m.signals.Typed

namespace Machine

theorem Typed.of_eq {m m' : Machine} (h : m.Typed) (hscope : m'.scope = m.scope)
    (hwaits : m'.waits = m.waits) (hsignals : m'.signals = m.signals) : m'.Typed := by
  obtain ⟨hs, hw, hg⟩ := h
  rw [← hscope] at hs
  rw [← hwaits] at hw
  rw [← hsignals] at hg
  exact ⟨hs, hw, hg⟩

theorem Typed.trackIndex {m : Machine} (h : m.Typed) (key : SlotKey) :
    (m.trackIndex key).Typed := by
  unfold Machine.trackIndex
  split
  · exact h.of_eq rfl rfl rfl
  · exact h

theorem declared_of_target {m : Machine} {key : SlotKey} {s : Signal}
    (h : m.target key = .ok (.signal s)) : m.signals.declared[key.render]? = some s := by
  unfold target at h
  split at h
  · cases h
  · split at h
    · cases h
    · split at h
      next s' hs =>
        split at h
        · cases h
        · cases h
          unfold SignalTable.ofKey? at hs
          split at hs
          · exact hs
          · exact hs
          all_goals cases hs
      next => cases h

theorem Typed.writeTo {m : Machine} (h : m.Typed) {key : SlotKey} {target : Target}
    (ht : m.target key = .ok target) (v : Value) : (m.writeTo key v target).Typed := by
  cases target with
  | slot slot =>
    have hwritten : ({ m with scope := m.scope.set key (slot.write v) } : Machine).Typed :=
      ⟨h.scope.set (slot.typed_write v) key, h.waits, h.signals⟩
    exact hwritten.trackIndex key
  | signal s =>
    have hstored : ({ m with signals := m.signals.store s (s.coerce v) } : Machine).Typed :=
      ⟨h.scope, h.waits, h.signals.store (declared_of_target ht) (s.holds_coerce v)⟩
    have htracked := hstored.trackIndex key
    simp only [Machine.writeTo, Machine.writeSignal]
    split
    · exact htracked
    · exact htracked.of_eq rfl rfl rfl

theorem Typed.copyWhole {m : Machine} (h : m.Typed) (frame : Frame) (parameter owner : String) :
    (m.copyWhole frame parameter owner).Typed := by
  unfold Machine.copyWhole
  generalize frame.ownedBy parameter = slots
  induction slots generalizing m with
  | nil => exact h
  | cons entry slots ih =>
    obtain ⟨key, slot⟩ := entry
    simp only [List.foldl_cons]
    split
    next old _ => exact ih ⟨h.scope.set (old.typed_write slot.value) _, h.waits, h.signals⟩
    next => exact ih h

end Machine

namespace Run

def KeepsTyped (m m' : Machine) : Prop :=
  m.Typed → m'.Typed

theorem KeepsTyped.trans {a b c : Machine} (h : KeepsTyped a b) (h' : KeepsTyped b c) :
    KeepsTyped a c :=
  fun ht => h' (h ht)

private theorem keepsTyped_checkAbort : Relates KeepsTyped checkAbort :=
  relates_checkAbort fun _ h => h

private theorem keepsTyped_scheduleWait (delay : Nat) (label : Option String) (body : List Stmt) :
    Relates KeepsTyped (scheduleWait delay label body) := by
  have hlabel : Relates KeepsTyped (waitLabel label) := by
    unfold waitLabel
    split
    · exact fun m h => h
    · exact relates_modifyGet fun m h => h.of_eq rfl rfl rfl
  refine keepsTyped_checkAbort.bind .trans fun _ => ?_
  refine hlabel.bind .trans fun name => relates_inspect fun m => ?_
  split
  · exact relates_modify fun m h => h.of_eq rfl rfl rfl
  · refine relates_modify fun m h => ⟨h.scope, ?_, h.signals⟩
    intro label' w hw
    obtain ⟨-, rfl⟩ | hbefore := PendingWait.get?_of_insert hw
    · exact h.scope.frames
    · exact h.waits label' w hbefore

private theorem Primitive.keepsTyped {α : Type} {x : Run α} (h : Primitive x) :
    Relates KeepsTyped x := by
  cases h with
  | tell event => exact relates_modify fun m h => h.of_eq rfl rfl rfl
  | tick =>
    intro m h
    rw [m.after_tick]
    exact h.of_eq rfl rfl rfl
  | tryWrite key v =>
    intro m h
    obtain ⟨target, htarget, hafter⟩ | hafter := m.after_tryWrite key v
    · rw [hafter]
      exact h.writeTo htarget v
    · rw [hafter]
      exact h
  | copyWhole frame parameter owner =>
    exact relates_modify fun m h => h.copyWhole frame parameter owner
  | plan delay hwait =>
    refine keepsTyped_checkAbort.bind .trans fun _ => ?_
    exact relates_modify fun m h => h.of_eq rfl rfl rfl
  | scheduleWait delay label body => exact keepsTyped_scheduleWait delay label body
  | cancelWait name =>
    refine relates_modify fun m h => ?_
    split
    · exact ⟨h.scope, fun label w hw => h.waits label w (PendingWait.get?_of_erase hw), h.signals⟩
    · exact h
  | cancelAllWaits =>
    exact relates_modify fun m h =>
      ⟨h.scope, fun label w hw => absurd hw (PendingWait.get?_ne_of_empty rfl), h.signals⟩
  | retimeWait delay name =>
    refine relates_modify fun m h => ?_
    split
    · exact h.of_eq rfl rfl rfl
    · exact h
  | holdSection name => exact relates_modify fun m h => h.of_eq rfl rfl rfl
  | freeSection name => exact relates_modify fun m h => h.of_eq rfl rfl rfl
  | withFiles f => exact relates_modifyGet fun m h => h.of_eq rfl rfl rfl
  | withNetwork f => exact relates_modifyGet fun m h => h.of_eq rfl rfl rfl
  | setGather gather => exact relates_modify fun m h => h.of_eq rfl rfl rfl
  | setChance chance => exact relates_modify fun m h => h.of_eq rfl rfl rfl

end Run

namespace Machine

private theorem typed_of_empty {m : Machine} (hscope : m.scope = {}) (hwaits : m.waits = {})
    (hsignals : m.signals = {}) : m.Typed := by
  refine ⟨?_, ?_, ?_⟩
  · rw [hscope]
    exact ⟨Frame.typed_empty, fun _ h => absurd h List.not_mem_nil⟩
  · exact fun label w hw => absurd hw (PendingWait.get?_ne_of_empty hwaits)
  · rw [hsignals]
    exact SignalTable.typed_empty

theorem Typed.addSignals {m : Machine} (h : m.Typed) (type : SignalType) (entry : SignalName) :
    (addSignals type m entry).Typed := by
  refine ⟨h.scope, h.waits, ?_⟩
  have hdeclared (names : List String) : ∀ t : SignalTable, t.Typed → (names.foldl
      (fun t name => t.declare type name (if type.isSerial then entry.capacity else none))
      t).Typed := by
    induction names with
    | nil => exact fun t ht => ht
    | cons name names ih => exact fun t ht => ih _ (ht.declare type name _)
  exact hdeclared entry.expand m.signals h.signals

theorem Typed.addGlobal {m : Machine} (h : m.Typed) (structures : List StructureDef)
    (d : VariableDecl) : (addGlobal structures m d).Typed := by
  unfold Machine.addGlobal
  split
  · exact ⟨⟨h.scope.globals.declare _ _, h.scope.frames⟩, h.waits, h.signals⟩
  · split
    next globals hd =>
      exact ⟨⟨h.scope.globals.declareVariable hd, h.scope.frames⟩, h.waits, h.signals⟩
    next => exact h.of_eq rfl rfl rfl

private theorem keepsTyped_declaring : Declaring Run.KeepsTyped where
  refl _ h := h
  trans := .trans
  tell _ _ h := h.of_eq rfl rfl rfl
  program _ _ _ h := h.of_eq rfl rfl rfl
  constant _ _ _ h := h.of_eq rfl rfl rfl
  signals type _ entry h := h.addSignals type entry
  global structures _ d h := h.addGlobal structures d

theorem typed_reset (m : Machine) : m.reset.Typed :=
  typed_of_empty rfl rfl rfl

theorem typed_load (m : Machine) (text : String) : (m.load text).2.Typed :=
  keepsTyped_declaring.load m text m.typed_reset

end Machine

def Around.Typed : Around → Prop
  | binding frame => Frame.Typed frame
  | interrupted standing => FramesTyped standing.frames
  | host frames => FramesTyped frames

/-- A moment at which all slots are typed, wherever they are, and all signals. -/
structure Moment.Typed (s : Moment) : Prop where
  machine : s.machine.Typed
  around : ∀ a ∈ s.around, a.Typed

namespace Machine

theorem Typed.resume {m : Machine} (h : m.Typed) {standing : Standing}
    (hs : FramesTyped standing.frames) : (m.resume standing).Typed :=
  ⟨⟨h.scope.globals, hs⟩, h.waits, h.signals⟩

theorem Typed.keepInput {m : Machine} (h : m.Typed) {name : String} {s : Signal}
    (hs : m.signals.signal? name = some s) (v : Value) :
    (m.keepInput s (s.coerce v)).Typed := by
  have hstored : ({ m with signals := m.signals.store s (s.coerce v) } : Machine).Typed :=
    ⟨h.scope, h.waits, h.signals.store hs (s.holds_coerce v)⟩
  unfold Machine.keepInput
  dsimp only
  split
  · exact hstored.trackIndex _
  · exact hstored

private theorem typed_addReceived {globals : Frame} (h : Frame.Typed globals) (data name : String) :
    Frame.Typed (addReceived data globals name) := by
  unfold addReceived
  split
  · exact h.insert (Slot.typed_write _ _) _
  · exact h

end Machine

theorem Binding.typed_addSlot {b : Binding} (h : Frame.Typed b.frame) (parameter : String)
    (kind : SlotKind) (v : Value) : Frame.Typed (b.addSlot parameter kind v).frame :=
  h.insert (Slot.typed_write _ v) _

theorem Binding.typed_addWhole {b : Binding} (h : Frame.Typed b.frame) (parameter owner : String)
    {slots : List (SlotKey × Slot)} (hslots : ∀ entry ∈ slots, entry.2.Typed) :
    Frame.Typed (b.addWhole parameter owner slots).frame := by
  unfold Binding.addWhole
  dsimp only
  generalize b.frame = frame at h
  induction slots generalizing frame with
  | nil => exact h
  | cons entry slots ih =>
    obtain ⟨hentry, hrest⟩ := List.forall_mem_cons.mp hslots
    exact ih hrest _ (h.insert hentry _)

theorem Step.typed {s s' : Moment} {deeds : List Deed} (h : Step s deeds s') (hs : s.Typed) :
    s'.Typed := by
  obtain ⟨hm, hk⟩ := hs
  cases h with
  | primitive hx _ => exact ⟨hx.keepsTyped _ hm, hk⟩
  | schedule _ => exact ⟨hm.of_eq rfl rfl rfl, hk⟩
  | abort m k wish => exact ⟨hm.of_eq rfl rfl rfl, hk⟩
  | beginBinding m k =>
    exact ⟨hm, List.forall_mem_cons.mpr ⟨Frame.typed_empty, hk⟩⟩
  | bindSlot m k b parameter kind v =>
    obtain ⟨hb, hk⟩ := List.forall_mem_cons.mp hk
    exact ⟨hm, List.forall_mem_cons.mpr ⟨b.typed_addSlot hb parameter kind v, hk⟩⟩
  | bindWhole m k b parameter owner =>
    obtain ⟨hb, hk⟩ := List.forall_mem_cons.mp hk
    have howned := hm.scope.ownedBy owner
    exact ⟨hm, List.forall_mem_cons.mpr ⟨b.typed_addWhole hb parameter owner howned, hk⟩⟩
  | declare m k hd =>
    obtain ⟨hb, hk⟩ := List.forall_mem_cons.mp hk
    exact ⟨hm, List.forall_mem_cons.mpr ⟨Frame.Typed.declareLocals hb hd, hk⟩⟩
  | dropBinding m k frame => exact ⟨hm, (List.forall_mem_cons.mp hk).2⟩
  | enter m k frame =>
    obtain ⟨hb, hk⟩ := List.forall_mem_cons.mp hk
    exact ⟨⟨hm.scope.push hb, hm.waits, hm.signals⟩, hk⟩
  | leave m k => exact ⟨⟨hm.scope.pop, hm.waits, hm.signals⟩, hk⟩
  | interrupt m k =>
    have hempty : FramesTyped [] := fun _ h => absurd h List.not_mem_nil
    exact ⟨hm.resume hempty, List.forall_mem_cons.mpr ⟨hm.scope.frames, hk⟩⟩
  | beginHandler m k frame =>
    obtain ⟨hb, hk⟩ := List.forall_mem_cons.mp hk
    exact ⟨⟨hm.scope.push hb, hm.waits, hm.signals⟩, hk⟩
  | @beginWait m k label w hw =>
    have hframes := hm.waits label w hw
    have hrest : ({ m with waits := m.waits.erase label } : Machine).Typed :=
      ⟨hm.scope, fun other w hw => hm.waits other w (PendingWait.get?_of_erase hw), hm.signals⟩
    exact ⟨hrest.resume hframes, List.forall_mem_cons.mpr ⟨hm.scope.frames, hk⟩⟩
  | resume m k standing =>
    obtain ⟨hstanding, hk⟩ := List.forall_mem_cons.mp hk
    exact ⟨hm.resume hstanding, hk⟩
  | input m k v hs => exact ⟨hm.keepInput hs v, hk⟩
  | received m k data name =>
    have hglobals := Machine.typed_addReceived hm.scope.globals data name
    exact ⟨⟨⟨hglobals, hm.scope.frames⟩, hm.waits, hm.signals⟩, hk⟩
  | reset m k => exact ⟨m.typed_reset, hk⟩
  | load m k text => exact ⟨m.typed_load text, hk⟩
  | beginMain m k frame =>
    obtain ⟨hb, hk⟩ := List.forall_mem_cons.mp hk
    have hone : FramesTyped [frame] := fun f hf => List.mem_singleton.mp hf ▸ hb
    exact ⟨hm.resume hone, List.forall_mem_cons.mpr ⟨hm.scope.frames, hk⟩⟩
  | endMain m k frames =>
    obtain ⟨hframes, hk⟩ := List.forall_mem_cons.mp hk
    exact ⟨⟨⟨hm.scope.globals, hframes⟩, hm.waits, hm.signals⟩, hk⟩

theorem Course.typed {s s' : Moment} {history : List Deed} (h : Course s history s')
    (hs : s.Typed) : s'.Typed := by
  induction h with
  | refl => exact hs
  | step _ hstep ih => exact hstep.typed ih

theorem Moment.Leads.typed {s s' : Moment} (h : s.Leads s') (hs : s.Typed) : s'.Typed := by
  obtain ⟨history, hcourse⟩ := h
  exact hcourse.typed hs

theorem Machine.typed_afterActions (config : Settings) (actions : List HostAction) :
    Moment.Typed ⟨(new config).afterActions actions, []⟩ := by
  have hnew : Moment.Typed ⟨new config, []⟩ :=
    ⟨typed_of_empty rfl rfl rfl, fun _ h => absurd h List.not_mem_nil⟩
  exact ((new config).leads_afterActions actions []).typed hnew

theorem Machine.Typed.signal {m : Machine} (h : m.Typed) {name : String} {s : Signal}
    (hs : m.signals.signal? name = some s) :
    ∃ v, m.signals.value? s.name = some v ∧ s.Holds v ∧ s.coerce v = v := by
  obtain ⟨hname, v, hv, hholds⟩ := h.signals _ s hs
  refine ⟨v, ?_, hholds, Signal.coerce_of_holds hholds⟩
  have hself : m.signals.signal? s.name = some s := by
    unfold SignalTable.signal? at hs ⊢
    rw [← hname]
    exact hs
  unfold SignalTable.value?
  rw [hself]
  exact hv

/--
Whatever a host does, with whatever program, and at every moment on the way: each slot in scope, of
code that was interrupted, of a call being bound and of a wait that is put off has a value normal
for its kind, and each declared signal has a value that is its own narrowing.
-/
theorem kept_values_are_normal (config : Settings) (actions : List HostAction) :
    let m := (Machine.new config).afterActions actions
    (∀ action : HostAction, Moment.Leads ⟨m, []⟩ ⟨action.run m, []⟩) ∧
      ∀ s : Moment, Moment.Leads ⟨m, []⟩ s →
        s.Typed ∧
          ∀ (name : String) (signal : Signal), s.machine.signals.signal? name = some signal →
            ∃ v, s.machine.signals.value? signal.name = some v ∧ signal.Holds v ∧
              signal.coerce v = v := by
  intro m
  refine ⟨fun action => action.leads m [], fun s hs => ?_⟩
  have htyped : s.Typed := hs.typed (Machine.typed_afterActions config actions)
  exact ⟨htyped, fun name signal h => htyped.machine.signal h⟩

/-- A call whose parameter of 16 bits is given a number of 17: the frame of the call is typed, and
has the number narrowed. -/
theorem bound_parameter_is_normal :
    let frame := (({} : Binding).addSlot "X" (.integer .unsigned16) (.number 70000)).frame
    let s : Moment := ⟨(Machine.new {}).enter frame, []⟩
    Moment.Leads ⟨Machine.new {}, []⟩ s ∧ s.Typed ∧
      s.machine.scope.get? (.plain "X") = some ⟨.number 4464, .integer .unsigned16⟩ := by
  intro frame s
  have hleads : Moment.Leads ⟨Machine.new {}, []⟩ s :=
    ((Moment.Leads.single (.beginBinding _ [])).step (.bindSlot _ [] {} "X" _ _)).step
      (.enter _ [] frame)
  refine ⟨hleads, ((kept_values_are_normal {} []).2 s hleads).1, ?_⟩
  have hfound : frame.get? (.plain "X") = some ⟨.number 4464, .integer .unsigned16⟩ :=
    Std.HashMap.getElem?_insert_self
  change (Scope.findIn (.plain "X") [frame]).or _ = _
  unfold Scope.findIn
  rw [hfound]
  rfl

end ControlLogic
