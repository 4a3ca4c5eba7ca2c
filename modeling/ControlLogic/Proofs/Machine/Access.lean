import ControlLogic.Proofs.Machine.Inputs
import ControlLogic.Proofs.Program.ExprText
import ControlLogic.Proofs.Scope
import ControlLogic.Proofs.Slot.Key

/-!
Reading and writing what keys stand for. A write goes where a read of the same key looks, so it is
read back as it was narrowed there, and what other keys stand for is left alone.
-/

set_option autoImplicit false
set_option relaxedAutoImplicit false

namespace ControlLogic

namespace Run

def outcome {α : Type} (x : Run α) (m : Machine) : Except Unwind α :=
  match x m with
  | .ok a _ => .ok a
  | .error u _ => .error u

theorem readKey_of_some {m : Machine} {key : SlotKey} {v : Value} (h : m.read? key = some v) :
    readKey key m = .ok v m := by
  unfold readKey
  rw [get_bind, h]
  rfl

theorem readKey_of_none {m : Machine} {key : SlotKey} (h : m.read? key = none) :
    readKey key m = .error (.fault (m.missing key) none) m := by
  unfold readKey
  rw [get_bind, h]
  rfl

theorem outcome_readKey (key : SlotKey) (m : Machine) :
    outcome (readKey key) m =
      match m.read? key with
      | some v => .ok v
      | none => .error (.fault (m.missing key) none) := by
  unfold outcome
  cases h : m.read? key with
  | some v => rw [readKey_of_some h]
  | none => rw [readKey_of_none h]

theorem writeKey_of_target {m : Machine} {key : SlotKey} {target : Machine.Target}
    (h : m.target key = .ok target) (v : Value) :
    writeKey key v m = .ok () (m.writeTo key v target) := by
  have hwrite : tryWrite key v m = .ok none (m.writeTo key v target) := by
    unfold tryWrite
    rw [h]
  exact bind_ok hwrite _

theorem writeKey_of_refused {m : Machine} {key : SlotKey} {f : Fault}
    (h : m.target key = .error f) (v : Value) :
    writeKey key v m = .error (.fault f none) m := by
  have hrefused : tryWrite key v m = .ok (some f) m := by
    unfold tryWrite
    rw [h]
  exact bind_ok hrefused _

private theorem isNamed_of_resolveKey {eval : Expr → Run Value} {e : Expr} (he : e.Canonical)
    {m m' : Machine} {key : SlotKey} (h : resolveKey eval e m = .ok key m') : key.IsNamed := by
  have hupper {id : String} (hid : Expr.IsName id) : IsName (Text.upper id) :=
    .of_isWord (Expr.isName_iff.mp hid).1
  cases he with
  | name named =>
    cases h
    exact List.forall_mem_singleton.mpr (hupper named)
  | @element id index named hindex =>
    have hsingle : ∀ first second, index = .binary .pair first second → False := by
      rintro first second rfl
      cases hindex with
      | binary single => exact single rfl
    rw [resolveKey.eq_3 eval id index hsingle] at h
    obtain ⟨_, _, -, h⟩ := bind_eq_ok h
    cases h
    exact List.forall_mem_singleton.mpr (hupper named)
  | grid named =>
    obtain ⟨_, _, -, h⟩ := bind_eq_ok h
    obtain ⟨_, _, -, h⟩ := bind_eq_ok h
    cases h
    exact List.forall_mem_singleton.mpr (hupper named)
  | @field object part index named partNamed =>
    have hnames : ∀ name ∈ [Text.upper object, Text.upper part], IsName name :=
      List.forall_mem_cons.mpr ⟨hupper named, List.forall_mem_singleton.mpr (hupper partNamed)⟩
    cases index with
    | none =>
      cases h
      exact hnames
    | some index =>
      obtain ⟨_, _, -, h⟩ := bind_eq_ok h
      cases h
      exact hnames
  | _ => cases h

end Run

/-- One scope is another one but for the slot that a key means, in the first frame that has the
key. -/
structure Scope.Replaces (s : Scope) (key : SlotKey) (slot : Slot) (s' : Scope) : Prop where
  length : s'.frames.length = s.frames.length
  chain : ∃ before frame behind, s.chain = before ++ frame :: behind ∧
    (∀ f ∈ before, f[key]? = none) ∧ key ∈ frame ∧
      s'.chain = before ++ frame.insert key slot :: behind

private theorem Scope.replaces_set {s : Scope} {key : SlotKey} {old : Slot}
    (h : s.get? key = some old)
    (slot : Slot) : s.Replaces key slot (s.set key slot) := by
  refine ⟨s.length_set, ?_⟩
  rw [get?_eq_findIn] at h
  obtain ⟨before, frame, behind, hsplit, hbefore, hframe, hset⟩ := split_of_findIn h
  refine ⟨before, frame, behind, hsplit, hbefore, ?_, ?_⟩
  · exact Std.HashMap.mem_iff_isSome_getElem?.mpr (hframe ▸ rfl)
  · rw [chain_set, hset]

namespace Machine

/-- The signal a key denotes. A variable or a constant of the same name comes before it. -/
def denoted? (m : Machine) (key : SlotKey) : Option Signal :=
  if (m.scope.get? key).isSome || (m.constant? key).isSome then none else m.signals.ofKey? key

def narrowed (m : Machine) (key : SlotKey) (v : Value) : Value :=
  match m.scope.get? key, m.denoted? key with
  | some slot, _ => slot.kind.coerce v
  | none, some s => s.coerce v
  | none, none => v

/-- The first index of a key was noted for its array and for all arrays, if it has one. -/
structure Noted (m : Machine) (key : SlotKey) (m' : Machine) : Prop where
  noted {name : String} {i : Int} (h : key.arrayName? = some name) (hi : key.firstIndex? = some i) :
    m'.lastModified.get? name = some i ∧ m'.lastAny = i
  unnoted {name : String} (h : key.arrayName? ≠ some name) :
    m'.lastModified.get? name = m.lastModified.get? name
  single (h : key.arrayName? = none) : m'.lastAny = m.lastAny

/-- What a write of a value to a key has done: a read of the key gives the value as it is kept
there, reads of other keys give what they gave, one slot in scope or one signal has changed, the
host was told of an output and of nothing else, and the index was noted for the array of the key. -/
structure Wrote (m : Machine) (key : SlotKey) (v : Value) (m' : Machine) : Prop
    extends Noted m key m' where
  value : Run.readKey key m' = .ok (m.narrowed key v) m'
  others (other : SlotKey) (hnamed : other.IsNamed) (hne : other ≠ key) :
    Run.outcome (Run.readKey other) m' = Run.outcome (Run.readKey other) m
  place : (m.scope.get? key).isSome ∨ (m.denoted? key).isSome
  slot (old : Slot) (h : m.scope.get? key = some old) :
    m.scope.Replaces key (old.write v) m'.scope ∧ m'.signals = m.signals ∧ m'.log = m.log
  signal (s : Signal) (h : m.denoted? key = some s) :
    m'.scope = m.scope ∧ m'.signals = m.signals.store s (m.narrowed key v) ∧
      m'.log =
        if s.type.isInput then m.log
        else m.log.push (.output s.type.kind s.name (m.narrowed key v))
  rest : m' =
    { m with
      scope := m'.scope
      signals := m'.signals
      lastModified := m'.lastModified
      lastAny := m'.lastAny
      log := m'.log }

variable {m : Machine} {key : SlotKey}

/-! ### Notes of indices -/

private theorem noted_trackIndex (m : Machine) (key : SlotKey) :
    m.Noted key (m.trackIndex key) where
  noted {name i} h hi := by
    unfold trackIndex
    rw [h, hi]
    exact ⟨Std.HashMap.getElem?_insert_self, rfl⟩
  unnoted {name} h := by
    unfold trackIndex
    split
    next other i hother hi =>
      have hne : ¬ (other == name) = true := by
        intro heq
        rw [hother, beq_iff_eq.mp heq] at h
        exact h rfl
      exact Std.HashMap.getElem?_insert.trans (if_neg hne)
    next => rfl
  single h := by
    unfold trackIndex
    rw [h]

theorem Noted.of_eq {m' m'' : Machine} (h : m.Noted key m')
    (hmodified : m''.lastModified = m'.lastModified) (hany : m''.lastAny = m'.lastAny) :
    m.Noted key m'' := by
  obtain ⟨hnoted, hunnoted, hsingle⟩ := h
  rw [← hmodified] at hnoted hunnoted
  rw [← hany] at hnoted hsingle
  exact ⟨hnoted, hunnoted, hsingle⟩

theorem noted_writeTo (m : Machine) (key : SlotKey) (v : Value) (target : Target) :
    m.Noted key (m.writeTo key v target) := by
  have hnotes : ∀ scope signals,
      m.Noted key ({ m with scope := scope, signals := signals }.trackIndex key) := by
    intro scope signals
    obtain ⟨hnoted, hunnoted, hsingle⟩ :=
      noted_trackIndex { m with scope := scope, signals := signals } key
    exact ⟨hnoted, hunnoted, hsingle⟩
  cases target with
  | slot slot => exact hnotes _ m.signals
  | signal s =>
    unfold writeTo writeSignal
    dsimp only
    split
    · exact hnotes m.scope _
    · exact (hnotes m.scope _).of_eq rfl rfl

/-! ### What a write reaches -/

theorem target_of_get? {slot : Slot} (h : m.scope.get? key = some slot) :
    m.target key = .ok (.slot slot) := by
  unfold target
  rw [h]

theorem denoted?_of_target {s : Signal} (h : m.target key = .ok (.signal s)) :
    m.scope.get? key = none ∧ m.constant? key = none ∧ m.signals.ofKey? key = some s := by
  unfold target at h
  split at h
  · cases h
  next hscope =>
    split at h
    · cases h
    next hconstant =>
      rw [Option.not_isSome_iff_eq_none] at hconstant
      split at h
      next s' hs =>
        split at h
        · cases h
        · cases h
          exact ⟨hscope, hconstant, hs⟩
      · cases h

theorem target_of_signal (hscope : m.scope.get? key = none) (hconstant : m.constant? key = none)
    {s : Signal} (h : m.signals.ofKey? key = some s) :
    m.target key =
      if s.type.isHeld then .error (.inputAssigned s.name) else .ok (.signal s) := by
  unfold target SignalType.isHeld
  rw [hscope, hconstant, h]
  rfl

theorem target_of_nothing (hscope : m.scope.get? key = none) (hconstant : m.constant? key = none)
    (h : m.signals.ofKey? key = none) : m.target key = .error (m.missing key) := by
  unfold target
  rw [hscope, hconstant, h]
  rfl

theorem denoted?_of_absent (hscope : m.scope.get? key = none) (hconstant : m.constant? key = none) :
    m.denoted? key = m.signals.ofKey? key := by
  unfold denoted?
  rw [hscope, hconstant]
  rfl

theorem read?_of_get? {slot : Slot} (h : m.scope.get? key = some slot) :
    m.read? key = some slot.value := by
  unfold read?
  rw [h]

theorem Balanced.get?_of_read? {m' : Machine} (h : m.Balanced m') {slot : Slot}
    (hslot : m.scope.get? key = some slot) (hread : m'.read? key = m.read? key) :
    m'.scope.get? key = some slot := by
  have hkind := h.scope.kind_get? key
  rw [hslot] at hkind
  cases hget : m'.scope.get? key with
  | none =>
    rw [hget] at hkind
    cases hkind
  | some slot' =>
    rw [read?_of_get? hslot, read?_of_get? hget] at hread
    rw [hget] at hkind
    cases slot
    cases slot'
    cases hread
    cases hkind
    rfl

theorem declared_of_ofKey? {t : SignalTable} {s : Signal} (h : t.ofKey? key = some s) :
    t.declared[key.render]? = some s := by
  unfold SignalTable.ofKey? at h
  split at h
  · exact h
  · exact h
  all_goals cases h

theorem signalValue?_eq {t : SignalTable} (ht : t.Typed) (hsignals : m.signals = t) {s : Signal}
    (h : t.ofKey? key = some s) : m.signalValue? key = t.valueOf? s := by
  have hself : t.signal? s.name = some s := by
    unfold SignalTable.signal?
    rw [← (ht _ s (declared_of_ofKey? h)).1]
    exact declared_of_ofKey? h
  unfold signalValue?
  rw [hsignals, h]
  exact ht.value?_name hself

theorem read?_of_absent (hscope : m.scope.get? key = none) (hconstant : m.constant? key = none)
    {v : Value} (hv : m.signalValue? key = some v) : m.read? key = some v := by
  unfold read?
  rw [hscope, hconstant, hv]
  rfl

private theorem missing_congr {m' : Machine} (hscope : m.scope.SameShape m'.scope)
    (hdeclared : m'.signals.declared = m.signals.declared) (key : SlotKey) :
    m'.missing key = m.missing key := by
  unfold missing knowsOwner SignalTable.signal?
  rw [hscope.isSome_get?, hscope.owns, hdeclared]

/-- What a key stands for is the same if the slot, the constants, the value of the signal and the
sockets are. -/
private theorem outcome_readKey_congr {m' : Machine} (hscope : m.scope.SameShape m'.scope)
    (hget : m'.scope.get? key = m.scope.get? key)
    (hdeclared : m'.signals.declared = m.signals.declared)
    (hvalue : m'.signalValue? key = m.signalValue? key) (hconstants : m'.constants = m.constants)
    (hsockets : m'.sockets = m.sockets) (hnetwork : m'.network = m.network) :
    Run.outcome (Run.readKey key) m' = Run.outcome (Run.readKey key) m := by
  have hread : m'.read? key = m.read? key := by
    unfold read? constant? socketStatus?
    rw [hget, hvalue, hconstants, hsockets, hnetwork]
  rw [Run.outcome_readKey, Run.outcome_readKey, hread, missing_congr hscope hdeclared]

theorem writeSlot_eq (m : Machine) (key : SlotKey) (slot : Slot) (v : Value) :
    ∃ indices last, m.writeSlot key slot v =
      { m with
        scope := m.scope.set key (slot.write v)
        lastModified := indices
        lastAny := last } := by
  exact { m with scope := m.scope.set key (slot.write v) }.trackIndex_eq key

theorem get?_writeSlot {slot : Slot} (h : m.scope.get? key = some slot) (v : Value) :
    (m.writeSlot key slot v).scope.get? key = some (slot.write v) := by
  obtain ⟨indices, last, hwritten⟩ := m.writeSlot_eq key slot v
  rw [hwritten]
  exact Scope.get?_set_self (by rw [h]; rfl)

theorem writeSignal_eq (m : Machine) (key : SlotKey) (s : Signal) (v : Value) :
    ∃ indices last, m.writeSignal key s v =
      { m with
        signals := m.signals.store s (s.coerce v)
        lastModified := indices
        lastAny := last
        log :=
          if s.type.isInput then m.log
          else m.log.push (.output s.type.kind s.name (s.coerce v)) } := by
  obtain ⟨indices, last, htracked⟩ :=
    { m with signals := m.signals.store s (s.coerce v) }.trackIndex_eq key
  refine ⟨indices, last, ?_⟩
  unfold writeSignal
  dsimp only
  rw [htracked]
  split <;> rfl

private theorem wrote_slot {slot : Slot} (h : m.scope.get? key = some slot) (v : Value) :
    m.Wrote key v (m.writeSlot key slot v) := by
  have hnoted := m.noted_writeTo key v (.slot slot)
  obtain ⟨indices, last, hwritten⟩ := m.writeSlot_eq key slot v
  have hdenoted : m.denoted? key = none := by
    unfold denoted?
    rw [h]
    rfl
  have hnarrowed : m.narrowed key v = slot.kind.coerce v := by
    unfold narrowed
    rw [h]
  have hself : (m.scope.set key (slot.write v)).get? key = some (slot.write v) :=
    Scope.get?_set_self (by rw [h]; rfl)
  rw [writeTo, hwritten] at hnoted
  rw [hwritten]
  refine
    { toNoted := hnoted, value := ?_, others := fun other _ hne => ?_, place := ?_,
      slot := fun old hold => ?_, signal := fun s hs => ?_, rest := rfl }
  · rw [hnarrowed]
    refine Run.readKey_of_some ?_
    unfold read?
    rw [hself]
    rfl
  · exact outcome_readKey_congr (Scope.sameShape_set h rfl) (Scope.get?_set_of_ne hne _) rfl rfl rfl
      rfl rfl
  · exact .inl (by rw [h]; rfl)
  · rw [h] at hold
    cases hold
    exact ⟨Scope.replaces_set h _, rfl, rfl⟩
  · rw [hdenoted] at hs
    cases hs

private theorem wrote_signal (ht : m.signals.Typed) (hkey : key.IsNamed) {s : Signal}
    (h : m.target key = .ok (.signal s)) (v : Value) :
    m.Wrote key v (m.writeSignal key s v) := by
  have hnoted := m.noted_writeTo key v (.signal s)
  obtain ⟨indices, last, hwritten⟩ := m.writeSignal_eq key s v
  obtain ⟨hscope, hconstant, hofKey⟩ := denoted?_of_target h
  have hdenoted : m.denoted? key = some s :=
    (denoted?_of_absent hscope hconstant).trans hofKey
  have hnarrowed : m.narrowed key v = s.coerce v := by
    unfold narrowed
    rw [hscope, hdenoted]
  have hdeclared := declared_of_ofKey? hofKey
  have hstored := ht.store hdeclared (s.holds_coerce v)
  rw [writeTo, hwritten] at hnoted
  rw [hwritten]
  refine
    { toNoted := hnoted, value := ?_, others := fun other hother hne => ?_, place := ?_,
      slot := fun old hold => ?_, signal := fun s' hs' => ?_, rest := rfl }
  · rw [hnarrowed]
    refine Run.readKey_of_some (read?_of_absent ?_ ?_ ?_)
    · exact hscope
    · exact hconstant
    · rw [signalValue?_eq hstored rfl hofKey, SignalTable.valueOf?_store_self]
  · refine outcome_readKey_congr (Scope.sameShape_refl _) rfl rfl ?_ rfl rfl rfl
    -- Another key of a program has another text, so it stands for another signal.
    cases hs' : m.signals.ofKey? other with
    | none =>
      unfold signalValue?
      change (m.signals.ofKey? other >>= _) = _
      rw [hs']
      rfl
    | some s' =>
      rw [signalValue?_eq hstored rfl hs', signalValue?_eq ht rfl hs']
      refine ht.valueOf?_store_of_ne hdeclared (declared_of_ofKey? hs') ?_ _
      rintro rfl
      have htexts : other.render = key.render :=
        (ht _ s (declared_of_ofKey? hs')).1.trans (ht _ s hdeclared).1.symm
      exact hne (hother.render_injective hkey htexts)
  · exact .inr (by rw [hdenoted]; rfl)
  · rw [hscope] at hold
    cases hold
  · rw [hdenoted] at hs'
    cases hs'
    rw [hnarrowed]
    exact ⟨rfl, rfl, rfl⟩

theorem wrote_of_writeKey (ht : m.signals.Typed) (hkey : key.IsNamed) {v : Value} {m' : Machine}
    (h : Run.writeKey key v m = .ok () m') : m.Wrote key v m' := by
  cases htarget : m.target key with
  | error f =>
    rw [Run.writeKey_of_refused htarget] at h
    cases h
  | ok target =>
    rw [Run.writeKey_of_target htarget] at h
    cases h
    cases target with
    | slot slot => exact wrote_slot (get?_of_target htarget) v
    | signal s => exact wrote_signal ht hkey htarget v

private theorem eq_of_writeKey_error {v : Value} {u : Unwind} {m' : Machine}
    (h : Run.writeKey key v m = .error u m') : m' = m := by
  cases htarget : m.target key with
  | error f =>
    rw [Run.writeKey_of_refused htarget] at h
    cases h
    rfl
  | ok target =>
    rw [Run.writeKey_of_target htarget] at h
    cases h

end Machine

/--
At every moment, whatever a host does with whatever program: a write to a key of the program that
succeeds is read back as it was narrowed, and touches nothing else but the note of the index; the
host is told of it just if the key denotes an output. A write that fails changes nothing. What the
expressions of a program stand for are such keys.
-/
theorem written_value_is_read (config : Settings) (actions : List HostAction) {s : Moment}
    (hs : Moment.Leads ⟨(Machine.new config).afterActions actions, []⟩ s) {key : SlotKey}
    (hkey : key.IsNamed) (v : Value) :
    (∀ m', Run.writeKey key v s.machine = .ok () m' → s.machine.Wrote key v m') ∧
      (∀ u m', Run.writeKey key v s.machine = .error u m' → m' = s.machine) ∧
      ∀ (eval : Expr → Run Value) (e : Expr), e.Canonical → ∀ m key' m',
        Run.resolveKey eval e m = .ok key' m' → key'.IsNamed := by
  have htyped := (hs.typed (Machine.typed_afterActions config actions)).machine.signals
  exact ⟨fun m' h => Machine.wrote_of_writeKey htyped hkey h, fun u m' =>
    Machine.eq_of_writeKey_error, fun eval e he m key' m' h => Run.isNamed_of_resolveKey he h⟩

/-- A parameter of 16 bits that is given a number of 17 is read as the number narrowed. -/
theorem written_parameter_is_read :
    let frame := (({} : Binding).addSlot "X" (.integer .unsigned16) .zero).frame
    let s : Moment := ⟨(Machine.new {}).enter frame, []⟩
    Moment.Leads ⟨Machine.new {}, []⟩ s ∧ (SlotKey.plain "X").IsNamed ∧
      ∃ m', Run.writeKey (.plain "X") (.number 70000) s.machine = .ok () m' ∧
        s.machine.Wrote (.plain "X") (.number 70000) m' ∧
          Run.readKey (.plain "X") m' = .ok (.number 4464) m' := by
  intro frame s
  have hleads : Moment.Leads ⟨Machine.new {}, []⟩ s :=
    ((Moment.Leads.single (.beginBinding _ [])).step (.bindSlot _ [] {} "X" _ _)).step
      (.enter _ [] frame)
  have hnamed : (SlotKey.plain "X").IsNamed := by decide
  have hslot : s.machine.scope.get? (.plain "X") = some ⟨.zero, .integer .unsigned16⟩ := by
    have hframe : frame[SlotKey.plain "X"]? = some ⟨.zero, .integer .unsigned16⟩ :=
      Std.HashMap.getElem?_insert_self
    exact (Scope.get?_push _ frame _).trans (by rw [hframe, Option.some_or])
  have hwritten := Run.writeKey_of_target (Machine.target_of_get? hslot) (.number 70000)
  have hwrote := (written_value_is_read {} [] hleads hnamed (.number 70000)).1 _ hwritten
  refine ⟨hleads, hnamed, _, hwritten, hwrote, ?_⟩
  have hread := hwrote.value
  unfold Machine.narrowed at hread
  rw [hslot] at hread
  exact hread

end ControlLogic
