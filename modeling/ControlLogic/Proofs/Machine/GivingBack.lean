import ControlLogic.Proofs.Machine.Pulses
import ControlLogic.Proofs.Machine.ValueResult

/-!
What goes back to the caller of a function whose variables were not written. The slots of arrays and
structures go back as they came. A reference to a single variable goes through a slot of the
parameter's type, so what it stands for changes just where that type cannot hold its value; one to
something that cannot be written is a fault.
-/

set_option autoImplicit false
set_option relaxedAutoImplicit false

namespace ControlLogic

/-- A key that a call gives back to, and what its parameter keeps of the value. -/
structure Reference where
  target : SlotKey
  kind : SlotKind

namespace Machine

/-- A key that is read and never written, and the fault of a write: that of a constant, or of an
input other than a buffer. -/
inductive Fixed (m : Machine) (key : SlotKey) : Fault → Prop
  | constant (hscope : (m.scope.get? key).isSome = false)
    (hconstant : (m.constant? key).isSome = true) : m.Fixed key (.constantAssigned key.owner)
  | input {s : Signal} (hs : m.denoted? key = some s) (hheld : s.type.isHeld = true) :
    m.Fixed key (.inputAssigned s.name)

def Free (m : Machine) (refs : List Reference) : Prop :=
  ∀ r ∈ refs, ∀ fault, ¬ m.Fixed r.target fault

/-- What a key stands for when references have gone back with the values from before: the last one
to the key counts, and leaves the value narrowed by the parameter and then by the key. -/
def returned (m : Machine) (refs : List Reference) (key : SlotKey) : Option Value :=
  match refs.reverse.find? fun r => decide (r.target = key) with
  | some r => (m.read? key).map fun v => m.narrowed key (r.kind.coerce v)
  | none => m.read? key

/-! ### What names stand for -/

/-- The same variables of the same kinds, constants and signals are there. -/
structure SameNames (m m' : Machine) : Prop where
  scope : m.scope.SameShape m'.scope
  constants : m'.constants = m.constants
  declared : m'.signals.declared = m.signals.declared

variable {m m' : Machine} {key : SlotKey} {v : Value} {refs : List Reference}

theorem SameNames.trans {a b c : Machine} (h : a.SameNames b) (h' : b.SameNames c) :
    a.SameNames c :=
  ⟨h.scope.trans h'.scope, h'.constants.trans h.constants, h'.declared.trans h.declared⟩

private theorem sameNames_writeTo {target : Target} (h : m.target key = .ok target) (v : Value) :
    m.SameNames (m.writeTo key v target) := by
  have hkept := keepsNames_writeTo h v
  exact ⟨sameShape_writeTo h v, hkept.constants, hkept.declared⟩

private theorem absent_of_denoted? {s : Signal} (h : m.denoted? key = some s) :
    m.scope.get? key = none ∧ m.constant? key = none ∧ m.signals.ofKey? key = some s := by
  unfold denoted? at h
  split at h
  · cases h
  next habsent =>
    rw [Bool.or_eq_true, not_or, Option.not_isSome_iff_eq_none,
      Option.not_isSome_iff_eq_none] at habsent
    exact ⟨habsent.1, habsent.2, h⟩

namespace SameNames

theorem constant? (h : m.SameNames m') (key : SlotKey) : m'.constant? key = m.constant? key := by
  unfold Machine.constant?
  rw [h.constants]

theorem denoted? (h : m.SameNames m') (key : SlotKey) : m'.denoted? key = m.denoted? key := by
  unfold Machine.denoted? SignalTable.ofKey?
  rw [h.scope.isSome_get?, h.constant?, h.declared]

theorem narrowed (h : m.SameNames m') (key : SlotKey) (v : Value) :
    m'.narrowed key v = m.narrowed key v := by
  have hkind := h.scope.kind_get? key
  unfold Machine.narrowed
  rw [h.denoted?]
  cases hslot : m.scope.get? key with
  | some slot =>
    rw [hslot] at hkind
    obtain ⟨slot', hslot', hsame⟩ := Option.map_eq_some_iff.mp hkind
    rw [hslot']
    exact congrArg (SlotKind.coerce · v) hsame
  | none =>
    rw [hslot] at hkind
    rw [Option.map_eq_none_iff.mp hkind]

theorem fixed (h : m.SameNames m') {fault : Fault} :
    m'.Fixed key fault ↔ m.Fixed key fault := by
  have hscope := h.scope.isSome_get? key
  have hconstant := h.constant? key
  have hdenoted := h.denoted? key
  constructor
  · rintro (⟨habsent, hthere⟩ | ⟨hs, hheld⟩)
    · exact .constant (hscope ▸ habsent) (hconstant ▸ hthere)
    · exact .input (hdenoted ▸ hs) hheld
  · rintro (⟨habsent, hthere⟩ | ⟨hs, hheld⟩)
    · exact .constant (hscope ▸ habsent) (hconstant ▸ hthere)
    · exact .input (hdenoted ▸ hs) hheld

end SameNames

theorem Fixed.target {fault : Fault} (h : m.Fixed key fault) : m.target key = .error fault := by
  cases h with
  | constant hscope hconstant =>
    unfold Machine.target
    rw [Option.isSome_eq_false_iff, Option.isNone_iff_eq_none] at hscope
    rw [hscope]
    exact if_pos hconstant
  | input hs hheld =>
    obtain ⟨hscope, hconstant, hofKey⟩ := absent_of_denoted? hs
    rw [target_of_signal hscope hconstant hofKey, if_pos hheld]

private theorem exists_target (hplain : key.isPlain = true) (hread : (m.read? key).isSome = true)
    (hfree : ∀ fault, ¬ m.Fixed key fault) : ∃ target, m.target key = .ok target := by
  cases hscope : m.scope.get? key with
  | some slot => exact ⟨_, target_of_get? hscope⟩
  | none =>
    cases hconstant : m.constant? key with
    | some value =>
      exact absurd (.constant (by rw [hscope]; rfl) (by rw [hconstant]; rfl)) (hfree _)
    | none =>
      cases hs : m.signals.ofKey? key with
      | some s =>
        by_cases hheld : s.type.isHeld = true
        · exact absurd (.input ((denoted?_of_absent hscope hconstant).trans hs) hheld) (hfree _)
        · exact ⟨_, (target_of_signal hscope hconstant hs).trans (if_neg hheld)⟩
      | none =>
        have hstatus : m.socketStatus? key = none := by
          cases key <;> first | rfl | cases hplain
        unfold read? signalValue? at hread
        rw [hscope, hconstant, hs, hstatus] at hread
        cases hread

theorem Typed.narrowed (hm : m.Typed) (hv : m.read? key = some v) : m.narrowed key v = v := by
  unfold Machine.narrowed
  cases hscope : m.scope.get? key with
  | some slot =>
    obtain rfl : slot.value = v := Option.some.inj ((read?_of_get? hscope).symm.trans hv)
    exact SlotKind.coerce_of_holds (hm.scope.get? hscope)
  | none =>
    cases hs : m.denoted? key with
    | some s =>
      obtain ⟨-, hconstant, hofKey⟩ := absent_of_denoted? hs
      obtain ⟨-, kept, hkept, hholds⟩ := hm.signals _ _ (declared_of_ofKey? hofKey)
      have hsignal := (signalValue?_eq hm.signals rfl hofKey).trans hkept
      obtain rfl : kept = v :=
        Option.some.inj ((read?_of_absent hscope hconstant hsignal).symm.trans hv)
      exact Signal.coerce_of_holds hholds
    | none => rfl

/-! ### What references leave -/

theorem returned_append_self (refs : List Reference) (r : Reference) :
    m.returned (refs ++ [r]) r.target =
      (m.read? r.target).map fun v => m.narrowed r.target (r.kind.coerce v) := by
  unfold returned
  rw [List.reverse_append, List.reverse_singleton, List.singleton_append]
  simp only [List.find?_cons, decide_true]

private theorem returned_append_of_ne {r : Reference} (h : r.target ≠ key) :
    m.returned (refs ++ [r]) key = m.returned refs key := by
  unfold returned
  rw [List.reverse_append, List.reverse_singleton, List.singleton_append,
    List.find?_cons_of_neg (by simpa using h)]

private theorem isSome_returned (refs : List Reference) (key : SlotKey) :
    (m.returned refs key).isSome = (m.read? key).isSome := by
  unfold returned
  split
  · exact Option.isSome_map
  · rfl

theorem Typed.returned_of_holds (hm : m.Typed)
    (h : ∀ r ∈ refs, r.target = key → ∀ v, m.read? key = some v → r.kind.Holds v) :
    m.returned refs key = m.read? key := by
  unfold returned
  split
  next r hr =>
    have hmem : r ∈ refs := List.mem_reverse.mp (List.mem_of_find?_eq_some hr)
    have htarget : r.target = key := by simpa using List.find?_some hr
    cases hv : m.read? key with
    | some v =>
      rw [Option.map_some, SlotKind.coerce_of_holds (h r hmem htarget v hv), hm.narrowed hv]
    | none => rfl
  next => rfl

/-- A machine after references have gone back: keys stand for what these leave, and nothing else has
changed in scope. -/
structure GaveBack (m : Machine) (refs : List Reference) (m' : Machine) : Prop
    extends m.SameNames m' where
  read (key : SlotKey) (hnamed : key.IsNamed) : m'.read? key = m.returned refs key
  parts (key : SlotKey) (h : key.isPlain = false) : m'.scope.get? key = m.scope.get? key
  typed : m'.Typed

theorem Typed.gaveBack_steps (hm : m.Typed) (steps : Nat) :
    m.GaveBack [] { m with steps := steps } where
  scope := m.scope.sameShape_refl
  constants := rfl
  declared := rfl
  read _ _ := rfl
  parts _ _ := rfl
  typed := hm.of_eq rfl rfl rfl

private theorem get?_writeTo_of_ne {other : SlotKey} (h : other ≠ key) (v : Value)
    (target : Target) :
    (m.writeTo key v target).scope.get? other = m.scope.get? other := by
  cases target with
  | slot slot =>
    obtain ⟨indices, last, hwritten⟩ := m.writeSlot_eq key slot v
    rw [writeTo, hwritten]
    exact Scope.get?_set_of_ne h m.scope
  | signal s =>
    obtain ⟨indices, last, hwritten⟩ := m.writeSignal_eq key s v
    rw [writeTo, hwritten]

private theorem read?_of_readKey (h : Run.readKey key m = .ok v m') : m.read? key = some v := by
  cases hread : m.read? key with
  | some value =>
    rw [Run.readKey_of_some hread] at h
    cases h
    rfl
  | none =>
    rw [Run.readKey_of_none hread] at h
    cases h

private theorem read?_of_outcome
    (h : Run.outcome (Run.readKey key) m' = Run.outcome (Run.readKey key) m) :
    m'.read? key = m.read? key := by
  rw [Run.outcome_readKey, Run.outcome_readKey] at h
  cases hread : m.read? key with
  | some v =>
    cases hread' : m'.read? key with
    | some v' =>
      rw [hread, hread'] at h
      cases h
      rfl
    | none =>
      rw [hread, hread'] at h
      cases h
  | none =>
    cases hread' : m'.read? key with
    | some v' =>
      rw [hread, hread'] at h
      cases h
    | none => rfl

theorem GaveBack.reference (h : m.GaveBack refs m') {r : Reference} (hnamed : r.target.IsNamed)
    (hplain : r.target.isPlain = true) (hv : m.read? r.target = some v)
    (hfree : ∀ fault, ¬ m.Fixed r.target fault) :
    ∃ m'', Run.writeKey r.target (r.kind.coerce v) m' = .ok () m'' ∧
      m.GaveBack (refs ++ [r]) m'' := by
  have hread : (m'.read? r.target).isSome = true := by
    rw [h.read _ hnamed, isSome_returned, hv]
    rfl
  obtain ⟨target, htarget⟩ :=
    exists_target hplain hread fun fault hfixed => hfree fault (h.fixed.mp hfixed)
  have hwritten := Run.writeKey_of_target htarget (r.kind.coerce v)
  have hwrote := wrote_of_writeKey h.typed.signals hnamed hwritten
  have hnames := h.toSameNames.trans (sameNames_writeTo htarget (r.kind.coerce v))
  refine ⟨_, hwritten,
    { hnames with
      read := fun key hkey => ?_
      parts := fun key hkey => ?_
      typed := h.typed.writeTo htarget _ }⟩
  · by_cases heq : r.target = key
    · rw [← heq, returned_append_self, hv, Option.map_some, ← h.narrowed]
      exact read?_of_readKey hwrote.value
    · rw [returned_append_of_ne heq, ← h.read key hkey]
      exact read?_of_outcome (hwrote.others key hkey (Ne.symm heq))
  · rw [← h.parts key hkey]
    refine get?_writeTo_of_ne ?_ _ _
    rintro rfl
    rw [hplain] at hkey
    cases hkey

end Machine

private theorem Slot.Typed.write_self {slot : Slot} (h : slot.Typed) :
    slot.write slot.value = slot :=
  congrArg (Slot.mk · slot.kind) (SlotKind.coerce_of_holds h)

private theorem Scope.get?_carryAll_of_same {last : Frame} {s : Scope} {links : List Link}
    (h : ∀ l ∈ links, ∃ slot, last[l.parameter]? = some slot ∧ s.get? l.target = some slot)
    (hs : s.Typed) (key : SlotKey) : (links.foldl (carry last) s).get? key = s.get? key := by
  induction links generalizing s with
  | nil => rfl
  | cons l links ih =>
    obtain ⟨⟨slot, hinner, houter⟩, hrest⟩ := List.forall_mem_cons.mp h
    have hsame : ∀ key, (s.set l.target slot).get? key = s.get? key := by
      intro key
      by_cases heq : key = l.target
      · rw [heq, houter]
        exact get?_set_self (by rw [houter]; rfl)
      · exact get?_set_of_ne heq s
    rw [List.foldl_cons, carry_of_get? hinner houter, (hs.get? houter).write_self, ih,
      hsame]
    · intro l hl
      rw [hsame]
      exact hrest l hl
    · exact hs.set (hs.get? houter) _

namespace Machine

variable {m m' : Machine} {refs : List Reference} {frame frame' : Frame} {backs : List CopyBack}

theorem GaveBack.whole (h : m.GaveBack refs m') {parameter owner : String}
    (hlinks : ∀ l ∈ (CopyBack.whole parameter owner).links frame, ∃ slot,
      frame[l.parameter]? = some slot ∧ m.scope.get? l.target = some slot) :
    m.GaveBack refs (m'.copyWhole frame parameter owner) := by
  have hsame : ∀ key, (m'.copyWhole frame parameter owner).scope.get? key = m'.scope.get? key := by
    rw [scope_copyWhole]
    refine Scope.get?_carryAll_of_same (fun l hl => ?_) h.typed.scope
    obtain ⟨-, hpart, -, htarget⟩ := CopyBack.mem_links_whole.mp hl
    obtain ⟨slot, hinner, houter⟩ := hlinks l hl
    refine ⟨slot, hinner, (h.parts _ ?_).trans houter⟩
    rw [htarget, SlotKey.isPlain_rebase, hpart]
  have hshape := h.scope.trans (m'.sameShape_copyWhole frame parameter owner)
  have htyped := h.typed.copyWhole frame parameter owner
  obtain ⟨scope, hcopied⟩ := m'.copyWhole_eq frame parameter owner
  rw [hcopied] at hsame hshape htyped ⊢
  refine
    { scope := hshape, constants := h.constants, declared := h.declared,
      read := fun key hkey => ?_, parts := fun key hkey => (hsame key).trans (h.parts key hkey),
      typed := htyped }
  have hread : ({ m' with scope := scope } : Machine).read? key = m'.read? key := by
    unfold read?
    rw [hsame]
    rfl
  exact hread.trans (h.read key hkey)

/-- A frame has what was taken from the caller: for each reference its value as the parameter keeps
it, and for an array or a structure its slots. -/
inductive Lends (m : Machine) (frame : Frame) : List CopyBack → List Reference → Prop
  | nothing : m.Lends frame [] []
  | reference {parameter : String} {r : Reference} {v : Value} {backs : List CopyBack}
    {refs : List Reference} (hnamed : r.target.IsNamed) (hplain : r.target.isPlain = true)
    (hv : m.read? r.target = some v)
    (hslot : frame[SlotKey.plain parameter]? = some ⟨r.kind.coerce v, r.kind⟩)
    (h : m.Lends frame backs refs) :
    m.Lends frame (.slot parameter r.target :: backs) (r :: refs)
  | whole {parameter owner : String} {backs : List CopyBack} {refs : List Reference}
    (hlinks : ∀ l ∈ (CopyBack.whole parameter owner).links frame, ∃ slot,
      frame[l.parameter]? = some slot ∧ m.scope.get? l.target = some slot)
    (h : m.Lends frame backs refs) : m.Lends frame (.whole parameter owner :: backs) refs

theorem Lends.append (h : m.Lends frame backs refs) {later : List CopyBack}
    {others : List Reference} (h' : m.Lends frame later others) :
    m.Lends frame (backs ++ later) (refs ++ others) := by
  induction h with
  | nothing => exact h'
  | reference hnamed hplain hv hslot _ ih => exact .reference hnamed hplain hv hslot ih
  | whole hlinks _ ih => exact .whole hlinks ih

theorem Lends.of_frame (h : m.Lends frame backs refs)
    (hframe : ∀ c ∈ backs, ∀ key : SlotKey, key.owner = c.parameter → frame'[key]? = frame[key]?) :
    m.Lends frame' backs refs := by
  induction h with
  | nothing => exact .nothing
  | reference hnamed hplain hv hslot _ ih =>
    obtain ⟨hfirst, hrest⟩ := List.forall_mem_cons.mp hframe
    exact .reference hnamed hplain hv ((hfirst _ rfl).trans hslot) (ih hrest)
  | @whole parameter owner backs refs hlinks _ ih =>
    obtain ⟨hfirst, hrest⟩ := List.forall_mem_cons.mp hframe
    refine .whole (fun l hl => ?_) (ih hrest)
    have hsome : ∀ key : SlotKey, key.owner = (CopyBack.whole parameter owner).parameter →
        (frame'[key]?).isSome = (frame[key]?).isSome := fun key howner => by
      rw [hfirst key howner]
    have hl' := (CopyBack.mem_links_congr hsome).mp hl
    obtain ⟨slot, hslot, htarget⟩ := hlinks l hl'
    obtain ⟨-, -, howner, -⟩ := CopyBack.mem_links_whole.mp hl'
    exact ⟨slot, (hfirst _ howner).trans hslot, htarget⟩

end Machine

namespace Run

variable {m m' : Machine} {refs : List Reference} {frame : Frame} {backs : List CopyBack}

private theorem copyBack_slot {parameter : String} {slot : Slot}
    (h : frame[SlotKey.plain parameter]? = some slot) (target : SlotKey) :
    copyBack frame (.slot parameter target) = writeKey target slot.value := by
  rw [copyBack, Std.HashMap.get?_eq_getElem?, h]

theorem copyBacks_lent (h : m.Lends frame backs refs) {earlier : List Reference}
    (hm' : m.GaveBack earlier m') :
    (∃ m'', backs.forM (copyBack frame) m' = .ok () m'' ∧ m.Free refs ∧
      m.GaveBack (earlier ++ refs) m'') ∨
      ∃ before r after fault m'', refs = before ++ r :: after ∧ m.Free before ∧
        m.Fixed r.target fault ∧
          backs.forM (copyBack frame) m' = .error (.fault fault none) m'' ∧
            m.GaveBack (earlier ++ before) m'' := by
  induction h generalizing earlier m' with
  | nothing =>
    refine .inl ⟨m', rfl, fun r hr => absurd hr List.not_mem_nil, ?_⟩
    rwa [List.append_nil]
  | @reference parameter r v backs refs hnamed hplain hv hslot _ ih =>
    have hwrite := copyBack_slot hslot r.target
    by_cases hfixed : ∃ fault, m.Fixed r.target fault
    · obtain ⟨fault, hfault⟩ := hfixed
      refine .inr ⟨[], r, refs, fault, m', rfl, fun r hr => absurd hr List.not_mem_nil, hfault, ?_,
        by rwa [List.append_nil]⟩
      refine bind_error ?_ _
      rw [hwrite]
      exact writeKey_of_refused (hm'.fixed.mpr hfault).target _
    · have hfree : ∀ fault, ¬ m.Fixed r.target fault := not_exists.mp hfixed
      obtain ⟨given, hwritten, hgiven⟩ := hm'.reference hnamed hplain hv hfree
      rw [← hwrite] at hwritten
      obtain ⟨m'', hlater, hrest, hgave⟩ | ⟨before, r', after, fault, m'', rfl, hrest, hfault,
        hlater, hgave⟩ := ih hgiven
      · rw [List.append_assoc] at hgave
        exact .inl ⟨m'', (bind_ok hwritten _).trans hlater,
          List.forall_mem_cons.mpr ⟨hfree, hrest⟩, hgave⟩
      · rw [List.append_assoc] at hgave
        exact .inr ⟨r :: before, r', after, fault, m'', rfl,
          List.forall_mem_cons.mpr ⟨hfree, hrest⟩, hfault, (bind_ok hwritten _).trans hlater, hgave⟩
  | whole hlinks _ ih =>
    exact ih (hm'.whole hlinks)

end Run

end ControlLogic
