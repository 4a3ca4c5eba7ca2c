import ControlLogic.Proofs.Machine.Access

/-!
Elements of an array that its innermost declaration does not have. Keys are looked up one by one, so
an array of fewer elements does not hide those that lie beyond it in an array of its name further
out, or in a signal.
-/

set_option autoImplicit false
set_option relaxedAutoImplicit false

namespace ControlLogic

def Frame.HasArray (frame : Frame) (name : String) : Prop :=
  ∃ key ∈ frame, key.isElement = true ∧ key.owner = name

namespace Machine

variable {m : Machine} {key : SlotKey}

private theorem constant?_of_isElement (h : key.isElement = true) : m.constant? key = none := by
  cases key <;> first | rfl | cases h

private theorem firstIndex?_of_isElement (h : key.isElement = true) :
    key.firstIndex?.isSome = true := by
  cases key <;> first | rfl | cases h

private theorem socketStatus?_of_isElement (h : key.isElement = true) :
    m.socketStatus? key = none := by
  cases key <;> first | rfl | cases h

theorem isName_owner (h : key.IsNamed) : IsName key.owner := by
  refine h key.owner ?_
  cases key <;> exact List.mem_cons_self

private theorem knowsOwner_of_hasArray {frame : Frame} (hframe : frame ∈ m.scope.frames)
    (hnamed : key.IsNamed) (h : frame.HasArray key.owner) : m.knowsOwner key = true := by
  obtain ⟨other, hmem, helement, howner⟩ := h
  have howns : m.scope.owns key.owner = true := by
    refine List.any_eq_true.mpr ⟨frame, List.mem_append_left _ hframe, ?_⟩
    rw [Std.HashMap.any_eq_true_iff_exists_mem_getElem]
    refine ⟨other, hmem, ?_⟩
    have hplain : other.isPlain = false := by
      cases other <;> first | rfl | cases helement
    rw [hplain, howner, (isName_owner hnamed).upper, beq_self_eq_true]
    rfl
  unfold knowsOwner
  rw [howns, Bool.or_true, Bool.true_or]

end Machine

/--
Where the innermost frame has an array or a grid, and not this element of it: a read and a write
fault only if no frame further out has the element and no signal is declared for it. Otherwise they
reach that slot, or that signal.
-/
theorem element_beyond_innermost_array (config : Settings) (actions : List HostAction) {s : Moment}
    (hs : Moment.Leads ⟨(Machine.new config).afterActions actions, []⟩ s) {frame : Frame}
    {rest : List Frame} (hframes : s.machine.scope.frames = frame :: rest) {key : SlotKey}
    (hnamed : key.IsNamed) (helement : key.isElement = true)
    (harray : frame.HasArray key.owner) (hmissing : frame[key]? = none) :
    let m := s.machine
    let outer := Scope.findIn key (rest ++ [m.scope.globals])
    (∀ slot, outer = some slot →
      Run.readKey key m = .ok slot.value m ∧
        ∀ v, Run.writeKey key v m = .ok () (m.writeSlot key slot v)) ∧
      (∀ signal, outer = none → m.signals.ofKey? key = some signal →
        (∃ v, m.signals.valueOf? signal = some v ∧ Run.readKey key m = .ok v m) ∧
          ∀ v, Run.writeKey key v m =
            if signal.type.isHeld then .error (.fault (.inputAssigned signal.name) none) m
            else .ok () (m.writeSignal key signal v)) ∧
        (outer = none → m.signals.ofKey? key = none →
          Run.readKey key m = .error (.fault (.indexOutOfRange key) none) m ∧
            ∀ v, Run.writeKey key v m = .error (.fault (.indexOutOfRange key) none) m) := by
  intro m outer
  have hget : m.scope.get? key = outer := by
    rw [Scope.get?_eq_findIn, Scope.chain, hframes, List.cons_append, Scope.findIn_cons, hmissing,
      Option.none_or]
  have hconstant : m.constant? key = none := Machine.constant?_of_isElement helement
  have htyped : m.signals.Typed :=
    (hs.typed (Machine.typed_afterActions config actions)).machine.signals
  refine ⟨fun slot houter => ?_, fun signal houter hsignal => ?_, fun houter hsignal => ?_⟩
  · rw [houter] at hget
    exact ⟨Run.readKey_of_some (Machine.read?_of_get? hget),
      fun v => Run.writeKey_of_target (Machine.target_of_get? hget) v⟩
  · rw [houter] at hget
    obtain ⟨-, v, hv, -⟩ := htyped _ _ (Machine.declared_of_ofKey? hsignal)
    refine ⟨⟨v, hv, Run.readKey_of_some (Machine.read?_of_absent hget hconstant ?_)⟩, fun v => ?_⟩
    · rw [Machine.signalValue?_eq htyped rfl hsignal, hv]
    · have htarget := Machine.target_of_signal hget hconstant hsignal
      split at htarget
      next hheld =>
        rw [if_pos hheld, Run.writeKey_of_refused htarget]
      next hheld =>
        rw [if_neg hheld, Run.writeKey_of_target htarget]
        rfl
  · rw [houter] at hget
    have hmem : frame ∈ m.scope.frames := by
      rw [hframes]
      exact List.mem_cons_self
    have hfault : m.missing key = .indexOutOfRange key := by
      unfold Machine.missing
      rw [Machine.firstIndex?_of_isElement helement,
        Machine.knowsOwner_of_hasArray hmem hnamed harray]
      rfl
    have hread : m.read? key = none := by
      unfold Machine.read? Machine.signalValue?
      rw [hget, hconstant, hsignal, Machine.socketStatus?_of_isElement helement]
      rfl
    rw [← hfault]
    exact ⟨Run.readKey_of_none hread,
      fun v => Run.writeKey_of_refused (Machine.target_of_nothing hget hconstant hsignal) v⟩

/-! ### An array inside a longer one -/

def arrayFrame (n : Nat) : Frame :=
  Frame.declareUpTo {} n (.element "A") (.integer .unsigned16)

/-- A call whose local array has the elements up to two, from a call whose array has those up to
ten. -/
def nestedArrays : Moment :=
  ⟨((Machine.new {}).enter (arrayFrame 10)).enter (arrayFrame 2), []⟩

theorem declareLocals_arrayFrame (n : Nat) :
    Frame.declareLocals [] [⟨.integer, "a", some n, none, .start⟩] {} = .ok (arrayFrame n) := by
  have hupper : Text.upper "a" = "A" := by
    rw [← String.toList_inj, Text.toList_upper]
    rfl
  change Except.ok (Frame.declareUpTo {} n (.element (Text.upper "a")) _) = _
  rw [hupper]
  rfl

private theorem leads_nestedArrays : Moment.Leads ⟨Machine.new {}, []⟩ nestedArrays := by
  have hcall : ∀ (m : Machine) (n : Nat),
      Moment.Leads ⟨m, []⟩ ⟨m.enter (arrayFrame n), []⟩ := by
    intro m n
    exact ((Moment.Leads.single (.beginBinding m [])).step
      (.declare m [] (declareLocals_arrayFrame n))).step (.enter m [] _)
  exact (hcall _ 10).trans (hcall _ 2)

theorem arrayFrame_element {n i : Nat} (h : i ≤ n) :
    (arrayFrame n)[SlotKey.element "A" (Int.ofNat i)]? = some (.fresh (.integer .unsigned16)) :=
  Frame.getElem?_declareUpTo h _ _ _

private theorem arrayFrame_missing {n i : Nat} (h : n < i) :
    (arrayFrame n)[SlotKey.element "A" (Int.ofNat i)]? = none := by
  have hempty : ({} : Frame)[SlotKey.element "A" (Int.ofNat i)]? = none := by simp
  rw [← hempty]
  refine Frame.getElem?_declareUpTo_of_ne (fun j hj heq => ?_) _ _
  injection heq with _ hindex
  have hsame : j = i := Int.ofNat.inj hindex
  omega

private theorem hasArray_arrayFrame (n : Nat) : (arrayFrame n).HasArray "A" := by
  refine ⟨.element "A" (Int.ofNat 0), ?_, rfl, rfl⟩
  exact Std.HashMap.mem_iff_isSome_getElem?.mpr (by rw [arrayFrame_element (Nat.zero_le n)]; rfl)

private theorem arrayFrames_at_five :
    (arrayFrame 2)[SlotKey.element "A" 5]? = none ∧
      (arrayFrame 10)[SlotKey.element "A" 5]? = some (.fresh (.integer .unsigned16)) :=
  ⟨arrayFrame_missing (i := 5) (by decide), arrayFrame_element (i := 5) (by decide)⟩

/-- The element that the local array lacks is read from the longer array. -/
theorem element_of_longer_array :
    let key := SlotKey.element "A" 5
    Moment.Leads ⟨Machine.new {}, []⟩ nestedArrays ∧ (arrayFrame 2)[key]? = none ∧
      Run.readKey key nestedArrays.machine = .ok .zero nestedArrays.machine := by
  intro key
  obtain ⟨hmissing, hlonger⟩ := arrayFrames_at_five
  have houter : Scope.findIn key ([arrayFrame 10] ++ [nestedArrays.machine.scope.globals]) =
      some (.fresh (.integer .unsigned16)) := by
    rw [List.singleton_append, Scope.findIn_cons, hlonger, Option.some_or]
  have hnamed : key.IsNamed := by decide
  have hread := (element_beyond_innermost_array {} [] leads_nestedArrays rfl hnamed rfl
    (hasArray_arrayFrame 2) hmissing).1 _ houter
  exact ⟨leads_nestedArrays, hmissing, hread.1⟩

/-- A local array does not hide the elements that it lacks. -/
theorem local_array_hides_less_than_its_name :
    ¬ ∀ (s : Moment) (frame : Frame) (rest : List Frame) (key : SlotKey),
      Moment.Leads ⟨Machine.new {}, []⟩ s → s.machine.scope.frames = frame :: rest →
        key.IsNamed → key.isElement = true → frame.HasArray key.owner → frame[key]? = none →
          Run.outcome (Run.readKey key) s.machine =
            .error (.fault (.indexOutOfRange key) none) := by
  intro hclaim
  obtain ⟨hmissing, hlonger⟩ := arrayFrames_at_five
  have hfault := hclaim nestedArrays (arrayFrame 2) [arrayFrame 10] (.element "A" 5)
    leads_nestedArrays rfl (by decide) rfl (hasArray_arrayFrame 2) hmissing
  have hslot : nestedArrays.machine.scope.get? (.element "A" 5) =
      some (.fresh (.integer .unsigned16)) := by
    change ((Scope.push {} (arrayFrame 10)).push (arrayFrame 2)).get? _ = _
    rw [Scope.get?_push, Scope.get?_push, hmissing, hlonger, Option.none_or, Option.some_or]
  rw [Run.outcome_readKey, Machine.read?_of_get? hslot] at hfault
  cases hfault

end ControlLogic
