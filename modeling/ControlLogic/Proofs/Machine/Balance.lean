import Mathlib.Data.List.Forall2
import ControlLogic.Proofs.Machine.Passage

/-!
Balance: code goes back to as many frames as it began with, each with slots of the same keys and
kinds, to the same depth of calls and to the same way of running. A write changes values only.
-/

set_option autoImplicit false
set_option relaxedAutoImplicit false

namespace ControlLogic

namespace Frame

def kind? (frame : Frame) (key : SlotKey) : Option SlotKind :=
  (frame[key]?).map Slot.kind

def SameShape (f g : Frame) : Prop :=
  ∀ key, kind? g key = kind? f key

theorem sameShape_refl (f : Frame) : SameShape f f :=
  fun _ => rfl

theorem SameShape.trans {f g h : Frame} (hfg : SameShape f g) (hgh : SameShape g h) :
    SameShape f h :=
  fun key => (hgh key).trans (hfg key)

theorem sameShape_insert {frame : Frame} {key : SlotKey} {old slot : Slot}
    (hold : frame[key]? = some old) (hkind : slot.kind = old.kind) :
    SameShape frame (frame.insert key slot) := by
  intro key'
  unfold kind?
  rw [Std.HashMap.getElem?_insert]
  split
  next hkey =>
    obtain rfl := beq_iff_eq.mp hkey
    rw [hold]
    exact congrArg some hkind
  next => rfl

end Frame

/-- Variables in as many frames, each of which has slots of the same keys and kinds. -/
structure Scope.SameShape (s t : Scope) : Prop where
  frames : List.Forall₂ Frame.SameShape s.frames t.frames
  globals : Frame.SameShape s.globals t.globals

namespace Scope

theorem sameShape_refl (s : Scope) : s.SameShape s :=
  ⟨List.forall₂_same.mpr fun frame _ => Frame.sameShape_refl frame, Frame.sameShape_refl _⟩

theorem SameShape.trans {s t u : Scope} (h : s.SameShape t) (h' : t.SameShape u) :
    s.SameShape u where
  globals := h.globals.trans h'.globals
  frames := by
    have htrans : ∀ {fs gs hs : List Frame}, List.Forall₂ Frame.SameShape fs gs →
        List.Forall₂ Frame.SameShape gs hs → List.Forall₂ Frame.SameShape fs hs := by
      intro fs gs hs hfg
      induction hfg generalizing hs with
      | nil => exact fun hgh => hgh
      | cons hfirst _ ih =>
        intro hgh
        cases hgh with
        | cons hsecond hrest => exact .cons (hfirst.trans hsecond) (ih hrest)
    exact htrans h.frames h'.frames

theorem isSome_findIn (key : SlotKey) (frames : List Frame) :
    (findIn key frames).isSome = frames.any (·.contains key) := by
  induction frames with
  | nil => rfl
  | cons frame rest ih =>
    have hget : frame.get? key = frame[key]? := rfl
    rw [List.any_cons, Std.HashMap.contains_eq_isSome_getElem?, ← ih, findIn, hget]
    cases frame[key]? <;> rfl

private theorem forall₂_setIn {key : SlotKey} {old slot : Slot} (hkind : slot.kind = old.kind)
    {frames : List Frame} (h : findIn key frames = some old) :
    List.Forall₂ Frame.SameShape frames (setIn key slot frames) := by
  induction frames with
  | nil => cases h
  | cons frame rest ih =>
    have hget : frame.get? key = frame[key]? := rfl
    unfold setIn
    rw [Std.HashMap.contains_eq_isSome_getElem?]
    rw [findIn, hget] at h
    cases hframe : frame[key]? with
    | some found =>
      rw [hframe] at h
      cases h
      rw [if_pos Option.isSome_some]
      exact .cons (Frame.sameShape_insert hframe hkind)
        (List.forall₂_same.mpr fun f _ => Frame.sameShape_refl f)
    | none =>
      rw [hframe] at h
      rw [if_neg (by simp)]
      exact .cons (Frame.sameShape_refl frame) (ih h)

theorem sameShape_set {s : Scope} {key : SlotKey} {old slot : Slot}
    (h : s.get? key = some old) (hkind : slot.kind = old.kind) : s.SameShape (s.set key slot) := by
  unfold Scope.get? at h
  unfold Scope.set
  rw [← isSome_findIn]
  cases hfound : findIn key s.frames with
  | some found =>
    rw [hfound] at h
    cases h
    exact ⟨forall₂_setIn hkind hfound, Frame.sameShape_refl _⟩
  | none =>
    rw [hfound] at h
    rw [if_neg (by simp)]
    split
    · exact ⟨(sameShape_refl s).frames, Frame.sameShape_insert h hkind⟩
    · exact sameShape_refl s

end Scope

/-- The settings, how code runs, how deep its calls are, and how many frames and slots of which
keys and kinds it has are the same. -/
structure Machine.Balanced (m m' : Machine) : Prop where
  config : m'.config = m.config
  mode : m'.mode = m.mode
  depth : m'.depth = m.depth
  scope : m.scope.SameShape m'.scope

namespace Machine

theorem balanced_refl (m : Machine) : m.Balanced m :=
  ⟨rfl, rfl, rfl, Scope.sameShape_refl _⟩

theorem Balanced.trans {a b c : Machine} (h : a.Balanced b) (h' : b.Balanced c) : a.Balanced c :=
  ⟨h'.config.trans h.config, h'.mode.trans h.mode, h'.depth.trans h.depth, h.scope.trans h'.scope⟩

theorem get?_of_target {m : Machine} {key : SlotKey} {slot : Slot}
    (h : m.target key = .ok (.slot slot)) : m.scope.get? key = some slot := by
  unfold target at h
  split at h
  next found hfound =>
    cases h
    exact hfound
  next =>
    split at h
    · cases h
    · split at h
      · split at h
        · cases h
        · cases h
      · cases h

theorem sameShape_writeTo {m : Machine} {key : SlotKey} {target : Target}
    (h : m.target key = .ok target) (v : Value) :
    m.scope.SameShape (m.writeTo key v target).scope := by
  cases target with
  | slot slot =>
    obtain ⟨indices, last, htracked⟩ :=
      { m with scope := m.scope.set key (slot.write v) }.trackIndex_eq key
    simp only [writeTo, writeSlot]
    rw [htracked]
    exact Scope.sameShape_set (get?_of_target h) rfl
  | signal s =>
    obtain ⟨indices, last, htracked⟩ :=
      { m with signals := m.signals.store s (s.coerce v) }.trackIndex_eq key
    simp only [writeTo, writeSignal]
    rw [htracked]
    split
    · exact Scope.sameShape_refl _
    · exact Scope.sameShape_refl _

theorem sameShape_copyWhole (m : Machine) (frame : Frame) (parameter owner : String) :
    m.scope.SameShape (m.copyWhole frame parameter owner).scope := by
  unfold copyWhole
  generalize frame.ownedBy parameter = slots
  induction slots generalizing m with
  | nil => exact Scope.sameShape_refl _
  | cons entry slots ih =>
    obtain ⟨key, slot⟩ := entry
    simp only [List.foldl_cons]
    split
    next old hold =>
      have hset : m.scope.SameShape (m.scope.set (key.rebase owner) (old.write slot.value)) :=
        Scope.sameShape_set hold rfl
      exact hset.trans (ih { m with scope := _ })
    next => exact ih m

end Machine

end ControlLogic
