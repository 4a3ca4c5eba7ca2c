import ControlLogic.Proofs.Machine.Act
import ControlLogic.Proofs.Machine.Background
import ControlLogic.Proofs.Machine.Hosting

/-!
Code is balanced on every way it can end: calls leave the frames they entered, and code that
interrupts other code leaves it where it stood, with the values of its variables.
-/

set_option autoImplicit false
set_option relaxedAutoImplicit false

namespace ControlLogic

namespace Machine

theorem Balanced.leave {m m' : Machine} {frame : Frame} (h : (m.enter frame).Balanced m') :
    m.Balanced m'.leave := by
  obtain ⟨hconfig, hmode, hdepth, hframes, hglobals⟩ := h
  refine ⟨hconfig, hmode, ?_, ?_⟩
  · change m'.depth - 1 = m.depth
    rw [hdepth]
    rfl
  · change List.Forall₂ Frame.SameShape (frame :: m.scope.frames) m'.scope.frames at hframes
    cases hscope : m'.scope.frames with
    | nil =>
      rw [hscope] at hframes
      cases hframes
    | cons first rest =>
      rw [hscope] at hframes
      have hleft : m'.leave.scope = { m'.scope with frames := rest } := by
        change m'.scope.pop.2 = _
        unfold Scope.pop
        rw [hscope]
      rw [hleft]
      cases hframes with
      | cons _ hrest => exact ⟨hrest, hglobals⟩

/-- The settings, and the keys and kinds of the global slots, are the same. -/
structure KeepsGlobals (m m' : Machine) : Prop where
  config : m'.config = m.config
  globals : Frame.SameShape m.scope.globals m'.scope.globals

theorem KeepsGlobals.trans {a b c : Machine} (h : a.KeepsGlobals b) (h' : b.KeepsGlobals c) :
    a.KeepsGlobals c :=
  ⟨h'.config.trans h.config, h.globals.trans h'.globals⟩

private theorem Balanced.keepsGlobals {m m' : Machine} (h : m.Balanced m') : m.KeepsGlobals m' :=
  ⟨h.config, h.scope.globals⟩

private theorem standing_isolated {α : Type} (m : Machine) (frames : List Frame) (x : Run α) :
    (m.after (Run.isolated frames x)).standing = m.standing := by
  rw [after_isolated]
  rfl

private theorem balanced_isolated {α : Type} (m : Machine) (frames : List Frame) {x : Run α}
    (h : (m.isolate frames).KeepsGlobals ((m.isolate frames).after x)) :
    m.Balanced (m.after (Run.isolated frames x)) := by
  rw [after_isolated]
  exact ⟨h.config, rfl, rfl, (Scope.sameShape_refl m.scope).frames, h.globals⟩

end Machine

namespace Run

open Machine (Balanced)

theorem Elementary.balanced {α : Type} {x : Run α} (h : Elementary x) : Relates Balanced x :=
  fun m => (h.proceeds m).balanced

theorem balanced_closed : Closed (Relates Balanced) :=
  relates_closed Machine.balanced_refl Balanced.trans Elementary.balanced

private theorem Relates.balanced_inFrame {α : Type} {x : Run α} (hx : Relates Balanced x)
    (frame : Frame) : Relates Balanced (inFrame frame x) := by
  intro m
  rw [m.after_inFrame]
  exact (hx (m.enter frame)).leave

theorem balanced_respected {pump : Nat → Run Unit}
    (hpump : ∀ deadline, Relates Balanced (pump deadline)) : Respected Balanced pump where
  refl := Machine.balanced_refl
  trans := Balanced.trans
  elementary := Elementary.balanced
  suspend delay what := by
    refine relates_inspect fun m => ?_
    split
    · exact Elementary.balanced (.tell _)
    · exact balanced_closed.congruence.checkAbort.2.bind Balanced.trans fun _ => hpump _
  call heval hblock f args :=
    (balanced_closed.congruence.callFunction (fun e => ⟨rfl, heval e⟩)
      (fun frame body => ⟨rfl, (hblock body).balanced_inFrame frame⟩) f args).2

private theorem balanced_immediate : Respected Balanced noPump :=
  balanced_respected fun _ => balanced_closed.pure ()

private theorem balanced_immediateBlock (body : List Stmt) :
    Relates Balanced (immediateBlock body) := by
  intro m
  rw [m.after_immediateBlock]
  exact balanced_immediate.block m.fuel body m

private theorem balanced_immediateCall (index : Nat) : Relates Balanced (immediateCall index) := by
  intro m
  rw [m.after_immediateCall]
  exact balanced_immediate.callAt m.fuel index [] m

private theorem keepsGlobals_handlerBody (h : Handler) :
    Relates Machine.KeepsGlobals (handlerBody h) := by
  have hlocals : Relates Machine.KeepsGlobals (localFrame h.locals {}) :=
    fun m => ((balanced_closed.congruence.localFrame h.locals {}).2 m).keepsGlobals
  have hpush (frame : Frame) : Relates Machine.KeepsGlobals
      (modify fun m => { m with scope := m.scope.push frame }) :=
    relates_modify fun m => ⟨rfl, Frame.sameShape_refl _⟩
  refine hlocals.bind .trans fun frame => (hpush frame).bind .trans fun _ m => ?_
  exact (balanced_immediateBlock h.body m).keepsGlobals

end Run

namespace Machine

theorem sameShape_addReceived (data : String) (globals : Frame) (name : String) :
    Frame.SameShape globals (addReceived data globals name) := by
  unfold addReceived
  split
  next slot h => exact Frame.sameShape_insert h rfl
  next => exact Frame.sameShape_refl _

theorem balanced_background : Background Balanced where
  refl := balanced_refl
  trans := Balanced.trans
  tell m event := ⟨rfl, rfl, rfl, Scope.sameShape_refl _⟩
  abort m wish := ⟨rfl, rfl, rfl, Scope.sameShape_refl _⟩
  handler m h := m.balanced_isolated [] (Run.keepsGlobals_handlerBody h _)
  input m _ s v h := by
    obtain ⟨signals, indices, last, hkept⟩ := m.keepInput_eq s (s.coerce v)
    rw [hkept]
    exact ⟨rfl, rfl, rfl, Scope.sameShape_refl _⟩
  thread m index := m.balanced_isolated [] (Run.balanced_immediateCall index _).keepsGlobals
  wait {m label w} h := by
    obtain ⟨hconfig, hmode, hdepth, hscope⟩ :=
      balanced_isolated { m with waits := m.waits.erase label } w.frames
        (Run.balanced_immediateBlock w.body _).keepsGlobals
    exact ⟨hconfig, hmode, hdepth, hscope⟩
  received m data name :=
    ⟨rfl, rfl, rfl, (Scope.sameShape_refl m.scope).frames, sameShape_addReceived _ _ _⟩
  network m f := ⟨rfl, rfl, rfl, Scope.sameShape_refl _⟩

theorem balanced_passing : Passing Balanced where
  refl := balanced_refl
  trans := Balanced.trans
  apply := balanced_background.apply
  receive m := ⟨rfl, rfl, rfl, Scope.sameShape_refl _⟩
  idle _ := ⟨rfl, rfl, rfl, Scope.sameShape_refl _⟩
  task {m deadline id task} _ := by
    have htaken : m.Balanced (m.popDue deadline).2 := ⟨rfl, rfl, rfl, Scope.sameShape_refl _⟩
    refine htaken.trans (balanced_background.runTask _ task fun output _ => ?_)
    exact (Run.balanced_closed.congruence.writeKey (pulseKey output) .zero).2 _
  waitUntil m deadline := ⟨rfl, rfl, rfl, Scope.sameShape_refl _⟩

theorem standing_background : Background fun m m' => m'.standing = m.standing where
  refl m := rfl
  trans h h' := h'.trans h
  tell m event := rfl
  abort m wish := rfl
  handler m h := m.standing_isolated [] _
  input m _ s v h := by
    obtain ⟨signals, indices, last, hkept⟩ := m.keepInput_eq s (s.coerce v)
    rw [hkept]
    rfl
  thread m f := m.standing_isolated [] _
  wait {m label w} h := standing_isolated { m with waits := m.waits.erase label } w.frames _
  received m data name := rfl
  network m f := rfl

end Machine

end ControlLogic
