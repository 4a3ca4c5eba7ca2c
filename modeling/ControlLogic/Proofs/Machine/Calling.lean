import ControlLogic.Proofs.Machine.Isolation

/-!
Calls of functions, at the depth they are tested at. A relation between machines that is respected
by elementary runs and by entering and leaving a call is respected by all code, though a call may be
entered only as long as calls are not nested too deep.
-/

set_option autoImplicit false
set_option relaxedAutoImplicit false

namespace ControlLogic

def Machine.Along (T : Machine → Machine → Prop) (m m' : Machine) : Prop :=
  T m m' ∧ m.Balanced m'

def Machine.Shallow (T : Machine → Machine → Prop) (m m' : Machine) : Prop :=
  m.depth < m.config.maxCallDepth → Machine.Along T m m'

/-- A relation between machines that can be followed from one machine to the next, and that is
respected by elementary runs and by entering and leaving a call. -/
structure Calling (T : Machine → Machine → Prop) : Prop where
  refl (m : Machine) : T m m
  trans {a b c : Machine} : T a b → T b c → T a c
  elementary {α : Type} {x : Run α} : Run.Elementary x → Run.Relates T x
  enter {m : Machine} (frame : Frame) : m.depth < m.config.maxCallDepth → T m (m.enter frame)
  leave (m : Machine) : T m m.leave

namespace Calling

open Machine (Along Shallow)

variable {T : Machine → Machine → Prop} (C : Calling T)
include C

private theorem along_refl (m : Machine) : Along T m m :=
  ⟨C.refl m, m.balanced_refl⟩

private theorem along_trans {a b c : Machine} (h : Along T a b) (h' : Along T b c) : Along T a c :=
  ⟨C.trans h.1 h'.1, h.2.trans h'.2⟩

private theorem along_elementary {α : Type} {x : Run α} (h : Run.Elementary x) :
    Run.Relates (Along T) x :=
  fun m => ⟨C.elementary h m, h.balanced m⟩

theorem closed : Run.Closed (Run.Relates (Along T)) :=
  Run.relates_closed C.along_refl C.along_trans C.along_elementary

private theorem shallow_trans {a b c : Machine} (h : Shallow T a b) (h' : Shallow T b c) :
    Shallow T a c := by
  intro hdepth
  obtain ⟨hT, hbalanced⟩ := h hdepth
  have hdepth' : b.depth < b.config.maxCallDepth := by
    rw [hbalanced.depth, hbalanced.config]
    exact hdepth
  exact C.along_trans ⟨hT, hbalanced⟩ (h' hdepth')

private theorem shallow_inFrame {α : Type} {x : Run α} (hx : Run.Relates (Along T) x)
    (frame : Frame) :
    Run.Relates (Shallow T) (Run.inFrame frame x) := by
  intro m hdepth
  obtain ⟨hT, hbalanced⟩ := hx (m.enter frame)
  rw [m.after_inFrame]
  exact ⟨C.trans (C.trans (C.enter frame hdepth) hT) (C.leave _), hbalanced.leave⟩

theorem callFunction {eval : Expr → Run Value} {block : List Stmt → Run Flow}
    (heval : ∀ e, Run.Relates (Along T) (eval e))
    (hblock : ∀ body, Run.Relates (Along T) (block body)) (f : FunctionDef) (args : List Expr) :
    Run.Relates (Along T) (Run.callFunction eval block f args) := by
  have hclosed : Run.Closed (Run.Relates (Shallow T)) :=
    Run.relates_closed (fun m _ => C.along_refl m) C.shallow_trans fun h m _ =>
      C.along_elementary h m
  have happly := (hclosed.congruence.applyFunction (fun e => ⟨rfl, fun m _ => heval e m⟩)
    (fun frame body => ⟨rfl, C.shallow_inFrame (hblock body) frame⟩) f args).2
  intro m
  change Along T m (m.after (if m.config.maxCallDepth ≤ m.depth then _ else _ : Run Value))
  split
  next => exact C.along_refl m
  next hdepth => exact happly m (Nat.not_le.mp hdepth)

theorem respected {pump : Nat → Run Unit}
    (hpump : ∀ deadline, Run.Relates (Along T) (pump deadline)) :
    Run.Respected (Along T) pump where
  refl := C.along_refl
  trans := C.along_trans
  elementary := C.along_elementary
  suspend delay what := by
    refine Run.relates_inspect fun m => ?_
    split
    · exact C.along_elementary (.tell _)
    · exact C.closed.congruence.checkAbort.2.bind C.along_trans fun _ => hpump _
  call := C.callFunction

theorem immediate : Run.Respected (Along T) Run.noPump :=
  C.respected fun _ => C.closed.pure ()

theorem immediateBlock (body : List Stmt) : Run.Relates T (Run.immediateBlock body) := by
  intro m
  rw [m.after_immediateBlock]
  exact (C.immediate.block m.fuel body m).1

theorem immediateCall (index : Nat) : Run.Relates T (Run.immediateCall index) := by
  intro m
  rw [m.after_immediateCall]
  exact (C.immediate.callAt m.fuel index [] m).1

end Calling

end ControlLogic
