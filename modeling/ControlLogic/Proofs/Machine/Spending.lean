import ControlLogic.Proofs.Machine.Isolation

/-!
Steps are spent and never given back. Code that interrupts other code has steps of its own, so the
steps of the code it interrupts stand still meanwhile.
-/

set_option autoImplicit false
set_option relaxedAutoImplicit false

namespace ControlLogic

/-- The settings are the same, and at least as many steps are taken. -/
structure Machine.Spends (m m' : Machine) : Prop where
  config : m'.config = m.config
  steps : m.steps ≤ m'.steps

namespace Machine

theorem spends_refl (m : Machine) : m.Spends m :=
  ⟨rfl, Nat.le_refl _⟩

theorem Spends.trans {a b c : Machine} (h : a.Spends b) (h' : b.Spends c) : a.Spends c :=
  ⟨h'.config.trans h.config, Nat.le_trans h.steps h'.steps⟩

private theorem spends_of_standing {m m' : Machine} (hbalanced : m.Balanced m')
    (hstanding : m'.standing = m.standing) : m.Spends m' :=
  ⟨hbalanced.config, Nat.le_of_eq (congrArg Standing.steps hstanding).symm⟩

end Machine

namespace Run

open Machine (Spends)

private theorem spends_scheduleWait (delay : Nat) (label : Option String) (body : List Stmt) :
    Relates Spends (scheduleWait delay label body) := by
  have hlabel : Relates Spends (waitLabel label) := by
    unfold waitLabel
    split
    · exact fun m => m.spends_refl
    · exact relates_modifyGet fun m => ⟨rfl, Nat.le_refl _⟩
  refine (relates_checkAbort Machine.spends_refl).bind Spends.trans fun _ =>
    hlabel.bind Spends.trans fun name => relates_inspect fun m => ?_
  split
  · exact relates_modify fun m => ⟨rfl, Nat.le_refl _⟩
  · exact relates_modify fun m => ⟨rfl, Nat.le_refl _⟩

theorem Primitive.spends {α : Type} {x : Run α} (h : Primitive x) : Relates Spends x := by
  cases h with
  | tick =>
    intro m
    rw [m.after_tick]
    exact ⟨rfl, Nat.le_succ _⟩
  | tryWrite key v =>
    intro m
    obtain ⟨target, -, hwritten⟩ | hsame := m.after_tryWrite key v
    · obtain ⟨scope, signals, indices, last, log, htouched⟩ := m.writeTo_eq key v target
      rw [hwritten, htouched]
      exact ⟨rfl, Nat.le_refl _⟩
    · rw [hsame]
      exact m.spends_refl
  | copyWhole frame parameter owner =>
    refine relates_modify fun m => ?_
    obtain ⟨scope, hcopied⟩ := m.copyWhole_eq frame parameter owner
    rw [hcopied]
    exact ⟨rfl, Nat.le_refl _⟩
  | plan delay h =>
    exact (relates_checkAbort Machine.spends_refl).bind Spends.trans fun _ =>
      relates_modify fun m => ⟨rfl, Nat.le_refl _⟩
  | scheduleWait delay label body => exact spends_scheduleWait delay label body
  | cancelWait name | retimeWait delay name =>
    refine relates_modify fun m => ?_
    split
    · exact ⟨rfl, Nat.le_refl _⟩
    · exact m.spends_refl
  | withFiles f | withNetwork f => exact relates_modifyGet fun m => ⟨rfl, Nat.le_refl _⟩
  | _ => exact relates_modify fun m => ⟨rfl, Nat.le_refl _⟩

theorem Elementary.spends {α : Type} {x : Run α} (h : Elementary x) : Relates Spends x :=
  h.relates Machine.spends_refl Spends.trans Primitive.spends

theorem spends_closed : Closed (Relates Spends) :=
  relates_closed Machine.spends_refl Spends.trans Elementary.spends

private theorem Relates.spends_inFrame {α : Type} {x : Run α} (hx : Relates Spends x)
    (frame : Frame) :
    Relates Spends (inFrame frame x) := by
  intro m
  rw [m.after_inFrame]
  obtain ⟨hconfig, hsteps⟩ := hx (m.enter frame)
  exact ⟨hconfig, hsteps⟩

theorem spends_respected {pump : Nat → Run Unit}
    (hpump : ∀ deadline, Relates Spends (pump deadline)) : Respected Spends pump where
  refl := Machine.spends_refl
  trans := Spends.trans
  elementary := Elementary.spends
  suspend delay what := by
    refine relates_inspect fun m => ?_
    split
    · exact Elementary.spends (.tell _)
    · exact spends_closed.congruence.checkAbort.2.bind Spends.trans fun _ => hpump _
  call heval hblock f args :=
    (spends_closed.congruence.callFunction (fun e => ⟨rfl, heval e⟩)
      (fun frame body => ⟨rfl, (hblock body).spends_inFrame frame⟩) f args).2

end Run

namespace Machine

private theorem spends_background : Background Spends where
  refl := spends_refl
  trans := Spends.trans
  tell m event :=
    spends_of_standing (balanced_background.tell m event) (standing_background.tell m event)
  abort m wish :=
    spends_of_standing (balanced_background.abort m wish) (standing_background.abort m wish)
  handler m h :=
    spends_of_standing (balanced_background.handler m h) (standing_background.handler m h)
  input m _ _ v h :=
    spends_of_standing (balanced_background.input m v h) (standing_background.input m v h)
  thread m f := spends_of_standing (balanced_background.thread m f) (standing_background.thread m f)
  wait h := spends_of_standing (balanced_background.wait h) (standing_background.wait h)
  received m data name :=
    spends_of_standing (balanced_background.received m data name)
      (standing_background.received m data name)
  network m f :=
    spends_of_standing (balanced_background.network m f) (standing_background.network m f)

theorem spends_passing : Passing Spends where
  refl := spends_refl
  trans := Spends.trans
  apply := spends_background.apply
  receive m := ⟨rfl, Nat.le_refl _⟩
  idle _ := ⟨rfl, Nat.le_refl _⟩
  task {m deadline id task} _ := by
    have htaken : m.Spends (m.popDue deadline).2 := ⟨rfl, Nat.le_refl _⟩
    have hpulse (m : Machine) (output : String) :
        m.Spends (m.after (Run.writeKey (pulseKey output) .zero)) :=
      (Run.spends_closed.congruence.writeKey (pulseKey output) .zero).2 m
    exact htaken.trans (spends_background.runTask _ task fun output _ => hpulse _ output)
  waitUntil m deadline := ⟨rfl, Nat.le_refl _⟩

end Machine

end ControlLogic
