import ControlLogic.Machine.Task
import ControlLogic.Proofs.Machine.Passage

/-!
What is done in the background: handlers, the bodies of waits, functions started by themselves, and
the inputs and socket texts that start them. A relation between machines that these respect one by
one is respected by every stimulus and by all work that was put off.
-/

set_option autoImplicit false
set_option relaxedAutoImplicit false

namespace ControlLogic

open Machine

/-- A relation between machines that can be followed from one machine to the next, and that is
respected by handlers. -/
structure Handling (T : Machine → Machine → Prop) : Prop where
  refl (m : Machine) : T m m
  trans {a b c : Machine} : T a b → T b c → T a c
  tell (m : Machine) (event : Event) : T m (m.tell event)
  handler (m : Machine) (h : Handler) : T m (m.after (Run.isolated [] (Run.handlerBody h)))

/-- A relation between machines that is also respected by the inputs that start handlers. -/
structure Reacts (T : Machine → Machine → Prop) : Prop extends Handling T where
  abort (m : Machine) (wish : Bool) : T m { m with abort := wish }
  input (m : Machine) {name : String} {s : Signal} (v : Value)
    (h : m.signals.signal? name = some s) : T m (m.keepInput s (s.coerce v))

/-- What is done in the background besides running handlers, each from any machine. -/
structure Errands (T : Machine → Machine → Prop) : Prop where
  thread (m : Machine) (index : Nat) :
    T m (m.after (Run.isolated [] (Run.immediateCall index)))
  wait {m : Machine} {label : String} {w : PendingWait} (h : m.waits.get? label = some w) :
    T m (({ m with waits := m.waits.erase label } : Machine).after
      (Run.isolated w.frames (Run.immediateBlock w.body)))
  received (m : Machine) (data name : String) :
    T m { m with scope.globals := addReceived data m.scope.globals name }
  network (m : Machine) (f : Network → Network) : T m { m with network := f m.network }

/-- A relation between machines that is respected by handlers and by the other things done in the
background, but for stimuli. -/
structure Attending (T : Machine → Machine → Prop) : Prop extends Handling T, Errands T

/-- A relation between machines that is also respected by stimuli as a whole. -/
structure Serving (T : Machine → Machine → Prop) : Prop extends Attending T where
  apply (m : Machine) (stimulus : Stimulus) : T m (m.apply stimulus)

/-- A relation between machines that is respected by the inputs that start handlers and by the other
things done in the background. -/
structure Background (T : Machine → Machine → Prop) : Prop extends Reacts T, Errands T

private theorem Machine.signal?_of_input {m : Machine} {name : String} {types : List SignalType}
    {s : Signal} (h : m.input name types = .ok s) : m.signals.signal? name = some s := by
  unfold input at h
  split at h
  · cases h
  next s' hs =>
    split at h
    · cases h
      exact hs
    · cases h

namespace Handling

variable {T : Machine → Machine → Prop} (B : Handling T)
include B

theorem background {α : Type} {m m' : Machine} {x : Run α} (h : T m (m'.after x)) :
    T m (m'.background x) := by
  obtain hsame | ⟨event, htold⟩ := m'.background_eq x
  · rw [hsame]
    exact h
  · rw [htold]
    exact B.trans h (B.tell _ event)

theorem runHandler (m : Machine) (h : Handler) : T m (m.runHandler h) :=
  B.background (B.handler m h)

theorem dispatch (m : Machine) (trigger : Trigger) (names : List String) :
    T m (m.dispatch trigger names) :=
  Run.relates_foldl B.refl B.trans B.runHandler _ m

theorem receivedAll (received : ∀ (m : Machine) (data name : String),
    T m { m with scope.globals := addReceived data m.scope.globals name })
    (data : String) (names : List String) (m : Machine) :
    T m { m with scope.globals := names.foldl (addReceived data) m.scope.globals } := by
  induction names generalizing m with
  | nil => exact B.refl m
  | cons name names ih => exact B.trans (received m data name) (ih _)

theorem deliver (received : ∀ (m : Machine) (data name : String),
    T m { m with scope.globals := addReceived data m.scope.globals name })
    (network : ∀ (m : Machine) (f : Network → Network), T m { m with network := f m.network })
    (m : Machine) (id : Int) (data : String) : T m (m.deliver id data) := by
  have hnetwork := network m fun net => (net.deliver id data).2
  unfold Machine.deliver
  dsimp only
  split
  · exact B.trans (B.trans hnetwork (B.receivedAll received data _ _)) (B.dispatch _ _ _)
  · exact hnetwork

theorem completeConnect
    (network : ∀ (m : Machine) (f : Network → Network), T m { m with network := f m.network })
    (m : Machine) (id : Int) : T m (m.completeConnect id) := by
  have hnetwork := network m fun net => (net.completeConnect id).2
  unfold Machine.completeConnect
  dsimp only
  split
  · exact B.trans hnetwork (B.dispatch _ _ _)
  · exact hnetwork

end Handling

namespace Reacts

variable {T : Machine → Machine → Prop} (B : Reacts T)
include B

theorem drive {m : Machine} {name : String} {s : Signal} (h : m.signals.signal? name = some s)
    (v : Value) (trigger : Trigger) : T m (m.drive s (s.coerce v) trigger) :=
  B.trans (B.input m v h) (B.dispatch _ trigger (signalNames s))

theorem setDigital (m : Machine) (name : String) (n : Int) : T m (m.setDigital name n) := by
  unfold Machine.setDigital
  split
  · exact B.tell m _
  next s h =>
    dsimp only
    split
    · exact B.refl m
    · exact B.drive (signal?_of_input h) _ _

theorem setAnalog (m : Machine) (name : String) (n : Int) : T m (m.setAnalog name n) := by
  unfold Machine.setAnalog
  split
  · exact B.tell m _
  next s h =>
    dsimp only
    split
    · exact B.refl m
    · exact B.drive (signal?_of_input h) _ _

theorem setSerial (m : Machine) (name text : String) : T m (m.setSerial name text) := by
  unfold Machine.setSerial
  split
  · exact B.tell m _
  next s h =>
    dsimp only
    split
    · exact B.drive (signal?_of_input h) _ _
    · split
      · exact B.refl m
      · exact B.drive (signal?_of_input h) _ _

theorem apply (m : Machine) (stimulus : Stimulus) : T m (m.apply stimulus) := by
  cases stimulus with
  | digital name n => exact B.setDigital m name n
  | analog name n => exact B.setAnalog m name n
  | serial name text => exact B.setSerial m name text
  | stop => exact B.abort m true

end Reacts

namespace Attending

variable {T : Machine → Machine → Prop} (B : Attending T)
include B

theorem runWait (m : Machine) (label : String) : T m (m.runWait label) := by
  unfold Machine.runWait
  split
  next w h => exact B.background (B.wait h)
  next => exact B.refl m

/-- Work that was put off respects the relation if stimuli, and driving an output low, do where they
have to. -/
theorem runTask (m : Machine) (task : Task)
    (hpulse : ∀ output, task = .pulseEnd output →
      T m (m.after (Run.writeKey (pulseKey output) .zero)))
    (hstimulus : ∀ stimulus, task = .stimulus stimulus → T m (m.apply stimulus)) :
    T m (m.runTask task) := by
  cases task with
  | waitBody label => exact B.runWait m label
  | spawn function =>
    simp only [Machine.runTask]
    split
    next f h => exact B.thread m f
    next => exact B.refl m
  | pulseEnd output => exact B.background (hpulse output rfl)
  | stimulus stimulus => exact hstimulus stimulus rfl
  | socketConnected id => exact B.toHandling.completeConnect B.network m id
  | socketDeliver id data => exact B.toHandling.deliver B.received B.network m id data
  | socketEvent trigger id => exact B.dispatch m trigger _

end Attending

namespace Serving

variable {T : Machine → Machine → Prop} (B : Serving T)
include B

theorem runTask (m : Machine) (task : Task)
    (hpulse : ∀ output, task = .pulseEnd output →
      T m (m.after (Run.writeKey (pulseKey output) .zero))) : T m (m.runTask task) :=
  B.toAttending.runTask m task hpulse fun stimulus _ => B.apply m stimulus

end Serving

namespace Background

variable {T : Machine → Machine → Prop} (B : Background T)
include B

private theorem serving : Serving T where
  toHandling := B.toHandling
  toErrands := B.toErrands
  apply := B.apply

theorem runTask (m : Machine) (task : Task)
    (hpulse : ∀ output, task = .pulseEnd output →
      T m (m.after (Run.writeKey (pulseKey output) .zero))) : T m (m.runTask task) :=
  B.serving.runTask m task hpulse

end Background

end ControlLogic
