import ControlLogic.Machine.Host
import ControlLogic.Proofs.Machine.Passage
import ControlLogic.Proofs.Network.Sockets

/-!
What a host can do with a machine. A relation between machines that is respected by stimuli, by work
that falls due and by the moves of the clock is respected by the passing of time; if it is also
respected by the single things a host does, it is respected by all of them one after another.
-/

set_option autoImplicit false
set_option relaxedAutoImplicit false

namespace ControlLogic

namespace Machine

/-- The settings, planned work, waits and the depth of calls are the same, and sockets are added to
the network at most. -/
structure Declares (m m' : Machine) : Prop where
  config : m'.config = m.config
  schedule : m'.schedule = m.schedule
  waits : m'.waits = m.waits
  depth : m'.depth = m.depth
  network : m.network.Grows m'.network

theorem declares_refl (m : Machine) : m.Declares m :=
  ⟨rfl, rfl, rfl, rfl, .refl⟩

theorem Declares.trans {a b c : Machine} (h : a.Declares b) (h' : b.Declares c) : a.Declares c :=
  ⟨h'.config.trans h.config, h'.schedule.trans h.schedule, h'.waits.trans h.waits,
    h'.depth.trans h.depth, h.network.trans h'.network⟩

private theorem declares_addGlobal (structures : List StructureDef) (m : Machine)
    (d : VariableDecl) :
    m.Declares (addGlobal structures m d) := by
  unfold addGlobal
  split
  · exact ⟨rfl, rfl, rfl, rfl, Network.Grows.refl.create _ _⟩
  · split
    · exact ⟨rfl, rfl, rfl, rfl, .refl⟩
    · exact ⟨rfl, rfl, rfl, rfl, .refl⟩

end Machine

/-- A relation between machines that can be followed from one machine to the next, and that is
respected by each thing that taking over a program does. -/
structure Declaring (T : Machine → Machine → Prop) : Prop where
  refl (m : Machine) : T m m
  trans {a b c : Machine} : T a b → T b c → T a c
  tell (m : Machine) (event : Event) : T m (m.tell event)
  program (m : Machine) (program : Program) (functions : Std.HashMap String Nat) :
    T m { m with program := program, functions := functions }
  constant (m : Machine) (name : String) (v : Value) : T m (m.addConstant name v)
  signals (type : SignalType) (m : Machine) (entry : SignalName) :
    T m (Machine.addSignals type m entry)
  global (structures : List StructureDef) (m : Machine) (d : VariableDecl) :
    T m (Machine.addGlobal structures m d)

namespace Declaring

variable {T : Machine → Machine → Prop} (D : Declaring T)
include D

theorem foldl {α : Type} {f : Machine → α → Machine} (hf : ∀ m a, T m (f m a)) (as : List α)
    {m m' : Machine} (h : T m m') : T m (as.foldl f m') :=
  D.trans h (Run.relates_foldl D.refl D.trans hf as m')

theorem install (m : Machine) (program : Program) : T m (m.install program) := by
  unfold Machine.install
  refine D.foldl (fun m c => D.constant m _ _) _ ?_
  refine D.foldl (fun m d => D.global _ m d) _ ?_
  refine D.foldl (fun m d => ?_) _ ?_
  · exact D.foldl (fun m entry => D.signals d.type m entry) _ (D.refl m)
  refine D.foldl (fun m c => D.constant m _ _) _ ?_
  exact D.program m program _

theorem load (m : Machine) (text : String) : T m.reset (m.load text).2 := by
  refine D.trans ?_ (D.install _ _)
  refine D.foldl (fun m n => D.tell m _) _ ?_
  exact D.foldl (fun m e => D.tell m _) _ (D.refl _)

end Declaring

namespace Machine

theorem declares_declaring : Declaring Declares where
  refl := declares_refl
  trans := .trans
  tell _ _ := ⟨rfl, rfl, rfl, rfl, .refl⟩
  program _ _ _ := ⟨rfl, rfl, rfl, rfl, .refl⟩
  constant _ _ _ := ⟨rfl, rfl, rfl, rfl, .refl⟩
  signals _ _ _ := ⟨rfl, rfl, rfl, rfl, .refl⟩
  global := declares_addGlobal

theorem declares_load (m : Machine) (text : String) : m.reset.Declares (m.load text).2 :=
  declares_declaring.load m text

end Machine

/-- A relation between machines that can be followed from one machine to the next, and that is
respected by each thing that happens while time passes up to a deadline, a stimulus being taken and
applied as one. -/
structure PumpedTo (deadline : Nat) (T : Machine → Machine → Prop) : Prop where
  refl (m : Machine) : T m m
  trans {a b c : Machine} : T a b → T b c → T a c
  take {m : Machine} {stimulus : Stimulus} (h : m.receive.1 = some stimulus) :
    T m (m.receive.2.apply stimulus)
  idle {m : Machine} (h : (m.popDue deadline).1 = none) : T m (m.popDue deadline).2
  task {m : Machine} {id : Nat} {task : Task} (h : (m.popDue deadline).1 = some (id, task)) :
    T m ((m.popDue deadline).2.runTask task)
  wait {m : Machine} (h : m.receive.1 = none) : T m (m.waitUntil deadline).2

/-- A relation between machines that can be followed from one machine to the next, and that is
respected by each thing that happens while time passes, a stimulus being taken and applied as one.
-/
structure Pumped (T : Machine → Machine → Prop) : Prop where
  refl (m : Machine) : T m m
  trans {a b c : Machine} : T a b → T b c → T a c
  take {m : Machine} {stimulus : Stimulus} (h : m.receive.1 = some stimulus) :
    T m (m.receive.2.apply stimulus)
  idle {m : Machine} {deadline : Nat} (h : (m.popDue deadline).1 = none) :
    T m (m.popDue deadline).2
  task {m : Machine} {deadline id : Nat} {task : Task}
    (h : (m.popDue deadline).1 = some (id, task)) : T m ((m.popDue deadline).2.runTask task)
  wait {m : Machine} {deadline : Nat} (h : m.receive.1 = none) : T m (m.waitUntil deadline).2

namespace Machine

theorem receive_none {m : Machine} (h : m.receive.1 = none) :
    m.schedule.inbox = [] ∧ m.receive.2 = m := by
  unfold receive Schedule.receive at h ⊢
  cases hinbox : m.schedule.inbox with
  | nil => exact ⟨rfl, rfl⟩
  | cons stimulus rest =>
    rw [hinbox] at h
    cases h

theorem receive_some {m : Machine} {stimulus : Stimulus} (h : m.receive.1 = some stimulus) :
    ∃ rest, m.schedule.inbox = stimulus :: rest ∧
      m.receive.2 = { m with schedule := { m.schedule with inbox := rest } } := by
  unfold receive Schedule.receive at h ⊢
  cases hinbox : m.schedule.inbox with
  | nil =>
    rw [hinbox] at h
    cases h
  | cons first rest =>
    rw [hinbox] at h
    cases h
    exact ⟨rest, rfl, rfl⟩

private theorem waitUntil_of_receive {m : Machine} {stimulus : Stimulus}
    (h : m.receive.1 = some stimulus) (deadline : Nat) : m.waitUntil deadline = m.receive := by
  obtain ⟨rest, hinbox, -⟩ := receive_some h
  unfold waitUntil receive Schedule.waitUntil Schedule.receive
  rw [hinbox]

private theorem waitUntil_of_receive_none {m : Machine} (h : m.receive.1 = none) (deadline : Nat) :
    (m.waitUntil deadline).1 = none := by
  obtain ⟨hinbox, -⟩ := receive_none h
  unfold waitUntil Schedule.waitUntil
  rw [hinbox]

private theorem after_accept (m : Machine) (stimulus : Stimulus) :
    m.after (Run.accept stimulus) = m.apply stimulus := by
  have hsame (m' : Machine) : m'.after Run.checkAbort = m' :=
    Run.relates_checkAbort (T := fun m m' => m' = m) (fun _ => rfl) m'
  change (m.apply stimulus).after (if stimulus = .stop then Run.checkAbort else pure ()) = _
  split
  · exact hsame _
  · rfl

end Machine

namespace Run

/-- The end of a round of passing time: the clock moves on, unless a stimulus waits. -/
def waiting (deadline : Nat) : Run (Option Unit) := do
  if let some stimulus ← modifyGet (·.waitUntil deadline) then accept stimulus
  return none

/-- The rest of a round of passing time where no work is due: the clock moves on, unless the
deadline is reached. -/
def awaiting (deadline : Nat) : Run (Option Unit) := do
  if deadline ≤ (← get).now then return some ()
  else
    if let some stimulus ← modifyGet (·.waitUntil deadline) then accept stimulus
    return none

def working (deadline : Nat) : Run (Option Unit) := do
  match ← modifyGet (·.popDue deadline) with
  | some (_, task) =>
    modify (·.runTask task)
    return none
  | none => awaiting deadline

theorem pumpRound_eq (deadline : Nat) :
    pumpRound deadline = checkAbort >>= fun _ => get >>= fun m =>
      acceptWaiting m.schedule.inbox.length >>= fun _ => working deadline :=
  rfl

theorem pumpRound_of_accepted {m m' : Machine} (h : m.mustAbort = false)
    (haccept : acceptWaiting m.schedule.inbox.length m = .ok () m') (deadline : Nat) :
    pumpRound deadline m = working deadline m' := by
  rw [pumpRound_eq, bind_ok (checkAbort_of_not h), get_bind, bind_ok haccept]

theorem pumpRound_of_empty {m : Machine} (h : m.mustAbort = false) (hinbox : m.schedule.inbox = [])
    (deadline : Nat) : pumpRound deadline m = working deadline m :=
  pumpRound_of_accepted h (by rw [hinbox]; rfl) deadline

theorem working_of_due {m : Machine} {deadline id : Nat} {task : Task}
    (h : (m.popDue deadline).1 = some (id, task)) :
    working deadline m = .ok none ((m.popDue deadline).2.runTask task) := by
  unfold working
  rw [modifyGet_bind, h]
  rfl

theorem awaiting_of_le {m : Machine} {deadline : Nat} (h : deadline ≤ m.now) :
    awaiting deadline m = .ok (some ()) m := by
  unfold awaiting
  rw [get_bind, if_pos h]
  rfl

theorem working_of_idle {m : Machine} {deadline : Nat} (h : (m.popDue deadline).1 = none) :
    working deadline m = awaiting deadline (m.popDue deadline).2 := by
  unfold working
  rw [modifyGet_bind, h]

end Run

namespace PumpedTo

variable {deadline : Nat} {T : Machine → Machine → Prop} (P : PumpedTo deadline T)
include P

theorem pure {α : Type} (a : α) : Run.Relates T (Pure.pure a) :=
  fun m => P.refl m

theorem accept {m : Machine} {stimulus : Stimulus} (h : m.receive.1 = some stimulus) :
    T m (m.receive.2.after (Run.accept stimulus)) := by
  rw [Machine.after_accept]
  exact P.take h

theorem acceptWaiting (n : Nat) : Run.Relates T (Run.acceptWaiting n) := by
  induction n with
  | zero => exact P.pure ()
  | succ n ih =>
    intro m
    unfold Run.acceptWaiting Machine.after
    rw [Run.modifyGet_bind]
    cases h : m.receive.1 with
    | some stimulus => exact Run.relates_after_bind (T := T) P.trans (P.accept h) fun _ => ih
    | none =>
      rw [(Machine.receive_none h).2]
      exact P.refl m

theorem waiting : Run.Relates T (Run.waiting deadline) := by
  intro m
  unfold Run.waiting Machine.after
  rw [Run.modifyGet_bind]
  cases h : m.receive.1 with
  | some stimulus =>
    rw [Machine.waitUntil_of_receive h, h]
    exact Run.relates_after_bind (T := T) P.trans (P.accept h) fun _ => P.pure _
  | none =>
    rw [Machine.waitUntil_of_receive_none h]
    exact P.wait h

theorem awaiting : Run.Relates T (Run.awaiting deadline) := by
  refine Run.relates_inspect fun m => ?_
  split
  · exact P.pure _
  · exact P.waiting

theorem working : Run.Relates T (Run.working deadline) := by
  intro m
  unfold Run.working Machine.after
  rw [Run.modifyGet_bind]
  cases h : (m.popDue deadline).1 with
  | none => exact P.trans (P.idle h) (P.awaiting _)
  | some next => exact P.task h

theorem pumpRound : Run.Relates T (Run.pumpRound deadline) := by
  rw [Run.pumpRound_eq]
  refine (Run.relates_checkAbort P.refl).bind P.trans fun _ => Run.relates_inspect fun m => ?_
  exact (P.acceptWaiting _).bind P.trans fun _ => P.working

theorem pumpRounds (n : Nat) : Run.Relates T (Run.repeatUntil (Run.pumpRound deadline) n) := by
  induction n with
  | zero => exact fun m => P.refl m
  | succ n ih =>
    refine P.pumpRound.bind P.trans fun last => ?_
    cases last with
    | none => exact ih
    | some a => exact P.pure a

theorem pump : Run.Relates T (Run.pump deadline) :=
  fun m => P.pumpRounds m.config.rounds m

end PumpedTo

namespace Pumped

variable {T : Machine → Machine → Prop} (P : Pumped T)
include P

theorem and {U : Machine → Machine → Prop} (Q : Pumped U) :
    Pumped fun m m' => T m m' ∧ U m m' where
  refl m := ⟨P.refl m, Q.refl m⟩
  trans h h' := ⟨P.trans h.1 h'.1, Q.trans h.2 h'.2⟩
  take h := ⟨P.take h, Q.take h⟩
  idle h := ⟨P.idle h, Q.idle h⟩
  task h := ⟨P.task h, Q.task h⟩
  wait h := ⟨P.wait h, Q.wait h⟩

theorem pumpedTo (deadline : Nat) : PumpedTo deadline T where
  refl := P.refl
  trans := P.trans
  take := P.take
  idle := P.idle
  task := P.task
  wait := P.wait

theorem pure {α : Type} (a : α) : Run.Relates T (Pure.pure a) :=
  fun m => P.refl m

theorem working (deadline : Nat) : Run.Relates T (Run.working deadline) :=
  (P.pumpedTo deadline).working

theorem pumpRound (deadline : Nat) : Run.Relates T (Run.pumpRound deadline) :=
  (P.pumpedTo deadline).pumpRound

theorem pumpRounds (deadline n : Nat) :
    Run.Relates T (Run.repeatUntil (Run.pumpRound deadline) n) :=
  (P.pumpedTo deadline).pumpRounds n

theorem pump (deadline : Nat) : Run.Relates T (Run.pump deadline) :=
  (P.pumpedTo deadline).pump

end Pumped

/-- A relation between machines that can be followed from one machine to the next, and that is
respected by each thing that happens while time passes. -/
structure Passing (T : Machine → Machine → Prop) : Prop where
  refl (m : Machine) : T m m
  trans {a b c : Machine} : T a b → T b c → T a c
  apply (m : Machine) (stimulus : Stimulus) : T m (m.apply stimulus)
  receive (m : Machine) : T m m.receive.2
  idle {m : Machine} {deadline : Nat} (h : (m.popDue deadline).1 = none) :
    T m (m.popDue deadline).2
  task {m : Machine} {deadline id : Nat} {task : Task}
    (h : (m.popDue deadline).1 = some (id, task)) : T m ((m.popDue deadline).2.runTask task)
  waitUntil (m : Machine) (deadline : Nat) : T m (m.waitUntil deadline).2

namespace Passing

variable {T : Machine → Machine → Prop} (P : Passing T)
include P

theorem pumped : Pumped T where
  refl := P.refl
  trans := P.trans
  take _ := P.trans (P.receive _) (P.apply _ _)
  idle := P.idle
  task := P.task
  wait _ := P.waitUntil _ _

theorem and {U : Machine → Machine → Prop} (Q : Passing U) :
    Pumped fun m m' => T m m' ∧ U m m' :=
  P.pumped.and Q.pumped

theorem pump (deadline : Nat) : Run.Relates T (Run.pump deadline) :=
  P.pumped.pump deadline

theorem either {pump : Nat → Run Unit} (hpump : pump = Run.pump ∨ pump = Run.noPump)
    (deadline : Nat) : Run.Relates T (pump deadline) := by
  obtain rfl | rfl := hpump
  · exact P.pump deadline
  · exact P.refl

end Passing

/-- What a host can do with a machine. -/
inductive HostAction where
  | load (text : String)
  | reset
  | runMain
  | setDigital (name : String) (n : Int)
  | setAnalog (name : String) (n : Int)
  | setSerial (name text : String)
  | advance (duration : Nat)
  | settle
  | scheduleStimulus (delay : Nat) (stimulus : Stimulus)
  | send (stimulus : Stimulus)
  | requestStop
  | changeFiles (f : FileSystem → FileSystem)
  | changeNetwork (f : Network → Network)

def HostAction.run (m : Machine) : HostAction → Machine
  | load text => (m.load text).2
  | reset => m.reset
  | runMain => m.runMain.2
  | setDigital name n => m.setDigital name n
  | setAnalog name n => m.setAnalog name n
  | setSerial name text => m.setSerial name text
  | advance duration => m.advance duration
  | settle => m.settle
  | scheduleStimulus delay stimulus => (m.scheduleStimulus delay stimulus).2
  | send stimulus => m.send stimulus
  | requestStop => m.requestStop
  | changeFiles f => { m with files := f m.files }
  | changeNetwork f => { m with network := f m.network }

def Machine.afterActions (m : Machine) (actions : List HostAction) : Machine :=
  actions.foldl HostAction.run m

/-- A relation between machines that is also respected by what goes on around the passing of time
while a host lets the machine work. -/
structure Working (T : Machine → Machine → Prop) : Prop extends Pumped T where
  abort (m : Machine) (wish : Bool) : T m { m with abort := wish }
  tell (m : Machine) (event : Event) : T m (m.tell event)
  main {m : Machine} {locals : List VariableDecl} {frame : Frame} (body : List Stmt)
    (h : Frame.declareLocals m.program.structures locals {} = .ok frame) :
    T m (((m.beginMain frame).after (Run.block Run.pump m.fuel body)).endMain m.scope.frames)
  drain (m : Machine) : T m m.drain

namespace Working

variable {T : Machine → Machine → Prop} (W : Working T)
include W

theorem passUntil (m : Machine) (deadline : Nat) : T m (m.passUntil deadline) :=
  W.pump deadline m

theorem conclude (m : Machine) (r : Except Unwind Flow) : T m (m.conclude r).2 := by
  cases r with
  | ok flow => exact W.refl m
  | error u =>
    cases u with
    | stepLimit => exact W.tell m _
    | fault f pos => exact W.tell m _
    | _ => exact W.refl m

theorem runBody {m : Machine} {locals : List VariableDecl} {frame : Frame} (body : List Stmt)
    (h : Frame.declareLocals m.program.structures locals {} = .ok frame) :
    T m (m.runBody frame body).2 := by
  have hended := W.main body h
  unfold Machine.runBody
  cases hrun : Run.block Run.pump m.fuel body (m.beginMain frame) with
  | ok flow m' =>
    rw [Machine.after_ok hrun] at hended
    exact W.trans hended (W.conclude _ _)
  | error u m' =>
    rw [Machine.after_error hrun] at hended
    exact W.trans hended (W.conclude _ _)

theorem runMain (m : Machine) : T m m.runMain.2 := by
  refine W.trans (W.abort m false) ?_
  unfold Machine.runMain
  dsimp only
  split
  next => exact W.refl _
  next main hmain =>
    split
    next frame h => exact W.runBody main.body h
    next f pos h => exact W.tell _ _

theorem settleRounds (n : Nat) (m : Machine) : T m (Machine.settleRounds n m) := by
  induction n generalizing m with
  | zero => exact W.refl m
  | succ n ih =>
    unfold Machine.settleRounds
    dsimp only
    split
    · exact W.trans (W.trans (W.drain m) (W.passUntil _ _)) (ih _)
    · exact W.drain m

theorem settle (m : Machine) : T m m.settle := by
  unfold Machine.settle
  exact W.settleRounds Machine.settleLimit m

end Working

/-- A relation between machines that is also respected by each single thing a host does, other than
changing the network. -/
structure Operating (T : Machine → Machine → Prop) : Prop extends Passing T where
  load (m : Machine) (text : String) : T m (m.load text).2
  reset (m : Machine) : T m m.reset
  abort (m : Machine) (wish : Bool) : T m { m with abort := wish }
  tell (m : Machine) (event : Event) : T m (m.tell event)
  main {m : Machine} {locals : List VariableDecl} {frame : Frame} (body : List Stmt)
    (h : Frame.declareLocals m.program.structures locals {} = .ok frame) :
    T m (((m.beginMain frame).after (Run.block Run.pump m.fuel body)).endMain m.scope.frames)
  drop (m : Machine) : T m { m with schedule := { m.schedule with inbox := [] } }
  plan (m : Machine) (delay : Nat) (stimulus : Stimulus) :
    T m (m.scheduleStimulus delay stimulus).2
  send (m : Machine) (stimulus : Stimulus) : T m (m.send stimulus)
  files (m : Machine) (f : FileSystem → FileSystem) : T m { m with files := f m.files }

/-- A relation between machines that is also respected by each single thing a host does. -/
structure Hosting (T : Machine → Machine → Prop) : Prop extends Operating T where
  network (m : Machine) (f : Network → Network) : T m { m with network := f m.network }

namespace Operating

variable {T : Machine → Machine → Prop} (H : Operating T)
include H

theorem drain (m : Machine) : T m m.drain :=
  H.trans (H.drop m) (Run.relates_foldl H.refl H.trans H.apply _ _)

theorem working : Working T where
  toPumped := H.toPassing.pumped
  abort := H.abort
  tell := H.tell
  main := H.main
  drain := H.drain

theorem action (m : Machine) (action : HostAction)
    (h : ∀ f, action = .changeNetwork f → T m { m with network := f m.network }) :
    T m (action.run m) := by
  cases action with
  | load text => exact H.load m text
  | reset => exact H.reset m
  | runMain => exact H.working.runMain m
  | setDigital name n => exact H.apply m (.digital name n)
  | setAnalog name n => exact H.apply m (.analog name n)
  | setSerial name text => exact H.apply m (.serial name text)
  | advance duration => exact H.pump _ m
  | settle => exact H.working.settle m
  | scheduleStimulus delay stimulus => exact H.plan m delay stimulus
  | send stimulus => exact H.send m stimulus
  | requestStop => exact H.trans (H.abort m true) (H.send m.stop .stop)
  | changeFiles f => exact H.files m f
  | changeNetwork f => exact h f rfl

theorem actions {actions : List HostAction}
    (h : ∀ f, .changeNetwork f ∈ actions → ∀ m : Machine, T m { m with network := f m.network })
    (m : Machine) : T m (m.afterActions actions) := by
  induction actions generalizing m with
  | nil => exact H.refl m
  | cons first rest ih =>
    refine H.trans (H.action m first fun f hf => h f (hf ▸ List.mem_cons_self) m) ?_
    exact ih (fun f hf => h f (List.mem_cons_of_mem _ hf)) (first.run m)

end Operating

namespace Hosting

variable {T : Machine → Machine → Prop} (H : Hosting T)
include H

theorem action (m : Machine) (action : HostAction) : T m (action.run m) :=
  H.toOperating.action m action fun f _ => H.network m f

theorem actions (m : Machine) (actions : List HostAction) : T m (m.afterActions actions) :=
  H.toOperating.actions (fun f _ m => H.network m f) m

end Hosting

end ControlLogic
