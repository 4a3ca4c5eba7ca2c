import ControlLogic.Proofs.Machine.Calling

/-!
Traces of a machine while a host works with it, with the acts on record. A call is entered only as
long as calls are not nested too deep; a timer is taken off together with what its work does first,
so that a trace goes through no moment at which a timer is being taken. All a host can do, and all
code it runs, goes along traces.
-/

set_option autoImplicit false
set_option relaxedAutoImplicit false

namespace ControlLogic

namespace Machine

/-- One thing that code does: one that an elementary run does, or a call is entered or left. -/
inductive Work : Machine → List Act → Machine → Prop where
  | does {m m' : Machine} {acts : List Act} (h : m.Does acts m') : Work m acts m'
  | enter {m : Machine} (frame : Frame) (h : m.depth < m.config.maxCallDepth) :
    Work m [] (m.enter frame)
  | leave (m : Machine) : Work m [] m.leave

end Machine

/-- One moment of a machine follows on another, and the acts on record in between. -/
inductive Move : Moment → List Act → Moment → Prop where
  | code {m m' : Machine} {acts : List Act} (k : List Around) (h : m.Work acts m') :
    Move ⟨m, k⟩ acts ⟨m', k⟩
  | abort (m : Machine) (k : List Around) (wish : Bool) :
    Move ⟨m, k⟩ [] ⟨{ m with abort := wish }, k⟩
  /- Code that interrupts other code. -/
  | interrupt (m : Machine) (k : List Around) :
    Move ⟨m, k⟩ [] ⟨m.isolate [], .interrupted m.standing :: k⟩
  | beginHandler (m : Machine) (k : List Around) (frame : Frame) :
    Move ⟨m, k⟩ [] ⟨{ m with scope := m.scope.push frame }, k⟩
  | resume (m : Machine) (k : List Around) (standing : Standing) :
    Move ⟨m, .interrupted standing :: k⟩ [] ⟨m.resume standing, k⟩
  /- The passing of time. -/
  | clock {m : Machine} (k : List Around) {s : Schedule Task} (h : m.schedule.Change [] s)
    (htasks : s.tasks = m.schedule.tasks) (hnext : s.nextId = m.schedule.nextId) :
    Move ⟨m, k⟩ [] ⟨{ m with schedule := s }, k⟩
  | take {m : Machine} (k : List Around) {deadline timer : Nat} {task : Task}
    (h : (m.popDue deadline).1 = some (timer, task))
    (hwait : ∀ label, task = .waitBody label → m.waits.get? label = none) :
    Move ⟨m, k⟩ [.take timer (m.popDue deadline).2.now task] ⟨(m.popDue deadline).2, k⟩
  | beginWait {m : Machine} (k : List Around) {deadline timer : Nat} {label : String}
    {w : PendingWait} (h : (m.popDue deadline).1 = some (timer, .waitBody label))
    (hw : m.waits.get? label = some w) :
    Move ⟨m, k⟩ [.begin label timer (m.popDue deadline).2.now w.body]
      ⟨{ (m.popDue deadline).2 with waits := m.waits.erase label }.isolate w.frames,
        .interrupted m.standing :: k⟩
  | complete {m : Machine} (k : List Around) {deadline timer : Nat} {socket : Int}
    (h : (m.popDue deadline).1 = some (timer, .socketConnected socket)) :
    Move ⟨m, k⟩ [.take timer (m.popDue deadline).2.now (.socketConnected socket)]
      ⟨{ (m.popDue deadline).2 with network := (m.network.completeConnect socket).2 }, k⟩
  | deliver {m : Machine} (k : List Around) {deadline timer : Nat} {socket : Int} {data : String}
    (h : (m.popDue deadline).1 = some (timer, .socketDeliver socket data)) :
    Move ⟨m, k⟩ [.take timer (m.popDue deadline).2.now (.socketDeliver socket data)]
      ⟨{ (m.popDue deadline).2 with network := (m.network.deliver socket data).2 }, k⟩
  /- What a host does. -/
  | reset (m : Machine) (k : List Around) : Move ⟨m, k⟩ [.clear] ⟨m.reset, k⟩
  | load (m : Machine) (k : List Around) (text : String) :
    Move ⟨m, k⟩ [.clear] ⟨(m.load text).2, k⟩
  | beginMain (m : Machine) (k : List Around) (frame : Frame) :
    Move ⟨m, k⟩ [] ⟨m.beginMain frame, .host m.scope.frames :: k⟩
  | endMain (m : Machine) (k : List Around) (frames : List Frame) :
    Move ⟨m, .host frames :: k⟩ [] ⟨m.endMain frames, k⟩
  | stimulus (m : Machine) (k : List Around) (delay : Nat) (stimulus : Stimulus) :
    Move ⟨m, k⟩ [.plan m.schedule.nextId m.now delay (.stimulus stimulus)]
      ⟨(m.scheduleStimulus delay stimulus).2, k⟩
  | rewire (m : Machine) (k : List Around) (f : Network → Network) :
    Move ⟨m, k⟩ [.rewire] ⟨{ m with network := f m.network }, k⟩

/-- Moments of a machine one after another, and the acts on record, the latest first. -/
abbrev Trace : Moment → List Act → Moment → Prop :=
  Chain Move

def Moment.Reaches (s s' : Moment) : Prop :=
  ∃ acts, Trace s acts s'

namespace Moment.Reaches

theorem refl (s : Moment) : s.Reaches s :=
  ⟨[], .refl s⟩

theorem trans {a b c : Moment} (h : a.Reaches b) (h' : b.Reaches c) : a.Reaches c := by
  obtain ⟨history, htrace⟩ := h
  obtain ⟨later, hlater⟩ := h'
  exact ⟨later ++ history, htrace.trans hlater⟩

theorem move {a b c : Moment} {acts : List Act} (h : a.Reaches b) (h' : Move b acts c) :
    a.Reaches c := by
  obtain ⟨history, htrace⟩ := h
  exact ⟨acts ++ history, htrace.step h'⟩

theorem single {a b : Moment} {acts : List Act} (h : Move a acts b) : a.Reaches b :=
  (refl a).move h

end Moment.Reaches

/-- One machine comes after another one on some trace, with the same around it. -/
def Machine.Reaches (m m' : Machine) : Prop :=
  ∀ k : List Around, Moment.Reaches ⟨m, k⟩ ⟨m', k⟩

def Machine.Works (m m' : Machine) : Prop :=
  ∃ acts, Chain Machine.Work m acts m'

/-- A relation between machines that can be followed from one machine to the next, and that is
respected by each thing code does. -/
structure Coding (T : Machine → Machine → Prop) : Prop where
  refl (m : Machine) : T m m
  trans {a b c : Machine} : T a b → T b c → T a c
  work {m m' : Machine} {acts : List Act} : m.Work acts m' → T m m'

namespace Coding

variable {T : Machine → Machine → Prop} (C : Coding T)
include C

theorem calling : Calling T where
  refl := C.refl
  trans := C.trans
  elementary h m := by
    obtain ⟨acts, hchain⟩ := h.proceeds m
    exact hchain.fold C.refl C.trans fun hdoes => C.work (.does hdoes)
  enter frame h := C.work (.enter frame h)
  leave m := C.work (.leave m)

theorem immediate : Run.Respected (Machine.Along T) Run.noPump :=
  C.calling.immediate

end Coding

namespace Machine

theorem works_coding : Coding Works where
  refl m := ⟨[], .refl m⟩
  trans h h' := by
    obtain ⟨history, hchain⟩ := h
    obtain ⟨later, hlater⟩ := h'
    exact ⟨later ++ history, hchain.trans hlater⟩
  work h := ⟨_, .single h⟩

private theorem still_keepInput (m : Machine) (s : Signal) (v : Value) :
    m.Still (m.keepInput s v) := by
  obtain ⟨signals, indices, last, hkept⟩ := m.keepInput_eq s v
  rw [hkept]
  exact ⟨⟨rfl, rfl, rfl, Scope.sameShape_refl _⟩, rfl, rfl, rfl⟩

private theorem still_tell (m : Machine) (event : Event) : m.Still (m.tell event) :=
  ⟨⟨rfl, rfl, rfl, Scope.sameShape_refl _⟩, rfl, rfl, rfl⟩

end Machine

/-- A relation between machines that is also respected by code that interrupts other code or works
for a host, by the passing of time, and by work that is taken together with what it does first, but
for stimuli that fall due. -/
structure Running (T : Machine → Machine → Prop) : Prop extends Coding T where
  abort (m : Machine) (wish : Bool) : T m { m with abort := wish }
  /- Code that interrupts other code, and code that works for a host. -/
  isolated {α : Type} {x : Run α} (hx : Run.Relates T x) (m : Machine) :
    T m (m.after (Run.isolated [] x))
  beginHandler (m : Machine) (frame : Frame) : T m { m with scope := m.scope.push frame }
  hosted {α : Type} {x : Run α} (hx : Run.Relates T x) (m : Machine) (frame : Frame) :
    T m (((m.beginMain frame).after x).endMain m.scope.frames)
  /- The passing of time. -/
  clock {m : Machine} {s : Schedule Task} (h : m.schedule.Change [] s)
    (htasks : s.tasks = m.schedule.tasks) (hnext : s.nextId = m.schedule.nextId) :
    T m { m with schedule := s }
  take {m : Machine} {deadline timer : Nat} {task : Task}
    (h : (m.popDue deadline).1 = some (timer, task))
    (hwait : ∀ label, task = .waitBody label → m.waits.get? label = none)
    (htask : ∀ socket data, task ≠ .socketDeliver socket data)
    (hinput : ∀ stimulus, task ≠ .stimulus stimulus) : T m (m.popDue deadline).2
  wait {m : Machine} {deadline timer : Nat} {label : String} {w : PendingWait}
    (h : (m.popDue deadline).1 = some (timer, .waitBody label))
    (hw : m.waits.get? label = some w) {α : Type} {x : Run α} (hx : Run.Relates T x) :
    T m ({ (m.popDue deadline).2 with waits := m.waits.erase label }.after
      (Run.isolated w.frames x))
  complete {m : Machine} {deadline timer : Nat} {socket : Int}
    (h : (m.popDue deadline).1 = some (timer, .socketConnected socket)) :
    T m { (m.popDue deadline).2 with network := (m.network.completeConnect socket).2 }
  deliver {m : Machine} {deadline timer : Nat} {socket : Int} {data : String}
    (h : (m.popDue deadline).1 = some (timer, .socketDeliver socket data)) :
    T m { (m.popDue deadline).2 with network := (m.network.deliver socket data).2 }

namespace Running

variable {T : Machine → Machine → Prop} (C : Running T)
include C

theorem still {m m' : Machine} (h : m.Still m') : T m m' :=
  C.work (.does (.still h))

theorem handlerBody (h : Handler) : Run.Relates T (Run.handlerBody h) := by
  have hlocals : Run.Relates T (Run.localFrame h.locals {}) :=
    fun m => ((C.calling.closed.congruence.localFrame h.locals {}).2 m).1
  have hpush (frame : Frame) : Run.Relates T
      (modify fun m => { m with scope := m.scope.push frame }) :=
    Run.relates_modify fun m => C.beginHandler m frame
  exact hlocals.bind C.trans fun frame =>
    (hpush frame).bind C.trans fun _ => C.calling.immediateBlock h.body

theorem reacts : Reacts T where
  refl := C.refl
  trans := C.trans
  tell m event := C.still (m.still_tell event)
  abort := C.abort
  handler m h := C.isolated (C.handlerBody h) m
  input m _ s v _ := C.still (m.still_keepInput s (s.coerce v))

theorem runWait {m : Machine} {deadline timer : Nat} {label : String}
    (h : (m.popDue deadline).1 = some (timer, .waitBody label)) :
    T m ((m.popDue deadline).2.runWait label) := by
  cases hw : m.waits.get? label with
  | none =>
    have hgone : (m.popDue deadline).2.waits.get? label = none := hw
    unfold Machine.runWait
    rw [hgone]
    refine C.take h (fun label' hlabel => ?_) (by simp) (by simp)
    cases hlabel
    exact hw
  | some w =>
    have hthere : (m.popDue deadline).2.waits.get? label = some w := hw
    unfold Machine.runWait
    rw [hthere]
    exact C.reacts.background (C.wait h hw (C.calling.immediateBlock w.body))

theorem completeConnect {m : Machine} {deadline timer : Nat} {socket : Int}
    (h : (m.popDue deadline).1 = some (timer, .socketConnected socket)) :
    T m ((m.popDue deadline).2.completeConnect socket) := by
  have hcompleted := C.complete h
  unfold Machine.completeConnect
  dsimp only
  split
  · exact C.trans hcompleted (C.reacts.dispatch _ _ _)
  · exact hcompleted

private theorem deliverText {m : Machine} {deadline timer : Nat} {socket : Int} {data : String}
    (h : (m.popDue deadline).1 = some (timer, .socketDeliver socket data)) :
    T m ((m.popDue deadline).2.deliver socket data) := by
  have hdelivered := C.deliver h
  have hreceived (m : Machine) (data name : String) :
      T m { m with scope.globals := Machine.addReceived data m.scope.globals name } :=
    C.still ⟨Machine.balanced_background.received m data name, rfl, rfl, rfl⟩
  unfold Machine.deliver
  dsimp only
  split
  · exact C.trans (C.trans hdelivered (C.reacts.receivedAll hreceived data _ _))
      (C.reacts.dispatch _ _ _)
  · exact hdelivered

theorem runTask {m : Machine} {deadline timer : Nat} {task : Task}
    (h : (m.popDue deadline).1 = some (timer, task))
    (hinput : ∀ stimulus, task ≠ .stimulus stimulus) :
    T m ((m.popDue deadline).2.runTask task) := by
  cases task with
  | waitBody label => exact C.runWait h
  | spawn function =>
    have htaken : T m (m.popDue deadline).2 := C.take h (by simp) (by simp) hinput
    simp only [Machine.runTask]
    split
    next f hf => exact C.trans htaken (C.isolated (C.calling.immediateCall f) _)
    next => exact htaken
  | pulseEnd output =>
    have hwrite := C.calling.closed.congruence.writeKey (Machine.pulseKey output) .zero
    exact C.reacts.background (C.trans (C.take h (by simp) (by simp) hinput) (hwrite.2 _).1)
  | stimulus stimulus => exact absurd rfl (hinput stimulus)
  | socketConnected socket => exact C.completeConnect h
  | socketDeliver socket data => exact C.deliverText h
  | socketEvent trigger socket =>
    exact C.trans (C.take h (by simp) (by simp) hinput) (C.reacts.dispatch _ trigger _)

end Running

/-- A relation between machines that is also respected by stimuli that fall due, each taken and
applied as one. -/
structure Playing (T : Machine → Machine → Prop) : Prop extends Running T where
  stimulus {m : Machine} {deadline timer : Nat} {stimulus : Stimulus}
    (h : (m.popDue deadline).1 = some (timer, .stimulus stimulus)) :
    T m ((m.popDue deadline).2.apply stimulus)

namespace Playing

variable {T : Machine → Machine → Prop} (C : Playing T)
include C

theorem passing : Passing T where
  refl := C.refl
  trans := C.trans
  apply := C.reacts.apply
  receive m := C.clock (.receive m.schedule) m.schedule.receive_tasks m.schedule.receive_nextId
  idle {m deadline} h := by
    have hnone : (m.schedule.popDue deadline).1 = none := h
    have hchange := Schedule.Change.popDue m.schedule deadline
    rw [hnone] at hchange
    obtain ⟨-, -, htasks, -⟩ | ⟨timer, due, task, hsome, -⟩ := m.schedule.popDue_cases deadline
    · exact C.clock hchange htasks (m.schedule.popDue_nextId deadline)
    · cases hnone.symm.trans hsome
  task {m deadline timer task} h := by
    by_cases hinput : ∃ stimulus, task = .stimulus stimulus
    · obtain ⟨stimulus, rfl⟩ := hinput
      exact C.stimulus h
    · exact C.runTask h (not_exists.mp hinput)
  waitUntil m deadline :=
    C.clock (.waitUntil m.schedule deadline) (m.schedule.waitUntil_tasks _)
      (m.schedule.waitUntil_nextId _)

theorem pump (deadline : Nat) : Run.Relates (Machine.Along T) (Run.pump deadline) :=
  (C.passing.and Machine.balanced_passing).pump deadline

theorem respected : Run.Respected (Machine.Along T) Run.pump :=
  C.calling.respected C.pump

theorem main {m : Machine} {frame : Frame} (body : List Stmt) :
    T m (((m.beginMain frame).after (Run.block Run.pump m.fuel body)).endMain m.scope.frames) :=
  C.hosted (fun m' => (C.respected.block m.fuel body m').1) m frame

theorem working : Working T where
  toPumped := C.passing.pumped
  abort := C.abort
  tell := C.reacts.tell
  main body _ := C.main body
  drain m := by
    have hdrop := C.clock (.drain m.schedule) rfl rfl
    exact C.trans hdrop (Run.relates_foldl C.refl C.trans C.reacts.apply _ _)

end Playing

/-- A relation between machines that is also respected by what a host does. -/
structure Tracking (T : Machine → Machine → Prop) : Prop extends Playing T where
  reset (m : Machine) : T m m.reset
  load (m : Machine) (text : String) : T m (m.load text).2
  plan (m : Machine) (delay : Nat) (stimulus : Stimulus) :
    T m (m.scheduleStimulus delay stimulus).2

theorem Tracking.operating {T : Machine → Machine → Prop} (C : Tracking T) : Operating T where
  toPassing := C.passing
  load := C.load
  reset := C.reset
  abort := C.abort
  tell := C.reacts.tell
  main body _ := C.main body
  drop m := C.clock (.drain m.schedule) rfl rfl
  plan := C.plan
  send m stimulus := C.clock (.send m.schedule stimulus) rfl rfl
  files _ _ := C.still ⟨⟨rfl, rfl, rfl, Scope.sameShape_refl _⟩, rfl, rfl, rfl⟩

/-- Whether an act is neither about a stimulus that was planned nor one of a host. -/
def Act.isOwn : Act → Bool
  | plan _ _ _ (.stimulus _) | take _ _ (.stimulus _) | clear | rewire => false
  | plan _ _ _ _ | arm _ _ _ _ _ | cancel _ _ | retime _ _ _ _ | begin _ _ _ _ | connect _ _ _
  | disconnect _ | take _ _ _ => true

namespace Machine

theorem Does.isOwn {m m' : Machine} {acts : List Act} (h : m.Does acts m') :
    ∀ act ∈ acts, act.isOwn := by
  cases h with
  | @plan delay task h =>
    cases task with
    | spawn function => simp [Act.isOwn]
    | pulseEnd output => simp [Act.isOwn]
    | socketEvent trigger socket => simp [Act.isOwn]
    | _ => cases h
  | cancelAll =>
    intro act hact
    obtain ⟨entry, -, rfl⟩ := List.mem_map.mp hact
    rfl
  | _ => simp [Act.isOwn]

theorem Work.isOwn {m m' : Machine} {acts : List Act} (h : m.Work acts m') :
    ∀ act ∈ acts, act.isOwn := by
  cases h with
  | does h => exact h.isOwn
  | _ => simp

end Machine

/-- A relation between moments that can be followed from one moment to the next, and that holds of
each move that is neither about a stimulus that was planned nor one of a host. -/
structure Following (R : Moment → Moment → Prop) : Prop where
  refl (s : Moment) : R s s
  trans {a b c : Moment} : R a b → R b c → R a c
  move {s s' : Moment} {acts : List Act} (h : Move s acts s') (hown : ∀ act ∈ acts, act.isOwn) :
    R s s'

namespace Following

variable {R : Moment → Moment → Prop} (F : Following R)
include F

private theorem coding : Coding fun m m' => ∀ k, R ⟨m, k⟩ ⟨m', k⟩ where
  refl m k := F.refl ⟨m, k⟩
  trans h h' k := F.trans (h k) (h' k)
  work h k := F.move (.code k h) h.isOwn

theorem isolated {α : Type} {x : Run α}
    (hx : Run.Relates (fun m m' => ∀ k, R ⟨m, k⟩ ⟨m', k⟩) x) (m : Machine) (k : List Around) :
    R ⟨m, k⟩ ⟨m.after (Run.isolated [] x), k⟩ := by
  have hinner := hx (m.isolate []) (.interrupted m.standing :: k)
  rw [Machine.after_isolated]
  exact F.trans (F.trans (F.move (.interrupt m k) (by simp)) hinner)
    (F.move (.resume _ k m.standing) (by simp))

theorem wait {m : Machine} {deadline timer : Nat} {label : String} {w : PendingWait}
    (h : (m.popDue deadline).1 = some (timer, .waitBody label))
    (hw : m.waits.get? label = some w) {α : Type} {x : Run α}
    (hx : Run.Relates (fun m m' => ∀ k, R ⟨m, k⟩ ⟨m', k⟩) x) (k : List Around) :
    R ⟨m, k⟩ ⟨{ (m.popDue deadline).2 with waits := m.waits.erase label }.after
      (Run.isolated w.frames x), k⟩ := by
  have hinner := hx ({ (m.popDue deadline).2 with waits := m.waits.erase label }.isolate w.frames)
    (.interrupted m.standing :: k)
  rw [Machine.after_isolated]
  exact F.trans (F.trans (F.move (.beginWait k h hw) (by simp [Act.isOwn])) hinner)
    (F.move (.resume _ k m.standing) (by simp))

theorem hosted {α : Type} {x : Run α}
    (hx : Run.Relates (fun m m' => ∀ k, R ⟨m, k⟩ ⟨m', k⟩) x) (m : Machine) (frame : Frame)
    (k : List Around) :
    R ⟨m, k⟩ ⟨((m.beginMain frame).after x).endMain m.scope.frames, k⟩ := by
  have hinner := hx (m.beginMain frame) (.host m.scope.frames :: k)
  exact F.trans (F.trans (F.move (.beginMain m k frame) (by simp)) hinner)
    (F.move (.endMain _ k _) (by simp))

theorem take {m : Machine} {deadline timer : Nat} {task : Task}
    (h : (m.popDue deadline).1 = some (timer, task))
    (hwait : ∀ label, task = .waitBody label → m.waits.get? label = none)
    (hinput : ∀ stimulus, task ≠ .stimulus stimulus) (k : List Around) :
    R ⟨m, k⟩ ⟨(m.popDue deadline).2, k⟩ := by
  refine F.move (.take k h hwait) fun act hact => ?_
  obtain rfl := List.mem_singleton.mp hact
  cases task with
  | stimulus stimulus => exact absurd rfl (hinput stimulus)
  | _ => rfl

theorem running : Running fun m m' => ∀ k, R ⟨m, k⟩ ⟨m', k⟩ where
  toCoding := F.coding
  abort m wish k := F.move (.abort m k wish) (by simp)
  isolated := F.isolated
  beginHandler m frame k := F.move (.beginHandler m k frame) (by simp)
  hosted := F.hosted
  clock h htasks hnext k := F.move (.clock k h htasks hnext) (by simp)
  take h hwait _ hinput := F.take h hwait hinput
  wait := F.wait
  complete h k := F.move (.complete k h) (by simp [Act.isOwn])
  deliver h k := F.move (.deliver k h) (by simp [Act.isOwn])

end Following

namespace Machine

private theorem reaches_following : Following Moment.Reaches where
  refl := .refl
  trans := .trans
  move h _ := .single h

theorem reaches_coding : Coding Reaches :=
  reaches_following.coding

private theorem reaches_tracking : Tracking Reaches where
  toRunning := reaches_following.running
  stimulus {m deadline timer stimulus} h k :=
    .trans (.single (.take k h (by simp))) (reaches_following.running.reacts.apply _ stimulus k)
  reset m k := .single (.reset m k)
  load m text k := .single (.load m k text)
  plan m delay stimulus k := .single (.stimulus m k delay stimulus)

end Machine

theorem Run.along_pump (deadline : Nat) :
    Relates (Machine.Along Machine.Reaches) (pump deadline) :=
  Machine.reaches_tracking.pump deadline

theorem Run.along_respected : Respected (Machine.Along Machine.Reaches) pump :=
  Machine.reaches_tracking.respected

namespace Machine

theorem reaches_hosting : Hosting Reaches where
  toOperating := reaches_tracking.operating
  network m f k := .single (.rewire m k f)

end Machine

end ControlLogic
