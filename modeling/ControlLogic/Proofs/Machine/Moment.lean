import ControlLogic.Machine.Host
import ControlLogic.Proofs.Machine.Passage
import ControlLogic.Proofs.Schedule.History

/-!
The moments of a machine while a host works with it: between any two changes, also those in the
middle of a statement, of a call whose parameters are being bound, or of a handler that has
interrupted other code. All a host can do leads through moments that follow on one another.
-/

set_option autoImplicit false
set_option relaxedAutoImplicit false

namespace ControlLogic

/-- What stands around the code running now: a call whose parameters are being bound, code that was
interrupted, and a host with the frames it had. -/
inductive Around where
  | binding (frame : Frame)
  | interrupted (standing : Standing)
  | host (frames : List Frame)

/-- A machine, and what stands around the code it runs, the innermost first. -/
structure Moment where
  machine : Machine
  around : List Around := []

/-- One moment follows on another, and what is done about planned work in between. -/
inductive Step : Moment → List Deed → Moment → Prop where
  | primitive {m : Machine} {k : List Around} {α : Type} {x : Run α} {deeds : List Deed}
    (h : Run.Primitive x) (hs : m.schedule.Changes deeds (m.after x).schedule) :
    Step ⟨m, k⟩ deeds ⟨m.after x, k⟩
  | schedule {m : Machine} {k : List Around} {s : Schedule Task} {deeds : List Deed}
    (h : m.schedule.Change deeds s) : Step ⟨m, k⟩ deeds ⟨{ m with schedule := s }, k⟩
  | abort (m : Machine) (k : List Around) (wish : Bool) :
    Step ⟨m, k⟩ [] ⟨{ m with abort := wish }, k⟩
  /- A call. -/
  | beginBinding (m : Machine) (k : List Around) : Step ⟨m, k⟩ [] ⟨m, .binding {} :: k⟩
  | bindSlot (m : Machine) (k : List Around) (b : Binding) (parameter : String) (kind : SlotKind)
    (v : Value) :
    Step ⟨m, .binding b.frame :: k⟩ [] ⟨m, .binding (b.addSlot parameter kind v).frame :: k⟩
  | bindWhole (m : Machine) (k : List Around) (b : Binding) (parameter owner : String) :
    Step ⟨m, .binding b.frame :: k⟩ []
      ⟨m, .binding (b.addWhole parameter owner (m.scope.ownedBy owner)).frame :: k⟩
  | declare (m : Machine) (k : List Around) {structures : List StructureDef}
    {locals : List VariableDecl} {frame frame' : Frame}
    (h : Frame.declareLocals structures locals frame = .ok frame') :
    Step ⟨m, .binding frame :: k⟩ [] ⟨m, .binding frame' :: k⟩
  | dropBinding (m : Machine) (k : List Around) (frame : Frame) :
    Step ⟨m, .binding frame :: k⟩ [] ⟨m, k⟩
  | enter (m : Machine) (k : List Around) (frame : Frame) :
    Step ⟨m, .binding frame :: k⟩ [] ⟨m.enter frame, k⟩
  | leave (m : Machine) (k : List Around) : Step ⟨m, k⟩ [] ⟨m.leave, k⟩
  /- Code that interrupts other code. -/
  | interrupt (m : Machine) (k : List Around) :
    Step ⟨m, k⟩ [] ⟨m.isolate [], .interrupted m.standing :: k⟩
  | beginHandler (m : Machine) (k : List Around) (frame : Frame) :
    Step ⟨m, .binding frame :: k⟩ [] ⟨{ m with scope := m.scope.push frame }, k⟩
  | beginWait (m : Machine) (k : List Around) {label : String} {w : PendingWait}
    (h : m.waits.get? label = some w) :
    Step ⟨m, k⟩ []
      ⟨{ m with waits := m.waits.erase label }.isolate w.frames, .interrupted m.standing :: k⟩
  | resume (m : Machine) (k : List Around) (standing : Standing) :
    Step ⟨m, .interrupted standing :: k⟩ [] ⟨m.resume standing, k⟩
  /- What comes from outside. -/
  | input (m : Machine) (k : List Around) {name : String} {s : Signal} (v : Value)
    (h : m.signals.signal? name = some s) : Step ⟨m, k⟩ [] ⟨m.keepInput s (s.coerce v), k⟩
  | received (m : Machine) (k : List Around) (data name : String) :
    Step ⟨m, k⟩ []
      ⟨{ m with scope.globals := Machine.addReceived data m.scope.globals name }, k⟩
  /- What a host does. -/
  | reset (m : Machine) (k : List Around) : Step ⟨m, k⟩ [] ⟨m.reset, k⟩
  | load (m : Machine) (k : List Around) (text : String) : Step ⟨m, k⟩ [] ⟨(m.load text).2, k⟩
  | beginMain (m : Machine) (k : List Around) (frame : Frame) :
    Step ⟨m, .binding frame :: k⟩ [] ⟨m.beginMain frame, .host m.scope.frames :: k⟩
  | endMain (m : Machine) (k : List Around) (frames : List Frame) :
    Step ⟨m, .host frames :: k⟩ [] ⟨m.endMain frames, k⟩

/-- Moments that follow on one another, and what is done about planned work, the latest first. -/
inductive Course : Moment → List Deed → Moment → Prop where
  | refl (s : Moment) : Course s [] s
  | step {s s' s'' : Moment} {history deeds : List Deed} :
    Course s history s' → Step s' deeds s'' → Course s (deeds ++ history) s''

namespace Course

theorem trans {s s' s'' : Moment} {history later : List Deed} (h : Course s history s')
    (h' : Course s' later s'') : Course s (later ++ history) s'' := by
  induction h' with
  | refl => exact h
  | step _ hstep ih =>
    rw [List.append_assoc]
    exact .step ih hstep

end Course

def Moment.Leads (s s' : Moment) : Prop :=
  ∃ history, Course s history s'

namespace Moment.Leads

theorem refl (s : Moment) : s.Leads s :=
  ⟨[], .refl s⟩

theorem trans {a b c : Moment} (h : a.Leads b) (h' : b.Leads c) : a.Leads c := by
  obtain ⟨history, hcourse⟩ := h
  obtain ⟨later, hlater⟩ := h'
  exact ⟨later ++ history, hcourse.trans hlater⟩

theorem step {a b c : Moment} {deeds : List Deed} (h : a.Leads b) (h' : Step b deeds c) :
    a.Leads c := by
  obtain ⟨history, hcourse⟩ := h
  exact ⟨deeds ++ history, hcourse.step h'⟩

theorem single {a b : Moment} {deeds : List Deed} (h : Step a deeds b) : a.Leads b :=
  (refl a).step h

end Moment.Leads

def Machine.Leads (m m' : Machine) : Prop :=
  ∀ k : List Around, Moment.Leads ⟨m, k⟩ ⟨m', k⟩

namespace Machine

theorem leads_refl (m : Machine) : m.Leads m :=
  fun _ => .refl _

theorem Leads.trans {a b c : Machine} (h : a.Leads b) (h' : b.Leads c) : a.Leads c :=
  fun k => (h k).trans (h' k)

theorem leads_of_step {m m' : Machine} {deeds : List Deed}
    (h : ∀ k : List Around, Step ⟨m, k⟩ deeds ⟨m', k⟩) : m.Leads m' :=
  fun k => .single (h k)

end Machine

namespace Schedule

theorem changes_cancel {τ : Type} (s : Schedule τ) (waits : List (String × PendingWait)) :
    let s' := waits.foldl (fun s entry => (s.cancel entry.2.timer).2) s
    Changes s [] s' ∧ s'.now = s.now ∧ s'.inbox = s.inbox := by
  induction waits generalizing s with
  | nil => exact ⟨.none s, rfl, rfl⟩
  | cons entry waits ih =>
    obtain ⟨hchanges, hnow, hinbox⟩ := ih (s.cancel entry.2.timer).2
    exact ⟨(Change.cancel s entry.2.timer).changes.trans hchanges, hnow, hinbox⟩

end Schedule

namespace Run

/-- What a run that touches the machine itself does to planned work: it may plan, move and drop
some. The clock, the stimuli that wait and how the code runs are left alone. -/
structure Reschedules (m m' : Machine) : Prop where
  changes : ∃ deeds, m.schedule.Changes deeds m'.schedule
  mode : m'.mode = m.mode
  now : m'.now = m.now
  inbox : m'.schedule.inbox = m.schedule.inbox

private theorem reschedules_of_eq {m m' : Machine} (h : m'.schedule = m.schedule)
    (hmode : m'.mode = m.mode) : Reschedules m m' := by
  refine ⟨⟨[], ?_⟩, hmode, ?_, ?_⟩
  · rw [h]
    exact .none _
  · exact congrArg Schedule.now h
  · exact congrArg Schedule.inbox h

theorem Reschedules.trans {a b c : Machine} (h : Reschedules a b) (h' : Reschedules b c) :
    Reschedules a c := by
  obtain ⟨history, hchanges⟩ := h.changes
  obtain ⟨later, hlater⟩ := h'.changes
  exact ⟨⟨later ++ history, hchanges.trans hlater⟩, h'.mode.trans h.mode, h'.now.trans h.now,
    h'.inbox.trans h.inbox⟩

private theorem reschedules_checkAbort : Relates Reschedules checkAbort :=
  relates_checkAbort fun _ => reschedules_of_eq rfl rfl

private theorem reschedules_scheduleWait (delay : Nat) (label : Option String) (body : List Stmt) :
    Relates Reschedules (scheduleWait delay label body) := by
  have hlabel : Relates Reschedules (waitLabel label) := by
    unfold waitLabel
    split
    · exact fun m => reschedules_of_eq rfl rfl
    · exact relates_modifyGet fun m => reschedules_of_eq rfl rfl
  refine reschedules_checkAbort.bind .trans fun _ => ?_
  refine hlabel.bind .trans fun name => relates_inspect fun m => ?_
  split
  · exact relates_modify fun m => reschedules_of_eq rfl rfl
  · refine relates_modify fun m => ?_
    exact ⟨⟨_, (Schedule.Change.plan m.schedule delay (.waitBody name)).changes⟩, rfl, rfl, rfl⟩

private theorem reschedules_cancelAllWaits : Relates Reschedules cancelAllWaits := by
  refine relates_modify fun m => ?_
  have hfold : m.waits.fold (fun schedule _ w => (schedule.cancel w.timer).2) m.schedule =
      m.waits.toList.foldl (fun s entry => (s.cancel entry.2.timer).2) m.schedule :=
    Std.HashMap.fold_eq_foldl_toList
  obtain ⟨hchanges, hnow, hinbox⟩ := m.schedule.changes_cancel m.waits.toList
  refine ⟨⟨[], ?_⟩, rfl, ?_, ?_⟩
  · rw [hfold]
    exact hchanges
  · unfold Machine.now
    rw [hfold]
    exact hnow
  · rw [hfold]
    exact hinbox

private theorem reschedules_retimeWait (delay : Nat) (name : String) :
    Relates Reschedules (retimeWait delay name) := by
  refine relates_modify fun m => ?_
  split
  next w h =>
    refine ⟨⟨_, (Schedule.Change.retime m.schedule w.timer delay).changes⟩, rfl, ?_, ?_⟩
    · exact m.schedule.retime_now w.timer delay
    · exact m.schedule.retime_inbox w.timer delay
  next => exact reschedules_of_eq rfl rfl

theorem Primitive.reschedules {α : Type} {x : Run α} (h : Primitive x) :
    Relates Reschedules x := by
  cases h with
  | tell event => exact relates_modify fun m => reschedules_of_eq rfl rfl
  | tick =>
    intro m
    rw [m.after_tick]
    exact reschedules_of_eq rfl rfl
  | tryWrite key v =>
    intro m
    obtain ⟨target, -, hafter⟩ | hafter := m.after_tryWrite key v
    · obtain ⟨scope, signals, indices, last, log, hwritten⟩ := m.writeTo_eq key v target
      rw [hafter, hwritten]
      exact reschedules_of_eq rfl rfl
    · rw [hafter]
      exact reschedules_of_eq rfl rfl
  | copyWhole frame parameter owner =>
    refine relates_modify fun m => ?_
    obtain ⟨scope, hcopied⟩ := m.copyWhole_eq frame parameter owner
    rw [hcopied]
    exact reschedules_of_eq rfl rfl
  | plan delay h =>
    refine reschedules_checkAbort.bind .trans fun _ => relates_modify fun m => ?_
    exact ⟨⟨_, (Schedule.Change.plan m.schedule delay _).changes⟩, rfl, rfl, rfl⟩
  | scheduleWait delay label body => exact reschedules_scheduleWait delay label body
  | cancelWait name =>
    refine relates_modify fun m => ?_
    split
    next w h => exact ⟨⟨_, (Schedule.Change.cancel m.schedule w.timer).changes⟩, rfl, rfl, rfl⟩
    next => exact reschedules_of_eq rfl rfl
  | cancelAllWaits => exact reschedules_cancelAllWaits
  | retimeWait delay name => exact reschedules_retimeWait delay name
  | holdSection name => exact relates_modify fun m => reschedules_of_eq rfl rfl
  | freeSection name => exact relates_modify fun m => reschedules_of_eq rfl rfl
  | withFiles f => exact relates_modifyGet fun m => reschedules_of_eq rfl rfl
  | withNetwork f => exact relates_modifyGet fun m => reschedules_of_eq rfl rfl
  | setGather gather => exact relates_modify fun m => reschedules_of_eq rfl rfl
  | setChance chance => exact relates_modify fun m => reschedules_of_eq rfl rfl

end Run

end ControlLogic
