import ControlLogic.Proofs.Machine.Calling
import ControlLogic.Proofs.Machine.Inputs

/-!
Chronicles of a machine while a host works with it: turn by turn, with the stimuli that arrive, the
bodies of waits that are begun, and the programs that are loaded on record. All a host can do goes
along chronicles.
-/

set_option autoImplicit false
set_option relaxedAutoImplicit false

namespace ControlLogic

/-- What is on record: a stimulus and its edge, the body of a wait that is begun, and a program that
is loaded or forgotten. -/
inductive Incident where
  | call (stimulus : Stimulus) (edge : Option Edge)
  | begin (label : String)
  | load (text : String)
  | reset

def Machine.keepEdge (m : Machine) : Option Edge → Machine
  | some e => m.keepInput e.signal e.new
  | none => m

/-- One moment follows on another, and what is on record of it. -/
inductive Turn : Moment → Option Incident → Moment → Prop where
  /- Code. A call is entered only as long as calls are not nested too deep. -/
  | code (m : Machine) (k : List Around) {α : Type} {x : Run α} (h : Run.Elementary x) :
    Turn ⟨m, k⟩ none ⟨m.after x, k⟩
  | enter {m : Machine} (k : List Around) (frame : Frame) (h : m.depth < m.config.maxCallDepth) :
    Turn ⟨m, k⟩ none ⟨m.enter frame, k⟩
  | leave (m : Machine) (k : List Around) : Turn ⟨m, k⟩ none ⟨m.leave, k⟩
  /- Code that interrupts other code: a handler has a frame of its own, a function that is started
  by itself has none yet, and the body of a wait has those of the code that put it off. -/
  | interrupt (m : Machine) (k : List Around) (frame : Option Frame) :
    Turn ⟨m, k⟩ none ⟨m.isolate frame.toList, .interrupted m.standing :: k⟩
  | beginWait {m : Machine} (k : List Around) {label : String} {w : PendingWait}
    (h : m.waits.get? label = some w) :
    Turn ⟨m, k⟩ (some (.begin label))
      ⟨{ m with waits := m.waits.erase label }.isolate w.frames, .interrupted m.standing :: k⟩
  | resume (m : Machine) (k : List Around) (standing : Standing) :
    Turn ⟨m, .interrupted standing :: k⟩ none ⟨m.resume standing, k⟩
  /- What comes from outside. -/
  | call (m : Machine) (k : List Around) (stimulus : Stimulus) :
    Turn ⟨m, k⟩ (some (.call stimulus (m.edge? stimulus))) ⟨m.keepEdge (m.edge? stimulus), k⟩
  | abort (m : Machine) (k : List Around) (wish : Bool) :
    Turn ⟨m, k⟩ none ⟨{ m with abort := wish }, k⟩
  | schedule {m : Machine} (k : List Around) {s : Schedule Task} {deeds : List Deed}
    (h : m.schedule.Change deeds s) : Turn ⟨m, k⟩ none ⟨{ m with schedule := s }, k⟩
  | received (m : Machine) (k : List Around) (data name : String) :
    Turn ⟨m, k⟩ none ⟨{ m with scope.globals := Machine.addReceived data m.scope.globals name }, k⟩
  | network (m : Machine) (k : List Around) (f : Network → Network) :
    Turn ⟨m, k⟩ none ⟨{ m with network := f m.network }, k⟩
  | files (m : Machine) (k : List Around) (f : FileSystem → FileSystem) :
    Turn ⟨m, k⟩ none ⟨{ m with files := f m.files }, k⟩
  /- What a host does while no code runs. -/
  | load (m : Machine) (text : String) : Turn ⟨m, []⟩ (some (.load text)) ⟨(m.load text).2, []⟩
  | reset (m : Machine) : Turn ⟨m, []⟩ (some .reset) ⟨m.reset, []⟩
  | beginMain {m : Machine} (frame : Frame) (h : m.scope.frames = []) :
    Turn ⟨m, []⟩ none ⟨m.beginMain frame, [.host []]⟩
  | endMain (m : Machine) (k : List Around) (frames : List Frame) :
    Turn ⟨m, .host frames :: k⟩ none ⟨m.endMain frames, k⟩

/-- Moments that follow on one another turn by turn, and what is on record, the latest first. -/
inductive Chronicle (s : Moment) : List Incident → Moment → Prop where
  | nil : Chronicle s [] s
  | turn {past : List Incident} {incident : Option Incident} {s' s'' : Moment} :
    Chronicle s past s' → Turn s' incident s'' → Chronicle s (incident.toList ++ past) s''

namespace Chronicle

theorem single {s s' : Moment} {incident : Option Incident} (h : Turn s incident s') :
    Chronicle s incident.toList s' := by
  have hturn := Chronicle.nil.turn h
  rwa [List.append_nil] at hturn

theorem trans {s s' s'' : Moment} {past later : List Incident} (h : Chronicle s past s')
    (h' : Chronicle s' later s'') : Chronicle s (later ++ past) s'' := by
  induction h' with
  | nil => exact h
  | turn _ hturn ih =>
    rw [List.append_assoc]
    exact ih.turn hturn

end Chronicle

theorem Turn.signals_typed {s s' : Moment} {incident : Option Incident} (h : Turn s incident s')
    (hs : s.machine.signals.Typed) : s'.machine.signals.Typed := by
  cases h with
  | code m k hx => exact (hx.keepsInputs m).typed hs
  | call m k stimulus =>
    cases he : m.edge? stimulus with
    | none => exact hs
    | some e =>
      obtain ⟨⟨name, hsignal⟩, -, hnew, -⟩ := Machine.edge?_eq_some he
      change (m.keepInput e.signal e.new).signals.Typed
      rw [m.signals_keepInput]
      exact hs.store hsignal hnew
  | load m text => exact (m.typed_load text).signals
  | reset m => exact m.typed_reset.signals
  | _ => exact hs

theorem Chronicle.signals_typed {s s' : Moment} {past : List Incident} (h : Chronicle s past s')
    (hs : s.machine.signals.Typed) : s'.machine.signals.Typed := by
  induction h with
  | nil => exact hs
  | turn _ hturn ih => exact hturn.signals_typed ih

/-- One machine comes after another one on some chronicle, with the same around it and with nothing
on record but what is allowed, if the signals have normal values. -/
def Machine.Turns (Allowed : Incident → Prop) (m m' : Machine) : Prop :=
  m.signals.Typed → ∀ k : List Around, ∃ past,
    Chronicle ⟨m, k⟩ past ⟨m', k⟩ ∧ ∀ incident ∈ past, Allowed incident

/-- What a task puts on record: the body of a wait is begun, or a stimulus arrives. -/
def Machine.recordOf (m : Machine) : Task → List Incident
  | .waitBody label => if (m.waits.get? label).isSome then [.begin label] else []
  | .stimulus stimulus => [.call stimulus (m.edge? stimulus)]
  | _ => []

namespace Machine

section

variable {Allowed : Incident → Prop}

theorem turns_refl (m : Machine) : m.Turns Allowed m :=
  fun _ _ => ⟨[], .nil, by simp⟩

theorem Turns.trans {a b c : Machine} (h : a.Turns Allowed b) (h' : b.Turns Allowed c) :
    a.Turns Allowed c := by
  intro ht k
  obtain ⟨past, hpast, hallowed⟩ := h ht k
  obtain ⟨later, hlater, hallowed'⟩ := h' (hpast.signals_typed ht) k
  exact ⟨later ++ past, hpast.trans hlater, List.forall_mem_append.mpr ⟨hallowed', hallowed⟩⟩

theorem Turns.chronicle {m m' : Machine} (h : m.Turns (fun _ => False) m')
    (ht : m.signals.Typed) (k : List Around) : Chronicle ⟨m, k⟩ [] ⟨m', k⟩ := by
  obtain ⟨past, hpast, hnone⟩ := h ht k
  obtain rfl := List.eq_nil_iff_forall_not_mem.mpr hnone
  exact hpast

private theorem turns_of_turn {m m' : Machine} (h : ∀ k, Turn ⟨m, k⟩ none ⟨m', k⟩) :
    m.Turns Allowed m' :=
  fun _ k => ⟨_, .single (h k), by simp⟩

private theorem turns_calling : Calling (Turns Allowed) where
  refl := turns_refl
  trans := .trans
  elementary h m := turns_of_turn fun k => .code m k h
  enter frame h := turns_of_turn fun k => .enter k frame h
  leave m := turns_of_turn fun k => .leave m k

private theorem chronicle_isolated {α : Type} {m m' : Machine} {incident : Option Incident}
    {frames : List Frame} {x : Run α} (hx : Run.Relates (Turns fun _ => False) x)
    (ht : m.signals.Typed) (k : List Around)
    (hbegin : Turn ⟨m, k⟩ incident ⟨m'.isolate frames, .interrupted m'.standing :: k⟩) :
    Chronicle ⟨m, k⟩ incident.toList ⟨m'.after (Run.isolated frames x), k⟩ := by
  have hfirst := Chronicle.single hbegin
  have hrest := (hx (m'.isolate frames)).chronicle (hfirst.signals_typed ht)
    (.interrupted m'.standing :: k)
  rw [after_isolated]
  exact (hfirst.trans hrest).turn (.resume _ k m'.standing)

private theorem turns_isolated {α : Type} {m : Machine} (frame : Option Frame) {x : Run α}
    (hx : Run.Relates (Turns fun _ => False) x) :
    m.Turns Allowed (m.after (Run.isolated frame.toList x)) :=
  fun ht k => ⟨_, chronicle_isolated hx ht k (.interrupt m k frame), by simp⟩

private theorem after_handler (m : Machine) (h : Handler) :
    (∃ frame, m.after (Run.isolated [] (Run.handlerBody h)) =
      m.after (Run.isolated [frame] (Run.immediateBlock h.body))) ∨
      m.after (Run.isolated [] (Run.handlerBody h)) = m := by
  rw [after_isolated]
  cases hframe : Frame.declareLocals (m.isolate []).program.structures h.locals {} with
  | ok frame =>
    refine .inl ⟨frame, ?_⟩
    rw [after_isolated]
    have hlocals : Run.localFrame h.locals {} (m.isolate []) = .ok frame (m.isolate []) := by
      unfold Run.localFrame
      rw [Run.get_bind, hframe]
      rfl
    unfold Run.handlerBody
    rw [after_bind_ok hlocals]
    rfl
  | error e =>
    have hlocals : Run.localFrame h.locals {} (m.isolate []) =
        .error (.fault e.1 (some e.2)) (m.isolate []) := by
      unfold Run.localFrame
      rw [Run.get_bind, hframe]
      rfl
    unfold Run.handlerBody
    rw [after_error (Run.bind_error hlocals _)]
    exact .inr rfl

private theorem turns_handling : Handling (Turns Allowed) where
  refl := turns_refl
  trans := .trans
  tell m event := turns_of_turn fun k => .code m k (.tell event)
  handler m h := by
    rcases m.after_handler h with ⟨frame, hframe⟩ | hnone
    · rw [hframe]
      exact turns_isolated (some frame) (turns_calling.immediateBlock h.body)
    · rw [hnone]
      exact m.turns_refl

/-- Once its edge is kept, all else that a stimulus does goes along a chronicle: it runs handlers,
or tells the host, or asks code to stop. -/
private theorem turns_keepEdge {m : Machine} (ht : m.signals.Typed) (stimulus : Stimulus) :
    (m.keepEdge (m.edge? stimulus)).Turns Allowed (m.apply stimulus) := by
  have hanswers := answers_edge ht stimulus
  unfold Answers at hanswers
  cases he : m.edge? stimulus with
  | some e =>
    rw [he] at hanswers
    rw [hanswers]
    exact Run.relates_foldl turns_refl Turns.trans turns_handling.runHandler (m.answering e) _
  | none =>
    rw [he] at hanswers
    cases hanswers with
    | same haim hold happly =>
      rw [happly]
      exact m.turns_refl
    | refused haim happly =>
      rw [happly]
      exact turns_handling.tell m _
    | stop happly =>
      rw [happly]
      exact turns_of_turn fun k => .abort m k true

theorem chronicle_apply {m : Machine} (ht : m.signals.Typed) (stimulus : Stimulus)
    (k : List Around) :
    Chronicle ⟨m, k⟩ [.call stimulus (m.edge? stimulus)] ⟨m.apply stimulus, k⟩ := by
  have hcall := Chronicle.single (.call m k stimulus)
  exact hcall.trans ((turns_keepEdge ht stimulus).chronicle (hcall.signals_typed ht) k)

private theorem chronicle_wait {m : Machine} (ht : m.signals.Typed) {label : String}
    {w : PendingWait}
    (h : m.waits.get? label = some w) (k : List Around) :
    Chronicle ⟨m, k⟩ [.begin label]
      ⟨({ m with waits := m.waits.erase label } : Machine).after
        (Run.isolated w.frames (Run.immediateBlock w.body)), k⟩ :=
  chronicle_isolated (turns_calling.immediateBlock w.body) ht k (.beginWait k h)

variable (hcall : ∀ stimulus edge, Allowed (.call stimulus edge))
  (hbegin : ∀ label, Allowed (.begin label))

include hcall in
private theorem turns_apply (m : Machine) (stimulus : Stimulus) :
    m.Turns Allowed (m.apply stimulus) :=
  fun ht k => ⟨_, chronicle_apply ht stimulus k, by simpa using hcall _ _⟩

include hcall hbegin in
private theorem turns_serving : Serving (Turns Allowed) where
  toHandling := turns_handling
  apply := turns_apply hcall
  thread m f := turns_isolated none (turns_calling.immediateCall f)
  wait h ht k := ⟨_, chronicle_wait ht h k, by simpa using hbegin _⟩
  received m data name := turns_of_turn fun k => .received m k data name
  network m f := turns_of_turn fun k => .network m k f

private theorem turns_schedule {m : Machine} {s : Schedule Task} {deeds : List Deed}
    (h : m.schedule.Change deeds s) : m.Turns Allowed { m with schedule := s } :=
  turns_of_turn fun k => .schedule k h

include hcall hbegin in
private theorem turns_passing : Passing (Turns Allowed) where
  refl := turns_refl
  trans := .trans
  apply := turns_apply hcall
  receive m := turns_schedule (.receive m.schedule)
  idle {m deadline} _ := turns_schedule (.popDue m.schedule deadline)
  task {m deadline id task} _ := by
    have htask := (turns_serving hcall hbegin).runTask (m.popDue deadline).2 task fun output _ =>
      ((turns_calling.closed.congruence.writeKey (pulseKey output) .zero).2 _).1
    exact (turns_schedule (.popDue m.schedule deadline)).trans htask
  waitUntil m deadline := turns_schedule (.waitUntil m.schedule _)

end

theorem chronicle_runTask {m : Machine} (ht : m.signals.Typed) (task : Task) (k : List Around) :
    Chronicle ⟨m, k⟩ (m.recordOf task) ⟨m.runTask task, k⟩ := by
  have hnetwork (m : Machine) (f : Network → Network) :
      m.Turns (fun _ => False) { m with network := f m.network } :=
    turns_of_turn fun k => .network m k f
  cases task with
  | waitBody label =>
    unfold recordOf
    simp only [runTask]
    unfold runWait
    cases h : m.waits.get? label with
    | none => exact .nil
    | some w =>
      have hwait := chronicle_wait ht h k
      change Chronicle ⟨m, k⟩ [.begin label] ⟨Machine.background _ _, k⟩
      obtain hsame | ⟨event, htold⟩ := ({ m with
        waits := m.waits.erase label } : Machine).background_eq
          (Run.isolated w.frames (Run.immediateBlock w.body))
      · rw [hsame]
        exact hwait
      · rw [htold]
        exact hwait.turn (.code _ k (.tell event))
  | spawn function =>
    simp only [runTask]
    split
    next index _ =>
      exact (turns_isolated none (turns_calling.immediateCall index)).chronicle ht k
    next => exact .nil
  | pulseEnd output =>
    have hcalling : Calling (Turns fun _ => False) := turns_calling
    have hwrite := hcalling.closed.congruence.writeKey (pulseKey output) .zero
    exact (turns_handling.background (hwrite.2 m).1).chronicle ht k
  | stimulus stimulus => exact chronicle_apply ht stimulus k
  | socketConnected id => exact (turns_handling.completeConnect hnetwork m id).chronicle ht k
  | socketDeliver id data =>
    have hreceived (m : Machine) (data name : String) : m.Turns (fun _ => False)
        { m with scope.globals := addReceived data m.scope.globals name } :=
      turns_of_turn fun k => .received m k data name
    exact (turns_handling.deliver hreceived hnetwork m id data).chronicle ht k
  | socketEvent trigger id => exact (turns_handling.dispatch m trigger _).chronicle ht k

/-- One machine comes after another one on some chronicle, whatever is on record. -/
abbrev Goes : Machine → Machine → Prop :=
  Turns fun _ => True

theorem goes_passing : Passing Goes :=
  turns_passing (fun _ _ => trivial) fun _ => trivial

private theorem goes_pump (deadline : Nat) : Run.Relates (Along Goes) (Run.pump deadline) :=
  (goes_passing.and balanced_passing).pump deadline

/-- A machine no code of which runs, with signals that have normal values. -/
structure Idle (m : Machine) : Prop where
  frames : m.scope.frames = []
  signals : m.signals.Typed

/-- One machine comes after another one on some chronicle while no code runs. -/
def Hosted (m m' : Machine) : Prop :=
  m.Idle → (∃ past, Chronicle ⟨m, []⟩ past ⟨m', []⟩) ∧ m'.scope.frames = []

theorem Hosted.trans {a b c : Machine} (h : a.Hosted b) (h' : b.Hosted c) : a.Hosted c := by
  intro hidle
  obtain ⟨⟨past, hpast⟩, hframes⟩ := h hidle
  obtain ⟨⟨later, hlater⟩, hframes'⟩ := h' ⟨hframes, hpast.signals_typed hidle.signals⟩
  exact ⟨⟨_, hpast.trans hlater⟩, hframes'⟩

theorem Along.hosted {m m' : Machine} (h : Along Goes m m') : m.Hosted m' := by
  intro hidle
  obtain ⟨past, hpast, -⟩ := h.1 hidle.signals []
  refine ⟨⟨past, hpast⟩, ?_⟩
  have hshape := h.2.scope.frames
  rw [hidle.frames] at hshape
  generalize m'.scope.frames = frames at hshape
  cases hshape
  rfl

private theorem hosted_of_goes {m m' : Machine} (h : m.Goes m') (hscope : m'.scope = m.scope) :
    m.Hosted m' := by
  intro hidle
  obtain ⟨past, hpast, -⟩ := h hidle.signals []
  exact ⟨⟨past, hpast⟩, by rw [hscope]; exact hidle.frames⟩

private theorem hosted_main {m : Machine} {frame : Frame} (body : List Stmt) :
    m.Hosted (((m.beginMain frame).after (Run.block Run.pump m.fuel body)).endMain
      m.scope.frames) := by
  intro hidle
  have hfirst := Chronicle.single (.beginMain frame hidle.frames)
  obtain ⟨past, hpast, -⟩ := ((turns_calling.respected goes_pump).block m.fuel body
    (m.beginMain frame)).1 hidle.signals [.host []]
  rw [hidle.frames]
  exact ⟨⟨_, (hfirst.trans hpast).turn (.endMain _ [] [])⟩, rfl⟩

private theorem hosted_hosting : Hosting Hosted where
  refl _ hidle := ⟨⟨[], .nil⟩, hidle.frames⟩
  trans := .trans
  apply m stimulus := Along.hosted ⟨goes_passing.apply m stimulus, balanced_passing.apply m _⟩
  receive m := hosted_of_goes (goes_passing.receive m) rfl
  idle h := hosted_of_goes (goes_passing.idle h) rfl
  task h := Along.hosted ⟨goes_passing.task h, balanced_passing.task h⟩
  waitUntil m deadline := hosted_of_goes (goes_passing.waitUntil m deadline) rfl
  load m text _ := ⟨⟨_, .single (.load m text)⟩, m.frames_load text⟩
  reset m _ := ⟨⟨_, .single (.reset m)⟩, rfl⟩
  abort m wish := hosted_of_goes (turns_of_turn fun k => .abort m k wish) rfl
  tell m event := hosted_of_goes (turns_handling.tell m event) rfl
  main body _ := hosted_main body
  drop m := hosted_of_goes (turns_schedule (.drain m.schedule)) rfl
  plan m delay stimulus :=
    hosted_of_goes (turns_schedule (.plan m.schedule delay (.stimulus stimulus))) rfl
  send m stimulus := hosted_of_goes (turns_schedule (.send m.schedule stimulus)) rfl
  files m f := hosted_of_goes (turns_of_turn fun k => .files m k f) rfl
  network m f := hosted_of_goes (turns_of_turn fun k => .network m k f) rfl

private theorem new_idle (config : Settings) : (new config).Idle :=
  ⟨rfl, SignalTable.typed_empty⟩

theorem chronicle_afterActions (config : Settings) (actions : List HostAction) :
    ∃ past, Chronicle ⟨new config, []⟩ past ⟨(new config).afterActions actions, []⟩ :=
  (hosted_hosting.actions (new config) actions (new_idle config)).1

end Machine

end ControlLogic
