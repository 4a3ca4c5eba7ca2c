import ControlLogic.Proofs.Machine.Waits
import ControlLogic.Proofs.Network.Traffic

/-!
The mail of a machine: the replies that sockets are sent, from the moment they are asked for to the
moment they arrive, and the sockets that are connected and closed meanwhile. Each step of a machine
leaves the mail alone or does one of a few things to it, which is put down; all a host does goes
along such steps, as long as it leaves the sockets of the network alone.
-/

set_option autoImplicit false
set_option relaxedAutoImplicit false

namespace ControlLogic

/--
What is put down about the mail. A reply is asked for when a text is sent, under the number of a
timer; it arrives when that timer is taken, and is taken in or not; a socket gets connected, and is
closed; and everything is forgotten with the program.
-/
inductive Mail where
  | asked (socket : Int) (timer now : Nat) (text : String)
  | arrived (socket : Int) (timer now : Nat) (text : String) (taken : Bool)
  | opened (socket : Int)
  | closed (socket : Int)
  | forgotten
  deriving DecidableEq, Repr

namespace Machine

def Underway (m : Machine) (timer due : Nat) (socket : Int) (text : String) : Prop :=
  m.schedule.tasks[timer]? = some (due, .socketDeliver socket text)

/-- The same replies are under way, and the clock does not go past the time they are due. -/
structure Calm (m m' : Machine) : Prop where
  config : m'.config = m.config
  underway (timer due : Nat) (socket : Int) (text : String) :
    m'.Underway timer due socket text ↔ m.Underway timer due socket text
  numbers : m.schedule.nextId ≤ m'.schedule.nextId
  clock : m.now ≤ m'.now
  onTime {timer due : Nat} {socket : Int} {text : String} :
    m.Underway timer due socket text → m.now ≤ due → m'.now ≤ due

def ask (m : Machine) (socket : Int) (data answer : String) : Machine :=
  { m with
    network := (m.network.send socket data).2.2
    schedule := (m.schedule.plan m.config.responseDelay (.socketDeliver socket answer)).2 }

def arrive (m : Machine) (deadline : Nat) (socket : Int) (text : String) : Machine :=
  { (m.popDue deadline).2 with network := (m.network.deliver socket text).2 }

/-- A step of a machine, and what is put down about the mail. -/
inductive Post : Machine → List Mail → Machine → Prop where
  | quiet {m m' : Machine} (h : m.Calm m') (hnet : m.network.Undisturbed m'.network) :
    Post m [] m'
  | ask {m : Machine} {socket : Int} {data answer : String}
    (h : (m.network.send socket data).2.1 = some answer) :
    Post m [.asked socket m.schedule.nextId m.now answer] (m.ask socket data answer)
  | arrive {m : Machine} {deadline timer : Nat} {socket : Int} {text : String}
    (h : (m.popDue deadline).1 = some (timer, .socketDeliver socket text)) :
    Post m [.arrived socket timer (m.popDue deadline).2.now text
      (m.network.deliver socket text).1] (m.arrive deadline socket text)
  | opened {m m' : Machine} {socket : Int} (h : m.Calm m')
    (hnet : m.network.Opens socket m'.network) : Post m [.opened socket] m'
  | closed {m m' : Machine} {socket : Int} (h : m.Calm m')
    (hstatus : (m.network.disconnect socket).1 = 0)
    (hnet : m'.network = (m.network.disconnect socket).2) : Post m [.closed socket] m'
  | forget {m m' : Machine} (h : m.reset.Declares m') : Post m [.forgotten] m'

/-- Steps of a machine one after another, and what is put down about the mail, the latest last. -/
inductive Posts (m : Machine) : List Mail → Machine → Prop where
  | none : Posts m [] m
  | more {m' m'' : Machine} {log mail : List Mail} :
    Posts m log m' → Post m' mail m'' → Posts m (log ++ mail) m''

/-- One machine comes after another one by steps on whose mail there is a record, as long as waits
and timers agree, which they go on doing. -/
def Posted (m m' : Machine) : Prop :=
  m.Matched → m'.Matched ∧ ∃ log, m.Posts log m'

end Machine

theorem Schedule.Change.clock {τ : Type} {s s' : Schedule τ} {deeds : List Deed}
    (h : s.Change deeds s') :
    s.now ≤ s'.now ∧ ∀ {id due : Nat} {task : τ}, s.tasks[id]? = some (due, task) →
      s.now ≤ due → s'.now ≤ due := by
  have hstands {s' : Schedule τ} (hnow : s'.now = s.now) : s.now ≤ s'.now ∧
      ∀ {id due : Nat} {task : τ}, s.tasks[id]? = some (due, task) → s.now ≤ due →
        s'.now ≤ due := by
    rw [hnow]
    exact ⟨Nat.le_refl _, fun _ hdue => hdue⟩
  cases h with
  | retime id delay => exact hstands (s.retime_now id delay)
  | popDue deadline =>
    obtain ⟨-, hnow, -⟩ | ⟨_, due, _, -, -, -, hnow, -, -, hleast⟩ := s.popDue_cases deadline
    · exact hstands hnow
    · rw [hnow]
      exact ⟨Nat.le_max_left _ _, fun hlive hdue =>
        Nat.max_le.mpr ⟨hdue, Appointment.due_le_due (hleast hlive)⟩⟩
  | waitUntil deadline =>
    unfold Schedule.waitUntil
    split
    · exact hstands rfl
    · exact ⟨Nat.le_max_left _ _, fun hlive hdue =>
        Nat.max_le.mpr ⟨hdue, s.min_nextDue?_le deadline hlive⟩⟩
  | receive =>
    unfold Schedule.receive
    split
    · exact hstands rfl
    · exact hstands rfl
  | _ => exact hstands rfl

namespace Machine.Posts

theorem single {m m' : Machine} {mail : List Mail} (h : m.Post mail m') : m.Posts mail m' :=
  .more .none h

theorem trans {a b c : Machine} {log later : List Mail} (h : a.Posts log b)
    (h' : b.Posts later c) : a.Posts (log ++ later) c := by
  induction h' with
  | none =>
    rw [List.append_nil]
    exact h
  | more _ hpost ih =>
    rw [← List.append_assoc]
    exact .more ih hpost

end Machine.Posts

namespace Machine

private theorem Post.eq_nil_or_single {m m' : Machine} {mail : List Mail} (h : m.Post mail m') :
    mail = [] ∨ ∃ note, mail = [note] := by
  cases h with
  | quiet h hnet => exact .inl rfl
  | _ => exact .inr ⟨_, rfl⟩

theorem Posts.split {m m' : Machine} {log before after : List Mail} {note : Mail}
    (h : m.Posts log m') (hlog : log = before ++ note :: after) :
    ∃ a b, m.Posts before a ∧ a.Post [note] b ∧ b.Posts after m' := by
  induction h generalizing after with
  | none => simp at hlog
  | @more m₁ m₂ log mail hposts hpost ih =>
    obtain rfl | ⟨last, rfl⟩ := hpost.eq_nil_or_single
    · rw [List.append_nil] at hlog
      obtain ⟨a, b, hbefore, hnote, hafter⟩ := ih hlog
      refine ⟨a, b, hbefore, hnote, ?_⟩
      have hlast := hafter.more hpost
      rwa [List.append_nil] at hlast
    · rcases List.eq_nil_or_concat after with rfl | ⟨after, last', rfl⟩
      · obtain ⟨rfl, hlast⟩ := List.append_inj' hlog rfl
        cases hlast
        exact ⟨m₁, m₂, hposts, hpost, .none⟩
      · rw [List.concat_eq_append, ← List.cons_append, ← List.append_assoc] at hlog
        obtain ⟨hlog', hlast⟩ := List.append_inj' hlog rfl
        cases hlast
        obtain ⟨a, b, hbefore, hnote, hafter⟩ := ih hlog'
        rw [List.concat_eq_append]
        exact ⟨a, b, hbefore, hnote, hafter.more hpost⟩

/- Steps that leave the mail alone. -/

private theorem calm_of_underway {m m' : Machine} (hconfig : m'.config = m.config)
    (hunderway : ∀ timer due socket text,
      m'.Underway timer due socket text ↔ m.Underway timer due socket text)
    (hnext : m.schedule.nextId ≤ m'.schedule.nextId) (hnow : m'.now = m.now) : m.Calm m' := by
  refine ⟨hconfig, hunderway, hnext, Nat.le_of_eq hnow.symm, fun _ hdue => ?_⟩
  rw [hnow]
  exact hdue

private theorem calm_of_schedule {m m' : Machine} (hconfig : m'.config = m.config)
    (hschedule : m'.schedule = m.schedule) : m.Calm m' := by
  refine calm_of_underway hconfig (fun timer due socket text => ?_) ?_ ?_
  · unfold Underway
    rw [hschedule]
  · exact Nat.le_of_eq (congrArg Schedule.nextId hschedule.symm)
  · exact congrArg Schedule.now hschedule

theorem calm_network (m : Machine) (net : Network) : m.Calm { m with network := net } :=
  calm_of_schedule rfl rfl

private theorem Matched.calm_plan {m m' : Machine} (hm : m.Matched) {delay : Nat} {task : Task}
    (htask : ∀ socket text, task ≠ .socketDeliver socket text) (hconfig : m'.config = m.config)
    (hschedule : m'.schedule = (m.schedule.plan delay task).2) : m.Calm m' := by
  refine calm_of_underway hconfig (fun timer due socket text => ?_) ?_ ?_
  · unfold Underway
    rw [hschedule, m.schedule.getElem?_plan]
    split
    next hself =>
      subst hself
      constructor
      · intro hplanned
        cases hplanned
        exact absurd rfl (htask socket text)
      · intro hlive
        exact absurd (hm.fresh (Schedule.task?_eq_some.mpr ⟨due, hlive⟩)) (Nat.lt_irrefl _)
    next => rfl
  · rw [hschedule]
    exact Nat.le_succ _
  · unfold Machine.now
    rw [hschedule]
    rfl

private theorem Matched.not_underway {m : Machine} (hm : m.Matched) {label : String}
    {w : PendingWait}
    (hw : m.waits.get? label = some w) (due : Nat) (socket : Int) (text : String) :
    ¬ m.Underway w.timer due socket text := by
  intro hlive
  cases hm.task_eq hw hlive

theorem Does.calm {m m' : Machine} {acts : List Act} (h : m.Does acts m') (hm : m.Matched)
    (hask : ∀ timer now delay socket text,
      .plan timer now delay (.socketDeliver socket text) ∉ acts) : m.Calm m' := by
  cases h with
  | still h => exact calm_of_schedule h.config h.schedule
  | plan delay h =>
    refine hm.calm_plan (fun socket text htask => ?_) rfl rfl
    subst htask
    cases h
  | arm delay label body h => exact hm.calm_plan (by simp) rfl rfl
  | cancel hw =>
    rw [after_cancelWait hw]
    refine calm_of_underway rfl (fun timer due socket text => ?_) (Nat.le_refl _) rfl
    unfold Underway
    rw [m.schedule.getElem?_cancel]
    split
    next hself =>
      subst hself
      exact iff_of_false (by simp) (hm.not_underway hw due socket text)
    next => rfl
  | cancelAll =>
    rw [after_cancelAllWaits]
    obtain ⟨-, hnow, -⟩ := m.schedule.changes_cancel m.waits.toList
    refine calm_of_underway rfl (fun timer due socket text => ?_)
      (Nat.le_of_eq (m.schedule.nextId_cancelAll _).symm) hnow
    unfold Underway
    rw [m.schedule.getElem?_cancelAll]
    split
    next hmem =>
      obtain ⟨⟨label, w⟩, hentry, rfl⟩ := List.mem_map.mp hmem
      have hw : m.waits.get? label = some w :=
        Std.HashMap.mem_toList_iff_getElem?_eq_some.mp hentry
      exact iff_of_false (by simp) (hm.not_underway hw due socket text)
    next => rfl
  | retime delay hw =>
    rw [after_retimeWait hw]
    refine calm_of_underway rfl (fun timer due socket text => ?_)
      (Nat.le_of_eq (m.schedule.retime_nextId _ delay).symm) (m.schedule.retime_now _ delay)
    unfold Underway
    rw [m.schedule.getElem?_retime]
    split
    next hself =>
      -- What is moved is the body of a wait.
      subst hself
      refine iff_of_false (fun hmoved => ?_) (hm.not_underway hw due socket text)
      obtain ⟨⟨old, task⟩, hlive, hsame⟩ := Option.map_eq_some_iff.mp hmoved
      cases hm.task_eq hw hlive
      cases hsame
    next => rfl
  | connect h => exact hm.calm_plan (by simp) rfl rfl
  | ask h => exact absurd (List.mem_singleton.mpr rfl) (hask _ _ _ _ _)
  | _ => exact calm_of_schedule rfl rfl

private theorem calm_clock {m : Machine} {s : Schedule Task} (h : m.schedule.Change [] s)
    (htasks : s.tasks = m.schedule.tasks) (hnext : s.nextId = m.schedule.nextId) :
    m.Calm { m with schedule := s } := by
  refine ⟨rfl, fun timer due socket text => ?_, Nat.le_of_eq hnext.symm, h.clock.1, h.clock.2⟩
  unfold Underway
  rw [htasks]

private theorem calm_take {m m' : Machine} {deadline timer : Nat} {task : Task}
    (h : (m.popDue deadline).1 = some (timer, task))
    (htask : ∀ socket text, task ≠ .socketDeliver socket text) (hconfig : m'.config = m.config)
    (hschedule : m'.schedule = (m.popDue deadline).2.schedule) : m.Calm m' := by
  obtain ⟨hforth, honTime⟩ := (Schedule.Change.popDue m.schedule deadline).clock
  have hnow : m'.now = (m.schedule.popDue deadline).2.now := congrArg Schedule.now hschedule
  have hnext : m'.schedule.nextId = m.schedule.nextId := by
    rw [hschedule]
    exact m.schedule.popDue_nextId deadline
  refine ⟨hconfig, fun id due' socket text => ?_, Nat.le_of_eq hnext.symm, ?_,
    fun hunder hdue => ?_⟩
  · unfold Underway
    rw [hschedule]
    exact Schedule.popDue_keeps h (htask socket text) id due'
  · rw [hnow]
    exact hforth
  · rw [hnow]
    exact honTime hunder hdue

/- What each step does to the mail. -/

theorem Post.enableUdp {m : Machine} {socket : Int} {address : String} {port : Int}
    (h : (m.network.enableUdp socket address port).1 = 0) :
    m.Post [.opened socket]
      { m with network := (m.network.enableUdp socket address port).2 } :=
  .opened (m.calm_network _) (.enableUdp h)

theorem Post.disconnect {m : Machine} {socket : Int} (h : (m.network.disconnect socket).1 = 0) :
    m.Post [.closed socket] { m with network := (m.network.disconnect socket).2 } :=
  .closed (m.calm_network _) h rfl

private theorem posts_of_calm {m m' : Machine} (h : m.Calm m')
    (hnet : m.network.Undisturbed m'.network) :
    ∃ log, m.Posts log m' :=
  ⟨[], .single (.quiet h hnet)⟩

private theorem Does.posts {m m' : Machine} {acts : List Act} (h : m.Does acts m')
    (hm : m.Matched) :
    ∃ log, m.Posts log m' := by
  have hcalm := h.calm hm
  cases h with
  | still h =>
    refine posts_of_calm (hcalm (by simp)) ?_
    rw [h.network]
    exact m.network.undisturbed_refl
  | plan delay h =>
    refine posts_of_calm (hcalm ?_) m.network.undisturbed_refl
    intro timer now delay' socket text hact
    cases List.mem_singleton.mp hact
    cases h
  | arm delay label body h => exact posts_of_calm (hcalm (by simp)) m.network.undisturbed_refl
  | cancel hw =>
    rw [after_cancelWait hw] at hcalm ⊢
    exact posts_of_calm (hcalm (by simp)) m.network.undisturbed_refl
  | cancelAll => exact posts_of_calm (hcalm (by simp)) m.network.undisturbed_refl
  | retime delay hw =>
    rw [after_retimeWait hw] at hcalm ⊢
    exact posts_of_calm (hcalm (by simp)) m.network.undisturbed_refl
  | connect h => exact posts_of_calm (hcalm (by simp)) (m.network.undisturbed_connect _ _ _)
  | dial h habort => exact posts_of_calm (hcalm (by simp)) (m.network.undisturbed_connect _ _ _)
  | disconnect h => exact ⟨_, .single (.disconnect h)⟩
  | send socket data => exact posts_of_calm (hcalm (by simp)) (m.network.undisturbed_send _ _)
  | ask h => exact ⟨_, .single (.ask h)⟩
  | listen socket port =>
    by_cases hdone : (m.network.listen socket port).1 = 0
    · exact ⟨_, .single (.opened (hcalm (by simp)) (.listen hdone))⟩
    · refine posts_of_calm (hcalm (by simp)) ?_
      rw [Network.listen_refused hdone]
      exact m.network.undisturbed_refl
  | enableUdp socket address port =>
    by_cases hdone : (m.network.enableUdp socket address port).1 = 0
    · exact ⟨_, .single (.enableUdp hdone)⟩
    · refine posts_of_calm (hcalm (by simp)) ?_
      rw [Network.enableUdp_refused hdone]
      exact m.network.undisturbed_refl

private theorem posted_of_same {m m' : Machine} (hconfig : m'.config = m.config)
    (hschedule : m'.schedule = m.schedule) (hwaits : m'.waits = m.waits)
    (hnetwork : m'.network = m.network) : m.Posted m' := by
  intro hm
  refine ⟨hm.congr hwaits (Schedule.task?_congr (congrArg Schedule.tasks hschedule))
    (congrArg Schedule.nextId hschedule), ?_⟩
  refine posts_of_calm (calm_of_schedule hconfig hschedule) ?_
  rw [hnetwork]
  exact m.network.undisturbed_refl

private theorem posted_of_move {s s' : Moment} {acts : List Act} (hmove : Move s acts s')
    (h : s.machine.Matched → ∃ log, s.machine.Posts log s'.machine) :
    s.machine.Posted s'.machine :=
  fun hm => ⟨(hmove.tends hm).matched hm, h hm⟩

theorem Posted.trans {a b c : Machine} (h : a.Posted b) (h' : b.Posted c) : a.Posted c := by
  intro ha
  obtain ⟨hb, log, hlog⟩ := h ha
  obtain ⟨hc, later, hlater⟩ := h' hb
  exact ⟨hc, log ++ later, hlog.trans hlater⟩

private theorem posted_isolated {α : Type} {x : Run α} (hx : Run.Relates Posted x) (m : Machine)
    (frames : List Frame) : m.Posted (m.after (Run.isolated frames x)) := by
  have hbegin : m.Posted (m.isolate frames) := posted_of_same rfl rfl rfl rfl
  rw [after_isolated]
  exact (hbegin.trans (hx _)).trans (posted_of_same rfl rfl rfl rfl)

private theorem posted_wait {m : Machine} {deadline timer : Nat} {label : String} {w : PendingWait}
    (h : (m.popDue deadline).1 = some (timer, .waitBody label))
    (hw : m.waits.get? label = some w) {α : Type} {x : Run α} (hx : Run.Relates Posted x) :
    m.Posted ({ (m.popDue deadline).2 with waits := m.waits.erase label }.after
      (Run.isolated w.frames x)) := by
  have hbegin := posted_of_move (.beginWait [] h hw) fun _ =>
    posts_of_calm (calm_take h (by simp) rfl rfl) m.network.undisturbed_refl
  rw [after_isolated]
  exact (hbegin.trans (hx _)).trans (posted_of_same rfl rfl rfl rfl)

private theorem posted_hosted {α : Type} {x : Run α} (hx : Run.Relates Posted x) (m : Machine)
    (frame : Frame) : m.Posted (((m.beginMain frame).after x).endMain m.scope.frames) := by
  have hbegin : m.Posted (m.beginMain frame) := posted_of_same rfl rfl rfl rfl
  exact (hbegin.trans (hx _)).trans (posted_of_same rfl rfl rfl rfl)

private theorem posted_complete {m : Machine} {deadline timer : Nat} {socket : Int}
    (h : (m.popDue deadline).1 = some (timer, .socketConnected socket)) :
    m.Posted { (m.popDue deadline).2 with network := (m.network.completeConnect socket).2 } := by
  refine posted_of_move (.complete [] h) fun _ => ?_
  have hcalm : m.Calm { (m.popDue deadline).2 with
      network := (m.network.completeConnect socket).2 } := calm_take h (by simp) rfl rfl
  cases hdone : (m.network.completeConnect socket).1 with
  | true => exact ⟨_, .single (.opened hcalm (.complete hdone))⟩
  | false =>
    refine posts_of_calm hcalm ?_
    rw [Network.completeConnect_refused hdone]
    exact m.network.undisturbed_refl

private theorem posted_take {m : Machine} {deadline timer : Nat} {task : Task}
    (h : (m.popDue deadline).1 = some (timer, task))
    (hwait : ∀ label, task = .waitBody label → m.waits.get? label = none)
    (htask : ∀ socket data, task ≠ .socketDeliver socket data) : m.Posted (m.popDue deadline).2 :=
  posted_of_move (.take [] h hwait) fun _ =>
    posts_of_calm (calm_take h htask rfl rfl) m.network.undisturbed_refl

private theorem posted_running : Running Posted where
  refl m := posted_of_same rfl rfl rfl rfl
  trans := .trans
  work h := by
    cases h with
    | does h => exact posted_of_move (.code [] (.does h)) h.posts
    | enter frame h => exact posted_of_same rfl rfl rfl rfl
    | leave => exact posted_of_same rfl rfl rfl rfl
  abort m wish := posted_of_same rfl rfl rfl rfl
  isolated hx m := posted_isolated hx m []
  beginHandler m frame := posted_of_same rfl rfl rfl rfl
  hosted := posted_hosted
  clock {m} _ h htasks hnext := posted_of_move (.clock [] h htasks hnext) fun _ =>
    posts_of_calm (calm_clock h htasks hnext) m.network.undisturbed_refl
  take h hwait htask _ := posted_take h hwait htask
  wait := posted_wait
  complete := posted_complete
  deliver h := posted_of_move (.deliver [] h) fun _ => ⟨_, .single (.arrive h)⟩

private theorem posted_tracking : Tracking Posted where
  toRunning := posted_running
  stimulus h := (posted_take h (by simp) (by simp)).trans (posted_running.reacts.apply _ _)
  reset m := posted_of_move (.reset m []) fun _ => ⟨_, .single (.forget m.reset.declares_refl)⟩
  load m text :=
    posted_of_move (.load m [] text) fun _ => ⟨_, .single (.forget (m.declares_load text))⟩
  plan m delay stimulus := posted_of_move (.stimulus m [] delay stimulus) fun hm =>
    posts_of_calm (hm.calm_plan (by simp) rfl rfl) m.network.undisturbed_refl

end Machine

/-- Something a host does that leaves the sockets of the network alone; it may set what answers. -/
def HostAction.SparesSockets : HostAction → Prop
  | changeNetwork f => ∀ net, (f net).sockets = net.sockets
  | _ => True

theorem Machine.posts_afterActions (config : Settings) {actions : List HostAction}
    (h : ∀ action ∈ actions, action.SparesSockets) :
    ∃ log, (new config).Posts log ((new config).afterActions actions) := by
  refine (posted_tracking.operating.actions (fun f hf m => ?_) _ (matched_new config)).2
  have hspares : ∀ net, (f net).sockets = net.sockets := h _ hf
  refine posted_of_move (.rewire m [] f) fun _ => ?_
  exact posts_of_calm (m.calm_network _)
    (Network.undisturbed_of_sockets (hspares m.network))

end ControlLogic
