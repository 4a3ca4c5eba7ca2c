import ControlLogic.Proofs.Machine.Depth
import ControlLogic.Proofs.Machine.Waits

/-!
Connections and the timers that complete them. A timer is planned when a connection is started, and
is due just as much later as the settings say. It is not dropped when the socket is closed, so that
it completes its own connection only if the socket is not closed in between; else it may complete
one that was started later.
-/

set_option autoImplicit false
set_option relaxedAutoImplicit false

namespace ControlLogic

/-- Sockets are still filed under their own numbers, and those that were open and were not closed
are still open, so that no connection was started for them. -/
def Network.Upholds (net : Network) (acts : List Act) (net' : Network) : Prop :=
  net'.Orderly ∧ ∀ socket, net.IsOpen socket → .disconnect socket ∉ acts →
    net'.IsOpen socket ∧ ∀ timer now, .connect socket timer now ∉ acts

namespace Network.Orderly

variable {net net' : Network} (hnet : net.Orderly)
include hnet

private theorem upholds_serves {id : Int} (h : net.Serves id net') {acts : List Act}
    (hacts : ∀ socket timer now, .connect socket timer now ∉ acts) : net.Upholds acts net' :=
  ⟨hnet.replaces h, fun socket hopen _ =>
    ⟨hopen.replaces hnet h fun _ _ _ hkept => hkept, hacts socket⟩⟩

private theorem upholds_same (h : net' = net) {acts : List Act}
    (hacts : ∀ socket timer now, .connect socket timer now ∉ acts) : net.Upholds acts net' :=
  hnet.upholds_serves (.inl h : net.Serves 0 net') hacts

private theorem upholds_connect {id : Int} {address : String} {port : Int}
    (h : (net.connect id address port).1 = 0) (timer now : Nat) :
    net.Upholds [.connect id timer now] (net.connect id address port).2 := by
  have hserves := net.serves_connect id address port
  refine ⟨hnet.replaces hserves, fun socket hopen _ => ?_⟩
  refine ⟨hopen.replaces hnet hserves fun _ _ _ hkept => hkept, fun timer' now' hact => ?_⟩
  cases List.mem_singleton.mp hact
  exact not_isOpen_of_connect h hopen

private theorem upholds_disconnect (id : Int) :
    net.Upholds [.disconnect id] (net.disconnect id).2 := by
  have hcloses := net.replaces_disconnect id
  refine ⟨hnet.replaces hcloses, fun socket hopen hother => ?_⟩
  refine ⟨hopen.replaces hnet hcloses fun hself => ?_, by simp⟩
  subst hself
  exact absurd List.mem_cons_self hother

end Network.Orderly

namespace Machine

private theorem Does.upholds {m m' : Machine} {acts : List Act} (h : m.Does acts m')
    (hnet : m.network.Orderly) : m.network.Upholds acts m'.network := by
  cases h with
  | still h => exact hnet.upholds_same h.network (by simp)
  | cancel h =>
    rw [after_cancelWait h]
    exact hnet.upholds_same rfl (by simp)
  | retime delay h =>
    rw [after_retimeWait h]
    exact hnet.upholds_same rfl (by simp)
  | connect h => exact hnet.upholds_connect h _ _
  | dial h habort => exact hnet.upholds_serves (m.network.serves_connect _ _ _) (by simp)
  | disconnect h => exact hnet.upholds_disconnect _
  | send socket data => exact hnet.upholds_serves (m.network.serves_send _ _) (by simp)
  | ask h => exact hnet.upholds_serves (m.network.serves_send _ _) (by simp)
  | listen socket port => exact hnet.upholds_serves (m.network.serves_listen _ _) (by simp)
  | enableUdp socket address port =>
    exact hnet.upholds_serves (m.network.serves_enableUdp _ _ _) (by simp)
  | _ => exact hnet.upholds_same rfl (by simp)

private theorem Work.upholds {m m' : Machine} {acts : List Act} (h : m.Work acts m')
    (hnet : m.network.Orderly) : m.network.Upholds acts m'.network := by
  cases h with
  | does h => exact h.upholds hnet
  | enter frame h => exact hnet.upholds_same rfl (by simp)
  | leave => exact hnet.upholds_same rfl (by simp)

end Machine

private theorem Move.upholds {s s' : Moment} {acts : List Act} (h : Move s acts s')
    (hnet : s.machine.network.Orderly) (hclear : .clear ∉ acts) (hrewire : .rewire ∉ acts) :
    s.machine.network.Upholds acts s'.machine.network := by
  cases h with
  | code k h => exact h.upholds hnet
  | @complete m k deadline timer socket h =>
    exact hnet.upholds_serves (m.network.serves_completeConnect socket) (by simp)
  | @deliver m k deadline timer socket data h =>
    exact hnet.upholds_serves (m.network.serves_deliver socket data) (by simp)
  | reset m k => exact absurd List.mem_cons_self hclear
  | load m k text => exact absurd List.mem_cons_self hclear
  | rewire m k f => exact absurd List.mem_cons_self hrewire
  | _ => exact hnet.upholds_same rfl (by simp)

theorem Move.orderly {s s' : Moment} {acts : List Act} (h : Move s acts s')
    (hnet : s.machine.network.Orderly) (hrewire : .rewire ∉ acts) :
    s'.machine.network.Orderly := by
  by_cases hclear : .clear ∈ acts
  · cases h with
    | reset m k => exact Network.orderly_of_empty rfl
    | load m k text => exact (Network.orderly_of_empty rfl).grows (m.declares_load text).network
    | code k h => exact (h.upholds hnet).1
    | _ => simp at hclear
  · exact (h.upholds hnet hclear hrewire).1

theorem Trace.orderly {config : Settings} {history : List Act} {s : Moment}
    (h : Trace ⟨Machine.new config, []⟩ history s) (hrewire : .rewire ∉ history) :
    s.machine.network.Orderly := by
  induction h with
  | refl => exact Network.orderly_of_empty rfl
  | step _ hmove ih =>
    rw [List.mem_append, not_or] at hrewire
    exact hmove.orderly (ih hrewire.2) hrewire.1

/-- When the latest connection of a socket on record was started. -/
def Act.lastConnect? (socket : Int) : List Act → Option Nat
  | [] => none
  | .connect other _ now :: earlier =>
    if other = socket then some now else lastConnect? socket earlier
  | _ :: earlier => lastConnect? socket earlier

private theorem Act.lastConnect?_append {socket : Int} {later : List Act}
    (h : ∀ timer now, .connect socket timer now ∉ later) (timer now : Nat) (earlier : List Act) :
    lastConnect? socket (later ++ .connect socket timer now :: earlier) = some now := by
  induction later with
  | nil => exact if_pos rfl
  | cons act later ih =>
    have hrest := ih fun timer now hact => h timer now (List.mem_cons_of_mem _ hact)
    cases act with
    | connect other timer' now' =>
      have hother : other ≠ socket := by
        rintro rfl
        exact h timer' now' List.mem_cons_self
      exact (if_neg hother).trans hrest
    | _ => exact hrest

private theorem Move.isOpen_connect {s s' : Moment} {acts : List Act} (h : Move s acts s')
    (hnet : s.machine.network.Orderly) {socket : Int} {timer now : Nat}
    (hact : .connect socket timer now ∈ acts) :
    s'.machine.network.Orderly ∧ s'.machine.network.IsOpen socket := by
  cases h with
  | code k h =>
    refine ⟨(h.upholds hnet).1, ?_⟩
    cases h with
    | does h =>
      cases h with
      | connect h =>
        cases List.mem_singleton.mp hact
        exact Network.isOpen_of_connecting (hnet.status_connect h)
      | _ => simp at hact
    | _ => simp at hact
  | _ => simp at hact

/-- A connection of a socket is started under a timer at a moment on the way to another one; the
acts on record are those before and those since. -/
structure Moment.Dialed (origin : Moment) (earlier : List Act) (s₀ : Moment) (socket : Int)
    (timer : Nat) (later : List Act) (s : Moment) : Prop where
  before : Trace origin earlier s₀
  since : ∃ s₁, Move s₀ [.connect socket timer s₀.machine.now] s₁ ∧ Trace s₁ later s

theorem Moment.Dialed.step {origin s₀ s s' : Moment} {earlier later acts : List Act} {socket : Int}
    {timer : Nat} (h : origin.Dialed earlier s₀ socket timer later s) (hmove : Move s acts s') :
    origin.Dialed earlier s₀ socket timer (acts ++ later) s' := by
  obtain ⟨hbefore, s₁, hstart, htrace⟩ := h
  exact ⟨hbefore, s₁, hstart, htrace.step hmove⟩

/-- As long as a socket is not closed, and neither is the program forgotten nor does a host change
the network, the socket is open and no other connection of it is started. -/
theorem Moment.Dialed.isOpen {origin s₀ s : Moment} {earlier later : List Act} {socket : Int}
    {timer : Nat} (h : origin.Dialed earlier s₀ socket timer later s)
    (hnet : s₀.machine.network.Orderly) (hclear : .clear ∉ later)
    (hdisconnect : .disconnect socket ∉ later) (hrewire : .rewire ∉ later) :
    s.machine.network.IsOpen socket ∧ ∀ timer' now, .connect socket timer' now ∉ later := by
  obtain ⟨-, s₁, hstart, htrace⟩ := h
  have hopened := hstart.isOpen_connect hnet List.mem_cons_self
  -- The induction also carries the order of the sockets: without it, replacing one could touch
  -- another.
  suffices s.machine.network.Orderly ∧ s.machine.network.IsOpen socket ∧
      ∀ timer' now, .connect socket timer' now ∉ later from this.2
  induction htrace with
  | refl => exact ⟨hopened.1, hopened.2, by simp⟩
  | step _ hmove ih =>
    rw [List.mem_append, not_or] at hclear hdisconnect hrewire
    obtain ⟨hnet', hopen, hnone⟩ := ih hclear.2 hdisconnect.2 hrewire.2
    obtain ⟨hnet'', hopens⟩ := hmove.upholds hnet' hclear.1 hrewire.1
    obtain ⟨hopen', hnone'⟩ := hopens socket hopen hdisconnect.1
    refine ⟨hnet'', hopen', fun timer' now hact => ?_⟩
    rcases List.mem_append.mp hact with hlast | hbefore
    · exact hnone' timer' now hlast
    · exact hnone timer' now hbefore

private theorem Schedule.plan_live {τ : Type} {s : Schedule τ} {delay id due : Nat} {task task' : τ}
    (h : (s.plan delay task).2.tasks[id]? = some (due, task')) :
    s.tasks[id]? = some (due, task') ∨ id = s.nextId ∧ due = s.now + delay ∧ task' = task := by
  rw [s.getElem?_plan] at h
  split at h
  next hid =>
    cases h
    exact .inr ⟨hid.symm, rfl, rfl⟩
  next => exact .inl h

namespace Machine

/-- How a timer that completes a connection comes to be planned: it was before, or the connection is
started. -/
inductive Dials (m : Machine) (socket : Int) (timer due : Nat) : List Act → Prop where
  | before {acts : List Act}
    (hlive : m.schedule.tasks[timer]? = some (due, .socketConnected socket))
    (hclear : .clear ∉ acts) : Dials m socket timer due acts
  | start (hdue : due = m.now + m.config.connectDelay) :
    Dials m socket timer due [.connect socket timer m.now]

private theorem dials_plan {m : Machine} {delay : Nat} {task : Task} {socket : Int}
    {timer due : Nat}
    (htask : task ≠ .socketConnected socket)
    (hlive : (m.schedule.plan delay task).2.tasks[timer]? = some (due, .socketConnected socket))
    {acts : List Act} (hclear : .clear ∉ acts) : m.Dials socket timer due acts := by
  obtain hbefore | ⟨-, -, hself⟩ := Schedule.plan_live hlive
  · exact .before hbefore hclear
  · exact absurd hself.symm htask

private theorem Does.dials {m m' : Machine} {acts : List Act} (h : m.Does acts m') (hm : m.Matched)
    {socket : Int} {timer due : Nat}
    (hlive : m'.schedule.tasks[timer]? = some (due, .socketConnected socket)) :
    m.Dials socket timer due acts := by
  cases h with
  | still h => exact .before (h.schedule ▸ hlive) (by simp)
  | plan delay h =>
    refine dials_plan ?_ hlive (by simp)
    rintro rfl
    cases h
  | arm delay label body h => exact dials_plan (by simp) hlive (by simp)
  | cancel hw =>
    rw [after_cancelWait hw, m.schedule.getElem?_cancel] at hlive
    split at hlive
    · cases hlive
    · exact .before hlive (by simp)
  | cancelAll =>
    rw [after_cancelAllWaits, m.schedule.getElem?_cancelAll] at hlive
    split at hlive
    · cases hlive
    · exact .before hlive (by simp)
  | retime delay hw =>
    rw [after_retimeWait hw, m.schedule.getElem?_retime] at hlive
    split at hlive
    next hself =>
      -- What is moved is the body of a wait, and that completes no connection.
      subst hself
      obtain ⟨⟨old, task⟩, hold, hmoved⟩ := Option.map_eq_some_iff.mp hlive
      cases hm.task_eq hw hold
      cases hmoved
    next => exact .before hlive (by simp)
  | connect h =>
    obtain hbefore | ⟨rfl, hdue, hself⟩ := Schedule.plan_live hlive
    · exact .before hbefore (by simp)
    · cases hself
      exact .start hdue
  | ask h => exact dials_plan (by simp) hlive (by simp)
  | _ => exact .before hlive (by simp)

private theorem dials_take {m : Machine} {deadline taken : Nat} {task : Task}
    (h : (m.popDue deadline).1 = some (taken, task)) {socket : Int} {timer due : Nat}
    (hlive : (m.popDue deadline).2.schedule.tasks[timer]? = some (due, .socketConnected socket))
    {acts : List Act} (hclear : .clear ∉ acts) : m.Dials socket timer due acts := by
  obtain ⟨-, -, -, htasks⟩ := Schedule.popDue_some h
  have hleft := (htasks timer).symm.trans hlive
  split at hleft
  · cases hleft
  · exact .before hleft hclear

end Machine

private theorem Move.dials {s s' : Moment} {acts : List Act} (h : Move s acts s')
    (hs : s.machine.Matched) {socket : Int} {timer due : Nat}
    (hlive : s'.machine.schedule.tasks[timer]? = some (due, .socketConnected socket)) :
    s.machine.Dials socket timer due acts := by
  cases h with
  | code k h =>
    cases h with
    | does h => exact h.dials hs hlive
    | enter frame h => exact .before hlive (by simp)
    | leave => exact .before hlive (by simp)
  | clock k h htasks hnext => exact .before (htasks ▸ hlive) (by simp)
  | take k h hwait => exact Machine.dials_take h hlive (by simp)
  | beginWait k h hw => exact Machine.dials_take h hlive (by simp)
  | complete k h => exact Machine.dials_take h hlive (by simp)
  | deliver k h => exact Machine.dials_take h hlive (by simp)
  | reset m k => simp [Machine.reset, Schedule.clear] at hlive
  | load m k text =>
    rw [(m.declares_load text).schedule] at hlive
    simp [Machine.reset, Schedule.clear] at hlive
  | stimulus m k delay stimulus => exact Machine.dials_plan (by simp) hlive (by simp)
  | _ => exact .before hlive (by simp)

/-- Every timer that completes a connection was planned when one was started, for as much later as
the settings say. -/
private theorem Trace.dialed {config : Settings} {history : List Act} {s : Moment}
    (h : Trace ⟨Machine.new config, []⟩ history s) {socket : Int} {timer due : Nat}
    (hlive : s.machine.schedule.tasks[timer]? = some (due, .socketConnected socket)) :
    ∃ earlier s₀ later, Moment.Dialed ⟨Machine.new config, []⟩ earlier s₀ socket timer later s ∧
      history = later ++ .connect socket timer s₀.machine.now :: earlier ∧ .clear ∉ later ∧
      due = s₀.machine.now + config.connectDelay := by
  induction h with
  | refl => simp [Machine.new] at hlive
  | @step s' s'' history acts htrace hmove ih =>
    have hreached : Moment.Reaches ⟨Machine.new config, []⟩ s' := ⟨history, htrace⟩
    cases hmove.dials hreached.matched hlive with
    -- The timer was there before, so its start is the one known from then.
    | before hlive' hclear =>
      obtain ⟨earlier, s₀, later, hdialed, rfl, hnone, hdue⟩ := ih hlive'
      refine ⟨earlier, s₀, acts ++ later, hdialed.step hmove, ?_, ?_, hdue⟩
      · rw [List.append_assoc]
      · rw [List.mem_append, not_or]
        exact ⟨hclear, hnone⟩
    | start hdue =>
      refine ⟨history, s', [], ⟨htrace, s'', hmove, .refl s''⟩, rfl, by simp, ?_⟩
      rw [hdue, hreached.bounded.settings]

theorem Move.changes {s s' : Moment} {acts : List Act} (h : Move s acts s') :
    ∃ deeds, s.machine.schedule.Changes deeds s'.machine.schedule := by
  cases h with
  | code k h =>
    cases h with
    | does h => exact h.changes
    | enter frame h => exact ⟨[], .none _⟩
    | leave => exact ⟨[], .none _⟩
  | clock k h htasks hnext => exact ⟨_, h.changes⟩
  | take k h hwait => exact ⟨_, (Schedule.Change.popDue _ _).changes⟩
  | beginWait k h hw => exact ⟨_, (Schedule.Change.popDue _ _).changes⟩
  | complete k h => exact ⟨_, (Schedule.Change.popDue _ _).changes⟩
  | deliver k h => exact ⟨_, (Schedule.Change.popDue _ _).changes⟩
  | reset m k => exact ⟨_, (Schedule.Change.clear _).changes⟩
  | load m k text =>
    dsimp only
    rw [(m.declares_load text).schedule]
    exact ⟨_, (Schedule.Change.clear m.schedule).changes⟩
  | stimulus m k delay stimulus => exact ⟨_, (Schedule.Change.plan _ _ _).changes⟩
  | _ => exact ⟨[], .none _⟩

theorem Trace.onTime {config : Settings} {history : List Act} {s : Moment}
    (h : Trace ⟨Machine.new config, []⟩ history s) :
    ∃ deeds, s.machine.schedule.OnTime deeds := by
  induction h with
  | refl => exact ⟨[], Schedule.onTime_empty⟩
  | step _ hmove ih =>
    obtain ⟨deeds, honTime⟩ := ih
    obtain ⟨later, hchanges⟩ := hmove.changes
    exact ⟨later ++ deeds, hchanges.onTime honTime⟩

/--
Whatever a host does, with whatever program, and at every moment on the way: when a timer that
completes a connection of a socket is taken, just as much time has passed as the settings say since
a connection of the socket was started under this timer. And as long as the socket was not closed
since a connection of it was started, nor the program forgotten, nor the network changed by a host,
the socket is open, and that connection is the latest. For this the sockets have to be filed under
their own numbers, which they are unless a host changes the network.
-/
theorem connection_timers_are_exact (config : Settings) (actions : List HostAction) :
    let origin : Moment := ⟨Machine.new config, []⟩
    let m := (Machine.new config).afterActions actions
    origin.Reaches ⟨m, []⟩ ∧
    (∀ action : HostAction, Moment.Reaches ⟨m, []⟩ ⟨action.run m, []⟩) ∧
    ∀ (history : List Act) (s : Moment), Trace origin history s →
      (.rewire ∉ history → s.machine.network.Orderly) ∧
      (∀ deadline timer socket,
        (s.machine.popDue deadline).1 = some (timer, .socketConnected socket) →
          ∃ earlier s₀ later, origin.Dialed earlier s₀ socket timer later s ∧
            history = later ++ .connect socket timer s₀.machine.now :: earlier ∧
            .clear ∉ later ∧
            (s.machine.popDue deadline).2.now = s₀.machine.now + config.connectDelay) ∧
      ∀ earlier s₀ later socket timer, origin.Dialed earlier s₀ socket timer later s →
        s₀.machine.network.Orderly →
        .clear ∉ later → .disconnect socket ∉ later → .rewire ∉ later →
          s.machine.network.IsOpen socket ∧
            Act.lastConnect? socket (later ++ .connect socket timer s₀.machine.now :: earlier) =
              some s₀.machine.now := by
  intro origin m
  refine ⟨Machine.reaches_hosting.actions _ actions [],
    fun action => Machine.reaches_hosting.action m action [], fun history s htrace => ?_⟩
  refine ⟨htrace.orderly, fun deadline timer socket h => ?_, ?_⟩
  · obtain ⟨due, hlive, hnow, -⟩ := Schedule.popDue_some h
    obtain ⟨deeds, honTime⟩ := htrace.onTime
    obtain ⟨earlier, s₀, later, hdialed, hhistory, hclear, hdue⟩ := htrace.dialed hlive
    refine ⟨earlier, s₀, later, hdialed, hhistory, hclear, ?_⟩
    calc (s.machine.popDue deadline).2.now = max s.machine.now due := hnow
      _ = due := Nat.max_eq_right (honTime.due hlive).1
      _ = s₀.machine.now + config.connectDelay := hdue
  · intro earlier s₀ later socket timer hdialed hnet hclear hdisconnect hrewire
    obtain ⟨hopen, hnone⟩ := hdialed.isOpen hnet hclear hdisconnect hrewire
    exact ⟨hopen, Act.lastConnect?_append hnone timer _ earlier⟩

/-- A socket that a host has added starts to connect: the timer is taken when the delay has passed,
and the socket is open until then. -/
theorem added_socket_connects_on_time :
    let origin : Moment := ⟨Machine.new { connectDelay := 100 }, []⟩
    let added := { origin.machine with network := (Network.create {} .tcp .client).2 }
    let started := added.connect 0 "10.0.0.1" 80
    Trace origin [.connect 0 1 0, .rewire] ⟨started, []⟩ ∧
      (started.popDue 200).1 = some (1, .socketConnected 0) ∧ (started.popDue 200).2.now = 100 ∧
      added.network.Orderly ∧ origin.Dialed [.rewire] ⟨added, []⟩ 0 1 [] ⟨started, []⟩ ∧
      started.network.IsOpen 0 ∧ Act.lastConnect? 0 [.connect 0 1 0, .rewire] = some 0 := by
  intro origin added started
  have hadded : Trace origin [.rewire] ⟨added, []⟩ :=
    .single (.rewire origin.machine [] fun net => (net.create .tcp .client).2)
  have hstart : Move ⟨added, []⟩ [.connect 0 1 0] ⟨started, []⟩ := .code [] (.does (.connect rfl))
  have htrace : Trace origin [.connect 0 1 0, .rewire] ⟨started, []⟩ := hadded.step hstart
  have hplanned := added.schedule.getElem?_plan 100 (.socketConnected 0)
  have htaken : (started.popDue 200).1 = some (1, .socketConnected 0) := by
    refine Schedule.popDue_of_least ((hplanned 1).trans (if_pos rfl)) (by decide) ?_
    intro id' due' task' hlive
    have hlive' := (hplanned id').symm.trans hlive
    split at hlive'
    next hid =>
      cases hlive'
      subst hid
      exact .inr ⟨rfl, Nat.le_refl _⟩
    next => simp [added, origin, Machine.new] at hlive'
  have hnet : added.network.Orderly := (Network.orderly_of_empty rfl).create .tcp .client
  have hdialed : origin.Dialed [.rewire] ⟨added, []⟩ 0 1 [] ⟨started, []⟩ :=
    ⟨hadded, _, hstart, .refl _⟩
  obtain ⟨-, htimers, hstarts⟩ := (connection_timers_are_exact { connectDelay := 100 } []).2.2 _ _
    htrace
  obtain ⟨hopen, hlast⟩ :=
    hstarts _ _ _ 0 1 hdialed hnet List.not_mem_nil List.not_mem_nil List.not_mem_nil
  obtain ⟨earlier, s₀, later, -, hhistory, -, hnow⟩ := htimers 200 1 0 htaken
  have hzero : s₀.machine.now = 0 := by
    have hmem : Act.connect 0 1 s₀.machine.now ∈ [Act.connect 0 1 0, .rewire] := by
      rw [hhistory]
      exact List.mem_append_right _ List.mem_cons_self
    simpa using hmem
  rw [hzero] at hnow
  exact ⟨htrace, htaken, hnow, hnet, hdialed, hopen, hlast⟩

/-- A connection that is closed and started again at 60: the timer of the first one, which is due at
100, completes the second one, although the delay is 100. -/
theorem closed_connection_completes_next_one :
    let origin : Moment := ⟨Machine.new { connectDelay := 100 }, []⟩
    let added := { origin.machine with network := (Network.create {} .tcp .client).2 }
    let first := added.connect 0 "10.0.0.1" 80
    let closed := { first with network := (first.network.disconnect 0).2 }
    let passed := (closed.waitUntil 60).2
    let second := passed.connect 0 "10.0.0.1" 80
    let history := [.connect 0 2 60, .disconnect 0, .connect 0 1 0, .rewire]
    Trace origin history ⟨second, []⟩ ∧ Act.lastConnect? 0 history = some 60 ∧
      (second.popDue 200).1 = some (1, .socketConnected 0) ∧ (second.popDue 200).2.now = 100 ∧
      second.network.status 0 = .connecting ∧
      (second.network.completeConnect 0).2.status 0 = .connected := by
  intro origin added first closed passed second history
  have hfirst (id : Nat) : closed.schedule.tasks[id]? =
      if 1 = id then some (100, .socketConnected 0) else none := by
    refine (added.schedule.getElem?_plan 100 (.socketConnected 0) id).trans ?_
    simp [added, origin, Machine.new]
  have hnow : passed.now = 60 := by
    have hmoment : min (closed.schedule.nextDue?.getD 60) 60 = 60 := by
      refine Schedule.min_nextDue?_eq fun {id due task} hlive => ?_
      rw [hfirst] at hlive
      split at hlive
      · cases hlive
        decide
      · cases hlive
    change (closed.schedule.waitUntil _).2.now = 60
    rw [hmoment]
    rfl
  have hnext : passed.schedule.nextId = 2 := closed.schedule.waitUntil_nextId _
  have htasks : passed.schedule.tasks = closed.schedule.tasks := closed.schedule.waitUntil_tasks _
  have hsecond (id : Nat) : second.schedule.tasks[id]? =
      if 2 = id then some (160, .socketConnected 0) else
        if 1 = id then some (100, .socketConnected 0) else none := by
    refine (passed.schedule.getElem?_plan 100 (.socketConnected 0) id).trans ?_
    rw [hnext, htasks, hfirst]
    change (if 2 = id then some (passed.now + 100, _) else _) = _
    rw [hnow]
  have hclosed : Trace origin [.disconnect 0, .connect 0 1 0, .rewire] ⟨closed, []⟩ := by
    have hadded : Trace origin [.rewire] ⟨added, []⟩ :=
      .single (.rewire origin.machine [] fun net => (net.create .tcp .client).2)
    have hstart : Move ⟨added, []⟩ [.connect 0 1 0] ⟨first, []⟩ := .code [] (.does (.connect rfl))
    exact (hadded.step hstart).step (.code [] (.does (.disconnect rfl)))
  have hpassed : Trace origin [.disconnect 0, .connect 0 1 0, .rewire] ⟨passed, []⟩ :=
    hclosed.step (.clock [] (.waitUntil closed.schedule 60) htasks
      (closed.schedule.waitUntil_nextId _))
  have hstart : Move ⟨passed, []⟩ [.connect 0 2 60] ⟨second, []⟩ := by
    have hconnect : Move ⟨passed, []⟩ [.connect 0 passed.schedule.nextId passed.now]
        ⟨second, []⟩ := .code [] (.does (.connect rfl))
    rwa [hnext, hnow] at hconnect
  have hleast : (second.popDue 200).1 = some (1, .socketConnected 0) := by
    refine Schedule.popDue_of_least ((hsecond 1).trans rfl) (by decide) ?_
    intro id' due' task' hlive
    rw [hsecond] at hlive
    split at hlive
    next =>
      cases hlive
      exact .inl (by omega : 100 < 160)
    next =>
      split at hlive
      next hid =>
        cases hlive
        subst hid
        exact .inr ⟨rfl, Nat.le_refl _⟩
      next => cases hlive
  obtain ⟨due, hlive, htime, -⟩ := Schedule.popDue_some hleast
  cases (hsecond 1).symm.trans hlive
  have htime' : (second.popDue 200).2.now = max passed.now 100 := htime
  rw [hnow] at htime'
  have hadded : added.network.Orderly := (Network.orderly_of_empty rfl).create .tcp .client
  have hnet : closed.network.Orderly :=
    (hadded.replaces (added.network.serves_connect 0 "10.0.0.1" 80)).replaces
      (first.network.replaces_disconnect 0)
  have hstatus : second.network.status 0 = .connecting := hnet.status_connect rfl
  refine ⟨hpassed.step hstart, rfl, hleast, htime', hstatus, ?_⟩
  have hnet' := hnet.replaces (closed.network.serves_connect 0 "10.0.0.1" 80)
  exact hnet'.status_completeConnect hstatus

end ControlLogic
