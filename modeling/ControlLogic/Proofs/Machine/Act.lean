import ControlLogic.Proofs.Machine.Balance
import ControlLogic.Proofs.Machine.Moment
import ControlLogic.Proofs.Network.Sockets

/-!
What code does to planned work, to waits and to the network, one thing after another. An elementary
run leaves these alone or does one of a few things to them, each of which is an act on record.
-/

set_option autoImplicit false
set_option relaxedAutoImplicit false

namespace ControlLogic

/--
An act on record. Work is planned under the number of a timer; a wait is armed, dropped, moved, and
its body begun; a socket starts to connect, with the timer of the completion, and is closed; work is
taken when it is due; a program is forgotten with all its work; and a host changes the network.
-/
inductive Act where
  | plan (timer now delay : Nat) (task : Task)
  | arm (label : String) (timer now delay : Nat) (body : List Stmt)
  | cancel (label : String) (timer : Nat)
  | retime (label : String) (timer now delay : Nat)
  | begin (label : String) (timer now : Nat) (body : List Stmt)
  | connect (socket : Int) (timer now : Nat)
  | disconnect (socket : Int)
  | take (timer now : Nat) (task : Task)
  | clear
  | rewire

/-- Steps one after another, and the acts on record, the latest first. -/
inductive Chain {σ : Type} (R : σ → List Act → σ → Prop) : σ → List Act → σ → Prop where
  | refl (s : σ) : Chain R s [] s
  | step {s s' s'' : σ} {history acts : List Act} :
    Chain R s history s' → R s' acts s'' → Chain R s (acts ++ history) s''

namespace Chain

variable {σ : Type} {R : σ → List Act → σ → Prop}

theorem single {s s' : σ} {acts : List Act} (h : R s acts s') : Chain R s acts s' := by
  have hstep := Chain.step (.refl s) h
  rwa [List.append_nil] at hstep

theorem trans {s s' s'' : σ} {history later : List Act} (h : Chain R s history s')
    (h' : Chain R s' later s'') : Chain R s (later ++ history) s'' := by
  induction h' with
  | refl => exact h
  | step _ hstep ih =>
    rw [List.append_assoc]
    exact .step ih hstep

theorem fold {T : σ → σ → Prop} (refl : ∀ s, T s s) (trans : ∀ {a b c : σ}, T a b → T b c → T a c)
    (hstep : ∀ {s s' : σ} {acts : List Act}, R s acts s' → T s s') {s s' : σ} {acts : List Act}
    (h : Chain R s acts s') : T s s' := by
  induction h with
  | refl => exact refl _
  | step _ hlast ih => exact trans ih (hstep hlast)

end Chain

namespace Machine

/-- Nothing is done to planned work, to waits and to the network. -/
structure Still (m m' : Machine) : Prop extends Balanced m m' where
  schedule : m'.schedule = m.schedule
  waits : m'.waits = m.waits
  network : m'.network = m.network

private theorem still_refl (m : Machine) : m.Still m :=
  ⟨m.balanced_refl, rfl, rfl, rfl⟩

def arm (m : Machine) (delay : Nat) (label : String) (body : List Stmt) : Machine :=
  { m with
    schedule := (m.schedule.plan delay (.waitBody label)).2
    waits := m.waits.insert label ⟨m.schedule.nextId, body, m.scope.frames⟩ }

def connect (m : Machine) (socket : Int) (address : String) (port : Int) : Machine :=
  { m with
    network := (m.network.connect socket address port).2
    schedule := (m.schedule.plan m.config.connectDelay (.socketConnected socket)).2 }

theorem after_cancelWait {m : Machine} {label : String} {w : PendingWait}
    (h : m.waits.get? label = some w) : m.after (Run.cancelWait label) =
      { m with waits := m.waits.erase label, schedule := (m.schedule.cancel w.timer).2 } := by
  unfold Run.cancelWait
  rw [after_modify, h]

theorem after_cancelWait_of_free {m : Machine} {label : String} (h : m.waits.get? label = none) :
    m.after (Run.cancelWait label) = m := by
  unfold Run.cancelWait
  rw [after_modify, h]

theorem after_cancelAllWaits (m : Machine) : m.after Run.cancelAllWaits =
    { m with
      waits := {}
      schedule :=
        m.waits.toList.foldl (fun s entry => (s.cancel entry.2.timer).2) m.schedule } := by
  change ({ m with waits := {}, schedule := m.waits.fold _ _ } : Machine) = _
  rw [Std.HashMap.fold_eq_foldl_toList]

theorem after_retimeWait {m : Machine} {label : String} {w : PendingWait}
    (h : m.waits.get? label = some w) (delay : Nat) : m.after (Run.retimeWait delay label) =
      { m with schedule := (m.schedule.retime w.timer delay).2 } := by
  unfold Run.retimeWait
  rw [after_modify, h]

theorem after_retimeWait_of_free {m : Machine} {label : String} (h : m.waits.get? label = none)
    (delay : Nat) : m.after (Run.retimeWait delay label) = m := by
  unfold Run.retimeWait
  rw [after_modify, h]

/-- One thing that an elementary run does, and the acts on record. Waits are dropped and moved by
the runs that do so by their labels, and by nothing else. -/
inductive Does : Machine → List Act → Machine → Prop where
  | still {m m' : Machine} (h : m.Still m') : Does m [] m'
  | plan (m : Machine) (delay : Nat) {task : Task} (h : task.isPlain = true) :
    Does m [.plan m.schedule.nextId m.now delay task]
      { m with schedule := (m.schedule.plan delay task).2 }
  /- Waits. -/
  | arm (m : Machine) (delay : Nat) (label : String) (body : List Stmt)
    (h : ((m.waits.get? label).any fun w => m.schedule.isPending w.timer) = false) :
    Does m [.arm label m.schedule.nextId m.now delay body] (m.arm delay label body)
  | cancel {m : Machine} {label : String} {w : PendingWait} (h : m.waits.get? label = some w) :
    Does m [.cancel label w.timer] (m.after (Run.cancelWait label))
  | cancelAll (m : Machine) :
    Does m (m.waits.toList.map fun entry => .cancel entry.1 entry.2.timer)
      (m.after Run.cancelAllWaits)
  | retime {m : Machine} {label : String} {w : PendingWait} (delay : Nat)
    (h : m.waits.get? label = some w) :
    Does m [.retime label w.timer m.now delay] (m.after (Run.retimeWait delay label))
  /- Sockets. -/
  | connect {m : Machine} {socket : Int} {address : String} {port : Int}
    (h : (m.network.connect socket address port).1 = 0) :
    Does m [.connect socket m.schedule.nextId m.now] (m.connect socket address port)
  -- The host wants the code to stop before the completion is planned; the code gets no answer.
  | dial {m : Machine} {socket : Int} {address : String} {port : Int}
    (h : (m.network.connect socket address port).1 = 0) (habort : m.mustAbort = true) :
    Does m [] { m with network := (m.network.connect socket address port).2 }
  | disconnect {m : Machine} {socket : Int} (h : (m.network.disconnect socket).1 = 0) :
    Does m [.disconnect socket] { m with network := (m.network.disconnect socket).2 }
  | send (m : Machine) (socket : Int) (data : String) :
    Does m [] { m with network := (m.network.send socket data).2.2 }
  | ask {m : Machine} {socket : Int} {data answer : String}
    (h : (m.network.send socket data).2.1 = some answer) :
    Does m [.plan m.schedule.nextId m.now m.config.responseDelay (.socketDeliver socket answer)]
      { m with
        network := (m.network.send socket data).2.2
        schedule :=
          (m.schedule.plan m.config.responseDelay (.socketDeliver socket answer)).2 }
  | listen (m : Machine) (socket port : Int) :
    Does m [] { m with network := (m.network.listen socket port).2 }
  | enableUdp (m : Machine) (socket : Int) (address : String) (port : Int) :
    Does m [] { m with network := (m.network.enableUdp socket address port).2 }

theorem Does.balanced {m m' : Machine} {acts : List Act} (h : m.Does acts m') :
    m.Balanced m' := by
  cases h with
  | still h => exact h.toBalanced
  | cancel h =>
    rw [after_cancelWait h]
    exact ⟨rfl, rfl, rfl, Scope.sameShape_refl _⟩
  | retime delay h =>
    rw [after_retimeWait h]
    exact ⟨rfl, rfl, rfl, Scope.sameShape_refl _⟩
  | _ => exact ⟨rfl, rfl, rfl, Scope.sameShape_refl _⟩

theorem Does.changes {m m' : Machine} {acts : List Act} (h : m.Does acts m') :
    ∃ deeds, m.schedule.Changes deeds m'.schedule := by
  cases h with
  | still h => exact ⟨[], h.schedule ▸ .none _⟩
  | plan delay h => exact ⟨_, (Schedule.Change.plan _ _ _).changes⟩
  | arm delay label body h => exact ⟨_, (Schedule.Change.plan _ _ _).changes⟩
  | cancel h =>
    rw [after_cancelWait h]
    exact ⟨_, (Schedule.Change.cancel _ _).changes⟩
  | cancelAll =>
    rw [after_cancelAllWaits]
    exact ⟨_, (m.schedule.changes_cancel m.waits.toList).1⟩
  | retime delay h =>
    rw [after_retimeWait h]
    exact ⟨_, (Schedule.Change.retime _ _ _).changes⟩
  | connect h => exact ⟨_, (Schedule.Change.plan _ _ _).changes⟩
  | ask h => exact ⟨_, (Schedule.Change.plan _ _ _).changes⟩
  | _ => exact ⟨[], .none _⟩

/-- Some things that elementary runs do lead from one machine to another. -/
def Proceeds (m m' : Machine) : Prop :=
  ∃ acts, Chain Does m acts m'

private theorem proceeds_refl (m : Machine) : m.Proceeds m :=
  ⟨[], .refl m⟩

theorem Proceeds.trans {a b c : Machine} (h : a.Proceeds b) (h' : b.Proceeds c) :
    a.Proceeds c := by
  obtain ⟨history, hchain⟩ := h
  obtain ⟨later, hlater⟩ := h'
  exact ⟨later ++ history, hchain.trans hlater⟩

theorem Does.proceeds {m m' : Machine} {acts : List Act} (h : m.Does acts m') : m.Proceeds m' :=
  ⟨acts, .single h⟩

theorem Still.proceeds {m m' : Machine} (h : m.Still m') : m.Proceeds m' :=
  (Does.still h).proceeds

theorem Proceeds.balanced {m m' : Machine} (h : m.Proceeds m') : m.Balanced m' := by
  obtain ⟨acts, hchain⟩ := h
  exact hchain.fold balanced_refl Balanced.trans Does.balanced

end Machine

namespace Run

theorem still_tryWrite (m : Machine) (key : SlotKey) (v : Value) :
    m.Still (m.after (tryWrite key v)) := by
  obtain ⟨target, htarget, hafter⟩ | hafter := m.after_tryWrite key v
  · rw [hafter]
    have hshape := Machine.sameShape_writeTo htarget v
    obtain ⟨scope, signals, indices, last, log, hwritten⟩ := m.writeTo_eq key v target
    rw [hwritten] at hshape ⊢
    exact ⟨⟨rfl, rfl, rfl, hshape⟩, rfl, rfl, rfl⟩
  · rw [hafter]
    exact m.still_refl

theorem still_copyWhole (m : Machine) (frame : Frame) (parameter owner : String) :
    m.Still (m.copyWhole frame parameter owner) := by
  have hshape := m.sameShape_copyWhole frame parameter owner
  obtain ⟨scope, hcopied⟩ := m.copyWhole_eq frame parameter owner
  rw [hcopied] at hshape ⊢
  exact ⟨⟨rfl, rfl, rfl, hshape⟩, rfl, rfl, rfl⟩

private theorem proceeds_of_same {m m' : Machine} (hconfig : m'.config = m.config)
    (hmode : m'.mode = m.mode) (hdepth : m'.depth = m.depth) (hscope : m'.scope = m.scope)
    (hschedule : m'.schedule = m.schedule) (hwaits : m'.waits = m.waits)
    (hnetwork : m'.network = m.network) : m.Proceeds m' := by
  have hstill : m.Still m' :=
    ⟨⟨hconfig, hmode, hdepth, hscope ▸ Scope.sameShape_refl _⟩, hschedule, hwaits, hnetwork⟩
  exact hstill.proceeds

theorem plan_cases (m : Machine) (delay : Nat) (task : Task) :
    (m.mustAbort = true ∧ plan delay task m = .error .aborted m) ∨
      plan delay task m = .ok ()
        { m with schedule := (m.schedule.plan delay task).2 } := by
  by_cases h : m.mustAbort = true
  · have hleft : checkAbort m = .error .aborted m := by
      unfold checkAbort
      rw [get_bind, if_pos h]
      rfl
    exact .inl ⟨h, bind_error hleft _⟩
  · have hpassed : checkAbort m = .ok () m := by
      unfold checkAbort
      rw [get_bind, if_neg h]
      rfl
    exact .inr (bind_ok hpassed _)

private theorem proceeds_scheduleWait (delay : Nat) (label : Option String) (body : List Stmt) :
    Relates Machine.Proceeds (scheduleWait delay label body) := by
  have hlabel : Relates Machine.Proceeds (waitLabel label) := by
    unfold waitLabel
    split
    · exact fun m => m.proceeds_refl
    · exact relates_modifyGet fun m => proceeds_of_same rfl rfl rfl rfl rfl rfl rfl
  refine (relates_checkAbort Machine.proceeds_refl).bind .trans fun _ => ?_
  refine hlabel.bind .trans fun name m => ?_
  change m.Proceeds (m.after (if (m.waits.get? name).any _ then _ else _ : Run Unit))
  split
  · exact proceeds_of_same rfl rfl rfl rfl rfl rfl rfl
  next hfree => exact (Machine.Does.arm m delay name body (Bool.not_eq_true _ ▸ hfree)).proceeds

theorem withNetwork_ok {α : Type} (f : Network → α × Network) (m : Machine) :
    withNetwork f m = .ok (f m.network).1 { m with network := (f m.network).2 } :=
  rfl

private theorem proceeds_startConnect (id : Int) (address : String) (port : Int) :
    Relates Machine.Proceeds (startConnect id address port) := by
  intro m
  unfold startConnect
  rw [Machine.after_bind_ok (withNetwork_ok _ m)]
  split
  next hstatus =>
    change m.Proceeds (Machine.after { m with network := _ } (plan _ _ >>= _))
    obtain ⟨habort, hplan⟩ | hplan := plan_cases
      { m with network := (m.network.connect id address port).2 } m.config.connectDelay
      (.socketConnected id)
    · rw [Machine.after_error (bind_error hplan _)]
      exact (Machine.Does.dial hstatus habort).proceeds
    · rw [Machine.after_bind_ok hplan]
      exact (Machine.Does.connect hstatus).proceeds
  next hstatus => exact proceeds_of_same rfl rfl rfl rfl rfl rfl (Network.connect_refused hstatus)

private theorem proceeds_sendText (id : Int) (data : String) :
    Relates Machine.Proceeds (sendText id data) := by
  intro m
  unfold sendText
  rw [Machine.after_bind_ok (withNetwork_ok _ m)]
  dsimp only
  split
  next answer hreply =>
    change m.Proceeds (Machine.after { m with network := _ } (plan _ _ >>= _))
    obtain ⟨habort, hplan⟩ | hplan := plan_cases
      { m with network := (m.network.send id data).2.2 } m.config.responseDelay
      (.socketDeliver id answer)
    · rw [Machine.after_error (bind_error hplan _)]
      exact (Machine.Does.send m id data).proceeds
    · rw [Machine.after_bind_ok hplan]
      exact (Machine.Does.ask hreply).proceeds
  next => exact (Machine.Does.send m id data).proceeds

theorem Elementary.proceeds {α : Type} {x : Run α} (h : Elementary x) :
    Relates Machine.Proceeds x := by
  cases h with
  | tell event => exact relates_modify fun m => proceeds_of_same rfl rfl rfl rfl rfl rfl rfl
  | tick =>
    intro m
    rw [m.after_tick]
    exact proceeds_of_same rfl rfl rfl rfl rfl rfl rfl
  | tryWrite key v => exact fun m => (still_tryWrite m key v).proceeds
  | copyWhole frame parameter owner =>
    exact relates_modify fun m => (still_copyWhole m frame parameter owner).proceeds
  | plan delay h =>
    intro m
    obtain ⟨-, hplan⟩ | hplan := plan_cases m delay _
    · rw [Machine.after_error hplan]
      exact m.proceeds_refl
    · rw [Machine.after_ok hplan]
      exact (Machine.Does.plan m delay h).proceeds
  | scheduleWait delay label body => exact proceeds_scheduleWait delay label body
  | cancelWait name =>
    intro m
    cases h : m.waits.get? name with
    | some w => exact (Machine.Does.cancel h).proceeds
    | none =>
      rw [Machine.after_cancelWait_of_free h]
      exact m.proceeds_refl
  | cancelAllWaits => exact fun m => (Machine.Does.cancelAll m).proceeds
  | retimeWait delay name =>
    intro m
    cases h : m.waits.get? name with
    | some w => exact (Machine.Does.retime delay h).proceeds
    | none =>
      rw [Machine.after_retimeWait_of_free h]
      exact m.proceeds_refl
  | holdSection name =>
    exact relates_modify fun m => proceeds_of_same rfl rfl rfl rfl rfl rfl rfl
  | freeSection name =>
    exact relates_modify fun m => proceeds_of_same rfl rfl rfl rfl rfl rfl rfl
  | withFiles f => exact relates_modifyGet fun m => proceeds_of_same rfl rfl rfl rfl rfl rfl rfl
  | setGather gather =>
    exact relates_modify fun m => proceeds_of_same rfl rfl rfl rfl rfl rfl rfl
  | setChance chance =>
    exact relates_modify fun m => proceeds_of_same rfl rfl rfl rfl rfl rfl rfl
  | connect id address port => exact proceeds_startConnect id address port
  | disconnect id =>
    refine relates_modifyGet fun m => ?_
    by_cases hstatus : (m.network.disconnect id).1 = 0
    · exact (Machine.Does.disconnect hstatus).proceeds
    · exact proceeds_of_same rfl rfl rfl rfl rfl rfl (Network.disconnect_refused hstatus)
  | send id data => exact proceeds_sendText id data
  | listen id port => exact relates_modifyGet fun m => (Machine.Does.listen m id port).proceeds
  | enableUdp id address port =>
    exact relates_modifyGet fun m => (Machine.Does.enableUdp m id address port).proceeds

end Run

end ControlLogic
