import ControlLogic.Proofs.Machine.Act
import ControlLogic.Proofs.Machine.Clock
import ControlLogic.Proofs.Schedule.Deadlines

/-!
How long what code does lasts. Times on a machine have a course in which deadlines are set; code
that runs to its end at once sets none, and time that passes up to a deadline passes under it.
-/

set_option autoImplicit false
set_option relaxedAutoImplicit false

namespace ControlLogic

open Run (longestDelay)

/-- Connecting and answers take no longer than the longest delay that a program can ask for. -/
structure Settings.IsMeasured (config : Settings) : Prop where
  connect : config.connectDelay ≤ longestDelay
  response : config.responseDelay ≤ longestDelay

namespace Machine

/-- Some deadlines are set from one machine to another, the latest first, and no delay is longer
than the longest. -/
structure Lasts (deadlines : List Nat) (m m' : Machine) : Prop where
  config : m'.config = m.config
  course (h : m.config.IsMeasured) (before : List Nat) : ∃ history,
    Timing.Course longestDelay ⟨m.schedule, before⟩ history ⟨m'.schedule, deadlines ++ before⟩

private theorem lasts_of_changes {m m' : Machine} {deeds : List Deed}
    (hconfig : m'.config = m.config)
    (h : m.schedule.Changes deeds m'.schedule) (hnow : m'.now ≤ m.now)
    (hdelays : m.config.IsMeasured → ∀ deed ∈ deeds, deed.delay ≤ longestDelay) :
    m.Lasts [] m' where
  config := hconfig
  course hm before := ⟨deeds, Timing.course_of_changes h (hdelays hm) hnow before⟩

theorem lasts_of_same {m m' : Machine} (hconfig : m'.config = m.config)
    (h : m'.schedule = m.schedule) : m.Lasts [] m' := by
  have hnone : m.schedule.Changes [] m'.schedule := by
    rw [h]
    exact .none m.schedule
  exact lasts_of_changes hconfig hnone (Nat.le_of_eq (congrArg Schedule.now h)) (by simp)

theorem lasts_refl (m : Machine) : m.Lasts [] m :=
  lasts_of_same rfl rfl

theorem Lasts.trans {a b c : Machine} {first later : List Nat} (h : a.Lasts first b)
    (h' : b.Lasts later c) : a.Lasts (later ++ first) c where
  config := h'.config.trans h.config
  course hm before := by
    obtain ⟨history, hfirst⟩ := h.course hm before
    obtain ⟨more, hlater⟩ := h'.course (h.config ▸ hm) (first ++ before)
    rw [← List.append_assoc] at hlater
    exact ⟨more ++ history, hfirst.trans hlater⟩

theorem Still.lasts {m m' : Machine} (h : m.Still m') : m.Lasts [] m' :=
  lasts_of_same h.config h.schedule

private theorem lasts_trans {a b c : Machine} (h : a.Lasts [] b) (h' : b.Lasts [] c) :
    a.Lasts [] c :=
  h.trans h'

private theorem lasts_plan (m : Machine) {delay : Nat} (task : Task)
    (hdelay : m.config.IsMeasured → delay ≤ longestDelay) :
    m.Lasts [] (m.after (Run.plan delay task)) := by
  obtain ⟨-, hplan⟩ | hplan := Run.plan_cases m delay task
  · rw [after_error hplan]
    exact m.lasts_refl
  · rw [after_ok hplan]
    refine lasts_of_changes rfl (Schedule.Change.plan m.schedule delay task).changes
      (Nat.le_refl _) fun hm deed hdeed => ?_
    rw [List.mem_singleton.mp hdeed]
    exact hdelay hm

end Machine

namespace Run

open Machine (Lasts lasts_refl lasts_trans lasts_of_same lasts_of_changes lasts_plan)

private theorem lasts_scheduleWait {delay : Nat} (hdelay : delay ≤ longestDelay)
    (label : Option String)
    (body : List Stmt) : Relates (Lasts []) (scheduleWait delay label body) := by
  have hlabel : Relates (Lasts []) (waitLabel label) := by
    unfold waitLabel
    split
    · exact fun m => m.lasts_refl
    · exact relates_modifyGet fun m => lasts_of_same rfl rfl
  refine (relates_checkAbort lasts_refl).bind lasts_trans fun _ => ?_
  refine hlabel.bind lasts_trans fun name => relates_inspect fun m => ?_
  split
  · exact relates_modify fun m => lasts_of_same rfl rfl
  · refine relates_modify fun m => lasts_of_changes rfl
      (Schedule.Change.plan m.schedule delay _).changes (Nat.le_refl _) fun _ deed hdeed => ?_
    rw [List.mem_singleton.mp hdeed]
    exact hdelay

private theorem lasts_retimeWait {delay : Nat} (hdelay : delay ≤ longestDelay) (name : String) :
    Relates (Lasts []) (retimeWait delay name) := by
  refine relates_modify fun m => ?_
  split
  next w h =>
    refine lasts_of_changes rfl (Schedule.Change.retime m.schedule w.timer delay).changes ?_
      fun _ deed hdeed => ?_
    · exact Nat.le_of_eq (m.schedule.retime_now w.timer delay)
    · rw [List.mem_singleton.mp hdeed]
      exact hdelay
  next => exact m.lasts_refl

private theorem lasts_cancelAllWaits : Relates (Lasts []) cancelAllWaits := by
  refine relates_modify fun m => ?_
  rw [Std.HashMap.fold_eq_foldl_toList]
  obtain ⟨hchanges, hnow, -⟩ := m.schedule.changes_cancel m.waits.toList
  exact lasts_of_changes rfl hchanges (Nat.le_of_eq hnow) (by simp)

private theorem lasts_startConnect (id : Int) (address : String) (port : Int) :
    Relates (Lasts []) (startConnect id address port) := by
  intro m
  unfold startConnect
  rw [Machine.after_bind_ok (withNetwork_ok _ m)]
  have hdialled : m.Lasts [] { m with network := (m.network.connect id address port).2 } :=
    lasts_of_same rfl rfl
  split
  · change m.Lasts [] (Machine.after { m with network := _ } (plan _ _ >>= _))
    have hplanned := lasts_trans hdialled
      (lasts_plan _ (.socketConnected id) fun hm => hm.connect)
    exact relates_after_bind (T := Lasts []) lasts_trans hplanned fun _ m => m.lasts_refl
  · exact hdialled

private theorem lasts_sendText (id : Int) (data : String) :
    Relates (Lasts []) (sendText id data) := by
  intro m
  unfold sendText
  rw [Machine.after_bind_ok (withNetwork_ok _ m)]
  have hsent : m.Lasts [] { m with network := (m.network.send id data).2.2 } :=
    lasts_of_same rfl rfl
  dsimp only
  split
  next answer hreply =>
    change m.Lasts [] (Machine.after { m with network := _ } (plan _ _ >>= _))
    have hplanned := lasts_trans hsent
      (lasts_plan _ (.socketDeliver id answer) fun hm => hm.response)
    exact relates_after_bind (T := Lasts []) lasts_trans hplanned fun _ m => m.lasts_refl
  next => exact hsent

theorem Measured.lasts {α : Type} {x : Run α} (h : Measured x) : Relates (Lasts []) x := by
  cases h with
  | tick =>
    intro m
    rw [m.after_tick]
    exact lasts_of_same rfl rfl
  | tryWrite key v => exact fun m => (still_tryWrite m key v).lasts
  | copyWhole frame parameter owner =>
    exact relates_modify fun m => (still_copyWhole m frame parameter owner).lasts
  | plan delay _ hdelay => exact fun m => lasts_plan m _ fun _ => hdelay
  | scheduleWait delay label body hdelay => exact lasts_scheduleWait hdelay label body
  | cancelWait name =>
    refine relates_modify fun m => ?_
    split
    next w h =>
      exact lasts_of_changes rfl (Schedule.Change.cancel m.schedule w.timer).changes
        (Nat.le_refl _) (by simp)
    next => exact m.lasts_refl
  | cancelAllWaits => exact lasts_cancelAllWaits
  | retimeWait delay name hdelay => exact lasts_retimeWait hdelay name
  | connect id address port => exact lasts_startConnect id address port
  | send id data => exact lasts_sendText id data
  | withFiles | disconnect | listen | enableUdp =>
    exact relates_modifyGet fun m => lasts_of_same rfl rfl
  | _ => exact relates_modify fun m => lasts_of_same rfl rfl

private theorem lasts_followed : Followed (Lasts []) where
  refl := lasts_refl
  trans := lasts_trans
  elementary := Measured.lasts
  inFrame frame hx := by
    intro m
    rw [m.after_inFrame]
    obtain ⟨hconfig, hcourse⟩ := hx (m.enter frame)
    exact ⟨hconfig, hcourse⟩

private theorem lasts_immediateBlock (body : List Stmt) :
    Relates (Lasts []) (immediateBlock body) := by
  intro m
  rw [m.after_immediateBlock]
  exact lasts_followed.pervades.block m.fuel body m

private theorem lasts_immediateCall (index : Nat) : Relates (Lasts []) (immediateCall index) := by
  intro m
  rw [m.after_immediateCall]
  exact lasts_followed.pervades.callAt m.fuel index [] m

private theorem lasts_handlerBody (h : Handler) : Relates (Lasts []) (handlerBody h) := by
  have C := lasts_followed.closed.congruence
  refine (C.localFrame h.locals {}).2.bind lasts_trans fun frame => ?_
  refine Relates.bind lasts_trans (relates_modify fun m => lasts_of_same rfl rfl) fun _ => ?_
  exact lasts_immediateBlock h.body

end Run

namespace Machine

private theorem lasts_isolated {α : Type} {x : Run α} (hx : Run.Relates (Lasts []) x) (m : Machine)
    (frames : List Frame) : m.Lasts [] (m.after (Run.isolated frames x)) := by
  rw [after_isolated]
  obtain ⟨hconfig, hcourse⟩ := hx (m.isolate frames)
  exact ⟨hconfig, hcourse⟩

private theorem lasts_background : Background (Lasts []) where
  refl := lasts_refl
  trans := lasts_trans
  tell m event := lasts_of_same rfl rfl
  abort m wish := lasts_of_same rfl rfl
  handler m h := lasts_isolated (Run.lasts_handlerBody h) m []
  input m _ s v h := by
    obtain ⟨signals, indices, last, hkept⟩ := m.keepInput_eq s (s.coerce v)
    rw [hkept]
    exact lasts_of_same rfl rfl
  thread m index := lasts_isolated (Run.lasts_immediateCall index) m []
  wait {m label w} h := by
    obtain ⟨hconfig, hcourse⟩ := lasts_isolated (Run.lasts_immediateBlock w.body)
      { m with waits := m.waits.erase label } w.frames
    exact ⟨hconfig, hcourse⟩
  received m data name := lasts_of_same rfl rfl
  network m f := lasts_of_same rfl rfl

private theorem lasts_runTask (m : Machine) (task : Task) : m.Lasts [] (m.runTask task) :=
  lasts_background.runTask m task fun output _ =>
    (Run.lasts_followed.closed.congruence.writeKey (pulseKey output) .zero).2 m

/-- What happens between two machines happens under a deadline and sets no other. -/
structure PassesUnder (deadline : Nat) (m m' : Machine) : Prop where
  config : m'.config = m.config
  course (h : m.config.IsMeasured) (deadlines : List Nat) : ∃ history,
    Timing.Course longestDelay ⟨m.schedule, deadline :: deadlines⟩ history
      ⟨m'.schedule, deadline :: deadlines⟩

variable {deadline : Nat}

theorem PassesUnder.trans {a b c : Machine} (h : a.PassesUnder deadline b)
    (h' : b.PassesUnder deadline c) : a.PassesUnder deadline c where
  config := h'.config.trans h.config
  course hm deadlines := by
    obtain ⟨history, hfirst⟩ := h.course hm deadlines
    obtain ⟨later, hsecond⟩ := h'.course (h.config ▸ hm) deadlines
    exact ⟨later ++ history, hfirst.trans hsecond⟩

private theorem Lasts.passesUnder {m m' : Machine} (h : m.Lasts [] m') (deadline : Nat) :
    m.PassesUnder deadline m' where
  config := h.config
  course hm deadlines := h.course hm (deadline :: deadlines)

private theorem passesUnder_of_change {m m' : Machine} {deeds : List Deed}
    (hconfig : m'.config = m.config)
    (h : m.schedule.Change deeds m'.schedule) (hdelays : ∀ deed ∈ deeds, deed.delay = 0)
    (hnow : m'.now ≤ max m.now deadline) : m.PassesUnder deadline m' where
  config := hconfig
  course _ deadlines :=
    ⟨deeds, .single (.change _ h (fun deed hdeed => by simp [hdelays deed hdeed]) hnow)⟩

private theorem passesUnder_popDue (m : Machine) :
    m.PassesUnder deadline (m.popDue deadline).2 := by
  refine passesUnder_of_change rfl (Schedule.Change.popDue m.schedule deadline) ?_ ?_
  · intro deed hdeed
    rw [Option.mem_toList] at hdeed
    obtain ⟨next, -, rfl⟩ := Option.map_eq_some_iff.mp hdeed
    rfl
  · cases h : (m.popDue deadline).1 with
    | none =>
      have hsame := (popDue_none h).1
      omega
    | some next =>
      obtain ⟨due, -, hdue, hnow, -⟩ := popDue_some h
      omega

private theorem passesUnder_waitUntil (m : Machine) :
    m.PassesUnder deadline (m.waitUntil deadline).2 := by
  refine passesUnder_of_change rfl (Schedule.Change.waitUntil m.schedule deadline) (by simp) ?_
  change (m.schedule.waitUntil (min (m.schedule.nextDue?.getD deadline) deadline)).2.now ≤ _
  unfold Schedule.waitUntil
  split
  · exact Nat.le_max_left _ _
  · exact Nat.max_le.mpr ⟨Nat.le_max_left _ _,
      Nat.le_trans (Nat.min_le_right _ _) (Nat.le_max_right _ _)⟩

theorem PassesUnder.lasts {m m' : Machine} {delay : Nat} (h : m.PassesUnder (m.now + delay) m')
    (hdelay : delay ≤ longestDelay) : m.Lasts [m.now + delay] m' where
  config := h.config
  course hm before := by
    obtain ⟨history, hcourse⟩ := h.course hm before
    have hset : Timing.Course longestDelay ⟨m.schedule, before⟩ []
        ⟨m.schedule, (m.now + delay) :: before⟩ := .single (.deadline _ _ hdelay)
    exact ⟨history ++ [], hset.trans hcourse⟩

theorem passesUnder_pumped (deadline : Nat) : PumpedTo deadline (PassesUnder deadline) where
  refl m := m.lasts_refl.passesUnder deadline
  trans := .trans
  take {m stimulus} h := by
    have hnow : m.receive.2.now = m.now := by
      obtain ⟨rest, -, hreceived⟩ := receive_some h
      rw [hreceived]
      rfl
    have hreceived : m.PassesUnder deadline m.receive.2 :=
      passesUnder_of_change rfl (Schedule.Change.receive m.schedule) (by simp) (by omega)
    exact hreceived.trans ((lasts_background.apply _ stimulus).passesUnder deadline)
  idle _ := passesUnder_popDue _
  task _ := (passesUnder_popDue _).trans ((lasts_runTask _ _).passesUnder deadline)
  wait _ := passesUnder_waitUntil _

end Machine

end ControlLogic
