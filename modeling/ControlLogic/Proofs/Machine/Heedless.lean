import ControlLogic.Machine.Host
import ControlLogic.Proofs.Machine.Past

/-!
What happens on a machine besides the code that runs takes no heed of its past either: inputs and
the handlers they start, work that falls due, the passing of time, and what a host does.
-/

set_option autoImplicit false
set_option relaxedAutoImplicit false

namespace ControlLogic

namespace Machine

section Background

variable {p : Past} {sure : Bool} {m₀ m : Machine}

theorem Heedless.comp {f g : Machine → Machine} (hg : Heedless g) (hf : Heedless f) :
    Heedless fun m => g (f m) :=
  fun _ _ _ _ h => hg (hf h)

theorem Heedless.foldl {α : Type} {f : Machine → α → Machine} (hf : ∀ a, Heedless (f · a))
    (as : List α) : Heedless fun m => as.foldl f m := by
  induction as with
  | nil => exact fun _ _ _ _ h => h
  | cons a as ih => exact ih.comp (hf a)

theorem heedless_tell (event : Event) : Heedless (·.tell event) :=
  (steady_tell event).heedless

private theorem heedless_after {α : Type} {x : Run α} (hx : Run.Heedless x) :
    Heedless (·.after x) := by
  intro p sure m₀ m h
  dsimp only
  obtain ⟨a, _, _, hrun₀, hrun, h'⟩ | ⟨u, _, _, hrun₀, hrun, h'⟩ := (hx h).cases
  · rw [after_ok hrun₀, after_ok hrun]
    exact h'
  · rw [after_error hrun₀, after_error hrun]
    exact h'

private theorem heedless_background {α : Type} {x : Run α} (hx : Run.Heedless x) :
    Heedless (·.background x) := by
  intro p sure m₀ m h
  dsimp only
  unfold background
  obtain ⟨a, _, _, hrun₀, hrun, h'⟩ | ⟨u, _, _, hrun₀, hrun, h'⟩ := (hx h).cases
  · rw [hrun₀, hrun]
    exact h'
  · rw [hrun₀, hrun]
    cases u with
    | stepLimit => exact heedless_tell _ h'
    | fault f pos => exact heedless_tell _ h'
    | _ => exact h'

private theorem heedless_runHandler (h : Handler) : Heedless (·.runHandler h) :=
  heedless_background ((Run.heedless_handlerBody h).isolated [])

private theorem heedless_dispatch (trigger : Trigger) (names : List String) :
    Heedless (·.dispatch trigger names) := by
  intro p sure m₀ m h
  dsimp only
  unfold dispatch
  rw [h.look (·.handlersOf trigger names) fun _ => rfl]
  exact Heedless.foldl heedless_runHandler _ h

private theorem heedless_drive (s : Signal) (v : Value) (trigger : Trigger) :
    Heedless (·.drive s v trigger) :=
  (heedless_dispatch trigger _).comp (steady_keepInput s v).heedless

theorem heedless_setDigital (name : String) (n : Int) : Heedless (·.setDigital name n) := by
  intro p sure m₀ m h
  dsimp only
  unfold setDigital
  rw [h.look (·.input name [.digitalInput]) fun _ => rfl, h.look (·.signals) fun _ => rfl]
  split
  · exact heedless_tell _ h
  · dsimp only
    split
    · exact h
    · exact heedless_drive _ _ _ h

theorem heedless_setAnalog (name : String) (n : Int) : Heedless (·.setAnalog name n) := by
  intro p sure m₀ m h
  dsimp only
  unfold setAnalog
  rw [h.look (·.input name [.analogInput]) fun _ => rfl, h.look (·.signals) fun _ => rfl]
  split
  · exact heedless_tell _ h
  · dsimp only
    split
    · exact h
    · exact heedless_drive _ _ _ h

theorem heedless_setSerial (name text : String) : Heedless (·.setSerial name text) := by
  intro p sure m₀ m h
  dsimp only
  unfold setSerial
  rw [h.look (·.input name [.stringInput, .bufferInput]) fun _ => rfl,
    h.look (·.signals) fun _ => rfl]
  split
  · exact heedless_tell _ h
  · dsimp only
    split
    · exact heedless_drive _ _ _ h
    · split
      · exact h
      · exact heedless_drive _ _ _ h

theorem heedless_stop : Heedless stop := by
  rintro p sure m₀ _ ⟨h⟩
  exact .mk ⟨h.schedule, h.waits, fun _ => rfl, h.mode⟩

private theorem heedless_apply (stimulus : Stimulus) : Heedless (·.apply stimulus) := by
  cases stimulus with
  | digital name n => exact heedless_setDigital name n
  | analog name n => exact heedless_setAnalog name n
  | serial name text => exact heedless_setSerial name text
  | stop => exact heedless_stop

private theorem heedless_dispatchSocket (trigger : Trigger) (id : Int) :
    Heedless (·.dispatchSocket trigger id) := by
  intro p sure m₀ m h
  dsimp only
  unfold dispatchSocket
  rw [h.look (·.socketNames id) fun _ => rfl]
  exact heedless_dispatch trigger _ h

theorem Mirrors.network {α : Type} (h : Mirrors p sure m₀ m) {f : Network → α × Network}
    (hf : Network.Counts f) :
    (f m.network).1 = (f m₀.network).1 ∧
      Mirrors p sure { m₀ with network := (f m₀.network).2 }
        { m with network := (f m.network).2 } := by
  cases h with
  | @mk s w wish h =>
    have hsame : f (m₀.withPast p s w wish).network = _ := hf p.network m₀.network
    rw [hsame]
    exact ⟨rfl, .mk ⟨h.schedule, h.waits, h.abort, h.mode⟩⟩

private theorem heedless_deliver (id : Int) (data : String) : Heedless (·.deliver id data) := by
  intro p sure m₀ m h
  obtain ⟨hdelivered, h'⟩ := h.network (Network.counts_deliver id data)
  unfold deliver
  dsimp only at hdelivered ⊢
  rw [hdelivered]
  split
  · have hreceived : Steady fun m => { m with scope := { m.scope with
        globals := (m.socketNames id).foldl (addReceived data) m.scope.globals } } :=
      ⟨fun _ _ _ _ _ => rfl, fun _ => rfl, fun _ => rfl, fun _ => rfl, fun _ => rfl⟩
    exact heedless_dispatchSocket _ _ (hreceived.heedless h')
  · exact h'

private theorem heedless_completeConnect (id : Int) : Heedless (·.completeConnect id) := by
  intro p sure m₀ m h
  obtain ⟨hcompleted, h'⟩ := h.network (Network.counts_completeConnect id)
  unfold completeConnect
  dsimp only at hcompleted ⊢
  rw [hcompleted]
  split
  · exact heedless_dispatchSocket _ _ h'
  · exact h'

private theorem heedless_runWait (label : String) : Heedless (·.runWait label) := by
  rintro p sure m₀ _ @⟨s, w, wish, h⟩
  have hwait : (m₀.withPast p s w wish).waits.get? label = _ := h.waits label
  dsimp only
  unfold runWait
  rw [hwait]
  cases m₀.waits.get? label with
  | none => exact .mk h
  | some wait =>
    refine heedless_background ((Run.heedless_immediateBlock wait.body).isolated wait.frames) ?_
    exact .mk ⟨h.schedule, h.waits.erase label, h.abort, h.mode⟩

private theorem heedless_runTask (task : Task) : Heedless (·.runTask task) := by
  cases task with
  | waitBody label => exact heedless_runWait label
  | spawn function =>
    intro p sure m₀ m h
    dsimp only [runTask]
    rw [h.look (·.functions) fun _ => rfl]
    split
    next f _ => exact heedless_after ((Run.heedless_immediateCall f).isolated []) h
    next => exact h
  | pulseEnd output =>
    exact heedless_background (Run.heedless_closed.congruence.writeKey (pulseKey output) .zero).2
  | stimulus stimulus => exact heedless_apply stimulus
  | socketConnected id => exact heedless_completeConnect id
  | socketDeliver id data => exact heedless_deliver id data
  | socketEvent trigger id => exact heedless_dispatchSocket trigger id

end Background

section Time

variable {p : Past} {sure : Bool} {m₀ m : Machine}

theorem Mirrors.receive (h : Mirrors p sure m₀ m) :
    m.receive.1 = m₀.receive.1 ∧ Mirrors p sure m₀.receive.2 m.receive.2 := by
  cases h with
  | mk h =>
    obtain ⟨hanswer, hraised⟩ := h.schedule.receive
    exact ⟨hanswer, .mk ⟨hraised, h.waits, h.abort, h.mode⟩⟩

theorem Mirrors.popDue (h : Mirrors p sure m₀ m) (deadline : Nat) :
    (m.popDue deadline).1.map Prod.snd = (m₀.popDue deadline).1.map Prod.snd ∧
      Mirrors p sure (m₀.popDue deadline).2 (m.popDue deadline).2 := by
  cases h with
  | @mk s w wish h =>
    obtain ⟨hanswer, hraised⟩ := h.schedule.popDue deadline
    refine ⟨?_, .mk ⟨hraised, h.waits, h.abort, h.mode⟩⟩
    change (s.popDue deadline).1.map Prod.snd = (m₀.schedule.popDue deadline).1.map Prod.snd
    rw [hanswer, Option.map_map]
    rfl

theorem Mirrors.waitUntil (h : Mirrors p sure m₀ m) (deadline : Nat) :
    (m.waitUntil deadline).1 = (m₀.waitUntil deadline).1 ∧
      Mirrors p sure (m₀.waitUntil deadline).2 (m.waitUntil deadline).2 := by
  cases h with
  | @mk s w wish h =>
    have hmoment : (m₀.withPast p s w wish).schedule.nextDue? = _ := h.schedule.nextDue?
    unfold Machine.waitUntil
    rw [hmoment]
    obtain ⟨hanswer, hraised⟩ :=
      h.schedule.waitUntil (min (m₀.schedule.nextDue?.getD deadline) deadline)
    exact ⟨hanswer, .mk ⟨hraised, h.waits, h.abort, h.mode⟩⟩

end Time

end Machine

namespace Run

private theorem heedless_accept (stimulus : Stimulus) : Heedless (accept stimulus) := by
  refine (heedless_modify (Machine.heedless_apply stimulus)).bind fun _ => ?_
  split
  · exact heedless_checkAbort
  · exact heedless_pure ()

private theorem heedless_acceptWaiting (n : Nat) : Heedless (acceptWaiting n) := by
  induction n with
  | zero => exact heedless_pure ()
  | succ n ih =>
    have hreceive : Heedless (modifyGet Machine.receive) :=
      heedless_modifyGet (fun _ _ _ _ h => h.receive.1) fun _ _ _ _ h => h.receive.2
    refine hreceive.bind fun stimulus => ?_
    split
    · exact (heedless_accept _).bind fun _ => ih
    · exact heedless_pure ()

private theorem heedless_awaited (deadline : Nat) :
    Heedless (do
      if deadline ≤ (← get).now then return some ()
      else
        if let some stimulus ← modifyGet (·.waitUntil deadline) then accept stimulus
        return none) := by
  have hwait : Heedless (modifyGet (·.waitUntil deadline)) :=
    heedless_modifyGet (fun _ _ _ _ h => (h.waitUntil deadline).1)
      fun _ _ _ _ h => (h.waitUntil deadline).2
  refine heedless_inspect (fun _ => rfl) fun m => ?_
  split
  · exact heedless_pure _
  · refine hwait.bind fun stimulus => ?_
    split
    · exact (heedless_accept _).bind fun _ => heedless_pure _
    · exact heedless_pure _

private theorem heedless_pumpRound (deadline : Nat) : Heedless (pumpRound deadline) := by
  refine heedless_checkAbort.bind fun _ => heedless_inspect (fun _ => rfl) fun m => ?_
  refine (heedless_acceptWaiting _).bind fun _ => ?_
  intro p sure m₀ m h
  obtain ⟨hsame, h'⟩ := h.popDue deadline
  rw [modifyGet_bind, modifyGet_bind]
  -- the work taken is the same on both machines, but not its number
  cases hnext₀ : (m₀.popDue deadline).1 with
  | none =>
    rw [hnext₀, Option.map_none, Option.map_eq_none_iff] at hsame
    rw [hsame]
    exact heedless_awaited deadline h'
  | some next₀ =>
    obtain ⟨id₀, task⟩ := next₀
    rw [hnext₀, Option.map_some, Option.map_eq_some_iff] at hsame
    obtain ⟨⟨id, _⟩, hnext, rfl⟩ := hsame
    rw [hnext]
    exact (heedless_modify (Machine.heedless_runTask _)).bind (fun _ => heedless_pure none) h'

private theorem heedless_pump (deadline : Nat) : Heedless (pump deadline) := by
  intro p sure m₀ m h
  unfold pump
  rw [h.look (·.config.rounds) fun _ => rfl]
  exact heedless_immediate.repeatUntil (heedless_pumpRound deadline) m₀.config.rounds h

private theorem heedless_cooperative : Pervades Heedless pump :=
  heedless_pervades heedless_pump

end Run

namespace Machine

section Host

variable {p : Past} {sure : Bool} {m₀ m : Machine}

private theorem Mirrors.unsure (h : Mirrors p sure m₀ m) (hmode : m₀.mode = .immediate) :
    Mirrors p false m₀ m := by
  cases h with
  | mk h => exact .mk ⟨h.schedule, h.waits, nofun, fun _ => hmode⟩

private theorem Mirrors.withAbort (h : Mirrors p sure m₀ m) (wish : Bool) :
    Mirrors p true { m₀ with abort := wish } { m with abort := wish } := by
  cases h with
  | mk h => exact .mk ⟨h.schedule, h.waits, fun _ => rfl, nofun⟩

theorem Mirrors.conclude (h : Mirrors p sure m₀ m) (r : Except Unwind Flow) :
    (m.conclude r).1 = (m₀.conclude r).1 ∧
      Mirrors p sure (m₀.conclude r).2 (m.conclude r).2 := by
  cases r with
  | ok flow => exact ⟨rfl, h⟩
  | error u =>
    cases u with
    | stepLimit => exact ⟨rfl, heedless_tell _ h⟩
    | fault f pos => exact ⟨rfl, heedless_tell _ h⟩
    | _ => exact ⟨rfl, h⟩

theorem Mirrors.endMain (h : Mirrors p sure m₀ m) (frames : List Frame) :
    Mirrors p false (m₀.endMain frames) (m.endMain frames) := by
  cases h with
  | mk h => exact .mk ⟨h.schedule, h.waits, nofun, fun _ => rfl⟩

theorem Mirrors.runBody (h : Mirrors p true m₀ m) (frame : Frame) (body : List Stmt) :
    (m.runBody frame body).1 = (m₀.runBody frame body).1 ∧
      Mirrors p false (m₀.runBody frame body).2 (m.runBody frame body).2 := by
  have hbegun : Mirrors p true (m₀.beginMain frame) (m.beginMain frame) := h.resume nofun
  unfold Machine.runBody
  rw [h.look Machine.fuel fun _ => rfl, h.look (·.scope.frames) fun _ => rfl]
  obtain ⟨flow, _, _, hrun₀, hrun, h'⟩ | ⟨u, _, _, hrun₀, hrun, h'⟩ :=
    (Run.heedless_cooperative.block m₀.fuel body hbegun).cases
  · rw [hrun₀, hrun]
    exact (h'.endMain _).conclude _
  · rw [hrun₀, hrun]
    exact (h'.endMain _).conclude _

/-- The entry function comes to the same outcome. It starts without a wish to stop, so that the wish
is sure to be the same while its code runs. -/
theorem Mirrors.runMain (h : Mirrors p false m₀ m) :
    m.runMain.1 = m₀.runMain.1 ∧ Mirrors p false m₀.runMain.2 m.runMain.2 := by
  have hready := h.withAbort false
  have hidle := hready.unsure (h.mode rfl)
  unfold Machine.runMain
  generalize { m₀ with abort := false } = ready₀ at hready hidle ⊢
  generalize { m with abort := false } = ready at hready hidle ⊢
  dsimp only
  rw [hready.look (·.program) fun _ => rfl]
  split
  · exact ⟨rfl, hidle⟩
  · split
    next frame _ => exact hready.runBody frame _
    next => exact ⟨rfl, heedless_tell _ hidle⟩

private theorem heedless_passUntil (deadline : Nat) : Heedless (·.passUntil deadline) :=
  heedless_after (Run.heedless_pump deadline)

theorem heedless_advance (duration : Nat) : Heedless (·.advance duration) := by
  intro p sure m₀ m h
  dsimp only [advance]
  rw [h.look now fun _ => rfl]
  exact heedless_passUntil _ h

private theorem heedless_drain : Heedless drain := by
  intro p sure m₀ m h
  have hemptied : Mirrors p sure { m₀ with schedule := { m₀.schedule with inbox := [] } }
      { m with schedule := { m.schedule with inbox := [] } } := by
    cases h with
    | mk h => exact .mk ⟨h.schedule.withInbox [], h.waits, h.abort, h.mode⟩
  unfold drain
  rw [h.look (·.schedule.inbox) fun _ => rfl]
  exact Heedless.foldl heedless_apply _ hemptied

theorem heedless_settleRounds (n : Nat) : Heedless (settleRounds n) := by
  induction n with
  | zero => exact fun _ _ _ _ h => h
  | succ n ih =>
    intro p sure m₀ m h
    have hdrained := heedless_drain h
    have hdue : m.drain.schedule.nextDue? = m₀.drain.schedule.nextDue? := by
      generalize m.drain = drained at hdrained ⊢
      cases hdrained with
      | mk h => exact h.schedule.nextDue?
    unfold settleRounds
    dsimp only
    rw [hdue]
    split
    · exact ih (heedless_passUntil _ hdrained)
    · exact hdrained

theorem Mirrors.scheduleStimulus (h : Mirrors p sure m₀ m) (delay : Nat) (stimulus : Stimulus) :
    (m.scheduleStimulus delay stimulus).1 = p.timers + (m₀.scheduleStimulus delay stimulus).1 ∧
      Mirrors p sure (m₀.scheduleStimulus delay stimulus).2
        (m.scheduleStimulus delay stimulus).2 := by
  cases h with
  | mk h => exact ⟨h.schedule.nextId, .mk ⟨h.schedule.plan delay _, h.waits, h.abort, h.mode⟩⟩

theorem heedless_send (stimulus : Stimulus) : Heedless (·.send stimulus) := by
  rintro p sure m₀ _ ⟨h⟩
  exact .mk ⟨h.schedule.send stimulus, h.waits, h.abort, h.mode⟩

theorem heedless_reset : Heedless reset := by
  rintro p sure m₀ _ ⟨h⟩
  have hcleared := Schedule.raised_clear h.schedule.now h.schedule.nextId
  exact .mk ⟨hcleared, .empty, h.abort, fun _ => rfl⟩

end Host

end Machine

end ControlLogic
