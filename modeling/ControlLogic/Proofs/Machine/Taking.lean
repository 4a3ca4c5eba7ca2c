import ControlLogic.Proofs.Machine.Others

/-!
Stimuli are taken once and in order, whatever a host does and whatever others send meanwhile. All
that wait are taken before time passes and before a machine settles; while the entry function waits,
an order to stop is the last that is taken.
-/

set_option autoImplicit false
set_option relaxedAutoImplicit false

namespace ControlLogic

/-! ### What a host does -/

namespace Intake

def isActs : Intake → Bool
  | set _ | forgotten => true
  | sent _ | taken _ | dropped => false

private theorem isActs_of_not_hosts {entry : Intake} (h : entry.isHosts = false) :
    entry.isActs = false := by
  cases entry with
  | taken | dropped => rfl
  | sent | set | forgotten => cases h

end Intake

def HostAction.intakes : HostAction → List Intake
  | load _ | reset => [.forgotten]
  | setDigital name n => [.set (.digital name n)]
  | setAnalog name n => [.set (.analog name n)]
  | setSerial name text => [.set (.serial name text)]
  | send stimulus => [.sent stimulus]
  | requestStop => [.sent .stop]
  | _ => []

private theorem HostAction.filter_intakes (action : HostAction) :
    action.intakes.filter Intake.isHosts = action.intakes := by
  cases action <;> rfl

namespace Machine

private theorem balanced_arrive (others : Others) (round look : Nat) :
    Run.Relates Balanced (Run.arrive others round look) := by
  have hsend (m : Machine) (stimulus : Stimulus) : m.Balanced (m.send stimulus) :=
    ⟨rfl, rfl, rfl, m.balanced_refl.scope⟩
  exact Run.relates_modify fun m => Run.relates_foldl balanced_refl .trans hsend _ m

section

variable {Allowed : Intake → Prop} {others : Others}

private theorem takesIn_arrive (hsent : ∀ stimulus, Allowed (.sent stimulus)) (round look : Nat) :
    Run.Relates (TakesIn Allowed) (Run.arrive others round look) :=
  Run.relates_modify fun m => Run.relates_foldl takesIn_refl .trans
    (fun _ stimulus => ⟨_, .send .none stimulus, by simpa using hsent stimulus⟩) _ m

variable (hallowed : ∀ entry : Intake, entry.isHosts = false → Allowed entry)
  (harrive : ∀ round look, Run.Relates (TakesIn Allowed) (Run.arrive others round look))
include hallowed harrive

private theorem takesIn_pumpAmid (deadline : Nat) :
    Run.Relates (Along (TakesIn Allowed)) (Run.pumpAmid others deadline) :=
  ((takesIn_pumped hallowed).and balanced_passing.pumped).pumpAmid
    (fun round look m => ⟨harrive round look m, balanced_arrive others round look m⟩) deadline

private theorem intakes_action (m : Machine) (action : HostAction) :
    m.Intakes action.intakes (action.runAmid others m) ∨
      action.intakes = [] ∧ TakesIn Allowed m (action.runAmid others m) := by
  have W := takesIn_working hallowed
  have hpump := takesIn_pumpAmid hallowed harrive
  cases action with
  | load text => exact .inl (.load .none text)
  | reset => exact .inl (.reset .none)
  | runMain => exact .inr ⟨rfl, W.runMainAmid (takesIn_main hpump) m⟩
  | setDigital name n => exact .inl (.set .none (.digital name n))
  | setAnalog name n => exact .inl (.set .none (.analog name n))
  | setSerial name text => exact .inl (.set .none (.serial name text))
  | advance duration => exact .inr ⟨rfl, (hpump (m.now + duration) m).1⟩
  | settle => exact .inr ⟨rfl, W.settleRoundsAmid harrive _ m⟩
  | scheduleStimulus delay stimulus => exact .inl (.quiet .none (.plan m delay stimulus))
  | send stimulus => exact .inl (.send .none stimulus)
  | requestStop =>
    have hstop : m.Intakes [] m.stop := .quiet .none (.abort m true)
    exact .inl (hstop.send .stop)
  | changeFiles f => exact .inl (.quiet .none (.files m f))
  | changeNetwork f => exact .inl (.quiet .none (.network m f))

end

private theorem intakes_afterAmid {p : Intake → Bool}
    (hown : ∀ entry : Intake, entry.isHosts = false →
    p entry = false) (m : Machine) (played : List (HostAction × Others))
    (harrive : ∀ action ∈ played, ∀ round look,
      Run.Relates (TakesIn fun entry => p entry = false) (Run.arrive action.2 round look)) :
    ∃ log, m.Intakes log (m.afterAmid played) ∧
      (played.flatMap (·.1.intakes)).Sublist log ∧
      log.filter p = (played.flatMap (·.1.intakes)).filter p := by
  induction played generalizing m with
  | nil => exact ⟨[], .none, .refl [], rfl⟩
  | cons first rest ih =>
    obtain ⟨later, hlater, hsublist, hfilter⟩ := ih (first.1.runAmid first.2 m)
      fun action haction => harrive action (List.mem_cons_of_mem _ haction)
    rw [List.flatMap_cons, List.filter_append]
    obtain hacts | ⟨hnone, log, hlog, hothers⟩ :=
      m.intakes_action hown (harrive first List.mem_cons_self) first.1
    · exact ⟨_, hacts.trans hlater, (List.Sublist.refl _).append hsublist, by
        rw [List.filter_append, hfilter]⟩
    · refine ⟨log ++ later, hlog.trans hlater, ?_, ?_⟩
      · rw [hnone]
        exact hsublist.trans (List.sublist_append_right log later)
      · have hskip : log.filter p = [] :=
          List.filter_eq_nil_iff.mpr fun entry hentry => by simp [hothers entry hentry]
        rw [hnone, List.filter_append, hskip, hfilter]
        rfl

private theorem mode_declaring : Declaring fun m m' => m'.mode = m.mode where
  refl _ := rfl
  trans h h' := h'.trans h
  tell _ _ := rfl
  program _ _ _ := rfl
  constant _ _ _ := rfl
  signals _ _ _ := rfl
  global structures m d := by
    unfold addGlobal
    split
    · rfl
    · split <;> rfl

/-- The settings are the same, and no code of the entry function runs if none did. -/
structure Rests (m m' : Machine) : Prop where
  config : m'.config = m.config
  mode : m.mode = .immediate → m'.mode = .immediate

private theorem Balanced.rests {m m' : Machine} (h : m.Balanced m') : m.Rests m' :=
  ⟨h.config, h.mode.trans⟩

private theorem rests_hosting : Hosting Rests where
  refl _ := ⟨rfl, id⟩
  trans h h' := ⟨h'.config.trans h.config, h'.mode ∘ h.mode⟩
  apply m stimulus := (balanced_passing.apply m stimulus).rests
  receive _ := ⟨rfl, id⟩
  idle _ := ⟨rfl, id⟩
  task h := (balanced_passing.task h).rests
  waitUntil _ _ := ⟨rfl, id⟩
  load m text := ⟨(m.declares_load text).config, fun _ => mode_declaring.load m text⟩
  reset _ := ⟨rfl, fun _ => rfl⟩
  abort _ _ := ⟨rfl, id⟩
  tell _ _ := ⟨rfl, id⟩
  main {m _ frame} body _ := by
    have hbody := (Run.balanced_respected balanced_passing.pump).block m.fuel body
      (m.beginMain frame)
    exact ⟨hbody.config, fun _ => rfl⟩
  drop _ := ⟨rfl, id⟩
  plan _ _ _ := ⟨rfl, id⟩
  send _ _ := ⟨rfl, id⟩
  files _ _ := ⟨rfl, id⟩
  network _ _ := ⟨rfl, id⟩

private theorem rests_arrive (others : Others) (round look : Nat) :
    Run.Relates Rests (Run.arrive others round look) :=
  Run.relates_modify fun m => Run.relates_foldl rests_hosting.refl rests_hosting.trans
    rests_hosting.send _ m

private theorem rests_action (m : Machine) (action : HostAction) (others : Others) :
    m.Rests (action.runAmid others m) := by
  have W := rests_hosting.working
  have harrive := rests_arrive others
  cases action with
  | runMain =>
    refine W.runMainAmid (fun m frame body => ?_) m
    have hbody := (Run.balanced_respected fun deadline =>
      balanced_passing.pumped.pumpAmid (balanced_arrive others) deadline).block m.fuel body
      (m.beginMain frame)
    exact ⟨hbody.config, fun _ => rfl⟩
  | advance duration => exact W.toPumped.pumpAmid harrive (m.now + duration) m
  | settle => exact W.settleRoundsAmid harrive _ m
  | load text => exact rests_hosting.action m (.load text)
  | reset => exact rests_hosting.action m .reset
  | setDigital name n => exact rests_hosting.action m (.setDigital name n)
  | setAnalog name n => exact rests_hosting.action m (.setAnalog name n)
  | setSerial name text => exact rests_hosting.action m (.setSerial name text)
  | scheduleStimulus delay stimulus =>
    exact rests_hosting.action m (.scheduleStimulus delay stimulus)
  | send stimulus => exact rests_hosting.action m (.send stimulus)
  | requestStop => exact rests_hosting.action m .requestStop
  | changeFiles f => exact rests_hosting.action m (.changeFiles f)
  | changeNetwork f => exact rests_hosting.action m (.changeNetwork f)

private theorem rests_afterAmid (m : Machine) (played : List (HostAction × Others)) :
    m.Rests (m.afterAmid played) := by
  induction played generalizing m with
  | nil => exact rests_hosting.refl m
  | cons first rest ih =>
    exact rests_hosting.trans (m.rests_action first.1 first.2) (ih (first.1.runAmid first.2 m))

/-! ### Stimuli one after another -/

/-- The machine after the stimuli that wait longest, up to some number, were taken one after
another. -/
def taking : Nat → Machine → Machine
  | 0, m => m
  | n + 1, m =>
    match m.receive with
    | (some stimulus, m') => taking n (m'.apply stimulus)
    | (none, m') => m'

private theorem taking_of_some {m : Machine} {stimulus : Stimulus} (h : m.receive.1 = some stimulus)
    (n : Nat) : m.taking (n + 1) = (m.receive.2.apply stimulus).taking n := by
  rw [taking]
  split
  next stimulus' m' hreceive =>
    rw [hreceive] at h ⊢
    cases h
    rfl
  next m' hreceive =>
    rw [hreceive] at h
    cases h

private theorem taking_of_none {m : Machine} (h : m.receive.1 = none) (n : Nat) :
    m.taking n = m := by
  cases n with
  | zero => rfl
  | succ n =>
    rw [taking]
    split
    next stimulus m' hreceive =>
      rw [hreceive] at h
      cases h
    next m' hreceive =>
      have hsame := (receive_none h).2
      rwa [hreceive] at hsame

private theorem inbox_taking (m : Machine) (n : Nat) :
    (m.taking n).schedule.inbox = m.schedule.inbox.drop n := by
  induction n generalizing m with
  | zero => rfl
  | succ n ih =>
    cases h : m.receive.1 with
    | none => rw [taking_of_none h, (receive_none h).1, List.drop_nil]
    | some stimulus =>
      obtain ⟨rest, hinbox, hreceived⟩ := receive_some h
      rw [taking_of_some h, ih, inbox_apply, hreceived, hinbox, List.drop_succ_cons]

private theorem now_taking (m : Machine) (n : Nat) : (m.taking n).now = m.now := by
  induction n generalizing m with
  | zero => rfl
  | succ n ih =>
    cases h : m.receive.1 with
    | none => rw [taking_of_none h]
    | some stimulus =>
      obtain ⟨rest, -, hreceived⟩ := receive_some h
      rw [taking_of_some h, ih, (standsStill_background.apply _ stimulus).now, hreceived]
      rfl

private theorem balanced_taking (m : Machine) (n : Nat) : m.Balanced (m.taking n) := by
  induction n generalizing m with
  | zero => exact m.balanced_refl
  | succ n ih =>
    cases h : m.receive.1 with
    | none =>
      rw [taking_of_none h]
      exact m.balanced_refl
    | some stimulus =>
      rw [taking_of_some h]
      exact (balanced_passing.pumped.take h).trans (ih _)

end Machine

namespace Run

private theorem accept_ok {m : Machine} {stimulus : Stimulus}
    (h : m.mode = .immediate ∨ stimulus ≠ .stop) :
    accept stimulus m = .ok () (m.apply stimulus) := by
  change (if stimulus = .stop then checkAbort else pure ()) (m.apply stimulus) = _
  split
  next hstop =>
    have hmode := h.resolve_right (not_not_intro hstop)
    exact checkAbort_immediate ((Machine.balanced_passing.apply m stimulus).mode.trans hmode)
  next => rfl

private theorem accept_stop {m : Machine} (h : m.mode = .cooperative) :
    accept .stop m = .error .aborted (m.apply .stop) := by
  change checkAbort (m.apply .stop) = _
  have habort : (m.apply .stop).mustAbort = true := by
    simp [Machine.mustAbort, Machine.apply, Machine.stop, h]
  unfold checkAbort
  rw [get_bind, if_pos habort]
  rfl

private theorem acceptWaiting_of_some {m : Machine} {stimulus : Stimulus}
    (h : m.receive.1 = some stimulus) (n : Nat) :
    acceptWaiting (n + 1) m = (accept stimulus >>= fun _ => acceptWaiting n) m.receive.2 := by
  rw [acceptWaiting, modifyGet_bind, h]

private theorem acceptWaiting_of_none {m : Machine} (h : m.receive.1 = none) (n : Nat) :
    acceptWaiting n m = .ok () m := by
  cases n with
  | zero => rfl
  | succ n =>
    rw [acceptWaiting, modifyGet_bind, h, (Machine.receive_none h).2]
    rfl

private theorem acceptWaiting_eq {m : Machine} {n : Nat}
    (h : m.mode = .immediate ∨ .stop ∉ m.schedule.inbox.take n) :
    acceptWaiting n m = .ok () (m.taking n) := by
  induction n generalizing m with
  | zero => rfl
  | succ n ih =>
    cases hnext : m.receive.1 with
    | none => rw [acceptWaiting_of_none hnext, Machine.taking_of_none hnext]
    | some stimulus =>
      obtain ⟨rest, hinbox, hreceived⟩ := Machine.receive_some hnext
      have hmode : m.receive.2.mode = m.mode := by rw [hreceived]
      have hfirst : m.receive.2.mode = .immediate ∨ stimulus ≠ .stop := by
        refine h.imp hmode.trans fun hnot heq => hnot ?_
        rw [hinbox, List.take_succ_cons, heq]
        exact List.mem_cons_self
      have hrest : (m.receive.2.apply stimulus).mode = .immediate ∨
          .stop ∉ (m.receive.2.apply stimulus).schedule.inbox.take n := by
        refine h.imp (fun himm => ?_) fun hnot hmem => hnot ?_
        · exact (Machine.balanced_passing.apply _ _).mode.trans (hmode.trans himm)
        · rw [Machine.inbox_apply, hreceived] at hmem
          rw [hinbox, List.take_succ_cons]
          exact List.mem_cons_of_mem _ hmem
      rw [acceptWaiting_of_some hnext, bind_ok (accept_ok hfirst), Machine.taking_of_some hnext,
        ih hrest]

private theorem acceptWaiting_stop {m : Machine} (hmode : m.mode = .cooperative)
    {before behind : List Stimulus} (hinbox : m.schedule.inbox = before ++ .stop :: behind)
    (hbefore : .stop ∉ before) (n : Nat) :
    acceptWaiting (before.length + 1 + n) m =
      .error .aborted (m.taking (before.length + 1)) := by
  induction before generalizing m with
  | nil =>
    have hnext : m.receive.1 = some .stop := by
      unfold Machine.receive Schedule.receive
      rw [hinbox]
      rfl
    obtain ⟨rest, -, hreceived⟩ := Machine.receive_some hnext
    have hmode' : m.receive.2.mode = .cooperative := by rw [hreceived, hmode]
    rw [List.length_nil, Nat.zero_add, Nat.add_comm, acceptWaiting_of_some hnext,
      bind_error (accept_stop hmode'), Machine.taking_of_some hnext]
    rfl
  | cons stimulus before ih =>
    obtain ⟨hne, hbefore⟩ := not_or.mp (mt List.mem_cons.mpr hbefore)
    have hnext : m.receive.1 = some stimulus := by
      unfold Machine.receive Schedule.receive
      rw [hinbox]
      rfl
    obtain ⟨rest, hinbox', hreceived⟩ := Machine.receive_some hnext
    have hrest : rest = before ++ .stop :: behind := by
      have heq := hinbox'.symm.trans hinbox
      exact (List.cons.inj heq).2
    have hmode' : (m.receive.2.apply stimulus).mode = .cooperative := by
      rw [(Machine.balanced_passing.apply _ _).mode, hreceived, hmode]
    have hleft : (m.receive.2.apply stimulus).schedule.inbox = before ++ .stop :: behind := by
      rw [Machine.inbox_apply, hreceived, hrest]
    have hn : (stimulus :: before).length + 1 + n = (before.length + 1 + n) + 1 := by
      simp only [List.length_cons]
      omega
    rw [hn, acceptWaiting_of_some hnext, bind_ok (accept_ok (.inr (Ne.symm hne))),
      ih hmode' hleft hbefore, List.length_cons, Machine.taking_of_some hnext]

private theorem pump_stop {m : Machine} (hmode : m.mode = .cooperative) (habort : m.abort = false)
    (hrounds : 0 < m.config.rounds) {before behind : List Stimulus}
    (hinbox : m.schedule.inbox = before ++ .stop :: behind) (hbefore : .stop ∉ before)
    (deadline : Nat) :
    pump deadline m = .error .aborted (m.taking (before.length + 1)) := by
  have hmust := Machine.mustAbort_of_not_abort habort
  have hlength : m.schedule.inbox.length = before.length + 1 + behind.length := by
    rw [hinbox, List.length_append, List.length_cons]
    omega
  have haccept := acceptWaiting_stop hmode hinbox hbefore behind.length
  rw [← hlength] at haccept
  have hround : pumpRound deadline m = .error .aborted (m.taking (before.length + 1)) := by
    rw [pumpRound_eq, bind_ok (checkAbort_of_not hmust), get_bind, bind_error haccept]
  obtain ⟨n, hn⟩ := Nat.exists_eq_add_one_of_ne_zero (Nat.ne_of_gt hrounds)
  change repeatUntil (pumpRound deadline) m.config.rounds m = _
  rw [hn, repeatUntil, bind_error hround]

private theorem pump_taking {m : Machine} (hmode : m.mode = .immediate)
    (hrounds : 0 < m.config.rounds)
    (deadline : Nat) :
    pump deadline m = pump deadline (m.taking m.schedule.inbox.length) := by
  generalize htaken : m.taking m.schedule.inbox.length = taken
  have hbalanced : m.Balanced taken := htaken ▸ m.balanced_taking _
  have hinbox : taken.schedule.inbox = [] := by
    rw [← htaken, m.inbox_taking, List.drop_length]
  have hfirst : pumpRound deadline m = working deadline taken := by
    rw [pumpRound_of_accepted (Machine.mustAbort_immediate hmode)
      (acceptWaiting_eq (.inl hmode)), htaken]
  have hagain : pumpRound deadline taken = working deadline taken :=
    pumpRound_of_empty (Machine.mustAbort_immediate (hbalanced.mode.trans hmode)) hinbox deadline
  obtain ⟨n, hn⟩ := Nat.exists_eq_add_one_of_ne_zero (Nat.ne_of_gt hrounds)
  change repeatUntil (pumpRound deadline) m.config.rounds m =
    repeatUntil (pumpRound deadline) taken.config.rounds taken
  rw [hbalanced.config, hn, repeatUntil]
  cases h : working deadline taken with
  | ok last m' => rw [bind_ok (hfirst.trans h), bind_ok (hagain.trans h)]
  | error u m' => rw [bind_error (hfirst.trans h), bind_error (hagain.trans h)]

end Run

namespace Machine

private theorem settle_drain (m : Machine) : m.settle = m.drain.settle := by
  change settleRounds (9999 + 1) m = settleRounds (9999 + 1) m.drain
  unfold settleRounds
  rw [drain_of_empty m.inbox_drain]

end Machine

namespace Machine

def waitsOnce : Machine :=
  { Machine.new {} with
    program.main := some
      { name := "Main", returnKind := .nothing, returnType := none, params := [], locals := []
        body := [.wait .start (.number 1) none none], pos := .start } }

end Machine

end ControlLogic
