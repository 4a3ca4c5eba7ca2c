import ControlLogic.Proofs.Machine.Intake

/-!
Stimuli that others send while a machine works, also in the middle of its entry function. A machine
sees what has come when it looks at the stimuli that wait; what others send is therefore given by
what has come at each look. Where nothing comes, a machine works as it does by itself.
-/

set_option autoImplicit false
set_option relaxedAutoImplicit false

namespace ControlLogic

/--
What others send while a machine works. At each look at the stimuli that wait, some have come since
the look before; which ones may depend on anything the machine has done, and the numbers of the
round and of the look tell looks at the same machine apart. While more keep coming, a machine looks
again before it goes on, so many times at most.
-/
structure Others where
  sends (round look : Nat) (m : Machine) : List Stimulus
  looks : Nat

def Others.silent : Others :=
  ⟨fun _ _ _ => [], 0⟩

namespace Run

def arrive (others : Others) (round look : Nat) : Run Unit :=
  modify fun m => (others.sends round look m).foldl Machine.send m

def acceptAmid (others : Others) (round : Nat) : Nat → Run Unit
  | 0 => return
  | look + 1 => do
    arrive others round (look + 1)
    let waiting := (← get).schedule.inbox.length
    if waiting = 0 then return
    else
      acceptWaiting waiting
      acceptAmid others round look

def awaitingAmid (others : Others) (round deadline : Nat) : Run (Option Unit) := do
  if deadline ≤ (← get).now then return some ()
  else
    arrive others round 0
    waiting deadline

def workingAmid (others : Others) (round deadline : Nat) : Run (Option Unit) := do
  match ← modifyGet (·.popDue deadline) with
  | some (_, task) =>
    modify (·.runTask task)
    return none
  | none => awaitingAmid others round deadline

def pumpRoundAmid (others : Others) (round deadline : Nat) : Run (Option Unit) := do
  checkAbort
  acceptAmid others round (others.looks + 1)
  workingAmid others round deadline

def pumpRoundsAmid (others : Others) (deadline : Nat) : Nat → Run Unit
  | 0 => throw .exhausted
  | n + 1 => do
    match ← pumpRoundAmid others (n + 1) deadline with
    | none => pumpRoundsAmid others deadline n
    | some a => return a

def pumpAmid (others : Others) (deadline : Nat) : Run Unit := fun m =>
  pumpRoundsAmid others deadline m.config.rounds m

end Run

namespace Machine

/-- Takes all stimuli that wait, and those that come meanwhile; orders to stop are dropped. -/
def drainAmid (others : Others) (round : Nat) : Nat → Machine → Machine
  | 0, m => m
  | look + 1, m =>
    let m := m.after (Run.arrive others round (look + 1))
    if m.schedule.inbox = [] then m else drainAmid others round look m.drain

def settleRoundsAmid (others : Others) : Nat → Machine → Machine
  | 0, m => m
  | n + 1, m =>
    let m := m.drainAmid others (n + 1) (others.looks + 1)
    match m.schedule.nextDue? with
    | some due => settleRoundsAmid others n (m.after (Run.pumpAmid others due))
    | none => m

end Machine

def HostAction.runAmid (others : Others) (m : Machine) : HostAction → Machine
  | runMain => (m.runMain (Run.pumpAmid others)).2
  | advance duration => m.after (Run.pumpAmid others (m.now + duration))
  | settle => m.settleRoundsAmid others Machine.settleLimit
  | action => action.run m

/-- The machine after a host has done some things one after another, while others send. -/
def Machine.afterAmid (m : Machine) (played : List (HostAction × Others)) : Machine :=
  played.foldl (fun m entry => entry.1.runAmid entry.2 m) m

/-! ### Others that send nothing -/

namespace Run

private theorem acceptAmid_silent (round : Nat) (m : Machine) :
    acceptAmid .silent round 1 m = acceptWaiting m.schedule.inbox.length m := by
  change (if m.schedule.inbox.length = 0 then pure () else
    acceptWaiting m.schedule.inbox.length >>= fun _ => pure () : Run Unit) m = _
  split
  next hnone =>
    rw [hnone]
    rfl
  next =>
    cases h : acceptWaiting m.schedule.inbox.length m with
    | ok a m' => rw [bind_ok h]; rfl
    | error u m' => rw [bind_error h]

private theorem pumpRoundAmid_silent (round deadline : Nat) :
    pumpRoundAmid .silent round deadline = pumpRound deadline := by
  funext m
  rw [pumpRound_eq]
  have hrest (m : Machine) : (acceptAmid .silent round 1 >>= fun _ =>
      workingAmid .silent round deadline) m =
        (acceptWaiting m.schedule.inbox.length >>= fun _ => working deadline) m := by
    have haccept := acceptAmid_silent round m
    cases h : acceptWaiting m.schedule.inbox.length m with
    | ok a m' => rw [bind_ok h, bind_ok (haccept.trans h)]; rfl
    | error u m' => rw [bind_error h, bind_error (haccept.trans h)]
  change (checkAbort >>= fun _ => acceptAmid .silent round 1 >>= fun _ =>
    workingAmid .silent round deadline) m = _
  cases h : checkAbort m with
  | ok a m' =>
    rw [bind_ok h, bind_ok h, hrest]
    rfl
  | error u m' => rw [bind_error h, bind_error h]

private theorem pumpAmid_silent : pumpAmid .silent = pump := by
  funext deadline m
  have hrounds (n : Nat) :
      pumpRoundsAmid .silent deadline n = repeatUntil (pumpRound deadline) n := by
    induction n with
    | zero => rfl
    | succ n ih =>
      unfold pumpRoundsAmid repeatUntil
      rw [pumpRoundAmid_silent, ih]
      refine congrArg (pumpRound deadline >>= ·) (funext fun last => ?_)
      cases last <;> rfl
  change pumpRoundsAmid .silent deadline m.config.rounds m = _
  rw [hrounds]
  rfl

end Run

namespace Machine

private theorem drainAmid_silent (round : Nat) (m : Machine) :
    m.drainAmid .silent round 1 = m.drain := by
  change (if m.schedule.inbox = [] then m else m.drain) = m.drain
  split
  next hnone => exact (drain_of_empty hnone).symm
  next => rfl

private theorem settleRoundsAmid_silent (n : Nat) (m : Machine) :
    m.settleRoundsAmid .silent n = settleRounds n m := by
  induction n generalizing m with
  | zero => rfl
  | succ n ih =>
    have hdrain : m.drainAmid .silent (n + 1) (Others.silent.looks + 1) = m.drain :=
      m.drainAmid_silent (n + 1)
    unfold settleRoundsAmid settleRounds
    rw [hdrain, Run.pumpAmid_silent]
    dsimp only
    cases m.drain.schedule.nextDue? with
    | none => rfl
    | some due => exact ih _

end Machine

private theorem HostAction.runAmid_silent (m : Machine) (action : HostAction) :
    action.runAmid .silent m = action.run m := by
  cases action with
  | runMain => exact congrArg (fun pump => (m.runMain pump).2) Run.pumpAmid_silent
  | advance duration =>
    exact congrArg (fun pump => m.after (pump (m.now + duration))) Run.pumpAmid_silent
  | settle => exact m.settleRoundsAmid_silent Machine.settleLimit
  | _ => rfl

theorem Machine.afterAmid_silent (m : Machine) (actions : List HostAction) :
    m.afterAmid (actions.map (·, Others.silent)) = m.afterActions actions := by
  induction actions generalizing m with
  | nil => rfl
  | cons action rest ih =>
    change (action.runAmid .silent m).afterAmid (rest.map (·, Others.silent)) =
      (action.run m).afterActions rest
    rw [HostAction.runAmid_silent]
    exact ih _

/-! ### What is respected while others send -/

namespace Pumped

variable {T : Machine → Machine → Prop} (P : Pumped T) {others : Others}
  (harrive : ∀ round look, Run.Relates T (Run.arrive others round look))
include P harrive

private theorem acceptAmid (round look : Nat) :
    Run.Relates T (Run.acceptAmid others round look) := by
  induction look with
  | zero => exact P.pure ()
  | succ look ih =>
    refine (harrive round (look + 1)).bind P.trans fun _ => Run.relates_inspect fun m => ?_
    dsimp only
    split
    · exact P.pure ()
    · exact ((P.pumpedTo 0).acceptWaiting _).bind P.trans fun _ => ih

private theorem workingAmid (round deadline : Nat) :
    Run.Relates T (Run.workingAmid others round deadline) := by
  have hawaiting : Run.Relates T (Run.awaitingAmid others round deadline) := by
    refine Run.relates_inspect fun m => ?_
    split
    · exact P.pure _
    · exact (harrive round 0).bind P.trans fun _ => (P.pumpedTo deadline).waiting
  intro m
  unfold Run.workingAmid Machine.after
  rw [Run.modifyGet_bind]
  cases h : (m.popDue deadline).1 with
  | none => exact P.trans (P.idle h) (hawaiting _)
  | some next => exact P.task h

private theorem pumpRoundsAmid (deadline n : Nat) :
    Run.Relates T (Run.pumpRoundsAmid others deadline n) := by
  induction n with
  | zero => exact fun m => P.refl m
  | succ n ih =>
    have hround : Run.Relates T (Run.pumpRoundAmid others (n + 1) deadline) :=
      (Run.relates_checkAbort P.refl).bind P.trans fun _ =>
        (P.acceptAmid harrive _ _).bind P.trans fun _ => P.workingAmid harrive _ deadline
    refine hround.bind P.trans fun last => ?_
    cases last with
    | none => exact ih
    | some a => exact P.pure a

theorem pumpAmid (deadline : Nat) : Run.Relates T (Run.pumpAmid others deadline) :=
  fun m => P.pumpRoundsAmid harrive deadline m.config.rounds m

end Pumped

namespace Working

variable {T : Machine → Machine → Prop} (W : Working T) {others : Others}
  (harrive : ∀ round look, Run.Relates T (Run.arrive others round look))
include W harrive

private theorem drainAmid (round look : Nat) (m : Machine) :
    T m (m.drainAmid others round look) := by
  induction look generalizing m with
  | zero => exact W.refl m
  | succ look ih =>
    unfold Machine.drainAmid
    dsimp only
    split
    · exact harrive round _ m
    · exact W.trans (harrive round _ m) (W.trans (W.drain _) (ih _))

theorem settleRoundsAmid (n : Nat) (m : Machine) : T m (m.settleRoundsAmid others n) := by
  induction n generalizing m with
  | zero => exact W.refl m
  | succ n ih =>
    have hdrained := W.drainAmid harrive (n + 1) (others.looks + 1) m
    unfold Machine.settleRoundsAmid
    dsimp only
    split
    · exact W.trans hdrained (W.trans (W.toPumped.pumpAmid harrive _ _) (ih _))
    · exact hdrained

omit harrive in
theorem runMainAmid {pump : Nat → Run Unit}
    (hmain : ∀ (m : Machine) (frame : Frame) (body : List Stmt),
      T m (((m.beginMain frame).after (Run.block pump m.fuel body)).endMain m.scope.frames))
    (m : Machine) : T m (m.runMain pump).2 := by
  refine W.trans (W.abort m false) ?_
  unfold Machine.runMain
  dsimp only
  split
  next => exact W.refl _
  next main _ =>
    split
    next frame _ =>
      have hended := hmain { m with abort := false } frame main.body
      unfold Machine.runBody
      split
      next hrun =>
        rw [Machine.after_ok hrun] at hended
        exact W.trans hended (W.conclude _ _)
      next hrun =>
        rw [Machine.after_error hrun] at hended
        exact W.trans hended (W.conclude _ _)
    next f pos _ => exact W.tell _ _

end Working

end ControlLogic
