import ControlLogic.Proofs.Machine.IdleCall
import ControlLogic.Proofs.Machine.Taking
import ControlLogic.Proofs.Machine.Lasting
import ControlLogic.Proofs.Machine.Spending

/-!
How far the clock gets in a run of the entry function. Code is suspended by a step of its own each
time, and the clock moves on by the longest delay at most, so all times in a run are bounded by the
steps it may take.
-/

set_option autoImplicit false
set_option relaxedAutoImplicit false

namespace ControlLogic

open Run (longestDelay)

namespace Run

private theorem suspend_cooperative {m : Machine} (h : m.mode ≠ .immediate) (pump : Nat → Run Unit)
    (delay : Nat) (what : String) :
    suspend pump delay what m = (checkAbort >>= fun _ => pump (m.now + delay)) m := by
  change (if m.mode = .immediate then _ else _ : Run Unit) m = _
  rw [if_neg h]

end Run

namespace Machine

/--
Code gets from one machine to another, and is suspended up to some deadlines on the way, the latest
first. Apart from that it makes elementary runs, and enters and leaves calls.
-/
inductive Pauses : Machine → List Nat → Machine → Prop where
  | none (m : Machine) : Pauses m [] m
  | run {α : Type} {x : Run α} (h : Run.Measured x) (m : Machine) : Pauses m [] (m.after x)
  | enter (m : Machine) (frame : Frame) : Pauses m [] (m.enter frame)
  | leave (m : Machine) : Pauses m [] m.leave
  | suspended {m : Machine} (hmode : m.mode = .cooperative) (habort : m.mustAbort = false)
    {delay : Nat} (hdelay : delay ≤ longestDelay) (what : String) :
    Pauses m [m.now + delay] (m.after (Run.suspend Run.pump delay what))
  | trans {a b c : Machine} {first later : List Nat} :
    Pauses a first b → Pauses b later c → Pauses a (later ++ first) c

/-- The deadlines up to which a run of the entry function is suspended, the latest first. Without an
entry function, or where its locals cannot be declared, no code is run. -/
inductive RunPauses (m : Machine) : List Nat → Prop where
  | none (h : ∀ main frame, m.program.main = some main →
      Frame.declareLocals m.program.structures main.locals {} ≠ .ok frame) : m.RunPauses []
  | body {main : FunctionDef} {frame : Frame} {deadlines : List Nat}
    (hmain : m.program.main = some main)
    (hframe : Frame.declareLocals m.program.structures main.locals {} = .ok frame)
    (h : Pauses ({ m with abort := false }.beginMain frame) deadlines
      (({ m with abort := false }.beginMain frame).after
        (Run.block Run.pump m.fuel main.body))) : m.RunPauses deadlines

def spent (m : Machine) : Nat :=
  min m.steps m.config.stepLimit

/-- No more deadlines are set than steps are taken within the limit, apart from some. -/
def Elapses (credit : Nat) (m m' : Machine) : Prop :=
  ∃ deadlines, m.Pauses deadlines m' ∧ deadlines.length + m.spent ≤ m'.spent + credit

private theorem Spends.spent_le {m m' : Machine} (h : m.Spends m') : m.spent ≤ m'.spent := by
  obtain ⟨hconfig, hsteps⟩ := h
  unfold spent
  rw [hconfig]
  omega

private theorem Pauses.elapses {m m' : Machine} {deadlines : List Nat} (h : m.Pauses deadlines m')
    (hspends : m.Spends m') : m.Elapses deadlines.length m' := by
  have hspent := hspends.spent_le
  exact ⟨deadlines, h, by omega⟩

private theorem elapses_refl (m : Machine) : m.Elapses 0 m :=
  (Pauses.none m).elapses m.spends_refl

theorem Elapses.trans {a b c : Machine} {credit more : Nat} (h : a.Elapses credit b)
    (h' : b.Elapses more c) : a.Elapses (credit + more) c := by
  obtain ⟨first, hfirst, hcredit⟩ := h
  obtain ⟨later, hlater, hmore⟩ := h'
  refine ⟨later ++ first, hfirst.trans hlater, ?_⟩
  rw [List.length_append]
  omega

private theorem elapses_trans {a b c : Machine} (h : a.Elapses 0 b) (h' : b.Elapses 0 c) :
    a.Elapses 0 c :=
  h.trans h'

theorem Elapses.mono {m m' : Machine} {credit more : Nat} (h : m.Elapses credit m')
    (hmore : credit ≤ more) : m.Elapses more m' := by
  obtain ⟨deadlines, hpauses, hcredit⟩ := h
  exact ⟨deadlines, hpauses, by omega⟩

private theorem after_suspend {m : Machine} (hmode : m.mode = .cooperative)
    (habort : m.mustAbort = false)
    (delay : Nat) (what : String) :
    m.after (Run.suspend Run.pump delay what) = m.after (Run.pump (m.now + delay)) := by
  have hsuspend : Run.suspend Run.pump delay what m = Run.pump (m.now + delay) m := by
    rw [Run.suspend_cooperative (by simp [hmode]), Run.bind_ok (Run.checkAbort_of_not habort)]
  unfold after
  rw [hsuspend]

theorem Pauses.lasts {m m' : Machine} {deadlines : List Nat} (h : m.Pauses deadlines m') :
    m.Lasts deadlines m' := by
  induction h with
  | none m => exact m.lasts_refl
  | run h m => exact h.lasts m
  | enter m frame => exact lasts_of_same rfl rfl
  | leave m => exact lasts_of_same rfl rfl
  | suspended hmode habort hdelay what =>
    rw [after_suspend hmode habort]
    exact ((passesUnder_pumped _).pump _).lasts hdelay
  | trans _ _ hfirst hlater => exact hfirst.trans hlater

end Machine

namespace Run

open Machine (Elapses elapses_refl elapses_trans)

private theorem elapses_followed : Followed (Elapses 0) where
  refl := elapses_refl
  trans := elapses_trans
  elementary h m := (Machine.Pauses.run h m).elapses (h.elementary.spends m)
  inFrame {α x} frame hx := by
    intro m
    rw [m.after_inFrame]
    have hentered : m.Elapses 0 (m.enter frame) :=
      (Machine.Pauses.enter m frame).elapses ⟨rfl, Nat.le_refl _⟩
    have hleft : ((m.enter frame).after x).Elapses 0 ((m.enter frame).after x).leave :=
      (Machine.Pauses.leave _).elapses ⟨rfl, Nat.le_refl _⟩
    exact hentered.trans ((hx (m.enter frame)).trans hleft)

theorem Relates.spare {α : Type} {x : Run α} (hx : Relates (Elapses 0) x) :
    Relates (Elapses 1) x :=
  fun m => (hx m).mono (Nat.zero_le 1)

private theorem Relates.elapses_bind {α β : Type} {x : Run α} {f : α → Run β} {credit more : Nat}
    (hx : Relates (Elapses credit) x) (hf : ∀ a, Relates (Elapses more) (f a)) :
    Relates (Elapses (credit + more)) (x >>= f) := by
  intro m
  have hfirst := hx m
  cases h : x m with
  | ok a m' =>
    rw [Machine.after_ok h] at hfirst
    rw [Machine.after_bind_ok h]
    exact hfirst.trans (hf a m')
  | error u m' =>
    rw [Machine.after_error h] at hfirst
    rw [Machine.after_error (bind_error h f)]
    exact hfirst.mono (Nat.le_add_right credit more)

private theorem Relates.bind_spare {α β : Type} {x : Run α} {f : α → Run β}
    (hx : Relates (Elapses 0) x) (hf : ∀ a, Relates (Elapses 1) (f a)) :
    Relates (Elapses 1) (x >>= f) :=
  hx.elapses_bind hf

theorem Relates.tick_bind {α : Type} {x : Run α} (hx : Relates (Elapses 1) x) :
    Relates (Elapses 0) (tick >>= fun _ => x) := by
  intro m
  have hticked : m.Elapses 0 (m.after tick) := elapses_followed.elementary .tick m
  cases h : tick m with
  | ok a m' =>
    have hstep : m' = { m with steps := m.steps + 1 } :=
      (Machine.after_ok h).symm.trans m.after_tick
    have hlimit : m.steps + 1 ≤ m.config.stepLimit := by
      by_contra hpast
      have hover : tick m = .error .stepLimit { m with steps := m.steps + 1 } :=
        if_pos (Nat.not_le.mp hpast)
      cases h.symm.trans hover
    have hpaid : m.spent + 1 ≤ m'.spent := by
      rw [hstep]
      simp only [Machine.spent]
      omega
    have hbegun : m.Pauses [] m' := by
      rw [← Machine.after_ok h]
      exact .run .tick m
    rw [Machine.after_bind_ok h]
    obtain ⟨deadlines, hpauses, hspent⟩ := hx m'
    have hboth := hbegun.trans hpauses
    rw [List.append_nil] at hboth
    exact ⟨deadlines, hboth, by omega⟩
  | error u m' =>
    rw [Machine.after_error h] at hticked
    rw [Machine.after_error (bind_error h _)]
    exact hticked

private theorem elapses_suspend {delay : Nat} (hdelay : delay ≤ longestDelay) (what : String) :
    Relates (Elapses 1) (suspend pump delay what) := by
  intro m
  by_cases hmode : m.mode = .cooperative
  · cases habort : m.mustAbort with
    | true =>
      have hstop : checkAbort m = .error .aborted m := by
        change (if m.mustAbort then throw .aborted else pure () : Run Unit) m = _
        rw [if_pos habort]
        rfl
      have hleft : suspend pump delay what m = .error .aborted m := by
        rw [suspend_cooperative (by simp [hmode])]
        exact bind_error hstop _
      rw [Machine.after_error hleft]
      exact (elapses_refl m).mono (Nat.zero_le 1)
    | false =>
      refine (Machine.Pauses.suspended hmode habort hdelay what).elapses ?_
      rw [Machine.after_suspend hmode habort]
      exact Machine.spends_passing.pump _ m
  · have himmediate : m.mode = .immediate := by
      cases hm : m.mode with
      | immediate => rfl
      | cooperative => exact absurd hm hmode
    rw [Machine.after_ok (suspend_immediate himmediate pump delay what)]
    exact (elapses_followed.elementary (.tell _)).spare m

private theorem elapses_tryCritical (name : String) :
    Relates (Elapses 0) (tryCritical pump name) := by
  have C := elapses_followed.closed.congruence
  refine relates_inspect fun m => ?_
  split
  · exact (C.bind (C.elementary (.holdSection name)) fun _ => C.pure _).2
  · split
    · exact (C.bind (C.notice _) fun _ => C.pure _).2
    · refine Relates.tick_bind ?_
      exact (elapses_suspend (by decide) _).elapses_bind fun _ => (C.pure _).2

/-- Of the statements only a wait without a body lets time pass itself; the others leave that to
their parts. -/
private theorem statement_eq_of_no_body {eval : Expr → Run Value} {block : List Stmt → Run Flow}
    {fuel : Nat} {s : Stmt} (h : ∀ pos duration label, s ≠ .wait pos duration label none) :
    statement eval block pump fuel s = statement eval block noPump fuel s := by
  cases s with
  | wait pos duration label body =>
    cases body with
    | none => exact absurd rfl (h pos duration label)
    | some body => rfl
  | returns pos value => cases value <;> rfl
  | _ => rfl

private theorem expression_eq_of_no_call {eval : Expr → Run Value} {block : List Stmt → Run Flow}
    {fuel : Nat} {e : Expr} (h : ∀ name args, e ≠ .call name args) :
    expression eval block pump fuel e = expression eval block noPump fuel e := by
  cases e with
  | call name args => exact absurd rfl (h name args)
  | binary op left right => cases op <;> rfl
  | _ => rfl

section Levels

variable {eval : Expr → Run Value} {block : List Stmt → Run Flow} {fuel : Nat}
  (L : Level (Itself (Relates (Elapses 0))) eval eval block block noPump noPump fuel fuel)
include L

private theorem elapses_timingRoutine {name : String} {args : List Expr} {x : Run Value}
    (h : timingRoutine eval pump fuel name args = some x) : Relates (Elapses 1) x := by
  have hinstant := L.timingRoutine L.eval L.suspend L.sectionLoop name args fun _ => trivial
  unfold timingRoutine at h hinstant
  split at h
  case h_1 =>
    cases h
    refine (L.argNumber L.eval args 0).2.bind_spare fun delay => ?_
    exact (elapses_suspend (hundredths_le _) _).elapses_bind fun _ => (L.pure _).2
  case h_2 =>
    cases h
    refine relates_inspect fun m => ?_
    split
    · exact (elapses_suspend (Nat.zero_le _) _).elapses_bind fun _ => (L.pure _).2
    · exact (L.pure _).2.spare
  case h_8 =>
    cases h
    refine (L.argName L.eval args 0).2.bind_spare fun name => Relates.spare ?_
    exact elapses_followed.pervades.repeatUntil (elapses_tryCritical name) fuel
  case h_10 => cases h
  -- The other routines let no time pass.
  all_goals
    cases h
    cases hinstant with
    | some h => exact h.2.spare

private theorem elapses_servedRoutine {name : String} {args : List Expr} {x : Run Value}
    (h : servedRoutine eval pump fuel name args = some x) : Relates (Elapses 1) x := by
  obtain htiming | ⟨-, hother⟩ := Option.or_eq_some_iff.mp h
  · exact elapses_timingRoutine L htiming
  · have hinstant := rel_or (L.fileRoutine L.eval name args) (L.socketRoutine L.eval name args)
    rw [hother] at hinstant
    cases hinstant with
    | some h => exact h.2.spare

variable (hcall : ∀ f args, Relates (Elapses 0) (callFunction eval block f args))
include hcall

private theorem elapses_call (name : String) (args : List Expr) :
    Relates (Elapses 1) (call eval block pump fuel name args) := by
  refine relates_inspect fun m => ?_
  split
  · exact (L.callAt (fun f args => ⟨rfl, hcall f args⟩) _ args).2.spare
  · split
    · exact (L.fault _).2.spare
    · split
      next x h => exact elapses_servedRoutine L h
      next =>
        split
        · exact (L.callRoutine L.eval _ args).2.spare
        · exact (L.fault _).2.spare

private theorem elapses_expression (e : Expr) :
    Relates (Elapses 1) (expression eval block pump fuel e) := by
  by_cases h : ∃ name args, e = .call name args
  · obtain ⟨name, args, rfl⟩ := h
    exact elapses_call L hcall name args
  · rw [expression_eq_of_no_call fun name args he => h ⟨name, args, he⟩]
    exact (L.expression e).2.spare

omit hcall in
private theorem elapses_statement (s : Stmt) :
    Relates (Elapses 1) (statement eval block pump fuel s) := by
  by_cases h : ∃ pos duration label, s = .wait pos duration label none
  · obtain ⟨pos, duration, label, rfl⟩ := h
    refine (L.eval duration).2.bind_spare fun v => ?_
    exact (elapses_suspend (hundredths_le _) _).elapses_bind fun _ => (L.pure _).2
  · rw [statement_eq_of_no_body fun pos duration label hs => h ⟨pos, duration, label, hs⟩]
    exact (L.statement s).2.spare

end Levels

private theorem elapses_eval_exec (fuel : Nat) :
    (∀ e, Relates (Elapses 0) (eval pump fuel e)) ∧
      ∀ s, Relates (Elapses 0) (exec pump fuel s) := by
  have P := elapses_followed.pervades
  induction fuel with
  | zero => exact ⟨fun _ => P.exhausted, fun _ => P.exhausted⟩
  | succ fuel ih =>
    obtain ⟨heval, hexec⟩ := ih
    have hblock := fun body =>
      (P.toClosed.congruence.sequence (fun s => ⟨rfl, hexec s⟩) body).2
    -- The parts may let time pass, but the level itself does not: the one deadline that a statement
    -- or an expression sets of its own is paid for by the step it takes first.
    have L := P.level fuel heval hblock
    exact ⟨fun e => (elapses_expression L (elapses_followed.call heval hblock) e).tick_bind,
      fun s => ((elapses_statement L s).locatedAt s.pos).tick_bind⟩

private theorem elapses_block (fuel : Nat) (body : List Stmt) :
    Relates (Elapses 0) (block pump fuel body) :=
  (elapses_followed.closed.congruence.sequence
    (fun s => ⟨rfl, (elapses_eval_exec fuel).2 s⟩) body).2

end Run

namespace Machine

private theorem schedule_conclude (m : Machine) (r : Except Unwind Flow) :
    (m.conclude r).2.schedule = m.schedule := by
  cases r with
  | ok flow => rfl
  | error u => cases u <;> rfl

private theorem schedule_runBody (m : Machine) (frame : Frame) (body : List Stmt) :
    (m.runBody frame body).2.schedule =
      ((m.beginMain frame).after (Run.block Run.pump m.fuel body)).schedule := by
  unfold runBody
  cases hrun : Run.block Run.pump m.fuel body (m.beginMain frame) with
  | ok flow m' =>
    rw [after_ok hrun]
    exact schedule_conclude _ _
  | error u m' =>
    rw [after_error hrun]
    exact schedule_conclude _ _

private theorem pauses_block (m : Machine) (frame : Frame) (body : List Stmt) :
    ∃ deadlines, (m.beginMain frame).Pauses deadlines
      ((m.beginMain frame).after (Run.block Run.pump m.fuel body)) ∧
        deadlines.length ≤ m.config.stepLimit := by
  obtain ⟨deadlines, hpauses, hspent⟩ := Run.elapses_block m.fuel body (m.beginMain frame)
  -- The body begins with no step taken, so what it has spent is within the limit.
  have hbegun : (m.beginMain frame).spent = 0 := Nat.zero_min _
  have hlimit : ((m.beginMain frame).after (Run.block Run.pump m.fuel body)).spent ≤
      m.config.stepLimit := by
    have hconfig : ((m.beginMain frame).after (Run.block Run.pump m.fuel body)).config = m.config :=
      hpauses.lasts.config
    unfold spent
    rw [hconfig]
    exact Nat.min_le_right _ _
  exact ⟨deadlines, hpauses, by omega⟩

private theorem pauses_runMain (m : Machine) :
    ∃ deadlines, m.RunPauses deadlines ∧ deadlines.length ≤ m.config.stepLimit := by
  by_cases h : ∃ main frame, m.program.main = some main ∧
      Frame.declareLocals m.program.structures main.locals {} = .ok frame
  · obtain ⟨main, frame, hmain, hframe⟩ := h
    obtain ⟨deadlines, hpauses, hlength⟩ := pauses_block { m with abort := false } frame main.body
    exact ⟨deadlines, .body hmain hframe hpauses, hlength⟩
  · exact ⟨[], .none fun main frame hmain hframe => h ⟨main, frame, hmain, hframe⟩, Nat.zero_le _⟩

private theorem schedule_runMain_of_none {m : Machine}
    (h : ∀ main frame, m.program.main = some main →
    Frame.declareLocals m.program.structures main.locals {} ≠ .ok frame) :
    m.runMain.2.schedule = m.schedule := by
  unfold runMain
  dsimp only
  split
  next => rfl
  next main hmain =>
    split
    next frame hframe => exact absurd hframe (h main frame hmain)
    next => rfl

theorem RunPauses.course {m : Machine} {deadlines : List Nat} (h : m.RunPauses deadlines)
    (hm : m.config.IsMeasured) : ∃ history,
      Timing.Course longestDelay ⟨m.schedule, []⟩ history ⟨m.runMain.2.schedule, deadlines⟩ := by
  cases h with
  | none h =>
    rw [schedule_runMain_of_none h]
    exact ⟨[], .refl _⟩
  | @body main frame _ hmain hframe h =>
    have hrun : m.runMain = { m with abort := false }.runBody frame main.body := by
      unfold runMain
      simp only [hmain, hframe]
    obtain ⟨history, hcourse⟩ := h.lasts.course hm []
    rw [List.append_nil] at hcourse
    rw [hrun, schedule_runBody]
    exact ⟨history, hcourse⟩

end Machine

/--
In a run of the entry function, whatever the program, the deadlines that are set are those up to
which its code is suspended, and they are no more than the run may take steps. Each deadline is a
delay from the time it was set at, no delay is longer than the longest, and the clock never passes
the last deadline; so the clock and all deadlines are bounded by as many of the longest delays, and
the times that work is planned for by one more. As long as this is not past the latest time a host
can tell, it can tell all times afterwards, if it could before.
-/
theorem times_of_run_are_bounded (m : Machine) (h : m.config.IsMeasured) :
    ∃ history deadlines, m.RunPauses deadlines ∧
      Timing.Course longestDelay ⟨m.schedule, []⟩ history ⟨m.runMain.2.schedule, deadlines⟩ ∧
      deadlines.length ≤ m.config.stepLimit ∧
      m.runMain.2.now ≤ m.now + deadlines.length * longestDelay ∧
      (∀ deadline ∈ deadlines, deadline ≤ m.now + deadlines.length * longestDelay) ∧
      (∀ deed ∈ history, deed.due ≤ m.now + (deadlines.length + 1) * longestDelay) ∧
      (m.schedule.isTellable = true →
        m.now + (deadlines.length + 1) * longestDelay ≤ Schedule.latestTime →
          m.runMain.2.schedule.isTellable = true) := by
  obtain ⟨later, hpauses, hlength⟩ := m.pauses_runMain
  obtain ⟨history, hcourse⟩ := hpauses.course h
  obtain ⟨⟨hnow, hdeadlines⟩, hhistory⟩ :=
    hcourse.bounded (Timing.bounded_start m.schedule longestDelay)
  refine ⟨history, later, hpauses, hcourse, hlength, hnow, hdeadlines, hhistory,
    fun htold hlatest => ?_⟩
  have hmore : (later.length + 1) * longestDelay = later.length * longestDelay + longestDelay :=
    Nat.succ_mul _ _
  have hnow' : m.runMain.2.schedule.now ≤ m.schedule.now + later.length * longestDelay := hnow
  have hstart : m.now = m.schedule.now := rfl
  refine Schedule.isTellable_iff.mpr ⟨by omega, fun id due task hlive => ?_⟩
  obtain ⟨task', hplanned⟩ | ⟨deed, hdeed, hdue⟩ := hcourse.live hlive
  · exact (Schedule.isTellable_iff.mp htold).2 id due task' hplanned
  · rw [← hdue]
    exact Nat.le_trans (hhistory deed hdeed) hlatest

/-- From the start of the clock, 999 deadlines are within what a host can tell. -/
example : 0 + (999 + 1) * longestDelay ≤ Schedule.latestTime := by decide

/-! ### A program that waits -/

namespace Machine

/-- Code that cooperates, where no work is planned and no stimulus waits. -/
structure Resting (m : Machine) : Prop where
  mode : m.mode = .cooperative
  abort : m.abort = false
  tasks (id : Nat) : m.schedule.tasks[id]? = none
  inbox : m.schedule.inbox = []
  rounds : 2 ≤ m.config.rounds

/-- The machine at another time, with nothing but the clock and dropped entries of its agenda
changed. -/
structure Elapsed (m : Machine) (time : Nat) (m' : Machine) : Prop where
  same : ∃ schedule, m' = { m with schedule := schedule }
  now : m'.now = time
  resting : m'.Resting

namespace Resting

variable {m : Machine} (h : m.Resting)
include h

theorem mustAbort : m.mustAbort = false :=
  Machine.mustAbort_of_not_abort h.abort

theorem moved (steps time : Nat) : ({ m with
    steps := steps, schedule := { m.schedule with now := time } } : Machine).Resting :=
  ⟨h.mode, h.abort, h.tasks, h.inbox, h.rounds⟩

theorem popDue (deadline : Nat) :
    (m.popDue deadline).1 = none ∧ m.Elapsed m.now (m.popDue deadline).2 := by
  obtain ⟨hnone, hnow, htasks, hinbox, -⟩ | ⟨id, due, task, -, hlive, -⟩ :=
    m.schedule.popDue_cases deadline
  · have htasks' (id : Nat) : (m.popDue deadline).2.schedule.tasks[id]? = none :=
      (congrArg (·[id]?) htasks).trans (h.tasks id)
    exact ⟨hnone, ⟨_, rfl⟩, hnow, h.mode, h.abort, htasks', hinbox.trans h.inbox, h.rounds⟩
  · cases hlive.symm.trans (h.tasks id)

theorem waitUntil {deadline : Nat} (hnow : m.now ≤ deadline) :
    (m.waitUntil deadline).1 = none ∧ m.Elapsed deadline (m.waitUntil deadline).2 := by
  have hmoment : min (m.schedule.nextDue?.getD deadline) deadline = deadline := by
    refine Schedule.min_nextDue?_eq fun {id due task} hlive => ?_
    cases hlive.symm.trans (h.tasks id)
  have hmoved : m.waitUntil deadline =
      (none, { m with schedule := { m.schedule with now := deadline } }) := by
    unfold Machine.waitUntil Schedule.waitUntil
    dsimp only
    rw [h.inbox, hmoment]
    dsimp only
    rw [Nat.max_eq_right (show m.schedule.now ≤ deadline from hnow)]
  rw [hmoved]
  exact ⟨rfl, ⟨_, rfl⟩, rfl, h.moved m.steps deadline⟩

theorem pumpRound_eq (deadline : Nat) :
    Run.pumpRound deadline m = Run.awaiting deadline (m.popDue deadline).2 := by
  rw [Run.pumpRound_of_empty h.mustAbort h.inbox, Run.working_of_idle (h.popDue deadline).1]

private theorem pumpRound_early {deadline : Nat} (hearly : m.now < deadline) :
    ∃ m', Run.pumpRound deadline m = .ok none m' ∧ m.Elapsed deadline m' := by
  obtain ⟨-, ⟨schedule, hsame⟩, hnow, hresting⟩ := h.popDue deadline
  have hnow' : (m.popDue deadline).2.now ≤ deadline := by omega
  obtain ⟨hnone, ⟨later, hlater⟩, hmoved, hresting'⟩ := hresting.waitUntil hnow'
  refine ⟨_, ?_, ⟨later, ?_⟩, hmoved, hresting'⟩
  · rw [h.pumpRound_eq]
    unfold Run.awaiting
    rw [Run.get_bind, if_neg (by omega), Run.modifyGet_bind, hnone]
    rfl
  · rw [hlater, hsame]

private theorem pumpRound_last {deadline : Nat} (hlast : m.now = deadline) :
    ∃ m', Run.pumpRound deadline m = .ok (some ()) m' ∧ m.Elapsed deadline m' := by
  have hpopped := (h.popDue deadline).2
  rw [hlast] at hpopped
  refine ⟨_, ?_, hpopped⟩
  rw [h.pumpRound_eq]
  exact Run.awaiting_of_le (Nat.le_of_eq hpopped.now.symm)

theorem pump {deadline : Nat} (hearly : m.now < deadline) :
    ∃ m', Run.pump deadline m = .ok () m' ∧ m.Elapsed deadline m' := by
  obtain ⟨m₁, hfirst, ⟨schedule, hsame⟩, hnow, hresting⟩ := h.pumpRound_early hearly
  obtain ⟨m₂, hsecond, ⟨later, hsame'⟩, hnow', hresting'⟩ := hresting.pumpRound_last hnow
  refine ⟨m₂, ?_, ⟨later, by rw [hsame', hsame]⟩, hnow', hresting'⟩
  obtain ⟨n, hn⟩ := Nat.exists_eq_add_of_le' h.rounds
  change Run.repeatUntil (Run.pumpRound deadline) m.config.rounds m = _
  rw [hn]
  unfold Run.repeatUntil
  rw [Run.bind_ok hfirst]
  dsimp only
  unfold Run.repeatUntil
  rw [Run.bind_ok hsecond]
  rfl

end Resting

end Machine

/-- A statement that lets the longest delay pass. -/
def longWait : Stmt :=
  .wait .start (.number 9223372036854775807) none none

/-- A program that lets the longest delay pass some times. -/
def longWaits (n : Nat) : Program :=
  { main := some ⟨"Main", .nothing, none, [], [], List.replicate n longWait, .start⟩ }

namespace Machine.Resting

variable {m : Machine} (h : m.Resting)
include h

private theorem exec_longWait (hsteps : m.steps + 2 ≤ m.config.stepLimit) (fuel : Nat) :
    ∃ m', Run.exec Run.pump (fuel + 2) longWait m = .ok .normal m' ∧
      ({ m with steps := m.steps + 2 } : Machine).Elapsed (m.now + longestDelay) m' := by
  let begun : Machine := { m with steps := m.steps + 1 }
  let ready : Machine := { m with steps := m.steps + 2 }
  have hready : ready.Resting := h.moved (m.steps + 2) m.now
  have hbegin : Run.tick m = .ok () begun := Run.tick_of_lt (by omega) h.mustAbort
  have hdelay : Run.eval Run.pump (fuel + 1) (.number 9223372036854775807) begun =
      .ok (.number 9223372036854775807) ready := by
    unfold Run.eval
    rw [Run.bind_ok (Run.tick_of_lt (m := begun) hsteps h.mustAbort)]
    rfl
  have hearly : ready.now < m.now + longestDelay := Nat.lt_add_of_pos_right (by decide)
  obtain ⟨m', hpumped, helapsed⟩ := hready.pump hearly
  refine ⟨m', ?_, helapsed⟩
  have hsuspend : Run.suspend Run.pump longestDelay "Wait" ready = .ok () m' := by
    have hmode : ready.mode ≠ .immediate := by
      rw [hready.mode]
      decide
    rw [Run.suspend_cooperative hmode, Run.bind_ok (Run.checkAbort_of_not hready.mustAbort)]
    exact hpumped
  unfold Run.exec longWait
  rw [Run.bind_ok hbegin]
  apply Run.locatedAt_ok
  change (Run.eval Run.pump (fuel + 1) (.number 9223372036854775807) >>= fun v =>
    Run.suspend Run.pump (Run.hundredths v.toNumber) "Wait" >>= fun _ => pure Flow.normal) _ = _
  rw [Run.bind_ok hdelay]
  change (Run.suspend Run.pump longestDelay "Wait" >>= fun _ => pure Flow.normal) _ = _
  rw [Run.bind_ok hsuspend]
  rfl

private theorem block_longWaits (n fuel : Nat) (hsteps : m.steps + 2 * n ≤ m.config.stepLimit) :
    ∃ m', Run.block Run.pump (fuel + 2) (List.replicate n longWait) m = .ok .normal m' ∧
      ({ m with steps := m.steps + 2 * n } : Machine).Elapsed (m.now + n * longestDelay) m' := by
  induction n generalizing m with
  | zero => exact ⟨m, rfl, ⟨m.schedule, rfl⟩, by simp, h⟩
  | succ n ih =>
    obtain ⟨m₁, hexec, ⟨schedule, hsame⟩, hnow, hresting⟩ := h.exec_longWait (by omega) fuel
    obtain ⟨m₂, hblock, ⟨later, hsame'⟩, hnow', hresting'⟩ := ih hresting (by
      rw [hsame]
      dsimp only
      omega)
    refine ⟨m₂, ?_, ⟨later, ?_⟩, ?_, hresting'⟩
    · rw [List.replicate_succ]
      unfold Run.block Run.sequence
      rw [Run.bind_ok hexec]
      exact hblock
    · rw [hsame', hsame]
      dsimp only
      congr 1
      omega
    · rw [hnow', hnow]
      have hmore : (n + 1) * longestDelay = n * longestDelay + longestDelay := Nat.succ_mul _ _
      omega

end Machine.Resting

namespace Machine

private theorem addConstants_eq (constants : List (String × Value)) (m : Machine) :
    ∃ known, constants.foldl (fun m c => m.addConstant c.1 c.2) m =
      { m with constants := known } := by
  induction constants generalizing m with
  | nil => exact ⟨m.constants, rfl⟩
  | cons c rest ih => exact ih (m.addConstant c.1 c.2)

private theorem install_longWaits (config : Settings) (n : Nat) :
    ∃ known, (new config).install (longWaits n) =
      { new config with program := longWaits n, constants := known } :=
  addConstants_eq (systemConstants (longWaits n)) { new config with program := longWaits n }

private theorem runMain_longWaits {config : Settings} (hrounds : 2 ≤ config.rounds) {n : Nat}
    (hsteps : 2 * n ≤ config.stepLimit) :
    ((new config).install (longWaits n)).runMain.1 = .completed ∧
      ((new config).install (longWaits n)).runMain.2.now = n * longestDelay := by
  obtain ⟨known, hinstalled⟩ := install_longWaits config n
  let m : Machine := { new config with program := longWaits n, constants := known }
  have hnone (id : Nat) : ({} : Std.HashMap Nat (Nat × Task))[id]? = none := by simp
  have hresting : (m.beginMain {}).Resting := ⟨rfl, rfl, hnone, rfl, hrounds⟩
  obtain ⟨m', hblock, -, hnow, -⟩ := hresting.block_longWaits n config.stepLimit (by
    change 0 + 2 * n ≤ config.stepLimit
    omega)
  have hrun : m.runBody {} (List.replicate n longWait) = (.completed, m'.endMain []) := by
    have hblock' : Run.block Run.pump m.fuel (List.replicate n longWait) (m.beginMain {}) =
        .ok .normal m' := hblock
    unfold runBody
    rw [hblock']
    rfl
  have hend : m.runMain = (.completed, m'.endMain []) := hrun
  rw [hinstalled]
  change m.runMain.1 = _ ∧ m.runMain.2.now = _
  rw [hend]
  refine ⟨rfl, hnow.trans ?_⟩
  exact Nat.zero_add _

end Machine

private theorem Machine.isTellable_of_late {m : Machine} (h : Schedule.latestTime < m.now) :
    m.schedule.isTellable = false := by
  rw [Bool.eq_false_iff]
  intro htold
  exact Nat.not_le.mpr h (Schedule.isTellable_iff.mp htold).1

/-- A program that waits once sets its deadline within the bound. -/
theorem waiting_once_is_bounded :
    let m := (Machine.new {}).install (longWaits 1)
    m.config.IsMeasured ∧ ∃ n ≤ 1000000, m.runMain.2.now ≤ n * longestDelay := by
  intro m
  have hconfig : m.config = {} := by
    obtain ⟨known, hinstalled⟩ := Machine.install_longWaits {} 1
    exact congrArg Machine.config hinstalled
  have hmeasured : m.config.IsMeasured := by
    rw [hconfig]
    exact ⟨by decide, by decide⟩
  obtain ⟨history, deadlines, -, -, hlength, hnow, -⟩ := times_of_run_are_bounded m hmeasured
  have hstart : m.now = 0 := by
    obtain ⟨known, hinstalled⟩ := Machine.install_longWaits {} 1
    exact congrArg Machine.now hinstalled
  rw [hconfig] at hlength
  rw [hstart, Nat.zero_add] at hnow
  exact ⟨hmeasured, deadlines.length, hlength, hnow⟩

/-- A thousand of the longest delays bring the clock to the last second, and one more brings it past
the latest time, far within the limit of steps. -/
theorem waits_pass_latest_time :
    let run := ((Machine.new {}).install (longWaits 1001)).runMain
    run.1 = .completed ∧ Schedule.latestTime < run.2.now ∧ run.2.schedule.isTellable = false := by
  have hrounds : 2 ≤ ({} : Settings).rounds := by decide
  have hsteps : 2 * 1001 ≤ ({} : Settings).stepLimit := by decide
  obtain ⟨hend, hnow⟩ := Machine.runMain_longWaits hrounds hsteps
  have hlate : Schedule.latestTime < 1001 * longestDelay := by decide
  have hpast := Nat.lt_of_lt_of_eq hlate hnow.symm
  exact ⟨hend, hpast, Machine.isTellable_of_late hpast⟩

end ControlLogic
