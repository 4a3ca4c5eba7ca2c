import ControlLogic.Proofs.Machine.Clock
import ControlLogic.Proofs.Machine.Shifting

/-!
Code that runs to its end at once is not disturbed. How time passes makes no difference to it, since
it goes on where other code would be suspended; and of the work that was planned before it, it
touches only the bodies of waits that it drops or moves.
-/

set_option autoImplicit false
set_option relaxedAutoImplicit false

namespace ControlLogic

namespace Run

/-- Two runs do the same where code runs to its end at once, and then it still does. -/
def Coincides {α : Type} (x y : Run α) : Prop :=
  ∀ m : Machine, m.mode = .immediate → x m = y m ∧ (m.after x).mode = .immediate

private theorem coincides_refl {α : Type} {x : Run α}
    (h : ∀ m : Machine, (m.after x).mode = m.mode) :
    Coincides x x :=
  fun m hm => ⟨rfl, (h m).trans hm⟩

theorem Coincides.bind {α β : Type} {x x' : Run α} {f f' : α → Run β} (hx : Coincides x x')
    (hf : ∀ a, Coincides (f a) (f' a)) : Coincides (x >>= f) (x' >>= f') := by
  intro m hm
  obtain ⟨hsame, hmode⟩ := hx m hm
  cases h : x m with
  | error u m' =>
    rw [Machine.after_error h] at hmode
    rw [bind_error h, bind_error (hsame.symm.trans h), Machine.after_error (bind_error h f)]
    exact ⟨rfl, hmode⟩
  | ok a m' =>
    -- The rest of the runs coincide only where code still runs to its end at once.
    rw [Machine.after_ok h] at hmode
    rw [bind_ok h, bind_ok (hsame.symm.trans h), Machine.after_bind_ok h]
    exact hf a m' hmode

private theorem coincides_elementary {α : Type} {x : Run α} (h : Elementary x) : Coincides x x :=
  coincides_refl fun m => (h.proceeds m).balanced.mode

private theorem coincides_congruence : Congruence Coincides where
  pure _ := coincides_refl fun _ => rfl
  leave _ := coincides_refl fun _ => rfl
  bind hx hf := hx.bind hf
  inspect _ h := fun m => h m m
  elementary h := coincides_elementary h.elementary

theorem Coincides.inFrame {α : Type} {x x' : Run α} (hx : Coincides x x') (frame : Frame) :
    Coincides (inFrame frame x) (inFrame frame x') := by
  intro m hm
  obtain ⟨hsame, hmode⟩ := hx (m.enter frame) hm
  rw [m.after_inFrame]
  refine ⟨?_, hmode⟩
  unfold Run.inFrame
  rw [hsame]

theorem Coincides.locatedAt {α : Type} {x x' : Run α} (hx : Coincides x x') (p : Position) :
    Coincides (locatedAt p x) (locatedAt p x') := by
  intro m hm
  obtain ⟨hsame, hmode⟩ := hx m hm
  rw [m.after_locatedAt]
  refine ⟨?_, hmode⟩
  unfold Run.locatedAt
  rw [hsame]

theorem Coincides.repeatUntil {α : Type} {round round' : Run (Option α)}
    (h : Coincides round round') (n : Nat) :
    Coincides (repeatUntil round n) (repeatUntil round' n) := by
  induction n with
  | zero => exact coincides_refl fun _ => rfl
  | succ n ih =>
    refine h.bind fun a => ?_
    cases a with
    | none => exact ih
    | some a => exact coincides_congruence.pure a

private theorem coincides_suspend (pump pump' : Nat → Run Unit) (delay : Nat) (what : String) :
    Coincides (suspend pump delay what) (suspend pump' delay what) := by
  intro m hm
  have hnotice := suspend_immediate hm pump delay what
  refine ⟨hnotice.trans (suspend_immediate hm pump' delay what).symm, ?_⟩
  rw [Machine.after_ok hnotice]
  exact hm

private theorem coincides_level {eval eval' : Expr → Run Value}
    {block block' : List Stmt → Run Flow}
    (pump pump' : Nat → Run Unit) (heval : ∀ e, Coincides (eval e) (eval' e))
    (hblock : ∀ body, Coincides (block body) (block' body)) (n : Nat) :
    Level Coincides eval eval' block block' pump pump' n n where
  toCongruence := coincides_congruence
  eval := heval
  block := hblock
  suspend := coincides_suspend pump pump'
  whileLoop condition body :=
    (coincides_congruence.whileRound heval hblock condition body).repeatUntil n
  untilLoop body condition :=
    (coincides_congruence.untilRound heval hblock body condition).repeatUntil n
  countLoop key finish step body :=
    (coincides_congruence.countRound hblock key finish step body).repeatUntil n
  sectionLoop name :=
    (coincides_congruence.tryCritical (coincides_suspend pump pump') name).repeatUntil n
  call name args := coincides_congruence.call heval (coincides_suspend pump pump')
    (fun name =>
      (coincides_congruence.tryCritical (coincides_suspend pump pump') name).repeatUntil n)
    (coincides_congruence.callFunction heval fun frame body => (hblock body).inFrame frame)
    name args fun _ => trivial

private theorem coincides_eval_exec (pump pump' : Nat → Run Unit) (fuel : Nat) :
    (∀ e, Coincides (eval pump fuel e) (eval pump' fuel e)) ∧
      ∀ s, Coincides (exec pump fuel s) (exec pump' fuel s) := by
  induction fuel with
  | zero => exact ⟨fun e => coincides_refl fun _ => rfl, fun s => coincides_refl fun _ => rfl⟩
  | succ fuel ih =>
    obtain ⟨heval, hexec⟩ := ih
    have L := coincides_level pump pump' heval (coincides_congruence.sequence hexec) fuel
    refine ⟨fun e => ?_, fun s => ?_⟩
    · exact (coincides_elementary .tick).bind fun _ => L.expression e
    · exact (coincides_elementary .tick).bind fun _ => (L.statement s).locatedAt s.pos

private theorem coincides_block (pump pump' : Nat → Run Unit) (fuel : Nat) (body : List Stmt) :
    Coincides (block pump fuel body) (block pump' fuel body) :=
  coincides_congruence.sequence (coincides_eval_exec pump pump' fuel).2 body

private theorem coincides_callFunction (pump pump' : Nat → Run Unit) (fuel : Nat) (f : FunctionDef)
    (args : List Expr) :
    Coincides (callFunction (eval pump fuel) (block pump fuel) f args)
      (callFunction (eval pump' fuel) (block pump' fuel) f args) :=
  coincides_congruence.callFunction (coincides_eval_exec pump pump' fuel).1
    (fun frame body => (coincides_block pump pump' fuel body).inFrame frame) f args

end Run

/-- The acts of code itself: it takes no work that is due, begins no body of a wait, and does
nothing a host does. -/
def Act.isOfCode : Act → Bool
  | plan _ _ _ _ | arm _ _ _ _ _ | cancel _ _ | retime _ _ _ _ | connect _ _ _
  | disconnect _ => true
  | begin _ _ _ _ | take _ _ _ | clear | rewire => false

/-- The wait of a label, with its timer, is dropped or moved by one of some acts. -/
def Act.Shifted (label : String) (timer : Nat) (acts : List Act) : Prop :=
  .cancel label timer ∈ acts ∨ ∃ now delay, .retime label timer now delay ∈ acts

private theorem Act.Shifted.append_left {label : String} {timer : Nat} {acts : List Act}
    (h : Shifted label timer acts) (history : List Act) :
    Shifted label timer (acts ++ history) := by
  obtain hcancel | ⟨now, delay, hretime⟩ := h
  · exact .inl (List.mem_append_left _ hcancel)
  · exact .inr ⟨now, delay, List.mem_append_left _ hretime⟩

private theorem Act.Shifted.append_right {label : String} {timer : Nat} {history : List Act}
    (h : Shifted label timer history) (acts : List Act) :
    Shifted label timer (acts ++ history) := by
  obtain hcancel | ⟨now, delay, hretime⟩ := h
  · exact .inl (List.mem_append_right _ hcancel)
  · exact .inr ⟨now, delay, List.mem_append_right _ hretime⟩

namespace Machine

/-- Planned work stays as it is, other than the bodies of waits that were dropped or moved. -/
def Keeps (m : Machine) (acts : List Act) (m' : Machine) : Prop :=
  ∀ (timer due : Nat) (task : Task), m.schedule.tasks[timer]? = some (due, task) →
    m'.schedule.tasks[timer]? = some (due, task) ∨
      ∃ label, task = .waitBody label ∧ Act.Shifted label timer acts

private theorem keeps_of_eq {m m' : Machine} (h : m'.schedule = m.schedule) (acts : List Act) :
    m.Keeps acts m' :=
  fun _ _ _ hlive => .inl (h ▸ hlive)

theorem Keeps.trans {a b c : Machine} {history acts : List Act} (h : a.Keeps history b)
    (h' : b.Keeps acts c) : a.Keeps (acts ++ history) c := by
  intro timer due task hlive
  obtain hkept | ⟨label, htask, hshifted⟩ := h timer due task hlive
  · obtain hkept' | ⟨label, htask, hshifted⟩ := h' timer due task hkept
    · exact .inl hkept'
    · exact .inr ⟨label, htask, hshifted.append_left history⟩
  · exact .inr ⟨label, htask, hshifted.append_right acts⟩

private theorem Matched.keeps_plan {m m' : Machine} (hm : m.Matched) {delay : Nat} {task : Task}
    (h : m'.schedule = (m.schedule.plan delay task).2) (acts : List Act) : m.Keeps acts m' := by
  intro timer due task' hlive
  have hlt := hm.fresh (Schedule.task?_eq_some.mpr ⟨due, hlive⟩)
  rw [h, m.schedule.getElem?_plan, if_neg (by omega)]
  exact .inl hlive

private theorem Matched.keeps_shift {m m' : Machine} (hm : m.Matched) {label : String}
    {w : PendingWait}
    (hw : m.waits.get? label = some w) {acts : List Act} (hshifted : Act.Shifted label w.timer acts)
    (h : ∀ id, w.timer ≠ id → m'.schedule.tasks[id]? = m.schedule.tasks[id]?) :
    m.Keeps acts m' := by
  intro timer due task hlive
  by_cases hself : w.timer = timer
  · subst hself
    exact .inr ⟨label, hm.task_eq hw hlive, hshifted⟩
  · exact .inl ((h timer hself).trans hlive)

theorem Does.keeps {m m' : Machine} {acts : List Act} (h : m.Does acts m') (hm : m.Matched) :
    m.Keeps acts m' := by
  cases h with
  | still h => exact keeps_of_eq h.schedule _
  | plan delay h => exact hm.keeps_plan rfl _
  | arm delay label body h => exact hm.keeps_plan rfl _
  | cancel hw =>
    rw [after_cancelWait hw]
    exact hm.keeps_shift hw (.inl List.mem_cons_self) fun id hid =>
      (m.schedule.getElem?_cancel _ id).trans (if_neg hid)
  | cancelAll =>
    rw [after_cancelAllWaits]
    intro timer due task hlive
    by_cases hself : timer ∈ m.waits.toList.map (·.2.timer)
    · obtain ⟨⟨label, w⟩, hentry, rfl⟩ := List.mem_map.mp hself
      have hw : m.waits.get? label = some w :=
        Std.HashMap.mem_toList_iff_getElem?_eq_some.mp hentry
      refine .inr ⟨label, hm.task_eq hw hlive, .inl ?_⟩
      exact List.mem_map.mpr ⟨(label, w), hentry, rfl⟩
    · refine .inl (((m.schedule.getElem?_cancelAll m.waits.toList timer).trans ?_).trans hlive)
      exact if_neg hself
  | retime delay hw =>
    rw [after_retimeWait hw]
    exact hm.keeps_shift hw (.inr ⟨m.now, delay, List.mem_cons_self⟩) fun id hid =>
      (m.schedule.getElem?_retime _ delay id).trans (if_neg hid)
  | connect h => exact hm.keeps_plan rfl _
  | ask h => exact hm.keeps_plan rfl _
  | _ => exact keeps_of_eq rfl _

theorem Work.keeps {m m' : Machine} {acts : List Act} (h : m.Work acts m') (hm : m.Matched) :
    m.Keeps acts m' := by
  cases h with
  | does h => exact h.keeps hm
  | enter frame h => exact keeps_of_eq rfl _
  | leave => exact keeps_of_eq rfl _

private theorem keeps_chain {m m' : Machine} {acts : List Act} (h : Chain Work m acts m')
    (hm : m.Matched) : m.Keeps acts m' ∧ m'.Matched := by
  induction h with
  | refl => exact ⟨keeps_of_eq rfl _, hm⟩
  | step _ hwork ih =>
    obtain ⟨hkeeps, hmatched⟩ := ih
    exact ⟨hkeeps.trans (hwork.keeps hmatched), (hwork.tends hmatched).matched hmatched⟩

theorem Grows.keeps {m m' : Machine} (h : m.Grows m') (hm : m.Matched) : m.Keeps [] m' := by
  intro timer due task hlive
  have hlt := hm.fresh (Schedule.task?_eq_some.mpr ⟨due, hlive⟩)
  exact .inl ((h.tasks hlt).trans hlive)

private theorem Work.isOfCode {m m' : Machine} {acts : List Act} (h : m.Work acts m') :
    ∀ act ∈ acts, act.isOfCode = true := by
  cases h with
  | does h =>
    cases h with
    | cancelAll =>
      intro act hact
      obtain ⟨entry, -, rfl⟩ := List.mem_map.mp hact
      rfl
    | _ => simp [Act.isOfCode]
  | _ => simp

private theorem isOfCode_chain {m m' : Machine} {acts : List Act} (h : Chain Work m acts m') :
    ∀ act ∈ acts, act.isOfCode = true := by
  induction h with
  | refl => simp
  | step _ hwork ih =>
    intro act hact
    rcases List.mem_append.mp hact with hlast | hbefore
    · exact hwork.isOfCode act hlast
    · exact ih act hbefore

def Arises (m : Machine) : Prop :=
  ∃ config around, Moment.Reaches ⟨Machine.new config, []⟩ ⟨m, around⟩

/--
Code went from one machine to another without being disturbed: the clock and the stimuli that wait
are as they were, all that was done was done by the code itself, and the work that was planned stays
as it was, other than the bodies of waits that the code dropped or moved. Where no call gets to the
routines that drop or move waits, all of it stays.
-/
structure Undisturbed (m m' : Machine) : Prop where
  mode : m'.mode = m.mode
  now : m'.now = m.now
  inbox : m'.schedule.inbox = m.schedule.inbox
  work : ∃ acts, Chain Work m acts m' ∧ (∀ act ∈ acts, act.isOfCode = true) ∧
    (m.Arises → m.Keeps acts m')
  hidden : m.Arises → m.HidesShifting → m.Keeps [] m'

/-- However time can pass, a run does the same, and is not disturbed. -/
def Completes (m : Machine) {α : Type} (run : (Nat → Run Unit) → Run α) : Prop :=
  ∀ pump : Nat → Run Unit, run pump m = run Run.noPump m ∧ m.Undisturbed (m.after (run pump))

theorem Arises.matched {m : Machine} (h : m.Arises) : m.Matched := by
  obtain ⟨config, around, hreaches⟩ := h
  exact hreaches.matched

private theorem undisturbed_of_works {m m' : Machine} (h : m.mode = .immediate)
    (hstays : m.StaysImmediate m') (hworks : m.Works m') (hgrows : m.GrowsIfHidden m') :
    m.Undisturbed m' := by
  obtain ⟨hmode, hnow, hinbox⟩ := hstays h
  obtain ⟨acts, hchain⟩ := hworks
  exact ⟨hmode.trans h.symm, hnow, hinbox,
    ⟨acts, hchain, isOfCode_chain hchain, fun harises => (keeps_chain hchain harises.matched).1⟩,
    fun harises hhides => (hgrows hhides).keeps harises.matched⟩

private theorem completes_of_coincides {m : Machine} (h : m.mode = .immediate) {α : Type}
    {run : (Nat → Run Unit) → Run α} (hsame : ∀ pump, Run.Coincides (run pump) (run Run.noPump))
    (hstays : Run.Relates StaysImmediate (run Run.noPump))
    (hworks : Run.Relates (Along Works) (run Run.noPump))
    (hgrows : Run.Relates GrowsIfHidden (run Run.noPump)) : m.Completes run := by
  intro pump
  obtain ⟨heq, -⟩ := hsame pump m h
  have hafter : m.after (run pump) = m.after (run Run.noPump) := by
    unfold after
    rw [heq]
  rw [hafter]
  exact ⟨heq, undisturbed_of_works h (hstays m) (hworks m).1 (hgrows m)⟩

end Machine

/--
Statements, expressions and calls of functions that run to their end at once, from any state, are
not disturbed, however they end and however time could pass meanwhile: the clock, the stimuli that
wait and the way code runs are as they were; no work that is due is taken and no handler is started,
since the code does the same where no time can pass and each thing done is its own; and work that
was planned before is planned for the same time, unless it is the body of a wait that the code
dropped or moved. It does so by calling the routines for this: where the program has functions of
its own under their names, all work is planned as before; and of the elementary runs only those of
these routines touch work that is planned.
-/
theorem immediate_code_runs_to_completion (m : Machine) (h : m.mode = .immediate) (fuel : Nat)
    (body : List Stmt) (e : Expr) (f : FunctionDef) (args : List Expr) :
    m.Completes (fun pump => Run.block pump fuel body) ∧
    m.Completes (fun pump => Run.eval pump fuel e) ∧
    m.Completes
      (fun pump => Run.callFunction (Run.eval pump fuel) (Run.block pump fuel) f args) ∧
    ∀ {α : Type} (x : Run α), Run.Calm x → ∀ m : Machine, m.Arises → m.Keeps [] (m.after x) := by
  have hstays := Run.staysImmediate_respected Run.noPump
  have hworks := Machine.works_coding.immediate
  have hgrows := Run.growsIfHidden_pervades
  refine ⟨?_, ?_, ?_, fun x hx m harises => (hx.grows m).keeps harises.matched⟩
  · exact Machine.completes_of_coincides h
      (fun pump => Run.coincides_block pump Run.noPump fuel body)
      (hstays.block fuel body) (hworks.block fuel body) (hgrows.block fuel body)
  · exact Machine.completes_of_coincides h
      (fun pump => (Run.coincides_eval_exec pump Run.noPump fuel).1 e)
      ((hstays.eval_exec fuel).1 e) ((hworks.eval_exec fuel).1 e) ((hgrows.eval_exec fuel).1 e)
  · exact Machine.completes_of_coincides h
      (fun pump => Run.coincides_callFunction pump Run.noPump fuel f args)
      (hstays.callFunction fuel f args) (hworks.callFunction fuel f args)
      (hgrows.callFunction fuel f args)

/-- A handler that would wait for a second, on a machine whose host has planned an order to stop
sooner: no time passes, and the order is still planned. -/
theorem handler_wait_leaves_planned_stop :
    let m := ((Machine.new {}).scheduleStimulus 10 .stop).2.isolate []
    let after := m.after (Run.block Run.pump m.fuel [.wait ⟨1, 1⟩ (.number 100) none none])
    m.mode = .immediate ∧ m.Arises ∧ m.schedule.tasks[1]? = some (10, .stimulus .stop) ∧
      after.now = 0 ∧ after.schedule.tasks[1]? = some (10, .stimulus .stop) := by
  intro m after
  have harises : m.Arises :=
    ⟨{}, _, (Moment.Reaches.single (.stimulus (Machine.new {}) [] 10 .stop)).move
      (.interrupt _ [])⟩
  have hlive : m.schedule.tasks[1]? = some (10, .stimulus .stop) :=
    ((Machine.new {}).schedule.getElem?_plan 10 (.stimulus .stop) 1).trans (if_pos rfl)
  obtain ⟨-, -, hnow, -, ⟨acts, -, -, hkeeps⟩, -⟩ := (immediate_code_runs_to_completion m rfl m.fuel
    [.wait ⟨1, 1⟩ (.number 100) none none] (.number 0) default []).1 Run.pump
  refine ⟨rfl, harises, hlive, hnow, ?_⟩
  obtain hkept | ⟨label, htask, -⟩ := hkeeps harises _ _ _ hlive
  · exact hkept
  · cases htask

end ControlLogic
