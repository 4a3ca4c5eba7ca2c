import ControlLogic.Proofs.Machine.Inputs
import ControlLogic.Proofs.Machine.Trace
import ControlLogic.Proofs.Program.UnitReading

/-!
Code that renews itself: a function that puts off a call of itself for no time. Each call begins on
the frames of the one that has put it off, adds one of its own, and puts off the next. The bounds on
passing time and on frames are measured against it.
-/

set_option autoImplicit false
set_option relaxedAutoImplicit false

namespace ControlLogic

/-! ### Statements one by one -/

namespace Run

theorem tick_immediate {m : Machine} (hmode : m.mode = .immediate)
    (h : m.steps < m.config.stepLimit) : tick m = .ok () { m with steps := m.steps + 1 } := by
  have habort : ({ m with steps := m.steps + 1 } : Machine).mustAbort = false :=
    Machine.mustAbort_immediate hmode
  unfold tick
  simp only [habort]
  rw [if_neg (Nat.not_lt.mpr h)]
  rfl

theorem locatedAt_ok {α : Type} {m m' : Machine} {x : Run α} {a : α} (p : Position)
    (h : x m = .ok a m') : locatedAt p x m = .ok a m' := by
  unfold locatedAt
  rw [h]

theorem eval_number {m : Machine} (hmode : m.mode = .immediate)
    (h : m.steps < m.config.stepLimit) (pump : Nat → Run Unit) (fuel : Nat) (n : Int) :
    eval pump (fuel + 1) (.number n) m = .ok (.number n) { m with steps := m.steps + 1 } := by
  unfold eval
  rw [bind_ok (tick_immediate hmode h)]
  rfl

theorem scheduleWait_free {m : Machine} (hmode : m.mode = .immediate) {label name : String}
    (hname : Text.upper label = name) (hfree : m.waits.get? name = none) (delay : Nat)
    (body : List Stmt) :
    scheduleWait delay (some label) body m = .ok () (m.arm delay name body) := by
  have hlabel : waitLabel (some label) m = .ok name m := by
    rw [← hname]
    rfl
  unfold scheduleWait
  rw [bind_ok (checkAbort_immediate hmode), bind_ok hlabel, get_bind, hfree]
  rfl

private theorem exec_wait {m : Machine} (hmode : m.mode = .immediate)
    (hsteps : m.steps + 2 ≤ m.config.stepLimit) {label name : String}
    (hname : Text.upper label = name) (hfree : m.waits.get? name = none) (pump : Nat → Run Unit)
    (fuel : Nat) (p : Position) (n : Int) (body : List Stmt) :
    exec pump (fuel + 2) (.wait p (.number n) (some label) (some body)) m =
      .ok .normal (({ m with steps := m.steps + 2 } : Machine).arm (hundredths n) name body) := by
  unfold exec
  rw [bind_ok (tick_immediate hmode (by omega))]
  apply locatedAt_ok
  change (eval pump (fuel + 1) (.number n) >>= fun v =>
    scheduleWait (hundredths v.toNumber) (some label) body >>= fun _ => pure Flow.normal) _ = _
  rw [bind_ok (eval_number (m := { m with steps := m.steps + 1 }) hmode hsteps pump fuel n),
    bind_ok (scheduleWait_free (m := { m with steps := m.steps + 2 }) hmode hname hfree _ body)]
  rfl

private theorem exec_call {m m' : Machine} (hmode : m.mode = .immediate)
    (hsteps : m.steps + 2 ≤ m.config.stepLimit) (hdepth : m.depth < m.config.maxCallDepth)
    {name : String} {f : FunctionDef} {index : Nat}
    (hindex : m.functions.get? (Text.upper name) = some index)
    (hf : m.program.functions[index]? = some f) (hparams : f.params = [])
    (hlocals : f.locals = []) {pump : Nat → Run Unit} {fuel : Nat}
    {flow : Flow} (hbody : block pump fuel f.body
      (({ m with steps := m.steps + 2 } : Machine).enter {}) = .ok flow m') (p : Position) :
    exec pump (fuel + 2) (.call p (.call name [])) m = .ok .normal m'.leave := by
  have happly : applyFunction (eval pump fuel) (block pump fuel) f []
      { m with steps := m.steps + 2 } = .ok (f.result flow) m'.leave := by
    have hlocal : localFrame f.locals {} { m with steps := m.steps + 2 } =
        .ok {} { m with steps := m.steps + 2 } := by
      rw [hlocals]
      rfl
    have hframe : inFrame {} (block pump fuel f.body) { m with steps := m.steps + 2 } =
        .ok (flow, m'.scope.pop.1.getD {}) m'.leave := by
      unfold inFrame
      rw [hbody]
    unfold applyFunction
    rw [hparams]
    change (localFrame f.locals {} >>= _) _ = _
    rw [bind_ok hlocal, bind_ok hframe]
    rfl
  have hcall : eval pump (fuel + 1) (.call name []) { m with steps := m.steps + 1 } =
      .ok (f.result flow) m'.leave := by
    unfold eval
    rw [bind_ok (tick_immediate (m := { m with steps := m.steps + 1 }) hmode hsteps)]
    unfold expression call
    dsimp only
    rw [get_bind]
    dsimp only
    rw [hindex]
    dsimp only
    unfold callAt
    rw [get_bind]
    dsimp only
    rw [hf]
    dsimp only
    unfold callFunction
    rw [get_bind, if_neg (Nat.not_le.mpr hdepth)]
    exact happly
  unfold exec
  rw [bind_ok (tick_immediate hmode (by omega))]
  apply locatedAt_ok
  change (eval pump (fuel + 1) (.call name []) >>= fun _ => pure Flow.normal) _ = _
  rw [bind_ok hcall]
  rfl

end Run

/-! ### The function that puts off a call of itself -/

theorem upper_renewal : Text.upper "X" = "X" ∧ Text.upper "F" = "F" := by
  decide +kernel

def callsItself (p : Position) : List Stmt :=
  [.call p (.call "F" [])]

def putsOff (p q : Position) : List Stmt :=
  [.wait p (.number 0) (some "X") (some (callsItself q))]

namespace Machine

/-- A function that puts off a call of itself for no time, on a machine that can run it. -/
structure Renews (m : Machine) (q : Position) : Prop where
  function : ∃ f p index, m.functions.get? "F" = some index ∧
    m.program.functions[index]? = some f ∧ f.params = [] ∧ f.locals = [] ∧ f.body = putsOff p q
  steps : 4 ≤ m.config.stepLimit
  depth : 0 < m.config.maxCallDepth

/-- The machine once a call of the function that began on some frames has put off the next. -/
def renewed (m : Machine) (q : Position) (frames : List Frame) : Machine :=
  { m with
    schedule := (m.schedule.plan 0 (.waitBody "X")).2
    waits := m.waits.insert "X" ⟨m.schedule.nextId, callsItself q, {} :: frames⟩ }

/-- A call of the function is put off for now, with some frames, and nothing else is planned. -/
structure Renewing (m : Machine) (q : Position) (frames : List Frame) : Prop
    extends Renews m q where
  timer : ∃ timer, m.waits.get? "X" = some ⟨timer, callsItself q, frames⟩ ∧
    ∀ id : Nat, m.schedule.tasks[id]? = if timer = id then some (m.now, .waitBody "X") else none
  inbox : m.schedule.inbox = []
  mode : m.mode = .immediate

namespace Renews

variable {m : Machine} {q : Position}

theorem isolated (h : m.Renews q) (hfree : m.waits.get? "X" = none) (frames : List Frame)
    (p : Position) :
    Run.isolated frames (Run.immediateBlock (callsItself p)) m =
      .ok .normal (m.renewed q frames) := by
  obtain ⟨f, p', index, hindex, hf, hparams, hlocals, hbody⟩ := h.function
  have hlimit := h.steps
  obtain ⟨hupperX, hupperF⟩ := upper_renewal
  let inner := ({ m.isolate frames with steps := 2 } : Machine).enter {}
  have hwait := Run.exec_wait (m := inner) rfl (show 2 + 2 ≤ m.config.stepLimit by omega) hupperX
    hfree Run.noPump (m.config.stepLimit - 2) p' 0 (callsItself q)
  have hblock : Run.block Run.noPump (m.config.stepLimit - 2 + 2) f.body inner =
      .ok .normal (({ inner with steps := 4 } : Machine).arm 0 "X" (callsItself q)) := by
    rw [hbody]
    unfold Run.block putsOff Run.sequence
    rw [Run.bind_ok hwait]
    rfl
  have hfound : (m.isolate frames).functions.get? (Text.upper "F") = some index := by
    rw [hupperF]
    exact hindex
  have hcall := Run.exec_call (m := m.isolate frames) rfl
    (show 0 + 2 ≤ m.config.stepLimit by omega) h.depth hfound hf hparams hlocals hblock p
  have hfuel : (m.isolate frames).fuel = m.config.stepLimit - 2 + 2 + 2 := by
    change m.config.stepLimit + 2 = _
    omega
  have hrun : Run.immediateBlock (callsItself p) (m.isolate frames) =
      .ok .normal (({ inner with steps := 4 } : Machine).arm 0 "X" (callsItself q)).leave := by
    unfold Run.immediateBlock Run.block callsItself Run.sequence
    rw [hfuel, Run.bind_ok hcall]
    rfl
  unfold Run.isolated
  rw [hrun]
  rfl

theorem runHandler (h : m.Renews q) (hfree : m.waits.get? "X" = none) {handler : Handler}
    {p : Position} (hlocals : handler.locals = []) (hbody : handler.body = callsItself p) :
    m.runHandler handler = m.renewed q [{}] := by
  have hhandler : Run.isolated [] (Run.handlerBody handler) m =
      Run.isolated [{}] (Run.immediateBlock (callsItself p)) m := by
    unfold Run.isolated Run.handlerBody
    rw [hlocals, hbody]
    rfl
  unfold Machine.runHandler background
  rw [hhandler, h.isolated hfree]

theorem runWait (h : m.Renews q) {w : PendingWait} (hw : m.waits.get? "X" = some w)
    (hbody : w.body = callsItself q) :
    m.runWait "X" = ({ m with waits := m.waits.erase "X" } : Machine).renewed q w.frames := by
  have hfree : (m.waits.erase "X").get? "X" = none := by
    simp [Std.HashMap.get?_eq_getElem?]
  have hrun := isolated (m := { m with waits := m.waits.erase "X" })
    ⟨h.function, h.steps, h.depth⟩ hfree w.frames q
  unfold Machine.runWait background
  rw [hw]
  dsimp only
  rw [hbody, hrun]

private theorem renewing (h : m.Renews q) (hnone : ∀ id : Nat, m.schedule.tasks[id]? = none)
    (hinbox : m.schedule.inbox = []) (hmode : m.mode = .immediate) (frames : List Frame) :
    (m.renewed q frames).Renewing q ({} :: frames) := by
  refine ⟨⟨h.function, h.steps, h.depth⟩, ⟨m.schedule.nextId, ?_, fun id => ?_⟩, hinbox, hmode⟩
  · simp [renewed, Std.HashMap.get?_eq_getElem?]
  · refine (m.schedule.getElem?_plan _ _ id).trans ?_
    rw [hnone]
    rfl

end Renews

theorem Renewing.pumpRound {m : Machine} {q : Position} {frames : List Frame} {deadline : Nat}
    (h : m.Renewing q frames) (hdeadline : m.now ≤ deadline) :
    ∃ m', Run.pumpRound deadline m = .ok none m' ∧ m'.now = m.now ∧
      m'.Renewing q ({} :: frames) := by
  obtain ⟨timer, hwait, htasks⟩ := h.timer
  have hlive : m.schedule.tasks[timer]? = some (m.now, .waitBody "X") :=
    (htasks timer).trans (if_pos rfl)
  obtain ⟨-, -, -, -, hlater⟩ | ⟨id, due, task, hsome, hlive', -, hnow, hrest, hinbox, -⟩ :=
    m.schedule.popDue_cases deadline
  · exact absurd (hlater hlive) (Nat.not_lt.mpr hdeadline)
  rw [htasks] at hlive'
  split at hlive'
  next hid =>
    cases hlive'
    subst hid
    let taken := (m.popDue deadline).2
    have hrenews : taken.Renews q := ⟨h.function, h.steps, h.depth⟩
    have hbody := hrenews.runWait hwait rfl
    have hrun : taken.runTask (.waitBody "X") =
        ({ taken with waits := m.waits.erase "X" } : Machine).renewed q frames := hbody
    have hnone (id : Nat) : taken.schedule.tasks[id]? = none := by
      change (m.schedule.popDue deadline).2.tasks[id]? = none
      rw [hrest, Std.HashMap.getElem?_erase, htasks]
      simp
    have hnext := Renews.renewing (m := { taken with waits := m.waits.erase "X" })
      ⟨h.function, h.steps, h.depth⟩ hnone (hinbox.trans h.inbox) h.mode frames
    rw [← hrun] at hnext
    have htime : (taken.runTask (.waitBody "X")).now = m.now := by
      rw [hrun]
      exact hnow.trans (Nat.max_self _)
    refine ⟨_, ?_, htime, hnext⟩
    rw [Run.pumpRound_of_empty (mustAbort_immediate h.mode) h.inbox]
    exact Run.working_of_due hsome
  next => cases hlive'

end Machine

/-! ### A program with such a function -/

open Spelling Stmt

/-- The text of a program with a digital input on whose pushes the function is called. -/
def renewalText : String :=
  unwords (unitWords .last "a" (putsOff .start .start) (callsItself .start))

private theorem isName_of_mem : ∀ text ∈ ["a", "F", "X"], Expr.IsName text := by
  simp only [List.forall_mem_cons]
  refine ⟨?_, ?_, ?_, by simp⟩ <;>
    exact Expr.isName_letter (isWord_of_toList rfl (by decide) (by decide)) rfl

private theorem canonical_callsItself (q : Position) : ∀ s ∈ callsItself q, s.Canonical := by
  intro s hs
  obtain rfl := List.mem_singleton.mp hs
  exact .call (.call (isName_of_mem _ (by simp)) (by simp))

private theorem canonical_putsOff (p q : Position) : ∀ s ∈ putsOff p q, s.Canonical := by
  intro s hs
  obtain rfl := List.mem_singleton.mp hs
  refine .wait (.number (by decide) (by decide)) ?_ ?_
  · rintro _ ⟨rfl⟩
    exact isName_of_mem _ (by simp)
  · rintro _ ⟨rfl⟩
    exact canonical_callsItself q

private theorem putsOff_of_unplaced {body : List Stmt}
    (h : body.map unplaced = (putsOff .start .start).map unplaced) :
    ∃ p q, body = putsOff p q := by
  obtain ⟨s, rfl, hs⟩ := List.map_eq_singleton_iff.mp h
  cases s with
  | wait p duration label body =>
    cases body with
    | none => simp at hs
    | some body =>
      simp only [unplaced, wait.injEq, true_and, Option.some.injEq, unplacedList_eq_map] at hs
      obtain ⟨rfl, rfl, hbody⟩ := hs
      obtain ⟨q, rfl⟩ := call_of_unplaced hbody
      exact ⟨p, q, rfl⟩
  | branch _ _ _ other => cases other <;> simp at hs
  | _ => simp at hs

namespace Machine

private theorem foldl_tell {α : Type} (f : α → Event) (as : List α) (m : Machine) :
    ∃ log, as.foldl (fun m a => m.tell (f a)) m = { m with log := log } := by
  induction as generalizing m with
  | nil => exact ⟨m.log, rfl⟩
  | cons a as ih =>
    obtain ⟨log, hlog⟩ := ih (m.tell (f a))
    exact ⟨log, hlog⟩

private theorem load_eq_install (m : Machine) (text : String) :
    ∃ log, (m.load text).2 =
      ({ m.reset with log := log } : Machine).install
        (Program.parse text m.config.defines).program := by
  obtain ⟨log, hlog⟩ := foldl_tell (fun e => .error (.ofParseError e))
    (Program.parse text m.config.defines).errors m.reset
  obtain ⟨log', hlog'⟩ := foldl_tell (fun n => .notice (noticeText n))
    (Program.parse text m.config.defines).notices { m.reset with log := log }
  refine ⟨log', ?_⟩
  unfold load
  dsimp only at hlog' ⊢
  rw [show m.reset.config = m.config from rfl, hlog, hlog']
  rfl

def renewalInput : Signal := ⟨.digitalInput, "a", none⟩

theorem load_unit (m : Machine) {body action : List Stmt} (hbody : ∀ s ∈ body, s.Canonical)
    (haction : ∀ s ∈ action, s.Canonical) :
    let loaded := (m.load (unwords (unitWords .last "a" body action))).2
    ∃ f h, Parser.IsFunction body f ∧ Parser.IsHandler "a" action h ∧
      loaded.program.handlers = [h] ∧ loaded.functions = Std.HashMap.insert {} "F" 0 ∧
      loaded.program.functions = [f] ∧
      loaded.signals = SignalTable.declare {} .digitalInput "a" none ∧
      loaded.mode = .immediate := by
  obtain ⟨pos, f, h, hf, hh, hparse⟩ := Program.parse_unitWords .last (isName_of_mem "a" (by simp))
    hbody haction m.config.defines
  obtain ⟨log, hload⟩ := m.load_eq_install (unwords (unitWords .last "a" body action))
  have hname : Text.upper f.name = "F" := by
    rw [hf.1]
    exact upper_renewal.2
  intro loaded
  refine ⟨f, h, hf, hh, ?_, ?_, ?_, ?_, ?_⟩
  · rw [show loaded = _ from hload, hparse]
    rfl
  · rw [show loaded = _ from hload, hparse, ← hname]
    rfl
  · rw [show loaded = _ from hload, hparse]
    rfl
  · rw [show loaded = _ from hload, hparse]
    rfl
  · rw [show loaded = _ from hload, hparse]
    rfl

section

variable {m : Machine} (hsignals : m.signals = SignalTable.declare {} .digitalInput "a" none)
include hsignals

private theorem signal_unit : m.signals.signal? "a" = some renewalInput := by
  rw [hsignals]
  simp [SignalTable.signal?, SignalTable.declare, renewalInput, Std.HashMap.get?_eq_getElem?]

private theorem value_unit : m.signals.valueOf? renewalInput = some (.number 0) := by
  rw [hsignals]
  simp [SignalTable.valueOf?, SignalTable.declare, renewalInput, Std.HashMap.get?_eq_getElem?,
    Signal.initial, SignalType.kind, Value.zero]

private theorem edge_unit : m.edge? (.digital "a" 1) = some ⟨renewalInput, .number 0, .number 1⟩ :=
  edge?_digital (signal_unit hsignals) rfl (value_unit hsignals) (by decide)

theorem push_unit {handler : Handler} (hhandlers : m.program.handlers = [handler])
    (htrigger : handler.trigger = .push) (hsignal : handler.signal = "a") :
    ∃ signals indices last, m.setDigital "a" 1 =
      ({ m with signals := signals, lastModified := indices, lastAny := last } :
        Machine).runHandler handler := by
  have htyped : m.signals.Typed := by
    rw [hsignals]
    exact SignalTable.typed_empty.declare _ _ _
  have hanswering : m.answering ⟨renewalInput, .number 0, .number 1⟩ = [handler] := by
    have hanswers : (handler.trigger == Edge.trigger ⟨renewalInput, .number 0, .number 1⟩ &&
        handler.isFor renewalInput) = true := by
      rw [htrigger, Handler.isFor, hsignal]
      decide +kernel
    unfold answering
    rw [hhandlers]
    exact List.filter_cons_of_pos hanswers
  obtain ⟨signals, indices, last, hkept⟩ := m.keepInput_eq renewalInput (.number 1)
  have hpush := answers_edge htyped (.digital "a" 1)
  unfold Answers at hpush
  rw [edge_unit hsignals] at hpush
  dsimp only at hpush
  rw [hanswering, hkept] at hpush
  exact ⟨signals, indices, last, hpush⟩

end

/-- The program has just been loaded. -/
structure Loaded (m : Machine) (q : Position) : Prop where
  function : ∃ f p index, m.functions.get? "F" = some index ∧
    m.program.functions[index]? = some f ∧ f.params = [] ∧ f.locals = [] ∧ f.body = putsOff p q
  handler : ∃ h r, m.program.handlers = [h] ∧ h.trigger = .push ∧ h.signal = "a" ∧
    h.locals = [] ∧ h.body = callsItself r
  signals : m.signals = SignalTable.declare {} .digitalInput "a" none
  mode : m.mode = .immediate
  waits : m.waits = {}
  tasks (id : Nat) : m.schedule.tasks[id]? = none
  inbox : m.schedule.inbox = []

theorem loaded_load (m : Machine) : ∃ q, (m.load renewalText).2.Loaded q := by
  obtain ⟨f, h, ⟨-, -, hparams, hlocals, hbody⟩, ⟨htrigger, hsignal, hlocals', haction⟩,
    hhandlers, hplaces, hfunctions, hsignals, hmode⟩ :=
      m.load_unit (canonical_putsOff .start .start) (canonical_callsItself .start)
  obtain ⟨p, q, hbody⟩ := putsOff_of_unplaced hbody
  obtain ⟨r, haction⟩ := call_of_unplaced haction
  have hdeclares := m.declares_load renewalText
  refine ⟨q, ⟨⟨f, p, 0, ?_, ?_, hparams, hlocals, hbody⟩,
    ⟨h, r, hhandlers, htrigger, hsignal, hlocals', haction⟩, hsignals, hmode, hdeclares.waits,
    fun id => ?_, ?_⟩⟩
  · rw [show (m.load renewalText).2.functions = _ from hplaces]
    simp [Std.HashMap.get?_eq_getElem?]
  · rw [show (m.load renewalText).2.program.functions = _ from hfunctions]
    rfl
  · rw [hdeclares.schedule]
    exact Std.HashMap.getElem?_empty
  · rw [hdeclares.schedule]
    rfl

namespace Loaded

variable {m : Machine} {q : Position} (h : m.Loaded q)
include h

theorem signal : m.signals.signal? "a" = some renewalInput :=
  signal_unit h.signals

theorem edge : m.edge? (.digital "a" 1) = some ⟨renewalInput, .number 0, .number 1⟩ :=
  edge_unit h.signals

private theorem renewing (hsteps : 4 ≤ m.config.stepLimit) (hdepth : 0 < m.config.maxCallDepth) :
    (m.setDigital "a" 1).Renewing q [{}, {}] ∧ (m.setDigital "a" 1).now = m.now := by
  obtain ⟨handler, r, hhandlers, htrigger, hsignal, hlocals, hbody⟩ := h.handler
  obtain ⟨signals, indices, last, hpush⟩ := push_unit h.signals hhandlers htrigger hsignal
  have hrenews : ({ m with signals := signals, lastModified := indices, lastAny := last } :
      Machine).Renews q := ⟨h.function, hsteps, hdepth⟩
  have hfree : m.waits.get? "X" = none := by
    simp [h.waits, Std.HashMap.get?_eq_getElem?]
  rw [hpush, hrenews.runHandler hfree hlocals hbody]
  exact ⟨hrenews.renewing h.tasks h.inbox h.mode [{}], rfl⟩

end Loaded

theorem Loaded.push {m : Machine} {text : String} {q : Position} (h : (m.load text).2.Loaded q)
    (hsteps : 4 ≤ m.config.stepLimit) (hdepth : 0 < m.config.maxCallDepth) :
    (m.afterActions [.load text, .setDigital "a" 1]).Renewing q [{}, {}] ∧
      (m.afterActions [.load text, .setDigital "a" 1]).now = m.now := by
  have hdeclares := m.declares_load text
  have hconfig : (m.load text).2.config = m.config := hdeclares.config
  rw [← hconfig] at hsteps hdepth
  have hstill : (m.load text).2.now = m.reset.now := congrArg Schedule.now hdeclares.schedule
  obtain ⟨hrenewing, hnow⟩ := h.renewing hsteps hdepth
  simp only [afterActions, List.foldl_cons, List.foldl_nil, HostAction.run]
  exact ⟨hrenewing, hnow.trans hstill⟩

end Machine

end ControlLogic
