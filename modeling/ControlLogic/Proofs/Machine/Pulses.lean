import ControlLogic.Proofs.Machine.Access
import ControlLogic.Proofs.Machine.Clock
import ControlLogic.Proofs.Machine.Isolation

/-!
Pulses. A pulse drives an output high and puts off driving it low. What is put off is the text of a
key, which is looked up again in the frames that there are at that time, so a variable of a function
that runs then can stand in the way of the output.
-/

set_option autoImplicit false
set_option relaxedAutoImplicit false

namespace ControlLogic

namespace Schedule

variable {τ : Type}

theorem Change.kept {deeds : List Deed} {s s' : Schedule τ} (h : Change s deeds s') {id due : Nat}
    {task : τ} (hid : id < s.nextId) (hlive : s'.tasks[id]? = some (due, task)) :
    ∃ due', s.tasks[id]? = some (due', task) := by
  cases h with
  | plan delay task' =>
    rw [getElem?_plan, if_neg (Nat.ne_of_gt hid)] at hlive
    exact ⟨due, hlive⟩
  | cancel k =>
    rw [getElem?_cancel] at hlive
    split at hlive
    · cases hlive
    · exact ⟨due, hlive⟩
  | retime k delay =>
    rw [getElem?_retime] at hlive
    split at hlive
    · obtain ⟨⟨due', task'⟩, hlive', heq⟩ := Option.map_eq_some_iff.mp hlive
      cases heq
      exact ⟨due', hlive'⟩
    · exact ⟨due, hlive⟩
  | popDue deadline =>
    obtain ⟨-, -, htasks, -⟩ | ⟨k, due', task', -, -, -, -, htasks, -⟩ := s.popDue_cases deadline
    · rw [htasks] at hlive
      exact ⟨due, hlive⟩
    · rw [htasks, Std.HashMap.getElem?_erase] at hlive
      split at hlive
      · cases hlive
      · exact ⟨due, hlive⟩
  | waitUntil deadline =>
    rw [waitUntil_tasks] at hlive
    exact ⟨due, hlive⟩
  | receive =>
    rw [receive_tasks] at hlive
    exact ⟨due, hlive⟩
  | clear => simp [Schedule.clear] at hlive
  | _ => exact ⟨due, hlive⟩

theorem Changes.nextId_le {deeds : List Deed} {s s' : Schedule τ} (h : Changes s deeds s') :
    s.nextId ≤ s'.nextId := by
  induction h with
  | none => exact Nat.le_refl _
  | more _ hchange ih => exact Nat.le_trans ih hchange.nextId_le

theorem Changes.kept {deeds : List Deed} {s s' : Schedule τ} (h : Changes s deeds s')
    {id due : Nat} {task : τ} (hid : id < s.nextId) (hlive : s'.tasks[id]? = some (due, task)) :
    ∃ due', s.tasks[id]? = some (due', task) := by
  induction h generalizing due with
  | none => exact ⟨due, hlive⟩
  | more hchanges hchange ih =>
    obtain ⟨due', hlive'⟩ := hchange.kept (Nat.lt_of_lt_of_le hid hchanges.nextId_le) hlive
    exact ih hlive'

end Schedule

/-! ### What names stand for while a program runs -/

/-- The same constants, signals and global variables are there. -/
structure Machine.KeepsNames (m m' : Machine) : Prop where
  constants : m'.constants = m.constants
  declared : m'.signals.declared = m.signals.declared
  globals : Frame.SameShape m.scope.globals m'.scope.globals

namespace Machine

private theorem keepsNames_of_eq {m m' : Machine} (hconstants : m'.constants = m.constants)
    (hsignals : m'.signals = m.signals) (hglobals : m'.scope.globals = m.scope.globals) :
    m.KeepsNames m' :=
  ⟨hconstants, congrArg _ hsignals, hglobals ▸ Frame.sameShape_refl _⟩

theorem KeepsNames.trans {a b c : Machine} (h : a.KeepsNames b) (h' : b.KeepsNames c) :
    a.KeepsNames c :=
  ⟨h'.constants.trans h.constants, h'.declared.trans h.declared, h.globals.trans h'.globals⟩

theorem keepsNames_writeTo {m : Machine} {key : SlotKey} {target : Target}
    (h : m.target key = .ok target) (v : Value) : m.KeepsNames (m.writeTo key v target) := by
  have hshape := sameShape_writeTo h v
  have hdeclared := (keepsInputs_writeTo h v).declared
  obtain ⟨scope, signals, indices, last, log, hwritten⟩ := m.writeTo_eq key v target
  rw [hwritten] at hshape hdeclared ⊢
  exact ⟨rfl, hdeclared, hshape.globals⟩

end Machine

namespace Run

open Machine (KeepsNames keepsNames_of_eq)

private theorem keepsNames_checkAbort : Relates KeepsNames checkAbort :=
  relates_checkAbort fun _ => keepsNames_of_eq rfl rfl rfl

private theorem keepsNames_scheduleWait (delay : Nat) (label : Option String) (body : List Stmt) :
    Relates KeepsNames (scheduleWait delay label body) := by
  have hlabel : Relates KeepsNames (waitLabel label) := by
    unfold waitLabel
    split
    · exact fun m => keepsNames_of_eq rfl rfl rfl
    · exact relates_modifyGet fun m => keepsNames_of_eq rfl rfl rfl
  refine keepsNames_checkAbort.bind .trans fun _ => ?_
  refine hlabel.bind .trans fun name => relates_inspect fun m => ?_
  split
  · exact relates_modify fun m => keepsNames_of_eq rfl rfl rfl
  · exact relates_modify fun m => keepsNames_of_eq rfl rfl rfl

private theorem Primitive.keepsNames {α : Type} {x : Run α} (h : Primitive x) :
    Relates KeepsNames x := by
  cases h with
  | tryWrite key v =>
    intro m
    obtain ⟨target, htarget, hafter⟩ | hafter := m.after_tryWrite key v
    · rw [hafter]
      exact Machine.keepsNames_writeTo htarget v
    · rw [hafter]
      exact keepsNames_of_eq rfl rfl rfl
  | tick =>
    intro m
    rw [m.after_tick]
    exact keepsNames_of_eq rfl rfl rfl
  | copyWhole frame parameter owner =>
    refine relates_modify fun m => ?_
    have hshape := m.sameShape_copyWhole frame parameter owner
    obtain ⟨scope, hcopied⟩ := m.copyWhole_eq frame parameter owner
    rw [hcopied] at hshape ⊢
    exact ⟨rfl, rfl, hshape.globals⟩
  | plan delay h =>
    exact keepsNames_checkAbort.bind .trans fun _ =>
      relates_modify fun m => keepsNames_of_eq rfl rfl rfl
  | scheduleWait delay label body => exact keepsNames_scheduleWait delay label body
  | cancelWait name =>
    refine relates_modify fun m => ?_
    split
    · exact keepsNames_of_eq rfl rfl rfl
    · exact keepsNames_of_eq rfl rfl rfl
  | retimeWait delay name =>
    refine relates_modify fun m => ?_
    split
    · exact keepsNames_of_eq rfl rfl rfl
    · exact keepsNames_of_eq rfl rfl rfl
  | withFiles f => exact relates_modifyGet fun m => keepsNames_of_eq rfl rfl rfl
  | withNetwork f => exact relates_modifyGet fun m => keepsNames_of_eq rfl rfl rfl
  | _ => exact relates_modify fun m => keepsNames_of_eq rfl rfl rfl

end Run

private theorem Step.keepsNames {s s' : Moment} {deeds : List Deed} (h : Step s deeds s') :
    s.machine.KeepsNames s'.machine ∨ s'.machine.schedule = s.machine.schedule.clear := by
  cases h with
  | primitive hx _ => exact .inl (hx.keepsNames _)
  | leave m k =>
    refine .inl (Machine.keepsNames_of_eq rfl rfl ?_)
    unfold Machine.leave Scope.pop
    dsimp only
    split <;> rfl
  | input m k v hs =>
    rename_i s
    have hdeclared : (m.keepInput s (s.coerce v)).signals.declared = m.signals.declared := by
      rw [m.signals_keepInput]
      rfl
    obtain ⟨signals, indices, last, hkept⟩ := m.keepInput_eq s (s.coerce v)
    rw [hkept] at hdeclared ⊢
    exact .inl ⟨rfl, hdeclared, Frame.sameShape_refl _⟩
  | received m k data name =>
    exact .inl ⟨rfl, rfl, Machine.sameShape_addReceived data _ name⟩
  | reset m k => exact .inr rfl
  | load m k text => exact .inr (m.schedule_load text)
  | _ => exact .inl (Machine.keepsNames_of_eq rfl rfl rfl)

private theorem Moment.Leads.keepsNames {s s' : Moment} (h : s.Leads s') {id due : Nat}
    {task : Task}
    (hid : id < s.machine.schedule.nextId)
    (hlive : s'.machine.schedule.tasks[id]? = some (due, task)) :
    s.machine.KeepsNames s'.machine ∧
      ∃ due', s.machine.schedule.tasks[id]? = some (due', task) := by
  obtain ⟨history, hcourse⟩ := h
  have hnumbers {s' : Moment} {history : List Deed} (h : Course s history s') :
      s.machine.schedule.nextId ≤ s'.machine.schedule.nextId := by
    induction h with
    | refl => exact Nat.le_refl _
    | step _ hstep ih => exact Nat.le_trans ih hstep.changes.nextId_le
  induction hcourse generalizing due with
  | refl => exact ⟨Machine.keepsNames_of_eq rfl rfl rfl, due, hlive⟩
  | step hbefore hstep ih =>
    obtain ⟨due', hlive'⟩ := hstep.changes.kept (Nat.lt_of_lt_of_le hid (hnumbers hbefore)) hlive
    obtain ⟨hnames, hplanned⟩ := ih hlive'
    refine ⟨?_, hplanned⟩
    rcases hstep.keepsNames with hkeeps | hcleared
    · exact hnames.trans hkeeps
    · rw [hcleared] at hlive
      simp [Schedule.clear] at hlive

/-! ### The end of a pulse -/

namespace Run

private theorem plan_ok {delay : Nat} {task : Task} {m m' : Machine}
    (h : plan delay task m = .ok () m') :
    m' = { m with schedule := (m.schedule.plan delay task).2 } := by
  obtain ⟨-, hleft⟩ | hplanned := plan_cases m delay task
  · cases hleft.symm.trans h
  · cases hplanned.symm.trans h
    rfl

private theorem pulse_ok {eval : Expr → Run Value} {args : List Expr} {m m' n before : Machine}
    {ticks : Int} {e : Expr} {key : SlotKey} (h : pulse eval args m = .ok () m')
    (hticks : argNumber eval args 0 m = .ok ticks n) (he : args[1]? = some e)
    (hkey : resolveKey eval e n = .ok key before) :
    ∃ written : Machine, writeKey key (.number 1) before = .ok () written ∧
      m' = { written with
        schedule := (written.schedule.plan (hundredths ticks) (.pulseEnd key.render)).2 } := by
  unfold pulse at h
  rw [bind_ok hticks, he] at h
  dsimp only at h
  rw [bind_ok hkey] at h
  obtain ⟨_, written, hwritten, h⟩ := bind_eq_ok h
  exact ⟨written, hwritten, plan_ok h⟩

end Run

namespace Machine

variable {m : Machine} {key : SlotKey}

private theorem runTask_pulseEnd (hnamed : key.IsNamed)
    (hindices : ∀ i ∈ key.indices, Number.InWord i)
    {target : Target} (h : m.target key = .ok target) :
    m.runTask (.pulseEnd key.render) = m.writeTo key .zero target := by
  have hkey : pulseKey key.render = key := by
    unfold pulseKey
    rw [hnamed.parse?_render hindices, Option.getD_some]
  change m.background (Run.writeKey (pulseKey key.render) .zero) = _
  unfold background
  rw [hkey, Run.writeKey_of_target h]

/-- A signal that a key meant is what it means as long as the program is there and no frame of a
call has the key. -/
theorem KeepsNames.target {m' : Machine} (h : m.KeepsNames m') {s : Signal}
    (hs : m.target key = .ok (.signal s)) (hframes : Scope.findIn key m'.scope.frames = none) :
    m'.target key = .ok (.signal s) := by
  obtain ⟨hscope, hconstant, hsignal⟩ := denoted?_of_target hs
  have hglobals : m'.scope.globals[key]? = none := by
    have hbefore : m.scope.globals[key]? = none := (Option.or_eq_none_iff.mp hscope).2
    rw [← Option.not_isSome_iff_eq_none, h.globals.isSome_getElem? key, hbefore]
    exact Bool.false_ne_true
  have hscope' : m'.scope.get? key = none := Option.or_eq_none_iff.mpr ⟨hframes, hglobals⟩
  have hconstant' : m'.constant? key = none := by
    unfold constant?
    rw [h.constants]
    exact hconstant
  have hsignal' : m'.signals.ofKey? key = some s := by
    unfold SignalTable.ofKey?
    rw [h.declared]
    exact hsignal
  rw [target_of_signal hscope' hconstant' hsignal', not_isHeld_of_target hs]
  rfl

end Machine

/-- What the end of a pulse on a signal does to the machine it falls due on: it drives the signal
low and tells the host, if no frame of a call in progress has the key; otherwise it clears the slot
of the first frame that has it, and the signal stays as it is. -/
structure Machine.PulseEnds (m : Machine) (key : SlotKey) (s : Signal) (m' : Machine) : Prop where
  driven (h : Scope.findIn key m.scope.frames = none) :
    m'.signals = m.signals.store s (.number 0) ∧
      m'.log = m.log.push (.output .digital s.name (.number 0)) ∧ m'.scope = m.scope
  hidden (slot : Slot) (h : Scope.findIn key m.scope.frames = some slot) :
    m'.scope = m.scope.set key (slot.write .zero) ∧ m'.signals = m.signals ∧ m'.log = m.log

private theorem Signal.coerce_digital {s : Signal} (h : s.type = .digitalOutput) (v : Value) :
    s.coerce v = .ofBool (v.toNumber != 0) := by
  unfold coerce
  rw [h]
  rfl

private theorem Machine.pulseEnds_runTask {m m' : Machine} (hnames : m.KeepsNames m')
    {key : SlotKey}
    (hnamed : key.IsNamed) (hindices : ∀ i ∈ key.indices, Number.InWord i) {s : Signal}
    (hs : m.target key = .ok (.signal s)) (htype : s.type = .digitalOutput) :
    m'.PulseEnds key s (m'.runTask (.pulseEnd key.render)) where
  driven hframes := by
    rw [runTask_pulseEnd hnamed hindices (hnames.target hs hframes)]
    obtain ⟨indices, last, hended⟩ := m'.writeSignal_eq key s .zero
    simp only [writeTo]
    rw [hended, Signal.coerce_digital htype, htype]
    exact ⟨rfl, rfl, rfl⟩
  hidden slot hslot := by
    have hget : m'.scope.get? key = some slot := by
      unfold Scope.get?
      rw [hslot, Option.some_or]
    rw [runTask_pulseEnd hnamed hindices (target_of_get? hget)]
    obtain ⟨indices, last, hended⟩ := m'.writeSlot_eq key slot .zero
    simp only [writeTo]
    rw [hended]
    exact ⟨rfl, rfl, rfl⟩

/--
A pulse that drives a digital output: the output is high and the end of the pulse is planned. When
it falls due, at whatever moment, it drives the same output low just if no function that runs then
has a variable of that name.
-/
theorem pulse_ends_unless_name_is_hidden {eval : Expr → Run Value} {args : List Expr}
    {m m' n before : Machine} {ticks : Int} {e : Expr} {key : SlotKey} {s : Signal}
    (h : Run.pulse eval args m = .ok () m') (hticks : Run.argNumber eval args 0 m = .ok ticks n)
    (he : args[1]? = some e) (hkey : Run.resolveKey eval e n = .ok key before)
    (hs : before.target key = .ok (.signal s)) (htype : s.type = .digitalOutput)
    (hnamed : key.IsNamed) (hindices : ∀ i ∈ key.indices, Number.InWord i) :
    let id := before.schedule.nextId
    m'.signals.valueOf? s = some (.number 1) ∧
      m'.schedule.tasks[id]? =
        some (before.now + Run.hundredths ticks, .pulseEnd key.render) ∧
      ∀ (k : List Around) (later : Moment) (deadline : Nat) (task : Task),
        Moment.Leads ⟨m', k⟩ later → (later.machine.popDue deadline).1 = some (id, task) →
          (later.machine.popDue deadline).2.PulseEnds key s
            ((later.machine.popDue deadline).2.runTask task) := by
  intro id
  obtain ⟨written, hwritten, rfl⟩ := Run.pulse_ok h hticks he hkey
  rw [Run.writeKey_of_target hs] at hwritten
  cases hwritten
  have hnames := Machine.keepsNames_writeTo hs (.number 1)
  obtain ⟨indices, last, hwritten⟩ := before.writeSignal_eq key s (.number 1)
  simp only [Machine.writeTo] at hnames ⊢
  rw [hwritten] at hnames ⊢
  refine ⟨?_, ?_, fun k later deadline task hleads htaken => ?_⟩
  · rw [Signal.coerce_digital htype]
    exact SignalTable.valueOf?_store_self _ _ _
  · exact (Schedule.getElem?_plan _ _ _ _).trans (if_pos rfl)
  · obtain ⟨due, hlive, -⟩ := Machine.popDue_some htaken
    obtain ⟨⟨hconstants, hdeclared, hglobals⟩, due', hplanned⟩ :=
      hleads.keepsNames (Nat.lt_succ_self _) hlive
    have htask : task = .pulseEnd key.render := by
      rw [Schedule.getElem?_plan, if_pos rfl] at hplanned
      cases hplanned
      rfl
    have hkept : before.KeepsNames (later.machine.popDue deadline).2 :=
      hnames.trans ⟨hconstants, hdeclared, hglobals⟩
    rw [htask]
    exact Machine.pulseEnds_runTask hkept hnamed hindices hs htype

/-! ### A pulse on a lamp -/

namespace Machine

def lamp : Signal := ⟨.digitalOutput, "lamp", none⟩

def lampProgram : Program :=
  { signals := [⟨.digitalOutput, [⟨"lamp", none, none⟩], .start⟩] }

def lampMachine : Machine :=
  (new {}).install lampProgram

def lampArgs : List Expr :=
  [.number 0, .name "lamp"]

/-- The machine when the arguments have been evaluated, which has taken a step. -/
def lampReady : Machine :=
  { lampMachine with steps := 1 }

private theorem upper_lamp : Text.upper "lamp" = "LAMP" := by
  rw [← String.toList_inj, Text.toList_upper]
  rfl

private theorem lampMachine_eq :
    lampMachine = (systemConstants lampProgram).foldl (fun m c => m.addConstant c.1 c.2)
      { new {} with program := lampProgram, signals := .declare {} .digitalOutput "lamp" none } :=
  rfl

private theorem getElem?_addConstants {name : String} {constants : List (String × Value)}
    (h : ∀ c ∈ constants, Text.upper c.1 ≠ name) (m : Machine) :
    (constants.foldl (fun m c => m.addConstant c.1 c.2) m).constants[name]? =
      m.constants[name]? := by
  induction constants generalizing m with
  | nil => rfl
  | cons c rest ih =>
    obtain ⟨hc, hrest⟩ := List.forall_mem_cons.mp h
    have hne : ¬ (Text.upper c.1 == name) = true := fun heq => hc (beq_iff_eq.mp heq)
    rw [List.foldl_cons, ih hrest]
    exact Std.HashMap.getElem?_insert.trans (if_neg hne)

private theorem target_lamp : lampReady.target (.plain "LAMP") = .ok (.signal lamp) := by
  have hscope : lampReady.scope.get? (.plain "LAMP") = none := Scope.get?_empty _
  have hconstant : lampReady.constant? (.plain "LAMP") = none := by
    have hnames : ∀ c ∈ systemConstants lampProgram, Text.upper c.1 ≠ "LAMP" := by
      have hlists : ∀ c ∈ systemConstants lampProgram,
          c.1.toList.map Char.toUpper ≠ "LAMP".toList := by
        decide
      intro c hc heq
      rw [← String.toList_inj, Text.toList_upper] at heq
      exact hlists c hc heq
    have hempty : ({} : Std.HashMap String Value)["LAMP"]? = none := by simp
    change lampMachine.constants["LAMP"]? = none
    rw [lampMachine_eq, getElem?_addConstants hnames]
    exact hempty
  have hsignal : lampReady.signals.ofKey? (.plain "LAMP") = some lamp := by
    change (({} : Std.HashMap String Signal).insert (Text.upper "lamp") lamp)["LAMP"]? = _
    rw [upper_lamp, Std.HashMap.getElem?_insert_self]
  rw [target_of_signal hscope hconstant hsignal, if_neg (by decide)]

private theorem argNumber_lamp :
    Run.argNumber (Run.eval Run.noPump 1) lampArgs 0 lampMachine = .ok 0 lampReady := by
  rfl

private theorem resolveKey_lamp :
    Run.resolveKey (Run.eval Run.noPump 1) (.name "lamp") lampReady =
      .ok (.plain "LAMP") lampReady := by
  rw [← upper_lamp]
  rfl

def lampPulsed : Machine :=
  let written := lampReady.writeTo (.plain "LAMP") (.number 1) (.signal lamp)
  { written with schedule := (written.schedule.plan 0 (.pulseEnd "LAMP")).2 }

private theorem pulse_lamp :
    Run.pulse (Run.eval Run.noPump 1) lampArgs lampMachine = .ok () lampPulsed := by
  unfold Run.pulse
  rw [Run.bind_ok argNumber_lamp]
  change (Run.resolveKey _ (.name "lamp") >>= _) lampReady = _
  rw [Run.bind_ok resolveKey_lamp, Run.bind_ok (Run.writeKey_of_target target_lamp (.number 1))]
  obtain ⟨habort, -⟩ | hplanned :=
    Run.plan_cases (lampReady.writeTo (.plain "LAMP") (.number 1) (.signal lamp))
      (Run.hundredths 0) (.pulseEnd (SlotKey.plain "LAMP").render)
  · cases habort
  · exact hplanned

private theorem schedule_lampReady : lampReady.schedule = {} :=
  rfl

private theorem schedule_lampPulsed :
    lampPulsed.schedule = (({} : Schedule Task).plan 0 (.pulseEnd "LAMP")).2 := by
  obtain ⟨indices, last, hwritten⟩ := lampReady.writeSignal_eq (.plain "LAMP") lamp (.number 1)
  have hsame : (lampReady.writeTo (.plain "LAMP") (.number 1) (.signal lamp)).schedule = {} := by
    rw [writeTo, hwritten]
    exact schedule_lampReady
  unfold lampPulsed
  dsimp only
  rw [hsame]

private theorem popDue_lamp {m : Machine} (h : m.schedule = lampPulsed.schedule) :
    (m.popDue 0).1 = some (lampReady.schedule.nextId, .pulseEnd "LAMP") := by
  have hplanned := ({} : Schedule Task).getElem?_plan 0 (.pulseEnd "LAMP")
  change (m.schedule.popDue 0).1 = _
  rw [h, schedule_lampPulsed, schedule_lampReady]
  refine Schedule.popDue_of_least ((hplanned _).trans (if_pos rfl)) (Nat.le_refl 0) ?_
  intro id due task hlive
  rw [hplanned] at hlive
  split at hlive
  next hid =>
    cases hlive
    exact .inr ⟨rfl, Nat.le_of_eq hid⟩
  next => simp at hlive

/-- Where no function runs, the lamp is lit and goes out. -/
theorem lamp_goes_out :
    Run.pulse (Run.eval Run.noPump 1) lampArgs lampMachine = .ok () lampPulsed ∧
      lampPulsed.signals.valueOf? lamp = some (.number 1) ∧
      ((lampPulsed.popDue 0).2.runTask (.pulseEnd "LAMP")).signals.valueOf? lamp =
        some (.number 0) := by
  obtain ⟨hlit, -, hends⟩ := pulse_ends_unless_name_is_hidden pulse_lamp argNumber_lamp rfl
    resolveKey_lamp target_lamp rfl (by decide) (by simp [SlotKey.indices])
  have hout := (hends [] ⟨lampPulsed, []⟩ 0 _ (.refl _) (popDue_lamp rfl)).driven rfl
  refine ⟨pulse_lamp, hlit, ?_⟩
  rw [hout.1]
  exact SignalTable.valueOf?_store_self _ _ _

/-- A call of a function that has a variable of the name of the lamp. -/
def lampHidden : Moment :=
  ⟨lampPulsed.enter (({} : Binding).addSlot "LAMP" (.integer .unsigned16) .zero).frame, []⟩

private theorem leads_lampHidden : Moment.Leads ⟨lampPulsed, []⟩ lampHidden :=
  ((Moment.Leads.single (.beginBinding _ [])).step (.bindSlot _ [] {} "LAMP" _ _)).step
    (.enter _ [] _)

/-- The end of a pulse does not always drive low the output that the pulse drove high. -/
theorem pulse_leaves_lamp_lit :
    ¬ ∀ {eval : Expr → Run Value} {args : List Expr} {m m' n before : Machine} {ticks : Int}
        {e : Expr} {key : SlotKey} {s : Signal} (later : Moment) (deadline : Nat) (task : Task),
      Run.pulse eval args m = .ok () m' → Run.argNumber eval args 0 m = .ok ticks n →
        args[1]? = some e → Run.resolveKey eval e n = .ok key before →
          before.target key = .ok (.signal s) → s.type = .digitalOutput → key.IsNamed →
            Moment.Leads ⟨m', []⟩ later →
              (later.machine.popDue deadline).1 = some (before.schedule.nextId, task) →
                ((later.machine.popDue deadline).2.runTask task).signals.valueOf? s =
                  some (.number 0) := by
  intro hclaim
  have hdark := hclaim lampHidden 0 _ pulse_lamp argNumber_lamp rfl resolveKey_lamp target_lamp rfl
    (by decide) leads_lampHidden (popDue_lamp rfl)
  have hnames : lampReady.KeepsNames (lampHidden.machine.popDue 0).2 :=
    (keepsNames_writeTo target_lamp (.number 1)).trans (keepsNames_of_eq rfl rfl rfl)
  have hends := pulseEnds_runTask hnames (by decide) (by simp [SlotKey.indices]) target_lamp rfl
  have hslot : Scope.findIn (.plain "LAMP") (lampHidden.machine.popDue 0).2.scope.frames =
      some ⟨.zero, .integer .unsigned16⟩ := by
    have hframe : (({} : Binding).addSlot "LAMP" (.integer .unsigned16) .zero).frame[
        SlotKey.plain "LAMP"]? = some ⟨.zero, .integer .unsigned16⟩ :=
      Std.HashMap.getElem?_insert_self
    change Scope.findIn _ (_ :: []) = _
    rw [Scope.findIn_cons, hframe]
    rfl
  have hlit : (lampHidden.machine.popDue 0).2.signals.valueOf? lamp = some (.number 1) := by
    change (lampReady.writeSignal (.plain "LAMP") lamp (.number 1)).signals.valueOf? lamp = _
    rw [signals_writeSignal]
    exact SignalTable.valueOf?_store_self _ _ _
  have hsame := (hends.hidden _ hslot).2.1
  simp only [SlotKey.render] at hsame
  rw [hsame, hlit] at hdark
  cases hdark

end Machine

end ControlLogic
