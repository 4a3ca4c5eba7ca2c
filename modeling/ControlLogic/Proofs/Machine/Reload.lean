import ControlLogic.Proofs.Machine.Heedless
import ControlLogic.Proofs.Machine.Hosting

/-!
Loading a program forgets. Whatever was done with a machine before, its program once loaded finds a
machine that is as good as new, and so does the host, whatever it does afterwards: the past shows
only in how far timers are numbered.
-/

set_option autoImplicit false
set_option relaxedAutoImplicit false

namespace ControlLogic

namespace Machine

section Loading

private theorem steady_addSocket (d : VariableDecl) : Steady (·.addSocket d) where
  withPast p s w wish m := by
    have hcreated : (m.withPast p s w wish).network.create (socketKind d.type).1
        (socketKind d.type).2 = _ := Network.counts_create _ _ p.network m.network
    unfold addSocket
    dsimp only
    rw [hcreated]
    rfl
  schedule _ := rfl
  waits _ := rfl
  abort _ := rfl
  mode _ := rfl

private theorem steady_addGlobal (structures : List StructureDef) (d : VariableDecl) :
    Steady (addGlobal structures · d) := by
  unfold addGlobal
  split
  · exact steady_addSocket d
  · constructor
    · intro p s w wish m
      have hscope : (m.withPast p s w wish).scope = m.scope := rfl
      dsimp only
      rw [hscope]
      cases Frame.declareVariable structures m.scope.globals d with
      | ok globals => rfl
      | error name => exact (steady_tell _).withPast p s w wish m
    all_goals
      intro m
      dsimp only
      cases Frame.declareVariable structures m.scope.globals d <;> rfl

private theorem steady_install (program : Program) : Steady (·.install program) := by
  have hinstalled : Steady fun m => { m with
      program := program
      functions := functionPlaces program.functions } :=
    ⟨fun _ _ _ _ _ => rfl, fun _ => rfl, fun _ => rfl, fun _ => rfl, fun _ => rfl⟩
  have hconstant (name : String) (v : Value) : Steady (·.addConstant name v) :=
    ⟨fun _ _ _ _ _ => rfl, fun _ => rfl, fun _ => rfl, fun _ => rfl, fun _ => rfl⟩
  have hsignals (type : SignalType) (entry : SignalName) : Steady (addSignals type · entry) :=
    ⟨fun _ _ _ _ _ => rfl, fun _ => rfl, fun _ => rfl, fun _ => rfl, fun _ => rfl⟩
  have hconstants : Steady fun m =>
      program.constants.foldl (fun m c => m.addConstant c.name c.value) m :=
    .foldl (fun c => hconstant c.name c.value) program.constants
  have hdeclared : Steady fun m =>
      program.signals.foldl (fun m d => d.names.foldl (addSignals d.type) m) m :=
    .foldl (fun d => .foldl (hsignals d.type) d.names) program.signals
  have hglobals : Steady fun m => program.globals.foldl (addGlobal program.structures) m :=
    .foldl (steady_addGlobal program.structures) program.globals
  have hsystem (constants : List (String × Value)) : Steady fun m =>
      constants.foldl (fun m c => m.addConstant c.1 c.2) m :=
    .foldl (fun c => hconstant c.1 c.2) constants
  have hall := (hsystem (systemConstants program)).comp
    (hglobals.comp (hdeclared.comp (hconstants.comp hinstalled)))
  exact hall

/-- The machine after a text was read: the host is told of what was refused and noticed, and the
program is taken over. -/
def takeOver (parsed : ParsedProgram) (m : Machine) : Machine :=
  let m := parsed.errors.foldl (fun m e => m.tell (.error (.ofParseError e))) m
  let m := parsed.notices.foldl (fun m n => m.tell (.notice (noticeText n))) m
  m.install parsed.program

private theorem steady_takeOver (parsed : ParsedProgram) : Steady (takeOver parsed) := by
  have herrors : Steady fun m =>
      parsed.errors.foldl (fun m e => m.tell (.error (.ofParseError e))) m :=
    .foldl (fun e => steady_tell (.error (.ofParseError e))) parsed.errors
  have hnotices : Steady fun m =>
      parsed.notices.foldl (fun m n => m.tell (.notice (noticeText n))) m :=
    .foldl (fun n => steady_tell (.notice (noticeText n))) parsed.notices
  have hall := (steady_install parsed.program).comp (hnotices.comp herrors)
  exact hall

private theorem load_eq (m : Machine) (text : String) :
    (m.load text).2 = m.reset.takeOver (Program.parse text m.config.defines) :=
  rfl

/-- A machine that has done nothing yet, with the settings, the devices on the network, the random
numbers to come and the time of another. -/
def blank (m : Machine) : Machine where
  config := m.config
  chance := m.chance
  schedule := .bare m.now 0 []
  network := { responders := m.network.responders }

def past (m : Machine) : Past :=
  ⟨m.schedule.nextId, m.log, m.files.changes, m.network.changes⟩

/-- A machine whose program was loaded is a blank one whose program was loaded, but for its past and
the wish to stop. -/
private theorem load_eq_withPast (m : Machine) (text : String) :
    (m.load text).2 = (m.blank.load text).2.withPast m.past m.schedule.clear {} m.abort := by
  have hreset : m.reset = m.blank.reset.withPast m.past m.schedule.clear {} m.abort := by
    unfold reset withPast
    rw [show m.past.log ++ m.blank.log = m.log from Array.append_empty]
    rfl
  rw [load_eq, load_eq, ← (steady_takeOver _).withPast, ← hreset]
  rfl

private theorem mirrors_load (m : Machine) (text : String) :
    Mirrors m.past false (m.blank.load text).2 (m.load text).2 := by
  have hsteady := steady_takeOver (Program.parse text m.config.defines)
  have hblank : (m.blank.load text).2 = m.blank.reset.takeOver _ := m.blank.load_eq text
  have hbeside : Beside m.past false m.schedule.clear {} m.abort m.blank.reset :=
    ⟨Schedule.raised_clear rfl rfl, .empty, nofun, fun _ => rfl⟩
  rw [m.load_eq_withPast, hblank]
  exact .mk (hbeside.of_eq (hsteady.schedule _) (hsteady.waits _) (hsteady.abort _)
    (hsteady.mode _))

theorem Mirrors.load {p : Past} {sure : Bool} {m₀ m : Machine} (h : Mirrors p sure m₀ m)
    (text : String) :
    (m.load text).1 = (m₀.load text).1 ∧ Mirrors p sure (m₀.load text).2 (m.load text).2 := by
  have hconfig := h.look (·.config) fun _ => rfl
  refine ⟨?_, ?_⟩
  · unfold Machine.load
    dsimp only [reset] at hconfig ⊢
    rw [hconfig]
  · rw [load_eq, load_eq, hconfig]
    exact (steady_takeOver _).heedless (heedless_reset h)

end Loading

end Machine

/-- What a host learns from what it does: nothing, what was loaded, how the entry function ended, or
the number of a timer. -/
inductive HostAnswer where
  | nothing
  | loaded (report : LoadReport)
  | ended (outcome : RunOutcome)
  | planned (timer : Nat)

def HostAnswer.rename (ρ : Nat → Nat) : HostAnswer → HostAnswer
  | planned timer => planned (ρ timer)
  | other => other

namespace HostAction

def answer (m : Machine) : HostAction → HostAnswer
  | load text => .loaded (m.load text).1
  | runMain => .ended m.runMain.1
  | scheduleStimulus delay stimulus => .planned (m.scheduleStimulus delay stimulus).1
  | _ => .nothing

/-- What the host does to files and sockets by itself does not depend on how often they have
changed; all else it can do is free of this. -/
def Counts : HostAction → Prop
  | changeFiles f => ∀ n fs, f (FileSystem.recount n fs) = (f fs).recount n
  | changeNetwork f => ∀ n net, f (Network.recount n net) = (f net).recount n
  | _ => True

open Machine (Mirrors)

variable {p : Past} {m₀ m : Machine}

private theorem mirrors {action : HostAction} (hcounts : action.Counts) (h : Mirrors p false m₀ m) :
    action.answer m = (action.answer m₀).rename (p.timers + ·) ∧
      Mirrors p false (action.run m₀) (action.run m) := by
  cases action with
  | load text =>
    obtain ⟨hreport, h'⟩ := h.load text
    exact ⟨congrArg HostAnswer.loaded hreport, h'⟩
  | reset => exact ⟨rfl, Machine.heedless_reset h⟩
  | runMain =>
    obtain ⟨houtcome, h'⟩ := h.runMain
    exact ⟨congrArg HostAnswer.ended houtcome, h'⟩
  | setDigital name n => exact ⟨rfl, Machine.heedless_setDigital name n h⟩
  | setAnalog name n => exact ⟨rfl, Machine.heedless_setAnalog name n h⟩
  | setSerial name text => exact ⟨rfl, Machine.heedless_setSerial name text h⟩
  | advance duration => exact ⟨rfl, Machine.heedless_advance duration h⟩
  | settle => exact ⟨rfl, Machine.heedless_settleRounds Machine.settleLimit h⟩
  | scheduleStimulus delay stimulus =>
    obtain ⟨htimer, h'⟩ := h.scheduleStimulus delay stimulus
    exact ⟨congrArg HostAnswer.planned htimer, h'⟩
  | send stimulus => exact ⟨rfl, Machine.heedless_send stimulus h⟩
  | requestStop => exact ⟨rfl, Machine.heedless_send .stop (Machine.heedless_stop h)⟩
  | changeFiles f =>
    cases h with
    | @mk s w wish h =>
      have hfiles : f (m₀.withPast p s w wish).files = _ := hcounts p.files m₀.files
      dsimp only [run]
      rw [hfiles]
      exact ⟨rfl, .mk ⟨h.schedule, h.waits, h.abort, h.mode⟩⟩
  | changeNetwork f =>
    cases h with
    | @mk s w wish h =>
      have hnetwork : f (m₀.withPast p s w wish).network = _ := hcounts p.network m₀.network
      dsimp only [run]
      rw [hnetwork]
      exact ⟨rfl, .mk ⟨h.schedule, h.waits, h.abort, h.mode⟩⟩

end HostAction

namespace Machine

def answers (m : Machine) : List HostAction → List HostAnswer
  | [] => []
  | action :: rest => action.answer m :: answers (action.run m) rest

theorem Mirrors.actions {p : Past} {m₀ m : Machine} (h : Mirrors p false m₀ m)
    {actions : List HostAction} (hcounts : ∀ action ∈ actions, action.Counts) :
    m.answers actions = (m₀.answers actions).map (.rename (p.timers + ·)) ∧
      Mirrors p false (m₀.afterActions actions) (m.afterActions actions) := by
  induction actions generalizing m₀ m with
  | nil => exact ⟨rfl, h⟩
  | cons action rest ih =>
    obtain ⟨hfirst, h'⟩ := HostAction.mirrors (hcounts action List.mem_cons_self) h
    obtain ⟨hrest, hend⟩ := ih h' fun a ha => hcounts a (List.mem_cons_of_mem _ ha)
    refine ⟨?_, hend⟩
    rw [answers, answers, List.map_cons, hfirst, hrest]

/-- A machine without what loading keeps of its past: the next number of a timer, the wish to stop,
and what those who watch it were told. -/
def pastless (m : Machine) : Machine :=
  { m with
    schedule := { m.schedule with nextId := 0 }
    files := { m.files with changes := 0 }
    network := { m.network with changes := 0 }
    abort := false
    log := #[] }

private theorem pastless_load (m : Machine) (text : String) :
    (m.load text).2.pastless = (m.blank.load text).2.pastless := by
  have hsteady := steady_takeOver (Program.parse text m.config.defines)
  have hblank : (m.blank.load text).2 = m.blank.reset.takeOver _ := m.blank.load_eq text
  have hschedule : (m.blank.load text).2.schedule = m.blank.schedule.clear :=
    hblank ▸ hsteady.schedule m.blank.reset
  have hwaits : (m.blank.load text).2.waits = {} := hblank ▸ hsteady.waits m.blank.reset
  rw [m.load_eq_withPast]
  generalize (m.blank.load text).2 = loaded at hschedule hwaits ⊢
  unfold pastless withPast
  rw [hschedule, hwaits]
  rfl

/-- Two machines are alike but for the numbers of timers from `first` on, which are renamed, and for
what those who watch them were told before. -/
structure Renamed (first : Nat) (ρ : Nat → Nat) (m₁ m₂ : Machine) : Prop where
  visible : m₁.visible = m₂.visible
  timers (id : Nat) (entry : Nat × Task) : m₂.schedule.tasks[id]? = some entry ↔
    ∃ id₁, first ≤ id₁ ∧ ρ id₁ = id ∧ m₁.schedule.tasks[id₁]? = some entry
  early (id : Nat) (h : id < first) : m₁.schedule.tasks[id]? = none
  waits (label : String) : m₂.waits.get? label =
    (m₁.waits.get? label).map fun w => { w with timer := ρ w.timer }

/-- Those who watch two machines were told the same since the machines were as given: events, and
changes of files and of sockets. -/
structure ToldAlike (m₁ m₂ m₁' m₂' : Machine) : Prop where
  events : ∃ told, m₁'.log = m₁.log ++ told ∧ m₂'.log = m₂.log ++ told
  files : ∃ n, m₁'.files.changes = m₁.files.changes + n ∧
    m₂'.files.changes = m₂.files.changes + n
  network : ∃ n, m₁'.network.changes = m₁.network.changes + n ∧
    m₂'.network.changes = m₂.network.changes + n

section Reload

variable {m₀ m₁ m₂ m₁' m₂' : Machine}

def renumber (m₁ m₂ : Machine) (id : Nat) : Nat :=
  id - m₁.schedule.nextId + m₂.schedule.nextId

private theorem renumber_add (m₁ m₂ : Machine) (id : Nat) :
    m₁.renumber m₂ (m₁.past.timers + id) = m₂.past.timers + id := by
  dsimp only [renumber, past]
  omega

private theorem renumber_lt_renumber (m₁ m₂ : Machine) {i j : Nat} (hi : m₁.schedule.nextId ≤ i)
    (hij : i < j) : m₁.renumber m₂ i < m₁.renumber m₂ j := by
  unfold renumber
  omega

private theorem Mirrors.renamed (h₁ : Mirrors m₁.past false m₀ m₁')
    (h₂ : Mirrors m₂.past false m₀ m₂') :
    Renamed m₁.schedule.nextId (m₁.renumber m₂) m₁' m₂' := by
  have hvisible : m₁'.visible = m₂'.visible := h₁.visible.trans h₂.visible.symm
  cases h₁ with
  | @mk s₁ w₁ wish₁ h₁ =>
    cases h₂ with
    | @mk s₂ w₂ wish₂ h₂ =>
      refine ⟨hvisible, fun id entry => ⟨fun hlive => ?_, ?_⟩, fun id hid => h₁.schedule.below hid,
        fun label => ?_⟩
      · obtain ⟨id₀, rfl, hlive₀⟩ := h₂.schedule.task_origin hlive
        refine ⟨m₁.past.timers + id₀, Nat.le_add_right _ _, renumber_add m₁ m₂ id₀, ?_⟩
        exact (h₁.schedule.tasks id₀).trans hlive₀
      · rintro ⟨id₁, -, rfl, hlive⟩
        obtain ⟨id₀, rfl, hlive₀⟩ := h₁.schedule.task_origin hlive
        rw [renumber_add]
        exact (h₂.schedule.tasks id₀).trans hlive₀
      · have hwait₁ : (m₀.withPast m₁.past s₁ w₁ wish₁).waits.get? label = _ := h₁.waits label
        have hwait₂ : (m₀.withPast m₂.past s₂ w₂ wish₂).waits.get? label = _ := h₂.waits label
        rw [hwait₁, hwait₂]
        cases m₀.waits.get? label with
        | none => rfl
        | some wait =>
          simp only [Option.map_some, PendingWait.raise, renumber_add]

private theorem Mirrors.toldAlike (h₁ : Mirrors m₁.past false m₀ m₁')
    (h₂ : Mirrors m₂.past false m₀ m₂') : ToldAlike m₁ m₂ m₁' m₂' := by
  cases h₁ with
  | mk h₁ =>
    cases h₂ with
    | mk h₂ => exact ⟨⟨m₀.log, rfl, rfl⟩, ⟨m₀.files.changes, rfl, rfl⟩, ⟨_, rfl, rfl⟩⟩

end Reload

/-- The machine after a text was loaded and a host has done some things. -/
def reloaded (m : Machine) (text : String) (actions : List HostAction) : Machine :=
  (m.load text).2.afterActions actions

/-- What comes of loading a text into two machines and of what a host does then is the same: the
host learns the same, and those who watch are told the same; the machines that are left are alike,
with the same values, files and sockets. The numbers of timers, all from `first` on, are renamed. -/
structure SameCourse (first : Nat) (ρ : Nat → Nat) (text : String) (actions : List HostAction)
    (m₁ m₂ : Machine) : Prop where
  answers : (m₂.load text).2.answers actions = ((m₁.load text).2.answers actions).map (.rename ρ)
  numbers (id : Nat) (h : .planned id ∈ (m₁.load text).2.answers actions) : first ≤ id
  told : ToldAlike m₁ m₂ (m₁.reloaded text actions) (m₂.reloaded text actions)
  renamed : Renamed first ρ (m₁.reloaded text actions) (m₂.reloaded text actions)
  values (path : String) :
    (m₁.reloaded text actions).valueOf? path = (m₂.reloaded text actions).valueOf? path
  entries : (m₁.reloaded text actions).files.entries = (m₂.reloaded text actions).files.entries
  handles : (m₁.reloaded text actions).files.handles = (m₂.reloaded text actions).files.handles
  search : (m₁.reloaded text actions).files.search = (m₂.reloaded text actions).files.search
  names : (m₁.reloaded text actions).sockets = (m₂.reloaded text actions).sockets
  sockets :
    (m₁.reloaded text actions).network.sockets = (m₂.reloaded text actions).network.sockets

end Machine

private theorem HostAnswer.rename_renumber (m₁ m₂ : Machine) (answer : HostAnswer) :
    (answer.rename (m₁.past.timers + ·)).rename (m₁.renumber m₂) =
      answer.rename (m₂.past.timers + ·) := by
  cases answer with
  | planned timer => exact congrArg planned (m₁.renumber_add m₂ timer)
  | _ => rfl

private theorem HostAnswer.le_of_planned {answer : HostAnswer} {d id : Nat}
    (h : answer.rename (d + ·) = planned id) : d ≤ id := by
  cases answer with
  | planned timer =>
    cases h
    exact Nat.le_add_right d timer
  | _ => cases h

namespace Machine

private theorem sameCourse_of_blank {m₁ m₂ : Machine} (h : m₁.blank = m₂.blank) (text : String)
    {actions : List HostAction} (hcounts : ∀ action ∈ actions, action.Counts) :
    SameCourse m₁.schedule.nextId (m₁.renumber m₂) text actions m₁ m₂ := by
  have hload₂ := m₂.mirrors_load text
  rw [← h] at hload₂
  obtain ⟨hanswers₁, h₁⟩ := (m₁.mirrors_load text).actions hcounts
  obtain ⟨hanswers₂, h₂⟩ := hload₂.actions hcounts
  have hlook {α : Type} (q : Machine → α) (hq : ∀ m, q m = q m.visible) :
      q (m₁.reloaded text actions) = q (m₂.reloaded text actions) :=
    (h₁.look q hq).trans (h₂.look q hq).symm
  constructor
  · rw [hanswers₁, hanswers₂, List.map_map]
    refine List.map_congr_left fun answer _ => ?_
    exact (HostAnswer.rename_renumber m₁ m₂ answer).symm
  · intro id hid
    rw [hanswers₁] at hid
    obtain ⟨answer, -, hanswer⟩ := List.mem_map.mp hid
    exact HostAnswer.le_of_planned hanswer
  · exact h₁.toldAlike h₂
  · exact h₁.renamed h₂
  · exact fun path => hlook (·.valueOf? path) fun _ => rfl
  · exact hlook (·.files.entries) fun _ => rfl
  · exact hlook (·.files.handles) fun _ => rfl
  · exact hlook (·.files.search) fun _ => rfl
  · exact hlook (·.sockets) fun _ => rfl
  · exact hlook (·.network.sockets) fun _ => rfl

/-- Loading forgets. On any two machines with the same settings, the same devices on the network,
the same random numbers to come, whatever these are, and the same time, loading a text tells the
same and leaves machines that are equal but for the next number of a timer, the wish to stop, and
what was told before. Whatever a host does then, the same comes of it on both; only timers have
other numbers, in the same order. -/
theorem load_forgets_past (m₁ m₂ : Machine) (hconfig : m₁.config = m₂.config)
    (hdevices : m₁.network.responders = m₂.network.responders) (hchance : m₁.chance = m₂.chance)
    (hnow : m₁.now = m₂.now) (text : String) :
    (m₁.load text).1 = (m₂.load text).1 ∧
      (m₁.load text).2.pastless = (m₂.load text).2.pastless ∧
      ∃ ρ : Nat → Nat,
        (∀ i j, m₁.schedule.nextId ≤ i → i < j → ρ i < ρ j) ∧
        ∀ actions : List HostAction, (∀ action ∈ actions, action.Counts) →
          SameCourse m₁.schedule.nextId ρ text actions m₁ m₂ := by
  have hblank : m₁.blank = m₂.blank := by
    unfold blank
    rw [hconfig, hdevices, hchance, hnow]
  refine ⟨?_, ?_, m₁.renumber m₂, fun i j => renumber_lt_renumber m₁ m₂, fun actions hcounts => ?_⟩
  · unfold load
    dsimp only [reset]
    rw [hconfig]
  · rw [m₁.pastless_load, m₂.pastless_load, hblank]
  · exact sameCourse_of_blank hblank text hcounts

/-- A machine that was asked to stop, and has given a number to a timer, is as good as new once a
program is loaded. -/
theorem load_forgets_stop_request :
    (new {}).schedule.nextId = 1 ∧ (new {}).abort = false ∧
      ((new {}).scheduleStimulus 10 .stop).2.requestStop.schedule.nextId = 2 ∧
      ((new {}).scheduleStimulus 10 .stop).2.requestStop.abort = true ∧
      ∃ ρ : Nat → Nat, SameCourse 1 ρ "DIGITAL_INPUT GO; FUNCTION MAIN() { }"
        [.runMain, .setDigital "GO" 1, .scheduleStimulus 5 (.digital "GO" 0),
          .send (.digital "GO" 1), .advance 3, .settle]
        (new {}) ((new {}).scheduleStimulus 10 .stop).2.requestStop := by
  obtain ⟨-, -, ρ, -, hcourse⟩ := load_forgets_past (new {})
    ((new {}).scheduleStimulus 10 .stop).2.requestStop rfl rfl rfl rfl
    "DIGITAL_INPUT GO; FUNCTION MAIN() { }"
  exact ⟨rfl, rfl, rfl, rfl, ρ, hcourse _ (by simp [HostAction.Counts])⟩

end Machine

end ControlLogic
