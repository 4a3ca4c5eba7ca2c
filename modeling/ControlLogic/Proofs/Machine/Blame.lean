import ControlLogic.Proofs.Machine.Behaving
import ControlLogic.Proofs.Machine.Depth

/-!
Whom faults of a wrong shape are blamed on. Whatever texts a host loads and whatever it does with
them, the machine has the code of the last one, and of the faults of a wrong shape only one is ever
raised: a pulse of something that is no place.
-/

set_option autoImplicit false
set_option relaxedAutoImplicit false

namespace ControlLogic

def Diagnostic.AllowedBy (A : Option Position → Prop) (d : Diagnostic) : Prop :=
  ∀ f, d.complaint = .fault f → f.AllowedAt A d.pos

namespace Diagnostic

variable {A : Option Position → Prop} {d : Diagnostic}

theorem AllowedBy.mono {B : Option Position → Prop} (h : d.AllowedBy A)
    (hAB : ∀ pos, A pos → B pos) : d.AllowedBy B :=
  fun f hf => (h f hf).mono (hAB d.pos)

private theorem allowedBy_fault {f : Fault} {pos : Option Position} (h : f.AllowedAt A pos) :
    AllowedBy A ⟨.fault f, pos⟩ := by
  rintro _ ⟨⟩
  exact h

private theorem allowedBy_other (h : ∀ f, d.complaint ≠ .fault f) : d.AllowedBy A :=
  fun f hf => absurd hf (h f)

end Diagnostic

/-- What a host may be told of includes all that the code of a program ends with. -/
def Admits (p : Program) (Told : Diagnostic → Prop) : Prop :=
  ∀ d : Diagnostic, d.AllowedBy p.Blamed → Told d

/-! ### Code that runs to its end at once -/

namespace Run

variable {p : Program} {Told : Diagnostic → Prop} {A : Option Position → Prop} {α : Type}

private theorem behaves_noPump (n : Nat) : Behaves p Told A (noPump n) :=
  .pure ()

private theorem behaves_immediateBlock (hp : p.Shaped) {body : List Stmt}
    (h : ∀ s ∈ body, p.HasStmt s) :
    Behaves p Told p.Blamed (immediateBlock body) :=
  .looking (x := fun m => block noPump m.fuel body) fun m =>
    behaves_block hp behaves_noPump m.fuel h

private theorem behaves_immediateCall (hp : p.Shaped) {f : FunctionDef} {index : Nat}
    (hf : p.functions[index]? = some f) : Behaves p Told p.Blamed (immediateCall index) := by
  have hbody : f.body ∈ p.bodies :=
    Program.mem_bodies.mpr (.inr (.inl ⟨f, List.mem_of_getElem? hf, rfl⟩))
  refine .looking
    (x := fun m => callAt (eval noPump m.fuel) (block noPump m.fuel) index []) fun m => ?_
  refine behaves_callAt (List.forall_mem_nil _) hf ?_
  exact behaves_block hp behaves_noPump m.fuel fun s hs => p.hasStmt_of_mem hbody hs

private theorem behaves_handlerBody (hp : p.Shaped) {h : Handler} (hh : h ∈ p.handlers) :
    Behaves p Told p.Blamed (handlerBody h) := by
  have hbody : h.body ∈ p.bodies := Program.mem_bodies.mpr (.inl ⟨h, hh, rfl⟩)
  refine (behaves_localFrame h.locals {}).bind fun frame => ?_
  refine Behaves.bind (.modify fun _ hm => hm.of_eq rfl rfl rfl rfl) fun _ => ?_
  exact behaves_immediateBlock hp fun s hs => p.hasStmt_of_mem hbody hs

theorem Behaves.isolated {x : Run α} (h : Behaves p Told A x) (frames : List Frame) :
    Behaves p Told A (isolated frames x) := by
  intro m hm
  have hisolated : (m.isolate frames).Sound p Told := hm.of_eq rfl rfl rfl rfl
  rw [m.after_isolated]
  refine ⟨(h _ hisolated).1.of_eq rfl rfl rfl rfl, fun f pos m' hrun => ?_⟩
  unfold Run.isolated at hrun
  split at hrun
  · cases hrun
  next u m₁ hx =>
    cases hrun
    exact (h _ hisolated).2 f pos m₁ hx

end Run

/-! ### What is done in the background -/

namespace Machine

variable {p : Program} {Told : Diagnostic → Prop} {m : Machine}

private theorem sound_foldl {α : Type} {f : Machine → α → Machine} {as : List α}
    (hf : ∀ a ∈ as, ∀ m : Machine, m.Sound p Told → (f m a).Sound p Told)
    (hm : m.Sound p Told) : (as.foldl f m).Sound p Told := by
  induction as generalizing m with
  | nil => exact hm
  | cons a as ih =>
    obtain ⟨hfirst, hrest⟩ := List.forall_mem_cons.mp hf
    exact ih hrest (hfirst m hm)

section

variable (hp : p.Shaped) (hTold : Admits p Told)
include hTold

theorem Sound.background {α : Type} {x : Run α} (hm : m.Sound p Told)
    (hx : Run.Behaves p Told p.Blamed x) : (m.background x).Sound p Told := by
  obtain ⟨hsound, hfault⟩ := hx m hm
  unfold Machine.background
  cases h : x m with
  | ok a m' =>
    rw [after_ok h] at hsound
    exact hsound
  | error u m' =>
    rw [after_error h] at hsound
    cases u with
    | stepLimit =>
      refine hsound.tell ?_
      rintro _ ⟨⟩
      exact hTold _ (Diagnostic.allowedBy_other (by simp))
    | fault f pos =>
      refine hsound.tell ?_
      rintro _ ⟨⟩
      exact hTold _ (Diagnostic.allowedBy_fault (hfault f pos m' h))
    | terminated | aborted | exhausted => exact hsound

include hp

theorem Sound.dispatch (hm : m.Sound p Told) (trigger : Trigger) (names : List String) :
    (m.dispatch trigger names).Sound p Told := by
  refine sound_foldl (fun h hh m' hm' => ?_) hm
  have hmem : h ∈ p.handlers := hm.program ▸ (List.mem_filter.mp hh).1
  exact hm'.background hTold ((Run.behaves_handlerBody hp hmem).isolated [])

theorem Sound.drive (hm : m.Sound p Told) (s : Signal) (v : Value) (trigger : Trigger) :
    (m.drive s v trigger).Sound p Told := by
  obtain ⟨signals, indices, last, h⟩ := m.keepInput_eq s v
  have hkept : (m.keepInput s v).Sound p Told := by
    rw [h]
    exact hm.of_eq rfl rfl rfl rfl
  exact hkept.dispatch hp hTold trigger _

theorem Sound.setDigital (hm : m.Sound p Told) (name : String) (n : Int) :
    (m.setDigital name n).Sound p Told := by
  unfold Machine.setDigital
  split
  · exact hm.tell (by rintro _ ⟨⟩)
  · dsimp only
    split
    · exact hm
    · exact hm.drive hp hTold _ _ _

theorem Sound.setAnalog (hm : m.Sound p Told) (name : String) (n : Int) :
    (m.setAnalog name n).Sound p Told := by
  unfold Machine.setAnalog
  split
  · exact hm.tell (by rintro _ ⟨⟩)
  · dsimp only
    split
    · exact hm
    · exact hm.drive hp hTold _ _ _

theorem Sound.setSerial (hm : m.Sound p Told) (name text : String) :
    (m.setSerial name text).Sound p Told := by
  unfold Machine.setSerial
  split
  · exact hm.tell (by rintro _ ⟨⟩)
  · dsimp only
    split
    · exact hm.drive hp hTold _ _ _
    · split
      · exact hm
      · exact hm.drive hp hTold _ _ _

theorem Sound.apply (hm : m.Sound p Told) (stimulus : Stimulus) :
    (m.apply stimulus).Sound p Told := by
  cases stimulus with
  | digital name n => exact hm.setDigital hp hTold name n
  | analog name n => exact hm.setAnalog hp hTold name n
  | serial name text => exact hm.setSerial hp hTold name text
  | stop => exact hm.of_eq rfl rfl rfl rfl

theorem Sound.runWait (hm : m.Sound p Told) (label : String) :
    (m.runWait label).Sound p Told := by
  unfold Machine.runWait
  split
  next w hw =>
    exact (hm.erase label m.schedule).background hTold
      ((Run.behaves_immediateBlock hp (hm.waits hw)).isolated w.frames)
  next => exact hm

theorem Sound.completeConnect (hm : m.Sound p Told) (id : Int) :
    (m.completeConnect id).Sound p Told := by
  have hnetwork : ({ m with network := (m.network.completeConnect id).2 } : Machine).Sound p Told :=
    hm.of_eq rfl rfl rfl rfl
  unfold Machine.completeConnect
  dsimp only
  split
  · exact hnetwork.dispatch hp hTold _ _
  · exact hnetwork

theorem Sound.deliver (hm : m.Sound p Told) (id : Int) (data : String) :
    (m.deliver id data).Sound p Told := by
  have hnetwork (scope : Scope) :
      ({ m with network := (m.network.deliver id data).2, scope := scope } : Machine).Sound
        p Told :=
    hm.of_eq rfl rfl rfl rfl
  unfold Machine.deliver
  dsimp only
  split
  · exact (hnetwork _).dispatch hp hTold _ _
  · exact hnetwork m.scope

theorem Sound.runTask (hm : m.Sound p Told) (task : Task) : (m.runTask task).Sound p Told := by
  cases task with
  | waitBody label => exact hm.runWait hp hTold label
  | spawn function =>
    simp only [Machine.runTask]
    split
    next index hindex =>
      obtain ⟨f, hf, -⟩ := hm.functions hindex
      exact ((Run.behaves_immediateCall hp hf).isolated [] m hm).1
    next => exact hm
  | pulseEnd output => exact hm.background hTold (Run.behaves_writeKey _ _)
  | stimulus stimulus => exact hm.apply hp hTold stimulus
  | socketConnected id => exact hm.completeConnect hp hTold id
  | socketDeliver id data => exact hm.deliver hp hTold id data
  | socketEvent trigger id => exact hm.dispatch hp hTold trigger _

end

end Machine

namespace Run

variable {p : Program} {Told : Diagnostic → Prop} {A : Option Position → Prop}
  (hp : p.Shaped) (hTold : Admits p Told)
include hp hTold

private theorem behaves_accept (stimulus : Stimulus) : Behaves p Told A (accept stimulus) := by
  refine Behaves.bind (.modify fun _ hm => hm.apply hp hTold stimulus) fun _ => ?_
  split
  · exact behaves_checkAbort
  · exact .pure ()

private theorem behaves_acceptWaiting (n : Nat) : Behaves p Told A (acceptWaiting n) := by
  induction n with
  | zero => exact .pure ()
  | succ n ih =>
    refine Behaves.bind (.modifyGet fun _ hm => hm.of_eq rfl rfl rfl rfl) fun received => ?_
    split
    · exact (behaves_accept hp hTold _).bind fun _ => ih
    · exact .pure ()

private theorem behaves_pump (deadline : Nat) : Behaves p Told A (pump deadline) := by
  have hround : Behaves p Told A (pumpRound deadline) := by
    refine behaves_checkAbort.bind fun _ => .inspect fun m _ => ?_
    refine (behaves_acceptWaiting hp hTold _).bind fun _ => ?_
    refine Behaves.bind (.modifyGet fun _ hm => hm.of_eq rfl rfl rfl rfl) fun due => ?_
    split
    · exact Behaves.bind (.modify fun _ hm => hm.runTask hp hTold _) fun _ => .pure none
    · refine .inspect fun m _ => ?_
      split
      · exact .pure _
      · refine Behaves.bind (.modifyGet fun _ hm => hm.of_eq rfl rfl rfl rfl) fun received => ?_
        split
        · exact (behaves_accept hp hTold _).bind fun _ => .pure none
        · exact .pure none
  exact .looking (x := fun m => repeatUntil (pumpRound deadline) m.config.rounds)
    fun m => hround.repeatUntil m.config.rounds

end Run

/-! ### What a host does -/

namespace Machine

variable {p : Program} {Told : Diagnostic → Prop} {m : Machine}

section

variable (hp : p.Shaped) (hTold : Admits p Told)
include hp hTold

theorem Sound.passUntil (hm : m.Sound p Told) (deadline : Nat) :
    (m.passUntil deadline).Sound p Told :=
  (Run.behaves_pump (A := p.Blamed) hp hTold deadline m hm).1

theorem Sound.drain (hm : m.Sound p Told) : m.drain.Sound p Told := by
  have hemptied : ({ m with schedule := { m.schedule with inbox := [] } } : Machine).Sound p Told :=
    hm.of_eq rfl rfl rfl rfl
  exact sound_foldl (fun stimulus _ m' hm' => hm'.apply hp hTold stimulus) hemptied

theorem Sound.settleRounds (hm : m.Sound p Told) (n : Nat) :
    (Machine.settleRounds n m).Sound p Told := by
  induction n generalizing m with
  | zero => exact hm
  | succ n ih =>
    have hdrained := hm.drain hp hTold
    unfold Machine.settleRounds
    dsimp only
    split
    · exact ih (hdrained.passUntil hp hTold _)
    · exact hdrained

omit hp in
theorem Sound.conclude (hm : m.Sound p Told) {r : Except Unwind Flow}
    (h : ∀ f pos, r = .error (.fault f pos) → f.AllowedAt p.Blamed pos) :
    (m.conclude r).2.Sound p Told ∧
      ∀ d, (m.conclude r).1 = .failed d → d.AllowedBy p.Blamed := by
  cases r with
  | ok flow => exact ⟨hm, by rintro _ ⟨⟩⟩
  | error u =>
    cases u with
    | fault f pos =>
      have hallowed := Diagnostic.allowedBy_fault (h f pos rfl)
      refine ⟨hm.tell ?_, ?_⟩
      · rintro _ ⟨⟩
        exact hTold _ hallowed
      · rintro _ ⟨⟩
        exact hallowed
    | stepLimit =>
      refine ⟨hm.tell ?_, by rintro _ ⟨⟩⟩
      rintro _ ⟨⟩
      exact hTold _ (Diagnostic.allowedBy_other (by simp))
    | terminated | aborted | exhausted => exact ⟨hm, by rintro _ ⟨⟩⟩

theorem Sound.runMain (hm : m.Sound p Told) :
    m.runMain.2.Sound p Told ∧ ∀ d, m.runMain.1 = .failed d → d.AllowedBy p.Blamed := by
  have hwilling : ({ m with abort := false } : Machine).Sound p Told := hm.of_eq rfl rfl rfl rfl
  unfold Machine.runMain
  generalize ({ m with abort := false } : Machine) = m at hwilling
  dsimp only
  split
  next => exact ⟨hwilling, by rintro _ ⟨⟩⟩
  next main hmain =>
    split
    next frame h =>
      have hmem : main ∈ p.main := hwilling.program ▸ hmain
      have hbody : main.body ∈ p.bodies := Program.mem_bodies.mpr (.inr (.inr ⟨main, hmem, rfl⟩))
      have hbegun : (m.beginMain frame).Sound p Told := hwilling.of_eq rfl rfl rfl rfl
      obtain ⟨hended, hfault⟩ := Run.behaves_block hp (Run.behaves_pump hp hTold) m.fuel
        (fun s hs => p.hasStmt_of_mem hbody hs) _ hbegun
      unfold runBody
      cases hrun : Run.block Run.pump m.fuel main.body (m.beginMain frame) with
      | ok flow m' =>
        rw [after_ok hrun] at hended
        have hleft : (m'.endMain m.scope.frames).Sound p Told := hended.of_eq rfl rfl rfl rfl
        exact hleft.conclude hTold (by rintro _ _ ⟨⟩)
      | error u m' =>
        rw [after_error hrun] at hended
        have hleft : (m'.endMain m.scope.frames).Sound p Told := hended.of_eq rfl rfl rfl rfl
        refine hleft.conclude hTold ?_
        rintro f pos ⟨⟩
        exact hfault f pos m' hrun
    next f pos h =>
      have hallowed : Diagnostic.AllowedBy p.Blamed ⟨.fault f, some pos⟩ :=
        Diagnostic.allowedBy_fault (Fault.allowedAt_of_shape (Run.isMisshapen_declareLocals h))
      refine ⟨hwilling.tell ?_, ?_⟩
      · rintro _ ⟨⟩
        exact hTold _ hallowed
      · rintro _ ⟨⟩
        exact hallowed

end

/-! ### Loading -/

private theorem not_hasStmt_empty (s : Stmt) : ¬ Program.HasStmt {} s := by
  rintro ⟨body, hbody, -⟩
  cases hbody

private theorem sound_empty (hprogram : m.program = {}) (hfunctions : m.functions = {})
    (hwaits : m.waits = {}) (htold : ∀ d, .error d ∈ m.log → Told d) : m.Sound {} Told where
  program := hprogram
  functions h := by
    rw [hfunctions] at h
    exact absurd (h.symm.trans Std.HashMap.getElem?_empty) (by simp)
  waits h := by
    rw [hwaits] at h
    exact absurd (h.symm.trans Std.HashMap.getElem?_empty) (by simp)
  told := htold _

private theorem exists_of_get?_places {fs : List FunctionDef} {name : String} {index : Nat}
    (h : (functionPlaces fs).get? name = some index) :
    ∃ f, fs[index]? = some f ∧ Text.upper f.name = name := by
  induction fs using List.reverseRecOn with
  | nil => exact absurd (h.symm.trans Std.HashMap.getElem?_empty) (by simp)
  | append_singleton fs last ih =>
    rw [functionPlaces, List.zipIdx_append, List.foldl_append, List.zipIdx_singleton,
      List.foldl_cons, List.foldl_nil, Std.HashMap.get?_eq_getElem?,
      Std.HashMap.getElem?_insert] at h
    split at h
    next hname =>
      cases h
      exact ⟨last, by simp, eq_of_beq hname⟩
    next =>
      obtain ⟨f, hf, hname⟩ := ih h
      have hlt := (List.getElem?_eq_some_iff.mp hf).1
      exact ⟨f, (List.getElem?_append_left hlt).trans hf, hname⟩

theorem Sound.addGlobal (hm : m.Sound p Told) (hTold : Admits p Told)
    (structures : List StructureDef) (d : VariableDecl) :
    (Machine.addGlobal structures m d).Sound p Told := by
  unfold Machine.addGlobal
  split
  · exact hm.of_eq rfl rfl rfl rfl
  · split
    · exact hm.of_eq rfl rfl rfl rfl
    · refine hm.tell ?_
      rintro _ ⟨⟩
      exact hTold _ (Diagnostic.allowedBy_fault (Fault.allowedAt_of_shape rfl))

theorem Sound.install (hm : m.Sound {} Told) (hTold : Admits p Told) :
    (m.install p).Sound p Told := by
  have htaken : ({ m with
      program := p
      functions := functionPlaces p.functions } : Machine).Sound p Told :=
    { program := rfl
      functions := exists_of_get?_places
      waits := fun h s hs => absurd (hm.waits h s hs) (not_hasStmt_empty s)
      told := hm.told }
  have hconstant (name : String) (v : Value) (m : Machine) (hm : m.Sound p Told) :
      (m.addConstant name v).Sound p Told := hm.of_eq rfl rfl rfl rfl
  unfold Machine.install
  refine sound_foldl (fun constant _ => hconstant _ _) ?_
  refine sound_foldl (fun d _ m hm => hm.addGlobal hTold p.structures d) ?_
  refine sound_foldl (fun d _ m hm => sound_foldl (fun entry _ m hm => ?_) hm) ?_
  · exact hm.of_eq rfl rfl rfl rfl
  · exact sound_foldl (fun constant _ => hconstant _ _) htaken

theorem Sound.reset (hm : m.Sound p Told) : m.reset.Sound {} Told :=
  sound_empty rfl rfl rfl fun _ => hm.told

theorem Sound.load (hm : m.Sound p Told) (text : String)
    (hTold : Admits (Program.parse text m.config.defines).program Told) :
    (m.load text).2.Sound (Program.parse text m.config.defines).program Told := by
  have hother (d : Diagnostic) (h : ∀ f, d.complaint ≠ .fault f) : Told d :=
    hTold d (Diagnostic.allowedBy_other h)
  refine Sound.install ?_ hTold
  refine sound_foldl (fun n _ m hm => hm.tell (by rintro _ ⟨⟩)) ?_
  refine sound_foldl (fun e _ m hm => hm.tell ?_) hm.reset
  rintro _ ⟨⟩
  exact hother _ (by simp [Diagnostic.ofParseError])

end Machine

def Program.IsLoaded (p : Program) (defines : List String) (actions : List HostAction) : Prop :=
  p = {} ∨ ∃ text, .load text ∈ actions ∧ p = (Program.parse text defines).program

def LoadedBlamed (defines : List String) (actions : List HostAction) (pos : Option Position) :
    Prop :=
  ∃ text, .load text ∈ actions ∧ (Program.parse text defines).program.Blamed pos

namespace Program.IsLoaded

variable {p : Program} {defines : List String} {actions : List HostAction}

theorem shaped (h : p.IsLoaded defines actions) : p.Shaped := by
  obtain rfl | ⟨text, -, rfl⟩ := h
  · exact shaped_empty
  · exact shaped_parse text defines

theorem blamed (h : p.IsLoaded defines actions) {pos : Option Position} (hpos : p.Blamed pos) :
    LoadedBlamed defines actions pos := by
  obtain rfl | ⟨text, htext, rfl⟩ := h
  · obtain ⟨q, -, s, hs, -⟩ := hpos
    exact absurd hs (Machine.not_hasStmt_empty s)
  · exact ⟨text, htext, hpos⟩

private theorem admits (h : p.IsLoaded defines actions) :
    Admits p (·.AllowedBy (LoadedBlamed defines actions)) :=
  fun _ hd => hd.mono fun _ => h.blamed

end Program.IsLoaded

namespace Machine

theorem Sound.mono {p : Program} {Told Told' : Diagnostic → Prop} {m : Machine}
    (hm : m.Sound p Told) (h : ∀ d, Told d → Told' d) : m.Sound p Told' :=
  { hm with told := fun hd => h _ (hm.told hd) }

/-- Whatever a host does, the machine has the code of the text loaded last, and the host is told of
no fault but those that the loaded programs are blamed for. -/
private theorem sound_afterActions (config : Settings) (actions : List HostAction) :
    ∃ p : Program, p.IsLoaded config.defines actions ∧
      ((new config).afterActions actions).Sound p
        (·.AllowedBy (LoadedBlamed config.defines actions)) := by
  induction actions using List.reverseRecOn with
  | nil => exact ⟨{}, .inl rfl, sound_empty rfl rfl rfl fun d hd => (Array.not_mem_empty _ hd).elim⟩
  | append_singleton actions action ih =>
    obtain ⟨p, hloaded, hsound⟩ := ih
    have hconfig : ((new config).afterActions actions).config = config := by
      have hreaches := reaches_hosting.actions (new config) actions []
      exact hreaches.bounded.settings
    have hrun : (new config).afterActions (actions ++ [action]) =
        action.run ((new config).afterActions actions) := List.foldl_concat ..
    rw [hrun]
    generalize (new config).afterActions actions = m at hsound hconfig
    have hstill : p.IsLoaded config.defines (actions ++ [action]) :=
      hloaded.imp_right fun ⟨text, htext, heq⟩ => ⟨text, List.mem_append_left _ htext, heq⟩
    have hm : m.Sound p (·.AllowedBy (LoadedBlamed config.defines (actions ++ [action]))) :=
      hsound.mono fun d hd => hd.mono fun pos ⟨text, htext, hpos⟩ =>
        ⟨text, List.mem_append_left _ htext, hpos⟩
    have hp := hstill.shaped
    have hTold := hstill.admits
    cases action with
    | load text =>
      have hnew : (Program.parse text m.config.defines).program.IsLoaded config.defines
          (actions ++ [.load text]) :=
        .inr ⟨text, List.mem_append_right _ List.mem_cons_self, by rw [hconfig]⟩
      exact ⟨_, hnew, hm.load text hnew.admits⟩
    | reset => exact ⟨{}, .inl rfl, hm.reset⟩
    | runMain => exact ⟨p, hstill, (hm.runMain hp hTold).1⟩
    | setDigital name n => exact ⟨p, hstill, hm.setDigital hp hTold name n⟩
    | setAnalog name n => exact ⟨p, hstill, hm.setAnalog hp hTold name n⟩
    | setSerial name text => exact ⟨p, hstill, hm.setSerial hp hTold name text⟩
    | advance duration => exact ⟨p, hstill, hm.passUntil hp hTold _⟩
    | settle => exact ⟨p, hstill, hm.settleRounds hp hTold settleLimit⟩
    | scheduleStimulus | send | requestStop | changeFiles | changeNetwork =>
      exact ⟨p, hstill, hm.of_eq rfl rfl rfl rfl⟩

end Machine

/-! ### Faults of a wrong shape -/

namespace Run

/-- From each machine that has the code of a program, a run leaves a machine that has it, and it
ends with no fault but an allowed one. -/
def Heeds (p : Program) (A : Option Position → Prop) {α : Type} (x : Run α) : Prop :=
  ∀ m : Machine, m.Carries p → (m.after x).Carries p ∧
    ∀ f pos m', x m = .error (.fault f pos) m' → f.AllowedAt A pos

private theorem Behaves.heeds {p : Program} {A : Option Position → Prop} {α : Type} {x : Run α}
    (h : Behaves p (fun _ => True) A x) : Heeds p A x := by
  intro m hm
  obtain ⟨hsound, hfault⟩ := h m { hm with told := fun _ => trivial }
  exact ⟨hsound.toCarries, hfault⟩

private theorem pulse_misaimed {eval : Expr → Run Value} {args : List Expr} {output : Expr}
    {delay : Int}
    {m m' : Machine} (houtput : args[1]? = some output) (hplace : output.isPlace = false)
    (hdelay : argNumber eval args 0 m = .ok delay m') :
    pulse eval args m = .error (.fault .notAVariable none) m' := by
  have hresolve : resolveKey eval output = Run.fault .notAVariable := by
    cases output with
    | name | element | field => cases hplace
    | number | text | binary | unary | call => rfl
  unfold pulse
  rw [bind_ok hdelay, houtput]
  dsimp only
  rw [hresolve]
  rfl

end Run

/--
Whatever a host does with whatever texts: the machine has the code of the text loaded last. Of the
faults of expressions that have the wrong shape, two indices outside brackets, an index pair that is
an operand and a function without a name are never raised, neither in what the host is told nor in
runs that fail in silence: by no statement, expression, function or handler of a program read from a
text, from no machine that has its code, whether time can pass or not. That something is no variable
is raised only by a pulse of something that is no place, which raises it indeed. And no number read
from a text is out of a word when its sign is changed.
-/
theorem only_pulses_miss_variables (config : Settings) (actions : List HostAction) :
    let m := (Machine.new config).afterActions actions
    ((∃ p : Program, p.IsLoaded config.defines actions ∧ m.Carries p) ∧
      (∀ d, .error d ∈ m.log → d.AllowedBy (LoadedBlamed config.defines actions)) ∧
      ∀ d, m.runMain.1 = .failed d → d.AllowedBy (LoadedBlamed config.defines actions)) ∧
    (∀ p : Program, p.IsLoaded config.defines actions →
      (∀ pump : Nat → Run Unit, pump = Run.pump ∨ pump = Run.noPump → ∀ fuel : Nat,
        (∀ s, p.HasStmt s → Run.Heeds p p.Blamed (Run.exec pump fuel s) ∧
          ∀ e ∈ s.exprs, ∀ part, Occurs Expr.parts part e →
            Run.Heeds p (p.BlamedIn part) (Run.eval pump fuel part)) ∧
        ∀ f ∈ p.functions, Run.Heeds p p.Blamed
          (Run.callFunction (Run.eval pump fuel) (Run.block pump fuel) f [])) ∧
      (∀ h ∈ p.handlers, Run.Heeds p p.Blamed (Run.handlerBody h)) ∧
      ∀ m : Machine, m.Carries p →
        (∀ name index, m.functions.get? name = some index →
          Run.Heeds p p.Blamed (Run.immediateCall index)) ∧
        (∀ task, (m.runTask task).Carries p) ∧ ∀ stimulus, (m.apply stimulus).Carries p) ∧
    (∀ (eval : Expr → Run Value) (args : List Expr) (output : Expr) (delay : Int) (m m' : Machine),
      args[1]? = some output → output.isPlace = false →
        Run.argNumber eval args 0 m = .ok delay m' →
          Run.pulse eval args m = .error (.fault .notAVariable none) m') ∧
    ∀ text : String,
      (∀ (fuel : Nat) (s s' : ParserState) (n : Int), (∀ t ∈ s.rest, t ∈ Token.scan text) →
        Parser.unary fuel s = .ok (.number n) s' → Number.InWord n ∧ Number.InWord (-n)) ∧
      ∀ t ∈ Token.scan text, t.kind = .number → ∀ n, Token.literalNumber? t.text = some n →
        Number.InWord n ∧ Number.InWord (-n) := by
  intro m
  refine ⟨?_, fun p hloaded => ?_, fun _ _ _ _ _ _ => Run.pulse_misaimed,
    fun text => Parser.inWord_neg⟩
  · obtain ⟨p, hloaded, hsound⟩ := Machine.sound_afterActions config actions
    refine ⟨⟨p, hloaded, hsound.toCarries⟩, fun d hd => hsound.told hd, fun d hd => ?_⟩
    exact ((hsound.runMain hloaded.shaped hloaded.admits).2 d hd).mono fun _ => hloaded.blamed
  · have hp := hloaded.shaped
    have hTold : Admits p fun _ => True := fun _ _ => trivial
    refine ⟨fun pump hpump fuel => ?_, fun h hh => (Run.behaves_handlerBody hp hh).heeds, ?_⟩
    · have hpump' (n : Nat) : Run.Behaves p (fun _ => True) p.Blamed (pump n) := by
        obtain rfl | rfl := hpump
        · exact Run.behaves_pump hp hTold n
        · exact Run.behaves_noPump n
      obtain ⟨heval, hexec⟩ := Run.behaves_code hp hpump' fuel
      refine ⟨fun s hs => ⟨(hexec s hs).heeds, fun e he part hpart => ?_⟩, fun f hf => ?_⟩
      · exact (heval part (((hp.meets hs).shaped he).occurring hpart)).heeds
      · have hbody : f.body ∈ p.bodies := Program.mem_bodies.mpr (.inr (.inl ⟨f, hf, rfl⟩))
        refine (Run.behaves_callFunction (List.forall_mem_nil _) ?_).heeds
        exact Run.behaves_block hp hpump' fuel fun s hs => p.hasStmt_of_mem hbody hs
    · intro m hm
      have hsound : m.Sound p fun _ => True := { hm with told := fun _ => trivial }
      refine ⟨fun name index hindex => ?_, fun task => (hsound.runTask hp hTold task).toCarries,
        fun stimulus => (hsound.apply hp hTold stimulus).toCarries⟩
      obtain ⟨f, hf, -⟩ := hm.functions hindex
      exact (Run.behaves_immediateCall hp hf).heeds

/-! ### A pulse of a number -/

open Spelling Stmt

def pulsesNumber (q : Position) : List Stmt :=
  [.call q (.call "Pulse" [.number 5, .number 3])]

/-- The text of a program with a digital input on whose pushes a number is pulsed. -/
def pulsingText : String :=
  unwords (unitWords .last "a" [] (pulsesNumber .start))

private theorem isName_pulse : Expr.IsName "Pulse" := by
  have hcompare : Text.sameWord "Pulse" =
      fun word => "Pulse".toList.map Char.toUpper == word.toList.map Char.toUpper :=
    funext (Text.sameWord_eq "Pulse")
  have hkind : Token.wordKind "Pulse" = .routine := by
    simp only [Token.wordKind, Vocabulary.isControl, Vocabulary.isSignalType,
      Vocabulary.isVariableType, Vocabulary.isRoutine, Text.isOneOf, hcompare]
    decide +kernel
  refine Expr.isName_iff.mpr ⟨isWord_of_toList rfl (by decide) (by decide), ?_⟩
  rw [Token.isName, Spelling.token, word, hkind]
  rfl

private theorem canonical_pulsesNumber (q : Position) : ∀ s ∈ pulsesNumber q, s.Canonical := by
  intro s hs
  obtain rfl := List.mem_singleton.mp hs
  refine .call (.call isName_pulse ?_)
  simp only [List.forall_mem_cons]
  exact ⟨.number (by decide) (by decide), .number (by decide) (by decide), by simp⟩

namespace Run

variable {m : Machine}

private theorem exec_pulsesNumber (hmode : m.mode = .immediate)
    (hsteps : m.steps + 3 ≤ m.config.stepLimit)
    (hunknown : m.functions.get? "PULSE" = none) (pump : Nat → Run Unit) (fuel : Nat)
    (q : Position) :
    exec pump (fuel + 3) (.call q (.call "Pulse" [.number 5, .number 3])) m =
      .error (.fault .notAVariable (some q)) { m with steps := m.steps + 3 } := by
  let begun : Machine := { m with steps := m.steps + 1 }
  let called : Machine := { m with steps := m.steps + 2 }
  let failed : Machine := { m with steps := m.steps + 3 }
  have hupper : Text.upper "Pulse" = "PULSE" := by
    rw [← String.toList_inj, Text.toList_upper]
    rfl
  have hdelay : argNumber (eval pump (fuel + 1)) [.number 5, .number 3] 0 called = .ok 5 failed :=
    bind_ok (eval_number (m := called) hmode hsteps pump fuel 5) _
  have hserved : servedRoutine (eval pump (fuel + 1)) pump (fuel + 1) "PULSE"
      [.number 5, .number 3] = some do
        pulse (eval pump (fuel + 1)) [.number 5, .number 3]
        return .zero := rfl
  have hcall : eval pump (fuel + 2) (.call "Pulse" [.number 5, .number 3]) begun =
      .error (.fault .notAVariable none) failed := by
    unfold eval
    rw [bind_ok (tick_immediate (m := begun) hmode (Nat.lt_of_succ_lt hsteps))]
    unfold expression call
    dsimp only
    rw [get_bind]
    dsimp only
    rw [hupper, show called.functions.get? "PULSE" = none from hunknown]
    dsimp only
    rw [if_neg (by decide), hserved]
    exact bind_error (pulse_misaimed rfl rfl hdelay) _
  unfold exec
  rw [bind_ok (tick_immediate hmode (by omega))]
  unfold locatedAt statement
  dsimp only
  rw [bind_error hcall]
  rfl

private theorem Heeds.blames_pulse {p : Program} {A : Option Position → Prop}
    {pump : Nat → Run Unit}
    {q : Position} (h : Heeds p A (exec pump 3 (.call q (.call "Pulse" [.number 5, .number 3]))))
    (hm : m.Carries p) (hunknown : m.functions.get? "PULSE" = none) : A (some q) := by
  let ready : Machine := { m with config := {}, mode := .immediate, steps := 0 }
  have hready : ready.Carries p := ⟨hm.program, hm.functions, hm.waits⟩
  have hsteps : 0 + 3 ≤ Settings.stepLimit {} := by decide
  have hfails := exec_pulsesNumber (m := ready) rfl hsteps hunknown pump 0 q
  exact ((h ready hready).2 _ _ _ hfails).place rfl

end Run

namespace Machine

variable {m : Machine}

private theorem runHandler_pulsesNumber (hsteps : 3 ≤ m.config.stepLimit)
    (hunknown : m.functions.get? "PULSE" = none) {h : Handler} {q : Position}
    (hlocals : h.locals = []) (hbody : h.body = pulsesNumber q) :
    .error ⟨.fault .notAVariable, some q⟩ ∈ (m.runHandler h).log := by
  have hfuel : (m.isolate [{}]).fuel = m.config.stepLimit - 1 + 3 := by
    change m.config.stepLimit + 2 = _
    omega
  have hexec := Run.exec_pulsesNumber (m := m.isolate [{}]) rfl
    (show 0 + 3 ≤ m.config.stepLimit by omega) hunknown Run.noPump (m.config.stepLimit - 1) q
  have hrun : Run.immediateBlock (pulsesNumber q) (m.isolate [{}]) =
      .error (.fault .notAVariable (some q)) { m.isolate [{}] with steps := 3 } := by
    unfold Run.immediateBlock Run.block pulsesNumber Run.sequence
    rw [hfuel, Run.bind_error hexec]
    rfl
  have hhandler : Run.isolated [] (Run.handlerBody h) m =
      Run.isolated [{}] (Run.immediateBlock (pulsesNumber q)) m := by
    unfold Run.isolated Run.handlerBody
    rw [hlocals, hbody]
    rfl
  unfold Machine.runHandler background
  rw [hhandler]
  unfold Run.isolated
  rw [hrun]
  exact Array.mem_push_self

private theorem push_pulsesNumber (hsteps : 3 ≤ m.config.stepLimit)
    (hunknown : m.functions.get? "PULSE" = none)
    (hsignals : m.signals = SignalTable.declare {} .digitalInput "a" none) {h : Handler}
    {q : Position} (hhandlers : m.program.handlers = [h]) (htrigger : h.trigger = .push)
    (hsignal : h.signal = "a") (hlocals : h.locals = []) (hbody : h.body = pulsesNumber q) :
    .error ⟨.fault .notAVariable, some q⟩ ∈ (m.setDigital "a" 1).log := by
  obtain ⟨signals, indices, last, hpush⟩ := push_unit hsignals hhandlers htrigger hsignal
  rw [hpush]
  exact runHandler_pulsesNumber
    (m := { m with signals := signals, lastModified := indices, lastAny := last })
    hsteps hunknown hlocals hbody

private theorem load_pulsingText (hsteps : 3 ≤ m.config.stepLimit) :
    let loaded := (m.load pulsingText).2
    ∃ h ∈ loaded.program.handlers, ∃ q, h.body = pulsesNumber q ∧
      loaded.functions.get? "PULSE" = none ∧
      .error ⟨.fault .notAVariable, some q⟩ ∈ (loaded.setDigital "a" 1).log := by
  obtain ⟨f, h, -, ⟨htrigger, hsignal, hlocals, haction⟩, hhandlers, hfunctions, -, hsignals, -⟩ :=
    m.load_unit (fun _ hs => absurd hs List.not_mem_nil) (canonical_pulsesNumber .start)
  obtain ⟨q, hbody⟩ := Stmt.call_of_unplaced haction
  have hlimit : 3 ≤ (m.load pulsingText).2.config.stepLimit := by
    rw [(m.declares_load pulsingText).config]
    exact hsteps
  have hunknown : (m.load pulsingText).2.functions.get? "PULSE" = none := by
    rw [show (m.load pulsingText).2.functions = _ from hfunctions]
    simp [Std.HashMap.get?_eq_getElem?]
  refine ⟨h, hhandlers ▸ List.mem_singleton_self h, q, hbody, hunknown, ?_⟩
  exact push_pulsesNumber hlimit hunknown hsignals hhandlers htrigger hsignal hlocals hbody

private theorem carries_load (config : Settings) (text : String) :
    ((Machine.new config).load text).2.Carries (Program.parse text config.defines).program := by
  have hnew : (Machine.new config).Sound {} fun _ => True :=
    sound_empty rfl rfl rfl fun _ _ => trivial
  exact (hnew.load text fun _ _ => trivial).toCarries

private theorem afterActions_push (m : Machine) (text name : String) (n : Int) :
    m.afterActions [.load text, .setDigital name n] = (m.load text).2.apply (.digital name n) :=
  rfl

end Machine

private theorem unary_largest : ∃ s', Parser.unary 2
    { rest := Token.scan "9223372036854775807", finish := .start } =
      .ok (.number 9223372036854775807) s' := by
  have hscan : Token.scan "9223372036854775807" =
      [⟨.number, "9223372036854775807", ⟨1, 1⟩⟩, ⟨.endOfText, "", ⟨1, 20⟩⟩] := by
    decide +kernel
  have hspelling : Spelling.mk .number "9223372036854775807" =
      Spelling.numeral 9223372036854775807 := by
    decide +kernel
  have hstops : Parser.StopsAt Parser.levels.length Spelling.finish := by decide +kernel
  have hreads : Parser.Reads (Parser.unary 2) [Spelling.numeral 9223372036854775807]
      (Parser.StopsAt Parser.levels.length) (· = .number 9223372036854775807) :=
    Parser.reads_numeral (Int.le_refl 9223372036854775807)
  obtain ⟨e, rfl, hread⟩ := hreads { rest := Token.scan "9223372036854775807", finish := .start }
    [_] [_] rfl hscan (congrArg ([·]) hspelling) hstops
  exact ⟨_, hread⟩

/-- A push of the input has the host told of the pulse of a number, which the program is blamed for;
and the largest literal has a negative. -/
theorem pulse_of_number_is_blamed :
    let actions : List HostAction := [.load pulsingText, .setDigital "a" 1]
    let p := (Program.parse pulsingText []).program
    let m := (Machine.new {}).afterActions actions
    (∃ q, (p.IsLoaded [] actions ∧ m.Carries p ∧ ∀ s ∈ pulsesNumber q, p.HasStmt s) ∧
      .error ⟨.fault .notAVariable, some q⟩ ∈ m.log ∧ LoadedBlamed [] actions (some q) ∧
      p.Blamed (some q)) ∧
    Number.InWord (-9223372036854775807) := by
  intro actions p m
  obtain ⟨⟨-, hlog, -⟩, hcode, -, hnumbers⟩ := only_pulses_miss_variables {} actions
  have hp : p.IsLoaded [] actions := .inr ⟨pulsingText, List.mem_cons_self, rfl⟩
  obtain ⟨hruns, -, hkeeps⟩ := hcode p hp
  have hm : m = ((Machine.new {}).load pulsingText).2.apply (.digital "a" 1) :=
    Machine.afterActions_push _ _ _ _
  obtain ⟨h, hmem, q, hbody, hunknown, htold⟩ :=
    Machine.load_pulsingText (m := Machine.new {}) (by decide)
  have hloaded : ((Machine.new {}).load pulsingText).2.Carries p :=
    Machine.carries_load {} pulsingText
  generalize ((Machine.new {}).load pulsingText).2 = loaded at hm hmem hunknown htold hloaded
  have hstmts : ∀ s ∈ pulsesNumber q, p.HasStmt s := by
    rw [hloaded.program] at hmem
    refine fun s hs => p.hasStmt_of_mem (Program.mem_bodies.mpr (.inl ?_)) hs
    exact ⟨h, hmem, hbody⟩
  have hblamed : p.Blamed (some q) :=
    ((hruns Run.noPump (.inr rfl) 3).1 _ (hstmts _ (List.mem_singleton_self _))).1.blames_pulse
      hloaded hunknown
  have hcarries : m.Carries p := by
    rw [hm]
    exact (hkeeps loaded hloaded).2.2 _
  have hlogged : .error ⟨.fault .notAVariable, some q⟩ ∈ m.log := by
    rw [hm]
    exact htold
  have hloadedBlamed : LoadedBlamed [] actions (some q) := (hlog _ hlogged _ rfl).place rfl
  obtain ⟨s', hread⟩ := unary_largest
  have hnegative : Number.InWord (-9223372036854775807) :=
    ((hnumbers "9223372036854775807").1 2 _ s' _ (fun t ht => ht) hread).2
  exact ⟨⟨q, ⟨hp, hcarries, hstmts⟩, hlogged, hloadedBlamed, hblamed⟩, hnegative⟩

end ControlLogic
