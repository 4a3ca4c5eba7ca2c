import ControlLogic.Proofs.Machine.Chronicle
import ControlLogic.Proofs.Machine.Pumping
import ControlLogic.Proofs.Machine.Waits

/-!
How many frames code can have. The depth of calls is counted from where a piece of code begins, and
the body of a wait begins on the frames of the code that has put it off. So code has no more frames
than it began with and as many as calls can be nested, and the body of each wait can add as many
again.
-/

set_option autoImplicit false
set_option relaxedAutoImplicit false

namespace ControlLogic

/-- How many bodies of waits have been begun since a program was loaded or forgotten. -/
def Incident.begun : List Incident → Nat
  | [] => 0
  | .begin _ :: past => begun past + 1
  | .call _ _ :: past => begun past
  | .load _ :: _ => 0
  | .reset :: _ => 0

/-- With how many frames the pieces of code in progress have begun, the innermost first, after a
turn: one has begun if more stands around, and one has ended if less does. -/
def Moment.basesAfter (s s' : Moment) (bases : List Nat) : List Nat :=
  if s.around.length < s'.around.length then s'.machine.scope.frames.length :: bases
  else if s'.around.length < s.around.length then bases.tail
  else bases

/-- A moment on a chronicle of a new machine, and with how many frames the pieces of code in
progress have begun. -/
inductive Based (config : Settings) : List Incident → List Nat → Moment → Prop where
  | new : Based config [] [] ⟨Machine.new config, []⟩
  | turn {past : List Incident} {incident : Option Incident} {bases : List Nat} {s s' : Moment} :
    Based config past bases s → Turn s incident s' →
    Based config (incident.toList ++ past) (s.basesAfter s' bases) s'

private theorem Chronicle.based {config : Settings} {past : List Incident} {s : Moment}
    (h : Chronicle ⟨Machine.new config, []⟩ past s) : ∃ bases, Based config past bases s := by
  induction h with
  | nil => exact ⟨[], .new⟩
  | turn _ hturn ih =>
    obtain ⟨bases, hbased⟩ := ih
    exact ⟨_, hbased.turn hturn⟩

namespace Moment

variable {m m' : Machine} {k : List Around} {a : Around} {bases : List Nat}

@[simp] private theorem basesAfter_same : basesAfter ⟨m, k⟩ ⟨m', k⟩ bases = bases := by
  simp [basesAfter]

@[simp] private theorem basesAfter_begin :
    basesAfter ⟨m, k⟩ ⟨m', a :: k⟩ bases = m'.scope.frames.length :: bases := by
  simp [basesAfter]

@[simp] private theorem basesAfter_end : basesAfter ⟨m, a :: k⟩ ⟨m', k⟩ bases = bases.tail := by
  simp [basesAfter]

end Moment

/-! ### Frames that waits capture -/

namespace Machine

/-- Code is balanced, and has waits capture as many frames as it has. -/
structure Captures (m m' : Machine) : Prop extends Balanced m m' where
  waits {label : String} {w : PendingWait} : m'.waits.get? label = some w →
    m.waits.get? label = some w ∨ w.frames.length = m.scope.frames.length

private theorem Balanced.frames_length {m m' : Machine} (h : m.Balanced m') :
    m'.scope.frames.length = m.scope.frames.length :=
  h.scope.frames.length_eq.symm

private theorem captures_refl (m : Machine) : m.Captures m :=
  ⟨m.balanced_refl, .inl⟩

theorem Captures.trans {a b c : Machine} (h : a.Captures b) (h' : b.Captures c) :
    a.Captures c := by
  refine ⟨h.toBalanced.trans h'.toBalanced, fun hw => ?_⟩
  rcases h'.waits hw with hw | hlength
  · exact h.waits hw
  · exact .inr (hlength.trans h.frames_length)

private theorem Does.captures {m m' : Machine} {acts : List Act} (h : m.Does acts m') :
    m.Captures m' := by
  refine ⟨h.balanced, fun {label w} hw => ?_⟩
  cases h with
  | still h => exact .inl (h.waits ▸ hw)
  | arm delay name body hfree =>
    obtain ⟨-, rfl⟩ | hbefore := PendingWait.get?_of_insert hw
    · exact .inr rfl
    · exact .inl hbefore
  | cancel h =>
    rw [after_cancelWait h] at hw
    exact .inl (PendingWait.get?_of_erase hw)
  | retime delay h =>
    rw [after_retimeWait h] at hw
    exact .inl hw
  | cancelAll => exact absurd hw (PendingWait.get?_ne_of_empty rfl)
  | _ => exact .inl hw

private theorem Proceeds.captures {m m' : Machine} (h : m.Proceeds m') : m.Captures m' := by
  obtain ⟨acts, hchain⟩ := h
  exact hchain.fold captures_refl Captures.trans Does.captures

private theorem captures_keepEdge (m : Machine) (edge : Option Edge) :
    m.Captures (m.keepEdge edge) := by
  cases edge with
  | none => exact m.captures_refl
  | some e =>
    obtain ⟨signals, indices, last, hkept⟩ := m.keepInput_eq e.signal e.new
    rw [keepEdge, hkept]
    exact ⟨⟨rfl, rfl, rfl, Scope.sameShape_refl _⟩, .inl⟩

end Machine

private theorem Scope.length_pop (s : Scope) : s.pop.2.frames.length = s.frames.length - 1 := by
  unfold pop
  split
  next hframes => rw [hframes]; rfl
  next hframes => rw [hframes]; rfl

/-! ### Frames of code in progress -/

/-- Code that was interrupted has no more frames than it began with and it has calls, and no deeper
calls than allowed; a host has none. -/
def Around.Fits (limit base : Nat) : Around → Prop
  | .binding _ => True
  | .interrupted standing =>
    standing.depth ≤ limit ∧ standing.frames.length ≤ base + standing.depth
  | .host frames => frames = []

/-- All code around fits what it began with. -/
inductive Around.Fit (limit : Nat) : List Around → List Nat → Prop where
  | nil : Fit limit [] []
  | cons {a : Around} {k : List Around} {base : Nat} {bases : List Nat}
    (h : a.Fits limit (bases.headD 0)) (hrest : Fit limit k bases) :
    Fit limit (a :: k) (base :: bases)

theorem Around.headD_le {bases : List Nat} {most : Nat} (h : ∀ base ∈ bases, base ≤ most) :
    bases.headD 0 ≤ most := by
  cases bases with
  | nil => exact Nat.zero_le _
  | cons base bases => exact h base List.mem_cons_self

private theorem Around.Fit.frames_le {limit most : Nat} {k : List Around} {bases : List Nat}
    (h : Fit limit k bases) (hbases : ∀ base ∈ bases, base ≤ most) {standing : Standing}
    (hstanding : .interrupted standing ∈ k) : standing.frames.length ≤ most + limit := by
  induction h with
  | nil => exact absurd hstanding List.not_mem_nil
  | cons hfits _ ih =>
    have houter := (List.forall_mem_cons.mp hbases).2
    rcases List.mem_cons.mp hstanding with rfl | hrest
    · obtain ⟨hdepth, hframes⟩ := hfits
      exact Nat.le_trans hframes (Nat.add_le_add (headD_le houter) hdepth)
    · exact ih houter hrest

/-- A moment at which all code fits what it began with, and waits have captured no more than so many
bodies can have added. -/
structure Moment.Fits (config : Settings) (past : List Incident) (bases : List Nat) (s : Moment) :
    Prop where
  settings : s.machine.config = config
  depth : s.machine.depth ≤ config.maxCallDepth
  frames : s.machine.scope.frames.length ≤ bases.headD 0 + s.machine.depth
  around : Around.Fit config.maxCallDepth s.around bases
  begun : ∀ base ∈ bases, base ≤ Incident.begun past * config.maxCallDepth + 1
  waits {label : String} {w : PendingWait} : s.machine.waits.get? label = some w →
    w.frames.length ≤ (Incident.begun past + 1) * config.maxCallDepth + 1

namespace Moment.Fits

variable {config : Settings} {past : List Incident} {bases : List Nat} {m m' : Machine}
  {k : List Around}

private theorem frames_le (h : Fits config past bases ⟨m, k⟩) :
    m.scope.frames.length ≤ (Incident.begun past + 1) * config.maxCallDepth + 1 := by
  have hframes := Nat.le_trans h.frames (Nat.add_le_add (Around.headD_le h.begun) h.depth)
  rw [Nat.add_one_mul]
  dsimp only at hframes
  omega

private theorem interrupted_le (h : Fits config past bases ⟨m, k⟩) {standing : Standing}
    (hstanding : .interrupted standing ∈ k) :
    standing.frames.length ≤ (Incident.begun past + 1) * config.maxCallDepth + 1 := by
  have hframes := h.around.frames_le h.begun hstanding
  rw [Nat.add_one_mul]
  omega

private theorem captures (h : Fits config past bases ⟨m, k⟩) (hm : m.Captures m') :
    Fits config past bases ⟨m', k⟩ := by
  refine ⟨hm.config.trans h.settings, hm.depth ▸ h.depth, ?_, h.around, h.begun, fun hw => ?_⟩
  · change m'.scope.frames.length ≤ _ + m'.depth
    rw [hm.frames_length, hm.depth]
    exact h.frames
  · rcases hm.waits hw with hw | hlength
    · exact h.waits hw
    · exact hlength ▸ h.frames_le

theorem interrupt (h : Fits config past bases ⟨m, k⟩) (frames : List Frame) (mode : Mode)
    (steps : Nat) (hframes : frames.length ≤ Incident.begun past * config.maxCallDepth + 1)
    {a : Around} (ha : a.Fits config.maxCallDepth (bases.headD 0)) :
    Fits config past (frames.length :: bases) ⟨m.resume ⟨frames, mode, steps, 0⟩, a :: k⟩ where
  settings := h.settings
  depth := Nat.zero_le _
  frames := Nat.le_refl _
  around := .cons ha h.around
  begun := List.forall_mem_cons.mpr ⟨hframes, h.begun⟩
  waits := h.waits

theorem take (h : Fits config past bases ⟨m, k⟩) (label : String) :
    Fits config (.begin label :: past) bases
      ⟨{ m with waits := m.waits.erase label }, k⟩ := by
  have hmore : Incident.begun past * config.maxCallDepth ≤
      (Incident.begun past + 1) * config.maxCallDepth := Nat.mul_le_mul_right _ (Nat.le_succ _)
  refine ⟨h.settings, h.depth, h.frames, h.around, fun base hbase => ?_, fun {other w} hw => ?_⟩
  · exact Nat.le_trans (h.begun base hbase) (Nat.succ_le_succ hmore)
  · have hold := h.waits (PendingWait.get?_of_erase hw)
    change w.frames.length ≤ (Incident.begun past + 1 + 1) * config.maxCallDepth + 1
    rw [Nat.add_one_mul (Incident.begun past + 1)]
    omega

theorem fresh (hconfig : m.config = config) (hdepth : m.depth = 0) (hframes : m.scope.frames = [])
    (hwaits : m.waits = {}) : Fits config past [] ⟨m, []⟩ where
  settings := hconfig
  depth := hdepth ▸ Nat.zero_le _
  frames := by
    change m.scope.frames.length ≤ _
    rw [hframes]
    exact Nat.zero_le _
  around := .nil
  begun := by simp
  waits hw := absurd hw (PendingWait.get?_ne_of_empty hwaits)

end Moment.Fits

theorem Turn.fits {config : Settings} {past : List Incident} {bases : List Nat} {s s' : Moment}
    {incident : Option Incident} (hturn : Turn s incident s') (h : s.Fits config past bases) :
    s'.Fits config (incident.toList ++ past) (s.basesAfter s' bases) := by
  cases hturn with
  | code m k hx =>
    rw [Moment.basesAfter_same]
    exact h.captures (hx.proceeds m).captures
  | @enter m k frame hdepth =>
    rw [Moment.basesAfter_same]
    refine ⟨h.settings, ?_, Nat.succ_le_succ h.frames, h.around, h.begun, h.waits⟩
    exact Nat.lt_of_lt_of_eq hdepth (congrArg Settings.maxCallDepth h.settings)
  | leave m k =>
    rw [Moment.basesAfter_same]
    refine ⟨h.settings, Nat.le_trans (Nat.sub_le _ _) h.depth, ?_, h.around, h.begun, h.waits⟩
    have hframes := h.frames
    change m.scope.pop.2.frames.length ≤ _ + (m.depth - 1)
    rw [m.scope.length_pop]
    dsimp only at hframes
    omega
  | interrupt m k frame =>
    rw [Moment.basesAfter_begin]
    refine h.interrupt frame.toList .immediate 0 ?_ ⟨h.depth, h.frames⟩
    cases frame with
    | none => exact Nat.zero_le _
    | some frame => exact Nat.le_add_left _ _
  | @beginWait m k label w hw =>
    rw [Moment.basesAfter_begin]
    exact (h.take label).interrupt w.frames .immediate 0 (h.waits hw) ⟨h.depth, h.frames⟩
  | resume m k standing =>
    rw [Moment.basesAfter_end]
    obtain ⟨hsettings, -, -, haround, hbegun, hwaits⟩ := h
    cases haround with
    | cons hfits hrest =>
      exact ⟨hsettings, hfits.1, hfits.2, hrest, (List.forall_mem_cons.mp hbegun).2, hwaits⟩
  | call m k stimulus =>
    rw [Moment.basesAfter_same]
    have hkept := h.captures (m.captures_keepEdge (m.edge? stimulus))
    exact ⟨hkept.settings, hkept.depth, hkept.frames, hkept.around, hkept.begun, hkept.waits⟩
  | load m text =>
    have hload := m.declares_load text
    rw [Moment.basesAfter_same]
    cases h.around
    exact .fresh (hload.config.trans h.settings) hload.depth (m.frames_load text) hload.waits
  | reset m =>
    rw [Moment.basesAfter_same]
    cases h.around
    exact .fresh h.settings rfl rfl rfl
  | beginMain frame hframes =>
    rw [Moment.basesAfter_begin]
    exact h.interrupt [frame] .cooperative 0 (Nat.le_add_left _ _) rfl
  | endMain m k frames =>
    rw [Moment.basesAfter_end]
    obtain ⟨hsettings, hdepth, -, haround, hbegun, hwaits⟩ := h
    cases haround with
    | cons hfits hrest =>
      obtain rfl : frames = [] := hfits
      exact ⟨hsettings, hdepth, Nat.zero_le _, hrest, (List.forall_mem_cons.mp hbegun).2, hwaits⟩
  | _ =>
    rw [Moment.basesAfter_same]
    exact ⟨h.settings, h.depth, h.frames, h.around, h.begun, h.waits⟩

theorem Based.fits {config : Settings} {past : List Incident} {bases : List Nat} {s : Moment}
    (h : Based config past bases s) : s.Fits config past bases := by
  induction h with
  | new => exact .fresh rfl rfl rfl rfl
  | turn _ hturn ih => exact hturn.fits ih

private theorem Turn.captures {s s' : Moment} {incident : Option Incident}
    (hturn : Turn s incident s')
    {label : String} {w : PendingWait} (hw : s'.machine.waits.get? label = some w) :
    s.machine.waits.get? label = some w ∨ w.frames.length = s.machine.scope.frames.length := by
  cases hturn with
  | code m k hx => exact (hx.proceeds m).captures.waits hw
  | beginWait k h => exact .inl (PendingWait.get?_of_erase hw)
  | call m k stimulus => exact (m.captures_keepEdge _).waits hw
  | load m text => exact absurd hw (PendingWait.get?_ne_of_empty (m.declares_load text).waits)
  | reset m => exact absurd hw (PendingWait.get?_ne_of_empty rfl)
  | _ => exact .inl hw

/-! ### Bodies that are begun -/

def Machine.Reckons (m m' : Machine) : Prop :=
  m'.waits.size + m.schedule.nextId ≤ m.waits.size + m'.schedule.nextId

namespace Machine

private theorem reckons_refl (m : Machine) : m.Reckons m :=
  Nat.le_refl _

theorem Reckons.trans {a b c : Machine} (h : a.Reckons b) (h' : b.Reckons c) : a.Reckons c := by
  unfold Reckons at h h' ⊢
  omega

private theorem Does.reckons {m m' : Machine} {acts : List Act} (h : m.Does acts m') :
    m.Reckons m' := by
  cases h with
  | still h =>
    unfold Reckons
    rw [h.waits, h.schedule]
  | plan delay h => exact Nat.add_le_add_left (Nat.le_succ _) _
  | arm delay label body h =>
    have hsize : (m.waits.insert label ⟨m.schedule.nextId, body, m.scope.frames⟩).size ≤
        m.waits.size + 1 := Std.HashMap.size_insert_le
    change (m.waits.insert label _).size + m.schedule.nextId ≤ _ + (m.schedule.nextId + 1)
    omega
  | @cancel label w h =>
    unfold Reckons
    rw [after_cancelWait h]
    exact Nat.add_le_add_right Std.HashMap.size_erase_le _
  | cancelAll =>
    unfold Reckons
    rw [after_cancelAllWaits, Schedule.nextId_cancelAll]
    exact Nat.add_le_add_right (Nat.zero_le _) _
  | @retime label w delay h =>
    unfold Reckons
    rw [after_retimeWait h, Schedule.retime_nextId]
  | connect h => exact Nat.add_le_add_left (Nat.le_succ _) _
  | ask h => exact Nat.add_le_add_left (Nat.le_succ _) _
  | _ => exact Nat.le_refl _

private theorem Proceeds.reckons {m m' : Machine} (h : m.Proceeds m') : m.Reckons m' := by
  obtain ⟨acts, hchain⟩ := h
  exact hchain.fold reckons_refl Reckons.trans Does.reckons

private theorem reckons_keepEdge (m : Machine) (edge : Option Edge) :
    m.Reckons (m.keepEdge edge) := by
  cases edge with
  | none => exact m.reckons_refl
  | some e =>
    obtain ⟨signals, indices, last, hkept⟩ := m.keepInput_eq e.signal e.new
    rw [keepEdge, hkept]
    exact Nat.le_refl _

end Machine

private theorem Turn.reckoned {s s' : Moment} {incident : Option Incident} {past : List Incident}
    (hturn : Turn s incident s')
    (h : Incident.begun past + s.machine.waits.size < s.machine.schedule.nextId) :
    Incident.begun (incident.toList ++ past) + s'.machine.waits.size <
      s'.machine.schedule.nextId := by
  have hkept {m m' : Machine} (h : Incident.begun past + m.waits.size < m.schedule.nextId)
      (hreckons : m.Reckons m') : Incident.begun past + m'.waits.size < m'.schedule.nextId := by
    unfold Machine.Reckons at hreckons
    omega
  cases hturn with
  | code m k hx => exact hkept h (hx.proceeds m).reckons
  | @beginWait m k label w hw =>
    have hmem : label ∈ m.waits := Std.HashMap.mem_iff_isSome_getElem?.mpr (by
      rw [← Std.HashMap.get?_eq_getElem?, hw]
      rfl)
    have hsize : (m.waits.erase label).size = m.waits.size - 1 := by
      rw [Std.HashMap.size_erase, if_pos hmem]
    have hsome : m.waits.size ≠ 0 := by
      have hempty := Std.HashMap.isEmpty_eq_false_iff_exists_mem.mpr ⟨label, hmem⟩
      rwa [Std.HashMap.isEmpty_eq_size_eq_zero, beq_eq_false_iff_ne] at hempty
    change Incident.begun past + 1 + (m.waits.erase label).size < m.schedule.nextId
    dsimp only at h
    omega
  | schedule k hchange => exact Nat.lt_of_lt_of_le h hchange.nextId_le
  | call m k stimulus => exact hkept h (m.reckons_keepEdge _)
  | load m text =>
    have hload := m.declares_load text
    change 0 + (m.load text).2.waits.size < (m.load text).2.schedule.nextId
    rw [hload.waits, hload.schedule]
    exact Nat.lt_of_le_of_lt (Nat.zero_le _) h
  | reset m => exact Nat.lt_of_le_of_lt (Nat.zero_le _) h
  | _ => exact h

private theorem Chronicle.reckoned {config : Settings} {past : List Incident} {s : Moment}
    (h : Chronicle ⟨Machine.new config, []⟩ past s) :
    Incident.begun past + s.machine.waits.size < s.machine.schedule.nextId := by
  induction h with
  | nil => exact Nat.zero_lt_one
  | turn _ hturn ih => exact hturn.reckoned ih

/--
Whatever a host does, with whatever program, and at every moment on the way: code has at most as
many frames as it began with and as calls can be nested; a wait that is armed captures the frames of
the code that arms it; and the code running now, the code that was interrupted and the waits have at
most as many frames as can be added by calls nested as deep as allowed in a handler or the entry
function and in each body of a wait begun since the program was loaded. Of the tasks that are run,
just those that find the wait they were planned for begin a body, one each; and no more bodies are
begun than works were planned.
-/
theorem frames_are_bounded (config : Settings) :
    let origin : Moment := ⟨Machine.new config, []⟩
    (∀ actions : List HostAction,
      ∃ past, Chronicle origin past ⟨(Machine.new config).afterActions actions, []⟩) ∧
    ∀ (past : List Incident) (s : Moment), Chronicle origin past s →
      let most := (Incident.begun past + 1) * config.maxCallDepth + 1
      (∀ task : Task, Chronicle origin (s.machine.recordOf task ++ past)
        ⟨s.machine.runTask task, s.around⟩) ∧
      Incident.begun past < s.machine.schedule.nextId ∧
      (∃ bases, Based config past bases s) ∧
      (∀ bases, Based config past bases s →
        s.machine.scope.frames.length ≤ bases.headD 0 + config.maxCallDepth) ∧
      (∀ (incident : Option Incident) (s' : Moment), Turn s incident s' →
        ∀ (label : String) (w : PendingWait), s'.machine.waits.get? label = some w →
          s.machine.waits.get? label = some w ∨
            w.frames.length = s.machine.scope.frames.length) ∧
      s.machine.scope.frames.length ≤ most ∧
      (∀ standing, .interrupted standing ∈ s.around → standing.frames.length ≤ most) ∧
      ∀ (label : String) (w : PendingWait), s.machine.waits.get? label = some w →
        w.frames.length ≤ most := by
  intro origin
  refine ⟨Machine.chronicle_afterActions config, fun past s hpast => ?_⟩
  obtain ⟨bases, hbased⟩ := hpast.based
  have hfits := hbased.fits
  have htyped := hpast.signals_typed SignalTable.typed_empty
  refine ⟨fun task => hpast.trans (Machine.chronicle_runTask htyped task s.around),
    Nat.lt_of_le_of_lt (Nat.le_add_right _ _) hpast.reckoned, ⟨bases, hbased⟩,
    fun bases' hbased' => ?_, fun _ _ hturn _ _ hw => hturn.captures hw, hfits.frames_le,
    fun _ hstanding => hfits.interrupted_le hstanding, fun _ _ hw => hfits.waits hw⟩
  exact Nat.le_trans hbased'.fits.frames (Nat.add_le_add_left hbased'.fits.depth _)

/-- With calls nested no deeper than one, a handler in a call has two frames and puts off work with
them; the body of this wait in a call has three. There can be no more. -/
theorem captured_frames_are_bounded :
    let config : Settings := { maxCallDepth := 1 }
    let called := ((Machine.new config).isolate [{}]).enter {}
    let armed := called.arm 0 "X" []
    let inner := ({ armed with waits := armed.waits.erase "X" }.isolate armed.scope.frames).enter {}
    Chronicle ⟨Machine.new config, []⟩ []
      ⟨armed, [.interrupted (Machine.new config).standing]⟩ ∧
    (∃ w, armed.waits.get? "X" = some w ∧ w.frames.length = 2 ∧ w.frames.length ≤ (0 + 1) * 1 + 1) ∧
    Chronicle ⟨Machine.new config, []⟩ [.begin "X"]
      ⟨inner, [.interrupted armed.standing, .interrupted (Machine.new config).standing]⟩ ∧
    inner.scope.frames.length = 3 ∧ inner.scope.frames.length ≤ (1 + 1) * 1 + 1 := by
  intro config called armed inner
  have hfree : called.waits.get? "X" = none := Std.HashMap.getElem?_empty
  have hwait : armed.waits.get? "X" = some ⟨called.schedule.nextId, [], called.scope.frames⟩ :=
    Std.HashMap.getElem?_insert_self
  have harmed : called.after (Run.scheduleWait 0 (some "X") []) = armed :=
    Machine.after_ok (Run.scheduleWait_free rfl upper_renewal.1 hfree 0 [])
  have hcalled : Chronicle ⟨Machine.new config, []⟩ []
      ⟨called, [.interrupted (Machine.new config).standing]⟩ :=
    (Chronicle.nil.turn (.interrupt _ [] (some {}))).turn (.enter _ {} (by decide))
  have hpast := hcalled.turn (.code called _ (.scheduleWait 0 (some "X") []))
  rw [harmed] at hpast
  have hpast' := (hpast.turn (.beginWait _ hwait)).turn (.enter _ {} (by decide))
  obtain ⟨-, hbounded⟩ := frames_are_bounded config
  obtain ⟨-, -, -, -, -, -, -, hwaits⟩ := hbounded _ _ hpast
  obtain ⟨-, -, -, -, -, hframes, -⟩ := hbounded _ _ hpast'
  exact ⟨hpast, ⟨_, hwait, rfl, hwaits _ _ hwait⟩, hpast', rfl, hframes⟩

private theorem Machine.chronicle_rounds (config : Settings) (actions : List HostAction)
    (deadline n : Nat) :
    ∃ past, Chronicle ⟨new config, []⟩ past
      ⟨((new config).afterActions actions).rounds deadline n, []⟩ := by
  obtain ⟨past, hpast⟩ := chronicle_afterActions config actions
  have hrounds : ((new config).afterActions actions).Goes
      (((new config).afterActions actions).rounds deadline n) := by
    induction n with
    | zero => exact turns_refl _
    | succ n ih => exact ih.trans (goes_passing.pumped.pumpRound deadline _)
  obtain ⟨later, hlater, -⟩ := hrounds (hpast.signals_typed SignalTable.typed_empty) []
  exact ⟨_, hpast.trans hlater⟩

/-- With calls nested no deeper than one, pending waits do not have two frames at most: each round
of passing time begins the body of a wait and adds one. -/
theorem renewal_outgrows_call_depth :
    let config : Settings := { maxCallDepth := 1 }
    let origin : Moment := ⟨Machine.new config, []⟩
    let m := (Machine.new config).afterActions [.load renewalText, .setDigital "a" 1]
    (∀ n, (∃ past, Chronicle origin past ⟨m.rounds 0 n, []⟩) ∧
      ∃ w, (m.rounds 0 n).waits.get? "X" = some w ∧
        w.frames.length = config.maxCallDepth + 1 + n) ∧
    ¬ ∀ (past : List Incident) (s : Moment), Chronicle origin past s →
      ∀ (label : String) (w : PendingWait), s.machine.waits.get? label = some w →
        w.frames.length ≤ config.maxCallDepth + 1 := by
  intro config origin m
  obtain ⟨q, hloaded⟩ := Machine.loaded_load (Machine.new config)
  obtain ⟨hrenewing, hnow⟩ := hloaded.push (by decide) (by decide)
  have hgrows (n : Nat) : (∃ past, Chronicle origin past ⟨m.rounds 0 n, []⟩) ∧
      ∃ w, (m.rounds 0 n).waits.get? "X" = some w ∧
        w.frames.length = config.maxCallDepth + 1 + n := by
    obtain ⟨-, -, hrounds⟩ := hrenewing.rounds (Nat.le_of_eq hnow) n
    obtain ⟨timer, hwait, -⟩ := hrounds.timer
    refine ⟨Machine.chronicle_rounds config _ 0 n, _, hwait, ?_⟩
    rw [List.length_append, List.length_replicate]
    exact Nat.add_comm n 2
  refine ⟨hgrows, fun hbounded => ?_⟩
  obtain ⟨⟨past, hpast⟩, w, hwait, hlength⟩ := hgrows 1
  have hmost := hbounded past _ hpast "X" w hwait
  omega

end ControlLogic
