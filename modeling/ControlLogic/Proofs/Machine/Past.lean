import ControlLogic.Machine.Task
import ControlLogic.Proofs.Machine.Passage
import ControlLogic.Proofs.Machine.Waits
import ControlLogic.Proofs.Schedule.Renumbering

/-!
Machines with a past. What a machine has behind it shows in the numbers of its timers, in what the
host was told so far and in how often files and sockets have changed. All that runs on a machine,
and the passing of time with it, takes no heed of that: it does the same on two machines that are
alike but for the past of one.
-/

set_option autoImplicit false
set_option relaxedAutoImplicit false

namespace ControlLogic

/-- What a machine has behind it: the numbers given to timers, what the host was told, and how often
files and sockets have changed. -/
structure Past where
  timers : Nat
  log : Array Event
  files : Nat
  network : Nat

def PendingWait.raise (d : Nat) (w : PendingWait) : PendingWait :=
  { w with timer := d + w.timer }

def PendingWait.Raised (d : Nat) (w₀ w : Std.HashMap String PendingWait) : Prop :=
  ∀ label : String, w.get? label = (w₀.get? label).map (raise d)

namespace PendingWait.Raised

variable {d : Nat} {w₀ w : Std.HashMap String PendingWait}

theorem insert (h : Raised d w₀ w) (name : String) (wait : PendingWait) :
    Raised d (w₀.insert name wait) (w.insert name (wait.raise d)) := by
  intro label
  simp only [Std.HashMap.get?_eq_getElem?, Std.HashMap.getElem?_insert]
  split
  · rfl
  · exact h label

theorem erase (h : Raised d w₀ w) (name : String) : Raised d (w₀.erase name) (w.erase name) := by
  intro label
  simp only [Std.HashMap.get?_eq_getElem?, Std.HashMap.getElem?_erase]
  split
  · rfl
  · exact h label

theorem empty : Raised d {} {} := by
  intro label
  simp only [Std.HashMap.get?_eq_getElem?, Std.HashMap.getElem?_empty, Option.map_none]

private theorem mem_timers (h : Raised d w₀ w) {id : Nat} :
    id ∈ w.toList.map (·.2.timer) ↔ ∃ id₀ ∈ w₀.toList.map (·.2.timer), d + id₀ = id := by
  constructor
  · intro hmem
    obtain ⟨⟨label, wait⟩, hwait, rfl⟩ := List.mem_map.mp hmem
    have hget := (h label).symm.trans (Std.HashMap.mem_toList_iff_getElem?_eq_some.mp hwait)
    obtain ⟨wait₀, hget₀, rfl⟩ := Option.map_eq_some_iff.mp hget
    have hwait₀ := Std.HashMap.mem_toList_iff_getElem?_eq_some.mpr hget₀
    exact ⟨wait₀.timer, List.mem_map.mpr ⟨_, hwait₀, rfl⟩, rfl⟩
  · rintro ⟨id₀, hmem, rfl⟩
    obtain ⟨⟨label, wait₀⟩, hwait₀, rfl⟩ := List.mem_map.mp hmem
    have hget₀ : w₀.get? label = some wait₀ :=
      Std.HashMap.mem_toList_iff_getElem?_eq_some.mp hwait₀
    have hget : w.get? label = some (wait₀.raise d) := by rw [h, hget₀, Option.map_some]
    exact List.mem_map.mpr ⟨_, Std.HashMap.mem_toList_iff_getElem?_eq_some.mpr hget, rfl⟩

end PendingWait.Raised

theorem Schedule.Raised.cancelAll {τ : Type} {d : Nat} {s₀ s : Schedule τ}
    {w₀ w : Std.HashMap String PendingWait} (h : Raised d s₀ s)
    (hwaits : PendingWait.Raised d w₀ w) :
    Raised d (w₀.toList.foldl (fun s entry => (s.cancel entry.2.timer).2) s₀)
      (w.toList.foldl (fun s entry => (s.cancel entry.2.timer).2) s) := by
  obtain ⟨-, hnow₀, hinbox₀⟩ := s₀.changes_cancel w₀.toList
  obtain ⟨-, hnow, hinbox⟩ := s.changes_cancel w.toList
  constructor
  · rw [hnow, hnow₀, h.now]
  · rw [hinbox, hinbox₀, h.inbox]
  · rw [nextId_cancelAll, nextId_cancelAll, h.nextId]
  · intro id
    have hmem : d + id ∈ w.toList.map (·.2.timer) ↔ id ∈ w₀.toList.map (·.2.timer) := by
      simp only [hwaits.mem_timers, Nat.add_left_cancel_iff, exists_eq_right]
    rw [getElem?_cancelAll, getElem?_cancelAll, h.tasks]
    simp only [hmem]
  · intro id hid
    rw [getElem?_cancelAll, h.below hid, ite_self]

namespace Machine

/-- A machine with a past, with planned work, waits and a wish to stop of its own. -/
def withPast (p : Past) (s : Schedule Task) (w : Std.HashMap String PendingWait) (wish : Bool)
    (m : Machine) : Machine :=
  { m with
    schedule := s
    waits := w
    abort := wish
    log := p.log ++ m.log
    files := m.files.recount p.files
    network := m.network.recount p.network }

/-- The planned work and the waits are those of a machine, under numbers that go on from its past.
The wish to stop is the same if it is `sure` to be; else no code cooperates, so nothing hangs on
it. -/
structure Beside (p : Past) (sure : Bool) (s : Schedule Task)
    (w : Std.HashMap String PendingWait) (wish : Bool) (m : Machine) : Prop where
  schedule : m.schedule.Raised p.timers s
  waits : PendingWait.Raised p.timers m.waits w
  abort (h : sure = true) : wish = m.abort
  mode (h : sure = false) : m.mode = .immediate

/-- The second machine is the first one with a past. -/
inductive Mirrors (p : Past) (sure : Bool) : Machine → Machine → Prop where
  | mk {m : Machine} {s : Schedule Task} {w : Std.HashMap String PendingWait} {wish : Bool}
    (h : Beside p sure s w wish m) : Mirrors p sure m (m.withPast p s w wish)

/-- A change of a machine that leaves planned work, waits and the wish to stop alone, and that is
the same for a machine with a past. -/
structure Steady (f : Machine → Machine) : Prop where
  withPast (p : Past) (s : Schedule Task) (w : Std.HashMap String PendingWait) (wish : Bool)
    (m : Machine) : f (m.withPast p s w wish) = (f m).withPast p s w wish
  schedule (m : Machine) : (f m).schedule = m.schedule
  waits (m : Machine) : (f m).waits = m.waits
  abort (m : Machine) : (f m).abort = m.abort
  mode (m : Machine) : (f m).mode = m.mode

/-- A change of a machine that is the same for a machine with a past. -/
def Heedless (f : Machine → Machine) : Prop :=
  ∀ ⦃p : Past⦄ ⦃sure : Bool⦄ ⦃m₀ m : Machine⦄, Mirrors p sure m₀ m →
    Mirrors p sure (f m₀) (f m)

section

variable {p : Past} {sure : Bool} {m₀ m : Machine}

theorem Beside.mustAbort {s : Schedule Task} {w : Std.HashMap String PendingWait} {wish : Bool}
    (h : Beside p sure s w wish m) : (m.withPast p s w wish).mustAbort = m.mustAbort := by
  unfold Machine.mustAbort
  cases sure with
  | true =>
    have habort : (m.withPast p s w wish).abort = m.abort := h.abort rfl
    rw [habort]
    rfl
  | false =>
    have hmode : (m.withPast p s w wish).mode = .immediate := h.mode rfl
    rw [h.mode rfl, hmode]
    rfl

theorem Mirrors.visible (h : Mirrors p sure m₀ m) : m.visible = m₀.visible := by
  cases h with
  | @mk s w wish h =>
    unfold Machine.visible now
    have hnow : (m₀.withPast p s w wish).schedule.now = m₀.schedule.now := h.schedule.now
    have hinbox : (m₀.withPast p s w wish).schedule.inbox = m₀.schedule.inbox := h.schedule.inbox
    rw [h.mustAbort, hnow, hinbox]
    rfl

theorem Mirrors.look {α : Type} (h : Mirrors p sure m₀ m) (q : Machine → α)
    (hq : ∀ m, q m = q m.visible) : q m = q m₀ :=
  calc
    q m = q m.visible := hq m
    _ = q m₀.visible := by rw [h.visible]
    _ = q m₀ := (hq m₀).symm

theorem Mirrors.mode (h : Mirrors p sure m₀ m) (hsure : sure = false) : m₀.mode = .immediate := by
  cases h with
  | mk h => exact h.mode hsure

theorem Mirrors.resume (h : Mirrors p sure m₀ m) {standing : Standing}
    (hmode : sure = false → standing.mode = .immediate) :
    Mirrors p sure (m₀.resume standing) (m.resume standing) := by
  cases h with
  | mk h => exact .mk ⟨h.schedule, h.waits, h.abort, hmode⟩

theorem Beside.of_eq {s : Schedule Task} {w : Std.HashMap String PendingWait} {wish : Bool}
    (h : Beside p sure s w wish m₀) (hschedule : m.schedule = m₀.schedule)
    (hwaits : m.waits = m₀.waits) (habort : m.abort = m₀.abort) (hmode : m.mode = m₀.mode) :
    Beside p sure s w wish m :=
  ⟨hschedule ▸ h.schedule, hwaits ▸ h.waits, habort ▸ h.abort, hmode ▸ h.mode⟩

theorem Steady.heedless {f : Machine → Machine} (hf : Steady f) : Heedless f := by
  rintro p sure m₀ m ⟨h⟩
  rw [hf.withPast]
  exact .mk (h.of_eq (hf.schedule _) (hf.waits _) (hf.abort _) (hf.mode _))

end

theorem Steady.comp {f g : Machine → Machine} (hg : Steady g) (hf : Steady f) :
    Steady fun m => g (f m) where
  withPast p s w wish m := by rw [hf.withPast, hg.withPast]
  schedule m := (hg.schedule _).trans (hf.schedule m)
  waits m := (hg.waits _).trans (hf.waits m)
  abort m := (hg.abort _).trans (hf.abort m)
  mode m := (hg.mode _).trans (hf.mode m)

private theorem steady_id : Steady fun m => m :=
  ⟨fun _ _ _ _ _ => rfl, fun _ => rfl, fun _ => rfl, fun _ => rfl, fun _ => rfl⟩

theorem Steady.foldl {α : Type} {f : Machine → α → Machine} (hf : ∀ a, Steady (f · a))
    (as : List α) : Steady fun m => as.foldl f m := by
  induction as with
  | nil => exact steady_id
  | cons a as ih => exact ih.comp (hf a)

theorem steady_tell (event : Event) : Steady (·.tell event) where
  withPast p s w wish m := by
    unfold tell Machine.withPast
    rw [Array.append_push]
  schedule _ := rfl
  waits _ := rfl
  abort _ := rfl
  mode _ := rfl

private theorem steady_trackIndex (key : SlotKey) : Steady (·.trackIndex key) := by
  unfold trackIndex
  split
  · exact ⟨fun _ _ _ _ _ => rfl, fun _ => rfl, fun _ => rfl, fun _ => rfl, fun _ => rfl⟩
  · exact steady_id

theorem steady_keepInput (s : Signal) (v : Value) : Steady (·.keepInput s v) := by
  have hstore : Steady fun m => { m with signals := m.signals.store s v } :=
    ⟨fun _ _ _ _ _ => rfl, fun _ => rfl, fun _ => rfl, fun _ => rfl, fun _ => rfl⟩
  unfold keepInput
  dsimp only
  split
  · exact (steady_trackIndex _).comp hstore
  · exact hstore

private theorem steady_writeTo (key : SlotKey) (v : Value) (target : Target) :
    Steady (·.writeTo key v target) := by
  cases target with
  | slot slot =>
    have hset : Steady fun m => { m with scope := m.scope.set key (slot.write v) } :=
      ⟨fun _ _ _ _ _ => rfl, fun _ => rfl, fun _ => rfl, fun _ => rfl, fun _ => rfl⟩
    exact (steady_trackIndex key).comp hset
  | signal s =>
    have hstore : Steady fun m => { m with signals := m.signals.store s (s.coerce v) } :=
      ⟨fun _ _ _ _ _ => rfl, fun _ => rfl, fun _ => rfl, fun _ => rfl, fun _ => rfl⟩
    unfold writeTo writeSignal
    dsimp only
    split
    · exact (steady_trackIndex key).comp hstore
    · exact (steady_tell _).comp ((steady_trackIndex key).comp hstore)

private theorem steady_copyWhole (frame : Frame) (parameter owner : String) :
    Steady (·.copyWhole frame parameter owner) := by
  unfold copyWhole
  refine Steady.foldl (fun entry => ?_) _
  obtain ⟨key, slot⟩ := entry
  constructor
  · intro p s w wish m
    have hscope : (m.withPast p s w wish).scope = m.scope := rfl
    dsimp only
    rw [hscope]
    cases m.scope.get? (key.rebase owner) <;> rfl
  all_goals
    intro m
    dsimp only
    cases m.scope.get? (key.rebase owner) <;> rfl

private theorem steady_enter (frame : Frame) : Steady (·.enter frame) :=
  ⟨fun _ _ _ _ _ => rfl, fun _ => rfl, fun _ => rfl, fun _ => rfl, fun _ => rfl⟩

private theorem steady_leave : Steady leave :=
  ⟨fun _ _ _ _ _ => rfl, fun _ => rfl, fun _ => rfl, fun _ => rfl, fun _ => rfl⟩

end Machine

namespace Run

open Machine (Mirrors Steady)

/-- Two runs that end in the same way, on related machines. -/
inductive EndsAlike (T : Machine → Machine → Prop) {α : Type} :
    EStateM.Result Unwind Machine α → EStateM.Result Unwind Machine α → Prop where
  | ok (a : α) {m₀ m : Machine} (h : T m₀ m) : EndsAlike T (.ok a m₀) (.ok a m)
  | error (u : Unwind) {m₀ m : Machine} (h : T m₀ m) : EndsAlike T (.error u m₀) (.error u m)

def Heedless {α : Type} (x : Run α) : Prop :=
  ∀ ⦃p : Past⦄ ⦃sure : Bool⦄ ⦃m₀ m : Machine⦄, Mirrors p sure m₀ m →
    EndsAlike (Mirrors p sure) (x m₀) (x m)

theorem heedless_pure {α : Type} (a : α) : Heedless (pure a : Run α) :=
  fun _ _ _ _ h => .ok a h

private theorem heedless_throw {α : Type} (u : Unwind) : Heedless (throw u : Run α) :=
  fun _ _ _ _ h => .error u h

theorem EndsAlike.cases {T : Machine → Machine → Prop} {α : Type}
    {r₀ r : EStateM.Result Unwind Machine α} (h : EndsAlike T r₀ r) :
    (∃ a m₀ m, r₀ = .ok a m₀ ∧ r = .ok a m ∧ T m₀ m) ∨
      ∃ u m₀ m, r₀ = .error u m₀ ∧ r = .error u m ∧ T m₀ m := by
  cases h with
  | ok a h => exact .inl ⟨a, _, _, rfl, rfl, h⟩
  | error u h => exact .inr ⟨u, _, _, rfl, rfl, h⟩

theorem Heedless.bind {α β : Type} {x : Run α} {f : α → Run β} (hx : Heedless x)
    (hf : ∀ a, Heedless (f a)) : Heedless (x >>= f) := by
  intro p sure m₀ m h
  obtain ⟨a, _, _, hrun₀, hrun, h'⟩ | ⟨u, _, _, hrun₀, hrun, h'⟩ := (hx h).cases
  · rw [bind_ok hrun₀, bind_ok hrun]
    exact hf a h'
  · rw [bind_error hrun₀, bind_error hrun]
    exact .error u h'

theorem heedless_inspect {α : Type} {f : Machine → Run α} (hf : ∀ m, f m = f m.visible)
    (h : ∀ m, Heedless (f m)) : Heedless (get >>= f) := by
  intro p sure m₀ m hm
  rw [get_bind, get_bind, hm.look f hf]
  exact h m₀ hm

theorem heedless_modify {f : Machine → Machine} (hf : Machine.Heedless f) :
    Heedless (modify f) :=
  fun _ _ _ _ h => .ok () (hf h)

theorem heedless_modifyGet {α : Type} {f : Machine → α × Machine}
    (hanswer : ∀ ⦃p : Past⦄ ⦃sure : Bool⦄ ⦃m₀ m : Machine⦄, Mirrors p sure m₀ m →
      (f m).1 = (f m₀).1) (hf : Machine.Heedless fun m => (f m).2) :
    Heedless (modifyGet f) := by
  intro p sure m₀ m h
  change EndsAlike _ (.ok (f m₀).1 (f m₀).2) (.ok (f m).1 (f m).2)
  rw [hanswer h]
  exact .ok _ (hf h)

theorem heedless_tell (event : Event) : Heedless (tell event) :=
  heedless_modify (Machine.steady_tell event).heedless

theorem heedless_checkAbort : Heedless checkAbort := by
  refine heedless_inspect (fun m => ?_) fun m => ?_
  · rw [m.mustAbort_visible]
  split
  · exact heedless_throw _
  · exact heedless_pure ()

private theorem heedless_tick : Heedless tick := by
  intro p sure m₀ m h
  have hstep : Steady fun m => { m with steps := m.steps + 1 } :=
    ⟨fun _ _ _ _ _ => rfl, fun _ => rfl, fun _ => rfl, fun _ => rfl, fun _ => rfl⟩
  have h' := hstep.heedless h
  have hlimit := h'.look (fun m => m.config.stepLimit < m.steps) fun _ => rfl
  have habort := h'.look Machine.mustAbort fun m => m.mustAbort_visible.symm
  unfold tick
  dsimp only at hlimit ⊢
  simp only [hlimit, habort]
  split
  · exact .error _ h'
  · split
    · exact .error _ h'
    · exact .ok _ h'

private theorem heedless_tryWrite (key : SlotKey) (v : Value) : Heedless (tryWrite key v) := by
  intro p sure m₀ m h
  unfold tryWrite
  rw [h.look (·.target key) fun _ => rfl]
  split
  next target _ => exact .ok _ ((Machine.steady_writeTo key v target).heedless h)
  next => exact .ok _ h

private theorem heedless_plan (delay : Nat) (task : Task) : Heedless (plan delay task) := by
  refine heedless_checkAbort.bind fun _ => heedless_modify ?_
  rintro p sure m₀ m ⟨h⟩
  exact .mk ⟨h.schedule.plan delay task, h.waits, h.abort, h.mode⟩

private theorem heedless_waitLabel (label : Option String) : Heedless (waitLabel label) := by
  unfold waitLabel
  split
  · exact heedless_pure _
  · have hcount : Steady fun m => { m with anonymousWaits := m.anonymousWaits + 1 } :=
      ⟨fun _ _ _ _ _ => rfl, fun _ => rfl, fun _ => rfl, fun _ => rfl, fun _ => rfl⟩
    refine heedless_modifyGet (fun p sure m₀ m h => ?_) hcount.heedless
    dsimp only
    rw [h.look (·.anonymousWaits) fun _ => rfl]

private theorem heedless_scheduleWait (delay : Nat) (label : Option String) (body : List Stmt) :
    Heedless (scheduleWait delay label body) := by
  refine heedless_checkAbort.bind fun _ => (heedless_waitLabel label).bind fun name => ?_
  rintro p sure m₀ _ @⟨s, w, wish, h⟩
  have hpending : (w.get? name).any (fun wait => s.isPending wait.timer) =
      (m₀.waits.get? name).any fun wait => m₀.schedule.isPending wait.timer := by
    rw [h.waits]
    cases m₀.waits.get? name with
    | none => rfl
    | some wait => exact h.schedule.isPending wait.timer
  rw [get_bind, get_bind]
  change EndsAlike _ _ ((if (w.get? name).any fun wait => s.isPending wait.timer then _
    else _ : Run Unit) _)
  rw [hpending]
  split
  · exact heedless_tell _ (.mk h)
  · refine .ok () (.mk ⟨h.schedule.plan delay _, ?_, h.abort, h.mode⟩)
    have hplanned := h.waits.insert name ⟨m₀.schedule.nextId, body, m₀.scope.frames⟩
    rwa [PendingWait.raise, ← h.schedule.nextId] at hplanned

private theorem heedless_cancelWait (name : String) : Heedless (cancelWait name) := by
  refine heedless_modify ?_
  rintro p sure m₀ _ @⟨s, w, wish, h⟩
  have hwait : (m₀.withPast p s w wish).waits.get? name = _ := h.waits name
  dsimp only
  rw [hwait]
  cases m₀.waits.get? name with
  | none => exact .mk h
  | some wait => exact .mk ⟨h.schedule.cancel wait.timer, h.waits.erase name, h.abort, h.mode⟩

private theorem heedless_retimeWait (delay : Nat) (name : String) :
    Heedless (retimeWait delay name) := by
  refine heedless_modify ?_
  rintro p sure m₀ _ @⟨s, w, wish, h⟩
  have hwait : (m₀.withPast p s w wish).waits.get? name = _ := h.waits name
  dsimp only
  rw [hwait]
  cases m₀.waits.get? name with
  | none => exact .mk h
  | some wait => exact .mk ⟨h.schedule.retime wait.timer delay, h.waits, h.abort, h.mode⟩

private theorem heedless_cancelAllWaits : Heedless cancelAllWaits := by
  refine heedless_modify ?_
  rintro p sure m₀ _ @⟨s, w, wish, h⟩
  have hdropped : (m₀.waits.toList.foldl (fun s entry => (s.cancel entry.2.timer).2)
      m₀.schedule).Raised p.timers (w.toList.foldl (fun s entry => (s.cancel entry.2.timer).2) s) :=
    h.schedule.cancelAll h.waits
  refine .mk ⟨?_, .empty, h.abort, h.mode⟩
  dsimp only
  rw [Std.HashMap.fold_eq_foldl_toList, Std.HashMap.fold_eq_foldl_toList]
  exact hdropped

private theorem heedless_withFiles {α : Type} {f : FileSystem → α × FileSystem}
    (hf : FileSystem.Counts f) : Heedless (withFiles f) := by
  refine heedless_modifyGet ?_ ?_
  · rintro p sure m₀ _ @⟨s, w, wish, h⟩
    have hanswer : (f (m₀.files.recount p.files)).1 = (f m₀.files).1 := by rw [hf]
    exact hanswer
  · rintro p sure m₀ _ @⟨s, w, wish, h⟩
    have hfiles := congrArg Prod.snd (hf p.files m₀.files)
    dsimp only [Machine.withPast] at hfiles ⊢
    rw [hfiles]
    exact .mk ⟨h.schedule, h.waits, h.abort, h.mode⟩

private theorem heedless_withNetwork {α : Type} {f : Network → α × Network}
    (hf : Network.Counts f) :
    Heedless (withNetwork f) := by
  refine heedless_modifyGet ?_ ?_
  · rintro p sure m₀ _ @⟨s, w, wish, h⟩
    have hanswer : (f (m₀.network.recount p.network)).1 = (f m₀.network).1 := by rw [hf]
    exact hanswer
  · rintro p sure m₀ _ @⟨s, w, wish, h⟩
    have hnetwork := congrArg Prod.snd (hf p.network m₀.network)
    dsimp only [Machine.withPast] at hnetwork ⊢
    rw [hnetwork]
    exact .mk ⟨h.schedule, h.waits, h.abort, h.mode⟩

private theorem heedless_startConnect (id : Int) (address : String) (port : Int) :
    Heedless (startConnect id address port) := by
  refine (heedless_withNetwork (Network.counts_connect id address port)).bind fun status => ?_
  split
  · exact heedless_inspect (fun _ => rfl) fun m =>
      (heedless_plan _ _).bind fun _ => heedless_pure _
  · exact heedless_pure _

private theorem heedless_sendText (id : Int) (data : String) : Heedless (sendText id data) := by
  refine (heedless_withNetwork fun n net => ?_).bind fun sent => ?_
  · rw [Network.send_recount]
  · split
    split
    · exact heedless_inspect (fun _ => rfl) fun m =>
        (heedless_plan _ _).bind fun _ => heedless_pure _
    · exact heedless_pure _

theorem Elementary.heedless {α : Type} {x : Run α} (h : Elementary x) : Heedless x := by
  cases h with
  | tell event => exact heedless_tell event
  | tick => exact heedless_tick
  | tryWrite key v => exact heedless_tryWrite key v
  | copyWhole frame parameter owner =>
    exact heedless_modify (Machine.steady_copyWhole frame parameter owner).heedless
  | plan delay h => exact heedless_plan delay _
  | scheduleWait delay label body => exact heedless_scheduleWait delay label body
  | cancelWait name => exact heedless_cancelWait name
  | cancelAllWaits => exact heedless_cancelAllWaits
  | retimeWait delay name => exact heedless_retimeWait delay name
  | holdSection name =>
    have hheld : Steady fun m => { m with critical := m.critical.insert name } :=
      ⟨fun _ _ _ _ _ => rfl, fun _ => rfl, fun _ => rfl, fun _ => rfl, fun _ => rfl⟩
    exact heedless_modify hheld.heedless
  | freeSection name =>
    have hfreed : Steady fun m => { m with critical := m.critical.erase name } :=
      ⟨fun _ _ _ _ _ => rfl, fun _ => rfl, fun _ => rfl, fun _ => rfl, fun _ => rfl⟩
    exact heedless_modify hfreed.heedless
  | withFiles h => exact heedless_withFiles h
  | setGather gather =>
    have hkept : Steady fun m => { m with gather := gather } :=
      ⟨fun _ _ _ _ _ => rfl, fun _ => rfl, fun _ => rfl, fun _ => rfl, fun _ => rfl⟩
    exact heedless_modify hkept.heedless
  | setChance chance =>
    have hkept : Steady fun m => { m with chance := chance } :=
      ⟨fun _ _ _ _ _ => rfl, fun _ => rfl, fun _ => rfl, fun _ => rfl, fun _ => rfl⟩
    exact heedless_modify hkept.heedless
  | connect id address port => exact heedless_startConnect id address port
  | disconnect id => exact heedless_withNetwork (Network.counts_disconnect id)
  | send id data => exact heedless_sendText id data
  | listen id port => exact heedless_withNetwork (Network.counts_listen id port)
  | enableUdp id address port =>
    exact heedless_withNetwork (Network.counts_enableUdp id address port)

theorem heedless_closed : Closed Heedless where
  pure := heedless_pure
  leave {_ u} _ := heedless_throw u
  bind := Heedless.bind
  inspect := heedless_inspect
  elementary h := Elementary.heedless h.elementary

theorem Heedless.locatedAt {α : Type} {x : Run α} (hx : Heedless x) (pos : Position) :
    Heedless (locatedAt pos x) := by
  intro p sure m₀ m h
  unfold Run.locatedAt
  obtain ⟨a, _, _, hrun₀, hrun, h'⟩ | ⟨u, _, _, hrun₀, hrun, h'⟩ := (hx h).cases
  · rw [hrun₀, hrun]
    exact .ok a h'
  · rw [hrun₀, hrun]
    exact .error _ h'

theorem Heedless.inFrame {α : Type} {x : Run α} (hx : Heedless x) (frame : Frame) :
    Heedless (inFrame frame x) := by
  intro p sure m₀ m h
  have hentered := (Machine.steady_enter frame).heedless h
  unfold Run.inFrame
  obtain ⟨a, _, _, hrun₀, hrun, h'⟩ | ⟨u, _, _, hrun₀, hrun, h'⟩ := (hx hentered).cases
  · rw [hrun₀, hrun]
    dsimp only
    rw [h'.look (·.scope.pop.1.getD {}) fun _ => rfl]
    exact .ok _ (Machine.steady_leave.heedless h')
  · rw [hrun₀, hrun]
    exact .error u (Machine.steady_leave.heedless h')

theorem heedless_pervades {pump : Nat → Run Unit} (hpump : ∀ deadline, Heedless (pump deadline)) :
    Pervades Heedless pump where
  toClosed := heedless_closed
  exhausted := fun h => .error _ h
  locatedAt pos hx := hx.locatedAt pos
  suspend delay what := by
    refine heedless_inspect (fun _ => rfl) fun m => ?_
    split
    · exact heedless_tell _
    · exact heedless_checkAbort.bind fun _ => hpump _
  call heval hblock f args :=
    (heedless_closed.congruence.callFunction (fun e => ⟨rfl, heval e⟩)
      (fun frame body => ⟨rfl, (hblock body).inFrame frame⟩) f args).2

theorem heedless_immediate : Pervades Heedless noPump :=
  heedless_pervades fun _ => heedless_pure ()

theorem heedless_immediateBlock (body : List Stmt) : Heedless (immediateBlock body) := by
  intro p sure m₀ m h
  unfold immediateBlock
  rw [h.look Machine.fuel fun _ => rfl]
  exact heedless_immediate.block m₀.fuel body h

theorem heedless_immediateCall (index : Nat) : Heedless (immediateCall index) := by
  intro p sure m₀ m h
  unfold immediateCall
  rw [h.look Machine.fuel fun _ => rfl]
  exact heedless_immediate.callAt m₀.fuel index [] h

theorem Heedless.isolated {α : Type} {x : Run α} (hx : Heedless x) (frames : List Frame) :
    Heedless (isolated frames x) := by
  intro p sure m₀ m h
  have hisolated : Mirrors p sure (m₀.isolate frames) (m.isolate frames) := h.resume fun _ => rfl
  have hstanding : sure = false → m₀.standing.mode = .immediate := h.mode
  unfold Run.isolated
  rw [h.look Machine.standing fun _ => rfl]
  obtain ⟨a, _, _, hrun₀, hrun, h'⟩ | ⟨u, _, _, hrun₀, hrun, h'⟩ := (hx hisolated).cases
  · rw [hrun₀, hrun]
    exact .ok a (h'.resume hstanding)
  · rw [hrun₀, hrun]
    exact .error u (h'.resume hstanding)

theorem heedless_handlerBody (h : Handler) : Heedless (handlerBody h) := by
  have hpush (frame : Frame) : Steady fun m => { m with scope := m.scope.push frame } :=
    ⟨fun _ _ _ _ _ => rfl, fun _ => rfl, fun _ => rfl, fun _ => rfl, fun _ => rfl⟩
  refine Heedless.bind (heedless_closed.congruence.localFrame h.locals {}).2 fun frame => ?_
  exact (heedless_modify (hpush frame).heedless).bind fun _ => heedless_immediateBlock h.body

end Run

end ControlLogic
