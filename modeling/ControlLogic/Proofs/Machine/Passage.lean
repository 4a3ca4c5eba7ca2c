import ControlLogic.Machine.Input
import ControlLogic.Proofs.Machine.Congruence

/-!
What runs make of a machine. A relation between machines that the elementary runs respect, and that
can be followed from one machine to the next, is respected by every statement and expression.
-/

set_option autoImplicit false
set_option relaxedAutoImplicit false

namespace ControlLogic

section Waits

variable {waits : Std.HashMap String PendingWait} {name label : String} {w : PendingWait}

theorem PendingWait.get?_of_erase (h : (waits.erase name)[label]? = some w) :
    waits[label]? = some w := by
  rw [Std.HashMap.getElem?_erase] at h
  split at h
  · cases h
  · exact h

theorem PendingWait.get?_of_insert {armed : PendingWait}
    (h : (waits.insert name armed)[label]? = some w) :
    name = label ∧ armed = w ∨ waits[label]? = some w := by
  rw [Std.HashMap.getElem?_insert] at h
  split at h
  next hname => exact .inl ⟨beq_iff_eq.mp hname, Option.some.inj h⟩
  next => exact .inr h

theorem PendingWait.get?_ne_of_empty (h : waits = {}) : waits[label]? ≠ some w := by
  simp [h]

end Waits

namespace Machine

theorem after_ok {α : Type} {m m' : Machine} {x : Run α} {a : α} (h : x m = .ok a m') :
    m.after x = m' := by
  unfold after
  rw [h]

theorem after_error {α : Type} {m m' : Machine} {x : Run α} {u : Unwind}
    (h : x m = .error u m') : m.after x = m' := by
  unfold after
  rw [h]

theorem after_bind_ok {α β : Type} {m m' : Machine} {x : Run α} {a : α} (h : x m = .ok a m')
    {f : α → Run β} : m.after (x >>= f) = m'.after (f a) := by
  unfold after
  rw [Run.bind_ok h]

theorem after_modify (m : Machine) (f : Machine → Machine) : m.after (modify f) = f m :=
  rfl

theorem after_tick (m : Machine) : m.after Run.tick = { m with steps := m.steps + 1 } := by
  by_cases hlimit : m.config.stepLimit < m.steps + 1
  · exact after_error (if_pos hlimit)
  · by_cases habort : m.mustAbort
    · exact after_error ((if_neg hlimit).trans (if_pos habort))
    · exact after_ok ((if_neg hlimit).trans (if_neg habort))

theorem after_tryWrite (m : Machine) (key : SlotKey) (v : Value) :
    (∃ target, m.target key = .ok target ∧
      m.after (Run.tryWrite key v) = m.writeTo key v target) ∨
      m.after (Run.tryWrite key v) = m := by
  cases h : m.target key with
  | ok target =>
    have hwrite : Run.tryWrite key v m = .ok none (m.writeTo key v target) := by
      unfold Run.tryWrite
      rw [h]
    exact .inl ⟨target, rfl, after_ok hwrite⟩
  | error f =>
    have hrefused : Run.tryWrite key v m = .ok (some f) m := by
      unfold Run.tryWrite
      rw [h]
    exact .inr (after_ok hrefused)

theorem trackIndex_eq (m : Machine) (key : SlotKey) :
    ∃ indices last, m.trackIndex key = { m with lastModified := indices, lastAny := last } := by
  unfold trackIndex
  split
  · exact ⟨_, _, rfl⟩
  · exact ⟨m.lastModified, m.lastAny, rfl⟩

theorem keepInput_eq (m : Machine) (s : Signal) (v : Value) :
    ∃ signals indices last, m.keepInput s v =
      { m with signals := signals, lastModified := indices, lastAny := last } := by
  unfold keepInput
  dsimp only
  split
  next base i hbase hi =>
    obtain ⟨indices, last, h⟩ :=
      { m with signals := m.signals.store s v }.trackIndex_eq (.element (Text.upper base) i)
    exact ⟨_, indices, last, h⟩
  next => exact ⟨_, m.lastModified, m.lastAny, rfl⟩

theorem writeTo_eq (m : Machine) (key : SlotKey) (v : Value) (target : Target) :
    ∃ scope signals indices last log, m.writeTo key v target =
      { m with
        scope := scope
        signals := signals
        lastModified := indices
        lastAny := last
        log := log } := by
  cases target with
  | slot slot =>
    obtain ⟨indices, last, h⟩ :=
      { m with scope := m.scope.set key (slot.write v) }.trackIndex_eq key
    exact ⟨_, m.signals, indices, last, m.log, h⟩
  | signal s =>
    obtain ⟨indices, last, h⟩ :=
      { m with signals := m.signals.store s (s.coerce v) }.trackIndex_eq key
    simp only [writeTo, writeSignal]
    rw [h]
    split
    · exact ⟨m.scope, _, indices, last, m.log, rfl⟩
    · exact ⟨m.scope, _, indices, last, _, rfl⟩

theorem copyWhole_eq (m : Machine) (frame : Frame) (parameter owner : String) :
    ∃ scope, m.copyWhole frame parameter owner = { m with scope := scope } := by
  unfold copyWhole
  generalize frame.ownedBy parameter = slots
  induction slots generalizing m with
  | nil => exact ⟨m.scope, rfl⟩
  | cons entry slots ih =>
    obtain ⟨key, slot⟩ := entry
    simp only [List.foldl_cons]
    split
    next old h => exact ih { m with scope := m.scope.set (key.rebase owner) (old.write slot.value) }
    next h => exact ih m

theorem background_eq {α : Type} (m : Machine) (x : Run α) :
    m.background x = m.after x ∨ ∃ event, m.background x = (m.after x).tell event := by
  unfold background
  cases h : x m with
  | ok a m' => exact .inl (after_ok h).symm
  | error u m' =>
    rw [after_error h]
    cases u with
    | stepLimit => exact .inr ⟨_, rfl⟩
    | fault f pos => exact .inr ⟨_, rfl⟩
    | _ => exact .inl rfl

theorem after_isolated {α : Type} (m : Machine) (frames : List Frame) (x : Run α) :
    m.after (Run.isolated frames x) = ((m.isolate frames).after x).resume m.standing := by
  unfold after Run.isolated
  cases x (m.isolate frames) <;> rfl

theorem after_inFrame {α : Type} (m : Machine) (frame : Frame) (x : Run α) :
    m.after (Run.inFrame frame x) = ((m.enter frame).after x).leave := by
  unfold after Run.inFrame
  cases x (m.enter frame) <;> rfl

theorem after_locatedAt {α : Type} (m : Machine) (p : Position) (x : Run α) :
    m.after (Run.locatedAt p x) = m.after x := by
  unfold after Run.locatedAt
  cases x m <;> rfl

theorem after_immediateBlock (m : Machine) (body : List Stmt) :
    m.after (Run.immediateBlock body) = m.after (Run.block Run.noPump m.fuel body) := by
  unfold after Run.immediateBlock
  rfl

theorem after_immediateCall (m : Machine) (index : Nat) :
    m.after (Run.immediateCall index) = m.after
      (Run.callAt (Run.eval Run.noPump m.fuel) (Run.block Run.noPump m.fuel) index []) := by
  unfold after Run.immediateCall
  rfl

theorem mustAbort_immediate {m : Machine} (h : m.mode = .immediate) : m.mustAbort = false := by
  simp [mustAbort, h]

theorem mustAbort_of_not_abort {m : Machine} (h : m.abort = false) : m.mustAbort = false := by
  simp [mustAbort, h]

end Machine

namespace Run

theorem checkAbort_of_not {m : Machine} (h : m.mustAbort = false) : checkAbort m = .ok () m := by
  unfold checkAbort
  rw [get_bind, h]
  rfl

theorem checkAbort_immediate {m : Machine} (h : m.mode = .immediate) : checkAbort m = .ok () m :=
  checkAbort_of_not (Machine.mustAbort_immediate h)

theorem suspend_immediate {m : Machine} (h : m.mode = .immediate) (pump : Nat → Run Unit)
    (delay : Nat) (what : String) :
    suspend pump delay what m = notice s!"{what} has no effect inside an event" m := by
  change (if m.mode = .immediate then _ else _ : Run Unit) m = _
  rw [if_pos h]

theorem relates_foldl {T : Machine → Machine → Prop} (refl : ∀ m, T m m)
    (trans : ∀ {a b c : Machine}, T a b → T b c → T a c) {α : Type}
    {f : Machine → α → Machine} (h : ∀ m a, T m (f m a)) (as : List α) (m : Machine) :
    T m (as.foldl f m) := by
  induction as generalizing m with
  | nil => exact refl m
  | cons a as ih => exact trans (h m a) (ih (f m a))

def Relates (T : Machine → Machine → Prop) {α : Type} (x : Run α) : Prop :=
  ∀ m : Machine, T m (m.after x)

variable {T : Machine → Machine → Prop}

/-- What the first of two runs respects from a machine, and the second from anywhere, both do one
after the other. -/
theorem relates_after_bind {α β : Type} {x : Run α} {f : α → Run β}
    (trans : ∀ {a b c : Machine}, T a b → T b c → T a c) {m m₁ : Machine}
    (hx : T m (m₁.after x)) (hf : ∀ a, Relates T (f a)) : T m (m₁.after (x >>= f)) := by
  cases h : x m₁ with
  | ok a m' =>
    rw [Machine.after_ok h] at hx
    rw [Machine.after_bind_ok h]
    exact trans hx (hf a m')
  | error u m' =>
    rw [Machine.after_error h] at hx
    rw [Machine.after_error (bind_error h f)]
    exact hx

theorem Relates.bind {α β : Type} {x : Run α} {f : α → Run β}
    (trans : ∀ {a b c : Machine}, T a b → T b c → T a c) (hx : Relates T x)
    (hf : ∀ a, Relates T (f a)) : Relates T (x >>= f) :=
  fun m => relates_after_bind (T := T) trans (hx m) hf

theorem relates_modifyGet {α : Type} {f : Machine → α × Machine} (h : ∀ m, T m (f m).2) :
    Relates T (modifyGet f) :=
  fun m => h m

theorem relates_modify {f : Machine → Machine} (h : ∀ m, T m (f m)) : Relates T (modify f) :=
  fun m => h m

theorem relates_inspect {α : Type} {f : Machine → Run α} (h : ∀ m, Relates T (f m)) :
    Relates T (get >>= f) :=
  fun m => h m m

theorem relates_checkAbort (refl : ∀ m, T m m) : Relates T checkAbort := by
  refine relates_inspect fun m => ?_
  split
  · exact fun m => refl m
  · exact fun m => refl m

/-- A relation that can be followed, and that the runs which touch the machine respect, is respected
by the elementary ones. -/
theorem Elementary.relates (refl : ∀ m, T m m) (trans : ∀ {a b c : Machine}, T a b → T b c → T a c)
    (primitive : ∀ {α : Type} {x : Run α}, Primitive x → Relates T x) {α : Type} {x : Run α}
    (h : Elementary x) : Relates T x :=
  h.of_primitive (P := Relates T) (fun _ m => refl m) (fun hx hf => hx.bind trans hf)
    relates_inspect primitive

/--
A relation between machines that can be followed from one machine to the next, and that is respected
by the elementary runs, by suspending, and by calls of functions.
-/
structure Respected (T : Machine → Machine → Prop) (pump : Nat → Run Unit) : Prop where
  refl (m : Machine) : T m m
  trans {a b c : Machine} : T a b → T b c → T a c
  elementary {α : Type} {x : Run α} : Elementary x → Relates T x
  suspend (delay : Nat) (what : String) : Relates T (suspend pump delay what)
  call {eval : Expr → Run Value} {block : List Stmt → Run Flow} :
    (∀ e, Relates T (eval e)) → (∀ body, Relates T (block body)) →
      ∀ f args, Relates T (callFunction eval block f args)

/-- A relation that can be followed, and that the elementary runs respect, is kept when runs are put
together. -/
theorem relates_closed (refl : ∀ m, T m m) (trans : ∀ {a b c : Machine}, T a b → T b c → T a c)
    (elementary : ∀ {α : Type} {x : Run α}, Elementary x → Relates T x) :
    Closed (Relates T) where
  pure _ := fun m => refl m
  leave _ := fun m => refl m
  bind hx hf := hx.bind trans hf
  inspect _ h := relates_inspect h
  elementary h := elementary h.elementary

theorem Relates.locatedAt {α : Type} {x : Run α} (hx : Relates T x) (p : Position) :
    Relates T (locatedAt p x) := by
  intro m
  rw [m.after_locatedAt]
  exact hx m

namespace Respected

variable {pump : Nat → Run Unit} (h : Respected T pump)
include h

theorem closed : Closed (Relates T) :=
  relates_closed h.refl h.trans h.elementary

theorem pervades : Pervades (Relates T) pump where
  toClosed := h.closed
  exhausted := fun m => h.refl m
  locatedAt p hx := hx.locatedAt p
  suspend := h.suspend
  call := h.call

theorem eval_exec (fuel : Nat) :
    (∀ e, Relates T (eval pump fuel e)) ∧ ∀ s, Relates T (exec pump fuel s) :=
  h.pervades.eval_exec fuel

theorem block (fuel : Nat) (body : List Stmt) : Relates T (block pump fuel body) :=
  h.pervades.block fuel body

theorem callFunction (fuel : Nat) (f : FunctionDef) (args : List Expr) :
    Relates T (callFunction (eval pump fuel) (Run.block pump fuel) f args) :=
  h.pervades.callFunction fuel f args

theorem callAt (fuel index : Nat) (args : List Expr) :
    Relates T (callAt (eval pump fuel) (Run.block pump fuel) index args) :=
  h.pervades.callAt fuel index args

end Respected

/-- A relation between machines that can be followed from one machine to the next, and that is
respected by the elementary runs of programs and by runs in frames of their own. -/
structure Followed (T : Machine → Machine → Prop) (Shifts : Prop := True) : Prop where
  refl (m : Machine) : T m m
  trans {a b c : Machine} : T a b → T b c → T a c
  elementary {α : Type} {x : Run α} : ElementaryFor (· ≤ longestDelay) Shifts x → Relates T x
  inFrame {α : Type} {x : Run α} (frame : Frame) : Relates T x → Relates T (inFrame frame x)

namespace Followed

variable {Shifts : Prop} (F : Followed T Shifts)
include F

theorem closed : Closed (Relates T) Shifts where
  pure _ := fun m => F.refl m
  leave _ := fun m => F.refl m
  bind hx hf := hx.bind F.trans hf
  inspect _ h := relates_inspect h
  elementary := F.elementary

theorem call {eval : Expr → Run Value} {block : List Stmt → Run Flow}
    (heval : ∀ e, Relates T (eval e)) (hblock : ∀ body, Relates T (block body)) (f : FunctionDef)
    (args : List Expr) : Relates T (callFunction eval block f args) :=
  (F.closed.congruence.callFunction (fun e => ⟨rfl, heval e⟩)
    (fun frame body => ⟨rfl, F.inFrame frame (hblock body)⟩) f args).2

theorem suspend (delay : Nat) (what : String) : Relates T (suspend noPump delay what) := by
  refine relates_inspect fun m => ?_
  split
  · exact F.elementary (.tell _)
  · exact (relates_checkAbort F.refl).bind F.trans fun _ m => F.refl m

end Followed

theorem Followed.pervades (F : Followed T) : Pervades (Relates T) noPump where
  toClosed := F.closed
  exhausted := fun m => F.refl m
  locatedAt p hx := hx.locatedAt p
  suspend := F.suspend
  call := F.call

end Run

end ControlLogic
