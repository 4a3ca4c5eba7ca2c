import Mathlib.Data.Option.Defs
import ControlLogic.Machine.Eval
import ControlLogic.Proofs.Machine.Counting

/-!
Runs are made of a few elementary ones, and these of runs that touch the machine themselves. A
relation between runs that the elementary ones have to themselves, and that is kept when runs are
put together, is kept by every statement and expression when it holds of their parts.
-/

set_option autoImplicit false
set_option relaxedAutoImplicit false

namespace ControlLogic

/-- Work that stands for itself: no wait, no connection and no answer is kept elsewhere for it. -/
def Task.isPlain : Task → Bool
  | .spawn _ | .pulseEnd _ | .socketEvent _ _ => true
  | .waitBody _ | .stimulus _ | .socketConnected _ | .socketDeliver _ _ => false

/-- A schedule that nothing is planned on, at a time, with the next number and the stimuli that
wait. -/
def Schedule.bare {τ : Type} (now nextId : Nat) (inbox : List Stimulus) : Schedule τ :=
  { (default : Schedule τ) with now := now, nextId := nextId, inbox := inbox }

namespace Machine

/-- A machine as far as a look at it can decide what code does: the waits, what is planned and what
the host was told do not count, nor does how often files and sockets have changed, and the wish to
stop counts only while code cooperates. -/
def visible (m : Machine) : Machine :=
  { m with
    schedule := .bare m.now 1 m.schedule.inbox
    waits := {}
    files := { m.files with changes := 0 }
    network := { m.network with changes := 0 }
    abort := m.mustAbort
    log := #[] }

theorem mustAbort_visible (m : Machine) : m.visible.mustAbort = m.mustAbort := by
  simp only [mustAbort, visible]
  cases m.mode == .cooperative <;> rfl

end Machine

namespace Run

theorem bind_ok {α β : Type} {x : Run α} {m m' : Machine} {a : α} (h : x m = .ok a m')
    (f : α → Run β) : (x >>= f) m = f a m' := by
  change EStateM.bind x f m = _
  unfold EStateM.bind
  rw [h]

theorem bind_error {α β : Type} {x : Run α} {m m' : Machine} {u : Unwind}
    (h : x m = .error u m') (f : α → Run β) : (x >>= f) m = .error u m' := by
  change EStateM.bind x f m = _
  unfold EStateM.bind
  rw [h]

theorem get_bind {α : Type} (f : Machine → Run α) (m : Machine) : (get >>= f) m = f m m :=
  rfl

theorem modifyGet_bind {α β : Type} (g : Machine → α × Machine) (f : α → Run β) (m : Machine) :
    (modifyGet g >>= f) m = f (g m).1 (g m).2 :=
  rfl

theorem bind_eq_ok {α β : Type} {x : Run α} {f : α → Run β} {m m'' : Machine} {b : β}
    (h : (x >>= f) m = .ok b m'') : ∃ a m', x m = .ok a m' ∧ f a m' = .ok b m'' := by
  cases hx : x m with
  | ok a m' =>
    rw [bind_ok hx] at h
    exact ⟨a, m', rfl, h⟩
  | error u m' =>
    rw [bind_error hx] at h
    cases h

/-- The runs that touch the machine themselves. -/
inductive Primitive : {α : Type} → Run α → Prop where
  | tell (event : Event) : Primitive (tell event)
  | tick : Primitive tick
  | tryWrite (key : SlotKey) (v : Value) : Primitive (tryWrite key v)
  | copyWhole (frame : Frame) (parameter owner : String) :
    Primitive (copyWhole frame parameter owner)
  | plan (delay : Nat) {task : Task} (h : ∀ label, task ≠ .waitBody label) :
    Primitive (plan delay task)
  | scheduleWait (delay : Nat) (label : Option String) (body : List Stmt) :
    Primitive (scheduleWait delay label body)
  | cancelWait (name : String) : Primitive (cancelWait name)
  | cancelAllWaits : Primitive cancelAllWaits
  | retimeWait (delay : Nat) (name : String) : Primitive (retimeWait delay name)
  | holdSection (name : String) : Primitive (holdSection name)
  | freeSection (name : String) : Primitive (freeSection name)
  | withFiles {α : Type} (f : FileSystem → α × FileSystem) : Primitive (withFiles f)
  | withNetwork {α : Type} (f : Network → α × Network) : Primitive (withNetwork f)
  | setGather (gather : Gather) : Primitive (setGather gather)
  | setChance (chance : Library.Chance) : Primitive (setChance chance)

def startConnect (id : Int) (address : String) (port : Int) : Run Value := do
  let status ← withNetwork (·.connect id address port)
  if status = 0 then
    plan (← get).config.connectDelay (.socketConnected id)
  return .number status

def sendText (id : Int) (data : String) : Run Value := do
  let (sent, reply) ← withNetwork fun net =>
    let (sent, reply, net) := net.send id data
    ((sent, reply), net)
  if let some answer := reply then
    plan (← get).config.responseDelay (.socketDeliver id answer)
  return .number sent

/-- The runs that statements and expressions are made of, which put work off for delays that are
allowed, and drop or move waits only if that is allowed too. Other than the runs which touch the
machine themselves, each does one thing to the network, and what it does to the network and the work
it puts off for it belong together. -/
inductive ElementaryFor (Allowed : Nat → Prop) (Shifts : Prop) : {α : Type} → Run α → Prop where
  | tell (event : Event) : ElementaryFor Allowed Shifts (tell event)
  | tick : ElementaryFor Allowed Shifts tick
  | tryWrite (key : SlotKey) (v : Value) : ElementaryFor Allowed Shifts (tryWrite key v)
  | copyWhole (frame : Frame) (parameter owner : String) :
    ElementaryFor Allowed Shifts (copyWhole frame parameter owner)
  | plan (delay : Nat) {task : Task} (h : task.isPlain = true)
    (hdelay : Allowed delay := by trivial) : ElementaryFor Allowed Shifts (plan delay task)
  | scheduleWait (delay : Nat) (label : Option String) (body : List Stmt)
    (hdelay : Allowed delay := by trivial) :
    ElementaryFor Allowed Shifts (scheduleWait delay label body)
  | cancelWait (name : String) (h : Shifts := by trivial) :
    ElementaryFor Allowed Shifts (cancelWait name)
  | cancelAllWaits (h : Shifts := by trivial) : ElementaryFor Allowed Shifts cancelAllWaits
  | retimeWait (delay : Nat) (name : String) (hdelay : Allowed delay := by trivial)
    (h : Shifts := by trivial) : ElementaryFor Allowed Shifts (retimeWait delay name)
  | holdSection (name : String) : ElementaryFor Allowed Shifts (holdSection name)
  | freeSection (name : String) : ElementaryFor Allowed Shifts (freeSection name)
  | withFiles {α : Type} {f : FileSystem → α × FileSystem} (h : FileSystem.Counts f) :
    ElementaryFor Allowed Shifts (withFiles f)
  | setGather (gather : Gather) : ElementaryFor Allowed Shifts (setGather gather)
  | setChance (chance : Library.Chance) : ElementaryFor Allowed Shifts (setChance chance)
  | connect (id : Int) (address : String) (port : Int) :
    ElementaryFor Allowed Shifts (startConnect id address port)
  | disconnect (id : Int) : ElementaryFor Allowed Shifts (withNetwork (·.disconnect id))
  | send (id : Int) (data : String) : ElementaryFor Allowed Shifts (sendText id data)
  | listen (id port : Int) : ElementaryFor Allowed Shifts (withNetwork (·.listen id port))
  | enableUdp (id : Int) (address : String) (port : Int) :
    ElementaryFor Allowed Shifts (withNetwork (·.enableUdp id address port))

abbrev Elementary {α : Type} (x : Run α) : Prop :=
  ElementaryFor (fun _ => True) True x

abbrev Calm {α : Type} (x : Run α) : Prop :=
  ElementaryFor (fun _ => True) False x

/-- The longest delay that a program can ask for, in milliseconds. -/
def longestDelay : Nat := 18446744073709551615

theorem hundredths_le (n : Int) : hundredths n ≤ longestDelay :=
  Nat.min_le_right _ _

/-- An elementary run of a program: it puts no work off for longer than the longest delay. -/
abbrev Measured {α : Type} (x : Run α) : Prop :=
  ElementaryFor (· ≤ longestDelay) True x

theorem ElementaryFor.mono {Allowed Allowed' : Nat → Prop} {Shifts Shifts' : Prop} {α : Type}
    {x : Run α} (h : ElementaryFor Allowed Shifts x)
    (hallowed : ∀ delay, Allowed delay → Allowed' delay) (hshifts : Shifts → Shifts') :
    ElementaryFor Allowed' Shifts' x := by
  cases h with
  | plan delay h hdelay => exact .plan delay h (hallowed delay hdelay)
  | scheduleWait delay label body hdelay =>
    exact .scheduleWait delay label body (hallowed delay hdelay)
  | cancelWait name h => exact .cancelWait name (hshifts h)
  | cancelAllWaits h => exact .cancelAllWaits (hshifts h)
  | retimeWait delay name hdelay h =>
    exact .retimeWait delay name (hallowed delay hdelay) (hshifts h)
  | withFiles h => exact .withFiles h
  | _ => constructor

theorem ElementaryFor.elementary {Allowed : Nat → Prop} {Shifts : Prop} {α : Type} {x : Run α}
    (h : ElementaryFor Allowed Shifts x) : Elementary x :=
  h.mono (fun _ _ => trivial) fun _ => trivial

/-- A relation between runs that is kept when runs are put together. `Shifts` says whether the runs
that drop or move waits count. -/
structure Congruence (R : {α : Type} → Run α → Run α → Prop) (Shifts : Prop := True) : Prop where
  pure {α : Type} (a : α) : R (Pure.pure a) (Pure.pure a)
  leave {α : Type} {u : Unwind} (h : u ≠ .exhausted) : R (throw u : Run α) (throw u)
  bind {α β : Type} {x x' : Run α} {f f' : α → Run β} (h : R x x') (hf : ∀ a, R (f a) (f' a)) :
    R (x >>= f) (x' >>= f')
  inspect {α : Type} {f f' : Machine → Run α} (hf : ∀ m, f m = f m.visible)
    (h : ∀ m, R (f m) (f' m)) : R (get >>= f) (get >>= f')
  elementary {α : Type} {x : Run α} (h : ElementaryFor (· ≤ longestDelay) Shifts x) : R x x

/-- A property of runs that is kept when runs are put together. `Shifts` says whether the runs that
drop or move waits count. -/
structure Closed (P : {α : Type} → Run α → Prop) (Shifts : Prop := True) : Prop where
  pure {α : Type} (a : α) : P (Pure.pure a)
  leave {α : Type} {u : Unwind} (h : u ≠ .exhausted) : P (throw u : Run α)
  bind {α β : Type} {x : Run α} {f : α → Run β} (h : P x) (hf : ∀ a, P (f a)) : P (x >>= f)
  inspect {α : Type} {f : Machine → Run α} (hf : ∀ m, f m = f m.visible) (h : ∀ m, P (f m)) :
    P (get >>= f)
  elementary {α : Type} {x : Run α} (h : ElementaryFor (· ≤ longestDelay) Shifts x) : P x

/-- A property that is kept when runs are put together holds of the elementary runs if it holds of
those which touch the machine themselves. -/
theorem Elementary.of_primitive {P : {α : Type} → Run α → Prop}
    (pure : ∀ {α : Type} (a : α), P (Pure.pure a))
    (bind : ∀ {α β : Type} {x : Run α} {f : α → Run β}, P x → (∀ a, P (f a)) → P (x >>= f))
    (inspect : ∀ {α : Type} {f : Machine → Run α}, (∀ m, P (f m)) → P (get >>= f))
    (primitive : ∀ {α : Type} {x : Run α}, Primitive x → P x) {α : Type} {x : Run α}
    (h : Elementary x) : P x := by
  cases h with
  | tell event => exact primitive (.tell event)
  | tick => exact primitive .tick
  | tryWrite key v => exact primitive (.tryWrite key v)
  | copyWhole frame parameter owner => exact primitive (.copyWhole frame parameter owner)
  | plan delay h =>
    refine primitive (.plan delay ?_)
    rintro label rfl
    cases h
  | scheduleWait delay label body => exact primitive (.scheduleWait delay label body)
  | cancelWait name => exact primitive (.cancelWait name)
  | cancelAllWaits => exact primitive .cancelAllWaits
  | retimeWait delay name => exact primitive (.retimeWait delay name)
  | holdSection name => exact primitive (.holdSection name)
  | freeSection name => exact primitive (.freeSection name)
  | withFiles => exact primitive (.withFiles _)
  | setGather gather => exact primitive (.setGather gather)
  | setChance chance => exact primitive (.setChance chance)
  | connect id address port =>
    refine bind (primitive (.withNetwork _)) fun status => ?_
    split
    · exact inspect fun m => bind (primitive (.plan _ (by simp))) fun _ => pure _
    · exact pure _
  | disconnect id => exact primitive (.withNetwork _)
  | send id data =>
    refine bind (primitive (.withNetwork _)) fun sent => ?_
    split
    split
    · exact inspect fun m => bind (primitive (.plan _ (by simp))) fun _ => pure _
    · exact pure _
  | listen id port => exact primitive (.withNetwork _)
  | enableUdp id address port => exact primitive (.withNetwork _)

def Itself (P : {α : Type} → Run α → Prop) {α : Type} (x y : Run α) : Prop :=
  x = y ∧ P x

variable {Shifts : Prop}

theorem Closed.congruence {P : {α : Type} → Run α → Prop} (C : Closed P Shifts) :
    Congruence (Itself P) Shifts where
  pure a := ⟨rfl, C.pure a⟩
  leave h := ⟨rfl, C.leave h⟩
  bind h hf := by
    obtain ⟨rfl, hx⟩ := h
    obtain rfl := funext fun a => (hf a).1
    exact ⟨rfl, C.bind hx fun a => (hf a).2⟩
  inspect hf h := by
    obtain rfl := funext fun m => (h m).1
    exact ⟨rfl, C.inspect hf fun m => (h m).2⟩
  elementary h := ⟨rfl, C.elementary h⟩

variable {R : {α : Type} → Run α → Run α → Prop}

theorem rel_or {α : Type} {x₁ x₂ y₁ y₂ : Option (Run α)} (hx : Option.Rel R x₁ x₂)
    (hy : Option.Rel R y₁ y₂) : Option.Rel R (x₁.or y₁) (x₂.or y₂) := by
  cases hx with
  | some h => exact .some h
  | none => exact hy

def shiftingNames : List String :=
  ["CANCELWAIT", "CANCELALLWAIT", "RETIMEWAIT"]

namespace Congruence

variable (C : Congruence R Shifts)
include C

theorem fault {α : Type} (f : Fault) : R (fault f : Run α) (Run.fault f) :=
  C.leave (by simp)

theorem notice (text : String) : R (notice text) (Run.notice text) :=
  C.elementary (.tell _)

theorem checkAbort : R checkAbort Run.checkAbort := by
  refine C.inspect (fun m => ?_) fun m => ?_
  · rw [m.mustAbort_visible]
  split
  · exact C.leave (by simp)
  · exact C.pure ()

theorem readKey (key : SlotKey) : R (readKey key) (Run.readKey key) := by
  refine C.inspect (fun _ => rfl) fun m => ?_
  split
  · exact C.pure _
  · exact C.fault _

theorem writeKey (key : SlotKey) (v : Value) : R (writeKey key v) (Run.writeKey key v) := by
  refine C.bind (C.elementary (.tryWrite key v)) fun refused => ?_
  split
  · exact C.pure _
  · exact C.fault _

section Places

variable {eval eval' : Expr → Run Value} (heval : ∀ e, R (eval e) (eval' e))
include heval

theorem resolveKey (e : Expr) : R (resolveKey eval e) (Run.resolveKey eval' e) := by
  unfold Run.resolveKey
  split
  · exact C.pure _
  · exact C.bind (heval _) fun i => C.bind (heval _) fun j => C.pure _
  · exact C.bind (heval _) fun i => C.pure _
  · exact C.pure _
  · exact C.bind (heval _) fun i => C.pure _
  · exact C.fault _

theorem evalArg (e : Expr) : R (evalArg eval e) (Run.evalArg eval' e) := by
  have hkey : R (do let key ← Run.resolveKey eval e; return ⟨← Run.readKey key, some key⟩)
      (do let key ← Run.resolveKey eval' e; return (⟨← Run.readKey key, some key⟩ : Library.Arg)) :=
    C.bind (C.resolveKey heval e) fun key => C.bind (C.readKey key) fun _ => C.pure _
  unfold Run.evalArg
  split
  · refine C.inspect (fun _ => rfl) fun m => ?_
    split
    · exact C.pure _
    · split
      · exact C.pure _
      · exact C.fault _
  · exact hkey
  · exact hkey
  · exact C.bind (heval _) fun _ => C.pure _

theorem argValue (args : List Expr) (i : Nat) :
    R (argValue eval args i) (Run.argValue eval' args i) := by
  unfold Run.argValue
  split
  · exact heval _
  · exact C.pure _

theorem argNumber (args : List Expr) (i : Nat) :
    R (argNumber eval args i) (Run.argNumber eval' args i) :=
  C.bind (C.argValue heval args i) fun _ => C.pure _

theorem argText (args : List Expr) (i : Nat) :
    R (argText eval args i) (Run.argText eval' args i) := by
  unfold Run.argText
  split
  · exact C.bind (heval _) fun v => C.pure _
  · exact C.pure _

theorem argName (args : List Expr) (i : Nat) :
    R (argName eval args i) (Run.argName eval' args i) := by
  unfold Run.argName
  split
  · exact C.pure _
  · exact C.bind (heval _) fun v => C.pure _
  · exact C.fault _

theorem storeText (args : List Expr) (i : Nat) (text : String) :
    R (storeText eval args i text) (Run.storeText eval' args i text) := by
  unfold Run.storeText
  split
  · split
    · exact C.bind (C.resolveKey heval _) fun key => C.writeKey key _
    · exact C.pure _
  · exact C.pure _

end Places

section Routines

variable {eval eval' : Expr → Run Value} (heval : ∀ e, R (eval e) (eval' e))
include heval

theorem fileRead (args : List Expr) : R (fileRead eval args) (Run.fileRead eval' args) := by
  refine C.bind (C.argNumber heval args 0) fun handle => ?_
  refine C.bind (C.argNumber heval args 2) fun limit => ?_
  refine C.bind (C.elementary (.withFiles (FileSystem.counts_read _ _))) fun bytes => ?_
  split
  · exact C.pure _
  · exact C.bind (C.storeText heval args 1 _) fun _ => C.pure _

theorem fileWrite (args : List Expr) : R (fileWrite eval args) (Run.fileWrite eval' args) := by
  refine C.bind (C.argNumber heval args 0) fun handle => ?_
  refine C.bind (C.argText heval args 1) fun text => ?_
  have hwrite (bytes : List UInt8) :
      R (do return .number (← Run.withFiles (·.write handle bytes)))
        (do return Value.number (← Run.withFiles (·.write handle bytes))) :=
    C.bind (C.elementary (.withFiles (FileSystem.counts_write _ _))) fun n => C.pure _
  split
  · exact C.bind (C.argNumber heval args 2) fun n => C.bind (C.pure _) hwrite
  · exact C.bind (C.pure _) hwrite

theorem fileRoutine (name : String) (args : List Expr) :
    Option.Rel R (fileRoutine eval name args) (Run.fileRoutine eval' name args) := by
  unfold Run.fileRoutine
  split
  · exact .some (C.pure _)
  · exact .some (C.pure _)
  · exact .some <| C.bind (C.argText heval args 0) fun path =>
      C.bind (C.argNumber heval args 1) fun flags =>
        C.bind (C.elementary (.withFiles (FileSystem.counts_openFile _ _))) fun n => C.pure _
  · exact .some <| C.bind (C.argNumber heval args 0) fun handle =>
      C.bind (C.elementary (.withFiles (FileSystem.counts_close _))) fun n => C.pure _
  · exact .some (C.fileRead heval args)
  · exact .some (C.fileWrite heval args)
  · exact .some <| C.bind (C.argNumber heval args 0) fun handle =>
      C.bind (C.argNumber heval args 1) fun offset =>
        C.bind (C.argNumber heval args 2) fun origin =>
          C.bind (C.elementary (.withFiles (FileSystem.counts_seek _ _ _))) fun n => C.pure _
  · exact .some <| C.bind (C.argText heval args 0) fun path =>
      C.bind (C.elementary (.withFiles (FileSystem.counts_delete _))) fun n => C.pure _
  · exact .some <| C.bind (C.argNumber heval args 0) fun handle =>
      C.inspect (fun _ => rfl) fun m => C.pure _
  · exact .some <| C.bind (C.argText heval args 0) fun path =>
      C.inspect (fun _ => rfl) fun m => C.pure _
  · exact .some <| C.bind (C.argText heval args 0) fun path =>
      C.inspect (fun _ => rfl) fun m => C.pure _
  · exact .some <| C.bind (C.argText heval args 0) fun path =>
      C.bind (C.elementary (.withFiles (FileSystem.counts_makeDirectory _))) fun n => C.pure _
  · exact .some <| C.bind (C.argText heval args 0) fun pattern =>
      C.inspect (fun _ => rfl) fun m =>
        C.bind (C.elementary (.withFiles (FileSystem.counts_findFirst _ _))) fun found =>
          C.bind (C.storeText heval args 1 found) fun _ => C.pure _
  · exact .some <| C.bind (C.elementary (.withFiles FileSystem.counts_findNext)) fun found =>
      C.bind (C.storeText heval args 0 found) fun _ => C.pure _
  · exact .some <| C.bind (C.elementary (.withFiles FileSystem.counts_findClose)) fun n => C.pure _
  · exact .none

omit heval in
theorem socketArg (args : List Expr) : R (socketArg args) (Run.socketArg args) := by
  unfold Run.socketArg
  split
  · refine C.inspect (fun _ => rfl) fun m => ?_
    split
    · exact C.pure _
    · exact C.fault _
  · exact C.fault _

theorem socketConnect (args : List Expr) :
    R (socketConnect eval args) (Run.socketConnect eval' args) := by
  refine C.bind (C.socketArg args) fun id => ?_
  refine C.bind (C.argText heval args 1) fun address => ?_
  refine C.bind (C.argNumber heval args 2) fun port => ?_
  exact C.elementary (.connect id address port)

omit heval in
theorem socketDisconnect (args : List Expr) :
    R (socketDisconnect args) (Run.socketDisconnect args) := by
  refine C.bind (C.socketArg args) fun id => ?_
  refine C.bind (C.elementary (.disconnect id)) fun status => ?_
  split
  · exact C.bind (C.elementary (.plan _ rfl (Nat.zero_le _))) fun _ => C.pure _
  · exact C.pure _

theorem socketSend (args : List Expr) :
    R (socketSend eval args) (Run.socketSend eval' args) := by
  refine C.bind (C.socketArg args) fun id => ?_
  refine C.bind (C.argText heval args 1) fun data => ?_
  exact C.elementary (.send id data)

theorem socketAddress (args : List Expr) :
    R (socketAddress eval args) (Run.socketAddress eval' args) := by
  refine C.bind (C.socketArg args) fun id => C.inspect (fun _ => rfl) fun m => ?_
  exact C.bind (C.storeText heval args 1 _) fun _ => C.pure _

theorem socketListen (args : List Expr) :
    R (socketListen eval args) (Run.socketListen eval' args) := by
  refine C.bind (C.socketArg args) fun id => ?_
  refine C.bind (C.argNumber heval args _) fun port => ?_
  refine C.bind (C.elementary (.listen id port)) fun status => ?_
  split
  · exact C.bind (C.elementary (.plan _ rfl (Nat.zero_le _))) fun _ => C.pure _
  · exact C.pure _

theorem socketRoutine (name : String) (args : List Expr) :
    Option.Rel R (socketRoutine eval name args) (Run.socketRoutine eval' name args) := by
  unfold Run.socketRoutine
  split
  · exact .some (C.socketConnect heval args)
  · exact .some (C.socketDisconnect args)
  · exact .some (C.socketDisconnect args)
  · exact .some (C.socketSend heval args)
  · exact .some <| C.bind (C.socketArg args) fun id => C.inspect (fun _ => rfl) fun m => C.pure _
  · exact .some (C.socketAddress heval args)
  · exact .some (C.socketAddress heval args)
  · exact .some <| C.bind (C.socketArg args) fun id => C.inspect (fun _ => rfl) fun m => C.pure _
  · exact .some (C.socketListen heval args)
  · exact .some <| C.bind (C.socketArg args) fun id =>
      C.bind (C.argText heval args 1) fun address =>
        C.bind (C.argNumber heval args 2) fun port =>
          C.bind (C.elementary (.enableUdp id address port)) fun n => C.pure _
  · exact .some <| C.bind (C.socketArg args) fun id =>
      C.bind (C.elementary (.disconnect id)) fun n => C.pure _
  · exact .none

theorem pulse (args : List Expr) : R (pulse eval args) (Run.pulse eval' args) := by
  refine C.bind (C.argNumber heval args 0) fun delay => ?_
  split
  · exact C.fault _
  · exact C.bind (C.resolveKey heval _) fun key => C.bind (C.writeKey key _) fun _ =>
      C.elementary (.plan _ rfl (hundredths_le _))

omit heval in
theorem createThread (name : String) : R (createThread name) (Run.createThread name) := by
  refine C.inspect (fun _ => rfl) fun m => ?_
  split
  · exact C.elementary (.plan _ rfl (Nat.zero_le _))
  · exact C.fault _

private theorem evalArgs (args : List Expr) :
    R (args.mapM (Run.evalArg eval)) (args.mapM (Run.evalArg eval')) := by
  induction args with
  | nil => exact C.pure _
  | cons e args ih =>
    rw [List.mapM_cons, List.mapM_cons]
    exact C.bind (C.evalArg heval e) fun a => C.bind ih fun rest => C.pure _

omit heval in
theorem perform (effects : List Library.Effect) : R (perform effects) (Run.perform effects) := by
  induction effects with
  | nil => exact C.pure _
  | cons effect effects ih =>
    cases effect with
    | print text => exact C.bind (C.elementary (.tell _)) fun _ => ih
    | notice text => exact C.bind (C.notice text) fun _ => ih
    | write key v =>
      exact C.bind (C.elementary (.tryWrite key v)) fun refused => C.bind ih fun later => C.pure _

omit heval in
theorem answer (reply : Library.Reply) : R (answer reply) (Run.answer reply) := by
  refine C.bind (C.perform reply.effects) fun refused => ?_
  split
  · exact C.fault _
  · exact C.pure _

omit heval in
theorem forM {α : Type} (kept : Option α) {f : α → Run Unit} (h : ∀ a, R (f a) (f a)) :
    R (kept.forM f) (kept.forM f) := by
  cases kept with
  | none => exact C.pure ()
  | some a => exact h a

theorem callRoutine (routine : Library.Routine) (args : List Expr) :
    R (callRoutine eval routine args) (Run.callRoutine eval' routine args) := by
  refine C.bind (C.evalArgs heval args) fun values => C.inspect (fun _ => rfl) fun m => ?_
  refine C.bind (C.forM _ fun gather => C.elementary (.setGather gather)) fun _ => ?_
  refine C.bind (C.forM _ fun chance => C.elementary (.setChance chance)) fun _ => ?_
  exact C.answer _

end Routines

section Calls

theorem localFrame (locals : List VariableDecl) (frame : Frame) :
    R (localFrame locals frame) (Run.localFrame locals frame) := by
  refine C.inspect (fun _ => rfl) fun m => ?_
  split
  · exact C.pure _
  · exact C.leave (by simp)

theorem copyBack (frame : Frame) (back : CopyBack) :
    R (copyBack frame back) (Run.copyBack frame back) := by
  cases back with
  | slot parameter target =>
    simp only [Run.copyBack]
    split
    · exact C.writeKey target _
    · exact C.pure _
  | whole parameter owner => exact C.elementary (.copyWhole frame parameter owner)

theorem copyBacks (frame : Frame) (backs : List CopyBack) :
    R (backs.forM (Run.copyBack frame)) (backs.forM (Run.copyBack frame)) := by
  induction backs with
  | nil => exact C.pure _
  | cons back backs ih => exact C.bind (C.copyBack frame back) fun _ => ih

variable {eval eval' : Expr → Run Value} (heval : ∀ e, R (eval e) (eval' e))
include heval

theorem bindParameter (function : String) (p : Parameter) (arg : Option Expr) (b : Binding) :
    R (bindParameter eval function p arg b) (Run.bindParameter eval' function p arg b) := by
  unfold Run.bindParameter
  dsimp only
  split
  · split
    · exact C.inspect (fun _ => rfl) fun m => C.pure _
    · exact C.fault _
  · split
    · exact C.pure _
    · refine C.bind (heval _) fun v => ?_
      split
      · exact C.bind (C.resolveKey heval _) fun key => C.pure _
      · exact C.pure _

theorem bindParameters (function : String) (ps : List Parameter) (args : List Expr) (b : Binding) :
    R (bindParameters eval function ps args b) (Run.bindParameters eval' function ps args b) := by
  induction ps generalizing args b with
  | nil => exact C.pure _
  | cons p ps ih => exact C.bind (C.bindParameter heval function p _ b) fun b => ih _ b

theorem applyFunction {block block' : List Stmt → Run Flow}
    (hblock : ∀ (frame : Frame) (body : List Stmt),
      R (inFrame frame (block body)) (inFrame frame (block' body)))
    (f : FunctionDef) (args : List Expr) :
    R (applyFunction eval block f args) (Run.applyFunction eval' block' f args) := by
  refine C.bind (C.bindParameters heval f.name f.params args {}) fun b => ?_
  refine C.bind (C.localFrame f.locals b.frame) fun frame => ?_
  refine C.bind (hblock frame f.body) fun left => ?_
  exact C.bind (C.copyBacks left.2 b.copyBacks) fun _ => C.pure _

theorem callFunction {block block' : List Stmt → Run Flow}
    (hblock : ∀ (frame : Frame) (body : List Stmt),
      R (inFrame frame (block body)) (inFrame frame (block' body)))
    (f : FunctionDef) (args : List Expr) :
    R (callFunction eval block f args) (Run.callFunction eval' block' f args) := by
  refine C.inspect (fun _ => rfl) fun m => ?_
  split
  · exact C.bind (C.fault _) fun _ => C.applyFunction heval hblock f args
  · exact C.applyFunction heval hblock f args

omit heval in
theorem callAt {block block' : List Stmt → Run Flow}
    (hcall : ∀ f args,
      R (Run.callFunction eval block f args) (Run.callFunction eval' block' f args))
    (index : Nat) (args : List Expr) :
    R (callAt eval block index args) (Run.callAt eval' block' index args) := by
  refine C.inspect (fun _ => rfl) fun m => ?_
  split
  · exact hcall _ args
  · exact C.fault _

end Calls

section Rounds

theorem sequence {exec exec' : Stmt → Run Flow} (h : ∀ s, R (exec s) (exec' s))
    (body : List Stmt) : R (sequence exec body) (Run.sequence exec' body) := by
  induction body with
  | nil => exact C.pure _
  | cons s rest ih =>
    refine C.bind (h s) fun flow => ?_
    split
    · exact ih
    · exact C.pure _

variable {eval eval' : Expr → Run Value} (heval : ∀ e, R (eval e) (eval' e))
  {block block' : List Stmt → Run Flow} (hblock : ∀ body, R (block body) (block' body))

include heval hblock in
theorem whileRound (condition : Expr) (body : List Stmt) :
    R (whileRound eval block condition body) (Run.whileRound eval' block' condition body) := by
  refine C.bind (heval condition) fun v => ?_
  split
  · exact C.bind (hblock body) fun flow => C.pure _
  · exact C.pure _

include heval hblock in
theorem untilRound (body : List Stmt) (condition : Expr) :
    R (untilRound eval block body condition) (Run.untilRound eval' block' body condition) := by
  refine C.bind (hblock body) fun flow => ?_
  split
  · exact C.pure _
  · refine C.bind (heval condition) fun v => ?_
    split
    · exact C.pure _
    · exact C.pure _

include hblock in
theorem countRound (key : SlotKey) (finish step : Int) (body : List Stmt) :
    R (countRound block key finish step body) (Run.countRound block' key finish step body) := by
  refine C.bind (hblock body) fun flow => ?_
  split
  · exact C.pure _
  · refine C.bind (C.elementary .tick) fun _ => C.bind (C.readKey key) fun v => ?_
    dsimp only
    split
    · exact C.bind (C.writeKey key _) fun _ => C.pure _
    · exact C.pure _

theorem tryCritical {pump pump' : Nat → Run Unit}
    (hsuspend : ∀ delay what, R (suspend pump delay what) (suspend pump' delay what))
    (name : String) : R (tryCritical pump name) (Run.tryCritical pump' name) := by
  refine C.inspect (fun _ => rfl) fun m => ?_
  split
  · exact C.bind (C.elementary (.holdSection name)) fun _ => C.pure _
  · split
    · exact C.bind (C.notice _) fun _ => C.pure _
    · exact C.bind (C.elementary .tick) fun _ => C.bind (hsuspend _ _) fun _ => C.pure _

end Rounds

section Served

variable {eval eval' : Expr → Run Value} (heval : ∀ e, R (eval e) (eval' e))
  {pump pump' : Nat → Run Unit} {n n' : Nat}
  (hsuspend : ∀ delay what, R (suspend pump delay what) (suspend pump' delay what))
  (hsection : ∀ name,
    R (repeatUntil (Run.tryCritical pump name) n) (repeatUntil (Run.tryCritical pump' name) n'))
include heval hsuspend hsection

theorem timingRoutine (name : String) (args : List Expr) (h : name ∈ shiftingNames → Shifts) :
    Option.Rel R (timingRoutine eval pump n name args)
      (Run.timingRoutine eval' pump' n' name args) := by
  unfold Run.timingRoutine
  split
  · exact .some <| C.bind (C.argNumber heval args 0) fun delay =>
      C.bind (hsuspend _ _) fun _ => C.pure _
  · refine .some (C.inspect (fun _ => rfl) fun m => ?_)
    split
    · exact C.bind (hsuspend _ _) fun _ => C.pure _
    · exact C.pure _
  · exact .some <| C.bind (C.pulse heval args) fun _ => C.pure _
  · exact .some <| C.bind (C.argName heval args 0) fun name =>
      C.bind (C.elementary (.cancelWait name (h (by simp [shiftingNames])))) fun _ => C.pure _
  · exact .some <| C.bind (C.elementary (.cancelAllWaits (h (by simp [shiftingNames]))))
      fun _ => C.pure _
  · exact .some <| C.bind (C.argNumber heval args 0) fun delay =>
      C.bind (C.argName heval args 1) fun name =>
        C.bind (C.elementary
          (.retimeWait _ name (hundredths_le _) (h (by simp [shiftingNames])))) fun _ => C.pure _
  · exact .some <| C.bind (C.argName heval args 0) fun name =>
      C.bind (C.createThread name) fun _ => C.pure _
  · exact .some <| C.bind (C.argName heval args 0) fun name => hsection name
  · exact .some <| C.bind (C.argName heval args 0) fun name =>
      C.bind (C.elementary (.freeSection name)) fun _ => C.pure _
  · exact .none

theorem servedRoutine (name : String) (args : List Expr) (h : name ∈ shiftingNames → Shifts) :
    Option.Rel R (servedRoutine eval pump n name args)
      (Run.servedRoutine eval' pump' n' name args) :=
  rel_or (C.timingRoutine heval hsuspend hsection name args h)
    (rel_or (C.fileRoutine heval name args) (C.socketRoutine heval name args))

/-- A relation that is kept by calls of functions is kept by calls of names, the names of the
routines that drop or move waits aside where such runs do not count. -/
theorem call {block block' : List Stmt → Run Flow}
    (hcall : ∀ f args,
      R (Run.callFunction eval block f args) (Run.callFunction eval' block' f args))
    (name : String) (args : List Expr) (h : Text.upper name ∈ shiftingNames → Shifts) :
    R (call eval block pump n name args) (Run.call eval' block' pump' n' name args) := by
  refine C.inspect (fun _ => rfl) fun m => ?_
  split
  · exact C.callAt hcall _ args
  · split
    · exact C.fault _
    · have hserved := C.servedRoutine heval hsuspend hsection (Text.upper name) args h
      generalize Run.servedRoutine eval pump n (Text.upper name) args = x at hserved ⊢
      generalize Run.servedRoutine eval' pump' n' (Text.upper name) args = x' at hserved ⊢
      cases hserved with
      | some h => exact h
      | none =>
        dsimp only
        split
        · exact C.callRoutine heval _ args
        · exact C.fault _

end Served

end Congruence

/--
A relation between runs at one level of nesting: it holds of the parts of statements and
expressions, of suspending, of the loops and of calls.
-/
structure Level (R : {α : Type} → Run α → Run α → Prop) (e₁ e₂ : Expr → Run Value)
    (b₁ b₂ : List Stmt → Run Flow) (p₁ p₂ : Nat → Run Unit) (n₁ n₂ : Nat)
    (Shifts : Prop := True) : Prop extends Congruence R Shifts where
  eval (e : Expr) : R (e₁ e) (e₂ e)
  block (body : List Stmt) : R (b₁ body) (b₂ body)
  suspend (delay : Nat) (what : String) : R (suspend p₁ delay what) (suspend p₂ delay what)
  whileLoop (condition : Expr) (body : List Stmt) :
    R (repeatUntil (whileRound e₁ b₁ condition body) n₁)
      (repeatUntil (whileRound e₂ b₂ condition body) n₂)
  untilLoop (body : List Stmt) (condition : Expr) :
    R (repeatUntil (untilRound e₁ b₁ body condition) n₁)
      (repeatUntil (untilRound e₂ b₂ body condition) n₂)
  countLoop (key : SlotKey) (finish step : Int) (body : List Stmt) :
    R (repeatUntil (countRound b₁ key finish step body) n₁)
      (repeatUntil (countRound b₂ key finish step body) n₂)
  sectionLoop (name : String) :
    R (repeatUntil (tryCritical p₁ name) n₁) (repeatUntil (tryCritical p₂ name) n₂)
  call (name : String) (args : List Expr) :
    R (call e₁ b₁ p₁ n₁ name args) (call e₂ b₂ p₂ n₂ name args)

namespace Level

variable {e₁ e₂ : Expr → Run Value} {b₁ b₂ : List Stmt → Run Flow} {p₁ p₂ : Nat → Run Unit}
  {n₁ n₂ : Nat} (L : Level R e₁ e₂ b₁ b₂ p₁ p₂ n₁ n₂ Shifts)
include L

theorem selects (subject : Value) (runsOn started : Bool) (label : Option Expr) :
    R (selects e₁ subject runsOn started label)
      (Run.selects e₂ subject runsOn started label) := by
  unfold Run.selects
  split
  · split
    · exact L.pure _
    · exact L.bind (L.eval _) fun v => L.pure _
  · exact L.pure _

theorem switchFrom (subject : Value) (runsOn started : Bool)
    (alternatives : List (Alternative Stmt)) :
    R (switchFrom e₁ b₁ subject runsOn started alternatives)
      (Run.switchFrom e₂ b₂ subject runsOn started alternatives) := by
  induction alternatives generalizing started with
  | nil => exact L.pure _
  | cons a rest ih =>
    refine L.bind (L.selects subject runsOn started a.label) fun selected => ?_
    split
    · refine L.bind (L.block a.body) fun flow => ?_
      split
      · split
        · exact ih true
        · exact L.pure _
      · exact L.pure _
      · exact L.pure _
    · exact ih started

theorem counted (counter start finish : Expr) (step : Option Expr) (body : List Stmt) :
    R (Run.countLoop e₁ b₁ n₁ counter start finish step body)
      (Run.countLoop e₂ b₂ n₂ counter start finish step body) := by
  refine L.bind (L.resolveKey L.eval counter) fun key => ?_
  refine L.bind (L.eval start) fun first => L.bind (L.eval finish) fun last => ?_
  have hloop (n : Int) :
      R (do Run.writeKey key (.number first.toNumber)
            if isPast last.toNumber n first.toNumber then return .normal
            else repeatUntil (countRound b₁ key last.toNumber n body) n₁)
        (do Run.writeKey key (.number first.toNumber)
            if isPast last.toNumber n first.toNumber then return .normal
            else repeatUntil (countRound b₂ key last.toNumber n body) n₂) := by
    refine L.bind (L.writeKey key _) fun _ => ?_
    split
    · exact L.pure _
    · exact L.countLoop key _ n body
  split
  · exact L.bind (L.eval _) fun n => L.bind (L.pure _) hloop
  · exact L.bind (L.pure _) hloop

theorem statement (s : Stmt) :
    R (statement e₁ b₁ p₁ n₁ s) (Run.statement e₂ b₂ p₂ n₂ s) := by
  cases s with
  | branch pos condition thenBody elseBody =>
    refine L.bind (L.eval condition) fun v => ?_
    split
    · exact L.block thenBody
    · exact L.block _
  | count pos counter start finish step body =>
    exact L.counted counter start finish step body
  | whileLoop pos condition body => exact L.whileLoop condition body
  | untilLoop pos body condition => exact L.untilLoop body condition
  | switch pos subject alternatives runsOn =>
    exact L.bind (L.eval subject) fun v => L.switchFrom v runsOn false alternatives
  | wait pos duration label body =>
    refine L.bind (L.eval duration) fun v => ?_
    cases body with
    | none => exact L.bind (L.suspend _ _) fun _ => L.pure _
    | some body =>
      have hdelay := hundredths_le v.toNumber
      exact L.bind (L.elementary (.scheduleWait _ label body hdelay)) fun _ => L.pure _
  | assign pos target value =>
    exact L.bind (L.eval value) fun v => L.bind (L.resolveKey L.eval target) fun key =>
      L.bind (L.writeKey key v) fun _ => L.pure _
  | call pos routine => exact L.bind (L.eval routine) fun _ => L.pure _
  | returns pos value =>
    cases value with
    | none => exact L.pure _
    | some e => exact L.bind (L.eval e) fun v => L.pure _
  | breaks pos => exact L.pure _
  | terminateEvent pos => exact L.leave (by simp)
  | block pos body => exact L.block body

theorem applyBinary (op : BinaryOp) (a b : Value) :
    R (applyBinary op a b) (Run.applyBinary op a b) := by
  unfold Run.applyBinary
  split
  · exact L.pure _
  · split
    · exact L.fault _
    · split
      · exact L.bind (L.notice _) fun _ => L.pure _
      · exact L.pure _

theorem expression (e : Expr) :
    R (expression e₁ b₁ p₁ n₁ e) (Run.expression e₂ b₂ p₂ n₂ e) := by
  unfold Run.expression
  split
  · exact L.pure _
  · exact L.pure _
  · exact L.bind (L.resolveKey L.eval _) fun key => L.readKey key
  · exact L.bind (L.resolveKey L.eval _) fun key => L.readKey key
  · exact L.bind (L.resolveKey L.eval _) fun key => L.readKey key
  · exact L.bind (L.eval _) fun v => L.pure _
  · exact L.fault _
  · exact L.bind (L.eval _) fun a => L.bind (L.eval _) fun b => L.applyBinary _ a b
  · exact L.call _ _

end Level

/--
A property that is kept when runs are put together and runs through all code: it is kept when faults
get a place, and it holds of suspending, of calls and of the end of the fuel. Where runs that drop
or move waits do not count, it holds of calls of the names that such routines have.
-/
structure Pervades (P : {α : Type} → Run α → Prop) (pump : Nat → Run Unit)
    (Shifts : Prop := True) : Prop extends Closed P Shifts where
  exhausted {α : Type} : P (throw .exhausted : Run α)
  locatedAt {α : Type} {x : Run α} (p : Position) : P x → P (locatedAt p x)
  suspend (delay : Nat) (what : String) : P (suspend pump delay what)
  call {eval : Expr → Run Value} {block : List Stmt → Run Flow} :
    (∀ e, P (eval e)) → (∀ body, P (block body)) → ∀ f args, P (callFunction eval block f args)
  shifting {eval : Expr → Run Value} {block : List Stmt → Run Flow} :
    (∀ e, P (eval e)) → (∀ body, P (block body)) → ∀ n name args,
      Text.upper name ∈ shiftingNames → Shifts ∨ P (Run.call eval block pump n name args) := by
    exact fun _ _ _ _ _ _ => .inl trivial

namespace Pervades

variable {P : {α : Type} → Run α → Prop} {pump : Nat → Run Unit} (h : Pervades P pump Shifts)
include h

theorem repeatUntil {α : Type} {round : Run (Option α)} (hround : P round) (n : Nat) :
    P (repeatUntil round n) := by
  induction n with
  | zero => exact h.exhausted
  | succ n ih =>
    refine h.bind hround fun a => ?_
    cases a with
    | none => exact ih
    | some a => exact h.pure a

theorem level {eval : Expr → Run Value} {block : List Stmt → Run Flow} (n : Nat)
    (heval : ∀ e, P (eval e)) (hblock : ∀ body, P (block body)) :
    Level (Itself P) eval eval block block pump pump n n Shifts := by
  have C := h.toClosed.congruence
  have heval' (e : Expr) : Itself P (eval e) (eval e) := ⟨rfl, heval e⟩
  have hblock' (body : List Stmt) : Itself P (block body) (block body) := ⟨rfl, hblock body⟩
  have hsuspend (delay : Nat) (what : String) :
      Itself P (Run.suspend pump delay what) (Run.suspend pump delay what) :=
    ⟨rfl, h.suspend delay what⟩
  have hsection (name : String) : Itself P (Run.repeatUntil (tryCritical pump name) n)
      (Run.repeatUntil (tryCritical pump name) n) :=
    ⟨rfl, h.repeatUntil (C.tryCritical hsuspend name).2 n⟩
  have hcall (name : String) (args : List Expr) : P (Run.call eval block pump n name args) := by
    have hserved := C.call heval' hsuspend hsection
      (fun f args => ⟨rfl, h.call heval hblock f args⟩) name args
    by_cases hname : Text.upper name ∈ shiftingNames
    · exact (h.shifting heval hblock n name args hname).elim (fun hs => (hserved fun _ => hs).2) id
    · exact (hserved fun hin => absurd hin hname).2
  exact
    { toCongruence := C
      eval := heval'
      block := hblock'
      suspend := hsuspend
      whileLoop := fun condition body =>
        ⟨rfl, h.repeatUntil (C.whileRound heval' hblock' condition body).2 n⟩
      untilLoop := fun body condition =>
        ⟨rfl, h.repeatUntil (C.untilRound heval' hblock' body condition).2 n⟩
      countLoop := fun key finish step body =>
        ⟨rfl, h.repeatUntil (C.countRound hblock' key finish step body).2 n⟩
      sectionLoop := hsection
      call := fun name args => ⟨rfl, hcall name args⟩ }

theorem eval_exec (fuel : Nat) :
    (∀ e, P (eval pump fuel e)) ∧ ∀ s, P (exec pump fuel s) := by
  induction fuel with
  | zero => exact ⟨fun _ => h.exhausted, fun _ => h.exhausted⟩
  | succ fuel ih =>
    obtain ⟨heval, hexec⟩ := ih
    have hblock := fun body =>
      (h.toClosed.congruence.sequence (fun s => ⟨rfl, hexec s⟩) body).2
    have L := h.level fuel heval hblock
    refine ⟨fun e => ?_, fun s => ?_⟩
    · exact h.bind (h.elementary .tick) fun _ => (L.expression e).2
    · exact h.bind (h.elementary .tick) fun _ => h.locatedAt s.pos (L.statement s).2

theorem block (fuel : Nat) (body : List Stmt) : P (block pump fuel body) :=
  (h.toClosed.congruence.sequence (fun s => ⟨rfl, (h.eval_exec fuel).2 s⟩) body).2

theorem callFunction (fuel : Nat) (f : FunctionDef) (args : List Expr) :
    P (callFunction (eval pump fuel) (Run.block pump fuel) f args) :=
  h.call (h.eval_exec fuel).1 (h.block fuel) f args

theorem callAt (fuel index : Nat) (args : List Expr) :
    P (callAt (eval pump fuel) (Run.block pump fuel) index args) :=
  (h.toClosed.congruence.callAt (fun f args => ⟨rfl, h.callFunction fuel f args⟩) index args).2

end Pervades

end Run

end ControlLogic
