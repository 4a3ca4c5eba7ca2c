import ControlLogic.Proofs.Machine.Passage

/-!
Code that runs to its end at once does end. Each level of nesting and each round of a loop takes a
step, so that the steps are used up before the fuel is; fuel beyond that makes no difference.
-/

set_option autoImplicit false
set_option relaxedAutoImplicit false

namespace ControlLogic

namespace Machine

/-- Code runs to its end at once, and the fuel is more than the steps it can still take. -/
structure Outlasts (fuel : Nat) (m : Machine) : Prop where
  immediate : m.mode = .immediate
  pos : 0 < fuel
  limit : m.config.stepLimit + 2 ≤ fuel + m.steps

/-- What holds of how a run from `m` ended: not for want of fuel, and with steps taken only as far
as the limit, or one more if it did not give a value. -/
def Paces {α : Type} (m : Machine) : EStateM.Result Unwind Machine α → Prop
  | .ok _ m' => m'.mode = m.mode ∧ m'.config = m.config ∧ m.steps ≤ m'.steps ∧
      m'.steps ≤ max m.steps m.config.stepLimit
  | .error u m' => u ≠ .exhausted ∧ m.steps ≤ m'.steps ∧
      m'.steps ≤ max m.steps m.config.stepLimit + 1

/-- A run from `m` ended otherwise than for want of fuel, after at most one step more than the
limit. -/
def EndsWithin {α : Type} (m : Machine) : EStateM.Result Unwind Machine α → Prop
  | .ok _ m' => m.steps ≤ m'.steps ∧ m'.steps - m.steps ≤ m.config.stepLimit + 1
  | .error u m' => u ≠ .exhausted ∧ m.steps ≤ m'.steps ∧
      m'.steps - m.steps ≤ m.config.stepLimit + 1

/-- A run from `m` ends with the fuel a machine gives it, and more fuel does not change how. -/
def Ends {α : Type} (m : Machine) (run : Nat → Run α) : Prop :=
  m.EndsWithin (run m.fuel m) ∧ ∀ fuel, m.fuel ≤ fuel → run fuel m = run m.fuel m

private theorem Paces.endsWithin {α : Type} {m : Machine} {r : EStateM.Result Unwind Machine α}
    (h : m.Paces r) : m.EndsWithin r := by
  cases r with
  | ok a m' =>
    obtain ⟨-, -, hle, hmax⟩ := h
    exact ⟨hle, by omega⟩
  | error u m' =>
    obtain ⟨hu, hle, hmax⟩ := h
    exact ⟨hu, hle, by omega⟩

private theorem outlasts_fuel {m : Machine} (h : m.mode = .immediate) : m.Outlasts m.fuel :=
  ⟨h, by unfold fuel; omega, by unfold fuel; omega⟩

theorem Outlasts.after_ok {α : Type} {fuel : Nat} {m m' : Machine} {a : α} (h : m.Outlasts fuel)
    (hp : m.Paces (.ok a m')) : m'.Outlasts fuel := by
  obtain ⟨hmode, hconfig, hle, -⟩ := hp
  have hlimit := h.limit
  exact ⟨hmode.trans h.immediate, h.pos, by rw [hconfig]; omega⟩

theorem Paces.trans {α β : Type} {m m' : Machine} {a : α} {r : EStateM.Result Unwind Machine β}
    (h : m.Paces (.ok a m')) (hr : m'.Paces r) : m.Paces r := by
  obtain ⟨hmode, hconfig, hle, hmax⟩ := h
  cases r with
  | ok b m'' =>
    obtain ⟨hmode', hconfig', hle', hmax'⟩ := hr
    rw [hconfig] at hmax'
    exact ⟨hmode'.trans hmode, hconfig'.trans hconfig, by omega, by omega⟩
  | error u m'' =>
    obtain ⟨hu, hle', hmax'⟩ := hr
    rw [hconfig] at hmax'
    exact ⟨hu, by omega, by omega⟩

private theorem paces_ok {α : Type} {m m' : Machine} (a : α) (hmode : m'.mode = m.mode)
    (hconfig : m'.config = m.config) (hsteps : m'.steps = m.steps) : m.Paces (.ok a m') :=
  ⟨hmode, hconfig, by omega, by omega⟩

private theorem paces_error {α : Type} {m : Machine} {u : Unwind} (h : u ≠ .exhausted) :
    m.Paces (.error u m : EStateM.Result Unwind Machine α) :=
  ⟨h, by omega, by omega⟩

/-- Two machines with the same settings, whose code runs the same way and has taken as many
steps. -/
structure Alike (m m' : Machine) : Prop where
  mode : m'.mode = m.mode
  config : m'.config = m.config
  steps : m'.steps = m.steps

end Machine

namespace Run

def Paced (fuel : Nat) {α : Type} (x : Run α) : Prop :=
  ∀ m : Machine, m.Outlasts fuel → m.Paces (x m)

/-- A run takes a step whenever it gives a value of some kind. -/
def Ticks (fuel : Nat) {α : Type} (P : α → Prop) (x : Run α) : Prop :=
  ∀ m m' : Machine, ∀ a : α, m.Outlasts fuel → x m = .ok a m' → P a → m.steps < m'.steps

variable {fuel : Nat}

private theorem paced_pure {α : Type} (a : α) : Paced fuel (pure a) :=
  fun _ _ => Machine.paces_ok a rfl rfl rfl

private theorem paced_leave {α : Type} {u : Unwind} (h : u ≠ .exhausted) :
    Paced fuel (throw u : Run α) :=
  fun _ _ => Machine.paces_error h

theorem Paced.bind {α β : Type} {x : Run α} {f : α → Run β} (hx : Paced fuel x)
    (hf : ∀ a, Paced fuel (f a)) : Paced fuel (x >>= f) := by
  intro m hm
  have hfirst := hx m hm
  cases h : x m with
  | ok a m' =>
    rw [h] at hfirst
    rw [bind_ok h]
    exact hfirst.trans (hf a m' (hm.after_ok hfirst))
  | error u m' =>
    rw [h] at hfirst
    rw [bind_error h]
    exact hfirst

private theorem paced_tick : Paced fuel tick := by
  intro m _
  unfold tick
  dsimp only
  split
  next hlimit =>
    refine ⟨by simp, ?_, ?_⟩ <;> dsimp only <;> omega
  next hlimit =>
    split
    · refine ⟨by simp, ?_, ?_⟩ <;> dsimp only <;> omega
    · refine ⟨rfl, rfl, ?_, ?_⟩ <;> dsimp only <;> omega

private theorem paced_modifyGet {α : Type} {f : Machine → α × Machine}
    (h : ∀ m : Machine, m.Alike (f m).2) :
    Paced fuel (modifyGet f) := by
  intro m _
  obtain ⟨hmode, hconfig, hsteps⟩ := h m
  exact Machine.paces_ok _ hmode hconfig hsteps

private theorem paced_modify {f : Machine → Machine} (h : ∀ m : Machine, m.Alike (f m)) :
    Paced fuel (modify f) :=
  paced_modifyGet h

private theorem paced_inspect {α : Type} {f : Machine → Run α} (h : ∀ m, Paced fuel (f m)) :
    Paced fuel (get >>= f) :=
  fun m hm => h m m hm

private theorem paced_checkAbort : Paced fuel checkAbort := by
  refine paced_inspect fun m => ?_
  split
  · exact paced_leave (by simp)
  · exact paced_pure ()

private theorem paced_scheduleWait (delay : Nat) (label : Option String) (body : List Stmt) :
    Paced fuel (scheduleWait delay label body) := by
  have hlabel : Paced fuel (waitLabel label) := by
    unfold waitLabel
    split
    · exact paced_pure _
    · exact paced_modifyGet fun m => ⟨rfl, rfl, rfl⟩
  refine paced_checkAbort.bind fun _ => hlabel.bind fun name => paced_inspect fun m => ?_
  split
  · exact paced_modify fun m => ⟨rfl, rfl, rfl⟩
  · exact paced_modify fun m => ⟨rfl, rfl, rfl⟩

private theorem Primitive.paced {α : Type} {x : Run α} (h : Primitive x) : Paced fuel x := by
  cases h with
  | tell event => exact paced_modify fun m => ⟨rfl, rfl, rfl⟩
  | tick => exact paced_tick
  | tryWrite key v =>
    intro m _
    unfold Run.tryWrite
    split
    next target h =>
      obtain ⟨scope, signals, indices, last, log, hwritten⟩ := m.writeTo_eq key v target
      rw [hwritten]
      exact Machine.paces_ok none rfl rfl rfl
    next f h => exact Machine.paces_ok (some f) rfl rfl rfl
  | copyWhole frame parameter owner =>
    refine paced_modify fun m => ?_
    obtain ⟨scope, hcopied⟩ := m.copyWhole_eq frame parameter owner
    rw [hcopied]
    exact ⟨rfl, rfl, rfl⟩
  | plan delay h =>
    exact paced_checkAbort.bind fun _ => paced_modify fun m => ⟨rfl, rfl, rfl⟩
  | scheduleWait delay label body => exact paced_scheduleWait delay label body
  | cancelWait name =>
    refine paced_modify fun m => ?_
    split
    · exact ⟨rfl, rfl, rfl⟩
    · exact ⟨rfl, rfl, rfl⟩
  | cancelAllWaits => exact paced_modify fun m => ⟨rfl, rfl, rfl⟩
  | retimeWait delay name =>
    refine paced_modify fun m => ?_
    split
    · exact ⟨rfl, rfl, rfl⟩
    · exact ⟨rfl, rfl, rfl⟩
  | holdSection name => exact paced_modify fun m => ⟨rfl, rfl, rfl⟩
  | freeSection name => exact paced_modify fun m => ⟨rfl, rfl, rfl⟩
  | withFiles f => exact paced_modifyGet fun m => ⟨rfl, rfl, rfl⟩
  | withNetwork f => exact paced_modifyGet fun m => ⟨rfl, rfl, rfl⟩
  | setGather gather => exact paced_modify fun m => ⟨rfl, rfl, rfl⟩
  | setChance chance => exact paced_modify fun m => ⟨rfl, rfl, rfl⟩

private theorem paced_closed : Closed (Paced fuel) where
  pure := paced_pure
  leave := paced_leave
  bind hx hf := hx.bind hf
  inspect _ h := paced_inspect h
  elementary h :=
    h.elementary.of_primitive (P := Paced fuel) paced_pure Paced.bind paced_inspect Primitive.paced

theorem Paced.inFrame {α : Type} {x : Run α} (hx : Paced fuel x) (frame : Frame) :
    Paced fuel (inFrame frame x) := by
  intro m hm
  have hinner := hx (m.enter frame) ⟨hm.immediate, hm.pos, hm.limit⟩
  unfold Run.inFrame
  cases h : x (m.enter frame) with
  | ok a m' =>
    rw [h] at hinner
    exact hinner
  | error u m' =>
    rw [h] at hinner
    exact hinner

private theorem paced_locatedAt {α : Type} {x : Run α} (hx : Paced fuel x) (p : Position) :
    Paced fuel (locatedAt p x) := by
  intro m hm
  have hinner := hx m hm
  unfold locatedAt
  cases h : x m with
  | ok a m' =>
    rw [h] at hinner
    exact hinner
  | error u m' =>
    rw [h] at hinner
    obtain ⟨hu, hle, hmax⟩ := hinner
    refine ⟨?_, hle, hmax⟩
    cases u with
    | fault f pos => cases pos <;> simp [Unwind.located]
    | exhausted => exact absurd rfl hu
    | _ => simp [Unwind.located]

private theorem paced_suspend (pump : Nat → Run Unit) (delay : Nat) (what : String) :
    Paced fuel (suspend pump delay what) := by
  intro m hm
  rw [suspend_immediate hm.immediate]
  exact Machine.paces_ok _ rfl rfl rfl

private theorem paced_sectionLoop (pump : Nat → Run Unit) (name : String) :
    Paced fuel (repeatUntil (tryCritical pump name) fuel) := by
  intro m hm
  obtain ⟨n, rfl⟩ : ∃ n, fuel = n + 1 := ⟨fuel - 1, by have := hm.pos; omega⟩
  have htried : ∃ v m', tryCritical pump name m = .ok (some v) m' ∧ m.Alike m' := by
    by_cases hfree : m.critical.contains name = true
    · refine ⟨.zero, m.tell (.notice s!"Critical section '{name}' is held"), ?_, rfl, rfl, rfl⟩
      change (if !m.critical.contains name then _ else if m.mode = .immediate then _ else _ :
        Run (Option Value)) m = _
      rw [hfree, if_neg (by simp), if_pos hm.immediate]
      rfl
    · refine ⟨.number 1, { m with critical := m.critical.insert name }, ?_, rfl, rfl, rfl⟩
      change (if !m.critical.contains name then _ else if m.mode = .immediate then _ else _ :
        Run (Option Value)) m = _
      rw [if_pos (by simpa using hfree)]
      rfl
  obtain ⟨v, m', hv, hmode, hconfig, hsteps⟩ := htried
  change m.Paces ((tryCritical pump name >>= _) m)
  rw [bind_ok hv]
  exact Machine.paces_ok v hmode hconfig hsteps

/-- A loop keeps pace if its round does and takes a step whenever it asks for another one. The
rounds left outlast the steps just as the fuel does. -/
theorem Paced.repeatUntil {α : Type} {round : Run (Option α)} (hround : Paced fuel round)
    (hticks : Ticks fuel (· = none) round) : Paced fuel (repeatUntil round fuel) := by
  have hrounds : ∀ (n : Nat) (m : Machine), m.Outlasts fuel → m.Outlasts n →
      m.Paces (Run.repeatUntil round n m) := by
    intro n
    induction n with
    | zero =>
      intro m _ hn
      exact absurd hn.pos (by omega)
    | succ n ih =>
      intro m hm hn
      have hfirst := hround m hm
      change m.Paces ((round >>= _) m)
      cases h : round m with
      | error u m' =>
        rw [h] at hfirst
        rw [bind_error h]
        exact hfirst
      | ok a m' =>
        rw [h] at hfirst
        rw [bind_ok h]
        cases a with
        | some a => exact hfirst.trans (Machine.paces_ok a rfl rfl rfl)
        | none =>
          have hlt := hticks m m' none hm h rfl
          obtain ⟨hmode, hconfig, -, hmax⟩ := id hfirst
          have hlimit := hn.limit
          refine hfirst.trans (ih m' (hm.after_ok hfirst) ⟨hmode.trans hm.immediate, ?_, ?_⟩)
          · omega
          · rw [hconfig]
            omega
  intro m hm
  exact hrounds fuel m hm hm

private theorem Ticks.bind_first {α β : Type} {P : β → Prop} {x : Run α} {f : α → Run β}
    (hx : Paced fuel x) (hticks : Ticks fuel (fun _ => True) x) (hf : ∀ a, Paced fuel (f a)) :
    Ticks fuel P (x >>= f) := by
  intro m m'' b hm h _
  cases hr : x m with
  | error u m' =>
    rw [bind_error hr] at h
    cases h
  | ok a m' =>
    rw [bind_ok hr] at h
    have hfirst := hx m hm
    rw [hr] at hfirst
    have hrest := hf a m' (hm.after_ok hfirst)
    rw [h] at hrest
    have hlt := hticks m m' a hm hr trivial
    obtain ⟨-, -, hle, -⟩ := hrest
    omega

private theorem Ticks.bind_rest {α β : Type} {P : β → Prop} {x : Run α} {f : α → Run β}
    (hx : Paced fuel x) (hf : ∀ a, Ticks fuel P (f a)) : Ticks fuel P (x >>= f) := by
  intro m m'' b hm h hb
  cases hr : x m with
  | error u m' =>
    rw [bind_error hr] at h
    cases h
  | ok a m' =>
    rw [bind_ok hr] at h
    have hfirst := hx m hm
    rw [hr] at hfirst
    have hlt := hf a m' m'' b (hm.after_ok hfirst) h hb
    obtain ⟨-, -, hle, -⟩ := hfirst
    omega

private theorem ticks_tick : Ticks fuel (fun _ => True) tick := by
  intro m m' a _ h _
  unfold tick at h
  dsimp only at h
  split at h
  · cases h
  · split at h
    · cases h
    · cases h
      exact Nat.lt_succ_self m.steps

private theorem ticks_pure {α : Type} {P : α → Prop} {a : α} (h : ¬ P a) :
    Ticks fuel P (pure a) := by
  intro m m' b _ hb hP
  cases hb
  exact absurd hP h

private theorem tick_ok {m m' : Machine} (h : tick m = .ok () m') (hm : m.Outlasts (fuel + 1)) :
    m.Paces (.ok () m') ∧ m'.Outlasts fuel := by
  have hpace := paced_tick m hm
  have hlt := ticks_tick m m' () hm h trivial
  rw [h] at hpace
  obtain ⟨hmode, hconfig, -, hmax⟩ := id hpace
  have hlimit := hm.limit
  refine ⟨hpace, hmode.trans hm.immediate, by omega, ?_⟩
  rw [hconfig]
  omega

theorem Paced.tick_bind {α : Type} {x : Run α} (hx : Paced fuel x) :
    Paced (fuel + 1) (do tick; x) := by
  intro m hm
  cases h : tick m with
  | error u m' =>
    have hpace := paced_tick m hm
    rw [h] at hpace
    rw [bind_error h]
    exact hpace
  | ok a m' =>
    obtain ⟨hpace, hm'⟩ := tick_ok h hm
    rw [bind_ok h]
    exact hpace.trans (hx m' hm')

private theorem Paced.ticks_tick_bind {α : Type} {x : Run α} (hx : Paced fuel x) :
    Ticks (fuel + 1) (fun _ => True) (do tick; x) := by
  intro m m'' a hm h _
  cases ht : tick m with
  | error u m' =>
    rw [bind_error ht] at h
    cases h
  | ok b m' =>
    obtain ⟨-, hm'⟩ := tick_ok ht hm
    have hlt := ticks_tick m m' () hm ht trivial
    rw [bind_ok ht] at h
    have hrest := hx m' hm'
    rw [h] at hrest
    obtain ⟨-, -, hle, -⟩ := hrest
    omega

/-- Where the parts of statements and expressions keep pace, and expressions take steps, all the
loops and calls made of them keep pace. -/
private theorem paced_level {eval : Expr → Run Value} {block : List Stmt → Run Flow}
    (pump : Nat → Run Unit) (heval : ∀ e, Paced fuel (eval e))
    (hticks : ∀ e, Ticks fuel (fun _ => True) (eval e)) (hblock : ∀ body, Paced fuel (block body)) :
    Level (Itself (Paced fuel)) eval eval block block pump pump fuel fuel := by
  have C := (paced_closed : Closed (Paced fuel)).congruence
  have heval' (e : Expr) : Itself (Paced fuel) (eval e) (eval e) := ⟨rfl, heval e⟩
  have hblock' (body : List Stmt) : Itself (Paced fuel) (block body) (block body) :=
    ⟨rfl, hblock body⟩
  have hsuspend (delay : Nat) (what : String) :
      Itself (Paced fuel) (suspend pump delay what) (suspend pump delay what) :=
    ⟨rfl, paced_suspend pump delay what⟩
  have hsection (name : String) :
      Itself (Paced fuel) (repeatUntil (tryCritical pump name) fuel)
        (repeatUntil (tryCritical pump name) fuel) :=
    ⟨rfl, paced_sectionLoop pump name⟩
  refine
    { toCongruence := C
      eval := heval'
      block := hblock'
      suspend := hsuspend
      whileLoop := fun condition body => ⟨rfl, ?_⟩
      untilLoop := fun body condition => ⟨rfl, ?_⟩
      countLoop := fun key finish step body => ⟨rfl, ?_⟩
      sectionLoop := hsection
      call := fun name args => C.call heval' hsuspend hsection (C.callFunction heval'
        fun frame body => ⟨rfl, (hblock body).inFrame frame⟩) name args fun _ => trivial }
  · refine (C.whileRound heval' hblock' condition body).2.repeatUntil ?_
    refine .bind_first (heval condition) (hticks condition) fun v => ?_
    split
    · exact (hblock body).bind fun flow => paced_pure _
    · exact paced_pure _
  · refine (C.untilRound heval' hblock' body condition).2.repeatUntil ?_
    refine .bind_rest (hblock body) fun flow => ?_
    split
    · exact ticks_pure (by simp)
    · refine .bind_first (heval condition) (hticks condition) fun v => ?_
      split
      · exact paced_pure _
      · exact paced_pure _
  · refine (C.countRound hblock' key finish step body).2.repeatUntil ?_
    refine .bind_rest (hblock body) fun flow => ?_
    split
    · exact ticks_pure (by simp)
    · refine .bind_first paced_tick ticks_tick fun _ => ?_
      refine (C.readKey key).2.bind fun v => ?_
      dsimp only
      split
      · exact (C.writeKey key _).2.bind fun _ => paced_pure _
      · exact paced_pure _

private theorem paced_eval_exec (pump : Nat → Run Unit) (fuel : Nat) :
    (∀ e, Paced fuel (eval pump fuel e) ∧ Ticks fuel (fun _ => True) (eval pump fuel e)) ∧
      ∀ s, Paced fuel (exec pump fuel s) := by
  induction fuel with
  | zero =>
    refine ⟨fun e => ⟨?_, ?_⟩, fun s => ?_⟩
    · intro m hm
      exact absurd hm.pos (by omega)
    · intro m m' v hm
      exact absurd hm.pos (by omega)
    · intro m hm
      exact absurd hm.pos (by omega)
  | succ fuel ih =>
    obtain ⟨heval, hexec⟩ := ih
    have hblock := fun body =>
      (paced_closed.congruence.sequence (fun s => ⟨rfl, hexec s⟩) body).2
    have L := paced_level pump (fun e => (heval e).1) (fun e => (heval e).2) hblock
    refine ⟨fun e => ⟨?_, ?_⟩, fun s => ?_⟩
    · exact (L.expression e).2.tick_bind
    · exact (L.expression e).2.ticks_tick_bind
    · exact (paced_locatedAt (L.statement s).2 s.pos).tick_bind

private theorem paced_eval (pump : Nat → Run Unit) (fuel : Nat) (e : Expr) :
    Paced fuel (eval pump fuel e) :=
  ((paced_eval_exec pump fuel).1 e).1

private theorem paced_block (pump : Nat → Run Unit) (fuel : Nat) (body : List Stmt) :
    Paced fuel (block pump fuel body) :=
  (paced_closed.congruence.sequence (fun s => ⟨rfl, (paced_eval_exec pump fuel).2 s⟩) body).2

private theorem paced_callFunction (pump : Nat → Run Unit) (fuel : Nat) (f : FunctionDef)
    (args : List Expr) :
    Paced fuel (callFunction (eval pump fuel) (block pump fuel) f args) :=
  (paced_closed.congruence.callFunction (fun e => ⟨rfl, paced_eval pump fuel e⟩)
    (fun frame body => ⟨rfl, (paced_block pump fuel body).inFrame frame⟩) f args).2

/-- A run does what another one does, unless it ends for want of fuel. -/
def Agrees {α : Type} (x y : Run α) : Prop :=
  ∀ m : Machine, (∃ m', x m = .error .exhausted m') ∨ x m = y m

theorem agrees_refl {α : Type} (x : Run α) : Agrees x x :=
  fun _ => .inr rfl

theorem Agrees.bind {α β : Type} {x x' : Run α} {f f' : α → Run β} (hx : Agrees x x')
    (hf : ∀ a, Agrees (f a) (f' a)) : Agrees (x >>= f) (x' >>= f') := by
  intro m
  obtain ⟨m', h⟩ | hsame := hx m
  · exact .inl ⟨m', bind_error h f⟩
  · cases h : x m with
    | error u m' =>
      rw [bind_error h, bind_error (hsame.symm.trans h)]
      exact .inr rfl
    | ok a m' =>
      rw [bind_ok h, bind_ok (hsame.symm.trans h)]
      exact hf a m'

private theorem agrees_congruence : Congruence Agrees where
  pure _ := agrees_refl _
  leave _ := agrees_refl _
  bind hx hf := hx.bind hf
  inspect _ h := fun m => h m m
  elementary _ := agrees_refl _

theorem Agrees.inFrame {α : Type} {x x' : Run α} (hx : Agrees x x') (frame : Frame) :
    Agrees (inFrame frame x) (inFrame frame x') := by
  intro m
  unfold Run.inFrame
  obtain ⟨m', h⟩ | hsame := hx (m.enter frame)
  · exact .inl ⟨m'.leave, by rw [h]⟩
  · exact .inr (by rw [hsame])

theorem Agrees.locatedAt {α : Type} {x x' : Run α} (hx : Agrees x x') (p : Position) :
    Agrees (locatedAt p x) (locatedAt p x') := by
  intro m
  unfold Run.locatedAt
  obtain ⟨m', h⟩ | hsame := hx m
  · exact .inl ⟨m', by rw [h]; rfl⟩
  · exact .inr (by rw [hsame])

theorem Agrees.repeatUntil {α : Type} {round round' : Run (Option α)} (h : Agrees round round')
    {n n' : Nat} (hn : n ≤ n') : Agrees (repeatUntil round n) (repeatUntil round' n') := by
  induction n generalizing n' with
  | zero =>
    intro m
    exact .inl ⟨m, rfl⟩
  | succ n ih =>
    obtain ⟨k, rfl⟩ : ∃ k, n' = k + 1 := ⟨n' - 1, by omega⟩
    refine h.bind fun a => ?_
    cases a with
    | none => exact ih (by omega)
    | some a => exact agrees_refl _

private theorem agrees_level {eval eval' : Expr → Run Value} {block block' : List Stmt → Run Flow}
    (pump : Nat → Run Unit) (heval : ∀ e, Agrees (eval e) (eval' e))
    (hblock : ∀ body, Agrees (block body) (block' body)) {n n' : Nat} (hn : n ≤ n') :
    Level Agrees eval eval' block block' pump pump n n' where
  toCongruence := agrees_congruence
  eval := heval
  block := hblock
  suspend _ _ := agrees_refl _
  whileLoop condition body :=
    (agrees_congruence.whileRound heval hblock condition body).repeatUntil hn
  untilLoop body condition :=
    (agrees_congruence.untilRound heval hblock body condition).repeatUntil hn
  countLoop key finish step body :=
    (agrees_congruence.countRound hblock key finish step body).repeatUntil hn
  sectionLoop name := (agrees_refl (tryCritical pump name)).repeatUntil hn
  call name args := agrees_congruence.call heval (fun _ _ => agrees_refl _)
    (fun name => (agrees_refl (tryCritical pump name)).repeatUntil hn)
    (agrees_congruence.callFunction heval fun frame body => (hblock body).inFrame frame) name args
    fun _ => trivial

private theorem agrees_eval_exec (pump : Nat → Run Unit) {fuel fuel' : Nat} (h : fuel ≤ fuel') :
    (∀ e, Agrees (eval pump fuel e) (eval pump fuel' e)) ∧
      ∀ s, Agrees (exec pump fuel s) (exec pump fuel' s) := by
  induction fuel generalizing fuel' with
  | zero => exact ⟨fun e m => .inl ⟨m, rfl⟩, fun s m => .inl ⟨m, rfl⟩⟩
  | succ fuel ih =>
    obtain ⟨k, rfl⟩ : ∃ k, fuel' = k + 1 := ⟨fuel' - 1, by omega⟩
    have hle : fuel ≤ k := by omega
    obtain ⟨heval, hexec⟩ := ih hle
    have L := agrees_level pump heval (agrees_congruence.sequence hexec) hle
    refine ⟨fun e => ?_, fun s => ?_⟩
    · exact (agrees_refl tick).bind fun _ => L.expression e
    · exact (agrees_refl tick).bind fun _ => (L.statement s).locatedAt s.pos

private theorem agrees_block (pump : Nat → Run Unit) {fuel fuel' : Nat} (h : fuel ≤ fuel')
    (body : List Stmt) : Agrees (block pump fuel body) (block pump fuel' body) :=
  agrees_congruence.sequence (agrees_eval_exec pump h).2 body

private theorem agrees_callFunction (pump : Nat → Run Unit) {fuel fuel' : Nat} (h : fuel ≤ fuel')
    (f : FunctionDef) (args : List Expr) :
    Agrees (callFunction (eval pump fuel) (block pump fuel) f args)
      (callFunction (eval pump fuel') (block pump fuel') f args) :=
  agrees_congruence.callFunction (agrees_eval_exec pump h).1
    (fun frame body => (agrees_block pump h body).inFrame frame) f args

private theorem ends_of_paced {α : Type} {m : Machine} {run : Nat → Run α} (h : m.mode = .immediate)
    (hpaced : ∀ fuel, Paced fuel (run fuel))
    (hagrees : ∀ fuel fuel', fuel ≤ fuel' → Agrees (run fuel) (run fuel')) : m.Ends run := by
  have hpaces := hpaced m.fuel m (Machine.outlasts_fuel h)
  refine ⟨hpaces.endsWithin, fun fuel hle => ?_⟩
  obtain ⟨m', hexhausted⟩ | hsame := hagrees m.fuel fuel hle m
  · rw [hexhausted] at hpaces
    exact absurd rfl hpaces.1
  · exact hsame.symm

private theorem paced_immediateBlock (body : List Stmt) : Paced fuel (immediateBlock body) :=
  fun m hm => paced_block noPump m.fuel body m (Machine.outlasts_fuel hm.immediate)

private theorem paced_immediateCall (index : Nat) : Paced fuel (immediateCall index) :=
  fun m hm => (paced_closed.congruence.callAt
    (fun f args => ⟨rfl, paced_callFunction noPump m.fuel f args⟩) index []).2 m
    (Machine.outlasts_fuel hm.immediate)

private theorem paced_handlerBody (handler : Handler) : Paced fuel (handlerBody handler) := by
  have hlocals := ((paced_closed : Closed (Paced fuel)).congruence.localFrame handler.locals {}).2
  refine hlocals.bind fun frame => ?_
  refine Paced.bind (paced_modify fun m => ?_) fun _ => paced_immediateBlock handler.body
  exact ⟨rfl, rfl, rfl⟩

end Run

/--
Statements, expressions and calls of functions that run to their end at once do end, whatever the
program, its loops and the depth of its calls: with a value or a reason to leave, after at most one
step more than the limit, and with as much fuel as the machine gives just as with more. So do
handlers, the bodies of waits and functions started by themselves, from any state of the machine.
-/
theorem immediate_code_ends (pump : Nat → Run Unit) (m : Machine) (h : m.mode = .immediate)
    (body : List Stmt) (e : Expr) (f : FunctionDef) (args : List Expr) (handler : Handler)
    (host : Machine) (frames : List Frame) (index : Nat) :
    m.Ends (fun fuel => Run.block pump fuel body) ∧
    m.Ends (fun fuel => Run.eval pump fuel e) ∧
    m.Ends (fun fuel => Run.callFunction (Run.eval pump fuel) (Run.block pump fuel) f args) ∧
    (host.isolate frames).EndsWithin (Run.handlerBody handler (host.isolate frames)) ∧
    (host.isolate frames).EndsWithin (Run.immediateBlock body (host.isolate frames)) ∧
    (host.isolate frames).EndsWithin (Run.immediateCall index (host.isolate frames)) := by
  have hisolated : (host.isolate frames).Outlasts (host.isolate frames).fuel :=
    Machine.outlasts_fuel rfl
  refine ⟨?_, ?_, ?_, ?_, ?_, ?_⟩
  · exact Run.ends_of_paced h (fun fuel => Run.paced_block pump fuel body)
      fun fuel fuel' hle => Run.agrees_block pump hle body
  · exact Run.ends_of_paced h (fun fuel => Run.paced_eval pump fuel e)
      fun fuel fuel' hle => (Run.agrees_eval_exec pump hle).1 e
  · exact Run.ends_of_paced h (fun fuel => Run.paced_callFunction pump fuel f args)
      fun fuel fuel' hle => Run.agrees_callFunction pump hle f args
  · exact (Run.paced_handlerBody handler _ hisolated).endsWithin
  · exact (Run.paced_immediateBlock body _ hisolated).endsWithin
  · exact (Run.paced_immediateCall index _ hisolated).endsWithin

/-- A loop whose test always holds and whose body is empty is left in the step after the last one
that is allowed. -/
theorem endless_loop_ends :
    let m : Machine := { config := { stepLimit := 3 } }
    let body := [Stmt.whileLoop ⟨1, 1⟩ (.number 1) []]
    m.mode = .immediate ∧ m.Ends (fun fuel => Run.block Run.noPump fuel body) ∧
      ∃ m', Run.block Run.noPump m.fuel body m = .error .stepLimit m' ∧ m'.steps = 4 := by
  intro m body
  refine ⟨rfl, ?_, ?_⟩
  · exact (immediate_code_ends Run.noPump m rfl body (.number 1) default [] default m [] 0).1
  · exact ⟨_, rfl, rfl⟩

end ControlLogic
