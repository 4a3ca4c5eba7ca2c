import ControlLogic.Proofs.Machine.Access
import ControlLogic.Proofs.Machine.Renewal
import ControlLogic.Proofs.Machine.Spending

/-!
How often a loop that counts runs its body. Where the body leaves the counter alone, it is run for
each number from the start on by steps of a fixed size, up to the last that is not past the end. The
test for the end is made on the sum as it is, while the counter keeps the sum as its width narrows
it; so the counter wraps only behind the last round, and a sum of more than 64 bits is not kept.
-/

set_option autoImplicit false
set_option relaxedAutoImplicit false

namespace ControlLogic

open Number (InWord Width)

/-! ### Numbers that are counted -/

/-- What a loop counts with: the key of its counter, the first number, the one it counts to, and the
step. -/
structure Count where
  key : SlotKey
  first : Int
  finish : Int
  step : Int

namespace Count

def number (c : Count) (k : Nat) : Int :=
  c.first + k * c.step

def rounds (c : Count) : Nat :=
  if isPast c.finish c.step c.first then 0 else ((c.finish - c.first).fdiv c.step + 1).toNat

def remaining (c : Count) (width : Width) : Int :=
  if c.rounds = 0 then c.first
  else if InWord (c.number c.rounds) then width.wrap (c.number c.rounds)
  else c.number (c.rounds - 1)

variable {c : Count} {width : Width} {k : Nat}

/-- The counter is moved on to a number, if that has 64 bits. -/
def movedTo (c : Count) (n : Int) (m : Machine) : Machine :=
  if InWord n then m.after (Run.writeKey c.key (.number n)) else m

private theorem number_zero (c : Count) : c.number 0 = c.first := by
  unfold number
  rw [Int.natCast_zero, Int.zero_mul, Int.add_zero]

private theorem number_succ (c : Count) (k : Nat) : c.number (k + 1) = c.number k + c.step := by
  unfold number
  rw [Int.natCast_succ, Int.add_mul, Int.one_mul, Int.add_assoc]

private theorem isPast_of_pos (h : 0 < c.step) (n : Int) :
    isPast c.finish c.step n = decide (c.finish < n) :=
  if_neg (Int.not_lt.mpr (Int.le_of_lt h))

private theorem isPast_of_neg (h : c.step < 0) (n : Int) :
    isPast c.finish c.step n = decide (n < c.finish) :=
  if_pos h

private theorem between_of_not_isPast (h : isPast c.finish c.step (c.number k) = false) :
    min c.first c.finish ≤ c.number k ∧ c.number k ≤ max c.first c.finish := by
  unfold isPast at h
  have hk : (0 : Int) ≤ k := Int.natCast_nonneg k
  split at h
  next hstep =>
    have hdown : (k : Int) * c.step ≤ 0 :=
      Int.mul_nonpos_of_nonneg_of_nonpos hk (Int.le_of_lt hstep)
    have hend : c.finish ≤ c.number k := Int.not_lt.mp (of_decide_eq_false h)
    unfold number at hend ⊢
    omega
  next hstep =>
    have hup : 0 ≤ (k : Int) * c.step := Int.mul_nonneg hk (Int.not_lt.mp hstep)
    have hend : c.number k ≤ c.finish := Int.not_lt.mp (of_decide_eq_false h)
    unfold number at hend ⊢
    omega

private theorem isPast_number_of_isPast (h : isPast c.finish c.step c.first = true) (k : Nat) :
    isPast c.finish c.step (c.number k) = true := by
  unfold isPast at h ⊢
  have hk : (0 : Int) ≤ k := Int.natCast_nonneg k
  split at h
  next hstep =>
    have hdown : (k : Int) * c.step ≤ 0 :=
      Int.mul_nonpos_of_nonneg_of_nonpos hk (Int.le_of_lt hstep)
    have hend := of_decide_eq_true h
    rw [if_pos hstep]
    refine decide_eq_true ?_
    unfold number
    omega
  next hstep =>
    have hup : 0 ≤ (k : Int) * c.step := Int.mul_nonneg hk (Int.not_lt.mp hstep)
    have hend := of_decide_eq_true h
    rw [if_neg hstep]
    refine decide_eq_true ?_
    unfold number
    omega

private theorem lt_rounds_iff (hstep : c.step ≠ 0) :
    k < c.rounds ↔ isPast c.finish c.step (c.number k) = false := by
  unfold rounds
  cases hfirst : isPast c.finish c.step c.first with
  | true =>
    rw [if_pos rfl, isPast_number_of_isPast hfirst]
    simp
  | false =>
    rw [if_neg Bool.false_ne_true]
    rcases Int.lt_or_gt_of_ne hstep with hneg | hpos
    · rw [isPast_of_neg hneg] at hfirst ⊢
      have hend := of_decide_eq_false hfirst
      -- Counting down is counting up with all signs changed.
      have hfloor : (c.finish - c.first).fdiv c.step = (c.first - c.finish) / -c.step := by
        rw [← Int.fdiv_eq_ediv_of_nonneg _ (by omega), ← Int.neg_sub c.finish c.first,
          Int.neg_fdiv_neg]
      have hle : (k : Int) ≤ (c.first - c.finish) / -c.step ↔
          (k : Int) * -c.step ≤ c.first - c.finish := Int.le_ediv_iff_mul_le (by omega)
      have hnonneg : 0 ≤ (c.first - c.finish) / -c.step :=
        Int.ediv_nonneg (by omega) (by omega)
      rw [Int.mul_neg] at hle
      rw [hfloor, decide_eq_false_iff_not]
      unfold number
      omega
    · rw [isPast_of_pos hpos] at hfirst ⊢
      have hend := of_decide_eq_false hfirst
      have hfloor : (c.finish - c.first).fdiv c.step = (c.finish - c.first) / c.step :=
        Int.fdiv_eq_ediv_of_nonneg _ (Int.le_of_lt hpos)
      have hle : (k : Int) ≤ (c.finish - c.first) / c.step ↔
          (k : Int) * c.step ≤ c.finish - c.first := Int.le_ediv_iff_mul_le hpos
      have hnonneg : 0 ≤ (c.finish - c.first) / c.step :=
        Int.ediv_nonneg (by omega) (Int.le_of_lt hpos)
      rw [hfloor, decide_eq_false_iff_not]
      unfold number
      omega

/-- The first number and the one that is counted to are in the range of a width. -/
structure Within (c : Count) (width : Width) : Prop where
  first : width.lowest ≤ c.first ∧ c.first ≤ width.highest
  finish : width.lowest ≤ c.finish ∧ c.finish ≤ width.highest

private theorem Within.wrap_number (h : c.Within width)
    (hnot : isPast c.finish c.step (c.number k) = false) :
    width.wrap (c.number k) = c.number k := by
  obtain ⟨hfirst, hfinish⟩ := h
  obtain ⟨hlow, hhigh⟩ := between_of_not_isPast hnot
  exact width.wrap_of_mem (by omega) (by omega)

/-- A number of more than 64 bits is past an end that is in the range of a width, if the number
before it is not. -/
private theorem Within.isPast_of_not_inWord (h : c.Within width)
    (hnot : isPast c.finish c.step (c.number k) = false) (hword : ¬ InWord (c.number (k + 1))) :
    isPast c.finish c.step (c.number (k + 1)) = true := by
  have hrange : -9223372036854775808 ≤ width.lowest ∧ width.highest < 9223372036854775808 := by
    cases width <;> decide
  obtain ⟨hfirst, hfinish⟩ := h
  obtain ⟨hlow, hhigh⟩ := between_of_not_isPast hnot
  unfold InWord at hword
  rw [number_succ] at hword ⊢
  unfold isPast
  split
  next hneg => exact decide_eq_true (by omega)
  next hpos => exact decide_eq_true (by omega)

private theorem movedTo_of_inWord {c : Count} {n : Int} {m : Machine} {slot : Slot} (h : InWord n)
    (hslot : m.scope.get? c.key = some slot) :
    c.movedTo n m = m.writeSlot c.key slot (.number n) := by
  unfold movedTo
  rw [if_pos h, Machine.after_ok (Run.writeKey_of_target (Machine.target_of_get? hslot) _)]
  rfl

private theorem movedTo_of_not_inWord {c : Count} {n : Int} {m : Machine} (h : ¬ InWord n) :
    c.movedTo n m = m :=
  if_neg h

end Count

namespace Run

/-! ### Rounds of a loop -/

/-- Takes what a loop counts with: its counter, its start, its end and its step, which is one if
there is none. -/
def takeCount (eval : Expr → Run Value) (counter start finish : Expr) (step : Option Expr) :
    Run Count := do
  let key ← resolveKey eval counter
  let first := (← eval start).toNumber
  let finish := (← eval finish).toNumber
  let step ← match step with
    | some e => pure (← eval e).toNumber
    | none => pure 1
  return ⟨key, first, finish, step⟩

private theorem countLoop_eq (eval : Expr → Run Value) (block : List Stmt → Run Flow) (fuel : Nat)
    (counter start finish : Expr) (step : Option Expr) (body : List Stmt) :
    countLoop eval block fuel counter start finish step body =
      takeCount eval counter start finish step >>= fun c =>
        writeKey c.key (.number c.first) >>= fun _ =>
          if isPast c.finish c.step c.first then pure .normal
          else repeatUntil (countRound block c.key c.finish c.step body) fuel := by
  unfold countLoop takeCount
  cases step <;> simp only [bind_assoc, pure_bind]

private theorem spends_takeCount {eval : Expr → Run Value}
    (heval : ∀ e, Relates Machine.Spends (eval e))
    (counter start finish : Expr) (step : Option Expr) :
    Relates Machine.Spends (takeCount eval counter start finish step) := by
  have hkey := (spends_closed.congruence.resolveKey (fun e => ⟨rfl, heval e⟩) counter).2
  unfold takeCount
  refine hkey.bind .trans fun key => (heval start).bind .trans fun first =>
    (heval finish).bind .trans fun last => ?_
  cases step with
  | none => exact spends_closed.pure _
  | some e => exact (heval e).bind .trans fun v => spends_closed.pure _

section Started

variable {counter start finish : Expr} {step : Option Expr} {m ready started : Machine} {c : Count}
  (hset : writeKey c.key (.number c.first) ready = .ok () started)
include hset

private theorem spends_started {eval : Expr → Run Value}
    (heval : ∀ e, Relates Machine.Spends (eval e))
    (htake : takeCount eval counter start finish step m = .ok c ready) : m.Spends started := by
  have hready := spends_takeCount heval counter start finish step m
  have hstarted := (spends_closed.congruence.writeKey c.key (.number c.first)).2 ready
  rw [Machine.after_ok htake] at hready
  rw [Machine.after_ok hset] at hstarted
  exact hready.trans hstarted

private theorem exec_count {pump : Nat → Run Unit} {fuel : Nat}
    (htaken : (tick >>= fun _ => takeCount (eval pump fuel) counter start finish step) m =
      .ok c ready) (pos : Position) (body : List Stmt) :
    exec pump (fuel + 1) (.count pos counter start finish step body) m =
      locatedAt pos (if isPast c.finish c.step c.first then pure .normal
        else repeatUntil (countRound (block pump fuel) c.key c.finish c.step body) fuel)
          started := by
  obtain ⟨_, ticked, htick, htake⟩ := bind_eq_ok htaken
  unfold exec
  rw [bind_ok htick]
  change locatedAt pos (countLoop (eval pump fuel) (block pump fuel) fuel counter start finish step
    body) ticked = _
  rw [countLoop_eq]
  unfold locatedAt
  rw [bind_ok htake, bind_ok hset]

end Started

/-- The body of a loop is run once. It ends normally, a step is taken, and the counter is moved on
to a number. -/
def GoesRound (block : List Stmt → Run Flow) (c : Count) (body : List Stmt) (n : Int)
    (m m' : Machine) : Prop :=
  ∃ done ticked, block body m = .ok .normal done ∧ tick done = .ok () ticked ∧
    m' = c.movedTo n ticked

/-- The body of a loop is run for a round, from a machine: for the first if the first number is not
past the end, and for another one if it was run for the round before and the number the counter was
moved on to is not past the end. -/
inductive RunsBody (block : List Stmt → Run Flow) (c : Count) (body : List Stmt)
    (started : Machine) : Nat → Machine → Prop
  | first (h : isPast c.finish c.step c.first = false) :
    RunsBody block c body started 0 started
  | next {k : Nat} {m m' : Machine} (h : RunsBody block c body started k m)
    (hround : GoesRound block c body (c.number (k + 1)) m m')
    (hnot : isPast c.finish c.step (c.number (k + 1)) = false) :
    RunsBody block c body started (k + 1) m'

theorem GoesRound.unique {block : List Stmt → Run Flow} {c : Count} {body : List Stmt} {n : Int}
    {m a b : Machine} (h : GoesRound block c body n m a) (h' : GoesRound block c body n m b) :
    a = b := by
  obtain ⟨done, ticked, hbody, htick, rfl⟩ := h
  obtain ⟨done', ticked', hbody', htick', rfl⟩ := h'
  cases hbody.symm.trans hbody'
  cases htick.symm.trans htick'
  rfl

theorem RunsBody.unique {block : List Stmt → Run Flow} {c : Count} {body : List Stmt}
    {started m m' : Machine} {k : Nat} (h : RunsBody block c body started k m)
    (h' : RunsBody block c body started k m') : m = m' := by
  induction h generalizing m' with
  | first _ =>
    cases h'
    rfl
  | next _ hround _ ih =>
    cases h' with
    | next h' hround' _ =>
      cases ih h'
      exact hround.unique hround'

/-- Whenever the body of a loop is run, it ends normally, leaves the value of the counter as it was,
and a step can be taken behind it. -/
def LeavesCounter (block : List Stmt → Run Flow) (c : Count) (body : List Stmt)
    (started : Machine) : Prop :=
  ∀ k m, RunsBody block c body started k m →
    ∃ done ticked, block body m = .ok .normal done ∧ done.read? c.key = m.read? c.key ∧
      tick done = .ok () ticked

private theorem eq_of_tick {m m' : Machine} (h : tick m = .ok () m') :
    m' = { m with steps := m.steps + 1 } ∧ m.steps < m.config.stepLimit := by
  refine ⟨(Machine.after_ok h).symm.trans m.after_tick, Nat.not_le.mp fun hlimit => ?_⟩
  unfold tick at h
  rw [if_pos (Nat.lt_succ_of_le hlimit)] at h
  cases h

variable {block : List Stmt → Run Flow} {c : Count} {width : Width} {body : List Stmt}
  {started m : Machine} {k : Nat}

/-- Behind a body that ends normally, the counter is read and moved on by the step, if the sum has
64 bits; the sum tells whether there is another round. -/
private theorem countRound_of_normal {done ticked : Machine} {n : Int}
    (hbody : block body m = .ok .normal done) (htick : tick done = .ok () ticked)
    (hslot : ticked.scope.get? c.key = some ⟨.number n, .integer width⟩) :
    countRound block c.key c.finish c.step body m =
      .ok (if InWord (n + c.step) ∧ isPast c.finish c.step (n + c.step) = false then none
        else some .normal) (c.movedTo (n + c.step) ticked) := by
  unfold countRound Count.movedTo
  rw [bind_ok hbody]
  refine (bind_ok htick _).trans ?_
  have hread : readKey c.key ticked = .ok (.number n) ticked :=
    readKey_of_some (Machine.read?_of_get? hslot)
  rw [bind_ok hread]
  change (if InWord (n + c.step) then _ else _ : Run (Option Flow)) ticked = _
  by_cases hword : InWord (n + c.step)
  · have hwritten := writeKey_of_target (Machine.target_of_get? hslot) (.number (n + c.step))
    rw [if_pos hword, if_pos hword, Machine.after_ok hwritten]
    refine (bind_ok hwritten _).trans ?_
    change EStateM.Result.ok
      (if isPast c.finish c.step (n + c.step) then some Flow.normal else none) _ = _
    cases isPast c.finish c.step (n + c.step) with
    | true => rw [if_pos rfl, if_neg fun h => Bool.noConfusion h.2]
    | false => rw [if_neg Bool.false_ne_true, if_pos ⟨hword, rfl⟩]
  · rw [if_neg hword, if_neg hword, if_neg fun h => hword h.1]
    rfl

section Rounds

variable (hbalanced : Relates Machine.Balanced (block body))
  (hspends : Relates Machine.Spends (block body)) (hwithin : c.Within width)
  (hleaves : LeavesCounter block c body started)
include hbalanced hspends hwithin hleaves

theorem RunsBody.round (h : RunsBody block c body started k m)
    (hslot : m.scope.get? c.key = some ⟨.number (c.number k), .integer width⟩)
    (hnot : isPast c.finish c.step (c.number k) = false) :
    ∃ m', GoesRound block c body (c.number (k + 1)) m m' ∧
      m'.config = m.config ∧ m.steps < m'.steps ∧ m.steps < m.config.stepLimit ∧
      (isPast c.finish c.step (c.number (k + 1)) = false ∧
          countRound block c.key c.finish c.step body m = .ok none m' ∧
          m'.scope.get? c.key = some ⟨.number (c.number (k + 1)), .integer width⟩ ∨
        isPast c.finish c.step (c.number (k + 1)) = true ∧
          countRound block c.key c.finish c.step body m = .ok (some .normal) m' ∧
          m'.scope.get? c.key =
            some ⟨.number (if InWord (c.number (k + 1)) then width.wrap (c.number (k + 1))
              else c.number k), .integer width⟩) := by
  obtain ⟨done, ticked, hbody, hread, htick⟩ := hleaves k m h
  have hkept := hbalanced m
  have hspent := (hspends m).steps
  rw [Machine.after_ok hbody] at hkept hspent
  have hgoes : GoesRound block c body (c.number (k + 1)) m (c.movedTo (c.number (k + 1)) ticked) :=
    ⟨done, ticked, hbody, htick, rfl⟩
  obtain ⟨rfl, hlimit⟩ := eq_of_tick htick
  rw [hkept.config] at hlimit
  have hdone := hkept.get?_of_read? hslot hread
  have hround := countRound_of_normal (m := m) (c := c) hbody htick hdone
  rw [← Count.number_succ] at hround
  refine ⟨_, hgoes, ?_⟩
  by_cases hword : InWord (c.number (k + 1))
  · have hmoved := Machine.get?_writeSlot (m := { done with steps := done.steps + 1 }) hdone
      (.number (c.number (k + 1)))
    obtain ⟨indices, last, hwritten⟩ :=
      ({ done with steps := done.steps + 1 } : Machine).writeSlot_eq c.key
        ⟨.number (c.number k), .integer width⟩ (.number (c.number (k + 1)))
    have hsame : ∀ n, (Slot.write ⟨.number (c.number k), .integer width⟩ (.number n)) =
        ⟨.number (width.wrap n), .integer width⟩ := fun n => rfl
    rw [hsame] at hmoved
    rw [Count.movedTo_of_inWord hword (m := { done with steps := done.steps + 1 }) hdone]
      at hround ⊢
    refine ⟨(congrArg Machine.config hwritten).trans hkept.config, ?_,
      Nat.lt_of_le_of_lt hspent hlimit, ?_⟩
    · rw [hwritten]
      exact Nat.lt_succ_of_le hspent
    · cases hend : isPast c.finish c.step (c.number (k + 1)) with
      | false =>
        rw [if_pos ⟨hword, hend⟩] at hround
        rw [hwithin.wrap_number hend] at hmoved
        exact .inl ⟨rfl, hround, hmoved⟩
      | true =>
        rw [if_neg fun h => Bool.noConfusion (hend.symm.trans h.2)] at hround
        rw [if_pos hword]
        exact .inr ⟨rfl, hround, hmoved⟩
  · rw [if_neg fun h => hword h.1] at hround
    rw [Count.movedTo_of_not_inWord hword] at hround ⊢
    refine ⟨hkept.config, Nat.lt_succ_of_le hspent, Nat.lt_of_le_of_lt hspent hlimit,
      .inr ⟨hwithin.isPast_of_not_inWord hnot hword, hround, ?_⟩⟩
    rw [if_neg hword]
    exact hdone

theorem RunsBody.counted
    (hslot : started.scope.get? c.key = some ⟨.number c.first, .integer width⟩)
    (h : RunsBody block c body started k m) :
    isPast c.finish c.step (c.number k) = false ∧
      m.scope.get? c.key = some ⟨.number (c.number k), .integer width⟩ := by
  induction h with
  | first hfirst =>
    rw [Count.number_zero]
    exact ⟨hfirst, hslot⟩
  | next h hround hnot ih =>
    obtain ⟨m', hgoes, -, -, -, ⟨-, -, hmoved⟩ | ⟨hpast, -, -⟩⟩ :=
      h.round hbalanced hspends hwithin hleaves ih.2 ih.1
    · cases hgoes.unique hround
      exact ⟨hnot, hmoved⟩
    · cases hpast.symm.trans hnot

/-- From a round on, the loop runs its body for all that are left and ends behind the last, since
there is more fuel than there are steps. -/
theorem RunsBody.loop (hstep : c.step ≠ 0) (h : RunsBody block c body started k m)
    (hslot : m.scope.get? c.key = some ⟨.number (c.number k), .integer width⟩)
    (hnot : isPast c.finish c.step (c.number k) = false) {n : Nat}
    (hn : m.config.stepLimit ≤ n + m.steps) :
    ∃ last m', RunsBody block c body started (c.rounds - 1) last ∧
      GoesRound block c body (c.number c.rounds) last m' ∧
      repeatUntil (countRound block c.key c.finish c.step body) n m = .ok .normal m' ∧
      (∀ j, k ≤ j → j < c.rounds → ∃ mj, RunsBody block c body started j mj) ∧
      m'.scope.get? c.key = some ⟨.number (c.remaining width), .integer width⟩ := by
  induction n generalizing k m with
  | zero =>
    obtain ⟨-, -, -, -, hlimit, -⟩ := h.round hbalanced hspends hwithin hleaves hslot hnot
    omega
  | succ n ih =>
    obtain ⟨m', hround, hconfig, hsteps, -, ⟨hnot', hgoes, hmoved⟩ | ⟨hpast, hends, hleft⟩⟩ :=
      h.round hbalanced hspends hwithin hleaves hslot hnot
    · obtain ⟨last, m'', hlast, hbehind, hloop, hlater, hleft⟩ :=
        ih (.next h hround hnot') hmoved hnot' (by rw [hconfig]; omega)
      refine ⟨last, m'', hlast, hbehind, (bind_ok hgoes _).trans hloop, fun j hj hrounds => ?_,
        hleft⟩
      rcases Nat.eq_or_lt_of_le hj with rfl | hlt
      · exact ⟨m, h⟩
      · exact hlater j hlt hrounds
    · have hrounds : c.rounds = k + 1 := by
        have hthis := (Count.lt_rounds_iff hstep).mpr hnot
        have hnext := (not_congr (Count.lt_rounds_iff (k := k + 1) hstep)).mpr
          (by rw [hpast]; exact Bool.noConfusion)
        omega
      rw [hrounds, Nat.add_sub_cancel]
      refine ⟨m, m', h, hround, bind_ok hends _, fun j hj hlt => ?_, ?_⟩
      · obtain rfl : k = j := by omega
        exact ⟨m, h⟩
      · unfold Count.remaining
        rw [hrounds, if_neg (Nat.succ_ne_zero k), Nat.add_sub_cancel]
        exact hleft

end Rounds

end Run

def Count.started (c : Count) (ready : Machine) : Machine :=
  ready.after (Run.writeKey c.key (.number c.first))

private theorem Count.started_eq {ready : Machine} {c : Count} {slot : Slot}
    (h : ready.scope.get? c.key = some slot) :
    Run.writeKey c.key (.number c.first) ready = .ok () (c.started ready) ∧
      c.started ready = ready.writeSlot c.key slot (.number c.first) := by
  have hwritten := Run.writeKey_of_target (Machine.target_of_get? h) (.number c.first)
  have hstarted : c.started ready = ready.writeTo c.key (.number c.first) (.slot slot) :=
    Machine.after_ok hwritten
  exact ⟨hstarted ▸ hwritten, hstarted⟩

/--
A loop that counts from a start to an end in the range of its counter's width, by a step that is not
zero: if its body ends normally each time it is run, leaves the counter as it was and does not use
the steps up, then it is run exactly for the numbers from the start by the step that are not past
the end, with the counter at that number. The machine is left as the last of these runs leaves it,
or as it was when the counter was set if there is none. The counter is left with the number behind
the last as its width narrows it, or with the last if that number has more than 64 bits.
-/
theorem counting_loop_runs_its_rounds {pump : Nat → Run Unit}
    (hpump : pump = Run.pump ∨ pump = Run.noPump) {fuel : Nat} {m ready : Machine}
    (hfuel : m.config.stepLimit + 2 ≤ fuel + 1 + m.steps) {pos : Position}
    {counter start finish : Expr} {step : Option Expr} {body : List Stmt} {c : Count}
    (htaken : (Run.tick >>= fun _ =>
      Run.takeCount (Run.eval pump fuel) counter start finish step) m = .ok c ready)
    {old : Value} {width : Width}
    (hslot : ready.scope.get? c.key = some ⟨old, .integer width⟩) (hwithin : c.Within width)
    (hstep : c.step ≠ 0)
    (hleaves : Run.LeavesCounter (Run.block pump fuel) c body (c.started ready)) :
    let RunsBody := Run.RunsBody (Run.block pump fuel) c body (c.started ready)
    ∃ m', Run.exec pump (fuel + 1) (.count pos counter start finish step body) m = .ok .normal m' ∧
      (c.rounds = 0 → m' = c.started ready) ∧
      (∀ k last, RunsBody k last → k + 1 = c.rounds →
        Run.GoesRound (Run.block pump fuel) c body (c.number c.rounds) last m') ∧
      (∀ k, k < c.rounds → ∃! mk, RunsBody k mk) ∧
      (∀ k mk, RunsBody k mk → k < c.rounds ∧
        mk.scope.get? c.key = some ⟨.number (c.number k), .integer width⟩) ∧
      m'.scope.get? c.key = some ⟨.number (c.remaining width), .integer width⟩ := by
  intro RunsBody
  have hbalanced : Run.Respected Machine.Balanced pump :=
    Run.balanced_respected (Machine.balanced_passing.either hpump)
  have hspends : Run.Respected Machine.Spends pump :=
    Run.spends_respected (Machine.spends_passing.either hpump)
  obtain ⟨hwritten, hstarted⟩ := Count.started_eq hslot
  have hcounter : (c.started ready).scope.get? c.key =
      some ⟨.number c.first, .integer width⟩ := by
    rw [hstarted, Machine.get?_writeSlot hslot]
    change some (Slot.mk (.number (width.wrap c.first)) _) = _
    rw [width.wrap_of_mem hwithin.first.1 hwithin.first.2]
  obtain ⟨_, ticked, htick, htake⟩ := Run.bind_eq_ok htaken
  obtain ⟨rfl, -⟩ := Run.eq_of_tick htick
  have hspent := Run.spends_started hwritten (hspends.eval_exec fuel).1 htake
  have hexec := Run.exec_count hwritten htaken pos body
  have hcounted {k : Nat} {mk : Machine} (h : RunsBody k mk) :=
    h.counted (hbalanced.block fuel body) (hspends.block fuel body) hwithin hleaves hcounter
  have hwithinRounds : ∀ k mk, RunsBody k mk → k < c.rounds ∧
      mk.scope.get? c.key = some ⟨.number (c.number k), .integer width⟩ :=
    fun k mk h => ⟨(Count.lt_rounds_iff hstep).mpr (hcounted h).1, (hcounted h).2⟩
  cases hpast : isPast c.finish c.step c.first with
  | true =>
    have hnone : c.rounds = 0 := if_pos hpast
    rw [if_pos hpast] at hexec
    refine ⟨c.started ready, hexec.trans (Run.locatedAt_ok pos rfl), fun _ => rfl,
      fun k last _ hk => ?_, fun k hk => ?_, hwithinRounds, ?_⟩
    · rw [hnone] at hk
      exact absurd hk (Nat.succ_ne_zero k)
    · rw [hnone] at hk
      exact absurd hk (Nat.not_lt_zero k)
    · unfold Count.remaining
      rw [if_pos hnone]
      exact hcounter
  | false =>
    have hfirst : RunsBody 0 (c.started ready) := .first hpast
    have hzero : isPast c.finish c.step (c.number 0) = false := by rw [c.number_zero, hpast]
    obtain ⟨last, m', hlast, hbehind, hloop, hrounds, hleft⟩ := hfirst.loop
      (hbalanced.block fuel body)
      (hspends.block fuel body) hwithin hleaves hstep (by rw [c.number_zero]; exact hcounter) hzero
      (n := fuel) (by
        rw [hspent.config]
        have hsteps : m.steps + 1 ≤ (c.started ready).steps := hspent.steps
        dsimp only
        omega)
    rw [if_neg (by rw [hpast]; exact Bool.false_ne_true)] at hexec
    refine ⟨m', hexec.trans (Run.locatedAt_ok pos hloop), fun hnone => ?_,
      fun k last' hlast' hk => ?_, fun k hk => ?_, hwithinRounds, hleft⟩
    · have hpositive := (hwithinRounds 0 _ hfirst).1
      omega
    · obtain rfl : k = c.rounds - 1 := by omega
      exact hlast'.unique hlast ▸ hbehind
    · obtain ⟨mk, hmk⟩ := hrounds k (Nat.zero_le k) hk
      exact ⟨mk, hmk, fun mk' hmk' => hmk'.unique hmk⟩

/-- A loop with an empty body that counts a variable of 16 bits from its greatest number to the same
number runs its body once, and leaves the variable at zero. -/
theorem counting_to_the_greatest_number :
    let frame := (({} : Binding).addSlot "I" (.integer .unsigned16) .zero).frame
    let m := (Machine.new {}).enter frame
    let c : Count := ⟨.plain "I", 65535, 65535, 1⟩
    let ready : Machine := { m with steps := 3 }
    let fuel := m.config.stepLimit + 1
    m.config.stepLimit + 2 ≤ fuel + 1 + m.steps ∧
      (Run.tick >>= fun _ => Run.takeCount (Run.eval Run.noPump fuel) (.name "I") (.number 65535)
        (.number 65535) none) m = .ok c ready ∧
      ready.scope.get? c.key = some ⟨.zero, .integer .unsigned16⟩ ∧ c.Within .unsigned16 ∧
      c.step ≠ 0 ∧ Run.LeavesCounter (Run.block Run.noPump fuel) c [] (c.started ready) ∧
      ∃ m', Run.exec Run.noPump (fuel + 1) (.count .start (.name "I") (.number 65535)
          (.number 65535) none []) m = .ok .normal m' ∧
        (∃! m₀, Run.RunsBody (Run.block Run.noPump fuel) c [] (c.started ready) 0 m₀) ∧
        Run.GoesRound (Run.block Run.noPump fuel) c [] 65536 (c.started ready) m' ∧
        (∀ k mk, Run.RunsBody (Run.block Run.noPump fuel) c [] (c.started ready) k mk → k < 1) ∧
        m'.scope.get? (.plain "I") = some ⟨.number 0, .integer .unsigned16⟩ := by
  intro frame m c ready fuel
  have hfuel : m.config.stepLimit + 2 ≤ fuel + 1 + m.steps := Nat.le_refl _
  have hname : Text.upper "I" = "I" := by
    rw [← String.toList_inj, Text.toList_upper]
    rfl
  have htaken : (Run.tick >>= fun _ => Run.takeCount (Run.eval Run.noPump fuel) (.name "I")
      (.number 65535) (.number 65535) none) m = .ok c ready := by
    have hkey (a : Machine) :
        Run.resolveKey (Run.eval Run.noPump fuel) (.name "I") a = .ok (.plain "I") a := by
      change EStateM.Result.ok (SlotKey.plain (Text.upper "I")) a = _
      rw [hname]
    have hnumber {a : Machine} (hmode : a.mode = .immediate) (h : a.steps < a.config.stepLimit) :=
      Run.eval_number hmode h Run.noPump m.config.stepLimit 65535
    rw [Run.bind_ok (Run.tick_immediate rfl (by decide)), Run.takeCount, Run.bind_ok (hkey _)]
    exact (Run.bind_ok (hnumber rfl (by decide)) _).trans (Run.bind_ok (hnumber rfl (by decide)) _)
  have hslot : ready.scope.get? c.key = some ⟨.zero, .integer .unsigned16⟩ := by
    have hframe : frame[SlotKey.plain "I"]? = some ⟨.zero, .integer .unsigned16⟩ :=
      Std.HashMap.getElem?_insert_self
    exact (Scope.get?_push _ frame _).trans (by rw [hframe, Option.some_or])
  have hwithin : c.Within .unsigned16 := ⟨by decide, by decide⟩
  obtain ⟨-, hstarted⟩ := Count.started_eq hslot
  have htick : Run.tick (c.started ready) = .ok () { c.started ready with steps := 4 } := by
    rw [hstarted]
    exact Run.tick_immediate rfl (by decide)
  have hcounter : (c.started ready).scope.get? c.key =
      some ⟨.number 65535, .integer .unsigned16⟩ := by
    rw [hstarted, Machine.get?_writeSlot hslot]
    rfl
  have honce : ∀ k mk, Run.RunsBody (Run.block Run.noPump fuel) c [] (c.started ready) k mk →
      mk = c.started ready := by
    intro k mk h
    cases h with
    | first => rfl
    | @next k _ _ _ _ hnot =>
      change decide ((65535 : Int) < 65535 + (k + 1 : Nat) * 1) = false at hnot
      have hpast := of_decide_eq_false hnot
      omega
  have hleaves : Run.LeavesCounter (Run.block Run.noPump fuel) c [] (c.started ready) := by
    intro k mk h
    rw [honce k mk h]
    exact ⟨_, _, rfl, rfl, htick⟩
  obtain ⟨m', hexec, -, hbehind, hruns, honly, hleft⟩ :=
    counting_loop_runs_its_rounds (.inr rfl) hfuel htaken hslot hwithin (by decide) hleaves
  have hremaining : c.remaining .unsigned16 = 0 := by decide
  rw [hremaining] at hleft
  exact ⟨hfuel, htaken, hslot, hwithin, by decide, hleaves, m', hexec, hruns 0 (by decide),
    hbehind 0 _ (.first (by decide)) (by decide), fun k mk h => (honly k mk h).1, hleft⟩

end ControlLogic
