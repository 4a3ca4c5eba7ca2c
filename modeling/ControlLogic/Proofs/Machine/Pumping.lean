import Mathlib.Data.Set.Finite.Lattice
import Mathlib.Order.Interval.Finset.Nat
import Mathlib.Order.WellFounded
import ControlLogic.Proofs.Machine.Clock
import ControlLogic.Proofs.Machine.Renewal
import ControlLogic.Proofs.Machine.Termination

/-!
Whether letting time pass comes to an end. A round does one piece of work at most, and the rounds
are not bounded. They come to an end unless work goes on being put off for no time: then the clock
stands still, and every round does work that was planned after the clock had stopped.
-/

set_option autoImplicit false
set_option relaxedAutoImplicit false

namespace ControlLogic

/-! ### Rounds -/

namespace Run

private theorem bind_eq_error {α β : Type} {x : Run α} {f : α → Run β} {m m' : Machine} {u : Unwind}
    (h : (x >>= f) m = .error u m') :
    x m = .error u m' ∨ ∃ a m₁, x m = .ok a m₁ ∧ f a m₁ = .error u m' := by
  cases hx : x m with
  | ok a m₁ =>
    rw [bind_ok hx] at h
    exact .inr ⟨a, m₁, rfl, h⟩
  | error v m₁ =>
    rw [bind_error hx] at h
    cases h
    exact .inl rfl

private theorem checkAbort_error {m m' : Machine} {u : Unwind} (h : checkAbort m = .error u m') :
    u = .aborted := by
  unfold checkAbort at h
  rw [get_bind] at h
  split at h
  · cases h
    rfl
  · cases h

private theorem accept_error {stimulus : Stimulus} {m m' : Machine} {u : Unwind}
    (h : accept stimulus m = .error u m') : u = .aborted := by
  unfold accept at h
  rcases bind_eq_error h with h | ⟨_, m₁, -, h⟩
  · cases h
  · split at h
    · exact checkAbort_error h
    · cases h

private theorem acceptWaiting_error {n : Nat} {m m' : Machine} {u : Unwind}
    (h : acceptWaiting n m = .error u m') : u = .aborted := by
  induction n generalizing m with
  | zero => cases h
  | succ n ih =>
    unfold acceptWaiting at h
    rcases bind_eq_error h with h | ⟨received, m₁, -, h⟩
    · cases h
    · split at h
      · rcases bind_eq_error h with h | ⟨_, m₂, -, h⟩
        · exact accept_error h
        · exact ih h
      · cases h

private theorem pumpRound_error {deadline : Nat} {m m' : Machine} {u : Unwind}
    (h : pumpRound deadline m = .error u m') : u = .aborted := by
  unfold pumpRound at h
  rcases bind_eq_error h with h | ⟨_, m₁, -, h⟩
  · exact checkAbort_error h
  rw [get_bind] at h
  rcases bind_eq_error h with h | ⟨_, m₂, -, h⟩
  · exact acceptWaiting_error h
  rw [modifyGet_bind] at h
  cases hnext : (m₂.popDue deadline).1 with
  | some next =>
    rw [hnext] at h
    cases h
  | none =>
    rw [hnext] at h
    dsimp only at h
    rw [get_bind] at h
    split at h
    · cases h
    · rw [modifyGet_bind] at h
      cases hreceived : ((m₂.popDue deadline).2.waitUntil deadline).1 with
      | some stimulus =>
        rw [hreceived] at h
        rcases bind_eq_error h with h | ⟨_, m₃, -, h⟩
        · exact accept_error h
        · cases h
      | none =>
        rw [hreceived] at h
        cases h

end Run

namespace Machine

def round (m : Machine) (deadline : Nat) : Machine :=
  m.after (Run.pumpRound deadline)

def rounds (m : Machine) (deadline : Nat) : Nat → Machine
  | 0 => m
  | n + 1 => (m.rounds deadline n).round deadline

def GoesOn (m : Machine) (deadline : Nat) : Prop :=
  Run.pumpRound deadline m = .ok none (m.round deadline)

/-- Letting time pass comes to an end at another machine, with enough rounds. -/
def PassesTo (m : Machine) (deadline : Nat) (m' : Machine) : Prop :=
  ∃ n, (∀ m'', Run.repeatUntil (Run.pumpRound deadline) n m ≠ .error .exhausted m'') ∧
    m.after (Run.repeatUntil (Run.pumpRound deadline) n) = m'

def Returns (m : Machine) (deadline : Nat) : Prop :=
  ∃ m', m.PassesTo deadline m'

variable {m : Machine} {deadline : Nat}

private theorem rounds_round (n : Nat) :
    (m.round deadline).rounds deadline n = m.rounds deadline (n + 1) := by
  induction n with
  | zero => rfl
  | succ n ih =>
    change ((m.round deadline).rounds deadline n).round deadline = _
    rw [ih]
    rfl

theorem GoesOn.repeatUntil (h : m.GoesOn deadline) (n : Nat) :
    Run.repeatUntil (Run.pumpRound deadline) (n + 1) m =
      Run.repeatUntil (Run.pumpRound deadline) n (m.round deadline) := by
  rw [Run.repeatUntil, Run.bind_ok h]

private theorem exhausted_of_goesOn {n : Nat}
    (h : ∀ i, i < n → (m.rounds deadline i).GoesOn deadline) :
    Run.repeatUntil (Run.pumpRound deadline) n m = .error .exhausted (m.rounds deadline n) := by
  induction n generalizing m with
  | zero => rfl
  | succ n ih =>
    have hfirst : m.GoesOn deadline := h 0 (Nat.succ_pos n)
    rw [hfirst.repeatUntil, ← rounds_round]
    refine ih fun i hi => ?_
    rw [rounds_round]
    exact h (i + 1) (Nat.succ_lt_succ hi)

private theorem after_rounds_of_le {n more : Nat} (hmore : n ≤ more)
    (hends : ∀ m', Run.repeatUntil (Run.pumpRound deadline) n m ≠ .error .exhausted m') :
    m.after (Run.repeatUntil (Run.pumpRound deadline) more) =
      m.after (Run.repeatUntil (Run.pumpRound deadline) n) := by
  have hagree := Run.Agrees.repeatUntil (Run.agrees_refl (Run.pumpRound deadline)) hmore
  obtain ⟨m', hm'⟩ | hsame := hagree m
  · exact absurd hm' (hends m')
  · unfold after
    rw [hsame]

theorem PassesTo.unique {a b : Machine} (ha : m.PassesTo deadline a)
    (hb : m.PassesTo deadline b) : a = b := by
  obtain ⟨n, hends, rfl⟩ := ha
  obtain ⟨n', hends', rfl⟩ := hb
  rw [← after_rounds_of_le (Nat.le_max_left n n') hends,
    after_rounds_of_le (Nat.le_max_right n n') hends']

private theorem passesTo_of_not_goesOn (h : ¬ m.GoesOn deadline) :
    m.PassesTo deadline (m.round deadline) := by
  refine ⟨1, ?_⟩
  cases hround : Run.pumpRound deadline m with
  | ok last m' =>
    have hlast : m.round deadline = m' := after_ok hround
    cases last with
    | none =>
      rw [GoesOn, hlast] at h
      exact absurd hround h
    | some _ =>
      have hend : Run.repeatUntil (Run.pumpRound deadline) 1 m = .ok () m' := by
        rw [Run.repeatUntil, Run.bind_ok hround]
        rfl
      rw [hend, after_ok hend]
      refine ⟨fun _ hm' => ?_, hlast.symm⟩
      cases hm'
  | error u m' =>
    have hlast : m.round deadline = m' := after_error hround
    have hend : Run.repeatUntil (Run.pumpRound deadline) 1 m = .error .aborted m' := by
      rw [Run.repeatUntil, Run.bind_error hround, Run.pumpRound_error hround]
    rw [hend, after_error hend]
    refine ⟨fun _ hm' => ?_, hlast.symm⟩
    cases hm'

theorem PassesTo.of_round {m' : Machine} (hgo : m.GoesOn deadline)
    (h : (m.round deadline).PassesTo deadline m') : m.PassesTo deadline m' := by
  obtain ⟨n, hends⟩ := h
  refine ⟨n + 1, ?_⟩
  unfold after at hends ⊢
  rw [hgo.repeatUntil]
  exact hends

private theorem returns_iff :
    m.Returns deadline ↔ ∃ n, ¬ (m.rounds deadline n).GoesOn deadline := by
  constructor
  · rintro ⟨m', n, hends, -⟩
    by_contra hall
    push Not at hall
    exact hends _ (exhausted_of_goesOn fun i _ => hall i)
  · rintro ⟨n, hn⟩
    induction n generalizing m with
    | zero => exact ⟨_, passesTo_of_not_goesOn hn⟩
    | succ n ih =>
      by_cases hgo : m.GoesOn deadline
      · rw [← rounds_round] at hn
        obtain ⟨m', hm'⟩ := ih hn
        exact ⟨m', .of_round hgo hm'⟩
      · exact ⟨_, passesTo_of_not_goesOn hgo⟩

/-! ### Rounds without end -/

theorem Leads.changes {m m' : Machine} (h : m.Leads m') :
    ∃ deeds, m.schedule.Changes deeds m'.schedule := by
  obtain ⟨history, hcourse⟩ := h []
  have hchanges : ∀ {s s' : Moment} {history : List Deed}, Course s history s' →
      s.machine.schedule.Changes history s'.machine.schedule := by
    intro s s' history hcourse
    induction hcourse with
    | refl => exact .none _
    | step _ hstep ih => exact ih.trans hstep.changes
  exact ⟨history, hchanges hcourse⟩

/-- Planned work is on time, and has numbers that were given in turn. -/
structure Timely (m : Machine) : Prop where
  onTime : ∃ history, m.schedule.OnTime history
  numbered : m.schedule.Numbered

private theorem timely_new (config : Settings) : (new config).Timely :=
  ⟨⟨[], Schedule.onTime_empty⟩, Schedule.numbered_empty⟩

private theorem Timely.of_leads {m m' : Machine} (h : m.Timely) (hleads : m.Leads m') :
    m'.Timely := by
  obtain ⟨_, hchanges⟩ := hleads.changes
  obtain ⟨_, honTime⟩ := h.onTime
  exact ⟨⟨_, hchanges.onTime honTime⟩, hchanges.numbered h.numbered⟩

/-- The clock has come to a stand at a time by the deadline, `start` being a round from which on it
stands; and from the round `late` on, every round does work that is due then and that was planned
after the clock had come to a stand. -/
structure Stall (m : Machine) (deadline start late time : Nat) : Prop where
  goesOn (n : Nat) : (m.rounds deadline n).GoesOn deadline
  due : time ≤ deadline
  stands {n : Nat} (h : start ≤ n) : (m.rounds deadline n).now = time
  works {n : Nat} (h : late ≤ n) : ∃ id task,
    (m.rounds deadline n).schedule.tasks[id]? = some (time, task) ∧
      (m.rounds deadline start).schedule.nextId ≤ id ∧
      m.rounds deadline (n + 1) = ((m.rounds deadline n).popDue deadline).2.runTask task

/-- Letting time pass does not come to an end, as the clock has come to a stand. -/
def Stalls (m : Machine) (deadline : Nat) : Prop :=
  ∃ start late time, m.Stall deadline start late time

private theorem waitUntil_now_eq (hinbox : m.schedule.inbox = []) (hnow : m.now ≤ deadline)
    (hlater : ∀ {id due : Nat} {task : Task}, m.schedule.tasks[id]? = some (due, task) →
      deadline < due) : (m.waitUntil deadline).2.now = deadline := by
  change (m.schedule.waitUntil (min (m.schedule.nextDue?.getD deadline) deadline)).2.now = deadline
  rw [Schedule.min_nextDue?_eq fun hlive => Nat.le_of_lt (hlater hlive)]
  unfold Schedule.waitUntil
  rw [hinbox]
  exact Nat.max_eq_right hnow

private theorem leads_round (m : Machine) (deadline : Nat) : m.Leads (m.round deadline) :=
  leads_passing.pumped.pumpRound deadline m

private theorem leads_rounds (m : Machine) (deadline : Nat) {i j : Nat} (h : i ≤ j) :
    (m.rounds deadline i).Leads (m.rounds deadline j) := by
  induction h with
  | refl => exact leads_refl _
  | step _ ih => exact ih.trans (leads_round _ deadline)

private theorem gone_rounds (h : m.Timely) {n id : Nat} {task : Task}
    (hpop : ((m.rounds deadline (n + 1)).popDue deadline).1 = some (id, task))
    (hdone : m.rounds deadline (n + 2) =
      ((m.rounds deadline (n + 1)).popDue deadline).2.runTask task) {j : Nat} (hj : n + 2 ≤ j) :
    (m.rounds deadline j).schedule.Gone id := by
  let before := m.rounds deadline (n + 1)
  obtain ⟨due, hlive, -, -, htasks, -⟩ := popDue_some hpop
  have hbefore := h.of_leads (leads_rounds m deadline (Nat.zero_le (n + 1)))
  have hpopped : (before.popDue deadline).2.schedule.Gone id := by
    refine ⟨?_, ?_⟩
    · exact Nat.lt_of_lt_of_eq (hbefore.numbered hlive)
        (before.schedule.popDue_nextId deadline).symm
    · rw [htasks]
      exact Std.HashMap.getElem?_erase_self
  obtain ⟨_, hrun⟩ := ((before.popDue deadline).2.leads_runTask task).changes
  obtain ⟨_, hlater⟩ := (leads_rounds m deadline hj).changes
  refine hlater.gone ?_
  rw [hdone]
  exact hrun.gone hpopped

section Endless

variable (hnow : m.now ≤ deadline) (hgo : ∀ n, (m.rounds deadline n).GoesOn deadline)
include hgo

private theorem inbox_rounds (n : Nat) : (m.rounds deadline (n + 1)).schedule.inbox = [] := by
  obtain ⟨taken, -, -, hinbox, hround⟩ := Run.pumpRound_cases (hgo n)
  change ((m.rounds deadline n).round deadline).schedule.inbox = []
  generalize (m.rounds deadline n).round deadline = m' at hround
  cases hround with
  | @work id task h =>
    obtain ⟨-, -, -, -, -, hkept⟩ := popDue_some h
    exact (((taken.popDue deadline).2.standsStill_runTask task).inbox.trans hkept).trans hinbox
  | idle h hearly =>
    obtain ⟨-, -, hkept, -⟩ := popDue_none h
    change ((taken.popDue deadline).2.schedule.waitUntil _).2.inbox = []
    unfold Schedule.waitUntil
    rw [hkept, hinbox]

private theorem round_rounds (n : Nat) :
    Run.Round deadline (m.rounds deadline (n + 1)) none (m.rounds deadline (n + 2)) := by
  obtain ⟨taken, haccept, -, -, hround⟩ := Run.pumpRound_cases (hgo (n + 1))
  rw [inbox_rounds hgo n] at haccept
  cases haccept
  exact hround

private theorem work_rounds (n : Nat) : ∃ id task,
    ((m.rounds deadline (n + 1)).popDue deadline).1 = some (id, task) ∧
      m.rounds deadline (n + 2) = ((m.rounds deadline (n + 1)).popDue deadline).2.runTask task := by
  have hround := round_rounds hgo n
  generalize hnext : m.rounds deadline (n + 2) = m' at hround
  cases hround with
  | @work id task h => exact ⟨id, task, h, rfl⟩
  | idle h hearly =>
    exfalso
    obtain ⟨hkept, htasks, hinbox, hlater⟩ := popDue_none h
    have hpopped {id due : Nat} {task : Task}
        (hlive : ((m.rounds deadline (n + 1)).popDue deadline).2.schedule.tasks[id]? =
          some (due, task)) : deadline < due := by
      rw [htasks] at hlive
      exact hlater hlive
    have hend := waitUntil_now_eq (hinbox.trans (inbox_rounds hgo n))
      (Nat.le_trans (Nat.le_of_eq hkept) (Nat.le_of_lt hearly)) hpopped
    have htasks' : (m.rounds deadline (n + 2)).schedule.tasks =
        ((m.rounds deadline (n + 1)).popDue deadline).2.schedule.tasks := by
      rw [hnext]
      exact Schedule.waitUntil_tasks _ _
    rw [← hnext] at hend
    have hround := round_rounds hgo (n + 1)
    generalize m.rounds deadline (n + 3) = m'' at hround
    cases hround with
    | work h' =>
      obtain ⟨due, hlive, hdue, -⟩ := popDue_some h'
      have hlive := (congrArg (·[_]?) htasks').symm.trans hlive
      exact Nat.not_lt.mpr hdue (hpopped hlive)
    | idle h' hearly' => exact absurd hearly' (Nat.not_lt.mpr (Nat.le_of_eq hend.symm))

include hnow

private theorem now_rounds_le (n : Nat) : (m.rounds deadline n).now ≤ deadline := by
  induction n with
  | zero => exact hnow
  | succ n ih => exact (Run.pumpRound_ok (hgo n) ih).1

private theorem stands_rounds : ∃ start, ∀ n, start ≤ n →
    (m.rounds deadline (n + 1)).now = (m.rounds deadline (start + 1)).now := by
  -- The clock does not go back, so it stands from the round on where it is latest.
  let left (n : Nat) : Nat := deadline - (m.rounds deadline (n + 1)).now
  obtain ⟨start, hleast⟩ : ∃ start, ∀ n, left start ≤ left n :=
    ⟨Function.argmin left, fun n => Function.argmin_le left n⟩
  refine ⟨start, fun n hn => ?_⟩
  have hlater := (leads_rounds m deadline (Nat.add_le_add_right hn 1) []).now_le
  have hbound := now_rounds_le hnow hgo (n + 1)
  have hleft := hleast n
  dsimp only [left] at hleft hlater
  omega

private theorem Timely.stalls (h : m.Timely) : m.Stalls deadline := by
  obtain ⟨start, hstands⟩ := stands_rounds hnow hgo
  choose id task hpop hdone using work_rounds hgo
  -- No number is taken twice, so that but for finitely many rounds numbers are taken that were
  -- given after the clock had come to a stand.
  have hinjective : Function.Injective id := by
    refine .of_lt_imp_ne fun i j hij hsame => ?_
    have hgone := gone_rounds h (hpop i) (hdone i) (Nat.add_le_add_right hij 1)
    obtain ⟨due, hlive, -⟩ := popDue_some (hpop j)
    rw [hsame] at hgone
    cases hgone.2.symm.trans hlive
  have hfinite : (Set.preimage id
      (Set.Iio (m.rounds deadline (start + 1)).schedule.nextId)).Finite :=
    (Set.finite_Iio _).preimage hinjective.injOn
  obtain ⟨last, hlast⟩ := hfinite.bddAbove
  refine ⟨start + 1, max last start + 2, (m.rounds deadline (start + 1)).now, hgo,
    now_rounds_le hnow hgo _, fun {n} hn => ?_, fun {n} hn => ?_⟩
  · obtain ⟨n, rfl⟩ := Nat.exists_eq_add_of_le' (Nat.le_trans (Nat.le_add_left 1 start) hn)
    exact hstands n (Nat.le_of_succ_le_succ hn)
  · obtain ⟨n, rfl⟩ := Nat.exists_eq_add_of_le' (Nat.le_trans (Nat.le_add_left 1 _) hn)
    refine ⟨id n, task n, ?_, ?_, hdone n⟩
    · obtain ⟨_, honTime⟩ := (h.of_leads (leads_rounds m deadline (Nat.zero_le (n + 1)))).onTime
      obtain ⟨due, hlive, -, -, hdue, -⟩ := honTime.taken (Prod.ext (hpop n) rfl)
      rw [← hdone n, hstands (n + 1) (by omega)] at hdue
      rw [hlive, hdue]
    · by_contra hlow
      have hmem : n ≤ last := hlast (Nat.not_le.mp hlow)
      omega

end Endless

private theorem Timely.returns_iff (h : m.Timely) (hnow : m.now ≤ deadline) :
    m.Returns deadline ↔ ¬ m.Stalls deadline := by
  rw [Machine.returns_iff]
  constructor
  · rintro ⟨n, hn⟩ ⟨start, late, time, hstall⟩
    exact hn (hstall.goesOn n)
  · intro hstall
    by_contra hall
    push Not at hall
    exact hstall (h.stalls hnow hall)

/-! ### Settling -/

/-- Settling in at most some passes comes to an end at another machine. In a pass the stimuli are
taken, and time passes until the first work is due. -/
inductive Settles : Nat → Machine → Machine → Prop where
  | limit (m : Machine) : Settles 0 m m
  | quiet {n : Nat} {m : Machine} (h : m.drain.schedule.nextDue? = none) :
    Settles (n + 1) m m.drain
  | pass {n due : Nat} {m m' m'' : Machine} (hdue : m.drain.schedule.nextDue? = some due)
    (hpass : m.drain.PassesTo due m') (h : Settles n m' m'') : Settles (n + 1) m m''

/-- In one of some passes of settling the clock comes to a stand. -/
inductive SettlingStalls : Nat → Machine → Prop where
  | first {n due : Nat} {m : Machine} (hdue : m.drain.schedule.nextDue? = some due)
    (h : m.drain.Stalls due) : SettlingStalls (n + 1) m
  | later {n due : Nat} {m m' : Machine} (hdue : m.drain.schedule.nextDue? = some due)
    (hpass : m.drain.PassesTo due m') (h : SettlingStalls n m') : SettlingStalls (n + 1) m

theorem PassesTo.along {m' : Machine} (h : m.PassesTo deadline m') :
    m.Leads m' ∧ m.Balanced m' := by
  obtain ⟨n, -, rfl⟩ := h
  exact (leads_passing.and balanced_passing).pumpRounds deadline n m

private theorem config_drain (m : Machine) : m.drain.config = m.config :=
  (Run.relates_foldl balanced_refl Balanced.trans balanced_passing.apply _
    { m with schedule := { m.schedule with inbox := [] } }).config

private theorem Timely.settles_iff (h : m.Timely) (n : Nat) :
    (∃ m', Settles n m m') ↔ ¬ SettlingStalls n m := by
  induction n generalizing m with
  | zero => exact ⟨fun _ => nofun, fun _ => ⟨m, .limit m⟩⟩
  | succ n ih =>
    have hdrained := h.of_leads (leads_hosting.drain m)
    obtain ⟨hnone, -⟩ | ⟨id, due, task, hdue, hlive⟩ := m.drain.schedule.nextDue?_cases
    · refine ⟨?_, fun _ => ⟨_, .quiet hnone⟩⟩
      rintro - (⟨hdue, -⟩ | ⟨hdue, -⟩) <;> cases hnone.symm.trans hdue
    · obtain ⟨_, honTime⟩ := hdrained.onTime
      have hreturns := hdrained.returns_iff (honTime.due hlive).1
      constructor
      · rintro ⟨m'', hsettles⟩ hstalls
        cases hsettles with
        | quiet hnone => cases hnone.symm.trans hdue
        | @pass _ _ _ m' _ hdue' hpass hrest =>
          cases hdue.symm.trans hdue'
          cases hstalls with
          | first hdue' hstall =>
            cases hdue.symm.trans hdue'
            exact hreturns.mp ⟨m', hpass⟩ hstall
          | later hdue' hpass' hrest' =>
            cases hdue.symm.trans hdue'
            cases hpass.unique hpass'
            exact (ih (hdrained.of_leads hpass.along.1)).mp ⟨m'', hrest⟩ hrest'
      · intro hstalls
        obtain ⟨m', hpass⟩ := hreturns.mpr fun hstall => hstalls (.first hdue hstall)
        obtain ⟨m'', hrest⟩ := (ih (hdrained.of_leads hpass.along.1)).mpr
          fun hrest => hstalls (.later hdue hpass hrest)
        exact ⟨m'', .pass hdue hpass hrest⟩

theorem drain_of_empty (h : m.schedule.inbox = []) : m.drain = m := by
  unfold drain
  rw [h]
  change { m with schedule := { m.schedule with inbox := [] } } = m
  rw [← h]

/-- Passes of settling in which time passes in at most some rounds. -/
def settleIn (rounds : Nat) : Nat → Machine → Machine
  | 0, m => m
  | n + 1, m =>
    match m.drain.schedule.nextDue? with
    | some due => settleIn rounds n
        (m.drain.after (Run.repeatUntil (Run.pumpRound due) rounds))
    | none => m.drain

private theorem settleRounds_eq (n : Nat) (m : Machine) :
    settleRounds n m = settleIn m.config.rounds n m := by
  induction n generalizing m with
  | zero => rfl
  | succ n ih =>
    unfold settleRounds settleIn
    dsimp only
    cases m.drain.schedule.nextDue? with
    | none => rfl
    | some due =>
      have hkept := ((balanced_passing.pump due) m.drain).config.trans m.config_drain
      dsimp only
      rw [passUntil, ih, hkept, ← m.config_drain]
      rfl

private theorem Settles.settleIn {n : Nat} {m' : Machine} (h : Settles n m m') :
    ∃ enough, ∀ rounds, enough ≤ rounds → Machine.settleIn rounds n m = m' := by
  induction h with
  | limit m => exact ⟨0, fun _ _ => rfl⟩
  | quiet hnone =>
    refine ⟨0, fun _ _ => ?_⟩
    rw [Machine.settleIn, hnone]
  | @pass n due m m' m'' hdue hpass _ ih =>
    obtain ⟨more, hmore⟩ := ih
    obtain ⟨enough, hends, rfl⟩ := hpass
    refine ⟨max enough more, fun rounds hrounds => ?_⟩
    rw [Machine.settleIn, hdue]
    dsimp only
    rw [after_rounds_of_le (Nat.le_trans (Nat.le_max_left _ _) hrounds) hends]
    exact hmore rounds (Nat.le_trans (Nat.le_max_right _ _) hrounds)

end Machine

open Machine in
/--
Whatever a host has done, with whatever program: letting some time pass comes to an end unless the
clock comes to a stand, where each round does work that was put off for no time since; and settling
comes to an end, after no more passes than its limit, unless the clock comes to a stand in one of
them. Where they come to an end, they do so with any number of rounds that is enough.
-/
theorem passing_time_ends_unless_it_stalls (config : Settings) (actions : List HostAction) :
    let m := (Machine.new config).afterActions actions
    (∀ duration : Nat,
      let deadline := m.now + duration
      m.advance duration =
        m.after (Run.repeatUntil (Run.pumpRound deadline) m.config.rounds) ∧
      (m.Returns deadline ↔ ¬ m.Stalls deadline) ∧
      ∀ m', m.PassesTo deadline m' → ∃ enough, ∀ rounds, enough ≤ rounds →
        m.after (Run.repeatUntil (Run.pumpRound deadline) rounds) = m') ∧
    m.settle = settleIn m.config.rounds settleLimit m ∧
    ((∃ m', Settles settleLimit m m') ↔ ¬ SettlingStalls settleLimit m) ∧
    ∀ m', Settles settleLimit m m' →
      ∃ enough, ∀ rounds, enough ≤ rounds → settleIn rounds settleLimit m = m' := by
  intro m
  have htimely : m.Timely := (timely_new config).of_leads (leads_afterActions _ actions)
  refine ⟨fun duration => ⟨rfl, htimely.returns_iff (Nat.le_add_right _ _), ?_⟩,
    settleRounds_eq settleLimit m, htimely.settles_iff settleLimit, fun m' h => h.settleIn⟩
  rintro m' ⟨enough, hends, rfl⟩
  exact ⟨enough, fun rounds hrounds => after_rounds_of_le hrounds hends⟩

open Machine in
/-- A machine with an order to stop that is planned for five milliseconds lets this time pass, and
settles in one pass. -/
theorem planned_stop_settles :
    let m := (Machine.new {}).afterActions [.scheduleStimulus 5 .stop]
    m.schedule.tasks[1]? = some (5, .stimulus .stop) ∧
    ∃ passed, m.PassesTo (m.now + 5) passed ∧ passed.now = 5 ∧ ¬ m.Stalls (m.now + 5) ∧
      (∃ enough, ∀ rounds, enough ≤ rounds →
        m.after (Run.repeatUntil (Run.pumpRound (m.now + 5)) rounds) = passed) ∧
      Settles settleLimit m passed.drain ∧ ¬ SettlingStalls settleLimit m ∧
      ∃ enough, ∀ rounds, enough ≤ rounds → settleIn rounds settleLimit m = passed.drain := by
  intro m
  obtain ⟨hpassing, -, hsettling, hsettled⟩ :=
    passing_time_ends_unless_it_stalls {} [.scheduleStimulus 5 .stop]
  obtain ⟨-, hreturns, hpassed⟩ := hpassing 5
  have htasks (id : Nat) : m.schedule.tasks[id]? =
      if 1 = id then some (5, .stimulus .stop) else none := by
    have hplan := ({} : Schedule Task).getElem?_plan 5 (.stimulus .stop) id
    rwa [show ({} : Schedule Task).tasks[id]? = none from Std.HashMap.getElem?_empty] at hplan
  have hlive : m.schedule.tasks[1]? = some (5, .stimulus .stop) := (htasks 1).trans (if_pos rfl)
  have hnextDue : m.drain.schedule.nextDue? = some 5 := by
    obtain ⟨-, hnone⟩ | ⟨id, due, task, hdue, hfirst⟩ := m.schedule.nextDue?_cases
    · exact absurd hlive hnone
    · rw [htasks] at hfirst
      split at hfirst
      · cases hfirst
        exact hdue
      · cases hfirst
  obtain ⟨-, -, -, -, hlater⟩ | ⟨id, due, task, hsome, hfirst, -, hnow, hrest, hinbox, -⟩ :=
    m.schedule.popDue_cases 5
  · exact absurd (hlater hlive) (Nat.lt_irrefl 5)
  rw [htasks] at hfirst
  split at hfirst
  case isFalse => cases hfirst
  case isTrue hid =>
  cases hfirst
  subst hid
  let stopped := (m.popDue 5).2.runTask (.stimulus .stop)
  have hnow : stopped.now = 5 := hnow
  have hempty (id : Nat) : stopped.schedule.tasks[id]? = none := by
    change (m.schedule.popDue 5).2.tasks[id]? = none
    rw [hrest, Std.HashMap.getElem?_erase, htasks]
    simp
  have hfirst : Run.pumpRound 5 m = .ok none stopped := by
    rw [Run.pumpRound_of_empty rfl rfl]
    exact Run.working_of_due hsome
  have hround : m.round 5 = stopped := after_ok hfirst
  have hgo : m.GoesOn 5 := hfirst.trans (congrArg _ hround.symm)
  obtain ⟨hnone, hnow', htasks', hinbox', -⟩ | ⟨id, due, task, -, hlive, -⟩ :=
    stopped.schedule.popDue_cases 5
  case inr => cases (hempty id).symm.trans hlive
  have hlast : Run.pumpRound 5 stopped = .ok (some ()) (stopped.popDue 5).2 := by
    rw [Run.pumpRound_of_empty rfl hinbox, Run.working_of_idle hnone]
    exact Run.awaiting_of_le (Nat.le_of_eq (hnow'.trans hnow).symm)
  have hround' : stopped.round 5 = (stopped.popDue 5).2 := after_ok hlast
  have hends : ¬ stopped.GoesOn 5 := fun hgo => by cases hlast.symm.trans hgo
  have hpass : m.PassesTo 5 (stopped.popDue 5).2 := by
    refine .of_round hgo ?_
    rw [hround, ← hround']
    exact passesTo_of_not_goesOn hends
  have hdone : (stopped.popDue 5).2.drain.schedule.nextDue? = none := by
    rw [drain_of_empty (hinbox'.trans hinbox)]
    obtain ⟨hnone, -⟩ | ⟨id, due, task, -, hlive⟩ := (stopped.popDue 5).2.schedule.nextDue?_cases
    · exact hnone
    · rw [show (stopped.popDue 5).2.schedule.tasks = _ from htasks'] at hlive
      cases (hempty id).symm.trans hlive
  have hsettles : Settles settleLimit m (stopped.popDue 5).2.drain :=
    .pass (n := 9999) hnextDue hpass (.quiet (n := 9998) hdone)
  exact ⟨hlive, _, hpass, hnow'.trans hnow, hreturns.mp ⟨_, hpass⟩, hpassed _ hpass, hsettles,
    hsettling.mp ⟨_, hsettles⟩, hsettled _ hsettles⟩

/-! ### Work that renews itself -/

namespace Machine

variable {m : Machine} {deadline : Nat} {q : Position} {frames : List Frame}

theorem Renewing.rounds (h : m.Renewing q frames) (hnow : m.now ≤ deadline) (n : Nat) :
    (m.rounds deadline n).GoesOn deadline ∧ (m.rounds deadline n).now = m.now ∧
      (m.rounds deadline n).Renewing q (List.replicate n {} ++ frames) := by
  have hround {m : Machine} {frames : List Frame} (h : m.Renewing q frames)
      (hnow : m.now ≤ deadline) : m.GoesOn deadline ∧ (m.round deadline).now = m.now ∧
        (m.round deadline).Renewing q ({} :: frames) := by
    obtain ⟨m', hm', hnext⟩ := h.pumpRound hnow
    have hafter : m.round deadline = m' := after_ok hm'
    rw [GoesOn, hafter]
    exact ⟨hm', hnext⟩
  induction n with
  | zero => exact ⟨(hround h hnow).1, rfl, h⟩
  | succ n ih =>
    obtain ⟨-, hsame, hrenewing⟩ := ih
    obtain ⟨-, hsame', hrenewing'⟩ := hround hrenewing (hsame ▸ hnow)
    have hstill := hsame'.trans hsame
    exact ⟨(hround hrenewing' (hstill ▸ hnow)).1, hstill, hrenewing'⟩

private theorem Renewing.not_returns (h : m.Renewing q frames) (hnow : m.now ≤ deadline) :
    ¬ m.Returns deadline := by
  rw [Machine.returns_iff]
  rintro ⟨n, hn⟩
  exact hn (h.rounds hnow n).1

theorem Renewing.nextDue? (h : m.Renewing q frames) : m.schedule.nextDue? = some m.now := by
  obtain ⟨timer, -, htasks⟩ := h.timer
  obtain ⟨-, hnone⟩ | ⟨id, due, task, hdue, hlive⟩ := m.schedule.nextDue?_cases
  · exact absurd ((htasks timer).trans (if_pos rfl)) hnone
  · rw [htasks] at hlive
    split at hlive
    · cases hlive
      exact hdue
    · cases hlive

private theorem Renewing.not_settles (h : m.Renewing q frames) {n : Nat} (hn : 0 < n) :
    ¬ ∃ m', Settles n m m' := by
  rintro ⟨m', hsettles⟩
  have hdrain := drain_of_empty h.inbox
  cases hsettles with
  | limit => exact Nat.lt_irrefl 0 hn
  | quiet hnone =>
    rw [hdrain, h.nextDue?] at hnone
    cases hnone
  | pass hdue hpass _ =>
    rw [hdrain, h.nextDue?] at hdue
    cases hdue
    rw [hdrain] at hpass
    exact h.not_returns (Nat.le_refl _) ⟨_, hpass⟩

end Machine

open Machine in
/-- After a push neither letting no time pass nor settling comes to an end, however many rounds are
done. -/
theorem renewal_has_no_end :
    let m := (Machine.new {}).afterActions [.load renewalText, .setDigital "a" 1]
    m.now = 0 ∧ (∀ rounds, Run.repeatUntil (Run.pumpRound 0) rounds m =
      .error .exhausted (m.rounds 0 rounds)) ∧ ¬ m.Returns 0 ∧
      ¬ ∃ m', Settles settleLimit m m' := by
  intro m
  obtain ⟨q, hloaded⟩ := loaded_load (Machine.new {})
  obtain ⟨hrenewing, hnow⟩ := hloaded.push (by decide) (by decide)
  refine ⟨hnow, fun rounds => ?_, hrenewing.not_returns (Nat.le_of_eq hnow),
    hrenewing.not_settles (by decide)⟩
  exact exhausted_of_goesOn fun i _ => (hrenewing.rounds (Nat.le_of_eq hnow) i).1

end ControlLogic
