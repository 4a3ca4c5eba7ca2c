import ControlLogic.Proofs.Machine.Shifting

/-!
The record of waits. A body is begun at most once for each time its wait was armed, and never after
that wait was dropped; in the body itself the label can be armed again.
-/

set_option autoImplicit false
set_option relaxedAutoImplicit false

namespace ControlLogic

/-- The timer of the wait that an act ends: it is dropped, or its body is begun. -/
def Act.ended? : Act → Option Nat
  | cancel _ timer | begin _ timer _ _ => some timer
  | _ => none

private theorem Act.wait?_of_ended? {act : Act} {timer : Nat} (h : act.ended? = some timer) :
    act.wait? = some timer := by
  cases act with
  | cancel label t => exact h
  | begin label t now body => exact h
  | _ => cases h

/-- What may come later than what: a wait is armed under a timer no act was about, and its body is
begun under a timer that has not been ended. -/
structure Act.After (later earlier : Act) : Prop where
  arm {label : String} {timer now delay : Nat} {body : List Stmt} :
    later = .arm label timer now delay body → earlier.wait? ≠ some timer
  begin {label : String} {timer now : Nat} {body : List Stmt} :
    later = .begin label timer now body → earlier.ended? ≠ some timer

/-- What the record says of the waits of a machine: those put off were armed with their bodies, the
timers that were ended are gone, the timers on record were given before, and what was begun was
armed. -/
structure Recorded (history : List Act) (m : Machine) : Prop where
  matched : m.Matched
  armed {label : String} {w : PendingWait} : m.waits.get? label = some w →
    ∃ now delay, .arm label w.timer now delay w.body ∈ history
  ended {act : Act} {timer : Nat} : act ∈ history → act.ended? = some timer →
    m.schedule.task? timer = none
  past {act : Act} {timer : Nat} : act ∈ history → act.wait? = some timer →
    timer < m.schedule.nextId
  begun {label : String} {timer now : Nat} {body : List Stmt} :
    .begin label timer now body ∈ history → ∃ t delay, .arm label timer t delay body ∈ history
  ordered : history.Pairwise Act.After

/-- An act that can come next on the record and leaves a machine. -/
structure Act.Fits (history : List Act) (m : Machine) (act : Act) : Prop where
  ended {timer : Nat} : act.ended? = some timer → m.schedule.task? timer = none
  past {timer : Nat} : act.wait? = some timer → timer < m.schedule.nextId
  begun {label : String} {timer now : Nat} {body : List Stmt} :
    act = .begin label timer now body → ∃ t delay, .arm label timer t delay body ∈ history
  after {earlier : Act} : earlier ∈ history → act.After earlier

private theorem Act.after_cancel (label : String) (timer : Nat) (earlier : Act) :
    (Act.cancel label timer).After earlier :=
  ⟨nofun, nofun⟩

private theorem Act.pairwise_after {acts : List Act}
    (h : ∀ act ∈ acts, ∀ earlier, act.After earlier) :
    acts.Pairwise Act.After :=
  List.pairwise_of_forall_sublist fun hsub => h _ (hsub.subset List.mem_cons_self) _

private theorem Act.after_of_free {act : Act} (h : act.wait? = none) (earlier : Act) :
    act.After earlier := by
  constructor
  · rintro label timer now delay body rfl
    cases h
  · rintro label timer now body rfl
    cases h

private theorem Act.fits_of_free {history : List Act} {m : Machine} {act : Act}
    (h : act.wait? = none) :
    act.Fits history m where
  ended hended := by cases h.symm.trans (wait?_of_ended? hended)
  past hpast := by cases h.symm.trans hpast
  begun hbegun := by
    subst hbegun
    cases h
  after _ := after_of_free h _

private theorem Act.fits_cancel {history : List Act} {m : Machine} {label : String} {timer : Nat}
    (hgone : m.schedule.task? timer = none) (hpast : timer < m.schedule.nextId) :
    (Act.cancel label timer).Fits history m := by
  refine ⟨fun h => ?_, fun h => ?_, nofun, fun _ => after_cancel _ _ _⟩
  · cases h
    exact hgone
  · cases h
    exact hpast

private theorem Act.fits_retime {history : List Act} {m : Machine} {label : String}
    {timer now delay : Nat} (hpast : timer < m.schedule.nextId) :
    (Act.retime label timer now delay).Fits history m := by
  refine ⟨nofun, fun h => ?_, nofun, fun _ => ⟨nofun, nofun⟩⟩
  cases h
  exact hpast

namespace Recorded

variable {history acts : List Act} {m m' : Machine}

private theorem fits_arm (hm : Recorded history m)
    (hnext : m'.schedule.nextId = m.schedule.nextId + 1)
    {label : String} {now delay : Nat} {body : List Stmt} :
    (Act.arm label m.schedule.nextId now delay body).Fits history m' := by
  refine ⟨nofun, fun h => ?_, nofun, fun {earlier} hearlier => ⟨fun h hwait => ?_, nofun⟩⟩
  · cases h
    omega
  · cases h
    exact Nat.lt_irrefl _ (hm.past hearlier hwait)

private theorem fits_begin (hm : Recorded history m) {label : String} {w : PendingWait} {now : Nat}
    (hw : m.waits.get? label = some w) (hgone : m'.schedule.task? w.timer = none)
    (hpast : w.timer < m'.schedule.nextId) :
    (Act.begin label w.timer now w.body).Fits history m' := by
  have hplanned := (hm.matched.agrees label w.timer).mp (Machine.timer?_of_get? hw)
  refine ⟨fun h => ?_, fun h => ?_, fun h => ?_, fun {earlier} hearlier => ⟨nofun, ?_⟩⟩
  · cases h
    exact hgone
  · cases h
    exact hpast
  · cases h
    exact hm.armed hw
  · intro label timer now' body h hended
    cases h
    cases (hm.ended hearlier hended).symm.trans hplanned

theorem extend (hm : Recorded history m) (hmatched : m'.Matched)
    (hnext : m.schedule.nextId ≤ m'.schedule.nextId)
    (hgone : ∀ timer, timer < m.schedule.nextId → m.schedule.task? timer = none →
      m'.schedule.task? timer = none)
    (harmed : ∀ label w, m'.waits.get? label = some w → m.waits.get? label = some w ∨
      ∃ now delay, .arm label w.timer now delay w.body ∈ acts)
    (hfits : ∀ act ∈ acts, act.Fits history m') (hpair : acts.Pairwise Act.After) :
    Recorded (acts ++ history) m' where
  matched := hmatched
  armed {label w} hw := by
    obtain hbefore | ⟨now, delay, hnow⟩ := harmed label w hw
    · obtain ⟨now, delay, harm⟩ := hm.armed hbefore
      exact ⟨now, delay, List.mem_append_right _ harm⟩
    · exact ⟨now, delay, List.mem_append_left _ hnow⟩
  ended {act timer} hact hended := by
    rcases List.mem_append.mp hact with hact | hact
    · exact (hfits act hact).ended hended
    · exact hgone timer (hm.past hact (Act.wait?_of_ended? hended)) (hm.ended hact hended)
  past {act timer} hact hwait := by
    rcases List.mem_append.mp hact with hact | hact
    · exact (hfits act hact).past hwait
    · exact Nat.lt_of_lt_of_le (hm.past hact hwait) hnext
  begun {label timer now body} hbegin := by
    have harm : ∃ t delay, Act.arm label timer t delay body ∈ history := by
      rcases List.mem_append.mp hbegin with hbegin | hbegin
      · exact (hfits _ hbegin).begun rfl
      · exact hm.begun hbegin
    obtain ⟨t, delay, harm⟩ := harm
    exact ⟨t, delay, List.mem_append_right _ harm⟩
  ordered := List.pairwise_append.mpr
    ⟨hpair, hm.ordered, fun act hact earlier hearlier => (hfits act hact).after hearlier⟩

private theorem extend_free (hm : Recorded history m) (hmatched : m'.Matched)
    (hnext : m.schedule.nextId ≤ m'.schedule.nextId)
    (hgone : ∀ timer, timer < m.schedule.nextId → m.schedule.task? timer = none →
      m'.schedule.task? timer = none)
    (harmed : ∀ label w, m'.waits.get? label = some w → m.waits.get? label = some w)
    (hacts : ∀ act ∈ acts, act.wait? = none) : Recorded (acts ++ history) m' :=
  hm.extend hmatched hnext hgone (fun label w hw => .inl (harmed label w hw))
    (fun act hact => Act.fits_of_free (hacts act hact))
    (Act.pairwise_after fun act hact => Act.after_of_free (hacts act hact))

theorem step (hm : Recorded history m) (h : m.Tends m' acts) : Recorded (acts ++ history) m' := by
  have hmatched := h.matched hm.matched
  cases h with
  | quiet hwaits htasks hnext hacts =>
    refine hm.extend_free hmatched (Nat.le_of_eq hnext.symm) (fun timer _ hnone => ?_)
      (fun label w hw => hwaits ▸ hw) hacts
    rw [Schedule.task?_congr htasks]
    exact hnone
  | plan htask hwaits htasks hnext hacts =>
    exact hm.extend_free hmatched (by omega)
      (fun timer hlt hnone => Schedule.task?_put_none (Schedule.task?_put htasks) hlt hnone)
      (fun label w hw => hwaits ▸ hw) hacts
  | take htimer htask hwaits htasks hnext hacts =>
    exact hm.extend_free hmatched (Nat.le_of_eq hnext.symm)
      (fun timer _ hnone => Schedule.task?_drop_none (Schedule.task?_drop htasks) hnone)
      (fun label w hw => hwaits ▸ hw) hacts
  | @arm name due now delay body frames hfree hwaits htasks hnext =>
    refine hm.extend hmatched (by omega)
      (fun timer hlt hnone => Schedule.task?_put_none (Schedule.task?_put htasks) hlt hnone)
      (fun label w hw => ?_) (fun act hact => ?_) (List.pairwise_singleton _ _)
    · obtain ⟨rfl, rfl⟩ | hbefore := PendingWait.get?_of_insert (hwaits ▸ hw)
      · exact .inr ⟨now, delay, List.mem_cons_self⟩
      · exact .inl hbefore
    · rw [List.mem_singleton.mp hact]
      exact hm.fits_arm hnext
  | retime hw hwaits htasks hnext =>
    refine hm.extend hmatched (Nat.le_of_eq hnext.symm) (fun timer _ hnone => ?_)
      (fun label w hw => .inl (hwaits ▸ hw)) (fun act hact => ?_) (List.pairwise_singleton _ _)
    · rw [Schedule.task?_move htasks]
      exact hnone
    · rw [List.mem_singleton.mp hact]
      exact Act.fits_retime (hnext ▸ hm.matched.timer_lt hw)
  | @close name w act hw hact hwaits htasks hnext =>
    have hgone : m'.schedule.task? w.timer = none :=
      (Schedule.task?_drop htasks w.timer).trans (if_pos rfl)
    have hpast : w.timer < m'.schedule.nextId := hnext ▸ hm.matched.timer_lt hw
    refine hm.extend hmatched (Nat.le_of_eq hnext.symm)
      (fun timer _ hnone => Schedule.task?_drop_none (Schedule.task?_drop htasks) hnone)
      (fun label w hw => .inl (PendingWait.get?_of_erase (hwaits ▸ hw))) (fun act' hact' => ?_)
      (List.pairwise_singleton _ _)
    rw [List.mem_singleton.mp hact']
    obtain rfl | ⟨now, rfl⟩ := hact
    · exact Act.fits_cancel hgone hpast
    · exact hm.fits_begin hw hgone hpast
  | closeAll hwaits htasks hnext =>
    refine hm.extend hmatched (Nat.le_of_eq hnext.symm) (fun timer _ hnone => ?_)
      (fun label w hw => absurd hw (PendingWait.get?_ne_of_empty hwaits)) (fun act hact => ?_)
      (Act.pairwise_after fun act hact => ?_)
    · rw [Schedule.task?_dropAll htasks, hnone]
      exact ite_self _
    · obtain ⟨⟨label, w⟩, hentry, rfl⟩ := List.mem_map.mp hact
      have hgone : m'.schedule.task? w.timer = none :=
        (Schedule.task?_dropAll htasks w.timer).trans (if_pos (List.mem_map_of_mem hentry))
      have hw := Std.HashMap.mem_toList_iff_getElem?_eq_some.mp hentry
      exact Act.fits_cancel hgone (hnext ▸ hm.matched.timer_lt hw)
    · obtain ⟨⟨label, w⟩, -, rfl⟩ := List.mem_map.mp hact
      exact Act.after_cancel _ _
  | clear hwaits htasks hnext hacts =>
    refine hm.extend_free hmatched (Nat.le_of_eq hnext.symm) (fun timer _ _ => ?_)
      (fun label w hw => absurd hw (PendingWait.get?_ne_of_empty hwaits)) hacts
    unfold Schedule.task?
    rw [htasks]
    simp

end Recorded

theorem Trace.recorded {config : Settings} {history : List Act} {s : Moment}
    (h : Trace ⟨Machine.new config, []⟩ history s) : Recorded history s.machine := by
  induction h with
  | refl =>
    refine ⟨Machine.matched_new config, fun {label w} hw => ?_, nofun, nofun, nofun, .nil⟩
    simp [Machine.new] at hw
  | step _ hmove ih => exact ih.step (hmove.tends ih.matched)

private theorem Run.scheduleWait_of_free {m : Machine} (habort : m.mustAbort = false)
    {name label : String}
    (hname : Text.upper name = label) (hfree : m.timer? label = none) (delay : Nat)
    (body : List Stmt) :
    Run.scheduleWait delay (some name) body m = .ok () (m.arm delay label body) := by
  have hpassed : Run.checkAbort m = .ok () m := by
    unfold Run.checkAbort
    rw [Run.get_bind, habort]
    rfl
  have hlabel : Run.waitLabel (some name) m = .ok label m := by
    rw [← hname]
    rfl
  have hnone : m.waits.get? label = none := Option.map_eq_none_iff.mp hfree
  unfold Run.scheduleWait
  rw [Run.bind_ok hpassed, Run.bind_ok hlabel, Run.get_bind, hnone]
  rfl

theorem Machine.Matched.due {m : Machine} (hm : m.Matched) {deadline timer : Nat} {label : String}
    (h : (m.popDue deadline).1 = some (timer, .waitBody label)) :
    ∃ w, m.waits.get? label = some w ∧ w.timer = timer ∧
      (m.popDue deadline).2.runTask (.waitBody label) =
        { (m.popDue deadline).2 with waits := m.waits.erase label }.background
          (Run.isolated w.frames (Run.immediateBlock w.body)) ∧
      ({ (m.popDue deadline).2 with waits := m.waits.erase label }.isolate w.frames).timer? label =
        none := by
  obtain ⟨w, hw, hwt⟩ := Machine.timer?_eq_some.mp (hm.timer?_of_due h)
  refine ⟨w, hw, hwt, ?_, ?_⟩
  · have hthere : (m.popDue deadline).2.waits.get? label = some w := hw
    change (m.popDue deadline).2.runWait label = _
    unfold Machine.runWait
    rw [hthere]
    rfl
  · exact (timer?_erase (m := m) rfl label).trans (if_pos rfl)

/--
Whatever a host does, with whatever program, and at every moment on the way: a wait is put off under
a label with a timer just if the work of that timer is the body of the label's wait, and no two
labels have one timer; what is begun is a body that was armed before under the same label and timer,
and whose wait has neither been begun nor been dropped since; each wait is armed under a timer of
its own; when a timer falls due its wait is there, its body is begun, and in the body the label can
be armed again at once; and waits are dropped and moved by the routines for this, by label, and by
nothing else that code does.
-/
theorem waits_agree_with_timers (config : Settings) (actions : List HostAction) :
    let m := (Machine.new config).afterActions actions
    Moment.Reaches ⟨Machine.new config, []⟩ ⟨m, []⟩ ∧
    (∀ action : HostAction, Moment.Reaches ⟨m, []⟩ ⟨action.run m, []⟩) ∧
    ∀ (history : List Act) (s : Moment), Trace ⟨Machine.new config, []⟩ history s →
      (∀ label timer, s.machine.timer? label = some timer ↔
        s.machine.schedule.task? timer = some (.waitBody label)) ∧
      (∀ label label' timer, s.machine.timer? label = some timer →
        s.machine.timer? label' = some timer → label = label') ∧
      (∀ later earlier label timer now body,
        history = later ++ .begin label timer now body :: earlier →
          (∃ t delay, .arm label timer t delay body ∈ earlier) ∧
            ∀ act ∈ earlier, act.ended? ≠ some timer) ∧
      (∀ later earlier label timer now delay body,
        history = later ++ .arm label timer now delay body :: earlier →
          ∀ act ∈ earlier, act.wait? ≠ some timer) ∧
      (∀ deadline timer label,
        (s.machine.popDue deadline).1 = some (timer, .waitBody label) →
          ∃ w, s.machine.waits.get? label = some w ∧ w.timer = timer ∧
            let taken : Machine :=
              { (s.machine.popDue deadline).2 with waits := s.machine.waits.erase label }
            (s.machine.popDue deadline).2.runTask (.waitBody label) =
              taken.background (Run.isolated w.frames (Run.immediateBlock w.body)) ∧
            Move s [.begin label timer taken.now w.body]
              ⟨taken.isolate w.frames, .interrupted s.machine.standing :: s.around⟩ ∧
            ∀ delay name body, Text.upper name = label →
              Run.scheduleWait delay (some name) body (taken.isolate w.frames) =
                .ok () ((taken.isolate w.frames).arm delay label body)) ∧
      s.ShiftsWaits ∧
      ∀ deadline, s.Reaches ⟨s.machine.after (Run.pump deadline), s.around⟩ := by
  intro m
  refine ⟨Machine.reaches_hosting.actions _ actions [],
    fun action => Machine.reaches_hosting.action m action [], fun history s htrace => ?_⟩
  have hrecorded := htrace.recorded
  have hmatched := hrecorded.matched
  refine ⟨hmatched.agrees, ?_, ?_, ?_, ?_, hmatched.shiftsWaits s.around, ?_⟩
  · intro label label' timer h h'
    have hone := (hmatched.agrees label timer).mp h
    have htwo := (hmatched.agrees label' timer).mp h'
    cases hone.symm.trans htwo
    rfl
  · rintro later earlier label timer now body rfl
    obtain ⟨-, hordered, hacross⟩ := List.pairwise_append.mp hrecorded.ordered
    have hearlier := (List.pairwise_cons.mp hordered).1
    refine ⟨?_, fun act hact => (hearlier act hact).begin rfl⟩
    obtain ⟨t, delay, harm⟩ := hrecorded.begun (List.mem_append_right _ List.mem_cons_self)
    refine ⟨t, delay, ?_⟩
    rcases List.mem_append.mp harm with hlater | hrest
    · exact absurd rfl ((hacross _ hlater _ List.mem_cons_self).arm rfl)
    · rcases List.mem_cons.mp hrest with hself | hrest
      · cases hself
      · exact hrest
  · rintro later earlier label timer now delay body rfl
    obtain ⟨-, hordered, -⟩ := List.pairwise_append.mp hrecorded.ordered
    exact fun act hact => ((List.pairwise_cons.mp hordered).1 act hact).arm rfl
  · intro deadline timer label h
    obtain ⟨w, hw, hwt, hrun, hfree⟩ := hmatched.due h
    exact ⟨w, hw, hwt, hrun, .beginWait s.around h hw, fun delay name body hname =>
      Run.scheduleWait_of_free rfl hname hfree delay body⟩
  · exact fun deadline => (Run.along_pump deadline s.machine).1 s.around

/-- A wait armed under a label: its timer is planned, falls due, begins its body, and in the body
the label is armed again. -/
theorem armed_wait_begins :
    let m := (Machine.new {}).arm 10 "W" []
    Trace ⟨Machine.new {}, []⟩ [.arm "W" 1 0 10 []] ⟨m, []⟩ ∧
      m.schedule.task? 1 = some (.waitBody "W") ∧ m.timer? "W" = some 1 ∧
      (m.popDue 20).1 = some (1, .waitBody "W") ∧
      ∃ w, m.waits.get? "W" = some w ∧
        let taken := { (m.popDue 20).2 with waits := m.waits.erase "W" }.isolate w.frames
        Run.scheduleWait 5 (some "W") [] taken = .ok () (taken.arm 5 "W" []) := by
  intro m
  have hfree : (((Machine.new {}).waits.get? "W").any fun w =>
      (Machine.new {}).schedule.isPending w.timer) = false := by
    have hnone : (Machine.new {}).waits.get? "W" = none := Std.HashMap.getElem?_empty
    rw [hnone]
    rfl
  have htrace : Trace ⟨Machine.new {}, []⟩ [.arm "W" 1 0 10 []] ⟨m, []⟩ :=
    .single (.code [] (.does (.arm _ 10 "W" [] hfree)))
  have hplanned := (Machine.new {}).schedule.getElem?_plan 10 (.waitBody "W")
  have hlive : m.schedule.tasks[1]? = some (10, .waitBody "W") := (hplanned 1).trans (if_pos rfl)
  have hdue : (m.popDue 20).1 = some (1, .waitBody "W") := by
    refine Schedule.popDue_of_least hlive (by decide) fun {id' due' task'} hlive' => ?_
    have hlive'' := (hplanned id').symm.trans hlive'
    split at hlive''
    next hid =>
      cases hlive''
      subst hid
      exact .inr ⟨rfl, Nat.le_refl _⟩
    next => simp [Machine.new] at hlive''
  obtain ⟨hagrees, -, -, -, htaken, -⟩ := (waits_agree_with_timers {} []).2.2 _ _ htrace
  have htask : m.schedule.task? 1 = some (.waitBody "W") :=
    Schedule.task?_eq_some.mpr ⟨10, hlive⟩
  obtain ⟨w, hw, -, -, -, hrearmed⟩ := htaken 20 1 "W" hdue
  exact ⟨htrace, htask, (hagrees "W" 1).mpr htask, hdue, w, hw,
    hrearmed 5 "W" [] (by decide +kernel)⟩

end ControlLogic
