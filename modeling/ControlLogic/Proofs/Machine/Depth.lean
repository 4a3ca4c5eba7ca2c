import ControlLogic.Proofs.Machine.Trace

/-!
Calls are never nested deeper than the settings allow, neither those of the code running now nor
those of code that was interrupted. With this, code is balanced on all its ways, and what is done in
the background leaves suspended code where it stood.
-/

set_option autoImplicit false
set_option relaxedAutoImplicit false

namespace ControlLogic

/-- A moment under some settings at which no code, interrupted code included, has calls nested
deeper than they allow. -/
structure Moment.Bounded (config : Settings) (s : Moment) : Prop where
  settings : s.machine.config = config
  depth : s.machine.depth ≤ config.maxCallDepth
  interrupted (standing : Standing) : .interrupted standing ∈ s.around →
    standing.depth ≤ config.maxCallDepth

namespace Moment.Bounded

variable {config : Settings} {m m' : Machine} {k : List Around}

private theorem of_le (h : Bounded config ⟨m, k⟩) (hconfig : m'.config = m.config)
    (hdepth : m'.depth ≤ m.depth) : Bounded config ⟨m', k⟩ :=
  ⟨hconfig.trans h.settings, Nat.le_trans hdepth h.depth, h.interrupted⟩

theorem interrupt (h : Bounded config ⟨m, k⟩) (hconfig : m'.config = m.config)
    (hdepth : m'.depth = 0) : Bounded config ⟨m', .interrupted m.standing :: k⟩ := by
  refine ⟨hconfig.trans h.settings, ?_, ?_⟩
  · change m'.depth ≤ config.maxCallDepth
    rw [hdepth]
    exact Nat.zero_le _
  · intro standing hstanding
    rcases List.mem_cons.mp hstanding with hself | hrest
    · cases hself
      exact h.depth
    · exact h.interrupted standing hrest

end Moment.Bounded

theorem Machine.Work.bounded {config : Settings} {m m' : Machine} {k : List Around}
    {acts : List Act} (h : m.Work acts m') (hm : Moment.Bounded config ⟨m, k⟩) :
    Moment.Bounded config ⟨m', k⟩ := by
  cases h with
  | does h => exact hm.of_le h.balanced.config (Nat.le_of_eq h.balanced.depth)
  | enter frame h =>
    refine ⟨hm.settings, ?_, hm.interrupted⟩
    rw [hm.settings] at h
    exact h
  | leave => exact hm.of_le rfl (Nat.sub_le _ _)

theorem Move.bounded {config : Settings} {s s' : Moment} {acts : List Act} (h : Move s acts s')
    (hs : s.Bounded config) : s'.Bounded config := by
  cases h with
  | code k h => exact h.bounded hs
  | interrupt m k => exact hs.interrupt rfl rfl
  | resume m k standing =>
    refine ⟨hs.settings, hs.interrupted standing List.mem_cons_self, ?_⟩
    exact fun other hother => hs.interrupted other (List.mem_cons_of_mem _ hother)
  | beginWait k h hw => exact hs.interrupt rfl rfl
  | reset m k => exact hs.of_le rfl (Nat.zero_le _)
  | load m k text =>
    have hload := m.declares_load text
    exact hs.of_le hload.config (Nat.le_trans (Nat.le_of_eq hload.depth) (Nat.zero_le _))
  | beginMain m k frame =>
    refine ⟨hs.settings, Nat.zero_le _, ?_⟩
    intro standing hstanding
    rcases List.mem_cons.mp hstanding with hself | hrest
    · cases hself
    · exact hs.interrupted standing hrest
  | endMain m k frames =>
    refine ⟨hs.settings, hs.depth, ?_⟩
    exact fun standing hstanding => hs.interrupted standing (List.mem_cons_of_mem _ hstanding)
  | _ => exact hs.of_le rfl (Nat.le_refl _)

theorem Moment.Reaches.bounded {config : Settings} {s : Moment}
    (h : Moment.Reaches ⟨Machine.new config, []⟩ s) : s.Bounded config := by
  obtain ⟨acts, htrace⟩ := h
  have hkept : Moment.Bounded config ⟨Machine.new config, []⟩ → s.Bounded config :=
    htrace.fold (T := fun a b => a.Bounded config → b.Bounded config) (fun _ h => h)
      (fun h h' hs => h' (h hs)) Move.bounded
  exact hkept ⟨rfl, Nat.zero_le _, fun _ h => absurd h List.not_mem_nil⟩

/--
Whatever a host does, with whatever program, and at every moment on the way: calls are nested no
deeper than the settings allow; statements, expressions and calls of functions, whether time can
pass or not and however they end, leave the way code runs, the depth of calls, and the number,
keys and kinds of slots of the frames as they were; and a stimulus, or work that was put off other
than the end of a pulse, leaves the code that is suspended where it stood, with its variables, its
way of running, its steps and its depth.
-/
theorem code_is_balanced_and_isolated (config : Settings) (actions : List HostAction) :
    let m := (Machine.new config).afterActions actions
    Moment.Reaches ⟨Machine.new config, []⟩ ⟨m, []⟩ ∧
    (∀ action : HostAction, Moment.Reaches ⟨m, []⟩ ⟨action.run m, []⟩) ∧
    ∀ s : Moment, Moment.Reaches ⟨Machine.new config, []⟩ s →
      (s.machine.depth ≤ config.maxCallDepth ∧
        ∀ standing, .interrupted standing ∈ s.around → standing.depth ≤ config.maxCallDepth) ∧
      (∀ pump : Nat → Run Unit, pump = Run.pump ∨ pump = Run.noPump → ∀ fuel : Nat,
        (∀ body, s.machine.Balanced (s.machine.after (Run.block pump fuel body)) ∧
          s.Reaches ⟨s.machine.after (Run.block pump fuel body), s.around⟩) ∧
        (∀ e, s.machine.Balanced (s.machine.after (Run.eval pump fuel e)) ∧
          s.Reaches ⟨s.machine.after (Run.eval pump fuel e), s.around⟩) ∧
        ∀ f args,
          let call := Run.callFunction (Run.eval pump fuel) (Run.block pump fuel) f args
          s.machine.Balanced (s.machine.after call) ∧
            s.Reaches ⟨s.machine.after call, s.around⟩) ∧
      (∀ task : Task, (∀ output, task ≠ .pulseEnd output) →
        (s.machine.runTask task).standing = s.machine.standing) ∧
      ∀ stimulus : Stimulus, (s.machine.apply stimulus).standing = s.machine.standing := by
  intro m
  refine ⟨Machine.reaches_hosting.actions _ actions [],
    fun action => Machine.reaches_hosting.action m action [], fun s hs => ?_⟩
  have hbounded := hs.bounded
  refine ⟨⟨hbounded.depth, hbounded.interrupted⟩, fun pump hpump fuel => ?_, fun task htask => ?_,
    Machine.standing_background.apply s.machine⟩
  · have hcode : Run.Respected (Machine.Along Machine.Reaches) pump := by
      obtain rfl | rfl := hpump
      · exact Run.along_respected
      · exact Machine.reaches_coding.immediate
    have hsplit {m' : Machine} (h : Machine.Along Machine.Reaches s.machine m') :
        s.machine.Balanced m' ∧ s.Reaches ⟨m', s.around⟩ :=
      ⟨h.2, h.1 s.around⟩
    exact ⟨fun body => hsplit (hcode.block fuel body s.machine),
      fun e => hsplit ((hcode.eval_exec fuel).1 e s.machine),
      fun f args => hsplit (hcode.callFunction fuel f args s.machine)⟩
  · exact Machine.standing_background.runTask s.machine task
      fun output h => absurd h (htask output)

/-- The entry function suspended in a call that has armed a wait whose body leaves everything in
progress: running the body leaves the call where it stood. -/
theorem suspended_call_stays :
    let frame : Frame := ({} : Frame).insert (.plain "X") ⟨.number 5, .integer .unsigned16⟩
    let called := ((Machine.new {}).beginMain {}).enter frame
    let armed := called.arm 10 "W" [.terminateEvent ⟨1, 1⟩]
    Moment.Reaches ⟨Machine.new {}, []⟩ ⟨armed, [.host []]⟩ ∧ armed.depth = 1 ∧
      1 ≤ ({} : Settings).maxCallDepth ∧
      armed.waits.get? "W" = some ⟨1, [.terminateEvent ⟨1, 1⟩], [frame, {}]⟩ ∧
      (armed.runTask (.waitBody "W")).standing = ⟨[frame, {}], .cooperative, 0, 1⟩ := by
  intro frame called armed
  have hentered : Moment.Reaches ⟨Machine.new {}, []⟩ ⟨called, [.host []]⟩ :=
    (Moment.Reaches.single (.beginMain (Machine.new {}) [] {})).move
      (.code _ (.enter frame (by decide)))
  have hfree :
      ((called.waits.get? "W").any fun w => called.schedule.isPending w.timer) = false := by
    have hnone : called.waits.get? "W" = none := Std.HashMap.getElem?_empty
    rw [hnone]
    rfl
  have harmed : Moment.Reaches ⟨Machine.new {}, []⟩ ⟨armed, [.host []]⟩ :=
    hentered.move (.code _ (.does (.arm called 10 "W" _ hfree)))
  obtain ⟨⟨hdepth, -⟩, -, htask, -⟩ := (code_is_balanced_and_isolated {} []).2.2 _ harmed
  exact ⟨harmed, rfl, hdepth, Std.HashMap.getElem?_insert_self,
    htask (.waitBody "W") fun output h => by cases h⟩

end ControlLogic
