import ControlLogic.Proofs.Machine.GivingBack

/-!
Calls of functions that do nothing. What the caller gives comes back as it was, but for references
that are too narrow for their values, and for those to constants and inputs: all are written, even
though nothing was assigned.
-/

set_option autoImplicit false
set_option relaxedAutoImplicit false

namespace ControlLogic

namespace Machine

/-- Parameters that are given names: any name for an array or a structure, and one that can be read
for others. The references among them, and the number of arguments that are evaluated. -/
inductive Given (m : Machine) : List Parameter → List Expr → List Reference → Nat → Prop
  | done (args : List Expr) : m.Given [] args [] 0
  | whole {p : Parameter} {ps : List Parameter} {owner : String} {args : List Expr}
    {refs : List Reference} {count : Nat} (hwhole : p.isWhole = true)
    (h : m.Given ps args refs count) : m.Given (p :: ps) (.name owner :: args) refs count
  | absent {p : Parameter} {ps : List Parameter} {refs : List Reference} {count : Nat}
    (hsingle : p.isWhole = false) (h : m.Given ps [] refs count) : m.Given (p :: ps) [] refs count
  | value {p : Parameter} {ps : List Parameter} {name : String} {args : List Expr}
    {refs : List Reference} {count : Nat} (hsingle : p.isWhole = false) (hvalue : p.byRef = false)
    (hread : (m.read? (.plain (Text.upper name))).isSome = true)
    (h : m.Given ps args refs count) : m.Given (p :: ps) (.name name :: args) refs (count + 1)
  | reference {p : Parameter} {ps : List Parameter} {name : String} {args : List Expr}
    {refs : List Reference} {count : Nat} (hsingle : p.isWhole = false) (href : p.byRef = true)
    (hnamed : (SlotKey.plain (Text.upper name)).IsNamed)
    (hread : (m.read? (.plain (Text.upper name))).isSome = true)
    (h : m.Given ps args refs count) :
    m.Given (p :: ps) (.name name :: args)
      (⟨.plain (Text.upper name), .ofType p.type maxCapacity⟩ :: refs) (count + 1)

end Machine

/-! ### Taking from the caller -/

/-- A call whose parameters of some names have been bound: only they have slots, and what goes back
was taken from the caller. -/
structure Binding.Lent (m : Machine) (names : List String) (refs : List Reference) (b : Binding) :
    Prop where
  owners (key : SlotKey) (h : (b.frame[key]?).isSome = true) : key.owner ∈ names
  parameters (c : CopyBack) (h : c ∈ b.copyBacks) : c.parameter ∈ names
  lends : m.Lends b.frame b.copyBacks refs

namespace Binding

variable {m : Machine} {names : List String} {refs : List Reference} {b : Binding} {name : String}

private theorem lent_nil (m : Machine) : Lent m [] [] {} where
  owners key h := by simp at h
  parameters c h := absurd h List.not_mem_nil
  lends := .nothing

theorem Lent.extend (hb : b.Lent m names refs) (hname : name ∉ names) (b' : Binding)
    {added : List CopyBack} {new : List Reference}
    (hothers : ∀ key : SlotKey, key.owner ≠ name → b'.frame[key]? = b.frame[key]?)
    (hbacks : b'.copyBacks = b.copyBacks ++ added) (hadded : ∀ c ∈ added, c.parameter = name)
    (hlends : m.Lends b'.frame added new) : b'.Lent m (names ++ [name]) (refs ++ new) where
  owners := owner_of_extend hb.owners hothers
  parameters := parameter_of_extend hb.parameters hbacks hadded
  lends := by
    rw [hbacks]
    refine (hb.lends.of_frame fun c hc key howner => hothers key ?_).append hlends
    rintro rfl
    exact hname (howner ▸ hb.parameters c hc)

theorem Lent.addSlot (hb : b.Lent m names refs) (hname : name ∉ names) (kind : SlotKind)
    (v : Value) : (b.addSlot name kind v).Lent m (names ++ [name]) refs := by
  have hextended := hb.extend hname (b.addSlot name kind v)
    (fun key h => getElem?_addSlot_of_ne kind v h) (List.append_nil _).symm
    (fun c hc => absurd hc List.not_mem_nil) .nothing
  rwa [List.append_nil] at hextended

theorem Lent.addTarget (hb : b.Lent m names refs) (hname : name ∉ names) {r : Reference}
    (hnamed : r.target.IsNamed) (hplain : r.target.isPlain = true) {v : Value}
    (hv : m.read? r.target = some v) :
    ((b.addSlot name r.kind v).addTarget name r.target).Lent m (names ++ [name])
      (refs ++ [r]) := by
  refine hb.extend hname _ (fun key h => getElem?_addSlot_of_ne r.kind v h) rfl (fun c hc => ?_)
    (.reference hnamed hplain hv Std.HashMap.getElem?_insert_self .nothing)
  obtain rfl := List.mem_singleton.mp hc
  rfl

theorem Lent.addWhole (hb : b.Lent m names refs) (hname : name ∉ names)
    (hupper : Text.upper name = name) (owner : String) :
    (b.addWhole name owner (m.scope.ownedBy owner)).Lent m (names ++ [name]) refs := by
  have hfresh : ∀ key : SlotKey, key.owner = name → b.frame[key]? = none := by
    rintro key rfl
    rw [← Option.not_isSome_iff_eq_none]
    exact fun hsome => hname (hb.owners key hsome)
  have hextended := hb.extend hname (b.addWhole name owner (m.scope.ownedBy owner))
    (fun key h => getElem?_addWhole_of_ne ?_) rfl (fun c hc => ?_)
    (.whole (fun l hl => ?_) .nothing)
  · rwa [List.append_nil] at hextended
  · rintro entry - rfl
    exact h ((SlotKey.owner_rebase _ _).trans hupper)
  · obtain rfl := List.mem_singleton.mp hc
    rfl
  · obtain ⟨entry, hentry, rfl⟩ := List.mem_map.mp ((mem_links_addWhole hupper hfresh).mp hl)
    exact ⟨entry.2, getElem?_addWhole hentry (nodup_rebased m.scope name owner),
      (Scope.mem_ownedBy hentry).1⟩

end Binding

namespace Run

variable {m : Machine}

theorem tick_of_lt (hsteps : m.steps < m.config.stepLimit) (habort : m.mustAbort = false) :
    tick m = .ok () { m with steps := m.steps + 1 } := by
  have hgoing : ({ m with steps := m.steps + 1 } : Machine).mustAbort = false := habort
  unfold tick
  simp only [hgoing]
  rw [if_neg (Nat.not_lt.mpr hsteps)]
  rfl

private theorem tick_aborted (hsteps : m.steps < m.config.stepLimit) (habort : m.mustAbort = true) :
    tick m = .error .aborted { m with steps := m.steps + 1 } := by
  have hleaving : ({ m with steps := m.steps + 1 } : Machine).mustAbort = true := habort
  unfold tick
  simp only [hleaving]
  rw [if_neg (Nat.not_lt.mpr hsteps)]
  rfl

private theorem eval_name {name : String}
    (hread : (m.read? (.plain (Text.upper name))).isSome = true)
    (habort : m.mustAbort = false) {steps : Nat} (hsteps : steps < m.config.stepLimit)
    (pump : Nat → Run Unit) (n : Nat) :
    ∃ v, m.read? (.plain (Text.upper name)) = some v ∧
      eval pump (n + 1) (.name name) { m with steps := steps } =
        .ok v { m with steps := steps + 1 } := by
  obtain ⟨v, hv⟩ := Option.isSome_iff_exists.mp hread
  have htick : tick { m with steps := steps } = .ok () { m with steps := steps + 1 } :=
    tick_of_lt hsteps habort
  refine ⟨v, hv, ?_⟩
  rw [eval_place rfl htick]
  exact readKey_of_some hv

private theorem bindParameter_error {eval : Expr → Run Value} {p : Parameter}
    (h : p.isWhole = false)
    {e : Expr} {u : Unwind} {m' : Machine} (he : eval e m = .error u m') (function : String)
    (b : Binding) : bindParameter eval function p (some e) b m = .error u m' := by
  unfold bindParameter
  dsimp only
  rw [if_neg (by rw [h]; exact Bool.false_ne_true), bind_error he]

private theorem callFunction_idle {eval : Expr → Run Value} {block : List Stmt → Run Flow}
    {f : FunctionDef} {args : List Expr} {bound : Machine} {b : Binding} {frame : Frame}
    (hdepth : m.depth < m.config.maxCallDepth)
    (hbind : bindParameters eval f.name f.params args {} m = .ok b bound)
    (hlocals : Frame.declareLocals bound.program.structures f.locals b.frame = .ok frame)
    (hbody : block f.body (bound.enter frame) = .ok .normal (bound.enter frame)) :
    callFunction eval block f args m =
      (b.copyBacks.forM (copyBack frame) >>= fun _ => pure (f.result .normal)) bound := by
  have hin : inFrame frame (block f.body) bound = .ok (.normal, frame) bound :=
    (inFrame_ok hbody rfl).1
  rw [callFunction_of_shallow hdepth, applyFunction, bind_ok hbind, bind_ok (localFrame_ok hlocals)]
  exact bind_ok hin _

end Run

namespace Machine.Given

variable {m : Machine} {ps : List Parameter} {args : List Expr} {refs : List Reference}
  {count : Nat}

theorem bindParameters (h : m.Given ps args refs count) (hgoing : m.mustAbort = false ∨ count = 0)
    (pump : Nat → Run Unit) (n : Nat) (function : String) {steps : Nat}
    (hsteps : steps + count ≤ m.config.stepLimit) {names : List String} {earlier : List Reference}
    {b : Binding} (hb : b.Lent m names earlier)
    (hnames : (names ++ ps.map fun p => Text.upper p.name).Nodup) :
    ∃ b', Run.bindParameters (Run.eval pump (n + 1)) function ps args b { m with steps := steps } =
        .ok b' { m with steps := steps + count } ∧
      b'.Lent m (names ++ ps.map fun p => Text.upper p.name) (earlier ++ refs) := by
  induction h generalizing steps names earlier b with
  | done args =>
    rw [List.map_nil, List.append_nil, List.append_nil]
    exact ⟨b, rfl, hb⟩
  | @whole p ps owner args refs count hwhole _ ih =>
    obtain ⟨hnew, hlater⟩ := Run.Passes.split_names hnames
    obtain ⟨b', hlast, hlent⟩ :=
      ih hgoing hsteps (hb.addWhole hnew (Text.upper_upper _) owner) hlater
    rw [List.append_assoc] at hlent
    refine ⟨b', ?_, hlent⟩
    rw [Run.bindParameters, List.head?_cons, Run.bind_ok (Run.bindParameter_whole hwhole)]
    exact hlast
  | @absent p ps refs count hsingle _ ih =>
    obtain ⟨hnew, hlater⟩ := Run.Passes.split_names hnames
    obtain ⟨b', hlast, hlent⟩ := ih hgoing hsteps (hb.addSlot hnew _ _) hlater
    rw [List.append_assoc] at hlent
    refine ⟨b', ?_, hlent⟩
    rw [Run.bindParameters, List.head?_nil, Run.bind_ok (Run.bindParameter_absent hsingle)]
    exact hlast
  | @value p ps name args refs count hsingle hvalue hread _ ih =>
    obtain ⟨hnew, hlater⟩ := Run.Passes.split_names hnames
    have hgoes : m.mustAbort = false := hgoing.resolve_right (Nat.succ_ne_zero count)
    obtain ⟨v, hv, heval⟩ := Run.eval_name hread hgoes (by omega : steps < _) pump n
    rw [Nat.add_comm count 1, ← Nat.add_assoc] at hsteps ⊢
    have hkept : (p.byRef && (Expr.name name).isPlace) = false := by rw [hvalue]; rfl
    obtain ⟨b', hlast, hlent⟩ :=
      ih (.inl hgoes) hsteps (hb.addSlot hnew (.ofType p.type maxCapacity) v) hlater
    rw [List.append_assoc] at hlent
    refine ⟨b', ?_, hlent⟩
    rw [Run.bindParameters, List.head?_cons,
      Run.bind_ok (Run.bindParameter_value hsingle hkept heval)]
    exact hlast
  | @reference p ps name args refs count hsingle href hnamed hread _ ih =>
    obtain ⟨hnew, hlater⟩ := Run.Passes.split_names hnames
    have hgoes : m.mustAbort = false := hgoing.resolve_right (Nat.succ_ne_zero count)
    obtain ⟨v, hv, heval⟩ := Run.eval_name hread hgoes (by omega : steps < _) pump n
    rw [Nat.add_comm count 1, ← Nat.add_assoc] at hsteps ⊢
    have hkey : Run.resolveKey (Run.eval pump (n + 1)) (.name name)
        { m with steps := steps + 1 } = .ok (.plain (Text.upper name)) _ :=
      rfl
    have hplace : (p.byRef && (Expr.name name).isPlace) = true := by rw [href]; rfl
    have htaken := hb.addTarget hnew (r := ⟨_, .ofType p.type maxCapacity⟩) hnamed rfl hv
    obtain ⟨b', hlast, hlent⟩ := ih (.inl hgoes) hsteps htaken hlater
    rw [List.append_assoc, List.append_assoc] at hlent
    refine ⟨b', ?_, hlent⟩
    rw [Run.bindParameters, List.head?_cons,
      Run.bind_ok (Run.bindParameter_reference hsingle hplace heval hkey)]
    exact hlast

private theorem bindParameters_aborted (h : m.Given ps args refs count)
    (habort : m.mustAbort = true)
    (hcount : 0 < count) (hsteps : m.steps + count ≤ m.config.stepLimit) (pump : Nat → Run Unit)
    (n : Nat) (function : String) (b : Binding) :
    Run.bindParameters (Run.eval pump (n + 1)) function ps args b m =
      .error .aborted { m with steps := m.steps + 1 } := by
  have hname : m.steps < m.config.stepLimit → ∀ name, Run.eval pump (n + 1) (.name name) m =
      .error .aborted { m with steps := m.steps + 1 } := fun hstep name =>
    Run.bind_error (Run.tick_aborted hstep habort) _
  induction h generalizing b with
  | done => cases hcount
  | whole hwhole _ ih =>
    rw [Run.bindParameters, List.head?_cons, Run.bind_ok (Run.bindParameter_whole hwhole)]
    exact ih hcount hsteps _
  | absent hsingle _ ih =>
    rw [Run.bindParameters, List.head?_nil, Run.bind_ok (Run.bindParameter_absent hsingle)]
    exact ih hcount hsteps _
  | value hsingle =>
    rw [Run.bindParameters, List.head?_cons]
    exact Run.bind_error (Run.bindParameter_error hsingle (hname (by omega) _) function b) _
  | reference hsingle =>
    rw [Run.bindParameters, List.head?_cons]
    exact Run.bind_error (Run.bindParameter_error hsingle (hname (by omega) _) function b) _

/-- A call of a function without statements gives back what it took, up to the first reference that
cannot be written. -/
theorem callFunction {f : FunctionDef} (h : m.Given f.params args refs count) (hm : m.Typed)
    (pump : Nat → Run Unit) (n : Nat) (hdepth : m.depth < m.config.maxCallDepth)
    (hsteps : m.steps + count ≤ m.config.stepLimit) (hgoing : m.mustAbort = false ∨ count = 0)
    (hbody : f.body = [])
    (hparams : (f.params.map fun p => Text.upper p.name).Nodup)
    (hlocals : ∀ d ∈ f.locals, ∀ p ∈ f.params, Text.upper p.name ≠ Text.upper d.name)
    (hstructures : ∀ d ∈ f.locals, ∀ name, d.type = .instanceOf name →
      (m.program.structures.find? (Text.sameWord ·.name name)).isSome = true) :
    let call := Run.callFunction (Run.eval pump (n + 1)) (Run.block pump (n + 1)) f args m
    (∃ m', call = .ok (f.result .normal) m' ∧ m.Free refs ∧ m.GaveBack refs m') ∨
      ∃ before r after fault m', refs = before ++ r :: after ∧ m.Free before ∧
        m.Fixed r.target fault ∧ call = .error (.fault fault none) m' ∧ m.GaveBack before m' := by
  intro call
  obtain ⟨b, hbind, hlent⟩ :=
    h.bindParameters hgoing pump n f.name hsteps (Binding.lent_nil m) hparams
  rw [List.nil_append, List.nil_append] at hlent
  cases hdeclared : Frame.declareLocals m.program.structures f.locals b.frame with
  | error fault =>
    obtain ⟨d, hd, name, htype, hnone, -⟩ := Frame.unknownStructure_of_declareLocals hdeclared
    have hknown := hstructures d hd name htype
    rw [hnone] at hknown
    cases hknown
  | ok frame =>
    have hlends : m.Lends frame b.copyBacks refs := by
      refine hlent.lends.of_frame fun c hc key howner => ?_
      obtain ⟨p, hp, hname⟩ := List.mem_map.mp (hlent.parameters c hc)
      refine Frame.getElem?_declareLocals hdeclared fun d hd => ?_
      rw [howner, ← hname]
      exact hlocals d hd p hp
    have hblock : ∀ entered, Run.block pump (n + 1) f.body entered = .ok .normal entered := by
      rw [hbody]
      exact fun _ => rfl
    have hcall := Run.callFunction_idle hdepth hbind hdeclared (hblock _)
    obtain ⟨m', hback, hfree, hgave⟩ | ⟨before, r, after, fault, m', hsplit, hfree, hfixed, hback,
      hgave⟩ := Run.copyBacks_lent hlends (hm.gaveBack_steps (m.steps + count))
    · exact .inl ⟨m', hcall.trans (Run.bind_ok hback _), hfree, hgave⟩
    · exact .inr ⟨before, r, after, fault, m', hsplit, hfree, hfixed,
        hcall.trans (Run.bind_error hback _), hgave⟩

end Machine.Given

/--
At every moment within the limits: a call of a function without statements, whose parameters have
names of their own and are given names. It ends if all names that are passed by reference can be
written. Each of them then stands for its value as the last parameter for it kept it, narrowed to
its own kind again, so for the same value if the parameters hold it; everything else is as it was.
If a name cannot be written the call faults at the first, and those before it have gone back. If
the host wants the code to stop, it leaves at the first argument that is evaluated.
-/
theorem idle_call_gives_back (config : Settings) (actions : List HostAction) {m : Machine}
    {k : List Around} (hs : Moment.Leads ⟨(Machine.new config).afterActions actions, []⟩ ⟨m, k⟩)
    (pump : Nat → Run Unit) (n : Nat) {f : FunctionDef} {args : List Expr} {refs : List Reference}
    {count : Nat} (hdepth : m.depth < m.config.maxCallDepth)
    (hsteps : m.steps + count ≤ m.config.stepLimit) (hbody : f.body = [])
    (hparams : (f.params.map fun p => Text.upper p.name).Nodup)
    (hlocals : ∀ d ∈ f.locals, ∀ p ∈ f.params, Text.upper p.name ≠ Text.upper d.name)
    (hstructures : ∀ d ∈ f.locals, ∀ name, d.type = .instanceOf name →
      (m.program.structures.find? (Text.sameWord ·.name name)).isSome = true)
    (hgiven : m.Given f.params args refs count) :
    let call := Run.callFunction (Run.eval pump (n + 1)) (Run.block pump (n + 1)) f args m
    (∃ m', call = .ok (f.result .normal) m' ∧ m.Free refs ∧ m.GaveBack refs m' ∧
      ∀ key : SlotKey, key.IsNamed →
        (∀ r ∈ refs, r.target = key → ∀ v, m.read? key = some v → r.kind.Holds v) →
          m'.read? key = m.read? key) ∨
      (∃ before r after fault m', refs = before ++ r :: after ∧ m.Free before ∧
        m.Fixed r.target fault ∧ call = .error (.fault fault none) m' ∧ m.GaveBack before m') ∨
        (m.mustAbort = true ∧ 0 < count ∧
          call = .error .aborted { m with steps := m.steps + 1 }) := by
  intro call
  have hm : m.Typed := (hs.typed (Machine.typed_afterActions config actions)).machine
  by_cases hgoing : m.mustAbort = false ∨ count = 0
  · obtain ⟨m', hcall, hfree, hgave⟩ | hrefused :=
      hgiven.callFunction hm pump n hdepth hsteps hgoing hbody hparams hlocals hstructures
    · refine .inl ⟨m', hcall, hfree, hgave, fun key hkey hholds => ?_⟩
      exact (hgave.read key hkey).trans (hm.returned_of_holds hholds)
    · exact .inr (.inl hrefused)
  · obtain ⟨hleaving, hcount⟩ := not_or.mp hgoing
    rw [Bool.not_eq_false] at hleaving
    have hpositive := Nat.pos_of_ne_zero hcount
    refine .inr (.inr ⟨hleaving, hpositive, ?_⟩)
    have hbind := hgiven.bindParameters_aborted hleaving hpositive hsteps pump n f.name {}
    exact (Run.callFunction_of_shallow hdepth).trans (Run.bind_error hbind _)

/-! ### A reference that is too narrow -/

/-- A function that does nothing with a reference of 16 bits. -/
def doesNothing : FunctionDef where
  name := "F"
  returnKind := .nothing
  returnType := none
  params := [⟨.integer, "P", true, false⟩]
  locals := []
  body := []
  pos := .start

/-- A call that has a number of 17 bits. -/
def seventyThousand : Machine :=
  (Machine.new {}).enter
    (({} : Binding).addSlot "V" (.integer .unsigned32) (.number 70000)).frame

private theorem upper_wide : Text.upper "V" = "V" := by
  rw [← String.toList_inj, Text.toList_upper]
  rfl

private theorem leads_seventyThousand : Moment.Leads ⟨Machine.new {}, []⟩ ⟨seventyThousand, []⟩ :=
  ((Moment.Leads.single (.beginBinding _ [])).step (.bindSlot _ [] {} "V" _ _)).step
    (.enter _ [] _)

private theorem get?_seventyThousand :
    seventyThousand.scope.get? (.plain "V") = some ⟨.number 70000, .integer .unsigned32⟩ := by
  have hframe : (({} : Binding).addSlot "V" (.integer .unsigned32) (.number 70000)).frame[
      SlotKey.plain "V"]? = some ⟨.number 70000, .integer .unsigned32⟩ :=
    Std.HashMap.getElem?_insert_self
  exact (Scope.get?_push _ _ _).trans (by rw [hframe, Option.some_or])

private theorem given_seventyThousand :
    seventyThousand.Given doesNothing.params [.name "V"]
      [⟨.plain "V", .integer .unsigned16⟩] 1 := by
  have hread : (seventyThousand.read? (.plain (Text.upper "V"))).isSome = true := by
    rw [upper_wide, Machine.read?_of_get? get?_seventyThousand]
    rfl
  have hnamed : (SlotKey.plain (Text.upper "V")).IsNamed := by
    rw [upper_wide]
    decide
  have hgiven : seventyThousand.Given doesNothing.params [.name "V"]
      [⟨.plain (Text.upper "V"), .integer .unsigned16⟩] 1 :=
    .reference rfl rfl hnamed hread (.done [])
  rwa [upper_wide] at hgiven

private theorem returned_seventyThousand :
    seventyThousand.returned [⟨.plain "V", .integer .unsigned16⟩] (.plain "V") =
      some (.number 4464) := by
  have hreturned := Machine.returned_append_self (m := seventyThousand) []
    ⟨.plain "V", .integer .unsigned16⟩
  rw [Machine.read?_of_get? get?_seventyThousand] at hreturned
  unfold Machine.narrowed at hreturned
  rw [get?_seventyThousand] at hreturned
  exact hreturned

private theorem free_seventyThousand :
    seventyThousand.Free [⟨.plain "V", .integer .unsigned16⟩] := by
  intro r hr fault hfixed
  obtain rfl := List.mem_singleton.mp hr
  have htarget := hfixed.target
  rw [Machine.target_of_get? get?_seventyThousand] at htarget
  cases htarget

/-- A number that needs 17 bits comes back from a call that does nothing with 16 of them. -/
theorem seventy_thousand_comes_back_narrowed :
    Moment.Leads ⟨Machine.new {}, []⟩ ⟨seventyThousand, []⟩ ∧
      seventyThousand.read? (.plain "V") = some (.number 70000) ∧
        ∃ m', Run.callFunction (Run.eval Run.noPump 1) (Run.block Run.noPump 1) doesNothing
          [.name "V"] seventyThousand = .ok .zero m' ∧
            m'.read? (.plain "V") = some (.number 4464) := by
  refine ⟨leads_seventyThousand, Machine.read?_of_get? get?_seventyThousand, ?_⟩
  obtain ⟨m', hcall, -, hgave, -⟩ | ⟨before, r, after, fault, -, hsplit, -, hfixed, -⟩ |
      ⟨haborted, -⟩ := idle_call_gives_back {} [] leads_seventyThousand Run.noPump 0
    (f := doesNothing) (by decide) (by decide) rfl (List.nodup_singleton _)
    (fun d hd => absurd hd List.not_mem_nil) (fun d hd => absurd hd List.not_mem_nil)
    given_seventyThousand
  · exact ⟨m', hcall, (hgave.read _ (by decide)).trans returned_seventyThousand⟩
  · have hmem : r ∈ before ++ r :: after := List.mem_append_right _ List.mem_cons_self
    exact absurd hfixed (free_seventyThousand r (hsplit ▸ hmem) fault)
  · cases haborted

/-- A call that does nothing can change what it is given. -/
theorem idle_call_is_not_harmless :
    ¬ ∀ {m : Machine} {f : FunctionDef} {args : List Expr} {refs : List Reference} {count n : Nat},
      Moment.Leads ⟨Machine.new {}, []⟩ ⟨m, []⟩ → m.depth < m.config.maxCallDepth →
        m.steps + count ≤ m.config.stepLimit → m.mustAbort = false → f.body = [] → f.locals = [] →
          (f.params.map fun p => Text.upper p.name).Nodup → m.Given f.params args refs count →
            ∃ v m', Run.callFunction (Run.eval Run.noPump (n + 1)) (Run.block Run.noPump (n + 1))
              f args m = .ok v m' ∧
                ∀ key : SlotKey, key.IsNamed → (m.read? key).isSome = true →
                  m'.read? key = m.read? key := by
  intro hclaim
  have hdepth : seventyThousand.depth < seventyThousand.config.maxCallDepth := by decide
  have hsteps : seventyThousand.steps + 1 ≤ seventyThousand.config.stepLimit := by decide
  have hm : seventyThousand.Typed :=
    (leads_seventyThousand.typed (Machine.typed_afterActions {} [])).machine
  have hread := Machine.read?_of_get? get?_seventyThousand
  obtain ⟨v, m', hcall, hsame⟩ := hclaim (f := doesNothing) (n := 0) leads_seventyThousand hdepth
    hsteps rfl rfl rfl (List.nodup_singleton _) given_seventyThousand
  obtain ⟨m'', hcall', -, hgave⟩ | ⟨before, r, after, fault, -, hsplit, -, hfixed, -⟩ :=
    given_seventyThousand.callFunction hm Run.noPump 0 hdepth hsteps (.inl rfl)
      (f := doesNothing) rfl (List.nodup_singleton _)
      (fun d hd => absurd hd List.not_mem_nil) (fun d hd => absurd hd List.not_mem_nil)
  · obtain ⟨-, rfl⟩ := EStateM.Result.ok.inj (hcall.symm.trans hcall')
    have hnarrowed := (hgave.read _ (by decide)).trans returned_seventyThousand
    rw [hsame (.plain "V") (by decide) (by rw [hread]; rfl), hread] at hnarrowed
    cases hnarrowed
  · have hmem : r ∈ before ++ r :: after := List.mem_append_right _ List.mem_cons_self
    exact absurd hfixed (free_seventyThousand r (hsplit ▸ hmem) fault)

end ControlLogic
