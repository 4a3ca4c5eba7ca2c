import ControlLogic.Proofs.Machine.Isolation
import ControlLogic.Proofs.Machine.Parameters
import ControlLogic.Proofs.Machine.Renewal
import ControlLogic.Proofs.Machine.Shadowing

/-!
Passing by value and result. A call works on variables of its own that start with the values of the
caller; when its body ends, each goes back to the variable it stands for, and to no other. A body
that does not end gives nothing back.
-/

set_option autoImplicit false
set_option relaxedAutoImplicit false

namespace ControlLogic

/-! ### Going back along links -/

namespace Scope

/-- The variables of a caller when a variable of a call has gone back along a link. -/
def carry (last : Frame) (s : Scope) (l : Link) : Scope :=
  match last[l.parameter]?, s.get? l.target with
  | some inner, some outer => s.set l.target (outer.write inner.value)
  | _, _ => s

variable {last : Frame} {s : Scope} {l : Link} {links : List Link} {key : SlotKey}
  {inner outer : Slot}

theorem carry_of_get? (hinner : last[l.parameter]? = some inner)
    (houter : s.get? l.target = some outer) :
    s.carry last l = s.set l.target (outer.write inner.value) := by
  unfold carry
  rw [hinner, houter]

private theorem sameShape_carry (last : Frame) (s : Scope) (l : Link) :
    s.SameShape (s.carry last l) := by
  unfold carry
  split
  next houter => exact sameShape_set houter rfl
  next => exact s.sameShape_refl

private theorem sameShape_carryAll (last : Frame) (s : Scope) (links : List Link) :
    s.SameShape (links.foldl (carry last) s) := by
  induction links generalizing s with
  | nil => exact s.sameShape_refl
  | cons l links ih => exact (sameShape_carry last s l).trans (ih _)

private theorem get?_carry_of_ne (h : l.target ≠ key) : (s.carry last l).get? key = s.get? key := by
  unfold carry
  split
  · exact get?_set_of_ne h.symm s
  · rfl

private theorem get?_carryAll_of_ne (h : ∀ l ∈ links, l.target ≠ key) :
    (links.foldl (carry last) s).get? key = s.get? key := by
  induction links generalizing s with
  | nil => rfl
  | cons l links ih =>
    obtain ⟨hl, hrest⟩ := List.forall_mem_cons.mp h
    rw [List.foldl_cons, ih hrest, get?_carry_of_ne hl]

/-- A variable that one link goes back to ends with the value of its parameter, even if what goes
back is carried more than once. -/
private theorem get?_carryAll (hl : l ∈ links) (honly : ∀ l' ∈ links, l'.target = l.target → l' = l)
    (hinner : last[l.parameter]? = some inner) (houter : s.get? l.target = some outer) :
    (links.foldl (carry last) s).get? l.target = some (outer.write inner.value) := by
  induction links generalizing s outer with
  | nil => exact absurd hl List.not_mem_nil
  | cons l' links ih =>
    obtain ⟨hfirst, hrest⟩ := List.forall_mem_cons.mp honly
    rw [List.foldl_cons]
    by_cases heq : l' = l
    · have hcarried : (s.carry last l').get? l.target = some (outer.write inner.value) := by
        rw [heq, carry_of_get? hinner houter]
        exact get?_set_self (by rw [houter]; rfl)
      by_cases hagain : l ∈ links
      · -- The second write of the value replaces the first.
        have hcarriedAgain := ih hagain hrest hcarried
        exact hcarriedAgain
      · rw [get?_carryAll_of_ne, hcarried]
        rintro l'' hl'' htarget
        exact hagain (hrest l'' hl'' htarget ▸ hl'')
    · have hlater : l ∈ links := (List.mem_cons.mp hl).resolve_left (Ne.symm heq)
      refine ih hlater hrest ?_
      rw [get?_carry_of_ne fun htarget => heq (hfirst htarget), houter]

end Scope

namespace Machine

theorem scope_copyWhole (m : Machine) (last : Frame) (parameter owner : String) :
    (m.copyWhole last parameter owner).scope =
      ((CopyBack.whole parameter owner).links last).foldl (Scope.carry last) m.scope := by
  have hslots : ∀ entry ∈ last.ownedBy parameter, last[entry.1]? = some entry.2 :=
    fun entry hentry => (Frame.mem_ownedBy.mp hentry).1
  unfold copyWhole CopyBack.links
  rw [List.foldl_map]
  generalize last.ownedBy parameter = slots at hslots
  induction slots generalizing m with
  | nil => rfl
  | cons entry slots ih =>
    obtain ⟨hentry, hrest⟩ := List.forall_mem_cons.mp hslots
    rw [List.foldl_cons, List.foldl_cons, ih _ hrest]
    congr 1
    unfold Scope.carry
    dsimp only
    rw [hentry]
    cases m.scope.get? (entry.1.rebase owner) <;> rfl

end Machine

namespace Run

variable {last : Frame} {m : Machine}

private theorem copyBack_ok {c : CopyBack}
    (h : ∀ l ∈ c.links last, (m.scope.get? l.target).isSome = true) :
    ∃ m', copyBack last c m = .ok () m' ∧
      m'.scope = (c.links last).foldl (Scope.carry last) m.scope := by
  cases c with
  | slot parameter target =>
    obtain ⟨outer, houter⟩ := Option.isSome_iff_exists.mp (h _ List.mem_cons_self)
    change ∃ m' : Machine, _ ∧ m'.scope = Scope.carry last m.scope ⟨.plain parameter, target⟩
    rw [copyBack, Std.HashMap.get?_eq_getElem?]
    cases hinner : last[SlotKey.plain parameter]? with
    | none =>
      refine ⟨m, rfl, ?_⟩
      unfold Scope.carry
      rw [hinner]
    | some inner =>
      refine ⟨_, writeKey_of_target (Machine.target_of_get? houter) inner.value, ?_⟩
      obtain ⟨indices, lastIndex, hwritten⟩ := m.writeSlot_eq target outer inner.value
      rw [Machine.writeTo, hwritten, Scope.carry_of_get? hinner houter]
  | whole parameter owner => exact ⟨_, rfl, m.scope_copyWhole last parameter owner⟩

private theorem copyBacks_ok {backs : List CopyBack}
    (h : ∀ c ∈ backs, ∀ l ∈ c.links last, (m.scope.get? l.target).isSome = true) :
    ∃ m', backs.forM (copyBack last) m = .ok () m' ∧
      m'.scope = (backs.flatMap (CopyBack.links last)).foldl (Scope.carry last) m.scope := by
  induction backs generalizing m with
  | nil => exact ⟨m, rfl, rfl⟩
  | cons c backs ih =>
    obtain ⟨hc, hrest⟩ := List.forall_mem_cons.mp h
    obtain ⟨carried, hcopied, hscope⟩ := copyBack_ok hc
    have hshape : m.scope.SameShape carried.scope := by
      rw [hscope]
      exact Scope.sameShape_carryAll last m.scope _
    obtain ⟨m', hlater, hfinal⟩ := ih fun c hc l hl => by
      rw [hshape.isSome_get?]
      exact hrest c hc l hl
    refine ⟨m', ?_, ?_⟩
    · exact (bind_ok hcopied _).trans hlater
    · rw [hfinal, hscope, List.flatMap_cons, List.foldl_append]

end Run

/-! ### A call -/

theorem Frame.unknownStructure_of_declareLocals {structures : List StructureDef}
    {locals : List VariableDecl} {frame : Frame} {f : Fault × Position}
    (h : declareLocals structures locals frame = .error f) :
    ∃ d ∈ locals, ∃ name, d.type = .instanceOf name ∧
      structures.find? (Text.sameWord ·.name name) = none ∧
        f = (.unknownStructure name, d.pos) := by
  induction locals generalizing frame with
  | nil => cases h
  | cons d rest ih =>
    unfold declareLocals at h
    split at h
    next =>
      obtain ⟨d', hd', hunknown⟩ := ih h
      exact ⟨d', List.mem_cons_of_mem _ hd', hunknown⟩
    next name hname =>
      cases h
      refine ⟨d, List.mem_cons_self, name, ?_⟩
      unfold declareVariable at hname
      dsimp only at hname
      split at hname
      next typeName htype =>
        split at hname
        next hnone =>
          cases hname
          exact ⟨htype, hnone, rfl⟩
        next => cases hname
      next => split at hname <;> cases hname

/-- A variable of the caller has become what its parameter ended with, a text cut to its
capacity. -/
def Link.Received (l : Link) (last : Frame) (m m' : Machine) : Prop :=
  ∃ inner outer, last[l.parameter]? = some inner ∧ m.scope.get? l.target = some outer ∧
    m'.scope.get? l.target = some { outer with value := outer.kind.received inner.value }

namespace Run

theorem localFrame_ok {m : Machine} {locals : List VariableDecl} {frame frame' : Frame}
    (h : Frame.declareLocals m.program.structures locals frame = .ok frame') :
    localFrame locals frame m = .ok frame' m := by
  unfold localFrame
  rw [get_bind, h]
  rfl

private theorem localFrame_error {m : Machine} {locals : List VariableDecl} {frame : Frame}
    {f : Fault × Position}
    (h : Frame.declareLocals m.program.structures locals frame = .error f) :
    localFrame locals frame m = .error (.fault f.1 (some f.2)) m := by
  unfold localFrame
  rw [get_bind, h]
  rfl

theorem inFrame_ok {α : Type} {x : Run α} {m done : Machine} {frame last : Frame}
    {rest : List Frame} {a : α} (h : x (m.enter frame) = .ok a done)
    (hframes : done.scope.frames = last :: rest) :
    inFrame frame x m = .ok (a, last) done.leave ∧ done.leave.scope.frames = rest := by
  have hpop : done.scope.pop = (some last, { done.scope with frames := rest }) := by
    unfold Scope.pop
    rw [hframes]
  unfold inFrame Machine.leave
  rw [h]
  dsimp only
  rw [hpop]
  exact ⟨rfl, rfl⟩

private theorem inFrame_error {α : Type} {x : Run α} {m done : Machine} {frame : Frame} {u : Unwind}
    (h : x (m.enter frame) = .error u done) : inFrame frame x m = .error u done.leave := by
  unfold inFrame
  rw [h]

theorem callFunction_of_shallow {eval : Expr → Run Value} {block : List Stmt → Run Flow}
    {f : FunctionDef} {args : List Expr} {m : Machine} (h : m.depth < m.config.maxCallDepth) :
    callFunction eval block f args m = applyFunction eval block f args m := by
  unfold callFunction
  rw [get_bind, if_neg (Nat.not_le.mpr h)]

end Run

/-- A body that ends leaves the frame of its call with slots of the same keys and kinds, each with a
value that is normal for its kind. -/
private theorem Run.last_of_block {pump : Nat → Run Unit}
    (hleads : ∀ deadline, Relates Machine.Leads (pump deadline))
    (hbalanced : ∀ deadline, Relates Machine.Balanced (pump deadline)) {fuel : Nat}
    {body : List Stmt} {m done : Machine} {frame : Frame} {flow : Flow}
    (hbody : block pump fuel body (m.enter frame) = .ok flow done) (hm : m.Typed)
    (hframe : Frame.Typed frame) :
    ∃ last rest, done.scope.frames = last :: rest ∧ Frame.SameShape frame last ∧
      Frame.Typed last := by
  have hentered : (m.enter frame).Typed := ⟨hm.scope.push hframe, hm.waits, hm.signals⟩
  have hdone := ((leads_respected hleads).block fuel body).typed hbody hentered
  have hkept := (balanced_respected hbalanced).block fuel body (m.enter frame)
  rw [Machine.after_ok hbody] at hkept
  obtain ⟨last, rest, hshape, -, hframes⟩ := List.forall₂_cons_left_iff.mp hkept.scope.frames
  refine ⟨last, rest, hframes, hshape, hdone.scope.frames last ?_⟩
  rw [hframes]
  exact List.mem_cons_self

section Received

variable {names : List String} {links : List Link} {b : Binding} {m : Machine}
  (hb : b.Bound names links m) {frame last : Frame}
  (hframe : ∀ key : SlotKey, key.owner ∈ names → frame[key]? = b.frame[key]?)
  (hshape : Frame.SameShape frame last)
include hb hframe hshape

private theorem Binding.Bound.mem_carried (l : Link) :
    l ∈ b.copyBacks.flatMap (CopyBack.links last) ↔ l ∈ links := by
  rw [List.mem_flatMap, ← hb.backs l]
  refine exists_congr fun c => and_congr_right fun hc => CopyBack.mem_links_congr ?_
  intro key howner
  rw [hshape.isSome_getElem?, hframe key (howner ▸ hb.parameters c hc)]

private theorem Binding.Bound.kind?_last {key : SlotKey} {start : Slot}
    (h : b.frame[key]? = some start) :
    Frame.kind? last key = some start.kind := by
  rw [hshape key]
  unfold Frame.kind?
  rw [hframe _ (hb.owners _ (by rw [h]; rfl)), h]
  rfl

theorem Binding.Bound.received (hdistinct : (links.map Link.target).Nodup)
    (hlast : Frame.Typed last) {done : Machine} (hleaves : m.Leaves (links.map Link.target) done) :
    ∃ m', b.copyBacks.forM (Run.copyBack last) done = .ok () m' ∧
      (∀ l ∈ links, l.Received last m m') ∧
        ∀ key ∉ links.map Link.target, m'.scope.get? key = done.scope.get? key := by
  have hcarried := hb.mem_carried hframe hshape
  have hthere : ∀ l ∈ links, ∃ outer, done.scope.get? l.target = some outer ∧
      m.scope.get? l.target = some outer := by
    intro l hl
    obtain ⟨_, outer, -, houter, -⟩ := hb.starts l hl
    exact ⟨outer, (hleaves _ (List.mem_map_of_mem hl)).trans houter, houter⟩
  have hbacks : ∀ c ∈ b.copyBacks, ∀ l ∈ c.links last,
      (done.scope.get? l.target).isSome = true := by
    intro c hc l hl
    obtain ⟨outer, houter, -⟩ := hthere l ((hcarried l).mp (List.mem_flatMap.mpr ⟨c, hc, hl⟩))
    rw [houter]
    rfl
  obtain ⟨m', hcopied, hscope⟩ := Run.copyBacks_ok hbacks
  refine ⟨m', hcopied, fun l hl => ?_, fun key hkey => ?_⟩
  · obtain ⟨start, outer, hstart, houter, -, hfits⟩ := hb.starts l hl
    obtain ⟨outer', hdone, houter'⟩ := hthere l hl
    obtain rfl : outer' = outer := by
      rw [houter] at houter'
      exact (Option.some.inj houter').symm
    obtain ⟨inner, hinner, hsame⟩ := Option.map_eq_some_iff.mp (hb.kind?_last hframe hshape hstart)
    rw [← hsame] at hfits
    refine ⟨inner, outer', hinner, houter, ?_⟩
    rw [hscope, Scope.get?_carryAll ((hcarried l).mpr hl) ?_ hinner hdone]
    · unfold Slot.write
      rw [hfits.received (hlast _ _ hinner)]
    · intro l' hl' htarget
      exact List.inj_on_of_nodup_map hdistinct ((hcarried l').mp hl') hl htarget
  · rw [hscope, Scope.get?_carryAll_of_ne]
    rintro l hl rfl
    exact hkey (List.mem_map_of_mem ((hcarried l).mp hl))

end Received

/--
A call of a function whose parameters have names of their own, none of them that of a local, with
arguments that name variables of the caller which are all different. Unless a local has an unknown
structure, the body starts with each parameter that goes back, and each slot of one that stands for
an array or a structure, at the value of the caller. If the body ends, and the variables of the
caller are as they were, each becomes what its parameter ended with, and nothing else changes. If
the body does not end, nothing goes back.
-/
theorem call_passes_by_value_and_result (config : Settings) (actions : List HostAction)
    {m : Machine}
    {k : List Around} (hs : Moment.Leads ⟨(Machine.new config).afterActions actions, []⟩ ⟨m, k⟩)
    {pump : Nat → Run Unit} (hpump : pump = Run.pump ∨ pump = Run.noPump) {n : Nat}
    {f : FunctionDef} {args : List Expr} {links : List Link} {bound : Machine}
    (hdepth : m.depth < m.config.maxCallDepth)
    (hparams : (f.params.map fun p => Text.upper p.name).Nodup)
    (hlocals : ∀ d ∈ f.locals, ∀ p ∈ f.params, Text.upper p.name ≠ Text.upper d.name)
    (hpasses : Run.Passes pump n (links.map Link.target) f.params args m links bound)
    (hdistinct : (links.map Link.target).Nodup) :
    let call := Run.callFunction (Run.eval pump (n + 1)) (Run.block pump (n + 1)) f args m
    let targets := links.map Link.target
    (m.Leaves targets bound ∧ ∃ d ∈ f.locals, ∃ name, d.type = .instanceOf name ∧
      bound.program.structures.find? (Text.sameWord ·.name name) = none ∧
        call = .error (.fault (.unknownStructure name) (some d.pos)) bound) ∨
      ∃ frame, (∀ l ∈ links, l.Starts frame m) ∧
        (∀ flow done, Run.block pump (n + 1) f.body (bound.enter frame) = .ok flow done →
          m.Leaves targets done.leave →
            ∃ last m', done.scope.frames = last :: done.leave.scope.frames ∧
              call = .ok (f.result flow) m' ∧ (∀ l ∈ links, l.Received last m m') ∧
                ∀ key ∉ targets, m'.scope.get? key = done.leave.scope.get? key) ∧
          ∀ u done, Run.block pump (n + 1) f.body (bound.enter frame) = .error u done →
            call = .error u done.leave := by
  intro call targets
  have hleads : ∀ deadline, Run.Relates Machine.Leads (pump deadline) := by
    obtain rfl | rfl := hpump
    · exact Run.leads_pump
    · exact fun _ => Run.leads_closed.pure ()
  have hbalanced : ∀ deadline, Run.Relates Machine.Balanced (pump deadline) :=
    Machine.balanced_passing.either hpump
  have hm : m.Typed := (hs.typed (Machine.typed_afterActions config actions)).machine
  obtain ⟨b, hbind, hb, hbound⟩ := hpasses.bindParameters hleads f.name hm (Binding.bound_nil m)
    hparams (fun l hl => absurd hl List.not_mem_nil) fun l hl => List.mem_map_of_mem hl
  rw [List.nil_append, List.nil_append] at hb
  have hbm : b.Bound (f.params.map fun p => Text.upper p.name) links m :=
    hb.of_leaves (fun key hkey => (hpasses.leaves key hkey).symm) fun l hl =>
      List.mem_map_of_mem hl
  have hcall : call = (Run.localFrame f.locals b.frame >>= fun frame =>
      Run.inFrame frame (Run.block pump (n + 1) f.body) >>= fun left =>
        b.copyBacks.forM (Run.copyBack left.2) >>= fun _ => pure (f.result left.1)) bound :=
    (Run.callFunction_of_shallow hdepth).trans (Run.bind_ok hbind _)
  cases hdeclared : Frame.declareLocals bound.program.structures f.locals b.frame with
  | error fault =>
    rw [Run.bind_error (Run.localFrame_error hdeclared)] at hcall
    obtain ⟨d, hd, name, htype, hnone, rfl⟩ := Frame.unknownStructure_of_declareLocals hdeclared
    exact .inl ⟨hpasses.leaves, d, hd, name, htype, hnone, hcall⟩
  | ok frame =>
    rw [Run.bind_ok (Run.localFrame_ok hdeclared)] at hcall
    have hframe : ∀ key : SlotKey, key.owner ∈ (f.params.map fun p => Text.upper p.name) →
        frame[key]? = b.frame[key]? := by
      intro key howner
      obtain ⟨p, hp, hname⟩ := List.mem_map.mp howner
      exact Frame.getElem?_declareLocals hdeclared fun d hd => hname ▸ hlocals d hd p hp
    refine .inr ⟨frame, fun l hl => ?_, fun flow done hbody hleaves => ?_, fun u done hbody => ?_⟩
    · obtain ⟨inner, outer, hinner, hsame⟩ := hbm.starts l hl
      refine ⟨inner, outer, ?_, hsame⟩
      rw [hframe _ (hbm.owners _ (by rw [hinner]; rfl)), hinner]
    · obtain ⟨last, rest, hframes, hshape, hlast⟩ :=
        Run.last_of_block hleads hbalanced hbody hbound (hb.typed.declareLocals hdeclared)
      obtain ⟨m', hcopied, hreceived, hothers⟩ :=
        hbm.received hframe hshape hdistinct hlast hleaves
      obtain ⟨hin, hrest⟩ := Run.inFrame_ok hbody hframes
      refine ⟨last, m', by rw [hrest, hframes], ?_, hreceived, hothers⟩
      rw [hcall, Run.bind_ok hin]
      exact Run.bind_ok hcopied _
    · rw [hcall]
      exact Run.bind_error (Run.inFrame_error hbody) _

/-! ### An element of an array that is given a number -/

def setsSeven : FunctionDef where
  name := "F"
  returnKind := .nothing
  returnType := none
  params := [⟨.integer, "P", true, false⟩]
  locals := []
  body := [.assign .start (.name "P") (.number 7)]
  pos := .start

def zeroAndFive : Machine :=
  ((Machine.new {}).enter (arrayFrame 1)).writeSlot (.element "A" 1)
    (.fresh (.integer .unsigned16)) (.number 5)

private theorem upper_given : Text.upper "A" = "A" ∧ Text.upper "P" = "P" := by
  constructor
  all_goals
    rw [← String.toList_inj, Text.toList_upper]
    rfl

private theorem get?_arrayFrame (n : Nat) (key : SlotKey) :
    (Scope.push {} (arrayFrame n)).get? key = (arrayFrame n)[key]? := by
  rw [Scope.get?_push, Scope.get?_empty, Option.or_none]

private theorem arrayFrame_five : (arrayFrame 1)[SlotKey.element "A" 1]? =
    some (.fresh (.integer .unsigned16)) :=
  arrayFrame_element (i := 1) (by decide)

private theorem leads_zeroAndFive : Moment.Leads ⟨Machine.new {}, []⟩ ⟨zeroAndFive, []⟩ := by
  have hentered : Moment.Leads ⟨Machine.new {}, []⟩ ⟨(Machine.new {}).enter (arrayFrame 1), []⟩ :=
    ((Moment.Leads.single (.beginBinding _ [])).step
      (.declare _ [] (declareLocals_arrayFrame 1))).step (.enter _ [] _)
  have hslot : ((Machine.new {}).enter (arrayFrame 1)).scope.get? (.element "A" 1) =
      some (.fresh (.integer .unsigned16)) :=
    (get?_arrayFrame 1 _).trans arrayFrame_five
  have hwritten := Run.Elementary.leads (.tryWrite (.element "A" 1) (.number 5))
    ((Machine.new {}).enter (arrayFrame 1)) []
  have hafter : ((Machine.new {}).enter (arrayFrame 1)).after
      (Run.tryWrite (.element "A" 1) (.number 5)) = zeroAndFive := by
    refine Machine.after_ok (a := none) ?_
    unfold Run.tryWrite
    rw [Machine.target_of_get? hslot]
    rfl
  rw [hafter] at hwritten
  exact hentered.trans hwritten

private theorem get?_zeroAndFive_one :
    zeroAndFive.scope.get? (.element "A" 1) = some ⟨.number 5, .integer .unsigned16⟩ :=
  Scope.get?_set_self (Option.isSome_iff_exists.mpr
    ⟨_, (get?_arrayFrame 1 _).trans arrayFrame_five⟩)

private theorem get?_zeroAndFive_zero :
    zeroAndFive.scope.get? (.element "A" 0) = some (.fresh (.integer .unsigned16)) := by
  have hother : zeroAndFive.scope.get? (.element "A" 0) = (arrayFrame 1)[SlotKey.element "A" 0]? :=
    (Scope.get?_set_of_ne (by decide) _).trans (get?_arrayFrame 1 _)
  rw [hother]
  exact arrayFrame_element (i := 0) (by decide)

private theorem eq_of_get?_zeroAndFive {key : SlotKey} {slot : Slot}
    (h : zeroAndFive.scope.get? key = some slot) (hfive : slot.value = .number 5) :
    key = .element "A" 1 := by
  by_contra hne
  by_cases hzero : key = .element "A" 0
  · rw [hzero, get?_zeroAndFive_zero] at h
    cases h
    cases hfive
  · have hempty : ({} : Frame)[key]? = none := by simp
    have hmissing : (arrayFrame 1)[key]? = none := by
      rw [← hempty]
      refine Frame.getElem?_declareUpTo_of_ne (fun i hi heq => ?_) _ _
      obtain rfl | rfl : i = 0 ∨ i = 1 := by omega
      · exact hzero heq.symm
      · exact hne heq.symm
    have hget : zeroAndFive.scope.get? key = (arrayFrame 1)[key]? :=
      (Scope.get?_set_of_ne hne _).trans (get?_arrayFrame 1 key)
    rw [hget, hmissing] at h
    cases h

namespace Run

private theorem block_setsSeven {m : Machine} (hmode : m.mode = .immediate)
    (hsteps : m.steps + 2 ≤ m.config.stepLimit) {frame : Frame} {slot : Slot}
    (hslot : frame[SlotKey.plain "P"]? = some slot) (pump : Nat → Run Unit) (fuel : Nat) :
    ∃ done, block pump (fuel + 2) setsSeven.body (m.enter frame) = .ok .normal done ∧
      done.scope.frames = frame.insert (.plain "P") (slot.write (.number 7)) :: m.scope.frames ∧
        done.leave.scope = m.scope := by
  let ready : Machine := { m.enter frame with steps := m.steps + 2 }
  have hget : ready.scope.get? (.plain "P") = some slot := by
    change (m.scope.push frame).get? (.plain "P") = some slot
    rw [Scope.get?_push, hslot, Option.some_or]
  have hset : ready.scope.set (.plain "P") (slot.write (.number 7)) =
      m.scope.push (frame.insert (.plain "P") (slot.write (.number 7))) := by
    have hthere : frame.contains (.plain "P") = true := by
      rw [Std.HashMap.contains_eq_isSome_getElem?, hslot]
      rfl
    change (m.scope.push frame).set _ _ = _
    unfold Scope.set Scope.push
    rw [List.any_cons, hthere, Bool.true_or, if_pos rfl, Scope.setIn, if_pos hthere]
  have hkey : resolveKey (eval pump (fuel + 1)) (.name "P") ready = .ok (.plain "P") ready := by
    change EStateM.Result.ok (SlotKey.plain (Text.upper "P")) ready = _
    rw [upper_given.2]
  have htick : tick (m.enter frame) = .ok () { m.enter frame with steps := m.steps + 1 } :=
    tick_immediate hmode (Nat.le_of_succ_le hsteps)
  have hexec : exec pump (fuel + 2) (.assign .start (.name "P") (.number 7)) (m.enter frame) =
      .ok .normal (ready.writeSlot (.plain "P") slot (.number 7)) := by
    unfold exec
    rw [bind_ok htick]
    apply locatedAt_ok
    change (eval pump (fuel + 1) (.number 7) >>= fun v =>
      resolveKey (eval pump (fuel + 1)) (.name "P") >>= fun key =>
        writeKey key v >>= fun _ => pure Flow.normal) _ = _
    rw [bind_ok (eval_number (m := { m.enter frame with steps := m.steps + 1 }) hmode hsteps pump
      fuel 7), bind_ok hkey, bind_ok (writeKey_of_target (Machine.target_of_get? hget) _)]
    rfl
  obtain ⟨indices, last, hwritten⟩ := ready.writeSlot_eq (.plain "P") slot (.number 7)
  rw [hset] at hwritten
  refine ⟨_, bind_ok hexec _, ?_, ?_⟩
  · rw [hwritten]
    rfl
  · rw [hwritten]
    rfl

theorem resolveKey_element {eval : Expr → Run Value} (name : String) {index : Expr}
    (hindex : ∀ first second, index = .binary .pair first second → False) {m m' : Machine}
    {v : Value} (h : eval index m = .ok v m') :
    resolveKey eval (.element name index) m = .ok (.element (Text.upper name) v.toNumber) m' := by
  rw [resolveKey.eq_3 eval name index hindex]
  exact bind_ok h _

end Run

/-- The five in the array, named by a number, is passed to the function and comes back as seven. -/
theorem five_becomes_seven :
    let args := [Expr.element "A" (.number 1)]
    Moment.Leads ⟨Machine.new {}, []⟩ ⟨zeroAndFive, []⟩ ∧
      zeroAndFive.scope.get? (.element "A" 1) = some ⟨.number 5, .integer .unsigned16⟩ ∧
        ∃ m', Run.callFunction (Run.eval Run.noPump 3) (Run.block Run.noPump 3) setsSeven args
          zeroAndFive = .ok .zero m' ∧
            m'.scope.get? (.element "A" 1) = some ⟨.number 7, .integer .unsigned16⟩ := by
  intro args
  let key := SlotKey.element "A" 1
  let valued (n : Nat) : Machine := { zeroAndFive with steps := n }
  have hresolve : ∀ fuel n : Nat, n < 10 →
      Run.resolveKey (Run.eval Run.noPump (fuel + 1)) (.element "A" (.number 1)) (valued n) =
        .ok key (valued (n + 1)) := by
    intro fuel n hn
    have hlimit : 10 < ({} : Settings).stepLimit := by decide
    have hsteps : (valued n).steps < (valued n).config.stepLimit := Nat.lt_trans hn hlimit
    have hindex : Run.eval Run.noPump (fuel + 1) (.number 1) (valued n) =
        .ok (.number 1) (valued (n + 1)) :=
      Run.eval_number rfl hsteps Run.noPump fuel 1
    have hkey : SlotKey.element (Text.upper "A") 1 = key := by rw [upper_given.1]
    rw [← hkey]
    exact Run.resolveKey_element "A" (fun _ _ h => by cases h) hindex
  have hnames :
      Run.Names Run.noPump 2 [key] (.element "A" (.number 1)) zeroAndFive key (valued 3) :=
    ⟨rfl, valued 1, valued 2, Run.tick_immediate rfl (by decide), hresolve 1 1 (by decide),
      fun _ _ => rfl, hresolve 2 2 (by decide), fun _ _ => rfl⟩
  let links : List Link := [⟨.plain "P", key⟩]
  have hpasses : Run.Passes Run.noPump 2 (links.map Link.target) setsSeven.params args zeroAndFive
      links (valued 3) := by
    have hparameter : Link.mk (.plain (Text.upper "P")) key = ⟨.plain "P", key⟩ := by
      rw [upper_given.2]
    change Run.Passes Run.noPump 2 [key] _ _ _ [_] _
    rw [← hparameter]
    exact .reference rfl rfl hnames get?_zeroAndFive_one rfl (.done [] _)
  refine ⟨leads_zeroAndFive, get?_zeroAndFive_one, ?_⟩
  obtain ⟨-, d, hd, -⟩ | ⟨frame, hstarts, hends, -⟩ := call_passes_by_value_and_result {} []
    leads_zeroAndFive (.inr rfl) (f := setsSeven) (by decide) (List.nodup_singleton _)
    (fun d hd => absurd hd List.not_mem_nil) hpasses (List.nodup_singleton _)
  · exact absurd hd List.not_mem_nil
  · obtain ⟨⟨value, kind⟩, outer, hinner, houter, -, hfits⟩ :=
      hstarts _ (List.mem_singleton_self _)
    cases get?_zeroAndFive_one.symm.trans houter
    obtain rfl : kind = .integer .unsigned16 := by
      cases kind with
      | integer width => exact congrArg SlotKind.integer hfits
      | text capacity => cases hfits
      | untyped => cases hfits
    obtain ⟨done, hbody, hframes, hleft⟩ :=
      Run.block_setsSeven (m := valued 3) rfl (by decide) hinner Run.noPump 1
    obtain ⟨last, m', hlast, hcall, hreceived, -⟩ := hends .normal done hbody fun key _ => by
      rw [hleft]
    obtain ⟨inner, outer, hinner', houter', hseven⟩ := hreceived _ (List.mem_singleton_self _)
    rw [hframes] at hlast
    obtain ⟨rfl, -⟩ := List.cons.inj hlast
    cases Std.HashMap.getElem?_insert_self.symm.trans hinner'
    cases get?_zeroAndFive_one.symm.trans houter'
    exact ⟨m', hcall, hseven⟩

/-! ### An index that changes between its two evaluations -/

def sectionIndex : Expr :=
  .call "ENTERCRITICALSECTION" [.name "LOCK"]

private theorem upper_section :
    Text.upper "ENTERCRITICALSECTION" = "ENTERCRITICALSECTION" ∧ Text.upper "LOCK" = "LOCK" := by
  constructor
  all_goals
    rw [← String.toList_inj, Text.toList_upper]
    rfl

namespace Run

private theorem eval_sectionIndex {m : Machine} (hmode : m.mode = .immediate)
    (hsteps : m.steps < m.config.stepLimit)
    (hfunctions : m.functions.get? "ENTERCRITICALSECTION" = none) (fuel : Nat) :
    eval noPump (fuel + 1) sectionIndex m =
      repeatUntil (tryCritical noPump "LOCK") fuel { m with steps := m.steps + 1 } := by
  obtain ⟨hsection, hlock⟩ := upper_section
  have hunknown : m.functions.get? (Text.upper "ENTERCRITICALSECTION") = none := by
    rw [hsection, hfunctions]
  have hserved : servedRoutine (eval noPump fuel) noPump fuel "ENTERCRITICALSECTION"
      [.name "LOCK"] = some (repeatUntil (tryCritical noPump (Text.upper "LOCK")) fuel) :=
    rfl
  unfold eval sectionIndex
  rw [bind_ok (tick_immediate hmode hsteps)]
  unfold expression call
  dsimp only
  rw [get_bind]
  dsimp only
  rw [hunknown]
  dsimp only
  rw [hsection, if_neg (by decide), hserved, hlock]

private theorem eval_sectionIndex_free {m : Machine} (hmode : m.mode = .immediate)
    (hsteps : m.steps < m.config.stepLimit)
    (hfunctions : m.functions.get? "ENTERCRITICALSECTION" = none)
    (hfree : m.critical.contains "LOCK" = false) (fuel : Nat) :
    eval noPump (fuel + 2) sectionIndex m =
      .ok (.number 1)
        { m with steps := m.steps + 1, critical := m.critical.insert "LOCK" } := by
  have htry : tryCritical noPump "LOCK" { m with steps := m.steps + 1 } =
      .ok (some (.number 1))
        { m with steps := m.steps + 1, critical := m.critical.insert "LOCK" } := by
    unfold tryCritical
    rw [get_bind, hfree]
    rfl
  rw [eval_sectionIndex hmode hsteps hfunctions, repeatUntil, bind_ok htry]
  rfl

private theorem eval_sectionIndex_held {m : Machine} (hmode : m.mode = .immediate)
    (hsteps : m.steps < m.config.stepLimit)
    (hfunctions : m.functions.get? "ENTERCRITICALSECTION" = none)
    (hheld : m.critical.contains "LOCK" = true) (fuel : Nat) :
    ∃ event, eval noPump (fuel + 2) sectionIndex m =
      .ok .zero (({ m with steps := m.steps + 1 } : Machine).tell event) := by
  have htry : ∃ event, tryCritical noPump "LOCK" { m with steps := m.steps + 1 } =
      .ok (some .zero) (({ m with steps := m.steps + 1 } : Machine).tell event) := by
    unfold tryCritical
    rw [get_bind, hheld]
    dsimp only
    rw [hmode]
    exact ⟨_, rfl⟩
  obtain ⟨event, htried⟩ := htry
  refine ⟨event, ?_⟩
  rw [eval_sectionIndex hmode hsteps hfunctions, repeatUntil, bind_ok htried]
  rfl

end Run

/-- The caller when the section has been taken, and the element with the five read. -/
def sectionTaken : Machine :=
  { zeroAndFive with steps := 2, critical := zeroAndFive.critical.insert "LOCK" }

private theorem bind_sectionIndex :
    ∃ event, Run.bindParameters (Run.eval Run.noPump 3) "F" setsSeven.params
      [.element "A" sectionIndex] {} zeroAndFive =
        .ok ((({} : Binding).addSlot "P" (.integer .unsigned16) (.number 5)).addTarget "P"
          (.element "A" 0)) (({ sectionTaken with steps := 3 } : Machine).tell event) := by
  have hfunctions : ({} : Std.HashMap String Nat).get? "ENTERCRITICALSECTION" = none := by
    exact Std.HashMap.getElem?_empty
  have hfree : ({} : Std.HashSet String).contains "LOCK" = false := Std.HashSet.contains_empty
  have htick : Run.tick zeroAndFive = .ok () { zeroAndFive with steps := 1 } :=
    Run.tick_immediate rfl (by decide)
  have hfirst : Run.eval Run.noPump 2 sectionIndex { zeroAndFive with steps := 1 } =
      .ok (.number 1) sectionTaken :=
    Run.eval_sectionIndex_free (m := { zeroAndFive with steps := 1 }) rfl (by decide) hfunctions
      hfree 0
  obtain ⟨event, hsecond⟩ := Run.eval_sectionIndex_held (m := sectionTaken) rfl (by decide)
    hfunctions (Std.HashSet.contains_insert_self) 1
  have hone := Run.resolveKey_element "A" (fun _ _ h => by cases h) hfirst
  have hzero := Run.resolveKey_element "A" (fun _ _ h => by cases h) hsecond
  rw [upper_given.1] at hone hzero
  have hvalue : Run.eval Run.noPump 3 (.element "A" sectionIndex) zeroAndFive =
      .ok (.number 5) sectionTaken := by
    rw [Run.eval_place rfl htick, Run.bind_ok hone]
    exact Run.readKey_of_some (Machine.read?_of_get? get?_zeroAndFive_one)
  refine ⟨event, ?_⟩
  have hparameter : Run.bindParameter _ "F" ⟨.integer, "P", true, false⟩ _ {} _ = _ :=
    Run.bindParameter_reference rfl rfl hvalue hzero
  rw [upper_given.2] at hparameter
  exact Run.bind_ok hparameter _

/-- The variable that a parameter starts with is not always the one that it goes back to. -/
theorem five_stays_five :
    ¬ ∀ {m bound done m' : Machine} {f : FunctionDef} {p : Parameter} {e : Expr} {b : Binding}
        {flow : Flow} {v : Value} {last : Frame} {n : Nat},
      Moment.Leads ⟨Machine.new {}, []⟩ ⟨m, []⟩ → f.params = [p] → f.locals = [] →
        p.byRef = true → e.isPlace = true →
          Run.bindParameters (Run.eval Run.noPump n) f.name f.params [e] {} m = .ok b bound →
            bound.scope = m.scope →
              Run.block Run.noPump n f.body (bound.enter b.frame) = .ok flow done →
                done.scope.frames = last :: done.leave.scope.frames →
                  done.leave.scope = m.scope →
                    Run.callFunction (Run.eval Run.noPump n) (Run.block Run.noPump n) f [e] m =
                      .ok v m' →
                      ∃ l : Link, l.parameter = .plain (Text.upper p.name) ∧
                        l.Starts b.frame m ∧ l.Received last m m' := by
  intro hclaim
  obtain ⟨event, hbind⟩ := bind_sectionIndex
  let bound : Machine := ({ sectionTaken with steps := 3 } : Machine).tell event
  let b := (({} : Binding).addSlot "P" (.integer .unsigned16) (.number 5)).addTarget "P"
    (.element "A" 0)
  have hslot : b.frame[SlotKey.plain "P"]? = some ⟨.number 5, .integer .unsigned16⟩ :=
    Std.HashMap.getElem?_insert_self
  have hsteps : 3 + 2 ≤ ({} : Settings).stepLimit := by decide
  obtain ⟨done, hbody, hframes, hleft⟩ :=
    Run.block_setsSeven (m := bound) rfl hsteps hslot Run.noPump 1
  obtain ⟨hin, hrest⟩ := Run.inFrame_ok hbody hframes
  have hkept : bound.scope = zeroAndFive.scope := rfl
  have hscope : done.leave.scope = zeroAndFive.scope := hleft
  let last := b.frame.insert (.plain "P") ((⟨.number 5, .integer .unsigned16⟩ : Slot).write
    (.number 7))
  have hback : ∀ c ∈ [CopyBack.slot "P" (.element "A" 0)], ∀ l ∈ c.links last,
      (done.leave.scope.get? l.target).isSome = true := by
    intro c hc l hl
    obtain rfl := List.mem_singleton.mp hc
    obtain rfl := List.mem_singleton.mp hl
    rw [hscope, get?_zeroAndFive_zero]
    rfl
  obtain ⟨m', hcopied, hfinal⟩ := Run.copyBacks_ok hback
  have hcall : Run.callFunction (Run.eval Run.noPump 3) (Run.block Run.noPump 3) setsSeven
      [.element "A" sectionIndex] zeroAndFive = .ok (setsSeven.result .normal) m' := by
    have hlocal : Run.localFrame setsSeven.locals b.frame bound = .ok b.frame bound :=
      Run.localFrame_ok rfl
    rw [Run.callFunction_of_shallow (by decide), Run.applyFunction]
    exact (Run.bind_ok hbind _).trans ((Run.bind_ok hlocal _).trans
      ((Run.bind_ok hin _).trans (Run.bind_ok hcopied _)))
  obtain ⟨l, hparameter, ⟨inner, outer, hinner, houter, hsame, -⟩, inner', outer', hinner', houter',
    hseven⟩ := hclaim leads_zeroAndFive rfl rfl rfl rfl hbind hkept hbody (hrest ▸ hframes) hscope
      hcall
  rw [upper_given.2] at hparameter
  rw [hparameter] at hinner hinner'
  cases hslot.symm.trans hinner
  cases Std.HashMap.getElem?_insert_self.symm.trans hinner'
  have htarget := eq_of_get?_zeroAndFive houter hsame.symm
  have hfive : m'.scope.get? l.target = some ⟨.number 5, .integer .unsigned16⟩ := by
    rw [hfinal, Scope.get?_carryAll_of_ne, hscope, htarget, get?_zeroAndFive_one]
    intro l' hl'
    obtain rfl := List.mem_singleton.mp hl'
    rw [htarget]
    decide
  rw [htarget, get?_zeroAndFive_one] at houter'
  cases houter'
  cases hfive.symm.trans hseven

end ControlLogic
