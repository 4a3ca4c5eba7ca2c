import ControlLogic.Proofs.Machine.Access

/-!
How the parameters of a call are bound. A parameter that goes back to its caller, and each slot of
one that stands for an array or a structure, is linked to the variable of the caller it was made
from: it starts with the value of that variable, and what the binding notes to go back is one link
for each.
-/

set_option autoImplicit false
set_option relaxedAutoImplicit false

namespace ControlLogic

/-- A variable of a call, and the variable of its caller that it stands for. -/
structure Link where
  parameter : SlotKey
  target : SlotKey

namespace SlotKey

variable {key key' : SlotKey}

@[simp]
theorem owner_rebase (key : SlotKey) (name : String) :
    (key.rebase name).owner = Text.upper name := by
  cases key <;> rfl

@[simp]
theorem isPlain_rebase (key : SlotKey) (name : String) :
    (key.rebase name).isPlain = key.isPlain := by
  cases key <;> rfl

private theorem rebase_rebase (key : SlotKey) (name name' : String) :
    (key.rebase name).rebase name' = key.rebase name' := by
  cases key <;> rfl

private theorem rebase_of_owner {name : String} (h : key.owner = Text.upper name) :
    key.rebase name = key := by
  unfold rebase
  rw [← h]
  cases key <;> rfl

end SlotKey

namespace SlotKind

/-- Whether values of the second kind go through a slot of the first: both are of one width or keep
everything, or the first has room for the texts of the second. -/
def Fits : SlotKind → SlotKind → Prop
  | integer width, integer width' => width = width'
  | text room, text capacity => capacity ≤ room
  | untyped, untyped => True
  | _, _ => False

/-- A value that comes from a slot of a kind that fits: a text is cut to the capacity. -/
def received : SlotKind → Value → Value
  | text capacity, v => .text (Value.truncate capacity v.toText)
  | integer _, v | untyped, v => v

variable {kind outer : SlotKind} {v : Value}

private theorem fits_refl (kind : SlotKind) : kind.Fits kind := by
  cases kind with
  | integer width => rfl
  | text capacity => exact Nat.le_refl capacity
  | untyped => trivial

theorem coerce_of_holds (h : kind.Holds v) : kind.coerce v = v := by
  cases kind with
  | integer width =>
    cases v with
    | number n => exact congrArg Value.number h
    | text s => cases h
  | text capacity =>
    cases v with
    | number n => cases h
    | text s => exact congrArg Value.text (Value.truncate_of_length_le h)
  | untyped => rfl

theorem Fits.holds (h : kind.Fits outer) (hv : outer.Holds v) : kind.Holds v := by
  cases kind <;> cases outer <;> cases v <;> simp_all only [Fits, Holds]
  exact Nat.le_trans hv h

theorem Fits.coerce (h : kind.Fits outer) (hv : outer.Holds v) : kind.coerce v = v :=
  coerce_of_holds (h.holds hv)

theorem Fits.received (h : kind.Fits outer) (hv : kind.Holds v) :
    outer.coerce v = outer.received v := by
  cases outer with
  | integer width =>
    cases kind with
    | integer width' =>
      cases h
      exact coerce_of_holds hv
    | text _ => cases h
    | untyped => cases h
  | text capacity => rfl
  | untyped => rfl

end SlotKind

theorem Scope.Typed.get? {s : Scope} (h : s.Typed) {key : SlotKey} {slot : Slot}
    (hslot : s.get? key = some slot) : slot.Typed := by
  rw [get?_eq_findIn] at hslot
  obtain ⟨before, frame, behind, hsplit, -, hframe, -⟩ := split_of_findIn hslot
  have hmem : frame ∈ s.chain := by
    rw [hsplit]
    exact List.mem_append_right _ List.mem_cons_self
  rcases List.mem_append.mp hmem with hframes | hglobals
  · exact h.frames frame hframes key slot hframe
  · rw [List.mem_singleton.mp hglobals] at hframe
    exact h.globals key slot hframe

/-! ### What goes back -/

namespace CopyBack

def parameter : CopyBack → String
  | slot parameter _ | whole parameter _ => parameter

def links (frame : Frame) : CopyBack → List Link
  | slot parameter target => [⟨.plain parameter, target⟩]
  | whole parameter owner =>
    (frame.ownedBy parameter).map fun (key, _) => ⟨key, key.rebase owner⟩

variable {frame frame' : Frame} {c : CopyBack} {l : Link}

theorem mem_links_whole {parameter owner : String} :
    l ∈ links frame (whole parameter owner) ↔
      (frame[l.parameter]?).isSome = true ∧ l.parameter.isPlain = false ∧
        l.parameter.owner = parameter ∧ l.target = l.parameter.rebase owner := by
  unfold links
  rw [List.mem_map]
  constructor
  · rintro ⟨⟨key, slot⟩, hmem, rfl⟩
    obtain ⟨hslot, hplain, howner⟩ := Frame.mem_ownedBy.mp hmem
    exact ⟨by rw [hslot]; rfl, hplain, howner, rfl⟩
  · rintro ⟨hsome, hplain, howner, htarget⟩
    obtain ⟨slot, hslot⟩ := Option.isSome_iff_exists.mp hsome
    refine ⟨(l.parameter, slot), Frame.mem_ownedBy.mpr ⟨hslot, hplain, howner⟩, ?_⟩
    exact congrArg (Link.mk l.parameter) htarget.symm

theorem mem_links_congr
    (h : ∀ key : SlotKey, key.owner = c.parameter → (frame'[key]?).isSome = (frame[key]?).isSome) :
    l ∈ c.links frame' ↔ l ∈ c.links frame := by
  cases c with
  | slot parameter target => rfl
  | whole parameter owner =>
    rw [mem_links_whole, mem_links_whole]
    constructor
    · rintro ⟨hsome, hplain, howner, htarget⟩
      exact ⟨(h _ howner).symm.trans hsome, hplain, howner, htarget⟩
    · rintro ⟨hsome, hplain, howner, htarget⟩
      exact ⟨(h _ howner).trans hsome, hplain, howner, htarget⟩

end CopyBack

/-- A variable of a call has the value of the variable it stands for, and fits it. -/
def Link.Starts (l : Link) (frame : Frame) (m : Machine) : Prop :=
  ∃ inner outer, frame[l.parameter]? = some inner ∧ m.scope.get? l.target = some outer ∧
    inner.value = outer.value ∧ inner.kind.Fits outer.kind

def Machine.Leaves (keys : List SlotKey) (m m' : Machine) : Prop :=
  ∀ key ∈ keys, m'.scope.get? key = m.scope.get? key

private theorem Machine.leaves_refl (keys : List SlotKey) (m : Machine) : m.Leaves keys m :=
  fun _ _ => rfl

theorem Machine.Leaves.trans {keys : List SlotKey} {a b c : Machine} (h : a.Leaves keys b)
    (h' : b.Leaves keys c) : a.Leaves keys c :=
  fun key hkey => (h' key hkey).trans (h key hkey)

/-- A call whose parameters of some names have been bound: only they have slots, each link starts
with the value of the caller, and what goes back is the links. -/
structure Binding.Bound (names : List String) (links : List Link) (b : Binding) (m : Machine) :
    Prop where
  typed : Frame.Typed b.frame
  owners (key : SlotKey) (h : (b.frame[key]?).isSome = true) : key.owner ∈ names
  parameters (c : CopyBack) (h : c ∈ b.copyBacks) : c.parameter ∈ names
  backs (l : Link) : (∃ c ∈ b.copyBacks, l ∈ c.links b.frame) ↔ l ∈ links
  starts (l : Link) (h : l ∈ links) : l.Starts b.frame m

namespace Binding

variable {names : List String} {links : List Link} {b : Binding} {m m' : Machine}

theorem owner_of_extend {b' : Binding} {name : String}
    (howners : ∀ key : SlotKey, (b.frame[key]?).isSome = true → key.owner ∈ names)
    (hothers : ∀ key : SlotKey, key.owner ≠ name → b'.frame[key]? = b.frame[key]?) (key : SlotKey)
    (h : (b'.frame[key]?).isSome = true) : key.owner ∈ names ++ [name] := by
  by_cases howner : key.owner = name
  · exact List.mem_append_right _ (List.mem_singleton.mpr howner)
  · rw [hothers key howner] at h
    exact List.mem_append_left _ (howners key h)

theorem parameter_of_extend {b' : Binding} {name : String} {added : List CopyBack}
    (hparameters : ∀ c ∈ b.copyBacks, c.parameter ∈ names)
    (hbacks : b'.copyBacks = b.copyBacks ++ added) (hadded : ∀ c ∈ added, c.parameter = name)
    (c : CopyBack) (h : c ∈ b'.copyBacks) : c.parameter ∈ names ++ [name] := by
  rw [hbacks] at h
  rcases List.mem_append.mp h with hold | hnew
  · exact List.mem_append_left _ (hparameters c hold)
  · exact List.mem_append_right _ (List.mem_singleton.mpr (hadded c hnew))

theorem bound_nil (m : Machine) : Bound [] [] {} m where
  typed := Frame.typed_empty
  owners key h := by simp at h
  parameters c h := absurd h List.not_mem_nil
  backs l := by simp
  starts l h := absurd h List.not_mem_nil

theorem Bound.of_leaves (hb : b.Bound names links m) {keys : List SlotKey}
    (h : m.Leaves keys m') (hkeys : ∀ l ∈ links, l.target ∈ keys) : b.Bound names links m' where
  typed := hb.typed
  owners := hb.owners
  parameters := hb.parameters
  backs := hb.backs
  starts l hl := by
    obtain ⟨inner, outer, hinner, houter, hsame⟩ := hb.starts l hl
    exact ⟨inner, outer, hinner, (h _ (hkeys l hl)).trans houter, hsame⟩

theorem Bound.extend (hb : b.Bound names links m) {name : String} (hname : name ∉ names)
    (b' : Binding) (added : List CopyBack) (new : List Link) (htyped : Frame.Typed b'.frame)
    (hothers : ∀ key : SlotKey, key.owner ≠ name → b'.frame[key]? = b.frame[key]?)
    (hbacks : b'.copyBacks = b.copyBacks ++ added) (hadded : ∀ c ∈ added, c.parameter = name)
    (hlinks : ∀ l, (∃ c ∈ added, l ∈ c.links b'.frame) ↔ l ∈ new)
    (hstarts : ∀ l ∈ new, l.Starts b'.frame m) :
    b'.Bound (names ++ [name]) (links ++ new) m where
  typed := htyped
  owners := owner_of_extend hb.owners hothers
  parameters := parameter_of_extend hb.parameters hbacks hadded
  backs l := by
    have hold : (∃ c ∈ b.copyBacks, l ∈ c.links b'.frame) ↔ l ∈ links := by
      rw [← hb.backs l]
      refine exists_congr fun c => and_congr_right fun hc => CopyBack.mem_links_congr ?_
      intro key howner
      rw [hothers key]
      rintro rfl
      exact hname (howner ▸ hb.parameters c hc)
    rw [hbacks, List.mem_append, ← hlinks l, ← hold]
    constructor
    · rintro ⟨c, hc, hl⟩
      exact (List.mem_append.mp hc).imp (fun h => ⟨c, h, hl⟩) fun h => ⟨c, h, hl⟩
    · rintro (⟨c, hc, hl⟩ | ⟨c, hc, hl⟩)
      · exact ⟨c, List.mem_append_left _ hc, hl⟩
      · exact ⟨c, List.mem_append_right _ hc, hl⟩
  starts l h := by
    rcases List.mem_append.mp h with hold | hnew
    · obtain ⟨inner, outer, hinner, hsame⟩ := hb.starts l hold
      refine ⟨inner, outer, ?_, hsame⟩
      rw [hothers, hinner]
      rintro rfl
      exact hname (hb.owners _ (by rw [hinner]; rfl))
    · exact hstarts l hnew

end Binding

/-! ### One parameter -/

namespace Binding

variable {names : List String} {links : List Link} {b : Binding} {m : Machine} {name : String}

theorem getElem?_addSlot_of_ne (kind : SlotKind) (v : Value) {key : SlotKey}
    (h : key.owner ≠ name) : (b.addSlot name kind v).frame[key]? = b.frame[key]? := by
  have hne : ¬ (SlotKey.plain name == key) = true := by
    intro heq
    rw [← beq_iff_eq.mp heq] at h
    exact h rfl
  exact Std.HashMap.getElem?_insert.trans (if_neg hne)

theorem Bound.addSlot (hb : b.Bound names links m) (hname : name ∉ names) (kind : SlotKind)
    (v : Value) : (b.addSlot name kind v).Bound (names ++ [name]) links m := by
  have hextended := hb.extend hname _ [] [] (b.typed_addSlot hb.typed name kind v)
    (fun key h => getElem?_addSlot_of_ne kind v h) (List.append_nil _).symm
    (fun c hc => absurd hc List.not_mem_nil) (by simp) (fun l hl => absurd hl List.not_mem_nil)
  rwa [List.append_nil] at hextended

theorem Bound.addTarget (hb : b.Bound names links m) (hname : name ∉ names) {kind : SlotKind}
    {target : SlotKey} {outer : Slot} (houter : m.scope.get? target = some outer)
    (hfits : kind.Fits outer.kind) (htyped : outer.Typed) :
    ((b.addSlot name kind outer.value).addTarget name target).Bound (names ++ [name])
      (links ++ [⟨.plain name, target⟩]) m := by
  refine hb.extend hname _ [.slot name target] [⟨.plain name, target⟩]
    (b.typed_addSlot hb.typed name kind outer.value)
    (fun key h => getElem?_addSlot_of_ne kind outer.value h) rfl ?_ ?_ ?_
  · intro c hc
    obtain rfl := List.mem_singleton.mp hc
    rfl
  · intro l
    simp only [List.mem_singleton, exists_eq_left, CopyBack.links]
  · intro l hl
    obtain rfl := List.mem_singleton.mp hl
    exact ⟨_, outer, Std.HashMap.getElem?_insert_self, houter, hfits.coerce htyped, hfits⟩

section Whole

variable {owner : String} {slots : List (SlotKey × Slot)} {key : SlotKey}

theorem getElem?_addWhole_of_ne (h : ∀ entry ∈ slots, entry.1.rebase name ≠ key) :
    (b.addWhole name owner slots).frame[key]? = b.frame[key]? := by
  refine Frame.getElem?_foldl (fun entry hentry frame => ?_) b.frame
  have hne : ¬ (entry.1.rebase name == key) = true := fun heq => h entry hentry (beq_iff_eq.mp heq)
  exact Std.HashMap.getElem?_insert.trans (if_neg hne)

theorem getElem?_addWhole {slot : Slot} (hmem : (key, slot) ∈ slots)
    (hnodup : (slots.map fun entry => entry.1.rebase name).Nodup) :
    (b.addWhole name owner slots).frame[key.rebase name]? = some slot := by
  induction slots generalizing b with
  | nil => exact absurd hmem List.not_mem_nil
  | cons entry rest ih =>
    obtain ⟨hentry, hrest⟩ := List.nodup_cons.mp hnodup
    let b' : Binding := { frame := b.frame.insert (entry.1.rebase name) entry.2 }
    change (b'.addWhole name owner rest).frame[key.rebase name]? = _
    rcases List.mem_cons.mp hmem with rfl | hlater
    · rw [getElem?_addWhole_of_ne]
      · exact Std.HashMap.getElem?_insert_self
      · intro entry hlater heq
        exact hentry (List.mem_map.mpr ⟨entry, hlater, heq⟩)
    · exact ih hlater hrest

private theorem rebase_back (name : String) (h : key.owner = Text.upper owner) :
    (key.rebase name).rebase (Text.upper owner) = key := by
  rw [SlotKey.rebase_rebase]
  exact SlotKey.rebase_of_owner (h.trans (Text.upper_upper owner).symm)

theorem nodup_rebased (s : Scope) (name owner : String) :
    ((s.ownedBy owner).map fun entry => entry.1.rebase name).Nodup := by
  have hkeys : ((s.ownedBy owner).map fun entry => entry.1.rebase name) =
      ((s.ownedBy owner).map Prod.fst).map fun key => key.rebase name := by
    rw [List.map_map]
    rfl
  rw [hkeys]
  refine (s.nodup_ownedBy owner).map_on ?_
  rintro key hkey key' hkey' heq
  obtain ⟨entry, hentry, rfl⟩ := List.mem_map.mp hkey
  obtain ⟨entry', hentry', rfl⟩ := List.mem_map.mp hkey'
  obtain ⟨-, -, howner⟩ := Scope.mem_ownedBy hentry
  obtain ⟨-, -, howner'⟩ := Scope.mem_ownedBy hentry'
  rw [← rebase_back name howner, heq, rebase_back name howner']

theorem mem_links_addWhole (hupper : Text.upper name = name)
    (hfresh : ∀ key : SlotKey, key.owner = name → b.frame[key]? = none) {l : Link} :
    l ∈ (CopyBack.whole name (Text.upper owner)).links
        (b.addWhole name owner (m.scope.ownedBy owner)).frame ↔
      l ∈ (m.scope.ownedBy owner).map fun entry => ⟨entry.1.rebase name, entry.1⟩ := by
  rw [CopyBack.mem_links_whole, List.mem_map]
  constructor
  · rintro ⟨hsome, hplain, howner, htarget⟩
    -- The slot is new, so it was made from one of the caller.
    obtain ⟨entry, hentry, hparameter⟩ :
        ∃ entry ∈ m.scope.ownedBy owner, entry.1.rebase name = l.parameter := by
      by_contra hnone
      rw [getElem?_addWhole_of_ne fun entry hentry heq => hnone ⟨entry, hentry, heq⟩,
        hfresh _ howner] at hsome
      cases hsome
    refine ⟨entry, hentry, ?_⟩
    rw [← hparameter, rebase_back name (Scope.mem_ownedBy hentry).2.2] at htarget
    rw [hparameter, ← htarget]
  · rintro ⟨entry, hentry, rfl⟩
    obtain ⟨-, hplain, howner⟩ := Scope.mem_ownedBy hentry
    refine ⟨?_, ?_, ?_, ?_⟩
    · rw [getElem?_addWhole hentry (nodup_rebased m.scope name owner)]
      rfl
    · exact (SlotKey.isPlain_rebase _ _).trans hplain
    · exact (SlotKey.owner_rebase _ _).trans hupper
    · exact (rebase_back name howner).symm

end Whole

theorem Bound.addWhole (hb : b.Bound names links m) (hname : name ∉ names)
    (hupper : Text.upper name = name) (hm : m.scope.Typed) (owner : String) :
    (b.addWhole name owner (m.scope.ownedBy owner)).Bound (names ++ [name])
      (links ++ (m.scope.ownedBy owner).map fun (key, _) => ⟨key.rebase name, key⟩) m := by
  have hnodup := nodup_rebased m.scope name owner
  refine hb.extend hname _ [.whole name (Text.upper owner)] _
    (b.typed_addWhole hb.typed name owner (hm.ownedBy owner))
    (fun key h => getElem?_addWhole_of_ne ?_) rfl ?_ ?_ ?_
  · rintro entry - rfl
    exact h ((SlotKey.owner_rebase _ _).trans hupper)
  · intro c hc
    obtain rfl := List.mem_singleton.mp hc
    rfl
  · intro l
    simp only [List.mem_singleton, exists_eq_left]
    exact mem_links_addWhole hupper fun key howner => Option.eq_none_iff_forall_ne_some.mpr
      fun slot hslot => hname (howner ▸ hb.owners key (by rw [hslot]; rfl))
  · intro l hl
    obtain ⟨entry, hentry, rfl⟩ := List.mem_map.mp hl
    exact ⟨entry.2, entry.2, getElem?_addWhole hentry hnodup, (Scope.mem_ownedBy hentry).1, rfl,
      SlotKind.fits_refl _⟩

end Binding

/-! ### The arguments of a call -/

namespace Run

variable {pump : Nat → Run Unit} {n : Nat} {keys : List SlotKey}

/-- An expression names a variable when its value is taken, and names the same one again when it is
asked which variable that was. -/
structure Names (pump : Nat → Run Unit) (n : Nat) (keys : List SlotKey) (e : Expr) (m : Machine)
    (key : SlotKey) (m' : Machine) : Prop where
  place : e.isPlace = true
  twice : ∃ ticked valued, tick m = .ok () ticked ∧
    resolveKey (eval pump n) e ticked = .ok key valued ∧ m.Leaves keys valued ∧
      resolveKey (eval pump (n + 1)) e valued = .ok key m' ∧ valued.Leaves keys m'

/--
The parameters of a call and its arguments, the links between the variables of both, and the
machine when all arguments have been evaluated. A parameter that goes back is given a variable of a
kind that fits, one that stands for an array or a structure is given a name, and others are given a
value or nothing. No argument changes what some keys mean.
-/
inductive Passes (pump : Nat → Run Unit) (n : Nat) (keys : List SlotKey) :
    List Parameter → List Expr → Machine → List Link → Machine → Prop
  | done (args : List Expr) (m : Machine) : Passes pump n keys [] args m [] m
  | whole {p : Parameter} {ps : List Parameter} {owner : String} {args : List Expr}
    {m m' : Machine} {links : List Link} (hwhole : p.isWhole = true)
    (h : Passes pump n keys ps args m links m') :
    Passes pump n keys (p :: ps) (.name owner :: args) m
      ((m.scope.ownedBy owner).map (fun (key, _) => ⟨key.rebase (Text.upper p.name), key⟩) ++
        links) m'
  | absent {p : Parameter} {ps : List Parameter} {m m' : Machine} {links : List Link}
    (hsingle : p.isWhole = false) (h : Passes pump n keys ps [] m links m') :
    Passes pump n keys (p :: ps) [] m links m'
  | value {p : Parameter} {ps : List Parameter} {e : Expr} {args : List Expr} {v : Value}
    {m valued m' : Machine} {links : List Link} (hsingle : p.isWhole = false)
    (hvalue : (p.byRef && e.isPlace) = false) (heval : eval pump (n + 1) e m = .ok v valued)
    (hleaves : m.Leaves keys valued) (h : Passes pump n keys ps args valued links m') :
    Passes pump n keys (p :: ps) (e :: args) m links m'
  | reference {p : Parameter} {ps : List Parameter} {e : Expr} {args : List Expr} {key : SlotKey}
    {outer : Slot} {m named m' : Machine} {links : List Link} (hsingle : p.isWhole = false)
    (href : p.byRef = true) (hnames : Names pump n keys e m key named)
    (houter : m.scope.get? key = some outer)
    (hfits : (SlotKind.ofType p.type maxCapacity).Fits outer.kind)
    (h : Passes pump n keys ps args named links m') :
    Passes pump n keys (p :: ps) (e :: args) m (⟨.plain (Text.upper p.name), key⟩ :: links) m'

theorem Relates.typed {α : Type} {x : Run α} (hx : Relates Machine.Leads x) {m m' : Machine} {a : α}
    (h : x m = .ok a m') (hm : m.Typed) : m'.Typed := by
  have hleads := hx m []
  rw [Machine.after_ok h] at hleads
  exact (hleads.typed ⟨hm, fun _ h => absurd h List.not_mem_nil⟩).machine

theorem Names.leaves {e : Expr} {m m' : Machine} {key : SlotKey}
    (h : Names pump n keys e m key m') : m.Leaves keys m' := by
  obtain ⟨_, _, _, _, hfirst, _, hlater⟩ := h.twice
  exact hfirst.trans hlater

theorem eval_place {e : Expr} (h : e.isPlace = true) {m ticked : Machine}
    (htick : tick m = .ok () ticked) :
    eval pump (n + 1) e m = (resolveKey (eval pump n) e >>= readKey) ticked := by
  rw [eval, bind_ok htick]
  cases e <;> first | rfl | cases h

theorem Names.value {e : Expr} {m m' : Machine} {key : SlotKey}
    (h : Names pump n keys e m key m') (hkey : key ∈ keys) {outer : Slot}
    (houter : m.scope.get? key = some outer) :
    ∃ valued, eval pump (n + 1) e m = .ok outer.value valued ∧
      resolveKey (eval pump (n + 1)) e valued = .ok key m' := by
  obtain ⟨ticked, valued, htick, hfirst, hleaves, hsecond, -⟩ := h.twice
  refine ⟨valued, ?_, hsecond⟩
  rw [eval_place h.place htick, bind_ok hfirst]
  exact readKey_of_some (Machine.read?_of_get? ((hleaves key hkey).trans houter))

section Parameter

variable {eval : Expr → Run Value} {function : String} {p : Parameter} {b : Binding}
  {m valued named : Machine} {e : Expr} {v : Value}

theorem bindParameter_whole (h : p.isWhole = true) {owner : String} :
    bindParameter eval function p (some (.name owner)) b m =
      .ok (b.addWhole (Text.upper p.name) owner (m.scope.ownedBy owner)) m := by
  unfold bindParameter
  dsimp only
  rw [if_pos h]
  rfl

theorem bindParameter_absent (h : p.isWhole = false) :
    bindParameter eval function p none b m =
      .ok (b.addSlot (Text.upper p.name) (.ofType p.type maxCapacity)
        (SlotKind.ofType p.type maxCapacity).initial) m := by
  unfold bindParameter
  dsimp only
  rw [if_neg (by rw [h]; exact Bool.false_ne_true)]
  rfl

theorem bindParameter_value (h : p.isWhole = false) (hvalue : (p.byRef && e.isPlace) = false)
    (hv : eval e m = .ok v valued) :
    bindParameter eval function p (some e) b m =
      .ok (b.addSlot (Text.upper p.name) (.ofType p.type maxCapacity) v) valued := by
  unfold bindParameter
  dsimp only
  rw [if_neg (by rw [h]; exact Bool.false_ne_true), bind_ok hv, hvalue]
  rfl

theorem bindParameter_reference (h : p.isWhole = false) (href : (p.byRef && e.isPlace) = true)
    (hv : eval e m = .ok v valued) {key : SlotKey}
    (hkey : resolveKey eval e valued = .ok key named) :
    bindParameter eval function p (some e) b m =
      .ok ((b.addSlot (Text.upper p.name) (.ofType p.type maxCapacity) v).addTarget
        (Text.upper p.name) key) named := by
  unfold bindParameter
  dsimp only
  rw [if_neg (by rw [h]; exact Bool.false_ne_true), bind_ok hv, href]
  exact bind_ok hkey _

end Parameter

namespace Passes

theorem split_names {names : List String} {p : Parameter} {ps : List Parameter}
    (h : (names ++ (p :: ps).map fun p => Text.upper p.name).Nodup) :
    Text.upper p.name ∉ names ∧
      (names ++ [Text.upper p.name] ++ ps.map fun p => Text.upper p.name).Nodup := by
  constructor
  · intro hmem
    exact List.disjoint_of_nodup_append h hmem List.mem_cons_self
  · rwa [List.append_assoc]

variable {ps : List Parameter} {args : List Expr} {m m' : Machine} {links : List Link}

theorem leaves (h : Passes pump n keys ps args m links m') : m.Leaves keys m' := by
  induction h with
  | done args m => exact m.leaves_refl keys
  | whole _ _ ih => exact ih
  | absent _ _ ih => exact ih
  | value _ _ _ hleaves _ ih => exact hleaves.trans ih
  | reference _ _ hnames _ _ _ ih => exact hnames.leaves.trans ih

variable (hpump : ∀ deadline, Relates Machine.Leads (pump deadline))
include hpump

theorem bindParameters (h : Passes pump n keys ps args m links m') (function : String)
    (hm : m.Typed) {names : List String} {earlier : List Link} {b : Binding}
    (hb : b.Bound names earlier m) (hnames : (names ++ ps.map fun p => Text.upper p.name).Nodup)
    (hearlier : ∀ l ∈ earlier, l.target ∈ keys) (hlinks : ∀ l ∈ links, l.target ∈ keys) :
    ∃ b', Run.bindParameters (eval pump (n + 1)) function ps args b m = .ok b' m' ∧
      b'.Bound (names ++ ps.map fun p => Text.upper p.name) (earlier ++ links) m' ∧ m'.Typed := by
  have heval := fun e => ((leads_respected hpump).eval_exec (n + 1)).1 e
  induction h generalizing names earlier b with
  | done args m =>
    rw [List.map_nil, List.append_nil, List.append_nil]
    exact ⟨b, rfl, hb, hm⟩
  | @whole p ps owner args m m' links hwhole _ ih =>
    obtain ⟨hnew, hlater⟩ := split_names hnames
    obtain ⟨hown, hrest⟩ := List.forall_mem_append.mp hlinks
    have hbound := hb.addWhole hnew (Text.upper_upper _) hm.scope owner
    obtain ⟨b', hlast, hdone⟩ :=
      ih hm hbound hlater (List.forall_mem_append.mpr ⟨hearlier, hown⟩) hrest
    rw [List.append_assoc, List.append_assoc] at hdone
    refine ⟨b', ?_, hdone⟩
    rw [Run.bindParameters, List.head?_cons, bind_ok (bindParameter_whole hwhole)]
    exact hlast
  | @absent p ps m m' links hsingle _ ih =>
    obtain ⟨hnew, hlater⟩ := split_names hnames
    obtain ⟨b', hlast, hdone⟩ := ih hm (hb.addSlot hnew _ _) hlater hearlier hlinks
    rw [List.append_assoc] at hdone
    refine ⟨b', ?_, hdone⟩
    rw [Run.bindParameters, List.head?_nil, bind_ok (bindParameter_absent hsingle)]
    exact hlast
  | @value p ps e args v m valued m' links hsingle hvalue hv hleaves _ ih =>
    obtain ⟨hnew, hlater⟩ := split_names hnames
    have hbound := hb.addSlot hnew (SlotKind.ofType p.type maxCapacity) v
    obtain ⟨b', hlast, hdone⟩ :=
      ih ((heval e).typed hv hm) (hbound.of_leaves hleaves hearlier) hlater hearlier hlinks
    rw [List.append_assoc] at hdone
    refine ⟨b', ?_, hdone⟩
    rw [Run.bindParameters, List.head?_cons, bind_ok (bindParameter_value hsingle hvalue hv)]
    exact hlast
  | @reference p ps e args key outer m named m' links hsingle href hreference houter hfits _ ih =>
    obtain ⟨hnew, hlater⟩ := split_names hnames
    obtain ⟨hkey, hrest⟩ := List.forall_mem_cons.mp hlinks
    obtain ⟨valued, hv, htarget⟩ := hreference.value hkey houter
    have hbound := hb.addTarget hnew houter hfits (hm.scope.get? houter)
    have hkeys : ∀ l ∈ earlier ++ [⟨.plain (Text.upper p.name), key⟩], l.target ∈ keys :=
      List.forall_mem_append.mpr ⟨hearlier, List.forall_mem_singleton.mpr hkey⟩
    have hresolve : Relates Machine.Leads (resolveKey (eval pump (n + 1)) e) :=
      (leads_closed.congruence.resolveKey (fun e => ⟨rfl, heval e⟩) e).2
    obtain ⟨b', hlast, hdone⟩ := ih (hresolve.typed htarget ((heval e).typed hv hm))
      (hbound.of_leaves hreference.leaves hkeys) hlater hkeys hrest
    rw [List.append_assoc, List.append_assoc] at hdone
    refine ⟨b', ?_, hdone⟩
    have hplace : (p.byRef && e.isPlace) = true := by rw [href, hreference.place]; rfl
    rw [Run.bindParameters, List.head?_cons,
      bind_ok (bindParameter_reference hsingle hplace hv htarget)]
    exact hlast

end Passes

end Run

end ControlLogic
