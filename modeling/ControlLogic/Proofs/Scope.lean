import Mathlib.Data.List.Induction
import ControlLogic.Proofs.Machine.Balance

/-!
Where a name is found. A key means the slot of the first frame that has it, the global frame coming
last, and replacing a slot touches that frame only.
-/

set_option autoImplicit false
set_option relaxedAutoImplicit false

namespace ControlLogic

namespace Frame

theorem mem_ownedBy {frame : Frame} {name : String} {key : SlotKey} {slot : Slot} :
    (key, slot) ∈ frame.ownedBy name ↔
      frame[key]? = some slot ∧ key.isPlain = false ∧ key.owner = name := by
  unfold ownedBy
  rw [List.mem_mergeSort, List.mem_filter, Std.HashMap.mem_toList_iff_getElem?_eq_some]
  simp only [Bool.and_eq_true, Bool.not_eq_true', beq_iff_eq]

theorem nodup_ownedBy (frame : Frame) (name : String) :
    ((frame.ownedBy name).map Prod.fst).Nodup := by
  have hfilter : ((frame.toList.filter fun entry => !entry.1.isPlain && entry.1.owner == name).map
      Prod.fst).Nodup := by
    rw [List.Nodup, List.pairwise_map]
    refine List.Pairwise.filter _ (Std.HashMap.distinct_keys_toList.imp ?_)
    intro a b hne heq
    rw [heq, beq_self_eq_true] at hne
    cases hne
  exact ((List.mergeSort_perm _ _).map Prod.fst).nodup_iff.mpr hfilter

theorem SameShape.isSome_getElem? {f g : Frame} (h : SameShape f g) (key : SlotKey) :
    (g[key]?).isSome = (f[key]?).isSome := by
  have hkind := congrArg Option.isSome (h key)
  unfold kind? at hkind
  rwa [Option.isSome_map, Option.isSome_map] at hkind

theorem SameShape.any {f g : Frame} (h : SameShape f g) (p : SlotKey → Bool) :
    (g.any fun key _ => p key) = f.any fun key _ => p key := by
  have hmem : ∀ key, key ∈ g ↔ key ∈ f := by
    intro key
    rw [Std.HashMap.mem_iff_isSome_getElem?, Std.HashMap.mem_iff_isSome_getElem?,
      h.isSome_getElem? key]
  rw [Bool.eq_iff_iff, Std.HashMap.any_eq_true_iff_exists_mem_getElem,
    Std.HashMap.any_eq_true_iff_exists_mem_getElem]
  simp only [hmem, exists_prop]

private theorem getElem?_declare (frame : Frame) (key key' : SlotKey) (kind : SlotKind) :
    (declare frame key kind)[key']? = if key = key' then some (.fresh kind) else frame[key']? := by
  unfold declare
  rw [Std.HashMap.getElem?_insert]
  simp only [beq_iff_eq]

theorem getElem?_foldl {α : Type} {f : Frame → α → Frame} {key : SlotKey} {as : List α}
    (h : ∀ a ∈ as, ∀ frame : Frame, (f frame a)[key]? = frame[key]?) (frame : Frame) :
    (as.foldl f frame)[key]? = frame[key]? := by
  induction as generalizing frame with
  | nil => rfl
  | cons a as ih =>
    obtain ⟨ha, has⟩ := List.forall_mem_cons.mp h
    rw [List.foldl_cons, ih has, ha]

theorem getElem?_declareUpTo_of_ne {n : Nat} {key : Int → SlotKey} {key' : SlotKey}
    (h : ∀ i ≤ n, key (Int.ofNat i) ≠ key') (frame : Frame) (kind : SlotKind) :
    (declareUpTo frame n key kind)[key']? = frame[key']? := by
  refine getElem?_foldl (fun i hi frame => ?_) frame
  rw [getElem?_declare, if_neg (h i (Nat.lt_succ_iff.mp (List.mem_range.mp hi)))]

theorem getElem?_declareUpTo {n i : Nat} (hi : i ≤ n) (frame : Frame) (key : Int → SlotKey)
    (kind : SlotKind) :
    (declareUpTo frame n key kind)[key (Int.ofNat i)]? = some (.fresh kind) := by
  have hrange : ∀ as : List Nat, i ∈ as → ∀ frame : Frame,
      (as.foldl (fun f i => declare f (key (Int.ofNat i)) kind) frame)[key (Int.ofNat i)]? =
        some (.fresh kind) := by
    intro as hmem
    induction as using List.reverseRecOn with
    | nil => exact absurd hmem List.not_mem_nil
    | append_singleton as j ih =>
      intro frame
      rw [List.foldl_append, List.foldl_cons, List.foldl_nil, getElem?_declare]
      split
      next => rfl
      next hne =>
        rcases List.mem_append.mp hmem with has | hj
        · exact ih has frame
        · rw [List.mem_singleton.mp hj] at hne
          exact absurd rfl hne
  exact hrange _ (List.mem_range.mpr (Nat.lt_succ_of_le hi)) frame

private theorem getElem?_declareVariable {structures : List StructureDef} {frame frame' : Frame}
    {d : VariableDecl} (h : declareVariable structures frame d = .ok frame') {key : SlotKey}
    (howner : key.owner ≠ Text.upper d.name) : frame'[key]? = frame[key]? := by
  have hne : ∀ key' : SlotKey, key'.owner = Text.upper d.name → key' ≠ key := by
    rintro key' howner' rfl
    exact howner howner'
  have hone : ∀ (frame : Frame) (key' : SlotKey) (kind : SlotKind),
      key'.owner = Text.upper d.name → (declare frame key' kind)[key]? = frame[key]? := by
    intro frame key' kind howner'
    rw [getElem?_declare, if_neg (hne key' howner')]
  have hmany : ∀ (n : Nat) (key' : Int → SlotKey) (kind : SlotKind) (frame : Frame),
      (∀ i, (key' i).owner = Text.upper d.name) →
        (declareUpTo frame n key' kind)[key]? = frame[key]? := by
    intro n key' kind frame howner'
    exact getElem?_declareUpTo_of_ne (fun i _ => hne _ (howner' _)) frame kind
  unfold declareVariable at h
  dsimp only at h
  split at h
  · split at h
    · cases h
    next definition _ =>
      cases h
      refine getElem?_foldl (fun field _ frame => ?_) frame
      unfold declareField
      dsimp only
      split
      · exact hone _ _ _ rfl
      · exact hmany _ _ _ _ fun _ => rfl
      · exact hmany _ _ _ _ fun _ => rfl
  · split at h
    · cases h
      exact hone _ _ _ rfl
    · cases h
      exact hmany _ _ _ _ fun _ => rfl
    · cases h
      exact getElem?_foldl (fun i _ frame => hmany _ _ _ _ fun _ => rfl) frame

theorem getElem?_declareLocals {structures : List StructureDef} {locals : List VariableDecl}
    {frame frame' : Frame} (h : declareLocals structures locals frame = .ok frame')
    {key : SlotKey} (howner : ∀ d ∈ locals, key.owner ≠ Text.upper d.name) :
    frame'[key]? = frame[key]? := by
  induction locals generalizing frame with
  | nil =>
    cases h
    rfl
  | cons d rest ih =>
    obtain ⟨hd, hrest⟩ := List.forall_mem_cons.mp howner
    unfold declareLocals at h
    split at h
    next declared hdeclared =>
      rw [ih h hrest, getElem?_declareVariable hdeclared hd]
    next => cases h

end Frame

namespace Scope

def chain (s : Scope) : List Frame :=
  s.frames ++ [s.globals]

variable {key key' : SlotKey} {slot old : Slot}

theorem findIn_cons (frame : Frame) (rest : List Frame) :
    findIn key (frame :: rest) = (frame[key]?).or (findIn key rest) := by
  rw [findIn, Std.HashMap.get?_eq_getElem?]
  cases frame[key]? <;> rfl

private theorem findIn_append (frames frames' : List Frame) :
    findIn key (frames ++ frames') = (findIn key frames).or (findIn key frames') := by
  induction frames with
  | nil => rfl
  | cons frame rest ih =>
    rw [List.cons_append, findIn_cons, findIn_cons, ih]
    cases frame[key]? <;> rfl

theorem get?_eq_findIn (s : Scope) : s.get? key = findIn key s.chain := by
  rw [chain, findIn_append, findIn_cons, findIn, Option.or_none]
  rfl

theorem get?_empty (key : SlotKey) : ({} : Scope).get? key = none := by
  simp [get?, findIn]

theorem get?_push (s : Scope) (frame : Frame) (key : SlotKey) :
    (s.push frame).get? key = (frame[key]?).or (s.get? key) := by
  rw [get?_eq_findIn, get?_eq_findIn]
  exact findIn_cons frame s.chain

private theorem findIn_eq_none {frames : List Frame} :
    findIn key frames = none ↔ ∀ frame ∈ frames, frame[key]? = none := by
  induction frames with
  | nil => simp [findIn]
  | cons frame rest ih => rw [findIn_cons, Option.or_eq_none_iff, ih, List.forall_mem_cons]

theorem split_of_findIn {frames : List Frame} (h : findIn key frames = some old) :
    ∃ before frame behind, frames = before ++ frame :: behind ∧
      (∀ f ∈ before, f[key]? = none) ∧ frame[key]? = some old ∧
        ∀ slot, setIn key slot frames = before ++ frame.insert key slot :: behind := by
  induction frames with
  | nil => cases h
  | cons frame rest ih =>
    rw [findIn_cons] at h
    cases hframe : frame[key]? with
    | some found =>
      rw [hframe] at h
      cases h
      refine ⟨[], frame, rest, rfl, fun f hf => absurd hf List.not_mem_nil, hframe, fun slot => ?_⟩
      rw [setIn, Std.HashMap.contains_eq_isSome_getElem?, hframe]
      rfl
    | none =>
      rw [hframe, Option.none_or] at h
      obtain ⟨before, inner, behind, hsplit, hbefore, hinner, hset⟩ := ih h
      refine ⟨frame :: before, inner, behind, ?_, ?_, hinner, fun slot => ?_⟩
      · rw [hsplit, List.cons_append]
      · exact List.forall_mem_cons.mpr ⟨hframe, hbefore⟩
      · rw [setIn, Std.HashMap.contains_eq_isSome_getElem?, hframe, if_neg (by simp), hset]
        rfl

private theorem length_setIn (frames : List Frame) :
    (setIn key slot frames).length = frames.length := by
  induction frames with
  | nil => rfl
  | cons frame rest ih =>
    unfold setIn
    split
    · rfl
    · exact congrArg (· + 1) ih

theorem length_set (s : Scope) : (s.set key slot).frames.length = s.frames.length := by
  unfold set
  split
  · exact length_setIn _
  · split <;> rfl

private theorem setIn_append (frames frames' : List Frame) :
    setIn key slot (frames ++ frames') =
      if (findIn key frames).isSome then setIn key slot frames ++ frames'
      else frames ++ setIn key slot frames' := by
  induction frames with
  | nil => rfl
  | cons frame rest ih =>
    rw [List.cons_append, setIn, setIn, findIn_cons, Std.HashMap.contains_eq_isSome_getElem?]
    cases frame[key]? with
    | some found => rfl
    | none =>
      rw [ih, Option.none_or]
      cases findIn key rest <;> rfl

theorem chain_set (s : Scope) : (s.set key slot).chain = setIn key slot s.chain := by
  unfold set chain
  rw [← isSome_findIn, setIn_append]
  split
  · rfl
  · split
    next h =>
      rw [setIn, if_pos h]
    next h =>
      rw [setIn, if_neg h]
      rfl

private theorem findIn_setIn_self {frames : List Frame} (h : (findIn key frames).isSome = true) :
    findIn key (setIn key slot frames) = some slot := by
  obtain ⟨old, hold⟩ := Option.isSome_iff_exists.mp h
  obtain ⟨before, frame, behind, -, hbefore, -, hset⟩ := split_of_findIn hold
  rw [hset, findIn_append, findIn_eq_none.mpr hbefore, Option.none_or, findIn_cons,
    Std.HashMap.getElem?_insert_self, Option.some_or]

private theorem findIn_setIn_of_ne (hne : key' ≠ key) (frames : List Frame) :
    findIn key' (setIn key slot frames) = findIn key' frames := by
  induction frames with
  | nil => rfl
  | cons frame rest ih =>
    unfold setIn
    split
    · have hkey : ¬ (key == key') = true := fun heq => hne (beq_iff_eq.mp heq).symm
      rw [findIn_cons, findIn_cons, Std.HashMap.getElem?_insert, if_neg hkey]
    · rw [findIn_cons, findIn_cons, ih]

theorem get?_set_self {s : Scope} (h : (s.get? key).isSome = true) :
    (s.set key slot).get? key = some slot := by
  rw [get?_eq_findIn] at h
  rw [get?_eq_findIn, chain_set, findIn_setIn_self h]

theorem get?_set_of_ne (hne : key' ≠ key) (s : Scope) :
    (s.set key slot).get? key' = s.get? key' := by
  rw [get?_eq_findIn, chain_set, findIn_setIn_of_ne hne, get?_eq_findIn]

theorem SameShape.chain {s t : Scope} (h : s.SameShape t) :
    List.Forall₂ Frame.SameShape s.chain t.chain :=
  List.rel_append h.frames (.cons h.globals .nil)

theorem SameShape.isSome_get? {s t : Scope} (h : s.SameShape t) (key : SlotKey) :
    (t.get? key).isSome = (s.get? key).isSome := by
  rw [get?_eq_findIn, get?_eq_findIn]
  have hchain := h.chain
  generalize s.chain = frames at hchain ⊢
  generalize t.chain = frames' at hchain ⊢
  induction hchain with
  | nil => rfl
  | cons hframe _ ih =>
    rw [findIn_cons, findIn_cons, Option.isSome_or, Option.isSome_or,
      hframe.isSome_getElem? key, ih]

theorem SameShape.kind_get? {s t : Scope} (h : s.SameShape t) (key : SlotKey) :
    (t.get? key).map Slot.kind = (s.get? key).map Slot.kind := by
  rw [get?_eq_findIn, get?_eq_findIn]
  have hchain := h.chain
  generalize s.chain = frames at hchain ⊢
  generalize t.chain = frames' at hchain ⊢
  induction hchain with
  | nil => rfl
  | cons hframe _ ih =>
    have hkind := hframe key
    unfold Frame.kind? at hkind
    rw [findIn_cons, findIn_cons, Option.map_or, Option.map_or, hkind, ih]

theorem SameShape.owns {s t : Scope} (h : s.SameShape t) (name : String) :
    t.owns name = s.owns name := by
  change (t.chain.any _) = (s.chain.any _)
  have hchain := h.chain
  generalize s.chain = frames at hchain ⊢
  generalize t.chain = frames' at hchain ⊢
  induction hchain with
  | nil => rfl
  | cons hframe _ ih => rw [List.any_cons, List.any_cons, hframe.any _, ih]

theorem mem_ownedBy {s : Scope} {name : String} (h : (key, slot) ∈ s.ownedBy name) :
    s.get? key = some slot ∧ key.isPlain = false ∧ key.owner = Text.upper name := by
  unfold ownedBy at h
  dsimp only at h
  change _ ∈ ((s.chain.findSome? _).getD []) at h
  generalize hfound : s.chain.findSome? _ = found at h
  cases found with
  | none => exact absurd h List.not_mem_nil
  | some owned =>
    obtain ⟨before, frame, behind, hsplit, howned, hbefore⟩ := List.findSome?_eq_some_iff.mp hfound
    split at howned
    · cases howned
    next hne =>
      cases howned
      obtain ⟨hslot, hplain, howner⟩ := Frame.mem_ownedBy.mp h
      have hnone : findIn key before = none := by
        rw [findIn_eq_none]
        intro f hf
        have hempty : f.ownedBy (Text.upper name) = [] := by
          have := hbefore f hf
          split at this
          next hnil => exact hnil
          next => cases this
        cases hget : f[key]? with
        | none => rfl
        | some slot' =>
          have hmem := Frame.mem_ownedBy.mpr ⟨hget, hplain, howner⟩
          rw [hempty] at hmem
          exact absurd hmem List.not_mem_nil
      refine ⟨?_, hplain, howner⟩
      rw [get?_eq_findIn, hsplit, findIn_append, hnone, Option.none_or, findIn_cons, hslot]
      rfl

theorem nodup_ownedBy (s : Scope) (name : String) :
    ((s.ownedBy name).map Prod.fst).Nodup := by
  unfold ownedBy
  dsimp only
  generalize hfound : (s.frames ++ [s.globals]).findSome? _ = found
  cases found with
  | none => exact List.nodup_nil
  | some owned =>
    obtain ⟨frame, -, howned⟩ := List.exists_of_findSome?_eq_some hfound
    split at howned
    · cases howned
    · cases howned
      exact frame.nodup_ownedBy _

end Scope

end ControlLogic
