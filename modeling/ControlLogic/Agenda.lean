/-!
Agendas: appointments of a time and a number, of which the first can be looked at and taken. It is
a heap that leans to the left, so the path that a new entry goes down is short. An entry can stand
on an agenda more than once.
-/

set_option autoImplicit false
set_option relaxedAutoImplicit false

namespace ControlLogic

/-- A time and the number of what is due then. -/
structure Appointment where
  due : Nat
  id : Nat
  deriving DecidableEq, Repr, Inhabited

namespace Appointment

/-- Appointments are in the order of their times, and those of one time in that of their numbers. -/
instance : LE Appointment :=
  ⟨fun a b => a.due < b.due ∨ (a.due = b.due ∧ a.id ≤ b.id)⟩

theorem le_def (a b : Appointment) : a ≤ b ↔ a.due < b.due ∨ (a.due = b.due ∧ a.id ≤ b.id) :=
  Iff.rfl

instance (a b : Appointment) : Decidable (a ≤ b) :=
  decidable_of_iff _ (le_def a b).symm

theorem le_trans {a b c : Appointment} (hab : a ≤ b) (hbc : b ≤ c) : a ≤ c := by
  rw [le_def] at hab hbc ⊢
  omega

theorem le_of_not_le {a b : Appointment} (h : ¬a ≤ b) : b ≤ a := by
  rw [le_def] at h ⊢
  omega

theorem le_antisymm {a b : Appointment} (hab : a ≤ b) (hba : b ≤ a) : a = b := by
  obtain ⟨_, _⟩ := a
  obtain ⟨_, _⟩ := b
  simp only [le_def] at hab hba
  simp only [Appointment.mk.injEq]
  omega

theorem due_le_due {a b : Appointment} (h : a ≤ b) : a.due ≤ b.due := by
  rw [le_def] at h
  omega

end Appointment

/-- Trees of entries. `rank` is the length of the path that goes down on the right. -/
inductive Heap where
  | empty
  | node (rank : Nat) (entry : Appointment) (left right : Heap)
  deriving Repr, Inhabited

namespace Heap

def rank : Heap → Nat
  | empty => 0
  | node rank _ _ _ => rank

/-- A tree of an entry and two others, of which the one of lower rank stands on the right. -/
def join (entry : Appointment) (a b : Heap) : Heap :=
  if b.rank ≤ a.rank then node (b.rank + 1) entry a b else node (a.rank + 1) entry b a

/-- Merges the tree of an entry and two others, of which `onRight` merges into the right one. -/
def mergeNode (rank : Nat) (entry : Appointment) (left right : Heap) (onRight : Heap → Heap) :
    Heap → Heap
  | empty => node rank entry left right
  | node rank' entry' left' right' =>
    if entry ≤ entry' then join entry left (onRight (node rank' entry' left' right'))
    else join entry' left' (mergeNode rank entry left right onRight right')

def merge : Heap → Heap → Heap
  | empty => fun b => b
  | node rank entry left right => mergeNode rank entry left right (merge right)

def Mem (e : Appointment) : Heap → Prop
  | empty => False
  | node _ entry left right => e = entry ∨ Mem e left ∨ Mem e right

instance : Membership Appointment Heap :=
  ⟨fun a e => Mem e a⟩

@[simp] theorem not_mem_empty (e : Appointment) : ¬e ∈ empty := fun h => h

@[simp] theorem mem_node {e entry : Appointment} {rank : Nat} {left right : Heap} :
    e ∈ node rank entry left right ↔ e = entry ∨ e ∈ left ∨ e ∈ right :=
  Iff.rfl

def Ordered : Heap → Prop
  | empty => True
  | node _ entry left right =>
    (∀ e ∈ left, entry ≤ e) ∧ (∀ e ∈ right, entry ≤ e) ∧ Ordered left ∧ Ordered right

def size : Heap → Nat
  | empty => 0
  | node _ _ left right => left.size + right.size + 1

@[simp] theorem mem_join {e entry : Appointment} {a b : Heap} :
    e ∈ join entry a b ↔ e = entry ∨ e ∈ a ∨ e ∈ b := by
  unfold join
  split
  · rfl
  · rw [mem_node, or_comm (a := e ∈ b)]

theorem Ordered.join {entry : Appointment} {a b : Heap} (ha : a.Ordered) (hb : b.Ordered)
    (hea : ∀ e ∈ a, entry ≤ e) (heb : ∀ e ∈ b, entry ≤ e) : (join entry a b).Ordered := by
  unfold Heap.join
  split
  · exact ⟨hea, heb, ha, hb⟩
  · exact ⟨heb, hea, hb, ha⟩

@[simp] theorem size_join (entry : Appointment) (a b : Heap) :
    (join entry a b).size = a.size + b.size + 1 := by
  unfold join
  split
  · simp only [size]
  · simp only [size]
    omega

@[simp] theorem merge_empty_left (b : Heap) : merge empty b = b := rfl

@[simp] theorem merge_empty_right (a : Heap) : merge a empty = a := by
  cases a <;> rfl

theorem merge_node_node (n n' : Nat) (x y : Appointment) (l r l' r' : Heap) :
    merge (node n x l r) (node n' y l' r') =
      if x ≤ y then join x l (merge r (node n' y l' r'))
      else join y l' (merge (node n x l r) r') := rfl

/-- Induction along a merge: either tree is empty, or the tree whose first entry comes later is
merged into the right part of the other. -/
theorem merge_induction {motive : Heap → Heap → Prop} (left_empty : ∀ b, motive empty b)
    (right_empty : ∀ a, motive a empty)
    (first : ∀ n x l r n' y l' r', x ≤ y → motive r (node n' y l' r') →
      motive (node n x l r) (node n' y l' r'))
    (second : ∀ n x l r n' y l' r', ¬x ≤ y → motive (node n x l r) r' →
      motive (node n x l r) (node n' y l' r')) (a b : Heap) : motive a b := by
  induction a generalizing b with
  | empty => exact left_empty b
  | node n x l r _ ihr =>
    induction b with
    | empty => exact right_empty _
    | node n' y l' r' _ ihr' =>
      by_cases h : x ≤ y
      · exact first n x l r n' y l' r' h (ihr _)
      · exact second n x l r n' y l' r' h ihr'

@[simp] theorem mem_merge {e : Appointment} {a b : Heap} : e ∈ merge a b ↔ e ∈ a ∨ e ∈ b := by
  induction a, b using merge_induction with
  | left_empty b => simp
  | right_empty a => simp
  | first n x l r n' y l' r' h ih =>
    rw [merge_node_node, if_pos h, mem_join, ih]
    simp only [mem_node, or_assoc]
  | second n x l r n' y l' r' h ih =>
    rw [merge_node_node, if_neg h, mem_join, ih]
    simp only [mem_node, or_left_comm, or_assoc]

@[simp] theorem size_merge (a b : Heap) : (merge a b).size = a.size + b.size := by
  induction a, b using merge_induction with
  | left_empty b => simp [size]
  | right_empty a => simp [size]
  | first n x l r n' y l' r' h ih =>
    rw [merge_node_node, if_pos h, size_join, ih]
    simp only [size]
    omega
  | second n x l r n' y l' r' h ih =>
    rw [merge_node_node, if_neg h, size_join, ih]
    simp only [size]
    omega

theorem Ordered.merge {a b : Heap} (ha : a.Ordered) (hb : b.Ordered) : (merge a b).Ordered := by
  induction a, b using merge_induction with
  | left_empty b => exact hb
  | right_empty a => rwa [merge_empty_right]
  | first n x l r n' y l' r' h ih =>
    rw [merge_node_node, if_pos h]
    obtain ⟨hxl, hxr, hl, hr⟩ := ha
    refine Ordered.join hl (ih hr hb) hxl fun e he => ?_
    rcases mem_merge.mp he with he | rfl | he | he
    · exact hxr e he
    · exact h
    · exact Appointment.le_trans h (hb.1 e he)
    · exact Appointment.le_trans h (hb.2.1 e he)
  | second n x l r n' y l' r' h ih =>
    rw [merge_node_node, if_neg h]
    have hyx := Appointment.le_of_not_le h
    obtain ⟨hyl, hyr, hl, hr⟩ := hb
    refine Ordered.join hl (ih ha hr) hyl fun e he => ?_
    rcases mem_merge.mp he with (rfl | he | he) | he
    · exact hyx
    · exact Appointment.le_trans hyx (ha.1 e he)
    · exact Appointment.le_trans hyx (ha.2.1 e he)
    · exact hyr e he

end Heap

/-- Entries in a tree that is in order. -/
structure Agenda where
  heap : Heap := .empty
  ordered : heap.Ordered := by trivial

namespace Agenda

instance : Inhabited Agenda := ⟨{}⟩

instance : Membership Appointment Agenda :=
  ⟨fun a e => e ∈ a.heap⟩

def insert (a : Agenda) (e : Appointment) : Agenda where
  heap := a.heap.merge (.node 1 e .empty .empty)
  ordered := a.ordered.merge ⟨nofun, nofun, trivial, trivial⟩

def first? (a : Agenda) : Option Appointment :=
  match a.heap with
  | .empty => none
  | .node _ entry _ _ => some entry

def rest (a : Agenda) : Agenda :=
  match a with
  | ⟨.empty, _⟩ => {}
  | ⟨.node _ _ left right, h⟩ => ⟨left.merge right, h.2.2.1.merge h.2.2.2⟩

def size (a : Agenda) : Nat :=
  a.heap.size

@[simp] theorem not_mem_default (e : Appointment) : ¬e ∈ ({} : Agenda) := fun h => h

@[simp] theorem mem_insert {a : Agenda} {e f : Appointment} : e ∈ a.insert f ↔ e ∈ a ∨ e = f := by
  change e ∈ a.heap.merge (.node 1 f .empty .empty) ↔ e ∈ a.heap ∨ e = f
  simp

theorem not_mem_of_first?_eq_none {a : Agenda} (h : a.first? = none) (e : Appointment) :
    ¬e ∈ a := by
  obtain ⟨heap, ordered⟩ := a
  cases heap with
  | empty => exact fun he => he
  | node n x l r => simp [first?] at h

theorem mem_iff_of_first? {a : Agenda} {f : Appointment} (h : a.first? = some f) (e : Appointment) :
    e ∈ a ↔ e = f ∨ e ∈ a.rest := by
  obtain ⟨heap, ordered⟩ := a
  cases heap with
  | empty => simp [first?] at h
  | node n x l r =>
    obtain rfl : x = f := by simpa [first?] using h
    change e = x ∨ e ∈ l ∨ e ∈ r ↔ e = x ∨ e ∈ l.merge r
    rw [Heap.mem_merge]

theorem first?_le {a : Agenda} {e f : Appointment} (h : a.first? = some f) (he : e ∈ a) :
    f ≤ e := by
  obtain ⟨heap, ordered⟩ := a
  cases heap with
  | empty => exact absurd he (not_mem_default e)
  | node n x l r =>
    obtain rfl : x = f := by simpa [first?] using h
    rcases he with rfl | he | he
    · exact Or.inr ⟨rfl, Nat.le_refl _⟩
    · exact ordered.1 e he
    · exact ordered.2.1 e he

theorem size_rest_lt {a : Agenda} {f : Appointment} (h : a.first? = some f) :
    a.rest.size < a.size := by
  obtain ⟨heap, ordered⟩ := a
  cases heap with
  | empty => simp [first?] at h
  | node n x l r =>
    change (l.merge r).size < (Heap.node n x l r).size
    rw [Heap.size_merge]
    exact Nat.lt_succ_self _

def dropWhile (p : Appointment → Bool) (a : Agenda) : Agenda :=
  match _h : a.first? with
  | none => a
  | some e => if p e then dropWhile p a.rest else a
  termination_by a.size
  decreasing_by exact size_rest_lt _h

/-- An entry without the property stays. -/
theorem mem_dropWhile_of_not {p : Appointment → Bool} {a : Agenda} {e : Appointment} (he : e ∈ a)
    (hp : p e = false) : e ∈ a.dropWhile p := by
  fun_induction dropWhile p a with
  | case1 a h => exact he
  | case2 a f h hf ih =>
    rcases (mem_iff_of_first? h e).mp he with rfl | he
    · rw [hp] at hf
      exact absurd hf (by decide)
    · exact ih he
  | case3 a f h hf => exact he

/-- The first entry that is left has not the property. -/
theorem first?_dropWhile {p : Appointment → Bool} {a : Agenda} {e : Appointment}
    (h : (a.dropWhile p).first? = some e) : p e = false := by
  fun_induction dropWhile p a with
  | case1 a hn => rw [hn] at h; cases h
  | case2 a f hs hf ih => exact ih h
  | case3 a f hs hf =>
    obtain rfl : f = e := Option.some.inj (hs.symm.trans h)
    exact Bool.eq_false_iff.mpr hf

end Agenda

end ControlLogic
