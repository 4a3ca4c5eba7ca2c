import Std.Data.HashMap
import ControlLogic.Agenda
import ControlLogic.Stimulus

/-!
Work that is due later, on a clock that stands still until it is moved, and the stimuli that wait to
be taken. Times are in milliseconds. Work falls due in the order of its time, and work of one time
in the order it was planned in.
-/

set_option autoImplicit false
set_option relaxedAutoImplicit false

namespace ControlLogic

theorem Schedule.listed_empty {τ : Type} {agenda : Agenda} {id due : Nat} {task : τ}
    (h : ({} : Std.HashMap Nat (Nat × τ))[id]? = some (due, task)) : ⟨due, id⟩ ∈ agenda := by
  simp at h

/--
Planned work. `tasks` has the work by number with the time it is due. Each of these times stands on
the agenda; work that is dropped or moved leaves its old entry there, which counts no longer.
-/
structure Schedule (τ : Type) where
  now : Nat := 0
  agenda : Agenda := {}
  tasks : Std.HashMap Nat (Nat × τ) := {}
  nextId : Nat := 1
  inbox : List Stimulus := []
  listed : ∀ {id due : Nat} {task : τ}, tasks[id]? = some (due, task) → ⟨due, id⟩ ∈ agenda := by
    exact Schedule.listed_empty

namespace Schedule

variable {τ : Type}

instance : Inhabited (Schedule τ) := ⟨{}⟩

def put (s : Schedule τ) (id delay : Nat) (task : τ) : Schedule τ :=
  { s with
    agenda := s.agenda.insert ⟨s.now + delay, id⟩
    tasks := s.tasks.insert id (s.now + delay, task)
    listed := by
      intro k due task' h
      rw [Std.HashMap.getElem?_insert] at h
      rw [Agenda.mem_insert]
      split at h
      · simp_all
      · exact Or.inl (s.listed h) }

def plan (s : Schedule τ) (delay : Nat) (task : τ) : Nat × Schedule τ :=
  (s.nextId, { s.put s.nextId delay task with nextId := s.nextId + 1 })

def isPending (s : Schedule τ) (id : Nat) : Bool :=
  s.tasks.contains id

def pending (s : Schedule τ) : Nat :=
  s.tasks.size

/-- Takes work off; its entry stays on the agenda. -/
def drop (s : Schedule τ) (id : Nat) : Schedule τ :=
  { s with
    tasks := s.tasks.erase id
    listed := by
      intro k due task h
      rw [Std.HashMap.getElem?_erase] at h
      split at h
      · cases h
      · exact s.listed h }

def cancel (s : Schedule τ) (id : Nat) : Bool × Schedule τ :=
  (s.isPending id, s.drop id)

/-- Moves planned work to a time from now; whether there was any of this number. -/
def retime (s : Schedule τ) (id : Nat) (delay : Nat) : Bool × Schedule τ :=
  match s.tasks[id]? with
  | some (_, task) => (true, s.put id delay task)
  | none => (false, s)

/-- Whether an entry counts no longer: its work is gone or has moved. -/
def isStale (s : Schedule τ) (e : Appointment) : Bool :=
  match s.tasks[e.id]? with
  | some (due, _) => due != e.due
  | none => true

theorem isStale_eq_false {s : Schedule τ} {e : Appointment} :
    s.isStale e = false ↔ ∃ task, s.tasks[e.id]? = some (e.due, task) := by
  unfold isStale
  split
  next due task h => simp [h]
  next h => simp [h]

def discardStale (s : Schedule τ) : Schedule τ :=
  { s with
    agenda := s.agenda.dropWhile s.isStale
    listed := fun h => Agenda.mem_dropWhile_of_not (s.listed h) (isStale_eq_false.mpr ⟨_, h⟩) }

def first? (s : Schedule τ) : Option Appointment :=
  s.discardStale.agenda.first?

def nextDue? (s : Schedule τ) : Option Nat :=
  s.first?.map Appointment.due

/-- Takes the first work off the agenda and moves the clock to its time. -/
def take (s : Schedule τ) (e : Appointment) (h : s.agenda.first? = some e) : Schedule τ :=
  { s with
    now := max s.now e.due
    agenda := s.agenda.rest
    tasks := s.tasks.erase e.id
    listed := by
      intro id due task hid
      rw [Std.HashMap.getElem?_erase] at hid
      split at hid
      · cases hid
      next hne =>
        rcases (Agenda.mem_iff_of_first? h _).mp (s.listed hid) with rfl | hrest
        · simp at hne
        · exact hrest }

def takeDue (s : Schedule τ) (deadline : Nat) : Option (Nat × τ) × Schedule τ :=
  match h : s.agenda.first? with
  | none => (none, s)
  | some e =>
    if deadline < e.due then (none, s)
    else ((s.tasks[e.id]?).map fun (_, task) => (e.id, task), s.take e h)

/-- Takes the first work if it is due by a deadline, and moves the clock to its time. -/
def popDue (s : Schedule τ) (deadline : Nat) : Option (Nat × τ) × Schedule τ :=
  s.discardStale.takeDue deadline

theorem popDue_of_none {s : Schedule τ} (h : s.first? = none) (deadline : Nat) :
    s.popDue deadline = (none, s.discardStale) := by
  unfold popDue takeDue
  split
  next => rfl
  next e he => cases h.symm.trans he

theorem popDue_of_lt {s : Schedule τ} {e : Appointment} (h : s.first? = some e) {deadline : Nat}
    (hdue : deadline < e.due) : s.popDue deadline = (none, s.discardStale) := by
  unfold popDue takeDue
  split
  next => rfl
  next f hf =>
    obtain rfl : e = f := Option.some.inj (h.symm.trans hf)
    rw [if_pos hdue]

theorem popDue_of_le {s : Schedule τ} {e : Appointment} (h : s.first? = some e) {deadline : Nat}
    (hdue : e.due ≤ deadline) :
    s.popDue deadline =
      ((s.tasks[e.id]?).map fun (_, task) => (e.id, task), s.discardStale.take e h) := by
  unfold popDue takeDue
  split
  next hn => cases h.symm.trans hn
  next f hf =>
    obtain rfl : e = f := Option.some.inj (h.symm.trans hf)
    rw [if_neg (Nat.not_lt.mpr hdue)]
    rfl

def send (s : Schedule τ) (stimulus : Stimulus) : Schedule τ :=
  { s with inbox := s.inbox ++ [stimulus] }

/-- Takes the stimulus that has waited longest. -/
def receive (s : Schedule τ) : Option Stimulus × Schedule τ :=
  match s.inbox with
  | [] => (none, s)
  | stimulus :: rest => (some stimulus, { s with inbox := rest })

/-- Lets time pass until a moment, unless a stimulus waits, which is then taken. -/
def waitUntil (s : Schedule τ) (moment : Nat) : Option Stimulus × Schedule τ :=
  match s.inbox with
  | stimulus :: rest => (some stimulus, { s with inbox := rest })
  | [] => (none, { s with now := max s.now moment })

/-- Drops all work and all stimuli. The clock and the numbers go on. -/
def clear (s : Schedule τ) : Schedule τ where
  now := s.now
  nextId := s.nextId

/-- The latest time that a host can tell, in milliseconds: the seconds of an unsigned 64-bit integer
and the rest of one more. -/
def latestTime : Nat := 18446744073709551615999

/-- Whether a host can tell the time and all times at which work is due. -/
def isTellable (s : Schedule τ) : Bool :=
  s.now ≤ latestTime && s.tasks.toList.all fun entry => entry.2.1 ≤ latestTime

end Schedule

end ControlLogic
