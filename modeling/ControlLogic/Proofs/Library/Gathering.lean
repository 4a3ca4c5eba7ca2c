import ControlLogic.Library.Gathering
import ControlLogic.Proofs.Text.Search

/-!
Gathering frames conserves text: whatever pieces arrive, the frames delivered to a variable and the
text that waits for it are together the pieces that were fed, in their order.
-/

set_option autoImplicit false
set_option relaxedAutoImplicit false

namespace ControlLogic

open Text

namespace Gather

variable {g g' : Gather} {key name : String} {frame? : Option String}

private theorem pending_insert (g : Gather) (key waiting name : String) :
    pending (g.insert key waiting) name = if key = name then waiting else g.pending name := by
  rw [pending, Std.HashMap.getD_insert]
  simp only [beq_iff_eq, pending]

private theorem pending_append (g : Gather) (key chunk name : String) :
    (g.append key chunk).pending name =
      if key = name then g.pending key ++ chunk else g.pending name := by
  rw [append, pending_insert]

/-- Taking a frame, or none, loses nothing of the text that waits for a destination and leaves other
destinations alone. -/
structure Takes (g : Gather) (key : String) (frame? : Option String) (g' : Gather) : Prop where
  conserved : (frame?.getD "").toList ++ (g'.pending key).toList = (g.pending key).toList
  others : ∀ name, name ≠ key → g'.pending name = g.pending name

private theorem takes_none (g : Gather) (key : String) : g.Takes key none g :=
  ⟨List.nil_append _, fun _ _ => rfl⟩

private theorem takes_cut (g : Gather) (key : String) (n : Nat) :
    g.Takes key (some (g.cut key n).1) (g.cut key n).2 := by
  constructor
  · rw [cut, pending_insert, if_pos rfl, Option.getD_some, String.toList_ofList,
      String.toList_ofList, List.take_append_drop]
  · intro name hname
    rw [cut, pending_insert, if_neg (Ne.symm hname)]

private theorem toList_cut (g : Gather) (key : String) (n : Nat) :
    (g.cut key n).1.toList = (g.pending key).toList.take n :=
  String.toList_ofList

/-! ### Frames that end in a delimiter -/

private theorem takes_takeThrough (g : Gather) (key delimiter : String) :
    g.Takes key (g.takeThrough key delimiter).1 (g.takeThrough key delimiter).2 := by
  rw [takeThrough]
  split
  · exact takes_none g key
  · exact takes_cut g key _

def EndsIn (delimiter frame : List Char) : Prop :=
  delimiter ≠ [] ∧ ∃ front, frame = front ++ delimiter ∧
    ∀ i, StandsAt delimiter frame i → i = front.length

private theorem endsIn_take {delimiter waiting : List Char} {i : Nat} (hne : delimiter ≠ [])
    (h : IsLeast (placesFrom delimiter waiting 0) i) :
    EndsIn delimiter (waiting.take (i + delimiter.length)) := by
  obtain ⟨⟨-, hstands⟩, hleast⟩ := h
  have hlength := hstands.le_length
  have hfront : (waiting.take i).length = i := by
    rw [List.length_take]
    omega
  refine ⟨hne, waiting.take i, hstands.take_eq, fun j hj => ?_⟩
  have hj' : j + delimiter.length ≤ (waiting.take (i + delimiter.length)).length := hj.le_length
  have hle : i ≤ j := by
    obtain ⟨front, back, heq, rfl⟩ := hj
    refine hleast ⟨Nat.zero_le _, front, back ++ waiting.drop (i + delimiter.length), ?_, rfl⟩
    rw [← List.append_assoc, ← heq, List.take_append_drop]
  rw [List.length_take] at hj'
  omega

private theorem takeThrough_some {delimiter frame : String}
    (h : (g.takeThrough key delimiter).1 = some frame) :
    EndsIn delimiter.toList frame.toList := by
  rw [takeThrough] at h
  split at h
  next => cases h
  next i hfound =>
    obtain ⟨hne, hleast⟩ := findFrom_eq_some hfound
    obtain rfl := Option.some.inj h
    rw [toList_cut]
    exact endsIn_take hne hleast

private theorem takeThrough_none {delimiter : String} (h : (g.takeThrough key delimiter).1 = none)
    {frame : List Char} (hframe : frame <+: (g.pending key).toList) :
    ¬ EndsIn delimiter.toList frame := by
  rintro ⟨hne, front, rfl, -⟩
  obtain ⟨back, hback⟩ := hframe
  rw [takeThrough] at h
  split at h
  next hfound =>
    have hempty := findFrom_eq_none hne hfound
    have hmem : front.length ∈ placesFrom delimiter.toList (g.pending key).toList 0 :=
      ⟨Nat.zero_le _, front, back, hback.symm, rfl⟩
    rw [hempty] at hmem
    exact hmem
  next => cases h

/-! ### Frames of a length -/

private theorem takes_takeLength (g : Gather) (key : String) (n : Nat) :
    g.Takes key (g.takeLength key n).1 (g.takeLength key n).2 := by
  rw [takeLength]
  split
  · exact takes_none g key
  · exact takes_cut g key n

private theorem takeLength_some {n : Nat} {frame : String}
    (h : (g.takeLength key n).1 = some frame) :
    0 < n ∧ frame.toList.length = n := by
  rw [takeLength] at h
  split at h
  next => cases h
  next hn =>
    obtain rfl := Option.some.inj h
    rw [toList_cut, List.length_take]
    omega

private theorem takeLength_none {n : Nat} (h : (g.takeLength key n).1 = none) {frame : List Char}
    (hframe : frame <+: (g.pending key).toList) : ¬ (0 < n ∧ frame.length = n) := by
  have hlength := hframe.length_le
  rw [takeLength] at h
  split at h
  next hn => omega
  next => cases h

end Gather

namespace Library

/-- A call of a routine that gathers: whether frames of a length are asked for, what the machine
tells apart from the text that waits, and the arguments. -/
structure GatherCall where
  byLength : Bool
  context : Context
  args : List Arg

namespace GatherCall

variable {c : GatherCall} {g : Gather} {name : String}

def reply (c : GatherCall) (g : Gather) : Reply :=
  (if c.byLength then gatherByLength else gatherAsync) { c.context with gather := g } c.args

def after (c : GatherCall) (g : Gather) : Gather :=
  (c.reply g).gather.getD g

def name? (c : GatherCall) : Option String :=
  (target? c.args 2).map SlotKey.render

/-- The frame that the call delivers: what it writes after it has emptied the variable of the
piece. -/
def frame? (c : GatherCall) (g : Gather) : Option String :=
  match (c.reply g).effects.drop (writeTo c.args 1 .empty).length with
  | [.write _ (.text frame)] => some frame
  | _ => none

/-- What makes a frame for the call: a text that ends in its delimiter and holds it nowhere before,
or a text of its length, which is not zero. -/
def IsFrame (c : GatherCall) (frame : List Char) : Prop :=
  if c.byLength then 0 < number c.args 0 ∧ (frame.length : Int) = number c.args 0
  else Gather.EndsIn (chars c.args 0) frame

def take (c : GatherCall) (g : Gather) (key : String) : Option String × Gather :=
  if c.byLength then g.takeLength key (count c.args 0) else g.takeThrough key (text c.args 0)

private theorem reply_eq (c : GatherCall) (g : Gather) :
    c.reply g =
      gatherWith (fun _ => c.take) { c.context with gather := g } c.args := by
  rw [reply]
  split
  next h => simp only [gatherByLength, gatherWith, take, h, if_true]
  next h => simp only [gatherAsync, gatherWith, take, h, Bool.false_eq_true, if_false]

private theorem takes_take (c : GatherCall) (g : Gather) (key : String) :
    g.Takes key (c.take g key).1 (c.take g key).2 := by
  rw [take]
  split
  · exact Gather.takes_takeLength g key _
  · exact Gather.takes_takeThrough g key _

private theorem take_some {k frame : String} (h : (c.take g k).1 = some frame) :
    c.IsFrame frame.toList := by
  rw [IsFrame]
  rw [take] at h
  split at h
  next hlength =>
    obtain ⟨hpos, heq⟩ := Gather.takeLength_some h
    rw [if_pos hlength]
    rw [count] at hpos heq
    omega
  next hlength =>
    rw [if_neg hlength]
    exact Gather.takeThrough_some h

private theorem take_none {k : String} (h : (c.take g k).1 = none) {frame : List Char}
    (hframe : frame <+: (g.pending k).toList) : ¬ c.IsFrame frame := by
  rw [IsFrame]
  rw [take] at h
  split at h
  next hlength =>
    have hno := Gather.takeLength_none h hframe
    rw [if_pos hlength]
    rw [count] at hno
    omega
  next hlength =>
    rw [if_neg hlength]
    exact Gather.takeThrough_none h hframe

/-! ### One call -/

private theorem reply_of_no_target (h : target? c.args 2 = none) (g : Gather) :
    c.reply g = .pure .zero := by
  rw [reply_eq]
  simp only [gatherWith, h]

private theorem reply_of_target {key : SlotKey} (h : target? c.args 2 = some key) (g : Gather) :
    ∃ frame? g', c.take (g.append key.render (text c.args 1)) key.render = (frame?, g') ∧
      c.frame? g = frame? ∧ c.after g = g' ∧
      (c.reply g).value = .number (if frame?.isSome then 1 else 0) ∧
      (c.reply g).effects =
        writeTo c.args 1 .empty ++ frame?.toList.map fun frame => .write key (.text frame) := by
  have hreply := c.reply_eq g
  simp only [gatherWith, h] at hreply
  generalize htake : c.take (g.append key.render (text c.args 1)) key.render = taken at hreply
  obtain ⟨frame, g'⟩ := taken
  refine ⟨frame, g', rfl, ?_⟩
  rw [after, frame?, hreply]
  cases frame with
  | none => simp [Value.zero]
  | some frame => simp

/-- The texts of a call fit together: what waits before it and the piece are the frame and what
waits after it. -/
private theorem conserved (h : c.name? = some name) (g : Gather) :
    ((c.frame? g).getD "").toList ++ ((c.after g).pending name).toList =
      (g.pending name).toList ++ chars c.args 1 := by
  obtain ⟨key, hkey, rfl⟩ := Option.map_eq_some_iff.mp h
  obtain ⟨frame?, g', htake, hframe, hafter, -, -⟩ := reply_of_target hkey g
  have htakes := c.takes_take (g.append key.render (text c.args 1)) key.render
  rw [htake] at htakes
  rw [hframe, hafter, htakes.conserved, Gather.pending_append, if_pos rfl, String.toList_append,
    chars]

theorem others (h : c.name? ≠ some name) (g : Gather) :
    (c.after g).pending name = g.pending name := by
  cases hkey : target? c.args 2 with
  | none => rw [after, reply_of_no_target hkey]; rfl
  | some key =>
    have hname : key.render ≠ name := fun heq => h (by rw [name?, hkey, ← heq]; rfl)
    obtain ⟨frame?, g', htake, -, hafter, -, -⟩ := reply_of_target hkey g
    have htakes := c.takes_take (g.append key.render (text c.args 1)) key.render
    rw [htake] at htakes
    rw [hafter, htakes.others name hname.symm, Gather.pending_append, if_neg hname]

/-- A call answers one exactly if it delivers a frame, writes the frame to its variable, and
delivers one exactly if the text that waits begins with one. -/
theorem answers (c : GatherCall) (g : Gather) :
    (c.reply g).value = .number (if (c.frame? g).isSome then 1 else 0) ∧
      (c.reply g).effects =
        (match target? c.args 2 with
          | none => []
          | some key => writeTo c.args 1 .empty ++
              (c.frame? g).toList.map fun frame => .write key (.text frame)) ∧
      (∀ frame, c.frame? g = some frame → c.IsFrame frame.toList) ∧
      (c.frame? g = none → ∀ name, c.name? = some name → ∀ frame : List Char,
        frame <+: (g.pending name).toList ++ chars c.args 1 → ¬ c.IsFrame frame) := by
  cases hkey : target? c.args 2 with
  | none =>
    have hreply := reply_of_no_target hkey g
    have hframe : c.frame? g = none := by
      rw [frame?, hreply, Reply.pure, List.drop_nil]
    refine ⟨by rw [hframe, hreply]; rfl, by rw [hreply]; rfl, ?_, ?_⟩
    · rintro frame hsome
      cases hframe.symm.trans hsome
    · rintro - name hname
      rw [name?, hkey] at hname
      cases hname
  | some key =>
    obtain ⟨frame?, g', htake, hframe, -, hvalue, heffects⟩ := reply_of_target hkey g
    refine ⟨by rw [hframe, hvalue], by rw [hframe, heffects], ?_, ?_⟩
    · intro frame hsome
      exact take_some (g := g.append key.render (text c.args 1)) (k := key.render)
        (by rw [htake, ← hframe, hsome])
    · intro hnone name hname frame hprefix
      rw [name?, hkey] at hname
      obtain rfl := Option.some.inj hname
      refine take_none (g := g.append key.render (text c.args 1)) (k := key.render)
        (by rw [htake, ← hframe, hnone]) ?_
      rwa [Gather.pending_append, if_pos rfl, String.toList_append]

/-! ### Calls one after another -/

def afterAll (g : Gather) (calls : List GatherCall) : Gather :=
  calls.foldl (fun g c => c.after g) g

/-- The frames that some calls deliver under a name, in order. -/
def framesFor (name : String) : Gather → List GatherCall → List String
  | _, [] => []
  | g, c :: rest =>
    (if c.name? = some name then (c.frame? g).toList else []) ++ framesFor name (c.after g) rest

/-- The pieces that some calls feed under a name, in order. -/
def fedTo (name : String) (calls : List GatherCall) : List String :=
  (calls.filter (·.name? = some name)).map (text ·.args 1)

def joined (texts : List String) : List Char :=
  texts.flatMap String.toList

private theorem framesFor_append_pending (name : String) (g : Gather) (calls : List GatherCall) :
    joined (framesFor name g calls) ++ ((afterAll g calls).pending name).toList =
      (g.pending name).toList ++ joined (fedTo name calls) := by
  induction calls generalizing g with
  | nil => simp [framesFor, afterAll, fedTo, joined]
  | cons c rest ih =>
    have hrest := ih (c.after g)
    simp only [joined, framesFor, fedTo, afterAll, List.flatMap_append, List.foldl_cons,
      List.append_assoc] at hrest ⊢
    rw [hrest]
    by_cases hname : c.name? = some name
    · have hstep := conserved hname g
      have hframe : (c.frame? g).toList.flatMap String.toList =
          ((c.frame? g).getD "").toList := by
        cases c.frame? g <;> simp
      rw [if_pos hname, hframe, ← List.append_assoc, hstep, List.filter_cons_of_pos (by simpa),
        List.map_cons, List.flatMap_cons, List.append_assoc, chars]
    · rw [if_neg hname, others hname, List.filter_cons_of_neg (by simpa), List.flatMap_nil,
        List.nil_append]

/-- Gathering conserves text. However calls of the two routines follow one another, the frames
delivered under a name and the text that waits under it are together the pieces fed under it, in
their order. Each call leaves what waits under other names as it is; it answers one exactly if it
delivers a frame, which it writes to its variable, and zero otherwise. A frame ends in the
delimiter, which is not empty and stands nowhere before, or it has just the length asked for, which
is above zero; and a call delivers none only where what waits does not begin with one. -/
theorem gathering_conserves_text :
    (∀ (calls : List GatherCall) (name : String),
      joined (framesFor name {} calls) ++ ((afterAll {} calls).pending name).toList =
        joined (fedTo name calls)) ∧
    ∀ (g : Gather) (c : GatherCall),
      (∀ name, c.name? ≠ some name → (c.after g).pending name = g.pending name) ∧
      (c.reply g).value = .number (if (c.frame? g).isSome then 1 else 0) ∧
      (c.reply g).effects =
        (match target? c.args 2 with
          | none => []
          | some key => writeTo c.args 1 .empty ++
              (c.frame? g).toList.map fun frame => .write key (.text frame)) ∧
      (∀ frame, c.frame? g = some frame → c.IsFrame frame.toList) ∧
      (c.frame? g = none → ∀ name, c.name? = some name → ∀ frame : List Char,
        frame <+: (g.pending name).toList ++ chars c.args 1 → ¬ c.IsFrame frame) := by
  refine ⟨fun calls name => ?_, fun g c => ⟨fun name hname => others hname g, c.answers g⟩⟩
  have hstart : (({} : Gather).pending name).toList = [] := by
    rw [Gather.pending, Std.HashMap.getD_empty]
    rfl
  rw [framesFor_append_pending, hstart, List.nil_append]

end GatherCall

end Library

end ControlLogic
