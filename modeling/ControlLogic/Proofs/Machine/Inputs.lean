import ControlLogic.Proofs.Machine.Typing

/-!
Inputs and their edges. A program can change an input only if it is a buffer. A stimulus has an edge
if it is for a declared input of the right type and gives it another value than it has; every text
that is added to a buffer is one. Handlers run on edges only.
-/

set_option autoImplicit false
set_option relaxedAutoImplicit false

namespace ControlLogic

namespace SignalTable

theorem signal?_store (t : SignalTable) (s : Signal) (v : Value) (name : String) :
    (t.store s v).signal? name = t.signal? name :=
  rfl

private theorem valueOf?_store (t : SignalTable) (s s' : Signal) (v : Value) :
    (t.store s v).valueOf? s' =
      if (s.type.bank, s.name) = (s'.type.bank, s'.name) then some v else t.valueOf? s' := by
  unfold valueOf? store
  simp only [Std.HashMap.get?_eq_getElem?, Std.HashMap.getElem?_insert, beq_iff_eq]

theorem valueOf?_store_self (t : SignalTable) (s : Signal) (v : Value) :
    (t.store s v).valueOf? s = some v := by
  rw [valueOf?_store, if_pos rfl]

private theorem Typed.eq_of_name {t : SignalTable} (h : t.Typed) {key key' : String} {s s' : Signal}
    (hs : t.declared[key]? = some s) (hs' : t.declared[key']? = some s')
    (hname : s.name = s'.name) : s = s' := by
  rw [(h key s hs).1, hname, ← (h key' s' hs').1, hs'] at hs
  exact (Option.some.inj hs).symm

theorem Typed.valueOf?_store_of_ne {t : SignalTable} (h : t.Typed) {key key' : String}
    {s s' : Signal} (hs : t.declared[key]? = some s) (hs' : t.declared[key']? = some s')
    (hne : s ≠ s') (v : Value) : (t.store s v).valueOf? s' = t.valueOf? s' := by
  rw [valueOf?_store, if_neg]
  intro hsame
  exact hne (h.eq_of_name hs hs' (congrArg Prod.snd hsame))

private theorem Typed.signal?_name {t : SignalTable} (h : t.Typed) {name : String} {s : Signal}
    (hs : t.signal? name = some s) : t.signal? s.name = some s := by
  obtain ⟨hname, -⟩ := h _ s hs
  unfold signal? at hs ⊢
  rw [← hname]
  exact hs

theorem Typed.value?_name {t : SignalTable} (h : t.Typed) {name : String} {s : Signal}
    (hs : t.signal? name = some s) : t.value? s.name = t.valueOf? s := by
  unfold value?
  rw [h.signal?_name hs]
  rfl

end SignalTable

theorem Signal.bit_of_holds {s : Signal} (htype : s.type = .digitalInput) {v : Value}
    (hv : s.Holds v) : v = .number 0 ∨ v = .number 1 := by
  unfold Holds at hv
  rw [htype] at hv
  cases v with
  | number n => simpa [SignalType.kind] using hv
  | text t => exact absurd hv id

/-- Inputs that only a host can change. -/
def SignalType.isHeld (type : SignalType) : Bool :=
  type.isInput && type != .bufferInput

namespace Machine

/-- The same signals are declared, and inputs that only a host can change have the values they
had. -/
structure KeepsInputs (m m' : Machine) : Prop where
  declared : m'.signals.declared = m.signals.declared
  typed : m.signals.Typed → m'.signals.Typed
  values (ht : m.signals.Typed) {key : String} {s : Signal}
    (hs : m.signals.declared[key]? = some s) (hheld : s.type.isHeld = true) :
    m'.signals.valueOf? s = m.signals.valueOf? s

theorem keepsInputs_of_eq {m m' : Machine} (h : m'.signals = m.signals) : m.KeepsInputs m' := by
  refine ⟨congrArg _ h, fun ht => ?_, fun _ _ _ _ _ => ?_⟩
  · rw [h]
    exact ht
  · rw [h]

theorem KeepsInputs.trans {a b c : Machine} (h : a.KeepsInputs b) (h' : b.KeepsInputs c) :
    a.KeepsInputs c where
  declared := h'.declared.trans h.declared
  typed ht := h'.typed (h.typed ht)
  values ht key s hs hheld := by
    have hs' : b.signals.declared[key]? = some s := by rw [h.declared]; exact hs
    rw [h'.values (h.typed ht) hs' hheld, h.values ht hs hheld]

private theorem signals_trackIndex (m : Machine) (key : SlotKey) :
    (m.trackIndex key).signals = m.signals := by
  obtain ⟨indices, last, h⟩ := m.trackIndex_eq key
  rw [h]

theorem signals_keepInput (m : Machine) (s : Signal) (v : Value) :
    (m.keepInput s v).signals = m.signals.store s v := by
  unfold keepInput
  dsimp only
  split
  · exact signals_trackIndex _ _
  · rfl

theorem signals_writeSignal (m : Machine) (key : SlotKey) (s : Signal) (v : Value) :
    (m.writeSignal key s v).signals = m.signals.store s (s.coerce v) := by
  unfold writeSignal
  dsimp only
  split
  · exact signals_trackIndex _ key
  · exact signals_trackIndex _ key

theorem not_isHeld_of_target {m : Machine} {key : SlotKey} {s : Signal}
    (h : m.target key = .ok (.signal s)) : s.type.isHeld = false := by
  unfold target at h
  split at h
  · cases h
  · split at h
    · cases h
    · split at h
      · split at h
        · cases h
        next hinput =>
          cases h
          simpa [SignalType.isHeld] using hinput
      · cases h

theorem keepsInputs_writeTo {m : Machine} {key : SlotKey} {target : Target}
    (h : m.target key = .ok target) (v : Value) : m.KeepsInputs (m.writeTo key v target) := by
  cases target with
  | slot slot => exact keepsInputs_of_eq (signals_trackIndex _ key)
  | signal s =>
    have hsignals : (m.writeTo key v (.signal s)).signals = m.signals.store s (s.coerce v) :=
      m.signals_writeSignal key s v
    have hdeclared := declared_of_target h
    refine ⟨by rw [hsignals]; rfl, fun ht => ?_, fun ht key' s' hs' hheld => ?_⟩
    · rw [hsignals]
      exact ht.store hdeclared (s.holds_coerce v)
    · have hne : s ≠ s' := by
        rintro rfl
        rw [not_isHeld_of_target h] at hheld
        cases hheld
      rw [hsignals, ht.valueOf?_store_of_ne hdeclared hs' hne]

end Machine

/-! ### Signals of a program that is loaded -/

namespace SignalTable

/-- All declared signals have the value of one that has not been driven. -/
def Fresh (t : SignalTable) : Prop :=
  ∀ (key : String) (s : Signal), t.declared[key]? = some s → t.valueOf? s = some s.initial

theorem Fresh.declare {t : SignalTable} (h : t.Fresh) (type : SignalType) (name : String)
    (capacity : Option Nat) : (t.declare type name capacity).Fresh := by
  intro key s hs
  have hvalue : (t.declare type name capacity).valueOf? s =
      if (type.bank, name) = (s.type.bank, s.name) then
        some (Signal.initial ⟨type, name, capacity⟩) else t.valueOf? s := by
    unfold valueOf? SignalTable.declare
    simp only [Std.HashMap.get?_eq_getElem?, Std.HashMap.getElem?_insert, beq_iff_eq]
  rw [hvalue]
  split
  next hsame =>
    -- Signals of one bank are of one kind.
    have hkind : type.kind = s.type.kind := by
      have hbank : type.bank = s.type.bank := congrArg Prod.fst hsame
      revert hbank
      cases type <;> cases s.type <;> decide
    unfold Signal.initial
    rw [hkind]
  next hne =>
    have hs' : (if Text.upper name = key then some ⟨type, name, capacity⟩
        else t.declared[key]?) = some s := by
      rw [← hs]
      unfold SignalTable.declare
      simp only [Std.HashMap.getElem?_insert, beq_iff_eq]
    split at hs'
    · cases hs'
      exact absurd rfl hne
    · exact h key s hs'

theorem fresh_empty : Fresh {} := by
  intro key s h
  simp at h

end SignalTable

namespace Machine

/-- Frames stay as they are, and signals that have not been driven stay so. -/
structure Readies (m m' : Machine) : Prop where
  frames : m'.scope.frames = m.scope.frames
  fresh : m.signals.Fresh → m'.signals.Fresh

private theorem fresh_addSignals (type : SignalType) (m : Machine) (entry : SignalName)
    (h : m.signals.Fresh) : (addSignals type m entry).signals.Fresh := by
  unfold addSignals
  dsimp only
  generalize m.signals = t at h
  induction entry.expand generalizing t with
  | nil => exact h
  | cons name names ih => exact ih _ (h.declare type name _)

private theorem readies_declaring : Declaring Readies where
  refl _ := ⟨rfl, id⟩
  trans h h' := ⟨h'.frames.trans h.frames, fun hf => h'.fresh (h.fresh hf)⟩
  tell _ _ := ⟨rfl, id⟩
  program _ _ _ := ⟨rfl, id⟩
  constant _ _ _ := ⟨rfl, id⟩
  signals type m entry := ⟨rfl, m.fresh_addSignals type entry⟩
  global structures m d := by
    unfold addGlobal
    split
    · exact ⟨rfl, id⟩
    · split
      · exact ⟨rfl, id⟩
      · exact ⟨rfl, id⟩

theorem frames_load (m : Machine) (text : String) : (m.load text).2.scope.frames = [] :=
  (readies_declaring.load m text).frames

theorem fresh_load (m : Machine) (text : String) : (m.load text).2.signals.Fresh :=
  (readies_declaring.load m text).fresh SignalTable.fresh_empty

end Machine

namespace Run

open Machine (KeepsInputs keepsInputs_of_eq)

private theorem keepsInputs_checkAbort : Relates KeepsInputs checkAbort :=
  relates_checkAbort fun _ => keepsInputs_of_eq rfl

private theorem keepsInputs_scheduleWait (delay : Nat) (label : Option String) (body : List Stmt) :
    Relates KeepsInputs (scheduleWait delay label body) := by
  have hlabel : Relates KeepsInputs (waitLabel label) := by
    unfold waitLabel
    split
    · exact fun m => keepsInputs_of_eq rfl
    · exact relates_modifyGet fun m => keepsInputs_of_eq rfl
  refine keepsInputs_checkAbort.bind .trans fun _ => ?_
  refine hlabel.bind .trans fun name => relates_inspect fun m => ?_
  split
  · exact relates_modify fun m => keepsInputs_of_eq rfl
  · exact relates_modify fun m => keepsInputs_of_eq rfl

theorem Primitive.keepsInputs {α : Type} {x : Run α} (h : Primitive x) :
    Relates KeepsInputs x := by
  cases h with
  | tryWrite key v =>
    intro m
    obtain ⟨target, htarget, hafter⟩ | hafter := m.after_tryWrite key v
    · rw [hafter]
      exact Machine.keepsInputs_writeTo htarget v
    · rw [hafter]
      exact keepsInputs_of_eq rfl
  | tick =>
    intro m
    rw [m.after_tick]
    exact keepsInputs_of_eq rfl
  | copyWhole frame parameter owner =>
    refine relates_modify fun m => ?_
    obtain ⟨scope, hcopied⟩ := m.copyWhole_eq frame parameter owner
    rw [hcopied]
    exact keepsInputs_of_eq rfl
  | plan delay h =>
    exact keepsInputs_checkAbort.bind .trans fun _ => relates_modify fun m => keepsInputs_of_eq rfl
  | scheduleWait delay label body => exact keepsInputs_scheduleWait delay label body
  | cancelWait name =>
    refine relates_modify fun m => ?_
    split
    · exact keepsInputs_of_eq rfl
    · exact keepsInputs_of_eq rfl
  | retimeWait delay name =>
    refine relates_modify fun m => ?_
    split
    · exact keepsInputs_of_eq rfl
    · exact keepsInputs_of_eq rfl
  | withFiles f => exact relates_modifyGet fun m => keepsInputs_of_eq rfl
  | withNetwork f => exact relates_modifyGet fun m => keepsInputs_of_eq rfl
  | _ => exact relates_modify fun m => keepsInputs_of_eq rfl

theorem Elementary.keepsInputs {α : Type} {x : Run α} (h : Elementary x) :
    Relates KeepsInputs x :=
  h.relates (fun _ => keepsInputs_of_eq rfl) .trans Primitive.keepsInputs

end Run

/-! ### Edges -/

/-- An input that is driven, the value it had and the value it has from then on. -/
structure Edge where
  signal : Signal
  old : Value
  new : Value

/-- The trigger of the handlers that answer: digital inputs are pushed and released. -/
def Edge.trigger (e : Edge) : Trigger :=
  if e.signal.type = .digitalInput ∧ e.old = .number 0 ∧ e.new = .number 1 then .push
  else if e.signal.type = .digitalInput ∧ e.old = .number 1 ∧ e.new = .number 0 then .release
  else .change

/-- Whether a handler is for a signal, under its name or that of its array. -/
def Handler.isFor (h : Handler) (s : Signal) : Bool :=
  Text.sameWord h.signal s.name || s.baseName?.any (Text.sameWord h.signal)

namespace Machine

def inputOf? (m : Machine) (name : String) (types : List SignalType) : Option Signal :=
  (m.signals.signal? name).filter fun s => types.contains s.type

def textOf (m : Machine) (s : Signal) : String :=
  ((m.signals.valueOf? s).map Value.toText).getD ""

/-- The input a stimulus is for, and the value it is to have, as the input keeps it. A buffer keeps
what it has before a new text. -/
def aim? (m : Machine) : Stimulus → Option (Signal × Value)
  | .digital name n => (m.inputOf? name [.digitalInput]).map fun s => (s, s.coerce (.number n))
  | .analog name n => (m.inputOf? name [.analogInput]).map fun s => (s, s.coerce (.number n))
  | .serial name text =>
    (m.inputOf? name [.stringInput, .bufferInput]).map fun s =>
      if s.type = .bufferInput then (s, s.coerce (.text (m.textOf s ++ text)))
      else (s, s.coerce (.text text))
  | .stop => none

def edge? (m : Machine) (stimulus : Stimulus) : Option Edge := do
  let (s, v) ← m.aim? stimulus
  let old ← m.signals.valueOf? s
  if s.type = .bufferInput ∨ v ≠ old then some ⟨s, old, v⟩ else none

/-- The handlers that answer an edge, in the order of the program. -/
def answering (m : Machine) (e : Edge) : List Handler :=
  m.program.handlers.filter fun h => h.trigger == e.trigger && h.isFor e.signal

end Machine

namespace Machine

private theorem inputOf?_eq_some {m : Machine} {name : String} {types : List SignalType}
    {s : Signal}
    (h : m.inputOf? name types = some s) : m.signals.signal? name = some s ∧ s.type ∈ types := by
  obtain ⟨hs, htype⟩ := Option.filter_eq_some_iff.mp h
  exact ⟨hs, by simpa using htype⟩

private theorem input_cases (m : Machine) (name : String) (types : List SignalType) :
    (∃ s, m.inputOf? name types = some s ∧ m.input name types = .ok s) ∨
      m.inputOf? name types = none ∧ ∃ text, m.input name types = .error text := by
  unfold inputOf? input
  cases hs : m.signals.signal? name with
  | none => exact .inr ⟨rfl, _, rfl⟩
  | some s =>
    by_cases htype : types.contains s.type = true
    · exact .inl ⟨s, if_pos htype, if_pos htype⟩
    · exact .inr ⟨if_neg htype, _, if_neg htype⟩

private theorem drive_eq_foldl (m : Machine) (s : Signal) (v : Value) (trigger : Trigger) :
    m.drive s v trigger =
      (m.program.handlers.filter fun h => h.trigger == trigger && h.isFor s).foldl runHandler
        (m.keepInput s v) := by
  have hnames (h : Handler) : (signalNames s).contains (Text.upper h.signal) = h.isFor s := by
    unfold signalNames Handler.isFor Text.sameWord
    cases s.baseName? with
    | none => rw [Bool.eq_iff_iff]; simp
    | some base => rw [Bool.eq_iff_iff]; simp
  obtain ⟨signals, indices, last, hkept⟩ := m.keepInput_eq s v
  unfold drive dispatch handlersOf
  simp only [hnames]
  rw [hkept]

/-- What a stimulus does that has no edge: nothing, or the host is told that there is no such input,
or code that cooperates is asked to stop. -/
inductive Unanswered (m : Machine) : Stimulus → Prop where
  | same {stimulus : Stimulus} {s : Signal} {v : Value} (haim : m.aim? stimulus = some (s, v))
    (hold : m.signals.valueOf? s = some v) (h : m.apply stimulus = m) : m.Unanswered stimulus
  | refused {stimulus : Stimulus} {text : String} (haim : m.aim? stimulus = none)
    (h : m.apply stimulus = m.tell (.notice text)) : m.Unanswered stimulus
  | stop (h : m.apply .stop = { m with abort := true }) : m.Unanswered .stop

def Answers (m : Machine) (stimulus : Stimulus) : Prop :=
  match m.edge? stimulus with
  | some e => m.apply stimulus = (m.answering e).foldl runHandler (m.keepInput e.signal e.new)
  | none => m.Unanswered stimulus

private theorem edge?_of_aim {m : Machine} {stimulus : Stimulus} {s : Signal} {v old : Value}
    (haim : m.aim? stimulus = some (s, v)) (hold : m.signals.valueOf? s = some old) :
    m.edge? stimulus = if s.type = .bufferInput ∨ v ≠ old then some ⟨s, old, v⟩ else none := by
  unfold edge?
  rw [haim]
  simp [hold]

theorem edge?_digital {m : Machine} {name : String} {n : Int} {s : Signal} {old : Value}
    (hs : m.signals.signal? name = some s) (htype : s.type = .digitalInput)
    (hold : m.signals.valueOf? s = some old) (hne : s.coerce (.number n) ≠ old) :
    m.edge? (.digital name n) = some ⟨s, old, s.coerce (.number n)⟩ := by
  have hinput : m.inputOf? name [.digitalInput] = some s := by
    simp [inputOf?, hs, htype]
  have haim : m.aim? (.digital name n) = some (s, s.coerce (.number n)) := by
    simp [aim?, hinput]
  rw [edge?_of_aim haim hold, if_pos (.inr hne)]

private theorem edge?_of_no_aim {m : Machine} {stimulus : Stimulus}
    (haim : m.aim? stimulus = none) :
    m.edge? stimulus = none := by
  unfold edge?
  rw [haim]
  rfl

theorem edge?_eq_some {m : Machine} {stimulus : Stimulus} {e : Edge}
    (h : m.edge? stimulus = some e) :
    (∃ name, m.signals.signal? name = some e.signal) ∧ m.signals.valueOf? e.signal = some e.old ∧
      e.signal.Holds e.new ∧ (e.signal.type = .bufferInput ∨ e.new ≠ e.old) := by
  have haim {s : Signal} {v : Value} (haim : m.aim? stimulus = some (s, v)) :
      (∃ name, m.signals.signal? name = some s) ∧ s.Holds v := by
    cases stimulus with
    | digital name n =>
      obtain ⟨s, hs, heq⟩ := Option.map_eq_some_iff.mp haim
      cases heq
      exact ⟨⟨name, (inputOf?_eq_some hs).1⟩, s.holds_coerce _⟩
    | analog name n =>
      obtain ⟨s, hs, heq⟩ := Option.map_eq_some_iff.mp haim
      cases heq
      exact ⟨⟨name, (inputOf?_eq_some hs).1⟩, s.holds_coerce _⟩
    | serial name text =>
      obtain ⟨s, hs, heq⟩ := Option.map_eq_some_iff.mp haim
      split at heq
      · cases heq
        exact ⟨⟨name, (inputOf?_eq_some hs).1⟩, s.holds_coerce _⟩
      · cases heq
        exact ⟨⟨name, (inputOf?_eq_some hs).1⟩, s.holds_coerce _⟩
    | stop => cases haim
  unfold edge? at h
  cases ha : m.aim? stimulus with
  | none => simp [ha] at h
  | some aim =>
    obtain ⟨s, v⟩ := aim
    cases hold : m.signals.valueOf? s with
    | none => simp [ha, hold] at h
    | some old =>
      simp only [ha, hold, Option.bind_eq_bind, Option.bind_some] at h
      split at h
      next hedge =>
        cases h
        exact ⟨(haim ha).1, hold, (haim ha).2, hedge⟩
      · cases h

private theorem answers_of_aim {m : Machine} {stimulus : Stimulus} {s : Signal} {v old : Value}
    (haim : m.aim? stimulus = some (s, v)) (hold : m.signals.valueOf? s = some old)
    (happly : m.apply stimulus =
      if s.type = .bufferInput ∨ v ≠ old then m.drive s v (Edge.trigger ⟨s, old, v⟩) else m) :
    m.Answers stimulus := by
  unfold Answers
  rw [edge?_of_aim haim hold]
  by_cases h : s.type = .bufferInput ∨ v ≠ old
  · rw [if_pos h] at happly ⊢
    exact happly.trans (m.drive_eq_foldl s v _)
  · rw [if_neg h] at happly ⊢
    obtain ⟨-, rfl⟩ : s.type ≠ .bufferInput ∧ v = old := by simpa using h
    exact .same haim hold happly

private theorem answers_of_no_aim {m : Machine} {stimulus : Stimulus} {text : String}
    (haim : m.aim? stimulus = none) (h : m.apply stimulus = m.tell (.notice text)) :
    m.Answers stimulus := by
  unfold Answers
  rw [edge?_of_no_aim haim]
  exact .refused haim h

private theorem trigger_of_digital {s : Signal} (htype : s.type = .digitalInput) {old new : Value}
    (hold : s.Holds old) (hnew : s.Holds new) (hne : new ≠ old) :
    Edge.trigger ⟨s, old, new⟩ = if new.holds then .push else .release := by
  rcases Signal.bit_of_holds htype hold with rfl | rfl <;>
    rcases Signal.bit_of_holds htype hnew with rfl | rfl
  · exact absurd rfl hne
  · simp [Edge.trigger, htype, Value.holds]
  · simp [Edge.trigger, htype, Value.holds]
  · exact absurd rfl hne

private theorem trigger_of_not_digital {e : Edge} (htype : e.signal.type ≠ .digitalInput) :
    e.trigger = .change := by
  simp [Edge.trigger, htype]

section Typed

variable {m : Machine} (ht : m.signals.Typed)
include ht

private theorem answers_of_change {stimulus : Stimulus} {name : String} {s : Signal} {v : Value}
    {trigger : Trigger} (hs : m.signals.signal? name = some s) (htype : s.type ≠ .bufferInput)
    (haim : m.aim? stimulus = some (s, v))
    (htrigger : ∀ old, s.Holds old → v ≠ old → Edge.trigger ⟨s, old, v⟩ = trigger)
    (happly : m.apply stimulus =
      if m.signals.value? s.name = some v then m else m.drive s v trigger) :
    m.Answers stimulus := by
  obtain ⟨-, old, hold, hholds⟩ := ht _ s hs
  rw [ht.value?_name hs, hold] at happly
  refine answers_of_aim haim hold (happly.trans ?_)
  by_cases hsame : v = old
  · simp [hsame, htype]
  · simp [hsame, Ne.symm hsame, htrigger old hholds hsame]

private theorem answers_digital (name : String) (n : Int) : m.Answers (.digital name n) := by
  have happly : m.apply (.digital name n) = m.setDigital name n := rfl
  unfold setDigital at happly
  rcases m.input_cases name [.digitalInput] with ⟨s, hs, hinput⟩ | ⟨hnone, text, hinput⟩
  · rw [hinput] at happly
    obtain ⟨hsignal, hmem⟩ := inputOf?_eq_some hs
    have htype : s.type = .digitalInput := by simpa using hmem
    have haim : m.aim? (.digital name n) = some (s, s.coerce (.number n)) := by simp [aim?, hs]
    refine answers_of_change ht hsignal (by simp [htype]) haim (fun old hold hne => ?_) happly
    exact trigger_of_digital htype hold (s.holds_coerce _) hne
  · rw [hinput] at happly
    exact answers_of_no_aim (by simp [aim?, hnone]) happly

private theorem answers_analog (name : String) (n : Int) : m.Answers (.analog name n) := by
  have happly : m.apply (.analog name n) = m.setAnalog name n := rfl
  unfold setAnalog at happly
  rcases m.input_cases name [.analogInput] with ⟨s, hs, hinput⟩ | ⟨hnone, text, hinput⟩
  · rw [hinput] at happly
    obtain ⟨hsignal, hmem⟩ := inputOf?_eq_some hs
    have htype : s.type = .analogInput := by simpa using hmem
    have haim : m.aim? (.analog name n) = some (s, s.coerce (.number n)) := by simp [aim?, hs]
    refine answers_of_change ht hsignal (by simp [htype]) haim (fun old _ _ => ?_) happly
    exact trigger_of_not_digital (by simp [htype])
  · rw [hinput] at happly
    exact answers_of_no_aim (by simp [aim?, hnone]) happly

private theorem answers_string {name text : String} {s : Signal}
    (hs : m.inputOf? name [.stringInput, .bufferInput] = some s) (htype : s.type = .stringInput)
    (happly : m.apply (.serial name text) =
      if (s.coerce (.text text)).toText = ((m.signals.value? s.name).map Value.toText).getD ""
      then m else m.drive s (s.coerce (.text text)) .change) : m.Answers (.serial name text) := by
  obtain ⟨hsignal, -⟩ := inputOf?_eq_some hs
  have haim : m.aim? (.serial name text) = some (s, s.coerce (.text text)) := by
    simp [aim?, hs, htype]
  refine answers_of_change ht hsignal (by simp [htype]) haim
    (fun old _ _ => trigger_of_not_digital (by simp [htype])) (happly.trans ?_)
  -- Both texts are kept as texts, so that comparing them as such is comparing the values.
  have htext {v : Value} (hv : s.Holds v) : v = .text v.toText := by
    unfold Signal.Holds at hv
    rw [htype] at hv
    cases v with
    | number n => exact absurd hv id
    | text t => rfl
  obtain ⟨-, old, hold, hholds⟩ := ht _ s hsignal
  rw [ht.value?_name hsignal, hold, htext hholds, htext (s.holds_coerce (.text text))]
  simp [Value.toText, eq_comm]

private theorem answers_serial (name text : String) : m.Answers (.serial name text) := by
  have happly : m.apply (.serial name text) = m.setSerial name text := rfl
  unfold setSerial at happly
  rcases m.input_cases name [.stringInput, .bufferInput] with
    ⟨s, hs, hinput⟩ | ⟨hnone, notice, hinput⟩
  · rw [hinput] at happly
    obtain ⟨hsignal, hmem⟩ := inputOf?_eq_some hs
    by_cases htype : s.type = .bufferInput
    · obtain ⟨-, old, hold, hholds⟩ := ht _ s hsignal
      have haim : m.aim? (.serial name text) =
          some (s, s.coerce (.text (m.textOf s ++ text))) := by simp [aim?, hs, htype]
      refine answers_of_aim haim hold (happly.trans ?_)
      rw [trigger_of_not_digital (by simp [htype])]
      simp [htype, textOf, ht.value?_name hsignal]
    · have hstring : s.type = .stringInput := by simpa [htype] using hmem
      simp only [if_neg htype] at happly
      exact answers_string ht hs hstring happly
  · rw [hinput] at happly
    exact answers_of_no_aim (by simp [aim?, hnone]) happly

theorem answers_edge (stimulus : Stimulus) : m.Answers stimulus := by
  cases stimulus with
  | digital name n => exact answers_digital ht name n
  | analog name n => exact answers_analog ht name n
  | serial name text => exact answers_serial ht name text
  | stop => exact .stop rfl

end Typed

end Machine

end ControlLogic
