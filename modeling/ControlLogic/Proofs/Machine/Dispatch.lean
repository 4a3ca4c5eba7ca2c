import ControlLogic.Proofs.Machine.Chronicle
import ControlLogic.Proofs.Machine.Renewal

/-!
Handlers run on the edges of inputs. The value of an input that only a host can change is the one
its latest edge has left, whatever code does in the meantime. So each edge begins where the one
before has ended, and digital inputs are pushed and released by turns.
-/

set_option autoImplicit false
set_option relaxedAutoImplicit false

namespace ControlLogic

namespace Incident

/-- The edges since a program was loaded or forgotten last, the latest first. -/
def edges : List Incident → List Edge
  | [] => []
  | call _ edge :: past => edge.toList ++ edges past
  | begin _ :: past => edges past
  | load _ :: _ => []
  | reset :: _ => []

def edgesOf (s : Signal) (past : List Incident) : List Edge :=
  (edges past).filter fun e => e.signal = s

/-- The triggers of the edges of a signal, in the order of time. -/
def triggersOf (s : Signal) (past : List Incident) : List Trigger :=
  (edgesOf s past).reverse.map Edge.trigger

end Incident

namespace Signal

/-- The value of a signal after some edges of it, the latest first. -/
def valueAfter (s : Signal) (edges : List Edge) : Value :=
  (edges.head?.map Edge.new).getD s.initial

/-- Edges of a signal, the latest first, each of which changes the value that the one before has
left. -/
inductive Linked (s : Signal) : List Edge → Prop where
  | nil : s.Linked []
  | cons {e : Edge} {edges : List Edge} (signal : e.signal = s) (old : e.old = s.valueAfter edges)
    (new : s.Holds e.new) (changes : e.new ≠ e.old) (earlier : s.Linked edges) :
    s.Linked (e :: edges)

namespace Linked

variable {s : Signal} (htype : s.type = .digitalInput)
include htype

private theorem valueAfter_eq {edges : List Edge} (h : s.Linked edges) :
    s.valueAfter edges = .number ((edges.length % 2 : Nat) : Int) := by
  induction h with
  | nil =>
    unfold valueAfter initial
    rw [htype]
    rfl
  | @cons e edges signal old new changes earlier ih =>
    have hnew : s.valueAfter (e :: edges) = e.new := rfl
    rw [old, ih] at changes
    rw [hnew, List.length_cons]
    rcases bit_of_holds htype new with hbit | hbit <;>
    · rw [hbit] at changes ⊢
      simp only [ne_eq, Value.number.injEq] at changes ⊢
      omega

theorem triggers {edges : List Edge} (h : s.Linked edges) :
    edges.reverse.map Edge.trigger =
      (List.range edges.length).map fun i => if i % 2 = 0 then .push else .release := by
  induction h with
  | nil => rfl
  | @cons e edges signal old new changes earlier ih =>
    have hlast : e.trigger = if edges.length % 2 = 0 then .push else .release := by
      have hturned := (Linked.cons signal old new changes earlier).valueAfter_eq htype
      have hnew : e.new = .number (((edges.length + 1) % 2 : Nat) : Int) := hturned
      rw [earlier.valueAfter_eq htype] at old
      obtain ⟨s', o, n⟩ := e
      simp only at signal old hnew
      subst signal
      subst old
      subst hnew
      rcases Nat.mod_two_eq_zero_or_one edges.length with heven | hodd
      · simp [Edge.trigger, htype, heven, Nat.add_mod]
      · simp [Edge.trigger, htype, hodd, Nat.add_mod]
    rw [List.reverse_cons, List.map_append, ih, List.length_cons, List.range_succ,
      List.map_append, List.map_singleton, List.map_singleton, hlast]

end Linked

end Signal

/-- What is on record of inputs is how they stand. -/
structure Machine.Follows (m : Machine) (past : List Incident) : Prop where
  typed : m.signals.Typed
  values {key : String} {s : Signal} (hs : m.signals.declared[key]? = some s)
    (hheld : s.type.isHeld = true) :
    m.signals.valueOf? s = some (s.valueAfter (Incident.edgesOf s past))
  linked {s : Signal} (hheld : s.type.isHeld = true) : s.Linked (Incident.edgesOf s past)

namespace Machine

open Incident

private theorem follows_of_fresh {m : Machine} {past : List Incident} (ht : m.signals.Typed)
    (hfresh : m.signals.Fresh) (hnone : edges past = []) : m.Follows past := by
  have hnoneOf (s : Signal) : edgesOf s past = [] := by
    unfold edgesOf
    rw [hnone]
    rfl
  refine ⟨ht, fun {key s} hs _ => ?_, fun {s} _ => ?_⟩
  · rw [hnoneOf]
    exact hfresh key s hs
  · rw [hnoneOf]
    exact .nil

theorem Follows.keeps {m m' : Machine} {past past' : List Incident} (h : m.Follows past)
    (hkeeps : m.KeepsInputs m') (hsame : edges past' = edges past) : m'.Follows past' := by
  have hsameOf (s : Signal) : edgesOf s past' = edgesOf s past := by
    unfold edgesOf
    rw [hsame]
  refine ⟨hkeeps.typed h.typed, fun {key s} hs hheld => ?_, fun {s} hheld => ?_⟩
  · rw [hkeeps.declared] at hs
    rw [hkeeps.values h.typed hs hheld, hsameOf]
    exact h.values hs hheld
  · rw [hsameOf]
    exact h.linked hheld

theorem Follows.edge {m : Machine} {past : List Incident} (h : m.Follows past)
    {stimulus : Stimulus} {e : Edge} (he : m.edge? stimulus = some e) :
    (m.keepInput e.signal e.new).Follows (.call stimulus (some e) :: past) := by
  obtain ⟨⟨name, hsignal⟩, hold, hnew, hchanges⟩ := edge?_eq_some he
  have hsignals := m.signals_keepInput e.signal e.new
  have hedges (s : Signal) : edgesOf s (.call stimulus (some e) :: past) =
      if e.signal = s then e :: edgesOf s past else edgesOf s past := by
    simp only [edgesOf, edges, Option.toList_some, List.singleton_append, List.filter_cons,
      decide_eq_true_eq]
  refine ⟨?_, fun {key s} hs hheld => ?_, fun {s} hheld => ?_⟩
  · rw [hsignals]
    exact h.typed.store hsignal hnew
  · rw [hsignals] at hs ⊢
    have hs : m.signals.declared[key]? = some s := hs
    rw [hedges]
    split
    next hsame =>
      subst hsame
      rw [SignalTable.valueOf?_store_self]
      rfl
    next hne =>
      rw [h.typed.valueOf?_store_of_ne hsignal hs hne]
      exact h.values hs hheld
  · rw [hedges]
    split
    next hsame =>
      subst hsame
      have hvalue := h.values hsignal hheld
      rw [hold] at hvalue
      refine .cons rfl (Option.some.inj hvalue) hnew ?_ (h.linked hheld)
      refine hchanges.resolve_left fun hbuffer => ?_
      rw [hbuffer] at hheld
      cases hheld
    next => exact h.linked hheld

end Machine

theorem Turn.keepsInputs {s s' : Moment} (h : Turn s none s') :
    s.machine.KeepsInputs s'.machine := by
  cases h with
  | code m k hx => exact hx.keepsInputs m
  | _ => exact Machine.keepsInputs_of_eq rfl

theorem Turn.follows {s s' : Moment} {incident : Option Incident} {past : List Incident}
    (h : Turn s incident s') (hs : s.machine.Follows past) :
    s'.machine.Follows (incident.toList ++ past) := by
  cases incident with
  | none => exact hs.keeps h.keepsInputs rfl
  | some incident =>
    cases h with
    | beginWait k hw => exact hs.keeps (Machine.keepsInputs_of_eq rfl) rfl
    | call m k stimulus =>
      cases he : m.edge? stimulus with
      | none => exact hs.keeps (Machine.keepsInputs_of_eq rfl) rfl
      | some e => exact hs.edge he
    | load m text =>
      exact Machine.follows_of_fresh (m.typed_load text).signals (m.fresh_load text) rfl
    | reset m =>
      exact Machine.follows_of_fresh m.typed_reset.signals SignalTable.fresh_empty rfl

theorem Chronicle.follows {config : Settings} {past : List Incident} {s : Moment}
    (h : Chronicle ⟨.new config, []⟩ past s) : s.machine.Follows past := by
  induction h with
  | nil => exact Machine.follows_of_fresh SignalTable.typed_empty SignalTable.fresh_empty rfl
  | turn _ hturn ih => exact hturn.follows ih

/--
Whatever a host does, with whatever program, goes along a chronicle. At every moment of every
chronicle a stimulus runs the handlers that answer its edge, one after another in the order of the
program, if it has an edge, and none otherwise; and the chronicle goes on with the stimulus and its
edge on record. Inputs that are no buffers have the value that their latest edge since the program
was loaded has left, or their initial one. And the triggers of the edges of a digital input are push
and release by turns, beginning with a push.
-/
theorem handlers_answer_edges (config : Settings) :
    let origin : Moment := ⟨Machine.new config, []⟩
    (∀ actions : List HostAction, ∃ past,
      Chronicle origin past ⟨(Machine.new config).afterActions actions, []⟩) ∧
    ∀ (past : List Incident) (s : Moment), Chronicle origin past s →
      (∀ stimulus : Stimulus, s.machine.Answers stimulus ∧ ∃ later,
        Chronicle origin (later ++ .call stimulus (s.machine.edge? stimulus) :: past)
          ⟨s.machine.apply stimulus, s.around⟩) ∧
      (∀ (name : String) (signal : Signal), s.machine.signals.signal? name = some signal →
        signal.type.isHeld = true →
          s.machine.signals.valueOf? signal =
            some (signal.valueAfter (Incident.edgesOf signal past))) ∧
      ∀ signal : Signal, signal.type = .digitalInput →
        Incident.triggersOf signal past =
          (List.range (Incident.edgesOf signal past).length).map fun i =>
            if i % 2 = 0 then .push else .release := by
  intro origin
  refine ⟨Machine.chronicle_afterActions config, fun past s hpast => ?_⟩
  have hfollows := hpast.follows
  refine ⟨fun stimulus => ⟨Machine.answers_edge hfollows.typed stimulus, ?_⟩, ?_,
    fun signal htype => ?_⟩
  · exact ⟨[], hpast.trans (Machine.chronicle_apply hfollows.typed stimulus s.around)⟩
  · intro name signal hs hheld
    exact hfollows.values hs hheld
  · have hheld : signal.type.isHeld = true := by rw [htype]; rfl
    exact (hfollows.linked hheld).triggers htype

open Machine in
/-- A program is loaded, and its digital input is pushed and released. -/
theorem handlers_answer_push_and_release :
    ∃ past s, Chronicle ⟨Machine.new {}, []⟩ past s ∧
      s.machine.signals.signal? "a" = some renewalInput ∧
      (∀ stimulus, s.machine.Answers stimulus) ∧
      s.machine.signals.valueOf? renewalInput = some (.number 0) ∧
      Incident.triggersOf renewalInput past = [.push, .release] := by
  obtain ⟨q, hloaded⟩ := (Machine.new {}).loaded_load
  have hload := Chronicle.single (.load (Machine.new {}) renewalText)
  generalize ((Machine.new {}).load renewalText).2 = m at hloaded hload
  have hpush : m.edge? (.digital "a" 1) = some ⟨renewalInput, .number 0, .number 1⟩ := hloaded.edge
  have hpushed := m.signals_keepInput renewalInput (.number 1)
  have hchronicle := hload.turn (.call m [] (.digital "a" 1))
  rw [hpush, keepEdge] at hchronicle
  generalize m.keepInput renewalInput (.number 1) = pushed at hpushed hchronicle
  have hrelease : pushed.edge? (.digital "a" 0) = some ⟨renewalInput, .number 1, .number 0⟩ := by
    refine edge?_digital ?_ rfl ?_ (by decide)
    · rw [hpushed, SignalTable.signal?_store]
      exact hloaded.signal
    · rw [hpushed]
      exact m.signals.valueOf?_store_self renewalInput (.number 1)
  have hchronicle := hchronicle.turn (.call pushed [] (.digital "a" 0))
  rw [hrelease, keepEdge] at hchronicle
  have hsignal : (pushed.keepInput renewalInput (.number 0)).signals.signal? "a" =
      some renewalInput := by
    rw [pushed.signals_keepInput, hpushed, SignalTable.signal?_store, SignalTable.signal?_store]
    exact hloaded.signal
  obtain ⟨hanswers, hvalue, htriggers⟩ := (handlers_answer_edges {}).2 _ _ hchronicle
  exact ⟨_, _, hchronicle, hsignal, fun stimulus => (hanswers stimulus).1,
    hvalue "a" renewalInput hsignal rfl, htriggers renewalInput rfl⟩

end ControlLogic
