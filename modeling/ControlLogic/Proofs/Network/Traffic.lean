import ControlLogic.Proofs.Network.Sockets

/-!
What the operations of a network do to the texts sockets have received and to which sockets are
connected. A text is received by a socket that is connected and by no other; a socket gets connected
when its connection is complete, when it listens and when it is made ready for datagrams, and stays
so until it is closed.
-/

set_option autoImplicit false
set_option relaxedAutoImplicit false

namespace ControlLogic

namespace Network

/-- What the socket of a number has received, in order. -/
def received (net : Network) (id : Int) : List String :=
  ((net.socket? id).map Socket.received).getD []

/-- The socket of a number gets connected. -/
inductive Opens (net : Network) (id : Int) : Network → Prop where
  | complete (h : (net.completeConnect id).1 = true) : Opens net id (net.completeConnect id).2
  | listen {port : Int} (h : (net.listen id port).1 = 0) : Opens net id (net.listen id port).2
  | enableUdp {address : String} {port : Int} (h : (net.enableUdp id address port).1 = 0) :
    Opens net id (net.enableUdp id address port).2

/-- The sockets are filed under their own numbers; they have received what is said, and those are
connected of which it is said. -/
structure Shows (net : Network) (texts : Int → List String) (connected : Int → Prop) : Prop where
  orderly : net.Orderly
  received (id : Int) : net.received id = texts id
  connected (id : Int) : net.status id = .connected ↔ connected id

/-- Sockets have received what they had, and are connected if they were. -/
def Undisturbed (net net' : Network) : Prop :=
  ∀ {texts : Int → List String} {connected : Int → Prop}, net.Shows texts connected →
    net'.Shows texts connected

private theorem received_of_socket? {net : Network} {id : Int} {s : Socket}
    (h : net.socket? id = some s) : net.received id = s.received := by
  unfold received
  rw [h]
  rfl

private theorem connected_iff {net : Network} {id : Int} :
    net.status id = .connected ↔ ∃ s, net.socket? id = some s ∧ s.status = .connected := by
  unfold status
  cases net.socket? id with
  | none => simp
  | some s => simp

theorem Shows.put {net : Network} {texts : Int → List String} {connected : Int → Prop}
    (h : net.Shows texts connected) {id : Int} {s : Socket} (hs : net.socket? id = some s)
    (s' : Socket) (hid : s'.id = s.id) :
    (net.put s').Shows (fun k => if id = k then s'.received else texts k)
      (fun k => if id = k then s'.status = .connected else connected k) := by
  have hsocket := h.orderly.socket?_put hs hid
  have hreplaces : net.Replaces id (fun _ _ => True) (net.put s') :=
    .inr ⟨s, s', hs, rfl, hid, trivial⟩
  refine ⟨h.orderly.replaces hreplaces, fun k => ?_, fun k => ?_⟩
  · unfold Network.received
    rw [hsocket]
    split
    · rfl
    · exact h.received k
  · unfold status
    rw [hsocket]
    split
    · rfl
    · exact h.connected k

theorem Shows.congr {net : Network} {texts texts' : Int → List String}
    {connected connected' : Int → Prop} (h : net.Shows texts connected)
    (htexts : ∀ k, texts k = texts' k) (hconnected : ∀ k, connected k ↔ connected' k) :
    net.Shows texts' connected' :=
  ⟨h.orderly, fun k => (h.received k).trans (htexts k),
    fun k => (h.connected k).trans (hconnected k)⟩

private theorem Shows.put_same {net : Network} {texts : Int → List String} {connected : Int → Prop}
    (h : net.Shows texts connected) {id : Int} {s : Socket} (hs : net.socket? id = some s)
    (s' : Socket) (hid : s'.id = s.id) (hincoming : s'.incoming = s.incoming) :
    (net.put s').Shows texts
      (fun k => if id = k then s'.status = .connected else connected k) := by
  have hput := h.put hs s' hid
  refine ⟨hput.orderly, fun k => (hput.received k).trans ?_, hput.connected⟩
  split
  next hself =>
    subst hself
    rw [← h.received id, received_of_socket? hs]
    exact congrArg List.reverse hincoming
  next => rfl

private theorem undisturbed_of_replaces {net net' : Network} (id : Int)
    (h : net.Replaces id (fun s s' => s'.incoming = s.incoming ∧
      (s'.status = .connected ↔ s.status = .connected)) net') : net.Undisturbed net' := by
  intro texts connected hnet
  obtain rfl | ⟨s, s', hs, rfl, hid, hincoming, hstatus⟩ := h
  · exact hnet
  · refine (hnet.put_same hs s' hid hincoming).congr (fun _ => rfl) fun k => ?_
    split
    next hself =>
      subst hself
      rw [← hnet.connected id, status_of_socket? hs]
      exact hstatus
    next => rfl

theorem undisturbed_refl (net : Network) : net.Undisturbed net :=
  fun h => h

theorem undisturbed_of_sockets {net net' : Network} (h : net'.sockets = net.sockets) :
    net.Undisturbed net' := by
  intro texts connected hnet
  have hsocket (k : Int) : net'.socket? k = net.socket? k := by
    unfold socket?
    rw [h]
  refine ⟨fun k s hs => hnet.orderly k s ((hsocket k).symm.trans hs), fun k => ?_, fun k => ?_⟩
  · rw [← hnet.received k]
    unfold Network.received
    rw [hsocket]
  · rw [← hnet.connected k]
    unfold status
    rw [hsocket]

theorem undisturbed_connect (net : Network) (id : Int) (address : String) (port : Int) :
    net.Undisturbed (net.connect id address port).2 := by
  refine undisturbed_of_replaces id ?_
  unfold connect
  split
  next p s hport hs =>
    split
    · exact .inl rfl
    next hclosed => exact .inr ⟨s, _, hs, rfl, rfl, rfl, by simp_all⟩
  next => exact .inl rfl

theorem undisturbed_send (net : Network) (id : Int) (data : String) :
    net.Undisturbed (net.send id data).2.2 := by
  refine undisturbed_of_replaces id ?_
  unfold send
  split
  next s hs =>
    split
    · exact .inr ⟨s, _, hs, rfl, rfl, rfl, .rfl⟩
    · exact .inl rfl
  next => exact .inl rfl

theorem send_answer {net : Network} {id : Int} {data answer : String}
    (h : (net.send id data).2.1 = some answer) :
    net.status id = .connected ∧ answer ≠ "" := by
  unfold send at h
  split at h
  next s hs =>
    split at h
    next hstatus =>
      obtain ⟨-, hanswer⟩ := Option.filter_eq_some_iff.mp h
      exact ⟨connected_iff.mpr ⟨s, hs, hstatus⟩, by simpa using hanswer⟩
    next => cases h
  next => cases h

theorem deliver_eq_true {net : Network} {id : Int} {data : String} :
    (net.deliver id data).1 = true ↔ net.status id = .connected := by
  rw [connected_iff]
  unfold deliver
  cases hs : net.socket? id with
  | none => simp
  | some s =>
    by_cases hstatus : s.status = .connected
    · simp [hstatus]
    · simp [hstatus]

theorem deliver_refused {net : Network} {id : Int} {data : String}
    (h : ¬ (net.deliver id data).1 = true) : (net.deliver id data).2 = net := by
  unfold deliver at h ⊢
  split
  · split
    · simp_all
    · rfl
  · rfl

theorem Shows.deliver {net : Network} {texts : Int → List String} {connected : Int → Prop}
    (h : net.Shows texts connected) (id : Int) (data : String) :
    (net.deliver id data).2.Shows
      (fun k => if id = k ∧ (net.deliver id data).1 = true then texts k ++ [data] else texts k)
      connected := by
  unfold Network.deliver
  split
  next s hs =>
    split
    next hstatus =>
      have hput := h.put hs { s with incoming := data :: s.incoming } rfl
      refine ⟨hput.orderly, fun k => (hput.received k).trans ?_,
        fun k => (hput.connected k).trans ?_⟩
      · by_cases hself : id = k
        · subst hself
          rw [if_pos rfl, if_pos ⟨rfl, rfl⟩, ← h.received id, received_of_socket? hs]
          exact List.reverse_cons
        · rw [if_neg hself, if_neg fun hboth => hself hboth.1]
      · split
        next hself =>
          subst hself
          rw [← h.connected id, status_of_socket? hs]
        next => rfl
    next => simpa using h
  next => simpa using h

private theorem socket_of_opens {net net' : Network} {id : Int} (h : net.Opens id net') :
    ∃ s s', net.socket? id = some s ∧ net' = net.put s' ∧ s'.id = s.id ∧
      s'.incoming = s.incoming ∧ s'.status = .connected := by
  cases h with
  | complete hdone =>
    unfold completeConnect at hdone ⊢
    split at hdone
    next s hs =>
      split at hdone
      next hstatus =>
        rw [if_pos hstatus]
        exact ⟨s, { s with status := .connected }, hs, rfl, rfl, rfl, rfl⟩
      next => cases hdone
    next => cases hdone
  | listen hdone =>
    unfold listen at hdone ⊢
    split at hdone
    next p s hport hs =>
      exact ⟨s, { s with
        role := .server, localPort := p, remoteAddress := "0.0.0.0", status := .connected }, hs,
        rfl, rfl, rfl, rfl⟩
    next => simp at hdone
  | enableUdp hdone =>
    unfold enableUdp at hdone ⊢
    split at hdone
    next p s hport hs =>
      exact ⟨s, { s with
        protocol := .udp, remoteAddress := _, remotePort := p, localPort := p,
        status := .connected }, hs, rfl, rfl, rfl, rfl⟩
    next => simp at hdone

theorem Shows.opens {net net' : Network} {texts : Int → List String} {connected : Int → Prop}
    (h : net.Shows texts connected) {id : Int} (hopens : net.Opens id net') :
    net'.Shows texts (fun k => id = k ∨ connected k) := by
  obtain ⟨s, s', hs, rfl, hid, hincoming, hstatus⟩ := socket_of_opens hopens
  refine (h.put_same hs s' hid hincoming).congr (fun _ => rfl) fun k => ?_
  split
  next hself => simp [hself, hstatus]
  next hother => simp [hother]

theorem Shows.disconnect {net : Network} {texts : Int → List String} {connected : Int → Prop}
    (h : net.Shows texts connected) {id : Int} (hclosed : (net.disconnect id).1 = 0) :
    (net.disconnect id).2.Shows texts (fun k => id ≠ k ∧ connected k) := by
  obtain ⟨hrefused, -⟩ | ⟨s, hs, hdone⟩ := net.disconnect_cases id
  · exact absurd hclosed hrefused
  rw [hdone]
  refine (h.put_same hs { s with status := .closed } rfl rfl).congr (fun _ => rfl) fun k => ?_
  split
  next hself => simp [hself]
  next hother => simp [hother]

theorem listen_refused {net : Network} {id port : Int} (h : (net.listen id port).1 ≠ 0) :
    (net.listen id port).2 = net := by
  unfold listen at h ⊢
  split
  · simp_all
  · rfl

theorem enableUdp_refused {net : Network} {id : Int} {address : String} {port : Int}
    (h : (net.enableUdp id address port).1 ≠ 0) : (net.enableUdp id address port).2 = net := by
  unfold enableUdp at h ⊢
  split
  · simp_all
  · rfl

theorem completeConnect_refused {net : Network} {id : Int}
    (h : (net.completeConnect id).1 = false) : (net.completeConnect id).2 = net := by
  unfold completeConnect at h ⊢
  split
  · split
    · simp_all
    · rfl
  · rfl

theorem shows_of_grows {net net' : Network} (hempty : net.sockets = {}) (h : net.Grows net') :
    net'.Shows (fun _ => []) (fun _ => False) := by
  have hadded (k : Int) (s : Socket) : net'.socket? k = some s →
      s.incoming = [] ∧ s.status = .closed := by
    induction h generalizing s with
    | refl =>
      intro hs
      unfold socket? IdTable.get? at hs
      rw [hempty] at hs
      split at hs
      · cases hs
      · simp at hs
    | create _ protocol role ih =>
      unfold create
      split
      · exact ih s
      · intro hs
        obtain ⟨-, rfl⟩ | hbefore := IdTable.get?_insert hs
        · exact ⟨rfl, rfl⟩
        · exact ih s hbefore
  refine ⟨(orderly_of_empty hempty).grows h, fun k => ?_, fun k => ?_⟩
  · cases hs : net'.socket? k with
    | none =>
      unfold received
      rw [hs]
      rfl
    | some s =>
      rw [received_of_socket? hs]
      exact congrArg List.reverse (hadded k s hs).1
  · rw [connected_iff]
    refine ⟨?_, nofun⟩
    rintro ⟨s, hs, hconnected⟩
    cases (hadded k s hs).2.symm.trans hconnected

end Network

end ControlLogic
