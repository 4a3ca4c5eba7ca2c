import ControlLogic.Network.Basic
import ControlLogic.Proofs.IdTable

/-!
Sockets and their states. In a network whose sockets are filed under their own numbers, each
operation replaces one socket at most; a socket that is connected, or about to be, stays so until it
is closed, and is not connected a second time.
-/

set_option autoImplicit false
set_option relaxedAutoImplicit false

namespace ControlLogic

def Socket.IsOpen (s : Socket) : Prop :=
  s.status = .connecting ∨ s.status = .connected

namespace Network

def Orderly (net : Network) : Prop :=
  ∀ (id : Int) (s : Socket), net.socket? id = some s → s.id = id

def IsOpen (net : Network) (id : Int) : Prop :=
  ∃ s, net.socket? id = some s ∧ s.IsOpen

/-- Nothing changes, or the socket of a number is replaced by one that stays filed there. -/
def Replaces (net : Network) (id : Int) (P : Socket → Socket → Prop) (net' : Network) : Prop :=
  net' = net ∨ ∃ s s', net.socket? id = some s ∧ net' = net.put s' ∧ s'.id = s.id ∧ P s s'

/-- Sockets are added one after another. -/
inductive Grows (net : Network) : Network → Prop where
  | refl : Grows net net
  | create {net' : Network} (h : Grows net net') (protocol : Protocol) (role : SocketRole) :
    Grows net (net'.create protocol role).2

theorem Grows.trans {a b c : Network} (h : a.Grows b) (h' : b.Grows c) : a.Grows c := by
  induction h' with
  | refl => exact h
  | create _ protocol role ih => exact ih.create protocol role

theorem orderly_of_empty {net : Network} (h : net.sockets = {}) : net.Orderly := by
  intro id s hs
  unfold socket? IdTable.get? at hs
  rw [h] at hs
  split at hs
  · cases hs
  · simp at hs

theorem Orderly.create {net : Network} (h : net.Orderly) (protocol : Protocol)
    (role : SocketRole) : (net.create protocol role).2.Orderly := by
  unfold Network.create
  split
  · exact h
  · intro id s hs
    obtain ⟨rfl, rfl⟩ | hbefore := IdTable.get?_insert hs
    · rfl
    · exact h id s hbefore

theorem Orderly.grows {net net' : Network} (h : net.Orderly) (hgrows : net.Grows net') :
    net'.Orderly := by
  induction hgrows with
  | refl => exact h
  | create _ protocol role ih => exact ih.create protocol role

theorem Orderly.socket?_put {net : Network} (h : net.Orderly) {id : Int} {s s' : Socket}
    (hs : net.socket? id = some s) (hid : s'.id = s.id) (k : Int) :
    (net.put s').socket? k = if id = k then some s' else net.socket? k := by
  obtain rfl : s'.id = id := hid.trans (h id s hs)
  exact net.sockets.get?_set (Option.isSome_iff_exists.mpr ⟨s, hs⟩) s' k

theorem Orderly.replaces {net net' : Network} {id : Int} {P : Socket → Socket → Prop}
    (h : net.Orderly) (hchange : net.Replaces id P net') : net'.Orderly := by
  obtain rfl | ⟨s, s', hs, rfl, hid, -⟩ := hchange
  · exact h
  · intro k t ht
    rw [h.socket?_put hs hid] at ht
    split at ht
    next hself =>
      cases ht
      exact (hid.trans (h id s hs)).trans hself
    next => exact h k t ht

theorem IsOpen.replaces {net net' : Network} {id k : Int} {P : Socket → Socket → Prop}
    (hopen : net.IsOpen k) (h : net.Orderly) (hchange : net.Replaces id P net')
    (hkept : id = k → ∀ {s s' : Socket}, P s s' → s.IsOpen → s'.IsOpen) : net'.IsOpen k := by
  obtain rfl | ⟨s, s', hs, rfl, hid, hP⟩ := hchange
  · exact hopen
  · obtain ⟨t, ht, htopen⟩ := hopen
    by_cases hself : id = k
    · subst hself
      cases hs.symm.trans ht
      exact ⟨s', (h.socket?_put hs hid id).trans (if_pos rfl), hkept rfl hP htopen⟩
    · exact ⟨t, ((h.socket?_put hs hid k).trans (if_neg hself)).trans ht, htopen⟩

private theorem connect_cases (net : Network) (id : Int) (address : String) (port : Int) :
    ((net.connect id address port).1 ≠ 0 ∧ (net.connect id address port).2 = net) ∨
      ∃ s s', net.socket? id = some s ∧ ¬ s.IsOpen ∧
        net.connect id address port = (0, net.put s') ∧ s'.id = s.id ∧
        s'.status = .connecting := by
  unfold connect
  split
  next p s hport hsocket =>
    split
    · exact .inl ⟨by simp, rfl⟩
    next hstatus => exact .inr ⟨s, _, hsocket, hstatus, rfl, rfl, rfl⟩
  next => exact .inl ⟨by simp, rfl⟩

theorem disconnect_cases (net : Network) (id : Int) :
    ((net.disconnect id).1 ≠ 0 ∧ (net.disconnect id).2 = net) ∨
      ∃ s, net.socket? id = some s ∧
        net.disconnect id = (0, net.put { s with status := .closed }) := by
  unfold disconnect
  split
  next s hsocket =>
    split
    · exact .inl ⟨by simp, rfl⟩
    next hstatus => exact .inr ⟨s, hsocket, rfl⟩
  next => exact .inl ⟨by simp, rfl⟩

theorem connect_refused {net : Network} {id : Int} {address : String} {port : Int}
    (h : (net.connect id address port).1 ≠ 0) : (net.connect id address port).2 = net := by
  obtain ⟨-, hsame⟩ | ⟨s, s', -, -, hstarted, -⟩ := net.connect_cases id address port
  · exact hsame
  · rw [hstarted] at h
    exact absurd rfl h

theorem disconnect_refused {net : Network} {id : Int} (h : (net.disconnect id).1 ≠ 0) :
    (net.disconnect id).2 = net := by
  obtain ⟨-, hsame⟩ | ⟨s, -, hclosed⟩ := net.disconnect_cases id
  · exact hsame
  · rw [hclosed] at h
    exact absurd rfl h

theorem not_isOpen_of_connect {net : Network} {id : Int} {address : String} {port : Int}
    (h : (net.connect id address port).1 = 0) : ¬ net.IsOpen id := by
  obtain ⟨hrefused, -⟩ | ⟨s, s', hs, hclosed, -⟩ := net.connect_cases id address port
  · exact absurd h hrefused
  · rintro ⟨t, ht, hopen⟩
    cases hs.symm.trans ht
    exact hclosed hopen

theorem status_of_socket? {net : Network} {id : Int} {s : Socket} (h : net.socket? id = some s) :
    net.status id = s.status := by
  unfold status
  rw [h]
  rfl

theorem isOpen_of_connecting {net : Network} {id : Int} (h : net.status id = .connecting) :
    net.IsOpen id := by
  cases hs : net.socket? id with
  | none =>
    unfold status at h
    rw [hs] at h
    cases h
  | some s => exact ⟨s, hs, .inl ((status_of_socket? hs).symm.trans h)⟩

private theorem Orderly.status_put {net : Network} (h : net.Orderly) {id : Int} {s : Socket}
    (hs : net.socket? id = some s) (s' : Socket) (hid : s'.id = s.id) :
    (net.put s').status id = s'.status :=
  status_of_socket? ((h.socket?_put hs hid id).trans (if_pos rfl))

theorem Orderly.status_connect {net : Network} (hnet : net.Orderly) {id : Int} {address : String}
    {port : Int} (h : (net.connect id address port).1 = 0) :
    (net.connect id address port).2.status id = .connecting := by
  obtain ⟨hrefused, -⟩ | ⟨s, s', hs, -, hstarted, hid, hstatus⟩ :=
      net.connect_cases id address port
  · exact absurd h hrefused
  · rw [hstarted]
    exact (hnet.status_put hs s' hid).trans hstatus

theorem Orderly.status_completeConnect {net : Network} (hnet : net.Orderly) {id : Int}
    (h : net.status id = .connecting) : (net.completeConnect id).2.status id = .connected := by
  obtain ⟨s, hs, -⟩ := isOpen_of_connecting h
  have hstatus : s.status = .connecting := (status_of_socket? hs).symm.trans h
  have hput : net.completeConnect id = (true, net.put { s with status := .connected }) := by
    unfold completeConnect
    rw [hs]
    exact if_pos hstatus
  rw [hput]
  exact hnet.status_put hs { s with status := .connected } rfl

/-- Nothing changes, or a socket is replaced by one that is open if it was. -/
def Serves (net : Network) (id : Int) (net' : Network) : Prop :=
  net.Replaces id (fun s s' => s.IsOpen → s'.IsOpen) net'

theorem serves_connect (net : Network) (id : Int) (address : String) (port : Int) :
    net.Serves id (net.connect id address port).2 := by
  obtain ⟨-, hsame⟩ | ⟨s, s', hs, -, hstarted, hid, hstatus⟩ :=
      net.connect_cases id address port
  · exact .inl hsame
  · rw [hstarted]
    exact .inr ⟨s, s', hs, rfl, hid, fun _ => .inl hstatus⟩

theorem serves_completeConnect (net : Network) (id : Int) :
    net.Serves id (net.completeConnect id).2 := by
  unfold completeConnect
  split
  next s hs =>
    split
    · exact .inr ⟨s, _, hs, rfl, rfl, fun _ => .inr rfl⟩
    · exact .inl rfl
  next => exact .inl rfl

theorem serves_listen (net : Network) (id port : Int) : net.Serves id (net.listen id port).2 := by
  unfold listen
  split
  next p s hport hs => exact .inr ⟨s, _, hs, rfl, rfl, fun _ => .inr rfl⟩
  next => exact .inl rfl

theorem serves_enableUdp (net : Network) (id : Int) (address : String) (port : Int) :
    net.Serves id (net.enableUdp id address port).2 := by
  unfold enableUdp
  split
  next p s hport hs => exact .inr ⟨s, _, hs, rfl, rfl, fun _ => .inr rfl⟩
  next => exact .inl rfl

theorem serves_send (net : Network) (id : Int) (data : String) :
    net.Serves id (net.send id data).2.2 := by
  unfold send
  split
  next s hs =>
    split
    · exact .inr ⟨s, _, hs, rfl, rfl, fun hopen => hopen⟩
    · exact .inl rfl
  next => exact .inl rfl

theorem serves_deliver (net : Network) (id : Int) (data : String) :
    net.Serves id (net.deliver id data).2 := by
  unfold deliver
  split
  next s hs =>
    split
    · exact .inr ⟨s, _, hs, rfl, rfl, fun hopen => hopen⟩
    · exact .inl rfl
  next => exact .inl rfl

theorem replaces_disconnect (net : Network) (id : Int) :
    net.Replaces id (fun _ _ => True) (net.disconnect id).2 := by
  obtain ⟨-, hsame⟩ | ⟨s, hs, hclosed⟩ := net.disconnect_cases id
  · exact .inl hsame
  · rw [hclosed]
    exact .inr ⟨s, _, hs, rfl, rfl, trivial⟩

end Network

end ControlLogic
