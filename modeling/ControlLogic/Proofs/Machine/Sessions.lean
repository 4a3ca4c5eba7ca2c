import Mathlib.Data.List.Induction
import ControlLogic.Proofs.Machine.Replies

/-!
Replies and the connections they were asked for on. A reply is taken in by a socket that is
connected when it arrives. So a reply to a socket that was closed meanwhile is dropped, unless the
socket was connected anew: nothing ties a reply to the connection it was asked for on.
-/

set_option autoImplicit false
set_option relaxedAutoImplicit false

namespace ControlLogic

namespace Mail

private theorem exists_asked_of_mem_replies {delay : Nat} {socket : Int} {log : List Mail}
    {r : Reply}
    (h : r ∈ replies delay socket log) :
    ∃ earlier between now, log = earlier ++ .asked socket r.timer now r.text :: between ∧
      .forgotten ∉ between ∧ r.time = now + delay := by
  induction log using List.reverseRecOn with
  | nil => cases h
  | append_singleton log note ih =>
    have hkeep (hbefore : r ∈ replies delay socket log) (hnote : note ≠ .forgotten) :
        ∃ earlier between now,
          log ++ [note] = earlier ++ .asked socket r.timer now r.text :: between ∧
            .forgotten ∉ between ∧ r.time = now + delay := by
      obtain ⟨earlier, between, now, rfl, hnone, htime⟩ := ih hbefore
      refine ⟨earlier, between ++ [note], now, by simp, ?_, htime⟩
      simp only [List.mem_append, List.mem_singleton, not_or]
      exact ⟨hnone, hnote.symm⟩
    rw [replies_append_single] at h
    cases note with
    | asked s timer now text =>
      simp only [addReply] at h
      split at h
      next hself =>
        rcases List.mem_append.mp h with hbefore | hlast
        · exact hkeep hbefore nofun
        · rw [List.mem_singleton.mp hlast, hself]
          exact ⟨log, [], now, rfl, List.not_mem_nil, rfl⟩
      next => exact hkeep h nofun
    | forgotten => cases h
    | arrived s timer now text taken => exact hkeep h nofun
    | opened s => exact hkeep h nofun
    | closed s => exact hkeep h nofun

private theorem isOpen_of_not_closed {socket : Int} {earlier between : List Mail}
    (hopen : isOpen socket earlier = true) (hclosed : .closed socket ∉ between)
    (hforgotten : .forgotten ∉ between) : isOpen socket (earlier ++ between) = true := by
  induction between using List.reverseRecOn with
  | nil =>
    rw [List.append_nil]
    exact hopen
  | append_singleton between note ih =>
    rw [List.mem_append, List.mem_singleton, not_or] at hclosed hforgotten
    rw [← List.append_assoc, isOpen_append_single, ih hclosed.1 hforgotten.1]
    cases note with
    | closed s =>
      have hother : ¬ s = socket := by
        rintro rfl
        exact hclosed.2 rfl
      exact if_neg hother
    | forgotten => exact absurd rfl hforgotten.2
    | opened s => exact ite_self _
    | asked s timer now text => rfl
    | arrived s timer now text taken => rfl

private theorem isOpen_of_not_opened {socket : Int} {earlier between : List Mail}
    (hopened : .opened socket ∉ between) :
    isOpen socket (earlier ++ .closed socket :: between) = false := by
  induction between using List.reverseRecOn with
  | nil =>
    rw [isOpen_append_single]
    exact if_pos rfl
  | append_singleton between note ih =>
    rw [List.mem_append, List.mem_singleton, not_or] at hopened
    rw [← List.cons_append, ← List.append_assoc, isOpen_append_single, ih hopened.1]
    cases note with
    | opened s =>
      have hother : ¬ s = socket := by
        rintro rfl
        exact hopened.2 rfl
      exact if_neg hother
    | closed s => exact ite_self _
    | forgotten => rfl
    | asked s timer now text => rfl
    | arrived s timer now text taken => rfl

end Mail

namespace Machine.Posts

variable {config : Settings} {m : Machine}

private theorem isOpen_of_asked {earlier later : List Mail} {socket : Int} {timer now : Nat}
    {text : String} (h : (new config).Posts (earlier ++ .asked socket timer now text :: later) m) :
    Mail.isOpen socket earlier = true := by
  obtain ⟨a, b, hbefore, hpost, -⟩ := h.split rfl
  cases hpost with
  | ask hanswer =>
    exact (hbefore.recorded.connected socket).mp (Network.send_answer hanswer).1

/-- A reply that arrives was asked for, just as long before as the settings say, and is taken in if
the socket is connected. -/
theorem arrived {before later : List Mail} {socket : Int} {timer now : Nat} {text : String}
    {taken : Bool}
    (h : (new config).Posts (before ++ .arrived socket timer now text taken :: later) m) :
    taken = Mail.isOpen socket before ∧
      ⟨timer, now, text⟩ ∈ Mail.replies config.responseDelay socket before := by
  obtain ⟨a, b, hbefore, hpost, -⟩ := h.split rfl
  obtain ⟨waiting, hkept⟩ := hbefore.kept socket
  cases hpost with
  | arrive hdue =>
    obtain ⟨rest, rfl⟩ := hkept.first hdue
    refine ⟨?_, hkept.mem_replies List.mem_cons_self⟩
    rw [Bool.eq_iff_iff, Network.deliver_eq_true]
    exact hbefore.recorded.connected socket

end Machine.Posts

/--
Whatever a host does, with whatever program, as long as it leaves the sockets alone, goes along a
course of steps on whose mail there is a record; and a reply that arrives on such a course was asked
for just as long before as the settings say, by a socket that was connected, and the program was not
forgotten since. It is taken in if the socket is connected when it arrives. So it is taken in if the
socket was not closed since, and is dropped without a trace if the socket was closed since and not
connected anew.
-/
theorem replies_outlive_sessions_only_if_reopened (config : Settings) (actions : List HostAction)
    (hactions : ∀ action ∈ actions, action.SparesSockets) :
    (∃ log, (Machine.new config).Posts log ((Machine.new config).afterActions actions)) ∧
    ∀ (log : List Mail) (m : Machine), (Machine.new config).Posts log m →
      (∀ socket, m.network.received socket = Mail.takenTexts socket log) ∧
      (∀ deadline timer socket text,
        (m.popDue deadline).1 = some (timer, .socketDeliver socket text) →
        Mail.isOpen socket log = false →
          (m.popDue deadline).2.runTask (.socketDeliver socket text) = (m.popDue deadline).2) ∧
      ∀ before later socket timer now text taken,
        log = before ++ .arrived socket timer now text taken :: later →
        taken = Mail.isOpen socket before ∧
        ∃ earlier between sent,
          before = earlier ++ .asked socket timer sent text :: between ∧
          .forgotten ∉ between ∧ now = sent + config.responseDelay ∧
          Mail.isOpen socket earlier = true ∧
          (.closed socket ∉ between → taken = true) ∧
          ∀ held since, between = held ++ .closed socket :: since → .opened socket ∉ since →
            taken = false := by
  refine ⟨Machine.posts_afterActions config hactions, fun log m hposts => ?_⟩
  refine ⟨hposts.recorded.received, fun deadline timer socket text hdue hclosed => ?_, ?_⟩
  · rw [m.runTask_socketDeliver, if_neg]
    rw [hposts.recorded.connected socket, hclosed]
    exact Bool.false_ne_true
  · intro before later socket timer now text taken hlog
    rw [hlog] at hposts
    obtain ⟨htaken, hmem⟩ := hposts.arrived
    obtain ⟨earlier, between, sent, rfl, hforgotten, htime⟩ :=
      Mail.exists_asked_of_mem_replies hmem
    rw [List.append_assoc, List.cons_append] at hposts
    have hopen := hposts.isOpen_of_asked
    refine ⟨htaken, earlier, between, sent, rfl, hforgotten, htime, hopen, ?_, ?_⟩
    · intro hclosed
      rw [htaken]
      refine Mail.isOpen_of_not_closed hopen ?_ ?_
      · simp [hclosed]
      · simp [hforgotten]
    · rintro held since rfl hopened
      rw [htaken, ← List.cons_append, ← List.append_assoc]
      exact Mail.isOpen_of_not_opened hopened

/-- A socket for datagrams is made ready for the device that echoes, sends a text and is closed: the
reply comes to nothing. -/
theorem reply_to_closed_socket_is_dropped :
    let declared := (Machine.new {}).reset.install
      { globals := [⟨.udpSocket, "u", none, none, ⟨1, 12⟩⟩] }
    let ready := { declared with network := (declared.network.enableUdp 0 "127.0.0.1" 7).2 }
    let asked := ready.ask 0 "a" "a"
    let closed := { asked with network := (asked.network.disconnect 0).2 }
    let log := [.forgotten, .opened 0, .asked 0 1 0 "a", .closed 0]
    (∀ action ∈ [HostAction.load "UDP_SOCKET u;", .settle], action.SparesSockets) ∧
    (Machine.new {}).Posts log closed ∧
    (closed.popDue 50).1 = some (1, .socketDeliver 0 "a") ∧ Mail.isOpen 0 log = false ∧
    (closed.popDue 50).2.runTask (.socketDeliver 0 "a") = (closed.popDue 50).2 ∧
    (Machine.new {}).Posts (log ++ [.arrived 0 1 50 "a" false]) (closed.arrive 50 0 "a") ∧
    (closed.arrive 50 0 "a").network.received 0 = [] := by
  intro declared ready asked closed log
  have hspares : ∀ action ∈ [HostAction.load "UDP_SOCKET u;", .settle], action.SparesSockets := by
    simp [HostAction.SparesSockets]
  have hclose : (asked.network.disconnect 0).1 = 0 := by decide +kernel
  have hclosed : asked.Post [.closed 0] closed := .disconnect hclose
  have hposts : (Machine.new {}).Posts log closed := Machine.posts_asked.more hclosed
  have hschedule : closed.schedule = asked.schedule := rfl
  have hdue : (closed.popDue 50).1 = some (1, .socketDeliver 0 "a") :=
    ready.popDue_ask 0 "a" "a" hschedule rfl (by decide)
  have hrefused : (closed.network.deliver 0 "a").1 = false := by decide +kernel
  have harrived := hposts.more (.arrive hdue)
  rw [hrefused] at harrived
  obtain ⟨-, hlaws⟩ := replies_outlive_sessions_only_if_reopened {} _ hspares
  obtain ⟨-, hdropped, -⟩ := hlaws log closed hposts
  obtain ⟨hreceived, -, hexact⟩ := hlaws _ _ harrived
  have htime : (closed.popDue 50).2.now = 50 := by
    obtain ⟨-, earlier, between, sent, hbefore, -, hnow, -⟩ := hexact log [] 0 1 _ "a" _ rfl
    have hmem : Mail.asked 0 1 sent "a" ∈ log := by
      rw [hbefore]
      exact List.mem_append_right _ List.mem_cons_self
    have hsent : sent = 0 := by simpa [log] using hmem
    rw [hnow, hsent]
    rfl
  rw [htime] at harrived
  exact ⟨hspares, hposts, hdue, rfl, hdropped 50 1 0 "a" hdue rfl, harrived, hreceived 0⟩

/-- The same socket, closed and made ready again for another address before the reply arrives: the
reply to the text that was sent before is received on the new connection. -/
theorem reply_reaches_next_session :
    let declared := (Machine.new {}).reset.install
      { globals := [⟨.udpSocket, "u", none, none, ⟨1, 12⟩⟩] }
    let ready := { declared with network := (declared.network.enableUdp 0 "127.0.0.1" 7).2 }
    let asked := ready.ask 0 "a" "a"
    let closed := { asked with network := (asked.network.disconnect 0).2 }
    let reopened := { closed with network := (closed.network.enableUdp 0 "10.0.0.9" 9).2 }
    let log := [.forgotten, .opened 0, .asked 0 1 0 "a", .closed 0, .opened 0]
    Run.withNetwork (·.enableUdp 0 "127.0.0.1" 7) declared = .ok 0 ready ∧
    Run.sendText 0 "a" ready = .ok (.number 1) asked ∧
    Run.withNetwork (·.disconnect 0) asked = .ok 0 closed ∧
    Run.withNetwork (·.enableUdp 0 "10.0.0.9" 9) closed = .ok 0 reopened ∧
    (Machine.new {}).Posts log reopened ∧ closed.network.received 0 = [] ∧
    (reopened.popDue 50).1 = some (1, .socketDeliver 0 "a") ∧
    (Machine.new {}).Posts (log ++ [.arrived 0 1 50 "a" true]) (reopened.arrive 50 0 "a") ∧
    (reopened.arrive 50 0 "a").network.received 0 = ["a"] := by
  intro declared ready asked closed reopened log
  have hclose : (asked.network.disconnect 0).1 = 0 := by decide +kernel
  have hopen : (closed.network.enableUdp 0 "10.0.0.9" 9).1 = 0 := by decide +kernel
  have hclosed : asked.Post [.closed 0] closed := .disconnect hclose
  have hreopened : closed.Post [.opened 0] reopened := .enableUdp hopen
  have hposts := (Machine.posts_asked.more hclosed).more hreopened
  have hschedule : reopened.schedule = asked.schedule := rfl
  have hdue : (reopened.popDue 50).1 = some (1, .socketDeliver 0 "a") :=
    ready.popDue_ask 0 "a" "a" hschedule rfl (by decide)
  have harrived := hposts.more (.arrive hdue)
  obtain ⟨htaken, hmem⟩ := harrived.arrived
  have hsame : _ = Reply.mk 1 50 "a" := List.mem_singleton.mp hmem
  have htime : (reopened.popDue 50).2.now = 50 := congrArg Reply.time hsame
  rw [htime, htaken] at harrived
  refine ⟨rfl, rfl, ?_, ?_, hposts, by decide +kernel, hdue, harrived,
    harrived.recorded.received 0⟩
  · rw [Run.withNetwork_ok, hclose]
  · rw [Run.withNetwork_ok, hopen]

end ControlLogic
