import ControlLogic.Proofs.Machine.Mail

/-!
Replies to sockets arrive in the order they were asked for, each once and at its time. The books on
the mail of a socket have the replies it was sent and those that arrived; what is left over is under
way, and the one that arrives next is the first of it, since timers are taken in the order of their
times and then of their numbers.
-/

set_option autoImplicit false
set_option relaxedAutoImplicit false

namespace ControlLogic

/-- A reply: the number of its timer, the time it arrives, and its text. -/
structure Reply where
  timer : Nat
  time : Nat
  text : String
  deriving DecidableEq, Repr

namespace Mail

def addReply (delay : Nat) (socket : Int) (replies : List Reply) : Mail → List Reply
  | asked s timer now text =>
    if s = socket then replies ++ [⟨timer, now + delay, text⟩] else replies
  | forgotten => []
  | _ => replies

/-- Adds a reply that arrives at a socket, and whether it is taken in. -/
def addArrival (socket : Int) (arrivals : List (Reply × Bool)) : Mail → List (Reply × Bool)
  | arrived s timer now text taken =>
    if s = socket then arrivals ++ [(⟨timer, now, text⟩, taken)] else arrivals
  | forgotten => []
  | _ => arrivals

def addState (socket : Int) (isOpen : Bool) : Mail → Bool
  | opened s => if s = socket then true else isOpen
  | closed s => if s = socket then false else isOpen
  | forgotten => false
  | _ => isOpen

/-- The replies to a socket since a program was forgotten last, in the order they were asked for,
with the time each is due if it takes as long as given. -/
def replies (delay : Nat) (socket : Int) (log : List Mail) : List Reply :=
  log.foldl (addReply delay socket) []

/-- The replies that arrived at a socket since then, and whether each was taken in. -/
def arrivals (socket : Int) (log : List Mail) : List (Reply × Bool) :=
  log.foldl (addArrival socket) []

def takenTexts (socket : Int) (log : List Mail) : List String :=
  ((arrivals socket log).filter Prod.snd).map fun arrival => arrival.1.text

def isOpen (socket : Int) (log : List Mail) : Bool :=
  log.foldl (addState socket) false

theorem replies_append_single (delay : Nat) (socket : Int) (log : List Mail) (note : Mail) :
    replies delay socket (log ++ [note]) =
      addReply delay socket (replies delay socket log) note := by
  simp only [replies, List.foldl_append, List.foldl_cons, List.foldl_nil]

private theorem arrivals_append_single (socket : Int) (log : List Mail) (note : Mail) :
    arrivals socket (log ++ [note]) = addArrival socket (arrivals socket log) note := by
  simp only [arrivals, List.foldl_append, List.foldl_cons, List.foldl_nil]

private theorem takenTexts_append_arrived (socket other : Int) (log : List Mail) (timer now : Nat)
    (text : String) (taken : Bool) :
    takenTexts socket (log ++ [.arrived other timer now text taken]) =
      if other = socket ∧ taken = true then takenTexts socket log ++ [text]
      else takenTexts socket log := by
  unfold takenTexts
  rw [arrivals_append_single]
  by_cases hself : other = socket
  · cases taken with
    | true => simp [addArrival, hself]
    | false => simp [addArrival, hself]
  · simp [addArrival, hself]

private theorem takenTexts_of_arrivals {socket : Int} {log log' : List Mail}
    (h : arrivals socket log' = arrivals socket log) :
    takenTexts socket log' = takenTexts socket log := by
  unfold takenTexts
  rw [h]

theorem isOpen_append_single (socket : Int) (log : List Mail) (note : Mail) :
    isOpen socket (log ++ [note]) = addState socket (isOpen socket log) note := by
  simp only [isOpen, List.foldl_append, List.foldl_cons, List.foldl_nil]

end Mail

namespace Machine

/--
The books on the replies to a socket agree with a machine. Those asked for are the ones that have
arrived, with their times, and then those that wait, which are under way. Their numbers and times
ascend, none is late, and none is empty.
-/
structure Kept (config : Settings) (socket : Int) (log : List Mail) (m : Machine)
    (waiting : List Reply) : Prop where
  settings : m.config = config
  replies : Mail.replies config.responseDelay socket log =
    (Mail.arrivals socket log).map Prod.fst ++ waiting
  underway (r : Reply) : r ∈ waiting ↔ m.Underway r.timer r.time socket r.text
  numbers : ∀ r ∈ Mail.replies config.responseDelay socket log, r.timer < m.schedule.nextId
  ordered : (Mail.replies config.responseDelay socket log).Pairwise
    fun r r' => r.timer < r'.timer ∧ r.time ≤ r'.time
  near : ∀ r ∈ Mail.replies config.responseDelay socket log,
    r.time ≤ m.now + config.responseDelay
  onTime : ∀ r ∈ waiting, m.now ≤ r.time
  texts : ∀ r ∈ Mail.replies config.responseDelay socket log, r.text ≠ ""

namespace Kept

variable {config : Settings} {socket : Int} {log : List Mail} {m m' : Machine}
  {waiting : List Reply}

theorem mem_replies (h : Kept config socket log m waiting) {r : Reply} (hr : r ∈ waiting) :
    r ∈ Mail.replies config.responseDelay socket log := by
  rw [h.replies]
  exact List.mem_append_right _ hr

private theorem waiting_ordered (h : Kept config socket log m waiting) :
    waiting.Pairwise fun r r' => r.timer < r'.timer ∧ r.time ≤ r'.time := by
  have hordered := h.ordered
  rw [h.replies] at hordered
  exact (List.pairwise_append.mp hordered).2.1

private theorem not_underway_next (h : Kept config socket log m waiting) (due : Nat)
    (text : String) :
    ¬ m.Underway m.schedule.nextId due socket text := by
  intro hunder
  have hmem := h.mem_replies ((h.underway ⟨m.schedule.nextId, due, text⟩).mpr hunder)
  exact absurd (h.numbers _ hmem) (Nat.lt_irrefl _)

theorem keep (h : Kept config socket log m waiting) {log' : List Mail}
    (hreplies : Mail.replies config.responseDelay socket log' =
      Mail.replies config.responseDelay socket log)
    (harrivals : Mail.arrivals socket log' = Mail.arrivals socket log)
    (hconfig : m'.config = m.config)
    (hunderway : ∀ timer due text,
      m'.Underway timer due socket text ↔ m.Underway timer due socket text)
    (hnumbers : m.schedule.nextId ≤ m'.schedule.nextId) (hclock : m.now ≤ m'.now)
    (honTime : ∀ {timer due : Nat} {text : String}, m.Underway timer due socket text →
      m.now ≤ due → m'.now ≤ due) : Kept config socket log' m' waiting := by
  constructor
  case settings => exact hconfig.trans h.settings
  case replies =>
    rw [hreplies, harrivals]
    exact h.replies
  case underway => exact fun r => (h.underway r).trans (hunderway _ _ _).symm
  case onTime => exact fun r hr => honTime ((h.underway r).mp hr) (h.onTime r hr)
  all_goals rw [hreplies]
  case numbers => exact fun r hr => Nat.lt_of_lt_of_le (h.numbers r hr) hnumbers
  case ordered => exact h.ordered
  case near => exact fun r hr => Nat.le_trans (h.near r hr) (Nat.add_le_add_right hclock _)
  case texts => exact h.texts

theorem calm (h : Kept config socket log m waiting) (hcalm : m.Calm m') {log' : List Mail}
    (hreplies : Mail.replies config.responseDelay socket log' =
      Mail.replies config.responseDelay socket log)
    (harrivals : Mail.arrivals socket log' = Mail.arrivals socket log) :
    Kept config socket log' m' waiting :=
  h.keep hreplies harrivals hcalm.config
    (fun timer due text => hcalm.underway timer due socket text)
    hcalm.numbers hcalm.clock hcalm.onTime

private theorem ask_other (h : Kept config socket log m waiting) {other : Int}
    (hother : other ≠ socket)
    (data answer : String) :
    Kept config socket (log ++ [.asked other m.schedule.nextId m.now answer])
      (m.ask other data answer) waiting := by
  refine h.keep ?_ (Mail.arrivals_append_single _ _ _) rfl (fun timer due text => ?_)
    (Nat.le_succ _) (Nat.le_refl _) (fun _ hdue => hdue)
  · rw [Mail.replies_append_single]
    exact if_neg hother
  · unfold Underway
    refine (iff_of_eq (congrArg (· = _) (m.schedule.getElem?_plan _ _ timer))).trans ?_
    split
    next hself =>
      subst hself
      refine iff_of_false (fun hplanned => ?_) (h.not_underway_next due text)
      cases hplanned
      exact hother rfl
    next => rfl

theorem ask (h : Kept config socket log m waiting) {data answer : String} (htext : answer ≠ "") :
    Kept config socket (log ++ [.asked socket m.schedule.nextId m.now answer])
      (m.ask socket data answer)
      (waiting ++ [⟨m.schedule.nextId, m.now + config.responseDelay, answer⟩]) := by
  have hreplies : Mail.replies config.responseDelay socket
      (log ++ [.asked socket m.schedule.nextId m.now answer]) =
      Mail.replies config.responseDelay socket log ++
        [⟨m.schedule.nextId, m.now + config.responseDelay, answer⟩] := by
    rw [Mail.replies_append_single]
    exact if_pos rfl
  have harrivals : Mail.arrivals socket
      (log ++ [.asked socket m.schedule.nextId m.now answer]) = Mail.arrivals socket log :=
    Mail.arrivals_append_single _ _ _
  constructor
  case settings => exact h.settings
  case replies => rw [hreplies, harrivals, h.replies, List.append_assoc]
  case underway =>
    intro r
    have hplan := m.schedule.getElem?_plan m.config.responseDelay (.socketDeliver socket answer)
      r.timer
    change _ ↔ (m.schedule.plan _ _).2.tasks[r.timer]? = _
    rw [List.mem_append, List.mem_singleton, hplan, h.underway r, h.settings]
    split
    next hself =>
      have hnone := h.not_underway_next r.time r.text
      rw [hself] at hnone
      constructor
      · rintro (hunder | rfl)
        · exact absurd hunder hnone
        · rfl
      · intro hplanned
        obtain ⟨timer, time, text⟩ := r
        cases hplanned
        right
        rw [hself]
        rfl
    next hother =>
      refine ⟨?_, .inl⟩
      rintro (hunder | rfl)
      · exact hunder
      · exact absurd rfl hother
  case onTime =>
    rw [List.forall_mem_append, List.forall_mem_singleton]
    exact ⟨h.onTime, Nat.le_add_right _ _⟩
  all_goals rw [hreplies]
  case numbers =>
    rw [List.forall_mem_append, List.forall_mem_singleton]
    exact ⟨fun r hr => Nat.lt_succ_of_lt (h.numbers r hr), Nat.lt_succ_self _⟩
  case ordered =>
    refine List.pairwise_append.mpr ⟨h.ordered, List.pairwise_singleton _ _, ?_⟩
    intro r hr r' hr'
    rw [List.mem_singleton.mp hr']
    exact ⟨h.numbers r hr, h.near r hr⟩
  case near =>
    rw [List.forall_mem_append, List.forall_mem_singleton]
    exact ⟨h.near, Nat.le_refl _⟩
  case texts =>
    rw [List.forall_mem_append, List.forall_mem_singleton]
    exact ⟨h.texts, htext⟩

theorem first (h : Kept config socket log m waiting) {deadline timer : Nat} {text : String}
    (hdue : (m.popDue deadline).1 = some (timer, .socketDeliver socket text)) :
    ∃ rest, waiting = ⟨timer, (m.popDue deadline).2.now, text⟩ :: rest := by
  obtain ⟨hnone, -⟩ | ⟨id, due, task, hsome, hlive, -, hnow, -, -, hleast⟩ :=
    m.schedule.popDue_cases deadline
  · cases hnone.symm.trans hdue
  cases hsome.symm.trans hdue
  have hmem : ⟨timer, due, text⟩ ∈ waiting := (h.underway ⟨timer, due, text⟩).mpr hlive
  have htime : (m.popDue deadline).2.now = due := hnow.trans (Nat.max_eq_right (h.onTime _ hmem))
  rw [htime]
  cases waiting with
  | nil => cases hmem
  | cons r rest =>
    rcases List.mem_cons.mp hmem with hfirst | hlater
    · exact ⟨rest, by rw [hfirst]⟩
    · -- One that waits behind another has a later time, or the same time and a greater number.
      obtain ⟨htimer, hbefore⟩ := (List.pairwise_cons.mp h.waiting_ordered).1 _ hlater
      have hle := hleast ((h.underway r).mp List.mem_cons_self)
      rw [Appointment.le_def] at hle
      dsimp only at htimer hbefore hle
      omega

private theorem arrive_other (h : Kept config socket log m waiting) {other : Int}
    (hother : other ≠ socket) {deadline timer : Nat} {text : String}
    (hdue : (m.popDue deadline).1 = some (timer, .socketDeliver other text)) (now : Nat)
    (taken : Bool) :
    Kept config socket (log ++ [.arrived other timer now text taken])
      (m.arrive deadline other text) waiting := by
  obtain ⟨hforth, honTime⟩ := (Schedule.Change.popDue m.schedule deadline).clock
  refine h.keep (Mail.replies_append_single _ _ _ _) ?_ rfl
    (fun id due' text' => Schedule.popDue_keeps hdue ?_ id due')
    (Nat.le_of_eq (m.schedule.popDue_nextId deadline).symm) hforth honTime
  · rw [Mail.arrivals_append_single]
    exact if_neg hother
  · rintro ⟨rfl, -⟩
    exact hother rfl

theorem arrive {rest : List Reply} {deadline timer : Nat} {text : String}
    (h : Kept config socket log m (⟨timer, (m.popDue deadline).2.now, text⟩ :: rest))
    (hdue : (m.popDue deadline).1 = some (timer, .socketDeliver socket text)) (taken : Bool) :
    Kept config socket
      (log ++ [.arrived socket timer (m.popDue deadline).2.now text taken])
      (m.arrive deadline socket text) rest := by
  obtain ⟨due, hlive, -, htasks⟩ := Schedule.popDue_some hdue
  obtain ⟨hforth, -⟩ := (Schedule.Change.popDue m.schedule deadline).clock
  obtain ⟨hbehind, hrest⟩ := List.pairwise_cons.mp h.waiting_ordered
  have hreplies : Mail.replies config.responseDelay socket
      (log ++ [.arrived socket timer (m.popDue deadline).2.now text taken]) =
      Mail.replies config.responseDelay socket log :=
    Mail.replies_append_single _ _ _ _
  have harrivals : Mail.arrivals socket
      (log ++ [.arrived socket timer (m.popDue deadline).2.now text taken]) =
      Mail.arrivals socket log ++ [(⟨timer, (m.popDue deadline).2.now, text⟩, taken)] := by
    rw [Mail.arrivals_append_single]
    exact if_pos rfl
  constructor
  case settings => exact h.settings
  case replies =>
    rw [hreplies, harrivals, h.replies, List.map_append, List.append_assoc]
    rfl
  case underway =>
    intro r
    change _ ↔ (m.popDue deadline).2.schedule.tasks[r.timer]? = _
    refine Iff.trans ?_ (iff_of_eq (congrArg (· = _) (htasks r.timer))).symm
    constructor
    · intro hr
      obtain ⟨hnumber, -⟩ := hbehind r hr
      rw [if_neg (Nat.ne_of_lt hnumber)]
      exact (h.underway r).mp (List.mem_cons_of_mem _ hr)
    · intro hleft
      split at hleft
      next => cases hleft
      next hother =>
        rcases List.mem_cons.mp ((h.underway r).mpr hleft) with rfl | hmem
        · exact absurd rfl hother
        · exact hmem
  case onTime => exact fun r hr => (hbehind r hr).2
  all_goals rw [hreplies]
  case numbers =>
    intro r hr
    refine Nat.lt_of_lt_of_le (h.numbers r hr) (Nat.le_of_eq ?_)
    exact (m.schedule.popDue_nextId deadline).symm
  case ordered => exact h.ordered
  case near => exact fun r hr => Nat.le_trans (h.near r hr) (Nat.add_le_add_right hforth _)
  case texts => exact h.texts

theorem forget (hconfig : m.config = config) (htasks : m.schedule.tasks = {})
    (hreplies : Mail.replies config.responseDelay socket log = [])
    (harrivals : Mail.arrivals socket log = []) : Kept config socket log m [] := by
  have hunder (r : Reply) : ¬ m.Underway r.timer r.time socket r.text := by
    unfold Underway
    rw [htasks]
    simp
  constructor
  case settings => exact hconfig
  case replies => rw [hreplies, harrivals, List.map_nil, List.append_nil]
  case underway => exact fun r => iff_of_false List.not_mem_nil (hunder r)
  case onTime => exact fun r hr => absurd hr List.not_mem_nil
  all_goals rw [hreplies]
  case numbers => exact fun r hr => absurd hr List.not_mem_nil
  case ordered => exact .nil
  case near => exact fun r hr => absurd hr List.not_mem_nil
  case texts => exact fun r hr => absurd hr List.not_mem_nil

theorem post (h : Kept config socket log m waiting) {mail : List Mail}
    (hpost : m.Post mail m') : ∃ waiting', Kept config socket (log ++ mail) m' waiting' := by
  cases hpost with
  | quiet hcalm hnet =>
    rw [List.append_nil]
    exact ⟨waiting, h.calm hcalm rfl rfl⟩
  | @ask other data answer hanswer =>
    by_cases hself : other = socket
    · subst hself
      exact ⟨_, h.ask (Network.send_answer hanswer).2⟩
    · exact ⟨waiting, h.ask_other hself data answer⟩
  | @arrive deadline timer other text hdue =>
    by_cases hself : other = socket
    · subst hself
      obtain ⟨rest, rfl⟩ := h.first hdue
      exact ⟨rest, h.arrive hdue _⟩
    · exact ⟨waiting, h.arrive_other hself hdue _ _⟩
  | opened hcalm hnet =>
    exact ⟨waiting, h.calm hcalm (Mail.replies_append_single _ _ _ _)
      (Mail.arrivals_append_single _ _ _)⟩
  | closed hcalm hstatus hnet =>
    exact ⟨waiting, h.calm hcalm (Mail.replies_append_single _ _ _ _)
      (Mail.arrivals_append_single _ _ _)⟩
  | forget hdeclares =>
    exact ⟨[], forget (hdeclares.config.trans h.settings)
      (congrArg Schedule.tasks hdeclares.schedule) (Mail.replies_append_single _ _ _ _)
      (Mail.arrivals_append_single _ _ _)⟩

end Kept

/-- Sockets have received the texts they have taken in, and are connected if the record says so. -/
def Recorded (log : List Mail) (m : Machine) : Prop :=
  m.network.Shows (fun socket => Mail.takenTexts socket log)
    (fun socket => Mail.isOpen socket log = true)

theorem Recorded.post {log mail : List Mail} {m m' : Machine} (h : Recorded log m)
    (hpost : m.Post mail m') : Recorded (log ++ mail) m' := by
  unfold Recorded at h ⊢
  cases hpost with
  | quiet hcalm hnet =>
    rw [List.append_nil]
    exact hnet h
  | ask hanswer =>
    refine (m.network.undisturbed_send _ _ h).congr (fun k => ?_) fun k => ?_
    · exact (Mail.takenTexts_of_arrivals (Mail.arrivals_append_single k log _)).symm
    · rw [Mail.isOpen_append_single]
      rfl
  | @arrive deadline timer socket text hdue =>
    refine (h.deliver socket text).congr (fun k => ?_) fun k => ?_
    · exact (Mail.takenTexts_append_arrived k socket log _ _ _ _).symm
    · rw [Mail.isOpen_append_single]
      rfl
  | @opened _ socket hcalm hnet =>
    refine (h.opens hnet).congr (fun k => ?_) fun k => ?_
    · exact (Mail.takenTexts_of_arrivals (Mail.arrivals_append_single k log _)).symm
    · rw [Mail.isOpen_append_single]
      by_cases hself : socket = k
      · simp [Mail.addState, hself]
      · simp [Mail.addState, hself]
  | @closed _ socket hcalm hstatus hnet =>
    rw [hnet]
    refine (h.disconnect hstatus).congr (fun k => ?_) fun k => ?_
    · exact (Mail.takenTexts_of_arrivals (Mail.arrivals_append_single k log _)).symm
    · rw [Mail.isOpen_append_single]
      by_cases hself : socket = k
      · simp [Mail.addState, hself]
      · simp [Mail.addState, hself]
  | forget hdeclares =>
    refine (Network.shows_of_grows rfl hdeclares.network).congr (fun k => ?_) fun k => ?_
    · unfold Mail.takenTexts
      rw [Mail.arrivals_append_single]
      rfl
    · rw [Mail.isOpen_append_single]
      simp [Mail.addState]

theorem Posts.kept {config : Settings} {log : List Mail} {m : Machine}
    (h : (new config).Posts log m) (socket : Int) :
    ∃ waiting, Kept config socket log m waiting := by
  induction h with
  | none => exact ⟨[], .forget rfl rfl rfl rfl⟩
  | more _ hpost ih =>
    obtain ⟨waiting, hkept⟩ := ih
    exact hkept.post hpost

theorem Posts.recorded {config : Settings} {log : List Mail} {m : Machine}
    (h : (new config).Posts log m) : Recorded log m := by
  induction h with
  | none =>
    refine (Network.shows_of_grows rfl .refl).congr (fun _ => rfl) fun k => ?_
    simp [Mail.isOpen]
  | more _ hpost ih => exact ih.post hpost

end Machine

/-- A text is sent without an answer, or it is answered, and then the answer is put off unless the
run is stopped before. -/
private theorem Run.sendText_cases (socket : Int) (data : String) (m : Machine) :
    let sent : Machine := { m with network := (m.network.send socket data).2.2 }
    ((m.network.send socket data).2.1 = none ∧ ∃ v, sendText socket data m = .ok v sent) ∨
      ∃ answer, (m.network.send socket data).2.1 = some answer ∧
        (sendText socket data m = .error .aborted sent ∨
          ∃ v, sendText socket data m = .ok v (m.ask socket data answer)) := by
  intro sent
  unfold sendText
  rw [bind_ok (withNetwork_ok _ m)]
  dsimp only
  cases (m.network.send socket data).2.1 with
  | none => exact .inl ⟨rfl, _, rfl⟩
  | some answer =>
    refine .inr ⟨answer, rfl, ?_⟩
    change (plan m.config.responseDelay (.socketDeliver socket answer) >>= _) sent = _ ∨ _
    obtain ⟨-, hplan⟩ | hplan := plan_cases sent m.config.responseDelay
      (.socketDeliver socket answer)
    · exact .inl (bind_error hplan _)
    · exact .inr ⟨_, bind_ok hplan _⟩

private theorem Run.sendText_ok {socket : Int} {data answer : String} {m m' : Machine} {v : Value}
    (h : sendText socket data m = .ok v m')
    (hanswer : (m.network.send socket data).2.1 = some answer) : m' = m.ask socket data answer := by
  obtain ⟨hnone, -⟩ | ⟨answer', hsome, hstopped | ⟨v', hasked⟩⟩ := sendText_cases socket data m
  · cases hnone.symm.trans hanswer
  · cases hstopped.symm.trans h
  · cases hsome.symm.trans hanswer
    cases hasked.symm.trans h
    rfl

private theorem Run.after_sendText {socket : Int} {data : String} {m : Machine}
    (h : ∀ v m', sendText socket data m = .ok v m' → (m.network.send socket data).2.1 = none) :
    m.after (sendText socket data) = { m with network := (m.network.send socket data).2.2 } := by
  obtain ⟨-, v, hsent⟩ | ⟨answer, hsome, hstopped | ⟨v, hasked⟩⟩ := sendText_cases socket data m
  · exact Machine.after_ok hsent
  · exact Machine.after_error hstopped
  · cases hsome.symm.trans (h _ _ hasked)

namespace Machine

/-- A reply that arrives is taken in by a socket that is connected, which then has its handlers run,
and leaves no trace at another one. -/
theorem runTask_socketDeliver (m : Machine) (deadline : Nat) (socket : Int) (text : String) :
    (m.popDue deadline).2.runTask (.socketDeliver socket text) =
      if m.network.status socket = .connected then
        { m.arrive deadline socket text with
          scope.globals :=
            (m.socketNames socket).foldl (addReceived text) m.scope.globals }.dispatchSocket
          .socketReceive socket
      else (m.popDue deadline).2 := by
  change (m.popDue deadline).2.deliver socket text = _
  unfold deliver
  change (if (m.network.deliver socket text).1 = true then _ else _) = _
  by_cases hstatus : m.network.status socket = .connected
  · rw [if_pos hstatus, if_pos (Network.deliver_eq_true.mpr hstatus)]
    rfl
  · have hrefused : ¬ (m.network.deliver socket text).1 = true :=
      fun htaken => hstatus (Network.deliver_eq_true.mp htaken)
    rw [if_neg hstatus, if_neg hrefused]
    change { (m.popDue deadline).2 with network := (m.network.deliver socket text).2 } = _
    rw [Network.deliver_refused hrefused]
    rfl

private theorem Kept.takenTexts_sublist {config : Settings} {socket : Int} {log : List Mail}
    {m : Machine}
    {waiting : List Reply} (h : Kept config socket log m waiting) :
    (Mail.takenTexts socket log).Sublist
      ((Mail.replies config.responseDelay socket log).map Reply.text) := by
  have hfilter : ((Mail.arrivals socket log).filter Prod.snd).Sublist (Mail.arrivals socket log) :=
    List.filter_sublist
  have harrived := (hfilter.map Prod.fst).trans (List.sublist_append_left _ waiting)
  rw [← h.replies] at harrived
  have htexts := harrived.map Reply.text
  rwa [List.map_map] at htexts

end Machine

private theorem Schedule.popDue_plan {τ : Type} {s : Schedule τ}
    (hnone : ∀ id : Nat, s.tasks[id]? = none)
    {delay deadline : Nat} (hdue : s.now + delay ≤ deadline) (task : τ) :
    ((s.plan delay task).2.popDue deadline).1 = some (s.nextId, task) := by
  have hplanned := s.getElem?_plan delay task
  refine popDue_of_least ((hplanned s.nextId).trans (if_pos rfl)) hdue ?_
  intro id' due' task' hlive
  rw [hplanned, hnone] at hlive
  split at hlive
  next hself =>
    subst hself
    cases hlive
    exact Appointment.le_refl _
  next => cases hlive

theorem Machine.popDue_ask (m : Machine) (socket : Int) (data answer : String) {m' : Machine}
    (hschedule : m'.schedule = (m.ask socket data answer).schedule)
    (hnone : m.schedule.tasks = {}) {deadline : Nat}
    (hdue : m.now + m.config.responseDelay ≤ deadline) :
    (m'.popDue deadline).1 = some (m.schedule.nextId, .socketDeliver socket answer) := by
  change (m'.schedule.popDue deadline).1 = _
  rw [hschedule]
  refine Schedule.popDue_plan (fun id => ?_) hdue _
  rw [hnone]
  exact Std.HashMap.getElem?_empty

theorem Machine.posts_asked :
    let declared := (Machine.new {}).reset.install
      { globals := [⟨.udpSocket, "u", none, none, ⟨1, 12⟩⟩] }
    let ready := { declared with network := (declared.network.enableUdp 0 "127.0.0.1" 7).2 }
    (Machine.new {}).Posts [.forgotten, .opened 0, .asked 0 1 0 "a"] (ready.ask 0 "a" "a") := by
  intro declared ready
  have hdeclared : (Machine.new {}).Post [.forgotten] declared :=
    .forget (Machine.declares_declaring.install _ _)
  have hready : declared.Post [.opened 0] ready := .enableUdp rfl
  exact ((Machine.Posts.single hdeclared).more hready).more (.ask rfl)

/--
Whatever a host does, with whatever program, as long as it leaves the sockets alone, goes along a
course of steps on whose mail there is a record. On every such course, sending a text over a socket
puts down the reply if there is an answer and the run comes to its end, and nothing otherwise. The
replies to a socket are, in the order they were asked for, those that have arrived, each at its
time, and then those under way; none is late. The socket has received the texts of those it took in,
so what it received is a part of the replies in their order. And the reply that arrives next is the
first of those under way: a socket that is connected then receives it and has its handlers run;
otherwise nothing comes of it.
-/
theorem replies_arrive_once_and_in_order (config : Settings) (actions : List HostAction)
    (hactions : ∀ action ∈ actions, action.SparesSockets) :
    (∃ log, (Machine.new config).Posts log ((Machine.new config).afterActions actions)) ∧
    (∀ (eval : Expr → Run Value) (args : List Expr), Run.socketSend eval args = do
      let socket ← Run.socketArg args
      let data ← Run.argText eval args 1
      Run.sendText socket data) ∧
    ∀ (log : List Mail) (m : Machine), (Machine.new config).Posts log m →
      (∀ socket data v m' answer, Run.sendText socket data m = .ok v m' →
        (m.network.send socket data).2.1 = some answer → answer ≠ "" ∧
          (Machine.new config).Posts
            (log ++ [.asked socket m.schedule.nextId m.now answer]) m') ∧
      (∀ socket data, (∀ v m', Run.sendText socket data m = .ok v m' →
          (m.network.send socket data).2.1 = none) →
        (Machine.new config).Posts log (m.after (Run.sendText socket data))) ∧
      ∀ socket : Int,
        let replies := Mail.replies config.responseDelay socket log
        ∃ waiting : List Reply,
          replies = (Mail.arrivals socket log).map Prod.fst ++ waiting ∧
          replies.Pairwise (fun r r' => r.timer < r'.timer ∧ r.time ≤ r'.time) ∧
          (∀ r, r ∈ waiting ↔ m.Underway r.timer r.time socket r.text) ∧
          (∀ r ∈ waiting, m.now ≤ r.time) ∧
          m.network.received socket = Mail.takenTexts socket log ∧
          (m.network.received socket).Sublist (replies.map Reply.text) ∧
          ∀ deadline timer text,
            (m.popDue deadline).1 = some (timer, .socketDeliver socket text) →
            let taken := decide (m.network.status socket = .connected)
            let now := (m.popDue deadline).2.now
            waiting.head? = some ⟨timer, now, text⟩ ∧
            (Machine.new config).Posts (log ++ [.arrived socket timer now text taken])
              (m.arrive deadline socket text) ∧
            (m.arrive deadline socket text).network.received socket =
              (if taken then m.network.received socket ++ [text]
                else m.network.received socket) ∧
            (m.popDue deadline).2.runTask (.socketDeliver socket text) =
              if taken then
                { m.arrive deadline socket text with
                  scope.globals := (m.socketNames socket).foldl (Machine.addReceived text)
                    m.scope.globals }.dispatchSocket .socketReceive socket
              else (m.popDue deadline).2 := by
  refine ⟨Machine.posts_afterActions config hactions, fun _ _ => rfl, fun log m hposts => ?_⟩
  refine ⟨fun socket data v m' answer hsent hanswer => ?_, fun socket data hsilent => ?_,
    fun socket => ?_⟩
  · rw [Run.sendText_ok hsent hanswer]
    exact ⟨(Network.send_answer hanswer).2, hposts.more (.ask hanswer)⟩
  · rw [Run.after_sendText hsilent]
    have hquiet : m.Post [] { m with network := (m.network.send socket data).2.2 } :=
      .quiet (m.calm_network _) (m.network.undisturbed_send socket data)
    have hafter := hposts.more hquiet
    rwa [List.append_nil] at hafter
  · intro replies
    obtain ⟨waiting, hkept⟩ := hposts.kept socket
    have hreceived := hposts.recorded.received socket
    refine ⟨waiting, hkept.replies, hkept.ordered, hkept.underway, hkept.onTime, hreceived, ?_, ?_⟩
    · rw [hreceived]
      exact hkept.takenTexts_sublist
    · intro deadline timer text hdue taken now
      obtain ⟨rest, hfirst⟩ := hkept.first hdue
      have htaken : (m.network.deliver socket text).1 = taken := by
        rw [Bool.eq_iff_iff, Network.deliver_eq_true, decide_eq_true_iff]
      have harrived := Machine.Post.arrive hdue
      rw [htaken] at harrived
      have hafter := hposts.more harrived
      refine ⟨by rw [hfirst]; rfl, hafter, ?_, ?_⟩
      · rw [hafter.recorded.received socket, hreceived, Mail.takenTexts_append_arrived]
        simp only [true_and]
      · rw [m.runTask_socketDeliver]
        simp only [taken, decide_eq_true_iff]

/-- A program whose only variable is a socket for datagrams. The socket is made ready for the device
that echoes, and a text is sent: the reply arrives 50 milliseconds later. -/
theorem echo_arrives_in_time :
    let declared := (Machine.new {}).reset.install
      { globals := [⟨.udpSocket, "u", none, none, ⟨1, 12⟩⟩] }
    let ready := { declared with network := (declared.network.enableUdp 0 "127.0.0.1" 7).2 }
    let asked := ready.ask 0 "a" "a"
    (∀ action ∈ [HostAction.load "UDP_SOCKET u;", .settle,
        .changeNetwork fun net => net.register "10.0.0.1" 80 fun data => data],
      action.SparesSockets) ∧
    (Machine.new {}).Posts [.forgotten, .opened 0, .asked 0 1 0 "a"] asked ∧
    (asked.popDue 200).1 = some (1, .socketDeliver 0 "a") ∧ (asked.popDue 200).2.now = 50 ∧
    asked.network.status 0 = .connected ∧
    (asked.arrive 200 0 "a").network.received 0 = ["a"] := by
  intro declared ready asked
  have hspares : ∀ action ∈ [HostAction.load "UDP_SOCKET u;", .settle,
      .changeNetwork fun net => net.register "10.0.0.1" 80 fun data => data],
      action.SparesSockets := by
    simp [HostAction.SparesSockets, Network.register]
  have hposts : (Machine.new {}).Posts [.forgotten, .opened 0, .asked 0 1 0 "a"] asked :=
    Machine.posts_asked
  have hdue : (asked.popDue 200).1 = some (1, .socketDeliver 0 "a") :=
    ready.popDue_ask 0 "a" "a" rfl rfl (by decide)
  obtain ⟨-, -, hlaws⟩ := replies_arrive_once_and_in_order {} _ hspares
  obtain ⟨-, -, hsockets⟩ := hlaws _ _ hposts
  obtain ⟨waiting, hreplies, -, -, -, hreceived, -, hfires⟩ := hsockets 0
  obtain ⟨hfirst, -, htext, -⟩ := hfires 200 1 "a" hdue
  have hwaiting : [⟨1, 50, "a"⟩] = waiting := hreplies
  rw [← hwaiting] at hfirst
  refine ⟨hspares, hposts, hdue, ?_, rfl, htext.trans ?_⟩
  · exact (Option.some.inj (congrArg (Option.map Reply.time) hfirst)).symm
  · rw [hreceived]
    rfl

end ControlLogic
