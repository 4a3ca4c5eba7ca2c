import ControlLogic.Proofs.Machine.Background
import ControlLogic.Proofs.Machine.Hosting
import ControlLogic.Proofs.Machine.Moment

/-!
All that a machine does leads from moment to moment: statements and calls, handlers and work that
was put off, the passing of time, and what a host asks for.
-/

set_option autoImplicit false
set_option relaxedAutoImplicit false

namespace ControlLogic

namespace Run

theorem Primitive.leads {α : Type} {x : Run α} (h : Primitive x) : Relates Machine.Leads x := by
  intro m k
  obtain ⟨deeds, hchanges⟩ := (h.reschedules m).changes
  exact .single (.primitive h hchanges)

theorem Elementary.leads {α : Type} {x : Run α} (h : Elementary x) : Relates Machine.Leads x :=
  h.relates Machine.leads_refl .trans Primitive.leads

theorem leads_closed : Closed (Relates Machine.Leads) :=
  relates_closed Machine.leads_refl .trans Elementary.leads

/-- A run that works on the frame of a call leads to a moment where it stands as far as it got; if
the run does not end, the frame is dropped. -/
def Drafts (b : Binding) (x : Run Binding) : Prop :=
  ∀ (m : Machine) (k : List Around),
    (∀ b' m', x m = .ok b' m' →
      Moment.Leads ⟨m, .binding b.frame :: k⟩ ⟨m', .binding b'.frame :: k⟩) ∧
    ∀ u m', x m = .error u m' → Moment.Leads ⟨m, .binding b.frame :: k⟩ ⟨m', k⟩

private theorem drafts_pure {b b' : Binding}
    (h : ∀ (m : Machine) (k : List Around),
      Moment.Leads ⟨m, .binding b.frame :: k⟩ ⟨m, .binding b'.frame :: k⟩) :
    Drafts b (pure b') := by
  intro m k
  constructor
  · intro b'' m' hr
    cases hr
    exact h m k
  · intro u m' hr
    cases hr

private theorem drafts_fault (b : Binding) (f : Fault) : Drafts b (fault f) := by
  intro m k
  constructor
  · intro b' m' hr
    cases hr
  · intro u m' hr
    cases hr
    exact .single (.dropBinding m k b.frame)

theorem Drafts.bind {b : Binding} {x : Run Binding} {f : Binding → Run Binding}
    (hx : Drafts b x) (hf : ∀ b', Drafts b' (f b')) : Drafts b (x >>= f) := by
  intro m k
  cases h : x m with
  | ok b' m' =>
    have hfirst := (hx m k).1 b' m' h
    rw [bind_ok h]
    constructor
    · intro b'' m'' hr
      exact hfirst.trans ((hf b' m' k).1 b'' m'' hr)
    · intro u m'' hr
      exact hfirst.trans ((hf b' m' k).2 u m'' hr)
  | error u m' =>
    rw [bind_error h]
    constructor
    · intro b'' m'' hr
      cases hr
    · intro u' m'' hr
      cases hr
      exact (hx m k).2 u m' h

private theorem drafts_bind {α : Type} {b : Binding} {x : Run α} {f : α → Run Binding}
    (hx : Relates Machine.Leads x) (hf : ∀ a, Drafts b (f a)) : Drafts b (x >>= f) := by
  intro m k
  have hfirst := hx m (.binding b.frame :: k)
  cases h : x m with
  | ok a m' =>
    rw [Machine.after_ok h] at hfirst
    rw [bind_ok h]
    constructor
    · intro b' m'' hr
      exact hfirst.trans ((hf a m' k).1 b' m'' hr)
    · intro u m'' hr
      exact hfirst.trans ((hf a m' k).2 u m'' hr)
  | error u m' =>
    rw [Machine.after_error h] at hfirst
    rw [bind_error h]
    constructor
    · intro b' m'' hr
      cases hr
    · intro u' m'' hr
      cases hr
      exact hfirst.step (.dropBinding m' k b.frame)

section Calls

variable {eval : Expr → Run Value} (heval : ∀ e, Relates Machine.Leads (eval e))
include heval

private theorem drafts_bindParameter (function : String) (p : Parameter) (arg : Option Expr)
    (b : Binding) : Drafts b (bindParameter eval function p arg b) := by
  unfold bindParameter
  dsimp only
  split
  · split
    next owner =>
      intro m k
      constructor
      · intro b' m' hr
        cases hr
        exact .single (.bindWhole m k b _ owner)
      · intro u m' hr
        cases hr
    next => exact drafts_fault b _
  · split
    next => exact drafts_pure fun m k => .single (.bindSlot m k b _ _ _)
    next e =>
      have hkey : Relates Machine.Leads (resolveKey eval e) :=
        (leads_closed.congruence.resolveKey (fun e => ⟨rfl, heval e⟩) e).2
      refine drafts_bind (heval e) fun v => ?_
      split
      -- What goes back to the caller is no part of the frame.
      · exact drafts_bind hkey fun key => drafts_pure fun m k => .single (.bindSlot m k b _ _ _)
      · exact drafts_pure fun m k => .single (.bindSlot m k b _ _ _)

private theorem drafts_bindParameters (function : String) (ps : List Parameter) (args : List Expr)
    (b : Binding) : Drafts b (bindParameters eval function ps args b) := by
  induction ps generalizing args b with
  | nil => exact drafts_pure fun m k => .refl _
  | cons p ps ih => exact (drafts_bindParameter heval function p _ b).bind fun b' => ih _ b'

end Calls

def Uses (frame : Frame) {α : Type} (x : Run α) : Prop :=
  ∀ (m : Machine) (k : List Around), Moment.Leads ⟨m, .binding frame :: k⟩ ⟨m.after x, k⟩

private theorem leads_of_uses {α : Type} {x : Run α} (h : Uses {} x) : Relates Machine.Leads x :=
  fun m k => (Moment.Leads.single (.beginBinding m k)).trans (h m k)

theorem Uses.bind {α β : Type} {frame : Frame} {x : Run α} {f : α → Run β} (hx : Uses frame x)
    (hf : ∀ a, Relates Machine.Leads (f a)) : Uses frame (x >>= f) := by
  intro m k
  have hfirst := hx m k
  cases h : x m with
  | ok a m' =>
    rw [Machine.after_ok h] at hfirst
    rw [Machine.after_bind_ok h]
    exact hfirst.trans (hf a m' k)
  | error u m' =>
    rw [Machine.after_error h] at hfirst
    rw [Machine.after_error (bind_error h f)]
    exact hfirst

theorem Drafts.uses {α : Type} {b : Binding} {x : Run Binding} {f : Binding → Run α}
    (hx : Drafts b x) (hf : ∀ b', Uses b'.frame (f b')) : Uses b.frame (x >>= f) := by
  intro m k
  cases h : x m with
  | ok b' m' =>
    rw [Machine.after_bind_ok h]
    exact ((hx m k).1 b' m' h).trans (hf b' m' k)
  | error u m' =>
    rw [Machine.after_error (bind_error h f)]
    exact (hx m k).2 u m' h

private theorem uses_localFrame {α : Type} {locals : List VariableDecl} {frame : Frame}
    {f : Frame → Run α} (hf : ∀ frame', Uses frame' (f frame')) :
    Uses frame (localFrame locals frame >>= f) := by
  intro m k
  cases h : Frame.declareLocals m.program.structures locals frame with
  | ok frame' =>
    have hframe : localFrame locals frame m = .ok frame' m := by
      unfold localFrame
      rw [get_bind, h]
      rfl
    rw [Machine.after_bind_ok hframe]
    exact (Moment.Leads.single (.declare m k h)).trans (hf frame' m k)
  | error e =>
    have hframe : localFrame locals frame m = .error (.fault e.1 (some e.2)) m := by
      unfold localFrame
      rw [get_bind, h]
      rfl
    rw [Machine.after_error (bind_error hframe f)]
    exact .single (.dropBinding m k frame)

private theorem uses_inFrame {α : Type} {x : Run α} (hx : Relates Machine.Leads x) (frame : Frame) :
    Uses frame (inFrame frame x) := by
  intro m k
  have hinner := hx (m.enter frame) k
  rw [m.after_inFrame]
  exact ((Moment.Leads.single (.enter m k frame)).trans hinner).step (.leave _ k)

private theorem leads_applyFunction {eval : Expr → Run Value} {block : List Stmt → Run Flow}
    (heval : ∀ e, Relates Machine.Leads (eval e))
    (hblock : ∀ body, Relates Machine.Leads (block body)) (f : FunctionDef) (args : List Expr) :
    Relates Machine.Leads (applyFunction eval block f args) := by
  have C := leads_closed.congruence
  refine leads_of_uses ((drafts_bindParameters heval f.name f.params args {}).uses fun b => ?_)
  refine uses_localFrame fun frame => ?_
  refine (uses_inFrame (hblock f.body) frame).bind fun left => ?_
  exact (C.copyBacks left.2 b.copyBacks).2.bind .trans fun _ => leads_closed.pure _

private theorem leads_callFunction {eval : Expr → Run Value} {block : List Stmt → Run Flow}
    (heval : ∀ e, Relates Machine.Leads (eval e))
    (hblock : ∀ body, Relates Machine.Leads (block body)) (f : FunctionDef) (args : List Expr) :
    Relates Machine.Leads (callFunction eval block f args) := by
  refine relates_inspect fun m => ?_
  split
  · exact Relates.bind .trans (leads_closed.congruence.fault _).2 fun _ =>
      leads_applyFunction heval hblock f args
  · exact leads_applyFunction heval hblock f args

theorem leads_respected {pump : Nat → Run Unit}
    (hpump : ∀ deadline, Relates Machine.Leads (pump deadline)) :
    Respected Machine.Leads pump where
  refl := Machine.leads_refl
  trans := .trans
  elementary := Elementary.leads
  suspend delay what := by
    refine relates_inspect fun m => ?_
    split
    · exact Primitive.leads (.tell _)
    · exact leads_closed.congruence.checkAbort.2.bind .trans fun _ => hpump _
  call := leads_callFunction

private theorem leads_immediate : Respected Machine.Leads noPump :=
  leads_respected fun _ => leads_closed.pure ()

private theorem leads_immediateBlock (body : List Stmt) :
    Relates Machine.Leads (immediateBlock body) := by
  intro m
  rw [m.after_immediateBlock]
  exact leads_immediate.block m.fuel body m

private theorem leads_immediateCall (index : Nat) :
    Relates Machine.Leads (immediateCall index) := by
  intro m
  rw [m.after_immediateCall]
  exact leads_immediate.callAt m.fuel index [] m

private theorem leads_handlerBody (h : Handler) : Relates Machine.Leads (handlerBody h) := by
  refine leads_of_uses (uses_localFrame fun frame => ?_)
  refine Uses.bind ?_ fun _ => leads_immediateBlock h.body
  intro m k
  exact .single (.beginHandler m k frame)

end Run

namespace Machine

private theorem leads_isolated {α : Type} {x : Run α} (hx : Run.Relates Machine.Leads x)
    (m : Machine) :
    m.Leads (m.after (Run.isolated [] x)) := by
  intro k
  have hinner := hx (m.isolate []) (.interrupted m.standing :: k)
  rw [after_isolated]
  exact ((Moment.Leads.single (.interrupt m k)).trans hinner).step (.resume _ k m.standing)

private theorem leads_runWait {m : Machine} {label : String} {w : PendingWait}
    (h : m.waits.get? label = some w) :
    m.Leads (({ m with waits := m.waits.erase label } : Machine).after
      (Run.isolated w.frames (Run.immediateBlock w.body))) := by
  intro k
  have hinner := Run.leads_immediateBlock w.body
    ({ m with waits := m.waits.erase label }.isolate w.frames) (.interrupted m.standing :: k)
  rw [after_isolated]
  exact ((Moment.Leads.single (.beginWait m k h)).trans hinner).step (.resume _ k m.standing)

private theorem leads_background : Background Machine.Leads where
  refl := leads_refl
  trans := .trans
  tell m event := Run.Primitive.leads (.tell event) m
  abort m wish := leads_of_step fun k => .abort m k wish
  handler m h := leads_isolated (Run.leads_handlerBody h) m
  thread m index := leads_isolated (Run.leads_immediateCall index) m
  wait := leads_runWait
  input m _ _ v h := leads_of_step fun k => .input m k v h
  received m data name := leads_of_step fun k => .received m k data name
  network m f := Run.Primitive.leads (.withNetwork fun net => ((), f net)) m

private theorem leads_schedule {m : Machine} {s : Schedule Task} {deeds : List Deed}
    (h : m.schedule.Change deeds s) : m.Leads { m with schedule := s } :=
  leads_of_step fun _ => .schedule h

theorem leads_runTask (m : Machine) (task : Task) : m.Leads (m.runTask task) :=
  leads_background.runTask m task fun output _ =>
    (Run.leads_closed.congruence.writeKey (pulseKey output) .zero).2 m

theorem leads_passing : Passing Machine.Leads where
  refl := leads_refl
  trans := .trans
  apply := leads_background.apply
  receive m := leads_schedule (.receive m.schedule)
  idle {m deadline} _ := leads_schedule (.popDue m.schedule deadline)
  task {m deadline _ task} _ :=
    (leads_schedule (.popDue m.schedule deadline)).trans
      ((m.popDue deadline).2.leads_runTask task)
  waitUntil m deadline := leads_schedule (.waitUntil m.schedule deadline)

end Machine

theorem Run.leads_pump (deadline : Nat) : Relates Machine.Leads (pump deadline) :=
  Machine.leads_passing.pump deadline

namespace Machine

private theorem leads_main {m : Machine} {locals : List VariableDecl} {frame : Frame}
    (body : List Stmt)
    (h : Frame.declareLocals m.program.structures locals {} = .ok frame) :
    m.Leads (((m.beginMain frame).after (Run.block Run.pump m.fuel body)).endMain
      m.scope.frames) := by
  intro k
  have hbound : Moment.Leads ⟨m, k⟩ ⟨m, .binding frame :: k⟩ :=
    (Moment.Leads.single (.beginBinding _ k)).step (.declare _ k h)
  have hinner := (Run.leads_respected Run.leads_pump).block m.fuel body (m.beginMain frame)
    (.host m.scope.frames :: k)
  exact ((hbound.step (.beginMain m k frame)).trans hinner).step (.endMain _ k _)

theorem leads_hosting : Hosting Machine.Leads where
  toPassing := leads_passing
  load m text := leads_of_step fun k => .load m k text
  reset m := leads_of_step fun k => .reset m k
  abort := leads_background.abort
  tell := leads_background.tell
  main := leads_main
  drop m := leads_schedule (.drain m.schedule)
  plan m delay stimulus := leads_schedule (.plan m.schedule delay (.stimulus stimulus))
  send m stimulus := leads_schedule (.send m.schedule stimulus)
  files m f := Run.Primitive.leads (.withFiles fun files => ((), f files)) m
  network := leads_background.network

end Machine

theorem HostAction.leads (m : Machine) (action : HostAction) : m.Leads (action.run m) :=
  Machine.leads_hosting.action m action

theorem Machine.leads_afterActions (m : Machine) (actions : List HostAction) :
    m.Leads (m.afterActions actions) :=
  leads_hosting.actions m actions

end ControlLogic
