import ControlLogic.Proofs.Machine.Congruence

/-!
Which alternatives a switch runs. Labels are evaluated in order up to the first alternative that is
a default or whose label is the subject, and none behind it. That alternative is run, and where a
switch runs on, so are the later ones that have a label, until one does not go on behind itself. The
rules are stated beside the loop that keeps note of whether an alternative was run, and it does what
they say, whatever expressions and statements do.
-/

set_option autoImplicit false
set_option relaxedAutoImplicit false

namespace ControlLogic

namespace Run

/-! ### Rules -/

/-- Labels are evaluated one after another, and none of them is the subject. -/
inductive PassesOver (eval : Expr → Run Value) (subject : Value) :
    List (Alternative Stmt) → Machine → Machine → Prop
  | done (m : Machine) : PassesOver eval subject [] m m
  | label {e : Expr} {body : List Stmt} {rest : List (Alternative Stmt)} {v : Value}
    {m m' m'' : Machine} (hlabel : eval e m = .ok v m')
    (hdiffers : subject.looselyEquals v = false) (h : PassesOver eval subject rest m' m'') :
    PassesOver eval subject (⟨some e, body⟩ :: rest) m m''

/-- An alternative is the one to start with: a default, or one whose label is the subject. -/
inductive Starts (eval : Expr → Run Value) (subject : Value) :
    Alternative Stmt → Machine → Machine → Prop
  | default (body : List Stmt) (m : Machine) : Starts eval subject ⟨none, body⟩ m m
  | label {e : Expr} {v : Value} {m m' : Machine} (body : List Stmt) (hlabel : eval e m = .ok v m')
    (hequals : subject.looselyEquals v = true) : Starts eval subject ⟨some e, body⟩ m m'

/-- Bodies are run one after another until one does not go on behind itself. A break ends the
switch, and a return or what leaves everything in progress is passed on. -/
inductive RunsBodies (block : List Stmt → Run Flow) :
    List (List Stmt) → Machine → EStateM.Result Unwind Machine Flow → Prop
  | done (m : Machine) : RunsBodies block [] m (.ok .normal m)
  | goesOn {body : List Stmt} {rest : List (List Stmt)} {m m' : Machine}
    {r : EStateM.Result Unwind Machine Flow} (hbody : block body m = .ok .normal m')
    (h : RunsBodies block rest m' r) : RunsBodies block (body :: rest) m r
  | breaks {body : List Stmt} {m m' : Machine} (rest : List (List Stmt))
    (hbody : block body m = .ok .broken m') : RunsBodies block (body :: rest) m (.ok .normal m')
  | returns {body : List Stmt} {m m' : Machine} {v : Value} (rest : List (List Stmt))
    (hbody : block body m = .ok (.returned v) m') :
    RunsBodies block (body :: rest) m (.ok (.returned v) m')
  | unwinds {body : List Stmt} {m m' : Machine} {u : Unwind} (rest : List (List Stmt))
    (hbody : block body m = .error u m') : RunsBodies block (body :: rest) m (.error u m')

/-- The bodies that are run when a switch starts with an alternative: its own, and those of the
later ones that have a label if the switch runs on. -/
def bodiesFrom (runsOn : Bool) (a : Alternative Stmt) (later : List (Alternative Stmt)) :
    List (List Stmt) :=
  a.body :: if runsOn then (later.filter (·.label.isSome)).map (·.body) else []

/-- What the alternatives of a switch come to for the value of its subject. -/
inductive Chooses (eval : Expr → Run Value) (block : List Stmt → Run Flow) (subject : Value)
    (runsOn : Bool) (alternatives : List (Alternative Stmt)) (m : Machine) :
    EStateM.Result Unwind Machine Flow → Prop
  | nothing {m' : Machine} (h : PassesOver eval subject alternatives m m') :
    Chooses eval block subject runsOn alternatives m (.ok .normal m')
  | unwinds {earlier later : List (Alternative Stmt)} {e : Expr} {body : List Stmt}
    {m₁ m' : Machine} {u : Unwind} (hsplit : alternatives = earlier ++ ⟨some e, body⟩ :: later)
    (hearlier : PassesOver eval subject earlier m m₁) (hlabel : eval e m₁ = .error u m') :
    Chooses eval block subject runsOn alternatives m (.error u m')
  | starts {earlier later : List (Alternative Stmt)} {a : Alternative Stmt} {m₁ m₂ : Machine}
    {r : EStateM.Result Unwind Machine Flow} (hsplit : alternatives = earlier ++ a :: later)
    (hearlier : PassesOver eval subject earlier m m₁) (hstarts : Starts eval subject a m₁ m₂)
    (hbodies : RunsBodies block (bodiesFrom runsOn a later) m₂ r) :
    Chooses eval block subject runsOn alternatives m r

/-- What a switch comes to. Its subject is evaluated once, before anything else. -/
inductive Switches (eval : Expr → Run Value) (block : List Stmt → Run Flow) (subject : Expr)
    (runsOn : Bool) (alternatives : List (Alternative Stmt)) (m : Machine) :
    EStateM.Result Unwind Machine Flow → Prop
  | unwinds {u : Unwind} {m' : Machine} (h : eval subject m = .error u m') :
    Switches eval block subject runsOn alternatives m (.error u m')
  | chooses {v : Value} {m₁ : Machine} {r : EStateM.Result Unwind Machine Flow}
    (hsubject : eval subject m = .ok v m₁)
    (h : Chooses eval block v runsOn alternatives m₁ r) :
    Switches eval block subject runsOn alternatives m r

variable {eval : Expr → Run Value} {block : List Stmt → Run Flow} {subject : Value} {runsOn : Bool}
  {m m' : Machine} {r : EStateM.Result Unwind Machine Flow}

/-! ### One alternative -/

private theorem selects_default (m : Machine) :
    selects eval subject runsOn false none m = .ok true m := by
  cases runsOn <;> rfl

private theorem selects_label {e : Expr} {v : Value} (h : eval e m = .ok v m') :
    selects eval subject runsOn false (some e) m = .ok (subject.looselyEquals v) m' := by
  unfold selects
  dsimp only
  rw [Bool.and_false]
  exact bind_ok h _

private theorem selects_unwinds {e : Expr} {u : Unwind} (h : eval e m = .error u m') :
    selects eval subject runsOn false (some e) m = .error u m' := by
  unfold selects
  dsimp only
  rw [Bool.and_false]
  exact bind_error h _

private theorem selects_runsOn (label : Option Expr) (m : Machine) :
    selects eval subject true true label m = .ok label.isSome m := by
  cases label <;> rfl

private theorem switchFrom_of_selects {started : Bool} {a : Alternative Stmt}
    (h : selects eval subject runsOn started a.label m = .ok true m')
    (later : List (Alternative Stmt)) :
    switchFrom eval block subject runsOn started (a :: later) m =
      (block a.body >>= fun flow => match flow with
        | .normal =>
          if runsOn then switchFrom eval block subject runsOn true later else pure .normal
        | .broken => pure .normal
        | .returned v => pure (.returned v)) m' := by
  rw [switchFrom]
  exact bind_ok h _

private theorem switchFrom_of_not_selects {started : Bool} {a : Alternative Stmt}
    (h : selects eval subject runsOn started a.label m = .ok false m')
    (later : List (Alternative Stmt)) :
    switchFrom eval block subject runsOn started (a :: later) m =
      switchFrom eval block subject runsOn started later m' := by
  rw [switchFrom]
  exact bind_ok h _

/-! ### Bodies one after another -/

private theorem runsBodies_cons {body : List Stmt} {rest : List (List Stmt)} {following : Run Flow}
    (hrest : ∀ {m r}, following m = r ↔ RunsBodies block rest m r) :
    (block body >>= fun flow => match flow with
      | .normal => following
      | .broken => pure .normal
      | .returned v => pure (.returned v)) m = r ↔ RunsBodies block (body :: rest) m r := by
  constructor
  · rintro rfl
    cases hbody : block body m with
    | error u m' =>
      rw [bind_error hbody]
      exact .unwinds rest hbody
    | ok flow m' =>
      rw [bind_ok hbody]
      cases flow with
      | normal => exact .goesOn hbody (hrest.mp rfl)
      | broken => exact .breaks rest hbody
      | returned v => exact .returns rest hbody
  · intro h
    cases h with
    | goesOn hbody h =>
      rw [bind_ok hbody]
      exact hrest.mpr h
    | breaks rest hbody => exact bind_ok hbody _
    | returns rest hbody => exact bind_ok hbody _
    | unwinds rest hbody => exact bind_error hbody _

private theorem runsBodies_nil : (pure Flow.normal : Run Flow) m = r ↔ RunsBodies block [] m r := by
  constructor
  · rintro rfl
    exact .done m
  · rintro ⟨⟩
    rfl

private theorem switchFrom_started {later : List (Alternative Stmt)} :
    switchFrom eval block subject true true later m = r ↔
      RunsBodies block ((later.filter (·.label.isSome)).map (·.body)) m r := by
  induction later generalizing m r with
  | nil => exact runsBodies_nil
  | cons a later ih =>
    have hselects : selects eval subject true true a.label m = .ok a.label.isSome m :=
      selects_runsOn a.label m
    cases hlabel : a.label.isSome with
    | false =>
      rw [hlabel] at hselects
      rw [switchFrom_of_not_selects hselects, List.filter_cons_of_neg (by simp [hlabel])]
      exact ih
    | true =>
      rw [hlabel] at hselects
      rw [switchFrom_of_selects hselects, List.filter_cons_of_pos (by rw [hlabel])]
      exact runsBodies_cons ih

private theorem switchFrom_starts {a : Alternative Stmt} (h : Starts eval subject a m m')
    {later : List (Alternative Stmt)} :
    switchFrom eval block subject runsOn false (a :: later) m = r ↔
      RunsBodies block (bodiesFrom runsOn a later) m' r := by
  have hselects : selects eval subject runsOn false a.label m = .ok true m' := by
    cases h with
    | default body m => exact selects_default m
    | label body hlabel hequals => rw [selects_label hlabel, hequals]
  rw [switchFrom_of_selects hselects]
  cases runsOn with
  | true => exact runsBodies_cons switchFrom_started
  | false => exact runsBodies_cons runsBodies_nil

theorem PassesOver.switchFrom {earlier : List (Alternative Stmt)}
    (h : PassesOver eval subject earlier m m') (later : List (Alternative Stmt)) :
    switchFrom eval block subject runsOn false (earlier ++ later) m =
      Run.switchFrom eval block subject runsOn false later m' := by
  induction h with
  | done m => rfl
  | label hlabel hdiffers _ ih =>
    rw [List.cons_append, switchFrom_of_not_selects (by rw [selects_label hlabel, hdiffers]), ih]

/-! ### All alternatives -/

theorem Chooses.label {e : Expr} {body : List Stmt} {v : Value} (hlabel : eval e m = .ok v m')
    (hdiffers : subject.looselyEquals v = false) {later : List (Alternative Stmt)}
    (h : Chooses eval block subject runsOn later m' r) :
    Chooses eval block subject runsOn (⟨some e, body⟩ :: later) m r := by
  cases h with
  | nothing h => exact .nothing (.label hlabel hdiffers h)
  | unwinds hsplit hearlier hunwinds =>
    exact .unwinds (congrArg _ hsplit) (.label hlabel hdiffers hearlier) hunwinds
  | starts hsplit hearlier hstarts hbodies =>
    exact .starts (congrArg _ hsplit) (.label hlabel hdiffers hearlier) hstarts hbodies

private theorem chooses_switchFrom (alternatives : List (Alternative Stmt)) (m : Machine) :
    Chooses eval block subject runsOn alternatives m
      (switchFrom eval block subject runsOn false alternatives m) := by
  induction alternatives generalizing m with
  | nil => exact .nothing (.done m)
  | cons a later ih =>
    have hstart : ∀ {m'}, Starts eval subject a m m' →
        Chooses eval block subject runsOn (a :: later) m
          (switchFrom eval block subject runsOn false (a :: later) m) :=
      fun h => .starts rfl (.done m) h ((switchFrom_starts h).mp rfl)
    obtain ⟨label, body⟩ := a
    cases label with
    | none => exact hstart (.default body m)
    | some e =>
      cases hlabel : eval e m with
      | error u m' =>
        rw [switchFrom, bind_error (selects_unwinds hlabel)]
        exact .unwinds rfl (.done m) hlabel
      | ok v m' =>
        cases hequals : subject.looselyEquals v with
        | true => exact hstart (.label body hlabel hequals)
        | false =>
          rw [switchFrom_of_not_selects (by rw [selects_label hlabel, hequals])]
          exact .label hlabel hequals (ih m')

theorem Chooses.switchFrom {alternatives : List (Alternative Stmt)}
    (h : Chooses eval block subject runsOn alternatives m r) :
    Run.switchFrom eval block subject runsOn false alternatives m = r := by
  cases h with
  | nothing h =>
    have hpassed : Run.switchFrom eval block subject runsOn false (alternatives ++ []) m = _ :=
      h.switchFrom []
    rwa [List.append_nil] at hpassed
  | unwinds hsplit hearlier hlabel =>
    rw [hsplit, hearlier.switchFrom, Run.switchFrom]
    exact bind_error (selects_unwinds hlabel) _
  | starts hsplit hearlier hstarts hbodies =>
    rw [hsplit, hearlier.switchFrom]
    exact (switchFrom_starts hstarts).mpr hbodies

end Run

open Run in
/--
A switch does what the rules say and nothing else, whatever its expressions and statements do: the
subject is evaluated once, then labels up to the first alternative that is a default or has a label
equal to the subject; with none, nothing is run. A plain switch runs the body of that alternative;
one that runs on runs it and the bodies of the later alternatives with a label, until one does not
go on behind itself. A break ends the switch alone.
-/
theorem switch_follows_rules (eval : Expr → Run Value) (block : List Stmt → Run Flow)
    (pump : Nat → Run Unit) (fuel : Nat) (pos : Position) (subject : Expr)
    (alternatives : List (Alternative Stmt)) (runsOn : Bool) (m : Machine)
    (r : EStateM.Result Unwind Machine Flow) :
    statement eval block pump fuel (.switch pos subject alternatives runsOn) m = r ↔
      Switches eval block subject runsOn alternatives m r := by
  change (eval subject >>= fun v => switchFrom eval block v runsOn false alternatives) m = r ↔ _
  constructor
  · rintro rfl
    cases hsubject : eval subject m with
    | error u m' =>
      rw [bind_error hsubject]
      exact .unwinds hsubject
    | ok v m₁ =>
      rw [bind_ok hsubject]
      exact .chooses hsubject (chooses_switchFrom alternatives m₁)
  · intro h
    cases h with
    | unwinds h => exact bind_error h _
    | chooses hsubject h =>
      rw [bind_ok hsubject]
      exact h.switchFrom

end ControlLogic
