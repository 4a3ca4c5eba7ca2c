import ControlLogic.Proofs.FileSystem.Tree
import ControlLogic.Proofs.Network.Sockets

/-!
Handles of files in use and numbers of sockets. Whatever is done with a file system, opening gives a
handle that is not in use, a handle stands for the same file and mode until it is given up, and the
place in the file moves only by what is done with that handle; it is given up once for each time it
was given. Sockets get their numbers in the same way, as long as there are fewer than can be.
-/

set_option autoImplicit false
set_option relaxedAutoImplicit false

namespace ControlLogic

/-! ### Handles -/

namespace FileSystem

def isInUse (fs : FileSystem) (handle : Int) : Bool :=
  (fs.handles.get? handle).isSome

def Moves (fs : FileSystem) (handle : Int) (fs' : FileSystem) : Prop :=
  fs'.handles = fs.handles ∨ ∃ file cursor, fs.handles.get? handle = some file ∧
    fs'.handles = fs.handles.set handle { file with cursor := cursor }

def Action.IsOn (handle : Int) : Action → Prop
  | read h _ => h = handle
  | write h _ => h = handle
  | seek h _ _ => h = handle
  | _ => False

instance (handle : Int) (action : Action) : Decidable (action.IsOn handle) := by
  cases action <;> unfold Action.IsOn <;> infer_instance

def Action.GivesUp (handle : Int) (action : Action) : Prop :=
  action = .close handle ∨ action = .clear

/-- An action opens a file under a handle. What puts a file in place gives the handle up itself. -/
def Action.opens (handle : Int) (fs : FileSystem) : Action → Bool
  | openFile path mode => 0 ≤ handle && (fs.openFile path mode).1 == handle
  | _ => false

def Action.closes (handle : Int) (fs : FileSystem) : Action → Bool
  | close h => h == handle && (fs.close h).1 == 0
  | _ => false

def times (kind : FileSystem → Action → Bool) : FileSystem → List Action → Nat
  | _, [] => 0
  | fs, action :: rest => (kind fs action).toNat + times kind (action.run fs) rest

theorem prepare?_handles {fs fs' : FileSystem} {path : String} {mode : OpenMode}
    (h : fs.prepare? path mode = some fs') : fs'.handles = fs.handles := by
  unfold prepare? at h
  split at h
  · split at h
    · cases h
    split at h
    · cases h
      rfl
    · cases h
      rfl
  · split at h
    · cases h
    split at h
    · cases h
      rfl
    · split at h
      · cases h
      · cases h
        rfl

private theorem openFile_cases (fs : FileSystem) (path : String) (mode : OpenMode) :
    fs.openFile path mode = (-1, fs) ∨
      ∃ cursor, (fs.openFile path mode).1 = (fs.handles.nextId : Int) ∧
        (fs.openFile path mode).2.handles =
          fs.handles.insert ⟨normalize path, mode, cursor⟩ := by
  cases hprepare : fs.prepare? (normalize path) mode with
  | none => exact .inl (openFile_of_prepare?_none hprepare)
  | some fs' =>
    have hhandles := prepare?_handles hprepare
    refine .inr ⟨if mode = .append then
      ((fs'.entryAt? (normalize path)).map (·.data.length)).getD 0 else 0, ?_, ?_⟩
    · rw [(openFile_of_prepare? hprepare).1, hhandles]
      rfl
    · rw [← hhandles]
      simp only [openFile, hprepare]
      split <;> rfl

theorem close_handles (fs : FileSystem) (handle : Int) :
    (fs.close handle).2.handles = fs.handles.erase handle := by
  unfold close
  split
  · rfl
  next hfree => rw [IdTable.erase, if_neg hfree]

private theorem close_eq (fs : FileSystem) (handle : Int) :
    (fs.close handle).1 = if fs.isInUse handle then 0 else -1 := by
  unfold close isInUse
  by_cases huse : (fs.handles.get? handle).isSome = true
  · rw [if_pos huse, if_pos huse]
  · rw [if_neg huse, if_neg huse]

private theorem read_moves (fs : FileSystem) (handle : Int) (limit : Nat) :
    fs.Moves handle (fs.read handle limit).2 := by
  unfold read
  split
  · exact .inl rfl
  next file hfile =>
    split
    · exact .inl rfl
    · exact .inr ⟨file, _, hfile, rfl⟩

private theorem write_moves (fs : FileSystem) (handle : Int) (bytes : List UInt8) :
    fs.Moves handle (fs.write handle bytes).2 := by
  unfold write
  split
  · exact .inl rfl
  next file hfile =>
    split
    · exact .inl rfl
    split
    · exact .inl rfl
    · exact .inr ⟨file, _, hfile, rfl⟩

private theorem seek_moves (fs : FileSystem) (handle offset : Int) (origin : SeekOrigin) :
    fs.Moves handle (fs.seek handle offset origin).2 := by
  unfold seek
  split
  · exact .inl rfl
  next file hfile => exact .inr ⟨file, _, hfile, rfl⟩

private theorem delete_handles (fs : FileSystem) (path : String) :
    (fs.delete path).2.handles = fs.handles := by
  rw [delete]
  split
  · rfl
  split
  · rfl
  split <;> rfl

private theorem makeDirectory_handles (fs : FileSystem) (path : String) :
    (fs.makeDirectory path).2.handles = fs.handles := by
  rw [makeDirectory]
  split <;> rfl

private theorem clear_handles (fs : FileSystem) : fs.clear.handles = {} :=
  rfl

private theorem findNext_handles (fs : FileSystem) : fs.findNext.2.handles = fs.handles := by
  unfold findNext
  split <;> rfl

private theorem findFirst_handles (fs : FileSystem) (pattern : String) (regex : Regex) :
    (fs.findFirst pattern regex).2.handles = fs.handles := by
  rw [findFirst, findNext_handles]

private theorem findClose_handles (fs : FileSystem) : fs.findClose.2.handles = fs.handles := by
  unfold findClose
  split <;> rfl

theorem Moves.get? {fs fs' : FileSystem} {handle : Int} (h : fs.Moves handle fs') (k : Int) :
    fs'.handles.get? k = fs.handles.get? k ∨
      k = handle ∧ ∃ file cursor, fs.handles.get? k = some file ∧
        fs'.handles.get? k = some { file with cursor := cursor } := by
  obtain hkeep | ⟨file, cursor, hfile, hset⟩ := h
  · exact .inl (by rw [hkeep])
  · rw [hset, IdTable.get?_set _ (Option.isSome_iff_exists.mpr ⟨file, hfile⟩)]
    split
    next hself =>
      subst hself
      exact .inr ⟨rfl, file, cursor, hfile, rfl⟩
    next => exact .inl rfl

theorem Moves.sound {fs fs' : FileSystem} {handle : Int} (h : fs.Moves handle fs')
    (hsound : fs.handles.Sound) : fs'.handles.Sound := by
  obtain hkeep | ⟨file, cursor, -, hset⟩ := h
  · exact hkeep ▸ hsound
  · exact hset ▸ hsound.set handle _

/-- What an action does to the handles. -/
inductive Rehandles (fs fs' : FileSystem) : Action → Prop
  | keep {action : Action} (hsound : fs'.handles.Sound)
      (h : ∀ k, fs'.handles.get? k = fs.handles.get? k)
      (hopens : ∀ k, action.opens k fs = false) (hcloses : ∀ k, action.closes k fs = false) :
      Rehandles fs fs' action
  | opened {path : String} {mode : OpenMode} {cursor : Nat}
      (hhandle : (fs.openFile path mode).1 = (fs.handles.nextId : Int))
      (h : fs'.handles = fs.handles.insert ⟨normalize path, mode, cursor⟩) :
      Rehandles fs fs' (.openFile path mode)
  | moved {action : Action} {handle : Int} (hon : action.IsOn handle) (h : fs.Moves handle fs') :
      Rehandles fs fs' action
  | closed {handle : Int} (h : fs'.handles = fs.handles.erase handle) :
      Rehandles fs fs' (.close handle)
  | cleared (h : fs'.handles = {}) : Rehandles fs fs' .clear

private theorem putFile_handles {fs : FileSystem} (hsound : fs.handles.Sound) (path : String)
    (bytes : List UInt8) :
    (fs.putFile path bytes).2.handles.Sound ∧
      ∀ k, (fs.putFile path bytes).2.handles.get? k = fs.handles.get? k := by
  rw [putFile_eq]
  obtain hfails | ⟨cursor, hhandle, hopened⟩ := fs.openFile_cases path .write
  · rw [hfails]
    exact ⟨hsound, fun _ => rfl⟩
  · rw [if_neg (by rw [hhandle]; omega)]
    have hwrite := (fs.openFile path .write).2.write_moves (fs.openFile path .write).1 bytes
    simp only [close_handles]
    have hinsert : (fs.openFile path .write).2.handles.Sound := hopened ▸ hsound.insert _
    refine ⟨(hwrite.sound hinsert).erase _, fun k => ?_⟩
    rw [IdTable.get?_erase]
    split
    next hself => rw [← hself, hhandle, hsound.get?_nextId]
    next hother =>
      obtain hkeep | ⟨hself, -⟩ := hwrite.get? k
      · rw [hkeep, hopened, hsound.get?_insert, if_neg (hhandle ▸ hother)]
      · exact absurd hself.symm hother

private theorem Rehandles.of_handles_eq {fs fs' : FileSystem} {action : Action}
    (hsound : fs.handles.Sound) (h : fs'.handles = fs.handles)
    (hopens : ∀ k, action.opens k fs = false) (hcloses : ∀ k, action.closes k fs = false) :
    Rehandles fs fs' action :=
  .keep (h ▸ hsound) (fun k => by rw [h]) hopens hcloses

private theorem Action.run_rehandles (action : Action) {fs : FileSystem}
    (hsound : fs.handles.Sound) :
    Rehandles fs (action.run fs) action := by
  cases action with
  | openFile path mode =>
    obtain hfails | ⟨cursor, hhandle, hopened⟩ := fs.openFile_cases path mode
    · refine .of_handles_eq hsound (by rw [Action.run, hfails]) (fun k => ?_) fun _ => rfl
      simp only [opens, hfails, Bool.and_eq_false_iff]
      by_cases hk : 0 ≤ k
      · exact .inr (beq_eq_false_iff_ne.mpr (by omega))
      · exact .inl (decide_eq_false hk)
    · exact .opened hhandle hopened
  | close handle => exact .closed (close_handles fs handle)
  | read handle limit => exact .moved rfl (read_moves fs handle limit)
  | write handle bytes => exact .moved rfl (write_moves fs handle bytes)
  | seek handle offset origin => exact .moved rfl (seek_moves fs handle offset origin)
  | delete path =>
    exact .of_handles_eq hsound (by rw [Action.run, delete_handles]) (fun _ => rfl) fun _ => rfl
  | makeDirectory path =>
    exact .of_handles_eq hsound (by rw [Action.run, makeDirectory_handles]) (fun _ => rfl)
      fun _ => rfl
  | findFirst pattern regex =>
    exact .of_handles_eq hsound (by rw [Action.run, findFirst_handles]) (fun _ => rfl) fun _ => rfl
  | findNext =>
    exact .of_handles_eq hsound (by rw [Action.run, findNext_handles]) (fun _ => rfl) fun _ => rfl
  | findClose =>
    exact .of_handles_eq hsound (by rw [Action.run, findClose_handles]) (fun _ => rfl) fun _ => rfl
  | putFile path bytes =>
    obtain ⟨hsound', hget⟩ := putFile_handles hsound path bytes
    exact .keep hsound' hget (fun _ => rfl) fun _ => rfl
  | clear => exact .cleared (clear_handles fs)

namespace Rehandles

variable {fs fs' : FileSystem} {action : Action}

theorem sound (h : Rehandles fs fs' action) (hsound : fs.handles.Sound) : fs'.handles.Sound := by
  cases h with
  | keep hsound' => exact hsound'
  | opened _ h => exact h ▸ hsound.insert _
  | moved _ h => exact h.sound hsound
  | closed h => exact h ▸ hsound.erase _
  | cleared h => exact h ▸ .empty

/-- A handle that is not given up stands for the same file and mode, and for the same place unless
something is done with it. -/
theorem get? (h : Rehandles fs fs' action) (hsound : fs.handles.Sound) {handle : Int}
    {file : OpenFile} (hfile : fs.handles.get? handle = some file)
    (hgives : ¬ action.GivesUp handle) :
    ∃ cursor, fs'.handles.get? handle = some { file with cursor := cursor } ∧
      (¬ action.IsOn handle → cursor = file.cursor) := by
  cases h with
  | keep _ h => exact ⟨file.cursor, (h handle).trans hfile, fun _ => rfl⟩
  | opened _ h =>
    refine ⟨file.cursor, ?_, fun _ => rfl⟩
    rw [h, hsound.get?_insert, if_neg, hfile]
    rintro rfl
    simp [hsound.get?_nextId] at hfile
  | @moved _ k hon h =>
    obtain hkeep | ⟨rfl, old, cursor, hold, hnew⟩ := h.get? handle
    · exact ⟨file.cursor, hkeep.trans hfile, fun _ => rfl⟩
    · cases hfile.symm.trans hold
      exact ⟨cursor, hnew, fun hoff => absurd hon hoff⟩
  | @closed k h =>
    have hne : k ≠ handle := fun heq => hgives (.inl (heq ▸ rfl))
    refine ⟨file.cursor, ?_, fun _ => rfl⟩
    rw [h, IdTable.get?_erase, if_neg hne, hfile]
  | cleared => exact absurd (.inr rfl) hgives

private theorem balance (h : Rehandles fs fs' action) (hsound : fs.handles.Sound) (handle : Int)
    (hclear : action ≠ .clear) :
    (fs.isInUse handle).toNat + (action.opens handle fs).toNat =
      (action.closes handle fs).toNat + (fs'.isInUse handle).toNat := by
  unfold isInUse
  cases h with
  | keep _ h hopens hcloses => simp [h, hopens, hcloses]
  | @opened path mode cursor hhandle h =>
    have hcloses : (Action.openFile path mode).closes handle fs = false := rfl
    rw [h, hsound.get?_insert, hcloses, Action.opens, hhandle]
    by_cases hself : (fs.handles.nextId : Int) = handle
    · subst hself
      simp [hsound.get?_nextId]
    · simp [hself]
  | moved hon h =>
    have hquiet : action.opens handle fs = false ∧ action.closes handle fs = false := by
      cases action <;> first | exact ⟨rfl, rfl⟩ | exact hon.elim
    obtain hkeep | ⟨-, old, cursor, hold, hnew⟩ := h.get? handle
    · simp [hquiet, hkeep]
    · simp [hquiet, hold, hnew]
  | @closed k h =>
    have hopens : (Action.close k).opens handle fs = false := rfl
    rw [h, IdTable.get?_erase, hopens, Action.closes, close_eq]
    unfold isInUse
    by_cases hself : k = handle
    · subst hself
      by_cases huse : (fs.handles.get? k).isSome = true <;> simp [huse]
    · simp [hself]
  | cleared => exact absurd rfl hclear

end Rehandles

private theorem runAll_cons (fs : FileSystem) (action : Action) (rest : List Action) :
    fs.runAll (action :: rest) = (action.run fs).runAll rest :=
  rfl

theorem sound_runAll {fs : FileSystem} (hsound : fs.handles.Sound) (actions : List Action) :
    (fs.runAll actions).handles.Sound := by
  induction actions generalizing fs with
  | nil => exact hsound
  | cons action rest ih => exact ih ((action.run_rehandles hsound).sound hsound)

private theorem get?_runAll {fs : FileSystem} (hsound : fs.handles.Sound) {handle : Int}
    {file : OpenFile}
    (hfile : fs.handles.get? handle = some file) (actions : List Action)
    (hgives : ∀ action ∈ actions, ¬ action.GivesUp handle) :
    ∃ cursor, (fs.runAll actions).handles.get? handle = some { file with cursor := cursor } ∧
      ((∀ action ∈ actions, ¬ action.IsOn handle) → cursor = file.cursor) := by
  induction actions generalizing fs file with
  | nil => exact ⟨file.cursor, hfile, fun _ => rfl⟩
  | cons action rest ih =>
    have hstep := action.run_rehandles hsound
    obtain ⟨hgives₁, hgives₂⟩ := List.forall_mem_cons.mp hgives
    obtain ⟨cursor₁, hfile₁, hoff₁⟩ := hstep.get? hsound hfile hgives₁
    obtain ⟨cursor, hfile₂, hoff₂⟩ := ih (hstep.sound hsound) hfile₁ hgives₂
    refine ⟨cursor, hfile₂, fun hoff => ?_⟩
    obtain ⟨hoff, hrest⟩ := List.forall_mem_cons.mp hoff
    exact (hoff₂ hrest).trans (hoff₁ hoff)

private theorem times_balance {fs : FileSystem} (hsound : fs.handles.Sound) (handle : Int)
    (actions : List Action) (hclear : .clear ∉ actions) :
    (fs.isInUse handle).toNat + times (fun fs action => action.opens handle fs) fs actions =
      times (fun fs action => action.closes handle fs) fs actions +
        ((fs.runAll actions).isInUse handle).toNat := by
  induction actions generalizing fs with
  | nil => simp [times, runAll]
  | cons action rest ih =>
    have hstep := action.run_rehandles hsound
    have hone := hstep.balance hsound handle fun heq => hclear (heq ▸ List.mem_cons_self)
    have hmore := ih (hstep.sound hsound) fun hmem => hclear (List.mem_cons_of_mem _ hmem)
    rw [runAll_cons]
    simp only [times]
    omega

end FileSystem

/-! ### Sockets -/

namespace Network

/-- What can be done with a network. -/
inductive Action where
  | register (address : String) (port : Nat) (respond : String → String)
  | create (protocol : Protocol) (role : SocketRole)
  | release (id : Int)
  | connect (id : Int) (address : String) (port : Int)
  | completeConnect (id : Int)
  | disconnect (id : Int)
  | listen (id port : Int)
  | enableUdp (id : Int) (address : String) (port : Int)
  | send (id : Int) (data : String)
  | deliver (id : Int) (data : String)
  | clear

def Action.run (net : Network) : Action → Network
  | register address port respond => net.register address port respond
  | create protocol role => (net.create protocol role).2
  | release id => net.release id
  | connect id address port => (net.connect id address port).2
  | completeConnect id => (net.completeConnect id).2
  | disconnect id => (net.disconnect id).2
  | listen id port => (net.listen id port).2
  | enableUdp id address port => (net.enableUdp id address port).2
  | send id data => (net.send id data).2.2
  | deliver id data => (net.deliver id data).2
  | clear => net.clear

def runAll (net : Network) (actions : List Action) : Network :=
  actions.foldl Action.run net

def Action.IsOn (id : Int) : Action → Prop
  | connect k _ _ => k = id
  | completeConnect k => k = id
  | disconnect k => k = id
  | listen k _ => k = id
  | enableUdp k _ _ => k = id
  | send k _ => k = id
  | deliver k _ => k = id
  | _ => False

def Action.GivesUp (id : Int) (action : Action) : Prop :=
  action = .release id ∨ action = .clear

/-- The sockets are filed under their own numbers, of which there are no more than can be, and the
numbers that can be given again are those of the empty places. -/
structure Filed (net : Network) : Prop where
  orderly : net.Orderly
  sound : net.sockets.Sound
  size_le : net.sockets.cells.size ≤ maxSockets

/-- What an action does to the sockets. -/
inductive Refiles (net net' : Network) : Action → Prop
  | keep {action : Action} (h : net'.sockets = net.sockets) : Refiles net net' action
  | created {protocol : Protocol} {role : SocketRole}
      (hroom : net.sockets.free ≠ [] ∨ net.sockets.cells.size < maxSockets)
      (h : net'.sockets =
        net.sockets.insert { id := net.sockets.nextId, protocol := protocol, role := role }) :
      Refiles net net' (.create protocol role)
  | replaced {action : Action} {id : Int} (hon : action.IsOn id)
      (h : net.Replaces id (fun _ _ => True) net') : Refiles net net' action
  | released {id : Int} (h : net'.sockets = net.sockets.erase id) : Refiles net net' (.release id)
  | cleared (h : net'.sockets = {}) : Refiles net net' .clear

theorem Serves.replaces {net net' : Network} {id : Int} (h : net.Serves id net') :
    net.Replaces id (fun _ _ => True) net' :=
  h.imp_right fun ⟨s, s', hs, hput, hid, _⟩ => ⟨s, s', hs, hput, hid, trivial⟩

private theorem create_cases (net : Network) (protocol : Protocol) (role : SocketRole) :
    (net.sockets.free = [] ∧ maxSockets ≤ net.sockets.cells.size ∧
        net.create protocol role = (-1, net)) ∨
      (net.sockets.free ≠ [] ∨ net.sockets.cells.size < maxSockets) ∧
        (net.create protocol role).1 = (net.sockets.nextId : Int) ∧
        (net.create protocol role).2.sockets =
          net.sockets.insert { id := net.sockets.nextId, protocol := protocol, role := role } := by
  unfold create
  split
  next hfull =>
    rw [Bool.and_eq_true, List.isEmpty_iff, decide_eq_true_eq] at hfull
    exact .inl ⟨hfull.1, hfull.2, rfl⟩
  next hroom =>
    rw [Bool.and_eq_true, List.isEmpty_iff, decide_eq_true_eq, not_and_or, Nat.not_le] at hroom
    exact .inr ⟨hroom, rfl, rfl⟩

private theorem Action.run_refiles (action : Action) (net : Network) :
    Refiles net (action.run net) action := by
  cases action with
  | register address port respond => exact .keep rfl
  | create protocol role =>
    obtain ⟨-, -, hfails⟩ | ⟨hroom, -, h⟩ := net.create_cases protocol role
    · exact .keep (by rw [Action.run, hfails])
    · exact .created hroom h
  | release id => exact .released rfl
  | connect id address port => exact .replaced rfl (serves_connect net id address port).replaces
  | completeConnect id => exact .replaced rfl (serves_completeConnect net id).replaces
  | disconnect id => exact .replaced rfl (replaces_disconnect net id)
  | listen id port => exact .replaced rfl (serves_listen net id port).replaces
  | enableUdp id address port =>
    exact .replaced rfl (serves_enableUdp net id address port).replaces
  | send id data => exact .replaced rfl (serves_send net id data).replaces
  | deliver id data => exact .replaced rfl (serves_deliver net id data).replaces
  | clear => exact .cleared rfl

private theorem socket?_congr {net net' : Network} (h : net'.sockets = net.sockets) (id : Int) :
    net'.socket? id = net.socket? id := by
  unfold socket?
  rw [h]

namespace Filed

variable {net net' : Network} {action : Action}

private theorem refiles (hnet : net.Filed) (h : Refiles net net' action) : net'.Filed := by
  cases h with
  | keep h =>
    refine ⟨fun id s hs => ?_, h ▸ hnet.sound, h ▸ hnet.size_le⟩
    exact hnet.orderly id s ((socket?_congr h id).symm.trans hs)
  | @created protocol role hroom h =>
    refine ⟨fun id s hs => ?_, h ▸ hnet.sound.insert _, ?_⟩
    · unfold socket? at hs
      rw [h] at hs
      obtain ⟨rfl, rfl⟩ | hbefore := IdTable.get?_insert hs
      · rfl
      · exact hnet.orderly id s hbefore
    · rw [h]
      cases hfree : net.sockets.free with
      | nil =>
        have hlt := hroom.resolve_left (not_not_intro hfree)
        simpa [IdTable.insert_of_nil hfree] using Nat.succ_le_of_lt hlt
      | cons n rest => simpa [IdTable.insert_of_cons hfree] using hnet.size_le
  | replaced hon h =>
    have horderly := hnet.orderly.replaces h
    obtain rfl | ⟨s, s', -, rfl, -⟩ := h
    · exact hnet
    · exact ⟨horderly, hnet.sound.set _ _, by simpa [put, changed] using hnet.size_le⟩
  | @released k h =>
    refine ⟨fun id s hs => ?_, h ▸ hnet.sound.erase _, ?_⟩
    · unfold socket? at hs
      rw [h, IdTable.get?_erase] at hs
      split at hs
      · cases hs
      · exact hnet.orderly id s hs
    · rw [h, IdTable.size_erase]
      exact hnet.size_le
  | cleared h => exact ⟨orderly_of_empty h, h ▸ .empty, by simp [h]⟩

private theorem socket?_refiles (hnet : net.Filed) (h : Refiles net net' action) {id : Int}
    {s : Socket}
    (hs : net.socket? id = some s) (hgives : ¬ action.GivesUp id) :
    ∃ s', net'.socket? id = some s' ∧ (¬ action.IsOn id → s' = s) := by
  cases h with
  | keep h => exact ⟨s, (socket?_congr h id).trans hs, fun _ => rfl⟩
  | created _ h =>
    refine ⟨s, ?_, fun _ => rfl⟩
    unfold socket? at hs ⊢
    rw [h, hnet.sound.get?_insert, if_neg, hs]
    rintro rfl
    simp [hnet.sound.get?_nextId] at hs
  | @replaced _ k hon h =>
    obtain rfl | ⟨t, t', ht, rfl, hid, -⟩ := h
    · exact ⟨s, hs, fun _ => rfl⟩
    · rw [hnet.orderly.socket?_put ht hid]
      split
      next hself => exact ⟨t', rfl, fun hoff => absurd (hself ▸ hon) hoff⟩
      next => exact ⟨s, hs, fun _ => rfl⟩
  | @released k h =>
    have hne : k ≠ id := fun heq => hgives (.inl (heq ▸ rfl))
    refine ⟨s, ?_, fun _ => rfl⟩
    unfold socket? at hs ⊢
    rw [h, IdTable.get?_erase, if_neg hne, hs]
  | cleared => exact absurd (.inr rfl) hgives

theorem runAll (hnet : net.Filed) (actions : List Action) : (net.runAll actions).Filed := by
  induction actions generalizing net with
  | nil => exact hnet
  | cons action rest ih => exact ih (hnet.refiles (action.run_refiles net))

private theorem socket?_runAll (hnet : net.Filed) {id : Int} {s : Socket}
    (hs : net.socket? id = some s) (actions : List Action)
    (hgives : ∀ action ∈ actions, ¬ action.GivesUp id) :
    ∃ s', (net.runAll actions).socket? id = some s' ∧
      ((∀ action ∈ actions, ¬ action.IsOn id) → s' = s) := by
  induction actions generalizing net s with
  | nil => exact ⟨s, hs, fun _ => rfl⟩
  | cons action rest ih =>
    have hstep := action.run_refiles net
    obtain ⟨hgives₁, hgives₂⟩ := List.forall_mem_cons.mp hgives
    obtain ⟨s₁, hs₁, hoff₁⟩ := hnet.socket?_refiles hstep hs hgives₁
    obtain ⟨s₂, hs₂, hoff₂⟩ := ih (hnet.refiles hstep) hs₁ hgives₂
    refine ⟨s₂, hs₂, fun hoff => ?_⟩
    obtain ⟨hoff, hrest⟩ := List.forall_mem_cons.mp hoff
    exact (hoff₂ hrest).trans (hoff₁ hoff)

private theorem create_eq_neg_one (hnet : net.Filed) (protocol : Protocol) (role : SocketRole) :
    (net.create protocol role).1 = -1 ↔ net.toList.length = maxSockets := by
  have hlength := hnet.sound.length_toList_iff
  have hle := net.sockets.length_toList_le
  have hsize := hnet.size_le
  unfold toList
  obtain ⟨hfree, hfull, hfails⟩ | ⟨hroom, hid, -⟩ := net.create_cases protocol role
  · rw [hfails]
    exact iff_of_true rfl (by have := hlength.mpr hfree; omega)
  · rw [hid]
    refine iff_of_false (by omega) fun hall => ?_
    obtain hnonempty | hlt := hroom
    · exact hnonempty (hlength.mp (by omega))
    · omega

end Filed

private theorem filed_of_empty {net : Network} (h : net.sockets = {}) : net.Filed :=
  ⟨orderly_of_empty h, h ▸ .empty, by simp [h]⟩

end Network

/-! ### Both -/

/-- In a file system and a network after any actions, the numbers that can be given again are listed
once each and are those of the empty places. So opening fails, or gives a handle that was not in use
and stands for the path and the mode; a handle in use stands for them whatever else is done until it
is given up, and for its place in the file unless something is read, written or sought with it;
closing succeeds if the handle is in use, and as often as it was opened but for once while it is in
use. Creating a socket fails just if 1024 are in use, and else gives a number that was not; a socket
in use stays until it is given up, as it is unless something is done with it. -/
theorem handles_and_sockets_keep_apart (actions : List FileSystem.Action)
    (responders : String → Nat → Option (String → String)) (steps : List Network.Action) :
    let fs := FileSystem.runAll {} actions
    let net := Network.runAll { responders := responders } steps
    (fs.handles.free.Nodup ∧ ∀ n, n ∈ fs.handles.free ↔ fs.handles.cells[n]? = some none) ∧
    (∀ path mode, fs.openFile path mode = (-1, fs) ∨ ∃ (n : Nat) (cursor : Nat),
      (fs.openFile path mode).1 = n ∧ fs.handles.get? n = none ∧
      (fs.openFile path mode).2.handles.get? n =
        some ⟨FileSystem.normalize path, mode, cursor⟩) ∧
    (∀ handle file more, fs.handles.get? handle = some file →
      (∀ action ∈ more, ¬ FileSystem.Action.GivesUp handle action) →
      ∃ cursor, (fs.runAll more).handles.get? handle = some { file with cursor := cursor } ∧
        ((∀ action ∈ more, ¬ action.IsOn handle) → cursor = file.cursor)) ∧
    (∀ handle, (fs.close handle).1 = if (fs.handles.get? handle).isSome then 0 else -1) ∧
    (∀ handle more, .clear ∉ more →
      (fs.isInUse handle).toNat +
          FileSystem.times (fun fs action => action.opens handle fs) fs more =
        FileSystem.times (fun fs action => action.closes handle fs) fs more +
          ((fs.runAll more).isInUse handle).toNat) ∧
    (net.sockets.free.Nodup ∧ ∀ n, n ∈ net.sockets.free ↔ net.sockets.cells[n]? = some none) ∧
    (∀ protocol role, (net.create protocol role).1 = -1 ↔ net.toList.length = 1024) ∧
    (∀ protocol role, net.create protocol role = (-1, net) ∨ ∃ n : Nat,
      (net.create protocol role).1 = n ∧ net.socket? n = none ∧
      (net.create protocol role).2.socket? n =
        some { id := n, protocol := protocol, role := role }) ∧
    ∀ id s more, net.socket? id = some s →
      (∀ action ∈ more, ¬ Network.Action.GivesUp id action) →
      ∃ s', (net.runAll more).socket? id = some s' ∧
        ((∀ action ∈ more, ¬ action.IsOn id) → s' = s) := by
  intro fs net
  have hfs : fs.handles.Sound := FileSystem.sound_runAll .empty actions
  have hnet : net.Filed := (Network.filed_of_empty rfl).runAll steps
  refine ⟨⟨hfs.nodup, hfs.mem_free⟩, fun path mode => ?_,
    fun handle file more hfile hgives => FileSystem.get?_runAll hfs hfile more hgives,
    fs.close_eq, fun handle more hclear => FileSystem.times_balance hfs handle more hclear,
    ⟨hnet.sound.nodup, hnet.sound.mem_free⟩, hnet.create_eq_neg_one, fun protocol role => ?_,
    fun id s more hs hgives => hnet.socket?_runAll hs more hgives⟩
  · obtain hfails | ⟨cursor, hhandle, hopened⟩ := fs.openFile_cases path mode
    · exact .inl hfails
    · refine .inr ⟨fs.handles.nextId, cursor, hhandle, hfs.get?_nextId, ?_⟩
      rw [hopened, hfs.get?_insert, if_pos rfl]
  · obtain ⟨-, -, hfails⟩ | ⟨-, hid, hcreated⟩ := net.create_cases protocol role
    · exact .inl hfails
    · refine .inr ⟨net.sockets.nextId, hid, hnet.sound.get?_nextId, ?_⟩
      rw [Network.socket?, hcreated, hnet.sound.get?_insert, if_pos rfl]

/-- Two files are opened, and the first is closed; its handle is given again, while the second is
read on. Of two sockets the first is given up, and its number given again. -/
theorem handles_and_sockets_of_two_keep_apart :
    let opened : List FileSystem.Action :=
      [.openFile "/user/a" .write, .putFile "/user/b" [104, 105], .openFile "/user/b" .read]
    let later : List FileSystem.Action := [.close 0, .openFile "/user/c" .append, .read 1 1]
    let created : List Network.Action := [.create .tcp .client, .create .udp .client]
    let after : List Network.Action := [.release 0, .create .tcp .server, .connect 0 "a" 23]
    let fs := FileSystem.runAll {} opened
    let net := Network.runAll { responders := fun _ _ => none } created
    fs.handles.get? 1 = some ⟨"/user/b", .read, 0⟩ ∧ .clear ∉ later ∧
    (∃ cursor, (fs.runAll later).handles.get? 1 = some ⟨"/user/b", .read, cursor⟩) ∧
    FileSystem.times (fun fs action => action.opens 0 fs) fs later = 1 ∧
    FileSystem.times (fun fs action => action.closes 0 fs) fs later = 1 ∧
    (fs.isInUse 0).toNat + 1 = 1 + ((fs.runAll later).isInUse 0).toNat ∧
    (net.socket? 1).isSome = true ∧ (net.runAll after).socket? 1 = net.socket? 1 := by
  intro opened later created after fs net
  have hfile : fs.handles.get? 1 = some ⟨"/user/b", .read, 0⟩ := by decide +kernel
  have hgives : ∀ action ∈ later, ¬ FileSystem.Action.GivesUp 1 action := by
    simp [later, FileSystem.Action.GivesUp]
  have hclear : .clear ∉ later := by simp [later]
  have hopens : FileSystem.times (fun fs action => action.opens 0 fs) fs later = 1 := by
    decide +kernel
  have hcloses : FileSystem.times (fun fs action => action.closes 0 fs) fs later = 1 := by
    decide +kernel
  have hlive : net.socket? 1 = some { id := 1, protocol := .udp, role := .client } := by
    decide +kernel
  have hstays : ∀ action ∈ after, ¬ Network.Action.GivesUp 1 action := by
    simp [after, Network.Action.GivesUp]
  have hoff : ∀ action ∈ after, ¬ action.IsOn 1 := by
    simp [after, Network.Action.IsOn]
  obtain ⟨-, -, hkeeps, -, hbalance, -, -, -, hsockets⟩ :=
    handles_and_sockets_keep_apart opened (fun _ _ => none) created
  obtain ⟨cursor, hcursor, -⟩ := hkeeps 1 _ later hfile hgives
  obtain ⟨s, hs, hsame⟩ := hsockets 1 _ after hlive hstays
  have htimes := hbalance 0 later hclear
  rw [hopens, hcloses] at htimes
  exact ⟨hfile, hclear, ⟨cursor, hcursor⟩, hopens, hcloses, htimes, by rw [hlive]; rfl,
    by rw [hs, hsame hoff, hlive]⟩

end ControlLogic
