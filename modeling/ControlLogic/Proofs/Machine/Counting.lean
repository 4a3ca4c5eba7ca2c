import ControlLogic.FileSystem.Basic
import ControlLogic.Network.Basic

/-!
File systems and networks count their changes, but nothing they do depends on the count: what
changed before only adds to it.
-/

set_option autoImplicit false
set_option relaxedAutoImplicit false

namespace ControlLogic

namespace FileSystem

def recount (n : Nat) (fs : FileSystem) : FileSystem :=
  { fs with changes := n + fs.changes }

/-- What is done to a file system does not depend on how often it has changed. -/
def Counts {α : Type} (f : FileSystem → α × FileSystem) : Prop :=
  ∀ n fs, f (fs.recount n) = ((f fs).1, (f fs).2.recount n)

variable (n : Nat) (fs : FileSystem)

private theorem missingFrom_recount (fuel : Nat) (path : String) :
    (fs.recount n).missingFrom fuel path = fs.missingFrom fuel path := by
  induction fuel generalizing path with
  | zero => rfl
  | succ fuel ih =>
    have hupwards : (fs.recount n).missingFrom fuel = fs.missingFrom fuel := funext ih
    rw [missingFrom, missingFrom, hupwards]
    rfl

private theorem ensureDirectories_recount (path : String) :
    (fs.recount n).ensureDirectories path = (fs.ensureDirectories path).recount n := by
  rw [ensureDirectories, missingFrom_recount]
  rfl

private theorem prepare?_recount (path : String) (mode : OpenMode) :
    (fs.recount n).prepare? path mode = (fs.prepare? path mode).map (recount n) := by
  have hentry (p : String) : (fs.recount n).entryAt? p = fs.entryAt? p := rfl
  unfold prepare?
  simp only [hentry, ensureDirectories_recount]
  repeat' split
  all_goals rfl

theorem counts_openFile (path : String) (mode : OpenMode) : Counts (·.openFile path mode) := by
  intro n fs
  dsimp only
  unfold openFile
  simp only [prepare?_recount]
  cases fs.prepare? (normalize path) mode with
  | none => rfl
  | some ready =>
    dsimp only [Option.map_some]
    by_cases hread : mode = .read
    · simp only [if_pos hread]
      rfl
    · simp only [if_neg hread]
      rfl

theorem counts_close (handle : Int) : Counts (·.close handle) := by
  intro n fs
  dsimp only
  unfold close
  cases h : (fs.handles.get? handle).isSome <;> simp [recount, h]

theorem counts_read (handle : Int) (limit : Nat) : Counts (·.read handle limit) := by
  intro n fs
  have hentry (p : String) : (fs.recount n).entryAt? p = fs.entryAt? p := rfl
  have hhandle : (fs.recount n).handles = fs.handles := rfl
  dsimp only
  unfold read
  simp only [hentry, hhandle]
  repeat' split
  all_goals rfl

theorem counts_write (handle : Int) (bytes : List UInt8) : Counts (·.write handle bytes) := by
  intro n fs
  have hentry (p : String) : (fs.recount n).entryAt? p = fs.entryAt? p := rfl
  have hhandle : (fs.recount n).handles = fs.handles := rfl
  dsimp only
  unfold write
  simp only [hentry, hhandle]
  repeat' split
  all_goals rfl

theorem counts_seek (handle offset : Int) (origin : SeekOrigin) :
    Counts (·.seek handle offset origin) := by
  intro n fs
  have hhandle : (fs.recount n).handles = fs.handles := rfl
  dsimp only
  unfold seek
  simp only [hhandle]
  split
  all_goals rfl

theorem counts_delete (path : String) : Counts (·.delete path) := by
  intro n fs
  have hentry (p : String) : (fs.recount n).entryAt? p = fs.entryAt? p := rfl
  have hchildren (p : String) : (fs.recount n).hasChildren p = fs.hasChildren p := rfl
  dsimp only
  unfold delete
  simp only [hentry, hchildren]
  repeat' split
  all_goals rfl

theorem counts_makeDirectory (path : String) : Counts (·.makeDirectory path) := by
  intro n fs
  have hentry (p : String) : (fs.recount n).entryAt? p = fs.entryAt? p := rfl
  dsimp only
  unfold makeDirectory
  simp only [hentry, ensureDirectories_recount]
  split
  all_goals rfl

theorem counts_findNext : Counts findNext := by
  intro n fs
  have hsearch : (fs.recount n).search = fs.search := rfl
  unfold findNext
  simp only [hsearch]
  split
  all_goals rfl

theorem counts_findFirst (pattern : String) (regex : Regex) :
    Counts (·.findFirst pattern regex) := by
  intro n fs
  dsimp only
  unfold findFirst
  generalize splitPath (normalize pattern) = parts
  obtain ⟨directory, glob⟩ := parts
  exact counts_findNext n { fs with search := some (fs.matching regex directory glob) }

theorem counts_findClose : Counts findClose := by
  intro n fs
  have hsearch : (fs.recount n).search = fs.search := rfl
  unfold findClose
  simp only [hsearch]
  split
  all_goals rfl

end FileSystem

namespace Network

def recount (n : Nat) (net : Network) : Network :=
  { net with changes := n + net.changes }

/-- What is done to a network does not depend on how often it has changed. -/
def Counts {α : Type} (f : Network → α × Network) : Prop :=
  ∀ n net, f (net.recount n) = ((f net).1, (f net).2.recount n)

private theorem socket?_recount (n : Nat) (net : Network) (id : Int) :
    (net.recount n).socket? id = net.socket? id :=
  rfl

theorem counts_create (protocol : Protocol) (role : SocketRole) :
    Counts (·.create protocol role) := by
  intro n net
  have hsockets : (net.recount n).sockets = net.sockets := rfl
  dsimp only
  unfold create
  simp only [hsockets]
  split
  all_goals rfl

theorem counts_connect (id : Int) (address : String) (port : Int) :
    Counts (·.connect id address port) := by
  intro n net
  dsimp only
  unfold connect
  simp only [socket?_recount]
  repeat' split
  all_goals rfl

theorem counts_completeConnect (id : Int) : Counts (·.completeConnect id) := by
  intro n net
  dsimp only
  unfold completeConnect
  simp only [socket?_recount]
  repeat' split
  all_goals rfl

theorem counts_disconnect (id : Int) : Counts (·.disconnect id) := by
  intro n net
  dsimp only
  unfold disconnect
  simp only [socket?_recount]
  repeat' split
  all_goals rfl

theorem counts_listen (id port : Int) : Counts (·.listen id port) := by
  intro n net
  dsimp only
  unfold listen
  simp only [socket?_recount]
  split
  all_goals rfl

theorem counts_enableUdp (id : Int) (address : String) (port : Int) :
    Counts (·.enableUdp id address port) := by
  intro n net
  dsimp only
  unfold enableUdp
  simp only [socket?_recount]
  split
  all_goals rfl

theorem send_recount (n : Nat) (net : Network) (id : Int) (data : String) :
    (net.recount n).send id data =
      ((net.send id data).1, (net.send id data).2.1, (net.send id data).2.2.recount n) := by
  unfold send
  simp only [socket?_recount]
  repeat' split
  all_goals rfl

theorem counts_deliver (id : Int) (data : String) : Counts (·.deliver id data) := by
  intro n net
  dsimp only
  unfold deliver
  simp only [socket?_recount]
  repeat' split
  all_goals rfl

end Network

end ControlLogic
