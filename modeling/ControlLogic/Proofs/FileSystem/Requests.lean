import ControlLogic.Proofs.FileSystem.Archive

/-!
Requests to a file system, and what it answers. Its lists give the same answers to every sequence of
requests over any handles and paths.
-/

set_option autoImplicit false
set_option relaxedAutoImplicit false

namespace ControlLogic

namespace FileSystem

/-- What can be asked of a file system: to do something, or what there is. -/
inductive Request where
  | act (action : Action)
  | length (handle : Int)
  | contents (path : String)
  | hasEntry (path : String)
  | isDirectory (path : String)

/-- What a request is answered with. -/
inductive Response where
  | nothing
  | number (n : Int)
  | truth (value : Bool)
  | text (text : String)
  | bytes (data : Option (List UInt8))
  deriving DecidableEq, Repr

def Action.answer (fs : FileSystem) : Action → Response
  | openFile path mode => .number (fs.openFile path mode).1
  | close handle => .number (fs.close handle).1
  | read handle limit => .bytes (fs.read handle limit).1
  | write handle bytes => .number (fs.write handle bytes).1
  | seek handle offset origin => .number (fs.seek handle offset origin).1
  | delete path => .number (fs.delete path).1
  | makeDirectory path => .number (fs.makeDirectory path).1
  | findFirst pattern regex => .text (fs.findFirst pattern regex).1
  | findNext => .text fs.findNext.1
  | findClose => .number fs.findClose.1
  | putFile path bytes => .truth (fs.putFile path bytes).1
  | clear => .nothing

def perform (fs : FileSystem) : Request → Response × FileSystem
  | .act action => (action.answer fs, action.run fs)
  | .length handle => (.number (fs.length handle), fs)
  | .contents path => (.bytes (fs.contents? path), fs)
  | .hasEntry path => (.truth (fs.exists? path), fs)
  | .isDirectory path => (.truth (fs.isDirectory path), fs)

def answers (fs : FileSystem) : List Request → List Response
  | [] => []
  | request :: rest => (fs.perform request).1 :: answers (fs.perform request).2 rest

end FileSystem

open FileSystem

namespace Archive

/-- What the lists do for an action; `none` if a place is beyond them. -/
def act (a : Archive) : Action → Option (Response × Archive)
  | .openFile path mode => some (.number (a.openFile path mode).1, (a.openFile path mode).2)
  | .close handle => some (.number (a.close handle).1, (a.close handle).2)
  | .read handle limit => (a.read handle limit).map fun (data, a) => (.bytes data, a)
  | .write handle bytes => (a.write handle bytes).map fun (n, a) => (.number n, a)
  | .seek handle offset origin =>
    some (.number (a.seek handle offset origin).1, (a.seek handle offset origin).2)
  | .delete path => some (.number (a.delete path).1, (a.delete path).2)
  | .makeDirectory path => some (.number (a.makeDirectory path).1, (a.makeDirectory path).2)
  | .findFirst pattern regex =>
    some (.text (a.findFirst pattern regex).1, (a.findFirst pattern regex).2)
  | .findNext => some (.text a.findNext.1, a.findNext.2)
  | .findClose => some (.number a.findClose.1, a.findClose.2)
  | .putFile path bytes => (a.putFile path bytes).map fun (placed, a) => (.truth placed, a)
  | .clear => some (.nothing, {})

/-- Answers a request from the lists; `none` if a place is beyond them. -/
def perform (a : Archive) : Request → Option (Response × Archive)
  | .act action => a.act action
  | .length handle => some (.number (a.length handle), a)
  | .contents path =>
    match a.entries.lookup (normalize path) with
    | some ⟨false, data⟩ => some (.bytes data, a)
    | some ⟨true, _⟩ | none => some (.bytes none, a)
  | .hasEntry path => some (.truth (a.entries.lookup (normalize path)).isSome, a)
  | .isDirectory path =>
    some (.truth ((a.entries.lookup (normalize path)).any Entry.isDirectory), a)

/-- The answers to requests one after another; `none` if a place is ever beyond the lists. -/
def answers (a : Archive) : List Request → Option (List Response)
  | [] => some []
  | request :: rest => do
    let (answer, a) ← a.perform request
    return answer :: (← answers a rest)

namespace Mirrors

variable {a : Archive} {fs : FileSystem}

theorem act (h : a.Mirrors fs) (action : Action) :
    ∃ a', a.act action = some (action.answer fs, a') ∧ a'.Mirrors (action.run fs) := by
  have hplain {x : Response × Archive} {answer : Response} {fs' : FileSystem}
      (hanswer : x.1 = answer) (h' : x.2.Mirrors fs') :
      ∃ a', some x = some (answer, a') ∧ a'.Mirrors fs' :=
    ⟨x.2, congrArg some (Prod.ext hanswer rfl), h'⟩
  cases action with
  | openFile path mode =>
    exact hplain (congrArg Response.number (h.openFile path mode).1) (h.openFile path mode).2
  | close handle => exact hplain (congrArg Response.number (h.close handle).1) (h.close handle).2
  | read handle limit =>
    obtain ⟨a', hread, h'⟩ := h.read handle limit
    exact ⟨a', by rw [Archive.act, hread]; rfl, h'⟩
  | write handle bytes =>
    obtain ⟨a', hwrite, h'⟩ := h.write handle bytes
    exact ⟨a', by rw [Archive.act, hwrite]; rfl, h'⟩
  | seek handle offset origin =>
    exact hplain (congrArg Response.number (h.seek handle offset origin).1)
      (h.seek handle offset origin).2
  | delete path => exact hplain (congrArg Response.number (h.delete path).1) (h.delete path).2
  | makeDirectory path =>
    exact hplain (congrArg Response.number (h.makeDirectory path).1) (h.makeDirectory path).2
  | findFirst pattern regex =>
    obtain ⟨hname, h'⟩ := h.findFirst pattern regex
    exact ⟨(a.findFirst pattern regex).2, by rw [Archive.act, hname]; rfl, h'⟩
  | findNext => exact hplain (congrArg Response.text h.findNext.1) h.findNext.2
  | findClose => exact hplain (congrArg Response.number h.findClose.1) h.findClose.2
  | putFile path bytes =>
    obtain ⟨a', hput, h'⟩ := h.putFile path bytes
    exact ⟨a', by rw [Archive.act, hput]; rfl, h'⟩
  | clear => exact hplain rfl (new.congr rfl rfl rfl)

theorem perform (h : a.Mirrors fs) (request : Request) :
    ∃ a', a.perform request = some ((fs.perform request).1, a') ∧
      a'.Mirrors (fs.perform request).2 := by
  cases request with
  | act action => exact h.act action
  | length handle => exact ⟨a, by rw [Archive.perform, h.length]; rfl, h⟩
  | contents path =>
    refine ⟨a, ?_, h⟩
    simp only [Archive.perform, FileSystem.perform, contents?, h.entries]
    cases fs.entryAt? (normalize path) with
    | none => rfl
    | some entry =>
      obtain ⟨isDirectory, data⟩ := entry
      cases isDirectory <;> rfl
  | hasEntry path => exact ⟨a, by rw [Archive.perform, h.entries]; rfl, h⟩
  | isDirectory path => exact ⟨a, by rw [Archive.perform, h.entries]; rfl, h⟩

theorem answers (h : a.Mirrors fs) (requests : List Request) :
    a.answers requests = some (fs.answers requests) := by
  induction requests generalizing a fs with
  | nil => rfl
  | cons request rest ih =>
    obtain ⟨a', hperform, h'⟩ := h.perform request
    rw [Archive.answers, FileSystem.answers, hperform, Option.bind_eq_bind, Option.bind_some]
    dsimp only
    rw [ih h']
    rfl

end Mirrors

end Archive

end ControlLogic
