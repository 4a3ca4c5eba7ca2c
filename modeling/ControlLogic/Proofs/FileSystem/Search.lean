import Mathlib.Data.String.Basic
import ControlLogic.Proofs.FileSystem.Requests
import ControlLogic.Proofs.FileSystem.Wildcard

/-!
Searches for files. A search gives the names of the files that were there when it was started,
ascending and each once, whatever is done in between short of forgetting everything.
-/

set_option autoImplicit false
set_option relaxedAutoImplicit false

namespace ControlLogic.FileSystem

/-! ### Names in a directory -/

private theorem IsNormal.eq_ofComponents {path directory : String} (h : IsNormal path)
    (hd : FileSystem.parent? path = some directory) :
    ∃ parts, (∀ part ∈ parts, IsComponent part) ∧ directory = String.ofList (ofComponents parts) ∧
      path.toList = parts.flatMap ('/' :: ·) ++ '/' :: (fileName path).toList := by
  have hroot : path ≠ root := by
    rintro rfl
    cases hd.symm.trans parent?_root
  obtain ⟨parts, last, hparts, hlast, rfl⟩ := h.exists_last hroot
  rw [parent?_ofComponents parts hlast] at hd
  refine ⟨parts, hparts, (Option.some.inj hd).symm, ?_⟩
  rw [fileName_ofComponents parts hlast, String.toList_ofList, String.toList_ofList,
    ofComponents_append_last]

private theorem append_lt_append_iff (front : List Char) {s t : List Char} :
    front ++ s < front ++ t ↔ s < t := by
  induction front with
  | nil => rfl
  | cons c front ih => simpa using ih

private theorem lt_iff_fileName_lt {p q directory : String} (hp : IsNormal p) (hq : IsNormal q)
    (hpd : parent? p = some directory) (hqd : parent? q = some directory) :
    p < q ↔ fileName p < fileName q := by
  obtain ⟨parts, hparts, hd, hpath⟩ := hp.eq_ofComponents hpd
  obtain ⟨parts', hparts', hd', hpath'⟩ := hq.eq_ofComponents hqd
  obtain rfl : parts = parts' := by
    have hpaths := String.ofList_injective (hd.symm.trans hd')
    rw [← components_ofComponents hparts, hpaths, components_ofComponents hparts']
  rw [String.lt_iff_toList_lt, hpath, hpath', append_lt_append_iff, String.lt_iff_toList_lt]
  exact append_lt_append_iff ['/']

private theorem isChildOf_iff {directory path : String} :
    isChildOf directory path = true ↔ parent? path = some directory := by
  rw [isChildOf, Bool.and_eq_true, bne_iff_ne, beq_iff_eq]
  refine ⟨And.right, fun h => ⟨?_, h⟩⟩
  rintro rfl
  cases h.symm.trans parent?_root

private theorem mem_matching {fs : FileSystem} {regex : Regex} (h : regex.Documented)
    {directory glob name : String} (htaken : (regex.compile? (globExpression regex glob)).isSome) :
    name ∈ fs.matching regex directory glob ↔
      ∃ path, fs.IsFileAt path ∧ parent? path = some directory ∧ fileName path = name ∧
        MatchesPattern glob.toList name.toList := by
  obtain ⟨accepts, haccepts⟩ := Option.isSome_iff_exists.mp htaken
  have hmatching : fs.matching regex directory glob = (fs.filesIn directory).filter accepts := by
    rw [matching, haccepts]
  simp only [hmatching, filesIn, List.mem_filter, List.mem_map, accepts_iff h haccepts,
    Prod.exists, Bool.and_eq_true, isChildOf_iff, Std.TreeMap.mem_toList_iff_getElem?_eq_some,
    Bool.not_eq_true']
  constructor
  · rintro ⟨⟨path, entry, ⟨hentry, hd, hfile⟩, hname⟩, hmatch⟩
    exact ⟨path, ⟨entry, hentry, hfile⟩, hd, hname, hmatch⟩
  · rintro ⟨path, ⟨entry, hentry, hfile⟩, hd, hname, hmatch⟩
    exact ⟨⟨path, entry, ⟨hentry, hd, hfile⟩, hname⟩, hmatch⟩

private theorem Rooted.filesIn_ascending {fs : FileSystem} (h : fs.Rooted) (directory : String) :
    (fs.filesIn directory).Pairwise (· < ·) := by
  have hordered : fs.entries.toList.Pairwise fun a b => compare a.1 b.1 = .lt :=
    Std.TreeMap.ordered_keys_toList
  have hplace {a : String × Entry} (ha : a ∈ fs.entries.toList)
      (hchild : isChildOf directory a.1 = true) :
      IsNormal a.1 ∧ FileSystem.parent? a.1 = some directory := by
    have hentry := Std.TreeMap.mem_toList_iff_getElem?_eq_some.mp ha
    exact ⟨h.normal a.1 a.2 hentry, isChildOf_iff.mp hchild⟩
  refine List.pairwise_map.mpr ?_
  refine (hordered.filter _).imp_of_mem fun {a b} ha hb hlt => ?_
  obtain ⟨hmem, hkept⟩ := List.mem_filter.mp ha
  obtain ⟨hmem', hkept'⟩ := List.mem_filter.mp hb
  obtain ⟨hnormal, hd⟩ := hplace hmem (Bool.and_eq_true_iff.mp hkept).1
  obtain ⟨hnormal', hd'⟩ := hplace hmem' (Bool.and_eq_true_iff.mp hkept').1
  exact (lt_iff_fileName_lt hnormal hnormal' hd hd').mp (compare_lt_iff_lt.mp hlt)

private theorem Rooted.matching_ascending {fs : FileSystem} (h : fs.Rooted) (regex : Regex)
    (directory glob : String) : (fs.matching regex directory glob).Pairwise (· < ·) := by
  unfold matching
  split
  · exact (h.filesIn_ascending directory).filter _
  · exact .nil

/-! ### What keeps a search -/

/-- A request leaves a search to go on: it starts none, ends none and does not forget everything. -/
def Request.keepsSearch : Request → Bool
  | .act (.findFirst _ _) | .act .findClose | .act .clear => false
  | _ => true

def Request.asksNext : Request → Bool
  | .act .findNext => true
  | _ => false

def Request.name? : Request → Response → Option String
  | .act (.findFirst _ _), .text name => some name
  | .act .findNext, .text name => some name
  | _, _ => none

private theorem name?_eq_none {request : Request} (hkept : request.keepsSearch = true)
    (hnext : request.asksNext = false) (answer : Response) : request.name? answer = none := by
  unfold Request.name?
  split
  · cases hkept
  · cases hnext
  · rfl

def found (fs : FileSystem) (requests : List Request) : List String :=
  (requests.zip (fs.answers requests)).filterMap fun asked => asked.1.name? asked.2

private theorem prepare?_search {fs fs' : FileSystem} {path : String} {mode : OpenMode}
    (h : fs.prepare? path mode = some fs') : fs'.search = fs.search := by
  rw [prepare?] at h
  repeat' split at h
  all_goals cases h
  all_goals rfl

private theorem openFile_search (fs : FileSystem) (path : String) (mode : OpenMode) :
    (fs.openFile path mode).2.search = fs.search := by
  cases hprepare : fs.prepare? (normalize path) mode with
  | none => rw [openFile_of_prepare?_none hprepare]
  | some fs' =>
    simp only [openFile, hprepare]
    rw [← prepare?_search hprepare]
    split <;> rfl

private theorem close_search (fs : FileSystem) (handle : Int) :
    (fs.close handle).2.search = fs.search := by
  rw [close]
  split <;> rfl

private theorem write_search (fs : FileSystem) (handle : Int) (bytes : List UInt8) :
    (fs.write handle bytes).2.search = fs.search := by
  rw [write]
  repeat' split
  all_goals rfl

/-- Whatever is done with the file system but starting, going on with and ending searches, and
forgetting everything, keeps a search. -/
private theorem Action.run_search (fs : FileSystem) {action : Action}
    (hkept : (Request.act action).keepsSearch = true)
    (hnext : (Request.act action).asksNext = false) : (action.run fs).search = fs.search := by
  cases action with
  | openFile path mode => exact openFile_search fs path mode
  | close handle => exact close_search fs handle
  | read handle limit =>
    rw [Action.run, FileSystem.read]
    repeat' split
    all_goals rfl
  | write handle bytes => exact write_search fs handle bytes
  | seek handle offset origin =>
    rw [Action.run, FileSystem.seek]
    split <;> rfl
  | delete path =>
    rw [Action.run, FileSystem.delete]
    repeat' split
    all_goals rfl
  | makeDirectory path =>
    rw [Action.run, FileSystem.makeDirectory]
    split <;> rfl
  | findFirst pattern => cases hkept
  | findNext => cases hnext
  | findClose => cases hkept
  | putFile path bytes =>
    rw [Action.run, putFile_eq]
    split
    · exact openFile_search fs path .write
    · dsimp only
      rw [close_search, write_search, openFile_search]
  | clear => cases hkept

private theorem perform_search (fs : FileSystem) {request : Request}
    (hkept : request.keepsSearch = true)
    (hnext : request.asksNext = false) : (fs.perform request).2.search = fs.search := by
  cases request with
  | act action => exact Action.run_search fs hkept hnext
  | length handle => rfl
  | contents path => rfl
  | hasEntry path => rfl
  | isDirectory path => rfl

/-! ### What a search gives -/

private theorem findNext_of_search {fs : FileSystem} {names : List String}
    (h : fs.search = some names) :
    fs.findNext.1 = names.headD "" ∧ fs.findNext.2.search = some names.tail := by
  rw [findNext, h]
  cases names with
  | nil => exact ⟨rfl, h⟩
  | cons name rest => exact ⟨rfl, rfl⟩

private theorem found_cons (fs : FileSystem) (request : Request) (rest : List Request) :
    fs.found (request :: rest) =
      (request.name? (fs.perform request).1).toList ++ (fs.perform request).2.found rest := by
  rw [found, answers, List.zip_cons_cons, List.filterMap_cons]
  cases request.name? (fs.perform request).1 <;> rfl

/-- Requests that keep a search get the names it has still to give, one for each request for the
next name, and then the empty text. -/
private theorem found_of_search {fs : FileSystem} {names : List String} (h : fs.search = some names)
    {requests : List Request} (hkept : ∀ request ∈ requests, request.keepsSearch = true) :
    fs.found requests = names.takeD (requests.countP Request.asksNext) "" := by
  induction requests generalizing fs names with
  | nil => rfl
  | cons request rest ih =>
    have hrest : ∀ r ∈ rest, r.keepsSearch = true := fun r hr => hkept r (List.mem_cons_of_mem _ hr)
    cases hnext : request.asksNext with
    | true =>
      obtain rfl : request = .act .findNext := by
        unfold Request.asksNext at hnext
        split at hnext
        · rfl
        · cases hnext
      obtain ⟨hname, hsearch⟩ := findNext_of_search h
      have hfirst : Request.name? (.act .findNext) (fs.perform (.act .findNext)).1 =
          some (names.headD "") := congrArg some hname
      rw [found_cons, hfirst, List.countP_cons_of_pos hnext, List.takeD]
      exact congrArg (names.headD "" :: ·) (ih hsearch hrest)
    | false =>
      have hnone := name?_eq_none (hkept request List.mem_cons_self) hnext (fs.perform request).1
      rw [found_cons, hnone, List.countP_cons_of_neg (by simp [hnext])]
      exact ih ((perform_search fs (hkept request List.mem_cons_self) hnext).trans h) hrest

private theorem findFirst_eq (fs : FileSystem) (pattern : String) (regex : Regex) :
    let place := splitPath (normalize pattern)
    fs.findFirst pattern regex =
      FileSystem.findNext { fs with search := some (fs.matching regex place.1 place.2) } := by
  rw [findFirst]

private theorem found_findFirst (fs : FileSystem) (pattern : String) (regex : Regex)
    {requests : List Request} (hkept : ∀ request ∈ requests, request.keepsSearch = true) :
    let place := splitPath (normalize pattern)
    fs.found (.act (.findFirst pattern regex) :: requests) =
      (fs.matching regex place.1 place.2).takeD (requests.countP Request.asksNext + 1) "" := by
  intro place
  let started : FileSystem := { fs with search := some (fs.matching regex place.1 place.2) }
  have hstarted : started.search = some (fs.matching regex place.1 place.2) := rfl
  obtain ⟨hname, hsearch⟩ := findNext_of_search hstarted
  have hfirst : fs.findFirst pattern regex = started.findNext := findFirst_eq fs pattern regex
  have hperform : fs.perform (.act (.findFirst pattern regex)) =
      (.text started.findNext.1, started.findNext.2) := by
    rw [← hfirst]
    rfl
  rw [found_cons, hperform, hname, found_of_search hsearch hkept, List.takeD]
  rfl

/--
A search started in any file system, with an engine for regular expressions that does what it is
documented to do, finds the files in the directory of its pattern whose names match the last
component of the pattern; it finds nothing if the engine does not take the expression of the
pattern. Its names are given ascending and each once, the first at its start and one for each
request for the next name, and then the empty text; what else is done with the file system in
between changes none of them, if it starts and ends no search and does not forget everything.
-/
theorem search_gives_files_that_were_there {regex : Regex} (hregex : regex.Documented)
    (history : List Action) (pattern : String) (requests : List Request)
    (hkept : ∀ request ∈ requests, request.keepsSearch = true) :
    let fs : FileSystem := runAll {} history
    let place := splitPath (normalize pattern)
    let taken := regex.compile? (globExpression regex place.2)
    ∃ names : List String, names.Pairwise (· < ·) ∧
      (taken.isSome → ∀ name, name ∈ names ↔
        ∃ path, fs.IsFileAt path ∧ parent? path = some place.1 ∧ fileName path = name ∧
          MatchesPattern place.2.toList name.toList) ∧
      (taken = none → names = []) ∧
      fs.found (.act (.findFirst pattern regex) :: requests) =
        names.takeD (requests.countP Request.asksNext + 1) "" := by
  intro fs place taken
  have hrooted : fs.Rooted := (runAll_keeps rooted_seed history).1
  refine ⟨fs.matching regex place.1 place.2, hrooted.matching_ascending regex place.1 place.2,
    fun htaken name => mem_matching hregex htaken, fun hrefused => ?_,
    found_findFirst fs pattern regex hkept⟩
  unfold matching
  rw [show regex.compile? (globExpression regex place.2) = none from hrefused]

/-- A search with the standard engine goes on over a file that is deleted and one that is made while
it does. -/
theorem search_goes_on_over_changes :
    let history : List Action := [.putFile "/user/b" [], .putFile "/user/a" []]
    let between : List Request :=
      [.act (.delete "/user/b"), .act .findNext, .act (.putFile "/user/c" []), .act .findNext]
    let fs : FileSystem := runAll {} history
    Regex.standard.Documented ∧ (∀ request ∈ between, request.keepsSearch = true) ∧
      fs.found (.act (.findFirst "/USER/?" .standard) :: between) = ["a", "b", ""] ∧
      ∃ names : List String, names.Pairwise (· < ·) ∧
        (∀ name, name ∈ names ↔
          ∃ path, fs.IsFileAt path ∧ parent? path = some "/user" ∧ fileName path = name ∧
            MatchesPattern "?".toList name.toList) ∧
        fs.found (.act (.findFirst "/USER/?" .standard) :: between) = names.takeD 3 "" := by
  intro history between fs
  have hkept : ∀ request ∈ between, request.keepsSearch = true := by decide
  have hplace : splitPath (normalize "/USER/?") = ("/user", "?") := by decide +kernel
  refine ⟨Regex.documented_standard, hkept, by decide +kernel, ?_⟩
  obtain ⟨names, hascending, hnames, -, hfound⟩ :=
    search_gives_files_that_were_there Regex.documented_standard history "/USER/?" between hkept
  rw [hplace] at hnames
  obtain ⟨accepts, htaken⟩ := compile?_globExpression "?"
  exact ⟨names, hascending, hnames (htaken ▸ rfl), hfound⟩

/-- Forgetting everything ends a search that still has a file to give: what is given is no list of
all files that were there. -/
theorem cleared_search_misses_a_file :
    let history : List Action := [.putFile "/user/a" [], .putFile "/user/b" []]
    let fs : FileSystem := runAll {} history
    let given := fs.found [.act (.findFirst "/user/*" .standard), .act .clear, .act .findNext]
    splitPath (normalize "/user/*") = ("/user", "*") ∧ given = ["a", ""] ∧
      ¬ ∃ names : List String, names.Pairwise (· < ·) ∧
        (∀ name, name ∈ names ↔
          ∃ path, fs.IsFileAt path ∧ parent? path = some "/user" ∧ fileName path = name ∧
            MatchesPattern "*".toList name.toList) ∧
        given = names.takeD 2 "" := by
  intro history fs given
  have hgiven : given = ["a", ""] := by decide +kernel
  refine ⟨by decide +kernel, hgiven, ?_⟩
  rintro ⟨names, hascending, hnames, htaken⟩
  have hfile : fs.IsFileAt "/user/b" := by decide +kernel
  have hmem : "b" ∈ names := (hnames "b").mpr
    ⟨"/user/b", hfile, by decide +kernel, by decide +kernel,
      ⟨["b".toList], .cons (.any (by decide)) .nil, rfl⟩⟩
  rw [hgiven] at htaken
  rcases names with _ | ⟨first, _ | ⟨second, rest⟩⟩
  · cases hmem
  · obtain ⟨rfl, -⟩ := List.cons.inj htaken
    exact absurd hmem (by decide)
  · -- The second name would be the empty text, which comes before all others.
    obtain ⟨rfl, htail⟩ := List.cons.inj htaken
    obtain ⟨rfl, -⟩ := List.cons.inj htail
    have hlt := (List.pairwise_cons.mp hascending).1 "" List.mem_cons_self
    exact absurd hlt (by decide)

end ControlLogic.FileSystem
