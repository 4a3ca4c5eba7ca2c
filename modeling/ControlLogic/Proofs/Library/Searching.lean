import ControlLogic.Library.Text
import ControlLogic.Proofs.Text.Search

/-!
Routines that look for a text in a variable or take text off it. Positions are counted from one, and
a start below one counts as one.
-/

set_option autoImplicit false
set_option relaxedAutoImplicit false

namespace ControlLogic.Library

open Text

variable {args : List Arg}

def positions (args : List Arg) : Set Nat :=
  {p | ∃ i, p = i + 1 ∧ StandsAt (chars args 0) (chars args 1) i}

def startAsked (args : List Arg) : Int :=
  max (number args 2) 1

def forwards (args : List Arg) : Set Nat :=
  {p | p ∈ positions args ∧ (2 < args.length → startAsked args ≤ p)}

def backwards (args : List Arg) : Set Nat :=
  {p | p ∈ positions args ∧ (2 < args.length → (p : Int) ≤ startAsked args)}

/-- An answer that gives the best of some positions; zero if nothing is looked for or there is no
position. -/
def Gives (best : Set Nat → Nat → Prop) (args : List Arg) (candidates : Set Nat) (v : Value) :
    Prop :=
  ∃ n : Nat, v = .number n ∧ (n = 0 ↔ chars args 0 = [] ∨ candidates = ∅) ∧
    (n ≠ 0 → best candidates n)

/-- A reply that takes `front` off the second argument: it is the answer, and what follows it is
written back. -/
def Takes (args : List Arg) (front : List Char) (reply : Reply) : Prop :=
  ∃ back, chars args 1 = front ++ back ∧
    reply = { value := ofChars front, effects := writeTo args 1 (ofChars back) }

/-! ### Positions counted from zero and from one -/

private theorem startAsked_le {i : Nat} :
    startAsked args ≤ (i + 1 : Nat) ↔ position args 2 ≤ i := by
  rw [startAsked, position, count]
  omega

private theorem le_startAsked {i : Nat} :
    ((i + 1 : Nat) : Int) ≤ startAsked args ↔ i ≤ position args 2 := by
  rw [startAsked, position, count]
  omega

private theorem forwards_eq_image :
    forwards args = (· + 1) '' placesFrom (chars args 0) (chars args 1) (searchStart args) := by
  ext p
  constructor
  · rintro ⟨⟨i, rfl, hstands⟩, hstart⟩
    refine ⟨i, ⟨?_, hstands⟩, rfl⟩
    rw [searchStart]
    split
    · exact startAsked_le.mp (hstart ‹_›)
    · exact Nat.zero_le i
  · rintro ⟨i, ⟨hi, hstands⟩, rfl⟩
    refine ⟨⟨i, rfl, hstands⟩, fun hlength => startAsked_le.mpr ?_⟩
    rwa [searchStart, if_pos hlength] at hi

def searchLimit (args : List Arg) : Nat :=
  if args.length > 2 then position args 2 else (chars args 1).length

private theorem backwards_eq_image :
    backwards args = (· + 1) '' placesUpTo (chars args 0) (chars args 1) (searchLimit args) := by
  ext p
  constructor
  · rintro ⟨⟨i, rfl, hstands⟩, hstart⟩
    refine ⟨i, ⟨?_, hstands⟩, rfl⟩
    rw [searchLimit]
    split
    · exact le_startAsked.mp (hstart ‹_›)
    · exact Nat.le_trans (Nat.le_add_right _ _) hstands.le_length
  · rintro ⟨i, ⟨hi, hstands⟩, rfl⟩
    refine ⟨⟨i, rfl, hstands⟩, fun hlength => le_startAsked.mpr ?_⟩
    rwa [searchLimit, if_pos hlength] at hi

private theorem foundAt_some (i : Nat) : foundAt (some i) = .number ((i + 1 : Nat) : Int) :=
  rfl

private theorem isLeast_succ {s : Set Nat} {i : Nat} (h : IsLeast s i) :
    IsLeast ((· + 1) '' s) (i + 1) := by
  refine ⟨⟨i, h.1, rfl⟩, ?_⟩
  rintro _ ⟨j, hj, rfl⟩
  exact Nat.succ_le_succ (h.2 hj)

private theorem isGreatest_succ {s : Set Nat} {i : Nat} (h : IsGreatest s i) :
    IsGreatest ((· + 1) '' s) (i + 1) := by
  refine ⟨⟨i, h.1, rfl⟩, ?_⟩
  rintro _ ⟨j, hj, rfl⟩
  exact Nat.succ_le_succ (h.2 hj)

private theorem Gives.of_found {best : Set Nat → Nat → Prop} {candidates : Set Nat} {i : Nat}
    (hneedle : chars args 0 ≠ []) (hmem : i + 1 ∈ candidates) (h : best candidates (i + 1)) :
    Gives best args candidates (foundAt (some i)) := by
  refine ⟨i + 1, foundAt_some i, iff_of_false (Nat.succ_ne_zero i) ?_, fun _ => h⟩
  rw [not_or]
  exact ⟨hneedle, Set.nonempty_iff_ne_empty.mp ⟨_, hmem⟩⟩

private theorem Gives.of_none {best : Set Nat → Nat → Prop} {candidates : Set Nat}
    (h : chars args 0 = [] ∨ candidates = ∅) : Gives best args candidates (foundAt none) :=
  ⟨0, rfl, iff_of_true rfl h, fun hne => absurd rfl hne⟩

/-! ### Searching -/

private theorem find_gives (args : List Arg) : Gives IsLeast args (forwards args) (find args) := by
  rw [find, forwards_eq_image]
  cases hfound : findFrom (chars args 0) (chars args 1) (searchStart args) with
  | some i =>
    obtain ⟨hneedle, hleast⟩ := findFrom_eq_some hfound
    exact .of_found hneedle (isLeast_succ hleast).1 (isLeast_succ hleast)
  | none =>
    refine .of_none (or_iff_not_imp_left.mpr fun hneedle => ?_)
    rw [findFrom_eq_none hneedle hfound, Set.image_empty]

private theorem findBackwards_gives (args : List Arg) :
    Gives IsGreatest args (backwards args) (findBackwards args) := by
  have hanswer : findBackwards args =
      foundAt (findLast (chars args 0) (chars args 1) (searchLimit args)) := rfl
  rw [hanswer, backwards_eq_image]
  cases hfound : findLast (chars args 0) (chars args 1) (searchLimit args) with
  | some i =>
    obtain ⟨hneedle, hgreatest⟩ := findLast_eq_some hfound
    exact .of_found hneedle (isGreatest_succ hgreatest).1 (isGreatest_succ hgreatest)
  | none =>
    refine .of_none (or_iff_not_imp_left.mpr fun hneedle => ?_)
    rw [findLast_eq_none hneedle hfound, Set.image_empty]

/-! ### Taking text off a variable -/

private theorem remove_of_found (context : Context) {i : Nat}
    (h : findFrom (chars args 0) (chars args 1) (searchStart args) = some i) :
    ∃ front, front.length = i ∧ Takes args (front ++ chars args 0) (remove context args) := by
  have hstands := (findFrom_eq_some h).2.1.2
  refine ⟨(chars args 1).take i, ?_, (chars args 1).drop (i + (chars args 0).length),
    hstands.eq_append, ?_⟩
  · have hlength := hstands.le_length
    rw [List.length_take]
    omega
  · rw [remove, h, ← hstands.take_eq]

private theorem remove_follows_find (context : Context) {n : Nat} (h : find args = .number n) :
    (n = 0 ∧ remove context args = .pure .empty) ∨
      ∃ front, n = front.length + 1 ∧
        Takes args (front ++ chars args 0) (remove context args) := by
  rw [find] at h
  cases hfound : findFrom (chars args 0) (chars args 1) (searchStart args) with
  | none =>
    rw [hfound] at h
    have hn : (0 : Int) = n := Value.number.inj h
    exact .inl ⟨by omega, by rw [remove, hfound]⟩
  | some i =>
    rw [hfound, foundAt_some] at h
    have hn : ((i + 1 : Nat) : Int) = n := Value.number.inj h
    obtain ⟨front, rfl, htakes⟩ := remove_of_found context hfound
    exact .inr ⟨front, by omega, htakes⟩

private theorem removeByLength_takes (context : Context)
    (h : (number args 0).toNat ≤ (chars args 1).length) :
    ∃ front, front.length = (number args 0).toNat ∧
      Takes args front (removeByLength context args) := by
  refine ⟨(chars args 1).take (number args 0).toNat, ?_, (chars args 1).drop (number args 0).toNat,
    (List.take_append_drop _ _).symm, ?_⟩
  · rw [List.length_take]
    omega
  · rw [removeByLength, count, if_neg (by omega)]

/-- Searching forwards gives the least position from the start on at which a text stands, searching
backwards the greatest up to the start, and each gives zero exactly if there is none or nothing is
looked for. What is taken off a variable up to a delimiter ends with the delimiter at the position a
search with the same arguments finds; the variable is left with what follows, and is not written
where nothing is found. What is taken off by a length has that length, a length below zero counting
as zero, and nothing is taken off or written where the text is shorter. -/
theorem searching_and_removing_agree (context : Context) (args : List Arg) :
    Gives IsLeast args (forwards args) (find args) ∧
      Gives IsGreatest args (backwards args) (findBackwards args) ∧
      (∀ n : Nat, find args = .number n →
        (n = 0 ∧ remove context args = .pure .empty) ∨
          ∃ front, n = front.length + 1 ∧
            Takes args (front ++ chars args 0) (remove context args)) ∧
      (number args 0 ≤ (chars args 1).length → ∃ front, front.length = (number args 0).toNat ∧
        Takes args front (removeByLength context args)) ∧
      ((chars args 1).length < number args 0 → removeByLength context args = .pure .empty) := by
  refine ⟨find_gives args, findBackwards_gives args,
    fun n hfind => remove_follows_find context hfind,
    fun hlength => removeByLength_takes context (by omega), fun hlength => ?_⟩
  rw [removeByLength, count, if_pos (by omega)]

/-- A comma that is looked for from the third character of a variable on. -/
def secondComma : List Arg :=
  [⟨.text ",", none⟩, ⟨.text "a,b,c", some (.plain "LINE")⟩, ⟨.number 3, none⟩]

/-- The comma is found at the fourth character, going backwards at the second, and the text up to it
is taken off the variable. -/
theorem second_comma_ends_text_removed (context : Context) :
    find secondComma = .number 4 ∧ findBackwards secondComma = .number 2 ∧
      Takes secondComma "a,b,".toList (remove context secondComma) := by
  obtain ⟨-, -, hremove, -, -⟩ := searching_and_removing_agree context secondComma
  have hfind : find secondComma = .number 4 := by decide +kernel
  refine ⟨hfind, by decide +kernel, ?_⟩
  obtain ⟨hzero, -⟩ | ⟨front, hfour, back, hsplit, hreply⟩ := hremove 4 hfind
  · cases hzero
  · have hchars : chars secondComma 1 = "a,b,".toList ++ "c".toList := by decide +kernel
    have hlength : (front ++ chars secondComma 0).length = "a,b,".toList.length := by
      rw [List.length_append, show (chars secondComma 0).length = 1 by decide +kernel]
      exact hfour.symm
    obtain ⟨hfront, hback⟩ := List.append_inj (hchars ▸ hsplit) hlength.symm
    exact ⟨back, hfront ▸ hsplit, hfront ▸ hreply⟩

end ControlLogic.Library
