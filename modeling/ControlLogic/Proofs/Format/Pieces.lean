import ControlLogic.Format

/-!
Templates piece by piece. A template is cut into characters that stand for themselves and into
conversions, and its text is what the pieces are written as, one after another; a piece takes the
next argument or none. So where one template ends between two pieces, another one behind it is
filled by itself, with the arguments that the first one leaves.
-/

set_option autoImplicit false
set_option relaxedAutoImplicit false

namespace ControlLogic.Format

/-- A piece of a template: a character that stands for itself, a conversion with the characters it
is written with behind its percent sign, and a conversion that the template ends inside. -/
inductive Piece where
  | plain (c : Char)
  | conversion (c : Conversion) (raw : List Char)
  | cut (raw : List Char)
  deriving DecidableEq, Repr

def Conversion.takesArgument (c : Conversion) : Bool :=
  ['d', 'i', 'u', 'x', 'X', 'c', 's'].contains c.letter

namespace Piece

def takesArgument : Piece → Bool
  | conversion c _ => c.takesArgument
  | plain _ | cut _ => false

def isCut : Piece → Bool
  | cut _ => true
  | plain _ | conversion _ _ => false

def write (args : List Value) : Piece → List Char
  | plain c => [c]
  | conversion c raw =>
    if c.letter = '%' then ['%'] else (c.write? args.head?).getD ('%' :: raw)
  | cut raw => '%' :: raw

def leaves (args : List Value) (p : Piece) : List Value :=
  if p.takesArgument then args.tail else args

end Piece

def pieces (template : List Char) : List Piece :=
  match template with
  | [] => []
  | c :: cs =>
    if c = '%' then
      match _h : readConversion cs with
      | none => [.cut cs]
      | some (conversion, raw, rest) => .conversion conversion raw :: pieces rest
    else .plain c :: pieces cs
termination_by template.length
decreasing_by
  · have shorter := readConversion_length _h
    simp only [List.length_cons]
    omega
  · simp

def fill : List Piece → List Value → List Char
  | [], _ => []
  | p :: ps, args => p.write args ++ fill ps (p.leaves args)

def isComplete (template : List Char) : Bool :=
  (pieces template).all fun p => !p.isCut

def argumentsTaken (template : List Char) : Nat :=
  (pieces template).countP Piece.takesArgument

def doubled (text : List Char) : List Char :=
  text.flatMap fun c => if c = '%' then ['%', '%'] else [c]

/-! ### The pieces of a template -/

@[simp] theorem pieces_nil : pieces [] = [] := by
  rw [pieces]

private theorem pieces_plain {c : Char} (h : c ≠ '%') (cs : List Char) :
    pieces (c :: cs) = .plain c :: pieces cs := by
  rw [pieces, if_neg h]

private theorem pieces_cut {cs : List Char} (h : readConversion cs = none) :
    pieces ('%' :: cs) = [.cut cs] := by
  rw [pieces, if_pos rfl]
  split
  · rfl
  next hread => cases h.symm.trans hread

theorem pieces_conversion {cs raw rest : List Char} {c : Conversion}
    (h : readConversion cs = some (c, raw, rest)) :
    pieces ('%' :: cs) = .conversion c raw :: pieces rest := by
  rw [pieces, if_pos rfl]
  split
  next hread => cases h.symm.trans hread
  next hread =>
    cases h.symm.trans hread
    rfl

private theorem takeWhile_append_of_ends {p : Char → Bool} {cs : List Char}
    (h : cs.dropWhile p ≠ [])
    (behind : List Char) :
    (cs ++ behind).takeWhile p = cs.takeWhile p ∧
      (cs ++ behind).dropWhile p = cs.dropWhile p ++ behind := by
  induction cs with
  | nil => exact absurd rfl h
  | cons c cs ih =>
    by_cases hc : p c = true
    · rw [List.dropWhile_cons_of_pos hc] at h
      obtain ⟨htake, hdrop⟩ := ih h
      simp [hc, htake, hdrop]
    · simp [hc]

private theorem modifiers_append {cs : List Char} (h : (modifiers cs).2 ≠ []) (behind : List Char) :
    modifiers (cs ++ behind) = ((modifiers cs).1, (modifiers cs).2 ++ behind) := by
  have hsizes : ((cs.dropWhile isFlag).dropWhile Char.isDigit).dropWhile isSize ≠ [] := h
  have hwidth : (cs.dropWhile isFlag).dropWhile Char.isDigit ≠ [] := by
    intro hnil
    simp [hnil] at hsizes
  have hflags : cs.dropWhile isFlag ≠ [] := by
    intro hnil
    simp [hnil] at hwidth
  obtain ⟨htake, hdrop⟩ := takeWhile_append_of_ends hflags behind
  obtain ⟨htake', hdrop'⟩ := takeWhile_append_of_ends hwidth behind
  obtain ⟨htake'', hdrop''⟩ := takeWhile_append_of_ends hsizes behind
  unfold modifiers
  simp only [htake, hdrop, htake', hdrop', htake'', hdrop'']

private theorem readConversion_append {cs raw rest : List Char} {c : Conversion}
    (h : readConversion cs = some (c, raw, rest)) (behind : List Char) :
    readConversion (cs ++ behind) = some (c, raw, rest ++ behind) := by
  unfold readConversion at h ⊢
  split at h
  · cases h
  next flags digits sizes letter left hread =>
    have hends : (modifiers cs).2 ≠ [] := by simp [hread]
    rw [modifiers_append hends, hread]
    cases h
    rfl

private theorem isComplete_plain {c : Char} (h : c ≠ '%') (cs : List Char) :
    isComplete (c :: cs) = isComplete cs := by
  rw [isComplete, pieces_plain h]
  rfl

private theorem isComplete_conversion {cs raw rest : List Char} {c : Conversion}
    (h : readConversion cs = some (c, raw, rest)) :
    isComplete ('%' :: cs) = isComplete rest := by
  rw [isComplete, pieces_conversion h]
  rfl

private theorem pieces_append {template : List Char} (h : isComplete template = true)
    (behind : List Char) : pieces (template ++ behind) = pieces template ++ pieces behind := by
  fun_induction pieces template with
  | case1 => rfl
  | case2 cs hread =>
    rw [isComplete, pieces_cut hread] at h
    cases h
  | case3 cs conversion raw rest hread ih =>
    rw [isComplete_conversion hread] at h
    rw [List.cons_append, pieces_conversion (readConversion_append hread behind), ih h]
    rfl
  | case4 c cs hc ih =>
    rw [isComplete_plain hc] at h
    rw [List.cons_append, pieces_plain hc, ih h]
    rfl

/-! ### What pieces are written as -/

private theorem isSome_write? (c : Conversion) (arg : Option Value) :
    (c.write? arg).isSome = c.takesArgument := by
  unfold Conversion.write? Conversion.takesArgument
  split <;> simp_all

private theorem fill_conversion {cs raw rest : List Char} {c : Conversion}
    (h : readConversion cs = some (c, raw, rest)) (args : List Value) :
    fill (pieces ('%' :: cs)) args = (Piece.conversion c raw).write args ++
      fill (pieces rest) (if c.takesArgument then args.tail else args) := by
  rw [pieces_conversion h]
  rfl

theorem expand_eq_fill (template : List Char) (args : List Value) :
    expand template args = fill (pieces template) args := by
  fun_induction expand template args with
  | case1 args => rw [pieces_nil, fill]
  | case2 args cs hread => simp [pieces_cut hread, fill, Piece.write]
  | case3 args cs conversion raw rest hread hletter ih =>
    have hnone : conversion.takesArgument = false := by
      simp [Conversion.takesArgument, hletter]
    rw [fill_conversion hread, ih]
    simp [Piece.write, hletter, hnone]
  | case4 args cs conversion raw rest hread hletter text hwrite ih =>
    have htakes : conversion.takesArgument = true := by
      rw [← isSome_write? conversion args.head?, hwrite]
      rfl
    rw [fill_conversion hread, ih]
    simp [Piece.write, hletter, hwrite, htakes]
  | case5 args cs conversion raw rest hread hletter hwrite ih =>
    have hnone : conversion.takesArgument = false := by
      rw [← isSome_write? conversion args.head?, hwrite]
      rfl
    rw [fill_conversion hread, ih]
    simp [Piece.write, hletter, hwrite, hnone]
  | case6 args c cs hc ih =>
    rw [pieces_plain hc, ih]
    rfl

private theorem fill_append (ps qs : List Piece) (args : List Value) :
    fill (ps ++ qs) args =
      fill ps args ++ fill qs (args.drop (ps.countP Piece.takesArgument)) := by
  induction ps generalizing args with
  | nil => rfl
  | cons p ps ih =>
    have hleft : (p.leaves args).drop (ps.countP Piece.takesArgument) =
        args.drop ((p :: ps).countP Piece.takesArgument) := by
      unfold Piece.leaves
      by_cases hp : p.takesArgument = true
      · rw [if_pos hp, List.countP_cons_of_pos hp, List.drop_tail]
      · rw [if_neg hp, List.countP_cons_of_neg hp]
    simp only [List.cons_append, fill, ih, hleft, List.append_assoc]

private theorem expand_append {template : List Char} (h : isComplete template = true)
    (behind : List Char) (args : List Value) :
    expand (template ++ behind) args =
      expand template args ++ expand behind (args.drop (argumentsTaken template)) := by
  rw [expand_eq_fill, pieces_append h, fill_append, expand_eq_fill, expand_eq_fill]
  rfl

private theorem readConversion_percent (cs : List Char) :
    readConversion ('%' :: cs) = some (⟨false, false, 0, '%'⟩, ['%'], cs) := by
  rfl

private theorem expand_doubled (text : List Char) (args : List Value) :
    expand (doubled text) args = text := by
  rw [expand_eq_fill]
  induction text with
  | nil => rw [doubled, List.flatMap_nil, pieces_nil, fill]
  | cons c cs ih =>
    by_cases hc : c = '%'
    · subst hc
      have hsplit : doubled ('%' :: cs) = '%' :: '%' :: doubled cs := rfl
      rw [hsplit, pieces_conversion (readConversion_percent _), fill, Piece.leaves]
      simp [Piece.write, Piece.takesArgument, Conversion.takesArgument, ih]
    · have hsplit : doubled (c :: cs) = c :: doubled cs := by simp [doubled, hc]
      rw [hsplit, pieces_plain hc, fill, Piece.leaves]
      simp [Piece.write, Piece.takesArgument, ih]

def doubledString (text : String) : String :=
  String.ofList (doubled text.toList)

/--
Templates are filled one after another: behind a template that does not end inside a conversion,
another one is filled by itself, with the arguments that are left once each conversion of the first
that takes an argument has taken one. And a text with each percent sign twice stands for the text,
whatever the arguments.
-/
theorem templates_are_filled_one_after_another (args : List Value) :
    (∀ front behind : String, isComplete front.toList = true →
      format (front ++ behind) args =
        format front args ++ format behind (args.drop (argumentsTaken front.toList))) ∧
      ∀ text : String, format (doubledString text) args = text := by
  refine ⟨fun front behind hfront => ?_, fun text => ?_⟩
  · unfold format
    rw [String.toList_append, expand_append hfront, String.ofList_append]
  · unfold format doubledString
    rw [String.toList_ofList, expand_doubled, String.ofList_toList]

/-- A template of two conversions that take an argument and one that takes none leaves the third
argument for the template behind it. -/
theorem third_argument_is_left :
    let front := "%05d%% of %s, "
    let args : List Value := [.number (-42), .text "all", .number 7]
    isComplete front.toList = true ∧ argumentsTaken front.toList = 2 ∧
      format (front ++ "%q%3d") args = format front args ++ format "%q%3d" [.number 7] ∧
      format front args = "-0042% of all, " := by
  intro front args
  have hcomplete : isComplete front.toList = true := by decide +kernel
  have htaken : argumentsTaken front.toList = 2 := by decide +kernel
  have hfilled := (templates_are_filled_one_after_another args).1 front "%q%3d" hcomplete
  rw [htaken] at hfilled
  exact ⟨hcomplete, htaken, hfilled, by decide +kernel⟩

end ControlLogic.Format
