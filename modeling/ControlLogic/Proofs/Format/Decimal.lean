import ControlLogic.Proofs.Format.Pieces
import ControlLogic.Proofs.Library.Table
import ControlLogic.Proofs.Slot.Key

/-!
Numbers written in decimal and read back. However a decimal conversion fills its width, the text is
a numeral of the number with blanks around it: zeros stand between sign and digits, and blanks on
one side. So the readers of numbers agree on it, those that take the integer at the head of a text
and those that want the text to be an integer as a whole.
-/

set_option autoImplicit false
set_option relaxedAutoImplicit false

namespace ControlLogic

namespace Number

/-! ### Digits -/

private theorem digits?_zero_cons (cs : List Char) : digits? 10 ('0' :: cs) = digits? 10 cs := by
  rfl

private theorem digits?_zeros (k : Nat) (cs : List Char) :
    digits? 10 (List.replicate k '0' ++ cs) = digits? 10 cs := by
  induction k with
  | zero => rfl
  | succ k ih => rw [List.replicate_succ, List.cons_append, digits?_zero_cons, ih]

private theorem digits?_concat (cs : List Char) (c : Char) :
    digits? 10 (cs ++ [c]) = do return 10 * (← digits? 10 cs) + (← digit? 10 c) := by
  rw [digits?, List.foldl_append]
  rfl

private theorem natural?_of_ne_nil {cs : List Char} (h : cs ≠ []) :
    natural? 10 cs = digits? 10 cs := by
  cases cs with
  | nil => exact absurd rfl h
  | cons c cs => rfl

private theorem digit?_eq_some {c : Char} {d : Nat} (h : digit? 10 c = some d) :
    c.isDigit = true ∧ c.toNat - '0'.toNat = d := by
  unfold digit? Text.hexDigit? at h
  by_cases hc : c.isDigit = true
  · rw [if_pos hc, Option.filter_eq_some_iff] at h
    exact ⟨hc, Option.some.inj h.1⟩
  · -- A letter stands for ten or more.
    rw [if_neg hc, Option.filter_eq_some_iff] at h
    obtain ⟨hletter, hd⟩ := h
    split at hletter
    · cases hletter
      simp only [decide_eq_true_eq] at hd
      omega
    · split at hletter
      · cases hletter
        simp only [decide_eq_true_eq] at hd
        omega
      · cases hletter

private theorem isDigit_of_digits? {cs : List Char} {n : Nat} (h : digits? 10 cs = some n) :
    ∀ c ∈ cs, c.isDigit = true := by
  induction cs using List.reverseRecOn generalizing n with
  | nil => simp
  | append_singleton cs d ih =>
    rw [digits?_concat] at h
    obtain ⟨m, hm, hd⟩ := Option.bind_eq_some_iff.mp h
    obtain ⟨k, hk, -⟩ := Option.bind_eq_some_iff.mp hd
    intro c hc
    rcases List.mem_append.mp hc with hc | hc
    · exact ih hm c hc
    · obtain rfl := List.mem_singleton.mp hc
      exact (digit?_eq_some hk).1

/-! ### Numerals -/

/-- A text that is a sign or nothing, then digits, and that stands for a number. -/
structure Spells (cs : List Char) (n : Int) : Prop where
  shape : ∃ c digits, cs = c :: digits ∧ (c.isDigit = true ∨ c = '-') ∧
    ∀ d ∈ digits, d.isDigit = true
  value : word? 10 cs = some n

private theorem decimal_eq (n : Int) :
    (decimal n).toList = (if n < 0 then ['-'] else []) ++ decimalDigits n.natAbs := by
  unfold decimal
  split
  · rw [String.toList_ofList]
    rfl
  · rw [String.toList_ofList, List.nil_append]

private theorem isDigit_of_mem_decimalDigits {n : Nat} {c : Char} (h : c ∈ decimalDigits n) :
    c.isDigit = true :=
  Nat.isDigit_of_mem_toDigits (by decide) (by decide) h

private theorem isDigit_of_mem_zeros {k n : Nat} {c : Char}
    (h : c ∈ List.replicate k '0' ++ decimalDigits n) : c.isDigit = true := by
  rcases List.mem_append.mp h with hzero | hdigit
  · rw [List.eq_of_mem_replicate hzero]
    decide
  · exact isDigit_of_mem_decimalDigits hdigit

private theorem natural?_zeros (k n : Nat) :
    natural? 10 (List.replicate k '0' ++ decimalDigits n) = some n := by
  have hne : List.replicate k '0' ++ decimalDigits n ≠ [] := by
    simp [decimalDigits, Nat.toDigits_ne_nil]
  rw [natural?_of_ne_nil hne, digits?_zeros, digits?_decimalDigits]

private theorem spells_zeros {n : Int} (hn : InWord n) (k : Nat) :
    Spells ((if n < 0 then ['-'] else []) ++ (List.replicate k '0' ++ decimalDigits n.natAbs))
      n := by
  have hvalue := natural?_zeros k n.natAbs
  by_cases hneg : n < 0
  · rw [if_pos hneg]
    refine ⟨⟨'-', _, rfl, .inr rfl, fun d hd => isDigit_of_mem_zeros hd⟩, ?_⟩
    have hread : integer? 10 ('-' :: (List.replicate k '0' ++ decimalDigits n.natAbs)) =
        some n := by
      rw [integer?, hvalue]
      simp only [Option.map_some, Int.ofNat_eq_natCast]
      exact congrArg some (by omega)
    rw [List.singleton_append, word?, hread]
    simp [Option.filter, hn]
  · rw [if_neg hneg, List.nil_append]
    cases hdigits : List.replicate k '0' ++ decimalDigits n.natAbs with
    | nil => simp [decimalDigits, Nat.toDigits_ne_nil] at hdigits
    | cons c cs =>
      rw [hdigits] at hvalue
      have hall : ∀ d ∈ c :: cs, d.isDigit = true := by
        intro d hd
        rw [← hdigits] at hd
        exact isDigit_of_mem_zeros hd
      have hc : c.isDigit = true := hall c List.mem_cons_self
      refine ⟨⟨c, cs, rfl, .inl hc, fun d hd => hall d (List.mem_cons_of_mem _ hd)⟩, ?_⟩
      have hread : integer? 10 (c :: cs) = some n := by
        rw [integer?_cons, if_neg (by rintro rfl; exact absurd hc (by decide)),
          if_neg (by rintro rfl; exact absurd hc (by decide)), hvalue]
        simp only [Option.map_some, Int.ofNat_eq_natCast]
        exact congrArg some (by omega)
      rw [word?, hread]
      simp [Option.filter, hn]

private theorem spells_decimal {n : Int} (hn : InWord n) : Spells (decimal n).toList n := by
  rw [decimal_eq]
  exact spells_zeros hn 0

end Number

open Number (InWord Spells)

namespace Number.Spells

variable {cs : List Char} {n : Int}

private theorem isBlank_eq_false (h : Spells cs n) : ∀ c ∈ cs, Text.isBlank c = false := by
  obtain ⟨c, digits, rfl, hc, hdigits⟩ := h.shape
  have hblank : ∀ d : Char, d.isDigit = true → Text.isBlank d = false := by
    intro d hd
    have hcode := Char.isDigit_iff_toNat.mp hd
    simp only [show '0'.toNat = 48 from rfl, show '9'.toNat = 57 from rfl] at hcode
    simp only [Text.isBlank, Bool.or_eq_false_iff, Bool.and_eq_false_iff, decide_eq_false_iff_not,
      beq_eq_false_iff_ne]
    omega
  intro d hd
  rcases List.mem_cons.mp hd with rfl | hd
  · rcases hc with hc | rfl
    · exact hblank d hc
    · decide
  · exact hblank d (hdigits d hd)

private theorem trimLeft_eq (h : Spells cs n) (left : Nat) (behind : List Char) :
    Text.trimLeft (List.replicate left ' ' ++ cs ++ behind) = cs ++ behind := by
  obtain ⟨c, digits, hcs, -⟩ := h.shape
  have hc : Text.isBlank c = false := h.isBlank_eq_false c (by simp [hcs])
  have hspaces : ∀ d ∈ List.replicate left ' ', Text.isBlank d = true := by
    intro d hd
    rw [List.eq_of_mem_replicate hd]
    decide
  rw [Text.trimLeft, List.append_assoc, List.dropWhile_append_of_pos hspaces, hcs,
    List.cons_append, List.dropWhile_cons_of_neg (by simp [hc])]

private theorem trim_eq (h : Spells cs n) (left right : Nat) :
    Text.trim (List.replicate left ' ' ++ cs ++ List.replicate right ' ') = cs := by
  have hspaces : ∀ d ∈ List.replicate right ' ', Text.isBlank d = true := by
    intro d hd
    rw [List.eq_of_mem_replicate hd]
    decide
  have hreverse : ∀ c ∈ cs.reverse, Text.isBlank c = false := by
    intro c hc
    exact h.isBlank_eq_false c (List.mem_reverse.mp hc)
  have hright : Text.trimLeft (List.replicate right ' ' ++ cs.reverse) = cs.reverse := by
    rw [Text.trimLeft, List.dropWhile_append_of_pos hspaces]
    exact Text.trimLeft_of_head fun c hc => hreverse c (List.mem_of_mem_head? hc)
  rw [Text.trim, h.trimLeft_eq, List.reverse_append, List.reverse_replicate, hright,
    List.reverse_reverse]

private theorem leadingNumeral_eq (h : Spells cs n) (right : Nat) :
    Value.leadingNumeral (cs ++ List.replicate right ' ') = cs := by
  obtain ⟨c, digits, rfl, hc, hdigits⟩ := h.shape
  have hrest : (List.replicate right ' ').takeWhile Char.isDigit = [] := by
    cases right <;> rfl
  have hhead : c.isDigit = true ∨ c = '-' ∨ c = '+' := hc.imp_right .inl
  rw [List.cons_append, Value.leadingNumeral, if_pos hhead, List.takeWhile_append_of_pos hdigits,
    hrest, List.append_nil]

/-- A numeral with blanks around it is read as its number by those who look at the head of a text
and by those who look at all of it. -/
theorem reads (h : Spells cs n) (left right : Nat) {text : String}
    (htext : text.toList = List.replicate left ' ' ++ cs ++ List.replicate right ' ') :
    (Value.text text).toNumber = n ∧ (Value.text text).exactNumber? = some n := by
  have hleading : Value.leadingInteger? text = some n := by
    rw [Value.leadingInteger?, htext, h.trimLeft_eq, h.leadingNumeral_eq, h.value]
  constructor
  · rw [Value.toNumber, hleading]
    rfl
  · rw [Value.exactNumber?, htext, h.trim_eq, h.value]

end Number.Spells

namespace Format

private theorem widthOf_concat (cs : List Char) (c : Char) :
    widthOf (cs ++ [c]) = widthOf cs * 10 + UInt64.ofNat (c.toNat - '0'.toNat) := by
  rw [widthOf, List.foldl_append]
  rfl

private theorem widthOf_of_digits? {cs : List Char} {n : Nat} (h : Number.digits? 10 cs = some n) :
    widthOf cs = UInt64.ofNat n := by
  induction cs using List.reverseRecOn generalizing n with
  | nil =>
    cases h
    rfl
  | append_singleton cs d ih =>
    rw [Number.digits?_concat] at h
    obtain ⟨m, hm, hd⟩ := Option.bind_eq_some_iff.mp h
    obtain ⟨k, hk, hn⟩ := Option.bind_eq_some_iff.mp hd
    obtain rfl : 10 * m + k = n := Option.some.inj hn
    rw [widthOf_concat, ih hm, (Number.digit?_eq_some hk).2, UInt64.ofNat_add, UInt64.ofNat_mul,
      UInt64.mul_comm]
    rfl

private theorem length_pad (c : Conversion) (body : List Char) :
    (c.pad body).length = max c.width.toNat body.length := by
  unfold Conversion.pad
  split
  · simp
    omega
  · split
    · split <;> simp <;> omega
    · simp
      omega

/-- However a numeral is filled up to a width, it is a numeral of the same number with blanks on
one side of it. -/
private theorem pad_decimal (c : Conversion) {n : Int} (hn : InWord n) :
    ∃ left right cs, Spells cs n ∧
      c.pad (Number.decimal n).toList =
        List.replicate left ' ' ++ cs ++ List.replicate right ' ' := by
  have hplain := Number.spells_decimal hn
  unfold Conversion.pad
  dsimp only
  generalize hfill : c.width.toNat - (Number.decimal n).toList.length = fill
  by_cases hleft : c.left = true
  · exact ⟨0, fill, _, hplain, by rw [if_pos hleft]; rfl⟩
  by_cases hzero : c.zero = true
  · refine ⟨0, 0, _, Number.spells_zeros hn fill, ?_⟩
    rw [if_neg hleft, if_pos hzero, Number.decimal_eq]
    by_cases hneg : n < 0
    · simp [hneg]
    · -- The first character is a digit, so the zeros stand in front of it.
      have hsign : ∀ digits, Number.decimalDigits n.natAbs ≠ '-' :: digits := by
        intro digits hdigits
        have hdigit : '-'.isDigit = true := by
          apply Number.isDigit_of_mem_decimalDigits (n := n.natAbs)
          rw [hdigits]
          exact List.mem_cons_self
        cases hdigit
      rw [if_neg hneg, List.nil_append]
      split
      next digits hdigits => exact absurd hdigits (hsign digits)
      next => simp
  · exact ⟨fill, 0, _, hplain, by rw [if_neg hleft, if_neg hzero]; simp⟩

def decimalTemplate (flags width : List Char) : String :=
  String.ofList ('%' :: (flags ++ width ++ ['d']))

private theorem eq_zero_of_isFlag {c : Char} (hflag : isFlag c = true) (hdigit : c.isDigit = true) :
    c = '0' := by
  simp only [isFlag, Bool.or_eq_true, beq_iff_eq] at hflag
  rcases hflag with rfl | rfl
  · cases hdigit
  · rfl

private theorem readConversion_decimal {flags width : List Char} {w : Nat}
    (hflags : ∀ c ∈ flags, c = '-' ∨ c = '0') (hwidth : Number.digits? 10 width = some w) :
    ∃ left zero raw,
      readConversion (flags ++ width ++ ['d']) = some (⟨left, zero, .ofNat w, 'd'⟩, raw, []) := by
  have hdigits := Number.isDigit_of_digits? hwidth
  obtain ⟨k, rest, hsplit, hhead⟩ : ∃ k rest, width = List.replicate k '0' ++ rest ∧
      ∀ c ∈ rest.head?, isFlag c = false := by
    refine ⟨(width.takeWhile isFlag).length, width.dropWhile isFlag, ?_, ?_⟩
    · have hzeros : width.takeWhile isFlag =
          List.replicate (width.takeWhile isFlag).length '0' := by
        apply List.eq_replicate_of_mem
        intro c hc
        have hdigit := hdigits c ((List.takeWhile_sublist _).subset hc)
        exact eq_zero_of_isFlag (List.mem_takeWhile_imp hc) hdigit
      rw [← hzeros, List.takeWhile_append_dropWhile]
    · intro c hc
      have hends := List.head?_dropWhile_not isFlag width
      rw [Option.mem_def.mp hc] at hends
      simpa using hends
  have hrest : ∀ c ∈ rest, c.isDigit = true := by
    intro c hc
    exact hdigits c (by simp [hsplit, hc])
  have hw : widthOf rest = .ofNat w := by
    rw [hsplit, Number.digits?_zeros] at hwidth
    exact widthOf_of_digits? hwidth
  have hfront : ∀ c ∈ flags ++ List.replicate k '0', isFlag c = true := by
    intro c hc
    rcases List.mem_append.mp hc with hflag | hzero
    · rcases hflags c hflag with rfl | rfl <;> decide
    · rw [List.eq_of_mem_replicate hzero]
      decide
  have hbehind : (rest ++ ['d']).takeWhile isFlag = [] ∧
      (rest ++ ['d']).dropWhile isFlag = rest ++ ['d'] := by
    cases rest with
    | nil => exact ⟨rfl, rfl⟩
    | cons c rest => simp [hhead c rfl]
  have hmodifiers : modifiers (flags ++ width ++ ['d']) =
      ((flags ++ List.replicate k '0', rest, []), ['d']) := by
    have hshape : flags ++ width ++ ['d'] =
        (flags ++ List.replicate k '0') ++ (rest ++ ['d']) := by
      simp [hsplit]
    have hend : (['d'] : List Char).takeWhile Char.isDigit = [] := rfl
    unfold modifiers
    rw [hshape, List.takeWhile_append_of_pos hfront, List.dropWhile_append_of_pos hfront,
      hbehind.1, hbehind.2, List.append_nil]
    dsimp only
    rw [List.takeWhile_append_of_pos hrest, List.dropWhile_append_of_pos hrest, hend,
      List.append_nil]
    rfl
  refine ⟨(flags ++ List.replicate k '0').contains '-',
    (flags ++ List.replicate k '0').contains '0',
    (flags ++ List.replicate k '0') ++ rest ++ [] ++ ['d'], ?_⟩
  unfold readConversion
  rw [hmodifiers]
  dsimp only
  rw [hw]

private theorem toList_format_decimal {flags width : List Char} {w : Nat}
    (hflags : ∀ c ∈ flags, c = '-' ∨ c = '0') (hwidth : Number.digits? 10 width = some w)
    (n : Int) (args : List Value) :
    ∃ left zero, (format (decimalTemplate flags width) (.number n :: args)).toList =
      (Conversion.mk left zero (.ofNat w) 'd').pad (Number.decimal n).toList := by
  obtain ⟨left, zero, raw, hread⟩ := readConversion_decimal hflags hwidth
  refine ⟨left, zero, ?_⟩
  unfold format decimalTemplate
  rw [String.toList_ofList, String.toList_ofList, expand_eq_fill, pieces_conversion hread,
    pieces_nil]
  simp [fill, Piece.write, Conversion.write?, Value.toNumber]

end Format

/-! ### Reading back -/

namespace Library

private theorem firstNumber_decimal {n : Int} (hn : InWord n) (hpos : 0 ≤ n) :
    firstNumber (Number.decimal n).toList = n := by
  have hdigits : (Number.decimal n).toList = Number.decimalDigits n.natAbs := by
    rw [Number.decimal_eq, if_neg (by omega), List.nil_append]
  have hall : ∀ c ∈ Number.decimalDigits n.natAbs, c.isDigit = true := fun c hc =>
    Number.isDigit_of_mem_decimalDigits hc
  have hdrop : (Number.decimalDigits n.natAbs).dropWhile (fun c => !c.isDigit) =
      Number.decimalDigits n.natAbs := by
    cases hcs : Number.decimalDigits n.natAbs with
    | nil => rfl
    | cons c cs => simp [hall c (by simp [hcs])]
  have htake : (Number.decimalDigits n.natAbs).takeWhile Char.isDigit =
      Number.decimalDigits n.natAbs := by
    rw [List.takeWhile_eq_self_iff]
    exact hall
  rw [firstNumber, hdigits, hdrop, htake, ← hdigits, Number.word?_decimal hn]
  rfl

private theorem parsedNumber_decimalText {width : Number.Width} (hwidth : width.lowest = 0)
    (context : Context) (n : Int) (target target' : Option SlotKey) :
    (computing (parsedNumber width) context
      [⟨(computing (decimalText width) context [⟨.number n, target⟩]).value, target'⟩]).value =
        .number (width.wrap n) := by
  obtain ⟨hlow, hhigh⟩ := width.wrap_mem n
  have hbound : width.highest ≤ 4294967295 := by cases width <;> decide
  have hword : InWord (width.wrap n) := by
    unfold InWord
    omega
  have htext : chars [⟨decimalText width [⟨.number n, target⟩], target'⟩] 0 =
      (Number.decimal (width.wrap n)).toList := rfl
  change Value.number (width.wrap (firstNumber (chars [⟨decimalText width _, target'⟩] 0))) = _
  rw [htext, firstNumber_decimal hword (by omega), Number.Width.wrap_wrap]

end Library

namespace Value

private theorem looselyEquals_toText {n : Int} (hn : InWord n) :
    looselyEquals (.text (number n).toText) (.number n) = true := by
  have hread : (text (number n).toText).exactNumber? = some n := by
    have hplain : (number n).toText.toList =
        List.replicate 0 ' ' ++ (Number.decimal n).toList ++ List.replicate 0 ' ' := by
      simp [toText]
    exact ((Number.spells_decimal hn).reads 0 0 hplain).2
  unfold looselyEquals
  rw [hread]
  simp [exactNumber?]

end Value

open Format Library in
/--
Numbers written in decimal are read back. A decimal conversion, with whatever flags and width,
writes a number as a text that all readers read as the number and that has at least the width, if
the width is an unsigned integer of the host; the
text of a number equals the number; and a number narrowed to 16 or 32 bits, written and read again
is the number modulo 65536 or 4294967296.
-/
theorem decimal_text_reads_back {n : Int} (hn : Number.InWord n) :
    (∀ (flags width : List Char) (w : Nat) (args : List Value),
      (∀ c ∈ flags, c = '-' ∨ c = '0') → Number.digits? 10 width = some w →
        let text := format (decimalTemplate flags width) (.number n :: args)
        (w < UInt64.size → w ≤ text.length) ∧ (Value.text text).toNumber = n ∧
          (Value.text text).exactNumber? = some n) ∧
      Value.looselyEquals (.text (Value.number n).toText) (.number n) = true ∧
        ∃ itoa atoi ltoa atol, lookup? "ItoA" = some itoa ∧ lookup? "AtoI" = some atoi ∧
          lookup? "LtoA" = some ltoa ∧ lookup? "AtoL" = some atol ∧
            ∀ (context : Context) (target target' : Option SlotKey),
              (atoi context [⟨(itoa context [⟨.number n, target⟩]).value, target'⟩]).value =
                  .number (n % 65536) ∧
                (atol context [⟨(ltoa context [⟨.number n, target⟩]).value, target'⟩]).value =
                  .number (n % 4294967296) := by
  refine ⟨fun flags width w args hflags hwidth => ?_, Value.looselyEquals_toText hn, ?_⟩
  · obtain ⟨left, zero, htext⟩ := toList_format_decimal hflags hwidth n args
    obtain ⟨before, behind, cs, hspells, hpad⟩ := pad_decimal ⟨left, zero, .ofNat w, 'd'⟩ hn
    refine ⟨fun hfits => ?_, hspells.reads before behind (htext.trans hpad)⟩
    rw [← String.length_toList, htext, length_pad]
    dsimp only
    rw [UInt64.toNat_ofNat_of_lt' hfits]
    exact Nat.le_max_left _ _
  · have hlookup : ∀ {name : String} {routine : Routine},
        (Text.upper name, routine) ∈ textRoutines → lookup? name = some routine :=
      fun h => lookup?_of_mem (textRoutines_subset_table h)
    have hitoa : Text.upper "ItoA" = "ITOA" := by decide +kernel
    have hatoi : Text.upper "AtoI" = "ATOI" := by decide +kernel
    have hltoa : Text.upper "LtoA" = "LTOA" := by decide +kernel
    have hatol : Text.upper "AtoL" = "ATOL" := by decide +kernel
    refine ⟨computing (decimalText .unsigned16), computing (parsedNumber .unsigned16),
      computing (decimalText .unsigned32), computing (parsedNumber .unsigned32),
      hlookup (by simp [hitoa, textRoutines]), hlookup (by simp [hatoi, textRoutines]),
      hlookup (by simp [hltoa, textRoutines]), hlookup (by simp [hatol, textRoutines]),
      fun context target target' => ?_⟩
    exact ⟨parsedNumber_decimalText rfl context n target target',
      parsedNumber_decimalText rfl context n target target'⟩

/-- The least number of all, filled up to thirty characters with zeros: the minus sign comes
first. -/
theorem least_number_reads_back :
    Number.InWord (-9223372036854775808) ∧
      Number.digits? 10 "30".toList = some 30 ∧
        let text := Format.format (Format.decimalTemplate ['0'] "30".toList)
          [.number (-9223372036854775808)]
        text = "-00000000009223372036854775808" ∧ 30 ≤ text.length ∧
          (Value.text text).toNumber = -9223372036854775808 ∧
            (Value.text text).exactNumber? = some (-9223372036854775808) := by
  have hword : Number.InWord (-9223372036854775808) := by decide
  have hwidth : Number.digits? 10 "30".toList = some 30 := by decide +kernel
  have hread := (decimal_text_reads_back hword).1 ['0'] "30".toList 30 [] (by simp) hwidth
  exact ⟨hword, hwidth, by decide +kernel, hread.1 (by decide), hread.2⟩

end ControlLogic
