import ControlLogic.Value

/-!
Texts with conversions. A conversion starts with a percent sign; it may have flags, a width and
letters on the size of its argument, which mean nothing, and ends in a letter that says how the next
argument is written.
-/

set_option autoImplicit false
set_option relaxedAutoImplicit false

namespace ControlLogic.Format

/-- How an argument is written. The width is an unsigned integer of the host. -/
structure Conversion where
  left : Bool
  zero : Bool
  width : UInt64
  letter : Char
  deriving DecidableEq, Repr, Inhabited

def isFlag (c : Char) : Bool :=
  c == '-' || c == '0'

def isSize (c : Char) : Bool :=
  c == 'l' || c == 'h'

/-- The number a list of digits stands for, as an unsigned integer of the host. -/
def widthOf (digits : List Char) : UInt64 :=
  digits.foldl (fun n c => n * 10 + UInt64.ofNat (c.toNat - '0'.toNat)) 0

/-- The characters between the percent sign and the letter, and what comes after them. -/
def modifiers (cs : List Char) : (List Char × List Char × List Char) × List Char :=
  let afterFlags := cs.dropWhile isFlag
  let afterWidth := afterFlags.dropWhile Char.isDigit
  ((cs.takeWhile isFlag, afterFlags.takeWhile Char.isDigit, afterWidth.takeWhile isSize),
    afterWidth.dropWhile isSize)

/-- Reads a conversion after its percent sign: what it says, the characters it was written with
after the percent sign, and the rest. `none` if the text ends before the letter. -/
def readConversion (cs : List Char) : Option (Conversion × List Char × List Char) :=
  match modifiers cs with
  | (_, []) => none
  | ((flags, digits, sizes), letter :: rest) =>
    some (⟨flags.contains '-', flags.contains '0', widthOf digits, letter⟩,
      flags ++ digits ++ sizes ++ [letter], rest)

theorem length_dropWhile_le (p : Char → Bool) (cs : List Char) :
    (cs.dropWhile p).length ≤ cs.length :=
  (List.dropWhile_sublist p).length_le

theorem length_modifiers_le (cs : List Char) : (modifiers cs).2.length ≤ cs.length :=
  Nat.le_trans (length_dropWhile_le _ _)
    (Nat.le_trans (length_dropWhile_le _ _) (length_dropWhile_le _ _))

theorem readConversion_length {cs raw rest : List Char} {c : Conversion}
    (h : readConversion cs = some (c, raw, rest)) : rest.length < cs.length := by
  have bound := length_modifiers_le cs
  unfold readConversion at h
  split at h
  · cases h
  · next letter after e =>
    simp only [Option.some.injEq, Prod.mk.injEq] at h
    obtain ⟨_, _, rfl⟩ := h
    rw [e] at bound
    exact bound

/-- A text filled up to the width: behind it if it stands left, between sign and digits with zeros,
else in front of it. -/
def Conversion.pad (c : Conversion) (body : List Char) : List Char :=
  let fill := c.width.toNat - body.length
  if c.left then body ++ List.replicate fill ' '
  else if c.zero then
    match body with
    | '-' :: digits => '-' :: List.replicate fill '0' ++ digits
    | _ => List.replicate fill '0' ++ body
  else List.replicate fill ' ' ++ body

/-- The number written without sign: a negative one as an unsigned 32-bit integer. -/
def unsigned (n : Int) : Nat :=
  if n < 0 then (n % 4294967296).toNat else n.toNat

/-- The character of the lowest eight bits of a number. -/
def lowChar (n : Int) : Char :=
  Char.ofNat (n % 256).toNat

def Conversion.write? (c : Conversion) (arg : Option Value) : Option (List Char) :=
  let n := (arg.map Value.toNumber).getD 0
  match c.letter with
  | 'd' | 'i' => some (c.pad (Number.decimal n).toList)
  | 'u' => some (c.pad (Number.decimalDigits (unsigned n)))
  | 'x' => some (c.pad (Number.hexDigits (unsigned n)))
  | 'X' => some (c.pad ((Number.hexDigits (unsigned n)).map Char.toUpper))
  | 'c' => some (c.pad [lowChar n])
  | 's' => some ({ c with left := true }.pad ((arg.map Value.toText).getD "").toList)
  | _ => none

/-- Fills the conversions of a template with arguments. A missing argument counts as zero or the
empty text; a doubled percent sign is written once; a conversion that is not known or not complete
is copied. -/
def expand (template : List Char) (args : List Value) : List Char :=
  match template with
  | [] => []
  | c :: cs =>
    if c = '%' then
      match _h : readConversion cs with
      | none => c :: cs
      | some (conversion, raw, rest) =>
        if conversion.letter = '%' then '%' :: expand rest args
        else
          match conversion.write? args.head? with
          | some text => text ++ expand rest args.tail
          | none => c :: raw ++ expand rest args
    else c :: expand cs args
termination_by template.length
decreasing_by
  · have shorter := readConversion_length _h
    simp only [List.length_cons]
    omega
  · have shorter := readConversion_length _h
    simp only [List.length_cons]
    omega
  · have shorter := readConversion_length _h
    simp only [List.length_cons]
    omega
  · simp

def format (template : String) (args : List Value) : String :=
  String.ofList (expand template.toList args)

end ControlLogic.Format
