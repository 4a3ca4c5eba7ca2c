import ControlLogic.Format
import ControlLogic.Library.Basic
import ControlLogic.Slot.Basic
import ControlLogic.Text.Search

/-!
Routines on texts. Positions count characters from one; a count below zero counts as zero.
-/

set_option autoImplicit false
set_option relaxedAutoImplicit false

namespace ControlLogic.Library

def count (args : List Arg) (i : Nat) : Nat :=
  (number args i).toNat

/-- A position counted from zero; a position below one counts as one. -/
def position (args : List Arg) (i : Nat) : Nat :=
  count args i - 1

/-- The number of the first run of digits in a text; zero without one or if it is no signed 64-bit
integer. -/
def firstNumber (cs : List Char) : Int :=
  (Number.word? 10 ((cs.dropWhile (!·.isDigit)).takeWhile Char.isDigit)).getD 0

/-- The number of an argument in upper-case hexadecimal digits after narrowing. -/
def hexText (width : Number.Width) (args : List Arg) : Value :=
  .text (String.ofList
    ((Number.hexDigits (width.wrap (number args 0)).toNat).map Char.toUpper))

def decimalText (width : Number.Width) (args : List Arg) : Value :=
  .text (Number.decimal (width.wrap (number args 0)))

def parsedNumber (width : Number.Width) (args : List Arg) : Value :=
  .number (width.wrap (firstNumber (chars args 0)))

def charCode (args : List Arg) : Value :=
  let p := number args 1
  if p < 1 then .zero
  else .number (((chars args 0)[(p - 1).toNat]?.map fun c => Int.ofNat c.toNat).getD 0)

def ofChars (cs : List Char) : Value :=
  .text (String.ofList cs)

def right (args : List Arg) : Value :=
  let cs := chars args 0
  ofChars (cs.drop (cs.length - count args 1))

def middle (args : List Arg) : Value :=
  ofChars (((chars args 0).drop (position args 1)).take (count args 2))

def searchStart (args : List Arg) : Nat :=
  if args.length > 2 then position args 2 else 0

def foundAt (p : Option Nat) : Value :=
  .number ((p.map fun i => Int.ofNat i + 1).getD 0)

def find (args : List Arg) : Value :=
  foundAt (Text.findFrom (chars args 0) (chars args 1) (searchStart args))

def findBackwards (args : List Arg) : Value :=
  let hay := chars args 1
  let limit := if args.length > 2 then position args 2 else hay.length
  foundAt (Text.findLast (chars args 0) hay limit)

def remove : Routine := fun _ args =>
  let needle := chars args 0
  let cs := chars args 1
  match Text.findFrom needle cs (searchStart args) with
  | none => .pure .empty
  | some i =>
    { value := ofChars (cs.take (i + needle.length))
      effects := writeTo args 1 (ofChars (cs.drop (i + needle.length))) }

def removeByLength : Routine := fun _ args =>
  let n := count args 0
  let cs := chars args 1
  if n > cs.length then .pure .empty
  else { value := ofChars (cs.take n), effects := writeTo args 1 (ofChars (cs.drop n)) }

def clearBuffer : Routine := fun _ args =>
  { value := .zero, effects := writeTo args 0 .empty }

/-- A text with others written over it from a position on; a gap is filled with blanks. -/
def overlay (dest : List Char) (at_ : Nat) (source : List Char) : List Char :=
  dest.take at_ ++ List.replicate (at_ - dest.length) ' ' ++ source
    ++ dest.drop (at_ + source.length)

/-- Writes a text over a variable from a position on; the new length, or -1 if no string is as
long. -/
def setString : Routine := fun _ args =>
  let p := position args 1
  if p ≥ maxCapacity then
    { value := .number (-1)
      effects := [.notice ("SetString position " ++ Number.decimal (Int.ofNat (p + 1)) ++
        " is past the longest string")] }
  else
    let cs := overlay (chars args 2) p (chars args 0)
    { value := .number (Int.ofNat cs.length), effects := writeTo args 2 (ofChars cs) }

def textRoutines : List (String × Routine) :=
  [("ITOA", computing (decimalText .unsigned16)), ("LTOA", computing (decimalText .unsigned32)),
    ("ITOHEX", computing (hexText .unsigned16)), ("LTOHEX", computing (hexText .unsigned32)),
    ("ATOI", computing (parsedNumber .unsigned16)), ("ATOL", computing (parsedNumber .unsigned32)),
    ("CHR", computing fun args => ofChars [Format.lowChar (number args 0)]),
    ("BYTE", computing charCode),
    ("LEN", computing fun args => .number (Int.ofNat (text args 0).length)),
    ("LEFT", computing fun args => ofChars ((chars args 0).take (count args 1))),
    ("RIGHT", computing right), ("MID", computing middle), ("FIND", computing find),
    ("REVERSEFIND", computing findBackwards),
    ("UPPER", computing fun args => .text (Text.upper (text args 0))),
    ("LOWER", computing fun args => .text (Text.lower (text args 0))),
    ("REMOVE", remove), ("REMOVEBYLENGTH", removeByLength), ("CLEARBUFFER", clearBuffer),
    ("SETSTRING", setString)]

end ControlLogic.Library
