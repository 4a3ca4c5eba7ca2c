import ControlLogic.Number.Numeral

/-!
The values of literals as they are written: string literals with their quotes and escapes, and
numerals.
-/

set_option autoImplicit false
set_option relaxedAutoImplicit false

namespace ControlLogic.Token

/-- Whether a text ends in an even number of backslashes, so that a quote after it is not
protected. -/
def endsUnprotected (cs : List Char) : Bool :=
  (cs.reverse.takeWhile (· == '\\')).length % 2 == 0

/-- The text between the quotes of a literal; the last character counts as the closing quote if it
equals the first one and no backslash protects it. -/
def literalBody : List Char → List Char
  | [] => []
  | quote :: rest =>
    if rest.getLast? = some quote ∧ endsUnprotected rest.dropLast then rest.dropLast else rest

def escapeChar : Char → Char
  | 'n' => '\n'
  | 't' => '\t'
  | 'r' => '\r'
  | c => c

/--
Replaces the escapes of a literal's body. After `\x` come one or two hexadecimal digits; any other
escaped character that has no meaning stands for itself, and so does a last backslash.
-/
def decodeEscapes : List Char → List Char
  | [] => []
  | ['\\'] => ['\\']
  | '\\' :: e :: rest =>
    if e = 'x' ∨ e = 'X' then
      match rest with
      | a :: b :: rest' =>
        match Text.hexDigit? a, Text.hexDigit? b with
        | some m, some n => Char.ofNat (16 * m + n) :: decodeEscapes rest'
        | some m, none => Char.ofNat m :: decodeEscapes (b :: rest')
        | none, _ => e :: decodeEscapes (a :: b :: rest')
      | [a] =>
        match Text.hexDigit? a with
        | some m => [Char.ofNat m]
        | none => e :: decodeEscapes [a]
      | [] => [e]
    else escapeChar e :: decodeEscapes rest
  | c :: rest => c :: decodeEscapes rest

def literalText (raw : String) : String :=
  String.ofList (decodeEscapes (literalBody raw.toList))

/-- The number a numeral stands for, hexadecimal after `0x`, if it is a signed 64-bit integer. -/
def literalNumber? (text : String) : Option Int :=
  match text.toList with
  | '0' :: 'x' :: digits => Number.word? 16 digits
  | '0' :: 'X' :: digits => Number.word? 16 digits
  | digits => Number.word? 10 digits

end ControlLogic.Token
