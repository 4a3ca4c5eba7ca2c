/-!
Texts as bytes. A byte is the character of the same number, so texts of characters up to `U+00FF`
and byte lists correspond one to one; any other character is written as a question mark.
-/

set_option autoImplicit false
set_option relaxedAutoImplicit false

namespace ControlLogic.Text

def toByte (c : Char) : UInt8 :=
  if c.toNat < 256 then UInt8.ofNat c.toNat else UInt8.ofNat '?'.toNat

def ofByte (b : UInt8) : Char :=
  Char.ofNat b.toNat

def toBytes (s : String) : List UInt8 :=
  s.toList.map toByte

def ofBytes (bytes : List UInt8) : String :=
  String.ofList (bytes.map ofByte)

end ControlLogic.Text
