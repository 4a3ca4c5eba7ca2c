import ControlLogic.Text.Ascii
import ControlLogic.Text.Blank

/-!
Devices on the simulated network. A device answers each message it gets with a text, which is empty
if it does not answer.
-/

set_option autoImplicit false
set_option relaxedAutoImplicit false

namespace ControlLogic

/-- A device. -/
inductive Device where
  | echo
  | projector
  | display
  deriving DecidableEq, Repr, Inhabited

namespace Device

/-- The command of a message: without line ends at its end and blanks around it. -/
def command (message : String) : String :=
  let body := (message.toList.reverse.dropWhile fun c => c == '\r' || c == '\n').reverse
  String.ofList (Text.trim body)

def after? (beginning : String) (text : String) : Option (List Char) :=
  if beginning.toList.isPrefixOf text.toList then some (text.toList.drop beginning.length) else none

/-- The answers of the projector to the commands it knows, in upper case. -/
def projectorAnswers : List (String × String) :=
  [("PWR ON", "PWR=ON"), ("PWR OFF", "PWR=OFF"), ("INPUT HDMI1", "INPUT=HDMI1"),
    ("INPUT HDMI2", "INPUT=HDMI2"), ("INPUT VGA", "INPUT=VGA"), ("LAMP?", "LAMP=1234"),
    ("MUTE ON", "MUTE=ON"), ("MUTE OFF", "MUTE=OFF")]

def projectorAnswer (message : String) : String :=
  let c := command message
  match projectorAnswers.lookup (Text.upper c) with
  | some answer => answer ++ "\r\n"
  | none => "ERR:UNKNOWN_CMD " ++ c ++ "\r\n"

def displayAnswer (message : String) : String :=
  let c := Text.upper (command message)
  if c = "POWER ON" ∨ c = "POWER OFF" then "OK\r"
  else
    match after? "VOLUME " c with
    | some level =>
      if !level.isEmpty && level.all Char.isDigit then "VOLUME=" ++ String.ofList level ++ "\r"
      else "ERR\r"
    | none =>
      match after? "INPUT " c with
      | some input => if (Text.trim input).isEmpty then "ERR\r" else "OK\r"
      | none => "ERR\r"

def answer : Device → String → String
  | echo, message => message
  | projector, message => projectorAnswer message
  | display, message => displayAnswer message

def at? (address : String) (port : Nat) : Option Device :=
  match address, port with
  | "127.0.0.1", 7 => some echo
  | "192.168.1.50", 4352 => some projector
  | "192.168.1.60", 9761 => some display
  | _, _ => none

def responders (address : String) (port : Nat) : Option (String → String) :=
  (at? address port).map answer

end Device

end ControlLogic
