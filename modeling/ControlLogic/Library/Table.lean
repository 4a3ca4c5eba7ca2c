import ControlLogic.Library.Calendar
import ControlLogic.Library.Console
import ControlLogic.Library.Gathering
import ControlLogic.Library.Math

/-!
The table of routines. The names a running program serves itself, from its timers, files and
sockets, are in the table with a routine that does nothing.
-/

set_option autoImplicit false
set_option relaxedAutoImplicit false

namespace ControlLogic.Library

def served : List String :=
  ["DELAY", "PROCESSLOGIC", "PULSE", "CANCELWAIT", "CANCELALLWAIT", "RETIMEWAIT", "CREATETHREAD",
    "ENTERCRITICALSECTION", "EXITCRITICALSECTION", "STARTFILEOPERATIONS", "ENDFILEOPERATIONS",
    "FILEOPEN", "FILECLOSE", "FILEREAD", "FILEWRITE", "FILESEEK", "FILEDELETE", "FILELENGTH",
    "FILEEXISTS", "ISDIRECTORY", "MAKEDIRECTORY", "FINDFIRST", "FINDNEXT", "FINDCLOSE",
    "SOCKETCONNECTCLIENT", "SOCKETDISCONNECTCLIENT", "SOCKETSEND", "SOCKETGETSTATUS",
    "SOCKETGETADDRESSASREQUESTED", "SOCKETGETREMOTEIPADDRESS", "SOCKETGETPORTNUMBER",
    "SOCKETSERVERSTARTLISTEN", "SOCKETSERVERSTOPLISTEN", "SOCKETUDP_ENABLE", "SOCKETUDP_DISABLE"]

def idle : Routine := fun _ _ => .pure .zero

def table : List (String × Routine) :=
  consoleRoutines ++ textRoutines ++ gatherRoutines ++ mathRoutines ++ calendarRoutines ++
    served.map (·, idle)

def index : Std.HashMap String Routine :=
  .ofList table

def lookup? (name : String) : Option Routine :=
  index.get? (Text.upper name)

def isServed (name : String) : Bool :=
  Text.isOneOf name served

def names : List String :=
  (table.map Prod.fst).mergeSort fun a b => a ≤ b

end ControlLogic.Library
