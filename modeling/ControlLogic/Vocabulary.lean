import ControlLogic.Text.Ascii

/-!
The reserved words of the language, in four tables that share no word. Words are recognised without
regard to case.
-/

set_option autoImplicit false
set_option relaxedAutoImplicit false

namespace ControlLogic.Vocabulary

/-- Words of statements, handler triggers, function headers and declaration modifiers. -/
def control : List String :=
  ["IF", "ELSE", "FOR", "TO", "STEP", "WHILE", "DO", "UNTIL", "SWITCH", "CSWITCH", "CASE",
    "DEFAULT", "WAIT", "RETURN", "BREAK", "TERMINATEEVENT", "FUNCTION", "INTEGER_FUNCTION",
    "LONG_INTEGER_FUNCTION", "SIGNED_INTEGER_FUNCTION", "SIGNED_LONG_INTEGER_FUNCTION",
    "STRING_FUNCTION", "PUSH", "RELEASE", "CHANGE", "SOCKETCONNECT", "SOCKETDISCONNECT",
    "SOCKETRECEIVE", "STRUCTURE", "BYREF", "BYVAL", "THREADSAFE", "VOLATILE", "NONVOLATILE",
    "NOT", "MOD"]

def signalTypes : List String :=
  ["DIGITAL_INPUT", "DIGITAL_OUTPUT", "ANALOG_INPUT", "ANALOG_OUTPUT", "STRING_INPUT",
    "STRING_OUTPUT", "BUFFER_INPUT"]

def variableTypes : List String :=
  ["INTEGER", "LONG_INTEGER", "SIGNED_INTEGER", "SIGNED_LONG_INTEGER", "STRING", "TCP_CLIENT",
    "TCP_SERVER", "UDP_SOCKET"]

def routines : List String :=
  ["PRINT", "TRACE", "MAKESTRING", "GENERATEUSERNOTICE", "GENERATEUSERWARNING",
    "GENERATEUSERERROR", "ITOA", "ITOHEX", "LTOA", "LTOHEX", "ATOI", "ATOL", "CHR", "BYTE", "LEN",
    "LEFT", "RIGHT", "MID", "FIND", "REVERSEFIND", "UPPER", "LOWER", "REMOVE", "REMOVEBYLENGTH",
    "CLEARBUFFER", "SETSTRING", "GATHERASYNC", "GATHERASYNCBYLENGTH", "MIN", "MAX", "SMIN",
    "SMAX", "ABS", "MULDIV", "RANDOM", "SETARRAY", "RESIZEARRAY", "GETLASTMODIFIEDARRAYINDEX",
    "DATE", "TIME", "DAY", "MONTH", "GETDATENUM", "GETMONTHNUM", "GETYEARNUM", "GETHOURNUM",
    "GETMINUTESNUM", "GETSECONDSNUM", "GETDAYOFWEEKNUM", "GETTICKS", "DELAY", "PROCESSLOGIC",
    "PULSE", "CANCELWAIT", "CANCELALLWAIT", "RETIMEWAIT", "CREATETHREAD", "ENTERCRITICALSECTION",
    "EXITCRITICALSECTION", "STARTFILEOPERATIONS", "ENDFILEOPERATIONS", "FILEOPEN", "FILECLOSE",
    "FILEREAD", "FILEWRITE", "FILESEEK", "FILEDELETE", "FILELENGTH", "FILEEXISTS", "ISDIRECTORY",
    "MAKEDIRECTORY", "FINDFIRST", "FINDNEXT", "FINDCLOSE", "SOCKETCONNECTCLIENT",
    "SOCKETDISCONNECTCLIENT", "SOCKETSEND", "SOCKETGETSTATUS", "SOCKETGETADDRESSASREQUESTED",
    "SOCKETGETREMOTEIPADDRESS", "SOCKETGETPORTNUMBER", "SOCKETSERVERSTARTLISTEN",
    "SOCKETSERVERSTOPLISTEN", "SOCKETUDP_ENABLE", "SOCKETUDP_DISABLE"]

def isControl (word : String) : Bool := Text.isOneOf word control

def isSignalType (word : String) : Bool := Text.isOneOf word signalTypes

def isVariableType (word : String) : Bool := Text.isOneOf word variableTypes

def isRoutine (word : String) : Bool := Text.isOneOf word routines

end ControlLogic.Vocabulary
