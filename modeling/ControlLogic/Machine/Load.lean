import ControlLogic.Machine.Basic
import ControlLogic.Program.Parser.Unit

/-!
Loading a program: its constants, signals, variables and sockets come into being. What cannot be
read is reported, and the rest is loaded.
-/

set_option autoImplicit false
set_option relaxedAutoImplicit false

namespace ControlLogic

/-- What the host learns from loading: the signals in the order of their declarations, and what was
refused. -/
structure LoadReport where
  signals : List (SignalType × String)
  errors : List ParseError
  deriving Repr, Inhabited

namespace Machine

/-- Forgets the program and all it has done. The settings, the clock, the numbers of timers, the
wish to stop, what the host was told and the random numbers to come stay. -/
def reset (m : Machine) : Machine where
  config := m.config
  chance := m.chance
  schedule := m.schedule.clear
  files := m.files.clear
  network := m.network.clear
  abort := m.abort
  log := m.log

def addConstant (m : Machine) (name : String) (v : Value) : Machine :=
  { m with constants := m.constants.insert (Text.upper name) v }

def addSignals (type : SignalType) (m : Machine) (entry : SignalName) : Machine :=
  let capacity := if type.isSerial then entry.capacity else none
  { m with
    signals := entry.expand.foldl (fun t name => t.declare type name capacity) m.signals }

/-- The number of characters a socket can keep unless its declaration gives one. -/
def socketCapacity : Nat := 65534

def socketKind : VariableType → Protocol × SocketRole
  | .tcpServer => (.tcp, .server)
  | .udpSocket => (.udp, .client)
  | _ => (.tcp, .client)

def addSocket (m : Machine) (d : VariableDecl) : Machine :=
  let name := Text.upper d.name
  let (protocol, role) := socketKind d.type
  let (id, network) := m.network.create protocol role
  { m with
    network := network
    sockets := m.sockets.insert name id
    scope := { m.scope with
      globals := Frame.declare m.scope.globals (.field name "SOCKETRXBUF")
        (.text (d.first.getD socketCapacity)) } }

def addGlobal (structures : List StructureDef) (m : Machine) (d : VariableDecl) : Machine :=
  if d.type.isSocket then m.addSocket d
  else
    match Frame.declareVariable structures m.scope.globals d with
    | .ok globals => { m with scope := { m.scope with globals := globals } }
    | .error name => m.tell (.error ⟨.fault (.unknownStructure name), some d.pos⟩)

/-- Constants every program has; they win over constants of the program. -/
def systemConstants (program : Program) : List (String × Value) :=
  [("_PROGRAM_NAME", .text (program.symbolName.getD "")), ("_HOST_NAME", .text "SIMULATOR"),
    ("_HOST_ADDRESS", .text "127.0.0.1"), ("_O_RDONLY", .number 0), ("_O_WRONLY", .number 1),
    ("_O_RDWR", .number 2), ("_O_APPEND", .number 8), ("_O_CREAT", .number 256),
    ("_O_TRUNC", .number 512), ("_O_TEXT", .number 0x4000), ("_O_BINARY", .number 0x8000),
    ("SEEK_SET", .number 0), ("SEEK_CUR", .number 1), ("SEEK_END", .number 2)]

/-- The places of functions by their names in upper case. Of two functions of a name the later one
counts. -/
def functionPlaces (functions : List FunctionDef) : Std.HashMap String Nat :=
  functions.zipIdx.foldl (fun places (f, index) => places.insert (Text.upper f.name) index) {}

def install (m : Machine) (program : Program) : Machine :=
  let m := { m with program := program, functions := functionPlaces program.functions }
  let m := program.constants.foldl (fun m c => m.addConstant c.name c.value) m
  let m := program.signals.foldl (fun m d => d.names.foldl (addSignals d.type) m) m
  let m := program.globals.foldl (addGlobal program.structures) m
  (systemConstants program).foldl (fun m (name, v) => m.addConstant name v) m

def noticeText (n : Source.Notice) : String :=
  "line " ++ Number.decimal (Int.ofNat n.line) ++ ": " ++ n.message

def load (m : Machine) (text : String) : LoadReport × Machine :=
  let m := m.reset
  let parsed := Program.parse text m.config.defines
  let m := parsed.errors.foldl (fun m e => m.tell (.error (.ofParseError e))) m
  let m := parsed.notices.foldl (fun m n => m.tell (.notice (noticeText n))) m
  let signals := parsed.program.signals.flatMap fun d => d.signals.map (d.type, ·)
  (⟨signals, parsed.errors⟩, m.install parsed.program)

end Machine

end ControlLogic
