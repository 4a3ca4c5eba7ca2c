import ControlLogic.IdTable
import ControlLogic.Network.Device

/-!
Sockets on a simulated network. Nothing here takes time: who uses the network decides when a
connection is complete and when an answer arrives.
-/

set_option autoImplicit false
set_option relaxedAutoImplicit false

namespace ControlLogic

/-- The protocol of a socket. -/
inductive Protocol where
  | tcp
  | udp
  deriving DecidableEq, Repr, Inhabited

/-- The part a socket plays. -/
inductive SocketRole where
  | client
  | server
  deriving DecidableEq, Repr, Inhabited

/-- The state of a socket. -/
inductive SocketStatus where
  | closed
  | connecting
  | connected
  | error
  deriving DecidableEq, Repr, Inhabited

def SocketStatus.code : SocketStatus → Int
  | closed => 0
  | connecting => 1
  | connected => 2
  | error => 3

/-- A socket and all it has sent and received, the latest first. -/
structure Socket where
  id : Int
  protocol : Protocol
  role : SocketRole
  remoteAddress : String := ""
  remotePort : Nat := 0
  localPort : Nat := 0
  status : SocketStatus := .closed
  outgoing : List String := []
  incoming : List String := []
  deriving DecidableEq, Repr, Inhabited

/-- What a socket has sent, in order. -/
def Socket.sent (s : Socket) : List String :=
  s.outgoing.reverse

/-- What a socket has received, in order. -/
def Socket.received (s : Socket) : List String :=
  s.incoming.reverse

/-- The sockets in use, what answers at each address and port, and how often something has
changed. -/
structure Network where
  sockets : IdTable Socket := {}
  responders : String → Nat → Option (String → String) := Device.responders
  changes : Nat := 0
  deriving Inhabited

namespace Network

def maxSockets : Nat := 1024

def port? (port : Int) : Option Nat :=
  if 0 ≤ port ∧ port < 65536 then some port.toNat else none

def changed (net : Network) : Network :=
  { net with changes := net.changes + 1 }

def register (net : Network) (address : String) (port : Nat) (respond : String → String) :
    Network :=
  { net with
    responders := fun a p =>
      if a = address ∧ p = port then some respond else net.responders a p }

def create (net : Network) (protocol : Protocol) (role : SocketRole) : Int × Network :=
  if net.sockets.free.isEmpty && maxSockets ≤ net.sockets.cells.size then (-1, net)
  else
    let id := Int.ofNat net.sockets.nextId
    let socket : Socket := { id := id, protocol := protocol, role := role }
    (id, { net with sockets := net.sockets.insert socket }.changed)

def release (net : Network) (id : Int) : Network :=
  { net with sockets := net.sockets.erase id }.changed

def socket? (net : Network) (id : Int) : Option Socket :=
  net.sockets.get? id

def put (net : Network) (socket : Socket) : Network :=
  { net with sockets := net.sockets.set socket.id socket }.changed

def status (net : Network) (id : Int) : SocketStatus :=
  ((net.socket? id).map Socket.status).getD .error

/-- Starts to connect; 0, -1 without such a socket or port, -2 if it is connected or about to be. -/
def connect (net : Network) (id : Int) (address : String) (port : Int) : Int × Network :=
  match port? port, net.socket? id with
  | some p, some s =>
    if s.status = .connecting ∨ s.status = .connected then (-2, net)
    else (0, net.put { s with remoteAddress := address, remotePort := p, status := .connecting })
  | _, _ => (-1, net)

def completeConnect (net : Network) (id : Int) : Bool × Network :=
  match net.socket? id with
  | some s =>
    if s.status = .connecting then (true, net.put { s with status := .connected }) else (false, net)
  | none => (false, net)

def disconnect (net : Network) (id : Int) : Int × Network :=
  match net.socket? id with
  | some s => if s.status = .closed then (-1, net) else (0, net.put { s with status := .closed })
  | none => (-1, net)

/-- Makes a socket a connected server; 0, or -1 without such a socket or port. -/
def listen (net : Network) (id : Int) (port : Int) : Int × Network :=
  match port? port, net.socket? id with
  | some p, some s =>
    (0, net.put { s with role := .server, localPort := p, remoteAddress := "0.0.0.0",
                         status := .connected })
  | _, _ => (-1, net)

/-- Makes a socket ready for datagrams; 0, or -1 without such a socket or port. -/
def enableUdp (net : Network) (id : Int) (address : String) (port : Int) : Int × Network :=
  match port? port, net.socket? id with
  | some p, some s =>
    (0, net.put { s with protocol := .udp, remoteAddress := address, remotePort := p,
                         localPort := p, status := .connected })
  | _, _ => (-1, net)

/-- Sends a text; its number of characters, or -1 if the socket is not connected, and the answer
from the other end, if there is one. -/
def send (net : Network) (id : Int) (data : String) : Int × Option String × Network :=
  match net.socket? id with
  | some s =>
    if s.status = .connected then
      let reply :=
        ((net.responders s.remoteAddress s.remotePort).map fun respond => respond data).filter
          (· != "")
      (Int.ofNat data.length, reply, net.put { s with outgoing := data :: s.outgoing })
    else (-1, none, net)
  | none => (-1, none, net)

def deliver (net : Network) (id : Int) (data : String) : Bool × Network :=
  match net.socket? id with
  | some s =>
    if s.status = .connected then (true, net.put { s with incoming := data :: s.incoming })
    else (false, net)
  | none => (false, net)

def toList (net : Network) : List Socket :=
  net.sockets.toList

def clear (net : Network) : Network :=
  ({ responders := net.responders, changes := net.changes } : Network).changed

end Network

end ControlLogic
