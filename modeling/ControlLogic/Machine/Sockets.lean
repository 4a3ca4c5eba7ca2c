import ControlLogic.Machine.Place

/-!
Routines on sockets. Connections, answers and events arrive as work that is put off.
-/

set_option autoImplicit false
set_option relaxedAutoImplicit false

namespace ControlLogic.Run

def socketArg (args : List Expr) : Run Int := do
  match args.head? with
  | some (.name id) =>
    match (← get).sockets.get? (Text.upper id) with
    | some n => return n
    | none => fault (.notASocket id)
  | _ => fault .expectedSocket

def withNetwork {α : Type} (f : Network → α × Network) : Run α :=
  modifyGet fun m =>
    let (a, network) := f m.network
    (a, { m with network := network })

def socketConnect (eval : Expr → Run Value) (args : List Expr) : Run Value := do
  let id ← socketArg args
  let address ← argText eval args 1
  let port ← argNumber eval args 2
  let status ← withNetwork (·.connect id address port)
  if status = 0 then
    plan (← get).config.connectDelay (.socketConnected id)
  return .number status

def socketDisconnect (args : List Expr) : Run Value := do
  let id ← socketArg args
  let status ← withNetwork (·.disconnect id)
  if status = 0 then
    plan 0 (.socketEvent .socketDisconnect id)
  return .number status

def socketSend (eval : Expr → Run Value) (args : List Expr) : Run Value := do
  let id ← socketArg args
  let data ← argText eval args 1
  let (sent, reply) ← withNetwork fun net =>
    let (sent, reply, net) := net.send id data
    ((sent, reply), net)
  if let some answer := reply then
    plan (← get).config.responseDelay (.socketDeliver id answer)
  return .number sent

/-- The address at the other end, also written to the second argument. -/
def socketAddress (eval : Expr → Run Value) (args : List Expr) : Run Value := do
  let id ← socketArg args
  let address := (((← get).network.socket? id).map Socket.remoteAddress).getD ""
  storeText eval args 1 address
  return .text address

def portOf (s : Socket) : Int :=
  Int.ofNat (if s.remotePort ≠ 0 then s.remotePort else s.localPort)

/-- Makes a socket listen and puts off the event. The last argument but the first is the port. -/
def socketListen (eval : Expr → Run Value) (args : List Expr) : Run Value := do
  let id ← socketArg args
  let port ← argNumber eval args (max (args.length - 1) 1)
  let status ← withNetwork (·.listen id port)
  if status = 0 then
    plan 0 (.socketEvent .socketConnect id)
  return .number status

def socketRoutine (eval : Expr → Run Value) (name : String) (args : List Expr) :
    Option (Run Value) :=
  match name with
  | "SOCKETCONNECTCLIENT" => some (socketConnect eval args)
  | "SOCKETDISCONNECTCLIENT" => some (socketDisconnect args)
  | "SOCKETSERVERSTOPLISTEN" => some (socketDisconnect args)
  | "SOCKETSEND" => some (socketSend eval args)
  | "SOCKETGETSTATUS" => some do
    let id ← socketArg args
    return .number ((← get).network.status id).code
  | "SOCKETGETADDRESSASREQUESTED" => some (socketAddress eval args)
  | "SOCKETGETREMOTEIPADDRESS" => some (socketAddress eval args)
  | "SOCKETGETPORTNUMBER" => some do
    let id ← socketArg args
    return .number ((((← get).network.socket? id).map portOf).getD (-1))
  | "SOCKETSERVERSTARTLISTEN" => some (socketListen eval args)
  | "SOCKETUDP_ENABLE" => some do
    let id ← socketArg args
    let address ← argText eval args 1
    let port ← argNumber eval args 2
    return .number (← withNetwork (·.enableUdp id address port))
  | "SOCKETUDP_DISABLE" => some do
    let id ← socketArg args
    return .number (← withNetwork (·.disconnect id))
  | _ => none

end ControlLogic.Run
