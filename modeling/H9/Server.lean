import H9.BusMgr
import H9.MsgSocket

/-!
# The clients and the sockets

`TcpClient`, `ServerMgr` and `SocketMgr` (h9bus/): the clients by their descriptors, and the
sockets that `select` waits for. A client is an object of its own: the map of the clients holds
its number, and may hold another one's under the same descriptor later. What the process has open
is the kernel's to say.
-/

namespace H9

open Prog

structure TcpClient where
  socket : ℕ
  connected : Bool
  /-- Nothing once it was closed: its descriptor is then -1. -/
  h9socket : Option H9Socket
  remote_address : String
  remote_port : String
  next_msg_id : UInt64
  entity : String
  active_subscription : Bool
  /-- What the calls of `H9Socket::send` to come return. With none left they succeed. -/
  sends : List WriteAnswer
  /-- The messages that went out, of which the program keeps no record. -/
  sent : List GenericMsg

namespace TcpClient

def new (socket : ℕ) (remote_address remote_port : String) (sends : List WriteAnswer) :
    TcpClient where
  socket := socket
  connected := true
  h9socket := some H9Socket.new
  remote_address := remote_address
  remote_port := remote_port
  next_msg_id := 0
  entity := ""
  active_subscription := false
  sends := sends
  sent := []

def get_client_idstring (c : TcpClient) : String :=
  c.entity ++ "@" ++ c.remote_address ++ ":" ++ c.remote_port

/-- What the next call of `H9Socket::send` returns. -/
def answer (c : TcpClient) : WriteAnswer :=
  if c.h9socket.isNone then .error .EBADF else c.sends.head?.getD .count

/-- The client after `H9MsgSocket::send` was called. -/
def stamped (c : TcpClient) : TcpClient :=
  { c with next_msg_id := H9MsgSocket.get_next_id c.next_msg_id, sends := c.sends.tail }

end TcpClient

/-- A `SEND_FRAME` that became the frame at that address. -/
structure Issue where
  client : ℕ
  busframe : ℕ
deriving DecidableEq, Repr

/-- A message with a request id that went out because of the frame at that address. -/
structure Delivery where
  client : ℕ
  busframe : ℕ
  msg : GenericMsg

structure Server where
  socket_set : Finset SocketRef
  event_socket_set : Finset ℕ
  socket_max : ℕ
  /-- The descriptor of the `TcpServer`. -/
  tcp_server : ℕ
  tcp_clients : Std.TreeMap ℕ ℕ
  /-- The `TcpClient` objects by their numbers. -/
  clients : ℕ → Option TcpClient
  /-- The number of the next one. -/
  next_client : ℕ
  /-- The descriptors the process has open. -/
  open_fds : Finset ℕ
  /-- What happened, of which the program keeps no record. -/
  issues : List Issue
  deliveries : List Delivery

/-! ### `SocketMgr` -/

/-- An `fd_set` has a place for each descriptor below this. -/
def FD_SETSIZE : ℕ := 1024

namespace SocketMgr

/-- `SocketMgr::register_socket`, whose `FD_SET` does not look where the `fd_set` ends. -/
def register_socket (socket : SocketRef) (fd : ℕ) : Prog Server Exn Unit :=
  if fd = 0 then throw .abort
  else if FD_SETSIZE ≤ fd then throw .overrun
  else modify fun s =>
    { s with
      event_socket_set := insert fd s.event_socket_set
      socket_set := insert socket s.socket_set
      socket_max := max s.socket_max fd }

/-- `SocketMgr::unregister_socket`, which overwrites the maximum it has just found again. -/
def unregister_socket (socket : SocketRef) (fd : ℕ) : Prog Server Exn Unit :=
  if fd = 0 then pure ()
  else modify fun s =>
    { s with
      event_socket_set := s.event_socket_set.erase fd
      socket_set := s.socket_set.erase socket
      socket_max := if s.socket_max ≤ fd then fd else s.socket_max }

end SocketMgr

/-! ### `TcpClient` and `ServerMgr` -/

namespace Server

/-- The object of that number with a change. -/
def setClient (s : Server) (k : ℕ) (c : TcpClient) : Server :=
  { s with clients := Function.update s.clients k (some c) }

/-- The object a pointer to the client `k` points at. -/
def client (k : ℕ) : Prog Server Exn TcpClient := do
  let s ← get
  match s.clients k with
  | some c => pure c
  | none => throw .undefined

/-- `TcpClient::send`. -/
def send (k : ℕ) (msg : GenericMsg) : Prog Server Exn Unit := do
  let c ← client k
  modify fun s => s.setClient k c.stamped
  match c.answer with
  | .count =>
    modify fun s =>
      s.setClient k { c.stamped with sent := c.sent ++ [msg.set_id c.stamped.next_msg_id] }
  | .zero => throw (.closeSocketException (.client k))
  | .error e =>
    if e = .ECONNRESET ∨ e = .EPIPE ∨ e = .EBADF then throw (.closeSocketException (.client k))
    else throw (.system_error e)

/-- `TcpClient::on_close`. -/
def on_close (k : ℕ) : Prog Server Exn Unit := do
  let c ← client k
  modify fun s =>
    { s.setClient k { c with h9socket := none, connected := false } with
      open_fds := if c.h9socket.isSome then s.open_fds.erase c.socket else s.open_fds }

/-- A call on the client `k` that closes it when it says so. -/
def closing (k : ℕ) (p : Prog Server Exn Unit) : Prog Server Exn Unit :=
  tryCatch p fun
    | .closeSocketException _ => on_close k
    | e => throw e

/-- `ServerMgr::send_msg_to_subscriber`, because of the frame at `busframe`. -/
def send_msg_to_subscriber (msg : GenericMsg) (orgin_client_id : ℕ) (orgin_msg_id : UInt64)
    (busframe : ℕ) : Prog Server Exn Unit := do
  let s ← get
  forEach s.tcp_clients.toList fun it => do
    let c ← client it.2
    if it.1 = orgin_client_id then
      closing it.2 do
        let tmp_msg := msg.set_request_id orgin_msg_id
        send it.2 tmp_msg
        modify fun s => { s with deliveries := s.deliveries ++ [⟨it.2, busframe, tmp_msg⟩] }
    else if c.active_subscription then closing it.2 (send it.2 msg)

/-- `send_msg_to_subscriber` with the one `msg` of its caller, whose id each client it is sent to
replaces. The originator gets a copy. -/
def send_shared_msg_to_subscriber (msg : GenericMsg) (orgin_client_id : ℕ) (orgin_msg_id : UInt64)
    (busframe : ℕ) : Prog (GenericMsg × Server) Exn Unit := do
  let s ← onSnd get
  forEach s.tcp_clients.toList fun it => do
    let c ← onSnd (client it.2)
    if it.1 = orgin_client_id then
      let tmp_msg := (← getFst).set_request_id orgin_msg_id
      onSnd (closing it.2 do
        send it.2 tmp_msg
        modify fun s =>
          { s with deliveries := s.deliveries ++ [⟨it.2, busframe, msg.set_request_id orgin_msg_id⟩] })
    else if c.active_subscription then
      modifyFst fun msg => msg.set_id c.stamped.next_msg_id
      let msg ← getFst
      onSnd (closing it.2 (send it.2 msg))

/-- `ServerMgr::on_new_connection`. The constructor of the `H9MsgSocket` asks for the address of
the peer, and must not throw. -/
def on_new_connection (client_socket : ℕ) (peer : Option (String × String))
    (sends : List WriteAnswer) : Prog Server Exn Unit := do
  match peer with
  | none => throw .terminate
  | some (address, port) =>
    let s ← get
    let k := s.next_client
    modify fun s =>
      { s.setClient k (TcpClient.new client_socket address port sends) with
        next_client := k + 1
        tcp_clients := s.tcp_clients.insert client_socket k }
    SocketMgr.register_socket (.client k) client_socket

/-- `ServerMgr::flush_clients`. -/
def flush_clients : Prog Server Exn Unit := do
  let s ← get
  forEach s.tcp_clients.toList fun it => do
    let c ← client it.2
    if c.connected = false then
      SocketMgr.unregister_socket (.client it.2) c.socket
      modify fun s =>
        { s with
          tcp_clients := s.tcp_clients.erase it.1
          clients := Function.update s.clients it.2 none }

/-- `ServerMgr::connected_clients_count`. -/
def connected_clients_count (s : Server) : ℕ := s.tcp_clients.size

end Server

end H9
