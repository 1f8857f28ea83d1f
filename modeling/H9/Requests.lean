import H9.Messages

/-!
# The requests of a client of h9d

`TCPClientThread::thread` (h9d/tcpclientthread.cc) with the data it works on: what
`recv_complete_msg` returned, the messages that other threads queued, and the replies of the
`ExecutorAdapter` (h9d/executoradapter.cc). The other threads use the device manager in between.
-/

namespace H9

open Prog GenericMsg

namespace DevMgr

/-- `DevMgr::discover`, which returns 0 whatever becomes of the frame. -/
def discover (m : DevMgr) : DevMgr :=
  let (seqnum, bus) := m.bus.get_next_seqnum 1
  { m with bus := bus.send_node_discover .LOW seqnum 1 H9frame.BROADCAST_ID }

def active_devices_count (m : DevMgr) : ℕ := m.devices_map.size

end DevMgr

/-- What a request finds besides the devices: the version of the build, the time since the start, how
many clients the server has, and what the node of a device answers. -/
structure Surroundings where
  version : String
  uptime : ℤ
  connected_clients_count : ℕ
  exchange : Exchange

namespace ExecutorAdapter

/-- The methods of `execute_method`, up to the id of the request. -/
def method_response (method : String) (w : Surroundings) : Prog DevMgr Exn GenericMsg := do
  let m ← get
  if method = "methods_list" then
    return EventMgr.withArray method "methods"
      ["methods_list", "h9d_stat", "devices_list", "discover"]
  else if method = "h9d_stat" then
    return h9d_stat w.version w.uptime w.connected_clients_count m.active_devices_count
  else if method = "devices_list" then return devices_list m
  else if method = "discover" then
    modify DevMgr.discover
    return MethodResponseMsg "discover"
  else return ErrorMsg .UNSUPPORTED_METHOD ("Unsupported method: " ++ method)

/-- `ExecutorAdapter::execute_method`. No method reads a parameter, so that its handlers catch
nothing, and `discover` does not fail. -/
def execute_method (execmsg : GenericMsg) (w : Surroundings) : Prog DevMgr Exn GenericMsg := do
  let method ← lift (get_method_name execmsg)
  let res ← method_response method w
  return res.set_request_id (← lift execmsg.get_id)

end ExecutorAdapter

/-- The thread of a client, but for the queue that it shares with the others. -/
structure ClientThread where
  running : Bool
  /-- Whether `h9socket.close()` was not called; the descriptor is -1 after it. -/
  is_open : Bool
  next_msg_id : UInt64
  entity : String
  execadapter : ExecutorAdapter
  /-- What the calls of `H9Socket::send` to come return. With none left they succeed. -/
  sends : List WriteAnswer
  /-- The messages that were given to the socket, and those of them that went out. The program keeps
  no record of them. -/
  issued : List GenericMsg
  sent : List GenericMsg

/-- What `Epoll::wait` reports: the socket is ready, and `recv_complete_msg` returns `received`, after
the other threads made the device manager what `others` says; or they queued `msgs`. -/
inductive ClientEvent
  | socket (others : DevMgr → DevMgr) (received : Except Exn MsgResult) (w : Surroundings)
  | async (msgs : List GenericMsg)

/-- What the kernel answers to the `Epoll` (h9d/epoll.cc) of a thread: to `attach_socket` and, at the end,
to the server's `trigger_async_event` an error or none, and to each `wait` an error or the events. -/
structure EpollAnswers where
  attach_socket : Option Errno
  waits : List (Except Errno (List ClientEvent))
  trigger_async_event : Option Errno

namespace ClientThread

def start (sends : List WriteAnswer) : ClientThread where
  running := true
  is_open := true
  next_msg_id := 0
  entity := ""
  execadapter := ⟨.idle, []⟩
  sends := sends
  issued := []
  sent := []

/-- What the next call of `H9Socket::send` returns. -/
def answer (c : ClientThread) : WriteAnswer :=
  if c.is_open then c.sends.head?.getD .count else .error .EBADF

/-- The thread after `H9MsgSocket::send` was called with `msg`. -/
def stamped (c : ClientThread) (msg : GenericMsg) : ClientThread :=
  { c with
    next_msg_id := H9MsgSocket.get_next_id c.next_msg_id
    sends := c.sends.tail
    issued := c.issued ++ [msg.set_id (H9MsgSocket.get_next_id c.next_msg_id)] }

/-- `TCPClientThread::send`. -/
def send (msg : GenericMsg) : Prog ClientThread Exn Unit := do
  let c ← get
  modify fun c => c.stamped msg
  match c.answer with
  | .count =>
    modify fun c => { c with sent := c.sent ++ [msg.set_id c.next_msg_id] }
  | .zero => modify fun c => { c with running := false }
  | .error e => throw (.system_error e)

/-- A call of the client's `ExecutorAdapter`. -/
def onAdapter {α : Type} (p : Prog (ExecutorAdapter × DevMgr) Exn α) :
    Prog (ClientThread × DevMgr) Exn α := fun (c, m) =>
  match p.exec (c.execadapter, m) with
  | (r, a, m') => (r, { c with execadapter := a }, m')

/-- The connection is at its end. -/
def hangUp (c : ClientThread) : ClientThread := { c with running := false, is_open := false }

/-- `TCPClientThread::thread_recv_msg` of the client `k`. The log lines read the properties of a
request before it is looked at. -/
def thread_recv_msg (k : ℕ) (received : Except Exn MsgResult) (w : Surroundings) :
    Prog (ClientThread × DevMgr) Exn Unit := do
  match ← lift received with
  | .closed => modifyFst hangUp
  | .error e => if e = .ECONNRESET then modifyFst hangUp else throw (.system_error e)
  | .msg msg =>
    match ← lift msg.get_type with
    | .IDENTIFICATION =>
      let entity ← lift (get_entity msg)
      modifyFst fun c => { c with entity := entity }
    | .EXECUTEMETHOD =>
      let _ ← lift msg.get_id
      let _ ← lift (get_method_name msg)
      let ret ← onSnd (ExecutorAdapter.execute_method msg w)
      onFst (send ret)
    | .EXECUTEDEVICEMETHOD =>
      let _ ← lift msg.get_id
      let _ ← lift (get_device_id msg)
      let _ ← lift (get_method_name msg)
      let ret ← onAdapter (ExecutorAdapter.device_method_reply k msg w.exchange)
      onFst (send ret)
    | _ =>
      let id ← lift msg.get_id
      let err_msg := ErrorMsg .UNSUPPORTED_MESSAGE_TYPE "Unsupported message type"
      onFst (send (err_msg.set_request_id id))

/-- `TCPClientThread::thread_send_async_msg`, whose assertion fails without a message. -/
def thread_send_async_msg (msgs : List GenericMsg) : Prog ClientThread Exn Unit :=
  if msgs = [] then throw .abort else forEach msgs send

def handle (k : ℕ) : ClientEvent → Prog (ClientThread × DevMgr) Exn Unit
  | .socket others received w => do
    onSnd (modify others)
    thread_recv_msg k received w
  | .async msgs => onFst (thread_send_async_msg msgs)

/-- A call of the `Epoll` that only fails or does not. -/
def epoll (answer : Option Errno) : Prog (ClientThread × DevMgr) Exn Unit :=
  match answer with
  | some e => throw (.system_error e)
  | none => pure ()

/-- `ExecutorAdapter::cleanup_connection`, which ends with the trigger of the server. -/
def cleanup_connection (k : ℕ) (trigger_async_event : Option Errno) :
    Prog (ClientThread × DevMgr) Exn Unit := do
  let c ← getFst
  forEach c.execadapter.attach_device_event_observer_memento fun memento =>
    onSnd (modify fun m => m.detach_event_observer k memento.2 memento.1)
  epoll trigger_async_event

/-- The loop of `thread`: the events of a `wait` are all handled before it looks whether it is to run
on. With no answer of `wait` left it is still waiting. -/
def run (k : ℕ) (trigger_async_event : Option Errno) :
    List (Except Errno (List ClientEvent)) → Prog (ClientThread × DevMgr) Exn Unit
  | [] => do
    let c ← getFst
    if c.running = false then cleanup_connection k trigger_async_event
  | wait :: waits => do
    let c ← getFst
    if c.running then
      let events ← lift (wait.mapError Exn.system_error)
      forEach events (handle k)
      run k trigger_async_event waits
    else cleanup_connection k trigger_async_event

/-- `TCPClientThread::thread` of the client `k`. -/
def thread (k : ℕ) (answers : EpollAnswers) : Prog (ClientThread × DevMgr) Exn Unit := do
  epoll answers.attach_socket
  run k answers.trigger_async_event answers.waits

end ClientThread

end H9
