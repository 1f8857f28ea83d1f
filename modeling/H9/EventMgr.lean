import H9.Schema
import H9.Server

/-!
# The messages of the clients

`TcpClient::recv_msg` and `EventMgr` (h9bus/): what a client's message makes the bus do, and what
the clients are told of the frames.
-/

namespace H9

open Prog

/-- What is not the program's: libxml2's parser and the text of its last error, and the version
of the build. -/
structure Host where
  xmlReadMemory : List UInt8 → Option XmlDoc
  xmlGetLastError : XmlDoc → String
  version : String

namespace EventMgr

/-- `process_recv_frame` and `process_sent_frame`. -/
def handler : EventHandler Server where
  process_recv_frame endpoint busframe :=
    Server.send_msg_to_subscriber (FrameMsg busframe.frame busframe.origin endpoint) 0 0
      busframe.addr
  process_sent_frame endpoint busframe :=
    Server.send_msg_to_subscriber (FrameMsg busframe.frame busframe.origin endpoint)
      busframe.orgin_client_id busframe.orgin_msg_id busframe.addr

/-- The message with a request id, to the client `k`. -/
def reply (k : ℕ) (msg : GenericMsg) (request_id : UInt64) : Prog (BusMgr × Server) Exn Unit :=
  onSnd (Server.send k (msg.set_request_id request_id))

/-- `res` with an array of that name and those values. -/
def withArray (method_name name : String) (values : List String) : GenericMsg :=
  let array := values.foldl XmlElement.add_item (namedElement "array" name)
  GenericMsg.create ((responseElement method_name).xmlAddChild array.toNode)

/-- `EventMgr::get_stat`. -/
def get_stat (host : Host) (uptime : ℤ) (bm : BusMgr) (s : Server) : GenericMsg :=
  let res := ((responseElement "h9bus_stat").add_value "version" host.version).add_value "uptime"
    (toString uptime)
  let res := res.add_value "connected_clients_count" (toString s.connected_clients_count)
  let devs := bm.dev.toList.foldl (fun devs (it : String × Driver) =>
    let dev := (⟨"dict", [], []⟩ : XmlElement).add_value "name" it.1
    let dev := dev.add_value "send_frames_counter" (toString it.2.sent_frames_counter.toNat)
    let dev := dev.add_value "received_frames_counter" (toString it.2.received_frames_counter.toNat)
    devs.xmlAddChild dev.toNode) (namedElement "array" "endpoint")
  GenericMsg.create (res.xmlAddChild devs.toNode)

/-- The methods `subscribe` and `unsubscribe`, which `active` tells apart. -/
def subscription (k : ℕ) (call_msg : GenericMsg) (id : UInt64) (method_name : String)
    (active : Bool) : Prog (BusMgr × Server) Exn Unit :=
  tryCatch (do
    let event ← lift (do (← parameter call_msg "event").get_value_as_str)
    if event = "frame" then
      onSnd do
        let c ← Server.client k
        modify fun s => s.setClient k { c with active_subscription := active }
      reply k (MethodResponseMsg method_name) id
    else reply k (MethodResponseMsg.fault "subscribe" 103 ("Unsupported event: " ++ event)) id)
  fun
    | .out_of_range _ =>
      reply k (ErrorMsg .INVALID_PARAMETERS "Missing 'event' attribute") id
    | .invalid_argument _ => reply k (ErrorMsg .INVALID_PARAMETERS "Invalid parameters") id
    | e => throw e

/-- `EventMgr::execute_method`. -/
def execute_method (host : Host) (uptime : ℤ) (k : ℕ) (call_msg : GenericMsg) :
    Prog (BusMgr × Server) Exn Unit := do
  let method_name ← lift (get_method_name call_msg)
  let id ← lift call_msg.get_id
  if method_name = "methods_list" then
    reply k (withArray method_name "methods"
      ["methods_list", "h9bus_stat", "events_list", "subscribe", "unsubscribe"]) id
  else if method_name = "h9bus_stat" then
    let s ← get
    reply k (get_stat host uptime s.1 s.2) id
  else if method_name = "events_list" then reply k (withArray method_name "events" ["frame"]) id
  else if method_name = "subscribe" then subscription k call_msg id method_name true
  else if method_name = "unsubscribe" then subscription k call_msg id method_name false
  else reply k (ErrorMsg .UNSUPPORTED_METHOD ("Unsupported method: " ++ method_name)) id

/-- `EventMgr::process_msg`. A log line reads the id before the message is looked at. -/
def process_msg (host : Host) (uptime : ℤ) (k : ℕ) (msg : GenericMsg) :
    Prog (BusMgr × Server) Exn Unit := do
  let type ← lift msg.get_type
  let id ← lift msg.get_id
  let c ← onSnd (Server.client k)
  match type with
  | .SEND_FRAME =>
    let tmp ← lift (get_frame msg)
    modify fun s => (s.1, { s.2 with issues := s.2.issues ++ [⟨k, s.1.heap.next⟩] })
    BusMgr.send_frame handler tmp c.get_client_idstring c.socket id ""
  | .SUBSCRIBE =>
    onSnd (modify fun s => s.setClient k { c with active_subscription := true })
  | .EXECUTEMETHOD =>
    let _ ← lift (get_method_name msg)
    execute_method host uptime k msg
  | _ => reply k (ErrorMsg .UNSUPPORTED_MESSAGE_TYPE "EventMgr::flush_msg") id

/-- `TcpClient::recv_msg`, with what the kernel has for it. -/
def recv_msg (host : Host) (uptime : ℤ) (k : ℕ) (inbound : Inbound) :
    Prog (BusMgr × Server) Exn Unit := do
  let c ← onSnd (Server.client k)
  match c.h9socket with
  | none => throw (.system_error .EBADF)
  | some h9socket =>
    let received := H9MsgSocket.recv host.xmlReadMemory h9socket inbound
    onSnd (modify fun s => s.setClient k { c with h9socket := some received.2.1 })
    match ← lift received.1 with
    | .closed => throw (.closeSocketException (.client k))
    | .error e =>
      if e = .ECONNRESET then throw (.closeSocketException (.client k))
      else if e = .EAGAIN then return
      else throw (.system_error e)
    | .msg msg =>
      if Schema.valid msg then
        if (← lift msg.get_type) = .IDENTIFICATION then
          let entity ← lift (get_entity msg)
          onSnd do
            let c ← Server.client k
            modify fun s => s.setClient k { c with entity := entity }
        else process_msg host uptime k msg
      else
        onSnd (Server.send k
          (ErrorMsg .INVALID_MESSAGE_SCHEMA (host.xmlGetLastError msg)))

/-- The message that `recv_msg` gets, if it is complete and valid. -/
def received (host : Host) (k : ℕ) (inbound : Inbound) (s : Server) : Option GenericMsg := do
  let c ← s.clients k
  let h9socket ← c.h9socket
  match (H9MsgSocket.recv host.xmlReadMemory h9socket inbound).1 with
  | .ok (.msg msg) => if Schema.valid msg then some msg else none
  | _ => none

end EventMgr

end H9
