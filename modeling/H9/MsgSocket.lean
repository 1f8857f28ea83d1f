import H9.GenericMsg
import H9.Socket

/-!
# Messages from a socket

`H9MsgSocket` (protocol/h9msgsocket.cc) reads documents from an `H9Socket`. `xmlReadMemory` is
libxml2's parser, which gives a document or none; its answer for a text is not the program's.
-/

namespace H9

/-- A function that is `noexcept`: no exception comes out of it. -/
def noexcept {α : Type} : Except Exn α → Except Exn α
  | .ok a => .ok a
  | .error _ => .error .terminate

/-- What `H9MsgSocket::recv` returns: 1 with a message, 0, or -1 with `errno`. -/
inductive MsgResult
  | msg (msg : GenericMsg)
  | closed
  | error (e : Errno)

namespace H9MsgSocket

variable (xmlReadMemory : List UInt8 → Option XmlDoc)

/-- `GenericMsg::GenericMsg` of a text. -/
def parse (xml : List UInt8) : Except Exn GenericMsg :=
  match xmlReadMemory xml with
  | some doc => .ok doc
  | none => .error (.invalidMsg "Failed to parse XML")

/-- What `H9MsgSocket::recv` makes of what `H9Socket::recv` returned. -/
def convert : RecvResult → Except Exn MsgResult
  | .msg raw_msg => noexcept do return .msg (← parse xmlReadMemory raw_msg)
  | .closed => .ok .closed
  | .error e => .ok (.error e)

def recv (h : H9Socket) (k : Inbound) : Except Exn MsgResult × H9Socket × Inbound :=
  let r := h.recv k
  (convert xmlReadMemory r.1, r.2)

/-- `H9MsgSocket::recv` up to `n` times, up to the first that throws. -/
def recvs : ℕ → H9Socket → Inbound → List (Except Exn MsgResult)
  | 0, _, _ => []
  | n + 1, h, k =>
    let first := recv xmlReadMemory h k
    match first.1 with
    | .ok _ => first.1 :: recvs n first.2.1 first.2.2
    | .error _ => [first.1]

/-- `H9MsgSocket::recv_complete_msg`, or nothing if `n` calls of `recv` were not enough. -/
def recv_complete_msg : ℕ → H9Socket → Inbound → Option (Except Exn MsgResult)
  | 0, _, _ => none
  | n + 1, h, k =>
    let first := recv xmlReadMemory h k
    match first.1 with
    | .ok (.error .EAGAIN) => recv_complete_msg n first.2.1 first.2.2
    | r => some (noexcept r)

/-- `H9MsgSocket::get_next_id`: the id after the last one; 0 is none. -/
def get_next_id (next_msg_id : UInt64) : UInt64 :=
  if next_msg_id = 0 then 1 else next_msg_id + 1

end H9MsgSocket

end H9
