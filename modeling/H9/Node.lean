import H9.Device
import H9.FrameSubject
import H9.Lib.Framing

/-!
# The nodes

`Node` (h9d/node.cc) asks a node for a register, changes one or resets the node: it gives the bus a
frame with the next number of the node and waits for the frame that answers it. What comes back, and
whether it comes in time, is not the program's.
-/

namespace H9

namespace H9frame

def SET_REG : UInt8 := 8
def GET_REG : UInt8 := 9
def NODE_RESET : UInt8 := 14
def REG_VALUE : UInt8 := 19

end H9frame

/-! ### Frames to a node -/

namespace Bus

def INVALID_DESTINATION_ID : ℤ := -4
def INVALID_DATA_SIZE : ℤ := -5

/-- The frame of `send_set_reg`, with the first `nbyte` bytes at `data`, or what it returns instead. -/
def set_reg (priority : Priority) (seqnum : UInt8) (source destination : BitVec 16) (reg : UInt8)
    (nbyte : ℕ) (data : List UInt8) : Except ℤ H9frame :=
  if source < 1 ∨ H9frame.BROADCAST_ID ≤ source then .error INVALID_SOURCE_ID
  else if H9frame.BROADCAST_ID < destination then .error INVALID_DESTINATION_ID
  else if 7 < nbyte then .error INVALID_DATA_SIZE
  else .ok { H9frame.new with
    priority := priority
    type := H9frame.SET_REG
    seqnum := BitVec.ofNat 5 seqnum.toNat
    source_id := source.setWidth 9
    destination_id := destination.setWidth 9
    dlc := UInt8.ofNat (nbyte + 1)
    data := fillData H9frame.new.data (reg :: data.take nbyte) }

def get_reg (priority : Priority) (seqnum : UInt8) (source destination : BitVec 16) (reg : UInt8) :
    Except ℤ H9frame :=
  if source < 1 ∨ H9frame.BROADCAST_ID ≤ source then .error INVALID_SOURCE_ID
  else if H9frame.BROADCAST_ID < destination then .error INVALID_DESTINATION_ID
  else .ok { H9frame.new with
    priority := priority
    type := H9frame.GET_REG
    seqnum := BitVec.ofNat 5 seqnum.toNat
    source_id := source.setWidth 9
    destination_id := destination.setWidth 9
    dlc := 1
    data := fillData H9frame.new.data [reg] }

def node_reset (priority : Priority) (seqnum : UInt8) (source destination : BitVec 16) :
    Except ℤ H9frame :=
  if source < 1 ∨ H9frame.BROADCAST_ID ≤ source then .error INVALID_SOURCE_ID
  else if H9frame.BROADCAST_ID < destination then .error INVALID_DESTINATION_ID
  else .ok { H9frame.new with
    priority := priority
    type := H9frame.NODE_RESET
    seqnum := BitVec.ofNat 5 seqnum.toNat
    source_id := source.setWidth 9
    destination_id := destination.setWidth 9
    dlc := 0 }

/-- The bus with a frame given to `send_frame_sync`, if there is one. -/
def send (bus : Bus) : Except ℤ H9frame → Bus
  | .ok frame => { bus with sent := bus.sent ++ [frame] }
  | .error _ => bus

end Bus

/-! ### Conversations with a node -/

/-- What is not the program's when it talks to a node: the frame that answers in time, and the bytes
that were in memory where a local variable is. -/
structure Exchange where
  answer : Option H9frame
  memory : List UInt8

namespace Node

/-- The address that a `Node` sends from. -/
def source_id : BitVec 16 := 1

/-- The first bytes after the register in an answer, which has at most 8 bytes. -/
def payload (res : H9frame) (n : ℕ) : List UInt8 := (res.data.toList.drop 1).take n

/-- How many bytes of an answer go to a buffer of `nbyte` bytes. The comparison is one of unsigned
numbers. -/
def copied (nbyte : ℕ) (res : H9frame) : ℕ :=
  if res.dlc = 0 then nbyte else min nbyte (res.dlc.toNat - 1)

/-- `Node::reset`. -/
def reset (bus : Bus) (node_id : BitVec 16) (x : Exchange) : ℤ × Bus :=
  let (seqnum, bus) := bus.get_next_seqnum node_id
  let bus := bus.send (Bus.node_reset .LOW seqnum source_id node_id)
  match x.answer with
  | none => (-1, bus)
  | some _ => (0, bus)

/-- `Node::set_raw_reg` of `nbyte` bytes: what it returns and the bytes at `setted`. -/
def set_raw_reg (bus : Bus) (node_id : BitVec 16) (reg : UInt8) (nbyte : ℕ) (buf : List UInt8)
    (x : Exchange) : (ℤ × List UInt8) × Bus :=
  let setted := x.memory.take nbyte
  let (seqnum, bus) := bus.get_next_seqnum node_id
  let bus := bus.send (Bus.set_reg .LOW seqnum source_id node_id reg nbyte buf)
  match x.answer with
  | none => ((-1, setted), bus)
  | some res =>
    let tmp := payload res (copied nbyte res)
    (((res.dlc.toNat : ℤ) - 1, tmp ++ setted.drop tmp.length), bus)

/-- The bytes of `htons(value)`. -/
def htons (value : UInt16) : List UInt8 := [(value >>> 8).toUInt8, value.toUInt8]

/-- The bytes of `htonl(value)`. -/
def htonl (value : UInt32) : List UInt8 :=
  [(value >>> 24).toUInt8, (value >>> 16).toUInt8, (value >>> 8).toUInt8, value.toUInt8]

/-- `set_raw_reg` of a number, whose bytes are `buf`; `setted` is the number in the bytes that come
back, as `ntohs` and `ntohl` read them. -/
def set_raw_reg_value (bus : Bus) (node_id : BitVec 16) (reg : UInt8) (buf : List UInt8)
    (x : Exchange) : (ℤ × ℕ) × Bus :=
  let ((ret, setted), bus) := set_raw_reg bus node_id reg buf.length buf x
  ((ret, H9frame.bigEndian setted), bus)

/-- `Node::get_raw_reg`: what it returns and the bytes it puts into the buffer. -/
def get_raw_reg (bus : Bus) (node_id : BitVec 16) (reg : UInt8) (nbyte : ℕ) (x : Exchange) :
    (ℤ × List UInt8) × Bus :=
  let (seqnum, bus) := bus.get_next_seqnum node_id
  let bus := bus.send (Bus.get_reg .LOW seqnum source_id node_id reg)
  match x.answer with
  | none => ((-1, []), bus)
  | some res => ((copied nbyte res, payload res (copied nbyte res)), bus)

end Node

namespace Device

/-- `Device::set_register` of a number: what it returns, and `setted` if it was written. -/
def set_register (d : Device) (bus : Bus) (reg : UInt8) (value : ℤ) (x : Exchange) :
    (ℤ × Option ℕ) × Bus :=
  match d.register_map[reg]? with
  | none => ((-1, none), bus)
  | some desc =>
    let n := (desc.size + 7).tdiv 8
    let write (buf : List UInt8) : (ℤ × Option ℕ) × Bus :=
      let ((ret, setted), bus) := Node.set_raw_reg_value bus d.node_id reg buf x
      ((ret, some setted), bus)
    if n = 1 then write [UInt8.ofInt value]
    else if n = 2 then write (Node.htons (UInt16.ofInt value))
    else if 2 < n then write (Node.htonl (UInt32.ofInt value))
    else ((-1, none), bus)

/-- `Device::set_register` of a text, which does not look at what `set_raw_reg` returns. -/
def set_register_text (d : Device) (bus : Bus) (reg : UInt8) (value : List UInt8) (x : Exchange) :
    ℤ × Bus :=
  match d.register_map[reg]? with
  | none => (-1, bus)
  | some desc =>
    if value.length < 8 then
      -- the comparison is one of unsigned numbers
      let size := (BitVec.ofInt 64 desc.size).toNat
      let n := if value.length < size then value.length else size
      (n, (Node.set_raw_reg bus d.node_id reg n value x).2)
    else (-1, bus)

/-- `Device::get_register` of a number: what it returns, and `buf` if it was written. -/
def get_register (d : Device) (bus : Bus) (reg : UInt8) (x : Exchange) : (ℤ × Option ℤ) × Bus :=
  let ((ret, tmp), bus) := Node.get_raw_reg bus d.node_id reg 8 x
  if 0 < ret then
    ((ret, some (tmp.foldl (fun (buf : UInt64) byte => buf <<< 8 ||| byte.toUInt64) 0).toInt64.toInt),
      bus)
  else ((-1, none), bus)

end Device

end H9
