import H9.Expression
import H9.H9fwu
import H9.SendPromises

/-!
# The operations of the bus

`Bus::send_*` (h9d/bus.cc): each fills in a frame, gives it to `send_frame_sync` and returns the number
of the frame or what went wrong.
-/

namespace H9

namespace Bus

/-! ### The frames -/

/-- The frame of an operation on a bit, or what it returns instead. They differ in the type only. -/
def bit_op (type : UInt8) (priority : Priority) (seqnum : UInt8) (source destination : BitVec 16)
    (reg : UInt8) (bit : ℤ) : Except ℤ H9frame :=
  if source < 1 ∨ H9frame.BROADCAST_ID ≤ source then .error INVALID_SOURCE_ID
  else if destination < 1 ∨ H9frame.BROADCAST_ID < destination then .error INVALID_DESTINATION_ID
  else .ok { H9frame.new with
    priority := priority
    type := type
    seqnum := BitVec.ofNat 5 seqnum.toNat
    source_id := source.setWidth 9
    destination_id := destination.setWidth 9
    dlc := 2
    data := fillData H9frame.new.data [reg, UInt8.ofInt bit] }

def set_bit := bit_op H9frame.SET_BIT
def clear_bit := bit_op H9frame.CLEAR_BIT
def toggle_bit := bit_op H9frame.TOGGLE_BIT

def node_upgrade (priority : Priority) (seqnum : UInt8) (source destination : BitVec 16) :
    Except ℤ H9frame :=
  if source < 1 ∨ H9frame.BROADCAST_ID ≤ source then .error INVALID_SOURCE_ID
  else if destination < 1 ∨ H9frame.BROADCAST_ID < destination then .error INVALID_DESTINATION_ID
  else .ok { H9frame.new with
    priority := priority
    type := H9frame.NODE_UPGRADE
    seqnum := BitVec.ofNat 5 seqnum.toNat
    source_id := source.setWidth 9
    destination_id := destination.setWidth 9
    dlc := 0 }

end Bus

/-! ### The operations -/

/-- An operation of the bus, with its own arguments. `data` is the memory at the pointer. -/
inductive BusSend
  | set_reg (reg : UInt8) (nbyte : ℕ) (data : ℕ → UInt8)
  | get_reg (reg : UInt8)
  | set_bit (reg : UInt8) (bit : ℤ)
  | clear_bit (reg : UInt8) (bit : ℤ)
  | toggle_bit (reg : UInt8) (bit : ℤ)
  | node_upgrade
  | node_reset
  | node_discover

namespace BusSend

/-- The frame that the operation gives to `send_frame_sync`, or what it returns instead. -/
def frame (op : BusSend) (priority : Priority) (seqnum : UInt8) (source destination : BitVec 16) :
    Except ℤ H9frame :=
  match op with
  | set_reg reg nbyte data =>
    Bus.set_reg priority seqnum source destination reg nbyte ((List.range nbyte).map data)
  | get_reg reg => Bus.get_reg priority seqnum source destination reg
  | set_bit reg bit => Bus.set_bit priority seqnum source destination reg bit
  | clear_bit reg bit => Bus.clear_bit priority seqnum source destination reg bit
  | toggle_bit reg bit => Bus.toggle_bit priority seqnum source destination reg bit
  | node_upgrade => Bus.node_upgrade priority seqnum source destination
  | node_reset => Bus.node_reset priority seqnum source destination
  | node_discover => Bus.node_discover priority seqnum source destination

/-- What the operation returns, and the frames that it gives to `send_frame_sync`, which returns
`sync frame`. -/
def send (op : BusSend) (sync : H9frame → ℤ) (priority : Priority) (seqnum : UInt8)
    (source destination : BitVec 16) : ℤ × List H9frame :=
  match op.frame priority seqnum source destination with
  | .error ret => (ret, [])
  | .ok frame => (if sync frame = Bus.OK then frame.seqnum.toNat else sync frame, [frame])

end BusSend

end H9
