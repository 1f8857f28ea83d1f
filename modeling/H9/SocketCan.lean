import H9.Frame

/-!
# Frames on a CAN socket

The record that a `SocketCAN` (drivers/socketcan.cc) writes for a frame and reads one from. Above
the 29 bits of its identifier are three flags, of which `CAN_EFF_FLAG` says that there are 29.
-/

namespace H9

namespace H9frame

def H9FRAME_PRIORITY_BIT_LENGTH : ℕ := 1

def H9FRAME_TYPE_BIT_LENGTH : ℕ := 5

def H9FRAME_SEQNUM_BIT_LENGTH : ℕ := 5

def H9FRAME_DESTINATION_ID_BIT_LENGTH : ℕ := 9

def H9FRAME_SOURCE_ID_BIT_LENGTH : ℕ := 9

end H9frame

/-- `H9frame::from_underlying`, of a value that is masked to one bit. -/
def Priority.from_underlying (x : BitVec 32) : Priority := if x = 0 then .HIGH else .LOW

/-- `struct can_frame`. -/
structure can_frame where
  can_id : BitVec 32
  can_dlc : UInt8
  data : Vector UInt8 8
deriving DecidableEq, Repr

def CAN_EFF_FLAG : BitVec 32 := 0x80000000#32

namespace SocketCAN

open H9frame

/-- `(1<<w) - 1`. -/
def mask (w : ℕ) : BitVec 32 := 1#32 <<< w - 1

/-- The `can_msg` that `send_data` writes. -/
def send_data (frame : H9frame) : can_frame :=
  let can_id := 0#32
  let can_id := can_id ||| (BitVec.ofNat 32 frame.priority.to_underlying.toNat &&&
    mask H9FRAME_PRIORITY_BIT_LENGTH)
  let can_id := can_id <<< H9FRAME_TYPE_BIT_LENGTH
  let can_id := can_id ||| (BitVec.ofNat 32 frame.type.toNat &&& mask H9FRAME_TYPE_BIT_LENGTH)
  let can_id := can_id <<< H9FRAME_SEQNUM_BIT_LENGTH
  let can_id := can_id ||| (BitVec.ofNat 32 frame.seqnum.toNat &&& mask H9FRAME_SEQNUM_BIT_LENGTH)
  let can_id := can_id <<< H9FRAME_DESTINATION_ID_BIT_LENGTH
  let can_id := can_id ||| (BitVec.ofNat 32 frame.destination_id.toNat &&&
    mask H9FRAME_DESTINATION_ID_BIT_LENGTH)
  let can_id := can_id <<< H9FRAME_SOURCE_ID_BIT_LENGTH
  let can_id := can_id ||| (BitVec.ofNat 32 frame.source_id.toNat &&&
    mask H9FRAME_SOURCE_ID_BIT_LENGTH)
  { can_id := can_id ||| CAN_EFF_FLAG
    can_dlc := frame.dlc
    data := frame.data }

/-- The frame that `recv_data` makes of the `can_msg` it read. -/
def recv_data (can_msg : can_frame) : H9frame where
  priority := .from_underlying (can_msg.can_id >>>
    (H9FRAME_TYPE_BIT_LENGTH + H9FRAME_SEQNUM_BIT_LENGTH + H9FRAME_DESTINATION_ID_BIT_LENGTH +
      H9FRAME_SOURCE_ID_BIT_LENGTH) &&& mask H9FRAME_PRIORITY_BIT_LENGTH)
  type := UInt8.ofBitVec ((can_msg.can_id >>>
    (H9FRAME_SEQNUM_BIT_LENGTH + H9FRAME_DESTINATION_ID_BIT_LENGTH + H9FRAME_SOURCE_ID_BIT_LENGTH) &&&
      mask H9FRAME_TYPE_BIT_LENGTH).setWidth 8)
  seqnum := (can_msg.can_id >>> (H9FRAME_DESTINATION_ID_BIT_LENGTH + H9FRAME_SOURCE_ID_BIT_LENGTH) &&&
    mask H9FRAME_SEQNUM_BIT_LENGTH).setWidth 5
  destination_id := (can_msg.can_id >>> H9FRAME_SOURCE_ID_BIT_LENGTH &&&
    mask H9FRAME_DESTINATION_ID_BIT_LENGTH).setWidth 9
  source_id := (can_msg.can_id >>> 0 &&& mask H9FRAME_SOURCE_ID_BIT_LENGTH).setWidth 9
  dlc := can_msg.can_dlc
  data := can_msg.data

end SocketCAN

end H9
