import H9.Proofs.SlcanText
import H9.SocketCan

/-!
# One layout of the identifier

A `SocketCAN` and an `Slcan` put a frame's fields at the same bits (`can_id_eq`), and take them
from there (`recv_data_eq`). Those fields and the 29 bits say the same.
-/

namespace H9

namespace SocketCAN

open H9frame Slcan

theorem toNat_and_mask (x : BitVec 32) {w : ℕ} (hw : w < 32) :
    (x &&& mask w).toNat = x.toNat % 2 ^ w := by
  have hpow : 2 ^ w < 2 ^ 32 := Nat.pow_lt_pow_right (by omega) hw
  have hpos := Nat.two_pow_pos w
  have hmask : (mask w).toNat = 2 ^ w - 1 := by
    have hone : (1 : BitVec 32).toNat = 1 := rfl
    rw [mask, BitVec.toNat_sub, BitVec.toNat_shiftLeft]
    simp only [BitVec.toNat_ofNat, Nat.shiftLeft_eq, hone]
    omega
  rw [BitVec.toNat_and, hmask, Nat.and_two_pow_sub_one_eq_mod]

/-- A field is put below what was packed so far. -/
theorem toNat_shiftLeft_or (x y : BitVec 32) {w : ℕ} (hx : x.toNat * 2 ^ w < 2 ^ 32)
    (hy : y.toNat < 2 ^ w) : (x <<< w ||| y).toNat = x.toNat * 2 ^ w + y.toNat := by
  have hshift : (x <<< w).toNat = x.toNat <<< w := by
    rw [BitVec.toNat_shiftLeft, Nat.shiftLeft_eq, Nat.mod_eq_of_lt hx]
  rw [BitVec.toNat_or, hshift, ← Nat.shiftLeft_add_eq_or_of_lt hy, Nat.shiftLeft_eq]

theorem toNat_field {n w : ℕ} (hn : n < 2 ^ 32) (hw : w < 32) :
    (BitVec.ofNat 32 n &&& mask w).toNat = n % 2 ^ w := by
  rw [toNat_and_mask _ hw, BitVec.toNat_ofNat, Nat.mod_eq_of_lt hn]

theorem toNat_or_flag {x : BitVec 32} (h : x.toNat < 2 ^ 31) :
    (x ||| CAN_EFF_FLAG).toNat = x.toNat + 2 ^ 31 := by
  have hflag : CAN_EFF_FLAG.toNat = 1 <<< 31 := rfl
  rw [BitVec.toNat_or, hflag, Nat.or_comm, ← Nat.shiftLeft_add_eq_or_of_lt h]
  omega

theorem to_underlying_eq (p : Priority) : p.to_underlying.toNat = priorityBit p := by
  cases p <;> rfl

/-- The identifier is the serial line's, with the flag. -/
theorem can_id_eq (frame : H9frame) : (send_data frame).can_id.toNat = frame_id frame + 2 ^ 31 := by
  have hbit := priorityBit_le frame.priority
  have hseqnum := frame.seqnum.isLt
  have hdestination := frame.destination_id.isLt
  have hsource := frame.source_id.isLt
  have htype := frame.type.toNat_lt
  have hid := frame_id_eq frame
  have hlt := frame_id_lt frame
  have f1 : (BitVec.ofNat 32 frame.priority.to_underlying.toNat &&& mask 1).toNat =
      priorityBit frame.priority := by
    rw [toNat_field (by rw [to_underlying_eq]; omega) (by decide), to_underlying_eq]
    omega
  have f2 := toNat_field (w := 5) (show frame.type.toNat < 2 ^ 32 by omega) (by decide)
  have f3 := toNat_field (w := 5) (show frame.seqnum.toNat < 2 ^ 32 by omega) (by decide)
  have f4 := toNat_field (w := 9) (show frame.destination_id.toNat < 2 ^ 32 by omega) (by decide)
  have f5 := toNat_field (w := 9) (show frame.source_id.toNat < 2 ^ 32 by omega) (by decide)
  simp only [send_data, H9FRAME_PRIORITY_BIT_LENGTH, H9FRAME_TYPE_BIT_LENGTH,
    H9FRAME_SEQNUM_BIT_LENGTH, H9FRAME_DESTINATION_ID_BIT_LENGTH, H9FRAME_SOURCE_ID_BIT_LENGTH,
    BitVec.zero_or]
  have g2 := toNat_shiftLeft_or (w := 5) _ _ (by rw [f1]; omega) (by rw [f2]; omega)
  rw [f1, f2] at g2
  have g3 := toNat_shiftLeft_or (w := 5) _ _ (by rw [g2]; omega) (by rw [f3]; omega)
  rw [g2, f3] at g3
  have g4 := toNat_shiftLeft_or (w := 9) _ _ (by rw [g3]; omega) (by rw [f4]; omega)
  rw [g3, f4] at g4
  have g5 := toNat_shiftLeft_or (w := 9) _ _ (by rw [g4]; omega) (by rw [f5]; omega)
  rw [g4, f5] at g5
  rw [toNat_or_flag (by rw [g5]; omega), g5, hid]
  omega

/-- Of an identifier that is read, the 29 bits count. -/
theorem recv_data_eq (can_msg : can_frame) : recv_data can_msg =
    { unpack (can_msg.can_id.toNat % 2 ^ 29) with dlc := can_msg.can_dlc, data := can_msg.data } := by
  obtain ⟨can_id, can_dlc, data⟩ := can_msg
  have hfield {w : ℕ} (k : ℕ) (hw : w < 32) : (can_id >>> k &&& mask w).toNat =
      can_id.toNat / 2 ^ k % 2 ^ w := by
    rw [toNat_and_mask _ hw, BitVec.toNat_ushiftRight, Nat.shiftRight_eq_div_pow]
  have hpriority : Priority.from_underlying (can_id >>> 28 &&& mask 1) =
      if can_id.toNat % 2 ^ 29 / 2 ^ 28 % 2 = 1 then .LOW else .HIGH := by
    have hbit := hfield (w := 1) 28 (by decide)
    have hzero : can_id >>> 28 &&& mask 1 = 0 ↔ can_id.toNat / 2 ^ 28 % 2 ^ 1 = 0 := by
      rw [← hbit]
      exact BitVec.toNat_inj.symm
    rw [Priority.from_underlying]
    split_ifs with h h' h' <;> first | rfl | (rw [hzero] at h; omega)
  have htype : UInt8.ofBitVec ((can_id >>> 23 &&& mask 5).setWidth 8) =
      UInt8.ofNat (can_id.toNat % 2 ^ 29 / 2 ^ 23 % 32) := by
    apply UInt8.toNat_inj.1
    rw [UInt8.toNat_ofBitVec, BitVec.toNat_setWidth, hfield 23 (by decide), UInt8.toNat_ofNat']
    omega
  have hseqnum : (can_id >>> 18 &&& mask 5).setWidth 5 =
      BitVec.ofNat 5 (can_id.toNat % 2 ^ 29 / 2 ^ 18) := by
    apply BitVec.eq_of_toNat_eq
    rw [BitVec.toNat_setWidth, hfield 18 (by decide), BitVec.toNat_ofNat]
    omega
  have hdestination : (can_id >>> 9 &&& mask 9).setWidth 9 =
      BitVec.ofNat 9 (can_id.toNat % 2 ^ 29 / 2 ^ 9) := by
    apply BitVec.eq_of_toNat_eq
    rw [BitVec.toNat_setWidth, hfield 9 (by decide), BitVec.toNat_ofNat]
    omega
  have hsource : (can_id >>> 0 &&& mask 9).setWidth 9 = BitVec.ofNat 9 (can_id.toNat % 2 ^ 29) := by
    apply BitVec.eq_of_toNat_eq
    rw [BitVec.toNat_setWidth, hfield 0 (by decide), BitVec.toNat_ofNat]
    omega
  simp only [recv_data, unpack, H9FRAME_PRIORITY_BIT_LENGTH, H9FRAME_TYPE_BIT_LENGTH,
    H9FRAME_SEQNUM_BIT_LENGTH, H9FRAME_DESTINATION_ID_BIT_LENGTH, H9FRAME_SOURCE_ID_BIT_LENGTH,
    Nat.reduceAdd, hpriority, htype, hseqnum, hdestination, hsource]

end SocketCAN

/-! ### There and back -/

/-- The identifier of a record without `CAN_EFF_FLAG`. -/
def can_frame.identifier (can_msg : can_frame) : ℕ := (can_msg.can_id &&& ~~~CAN_EFF_FLAG).toNat

/-- What a frame says besides its bytes. -/
structure Header where
  priority : Priority
  type : UInt8
  seqnum : BitVec 5
  destination_id : BitVec 9
  source_id : BitVec 9
  type_lt : type < 32

namespace Header

/-- The frame without bytes. -/
def frame (h : Header) : H9frame :=
  { H9frame.new with
    priority := h.priority
    type := h.type
    seqnum := h.seqnum
    destination_id := h.destination_id
    source_id := h.source_id }

end Header

namespace SocketCAN

open Slcan

theorem identifier_eq (can_msg : can_frame) :
    can_msg.identifier = can_msg.can_id.toNat % 2 ^ 31 := by
  rw [can_frame.identifier, BitVec.toNat_and, show (~~~CAN_EFF_FLAG).toNat = 2 ^ 31 - 1 from rfl,
    Nat.and_two_pow_sub_one_eq_mod]

theorem identifier_send_data (frame : H9frame) : (send_data frame).identifier = frame_id frame := by
  have := frame_id_lt frame
  rw [identifier_eq, can_id_eq]
  omega

theorem type_unpack_lt (id : ℕ) : (unpack id).type < 32 := by
  change id / 2 ^ 23 % 32 % 2 ^ 8 < 32
  omega

/-- The bits of an identifier are put where they were taken from. -/
theorem frame_id_unpack {id : ℕ} (h : id < 2 ^ 29) (dlc : UInt8) (data : Vector UInt8 8) :
    frame_id { unpack id with dlc := dlc, data := data } = id := by
  have hpriority : priorityBit (unpack id).priority = id / 2 ^ 28 := by
    simp only [unpack]
    split_ifs with hbit
    · rw [priorityBit]
      omega
    · rw [priorityBit]
      omega
  have htype : (unpack id).type.toNat = id / 2 ^ 23 % 32 := by
    simp only [unpack, UInt8.toNat_ofNat']
    omega
  have hseqnum : (unpack id).seqnum.toNat = id / 2 ^ 18 % 2 ^ 5 := BitVec.toNat_ofNat _ _
  have hdestination : (unpack id).destination_id.toNat = id / 2 ^ 9 % 2 ^ 9 := BitVec.toNat_ofNat _ _
  have hsource : (unpack id).source_id.toNat = id % 2 ^ 9 := BitVec.toNat_ofNat _ _
  rw [frame_id_eq]
  simp only [hpriority, htype, hseqnum, hdestination, hsource]
  omega

/-- A frame of a type on the bus is read back from its record. -/
theorem recv_send {frame : H9frame} (h : frame.type < 32) : recv_data (send_data frame) = frame := by
  have hid : (send_data frame).can_id.toNat % 2 ^ 29 = frame_id frame := by
    have := frame_id_lt frame
    rw [can_id_eq]
    omega
  rw [recv_data_eq, hid]
  exact unpack_frame_id h

/-- A record with a 29-bit identifier is written back as it was read. -/
theorem send_recv {id : ℕ} (h : id < 2 ^ 29) (dlc : UInt8) (data : Vector UInt8 8) :
    send_data (recv_data ⟨BitVec.ofNat 32 id ||| CAN_EFF_FLAG, dlc, data⟩) =
      ⟨BitVec.ofNat 32 id ||| CAN_EFF_FLAG, dlc, data⟩ := by
  have hid : (BitVec.ofNat 32 id).toNat = id := by
    rw [BitVec.toNat_ofNat]
    omega
  have hread : (BitVec.ofNat 32 id ||| CAN_EFF_FLAG).toNat = id + 2 ^ 31 := by
    rw [toNat_or_flag (by omega), hid]
  have hbits : (id + 2 ^ 31) % 2 ^ 29 = id := by omega
  have hframe : recv_data ⟨BitVec.ofNat 32 id ||| CAN_EFF_FLAG, dlc, data⟩ =
      { unpack id with dlc := dlc, data := data } := by
    rw [recv_data_eq, hread, hbits]
  have hcan_id : (send_data { unpack id with dlc := dlc, data := data }).can_id =
      BitVec.ofNat 32 id ||| CAN_EFF_FLAG := by
    apply BitVec.eq_of_toNat_eq
    rw [can_id_eq, frame_id_unpack h, hread]
  rw [hframe, ← hcan_id]
  rfl

end SocketCAN

namespace Header

open Slcan SocketCAN

/-- The 29 bits that a header is packed into. -/
def identifier (h : Header) : Fin (2 ^ 29) :=
  ⟨(send_data h.frame).identifier, by
    rw [identifier_send_data]
    exact frame_id_lt h.frame⟩

/-- The header that an identifier has. -/
def ofId (id : ℕ) : Header where
  priority := (unpack id).priority
  type := (unpack id).type
  seqnum := (unpack id).seqnum
  destination_id := (unpack id).destination_id
  source_id := (unpack id).source_id
  type_lt := type_unpack_lt id

theorem ofId_frame (id : ℕ) :
    (ofId id).frame = { unpack id with dlc := 0, data := Vector.replicate 8 0 } := rfl

theorem identifier_bijective : Function.Bijective identifier := by
  constructor
  · intro h h' heq
    have hid : frame_id h.frame = frame_id h'.frame := by
      have := congrArg Fin.val heq
      simpa only [identifier, identifier_send_data] using this
    have hunpack : (ofId (frame_id h.frame)).frame = h.frame := unpack_frame_id h.type_lt
    have hunpack' : (ofId (frame_id h'.frame)).frame = h'.frame := unpack_frame_id h'.type_lt
    have hframe : h.frame = h'.frame := by rw [← hunpack, hid, hunpack']
    obtain ⟨_, _, _, _, _, _⟩ := h
    obtain ⟨_, _, _, _, _, _⟩ := h'
    simpa [frame] using hframe
  · intro n
    refine ⟨ofId n.val, Fin.ext ?_⟩
    have hid := frame_id_unpack n.isLt 0 (Vector.replicate 8 0)
    rwa [← ofId_frame, ← identifier_send_data] at hid

end Header

/-! ### The two encodings -/

namespace Slcan

open SocketCAN

/-- The record of a frame and its line say the same, and the frame is what is read from either. -/
structure SameEncoding (frame : H9frame) : Prop where
  line : build_slcan_msg frame = frameLine (hex 8 (send_data frame).identifier)
    (send_data frame).can_dlc.toNat.digitChar
    (byteDigits ((send_data frame).data.toList.take (send_data frame).can_dlc.toNat))
  recv_data : (recv_data (send_data frame)).sent = frame.sent
  parse : parse_slcan_msg (build_slcan_msg frame) = .ok frame.sent

theorem sameEncoding {frame : H9frame} (htype : frame.type < 32) (hdlc : frame.dlc ≤ 8) :
    SameEncoding frame where
  line := by
    rw [build_slcan_msg_eq hdlc, identifier_send_data]
    rfl
  recv_data := by rw [recv_send htype]
  parse := parse_build htype hdlc

/-- A line that is read is of a frame that both encodings give its identifier. -/
theorem reencode_line {id data : List Char} {dlc : Char} (h : Fields id dlc data) :
    ∃ frame, parse_slcan_msg (frameLine id dlc data) = .ok frame ∧ frame_id frame = hexValue id ∧
      (send_data frame).identifier = hexValue id := by
  obtain ⟨n, -, hn, -⟩ := h.dlc
  obtain ⟨v, hv, -⟩ := parse_frameLine h hn
  have hid := frame_id_unpack h.id_lt (UInt8.ofNat n) v
  exact ⟨_, hv, hid, by rwa [identifier_send_data]⟩

theorem packing :
    (∀ frame : H9frame, frame.type < 32 → frame.dlc ≤ 8 → SameEncoding frame) ∧
    (∀ id < 2 ^ 29, ∀ (dlc : UInt8) (data : Vector UInt8 8),
      send_data (recv_data ⟨BitVec.ofNat 32 id ||| CAN_EFF_FLAG, dlc, data⟩) =
        ⟨BitVec.ofNat 32 id ||| CAN_EFF_FLAG, dlc, data⟩) ∧
    (∀ (id : List Char) (dlc : Char) (data : List Char), Fields id dlc data →
      ∃ frame, parse_slcan_msg (frameLine id dlc data) = .ok frame ∧ frame_id frame = hexValue id ∧
        (send_data frame).identifier = hexValue id) ∧
    Function.Bijective Header.identifier :=
  ⟨fun _ => sameEncoding, fun _ h => send_recv h, fun _ _ _ => reencode_line,
    Header.identifier_bijective⟩

def sampleFrame : H9frame :=
  ⟨.LOW, 19, 5, 0x1ff, 3, 2, #v[10, 255, 7, 0, 0, 0, 0, 0]⟩

theorem packing_sample : SameEncoding sampleFrame ∧
    build_slcan_msg sampleFrame = "T1997fe0320aff\r".toList ∧
    (∃ frame, parse_slcan_msg (build_slcan_msg sampleFrame) = .ok frame ∧
      frame_id frame = frame_id sampleFrame) := by
  refine ⟨packing.1 sampleFrame (by decide) (by decide), ?_, ?_⟩
  · decide
  · obtain ⟨frame, hparse, hid, -⟩ := packing.2.2.1 (hex 8 (frame_id sampleFrame)) '2' (byteDigits [10, 255])
      (fields_of_frame (by decide))
    exact ⟨frame, hparse, hid.trans (hexValue_hex 8 _)⟩

end Slcan

end H9
