import H9.BusSend
import H9.Proofs.Registers
import H9.Proofs.SendPromises

/-!
# What an operation of the bus does

Every operation checks its addresses and its length one after another (`frame_eq`), and only then
fills the frame in, whose fields have fewer bits than the arguments. What the checks let through fits
into the fields, but for the destination of `send_node_discover`, which has no check
(`sent_iff`).
-/

namespace H9

open Bus Promise

/-! ### What `send_frame_sync` returns -/

namespace SendRun

variable {s t : SendRun} {i : ℕ} {c : SendCall} {ret : ℤ}

/-- A call of `send_frame_sync` returns it in some run. -/
def Returns (ret : ℤ) : Prop :=
  ∃ as s, Steps.run step as start = some s ∧ ∃ c ∈ s.calls, c.phase = .returned ret

def codes : List ℤ := [OK, NOT_CONNECTED_TO_H9BUS, SEND_TIMEOUT, H9BUS_ERROR]

theorem value_mem_codes (r : Reply) : r.value ∈ codes := by
  cases r <;> simp [Reply.value, codes]

/-- What the call has returned, if it has, is one of the codes. -/
def Coded (c : SendCall) : Prop := ∀ ret, c.phase = .returned ret → ret ∈ codes

@[simp] theorem destroy_calls (s : SendRun) (id : UInt64) : (s.destroy id).calls = s.calls := by
  unfold SendRun.destroy
  split <;> rfl

theorem complete_calls (s : SendRun) (id : UInt64) (value : ℤ) :
    (s.complete id value).calls = s.calls := by
  unfold SendRun.complete
  split
  · split
    · simp [SendRun.erase]
    · rfl
  · rfl

theorem recv_thread_calls (s : SendRun) (msg : GenericMsg) : (s.recv_thread msg).calls = s.calls := by
  unfold SendRun.recv_thread
  split
  · rfl
  · rfl
  · split_ifs
    · exact complete_calls _ _ _
    · rfl

theorem coded_set (h : ∀ c ∈ s.calls, Coded c) (hc : Coded c) : ∀ d ∈ s.calls.set i c, Coded d := by
  intro d hd
  rcases List.mem_or_eq_of_mem_set hd with hd | rfl
  · exact h d hd
  · exact hc

/-- A call returns the value of its promise, or says why it gave up. -/
theorem coded_stepCall (hinv : Inv s) (h : ∀ c ∈ s.calls, Coded c) (hc : s.calls[i]? = some c)
    {a : SendStep} (hstep : s.stepCall i c a = some t) : ∀ d ∈ t.calls, Coded d := by
  unfold SendRun.stepCall at hstep
  split at hstep
  · obtain rfl := Option.some.inj hstep
    simp only [SendRun.setPhase, SendRun.insert, destroy_calls]
    exact coded_set h fun ret hret => (by cases hret)
  · rename_i throws hphase
    obtain rfl := Option.some.inj hstep
    exact coded_set h fun ret hret => (by cases throws <;> cases hret)
  · split_ifs at hstep
    obtain rfl := Option.some.inj hstep
    exact coded_set h fun ret hret => (by cases hret)
  · rename_i hphase
    have hopen : c.phase.isOpen = true := by rw [hphase]; rfl
    rcases (hinv.call i c hc).pending hopen with ⟨-, hpending⟩ | ⟨-, r, hvalue, -⟩
    · rw [hpending] at hstep
      cases hstep
    · rw [hvalue] at hstep
      obtain rfl := Option.some.inj hstep
      refine coded_set h fun ret hret => ?_
      obtain rfl := SendPhase.returned.inj hret
      exact value_mem_codes r
  · obtain rfl := Option.some.inj hstep
    simp only [SendRun.return_, SendRun.erase, destroy_calls]
    refine coded_set h fun ret hret => ?_
    obtain rfl := SendPhase.returned.inj hret
    simp [codes]
  · obtain rfl := Option.some.inj hstep
    simp only [SendRun.return_, SendRun.erase, destroy_calls]
    refine coded_set h fun ret hret => ?_
    obtain rfl := SendPhase.returned.inj hret
    simp [codes]
  · cases hstep

theorem coded_step (e : SendRunStep) (s t : SendRun) (h : Inv s ∧ ∀ c ∈ s.calls, Coded c)
    (hstep : s.step e = some t) : Inv t ∧ ∀ c ∈ t.calls, Coded c := by
  refine ⟨inv_step e s t h.1 hstep, ?_⟩
  unfold step at hstep
  split_ifs at hstep
  cases e with
  | send_frame_sync id =>
    simp only at hstep
    split_ifs at hstep
    obtain rfl := Option.some.inj hstep
    intro c hc
    rcases List.mem_append.1 hc with hc | hc
    · exact h.2 c hc
    · obtain rfl := List.mem_singleton.1 hc
      exact fun ret hret => (by cases hret)
  | thread i a =>
    obtain ⟨c, hc, hcall⟩ := Option.bind_eq_some_iff.1 hstep
    exact coded_stepCall h.1 h.2 hc hcall
  | recv msg =>
    obtain rfl := Option.some.inj hstep
    rw [recv_thread_calls]
    exact h.2

theorem Returns.mem_codes (h : Returns ret) : ret ∈ codes := by
  obtain ⟨as, s, hrun, c, hc, hphase⟩ := h
  have hstart : Inv start ∧ ∀ c ∈ start.calls, Coded c := ⟨inv_start, fun c hc => (by cases hc)⟩
  exact (Steps.inv_of_run coded_step hstart hrun).2 c hc ret hphase

theorem Returns.ok_or_neg (h : Returns ret) : ret = OK ∨ ret < 0 := by
  have hmem := h.mem_codes
  simp only [codes, List.mem_cons, List.not_mem_nil, or_false] at hmem
  rcases hmem with rfl | rfl | rfl | rfl
  · exact .inl rfl
  all_goals exact .inr (by decide)

theorem returns_of_run (as : List SendRunStep)
    (h : ((Steps.run step as start).bind fun s => s.calls[0]?).map (fun c => c.phase) =
      some (.returned ret)) : Returns ret := by
  obtain ⟨c, hbind, hphase⟩ := Option.map_eq_some_iff.1 h
  obtain ⟨s, hrun, hc⟩ := Option.bind_eq_some_iff.1 hbind
  exact ⟨as, s, hrun, c, List.mem_of_getElem? hc, hphase⟩

/-- The bus says that it sent the frame with this request-id. -/
def frameReply (request_id : String) : GenericMsg where
  name := "h9"
  props := [("request-id", request_id)]
  children := [.element "frame" [("priority", "L"), ("type", "15"), ("seqnum", "5"), ("source", "1"),
    ("destination", "511"), ("dlc", "0")] []]

/-- `send_frame_sync` returns these codes and no others. -/
theorem returns_iff : Returns ret ↔ ret ∈ codes := by
  refine ⟨Returns.mem_codes, fun h => ?_⟩
  simp only [codes, List.mem_cons, List.not_mem_nil, or_false] at h
  rcases h with rfl | rfl | rfl | rfl
  · exact returns_of_run [.send_frame_sync 1, .thread 0 .insert,
      .thread 0 (.send false), .recv (frameReply "1"), .thread 0 .get] rfl
  · exact returns_of_run [.send_frame_sync 1, .thread 0 .insert,
      .thread 0 (.send true), .thread 0 .erase] rfl
  · exact returns_of_run [.send_frame_sync 1, .thread 0 .insert,
      .thread 0 (.send false), .thread 0 .time_out, .thread 0 .erase] rfl
  · exact returns_of_run [.send_frame_sync 1, .thread 0 .insert,
      .thread 0 (.send false), .recv (errorReply "1" "1"), .thread 0 .get] rfl

end SendRun

/-! ### The bytes of a frame -/

theorem toList_fillData_new {bs : List UInt8} (h : bs.length ≤ 8) :
    (fillData H9frame.new.data bs).toList = bs.rightpad 8 0 := by
  refine List.ext_getElem (by simp; omega) fun i hi hi' => ?_
  by_cases hlt : i < bs.length
  · simp [fillData, List.rightpad, List.getD_eq_getElem?_getD, List.getElem_append_left hlt, hlt]
  · simp [fillData, List.rightpad, List.getD_eq_getElem?_getD, List.getElem_append_right (not_lt.1 hlt),
      not_lt.1 hlt, H9frame.new]

/-! ### One form of the operations -/

namespace BusSend

variable {op : BusSend} {sync : H9frame → ℤ} {priority : Priority} {seqnum : UInt8}
  {source destination : BitVec 16}

def type : BusSend → UInt8
  | set_reg .. => H9frame.SET_REG
  | get_reg .. => H9frame.GET_REG
  | set_bit .. => H9frame.SET_BIT
  | clear_bit .. => H9frame.CLEAR_BIT
  | toggle_bit .. => H9frame.TOGGLE_BIT
  | node_upgrade => H9frame.NODE_UPGRADE
  | node_reset => H9frame.NODE_RESET
  | node_discover => H9frame.DISCOVER

/-- The numbers that the operation is given for the data of its frame. -/
def numbers : BusSend → List ℤ
  | set_reg reg nbyte data => reg.toNat :: (List.range nbyte).map fun i => ((data i).toNat : ℤ)
  | get_reg reg => [(reg.toNat : ℤ)]
  | set_bit reg bit | clear_bit reg bit | toggle_bit reg bit => [(reg.toNat : ℤ), bit]
  | _ => []

/-- The least destination that the operation takes. -/
def least : BusSend → BitVec 16
  | set_bit .. | clear_bit .. | toggle_bit .. | node_upgrade => 1
  | _ => 0

/-- The greatest destination that the operation takes. -/
def greatest : BusSend → BitVec 16
  | node_discover => 0xffff
  | _ => H9frame.BROADCAST_ID

/-- The frame that the operation fills in. -/
def filled (op : BusSend) (priority : Priority) (seqnum : UInt8) (source destination : BitVec 16) :
    H9frame where
  priority := priority
  type := op.type
  seqnum := BitVec.ofNat 5 seqnum.toNat
  source_id := source.setWidth 9
  destination_id := destination.setWidth 9
  dlc := UInt8.ofNat op.numbers.length
  data := fillData H9frame.new.data (op.numbers.map UInt8.ofInt)

@[simp] theorem ofInt_toNat (b : UInt8) : UInt8.ofInt b.toNat = b := by
  apply UInt8.toNat.inj
  rw [Device.toNat_ofInt_byte, Nat.mod_eq_of_lt b.toNat_lt]

@[simp] theorem fillData_nil (data : Vector UInt8 8) : fillData data [] = data := by
  ext i hi
  simp [fillData, Vector.get_eq_getElem]

theorem not_allOnes_lt (destination : BitVec 16) : ¬ 0xffff#16 < destination := by
  rw [BitVec.lt_def]
  have := destination.isLt
  simp
  omega

/-- The checks of every operation, in their order. -/
theorem frame_eq (op : BusSend) (priority : Priority) (seqnum : UInt8)
    (source destination : BitVec 16) :
    op.frame priority seqnum source destination =
      if source < 1 ∨ H9frame.BROADCAST_ID ≤ source then .error INVALID_SOURCE_ID
      else if destination < op.least ∨ op.greatest < destination then .error INVALID_DESTINATION_ID
      else if 8 < op.numbers.length then .error INVALID_DATA_SIZE
      else .ok (op.filled priority seqnum source destination) := by
  cases op with
  | set_reg reg nbyte data =>
    have hbytes : ((List.range nbyte).map data).take nbyte =
        (List.range nbyte).map (UInt8.ofInt ∘ fun i => ((data i).toNat : ℤ)) := by
      rw [List.take_of_length_le (by simp)]
      exact List.map_congr_left fun i _ => (ofInt_toNat (data i)).symm
    have hnbyte : 7 < nbyte ↔ 8 ≤ nbyte := Nat.lt_iff_add_one_le
    simp [frame, Bus.set_reg, filled, numbers, type, least, greatest, hbytes, hnbyte]
  | get_reg reg => simp [frame, Bus.get_reg, filled, numbers, type, least, greatest]
  | set_bit reg bit | clear_bit reg bit | toggle_bit reg bit =>
    simp [frame, Bus.set_bit, Bus.clear_bit, Bus.toggle_bit, bit_op, filled, numbers, type, least,
      greatest]
  | node_upgrade => simp [frame, Bus.node_upgrade, filled, numbers, type, least, greatest]
  | node_reset => simp [frame, Bus.node_reset, filled, numbers, type, least, greatest]
  | node_discover =>
    simp [frame, Bus.node_discover, filled, numbers, type, least, greatest, not_allOnes_lt,
      H9frame.new]

/-! ### What the frame says -/

/-- The frame says what the operation was given. -/
structure Delivers (op : BusSend) (priority : Priority) (seqnum : UInt8)
    (source destination : BitVec 16) (frame : H9frame) : Prop where
  priority : frame.priority = priority
  type : frame.type = op.type
  seqnum : frame.seqnum.toNat = seqnum.toNat
  source : frame.source_id.toNat = source.toNat
  destination : frame.destination_id.toNat = destination.toNat
  dlc : frame.dlc.toNat = op.numbers.length
  data : (frame.data.toList.map fun b => (b.toNat : ℤ)) = op.numbers.rightpad 8 0

/-- Either nothing is sent for an argument that is not valid, or one frame is that says what the
arguments do. What comes back is its number or the error of `send_frame_sync`. -/
def Sent (op : BusSend) (sync : H9frame → ℤ) (priority : Priority) (seqnum : UInt8)
    (source destination : BitVec 16) : Prop :=
  let (ret, frames) := op.send sync priority seqnum source destination
  (ret ∈ [INVALID_SOURCE_ID, INVALID_DESTINATION_ID, INVALID_DATA_SIZE] ∧ frames = []) ∨
    ∃ frame, frames = [frame] ∧ op.Delivers priority seqnum source destination frame ∧
      (ret = seqnum.toNat ↔ sync frame = OK) ∧ (sync frame ≠ OK → ret < 0)

/-- A bit that is given has a number that fits into a byte. -/
def BitInByte : BusSend → Prop
  | set_bit _ bit | clear_bit _ bit | toggle_bit _ bit => 0 ≤ bit ∧ bit ≤ 255
  | _ => True

theorem BitInByte.numbers (h : op.BitInByte) : ∀ n ∈ op.numbers, 0 ≤ n ∧ n < 2 ^ 8 := by
  have hbyte (b : UInt8) : 0 ≤ (b.toNat : ℤ) ∧ (b.toNat : ℤ) < 2 ^ 8 := by
    have := b.toNat_lt
    omega
  cases op with
  | set_reg reg nbyte data =>
    simp only [BusSend.numbers, List.forall_mem_cons, List.forall_mem_map]
    exact ⟨hbyte reg, fun i _ => hbyte (data i)⟩
  | get_reg reg => simpa [BusSend.numbers] using hbyte reg
  | set_bit reg bit | clear_bit reg bit | toggle_bit reg bit =>
    simp only [BusSend.numbers, List.forall_mem_cons, List.not_mem_nil, false_implies, implies_true,
      and_true]
    exact ⟨hbyte reg, h.1, by have := h.2; omega⟩
  | node_upgrade | node_reset | node_discover => simp [BusSend.numbers]

theorem greatest_le (h : op ≠ node_discover) : op.greatest = H9frame.BROADCAST_ID := by
  cases op <;> first | rfl | exact absurd rfl h

theorem map_rightpad {α β : Type} (f : α → β) (n : ℕ) (a : α) (as : List α) :
    (as.rightpad n a).map f = (as.map f).rightpad n (f a) := by
  simp [List.rightpad]

/-- The frame says it where the addresses have nine bits. -/
theorem delivers_filled (hseq : seqnum < 32) (hbit : op.BitInByte) (hsize : op.numbers.length ≤ 8)
    (hsource : source < H9frame.BROADCAST_ID) (hdestination : destination ≤ H9frame.BROADCAST_ID) :
    op.Delivers priority seqnum source destination (op.filled priority seqnum source destination) where
  priority := rfl
  type := rfl
  seqnum := by
    simp only [filled, BitVec.toNat_ofNat]
    exact Nat.mod_eq_of_lt (UInt8.lt_iff_toNat_lt.1 hseq)
  source := by
    simp only [filled, BitVec.toNat_setWidth]
    exact Nat.mod_eq_of_lt ((BitVec.lt_def.1 hsource).trans (by decide))
  destination := by
    simp only [filled, BitVec.toNat_setWidth]
    exact Nat.mod_eq_of_lt ((BitVec.le_def.1 hdestination).trans_lt (by decide))
  dlc := by
    simp only [filled, UInt8.toNat_ofNat']
    omega
  data := by
    simp only [filled]
    rw [toList_fillData_new (by simpa using hsize), map_rightpad, List.map_map]
    have hmap : op.numbers.map ((fun b : UInt8 => (b.toNat : ℤ)) ∘ UInt8.ofInt) = op.numbers :=
      (List.map_congr_left fun n hn => (toNat_register n).2 (hbit.numbers n hn)).trans (List.map_id _)
    rw [hmap]
    rfl

theorem destination_of_delivers {frame : H9frame}
    (h : op.Delivers priority seqnum source destination frame) : destination ≤ H9frame.BROADCAST_ID := by
  rw [BitVec.le_def, ← h.destination]
  exact Nat.le_of_lt_succ frame.destination_id.isLt

theorem sent_of_refused {ret : ℤ} (h : op.frame priority seqnum source destination = .error ret)
    (hret : ret ∈ [INVALID_SOURCE_ID, INVALID_DESTINATION_ID, INVALID_DATA_SIZE]) :
    op.Sent sync priority seqnum source destination := by
  unfold Sent send
  rw [h]
  exact .inl ⟨hret, rfl⟩

theorem sent_iff_delivers {frame : H9frame} (hsync : ∀ frame, SendRun.Returns (sync frame))
    (h : op.frame priority seqnum source destination = .ok frame) :
    op.Sent sync priority seqnum source destination ↔
      op.Delivers priority seqnum source destination frame := by
  unfold Sent send
  rw [h]
  constructor
  · rintro (⟨-, hnone⟩ | ⟨sent, hsent, hdelivers, -⟩)
    · cases hnone
    · obtain rfl := List.singleton_inj.1 hsent
      exact hdelivers
  · intro hdelivers
    refine .inr ⟨frame, rfl, hdelivers, ?_⟩
    rw [← hdelivers.seqnum]
    rcases (hsync frame).ok_or_neg with hok | hneg
    · simp [hok]
    · have hne : sync frame ≠ OK := hneg.ne
      rw [if_neg hne]
      exact ⟨iff_of_false (by omega) hne, fun _ => hneg⟩

/-- For every operation and all its arguments: it refuses them or sends what they say, but for
`send_node_discover` from a valid address with a destination of more than nine bits. -/
theorem sent_iff (hsync : ∀ frame, SendRun.Returns (sync frame)) (hseq : seqnum < 32)
    (hbit : op.BitInByte) :
    op.Sent sync priority seqnum source destination ↔
      (op = node_discover → 1 ≤ source → source < H9frame.BROADCAST_ID →
        destination ≤ H9frame.BROADCAST_ID) := by
  have hframe := op.frame_eq priority seqnum source destination
  split_ifs at hframe with hsource hdestination hsize
  · refine iff_of_true (sent_of_refused hframe (by simp)) fun _ hleast hgreatest => ?_
    rcases hsource with hsource | hsource
    · exact absurd hleast (BitVec.not_le.2 hsource)
    · exact absurd hgreatest (BitVec.not_lt.2 hsource)
  · refine iff_of_true (sent_of_refused hframe (by simp)) ?_
    rintro rfl - -
    rcases hdestination with hdestination | hdestination
    · exact absurd hdestination BitVec.not_lt_zero
    · exact absurd hdestination (not_allOnes_lt destination)
  · refine iff_of_true (sent_of_refused hframe (by simp)) ?_
    rintro rfl - -
    simp [numbers] at hsize
  · rw [sent_iff_delivers hsync hframe]
    obtain ⟨hone, hbroadcast⟩ := not_or.1 hsource
    constructor
    · exact fun hdelivers _ _ _ => destination_of_delivers hdelivers
    · intro hdiscover
      have hfits : destination ≤ H9frame.BROADCAST_ID := by
        by_cases hop : op = node_discover
        · exact hdiscover hop (BitVec.not_lt.1 hone) (BitVec.not_le.1 hbroadcast)
        · rw [← greatest_le hop]
          exact BitVec.not_lt.1 (not_or.1 hdestination).2
      exact delivers_filled hseq hbit (not_lt.1 hsize) (BitVec.not_le.1 hbroadcast) hfits

theorem sent_set_bit : (set_bit 3 255).Sent (fun _ => H9BUS_ERROR) .HIGH 31 1 H9frame.BROADCAST_ID :=
  (sent_iff (fun _ => SendRun.returns_iff.2 (by simp [SendRun.codes])) (by decide)
    (by simp [BitInByte])).2 fun h => (by cases h)

/-- The frame for 512 goes to 0. -/
theorem not_sent_node_discover : ¬ node_discover.Sent (fun _ => OK) .LOW 5 1 512 := by
  rintro (⟨-, hframes⟩ | ⟨frame, hframes, hdelivers, -⟩)
  · cases hframes
  · exact absurd (destination_of_delivers hdelivers) (by decide)

end BusSend

end H9
