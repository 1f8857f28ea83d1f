import H9.Proofs.ComparatorOrder
import H9.Proofs.FramePromises
import H9.Proofs.Registers

/-!
# What `set_register` says of an answer

With a number, what `set_register` returns comes from the answer. The value that it reports is in
the bytes of a local variable, of which the answer gives as many as it has: with fewer than the
register is written with, the last of them is one of those that were there before
(`set_raw_reg_value_of_lt`). With a text, what is returned does not depend on an answer.
-/

namespace H9

open Framing

/-- A frame that says that the register was changed, in answer to the next frame for the node. -/
structure H9frame.Confirms (frame : H9frame) (bus : Bus) (node_id : BitVec 16) (reg : UInt8) : Prop where
  type : frame.type = REG_EXTERNALLY_CHANGED
  source_id : frame.source_id.toNat = node_id.toNat
  seqnum : frame.seqnum.toNat = (bus.get_next_seqnum node_id).1.toNat
  dlc : 1 ≤ frame.dlc
  reg : frame.data.get 0 = reg

namespace Node

/-- What the next `set_raw_reg` of the register waits for. -/
def confirmation (bus : Bus) (node_id : BitVec 16) (reg : UInt8) : H9FrameComparator :=
  (Request.set_raw_reg reg 0 []).comparator node_id (bus.get_next_seqnum node_id).1

theorem eqFrame_confirmation {bus : Bus} {node_id : BitVec 16} {reg : UInt8} {frame : H9frame} :
    (confirmation bus node_id reg).eqFrame frame = true ↔ frame.Confirms bus node_id reg := by
  refine H9FrameComparator.eqFrame_request_iff.trans ⟨?_, ?_⟩
  · rintro ⟨hsource, htype, hseqnum, hdlc, hreg⟩
    exact ⟨htype.symm, hsource.symm, hseqnum.symm, hdlc, hreg.symm⟩
  · rintro ⟨htype, hsource, hseqnum, hdlc, hreg⟩
    exact ⟨hsource.symm, htype.symm, hseqnum.symm, hdlc, hreg.symm⟩

/-- The conversation in which these frames arrive in time: the first that is waited for answers. -/
def exchange (bus : Bus) (node_id : BitVec 16) (reg : UInt8) (arrived : List H9frame)
    (memory : List UInt8) : Exchange :=
  ⟨arrived.find? (confirmation bus node_id reg).eqFrame, memory⟩

end Node

namespace Device

variable (d : Device) (bus : Bus) (reg : UInt8) (arrived : List H9frame)

/-- A call of `set_register` with a number or with a text. -/
inductive SetCall
  | number (value : ℤ)
  | text (value : List UInt8)
deriving DecidableEq, Repr

/-- What the call returns, and the value that it reports. -/
def setRegister (memory : List UInt8) : SetCall → ℤ × Option ℕ
  | .number value => (d.set_register bus reg value (Node.exchange bus d.node_id reg arrived memory)).1
  | .text value =>
    ((d.set_register_text bus reg value (Node.exchange bus d.node_id reg arrived memory)).1, none)

/-- The call does not fail only if the change was confirmed, and then what it says does not depend on
what was in memory before. -/
def Confirmed (call : SetCall) : Prop :=
  ∀ memory : List UInt8, memory.length = 4 → 0 ≤ (d.setRegister bus reg arrived memory call).1 →
    (∃ frame ∈ arrived, frame.Confirms bus d.node_id reg) ∧
      ∀ memory' : List UInt8, memory'.length = 4 →
        d.setRegister bus reg arrived memory' call = d.setRegister bus reg arrived memory call

/-- How many bytes a register of that size is written with. -/
def width (size : ℤ) : ℕ := if size ≤ 8 then 1 else if size ≤ 16 then 2 else 4

/-- The device has the register and sends something to it, and then: the first frame that confirms a
number, if there is one, has as many bytes as the number; and there is one that confirms a text. -/
def Answered : SetCall → Prop
  | .number _ => ∀ desc, d.register_map[reg]? = some desc → 1 ≤ desc.size →
    ∀ frame, arrived.find? (Node.confirmation bus d.node_id reg).eqFrame = some frame →
      width desc.size + 1 ≤ frame.dlc.toNat
  | .text value => d.register_map.contains reg → value.length < 8 →
    ∃ frame ∈ arrived, frame.Confirms bus d.node_id reg

end Device

/-! ### The bytes of an answer -/

theorem H9frame.bigEndian_concat (bytes : List UInt8) (b : UInt8) :
    bigEndian (bytes ++ [b]) = 256 * bigEndian bytes + b.toNat := by
  simp [bigEndian]

namespace Node

variable {res : H9frame} {bus : Bus} {node_id : BitVec 16} {reg : UInt8} {buf memory : List UInt8}

theorem length_payload (n : ℕ) : (payload res n).length = min n 7 := by
  simp [payload]

theorem copied_of_one_le (h : 1 ≤ res.dlc) (nbyte : ℕ) :
    copied nbyte res = min nbyte (res.dlc.toNat - 1) := by
  have hne : res.dlc ≠ 0 := by
    rintro hzero
    rw [hzero] at h
    exact absurd h (by decide)
  rw [copied, if_neg hne]

theorem set_raw_reg_value_of_le (hdlc : buf.length + 1 ≤ res.dlc.toNat) (hbuf : buf.length ≤ 4) :
    (set_raw_reg_value bus node_id reg buf ⟨some res, memory⟩).1 =
      ((res.dlc.toNat : ℤ) - 1, H9frame.bigEndian (payload res buf.length)) := by
  have hone : 1 ≤ res.dlc := UInt8.le_iff_toNat_le.2 (by simp; omega)
  have hcopied : copied buf.length res = buf.length := by
    rw [copied_of_one_le hone]
    omega
  have hdrop : (memory.take buf.length).drop (payload res buf.length).length = [] := by
    rw [length_payload, List.drop_eq_nil_iff, List.length_take]
    omega
  simp only [set_raw_reg_value, set_raw_reg, hcopied, hdrop, List.append_nil]

theorem set_raw_reg_value_of_lt (hone : 1 ≤ res.dlc) (hdlc : res.dlc.toNat ≤ buf.length)
    (hbuf : buf.length ≤ 4) (b : UInt8) :
    (set_raw_reg_value bus node_id reg buf ⟨some res, List.replicate 4 b⟩).1.2 % 256 = b.toNat := by
  have hpos : 1 ≤ res.dlc.toNat := UInt8.le_iff_toNat_le.1 hone
  have hcopied : copied buf.length res = res.dlc.toNat - 1 := by
    rw [copied_of_one_le hone]
    omega
  obtain ⟨m, hm⟩ : ∃ m, buf.length - (res.dlc.toNat - 1) = m + 1 :=
    ⟨buf.length - res.dlc.toNat, by omega⟩
  have hrest : ((List.replicate 4 b).take buf.length).drop
      (payload res (res.dlc.toNat - 1)).length = List.replicate m b ++ [b] := by
    have hlength : min (res.dlc.toNat - 1) 7 = res.dlc.toNat - 1 := by omega
    have htake : min buf.length 4 = buf.length := by omega
    rw [length_payload, hlength, List.take_replicate, htake, List.drop_replicate, hm,
      List.replicate_succ']
  have hb : b.toNat < 256 := b.toNat_lt
  simp only [set_raw_reg_value, set_raw_reg, hcopied, hrest, ← List.append_assoc,
    H9frame.bigEndian_concat]
  omega

end Node

namespace Device

variable {d : Device} {bus : Bus} {reg : UInt8} {arrived : List H9frame}

theorem written_cases (size value : ℤ) : (size < 1 ∧ written size value = none) ∨
    (1 ≤ size ∧ ∃ buf, written size value = some buf ∧ buf.length = width size) := by
  rcases tdiv_eight size with ⟨hsize, hn⟩ | ⟨hsize, hn⟩
  · refine .inr ⟨hsize, ?_⟩
    unfold written width
    dsimp only
    rw [hn]
    split_ifs <;> first | exact ⟨_, rfl, rfl⟩ | omega
  · refine .inl ⟨hsize, ?_⟩
    rw [← Option.not_isSome_iff_eq_none, written_isSome]
    omega

theorem width_le (size : ℤ) : width size ≤ 4 := by
  unfold width
  split_ifs <;> omega

theorem set_register_eq {desc : RegisterDesc} (hdesc : d.register_map[reg]? = some desc) (value : ℤ)
    (x : Exchange) : (d.set_register bus reg value x).1 =
      match written desc.size value with
      | none => (-1, none)
      | some buf => ((Node.set_raw_reg_value bus d.node_id reg buf x).1.1,
          some (Node.set_raw_reg_value bus d.node_id reg buf x).1.2) := by
  unfold set_register written
  rw [hdesc]
  dsimp only
  split_ifs <;> rfl

variable (d bus reg arrived)

/-- A number is confirmed by the first frame that is waited for, if that gives all its bytes. -/
theorem confirmed_number_iff (value : ℤ) :
    d.Confirmed bus reg arrived (.number value) ↔ d.Answered bus reg arrived (.number value) := by
  unfold Confirmed Answered setRegister
  rcases hdesc : d.register_map[reg]? with _ | desc
  · have hfail (x : Exchange) : (d.set_register bus reg value x).1 = (-1, none) := by
      unfold set_register
      rw [hdesc]
    simp [hfail]
  simp only [set_register_eq hdesc, Option.some.injEq, forall_eq']
  rcases written_cases desc.size value with ⟨hsize, hwritten⟩ | ⟨hsize, buf, hwritten, hlength⟩
  · simp [hwritten, show ¬ 1 ≤ desc.size by omega]
  have hbuf : buf.length ≤ 4 := hlength ▸ width_le desc.size
  simp only [hwritten, ← hlength, Node.exchange]
  rcases hfound : arrived.find? (Node.confirmation bus d.node_id reg).eqFrame with _ | frame
  · simp [Node.set_raw_reg_value, Node.set_raw_reg]
  have hconfirms : frame.Confirms bus d.node_id reg :=
    Node.eqFrame_confirmation.1 (List.find?_some hfound)
  have hone : 1 ≤ frame.dlc.toNat := UInt8.le_iff_toNat_le.1 hconfirms.dlc
  simp only [Option.some.injEq, forall_eq']
  constructor
  · intro h _
    by_contra hlt
    have hlast (b : UInt8) : (Node.set_raw_reg_value bus d.node_id reg buf
        ⟨some frame, List.replicate 4 b⟩).1.2 % 256 = b.toNat :=
      Node.set_raw_reg_value_of_lt hconfirms.dlc (by omega) hbuf b
    have hret (memory : List UInt8) : (Node.set_raw_reg_value bus d.node_id reg buf
        ⟨some frame, memory⟩).1.1 = (frame.dlc.toNat : ℤ) - 1 := rfl
    have hsame := (h (List.replicate 4 0) rfl (by rw [hret]; omega)).2 (List.replicate 4 1) rfl
    have hvalue := Option.some.inj (Prod.ext_iff.1 hsame).2
    have h0 := hlast 0
    rw [← hvalue, hlast 1] at h0
    exact absurd h0 (by decide)
  · intro h memory _ _
    refine ⟨⟨frame, List.mem_of_find?_eq_some hfound, hconfirms⟩, fun memory' _ => ?_⟩
    rw [Node.set_raw_reg_value_of_le (h hsize) hbuf, Node.set_raw_reg_value_of_le (h hsize) hbuf]

/-- A text that is sent is said to be there. -/
theorem confirmed_text_iff (value : List UInt8) :
    d.Confirmed bus reg arrived (.text value) ↔ d.Answered bus reg arrived (.text value) := by
  unfold Confirmed Answered setRegister set_register_text
  rw [Std.TreeMap.contains_eq_isSome_getElem?]
  rcases d.register_map[reg]? with _ | desc
  · simp
  · dsimp only
    by_cases hlength : value.length < 8
    · simp only [if_pos hlength]
      constructor
      · intro h _ _
        exact (h [0, 0, 0, 0] rfl (Int.natCast_nonneg _)).1
      · intro h _ _ _
        exact ⟨h rfl hlength, fun _ _ => trivial⟩
    · simp [hlength]

/-- `set_register` with a number is right where the first frame that it waits for has all the bytes;
with a text, where such a frame arrives. -/
theorem confirmed_iff (call : SetCall) :
    d.Confirmed bus reg arrived call ↔ d.Answered bus reg arrived call := by
  cases call with
  | number value => exact d.confirmed_number_iff bus reg arrived value
  | text value => exact d.confirmed_text_iff bus reg arrived value

/-- The device of `relays`, whose register 10 has 16 bits. -/
def relay : Device := buildDevice relays 0 0 32 1 0

theorem relay_register : ∃ desc, relay.register_map[(10 : UInt8)]? = some desc ∧ desc.size = 16 := by
  have hsize : relay.register_map[(10 : UInt8)]?.map RegisterDesc.size = some 16 := by
    decide +kernel
  exact Option.map_eq_some_iff.1 hsize

/-- An answer with one byte of the two. -/
def shortAnswer : H9frame := { H9frame.new with
  type := H9frame.REG_EXTERNALLY_CHANGED, source_id := 32, dlc := 2, data := #v[10, 2, 0, 0, 0, 0, 0, 0] }

/-- The short answer gives a number that is partly from memory, and a text needs no answer at all. -/
theorem not_confirmed_relay : ¬ relay.Confirmed Bus.new 10 [shortAnswer] (.number 513) ∧
    ¬ relay.Confirmed Bus.new 10 [] (.text [65]) := by
  obtain ⟨desc, hdesc, hsize⟩ := relay_register
  constructor
  · rw [confirmed_number_iff]
    intro h
    have hconfirms : (Node.confirmation Bus.new relay.node_id 10).eqFrame shortAnswer = true := by
      rw [Node.eqFrame_confirmation]
      exact ⟨rfl, rfl, rfl, by decide, rfl⟩
    have hdlc := h desc hdesc (by omega) shortAnswer (by rw [List.find?_cons, hconfirms])
    rw [hsize] at hdlc
    exact absurd hdlc (by decide)
  · rw [confirmed_text_iff]
    intro h
    have hcontains : relay.register_map.contains 10 = true := by
      rw [Std.TreeMap.contains_eq_isSome_getElem?, hdesc]
      rfl
    obtain ⟨frame, hmem, -⟩ := h hcontains (by decide)
    cases hmem

end Device

end H9
