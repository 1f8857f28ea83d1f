import H9.Proofs.FrameMsg
import H9.Slcan

/-!
# The text of a frame on the serial line

The fields of a line are hexadecimal digits at fixed places. A line that has them is parsed, and
the line that was built for a frame is parsed as that frame, up to the bytes that its `dlc` leaves
out.
-/

namespace H9

open CText

namespace Slcan

/-- The number that hexadecimal digits say. -/
def hexValue (cs : List Char) : ℕ := number 16 (cs.filterMap hexDigit)

section Hex

theorem hexDigit_digitChar {d : ℕ} (h : d < 16) : hexDigit d.digitChar = some d := by
  interval_cases d <;> rfl

theorem hexDigit_toDigits (n : ℕ) : ∀ c ∈ Nat.toDigits 16 n, hexDigit c ≠ none := by
  induction n using Nat.strong_induction_on with
  | _ n ih =>
    rw [Nat.toDigits_eq_if (by decide)]
    split_ifs with h
    · simp [hexDigit_digitChar h]
    · rw [List.forall_mem_append, List.forall_mem_singleton]
      exact ⟨ih (n / 16) (by omega), by simp [hexDigit_digitChar (Nat.mod_lt n (by decide))]⟩

theorem hexValue_toDigits (n : ℕ) : hexValue (Nat.toDigits 16 n) = n := by
  induction n using Nat.strong_induction_on with
  | _ n ih =>
    rw [Nat.toDigits_eq_if (by decide)]
    split_ifs with h
    · simp [hexValue, hexDigit_digitChar h, number]
    · have hlast := hexDigit_digitChar (Nat.mod_lt n (show 16 > 0 by decide))
      have hrest := ih (n / 16) (by omega)
      rw [hexValue] at hrest ⊢
      rw [List.filterMap_append, List.filterMap_cons_some hlast, List.filterMap_nil,
        number_append_singleton, hrest]
      omega

theorem hexDigit_hex (width n : ℕ) : ∀ c ∈ hex width n, hexDigit c ≠ none := by
  simp only [hex, List.forall_mem_append]
  refine ⟨fun c hc => ?_, hexDigit_toDigits n⟩
  rw [List.eq_of_mem_replicate hc]
  decide

theorem hexValue_hex (width n : ℕ) : hexValue (hex width n) = n := by
  have hzero : hexDigit '0' = some 0 := rfl
  have hzeros (k : ℕ) : (List.replicate k '0').filterMap hexDigit = List.replicate k 0 := by
    simp [hzero]
  rw [hexValue, hex, List.filterMap_append, hzeros, number_replicate_zero]
  exact hexValue_toDigits n

theorem length_hex {width n : ℕ} (hw : 0 < width) (hn : n < 16 ^ width) :
    (hex width n).length = width := by
  have := (Nat.length_toDigits_le_iff (by decide) hw).2 hn
  simp only [hex, List.length_append, List.length_replicate]
  omega

theorem stoi16_hexDigits {cs : List Char} (hne : cs ≠ []) (h : ∀ c ∈ cs, hexDigit c ≠ none)
    (hlt : hexValue cs < 2 ^ 31) : stoi16 cs = .ok (hexValue cs : ℤ) := by
  have hscan : (scan 16 cs).2 ≠ [] := by
    obtain ⟨c, cs, rfl⟩ := List.exists_cons_of_ne_nil hne
    obtain ⟨d, hd⟩ := Option.ne_none_iff_exists'.1 (h c List.mem_cons_self)
    simp [scan_hexDigits h, List.filterMap_cons_some hd]
  have hvalue : value 16 cs = (hexValue cs : ℤ) := value_hexDigits h
  rw [stoi16, stoi, if_neg hscan, hvalue, if_pos (by omega)]

end Hex

/-! ### The fields of a line -/

/-- The line of a frame, field by field: the identifier, the number of bytes, and the bytes. -/
def frameLine (id : List Char) (dlc : Char) (data : List Char) : List Char :=
  'T' :: id ++ [dlc] ++ data ++ ['\r']

/-- The fields of a line that the bus can have sent. -/
structure Fields (id : List Char) (dlc : Char) (data : List Char) : Prop where
  length_id : id.length = 8
  digits_id : ∀ c ∈ id, hexDigit c ≠ none
  id_lt : hexValue id < 2 ^ 29
  dlc : ∃ n ≤ 8, hexDigit dlc = some n ∧ data.length = 2 * n
  digits_data : ∀ c ∈ data, hexDigit c ≠ none

/-- The byte `i` of the data. -/
def dataByte (data : List Char) (i : ℕ) : UInt8 := UInt8.ofNat (hexValue ((data.drop (2 * i)).take 2))

section Fields

variable {id : List Char} {dlc : Char} {data : List Char}

theorem substr_ok {s : List Char} {pos n : ℕ} (h : pos ≤ s.length) :
    substr s pos n = .ok ((s.drop pos).take n) := if_neg (by omega)

theorem hexValue_two {cs : List Char} (h : cs.length ≤ 2) (hd : ∀ c ∈ cs, hexDigit c ≠ none) :
    hexValue cs < 256 := by
  have hlt {c : Char} {d : ℕ} (hc : hexDigit c = some d) : d < 16 := (hexDigit_eq_some.1 hc).2
  rcases cs with _ | ⟨a, _ | ⟨b, _ | ⟨c, cs⟩⟩⟩
  · decide
  · obtain ⟨x, hx⟩ := Option.ne_none_iff_exists'.1 (hd a (by simp))
    have := hlt hx
    simp [hexValue, hx, number]
    omega
  · obtain ⟨x, hx⟩ := Option.ne_none_iff_exists'.1 (hd a (by simp))
    obtain ⟨y, hy⟩ := Option.ne_none_iff_exists'.1 (hd b (by simp))
    have := hlt hx
    have := hlt hy
    simp [hexValue, hx, hy, number]
    omega
  · simp at h

theorem ofInt_natCast_byte (n : ℕ) : UInt8.ofInt (n : ℤ) = UInt8.ofNat n := by
  rw [UInt8.ofInt]
  apply UInt8.toNat_inj.1
  simp only [UInt8.toNat_ofNat']
  omega

theorem parseData_digits {s : List Char} {k : ℕ} (hs : s.drop 10 = data ++ ['\r'])
    (hlen : data.length = 2 * k) (hk : k ≤ 8) (hdata : ∀ c ∈ data, hexDigit c ≠ none) :
    ∀ (n i : ℕ) (v : Vector UInt8 8), i + n = k → ∃ v', parseData s n i v = .ok v' ∧
      ∀ j (hj : j < 8), v'[j] = if i ≤ j ∧ j < k then dataByte data j else v[j]
  | 0, i, v, hi => ⟨v, rfl, fun j hj => by rw [if_neg (by omega)]⟩
  | n + 1, i, v, hi => by
    have hlength : s.length = 10 + (data.length + 1) := by
      have := congrArg List.length hs
      simp only [List.length_drop, List.length_append, List.length_singleton] at this
      omega
    have hfield : (s.drop (10 + i * 2)).take 2 = (data.drop (2 * i)).take 2 := by
      rw [← List.drop_drop, hs, List.drop_append_of_le_length (by omega),
        List.take_append_of_le_length (by simp; omega), mul_comm]
    have hmem : ∀ c ∈ (data.drop (2 * i)).take 2, hexDigit c ≠ none :=
      fun c hc => hdata c (List.mem_of_mem_drop (List.mem_of_mem_take hc))
    have hne : (data.drop (2 * i)).take 2 ≠ [] := by
      intro hnil
      have := congrArg List.length hnil
      simp only [List.length_take, List.length_drop, List.length_nil] at this
      omega
    have hlt := hexValue_two (List.length_take_le 2 (data.drop (2 * i))) hmem
    have hread := stoi16_hexDigits hne hmem (by omega)
    obtain ⟨v', hv', hget⟩ := parseData_digits hs hlen hk hdata n (i + 1)
      (v.set i (dataByte data i) (by omega)) (by omega)
    refine ⟨v', ?_, fun j hj => ?_⟩
    · rw [← hv', parseData, substr_ok (by omega), hfield]
      simp only [bind, Except.bind, hread, ofInt_natCast_byte]
      rw [dif_pos (by omega)]
      rfl
    · rw [hget j hj, Vector.getElem_set]
      split_ifs <;> first | rfl | omega | (subst_vars; rfl)

/-- The frame of an identifier, without its bytes. -/
def unpack (id : ℕ) : H9frame where
  priority := if id / 2 ^ 28 % 2 = 1 then .LOW else .HIGH
  type := UInt8.ofNat (id / 2 ^ 23 % 32)
  seqnum := BitVec.ofNat 5 (id / 2 ^ 18)
  destination_id := BitVec.ofNat 9 (id / 2 ^ 9)
  source_id := BitVec.ofNat 9 id
  dlc := 0
  data := Vector.replicate 8 0

/-- The shifts and masks of `parse_slcan_msg` take an identifier apart. -/
theorem unpack_bits {id : ℕ} (h : id < 2 ^ 29) (dlc : UInt8) (v : Vector UInt8 8) :
    let bits := BitVec.ofInt 32 (id : ℤ)
    ({ priority := if bits.getLsbD 28 then .LOW else .HIGH
       type := UInt8.ofBitVec ((bits >>> 23 &&& 31).setWidth 8)
       seqnum := (bits >>> 18).setWidth 5
       destination_id := (bits >>> 9).setWidth 9
       source_id := bits.setWidth 9
       dlc := dlc
       data := v } : H9frame) = { unpack id with dlc := dlc, data := v } := by
  intro bits
  have hbits : bits.toNat = id := by
    simp [bits]
    omega
  have hpriority : bits.getLsbD 28 = decide (id / 2 ^ 28 % 2 = 1) := by
    rw [BitVec.getLsbD, hbits, Nat.testBit_eq_decide_div_mod_eq]
  have htype : UInt8.ofBitVec ((bits >>> 23 &&& 31).setWidth 8) = UInt8.ofNat (id / 2 ^ 23 % 32) := by
    have hand : id / 2 ^ 23 &&& 31 = id / 2 ^ 23 % 32 := Nat.and_two_pow_sub_one_eq_mod _ 5
    have hnat : (bits >>> 23 &&& 31).toNat = id / 2 ^ 23 % 32 := by
      rw [BitVec.toNat_and, BitVec.toNat_ushiftRight, hbits, Nat.shiftRight_eq_div_pow, ← hand]
      rfl
    apply UInt8.toNat_inj.1
    rw [UInt8.toNat_ofBitVec, BitVec.toNat_setWidth, hnat, UInt8.toNat_ofNat']
  have hseqnum : (bits >>> 18).setWidth 5 = BitVec.ofNat 5 (id / 2 ^ 18) := by
    apply BitVec.eq_of_toNat_eq
    simp [hbits, Nat.shiftRight_eq_div_pow]
  have hdestination : (bits >>> 9).setWidth 9 = BitVec.ofNat 9 (id / 2 ^ 9) := by
    apply BitVec.eq_of_toNat_eq
    simp [hbits, Nat.shiftRight_eq_div_pow]
  have hsource : bits.setWidth 9 = BitVec.ofNat 9 id := by
    apply BitVec.eq_of_toNat_eq
    simp [hbits]
  simp only [hpriority, htype, hseqnum, hdestination, hsource, unpack, decide_eq_true_eq]

theorem parse_frameLine (h : Fields id dlc data) {n : ℕ} (hn : hexDigit dlc = some n) :
    ∃ v, parse_slcan_msg (frameLine id dlc data) =
        .ok { unpack (hexValue id) with dlc := UInt8.ofNat n, data := v } ∧
      ∀ j (hj : j < 8), v[j] = if j < n then dataByte data j else 0 := by
  obtain ⟨k, hk, hdlc, hlen⟩ := h.dlc
  obtain rfl := Option.some.inj (hn.symm.trans hdlc)
  have hlt := h.id_lt
  have hlen_id := h.length_id
  have hid : (frameLine id dlc data).drop 1 = id ++ ([dlc] ++ data ++ ['\r']) := by
    simp [frameLine]
  have hnine : (frameLine id dlc data).drop 9 = [dlc] ++ (data ++ ['\r']) := by
    rw [show 9 = 1 + id.length by omega, ← List.drop_drop, hid, List.drop_left, List.append_assoc]
  have hten : (frameLine id dlc data).drop 10 = data ++ ['\r'] := by
    rw [show 10 = 9 + 1 by rfl, ← List.drop_drop, hnine]
    rfl
  have hlength : (frameLine id dlc data).length = 11 + data.length := by
    simp [frameLine, hlen_id]
    omega
  have hone : hexValue [dlc] = n := by simp [hexValue, hn, number]
  have hread_id := stoi16_hexDigits (List.ne_nil_of_length_pos (by omega)) h.digits_id
    (by omega : hexValue id < 2 ^ 31)
  have hread_dlc := stoi16_hexDigits (List.cons_ne_nil dlc []) (by simp [hn]) (by omega)
  obtain ⟨v, hv, hget⟩ := parseData_digits hten hlen hk h.digits_data n 0 (Vector.replicate 8 0)
    (by omega)
  refine ⟨v, ?_, fun j hj => by simpa using hget j hj⟩
  rw [parse_slcan_msg, substr_ok (by omega), substr_ok (by omega), hid, hnine,
    List.take_left' hlen_id, List.take_left' (by rfl)]
  have hcount : (BitVec.ofInt 32 (n : ℤ)).toNat = n := by
    simp
    omega
  simp only [bind, Except.bind, hread_id, hread_dlc, hone, hcount, hv, ofInt_natCast_byte]
  exact congrArg Except.ok (unpack_bits hlt _ _)

end Fields

/-! ### The line of a frame -/

section Build

variable {frame : H9frame}

def priorityBit : Priority → ℕ
  | .HIGH => 0
  | .LOW => 1

theorem priorityBit_le (p : Priority) : priorityBit p ≤ 1 := by
  cases p <;> decide

theorem frame_id_eq (frame : H9frame) : frame_id frame =
    priorityBit frame.priority * 2 ^ 28 + frame.type.toNat % 32 * 2 ^ 23 +
      frame.seqnum.toNat * 2 ^ 18 + frame.destination_id.toNat * 2 ^ 9 + frame.source_id.toNat := by
  have hunfold : frame_id frame = (((priorityBit frame.priority <<< 5 ||| (frame.type &&& 31).toNat)
      <<< 5 ||| frame.seqnum.toNat) <<< 9 ||| frame.destination_id.toNat) <<< 9 |||
        frame.source_id.toNat := by
    unfold frame_id
    cases frame.priority <;> rfl
  have hand : (frame.type &&& 31).toNat = frame.type.toNat % 32 :=
    (UInt8.toNat_and _ _).trans (Nat.and_two_pow_sub_one_eq_mod _ 5)
  have hor {w n : ℕ} (m : ℕ) (h : n < 2 ^ w) : m <<< w ||| n = m * 2 ^ w + n := by
    rw [← Nat.shiftLeft_add_eq_or_of_lt h, Nat.shiftLeft_eq]
  have htype : frame.type.toNat % 32 < 2 ^ 5 := Nat.mod_lt _ (by decide)
  rw [hunfold, hor _ frame.source_id.isLt, hor _ frame.destination_id.isLt,
    hor _ frame.seqnum.isLt, hand, hor _ htype]
  ring

theorem frame_id_lt (frame : H9frame) : frame_id frame < 2 ^ 29 := by
  have hpriority := priorityBit_le frame.priority
  have hseqnum := frame.seqnum.isLt
  have hdestination := frame.destination_id.isLt
  have hsource := frame.source_id.isLt
  rw [frame_id_eq]
  omega

/-- An identifier is taken apart into the fields it was made of. -/
theorem unpack_frame_id (htype : frame.type < 32) :
    { unpack (frame_id frame) with dlc := frame.dlc, data := frame.data } = frame := by
  have htype' : frame.type.toNat < 32 := htype
  have hseqnum := frame.seqnum.isLt
  have hdestination := frame.destination_id.isLt
  have hsource := frame.source_id.isLt
  have hid := frame_id_eq frame
  have hpriority := priorityBit_le frame.priority
  obtain ⟨priority, type, seqnum, destination, source, dlc, data⟩ := frame
  dsimp only at htype' hseqnum hdestination hsource hid hpriority
  generalize frame_id ⟨priority, type, seqnum, destination, source, dlc, data⟩ = id at hid ⊢
  have hpriority_eq : (if id / 2 ^ 28 % 2 = 1 then .LOW else .HIGH) = priority := by
    have hbit : id / 2 ^ 28 % 2 = priorityBit priority := by omega
    rw [hbit]
    cases priority <;> rfl
  have htype_eq : UInt8.ofNat (id / 2 ^ 23 % 32) = type := by
    apply UInt8.toNat_inj.1
    rw [UInt8.toNat_ofNat']
    omega
  have hseqnum_eq : BitVec.ofNat 5 (id / 2 ^ 18) = seqnum := by
    apply BitVec.eq_of_toNat_eq
    rw [BitVec.toNat_ofNat]
    omega
  have hdestination_eq : BitVec.ofNat 9 (id / 2 ^ 9) = destination := by
    apply BitVec.eq_of_toNat_eq
    rw [BitVec.toNat_ofNat]
    omega
  have hsource_eq : BitVec.ofNat 9 id = source := by
    apply BitVec.eq_of_toNat_eq
    rw [BitVec.toNat_ofNat]
    omega
  simp only [unpack, hpriority_eq, htype_eq, hseqnum_eq, hdestination_eq, hsource_eq]

/-- The digits of bytes, two for each. -/
def byteDigits (bs : List UInt8) : List Char := bs.flatMap fun b => hex 2 b.toNat

theorem length_byte (b : UInt8) : (hex 2 b.toNat).length = 2 :=
  length_hex (by decide) b.toNat_lt

theorem length_byteDigits : ∀ bs : List UInt8, (byteDigits bs).length = 2 * bs.length
  | [] => rfl
  | b :: bs => by
    have ih := length_byteDigits bs
    rw [byteDigits] at ih
    rw [byteDigits, List.flatMap_cons, List.length_append, length_byte, ih, List.length_cons]
    ring

theorem dataByte_byteDigits : ∀ (bs : List UInt8) (j : ℕ) (hj : j < bs.length),
    dataByte (byteDigits bs) j = bs[j]
  | b :: bs, 0, _ => by
    rw [dataByte, Nat.mul_zero, List.drop_zero, byteDigits, List.flatMap_cons,
      List.take_left' (length_byte b), hexValue_hex, UInt8.ofNat_toNat]
    rfl
  | b :: bs, j + 1, hj => by
    have ih := dataByte_byteDigits bs j (Nat.lt_of_succ_lt_succ hj)
    rw [byteDigits, dataByte] at ih
    rw [dataByte, byteDigits, List.flatMap_cons, Nat.mul_succ, Nat.add_comm, ← List.drop_drop,
      List.drop_left' (length_byte b), ih]
    rfl

/-- The bytes of a frame that its line has. -/
def sentBytes (frame : H9frame) : List UInt8 := frame.data.toList.take frame.dlc.toNat

theorem length_sentBytes (h : frame.dlc ≤ 8) : (sentBytes frame).length = frame.dlc.toNat := by
  have hle : frame.dlc.toNat ≤ 8 := h
  simp [sentBytes]
  omega

theorem hex_one {n : ℕ} (h : n < 16) : hex 1 n = [n.digitChar] := by
  simp [hex, Nat.toDigits_of_lt_base h]

/-- The line of a frame on the bus has the fields of a line. -/
theorem build_slcan_msg_eq (h : frame.dlc ≤ 8) : build_slcan_msg frame =
    frameLine (hex 8 (frame_id frame)) frame.dlc.toNat.digitChar (byteDigits (sentBytes frame)) := by
  have hle : frame.dlc.toNat ≤ 8 := h
  rw [build_slcan_msg, hex_one (by omega)]
  simp [frameLine, byteDigits, sentBytes]

theorem fields_of_frame (h : frame.dlc ≤ 8) : Fields (hex 8 (frame_id frame))
    frame.dlc.toNat.digitChar (byteDigits (sentBytes frame)) where
  length_id := length_hex (by decide) ((frame_id_lt frame).trans (by decide))
  digits_id := hexDigit_hex 8 _
  id_lt := by
    rw [hexValue_hex]
    exact frame_id_lt frame
  dlc := by
    have hle : frame.dlc.toNat ≤ 8 := h
    exact ⟨frame.dlc.toNat, hle, hexDigit_digitChar (by omega), by
      rw [length_byteDigits, length_sentBytes h]⟩
  digits_data := by
    intro c hc
    obtain ⟨b, -, hb⟩ := List.mem_flatMap.1 hc
    exact hexDigit_hex 2 _ c hb

/-- The line of a frame is parsed as the frame, up to its `dlc` bytes. -/
theorem parse_build (htype : frame.type < 32) (hdlc : frame.dlc ≤ 8) :
    parse_slcan_msg (build_slcan_msg frame) = .ok frame.sent := by
  have hle : frame.dlc.toNat ≤ 8 := hdlc
  obtain ⟨v, hv, hget⟩ := parse_frameLine (fields_of_frame hdlc)
    (hexDigit_digitChar (show frame.dlc.toNat < 16 by omega))
  have hdata : v = frame.sent.data := by
    ext j hj
    rw [hget j hj]
    simp only [H9frame.sent, Vector.getElem_ofFn, Vector.get_eq_getElem]
    split_ifs with hlt
    · rw [dataByte_byteDigits _ _ (by rwa [length_sentBytes hdlc])]
      simp [sentBytes]
    · rfl
  have hunpack := unpack_frame_id htype
  rw [build_slcan_msg_eq hdlc, hv, hexValue_hex, UInt8.ofNat_toNat, hdata]
  refine congrArg Except.ok ?_
  rw [H9frame.sent]
  conv_rhs => rw [← hunpack]

end Build

end Slcan

end H9
