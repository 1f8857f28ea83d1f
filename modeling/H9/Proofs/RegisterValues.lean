import H9.Expression
import H9.Proofs.Announcements
import H9.Proofs.SettedValue

/-!
# The value of a register, read and written

Four of the programs' decoders read the bytes of a value in a loop over 64 bits, which comes to the
number that the bytes make (`foldl_bytes_toNat`). h9sniffer has a case for three of the lengths, the
last one as an `int`. The commands that write two, three or four bytes shift to the left, so that all
bytes but the last one are 0.
-/

namespace H9

open Framing GenericMsg

/-! ### Bytes as a number -/

theorem shift_byte_toNat {v : UInt64} (hv : v.toNat < 2 ^ 56) (b : UInt8) :
    (v <<< 8 ||| b.toUInt64).toNat = 256 * v.toNat + b.toNat := by
  have hb := b.toNat_lt
  have hor := Nat.shiftLeft_add_eq_or_of_lt hb v.toNat
  have height : UInt64.toNat 8 % 64 = 8 := rfl
  simp only [UInt64.toNat_or, UInt64.toNat_shiftLeft, UInt8.toNat_toUInt64, height,
    Nat.shiftLeft_eq] at hor ⊢
  rw [Nat.mod_eq_of_lt (by omega), ← hor]
  omega

/-- The decoders' loop over bytes for which 64 bits are enough. -/
theorem foldl_bytes_toNat : ∀ (bytes : List UInt8) (v : UInt64),
    (v.toNat + 1) * 256 ^ bytes.length ≤ 2 ^ 64 →
      (bytes.foldl (fun (value : UInt64) byte => value <<< 8 ||| byte.toUInt64) v).toNat =
        bytes.foldl (fun n byte => 256 * n + byte.toNat) v.toNat
  | [], _, _ => rfl
  | b :: bytes, v, h => by
    have hb := b.toNat_lt
    have hpow : 0 < 256 ^ bytes.length := Nat.pos_of_ne_zero (by positivity)
    rw [List.length_cons, pow_succ] at h
    have hv : v.toNat < 2 ^ 56 := by
      have hle : (v.toNat + 1) * 256 ≤ (v.toNat + 1) * (256 ^ bytes.length * 256) :=
        Nat.mul_le_mul_left _ (Nat.le_mul_of_pos_left _ hpow)
      omega
    have hstep := shift_byte_toNat hv b
    rw [List.foldl_cons, List.foldl_cons, foldl_bytes_toNat bytes, hstep]
    rw [hstep]
    calc (256 * v.toNat + b.toNat + 1) * 256 ^ bytes.length
        ≤ (256 * v.toNat + 256) * 256 ^ bytes.length := Nat.mul_le_mul_right _ (by omega)
      _ = (v.toNat + 1) * (256 ^ bytes.length * 256) := by ring
      _ ≤ 2 ^ 64 := h

namespace H9frame

/-- The bytes of the value that is behind the number of the register. -/
def register_bytes (frame : H9frame) : List UInt8 := (frame.data.toList.take frame.dlc.toNat).drop 1

variable {frame : H9frame}

theorem length_register_bytes (h : frame.dlc ≤ 8) :
    frame.register_bytes.length = frame.dlc.toNat - 1 := by
  have hle : frame.dlc.toNat ≤ 8 := UInt8.le_iff_toNat_le.1 h
  simp [register_bytes]
  omega

theorem register_bytes_eq (h : 2 ≤ frame.dlc ∧ frame.dlc ≤ 8) : frame.register_bytes =
    frame.data.get 1 :: (frame.data.toList.take frame.dlc.toNat).drop 2 := by
  obtain ⟨n, hn⟩ : ∃ n, frame.dlc.toNat = n + 2 :=
    ⟨frame.dlc.toNat - 2, by have := UInt8.le_iff_toNat_le.1 h.1; simp at this; omega⟩
  rw [register_bytes, hn, data_toList]
  rfl

theorem bigEndian_lt (bytes : List UInt8) : bigEndian bytes < 256 ^ bytes.length := by
  induction bytes using List.reverseRecOn with
  | nil => simp [bigEndian]
  | append_singleton bytes b ih =>
    have hb := b.toNat_lt
    rw [bigEndian_concat, List.length_append, List.length_singleton, pow_succ]
    omega

end H9frame

open H9frame

section Decoders

variable {frame : H9frame}

theorem register_value_toNat (h : frame.dlc ≤ 8) :
    (Device.register_value frame).toNat = bigEndian frame.register_bytes := by
  have hlength := length_register_bytes h
  have hle : frame.dlc.toNat ≤ 8 := UInt8.le_iff_toNat_le.1 h
  refine foldl_bytes_toNat frame.register_bytes 0 ?_
  rw [UInt64.toNat_zero, zero_add, one_mul]
  calc 256 ^ frame.register_bytes.length ≤ 256 ^ 8 := Nat.pow_le_pow_right (by decide) (by omega)
    _ = 2 ^ 64 := by norm_num

theorem response_value_toNat (h : 2 ≤ frame.dlc ∧ frame.dlc ≤ 8) :
    (response_value frame).toNat = bigEndian frame.register_bytes := by
  have hlength := length_register_bytes h.2
  have hle : frame.dlc.toNat ≤ 8 := UInt8.le_iff_toNat_le.1 h.2
  have hb := (frame.data.get 1).toNat_lt
  have hbytes := register_bytes_eq h
  rw [hbytes, List.length_cons] at hlength
  rw [response_value, foldl_bytes_toNat, hbytes, bigEndian, List.foldl_cons, UInt8.toNat_toUInt64]
  · norm_num
  · rw [UInt8.toNat_toUInt64]
    calc ((frame.data.get 1).toNat + 1) * 256 ^ _
        ≤ 256 * 256 ^ 7 := Nat.mul_le_mul (by omega) (Nat.pow_le_pow_right (by decide) (by omega))
      _ = 2 ^ 64 := by norm_num

theorem toInt64_of_lt {v : UInt64} (h : v.toNat < 2 ^ 63) : v.toInt64.toInt = v.toNat := by
  have hint : v.toInt64.toInt = v.toBitVec.toInt := rfl
  rw [hint, BitVec.toInt_eq_toNat_of_lt, UInt64.toNat_toBitVec]
  rw [UInt64.toNat_toBitVec]
  omega

/-- The first bytes of the answer that `get_register` takes are those of the value. -/
theorem get_register_value (h : 2 ≤ frame.dlc ∧ frame.dlc ≤ 8) (d : Device) (bus : Bus) (reg : UInt8)
    (memory : List UInt8) :
    (d.get_register bus reg ⟨some frame, memory⟩).1.2 = some (bigEndian frame.register_bytes : ℤ) := by
  have hge : 2 ≤ frame.dlc.toNat := UInt8.le_iff_toNat_le.1 h.1
  have hle : frame.dlc.toNat ≤ 8 := UInt8.le_iff_toNat_le.1 h.2
  have hcopied : Node.copied 8 frame = frame.dlc.toNat - 1 := by
    rw [Node.copied_of_one_le (UInt8.le_iff_toNat_le.2 (by simp; omega))]
    omega
  have hpayload : Node.payload frame (frame.dlc.toNat - 1) = frame.register_bytes := by
    rw [Node.payload, register_bytes, List.drop_take]
  have hvalue : (frame.register_bytes.foldl
      (fun (buf : UInt64) byte => buf <<< 8 ||| byte.toUInt64) 0).toNat =
        bigEndian frame.register_bytes := register_value_toNat h.2
  have hlt : bigEndian frame.register_bytes < 2 ^ 56 :=
    calc bigEndian frame.register_bytes < 256 ^ frame.register_bytes.length := bigEndian_lt _
      _ ≤ 256 ^ 7 := Nat.pow_le_pow_right (by decide) (by rw [length_register_bytes h.2]; omega)
      _ = 2 ^ 56 := by norm_num
  have hpos : (0 : ℤ) < ((frame.dlc.toNat - 1 : ℕ) : ℤ) := by omega
  simp only [Device.get_register, Node.get_raw_reg, hcopied, hpayload, if_pos hpos]
  rw [toInt64_of_lt (by omega), hvalue]

/-! ### h9sniffer -/

theorem shift_or_toNat32 (b : UInt8) {w i : UInt32} (hi : i.toNat ≤ 24) (hw : w.toNat < 2 ^ i.toNat) :
    (b.toUInt32 <<< i ||| w).toNat = 2 ^ i.toNat * b.toNat + w.toNat := by
  have hb := b.toNat_lt
  have hor := Nat.shiftLeft_add_eq_or_of_lt hw b.toNat
  have hmod : i.toNat % 32 = i.toNat := Nat.mod_eq_of_lt (by omega)
  have hlt : b.toNat * 2 ^ i.toNat < 2 ^ 32 :=
    calc b.toNat * 2 ^ i.toNat < 2 ^ 8 * 2 ^ i.toNat := Nat.mul_lt_mul_of_pos_right hb (by positivity)
      _ ≤ 2 ^ 8 * 2 ^ 24 := Nat.mul_le_mul_left _ (Nat.pow_le_pow_right (by decide) hi)
      _ = 2 ^ 32 := by norm_num
  simp only [UInt32.toNat_or, UInt32.toNat_shiftLeft, UInt8.toNat_toUInt32, hmod,
    Nat.shiftLeft_eq] at hor ⊢
  rw [Nat.mod_eq_of_lt hlt, ← hor, Nat.mul_comm]

theorem two_bytes_toNat (a b : UInt8) :
    (a.toUInt32 <<< 8 ||| b.toUInt32).toNat = bigEndian [a, b] := by
  have hb := b.toNat_lt
  have height : UInt32.toNat 8 = 8 := rfl
  rw [shift_or_toNat32 a (by rw [height]; omega) (by rw [height, UInt8.toNat_toUInt32]; omega), height,
    UInt8.toNat_toUInt32]
  simp [bigEndian]

theorem four_bytes_toNat (a b c d : UInt8) :
    (a.toUInt32 <<< 24 ||| b.toUInt32 <<< 16 ||| c.toUInt32 <<< 8 ||| d.toUInt32).toNat =
      bigEndian [a, b, c, d] := by
  have hb := b.toNat_lt
  have hc := c.toNat_lt
  have hd := d.toNat_lt
  have hsixteen : UInt32.toNat 16 = 16 := rfl
  have htwentyfour : UInt32.toNat 24 = 24 := rfl
  have hlow : (c.toUInt32 <<< 8 ||| d.toUInt32).toNat = 256 * c.toNat + d.toNat := by
    rw [two_bytes_toNat]
    simp [bigEndian]
  have hmid : (b.toUInt32 <<< 16 ||| (c.toUInt32 <<< 8 ||| d.toUInt32)).toNat =
      2 ^ 16 * b.toNat + (256 * c.toNat + d.toNat) := by
    rw [shift_or_toNat32 b (by rw [hsixteen]; omega) (by rw [hsixteen, hlow]; omega), hsixteen, hlow]
  rw [UInt32.or_assoc, UInt32.or_assoc,
    shift_or_toNat32 a (by rw [htwentyfour]) (by rw [htwentyfour, hmid]; omega), htwentyfour, hmid]
  simp [bigEndian]
  omega

/-- An `int` of 32 bits is the number up to 2^31 - 1, and less by 2^32 from there on. -/
theorem toInt32_eq_iff (v : UInt32) : v.toInt32.toInt = v.toNat ↔ v.toNat < 2 ^ 31 := by
  have hv := v.toNat_lt
  have hcond := BitVec.toInt_eq_toNat_cond v.toBitVec
  have hint : v.toInt32.toInt = v.toBitVec.toInt := rfl
  rw [hint, hcond, UInt32.toNat_toBitVec]
  split_ifs <;> omega

theorem print_reg_number_iff :
    print_reg_number frame = some (bigEndian frame.register_bytes : ℤ) ↔
      frame.dlc = 2 ∨ frame.dlc = 3 ∨ frame.dlc = 5 ∧ frame.data.get 1 < 128 := by
  have h1 := (frame.data.get 1).toNat_lt
  have h2 := (frame.data.get 2).toNat_lt
  have h3 := (frame.data.get 3).toNat_lt
  have h4 := (frame.data.get 4).toNat_lt
  unfold print_reg_number
  dsimp only
  split_ifs with htwo hthree hfive
  · have hbytes : frame.register_bytes = [frame.data.get 1] := by
      rw [register_bytes, htwo, data_toList]
      rfl
    have hvalue : (frame.data.get 1).toUInt32.toNat = bigEndian frame.register_bytes := by
      rw [hbytes, UInt8.toNat_toUInt32]
      simp [bigEndian]
    rw [Option.some_inj, ← hvalue, toInt32_eq_iff, UInt8.toNat_toUInt32]
    exact ⟨fun _ => .inl htwo, fun _ => by omega⟩
  · have hbytes : frame.register_bytes = [frame.data.get 1, frame.data.get 2] := by
      rw [register_bytes, hthree, data_toList]
      rfl
    have hvalue := two_bytes_toNat (frame.data.get 1) (frame.data.get 2)
    rw [Option.some_inj, hbytes, ← hvalue, toInt32_eq_iff, hvalue]
    refine ⟨fun _ => .inr (.inl hthree), fun _ => ?_⟩
    simp only [bigEndian, List.foldl_cons, List.foldl_nil]
    omega
  · have hbytes : frame.register_bytes = [frame.data.get 1, frame.data.get 2, frame.data.get 3,
        frame.data.get 4] := by
      rw [register_bytes, hfive, data_toList]
      rfl
    have hvalue := four_bytes_toNat (frame.data.get 1) (frame.data.get 2) (frame.data.get 3)
      (frame.data.get 4)
    have h128 : UInt8.toNat 128 = 128 := rfl
    rw [Option.some_inj, hbytes, ← hvalue, toInt32_eq_iff, hvalue, UInt8.lt_iff_toNat_lt, h128]
    simp only [bigEndian, List.foldl_cons, List.foldl_nil]
    constructor
    · intro hlt
      exact .inr (.inr ⟨hfive, by omega⟩)
    · rintro (hdlc | hdlc | ⟨-, hlt⟩)
      · exact absurd hdlc htwo
      · exact absurd hdlc hthree
      · omega
  · simp [htwo, hthree, hfive]

end Decoders

/-! ### The decoders agree -/

/-- What each of the programs makes of the frame is `n`, where it takes a frame of that type. -/
structure H9frame.DecodedAs (frame : H9frame) (n : ℕ) : Prop where
  get_register (d : Device) (bus : Bus) (reg : UInt8) (memory : List UInt8) :
    (d.get_register bus reg ⟨some frame, memory⟩).1.2 = some (n : ℤ)
  register_change (d : Device) (now : ℤ) : frame.type = REG_EXTERNALLY_CHANGED →
    ∀ m ∈ (d.update_device_state frame now).2,
      (parameter m.2 "value" >>= XmlElement.get_value_as_str) = .ok (toString n)
  node_get_reg (reg : NodeRegExp) : frame.type = REG_VALUE →
    (frame.source_id.toNat : ℤ) = reg.node.node_id → ((frame.data.get 0).toNat : ℤ) = reg.reg_number →
      ∃ tmp, NodeGetReg.print_response reg [some frame] = some (.value tmp) ∧ tmp.toNat = n
  print_response (reg : NodeRegExp) : frame.type = REG_EXTERNALLY_CHANGED →
    (frame.source_id.toNat : ℤ) = reg.node.node_id → ((frame.data.get 0).toNat : ℤ) = reg.reg_number →
      ∃ tmp, NodeSetReg.print_response reg [some frame] = some (.value tmp) ∧ tmp.toNat = n
  print_reg_value : ∃ text, H9.print_reg_value frame = some (some (n : ℤ), text)

variable {frame : H9frame}

theorem register_change_value (h : 2 ≤ frame.dlc ∧ frame.dlc ≤ 8) (node_id : BitVec 16) :
    (parameter (Device.register_change node_id frame) "value" >>= XmlElement.get_value_as_str) =
      .ok (toString (bigEndian frame.register_bytes)) := by
  rw [← register_value_toNat h.2]
  rfl

/-- The wait ends with a frame of the register that has a value. -/
theorem wait_of_value (h : 2 ≤ frame.dlc ∧ frame.dlc ≤ 8) {reg : NodeRegExp} {type : UInt8}
    (htype : frame.type = type) (hnode : (frame.source_id.toNat : ℤ) = reg.node.node_id)
    (hreg : ((frame.data.get 0).toNat : ℤ) = reg.reg_number) :
    ∃ tmp, reg.wait type [some frame] = some (.value tmp) ∧
      tmp.toNat = bigEndian frame.register_bytes := by
  have hdlc : 1 < frame.dlc := UInt8.lt_of_lt_of_le (by decide) h.1
  refine ⟨response_value frame, ?_, response_value_toNat h⟩
  simp [NodeRegExp.wait, NodeRegExp.response, hnode, htype, hdlc, hreg]

/-- All decoders come to the number that the bytes make where h9sniffer prints it, and only there. -/
theorem decodedAs_bigEndian_iff (h : 2 ≤ frame.dlc ∧ frame.dlc ≤ 8) :
    frame.DecodedAs (bigEndian frame.register_bytes) ↔
      frame.dlc = 2 ∨ frame.dlc = 3 ∨ frame.dlc = 5 ∧ frame.data.get 1 < 128 := by
  have hdlc : 1 < frame.dlc := UInt8.lt_of_lt_of_le (by decide) h.1
  rw [← print_reg_number_iff]
  constructor
  · intro hdecoded
    obtain ⟨text, htext⟩ := hdecoded.print_reg_value
    rw [print_reg_value, if_pos hdlc] at htext
    exact congrArg Prod.fst (Option.some.inj htext)
  · intro hprint
    refine ⟨get_register_value h, fun d now htype m hm => ?_, fun reg => wait_of_value h,
      fun reg => wait_of_value h, ?_⟩
    · simp only [Device.update_device_state, htype, true_or, if_true] at hm
      obtain ⟨c, -, rfl⟩ := List.mem_map.1 hm
      exact register_change_value h d.node_id
    · rw [print_reg_value, if_pos hdlc, hprint]
      exact ⟨_, rfl⟩

/-- The answer of a node whose register 10 has the value 513. -/
def answer513 : H9frame :=
  { H9frame.new with
    type := REG_VALUE, source_id := 32, dlc := 3, data := #v[10, 2, 1, 0, 0, 0, 0, 0] }

/-- The decoders agree on the value 513. -/
theorem answer513_decodedAs : answer513.DecodedAs 513 :=
  (decodedAs_bigEndian_iff (by decide)).2 (by decide)

/-- h9sniffer prints no number for a value of three bytes. -/
theorem not_always_decodedAs : ¬ ∀ frame : H9frame,
    frame.type = REG_VALUE ∨ frame.type = REG_EXTERNALLY_CHANGED → 2 ≤ frame.dlc ∧ frame.dlc ≤ 8 →
      frame.DecodedAs (bigEndian frame.register_bytes) := by
  intro h
  have hdecoded := h { answer513 with dlc := 4 } (.inl rfl) (by decide)
  obtain ⟨text, htext⟩ := hdecoded.print_reg_value
  have hnone : (H9.print_reg_value { answer513 with dlc := 4 }).map Prod.fst = some none := by decide
  rw [htext] at hnone
  cases Option.some.inj hnone

/-! ### Writing a register -/

namespace NodeSetReg

/-- The frame of a command writes `value` up to its number of bytes into the register, and what is
printed when the node changes the register to these bytes is that number. -/
structure Writes (N : ℕ) (frame : H9frame) (reg : NodeRegExp) (value : ℤ) : Prop where
  type : frame.type = SET_REG
  dlc : frame.dlc.toNat = N + 1
  register : ((frame.data.get 0).toNat : ℤ) = reg.reg_number
  bytes : frame.register_bytes = be N (value % 2 ^ (8 * N)).toNat
  echo (e : H9frame) : (e.source_id.toNat : ℤ) = reg.node.node_id →
    e.type = REG_EXTERNALLY_CHANGED → e.dlc = frame.dlc → e.data = frame.data →
      ∃ tmp, print_response reg [some e] = some (.value tmp) ∧ (tmp.toNat : ℤ) = value % 2 ^ (8 * N)

variable {N : ℕ} {source_id : BitVec 16} {reg : NodeRegExp} {value : ℤ}

theorem toNat_byte (n : ℤ) : ((UInt8.ofInt n).toNat : ℤ) = n % 256 := by
  rw [UInt8.ofInt, UInt8.toNat_ofNat']
  omega

/-- Shifted to the left by a byte or more, a number ends with a byte of zeros. -/
theorem ofInt_shiftLeft (n : ℤ) {k : ℕ} (hk : 8 ≤ k) : UInt8.ofInt (n <<< k) = 0 := by
  obtain ⟨j, rfl⟩ := Nat.exists_eq_add_of_le hk
  have hn : n <<< (8 + j) = 256 * (n * 2 ^ j) := by
    rw [Int.shiftLeft_eq, pow_add]
    ring
  rw [← UInt8.toNat_inj, UInt8.toNat_zero, ← Int.ofNat_inj, toNat_byte, hn, Int.mul_emod_right]
  rfl

/-- The data of a command: the register, and the last byte of the value behind zeros. -/
theorem frame_of_command {cmd : BitVec 16 → NodeRegExp → ℤ → H9frame} (h : (N, cmd) ∈ commands)
    (source_id : BitVec 16) (reg : NodeRegExp) (value : ℤ) :
    (1 ≤ N ∧ N ≤ 4) ∧ (cmd source_id reg value).type = SET_REG ∧
      (cmd source_id reg value).dlc.toNat = N + 1 ∧
      (cmd source_id reg value).data.get 0 = UInt8.ofInt reg.reg_number ∧
      (cmd source_id reg value).register_bytes = List.replicate (N - 1) 0 ++ [UInt8.ofInt value] := by
  have h8 : UInt8.ofInt (value <<< (8 : ℕ)) = 0 := ofInt_shiftLeft value (Nat.le_refl 8)
  have h16 : UInt8.ofInt (value <<< (16 : ℕ)) = 0 := ofInt_shiftLeft value (by omega)
  have h24 : UInt8.ofInt (value <<< (24 : ℕ)) = 0 := ofInt_shiftLeft value (by omega)
  simp only [commands, List.mem_cons, Prod.mk.injEq, List.not_mem_nil, or_false] at h
  rcases h with ⟨rfl, rfl⟩ | ⟨rfl, rfl⟩ | ⟨rfl, rfl⟩ | ⟨rfl, rfl⟩
  · exact ⟨by decide, rfl, rfl, rfl, rfl⟩
  · refine ⟨by decide, rfl, rfl, rfl, ?_⟩
    show [UInt8.ofInt (value <<< (8 : ℕ)), UInt8.ofInt value] = _
    rw [h8]
    rfl
  · refine ⟨by decide, rfl, rfl, rfl, ?_⟩
    show [UInt8.ofInt (value <<< (16 : ℕ)), UInt8.ofInt (value <<< (8 : ℕ)), UInt8.ofInt value] = _
    rw [h8, h16]
    rfl
  · refine ⟨by decide, rfl, rfl, rfl, ?_⟩
    show [UInt8.ofInt (value <<< (24 : ℕ)), UInt8.ofInt (value <<< (16 : ℕ)), UInt8.ofInt (value <<< (8 : ℕ)),
      UInt8.ofInt value] = _
    rw [h8, h16, h24]
    rfl

theorem bigEndian_be : ∀ n v : ℕ, bigEndian (be n v) = v % 256 ^ n
  | 0, v => by simp [be, bigEndian, Nat.mod_one]
  | n + 1, v => by
    rw [be, bigEndian_concat, bigEndian_be n, pow_succ', Nat.mod_mul, UInt8.toNat_ofNat']
    omega

theorem bigEndian_zeros : ∀ n : ℕ, bigEndian (List.replicate n 0) = 0
  | 0 => rfl
  | n + 1 => by
    rw [List.replicate_succ', bigEndian_concat, bigEndian_zeros n]
    rfl

theorem be_of_lt {x : ℕ} (hx : x < 256) : ∀ n : ℕ, be (n + 1) x = List.replicate n 0 ++ [UInt8.ofNat x]
  | 0 => rfl
  | n + 1 => by
    have hzero : x / 256 = 0 := Nat.div_eq_of_lt hx
    rw [be, hzero, be_of_lt (by omega) n, List.replicate_succ']
    rfl

/-- The command writes the value and prints it where the register is a byte and the value, up to the
width of the command, is a byte too, and only there. -/
theorem writes_iff {cmd : BitVec 16 → NodeRegExp → ℤ → H9frame} (h : (N, cmd) ∈ commands)
    (source_id : BitVec 16) (reg : NodeRegExp) (value : ℤ) :
    Writes N (cmd source_id reg value) reg value ↔
      (0 ≤ reg.reg_number ∧ reg.reg_number < 256) ∧ value % 2 ^ (8 * N) < 256 := by
  obtain ⟨⟨hN, hN'⟩, htype, hdlc, hreg, hbytes⟩ := frame_of_command h source_id reg value
  set frame := cmd source_id reg value
  have hpow : (2 : ℤ) ^ (8 * N) = ((256 ^ N : ℕ) : ℤ) := by
    rw [pow_mul]
    norm_num
  obtain ⟨x, hx⟩ : ∃ x : ℕ, value % 2 ^ (8 * N) = x :=
    Int.eq_ofNat_of_zero_le (Int.emod_nonneg _ (by positivity))
  have hxlt : x < 256 ^ N := by
    have hlt := Int.emod_lt_of_pos value (b := 2 ^ (8 * N)) (by positivity)
    rw [hx, hpow] at hlt
    exact_mod_cast hlt
  obtain ⟨n, rfl⟩ : ∃ n, N = n + 1 := ⟨N - 1, by omega⟩
  have hlast : UInt8.ofInt value = UInt8.ofNat x := by
    have hdvd : value % 256 = (x : ℤ) % 256 := by
      rw [← hx, Int.emod_emod_of_dvd]
      exact ⟨2 ^ (8 * n), by rw [Nat.mul_add, pow_add]; ring⟩
    rw [← UInt8.toNat_inj, ← Int.ofNat_inj, toNat_byte, UInt8.toNat_ofNat']
    omega
  have hvalue : bigEndian frame.register_bytes = x % 256 := by
    rw [hbytes, hlast, bigEndian_concat, Nat.add_sub_cancel, bigEndian_zeros, UInt8.toNat_ofNat']
    omega
  have hbe : frame.register_bytes = be (n + 1) x ↔ x < 256 := by
    constructor
    · intro heq
      have hlt : x % 256 < 256 := Nat.mod_lt _ (by decide)
      rwa [← hvalue, heq, bigEndian_be, Nat.mod_eq_of_lt hxlt] at hlt
    · intro hlt
      rw [hbytes, hlast, be_of_lt hlt, Nat.add_sub_cancel]
  have hregister : ((frame.data.get 0).toNat : ℤ) = reg.reg_number ↔
      0 ≤ reg.reg_number ∧ reg.reg_number < 256 := by
    rw [hreg, toNat_byte]
    omega
  constructor
  · intro hw
    have hwbytes := hw.bytes
    rw [hx, Int.toNat_natCast, hbe] at hwbytes
    refine ⟨hregister.1 hw.register, ?_⟩
    rw [hx]
    exact_mod_cast hwbytes
  · rintro ⟨hr, hlt⟩
    rw [hx] at hlt
    have hlt' : x < 256 := by exact_mod_cast hlt
    refine ⟨htype, hdlc, hregister.2 hr, ?_, fun e hnode hetype hedlc hedata => ?_⟩
    · rw [hx, Int.toNat_natCast, hbe]
      exact hlt'
    · have hdlcs : 2 ≤ e.dlc ∧ e.dlc ≤ 8 := by
        rw [hedlc, UInt8.le_iff_toNat_le, UInt8.le_iff_toNat_le, hdlc]
        show 2 ≤ n + 1 + 1 ∧ n + 1 + 1 ≤ 8
        omega
      obtain ⟨tmp, hprinted, htmp⟩ := wait_of_value hdlcs hetype hnode
        (by rw [hedata]; exact hregister.2 hr)
      have hsame : e.register_bytes = frame.register_bytes := by
        rw [register_bytes, register_bytes, hedata, hedlc]
      refine ⟨tmp, hprinted, ?_⟩
      rw [htmp, hsame, hvalue, hx, Nat.mod_eq_of_lt hlt']

/-- Register 10 of the node 32. -/
def register10 : NodeRegExp := ⟨⟨32⟩, 10⟩

/-- Two bytes write the value 7. -/
theorem set2_writes_seven : Writes 2 (NodeSet2Reg.frame 16 register10 7) register10 7 :=
  (writes_iff (by simp [commands]) 16 register10 7).2 (by decide)

/-- Two bytes for the value 513 are 0 and 1. -/
theorem not_always_writes : ¬ ∀ (N : ℕ) (cmd : BitVec 16 → NodeRegExp → ℤ → H9frame),
    (N, cmd) ∈ commands → ∀ (source_id : BitVec 16) (reg : NodeRegExp) (value : ℤ),
      0 ≤ reg.reg_number ∧ reg.reg_number < 256 → -2 ^ 31 ≤ value ∧ value < 2 ^ 31 →
        Writes N (cmd source_id reg value) reg value := by
  intro h
  have hw := h 2 NodeSet2Reg.frame (by simp [commands]) 16 register10 513 (by decide) (by norm_num)
  have hbytes := hw.bytes
  revert hbytes
  decide

end NodeSetReg

end H9
