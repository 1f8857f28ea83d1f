import H9.Ihex
import H9.Lib.IntelHex
import H9.Lib.Steps

/-!
# The image that an Intel HEX file leaves

`read_ihex` writes each data record that it gets to behind the one before, or at its address where that
is further on (`read_spec`): it is a loader of blocks. From that come the indices that it writes, the
image of a file in the format, and when it returns a length.
-/

namespace H9

open Blocks

/-! ### Records of any line -/

/-- The numbers that are read from a line, two characters each. -/
def fields (line : ℕ → UInt8) (k : ℕ) : UInt8 := hex2bin (pointer line (1 + 2 * k))

/-- A record as it is read: its numbers, as far as they are looked at. -/
abbrev RawRecord := ℕ → UInt8

namespace RawRecord

def offset (r : RawRecord) : ℕ := (r 1).toNat * 256 + (r 2).toNat

def data (r : RawRecord) : List UInt8 := (List.range (r 0).toNat).map fun n => r (4 + n)

def upper (r : RawRecord) : ℕ := (r 4).toNat * 256 + (r 5).toNat

/-- How many numbers the check sum is over. -/
def extent (r : RawRecord) : ℕ := if r 3 = 0 then 5 + (r 0).toNat else 7

/-- The check sum is right. -/
def Checked (r : RawRecord) : Prop := ∑ k ∈ Finset.range r.extent, r k = 0

instance (r : RawRecord) : Decidable r.Checked := inferInstanceAs (Decidable (_ = _))

/-- The data that is written, with its addresses: the last record may be one with a wrong check sum. -/
def blocksRead (base : ℕ) : List RawRecord → List (Block UInt8)
  | [] => []
  | r :: rs =>
    if r 3 = 0 then ⟨base + r.offset, r.data⟩ :: if r.Checked then blocksRead base rs else []
    else if r 3 = 4 then
      if r.Checked ∧ r.upper ≤ 1 then blocksRead (r.upper * 65536) rs else []
    else blocksRead base rs

/-- One of the records that are read has a wrong check sum. -/
def Rejected : List RawRecord → Prop
  | [] => False
  | r :: rs =>
    if r 3 = 0 then r.Checked → Rejected rs
    else if r 3 = 4 then r.Checked → r.upper ≤ 1 ∧ Rejected rs
    else Rejected rs

end RawRecord

open RawRecord

def rawRecords (lines : List (ℕ → UInt8)) : List RawRecord :=
  (lines.filter fun line => line 0 = 0x3a).map fields

/-! ### The loop -/

namespace ReadIhex

/-- The loader that comes to the state `s`. -/
theorem foldl_store : ∀ (bytes : List UInt8) (s : ReadIhex), bytes.foldl store s =
    { s with
      fw_data := Blocks.write s.fw_data s.data_length bytes
      data_length := s.data_length + bytes.length
      written := s.written ++ List.range' s.data_length bytes.length }
  | [], s => by simp [Blocks.write]
  | b :: bytes, s => by
    rw [List.foldl_cons, foldl_store bytes]
    simp only [store, Blocks.write, List.length_cons, List.range'_succ, List.append_assoc,
      List.singleton_append, mk.injEq, true_and, and_true]
    omega

theorem foldl_add (bytes : List UInt8) (t : UInt8) : bytes.foldl (· + ·) t = t + bytes.sum := by
  induction bytes generalizing t with
  | nil => simp
  | cons b bytes ih => rw [List.foldl_cons, ih, List.sum_cons, add_assoc]

theorem check_eq (s : ReadIhex) (t crc : UInt8) :
    s.check t crc = if t + crc = 0 then (s, true) else ({ s with data_length := 0 }, false) := by
  have hiff : 0 - t ≠ crc ↔ ¬ t + crc = 0 := by rw [zero_sub, Ne, neg_eq_iff_add_eq_zero]
  rw [check, if_congr hiff rfl rfl, ite_not]

theorem sum_data (r : RawRecord) : ∑ k ∈ Finset.range (5 + (r 0).toNat), r k =
    r 0 + r 1 + r 2 + r 3 + r.data.sum + r (4 + (r 0).toNat) := by
  have hdata : ∀ n : ℕ, ((List.range n).map fun k => r (4 + k)).sum =
      ∑ k ∈ Finset.range n, r (4 + k) := by
    intro n
    induction n with
    | zero => simp
    | succ n ih => rw [List.sum_range_succ, ih, Finset.sum_range_succ]
  have hfive : 5 + (r 0).toNat = 4 + (r 0).toNat + 1 := by omega
  rw [hfive, Finset.sum_range_succ, Finset.sum_range_add, RawRecord.data, hdata]
  simp [Finset.sum_range_succ]

theorem sum_address (r : RawRecord) : ∑ k ∈ Finset.range 7, r k =
    r 0 + r 1 + r 2 + r 3 + r 4 + r 5 + r 6 := by
  simp [Finset.sum_range_succ]

variable (s : ReadIhex) {line : ℕ → UInt8}

/-- The state behind a block. -/
def withBlock (b : Block UInt8) : ReadIhex :=
  { s with
    fw_data := load s.fw_data s.data_length [b]
    data_length := stop s.data_length [b]
    written := s.written ++ Blocks.written s.data_length [b] }

/-- What a record makes of the state, and whether the loop goes on. -/
def next (r : RawRecord) : ReadIhex × Bool :=
  if r 3 = 0 then
    let s := s.withBlock ⟨s.extended_address + r.offset, r.data⟩
    if r.Checked then (s, true) else ({ s with data_length := 0 }, false)
  else if r 3 = 4 then
    let s := { s with extended_address := r.upper * 65536 }
    if r.Checked then (s, decide (r.upper ≤ 1)) else ({ s with data_length := 0 }, false)
  else (s, true)

theorem data_record_eq (h : fields line 3 = 0) :
    s.data_record line (s.extended_address + RawRecord.offset (fields line)) (fields line 0)
      (fields line 0 + fields line 1 + fields line 2 + fields line 3) = s.next (fields line) := by
  have hbytes : (List.range (fields line 0).toNat).map (fun n => hex2bin (pointer line (9 + n * 2))) =
      data (fields line) := by
    refine List.map_congr_left fun n _ => ?_
    rw [fields]
    congr 2
    omega
  have hcrc : hex2bin (pointer line (9 + (fields line 0).toNat * 2)) =
      fields line (4 + (fields line 0).toNat) := by
    rw [fields]
    congr 2
    omega
  have hmax (n : ℕ) : (if s.data_length < n then { s with data_length := n } else s) =
      { s with data_length := max s.data_length n } := by
    split_ifs with hlt
    · rw [max_eq_right hlt.le]
    · rw [max_eq_left (Nat.le_of_not_lt hlt)]
  have hchecked : Checked (fields line) ↔ fields line 0 + fields line 1 + fields line 2 +
      fields line 3 + (data (fields line)).sum + fields line (4 + (fields line 0).toNat) = 0 := by
    rw [Checked, extent, if_pos h, sum_data]
  simp only [data_record, hbytes, hcrc, hmax, foldl_store, foldl_add, check_eq, next, if_pos h,
    hchecked, withBlock, load, stop, Blocks.written, List.append_nil]

theorem address_record_eq (h : fields line 3 = 4) :
    s.address_record line (fields line 0 + fields line 1 + fields line 2 + fields line 3) =
      s.next (fields line) := by
  have hchecked : Checked (fields line) ↔ fields line 0 + fields line 1 + fields line 2 +
      fields line 3 + fields line 4 + fields line 5 + fields line 6 = 0 := by
    rw [Checked, extent, if_neg (by rw [h]; decide), sum_address]
  have hupper : decide (RawRecord.upper (fields line) * 65536 ≤ 65536) =
      decide (RawRecord.upper (fields line) ≤ 1) := by
    rw [decide_eq_decide]
    omega
  have hne : ¬ fields line 3 = 0 := by rw [h]; decide
  have hmsb : hex2bin (pointer line 9) = fields line 4 := rfl
  have hlsb : hex2bin (pointer line 11) = fields line 5 := rfl
  have hcrc : hex2bin (pointer line 13) = fields line 6 := rfl
  simp only [address_record, hmsb, hlsb, hcrc, check_eq, next, if_neg hne, if_pos h, hchecked]
  split_ifs with hsum
  · simp only [Bool.true_and, ← hupper]
    rfl
  · rfl

theorem record_eq : s.record line = s.next (fields line) := by
  have haddress : s.extended_address + (fields line 1).toNat * 256 + (fields line 2).toNat =
      s.extended_address + RawRecord.offset (fields line) := Nat.add_assoc _ _ _
  have hsize : hex2bin (pointer line 1) = fields line 0 := rfl
  have hmsb : hex2bin (pointer line 3) = fields line 1 := rfl
  have hlsb : hex2bin (pointer line 5) = fields line 2 := rfl
  have hrtype : hex2bin (pointer line 7) = fields line 3 := rfl
  simp only [record, hsize, hmsb, hlsb, hrtype, haddress]
  split_ifs with hdata haddr
  · exact data_record_eq s hdata
  · exact address_record_eq s haddr
  · simp [next, hdata, haddr]

/-- The loop over the records. -/
def readRecords (s : ReadIhex) : List RawRecord → ReadIhex
  | [] => s
  | r :: rs =>
    match s.next r with
    | (s, true) => s.readRecords rs
    | (s, false) => s

theorem read_eq : ∀ (lines : List (ℕ → UInt8)) (s : ReadIhex),
    s.read lines = s.readRecords (rawRecords lines)
  | [], _ => rfl
  | line :: lines, s => by
    rw [read]
    split_ifs with hcolon
    · rw [rawRecords, List.filter_cons_of_neg (by simpa using hcolon)]
      exact read_eq lines s
    · have hrecords : rawRecords (line :: lines) = fields line :: rawRecords lines := by
        rw [rawRecords, List.filter_cons_of_pos (by simpa using hcolon)]
        rfl
      rw [record_eq, hrecords, readRecords]
      rcases s.next (fields line) with ⟨t, _ | _⟩
      · rfl
      · exact read_eq lines t

/-- What is read is what the blocks leave, without a length where a check sum is wrong. -/
theorem readRecords_spec : ∀ (rs : List RawRecord) (s : ReadIhex),
    (s.readRecords rs).fw_data = load s.fw_data s.data_length (blocksRead s.extended_address rs) ∧
    (s.readRecords rs).written =
      s.written ++ Blocks.written s.data_length (blocksRead s.extended_address rs) ∧
    (Rejected rs → (s.readRecords rs).data_length = 0) ∧
    (¬ Rejected rs → (s.readRecords rs).data_length =
      stop s.data_length (blocksRead s.extended_address rs))
  | [], s => by simp [readRecords, blocksRead, Rejected, load, stop, Blocks.written]
  | r :: rs, s => by
    rw [readRecords]
    by_cases hdata : r 3 = 0
    · by_cases hchecked : r.Checked
      · obtain ⟨hfw, hwritten, hrej, hacc⟩ :=
          readRecords_spec rs (s.withBlock ⟨s.extended_address + r.offset, r.data⟩)
        simp only [next, if_pos hdata, hchecked, if_true, blocksRead, Rejected, forall_const]
        refine ⟨hfw, ?_, hrej, hacc⟩
        rw [hwritten]
        simp [withBlock, Blocks.written, stop]
      · simp [next, hdata, hchecked, blocksRead, Rejected, withBlock]
    · by_cases haddr : r 3 = 4
      · by_cases hchecked : r.Checked
        · by_cases hupper : r.upper ≤ 1
          · obtain ⟨hfw, hwritten, hrej, hacc⟩ :=
              readRecords_spec rs { s with extended_address := r.upper * 65536 }
            simp only [next, if_neg hdata, if_pos haddr, hchecked, hupper, blocksRead, Rejected,
              forall_const, true_and, and_self, if_true, decide_true]
            exact ⟨hfw, hwritten, hrej, hacc⟩
          · simp [next, haddr, hchecked, hupper, blocksRead, Rejected, load, stop, Blocks.written]
        · simp [next, haddr, hchecked, blocksRead, Rejected, load, stop, Blocks.written]
      · simp only [next, if_neg hdata, if_neg haddr, blocksRead, Rejected]
        exact readRecords_spec rs s

end ReadIhex

/-! ### What is written -/

/-- The data of a file that `read_ihex` gets to, with its addresses. -/
def fileBlocks (memory : ℕ → ℕ → UInt8) (file : List UInt8) : List (Block UInt8) :=
  blocksRead 0 (rawRecords (lineBuffers memory file))

/-- One of the check sums that `read_ihex` gets to is wrong. -/
def FileRejected (memory : ℕ → ℕ → UInt8) (file : List UInt8) : Prop :=
  Rejected (rawRecords (lineBuffers memory file))

section File

variable (memory : ℕ → ℕ → UInt8) (file : List UInt8)

/-- `read_ihex` is a loader of the blocks of the file. -/
theorem read_ihex_spec :
    (read_ihex memory file).fw_data = load (fun _ => 0xff) 0 (fileBlocks memory file) ∧
    (read_ihex memory file).written = Blocks.written 0 (fileBlocks memory file) ∧
    (FileRejected memory file → (read_ihex memory file).data_length = 0) ∧
    (¬ FileRejected memory file →
      (read_ihex memory file).data_length = stop 0 (fileBlocks memory file)) := by
  rw [read_ihex, ReadIhex.read_eq]
  exact ReadIhex.readRecords_spec (rawRecords (lineBuffers memory file)) ReadIhex.start

/-- A record is not read behind an extended address above the second 64 KiB. -/
theorem address_of_blocksRead : ∀ (rs : List RawRecord) {base : ℕ}, base ≤ 65536 →
    ∀ b ∈ blocksRead base rs, b.address < 128 * 1024
  | [], _, _, _, hb => by cases hb
  | r :: rs, base, hbase, b, hb => by
    rw [blocksRead] at hb
    split_ifs at hb with hdata hchecked haddr hupper
    · rw [List.mem_cons] at hb
      rcases hb with rfl | hb
      · have hmsb := (r 1).toNat_lt
        have hlsb := (r 2).toNat_lt
        show base + ((r 1).toNat * 256 + (r 2).toNat) < _
        omega
      · exact address_of_blocksRead rs hbase b hb
    · obtain rfl := List.mem_singleton.1 hb
      have hmsb := (r 1).toNat_lt
      have hlsb := (r 2).toNat_lt
      show base + ((r 1).toNat * 256 + (r 2).toNat) < _
      omega
    · exact address_of_blocksRead rs (by omega) b hb
    · cases hb
    · exact address_of_blocksRead rs hbase b hb

/-- All indices are in the buffer where no data record and those behind it go past its end. -/
theorem written_in_bounds_iff : (∀ i ∈ (read_ihex memory file).written, i < 128 * 1024) ↔
    ∀ (k : ℕ) (b : Block UInt8), (fileBlocks memory file)[k]? = some b →
      b.address + total ((fileBlocks memory file).drop k) ≤ 128 * 1024 := by
  have haddress : ∀ b ∈ fileBlocks memory file, b.address ≤ 128 * 1024 := fun b hb =>
    (address_of_blocksRead _ (Nat.zero_le _) b hb).le
  rw [(read_ihex_spec memory file).2.1, written_lt_iff (Nat.zero_le _) haddress, stop_zero_le_iff]

/-- The text as it is in a file. -/
def ascii (text : String) : List UInt8 := text.toList.map fun c => UInt8.ofNat c.toNat

/-- Two bytes from the last address below 128 KiB on. -/
theorem not_always_in_bounds : ¬ ∀ (memory : ℕ → ℕ → UInt8) (file : List UInt8),
    ∀ i ∈ (read_ihex memory file).written, i < 128 * 1024 := by
  intro h
  have hbad := h (fun _ _ => 0) (ascii ":020000040001F9\n:02FFFF00000000\n:00000001FF\n")
  rw [(read_ihex_spec _ _).2.1] at hbad
  have hwritten : 128 * 1024 ∈ Blocks.written 0 (fileBlocks (fun _ _ => 0)
      (ascii ":020000040001F9\n:02FFFF00000000\n:00000001FF\n")) := by
    decide +kernel
  exact absurd (hbad _ hwritten) (by decide)

end File

/-! ### The upload of what was read -/

/-- There is something to upload: no check sum that is read is wrong, and a data record goes past the
address 0. -/
def Loadable (memory : ℕ → ℕ → UInt8) (file : List UInt8) : Prop :=
  ¬ FileRejected memory file ∧ ∃ b ∈ fileBlocks memory file, 0 < b.address + b.data.length

theorem data_length_ne_zero_iff (memory : ℕ → ℕ → UInt8) (file : List UInt8) :
    (read_ihex memory file).data_length ≠ 0 ↔ Loadable memory file := by
  obtain ⟨-, -, hrejected, haccepted⟩ := read_ihex_spec memory file
  by_cases hrej : FileRejected memory file
  · simp [Loadable, hrej, hrejected hrej]
  · rw [haccepted hrej, Loadable, and_iff_right hrej, Ne, stop_eq_zero_iff]
    simp only [true_and, not_forall, exists_prop, Nat.pos_iff_ne_zero]

namespace H9fwu

/-- Nothing was divided by zero or read outside of the buffer, and without a length nothing was sent. -/
structure Safe (image : Firmware) (s : H9fwu) : Prop where
  divides : s.ended ≠ some .division_by_zero
  reads : s.ended ≠ some .out_of_bounds
  quiet : image.fw_size = 0 → s.sent = []

/-- The node asks for a part only where the buffer has one left. -/
def Asks (msg : Option H9frame) (s : H9fwu) : Prop :=
  s.ended = none → ∀ frame ∈ msg, frame.source_id = s.frame.destination_id →
    frame.type = H9frame.PAGE_FILL_NEXT → s.fw_idx + 8 ≤ 128 * 1024

variable {image : Firmware} {s t : H9fwu} {msg : Option H9frame}

theorem start_sent (noupgrademsg : Bool) (source_id destination_id : BitVec 9) :
    (start noupgrademsg source_id destination_id).sent ≠ [] := by
  unfold start
  split_ifs <;> simp [page_start, send]

theorem start_ended (noupgrademsg : Bool) (source_id destination_id : BitVec 9) :
    (start noupgrademsg source_id destination_id).ended = none := by
  unfold start
  split_ifs <;> rfl

theorem recv_division_by_zero (hnone : s.ended = none) {frame : H9frame}
    (h : (s.recv image frame).ended = some .division_by_zero) : image.fw_size = 0 := by
  unfold recv at h
  split_ifs at h with hsource htype hpage hzero hsize hfill
  · simp [hnone] at h
  · exact hzero
  · simp at h
  · simp [page_start, send, hnone] at h
  · simp [page_start, send, hnone] at h
  · split at h <;> simp [send, hnone] at h
  · simp [hnone] at h

theorem recv_out_of_bounds_iff (hnone : s.ended = none) {frame : H9frame} :
    (s.recv image frame).ended = some .out_of_bounds ↔ frame.source_id = s.frame.destination_id ∧
      frame.type = H9frame.PAGE_FILL_NEXT ∧ ¬ s.fw_idx + 8 ≤ 128 * 1024 := by
  unfold recv
  split_ifs with hsource htype hpage hzero hsize hfill
  · simp [hnone, hsource]
  · simp [hpage, H9frame.PAGE_WRITED, H9frame.PAGE_FILL_NEXT]
  · simp [hpage, H9frame.PAGE_WRITED, H9frame.PAGE_FILL_NEXT]
  · simp [hpage, page_start, send, hnone, H9frame.PAGE_WRITED, H9frame.PAGE_FILL_NEXT]
  · rcases htype with htype | htype
    · simp [htype, page_start, send, hnone, H9frame.BOOTLOADER_TURNED_ON, H9frame.PAGE_FILL_NEXT]
    · exact absurd htype hpage
  · rw [not_not] at hsource
    by_cases hin : s.fw_idx + 8 ≤ 128 * 1024
    · simp [Firmware.next, hin, send, hnone]
    · simp [Firmware.next, hin, hsource, hfill]
  · simp [hnone, hfill]

/-- With a length, the program is safe as long as the node asks for what is there. -/
theorem safe_iff_asks (hsize : image.fw_size ≠ 0) {as : List (Option H9frame)} (hs : s.Safe image) :
    Steps.Always (step image) (Safe image) as s ↔ Steps.Meet (step image) Asks as s := by
  refine Steps.always_iff_meet (fun _ h => h) ?_ ?_ hs
  · intro msg s t hs hasks hstep
    unfold step at hstep
    split_ifs at hstep with hended
    have hnone : s.ended = none := by simpa using hended
    rcases msg with _ | frame
    · obtain rfl := Option.some.inj hstep
      exact hs
    · obtain rfl := Option.some.inj hstep
      refine ⟨fun hzero => hsize (recv_division_by_zero hnone hzero), fun hout => ?_,
        fun hzero => absurd hzero hsize⟩
      obtain ⟨hsource, htype, hbad⟩ := (recv_out_of_bounds_iff hnone).1 hout
      exact hbad (hasks hnone frame rfl hsource htype)
  · intro msg s hs hasks
    unfold Asks at hasks
    push Not at hasks
    obtain ⟨hnone, frame, hframe, hsource, htype, hbad⟩ := hasks
    obtain rfl := Option.mem_def.1 hframe
    refine ⟨s.recv image frame, ?_, fun hsafe => ?_⟩
    · simp [step, hnone]
    · exact hsafe.reads ((recv_out_of_bounds_iff hnone).2 ⟨hsource, htype, by omega⟩)

/-- The program is safe where the file has something to upload and the node asks for no more parts than
the buffer has, and only there. -/
theorem upload_safe_iff (memory : ℕ → ℕ → UInt8) (file : List UInt8) (noupgrademsg : Bool)
    (source_id destination_id : BitVec 9) (as : List (Option H9frame)) :
    let image := (read_ihex memory file).firmware
    Steps.Always (step image) (Safe image) as (start noupgrademsg source_id destination_id) ↔
      Loadable memory file ∧
        Steps.Meet (step image) Asks as (start noupgrademsg source_id destination_id) := by
  intro image
  have hloadable : image.fw_size ≠ 0 ↔ Loadable memory file := data_length_ne_zero_iff memory file
  by_cases hsize : image.fw_size = 0
  · have hnot : ¬ Loadable memory file := fun h => hloadable.2 h hsize
    simp only [hnot, false_and, iff_false]
    intro h
    exact start_sent _ _ _ (h.head.quiet hsize)
  · have hended := start_ended noupgrademsg source_id destination_id
    rw [and_iff_right (hloadable.1 hsize), safe_iff_asks hsize]
    exact ⟨by simp [hended], by simp [hended], fun h => absurd h hsize⟩

/-- An empty file has nothing to upload, and the node is asked to start its bootloader. -/
theorem upload_not_always_safe : ¬ ∀ (memory : ℕ → ℕ → UInt8) (file : List UInt8) (noupgrademsg : Bool)
    (source_id destination_id : BitVec 9) (as : List (Option H9frame)),
    Steps.Always (step (read_ihex memory file).firmware) (Safe (read_ihex memory file).firmware) as
      (start noupgrademsg source_id destination_id) := by
  intro h
  exact start_sent _ _ _ ((h (fun _ _ => 0) [] false 16 32 []).head.quiet rfl)

end H9fwu

end H9
