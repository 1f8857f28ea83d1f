import H9.Proofs.Ihex

/-!
# Files in the Intel HEX format

What is read from a line that spells a record are the bytes of the record (`forall₂_reads`), so that a
file with right check sums is read to its end. Its image is the one that its records say where the
records that show are in place.
-/

namespace H9

open Blocks IntelHex RawRecord

/-! ### From the text to the bytes -/

theorem hexNibble_of_digit {c v : UInt8} (h : digit c = some v) :
    hexNibble c = v ∧ c ≠ 0 ∧ c ≠ 0x0a := by
  have hv := digit_lt h
  have hzero : digit 0 = none := by decide
  have hnewline : digit 0x0a = none := by decide
  have hvalue : (if 0x30 ≤ c ∧ c ≤ 0x39 then c - 0x30
      else if 0x61 ≤ c ∧ c ≤ 0x66 then c - 0x61 + 10
      else if 0x41 ≤ c ∧ c ≤ 0x46 then c - 0x41 + 10
      else c) = v := by
    unfold digit at h
    split_ifs at h with h0 hA ha <;> obtain rfl := Option.some.inj h
    · rw [if_pos h0]
    · have ha : ¬ (0x61 ≤ c ∧ c ≤ 0x66) := fun ha =>
        absurd (UInt8.le_trans ha.1 hA.2) (by decide)
      rw [if_neg h0, if_neg ha, if_pos hA]
    · rw [if_neg h0, if_pos ha]
  refine ⟨?_, ?_, ?_⟩
  · rw [hexNibble, hvalue, ← UInt8.toNat_inj, toNat_low, Nat.mod_eq_of_lt hv]
  · rintro rfl
    cases hzero.symm.trans h
  · rintro rfl
    cases hnewline.symm.trans h

theorem nibbles_or (b : UInt8) : (b >>> 4) <<< 4 ||| (b &&& 0xf) = b := by
  have hb := b.toNat_lt
  have hhigh := toNat_high b
  have hlow := toNat_low b
  rw [← UInt8.toNat_inj, toNat_nibbles] <;> omega

theorem hex2bin_of_digits {hex : ℕ → UInt8} {b : UInt8} (hhi : digit (hex 0) = some (b >>> 4))
    (hlo : digit (hex 1) = some (b &&& 0xf)) : hex2bin hex = b := by
  obtain ⟨hhi', h0, -⟩ := hexNibble_of_digit hhi
  obtain ⟨hlo', h1, -⟩ := hexNibble_of_digit hlo
  rw [hex2bin, if_neg h0, if_neg h1, hhi', hlo', nibbles_or]

/-- The digits of a byte in the text are where the byte is in the record. -/
theorem digits_of_spells : ∀ {cs bs : List UInt8}, Spells cs bs → ∀ {k : ℕ} {b : UInt8},
    bs[k]? = some b → ∃ c d, cs[2 * k]? = some c ∧ cs[2 * k + 1]? = some d ∧
      digit c = some (b >>> 4) ∧ digit d = some (b &&& 0xf)
  | c :: d :: cs, b' :: bs, h, 0, b, hb => by
    obtain rfl : b' = b := by simpa using hb
    exact ⟨c, d, rfl, rfl, h.1, h.2.1⟩
  | c :: d :: cs, b' :: bs, h, k + 1, b, hb => by
    obtain ⟨c', d', hc, hd, hhi, hlo⟩ := digits_of_spells h.2.2 (k := k) (b := b) (by simpa using hb)
    exact ⟨c', d', hc, hd, hhi, hlo⟩
  | [], [], _, _, _, hb => by simp at hb

theorem not_newline_of_spells : ∀ {cs bs : List UInt8}, Spells cs bs → ∀ c ∈ cs, c ≠ 0x0a
  | c :: d :: cs, b :: bs, h, c', hc' => by
    simp only [List.mem_cons] at hc'
    rcases hc' with rfl | rfl | hc'
    · exact (hexNibble_of_digit h.1).2.2
    · exact (hexNibble_of_digit h.2.1).2.2
    · exact not_newline_of_spells h.2.2 c' hc'
  | [], [], _, _, hc' => by cases hc'

/-- The numbers that are read start with these bytes. -/
def ReadsBytes (bs : List UInt8) (raw : RawRecord) : Prop := ∀ (k : ℕ) (b : UInt8), bs[k]? = some b → raw k = b

theorem lineBuffer_of_lt {text : List UInt8} {memory : ℕ → UInt8} {i : ℕ} {c : UInt8}
    (h : text[i]? = some c) : lineBuffer text memory i = c := by
  have hlt : i < text.length := (List.getElem?_eq_some_iff.1 h).1
  rw [lineBuffer, if_pos hlt, List.getD_eq_getElem?_getD, h]
  rfl

section Lines

variable {bs line eol file : List UInt8}

theorem readsBytes_of_spells (h : SpellsLine bs line) (eol : List UInt8) (memory : ℕ → UInt8) :
    lineBuffer (line ++ eol) memory 0 = 0x3a ∧
      ReadsBytes bs (fields (lineBuffer (line ++ eol) memory)) := by
  obtain ⟨cs, rfl, hcs⟩ := h
  refine ⟨rfl, fun k b hb => ?_⟩
  obtain ⟨c, d, hc, hd, hhi, hlo⟩ := digits_of_spells hcs hb
  have hin {i : ℕ} {c : UInt8} (hi : cs[i]? = some c) :
      lineBuffer ((0x3a :: cs) ++ eol) memory (i + 1) = c := by
    refine lineBuffer_of_lt ?_
    rw [List.cons_append, List.getElem?_cons_succ,
      List.getElem?_append_left (List.getElem?_eq_some_iff.1 hi).1, hi]
  have hfirst : pointer (lineBuffer ((0x3a :: cs) ++ eol) memory) (1 + 2 * k) 0 = c := by
    rw [pointer, Nat.add_zero, Nat.add_comm, hin hc]
  have hsecond : pointer (lineBuffer ((0x3a :: cs) ++ eol) memory) (1 + 2 * k) 1 = d := by
    have hone : 1 + 2 * k + 1 = 2 * k + 1 + 1 := by omega
    rw [pointer, hone, hin hd]
  exact hex2bin_of_digits (by rw [hfirst, hhi]) (by rw [hsecond, hlo])

/-! ### From the file to its lines -/

theorem not_newline_of_line (h : SpellsLine bs line) : ∀ c ∈ line, c ≠ 0x0a := by
  obtain ⟨cs, rfl, hcs⟩ := h
  intro c hc
  rcases List.mem_cons.1 hc with rfl | hc
  · decide
  · exact not_newline_of_spells hcs c hc

theorem getlines_cons (hline : SpellsLine bs line) (heol : IsEnd eol) (file : List UInt8) :
    getlines (line ++ eol ++ file) = (line ++ eol) :: getlines file := by
  have hinside := not_newline_of_line hline
  have hisline : Lines.IsLine (fun c : UInt8 => decide (c = 0x0a)) (line ++ eol) := by
    rcases heol with rfl | rfl
    · exact ⟨line, 0x0a, rfl, rfl, fun c hc => by simpa using hinside c hc⟩
    · refine ⟨line ++ [0x0d], 0x0a, by simp, rfl, fun c hc => ?_⟩
      rw [List.mem_append, List.mem_singleton] at hc
      rcases hc with hc | rfl
      · simpa using hinside c hc
      · decide
  obtain ⟨hlines, hrest⟩ := Lines.split_line_append hisline file
  unfold getlines
  rw [hlines, hrest]
  rfl

theorem getlines_last (hline : SpellsLine bs line) : getlines line = [line] := by
  have hinside : ∀ c ∈ line, decide (c = 0x0a) = false := fun c hc => by
    simpa using not_newline_of_line hline c hc
  obtain ⟨hlines, hrest⟩ := Lines.split_of_inside hinside
  obtain ⟨cs, rfl, -⟩ := hline
  simp only [getlines, hlines, hrest]
  rfl

theorem rawRecords_cons {buffer : ℕ → UInt8} (h : buffer 0 = 0x3a) (buffers : List (ℕ → UInt8)) :
    rawRecords (buffer :: buffers) = fields buffer :: rawRecords buffers := by
  rw [rawRecords, List.filter_cons_of_pos (by simpa using h)]
  rfl

end Lines

/-- The records that are read from a file are those that it spells. -/
theorem forall₂_readsBytes {bss : List (List UInt8)} {file : List UInt8} (h : SpellsLines bss file) :
    ∀ memory, List.Forall₂ ReadsBytes bss (rawRecords (lineBuffers memory file)) := by
  induction h with
  | nil => exact fun memory => .nil
  | @last bs line hline =>
    intro memory
    obtain ⟨hcolon, hreads⟩ := readsBytes_of_spells hline [] (memory 0)
    rw [List.append_nil] at hcolon hreads
    have hbuffers : lineBuffers memory line = [lineBuffer line (memory 0)] := by
      rw [lineBuffers, getlines_last hline]
      rfl
    rw [hbuffers, rawRecords_cons hcolon]
    exact .cons hreads .nil
  | @cons bs line eol file bss hline heol _ ih =>
    intro memory
    obtain ⟨hcolon, hreads⟩ := readsBytes_of_spells hline eol (memory 0)
    have hbuffers : lineBuffers memory (line ++ eol ++ file) =
        lineBuffer (line ++ eol) (memory 0) :: lineBuffers (fun n => memory (n + 1)) file := by
      rw [lineBuffers, getlines_cons hline heol, List.mapIdx_cons]
      rfl
    rw [hbuffers, rawRecords_cons hcolon]
    exact .cons hreads (ih _)

/-! ### From the bytes to the blocks -/

/-- The numbers that are read are the bytes of the record. -/
def Reads (r : Record) (raw : RawRecord) : Prop := ReadsBytes r.bytes raw

theorem forall₂_reads {rs : List Record} {file : List UInt8} (h : SpellsFile rs file)
    (memory : ℕ → ℕ → UInt8) : List.Forall₂ Reads rs (rawRecords (lineBuffers memory file)) := by
  have hbytes := forall₂_readsBytes h memory
  rwa [List.forall₂_map_left_iff] at hbytes

section Reads

variable {r : Record} {raw : RawRecord}

theorem Reads.header (h : Reads r raw) : (raw 0).toNat = r.data.length ∧
    RawRecord.offset raw = r.offset.toNat ∧ raw 3 = r.type := by
  have h0 := h 0 _ rfl
  have h1 := h 1 _ rfl
  have h2 := h 2 _ rfl
  have hshort := r.short
  have hoffset := r.offset.toNat_lt
  refine ⟨?_, ?_, h 3 _ rfl⟩
  · rw [h0, UInt8.toNat_ofNat']
    omega
  · rw [RawRecord.offset, h1, h2]
    simp [Nat.shiftRight_eq_div_pow]
    omega

theorem Reads.data_get (h : Reads r raw) {n : ℕ} {b : UInt8} (hb : r.data[n]? = some b) :
    raw (4 + n) = b := by
  have hlt : n < r.data.length := (List.getElem?_eq_some_iff.1 hb).1
  refine h (4 + n) b ?_
  rw [Record.bytes, List.getElem?_append_left (by simp [Record.body]; omega), Record.body,
    List.getElem?_append_right (by simp), ← hb]
  simp

theorem Reads.data_eq (h : Reads r raw) : data raw = r.data := by
  rw [data, h.header.1]
  refine List.ext_getElem? fun n => ?_
  rw [List.getElem?_map]
  by_cases hn : n < r.data.length
  · rw [List.getElem?_range hn, Option.map_some, h.data_get (List.getElem?_eq_getElem hn),
      List.getElem?_eq_getElem hn]
  · rw [List.getElem?_eq_none (by simpa using hn), List.getElem?_eq_none (by simpa using hn)]
    rfl

theorem Reads.sum_eq_zero (h : Reads r raw) :
    ∑ k ∈ Finset.range (5 + r.data.length), raw k = 0 := by
  have hlast : raw (4 + r.data.length) = -r.body.sum := by
    have hlength : r.body.length = 4 + r.data.length := by
      simp [Record.body]
      omega
    refine h _ _ ?_
    rw [Record.bytes, ← hlength, List.getElem?_concat_length]
  have hsum := ReadIhex.sum_data raw
  rw [h.header.1, h.data_eq, hlast, h 0 _ rfl, h 1 _ rfl, h 2 _ rfl, h 3 _ rfl] at hsum
  rw [hsum, ← add_neg_cancel r.body.sum]
  simp [Record.body, add_assoc]

theorem Reads.checked (h : Reads r raw) (hr : r.type = 0 ∨ r.data.length = 2) : Checked raw := by
  have hsum := h.sum_eq_zero
  rw [Checked, extent, h.header.2.2, h.header.1]
  split_ifs with htype
  · exact hsum
  · rw [← hsum, hr.resolve_left htype]

theorem Reads.upper_eq (h : Reads r raw) (hlength : r.data.length = 2) :
    RawRecord.upper raw = r.upper := by
  have h0 : r.data[0]? = some (r.data.getD 0 0) := by simp [hlength]
  have h1 : r.data[1]? = some (r.data.getD 1 0) := by simp [hlength]
  rw [RawRecord.upper, Record.upper, h.data_get h0, h.data_get h1, Nat.mul_comm]

end Reads

theorem blocksRead_of_plain {e : Record} (he : e.type = 1 ∧ e.data = []) : ∀ {body : List Record},
    (∀ r ∈ body, r.type = 0 ∨ r.type = 4 ∧ r.data.length = 2 ∧ r.upper ≤ 1) →
      ∀ {raws : List RawRecord}, List.Forall₂ Reads (body ++ [e]) raws → ∀ base : ℕ,
        blocksRead base raws = blocks base (body ++ [e]) ∧ ¬ Rejected raws
  | [], _, _, .cons hreads .nil, base => by
    simp [blocksRead, blocks, Rejected, hreads.header.2.2, he.1]
  | r :: body, hbody, _, .cons hreads hrest, base => by
    rw [List.forall_mem_cons] at hbody
    have htype := hreads.header.2.2
    rcases hbody.1 with h0 | ⟨h4, hlength, hupper⟩
    · obtain ⟨hblocks, hrej⟩ := blocksRead_of_plain he hbody.2 hrest base
      have hchecked := hreads.checked (.inl h0)
      simp only [blocksRead, blocks, Rejected, List.cons_append, htype, h0, hchecked, if_true, hblocks,
        hreads.header.2.1, hreads.data_eq, hrej, true_and, forall_const, not_false_eq_true]
    · obtain ⟨hblocks, hrej⟩ := blocksRead_of_plain he hbody.2 hrest (r.upper * 65536)
      have hchecked := hreads.checked (.inr hlength)
      have hne : ¬ (4 : UInt8) = 0 := by decide
      simp only [blocksRead, blocks, Rejected, List.cons_append, htype, h4, hne, if_true, if_false,
        hchecked, hreads.upper_eq hlength, hupper, and_self, hblocks, hrej, and_false, forall_const,
        not_false_eq_true]

/-! ### The image -/

/-- The image of a file is what its records say where every record that shows is behind what is written
before it, and only there. -/
theorem read_ihex_shows_iff {rs : List Record} {file : List UInt8} (hfile : SpellsFile rs file) (hplain : Plain rs)
    (hapart : Apart (blocks 0 rs)) (memory : ℕ → ℕ → UInt8) :
    Shows 0xff (blocks 0 rs) (read_ihex memory file).fw_data (read_ihex memory file).data_length ↔
      InPlace 0xff (blocks 0 rs) := by
  obtain ⟨body, e, rfl, he, hbody⟩ := hplain
  obtain ⟨hblocks, hrej⟩ := blocksRead_of_plain he hbody (forall₂_reads hfile memory) 0
  obtain ⟨hfw, -, -, hlength⟩ := read_ihex_spec memory file
  have hblocks' : fileBlocks memory file = blocks 0 (body ++ [e]) := hblocks
  rw [hfw, hlength hrej, hblocks']
  exact loaded_iff hapart

/-- A byte at the address 0 and one at the address 16. -/
def low : Record := ⟨0, 0, [2], by decide⟩

def high : Record := ⟨0, 16, [1], by decide⟩

def eof : Record := ⟨1, 0, [], by decide⟩

theorem spells_low : SpellsLine low.bytes (ascii ":0100000002FD") := ⟨_, rfl, by decide +kernel⟩

theorem spells_high : SpellsLine high.bytes (ascii ":0100100001EE") := ⟨_, rfl, by decide +kernel⟩

theorem spells_eof : SpellsLine eof.bytes (ascii ":00000001FF") := ⟨_, rfl, by decide +kernel⟩

theorem plain_pair {r s : Record} (hr : r.type = 0) (hs : s.type = 0) : Plain [r, s, eof] :=
  ⟨[r, s], eof, rfl, ⟨rfl, rfl⟩, by simp [hr, hs]⟩

/-- The two bytes in the order of their addresses. -/
theorem read_ihex_shows_ascending : Shows 0xff (blocks 0 [low, high, eof])
    (read_ihex (fun _ _ => 0) (ascii ":0100000002FD\n:0100100001EE\n:00000001FF\n")).fw_data 17 := by
  have hfile : SpellsFile [low, high, eof] (ascii ":0100000002FD\n:0100100001EE\n:00000001FF\n") :=
    .cons spells_low (.inl rfl) (.cons spells_high (.inl rfl) (.cons spells_eof (.inl rfl) .nil))
  have hlength : (read_ihex (fun _ _ => 0)
      (ascii ":0100000002FD\n:0100100001EE\n:00000001FF\n")).data_length = 17 := by
    decide +kernel
  rw [← hlength]
  refine (read_ihex_shows_iff hfile (plain_pair rfl rfl) (apart_pair (.inl (by decide))) _).2 ⟨?_, ?_⟩
  · intro j c hj _ k b hk hb
    match j, k with
    | 0, _ => omega
    | 1, 0 =>
      obtain rfl : ⟨0, [2]⟩ = b := Option.some.inj hb
      obtain rfl : ⟨16, [1]⟩ = c := Option.some.inj hj
      decide
    | 1, _ + 1 => omega
    | _ + 2, _ => cases hj
  · intro k b hb
    match k with
    | 0 =>
      obtain rfl : ⟨0, [2]⟩ = b := Option.some.inj hb
      decide
    | 1 =>
      obtain rfl : ⟨16, [1]⟩ = b := Option.some.inj hb
      decide
    | _ + 2 => cases hb

/-- The byte for the address 0 comes second, and is put behind the other one. -/
theorem read_ihex_not_always_shows : ¬ ∀ (rs : List Record) (file : List UInt8)
    (memory : ℕ → ℕ → UInt8), SpellsFile rs file → Plain rs → Apart (blocks 0 rs) →
      (∀ b ∈ blocks 0 rs, b.address + b.data.length ≤ 128 * 1024) →
        Shows 0xff (blocks 0 rs) (read_ihex memory file).fw_data
          (read_ihex memory file).data_length := by
  intro h
  have hfile : SpellsFile [high, low, eof] (ascii ":0100100001EE\n:0100000002FD\n:00000001FF\n") :=
    .cons spells_high (.inl rfl) (.cons spells_low (.inl rfl) (.cons spells_eof (.inl rfl) .nil))
  have hshows := h _ _ (fun _ _ => 0) hfile (plain_pair rfl rfl) (apart_pair (.inr (by decide)))
    (by decide)
  have hlength : (read_ihex (fun _ _ => 0)
      (ascii ":0100100001EE\n:0100000002FD\n:00000001FF\n")).data_length = 18 := by
    decide +kernel
  have htop := hlength.symm.trans hshows.length
  revert htop
  decide

/-! ### A digit changed -/

/-- The ways in which a record with a digit changed is taken for another one: as one with more or fewer
data, as one of a type that is not looked at, or as an address. -/
inductive Slip (r : Record) (raw : RawRecord) : Prop
  | count : r.type = 0 → raw 3 = 0 → (raw 0).toNat ≠ r.data.length → Checked raw → Slip r raw
  | dropped : r.type = 0 ∨ r.type = 4 → raw 3 ≠ 0 → raw 3 ≠ 4 → Slip r raw
  | address : r.type ≠ 4 → raw 3 = 4 → Checked raw → Slip r raw

/-- The file is rejected at the record. -/
def Rejects (raw : RawRecord) : Prop := (raw 3 = 0 ∨ raw 3 = 4) ∧ ¬ Checked raw

/-- The two records do the same. -/
def Same (raw raw' : RawRecord) : Prop := ∀ s : ReadIhex, s.next raw = s.next raw'

section Changed

variable {r : Record} {raw raw' : RawRecord}

/-- A record with its type and its count is not taken for another one. -/
theorem not_slip (htype : raw 3 = r.type) (hcount : (raw 0).toNat = r.data.length) : ¬ Slip r raw := by
  rintro (⟨-, -, hcount', -⟩ | ⟨h0 | h4, h0', h4'⟩ | ⟨h4, h4', -⟩)
  · exact hcount' hcount
  · exact h0' (htype.trans h0)
  · exact h4' (htype.trans h4)
  · exact h4 (htype.symm.trans h4')

theorem Reads.same (hr : r.WellFormed) (h : Reads r raw) (h' : Reads r raw') : Same raw raw' := by
  intro s
  have htype : raw 3 = r.type := h.header.2.2
  have htype' : raw' 3 = r.type := h'.header.2.2
  by_cases h0 : r.type = 0
  · simp only [ReadIhex.next, htype, htype', h0, if_true, h.checked (.inl h0), h'.checked (.inl h0),
      h.header.2.1, h'.header.2.1, h.data_eq, h'.data_eq]
  · by_cases h4 : r.type = 4
    · have hlength := hr.length_of_address h4
      have hne : ¬ (4 : UInt8) = 0 := by decide
      simp only [ReadIhex.next, htype, htype', h4, hne, if_true, if_false, h.checked (.inr hlength),
        h'.checked (.inr hlength), h.upper_eq hlength, h'.upper_eq hlength]
    · simp only [ReadIhex.next, htype, htype', h0, h4, if_false]

theorem length_bytes (r : Record) : r.bytes.length = 5 + r.data.length := by
  simp [Record.bytes, Record.body]
  omega

/-- What is read of bytes with one replaced is the same at the other places. -/
theorem readsBytes_set {k : ℕ} {b' : UInt8} (h : Reads r raw)
    (h' : ReadsBytes (r.bytes.set k b') raw') {j : ℕ} (hj : j < 5 + r.data.length) :
    raw' j = Function.update raw k b' j := by
  have hlt : j < r.bytes.length := by rwa [length_bytes]
  have hraw : raw j = r.bytes[j] := h j _ (List.getElem?_eq_getElem hlt)
  refine h' j _ ?_
  rw [List.getElem?_set]
  split_ifs with hk
  · rw [hk, Function.update_self]
  · subst hk
    exact absurd hlt ‹_›
  · rw [Function.update_of_ne (Ne.symm hk), hraw, List.getElem?_eq_getElem hlt]

/-- Bytes that differ in one place do not both add up to zero. -/
theorem sum_replaced (h : Reads r raw) {k : ℕ} {b b' : UInt8} (hb : r.bytes[k]? = some b)
    (hne : b' ≠ b) (h' : ReadsBytes (r.bytes.set k b') raw') :
    ∑ j ∈ Finset.range (5 + r.data.length), raw' j ≠ 0 := by
  intro hzero
  have hk : k ∈ Finset.range (5 + r.data.length) := by
    rw [Finset.mem_range, ← length_bytes]
    exact (List.getElem?_eq_some_iff.1 hb).1
  have hsum := h.sum_eq_zero
  rw [Finset.sum_congr rfl fun j hj => readsBytes_set h h' (Finset.mem_range.1 hj),
    Finset.sum_update_of_mem hk] at hzero
  rw [Finset.sum_eq_add_sum_sdiff_singleton_of_mem hk, h k b hb] at hsum
  exact hne (add_right_cancel (hzero.trans hsum.symm))

/-- A record with a digit changed is rejected, or does what it did, where it is not taken for another. -/
theorem rejects_or_same (hr : r.WellFormed) {k : ℕ} {b b' : UInt8} (hb : r.bytes[k]? = some b)
    (h' : ReadsBytes (r.bytes.set k b') raw') (hslip : ¬ Slip r raw') (h : Reads r raw) :
    Rejects raw' ∨ Same raw raw' := by
  by_cases hne : b' = b
  · have hset : r.bytes.set k b' = r.bytes := by
      obtain ⟨hlt, rfl⟩ := List.getElem?_eq_some_iff.1 hb
      rw [hne, List.set_getElem_self]
    rw [hset] at h'
    exact .inr (h.same hr h')
  · have hsum := sum_replaced h hb hne h'
    have hupdate {j : ℕ} (hj : j < 5 + r.data.length) := readsBytes_set h h' hj
    by_cases h0 : raw' 3 = 0
    · refine .inl ⟨.inl h0, fun hchecked => ?_⟩
      by_cases hlength : (raw' 0).toNat = r.data.length
      · rw [Checked, extent, if_pos h0, hlength] at hchecked
        exact hsum hchecked
      · -- only the count is changed
        have hk : k = 0 := by
          by_contra hk
          have hsame := hupdate (j := 0) (by omega)
          rw [Function.update_of_ne (Ne.symm hk)] at hsame
          exact hlength (by rw [hsame, h.header.1])
        have htype : r.type = 0 := by
          have hsame := hupdate (j := 3) (by omega)
          rw [Function.update_of_ne (by omega), h.header.2.2] at hsame
          rw [← hsame, h0]
        exact hslip (.count htype h0 hlength hchecked)
    · by_cases h4 : raw' 3 = 4
      · refine .inl ⟨.inr h4, fun hchecked => ?_⟩
        by_cases htype : r.type = 4
        · rw [Checked, extent, if_neg h0] at hchecked
          rw [hr.length_of_address htype] at hsum
          exact hsum hchecked
        · exact hslip (.address htype h4 hchecked)
      · have htype : ¬ (r.type = 0 ∨ r.type = 4) := fun htype => hslip (.dropped htype h0 h4)
        push Not at htype
        refine .inr fun s => ?_
        simp only [ReadIhex.next, h.header.2.2, htype.1, htype.2, h0, h4, if_false]

theorem next_extended_address (s : ReadIhex) (h : raw 3 ≠ 4) :
    (s.next raw).1.extended_address = s.extended_address := by
  rw [ReadIhex.next]
  split_ifs <;> rfl

/-- A record that is taken for another one is not rejected, and does something else. -/
theorem Slip.accepted (hslip : Slip r raw') (hr : r.WellFormed) (h : Reads r raw) :
    ¬ (Rejects raw' ∨ Same raw raw') := by
  have htype : raw 3 = r.type := h.header.2.2
  have hne : ¬ (4 : UInt8) = 0 := by decide
  let s : ReadIhex := { ReadIhex.start with extended_address := 1 }
  rintro (hrejects | hsame)
  · rcases hslip with ⟨-, -, -, hchecked⟩ | ⟨-, h0, h4⟩ | ⟨-, -, hchecked⟩
    · exact hrejects.2 hchecked
    · exact hrejects.1.elim h0 h4
    · exact hrejects.2 hchecked
  · have hnext := hsame s
    rcases hslip with ⟨h0, h0', hcount, hchecked'⟩ | ⟨h0 | h4, h0', h4'⟩ | ⟨h4, h4', hchecked'⟩
    · have hwritten := congrArg (fun t => t.1.written.length) hnext
      simp [ReadIhex.next, htype, h0, h0', h.checked (.inl h0), hchecked', ReadIhex.withBlock,
        Blocks.written, s, ReadIhex.start, data, h.header.1] at hwritten
      exact hcount hwritten.symm
    · have hlength := congrArg (fun t => t.1.data_length) hnext
      simp [ReadIhex.next, htype, h0, h0', h4', h.checked (.inl h0), ReadIhex.withBlock, stop, s,
        ReadIhex.start] at hlength
    · have haddress := congrArg (fun t => t.1.extended_address) hnext
      have hlength := hr.length_of_address h4
      simp [ReadIhex.next, htype, h4, h0', h4', h.checked (.inr hlength), s] at haddress
    · have haddress := congrArg (fun t => t.1.extended_address) hnext
      rw [next_extended_address s (by rwa [htype])] at haddress
      simp [ReadIhex.next, h4', hchecked', s] at haddress
      omega

end Changed

namespace ReadIhex

theorem readRecords_cons (s : ReadIhex) (raw : RawRecord) (raws : List RawRecord) :
    s.readRecords (raw :: raws) =
      if (s.next raw).2 then (s.next raw).1.readRecords raws else (s.next raw).1 := by
  rw [readRecords]
  split <;> rename_i t heq <;> rw [heq] <;> rfl

theorem next_rejects {raw : RawRecord} (h : Rejects raw) (s : ReadIhex) :
    (s.next raw).2 = false ∧ (s.next raw).1.data_length = 0 := by
  obtain ⟨htype, hchecked⟩ := h
  rw [next]
  by_cases h0 : raw 3 = 0
  · simp [h0, hchecked]
  · simp [htype.resolve_left h0, hchecked]

theorem readRecords_same : ∀ {raws raws' : List RawRecord}, List.Forall₂ Same raws raws' →
    ∀ s : ReadIhex, s.readRecords raws = s.readRecords raws'
  | [], _, .nil, _ => rfl
  | _ :: _, _ :: _, .cons h hrest, s => by
    rw [readRecords_cons, readRecords_cons, h s, readRecords_same hrest]

theorem same_of_reads {rs : List Record} (hrs : ∀ r ∈ rs, r.WellFormed) {raws raws' : List RawRecord}
    (h : List.Forall₂ Reads rs raws) (h' : List.Forall₂ Reads rs raws') :
    List.Forall₂ Same raws raws' := by
  induction h generalizing raws' with
  | nil =>
    cases h'
    exact .nil
  | @cons r raw rs raws hr _ ih =>
    rw [List.forall_mem_cons] at hrs
    obtain ⟨raw', raws', hr', hrest', rfl⟩ := List.forall₂_cons_left_iff.1 h'
    exact .cons (hr.same hrs.1 hr') (ih hrs.2 hrest')

/-- Records of which one is replaced, by induction on those before it: the loop ends in front of it in
both, it rejects the file, or both go on alike. -/
theorem readRecords_replaced {r : Record} {bs : List UInt8} {after : List Record}
    (hafter : ∀ q ∈ after, q.WellFormed) {before : List Record} (hbefore : ∀ q ∈ before, q.WellFormed)
    {raws raws' : List RawRecord} (hraws : List.Forall₂ Reads (before ++ r :: after) raws)
    (hraws' : List.Forall₂ ReadsBytes (before.map Record.bytes ++ bs :: after.map Record.bytes) raws')
    (hbad : (∀ q ∈ before, q.type = 4 → q.upper ≤ 1) → ∀ raw raw', Reads r raw → ReadsBytes bs raw' →
      raws'[before.length]? = some raw' → Rejects raw' ∨ Same raw raw') (s : ReadIhex) :
    (s.readRecords raws').data_length = 0 ∨ s.readRecords raws' = s.readRecords raws := by
  induction before generalizing raws raws' s with
  | nil =>
    obtain ⟨raw, raws, h, hrest, rfl⟩ := List.forall₂_cons_left_iff.1 hraws
    obtain ⟨raw', raws', h', hrest', rfl⟩ := List.forall₂_cons_left_iff.1 hraws'
    rw [List.forall₂_map_left_iff] at hrest'
    rw [readRecords_cons, readRecords_cons]
    rcases hbad (by simp) raw raw' h h' rfl with hrejects | hsame
    · obtain ⟨hstop, hzero⟩ := next_rejects hrejects s
      rw [hstop]
      exact .inl hzero
    · rw [hsame s, readRecords_same (same_of_reads hafter hrest hrest')]
      exact .inr rfl
  | cons q before ih =>
    obtain ⟨raw, raws, h, hrest, rfl⟩ := List.forall₂_cons_left_iff.1 hraws
    obtain ⟨raw', raws', h', hrest', rfl⟩ := List.forall₂_cons_left_iff.1 hraws'
    rw [List.forall_mem_cons] at hbefore
    rw [readRecords_cons, readRecords_cons, h.same hbefore.1 h' s]
    split_ifs with hgo
    · refine ih hbefore.2 hrest hrest' (fun hupper r₀ r₁ h₀ h₁ hget =>
        hbad ?_ r₀ r₁ h₀ h₁ (by simpa using hget)) _
      rw [List.forall_mem_cons]
      refine ⟨fun h4 => ?_, hupper⟩
      have hlength := hbefore.1.length_of_address h4
      have h4' : Reads q raw' := h'
      simpa [next, h4'.header.2.2, h4, h4'.checked (.inr hlength), h4'.upper_eq hlength] using hgo
    · exact .inr rfl

end ReadIhex

/-- A digit changed in a file is found out, or changes nothing, where the record that it is in is not
taken for another one. -/
theorem read_ihex_detects {rs : List Record} {file pre post : List UInt8} {c c' : UInt8}
    (hfile : SpellsFile rs file) (hrs : ∀ r ∈ rs, r.WellFormed) (heq : file = pre ++ c :: post)
    (hc : digit c ≠ none) (hc' : digit c' ≠ none) (memory memory' : ℕ → ℕ → UInt8)
    (hslip : ∀ before r after raw', rs = before ++ r :: after →
      (∀ q ∈ before, q.type = 4 → q.upper ≤ 1) →
        (rawRecords (lineBuffers memory' (pre ++ c' :: post)))[before.length]? = some raw' →
          ¬ Slip r raw') :
    (read_ihex memory' (pre ++ c' :: post)).data_length = 0 ∨
      (read_ihex memory' (pre ++ c' :: post)).data_length = (read_ihex memory file).data_length ∧
        (read_ihex memory' (pre ++ c' :: post)).fw_data = (read_ihex memory file).fw_data := by
  obtain ⟨v, hv⟩ := Option.ne_none_iff_exists'.1 hc'
  obtain ⟨m, k, bs, b, b', hm, hk, hspells⟩ := SpellsLines.replace hc hv hfile heq
  obtain ⟨r, hr, rfl⟩ : ∃ r, rs[m]? = some r ∧ r.bytes = bs := by
    rwa [List.getElem?_map, Option.map_eq_some_iff] at hm
  obtain ⟨hlt, rfl⟩ := List.getElem?_eq_some_iff.1 hr
  have hsplit : rs = rs.take m ++ rs[m] :: rs.drop (m + 1) := by
    rw [← List.drop_eq_getElem_cons hlt, List.take_append_drop]
  have hset : (rs.map Record.bytes).set m (rs[m].bytes.set k b') =
      (rs.take m).map Record.bytes ++ rs[m].bytes.set k b' :: (rs.drop (m + 1)).map Record.bytes := by
    rw [List.set_eq_take_append_cons_drop, if_pos (by simpa using hlt), List.map_take, List.map_drop]
  have hlength : (rs.take m).length = m := by simp [hlt.le]
  have hraws := forall₂_reads hfile memory
  have hraws' := forall₂_readsBytes hspells memory'
  rw [hset] at hraws'
  rw [hsplit] at hraws
  have hread := ReadIhex.readRecords_replaced (fun q hq => hrs q (List.mem_of_mem_drop hq))
    (fun q hq => hrs q (List.mem_of_mem_take hq)) hraws hraws'
    (fun hupper raw raw' h h' hget => ?_) ReadIhex.start
  · rw [← ReadIhex.read_eq, ← ReadIhex.read_eq] at hread
    rcases hread with hzero | hsame
    · exact .inl hzero
    · exact .inr ⟨congrArg ReadIhex.data_length hsame, congrArg ReadIhex.fw_data hsame⟩
  · exact rejects_or_same (hrs _ (List.getElem_mem hlt)) hk h'
      (hslip _ _ _ raw' hsplit hupper hget) h

theorem wellFormed_low_high : ∀ r ∈ [low, high, eof], r.WellFormed := by
  simp [low, high, eof, Record.WellFormed]

theorem spellsFile_low_high :
    SpellsFile [low, high, eof] (ascii ":0100000002FD\n:0100100001EE\n:00000001FF\n") :=
  .cons spells_low (.inl rfl) (.cons spells_high (.inl rfl) (.cons spells_eof (.inl rfl) .nil))

/-- The check sum of the second record is changed, and the file is rejected. -/
theorem read_ihex_detects_check :
    (read_ihex (fun _ _ => 0) (ascii ":0100000002FD\n:0100100001E" ++ 0x46 ::
      ascii "\n:00000001FF\n")).data_length = 0 := by
  have heq : ascii ":0100000002FD\n:0100100001EE\n:00000001FF\n" =
      ascii ":0100000002FD\n:0100100001E" ++ 0x45 :: ascii "\n:00000001FF\n" := rfl
  have hc : digit 0x45 ≠ none := by decide
  have hc' : digit 0x46 ≠ none := by decide
  have hheads : (rawRecords (lineBuffers (fun _ _ => 0) (ascii ":0100000002FD\n:0100100001E" ++
      0x46 :: ascii "\n:00000001FF\n"))).map (fun raw => (raw 3, (raw 0).toNat)) =
        [low, high, eof].map fun r => (r.type, r.data.length) := by
    decide +kernel
  have hdetects := read_ihex_detects spellsFile_low_high wellFormed_low_high heq hc hc'
    (fun _ _ => 0) (fun _ _ => 0) ?_
  · refine hdetects.resolve_right fun h => ?_
    have hne : (read_ihex (fun _ _ => 0) (ascii ":0100000002FD\n:0100100001E" ++ 0x46 ::
        ascii "\n:00000001FF\n")).data_length ≠ (read_ihex (fun _ _ => 0)
          (ascii ":0100000002FD\n:0100100001EE\n:00000001FF\n")).data_length := by
      decide +kernel
    exact hne h.1
  · intro before r after raw' hrs _ hget
    have hhead : (raw' 3, (raw' 0).toNat) = (r.type, r.data.length) := by
      have hr : [low, high, eof][before.length]? = some r := by
        rw [hrs, List.getElem?_append_right le_rfl, Nat.sub_self]
        rfl
      have hmaps := congrArg (fun heads => heads[before.length]?) hheads
      rw [List.getElem?_map, List.getElem?_map, hget, hr] at hmaps
      exact Option.some.inj hmaps
    exact not_slip (congrArg Prod.fst hhead) (congrArg Prod.snd hhead)

/-- The type of the first record is changed, and its byte is missing. -/
theorem read_ihex_not_always_detects : ¬ ∀ (rs : List Record) (file pre post : List UInt8)
    (c c' : UInt8) (memory : ℕ → ℕ → UInt8), SpellsFile rs file → (∀ r ∈ rs, r.WellFormed) →
      file = pre ++ c :: post → digit c ≠ none → digit c' ≠ none →
        (read_ihex memory (pre ++ c' :: post)).data_length = 0 ∨
          (read_ihex memory (pre ++ c' :: post)).data_length = (read_ihex memory file).data_length ∧
            (read_ihex memory (pre ++ c' :: post)).fw_data = (read_ihex memory file).fw_data := by
  intro h
  have hc : digit 0x30 ≠ none := by decide
  have hc' : digit 0x31 ≠ none := by decide
  have hdetects := h _ _ (ascii ":0100000") (ascii "02FD\n:0100100001EE\n:00000001FF\n") 0x30 0x31
    (fun _ _ => 0) spellsFile_low_high wellFormed_low_high rfl hc hc'
  rcases hdetects with hzero | ⟨-, hfw⟩
  · revert hzero
    decide +kernel
  · have hbyte := congrFun hfw 0
    revert hbyte
    decide +kernel

end H9
