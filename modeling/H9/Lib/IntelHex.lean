import H9.Lib.Blocks

/-!
# Intel HEX

A file in this format is a list of records, one on a line: the number of the bytes of data, the offset
of the data, the type of the record, the data and a check sum, in hexadecimal digits. The bytes of a
record add up to zero. Records of type 4 give the upper half of the addresses of the data behind them.
-/

namespace IntelHex

structure Record where
  type : UInt8
  offset : UInt16
  data : List UInt8
  short : data.length < 256

namespace Record

/-- What stands before the check sum. -/
def body (r : Record) : List UInt8 :=
  [UInt8.ofNat r.data.length, (r.offset >>> 8).toUInt8, r.offset.toUInt8, r.type] ++ r.data

def bytes (r : Record) : List UInt8 := r.body ++ [-r.body.sum]

/-- The upper half of an address, in the data of a record of type 4. -/
def upper (r : Record) : ℕ := 256 * (r.data.getD 0 0).toNat + (r.data.getD 1 0).toNat

/-- The data of a record are what its type is for. -/
def WellFormed (r : Record) : Prop :=
  r.type = 0 ∨ r.type = 1 ∧ r.data = [] ∨ (r.type = 2 ∨ r.type = 4) ∧ r.data.length = 2 ∨
    (r.type = 3 ∨ r.type = 5) ∧ r.data.length = 4

theorem WellFormed.length_of_address {r : Record} (h : r.WellFormed) (htype : r.type = 4) :
    r.data.length = 2 := by
  rcases h with h | ⟨h, -⟩ | ⟨-, h⟩ | ⟨h | h, -⟩
  · rw [h] at htype
    exact absurd htype (by decide)
  · rw [h] at htype
    exact absurd htype (by decide)
  · exact h
  · rw [h] at htype
    exact absurd htype (by decide)
  · rw [h] at htype
    exact absurd htype (by decide)

end Record

/-- The data of the records, with their addresses. -/
def blocks (base : ℕ) : List Record → List (Blocks.Block UInt8)
  | [] => []
  | r :: rs =>
    if r.type = 0 then ⟨base + r.offset.toNat, r.data⟩ :: blocks base rs
    else if r.type = 4 then blocks (r.upper * 65536) rs
    else if r.type = 1 then []
    else blocks base rs

/-- A file with data for the first 128 KiB, its records in any order, and the end of the file. -/
def Plain (rs : List Record) : Prop :=
  ∃ body e, rs = body ++ [e] ∧ (e.type = 1 ∧ e.data = []) ∧
    ∀ r ∈ body, r.type = 0 ∨ r.type = 4 ∧ r.data.length = 2 ∧ r.upper ≤ 1

/-! ### Texts -/

/-- The value of a hexadecimal digit. -/
def digit (c : UInt8) : Option UInt8 :=
  if 0x30 ≤ c ∧ c ≤ 0x39 then some (c - 0x30)
  else if 0x41 ≤ c ∧ c ≤ 0x46 then some (c - 0x41 + 10)
  else if 0x61 ≤ c ∧ c ≤ 0x66 then some (c - 0x61 + 10)
  else none

/-- Two digits for each byte. -/
def Spells : List UInt8 → List UInt8 → Prop
  | c :: d :: cs, b :: bs => digit c = some (b >>> 4) ∧ digit d = some (b &&& 0xf) ∧ Spells cs bs
  | [], [] => True
  | _, _ => False

instance decidableSpells : ∀ cs bs : List UInt8, Decidable (Spells cs bs)
  | c :: d :: cs, b :: bs =>
    have := decidableSpells cs bs
    inferInstanceAs (Decidable (digit c = some (b >>> 4) ∧ digit d = some (b &&& 0xf) ∧ Spells cs bs))
  | [], [] => .isTrue trivial
  | [], _ :: _ => .isFalse id
  | [_], _ => .isFalse id
  | _ :: _ :: _, [] => .isFalse id

/-- A line with these bytes, up to its end. -/
def SpellsLine (bs line : List UInt8) : Prop := ∃ cs, line = 0x3a :: cs ∧ Spells cs bs

/-- The end of a line, which the last one may not have. -/
def IsEnd (eol : List UInt8) : Prop := eol = [0x0a] ∨ eol = [0x0d, 0x0a]

/-- Lines with these bytes. -/
inductive SpellsLines : List (List UInt8) → List UInt8 → Prop
  | nil : SpellsLines [] []
  | last {bs line : List UInt8} : SpellsLine bs line → SpellsLines [bs] line
  | cons {bs line eol file : List UInt8} {bss : List (List UInt8)} : SpellsLine bs line →
      IsEnd eol → SpellsLines bss file → SpellsLines (bs :: bss) (line ++ eol ++ file)

/-- The text of a file with these records. -/
def SpellsFile (rs : List Record) (file : List UInt8) : Prop := SpellsLines (rs.map Record.bytes) file

/-! ### A digit replaced -/

theorem toNat_high (b : UInt8) : (b >>> 4).toNat = b.toNat / 16 := by
  simp [UInt8.toNat_shiftRight, Nat.shiftRight_eq_div_pow]

theorem toNat_low (b : UInt8) : (b &&& 0xf).toNat = b.toNat % 16 := by
  rw [UInt8.toNat_and]
  exact Nat.and_two_pow_sub_one_eq_mod b.toNat 4

theorem toNat_nibbles {v w : UInt8} (hv : v.toNat < 16) (hw : w.toNat < 16) :
    (v <<< 4 ||| w).toNat = 16 * v.toNat + w.toNat := by
  have hor := Nat.shiftLeft_add_eq_or_of_lt (show w.toNat < 2 ^ 4 by omega) v.toNat
  have hfour : UInt8.toNat 4 % 8 = 4 := rfl
  simp only [UInt8.toNat_or, UInt8.toNat_shiftLeft, hfour, Nat.shiftLeft_eq] at hor ⊢
  rw [Nat.mod_eq_of_lt (by omega), ← hor]
  omega

theorem digit_lt {c v : UInt8} (h : digit c = some v) : v.toNat < 16 := by
  unfold digit at h
  simp only [UInt8.le_iff_toNat_le] at h
  split_ifs at h with h0 hA ha <;> obtain rfl := Option.some.inj h
  all_goals
    simp only [UInt8.toNat_add, UInt8.toNat_sub_of_le, UInt8.le_iff_toNat_le, *]
    simp at *
    omega

theorem high_nibble {v : UInt8} (hv : v.toNat < 16) (b : UInt8) :
    (v <<< 4 ||| (b &&& 0xf)) >>> 4 = v ∧ (v <<< 4 ||| (b &&& 0xf)) &&& 0xf = b &&& 0xf := by
  have hlow := toNat_low b
  have hor := toNat_nibbles (w := b &&& 0xf) hv (by omega)
  constructor
  · rw [← UInt8.toNat_inj, toNat_high, hor]
    omega
  · rw [← UInt8.toNat_inj, toNat_low, hor]
    omega

theorem low_nibble {v : UInt8} (hv : v.toNat < 16) (b : UInt8) :
    ((b >>> 4) <<< 4 ||| v) >>> 4 = b >>> 4 ∧ ((b >>> 4) <<< 4 ||| v) &&& 0xf = v := by
  have hb := b.toNat_lt
  have hhigh := toNat_high b
  have hor := toNat_nibbles (v := b >>> 4) (by omega) hv
  constructor
  · rw [← UInt8.toNat_inj, toNat_high, hor]
    omega
  · rw [← UInt8.toNat_inj, toNat_low, hor]
    omega

/-- With another digit, one byte is another one or the same. -/
theorem Spells.replace {c c' v : UInt8} (hc' : digit c' = some v) {post : List UInt8} :
    ∀ {pre bs : List UInt8}, Spells (pre ++ c :: post) bs → ∃ (k : ℕ) (b b' : UInt8),
      bs[k]? = some b ∧ Spells (pre ++ c' :: post) (bs.set k b')
  | [], bs, h => by
    rcases post with _ | ⟨d, post⟩ <;> rcases bs with _ | ⟨b, bs⟩
    · exact h.elim
    · exact h.elim
    · exact h.elim
    · obtain ⟨hhi, hlo⟩ := high_nibble (digit_lt hc') b
      refine ⟨0, b, v <<< 4 ||| (b &&& 0xf), rfl, ?_, ?_, h.2.2⟩
      · rw [hc', hhi]
      · rw [h.2.1, hlo]
  | [d], bs, h => by
    rcases bs with _ | ⟨b, bs⟩
    · exact h.elim
    · obtain ⟨hhi, hlo⟩ := low_nibble (digit_lt hc') b
      refine ⟨0, b, (b >>> 4) <<< 4 ||| v, rfl, ?_, ?_, h.2.2⟩
      · rw [h.1, hhi]
      · rw [hc', hlo]
  | d :: e :: pre, bs, h => by
    rcases bs with _ | ⟨b, bs⟩
    · exact h.elim
    · obtain ⟨k, a, a', hk, hspells⟩ := Spells.replace hc' h.2.2
      exact ⟨k + 1, a, a', hk, h.1, h.2.1, hspells⟩

theorem not_digit_of_isEnd {eol : List UInt8} (h : IsEnd eol) : ∀ c ∈ eol, digit c = none := by
  have hlf : digit 0x0a = none := by decide
  have hcr : digit 0x0d = none := by decide
  rcases h with rfl | rfl <;> simp [hlf, hcr]

/-- Another digit in a line, which does not replace the colon. -/
theorem SpellsLine.replace {c c' v : UInt8} (hc : digit c ≠ none) (hc' : digit c' = some v)
    {pre post bs : List UInt8} (h : SpellsLine bs (pre ++ c :: post)) : ∃ (k : ℕ) (b b' : UInt8),
      bs[k]? = some b ∧ SpellsLine (bs.set k b') (pre ++ c' :: post) := by
  obtain ⟨cs, hline, hcs⟩ := h
  rcases pre with _ | ⟨d, pre⟩
  · obtain rfl : c = 0x3a := (List.cons.inj hline).1
    have hcolon : digit 0x3a = none := by decide
    exact absurd hcolon hc
  · obtain ⟨rfl, rfl⟩ := List.cons.inj hline
    obtain ⟨k, b, b', hk, hspells⟩ := hcs.replace hc'
    exact ⟨k, b, b', hk, pre ++ c' :: post, rfl, hspells⟩

/-- Another digit in a file. -/
theorem SpellsLines.replace {c c' v : UInt8} (hc : digit c ≠ none) (hc' : digit c' = some v)
    {bss : List (List UInt8)} {file : List UInt8} (h : SpellsLines bss file) :
    ∀ {pre post : List UInt8}, file = pre ++ c :: post → ∃ (m k : ℕ) (bs : List UInt8) (b b' : UInt8),
      bss[m]? = some bs ∧ bs[k]? = some b ∧
        SpellsLines (bss.set m (bs.set k b')) (pre ++ c' :: post) := by
  induction h with
  | nil =>
    intro pre post heq
    simp at heq
  | @last bs line hline =>
    rintro pre post rfl
    obtain ⟨k, b, b', hk, hline'⟩ := hline.replace hc hc'
    exact ⟨0, k, bs, b, b', rfl, hk, .last hline'⟩
  | @cons bs line eol file bss hline heol hfile ih =>
    intro pre post heq
    rw [List.append_assoc] at heq
    have heol' : ∀ as bs, eol ≠ as ++ c :: bs := fun as bs hin =>
      hc (not_digit_of_isEnd heol c (by simp [hin]))
    -- the digit is in the line, or in those behind its end
    rcases List.append_eq_append_iff.1 heq with ⟨as, rfl, hpost⟩ | ⟨as, rfl, hpost⟩
    · have hrest : ∃ as', as = eol ++ as' ∧ file = as' ++ c :: post := by
        rcases List.append_eq_append_iff.1 hpost with h | ⟨as', h, hfile'⟩
        · exact h
        · rcases as' with _ | ⟨d, as'⟩
          · exact ⟨[], by simpa using h.symm, hfile'.symm⟩
          · obtain ⟨rfl, -⟩ := List.cons.inj hfile'
            exact absurd h (heol' as as')
      obtain ⟨as', rfl, hfile'⟩ := hrest
      obtain ⟨m, k, bs', b, b', hm, hk, hspells⟩ := ih hfile'
      refine ⟨m + 1, k, bs', b, b', hm, hk, ?_⟩
      rw [List.set_cons_succ, ← List.append_assoc line, List.append_assoc (line ++ eol)]
      exact .cons hline heol hspells
    · rcases as with _ | ⟨d, as⟩
      · rcases eol with _ | ⟨d, eol⟩
        · rcases heol with h | h <;> cases h
        · obtain ⟨rfl, -⟩ := List.cons.inj hpost
          exact absurd rfl (heol' [] eol)
      · obtain ⟨rfl, rfl⟩ := List.cons.inj hpost
        obtain ⟨k, b, b', hk, hline'⟩ := hline.replace hc hc'
        refine ⟨0, k, bs, b, b', rfl, hk, ?_⟩
        have hspells := SpellsLines.cons hline' heol hfile
        rwa [List.append_assoc, List.append_assoc, List.cons_append] at hspells

end IntelHex
