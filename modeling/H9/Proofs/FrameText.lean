import H9.Proofs.FrameMsg
import H9.Proofs.SchemaRules

/-!
# Frames in messages that nobody checked

`get_frame` on any message: `strtol` reads a number from any text and the narrowing takes any
number, and the bytes are read without a look at `dlc`. It reads what the properties say, or throws,
just where a property is missing or all of them are what the schema wants and `data` fits `dlc`.
-/

namespace H9

open GenericMsg CText

/-- A property of the element in the root. -/
def rootProp (msg : GenericMsg) (prop : String) : Option String :=
  msg.get_msg_root.bind (·.xmlGetProp prop)

/-- The number that a property says in decimal. -/
def decimalProp (msg : GenericMsg) (prop : String) : Option ℕ :=
  (rootProp msg prop).bind fun s => Schema.nonNegativeInteger s.toList

/-- The digits of `data`, none without it. -/
def dataDigits (msg : GenericMsg) : List Char := ((rootProp msg "data").getD "").toList

/-- The bytes that hexadecimal digits say, two digits each. -/
def hexBytes : List Char → Option (List UInt8)
  | [] => some []
  | [_] => none
  | a :: b :: cs =>
    match hexDigit a, hexDigit b, hexBytes cs with
    | some high, some low, some bs => some (UInt8.ofNat (16 * high + low) :: bs)
    | _, _, _ => none

/-- `frame` is what the properties say, and fits the bus. -/
structure Says (msg : GenericMsg) (frame : H9frame) : Prop where
  type : decimalProp msg "type" = some frame.type.toNat
  seqnum : decimalProp msg "seqnum" = some frame.seqnum.toNat
  source : decimalProp msg "source" = some frame.source_id.toNat
  destination : decimalProp msg "destination" = some frame.destination_id.toNat
  dlc : decimalProp msg "dlc" = some frame.dlc.toNat
  type_lt : frame.type < 32
  dlc_le : frame.dlc ≤ 8
  digits : (dataDigits msg).length = 2 * frame.dlc.toNat
  data : hexBytes (dataDigits msg) = some (frame.data.toList.take frame.dlc.toNat)

/-- A property that `get_frame` asks for is not there, and the type before it is no assertion. -/
def Incomplete (msg : GenericMsg) : Prop :=
  rootProp msg "priority" = none ∨ rootProp msg "type" = none ∨
    (∃ type, rootProp msg "type" = some type ∧ UInt8.ofInt (strtol 10 type.toList) < 64) ∧
      ((∃ prop ∈ ["seqnum", "source", "destination", "dlc"], rootProp msg prop = none) ∨
        ∃ dlc, rootProp msg "dlc" = some dlc ∧ UInt8.ofInt (strtol 10 dlc.toList) ≠ 0 ∧
          rootProp msg "data" = none)

/-- The properties are numbers within their bounds, and `data` has the digits of `dlc` bytes. -/
structure Proper (msg : GenericMsg) : Prop where
  priority : rootProp msg "priority" ≠ none
  type : ∃ n < 32, decimalProp msg "type" = some n
  seqnum : ∃ n < 32, decimalProp msg "seqnum" = some n
  source : ∃ n < 512, decimalProp msg "source" = some n
  destination : ∃ n < 512, decimalProp msg "destination" = some n
  data : ∃ n ≤ 8, decimalProp msg "dlc" = some n ∧ (dataDigits msg).length = 2 * n ∧
    ∀ c ∈ dataDigits msg, hexDigit c ≠ none

section Digits

/-- What `get_frame` reads from hexadecimal digits, two for each byte. -/
theorem hexBytes_eq_dataBytes : ∀ {n : ℕ} {cs : List Char}, cs.length = 2 * n →
    (∀ c ∈ cs, hexDigit c ≠ none) → hexBytes cs = some (dataBytes cs) ∧ (dataBytes cs).length = n
  | 0, cs, hlen, _ => by
    obtain rfl := List.length_eq_zero_iff.1 hlen
    exact ⟨rfl, rfl⟩
  | n + 1, [], hlen, _ => by cases hlen
  | n + 1, [a], hlen, _ => by
    simp only [List.length_cons, List.length_nil] at hlen
    omega
  | n + 1, a :: b :: cs, hlen, hdigits => by
    rw [List.forall_mem_cons, List.forall_mem_cons] at hdigits
    obtain ⟨high, ha⟩ := Option.ne_none_iff_exists'.1 hdigits.1
    obtain ⟨low, hb⟩ := Option.ne_none_iff_exists'.1 hdigits.2.1
    obtain ⟨hbytes, hlength⟩ := hexBytes_eq_dataBytes (n := n)
      (by simpa [mul_add] using hlen) hdigits.2.2
    simp only [hexBytes, dataBytes, ha, hb, hbytes, byte_hexDigits ha hb, List.length_cons, hlength,
      and_self]

theorem hexDigits_of_hexBytes : ∀ {cs : List Char} {bs : List UInt8}, hexBytes cs = some bs →
    ∀ c ∈ cs, hexDigit c ≠ none
  | [], _, _, c, hc => by cases hc
  | [_], _, h, _, _ => by cases h
  | a :: b :: cs, bs, h, c, hc => by
    rw [hexBytes] at h
    split at h
    · rename_i high low bs' ha hb hbs
      rcases List.mem_cons.1 hc with rfl | hc
      · simp [ha]
      rcases List.mem_cons.1 hc with rfl | hc
      · simp [hb]
      · exact hexDigits_of_hexBytes hbs c hc
    · cases h

end Digits

section Read

variable {msg : GenericMsg}

theorem requiredOfRoot_eq (msg : GenericMsg) (prop : String) : requiredOfRoot msg prop =
    match rootProp msg prop with
    | some value => .ok value
    | none => .error (.invalidMsg ("missing '" ++ prop ++ "' property")) := by
  unfold requiredOfRoot rootProp required
  cases msg.get_msg_root <;> rfl

/-- A number within its bound is what a narrowing that keeps such numbers makes of it. -/
theorem decimalProp_read {prop s : String} (hs : rootProp msg prop = some s) (read : ℤ → ℕ) {k : ℕ}
    (hk : k ≤ 2 ^ 63) (hread : ∀ n < k, read n = n) {n : ℕ} (hlt : n < k)
    (hn : decimalProp msg prop = some n) : read (strtol 10 s.toList) = n := by
  rw [decimalProp, hs, Option.bind_some] at hn
  rw [Schema.strtol_of_nonNegativeInteger hn (hlt.trans_le hk), hread n hlt]

theorem toNat_ofInt_byte {n : ℕ} (h : n < 256) : (UInt8.ofInt n).toNat = n := by
  rw [UInt8.ofInt, UInt8.toNat_ofNat']
  omega

theorem toNat_ofInt_bits {w n : ℕ} (h : n < 2 ^ w) : (BitVec.ofInt w n).toNat = n := by
  simp [Nat.mod_eq_of_lt h]

/-- The frame that `get_frame` makes of the texts of the properties. -/
def frameOf (priority type seqnum source destination dlc data : String) : H9frame where
  priority := if priority.toList.head? = some 'H' ∨ priority.toList.head? = some 'h' then .HIGH
    else .LOW
  type := UInt8.ofInt (strtol 10 type.toList)
  seqnum := BitVec.ofInt 5 (strtol 10 seqnum.toList)
  source_id := BitVec.ofInt 9 (strtol 10 source.toList)
  destination_id := BitVec.ofInt 9 (strtol 10 destination.toList)
  dlc := UInt8.ofInt (strtol 10 dlc.toList)
  data := fillData (Vector.replicate 8 0) (dataBytes (strnlenText 16 data))

/-- How `get_frame` ends: it misses a property, its assertion fails, or it has a frame. -/
theorem get_frame_cases (msg : GenericMsg) :
    (Incomplete msg ∧ ∃ what, get_frame msg = .error (.invalidMsg what)) ∨
    (∃ priority type, rootProp msg "priority" = some priority ∧ rootProp msg "type" = some type ∧
      64 ≤ UInt8.ofInt (strtol 10 type.toList) ∧ get_frame msg = .error .abort) ∨
    ∃ priority type seqnum source destination dlc, rootProp msg "priority" = some priority ∧
      rootProp msg "type" = some type ∧ rootProp msg "seqnum" = some seqnum ∧
      rootProp msg "source" = some source ∧ rootProp msg "destination" = some destination ∧
      rootProp msg "dlc" = some dlc ∧ UInt8.ofInt (strtol 10 type.toList) < 64 ∧
      (UInt8.ofInt (strtol 10 dlc.toList) ≠ 0 → rootProp msg "data" ≠ none) ∧
      get_frame msg = .ok (frameOf priority type seqnum source destination dlc
        ((rootProp msg "data").getD "")) := by
  have hget : ∀ prop, msg.get_msg_root.bind (·.xmlGetProp prop) = rootProp msg prop := fun _ => rfl
  have hempty : fillData (Vector.replicate 8 0) (dataBytes (strnlenText 16 "")) =
      Vector.replicate 8 0 := by decide
  unfold get_frame
  simp only [requiredOfRoot_eq, hget]
  cases hpriority : rootProp msg "priority" with
  | none => exact .inl ⟨.inl hpriority, _, rfl⟩
  | some priority =>
  cases htype : rootProp msg "type" with
  | none => exact .inl ⟨.inr (.inl htype), _, rfl⟩
  | some type =>
  by_cases h64 : 64 ≤ UInt8.ofInt (strtol 10 type.toList)
  · exact .inr (.inl ⟨priority, type, rfl, rfl, h64, by simp [bind, Except.bind, h64]; rfl⟩)
  have hlt : UInt8.ofInt (strtol 10 type.toList) < 64 := by simpa using h64
  have hmissing {prop : String} (hprop : prop ∈ ["seqnum", "source", "destination", "dlc"])
      (hnone : rootProp msg prop = none) : Incomplete msg :=
    .inr (.inr ⟨⟨type, htype, hlt⟩, .inl ⟨prop, hprop, hnone⟩⟩)
  simp only [bind, Except.bind, if_neg h64]
  cases hseqnum : rootProp msg "seqnum" with
  | none => exact .inl ⟨hmissing (by simp) hseqnum, _, rfl⟩
  | some seqnum =>
  cases hsource : rootProp msg "source" with
  | none => exact .inl ⟨hmissing (by simp) hsource, _, rfl⟩
  | some source =>
  cases hdestination : rootProp msg "destination" with
  | none => exact .inl ⟨hmissing (by simp) hdestination, _, rfl⟩
  | some destination =>
  cases hdlc : rootProp msg "dlc" with
  | none => exact .inl ⟨hmissing (by simp) hdlc, _, rfl⟩
  | some dlc =>
  cases hdata : rootProp msg "data" with
  | some data =>
    exact .inr (.inr ⟨priority, type, seqnum, source, destination, dlc, rfl, rfl, rfl, rfl, rfl, rfl,
      hlt, by simp, rfl⟩)
  | none =>
    by_cases hzero : UInt8.ofInt (strtol 10 dlc.toList) = 0
    · refine .inr (.inr ⟨priority, type, seqnum, source, destination, dlc, rfl, rfl, rfl, rfl, rfl,
        rfl, hlt, fun h => absurd hzero h, ?_⟩)
      simp only [frameOf, Option.getD_none, hempty, ne_eq, hzero, not_true_eq_false, if_false]
      rfl
    · refine .inl ⟨.inr (.inr ⟨⟨type, htype, hlt⟩, .inr ⟨dlc, hdlc, hzero, hdata⟩⟩),
        "'dlc' and 'data' mismatch", ?_⟩
      simp only [ne_eq, hzero, not_false_eq_true, if_true]
      rfl

/-- A number that is within its bound, or that a narrowing that keeps such numbers made, is both. -/
theorem decimalProp_iff {prop s : String} (hs : rootProp msg prop = some s) (read : ℤ → ℕ) {k : ℕ}
    (hk : k ≤ 2 ^ 63) (hread : ∀ n < k, read n = n) :
    (decimalProp msg prop = some (read (strtol 10 s.toList)) ∧ read (strtol 10 s.toList) < k) ↔
      ∃ n < k, decimalProp msg prop = some n := by
  constructor
  · rintro ⟨hn, hlt⟩
    exact ⟨_, hlt, hn⟩
  · rintro ⟨n, hlt, hn⟩
    rw [decimalProp_read hs read hk hread hlt hn]
    exact ⟨hn, hlt⟩

theorem hexBytes_frame {cs : String} {n : ℕ} (hn : n ≤ 8) (hlen : cs.toList.length = 2 * n)
    (hdigits : ∀ c ∈ cs.toList, hexDigit c ≠ none) :
    hexBytes cs.toList =
      some ((fillData (Vector.replicate 8 0) (dataBytes (strnlenText 16 cs))).toList.take n) := by
  obtain ⟨hbytes, hlength⟩ := hexBytes_eq_dataBytes hlen hdigits
  have htext : strnlenText 16 cs = cs.toList := by
    rw [strnlenText_ascii fun c hc => hexDigit_ascii (hdigits c hc),
      List.take_of_length_le (by omega)]
  rw [hbytes, htext]
  congr 1
  refine List.ext_getElem (by simp; omega) fun i hi hi' => ?_
  simp [fillData, List.getD_eq_getElem?_getD, hi]

/-- A frame that `get_frame` made is what the properties say when these are proper. -/
theorem says_frameOf {priority type seqnum source destination dlc : String}
    (hpriority : rootProp msg "priority" = some priority) (htype : rootProp msg "type" = some type)
    (hseqnum : rootProp msg "seqnum" = some seqnum) (hsource : rootProp msg "source" = some source)
    (hdestination : rootProp msg "destination" = some destination)
    (hdlc : rootProp msg "dlc" = some dlc) :
    Says msg (frameOf priority type seqnum source destination dlc ((rootProp msg "data").getD "")) ↔
      Proper msg := by
  have hbyte {k : ℕ} (hk : k ≤ 256) (n : ℕ) (h : n < k) : (UInt8.ofInt n).toNat = n :=
    toNat_ofInt_byte (h.trans_le hk)
  have iff_type := decimalProp_iff htype (fun z => (UInt8.ofInt z).toNat) (k := 32) (by decide)
    (hbyte (by decide))
  have iff_seqnum := decimalProp_iff hseqnum (fun z => (BitVec.ofInt 5 z).toNat) (k := 32)
    (by decide) fun n => toNat_ofInt_bits (w := 5)
  have iff_source := decimalProp_iff hsource (fun z => (BitVec.ofInt 9 z).toNat) (k := 512)
    (by decide) fun n => toNat_ofInt_bits (w := 9)
  have iff_destination := decimalProp_iff hdestination (fun z => (BitVec.ofInt 9 z).toNat)
    (k := 512) (by decide) fun n => toNat_ofInt_bits (w := 9)
  have iff_dlc := decimalProp_iff hdlc (fun z => (UInt8.ofInt z).toNat) (k := 9) (by decide)
    (hbyte (by decide))
  constructor
  · intro h
    exact {
      priority := by simp [hpriority]
      type := iff_type.1 ⟨h.type, h.type_lt⟩
      seqnum := iff_seqnum.1 ⟨h.seqnum, BitVec.isLt _⟩
      source := iff_source.1 ⟨h.source, BitVec.isLt _⟩
      destination := iff_destination.1 ⟨h.destination, BitVec.isLt _⟩
      data := ⟨_, h.dlc_le, h.dlc, h.digits, hexDigits_of_hexBytes h.data⟩ }
  · intro h
    obtain ⟨n, hle, hn, hlen, hdigits⟩ := h.data
    have hdlc' := iff_dlc.2 ⟨n, Nat.lt_succ_of_le hle, hn⟩
    have hcount : (UInt8.ofInt (strtol 10 dlc.toList)).toNat = n :=
      Option.some.inj (hdlc'.1.symm.trans hn)
    exact {
      type := (iff_type.2 h.type).1
      seqnum := (iff_seqnum.2 h.seqnum).1
      source := (iff_source.2 h.source).1
      destination := (iff_destination.2 h.destination).1
      dlc := hdlc'.1
      type_lt := (iff_type.2 h.type).2
      dlc_le := Nat.le_of_lt_succ hdlc'.2
      digits := by rw [hlen, ← hcount]; rfl
      data := by
        rw [dataDigits, hexBytes_frame hle hlen hdigits, ← hcount]
        rfl }

end Read

/-- `get_frame` throws `InvalidMsg` or returns what the properties say just when a property is
missing or they are proper. -/
theorem get_frame_says_iff (msg : GenericMsg) :
    ((∃ what, get_frame msg = .error (.invalidMsg what)) ∨
      ∃ frame, get_frame msg = .ok frame ∧ Says msg frame) ↔ Incomplete msg ∨ Proper msg := by
  rcases get_frame_cases msg with ⟨hbad, what, hget⟩ |
    ⟨priority, type, hpriority, htype, h64, hget⟩ |
    ⟨priority, type, seqnum, source, destination, dlc, hpriority, htype, hseqnum, hsource,
      hdestination, hdlc, h64, hdata, hget⟩
  · exact iff_of_true (.inl ⟨what, hget⟩) (.inl hbad)
  · refine iff_of_false ?_ ?_
    · rintro (⟨what, h⟩ | ⟨frame, h, -⟩) <;> rw [hget] at h <;> cases h
    · rintro (h | h)
      · simp only [Incomplete, hpriority, htype, reduceCtorEq, false_or] at h
        obtain ⟨⟨type', heq, hlt⟩, -⟩ := h
        rw [← Option.some.inj heq] at hlt
        exact absurd h64 (by simpa using hlt)
      · obtain ⟨n, hlt, hn⟩ := h.type
        have hread := decimalProp_read htype (fun z => (UInt8.ofInt z).toNat) (by decide)
          (fun n hn => toNat_ofInt_byte (hn.trans (show 32 < 256 by decide))) hlt hn
        have h64' : 64 ≤ (UInt8.ofInt (strtol 10 type.toList)).toNat := h64
        omega
  · have hincomplete : ¬ Incomplete msg := by
      simp only [Incomplete, hpriority, htype, reduceCtorEq, false_or]
      rintro ⟨-, ⟨prop, hprop, hnone⟩ | ⟨dlc', heq, hne, hnone⟩⟩
      · simp only [List.mem_cons, List.not_mem_nil, or_false] at hprop
        rcases hprop with rfl | rfl | rfl | rfl <;> simp_all
      · rw [hdlc] at heq
        exact hdata (Option.some.inj heq ▸ hne) hnone
    rw [or_iff_right hincomplete, ← says_frameOf hpriority htype hseqnum hsource hdestination hdlc]
    simp [hget]

/-- A valid message whose `data` is one byte for a `dlc` of eight. -/
def shortData : GenericMsg :=
  (create ⟨"sendframe", [("priority", "L"), ("type", "8"), ("seqnum", "0"), ("source", "1"),
    ("destination", "2"), ("dlc", "8"), ("data", "0A")], []⟩).set_id 1

theorem shortData_accepted : Schema.valid shortData = true ∧ get_type shortData = .ok .SEND_FRAME ∧
    get_frame shortData = .ok ⟨.LOW, 8, 0, 2, 1, 8, #v[10, 0, 0, 0, 0, 0, 0, 0]⟩ := by
  refine ⟨?_, ?_, ?_⟩ <;> decide +kernel

theorem get_frame_shortData : ¬ ((∃ what, get_frame shortData = .error (.invalidMsg what)) ∨
    ∃ frame, get_frame shortData = .ok frame ∧ Says shortData frame) := by
  rw [shortData_accepted.2.2]
  rintro (⟨what, h⟩ | ⟨frame, h, hsays⟩)
  · cases h
  · obtain rfl := Except.ok.inj h
    exact absurd hsays.digits (by decide)

end H9
