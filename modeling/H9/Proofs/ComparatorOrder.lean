import H9.FrameSubject

/-!
# What `operator<` orders

`operator<` is true where any field is less, so that one comparator is not less than another where
it is at least the other in every field (`less_eq_false`). That is a preorder, and `operator<` a
strict weak order of just those comparators of which any two stand in it. It does not look at the
alternate type, so comparators that it takes for the same ask for the same frames unless that type
counts.
-/

namespace H9

namespace H9FrameComparator

/-- `a` is at most `b` in each field that `operator<` looks at. -/
structure Below (a b : H9FrameComparator) : Prop where
  fields_to_compare : a.fields_to_compare ≤ b.fields_to_compare
  priority : a.priority.to_underlying ≤ b.priority.to_underlying
  type : a.type ≤ b.type
  seqnum : a.seqnum ≤ b.seqnum
  destination_id : a.destination_id ≤ b.destination_id
  source_id : a.source_id ≤ b.source_id
  dlc : a.dlc ≤ b.dlc
  data : a.dlc = b.dlc → ∀ i (hi : i < 8), i < a.dlc.toNat → a.data[i] ≤ b.data[i]
  first_data_byte : a.first_data_byte ≤ b.first_data_byte

/-- The bytes below `n`, each at most the other's. -/
theorem any_less_eq_false (v w : Vector UInt8 8) (n : ℕ) :
    ((v.toList.zip w.toList).take n).any (fun p => decide (p.1 < p.2)) = false ↔
      ∀ i (hi : i < 8), i < n → w[i] ≤ v[i] := by
  rw [List.any_eq_false]
  constructor
  · intro h i hi hn
    have hget : (v[i], w[i]) ∈ (v.toList.zip w.toList).take n := by
      refine List.mem_iff_getElem.2 ⟨i, by simp; omega, ?_⟩
      simp
    simpa using h _ hget
  · intro h p hp
    obtain ⟨i, hi, rfl⟩ := List.mem_iff_getElem.1 hp
    simp only [List.length_take, List.length_zip, Vector.length_toList] at hi
    simpa using h i (by omega) (by omega)

theorem less_eq_false {a b : H9FrameComparator} : a.less b = false ↔ Below b a := by
  constructor
  · intro h
    simp only [less] at h
    split_ifs at h with h1 h2 h3 h4 h5 h6 h7 h8
    rw [decide_eq_false_iff_not] at h
    refine ⟨UInt8.not_lt.1 h1, UInt8.not_lt.1 h2, UInt8.not_lt.1 h3, UInt8.not_lt.1 h4,
      UInt16.not_lt.1 h5, UInt16.not_lt.1 h6, UInt8.not_lt.1 h7, fun hdlc => ?_, UInt8.not_lt.1 h⟩
    rw [hdlc]
    exact (any_less_eq_false _ _ _).1 (Bool.eq_false_iff.2 fun hany => h8 ⟨hdlc.symm, hany⟩)
  · intro h
    have hdata : ¬ (a.dlc = b.dlc ∧
        ((a.data.toList.zip b.data.toList).take a.dlc.toNat).any (fun p => p.1 < p.2) = true) := by
      rintro ⟨hdlc, hany⟩
      have hall := h.data hdlc.symm
      rw [← hdlc, ← any_less_eq_false, hany] at hall
      exact Bool.noConfusion hall
    rw [less, if_neg (UInt8.not_lt.2 h.fields_to_compare), if_neg (UInt8.not_lt.2 h.priority),
      if_neg (UInt8.not_lt.2 h.type), if_neg (UInt8.not_lt.2 h.seqnum),
      if_neg (UInt16.not_lt.2 h.destination_id), if_neg (UInt16.not_lt.2 h.source_id),
      if_neg (UInt8.not_lt.2 h.dlc), if_neg hdata]
    exact decide_eq_false (UInt8.not_lt.2 h.first_data_byte)

theorem Below.refl (a : H9FrameComparator) : Below a a :=
  ⟨UInt8.le_refl _, UInt8.le_refl _, UInt8.le_refl _, UInt8.le_refl _, UInt16.le_refl _,
    UInt16.le_refl _, UInt8.le_refl _, fun _ _ _ _ => UInt8.le_refl _, UInt8.le_refl _⟩

theorem Below.trans {a b c : H9FrameComparator} (h : Below a b) (h' : Below b c) : Below a c where
  fields_to_compare := UInt8.le_trans h.fields_to_compare h'.fields_to_compare
  priority := UInt8.le_trans h.priority h'.priority
  type := UInt8.le_trans h.type h'.type
  seqnum := UInt8.le_trans h.seqnum h'.seqnum
  destination_id := UInt16.le_trans h.destination_id h'.destination_id
  source_id := UInt16.le_trans h.source_id h'.source_id
  dlc := UInt8.le_trans h.dlc h'.dlc
  data := by
    -- the number of bytes between two that are one is that one too
    intro hdlc i hi hlt
    have hab : a.dlc = b.dlc := UInt8.le_antisymm h.dlc (hdlc ▸ h'.dlc)
    exact UInt8.le_trans (h.data hab i hi hlt) (h'.data (hab ▸ hdlc) i hi (hab ▸ hlt))
  first_data_byte := UInt8.le_trans h.first_data_byte h'.first_data_byte

/-- `operator<` between the comparators of a set. -/
def lessOn (C : Set H9FrameComparator) (a b : C) : Prop := a.1.less b.1 = true

theorem not_lessOn {C : Set H9FrameComparator} {a b : C} : ¬ lessOn C a b ↔ Below b.1 a.1 := by
  rw [lessOn, Bool.not_eq_true, less_eq_false]

instance (C : Set H9FrameComparator) : IsOrderConnected C (lessOn C) where
  conn a b c h := by
    by_contra hnone
    rw [not_or, not_lessOn, not_lessOn] at hnone
    exact not_lessOn.2 (hnone.2.trans hnone.1) h

/-- It is a strict weak order where any two are in order field by field. -/
theorem isStrictWeakOrder_iff (C : Set H9FrameComparator) :
    IsStrictWeakOrder C (lessOn C) ↔ ∀ a ∈ C, ∀ b ∈ C, Below a b ∨ Below b a := by
  constructor
  · intro h a ha b hb
    by_contra hnone
    have hab : lessOn C ⟨a, ha⟩ ⟨b, hb⟩ := not_not.1 fun hle => hnone (.inr (not_lessOn.1 hle))
    have hba : lessOn C ⟨b, hb⟩ ⟨a, ha⟩ := not_not.1 fun hle => hnone (.inl (not_lessOn.1 hle))
    exact h.irrefl _ (h.trans _ _ _ hab hba)
  · intro h
    have hasymm : Std.Asymm (lessOn C) := by
      refine ⟨fun a b hab hba => ?_⟩
      rcases h a.1 a.2 b.1 b.2 with hle | hle
      · exact not_lessOn.2 hle hba
      · exact not_lessOn.2 hle hab
    exact isStrictWeakOrder_of_isOrderConnected

/-! ### What comparators ask for -/

/-- Everything that a comparator asks of a frame but its type. -/
structure Asked (c : H9FrameComparator) (frame : H9frame) : Prop where
  priority : c.compares PRIORITY → c.priority = frame.priority
  seqnum : c.compares SEQNUM → c.seqnum.toNat = frame.seqnum.toNat
  destination_id : c.compares DESTINATION_ID → c.destination_id.toNat = frame.destination_id.toNat
  source_id : c.compares SOURCE_ID → c.source_id.toNat = frame.source_id.toNat
  data : c.compares DATA → c.dlc = frame.dlc ∧
    c.data.toList.take c.dlc.toNat = frame.data.toList.take c.dlc.toNat
  first_data_byte : c.compares FIRST_DATA_BYTE → 1 ≤ frame.dlc ∧ c.first_data_byte = frame.data.get 0

theorem eqFrame_iff {c : H9FrameComparator} {frame : H9frame} : c.eqFrame frame = true ↔
    (c.compares TYPE → c.type = frame.type ∨
      c.compares ALTERNATE_TYPE ∧ c.alternate_type = frame.type) ∧ c.Asked frame := by
  rw [eqFrame]
  split_ifs with h1 h2 h3 h4 h5 h6 h7
  · exact iff_of_false id fun h => h1.2 (h.2.priority h1.1)
  · refine iff_of_false id fun h => ?_
    rcases h.1 h2.1 with heq | ⟨halternate, heq⟩
    · exact h2.2.1 heq
    · exact h2.2.2.elim (fun hnot => hnot halternate) fun hne => hne heq
  · exact iff_of_false id fun h => h3.2 (h.2.seqnum h3.1)
  · exact iff_of_false id fun h => h4.2 (h.2.destination_id h4.1)
  · exact iff_of_false id fun h => h5.2 (h.2.source_id h5.1)
  · refine iff_of_false id fun h => ?_
    obtain ⟨hdlc, hdata⟩ := h.2.data h6.1
    exact h6.2.elim (fun hne => hne hdlc) fun hne => hne hdata
  · refine iff_of_false id fun h => ?_
    obtain ⟨hdlc, hbyte⟩ := h.2.first_data_byte h7.1
    exact h7.2.elim (UInt8.not_lt.2 hdlc) fun hne => hne hbyte
  · refine iff_of_true rfl ⟨fun htype => ?_, ?_, ?_, ?_, ?_, fun hdata => ?_, fun hfirst => ?_⟩
    · by_contra hnone
      rw [not_or, not_and] at hnone
      refine h2 ⟨htype, hnone.1, ?_⟩
      by_cases halternate : c.compares ALTERNATE_TYPE = true
      · exact .inr (hnone.2 halternate)
      · exact .inl halternate
    · exact fun hpriority => by_contra fun hne => h1 ⟨hpriority, hne⟩
    · exact fun hseqnum => by_contra fun hne => h3 ⟨hseqnum, hne⟩
    · exact fun hdestination => by_contra fun hne => h4 ⟨hdestination, hne⟩
    · exact fun hsource => by_contra fun hne => h5 ⟨hsource, hne⟩
    · exact ⟨by_contra fun hne => h6 ⟨hdata, .inl hne⟩, by_contra fun hne => h6 ⟨hdata, .inr hne⟩⟩
    · exact ⟨UInt8.not_lt.1 fun hlt => h7 ⟨hfirst, .inl hlt⟩,
        by_contra fun hne => h7 ⟨hfirst, .inr hne⟩⟩

/-- What the comparator of a request for a register asks for. -/
theorem eqFrame_request_iff {source : UInt16} {type reg seqnum : UInt8} {frame : H9frame} :
    ((((new.set_source_id source).set_type type).set_first_data_byte reg).set_seqnum seqnum).eqFrame
        frame = true ↔
      source.toNat = frame.source_id.toNat ∧ type = frame.type ∧ seqnum.toNat = frame.seqnum.toNat ∧
        1 ≤ frame.dlc ∧ reg = frame.data.get 0 := by
  have hbits (field : UInt8) :
      ((((new.set_source_id source).set_type type).set_first_data_byte reg).set_seqnum seqnum).compares
        field = decide ((0 ||| 32 ||| 2 ||| 128 ||| 8 : UInt8) &&& field ≠ 0) := rfl
  rw [eqFrame_iff]
  constructor
  · rintro ⟨htype, hasked⟩
    have hfirst := hasked.first_data_byte (by rw [hbits]; decide)
    refine ⟨hasked.source_id (by rw [hbits]; decide), ?_, hasked.seqnum (by rw [hbits]; decide), hfirst⟩
    exact (htype (by rw [hbits]; decide)).elim id fun h => absurd h.1 (by rw [hbits]; decide)
  · rintro ⟨hsource, htype, hseqnum, hfirst⟩
    refine ⟨fun _ => .inl htype, ?_⟩
    exact {
      priority := fun hp => absurd hp (by rw [hbits]; decide)
      seqnum := fun _ => hseqnum
      destination_id := fun hd => absurd hd (by rw [hbits]; decide)
      source_id := fun _ => hsource
      data := fun hd => absurd hd (by rw [hbits]; decide)
      first_data_byte := fun _ => hfirst }

/-- Some frame has what the comparator asks for besides a type: its numbers fit into a frame, and
its bytes do not contradict its first byte. -/
structure Satisfiable (c : H9FrameComparator) : Prop where
  seqnum : c.compares SEQNUM → c.seqnum < 32
  destination_id : c.compares DESTINATION_ID → c.destination_id < 512
  source_id : c.compares SOURCE_ID → c.source_id < 512
  data : c.compares DATA → c.compares FIRST_DATA_BYTE → 1 ≤ c.dlc ∧ c.first_data_byte = c.data.get 0

/-- A frame with what the comparator asks for, and any type. -/
def example_frame (c : H9FrameComparator) (type : UInt8) : H9frame where
  priority := c.priority
  type := type
  seqnum := BitVec.ofNat 5 c.seqnum.toNat
  destination_id := BitVec.ofNat 9 c.destination_id.toNat
  source_id := BitVec.ofNat 9 c.source_id.toNat
  dlc := if c.compares DATA then c.dlc else 1
  data := if c.compares DATA then c.data else Vector.replicate 8 c.first_data_byte

theorem asked_example_frame {c : H9FrameComparator} (h : c.Satisfiable) (type : UInt8) :
    c.Asked (c.example_frame type) where
  priority := fun _ => rfl
  seqnum := by
    intro hseqnum
    have hlt := UInt8.lt_iff_toNat_lt.1 (h.seqnum hseqnum)
    exact (Nat.mod_eq_of_lt hlt).symm
  destination_id := by
    intro hdestination
    have hlt := UInt16.lt_iff_toNat_lt.1 (h.destination_id hdestination)
    exact (Nat.mod_eq_of_lt hlt).symm
  source_id := by
    intro hsource
    have hlt := UInt16.lt_iff_toNat_lt.1 (h.source_id hsource)
    exact (Nat.mod_eq_of_lt hlt).symm
  data := by
    intro hdata
    simp [example_frame, hdata]
  first_data_byte := by
    intro hfirst
    by_cases hdata : c.compares DATA = true
    · simpa [example_frame, hdata] using h.data hdata hfirst
    · simp [example_frame, hdata]

theorem Asked.satisfiable {c : H9FrameComparator} {frame : H9frame} (h : c.Asked frame) :
    c.Satisfiable where
  seqnum := by
    intro hseqnum
    have := frame.seqnum.isLt
    rw [UInt8.lt_iff_toNat_lt, h.seqnum hseqnum]
    exact this
  destination_id := by
    intro hdestination
    have := frame.destination_id.isLt
    rw [UInt16.lt_iff_toNat_lt, h.destination_id hdestination]
    exact this
  source_id := by
    intro hsource
    have := frame.source_id.isLt
    rw [UInt16.lt_iff_toNat_lt, h.source_id hsource]
    exact this
  data := by
    intro hdata hfirst
    obtain ⟨heq, hbytes⟩ := h.data hdata
    obtain ⟨hone, hbyte⟩ := h.first_data_byte hfirst
    rw [← heq] at hone
    have hpos : 0 < c.dlc.toNat := UInt8.le_iff_toNat_le.1 hone
    have hget := congrArg (·[0]?) hbytes
    simp only [List.getElem?_take, if_pos hpos] at hget
    exact ⟨hone, hbyte.trans (by simpa [Vector.get_eq_getElem] using hget.symm)⟩

/-- Comparators that are level ask for the same but for the type. -/
theorem Asked.congr {a b : H9FrameComparator} (hab : Below a b) (hba : Below b a) {frame : H9frame}
    (h : a.Asked frame) : b.Asked frame := by
  have hfields := UInt8.le_antisymm hab.fields_to_compare hba.fields_to_compare
  have hcompares (field : UInt8) : a.compares field = b.compares field := by
    rw [compares, compares, hfields]
  have hpriority : a.priority = b.priority := by
    have := UInt8.le_antisymm hab.priority hba.priority
    cases ha : a.priority <;> cases hb : b.priority <;> simp [ha, hb, Priority.to_underlying] at this ⊢
  have hseqnum := UInt8.le_antisymm hab.seqnum hba.seqnum
  have hdestination := UInt16.le_antisymm hab.destination_id hba.destination_id
  have hsource := UInt16.le_antisymm hab.source_id hba.source_id
  have hdlc := UInt8.le_antisymm hab.dlc hba.dlc
  have hfirst := UInt8.le_antisymm hab.first_data_byte hba.first_data_byte
  have hdata : a.data.toList.take a.dlc.toNat = b.data.toList.take b.dlc.toNat := by
    refine List.ext_getElem (by simp [hdlc]) fun i hi _ => ?_
    simp only [List.length_take, Vector.length_toList] at hi
    have hle := hab.data hdlc i (by omega) (by omega)
    have hge := hba.data hdlc.symm i (by omega) (by rw [← hdlc]; omega)
    simpa using UInt8.le_antisymm hle hge
  exact {
    priority := by rw [← hcompares, ← hpriority]; exact h.priority
    seqnum := by rw [← hcompares, ← hseqnum]; exact h.seqnum
    destination_id := by rw [← hcompares, ← hdestination]; exact h.destination_id
    source_id := by rw [← hcompares, ← hsource]; exact h.source_id
    data := by
      rw [← hcompares, ← hdata, ← hdlc]
      exact h.data
    first_data_byte := by rw [← hcompares, ← hfirst]; exact h.first_data_byte }

/-- Two comparators ask for the same frames. -/
def SameFrames (a b : H9FrameComparator) : Prop := ∀ frame, a.eqFrame frame = b.eqFrame frame

/-- Where both types count and any frame has the rest, `a` and `b` have the same second type. -/
def SameAlternate (a b : H9FrameComparator) : Prop :=
  a.compares TYPE → a.compares ALTERNATE_TYPE → a.Satisfiable → a.alternate_type = b.alternate_type

/-- Level comparators ask for the same frames where they have the same second type, and nowhere
else. -/
theorem sameFrames_iff {a b : H9FrameComparator} (hab : Below a b) (hba : Below b a) :
    SameFrames a b ↔ SameAlternate a b := by
  have hfields := UInt8.le_antisymm hab.fields_to_compare hba.fields_to_compare
  have hcompares (field : UInt8) : a.compares field = b.compares field := by
    rw [compares, compares, hfields]
  have htype := UInt8.le_antisymm hab.type hba.type
  constructor
  · intro h hfirst hsecond hsat
    by_contra hne
    have hrest (type : UInt8) := asked_example_frame hsat type
    -- one of the second types is not the first, and its frame is asked for by one side only
    by_cases halternate : a.alternate_type = a.type
    · have hb : b.eqFrame (a.example_frame b.alternate_type) = true :=
        eqFrame_iff.2 ⟨fun _ => .inr ⟨hcompares _ ▸ hsecond, rfl⟩, (hrest _).congr hab hba⟩
      rw [← h] at hb
      rcases (eqFrame_iff.1 hb).1 hfirst with heq | ⟨-, heq⟩
      · exact hne (halternate.trans heq)
      · exact hne heq
    · have ha : a.eqFrame (a.example_frame a.alternate_type) = true :=
        eqFrame_iff.2 ⟨fun _ => .inr ⟨hsecond, rfl⟩, hrest _⟩
      rw [h] at ha
      rcases (eqFrame_iff.1 ha).1 (hcompares _ ▸ hfirst) with heq | ⟨-, heq⟩
      · exact halternate (heq.symm.trans htype.symm)
      · exact hne heq.symm
  · intro h frame
    rw [Bool.eq_iff_iff, eqFrame_iff, eqFrame_iff]
    have hrest : a.Asked frame ↔ b.Asked frame := ⟨Asked.congr hab hba, Asked.congr hba hab⟩
    rw [← hrest]
    refine and_congr_left fun hasked => ?_
    rw [← hcompares, ← hcompares, ← htype]
    refine imp_congr_right fun hfirst => or_congr_right (and_congr_right fun hsecond => ?_)
    rw [h hfirst hsecond hasked.satisfiable]

/-! ### Orders of comparators -/

/-- `operator<` is a strict weak order of the comparators, and takes two for the same only if they
ask for the same frames. -/
def Orders (C : Set H9FrameComparator) : Prop :=
  IsStrictWeakOrder C (lessOn C) ∧
    ∀ a ∈ C, ∀ b ∈ C, a.less b = false → b.less a = false → SameFrames a b

/-- Any two of the comparators are in order field by field, with the same second type where they
are level. -/
def FieldByField (C : Set H9FrameComparator) : Prop :=
  (∀ a ∈ C, ∀ b ∈ C, Below a b ∨ Below b a) ∧
    ∀ a ∈ C, ∀ b ∈ C, Below a b → Below b a → SameAlternate a b

theorem orders_iff (C : Set H9FrameComparator) : Orders C ↔ FieldByField C := by
  rw [Orders, FieldByField, isStrictWeakOrder_iff]
  refine and_congr_right fun _ => forall₂_congr fun a _ => forall₂_congr fun b _ => ?_
  rw [less_eq_false, less_eq_false]
  constructor
  · exact fun h hab hba => (sameFrames_iff hab hba).1 (h hba hab)
  · exact fun h hba hab => (sameFrames_iff hab hba).2 (h hab hba)

/-- The comparators that are made by such histories of calls of setters are ordered just if they
are so field by field. -/
theorem orders_built_iff (S : Set (List Setter)) :
    Orders (Set.image built S) ↔ FieldByField (Set.image built S) :=
  orders_iff _

/-- A comparator for a number and one for a source are each less than the other. -/
theorem not_orders_built : ¬ Orders (Set.range built) := by
  intro h
  rw [orders_iff] at h
  have hnumber : built [.set_seqnum 1] ∈ Set.range built := ⟨_, rfl⟩
  have hsource : built [.set_source_id 3] ∈ Set.range built := ⟨_, rfl⟩
  rcases h.1 _ hnumber _ hsource with hle | hle
  · exact absurd hle.seqnum (by decide)
  · exact absurd hle.fields_to_compare (by decide)

end H9FrameComparator

end H9
