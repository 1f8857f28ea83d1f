import H9.Libxml2
import H9.Proofs.Replies

/-!
# Frames through the text of a message

`GenericFrameMsg` writes a frame into properties as text and reads it from them. Each property is
read back from what was written of it, so a frame comes out of a message as it went in, up to the
bytes that its `dlc` leaves out.
-/

namespace H9

open GenericMsg CText

section Values

theorem byte_hexDigits {a b : Char} {high low : ℕ} (ha : hexDigit a = some high)
    (hb : hexDigit b = some low) :
    UInt8.ofInt (strtol 16 [a, b]) = UInt8.ofNat (16 * high + low) := by
  have hlt := (hexDigit_eq_some.1 ha).2
  have hlt' := (hexDigit_eq_some.1 hb).2
  have hdigits : ∀ c ∈ [a, b], hexDigit c ≠ none := by simp [ha, hb]
  have hvalue : value 16 [a, b] = (16 * high + low : ℕ) := by
    simp [value_hexDigits hdigits, ha, hb, number, mul_comm]
  have hstrtol : strtol 16 [a, b] = (16 * high + low : ℕ) := by
    rw [strtol, hvalue]
    omega
  rw [hstrtol, UInt8.ofInt]
  congr 1
  omega

theorem exists_hexByte (b : UInt8) : ∃ c d, (hexByte b).toList = [c, d] ∧
    hexDigit c = some (b.toNat / 16) ∧ hexDigit d = some (b.toNat % 16) := by
  have hdigit : ∀ n : Fin 16, hexDigit (if n.val < 10 then Char.ofNat ('0'.toNat + n)
      else Char.ofNat ('A'.toNat + (n - 10))) = some n.val := by decide
  have hb := b.toNat_lt
  exact ⟨_, _, String.toList_ofList, hdigit ⟨b.toNat / 16, by omega⟩, hdigit ⟨b.toNat % 16, by omega⟩⟩

theorem dataBytes_hexBytes : ∀ bs : List UInt8,
    dataBytes (bs.flatMap fun b => (hexByte b).toList) = bs
  | [] => rfl
  | b :: bs => by
    obtain ⟨c, d, hb, hc, hd⟩ := exists_hexByte b
    rw [List.flatMap_cons, hb, List.cons_append, List.cons_append, List.nil_append, dataBytes,
      dataBytes_hexBytes bs, byte_hexDigits hc hd, Nat.div_add_mod, UInt8.ofNat_toNat]

theorem hexDigit_hexBytes {bs : List UInt8} {c : Char} (hc : c ∈ (String.join (bs.map hexByte)).toList) :
    hexDigit c ≠ none := by
  rw [String.toList_join, List.flatMap_map] at hc
  obtain ⟨b, -, hb⟩ := List.mem_flatMap.1 hc
  obtain ⟨c₁, c₂, hlist, h₁, h₂⟩ := exists_hexByte b
  rw [hlist, List.mem_pair] at hb
  rcases hb with rfl | rfl
  · simp [h₁]
  · simp [h₂]

theorem length_hexBytes (bs : List UInt8) :
    (String.join (bs.map hexByte)).toList.length = 2 * bs.length := by
  have hlen (b : UInt8) : (hexByte b).toList.length = 2 := by
    simp only [hexByte, String.toList_ofList, List.length_cons, List.length_nil]
  rw [String.toList_join, List.flatMap_map, List.length_flatMap, List.map_congr_left fun b _ => hlen b,
    List.map_const', List.sum_replicate, smul_eq_mul, mul_comm]

theorem utf8EncodeChar_ascii {c : Char} (h : c.toNat < 128) :
    String.utf8EncodeChar c = [UInt8.ofNat c.toNat] := by
  unfold String.utf8EncodeChar
  exact if_pos (Nat.le_of_lt_succ h)

/-- A text of ASCII characters is in memory as it is written. -/
theorem strnlenText_ascii {n : ℕ} {s : String} (h : ∀ c ∈ s.toList, 0 < c.toNat ∧ c.toNat < 128) :
    strnlenText n s = s.toList.take n := by
  have hbytes : s.toList.flatMap String.utf8EncodeChar = s.toList.map fun c => UInt8.ofNat c.toNat := by
    rw [List.map_eq_flatMap]
    exact List.flatMap_congr fun c hc => utf8EncodeChar_ascii (h c hc).2
  have hnat (c : Char) (hc : c ∈ s.toList) : (UInt8.ofNat c.toNat).toNat = c.toNat := by
    have := (h c hc).2
    simp only [UInt8.toNat_ofNat']
    omega
  have hnul : ∀ b ∈ s.toList.map fun c => UInt8.ofNat c.toNat, decide (b ≠ 0) = true := by
    refine List.forall_mem_map.2 fun c hc => decide_eq_true fun heq => ?_
    have hzero : c.toNat = 0 := by rw [← hnat c hc, heq]; rfl
    exact absurd hzero (h c hc).1.ne'
  rw [strnlenText, hbytes, List.takeWhile_eq_self_iff.2 hnul, ← List.map_take, List.map_map]
  refine (List.map_congr_left fun c hc => ?_).trans (List.map_id _)
  simp [hnat c (List.mem_of_mem_take hc)]

theorem dataBytes_join {bs : List UInt8} (h : bs.length ≤ 8) :
    dataBytes (strnlenText 16 (String.join (bs.map hexByte))) = bs := by
  have htake : (String.join (bs.map hexByte)).toList.length ≤ 16 := by
    rw [length_hexBytes]
    omega
  rw [strnlenText_ascii fun c hc => hexDigit_ascii (hexDigit_hexBytes hc),
    List.take_of_length_le htake, String.toList_join, List.flatMap_map, dataBytes_hexBytes]

theorem ofInt_strtol_byte (b : UInt8) : UInt8.ofInt (strtol 10 (toString b.toNat).toList) = b := by
  have hmod : ((b.toNat : ℤ) % 2 ^ 8).toNat = b.toNat := by
    have := b.toNat_lt
    omega
  rw [strtol_repr (b.toNat_lt.trans (by decide)), UInt8.ofInt, hmod, UInt8.ofNat_toNat]

theorem ofInt_strtol_bits {w : ℕ} (hw : w ≤ 63) (x : BitVec w) :
    BitVec.ofInt w (strtol 10 (toString x.toNat).toList) = x := by
  rw [strtol_repr (x.isLt.trans_le (Nat.pow_le_pow_right (by decide) hw))]
  simp

end Values

/-- The frame with zeros for the bytes that its `dlc` leaves out. -/
def H9frame.sent (frame : H9frame) : H9frame :=
  { frame with data := Vector.ofFn fun i => if i.val < frame.dlc.toNat then frame.data.get i else 0 }

/-- The properties say what `frame` is. -/
structure Describes (props : List (String × String)) (frame : H9frame) : Prop where
  priority : props.lookup "priority" = some (match frame.priority with | .HIGH => "H" | .LOW => "L")
  type : props.lookup "type" = some (toString frame.type.toNat)
  seqnum : props.lookup "seqnum" = some (toString frame.seqnum.toNat)
  source : props.lookup "source" = some (toString frame.source_id.toNat)
  destination : props.lookup "destination" = some (toString frame.destination_id.toNat)
  dlc : props.lookup "dlc" = some (toString frame.dlc.toNat)
  data : props.lookup "data" = if frame.dlc = 0 then none else
    some (String.join ((frame.data.toList.take frame.dlc.toNat).map hexByte))

theorem Describes.congr {props props' : List (String × String)} {frame : H9frame}
    (h : Describes props frame)
    (hp : ∀ prop, prop ≠ "endpoint" → prop ≠ "origin" → props'.lookup prop = props.lookup prop) :
    Describes props' frame where
  priority := (hp _ (by decide) (by decide)).trans h.priority
  type := (hp _ (by decide) (by decide)).trans h.type
  seqnum := (hp _ (by decide) (by decide)).trans h.seqnum
  source := (hp _ (by decide) (by decide)).trans h.source
  destination := (hp _ (by decide) (by decide)).trans h.destination
  dlc := (hp _ (by decide) (by decide)).trans h.dlc
  data := (hp _ (by decide) (by decide)).trans h.data

theorem fillData_sent (frame : H9frame) :
    fillData (Vector.replicate 8 0) (frame.data.toList.take frame.dlc.toNat) = frame.sent.data := by
  ext i hi
  simp only [fillData, H9frame.sent, Vector.getElem_ofFn, List.getD_eq_getElem?_getD,
    List.getElem?_take]
  split_ifs with hlt <;> simp [hi, Vector.get_eq_getElem]

theorem sent_data_of_zero {frame : H9frame} (h : frame.dlc = 0) :
    frame.sent.data = Vector.replicate 8 0 := by
  ext i hi
  simp [H9frame.sent, h]

theorem get_frame_of_describes {msg : GenericMsg} {node : XmlElement} {frame : H9frame}
    (hroot : msg.get_msg_root = some node) (h : Describes node.props frame) (htype : frame.type < 64)
    (hdlc : frame.dlc ≤ 8) : get_frame msg = .ok frame.sent := by
  have hlen : (frame.data.toList.take frame.dlc.toNat).length ≤ 8 :=
    (List.length_take_le _ _).trans hdlc
  have hpriority (p : Priority) :
      (if (match p with | .HIGH => "H" | .LOW => "L").toList.head? = some 'H' ∨
          (match p with | .HIGH => "H" | .LOW => "L").toList.head? = some 'h' then .HIGH
        else Priority.LOW) = p := by
    cases p <;> rfl
  have htype' : ¬ 64 ≤ frame.type := by simpa using htype
  simp only [get_frame, requiredOfRoot_of_lookup hroot h.priority,
    requiredOfRoot_of_lookup hroot h.type, requiredOfRoot_of_lookup hroot h.seqnum,
    requiredOfRoot_of_lookup hroot h.source, requiredOfRoot_of_lookup hroot h.destination,
    requiredOfRoot_of_lookup hroot h.dlc, hroot, Option.bind_some, XmlElement.xmlGetProp, h.data,
    bind, Except.bind, ofInt_strtol_byte, hpriority, ofInt_strtol_bits (w := 5) (by decide),
    ofInt_strtol_bits (w := 9) (by decide), if_neg htype']
  by_cases hzero : frame.dlc = 0
  · simp only [if_pos hzero, if_neg (not_not.2 hzero), ← sent_data_of_zero hzero]
    rfl
  · simp only [if_neg hzero, dataBytes_join hlen, fillData_sent]
    rfl

section Written

variable (name : String) (frame : H9frame) (endpoint : String)

theorem frameElement_names : ((frameElement name frame endpoint).props.map Prod.fst).Sublist
    ["endpoint", "priority", "type", "seqnum", "source", "destination", "dlc", "data"] := by
  simp only [frameElement, List.map_append]
  split_ifs <;> simp

theorem describes_without_endpoint : Describes (frameElement name frame "").props frame := by
  constructor
  case priority => cases hpriority : frame.priority <;> simp [frameElement, hpriority]
  case data => split_ifs with hzero <;> simp [frameElement, List.lookup_cons, hzero]
  all_goals simp [frameElement, List.lookup_cons]

theorem describes_frameElement : Describes (frameElement name frame endpoint).props frame := by
  refine (describes_without_endpoint name frame).congr fun prop hprop _ => ?_
  by_cases he : endpoint = ""
  · rw [he]
  · simp [frameElement, he, List.lookup_cons, beq_eq_false_iff_ne.2 hprop]

theorem describes_origin (origin : String) :
    Describes ((frameElement name frame endpoint).xmlNewProp "origin" origin).props frame := by
  refine (describes_frameElement name frame endpoint).congr fun prop _ hprop => ?_
  simp [XmlElement.xmlNewProp, List.lookup_append, List.lookup_cons, beq_eq_false_iff_ne.2 hprop]

theorem lookup_endpoint (h : endpoint ≠ "") :
    (frameElement name frame endpoint).props.lookup "endpoint" = some endpoint := by
  simp [frameElement, h]

theorem lookup_origin (origin : String) :
    ((frameElement name frame endpoint).xmlNewProp "origin" origin).props.lookup "origin" =
      some origin := by
  have hnone : (frameElement name frame endpoint).props.lookup "origin" = none := by
    refine List.lookup_eq_none_iff.2 fun prop hprop => ?_
    have hmem := (frameElement_names name frame endpoint).subset (List.mem_map_of_mem hprop)
    have hne : "origin" ≠ prop.1 := by
      rintro heq
      rw [← heq] at hmem
      exact absurd hmem (by decide)
    exact bne_iff_ne.2 hne
  simp [XmlElement.xmlNewProp, List.lookup_append, hnone]

end Written

section Carried

theorem xmlText_of_isAlphanum {s : String} (h : s.toList.all Char.isAlphanum = true) : XmlText s := by
  intro c hc
  have hbounds := isAlphanum_bounds (List.all_eq_true.1 h c hc)
  exact .inr (.inr (.inr ⟨by omega, by omega, by omega⟩))

theorem xmlText_toString (n : ℕ) : XmlText (toString n) := by
  refine xmlText_of_isAlphanum (List.all_eq_true.2 fun c hc => ?_)
  have hmem : c ∈ Nat.toDigits 10 n := by simpa using hc
  have hdigit : c.isDigit = true := Nat.isDigit_of_mem_toDigits (by decide) (by decide) hmem
  simp [Char.isAlphanum, hdigit]

theorem xmlText_hexBytes (bs : List UInt8) : XmlText (String.join (bs.map hexByte)) :=
  xmlText_of_isAlphanum (List.all_eq_true.2 fun _ hc => hexDigit_isAlphanum (hexDigit_hexBytes hc))

theorem xmlText_frameElement {name : String} {frame : H9frame} {endpoint : String}
    (h : XmlText endpoint) : ∀ prop ∈ (frameElement name frame endpoint).props, XmlText prop.2 := by
  have hpriority : ∀ p : Priority, XmlText (match p with | .HIGH => "H" | .LOW => "L") := by
    rintro (_ | _) <;> exact xmlText_of_isAlphanum (by decide)
  simp only [frameElement, List.forall_mem_append, List.forall_mem_cons]
  refine ⟨⟨?_, hpriority _, xmlText_toString _, xmlText_toString _, xmlText_toString _,
    xmlText_toString _, xmlText_toString _, by simp⟩, ?_⟩
  · split_ifs
    · simp
    · simpa using h
  · split_ifs
    · simp
    · simpa only [List.forall_mem_singleton] using xmlText_hexBytes _

theorem carried_create {node : XmlElement} (hflat : node.children = []) (hname : XmlName node.name)
    (hnames : ∀ name ∈ node.props.map Prod.fst, XmlName name)
    (hdistinct : (node.props.map Prod.fst).Nodup) (htexts : ∀ prop ∈ node.props, XmlText prop.2)
    (id : UInt64) : ((create node).set_id id).Carried := by
  have hmsg : (create node).set_id id =
      ⟨"h9", [("version", "0.0"), ("id", toString id.toNat)], [node.toNode]⟩ := by
    simp [set_id, create, XmlElement.xmlSetProp, XmlElement.setProp]
  have htags : ((create node).set_id id).tags =
      [("h9", [("version", "0.0"), ("id", toString id.toNat)]), (node.name, node.props)] := by
    rw [hmsg]
    rfl
  have hh9 : XmlName "h9" ∧ ∀ name ∈ ["version", "id"], XmlName name := by decide
  constructor
  · rw [hmsg]
    simp [XmlElement.elements, XmlNode.element?, XmlElement.toNode, hflat]
  · rw [htags, List.forall_mem_cons, List.forall_mem_singleton]
    exact ⟨⟨hh9.1, by simpa using hh9.2⟩, hname, fun prop hprop =>
      hnames _ (List.mem_map_of_mem hprop)⟩
  · rw [htags, List.forall_mem_cons, List.forall_mem_singleton]
    exact ⟨by simp, hdistinct⟩
  · rw [htags, List.forall_mem_cons, List.forall_mem_singleton, List.forall_mem_cons,
      List.forall_mem_singleton]
    exact ⟨⟨by decide, xmlText_toString _⟩, htexts⟩

theorem carried_frame {node : XmlElement} (hflat : node.children = [])
    (hname : XmlName node.name) (hsub : (node.props.map Prod.fst).Sublist ["endpoint", "priority",
      "type", "seqnum", "source", "destination", "dlc", "data", "origin"])
    (htexts : ∀ prop ∈ node.props, XmlText prop.2) (id : UInt64) :
    ((create node).set_id id).Carried := by
  have hnames : ∀ name ∈ ["endpoint", "priority", "type", "seqnum", "source", "destination", "dlc",
      "data", "origin"], XmlName name := by decide
  exact carried_create hflat hname (fun name h => hnames name (hsub.subset h))
    (hsub.nodup (by decide)) htexts id

theorem sendFrameMsg_carried (frame : H9frame) (id : UInt64) :
    ((SendFrameMsg frame).set_id id).Carried :=
  carried_frame rfl (show XmlName "sendframe" by decide)
    ((frameElement_names _ _ _).trans (by simp)) (xmlText_frameElement (by decide)) id

theorem frameMsg_carried (frame : H9frame) {origin endpoint : String} (horigin : XmlText origin)
    (hendpoint : XmlText endpoint) (id : UInt64) :
    ((FrameMsg frame origin endpoint).set_id id).Carried := by
  refine carried_frame rfl (show XmlName "frame" by decide) ?_ ?_ id
  · simp only [XmlElement.xmlNewProp, List.map_append]
    exact (frameElement_names _ _ _).append (List.Sublist.refl ["origin"])
  · simp only [XmlElement.xmlNewProp, List.forall_mem_append, List.forall_mem_singleton]
    exact ⟨xmlText_frameElement hendpoint, horigin⟩

end Carried

namespace Libxml2

variable {lib : Libxml2}

/-- The message that is read has the element that was written. -/
theorem RoundTrips.resent_root (hlib : lib.RoundTrips) {msg : GenericMsg}
    (hmsg : XmlElement.Carried msg) {node : XmlElement} (hroot : msg.get_msg_root = some node) :
    ∃ msg', lib.resent msg = .ok msg' ∧ ∃ node', msg'.get_msg_root = some node' ∧
      node'.name = node.name ∧ node'.props = node.props := by
  obtain ⟨msg', hread, htags⟩ := hlib.read msg hmsg
  have htext : lib.serialize msg = lib.xmlDocDumpFormatMemory msg := by
    refine List.takeWhile_eq_self_iff.2 fun b hb => decide_eq_true ?_
    rintro rfl
    exact hlib.text msg hmsg hb
  have hmap := congrArg (fun tags => tags.tail.head?) htags
  simp only [XmlElement.tags, List.tail_cons, List.head?_map] at hmap
  rw [get_msg_root] at hroot
  rw [hroot] at hmap
  obtain ⟨node', hnode, heq⟩ := Option.map_eq_some_iff.1 hmap
  refine ⟨msg', ?_, node', hnode, congrArg Prod.fst heq, congrArg Prod.snd heq⟩
  rw [Libxml2.resent, htext, H9MsgSocket.parse, hread]

/-- The message that is read has the properties that were written. -/
theorem RoundTrips.resent (hlib : lib.RoundTrips) {msg : GenericMsg} (hmsg : XmlElement.Carried msg)
    {node : XmlElement} (hroot : msg.get_msg_root = some node) :
    ∃ msg', lib.resent msg = .ok msg' ∧
      ∃ node', msg'.get_msg_root = some node' ∧ node'.props = node.props := by
  obtain ⟨msg', hresent, node', hnode, -, hprops⟩ := hlib.resent_root hmsg hroot
  exact ⟨msg', hresent, node', hnode, hprops⟩

/-! ### Plain text -/

theorem zero_not_mem_utf8EncodeChar {c : Char} (h : c ≠ '\x00') : 0 ∉ String.utf8EncodeChar c := by
  have hpos : c.val.toNat ≠ 0 := fun heq => h (Char.ext (UInt32.toNat_inj.1 heq))
  have hbyte {n : ℕ} (hn : n ≠ 0) (hlt : n < 256) : (0 : UInt8) ≠ UInt8.ofNat n := by
    intro heq
    have := congrArg UInt8.toNat heq
    simp only [UInt8.toNat_zero, UInt8.toNat_ofNat'] at this
    omega
  unfold String.utf8EncodeChar
  simp only []
  split_ifs <;> simp only [List.mem_cons, List.not_mem_nil, or_false, not_or]
  · exact hbyte hpos (by omega)
  · exact ⟨hbyte (by omega) (by omega), hbyte (by omega) (by omega)⟩
  · exact ⟨hbyte (by omega) (by omega), hbyte (by omega) (by omega), hbyte (by omega) (by omega)⟩
  · exact ⟨hbyte (by omega) (by omega), hbyte (by omega) (by omega), hbyte (by omega) (by omega),
      hbyte (by omega) (by omega)⟩

theorem ofTag_toTag (tag : String × List (String × String)) : ofTag (toTag tag) = tag := by
  simp [ofTag, toTag, Function.comp_def]

theorem toTag_named {tag : String × List (String × String)}
    (h : XmlName tag.1 ∧ ∀ prop ∈ tag.2, XmlName prop.1) : (toTag tag).Named where
  name := List.all_eq_true.1 h.1.2.2
  attrs := by
    intro a ha
    obtain ⟨prop, hprop, rfl⟩ := List.mem_map.1 ha
    exact List.all_eq_true.1 (h.2 prop hprop).2.2

theorem tags_tree (root : Markup.Tag) (ts : List Markup.Tag) :
    (tree root ts).tags = ofTag root :: ts.map ofTag := by
  have hchildren : (ts.flatMap fun t =>
      [XmlNode.text "\n  ", .element (ofTag t).1 (ofTag t).2 []]).filterMap XmlNode.element? =
        ts.map fun t => ⟨(ofTag t).1, (ofTag t).2, []⟩ := by
    induction ts with
    | nil => rfl
    | cons t ts ih => simp [List.filterMap_cons, XmlNode.element?, ih]
  simp only [tree, XmlElement.tags, XmlElement.elements, List.filterMap_append, hchildren]
  split_ifs <;> simp [XmlNode.element?, Function.comp_def]

theorem plain_roundTrips : plain.RoundTrips := by
  have hnamed {doc : XmlDoc} (hdoc : doc.Carried) : ∀ t ∈ doc.tags.map toTag, t.Named :=
    List.forall_mem_map.2 fun tag htag => toTag_named (hdoc.names tag htag)
  constructor
  · intro doc hdoc hmem
    have hnul : ∀ t ∈ doc.tags.map toTag, ∀ a ∈ t.attrs, '\x00' ∉ a.2 :=
      List.forall_mem_map.2 fun tag htag => List.forall_mem_map.2 fun prop hprop hzero =>
        absurd (hdoc.texts tag htag prop hprop _ hzero) (by decide)
    obtain ⟨c, hc, hmem⟩ := List.mem_flatMap.1 hmem
    refine zero_not_mem_utf8EncodeChar ?_ hmem
    rintro rfl
    exact Markup.nul_not_mem_write (hnamed hdoc) hnul hc
  · intro doc hdoc
    have hread : Markup.read
        (Markup.write (toTag (doc.name, doc.props)) (doc.tags.tail.map toTag)) =
          some (toTag (doc.name, doc.props), doc.tags.tail.map toTag) :=
      Markup.read_write (hnamed hdoc _ List.mem_cons_self) fun t ht =>
        hnamed hdoc t (List.mem_cons_of_mem _ ht)
    have hdecode (cs : List Char) :
        (cs.flatMap String.utf8EncodeChar).toByteArray.utf8Decode? = some cs.toArray :=
      List.utf8Decode?_utf8Encode
    refine ⟨tree (toTag (doc.name, doc.props)) (doc.tags.tail.map toTag), ?_, ?_⟩
    · simp only [plain, hdecode, Option.bind_eq_bind, Option.bind_some, hread]
      rfl
    · rw [tags_tree, ofTag_toTag, List.map_map, Function.comp_def]
      simp only [ofTag_toTag, List.map_id']
      rfl

example : plain.serialize ((create ⟨"event", [("event", "reset")], []⟩).set_id 42) =
    ("<?xml version=\"1.0\"?>\n<h9 version=\"0.0\" id=\"42\">\n  <event event=\"reset\"/>\n" ++
      "</h9>\n").toList.flatMap String.utf8EncodeChar := by
  decide +kernel

/-! ### Frames -/

/-- A frame comes out of a message that was sent with it as it was, up to its `dlc` bytes, and so do
its origin and its endpoint. -/
theorem frame_resent (hlib : lib.RoundTrips) {frame : H9frame} (htype : frame.type < 32)
    (hdlc : frame.dlc ≤ 8) {origin endpoint : String} (horigin : XmlText origin)
    (hendpoint : XmlText endpoint) (id : UInt64) :
    (∃ msg, lib.resent ((SendFrameMsg frame).set_id id) = .ok msg ∧
      get_frame msg = .ok frame.sent) ∧
    ∃ msg, lib.resent ((FrameMsg frame origin endpoint).set_id id) = .ok msg ∧
      get_frame msg = .ok frame.sent ∧ get_origin msg = .ok origin ∧
        (endpoint ≠ "" → get_endpoint msg = .ok endpoint) := by
  have htype' : frame.type < 64 := UInt8.lt_trans htype (by decide)
  constructor
  · obtain ⟨msg, hmsg, node, hroot, hprops⟩ := hlib.resent (sendFrameMsg_carried frame id)
      (get_msg_root_set_id _ id)
    refine ⟨msg, hmsg, get_frame_of_describes hroot ?_ htype' hdlc⟩
    rw [hprops]
    exact describes_frameElement _ _ _
  · obtain ⟨msg, hmsg, node, hroot, hprops⟩ := hlib.resent
      (frameMsg_carried frame horigin hendpoint id) (get_msg_root_set_id _ id)
    refine ⟨msg, hmsg, get_frame_of_describes hroot ?_ htype' hdlc,
      requiredOfRoot_of_lookup hroot ?_, fun hne => requiredOfRoot_of_lookup hroot ?_⟩
    · rw [hprops]
      exact describes_origin _ _ _ _
    · rw [hprops]
      exact lookup_origin _ _ _ _
    · rw [hprops, XmlElement.xmlNewProp, List.lookup_append, lookup_endpoint _ _ _ hne]
      rfl

/-- A frame with three of its bytes in use. -/
theorem frame_resent_plain :
    let frame : H9frame := ⟨.HIGH, 24, 13, 0x1ff, 300, 3, #v[0x0a, 0xff, 0x2c, 7, 0, 0, 0, 0]⟩
    frame.sent.data = #v[0x0a, 0xff, 0x2c, 0, 0, 0, 0, 0] ∧
    (∃ msg, plain.resent ((SendFrameMsg frame).set_id 42) = .ok msg ∧
      get_frame msg = .ok frame.sent) ∧
    ∃ msg, plain.resent ((FrameMsg frame "h9d" "can0").set_id 42) = .ok msg ∧
      get_frame msg = .ok frame.sent ∧ get_origin msg = .ok "h9d" ∧
        ("can0" ≠ "" → get_endpoint msg = .ok "can0") := by
  intro frame
  exact ⟨by decide, frame_resent plain_roundTrips (by decide) (by decide) (by decide) (by decide) 42⟩

end Libxml2

end H9
