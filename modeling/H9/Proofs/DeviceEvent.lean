import H9.Proofs.FrameMsg
import H9.Proofs.RegisterValues

/-!
# Events of registers through the text of a message

An event that a device tells of is an element with three values in it. What is read of the text has
the same elements, between blanks, so a reader of it is told what the event itself says: the id of
the device up to 8 bits, and the numbers that an `int` can hold.
-/

namespace H9

open GenericMsg H9frame

/-! ### Trees that are read -/

namespace XmlNode

/-- Between the elements that are read are blanks, but no texts. -/
theorem not_reread_text {s : String} {ns ns' : List XmlNode} : ¬ Reread (.text s :: ns) ns' := by
  intro h
  generalize hns : XmlNode.text s :: ns = ms at h
  induction h with
  | blank _ _ ih => exact ih hns
  | nil => cases hns
  | leaf _ _ => cases hns
  | value _ _ => cases hns
  | branch _ _ _ _ => cases hns

theorem Reread.append_blank {s : String} (hs : ∀ c ∈ s.toList, c = '\n' ∨ c = ' ')
    {ns ns' : List XmlNode} (h : Reread ns ns') : Reread ns (ns' ++ [.text s]) := by
  induction h with
  | nil => exact .blank hs .nil
  | blank hb _ ih => exact .blank hb ih
  | leaf _ ih => exact .leaf ih
  | value _ ih => exact .value ih
  | branch hcs _ _ ih => exact .branch hcs ih

end XmlNode

/-- The element that is read is the one that was written. -/
structure XmlElement.Kept (e e' : XmlElement) : Prop where
  name : e'.name = e.name
  props : e'.props = e.props
  children : XmlNode.Reread e.children e'.children ∨
    ∃ s, e.children = [.text s] ∧ e'.children = [.text s]

open XmlNode XmlElement

theorem XmlNode.Reread.elements {ns ns' : List XmlNode} (h : Reread ns ns') :
    List.Forall₂ Kept (ns.filterMap element?) (ns'.filterMap element?) := by
  induction h with
  | nil => exact .nil
  | blank _ _ ih => exact ih
  | leaf _ ih => exact .cons ⟨rfl, rfl, .inl .nil⟩ ih
  | @value _ _ s _ _ _ ih => exact .cons ⟨rfl, rfl, .inr ⟨s, rfl, rfl⟩⟩ ih
  | branch hcs _ _ ih => exact .cons ⟨rfl, rfl, .inl hcs⟩ ih

/-- The blanks can be left out. -/
theorem XmlNode.Reread.without_blanks {ns ns' : List XmlNode} (h : Reread ns ns') :
    Reread ns ((ns'.filterMap element?).map toNode) := by
  induction h with
  | nil => exact .nil
  | blank _ _ ih => exact ih
  | leaf _ ih => exact .leaf ih
  | value _ ih => exact .value ih
  | branch hcs _ _ ih => exact .branch hcs ih

namespace XmlElement

theorem Kept.of_reread {e e' : XmlElement} (h : Reread [e.toNode] [e'.toNode]) : e.Kept e' := by
  have helements := h.elements
  simp only [toNode, List.filterMap_cons, element?, List.filterMap_nil, List.forall₂_cons,
    List.forall₂_nil_right_iff, and_true] at helements
  exact helements

theorem Kept.elements {e e' : XmlElement} (h : e.Kept e') :
    List.Forall₂ Kept e.elements e'.elements := by
  rcases h.children with hread | ⟨s, hs, hs'⟩
  · exact hread.elements
  · simp [XmlElement.elements, hs, hs', element?]

/-- A value that is found is found in what was read. -/
theorem find?_kept (name : String) {es es' : List XmlElement} (h : List.Forall₂ Kept es es')
    {e : XmlElement} (hfind : es.find? (fun node => node.xmlGetProp "name" = some name) = some e) :
    ∃ e', es'.find? (fun node => node.xmlGetProp "name" = some name) = some e' ∧ e.Kept e' := by
  induction h with
  | nil => cases hfind
  | @cons a b es es' hab _ ih =>
    have hprop : b.xmlGetProp "name" = a.xmlGetProp "name" := by
      rw [xmlGetProp, xmlGetProp, hab.props]
    rw [List.find?_cons] at hfind ⊢
    rw [hprop]
    split at hfind
    · obtain rfl := Option.some.inj hfind
      exact ⟨b, by simp_all, hab⟩
    · obtain ⟨e', he', hkept⟩ := ih hfind
      exact ⟨e', by simp_all, hkept⟩

theorem Kept.get_value_as_int {e e' : XmlElement} (h : e.Kept e') {s : String}
    (hs : e.children = [.text s]) : e'.get_value_as_int = e.get_value_as_int := by
  have hs' : e'.children = [.text s] := by
    rcases h.children with hread | ⟨s', hs', hread⟩
    · rw [hs] at hread
      exact absurd hread not_reread_text
    · rw [hread, ← hs', hs]
  simp only [XmlElement.get_value_as_int, hs, hs']

end XmlElement

namespace Libxml2

variable {lib : Libxml2}

theorem KeepsTrees.resent (hlib : lib.KeepsTrees) {msg : GenericMsg} (hmsg : Layered [msg.toNode]) :
    ∃ msg', lib.resent msg = .ok msg' ∧ XmlElement.Kept msg msg' := by
  obtain ⟨msg', hread, hkept⟩ := hlib.read msg hmsg
  have htext : lib.serialize msg = lib.xmlDocDumpFormatMemory msg := by
    refine List.takeWhile_eq_self_iff.2 fun b hb => decide_eq_true ?_
    rintro rfl
    exact hlib.text msg hmsg hb
  refine ⟨msg', ?_, .of_reread hkept⟩
  rw [Libxml2.resent, htext, H9MsgSocket.parse, hread]

/-! ### Formatted text -/

theorem blank_newline (depth : ℕ) :
    ∀ c ∈ (String.ofList (Markup.Forest.newline depth)).toList, c = '\n' ∨ c = ' ' := by
  simp [Markup.Forest.newline]

theorem addNode_branch {name : String} {props : List (String × String)} {cs : List XmlNode}
    (hne : cs ≠ []) (hcs : Layered cs) (f : Markup.Forest) :
    addNode f (.element name props cs) = .branch (toTag (name, props)) (forest cs) f := by
  cases hcs with
  | nil => exact absurd rfl hne
  | leaf _ _ => simp [addNode]
  | value _ _ _ _ => simp [addNode]
  | branch _ _ _ _ => simp [addNode]

theorem forest_ne_nil {cs : List XmlNode} (hne : cs ≠ []) (hcs : Layered cs) :
    forest cs ≠ .nil := by
  cases hcs with
  | nil => exact absurd rfl hne
  | leaf _ _ => simp [forest, addNode]
  | value _ _ _ _ => simp [forest, addNode]
  | branch _ hcs' hlayered _ => simp [forest, addNode_branch hcs' hlayered]

theorem toTag_name_ne_nil {name : String} {props : List (String × String)} (h : XmlTag name props) :
    (toTag (name, props)).name ≠ [] := by
  intro hnil
  have hhead := h.names.1.2.1
  simp only [toTag] at hnil
  simp [hnil] at hhead

theorem nul_not_mem_props {name : String} {props : List (String × String)} (h : XmlTag name props) :
    ∀ text ∈ (toTag (name, props)).attrs.map Prod.snd, '\x00' ∉ text := by
  intro text htext hnul
  simp only [toTag, List.map_map, List.mem_map, Function.comp_apply] at htext
  obtain ⟨prop, hprop, rfl⟩ := htext
  exact absurd (h.texts prop hprop _ hnul) (by decide)

theorem proper_forest {ns : List XmlNode} (h : Layered ns) : (forest ns).Proper := by
  induction h with
  | nil => exact .nil
  | leaf htag _ ih => exact .leaf (toTag_named htag.names) (toTag_name_ne_nil htag) ih
  | value htag _ _ _ ih => exact .leaf (toTag_named htag.names) (toTag_name_ne_nil htag) ih
  | branch htag hne hcs _ ihc ih =>
    rw [forest, addNode_branch hne hcs]
    exact .branch (toTag_named htag.names) (toTag_name_ne_nil htag) (forest_ne_nil hne hcs) ihc ih

theorem nul_not_mem_texts {ns : List XmlNode} (h : Layered ns) :
    ∀ text ∈ (forest ns).texts, '\x00' ∉ text := by
  induction h with
  | nil => simp [forest, Markup.Forest.texts]
  | leaf htag _ ih =>
    simp only [forest, addNode, Markup.Forest.texts, List.forall_mem_cons, List.forall_mem_append]
    exact ⟨by simp, nul_not_mem_props htag, ih⟩
  | value htag _ htext _ ih =>
    simp only [forest, addNode, Markup.Forest.texts, List.forall_mem_cons, List.forall_mem_append]
    exact ⟨fun hnul => absurd (htext _ hnul) (by decide), nul_not_mem_props htag, ih⟩
  | branch htag hne hcs _ ihc ih =>
    rw [forest, addNode_branch hne hcs]
    simp only [Markup.Forest.texts, List.forall_mem_append]
    exact ⟨nul_not_mem_props htag, ihc, ih⟩

theorem reread_spaced {ns : List XmlNode} (h : Layered ns) :
    ∀ depth, Reread ns (spaced depth (forest ns)) := by
  induction h with
  | nil => exact fun _ => .nil
  | leaf _ _ ih =>
    intro depth
    simp only [forest, addNode, spaced, ofTag_toTag, if_true]
    exact .blank (blank_newline depth) (.leaf (ih depth))
  | @value _ _ s _ _ hs _ _ ih =>
    intro depth
    have hne : s.toList ≠ [] := by simpa using hs
    simp only [forest, addNode, spaced, ofTag_toTag, if_neg hne, String.ofList_toList]
    exact .blank (blank_newline depth) (.value (ih depth))
  | branch _ hne hcs _ ihc ih =>
    intro depth
    rw [forest, addNode_branch hne hcs]
    simp only [spaced, ofTag_toTag]
    exact .blank (blank_newline depth)
      (.branch ((ihc (depth + 1)).append_blank (blank_newline depth)) (ih depth))

theorem formatted_keepsTrees : formatted.KeepsTrees := by
  constructor
  · intro doc hdoc hmem
    obtain ⟨c, hc, hmem⟩ := List.mem_flatMap.1 hmem
    refine zero_not_mem_utf8EncodeChar ?_ hmem
    rintro rfl
    exact Markup.nul_not_mem_writeDoc (proper_forest hdoc) (nul_not_mem_texts hdoc) hc
  · intro doc hdoc
    have hread := Markup.readDoc_writeDoc (proper_forest hdoc)
    have hdecode (cs : List Char) :
        (cs.flatMap String.utf8EncodeChar).toByteArray.utf8Decode? = some cs.toArray :=
      List.utf8Decode?_utf8Encode
    obtain ⟨doc', hdoc'⟩ : ∃ doc', (spaced 0 (forest [doc.toNode])).filterMap element? = [doc'] := by
      have helements := (reread_spaced hdoc 0).elements
      obtain ⟨doc', _, -, hnil, hlist⟩ := List.forall₂_cons_left_iff.1 helements
      rw [List.forall₂_nil_left_iff.1 hnil] at hlist
      exact ⟨doc', hlist⟩
    refine ⟨doc', ?_, ?_⟩
    · simp only [formatted, hdecode, Option.bind_eq_bind, Option.bind_some, hread, hdoc']
      rfl
    · have hreread := (reread_spaced hdoc 0).without_blanks
      rwa [hdoc'] at hreread

example : formatted.serialize (create ((⟨"event", [("device-id", "32")], []⟩ : XmlElement).add_value
    "value" "5")) = ("<?xml version=\"1.0\"?>\n<h9 version=\"0.0\" id=\"0\">\n" ++
      "  <event device-id=\"32\">\n    <value name=\"value\">5</value>\n  </event>\n" ++
        "</h9>\n").toList.flatMap String.utf8EncodeChar := by
  decide +kernel

end Libxml2

/-! ### Numbers -/

/-- A number is read as an `int`, or it is too large for one. -/
theorem get_value_as_int_toString {e : XmlElement} {n : ℕ} (h : e.children = [.text (toString n)]) :
    e.get_value_as_int = .ok (n : ℤ) ↔ n < 2 ^ 31 := by
  rw [XmlElement.get_value_as_int, h]
  simp only [CText.stoi_repr]
  split_ifs with hn
  · exact ⟨fun _ => hn, fun _ => rfl⟩
  · exact ⟨fun herror => (by cases herror), fun hlt => absurd hlt hn⟩

/-! ### What an event says -/

/-- `event[name].get_value_as_int()`. -/
def DeviceEvent.int_value (msg : GenericMsg) (name : String) : Except Exn ℤ :=
  DeviceEvent.value msg name >>= XmlElement.get_value_as_int

/-- A reader of the event is told of the frame. -/
structure EventSays (frame : H9frame) (msg : GenericMsg) : Prop where
  type : get_type msg = .ok .DEVICEEVENT
  device_id : DeviceEvent.get_device_id msg = .ok frame.node
  register_id : DeviceEvent.int_value msg "register_id" = .ok ((frame.data.get 0).toNat : ℤ)
  value_len : DeviceEvent.int_value msg "value_len" = .ok ((frame.dlc.toNat : ℤ) - 1)
  value : DeviceEvent.int_value msg "value" = .ok (bigEndian frame.register_bytes : ℤ)

section Events

variable {msg msg' : GenericMsg} {node : XmlElement}

theorem root_kept (h : Kept msg msg') (hroot : msg.get_msg_root = some node) :
    ∃ node', msg'.get_msg_root = some node' ∧ node.Kept node' := by
  obtain ⟨nodes, hnodes⟩ := List.head?_eq_some_iff.1 hroot
  have helements := h.elements
  rw [hnodes] at helements
  obtain ⟨node', nodes', hkept, -, hnodes'⟩ := List.forall₂_cons_left_iff.1 helements
  exact ⟨node', by rw [get_msg_root, hnodes']; rfl, hkept⟩

/-- A number that was put into a message is read from its text, if an `int` holds it. -/
theorem int_value_resent (h : Kept msg msg') (hroot : msg.get_msg_root = some node) {name : String}
    {value : XmlElement} (hvalue : node.value name = .ok value) {n : ℕ}
    (hn : value.children = [.text (toString n)]) :
    DeviceEvent.int_value msg' name = .ok (n : ℤ) ↔ n < 2 ^ 31 := by
  obtain ⟨node', hroot', hnode⟩ := root_kept h hroot
  have hfound : node.elements.find? (fun e => e.xmlGetProp "name" = some name) = some value := by
    unfold XmlElement.value at hvalue
    split at hvalue
    · rename_i hfind
      rw [hfind, Except.ok.inj hvalue]
    · cases hvalue
  obtain ⟨value', hfound', hkept⟩ := find?_kept name hnode.elements hfound
  rw [DeviceEvent.int_value, DeviceEvent.value, parameter, hroot']
  simp only [XmlElement.value, hfound']
  exact (congrArg (· = Except.ok (n : ℤ)) (hkept.get_value_as_int hn)).to_iff.trans
    (get_value_as_int_toString hn)

end Events

section RegisterChange

/-- A value of the event, as text. -/
def valueElement (name : String) (n : ℕ) : XmlElement :=
  ⟨"value", [("name", name)], [.text (toString n)]⟩

/-- The element in the root of the event. -/
def changeElement (node_id : BitVec 16) (frame : H9frame) : XmlElement :=
  ⟨"event", [("device-id", toString node_id.toNat), ("event", "register_change")],
    [(valueElement "register_id" (frame.data.get 0).toNat).toNode,
      (valueElement "value_len" (frame.dlc.toNat - 1)).toNode,
      (valueElement "value" (Device.register_value frame).toNat).toNode]⟩

variable (node_id : BitVec 16) {frame : H9frame}

theorem register_change_eq (h : 1 ≤ frame.dlc) :
    Device.register_change node_id frame = create (changeElement node_id frame) := by
  have hlen : ((frame.dlc.toNat : ℤ) - 1) = ((frame.dlc.toNat - 1 : ℕ) : ℤ) := by
    have hle : 1 ≤ frame.dlc.toNat := UInt8.le_iff_toNat_le.1 h
    omega
  rw [Device.register_change, hlen]
  rfl

theorem layered_value {name : String} (hname : XmlText name) (n : ℕ) {ns : List XmlNode}
    (hns : Layered ns) : Layered ((valueElement name n).toNode :: ns) := by
  have hprops : XmlName "value" ∧ XmlName "name" := by decide
  have hne : toString n ≠ "" := by
    intro h
    have hnil := congrArg String.toList h
    simp [Nat.toDigits_ne_nil] at hnil
  have htag : XmlTag "value" [("name", name)] :=
    ⟨⟨hprops.1, by simpa using hprops.2⟩, by simp, by simpa using hname⟩
  exact .value htag hne (xmlText_toString n) hns

theorem layered_change (frame : H9frame) : Layered [(changeElement node_id frame).toNode] := by
  have hprops : XmlName "event" ∧ XmlName "device-id" := by decide
  have htexts : XmlText "register_change" ∧ XmlText "register_id" ∧ XmlText "value_len" ∧
      XmlText "value" := by decide
  have htag : XmlTag "event"
      [("device-id", toString node_id.toNat), ("event", "register_change")] :=
    ⟨⟨hprops.1, by simpa using ⟨hprops.2, hprops.1⟩⟩, by simp,
      by simpa using ⟨xmlText_toString _, htexts.1⟩⟩
  refine .branch htag (List.cons_ne_nil _ _) ?_ .nil
  exact layered_value htexts.2.1 _ (layered_value htexts.2.2.1 _ (layered_value htexts.2.2.2 _ .nil))

theorem layered_create {node : XmlElement} (h : Layered [node.toNode]) (id : UInt64) :
    Layered [((create node).set_id id).toNode] := by
  have hmsg : (create node).set_id id =
      ⟨"h9", [("version", "0.0"), ("id", toString id.toNat)], [node.toNode]⟩ := by
    simp [set_id, create, XmlElement.xmlSetProp, XmlElement.setProp]
  have hprops : XmlName "h9" ∧ XmlName "version" ∧ XmlName "id" := by decide
  have htext : XmlText "0.0" := by decide
  rw [hmsg]
  refine .branch ⟨⟨hprops.1, ?_⟩, by simp, ?_⟩ (by simp) h .nil
  · simpa using hprops.2
  · simpa using ⟨htext, xmlText_toString _⟩

/-- The id of a device is read up to its last 8 bits. -/
theorem get_device_id_resent {msg msg' : GenericMsg} {frame : H9frame} (h : Kept msg msg')
    (hroot : msg.get_msg_root = some (changeElement frame.node frame)) :
    DeviceEvent.get_device_id msg' = .ok frame.node ↔ frame.source_id.toNat < 256 := by
  obtain ⟨node', hroot', hnode⟩ := root_kept h hroot
  have hid : frame.node.toNat = frame.source_id.toNat := by
    simp [H9frame.node]
    omega
  have hlookup : node'.props.lookup "device-id" = some (toString frame.source_id.toNat) := by
    rw [hnode.props, changeElement, hid]
    rfl
  rw [DeviceEvent.get_device_id, requiredOfRoot_of_lookup hroot' hlookup]
  have hlt := frame.source_id.isLt
  have hbyte : (UInt8.ofInt (CText.strtol 10 (toString frame.source_id.toNat).toList)).toNat =
      frame.source_id.toNat % 256 := by
    rw [CText.strtol_repr (by omega), UInt8.ofInt, UInt8.toNat_ofNat']
    omega
  simp only [bind, Except.bind, pure, Except.pure, hbyte, Except.ok.injEq]
  rw [← BitVec.toNat_inj, hid, BitVec.toNat_ofNat]
  omega

/-- What the reader of an event is told, when the text is of the event. -/
theorem eventSays_iff {frame : H9frame} (hdlc : 1 ≤ frame.dlc ∧ frame.dlc ≤ 8) {id : UInt64}
    {msg' : GenericMsg} (h : Kept ((Device.register_change frame.node frame).set_id id) msg') :
    EventSays frame msg' ↔ frame.source_id.toNat < 256 ∧ bigEndian frame.register_bytes < 2 ^ 31 := by
  have hle : frame.dlc.toNat ≤ 8 := UInt8.le_iff_toNat_le.1 hdlc.2
  have hge : 1 ≤ frame.dlc.toNat := UInt8.le_iff_toNat_le.1 hdlc.1
  have hroot : ((Device.register_change frame.node frame).set_id id).get_msg_root =
      some (changeElement frame.node frame) := by
    rw [register_change_eq _ hdlc.1, get_msg_root_set_id, get_msg_root_create]
  have hvalue (name : String) (n : ℕ)
      (hfind : (changeElement frame.node frame).value name = .ok (valueElement name n)) :
      DeviceEvent.int_value msg' name = .ok (n : ℤ) ↔ n < 2 ^ 31 :=
    int_value_resent h hroot hfind rfl
  have hregister := hvalue "register_id" (frame.data.get 0).toNat rfl
  have hlen := hvalue "value_len" (frame.dlc.toNat - 1) rfl
  have hnumber := hvalue "value" (Device.register_value frame).toNat rfl
  have hbyte := (frame.data.get 0).toNat_lt
  have hcast : ((frame.dlc.toNat - 1 : ℕ) : ℤ) = (frame.dlc.toNat : ℤ) - 1 := by omega
  rw [register_value_toNat hdlc.2] at hnumber
  rw [hcast] at hlen
  constructor
  · intro hsays
    exact ⟨(get_device_id_resent h hroot).1 hsays.device_id, hnumber.1 hsays.value⟩
  · rintro ⟨hsource, hsmall⟩
    obtain ⟨node', hroot', hnode⟩ := root_kept h hroot
    refine ⟨?_, (get_device_id_resent h hroot).2 hsource, hregister.2 (by omega), hlen.2 (by omega),
      hnumber.2 hsmall⟩
    simp only [get_type, hroot', hnode.name, changeElement]
    rfl

end RegisterChange

/-- Who is told of a frame of a device gets the event of the register. -/
theorem Device.mem_update_device_state {d : Device} {frame : H9frame} (hnode : d.node_id = frame.node)
    {now : ℤ} {k : ℕ} {msg : GenericMsg} (h : (k, msg) ∈ (d.update_device_state frame now).2) :
    msg = Device.register_change frame.node frame := by
  unfold Device.update_device_state at h
  dsimp only at h
  split_ifs at h
  · obtain ⟨c, -, hc⟩ := List.mem_map.1 h
    rw [← hnode]
    exact (Prod.ext_iff.1 hc).2.symm
  · cases h

namespace Libxml2

variable {lib : Libxml2}

theorem resent_change (hlib : lib.KeepsTrees) {frame : H9frame} (hdlc : 1 ≤ frame.dlc) (id : UInt64) :
    ∃ msg', lib.resent ((Device.register_change frame.node frame).set_id id) = .ok msg' ∧
      Kept ((Device.register_change frame.node frame).set_id id) msg' := by
  refine hlib.resent ?_
  rw [register_change_eq _ hdlc]
  exact layered_create (layered_change _ _) id

/-- The event that is sent of a frame says to its reader what the frame says where the id of the node
has 8 bits and the value fits an `int`, and only there. -/
theorem device_event_resent_iff (hlib : lib.KeepsTrees) {d : Device} {frame : H9frame}
    (hnode : d.node_id = frame.node) (hdlc : 1 ≤ frame.dlc ∧ frame.dlc ≤ 8) {now : ℤ} {k : ℕ}
    {msg : GenericMsg} (hmsg : (k, msg) ∈ (d.update_device_state frame now).2) (id : UInt64) :
    (∃ msg', lib.resent (msg.set_id id) = .ok msg' ∧ EventSays frame msg') ↔
      frame.source_id.toNat < 256 ∧ bigEndian frame.register_bytes < 2 ^ 31 := by
  obtain ⟨msg', hresent, hkept⟩ := resent_change hlib hdlc.1 id
  rw [Device.mem_update_device_state hnode hmsg, hresent]
  constructor
  · rintro ⟨msg'', heq, hsays⟩
    rw [← Except.ok.inj heq] at hsays
    exact (eventSays_iff hdlc hkept).1 hsays
  · intro hcond
    exact ⟨msg', rfl, (eventSays_iff hdlc hkept).2 hcond⟩

/-- The device of a node, with a client that subscribes to its changes. -/
def observed (node_id : BitVec 16) : Device :=
  (Device.new ∅ 0 0 node_id 1 0).attach_event_observer 7 "register_change"

/-- Register 10 of the node `source_id` has the value 513. -/
def changed513 (source_id : BitVec 9) : H9frame :=
  { answer513 with type := REG_EXTERNALLY_CHANGED, source_id := source_id }

theorem mem_observed (source_id : BitVec 9) :
    (7, Device.register_change (source_id.setWidth 16) (changed513 source_id)) ∈
      ((observed (source_id.setWidth 16)).update_device_state (changed513 source_id) 0).2 := by
  have htype : (changed513 source_id).type = REG_EXTERNALLY_CHANGED := rfl
  have hmem : 7 ∈ (observed (source_id.setWidth 16)).observers "register_change" := by
    simp [observed, Device.attach_event_observer, Device.observers]
  rw [Device.update_device_state, if_pos (.inl htype)]
  exact List.mem_map.2 ⟨7, Std.TreeSet.mem_toList.2 hmem, rfl⟩

/-- The event of the node 32 is read as what the frame says. -/
theorem device_event_resent_513 : ∃ msg', formatted.resent
    ((Device.register_change 32 (changed513 32)).set_id 42) = .ok msg' ∧ EventSays (changed513 32) msg' :=
  (device_event_resent_iff formatted_keepsTrees (show (observed 32).node_id = (changed513 32).node from rfl)
    (by decide) (mem_observed 32) 42).2 (by decide)

/-- The node 300 is taken for the node 44. -/
theorem not_always_device_event_resent : ¬ ∀ (lib : Libxml2), lib.KeepsTrees → ∀ (d : Device)
    (frame : H9frame), d.node_id = frame.node → 1 ≤ frame.dlc ∧ frame.dlc ≤ 8 → ∀ (now : ℤ) (k : ℕ)
      (msg : GenericMsg), (k, msg) ∈ (d.update_device_state frame now).2 → ∀ id : UInt64,
        ∃ msg', lib.resent (msg.set_id id) = .ok msg' ∧ EventSays frame msg' := by
  intro h
  obtain ⟨msg', hresent, hsays⟩ := h formatted formatted_keepsTrees (observed 300) (changed513 300) rfl
    (by decide) 0 7 _ (mem_observed 300) 42
  have hdlc : 1 ≤ (changed513 300).dlc := by decide
  obtain ⟨msg'', hresent', hkept⟩ := resent_change formatted_keepsTrees hdlc 42
  have hsame : msg'' = msg' := Except.ok.inj (hresent'.symm.trans hresent)
  rw [hsame] at hkept
  exact absurd ((eventSays_iff (by decide) hkept).1 hsays).1 (by decide)

end Libxml2

end H9
