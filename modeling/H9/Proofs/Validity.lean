import H9.Proofs.DeviceMethods
import H9.Proofs.EventReplies
import H9.Proofs.FrameMsg

/-!
# Which messages are valid

The schema was written apart from the classes of messages. What they put into attributes it takes
(`nonNegativeInteger_toString`), of what they put into elements it takes less: no array or dictionary in
another one, and one value in a response (`valid_iff`).
-/

namespace H9

open Schema Prog GenericMsg

namespace Schema

/-! ### Texts -/

theorem isBlank_of_isDigit {c : Char} (h : c.isDigit = true) : isBlank c = false := by
  by_contra hblank
  rw [Bool.not_eq_false] at hblank
  have hspace := isspace_of_isBlank hblank
  rw [CText.not_isspace_of_isDigit h] at hspace
  exact Bool.noConfusion hspace

theorem collapse_eq {cs : List Char} (h : ∀ c ∈ cs, isBlank c = false) : collapse cs = cs := by
  have hdrop : cs.dropWhile isBlank = cs := by
    rcases cs with _ | ⟨c, cs⟩
    · rfl
    · exact List.dropWhile_cons_of_neg (by rw [h c List.mem_cons_self]; exact Bool.noConfusion)
  rw [collapse, hdrop]
  rcases List.eq_nil_or_concat cs with rfl | ⟨rest, c, rfl⟩
  · rfl
  · rw [List.concat_eq_append, List.rdropWhile_concat_neg]
    rw [h c (by simp)]
    exact Bool.noConfusion

/-- A number is written as the schema takes one. -/
theorem nonNegativeInteger_toString (n : ℕ) : nonNegativeInteger (toString n).toList = some n := by
  have hdigits : ∀ c ∈ Nat.toDigits 10 n, c.isDigit = true := fun c hc =>
    Nat.isDigit_of_mem_toDigits (by decide) (by decide) hc
  have hlist : (toString n).toList = Nat.toDigits 10 n := by simp
  have hany : (Nat.toDigits 10 n).any (fun c => !c.isDigit) = false := by
    rw [List.any_eq_false]
    intro c hc
    rw [hdigits c hc]
    decide
  have hvalue : CText.number 10 (CText.digits 10 (Nat.toDigits 10 n)) = n := by
    rw [CText.number_digits hdigits, Nat.ofDigitChars_ten_toDigits]
  have hempty : Nat.toDigits 10 n ≠ [] := Nat.toDigits_ne_nil
  rw [nonNegativeInteger, hlist, collapse_eq fun c hc => isBlank_of_isDigit (hdigits c hc),
    CText.sign_of_isDigit hdigits]
  simp [hany, hvalue, hempty]

theorem valid_hexBinary (bs : List UInt8) :
    SimpleType.hexBinary.valid (String.join (bs.map hexByte)) = true := by
  have hblank : ∀ c ∈ (String.join (bs.map hexByte)).toList, isBlank c = false := fun c hc => by
    by_contra hspace
    rw [Bool.not_eq_false] at hspace
    have hplain := (CText.hexDigit_plain (hexDigit_hexBytes hc)).1
    rw [isspace_of_isBlank hspace] at hplain
    exact Bool.noConfusion hplain
  rw [SimpleType.valid, collapse_eq hblank, length_hexBytes]
  simp only [Nat.mul_mod_right, decide_true, Bool.true_and, List.all_eq_true]
  intro c hc
  obtain ⟨d, hd⟩ := Option.ne_none_iff_exists'.1 (hexDigit_hexBytes hc)
  obtain ⟨hval, hlt⟩ := CText.hexDigit_eq_some.1 hd
  simpa [hval] using hlt

@[simp]
theorem valid_string (s : String) : SimpleType.string.valid s = true := rfl

@[simp]
theorem valid_repr (minInclusive : ℕ) (maxInclusive : Option ℕ) (n : ℕ) :
    (SimpleType.nonNegativeInteger minInclusive maxInclusive).valid n.repr =
      (minInclusive ≤ n && maxInclusive.all (n ≤ ·)) := by
  have hrepr : nonNegativeInteger n.repr.toList = some n := nonNegativeInteger_toString n
  rw [SimpleType.valid, hrepr]

/-! ### Documents -/

/-- With an id, a message is valid if the element in its root is, and the id of the request that it
answers is one. -/
theorem valid_stamped (node : XmlElement) {id : UInt64} (hid : 1 ≤ id) (request_id : Option UInt64) :
    valid ((create node).stamped id request_id) = true ↔
      message node = true ∧ ∀ r ∈ request_id, 1 ≤ r := by
  have hnumber (n : UInt64) : 1 ≤ n.toNat ∧ n.toNat ≤ 18446744073709551615 ↔ 1 ≤ n := by
    rw [UInt64.le_iff_toNat_le]
    exact and_iff_left (Nat.le_of_lt_succ n.toNat_lt)
  have hversion : (SimpleType.enumeration ["0.0"]).valid "0.0" = true := by decide
  have hchildren (props : List (String × String)) : valid ⟨"h9", props, [node.toNode]⟩ = true ↔
      message node = true ∧ attributes [⟨"version", .enumeration ["0.0"], true⟩, messageId "id" true,
        messageId "request-id" false] ⟨"h9", props, [node.toNode]⟩ = true := by
    rw [valid]
    simp [sequence, XmlElement.elements, XmlElement.toNode, XmlNode.element?, and_comm]
  rcases request_id with _ | r
  · refine (hchildren [("version", "0.0"), ("id", toString id.toNat)]).trans (and_congr_right' ?_)
    simp [attributes, messageId, hnumber, hid, hversion, XmlElement.xmlHasProp, XmlElement.xmlGetProp,
      List.lookup]
  · refine (hchildren [("version", "0.0"), ("id", toString id.toNat),
      ("request-id", toString r.toNat)]).trans (and_congr_right' ?_)
    simp [attributes, messageId, hnumber, hid, hversion, XmlElement.xmlHasProp, XmlElement.xmlGetProp,
      List.lookup]

section

variable {name : String} {props : List (String × String)}

theorem sequence_toNode (p : XmlElement → Bool) (es : List XmlElement) :
    sequence p ⟨name, props, es.map XmlElement.toNode⟩ = es.all p := by
  rw [sequence, List.all_map]
  rfl

theorem elements_toNode (es : List XmlElement) :
    (⟨name, props, es.map XmlElement.toNode⟩ : XmlElement).elements = es := by
  rw [XmlElement.elements, List.filterMap_map]
  exact List.filterMap_some

end

/-! ### Values -/

end Schema

namespace Content

/-- The element that `node` makes. -/
def element : Content → XmlElement
  | value name text => ⟨"value", nameProps name, [.text text]⟩
  | array name items => ⟨"array", nameProps name, nodes items⟩
  | dict name items => ⟨"dict", nameProps name, nodes items⟩

def isValue : Content → Bool
  | value .. => true
  | _ => false

/-- A value, or an array or a dictionary with values only. -/
def flat : Content → Bool
  | value .. => true
  | array _ items => items.all isValue
  | dict _ items => items.all isValue

theorem node_eq (c : Content) : c.node = c.element.toNode := by
  cases c <;> rw [node] <;> rfl

theorem nodes_eq : ∀ cs : List Content, nodes cs = (cs.map element).map XmlElement.toNode
  | [] => by rw [nodes]; rfl
  | c :: cs => by rw [nodes, nodes_eq cs, node_eq]; rfl

end Content

namespace Schema

open Content

theorem value_t_text (name : Option String) (text : String) :
    value_t ⟨"value", nameProps name, [.text text]⟩ = true := by
  cases name <;> simp [value_t, attributes, simpleContent, nameProps]

theorem array_t_toNode (kind : String) (name : Option String) (es : List XmlElement) :
    array_t ⟨kind, nameProps name, es.map XmlElement.toNode⟩ =
      es.all fun e => e.name = "value" && value_t e := by
  have hattrs (children : List XmlNode) :
      attributes [⟨"name", .string, false⟩] ⟨kind, nameProps name, children⟩ = true := by
    cases name <;> simp [attributes, nameProps]
  rw [array_t, hattrs, sequence_toNode, Bool.true_and]

theorem array_t_nodes (kind : String) (name : Option String) (items : List Content) :
    array_t ⟨kind, nameProps name, nodes items⟩ = items.all isValue := by
  rw [nodes_eq, array_t_toNode, List.all_map]
  refine congrArg items.all (funext fun c => ?_)
  cases c with
  | value name text => simpa [element, isValue] using value_t_text name text
  | array name items => rfl
  | dict name items => rfl

/-- The schema takes an array in no array, and takes a dictionary in none. -/
theorem valuegroup_element (c : Content) : valuegroup c.element = c.flat := by
  cases c with
  | value name text => exact value_t_text name text
  | array name items => exact array_t_nodes "array" name items
  | dict name items => exact array_t_nodes "dict" name items

/-! ### Methods -/

section

variable {name method_name : String} {children : List XmlNode} {device_id : BitVec 16}

theorem attributes_method : attributes [⟨"method", .string, true⟩, deviceId false]
    ⟨name, [("method", method_name)], children⟩ = true := by
  simp [attributes, deviceId, XmlElement.xmlHasProp, XmlElement.xmlGetProp, List.lookup]

theorem attributes_device_method : attributes [⟨"method", .string, true⟩, deviceId false]
    ⟨name, [("method", method_name), ("device-id", toString device_id.toNat)], children⟩ =
      (device_id.toNat ≤ 511 : Bool) := by
  simp [attributes, deviceId, XmlElement.xmlHasProp, XmlElement.xmlGetProp, List.lookup]

theorem message_execute (values : List Content) :
    message ⟨"execute", [("method", method_name)], nodes values⟩ = values.all flat := by
  have hmessage : message ⟨"execute", [("method", method_name)], nodes values⟩ =
      executemethod_t ⟨"execute", [("method", method_name)], nodes values⟩ := by simp [message]
  rw [hmessage, executemethod_t, attributes_method, nodes_eq, sequence_toNode, List.all_map,
    Bool.true_and]
  exact congrArg values.all (funext valuegroup_element)

/-- What may stand in a response. -/
def inResponse (e : XmlElement) : Bool := valuegroup e || e.name = "error" && error_t e

theorem message_response (es : List XmlElement) :
    message ⟨"response", [("method", method_name)], es.map XmlElement.toNode⟩ =
      (es.all inResponse && es.length ≤ 1) := by
  have hmessage (e : XmlElement) (he : e.name = "response") : message e = methodresponse_t e := by
    simp [message, he]
  rw [hmessage _ rfl, methodresponse_t, attributes_method, sequence_toNode, elements_toNode]
  rfl

theorem message_device_response (es : List XmlElement) : message ⟨"response", [("method", method_name),
    ("device-id", toString device_id.toNat)], es.map XmlElement.toNode⟩ =
      (device_id.toNat ≤ 511 && es.all inResponse && es.length ≤ 1) := by
  have hmessage (e : XmlElement) (he : e.name = "response") : message e = methodresponse_t e := by
    simp [message, he]
  rw [hmessage _ rfl, methodresponse_t, attributes_device_method, sequence_toNode, elements_toNode]
  rfl

end

theorem inResponse_element (c : Content) : inResponse c.element = c.flat := by
  have hname : c.element.name ≠ "error" := by cases c <;> simp [element]
  rw [inResponse, valuegroup_element]
  simp [hname]

theorem inResponse_array (name : String) (es : List XmlElement) :
    inResponse ⟨"array", [("name", name)], es.map XmlElement.toNode⟩ =
      es.all fun e => e.name = "value" && value_t e := by
  have harray := array_t_toNode "array" (some name) es
  rw [nameProps] at harray
  simp [inResponse, valuegroup, harray]

theorem inResponse_fault (error_code : ℕ) (error_message : String) :
    inResponse (faultElement error_code error_message) = (1 ≤ error_code : Bool) := by
  simp [inResponse, valuegroup, faultElement, error_t, attributes, empty, XmlElement.xmlHasProp,
    XmlElement.xmlGetProp, List.lookup]

theorem inResponse_values (name : String) (values : List String) :
    inResponse (values.foldl XmlElement.add_item (namedElement "array" name)) = true := by
  rw [ExecutorAdapter.foldl_add_item]
  have hvalues := inResponse_array name (values.map fun value => ⟨"value", [], [.text value]⟩)
  rw [List.map_map] at hvalues
  refine hvalues.trans (List.all_eq_true.2 fun e he => ?_)
  obtain ⟨value, -, rfl⟩ := List.mem_map.1 he
  exact value_t_text none value

/-- An array of dictionaries is taken only without one. -/
theorem inResponse_dicts {α : Type} {f : α → XmlElement} (hf : ∀ x, (f x).name = "dict") (name : String)
    (xs : List α) : inResponse (xs.foldl (fun e x => e.xmlAddChild (f x).toNode)
      (namedElement "array" name)) = xs.isEmpty := by
  rw [XmlElement.foldl_xmlAddChild]
  have hdicts := inResponse_array name (xs.map f)
  rw [List.map_map] at hdicts
  refine hdicts.trans ?_
  cases xs with
  | nil => rfl
  | cons x xs => simp [hf]

/-! ### Frames and events -/

theorem attributes_frame (name : String) (f : H9frame) (endpoint : String) (origin : Option String) :
    attributes (sendframeAttributes ++ origin.toList.map fun _ => ⟨"origin", .string, true⟩)
      { frameElement name f endpoint with
        props := (frameElement name f endpoint).props ++ origin.toList.map fun origin =>
          ("origin", origin) } =
          (f.type.toNat ≤ 31 && f.dlc.toNat ≤ 8 : Bool) := by
  have hseqnum : f.seqnum.toNat ≤ 31 := by omega
  have hsource : f.source_id.toNat ≤ 511 := by omega
  have hdestination : f.destination_id.toNat ≤ 511 := by omega
  have hhigh : (SimpleType.enumeration ["H", "h", "L", "l"]).valid "H" = true := by decide
  have hlow : (SimpleType.enumeration ["H", "h", "L", "l"]).valid "L" = true := by decide
  have hdata := valid_hexBinary (f.data.toList.take f.dlc.toNat)
  rw [frameElement]
  generalize String.join ((f.data.toList.take f.dlc.toNat).map hexByte) = data at hdata ⊢
  -- the endpoint, the bytes and the origin are there or not
  rcases origin with _ | origin <;> by_cases hendpoint : endpoint = "" <;>
    by_cases hdlc : f.dlc = 0 <;> cases f.priority <;>
    simp [attributes, sendframeAttributes, hhigh, hlow, hdata, hseqnum, hsource, hdestination,
      hendpoint, hdlc, XmlElement.xmlHasProp, XmlElement.xmlGetProp, List.lookup]

theorem message_sendframe (f : H9frame) : message (frameElement "sendframe" f "") =
    (f.type.toNat ≤ 31 && f.dlc.toNat ≤ 8 : Bool) := by
  have hmessage (e : XmlElement) (he : e.name = "sendframe") : message e = h9sendframe_t e := by
    simp [message, he]
  have hattrs := attributes_frame "sendframe" f "" none
  simp only [Option.toList_none, List.map_nil, List.append_nil] at hattrs
  rw [hmessage _ rfl, h9sendframe_t, hattrs]
  exact Bool.and_true _

theorem message_frame (f : H9frame) (origin endpoint : String) :
    message ((frameElement "frame" f endpoint).xmlNewProp "origin" origin) =
      (f.type.toNat ≤ 31 && f.dlc.toNat ≤ 8 : Bool) := by
  have hmessage (e : XmlElement) (he : e.name = "frame") : message e = h9frame_t e := by
    simp [message, he]
  have hattrs := attributes_frame "frame" f endpoint (some origin)
  rw [hmessage _ rfl, h9frame_t]
  exact (congrArg (· && true) hattrs).trans (Bool.and_true _)

theorem message_event (device_id : BitVec 16) (event_name : String) (values : List (String × String)) :
    message ⟨"event", [("device-id", toString device_id.toNat), ("event", event_name)],
      values.map fun value => .element "value" [("name", value.1)] [.text value.2]⟩ =
        (device_id.toNat ≤ 511 : Bool) := by
  have hmessage (e : XmlElement) (he : e.name = "event") : message e = deviceevent_t e := by
    simp [message, he]
  have hvalues : sequence valuegroup ⟨"event", [("device-id", toString device_id.toNat),
      ("event", event_name)], values.map fun value => .element "value" [("name", value.1)]
        [.text value.2]⟩ = true := by
    simp only [sequence, List.all_map, List.all_eq_true]
    exact fun value _ => value_t_text (some value.1) value.2
  rw [hmessage _ rfl, deviceevent_t, hvalues]
  simp [attributes, deviceId, XmlElement.xmlHasProp, XmlElement.xmlGetProp, List.lookup]

end Schema

/-! ### Messages -/

/-- What the schema takes of the messages: no call of another kind than a method's, flat values, and one
value or array of values in a response, as which the call of a device's method is built. -/
def Built.Conforms : Built → Prop
  | .identification _ | .error _ _ | .list _ _ _ | .response _ => True
  | .sendframe f | .frame f _ _ => f.type.toNat ≤ 31 ∧ f.dlc.toNat ≤ 8
  | .subscribe => False
  | .execute_method _ values => ∀ c ∈ values, c.flat = true
  | .execute_device_method device_id _ values =>
    device_id.toNat ≤ 511 ∧ (∀ c ∈ values, c.flat = true) ∧ values.length ≤ 1
  | .fault _ error_code _ => 1 ≤ error_code
  | .h9bus_stat _ _ _ _ | .h9d_stat _ _ _ _ | .register _ _ _ _ | .info _ _ => False
  | .devices_list m => m.devices_map.isEmpty = true
  | .device_list dev_id _ _ _ | .device_response dev_id _ | .register_change dev_id _ =>
    dev_id.toNat ≤ 511
  | .registers_list dev_id d => dev_id.toNat ≤ 511 ∧ d.get_registers_list = []
  | .device_fault dev_id _ error_code _ => dev_id.toNat ≤ 511 ∧ 1 ≤ error_code

/-- The frames in the messages are ones that the bus can carry. -/
def Built.WellFormed : Built → Prop
  | .sendframe f | .frame f _ _ => f.type.toNat ≤ 31 ∧ f.dlc.toNat ≤ 8
  | _ => True

namespace Schema

theorem name_registerElement (it : RegisterDesc) :
    (ExecutorAdapter.registerElement it).name = "dict" := by
  unfold ExecutorAdapter.registerElement
  dsimp only
  split <;> rfl

/-- A response with two elements is not taken. -/
theorem not_message_of_two {node : XmlElement} (hname : node.name = "response")
    (h : 1 < node.elements.length) : ¬ message node = true := by
  have hmessage : message node = methodresponse_t node := by simp [message, hname]
  rw [hmessage, methodresponse_t, Bool.and_eq_true, decide_eq_true_eq]
  exact fun hvalid => absurd hvalid.2 (Nat.not_le.2 h)

/-- What is in the root of a message, and when the schema takes it. -/
theorem root_of_built (b : Built) :
    ∃ node, b.msg = create node ∧ (message node = true ↔ b.Conforms) := by
  cases b with
  | identification entity =>
    refine ⟨_, rfl, ?_⟩
    simp [message, identification_t, attributes, empty, XmlElement.xmlHasProp, XmlElement.xmlGetProp,
      Built.Conforms]
  | sendframe f => exact ⟨_, rfl, by simp [message_sendframe, Built.Conforms]⟩
  | frame f origin endpoint => exact ⟨_, rfl, by simp [message_frame, Built.Conforms]⟩
  | subscribe => exact ⟨_, rfl, by simp [message, Built.Conforms]⟩
  | execute_method method_name values =>
    exact ⟨_, rfl, by rw [message_execute, List.all_eq_true, Built.Conforms]⟩
  | execute_device_method device_id method_name values =>
    refine ⟨⟨"response", [("method", method_name), ("device-id", toString device_id.toNat)],
      List.map XmlElement.toNode (values.map Content.element)⟩, ?_, ?_⟩
    · rw [← Content.nodes_eq]
      rfl
    · rw [message_device_response, List.all_map, List.length_map]
      simp [inResponse_element, Built.Conforms, and_assoc]
  | error code msg =>
    have hcode : 1 ≤ code.code := by cases code <;> decide
    refine ⟨_, rfl, ?_⟩
    simp [message, error_t, attributes, empty, hcode, XmlElement.xmlHasProp, XmlElement.xmlGetProp,
      List.lookup, Built.Conforms]
  | list method_name name values =>
    refine ⟨⟨"response", [("method", method_name)], List.map XmlElement.toNode
      [values.foldl XmlElement.add_item (namedElement "array" name)]⟩, rfl, ?_⟩
    rw [message_response]
    simp [inResponse_values, Built.Conforms]
  | response method_name =>
    refine ⟨⟨"response", [("method", method_name)], List.map XmlElement.toNode []⟩, rfl, ?_⟩
    rw [message_response]
    simp [Built.Conforms]
  | fault method_name error_code error_message =>
    refine ⟨⟨"response", [("method", method_name)], List.map XmlElement.toNode
      [faultElement error_code error_message]⟩, rfl, ?_⟩
    rw [message_response]
    simp [inResponse_fault, Built.Conforms]
  | h9bus_stat host uptime bm s =>
    exact ⟨_, rfl, iff_of_false (not_message_of_two rfl (by show 1 < 4; decide)) id⟩
  | h9d_stat version uptime connected_clients_count active_devices_count =>
    exact ⟨_, rfl, iff_of_false (not_message_of_two rfl (by show 1 < 4; decide)) id⟩
  | devices_list m =>
    refine ⟨⟨"response", [("method", "devices_list")], List.map XmlElement.toNode
      [m.devices_map.toList.foldl (fun devices (it : BitVec 16 × Device) => devices.xmlAddChild
        (ExecutorAdapter.deviceElement it.1 it.2).toNode) (namedElement "array" "devices")]⟩, rfl, ?_⟩
    have hdicts := inResponse_dicts (fun it : BitVec 16 × Device =>
      (rfl : (ExecutorAdapter.deviceElement it.1 it.2).name = "dict")) "devices" m.devices_map.toList
    rw [message_response, List.all_cons, hdicts]
    simp [Built.Conforms]
  | device_list dev_id method name values =>
    refine ⟨⟨"response", [("method", method), ("device-id", toString dev_id.toNat)],
      List.map XmlElement.toNode [values.foldl XmlElement.add_item (namedElement "array" name)]⟩,
      rfl, ?_⟩
    rw [message_device_response]
    simp [inResponse_values, Built.Conforms]
  | registers_list dev_id d =>
    refine ⟨⟨"response", [("method", "registers_list"), ("device-id", toString dev_id.toNat)],
      List.map XmlElement.toNode [d.get_registers_list.foldl (fun registers it =>
        registers.xmlAddChild (ExecutorAdapter.registerElement it).toNode)
        (namedElement "array" "registers")]⟩, rfl, ?_⟩
    rw [message_device_response, List.all_cons,
      inResponse_dicts name_registerElement "registers" d.get_registers_list]
    simp [Built.Conforms]
  | register dev_id method reg value =>
    exact ⟨_, rfl, iff_of_false (not_message_of_two rfl (by show 1 < 2; decide)) id⟩
  | device_response dev_id method =>
    refine ⟨⟨"response", [("method", method), ("device-id", toString dev_id.toNat)],
      List.map XmlElement.toNode []⟩, rfl, ?_⟩
    rw [message_device_response]
    simp [Built.Conforms]
  | device_fault dev_id method error_code error_message =>
    refine ⟨⟨"response", [("method", method), ("device-id", toString dev_id.toNat)],
      List.map XmlElement.toNode [faultElement error_code error_message]⟩, rfl, ?_⟩
    rw [message_device_response]
    simp [inResponse_fault, Built.Conforms]
  | info dev_id d =>
    exact ⟨_, rfl, iff_of_false (not_message_of_two rfl (by show 1 < 7; decide)) id⟩
  | register_change node_id f =>
    refine ⟨⟨"event", [("device-id", toString node_id.toNat), ("event", "register_change")],
      [("register_id", toString (f.data.get 0).toNat), ("value_len", toString ((f.dlc.toNat : ℤ) - 1)),
        ("value", toString (Device.register_value f).toNat)].map fun value : String × String =>
          .element "value" [("name", value.1)] [.text value.2]⟩, rfl, ?_⟩
    rw [message_event]
    simp [Built.Conforms]

/-- A message with an id is valid if and only if what it is built from is what the schema takes, and the
request that it answers has an id. -/
theorem valid_iff_conforms (b : Built) {id : UInt64} (hid : 1 ≤ id) (request_id : Option UInt64) :
    valid (b.msg.stamped id request_id) = true ↔ b.Conforms ∧ ∀ r ∈ request_id, 1 ≤ r := by
  obtain ⟨node, hmsg, hmessage⟩ := root_of_built b
  rw [hmsg, valid_stamped node hid, hmessage]

theorem valid_call_h9bus_stat :
    valid ((Built.execute_method "h9bus_stat" []).msg.stamped 1 none) = true :=
  (valid_iff_conforms (.execute_method "h9bus_stat" []) (by decide) none).2
    ⟨fun _ hc => absurd hc List.not_mem_nil, fun _ hr => (by cases hr)⟩

/-- The schema has no `subscribe`. -/
theorem not_always_valid : ¬ ∀ (b : Built) (id : UInt64) (request_id : Option UInt64), b.WellFormed →
    1 ≤ id → (∀ r ∈ request_id, 1 ≤ r) → valid (b.msg.stamped id request_id) = true := by
  intro h
  have hsubscribe := h .subscribe 1 none trivial (by decide) fun _ hr => (by cases hr)
  revert hsubscribe
  decide

end Schema

/-! ### The programs -/

/-- A reply of h9bus to the call of a method is one of the messages. -/
theorem EventMgr.built_of_called (host : Host) (uptime : ℤ) (bm : BusMgr) (s : Server) (c : TcpClient)
    (method_name : String) (ev : Except Exn String) :
    ∃ b : Built, (called host uptime bm s c method_name ev).2 = b.msg := by
  have hsubscribed (active : Bool) : ∃ b : Built, (subscribed method_name active c ev).2 = b.msg := by
    unfold subscribed
    split
    · split_ifs
      · exact ⟨.response method_name, rfl⟩
      · exact ⟨.fault "subscribe" 103 _, rfl⟩
    · exact ⟨.error .INVALID_PARAMETERS _, rfl⟩
    · exact ⟨.error .INVALID_PARAMETERS _, rfl⟩
  unfold called
  split_ifs
  · exact ⟨.list method_name _ _, rfl⟩
  · exact ⟨.h9bus_stat host uptime bm s, rfl⟩
  · exact ⟨.list method_name _ _, rfl⟩
  · exact hsubscribed true
  · exact hsubscribed false
  · exact ⟨.error .UNSUPPORTED_METHOD _, rfl⟩

/-- h9bus takes the request of a client if and only if the schema takes it. -/
theorem EventMgr.isSome_received {host : Host} {k : ℕ} {inbound : Inbound} {s : Server} {c : TcpClient}
    {h9socket : H9Socket} (hc : s.clients k = some c) (hsocket : c.h9socket = some h9socket)
    (b : Built) {id : UInt64} (hid : 1 ≤ id)
    (hrecv : (H9MsgSocket.recv host.xmlReadMemory h9socket inbound).1 =
      .ok (.msg (b.msg.stamped id none))) :
    (received host k inbound s).isSome = true ↔ b.Conforms := by
  obtain ⟨node, hmsg, hmessage⟩ := root_of_built b
  have hvalid := valid_stamped node hid none
  rw [← hmsg, hmessage] at hvalid
  have hreceived : received host k inbound s =
      if valid (b.msg.stamped id none) then some (b.msg.stamped id none) else none := by
    simp only [received, hc, hsocket, bind, Option.bind, hrecv]
  rw [hreceived]
  split_ifs with h
  · simpa using hvalid.1 h
  · simpa using fun hconforms => h (hvalid.2 ⟨hconforms, fun _ hr => (by cases hr)⟩)

namespace ExecutorAdapter

theorem OtherReply.built {dev_id : BitVec 16} {method : String} {d : Device} {res : GenericMsg}
    (h : OtherReply dev_id method d res) : ∃ b : Built, res = b.msg := by
  cases h with
  | list name values => exact ⟨.device_list dev_id method name values, rfl⟩
  | registers => exact ⟨.registers_list dev_id d, rfl⟩
  | register reg value => exact ⟨.register dev_id method reg value, rfl⟩
  | response => exact ⟨.device_response dev_id method, rfl⟩
  | fault => exact ⟨.device_fault dev_id method 102 "Timeout", rfl⟩
  | info => exact ⟨.info dev_id d, rfl⟩
  | invalid text => exact ⟨.error .INVALID_PARAMETERS text, rfl⟩
  | unsupported text _ => exact ⟨.error .UNSUPPORTED_DEVICE_METHOD text, rfl⟩

theorem built_of_refuse {exedevcmsg : GenericMsg} {code : ErrorNumber} {text : String}
    {call : DeviceCall} (h : refuse exedevcmsg code text = .ok call) :
    ∃ (b : Built) (id : UInt64), call = .answer (b.msg.set_request_id id) := by
  unfold refuse at h
  rcases hid : get_id exedevcmsg with e | id
  · rw [hid] at h
    cases h
  · rw [hid] at h
    obtain rfl := Except.ok.inj h
    exact ⟨.error code text, id, rfl⟩

variable {c : ℕ} {a : ExecutorAdapter} {m : DevMgr} {x : Exchange} {msg reply : GenericMsg}

theorem call_cases {call : DeviceCall} (h : execute_device_method m msg = .ok call) :
    (∃ (b : Built) (id : UInt64), call = .answer (b.msg.set_request_id id)) ∨
      (∃ dev_id event, call = .attach dev_id event ∨ call = .detach dev_id event) ∨
      call = .other ∧ ∃ dev_id method, get_device_id msg = .ok dev_id ∧
        get_method_name msg = .ok method ∧ Executor.is_device_exist m dev_id = true ∧
        method ≠ "subscribe" ∧ method ≠ "unsubscribe" := by
  rcases hdev : get_device_id msg with e | dev_id
  · simp [execute_device_method, hdev, bind, Except.bind] at h
  rcases hname : get_method_name msg with e | method
  · simp [execute_device_method, hdev, hname, bind, Except.bind] at h
  have hevent {f : String → DeviceCall} (h : event_call msg f = .ok call) :
      (∃ (b : Built) (id : UInt64), call = .answer (b.msg.set_request_id id)) ∨
        ∃ event, call = f event := by
    unfold event_call at h
    split at h
    · exact .inr ⟨_, (Except.ok.inj h).symm⟩
    · exact .inl (built_of_refuse h)
    · exact .inl (built_of_refuse h)
    · cases h
  simp only [execute_device_method, hdev, hname, bind, Except.bind] at h
  split_ifs at h with hexists hsub hunsub
  · exact .inl (built_of_refuse h)
  · rcases hevent h with hanswer | ⟨event, hcall⟩
    · exact .inl hanswer
    · exact .inr (.inl ⟨dev_id, event, .inl hcall⟩)
  · rcases hevent h with hanswer | ⟨event, hcall⟩
    · exact .inl hanswer
    · exact .inr (.inl ⟨dev_id, event, .inr hcall⟩)
  · refine .inr (.inr ⟨(Except.ok.inj h).symm, dev_id, method, rfl, rfl, ?_, hsub, hunsub⟩)
    exact Bool.not_eq_false _ ▸ hexists

/-- A reply of h9d to the call of a device's method is one of the messages. -/
theorem built_of_result (h : result c a m x msg = .ok reply) :
    ∃ (b : Built) (id : UInt64), reply = b.msg.set_request_id id := by
  unfold result device_method_reply at h
  rw [exec_bind, exec_get] at h
  dsimp only at h
  rw [exec_bind, exec_lift] at h
  rcases hcall : execute_device_method m msg with e | call
  · rw [hcall] at h
    cases h
  rw [hcall] at h
  obtain ⟨b, id, rfl⟩ | ⟨dev_id, event, rfl | rfl⟩ | ⟨rfl, dev_id, method, hdev, hname, hexists, hsub,
    hunsub⟩ := call_cases hcall
  · exact ⟨b, id, (Except.ok.inj h).symm⟩
  · simp only [exec_bind, exec_modifyFst, exec_onSnd, exec_modify, exec_lift] at h
    rcases hid : get_id msg with e | id
    · rw [hid] at h
      cases h
    · rw [hid] at h
      exact ⟨.response "subscribe", id, (Except.ok.inj h).symm⟩
  · simp only [exec_bind, exec_modifyFst, exec_onSnd, exec_modify, exec_lift] at h
    rcases hid : get_id msg with e | id
    · rw [hid] at h
      cases h
    · rw [hid] at h
      exact ⟨.response "unsubscribe", id, (Except.ok.inj h).symm⟩
  · obtain ⟨d, hd⟩ := device_of_exists hexists
    dsimp only at h
    rw [exec_bind, exec_lift, hdev] at h
    dsimp only at h
    rw [exec_bind, exec_lift, hname] at h
    dsimp only at h
    rw [exec_bind, exec_onSnd] at h
    rcases he : (execute_other_method dev_id method msg x).exec m with ⟨e | res, m'⟩
    · rw [he] at h
      cases h
    rw [he] at h
    dsimp only at h
    rw [exec_bind, exec_lift] at h
    obtain ⟨b, hb⟩ := (otherReply_of_other_method hd hsub hunsub (congrArg Prod.fst he)).built
    rcases hid : get_id msg with e | id
    · rw [hid] at h
      cases h
    · rw [hid] at h
      exact ⟨b, id, (Except.ok.inj h).symm.trans (congrArg (·.set_request_id id) hb)⟩

end ExecutorAdapter

end H9
