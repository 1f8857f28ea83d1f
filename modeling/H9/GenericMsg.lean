import H9.Exits
import H9.Frame
import H9.Lib.CText
import H9.Xml

/-!
# Messages

`GenericMsg` and the classes on top of it (protocol/): a message is a document, its type the name
of the first element in the root, and each class reads and writes properties of these two
elements. A reader throws when the property is missing.
-/

namespace H9

inductive MsgType
  | GENERIC
  | IDENTIFICATION
  | FRAME
  | SEND_FRAME
  | SUBSCRIBE
  | ERROR
  | EXECUTEMETHOD
  | METHODRESPONSE
  | EXECUTEDEVICEMETHOD
  | DEVICEMETHODRESPONSE
  | DEVICEEVENT
deriving DecidableEq, Repr

/-- A message whose document is there. -/
abbrev GenericMsg := XmlDoc

namespace GenericMsg

/-- The document of a new message of that type, `node` being the element in its root. -/
def create (node : XmlElement) : GenericMsg where
  name := "h9"
  props := [("version", "0.0"), ("id", "0")]
  children := [node.toNode]

def get_msg_root (msg : GenericMsg) : Option XmlElement := msg.elements.head?

/-- `GenericMsg::get_type`, whose assertion fails without an element in the root. -/
def get_type (msg : GenericMsg) : Except Exn MsgType :=
  match msg.get_msg_root with
  | none => .error .abort
  | some node =>
    if node.name = "identification" then .ok .IDENTIFICATION
    else if node.name = "frame" then .ok .FRAME
    else if node.name = "sendframe" then .ok .SEND_FRAME
    else if node.name = "subscribe" then .ok .SUBSCRIBE
    else if node.name = "error" then .ok .ERROR
    else if node.name = "execute" then
      .ok (if node.xmlHasProp "device-id" then .EXECUTEDEVICEMETHOD else .EXECUTEMETHOD)
    else if node.name = "response" then
      .ok (if node.xmlHasProp "device-id" then .DEVICEMETHODRESPONSE else .METHODRESPONSE)
    else if node.name = "event" then .ok .DEVICEEVENT
    else .ok .GENERIC

/-- A property that must be there. -/
def required (node : XmlElement) (prop : String) : Except Exn String :=
  match node.xmlGetProp prop with
  | some value => .ok value
  | none => .error (.invalidMsg ("missing '" ++ prop ++ "' property"))

/-- A property of the element in the root that must be there; `xmlGetProp` of no node is null. -/
def requiredOfRoot (msg : GenericMsg) (prop : String) : Except Exn String :=
  match msg.get_msg_root with
  | some node => required node prop
  | none => .error (.invalidMsg ("missing '" ++ prop ++ "' property"))

def get_id (msg : GenericMsg) : Except Exn UInt64 := do
  let tmp ← required msg "id"
  return CText.strtoull tmp.toList

def set_id (msg : GenericMsg) (id : UInt64) : GenericMsg :=
  msg.xmlSetProp "id" (toString id.toNat)

def get_request_id (msg : GenericMsg) : UInt64 :=
  match msg.xmlGetProp "request-id" with
  | some tmp => CText.strtoull tmp.toList
  | none => 0

def set_request_id (msg : GenericMsg) (id : UInt64) : GenericMsg :=
  msg.xmlSetProp "request-id" (toString id.toNat)

end GenericMsg

open GenericMsg

/-! ### Frames -/

/-- `%02hhX`. -/
def hexByte (b : UInt8) : String :=
  let digit (n : ℕ) : Char :=
    if n < 10 then Char.ofNat ('0'.toNat + n) else Char.ofNat ('A'.toNat + (n - 10))
  String.ofList [digit (b.toNat / 16), digit (b.toNat % 16)]

/-- `GenericFrameMsg::GenericFrameMsg`: the element of a frame. A frame has at most 8 bytes. -/
def frameElement (name : String) (frame : H9frame) (endpoint : String) : XmlElement where
  name := name
  props :=
    (if endpoint = "" then [] else [("endpoint", endpoint)]) ++
    [("priority", match frame.priority with | .HIGH => "H" | .LOW => "L"),
      ("type", toString frame.type.toNat),
      ("seqnum", toString frame.seqnum.toNat),
      ("source", toString frame.source_id.toNat),
      ("destination", toString frame.destination_id.toNat),
      ("dlc", toString frame.dlc.toNat)] ++
    (if frame.dlc = 0 then [] else
      [("data", String.join ((frame.data.toList.take frame.dlc.toNat).map hexByte))])
  children := []

def SendFrameMsg (frame : H9frame) : GenericMsg := create (frameElement "sendframe" frame "")

def FrameMsg (frame : H9frame) (origin endpoint : String) : GenericMsg :=
  create ((frameElement "frame" frame endpoint).xmlNewProp "origin" origin)

/-- The first bytes of a text in memory, at most `n` of them, as `strnlen` counts them. -/
def strnlenText (n : ℕ) (s : String) : List Char :=
  (((s.toList.flatMap String.utf8EncodeChar).takeWhile (· ≠ 0)).take n).map fun b =>
    Char.ofNat b.toNat

/-- The bytes of the property `data`, two digits each. -/
def dataBytes (tmp : List Char) : List UInt8 :=
  match tmp with
  | a :: b :: rest => UInt8.ofInt (CText.strtol 16 [a, b]) :: dataBytes rest
  | _ => []

/-- `data` with `bs` at its start. -/
def fillData (data : Vector UInt8 8) (bs : List UInt8) : Vector UInt8 8 :=
  Vector.ofFn fun i => bs.getD i (data.get i)

/-- `GenericFrameMsg::get_frame`. -/
def get_frame (msg : GenericMsg) : Except Exn H9frame := do
  let priority ← requiredOfRoot msg "priority"
  let type ← requiredOfRoot msg "type"
  let type := UInt8.ofInt (CText.strtol 10 type.toList)
  -- `set_type_from_underlying`
  if 64 ≤ type then throw .abort
  let seqnum ← requiredOfRoot msg "seqnum"
  let source ← requiredOfRoot msg "source"
  let destination ← requiredOfRoot msg "destination"
  let dlc ← requiredOfRoot msg "dlc"
  let frame : H9frame := {
    priority := if priority.toList.head? = some 'H' ∨ priority.toList.head? = some 'h' then .HIGH
      else .LOW
    type := type
    seqnum := BitVec.ofInt 5 (CText.strtol 10 seqnum.toList)
    source_id := BitVec.ofInt 9 (CText.strtol 10 source.toList)
    destination_id := BitVec.ofInt 9 (CText.strtol 10 destination.toList)
    dlc := UInt8.ofInt (CText.strtol 10 dlc.toList)
    data := Vector.replicate 8 0 }
  match msg.get_msg_root.bind (·.xmlGetProp "data") with
  | some tmp => return { frame with data := fillData frame.data (dataBytes (strnlenText 16 tmp)) }
  | none =>
    if frame.dlc ≠ 0 then throw (.invalidMsg "'dlc' and 'data' mismatch")
    return frame

/-! ### Values -/

namespace XmlElement

/-- `Value::get_name`. -/
def get_name (e : XmlElement) : String := (e.xmlGetProp "name").getD ""

/-- `Value::get_value_as_str`. -/
def get_value_as_str (e : XmlElement) : Except Exn String :=
  match e.children with
  | .text content :: _ => .ok content
  | _ => .error (.invalid_argument e.get_name)

/-- `Value::get_value_as_int`. -/
def get_value_as_int (e : XmlElement) : Except Exn ℤ :=
  match e.children with
  | .text content :: _ =>
    match CText.stoi 10 content.toList with
    | .ok n => .ok n
    | .error .invalid_argument => .error (.invalid_argument "stoi")
    | .error .out_of_range => .error (.out_of_range "stoi")
  | _ => .error (.invalid_argument e.get_name)

/-- `Value::operator[]`. -/
def value (e : XmlElement) (name : String) : Except Exn XmlElement :=
  match e.elements.find? fun node => node.xmlGetProp "name" = some name with
  | some node => .ok node
  | none => .error (.out_of_range name)

/-- `DictValue::add_value`. -/
def add_value (e : XmlElement) (name value : String) : XmlElement :=
  e.xmlNewTextChild "value" value [("name", name)]

/-- `ArrayValue::add_value`. -/
def add_item (e : XmlElement) (value : String) : XmlElement := e.xmlNewTextChild "value" value []

end XmlElement

/-- An array or a dictionary with a name, as `DictValue::add_array` and `add_dict` add it. -/
def namedElement (kind name : String) : XmlElement := ⟨kind, [("name", name)], []⟩

/-! ### Methods, identification and errors -/

def get_method_name (msg : GenericMsg) : Except Exn String := requiredOfRoot msg "method"

def get_entity (msg : GenericMsg) : Except Exn String := requiredOfRoot msg "entity"

/-- `ExecuteDeviceMethodMsg::get_device_id`. -/
def get_device_id (msg : GenericMsg) : Except Exn (BitVec 16) := do
  let tmp ← requiredOfRoot msg "device-id"
  return BitVec.ofInt 16 (CText.strtol 10 tmp.toList)

/-- `GenericMethod::operator[]`. -/
def parameter (msg : GenericMsg) (name : String) : Except Exn XmlElement :=
  match msg.get_msg_root with
  | some node => node.value name
  | none => .error .undefined

inductive ErrorNumber
  | GENERIC
  | INVALID_MESSAGE_SCHEMA
  | UNSUPPORTED_MESSAGE_TYPE
  | UNSUPPORTED_METHOD
  | INVALID_PARAMETERS
  | INVALID_DEVICE
  | UNSUPPORTED_DEVICE_METHOD
  | UNSUPPORTED_EVENT
deriving DecidableEq, Repr

namespace ErrorNumber

def code : ErrorNumber → ℕ
  | GENERIC => 1
  | INVALID_MESSAGE_SCHEMA => 2
  | UNSUPPORTED_MESSAGE_TYPE => 3
  | UNSUPPORTED_METHOD => 4
  | INVALID_PARAMETERS => 5
  | INVALID_DEVICE => 6
  | UNSUPPORTED_DEVICE_METHOD => 7
  | UNSUPPORTED_EVENT => 8

/-- `ErrorMsg::errnum_to_string`. -/
def errnum_to_string : ErrorNumber → String
  | GENERIC => "GENERIC"
  | INVALID_MESSAGE_SCHEMA => "INVALID_MESSAGE_SCHEMA"
  | UNSUPPORTED_MESSAGE_TYPE => "UNSUPPORTED_MESSAGE_TYPE"
  | UNSUPPORTED_METHOD => "UNSUPPORTED_METHOD"
  | INVALID_PARAMETERS => "INVALID_PARAMETERS"
  | INVALID_DEVICE => "INVALID_DEVICE"
  | UNSUPPORTED_DEVICE_METHOD => "UNSUPPORTED_DEVICE_METHOD"
  | UNSUPPORTED_EVENT => "UNSUPPORTED_EVENT"

end ErrorNumber

def ErrorMsg (code : ErrorNumber) (msg : String) : GenericMsg :=
  create ⟨"error", [("code", toString code.code), ("name", code.errnum_to_string),
    ("message", msg)], []⟩

/-- The element of a response to a method, `MethodResponseMsg::MethodResponseMsg`. -/
def responseElement (method_name : String) : XmlElement := ⟨"response", [("method", method_name)], []⟩

def MethodResponseMsg (method_name : String) : GenericMsg := create (responseElement method_name)

def faultElement (error_code : ℕ) (error_message : String) : XmlElement :=
  ⟨"error", [("code", toString error_code), ("message", error_message)], []⟩

def MethodResponseMsg.fault (method_name : String) (error_code : ℕ) (error_message : String) :
    GenericMsg :=
  create ((responseElement method_name).xmlAddChild (faultElement error_code error_message).toNode)

end H9
