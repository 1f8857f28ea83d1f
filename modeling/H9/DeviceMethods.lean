import H9.Node
import H9.Subscriptions

/-!
# The methods of a device

`ExecutorAdapter::execute_device_method` (h9d/executoradapter.cc) answers a call of a method of a
device: lists, the subscriptions, and what `Executor::execute_device_method` does with the node. The
replies are built as one class of messages and sent as what their documents say.
-/

namespace H9

open Prog GenericMsg

/-! ### Times -/

namespace CTime

/-- Year, month and day of a day counted from 1970-01-01, in the Gregorian calendar. -/
def civil (day : ℤ) : ℤ × ℤ × ℤ :=
  let z := day + 719468
  let era := z / 146097
  let doe := z % 146097
  let yoe := (doe - doe / 1460 + doe / 36524 - doe / 146096) / 365
  let doy := doe - (365 * yoe + yoe / 4 - yoe / 100)
  let mp := (5 * doy + 2) / 153
  let month := if mp < 10 then mp + 3 else mp - 9
  (yoe + era * 400 + (if month ≤ 2 then 1 else 0), month, doy - (153 * mp + 2) / 5 + 1)

def twoDigits (n : ℤ) : String := if n < 10 then "0" ++ toString n else toString n

/-- `strftime` of the `gmtime` with the format `%FT%TZ`. -/
def strftime (t : ℤ) : String :=
  let (year, month, day) := civil (t / 86400)
  let s := t % 86400
  toString year ++ "-" ++ twoDigits month ++ "-" ++ twoDigits day ++ "T" ++ twoDigits (s / 3600) ++
    ":" ++ twoDigits (s % 3600 / 60) ++ ":" ++ twoDigits (s % 60) ++ "Z"

example : strftime 1467307589 = "2016-06-30T17:26:29Z" := by decide +kernel

end CTime

/-! ### The devices -/

namespace Device

def get_events_list (_ : Device) : List String := ["register_change"]

def get_registers_list (d : Device) : List RegisterDesc := d.register_map.toList.map Prod.snd

/-- `get_device_specific_methods`, of which an antenna switch has its own. -/
def get_device_specific_methods (d : Device) : List String :=
  if d.device_type = 5 then ["select_antenna", "get_selected_antenna"] else []

/-- `execute_device_specific_method`, without the value that nobody reads. -/
def execute_device_specific_method (d : Device) (bus : Bus) (method_name : String) (x : Exchange) :
    Except Exn Unit × Bus :=
  if d.device_type = 5 ∧ method_name = "get_selected_antenna" then
    let ((ret, _), bus) := d.get_register bus 10 x
    (if ret = 1 then .ok () else .error .abort, bus)
  else (.error .abort, bus)

def get_device_version_major (d : Device) : UInt16 := (d.device_version >>> 32).toUInt16

def get_device_version_minor (d : Device) : UInt16 := (d.device_version >>> 16).toUInt16

def get_device_version_patch (d : Device) : UInt16 := d.device_version.toUInt16

end Device

namespace DevMgr

/-- A call of a device, or `dflt` without the device. -/
def withDevice {α : Type} (m : DevMgr) (dev_id : BitVec 16) (dflt : α) (f : Device → α) : α :=
  match m.devices_map[dev_id]? with
  | some d => f d
  | none => dflt

def get_events_list (m : DevMgr) (dev_id : BitVec 16) : List String :=
  m.withDevice dev_id [] Device.get_events_list

def get_registers_list (m : DevMgr) (dev_id : BitVec 16) : List RegisterDesc :=
  m.withDevice dev_id [] Device.get_registers_list

def get_device_specific_methods (m : DevMgr) (dev_id : BitVec 16) : List String :=
  m.withDevice dev_id [] Device.get_device_specific_methods

/-- A call of a device that talks to its node, or `dflt` without the device. -/
def converse {α : Type} (dev_id : BitVec 16) (dflt : α) (f : Device → Bus → α × Bus) :
    Prog DevMgr Exn α := do
  let m ← get
  match m.devices_map[dev_id]? with
  | some d =>
    set { m with bus := (f d m.bus).2 }
    return (f d m.bus).1
  | none => return dflt

def execute_device_specific_method (dev_id : BitVec 16) (method_name : String) (x : Exchange) :
    Prog DevMgr Exn Unit := do
  lift (← converse dev_id (.error .abort) fun d bus =>
    d.execute_device_specific_method bus method_name x)

def get_device_register (dev_id : BitVec 16) (reg : UInt8) (x : Exchange) :
    Prog DevMgr Exn (ℤ × Option ℤ) :=
  converse dev_id (-1, none) fun d bus => d.get_register bus reg x

def set_device_register (dev_id : BitVec 16) (reg : UInt8) (value : ℤ) (x : Exchange) :
    Prog DevMgr Exn (ℤ × Option ℕ) :=
  converse dev_id (-1, none) fun d bus => d.set_register bus reg value x

def device_reset (dev_id : BitVec 16) (x : Exchange) : Prog DevMgr Exn ℤ :=
  converse dev_id (-1) fun d bus => Node.reset bus d.node_id x

end DevMgr

/-! ### Responses -/

/-- The element of `DeviceMethodResponseMsg::DeviceMethodResponseMsg`. -/
def deviceResponseElement (device_id : BitVec 16) (method_name : String) : XmlElement :=
  ⟨"response", [("method", method_name), ("device-id", toString device_id.toNat)], []⟩

def DeviceMethodResponseMsg (device_id : BitVec 16) (method_name : String) : GenericMsg :=
  create (deviceResponseElement device_id method_name)

def DeviceMethodResponseMsg.fault (device_id : BitVec 16) (method_name : String) (error_code : ℕ)
    (error_message : String) : GenericMsg :=
  create ((deviceResponseElement device_id method_name).xmlAddChild
    (faultElement error_code error_message).toNode)

namespace Executor

def get_device_methods_list (m : DevMgr) (dev_id : BitVec 16) : List String :=
  ["set_register", "get_register", "reset", "info"] ++ m.get_device_specific_methods dev_id

def has_device_specific_method (m : DevMgr) (dev_id : BitVec 16) (method_name : String) : Bool :=
  (get_device_methods_list m dev_id).contains method_name

/-- `exedevcmsg[name].get_value_as_int()`. -/
def int_parameter (exedevcmsg : GenericMsg) (name : String) : Except Exn ℤ :=
  parameter exedevcmsg name >>= XmlElement.get_value_as_int

/-- The answer with the register and its value, or that none came. -/
def register_response (device_id : BitVec 16) (method_name : String) (exedevcmsg : GenericMsg)
    (ret : ℤ) (value : String) : Except Exn GenericMsg := do
  if ret < 0 then return DeviceMethodResponseMsg.fault device_id method_name 102 "Timeout"
  let res := deviceResponseElement device_id method_name
  let res := res.add_value "register" (toString (← int_parameter exedevcmsg "register"))
  return create (res.add_value "value" value)

/-- The response to `info`. -/
def info (device_id : BitVec 16) (method_name : String) (d : Device) : GenericMsg :=
  let version := toString d.get_device_version_major.toNat ++ "." ++
    toString d.get_device_version_minor.toNat ++ "." ++ toString d.get_device_version_patch.toNat
  let res := (deviceResponseElement device_id method_name).add_value "id" (toString device_id.toNat)
  let res := res.add_value "type" (toString d.device_type.toNat)
  let res := (res.add_value "version" version).add_value "name" d.device_name
  let res := res.add_value "created_time" (CTime.strftime d.created_time)
  let res := res.add_value "last_seen_time" (CTime.strftime d.last_seen_time)
  create (res.add_value "description" d.device_description)

/-- `Executor::execute_device_method`. The order in which the two parameters of `set_register` are
read is the compiler's. -/
def execute_device_method (device_id : BitVec 16) (method_name : String) (exedevcmsg : GenericMsg)
    (x : Exchange) : Prog DevMgr Exn GenericMsg := do
  if method_name = "set_register" then
    let reg ← lift (int_parameter exedevcmsg "register")
    let value ← lift (int_parameter exedevcmsg "value")
    let (ret, setted) ← DevMgr.set_device_register device_id (UInt8.ofInt reg) value x
    lift (register_response device_id method_name exedevcmsg ret (toString (setted.getD 0)))
  else if method_name = "get_register" then
    let reg ← lift (int_parameter exedevcmsg "register")
    let (ret, buf) ← DevMgr.get_device_register device_id (UInt8.ofInt reg) x
    lift (register_response device_id method_name exedevcmsg ret (toString (buf.getD 0)))
  else if method_name = "reset" then
    if (← DevMgr.device_reset device_id x) < 0 then
      return DeviceMethodResponseMsg.fault device_id method_name 102 "Timeout"
    return DeviceMethodResponseMsg device_id method_name
  else if method_name = "info" then
    return (← get).withDevice device_id
      (DeviceMethodResponseMsg.fault device_id method_name 102 "Timeout")
      (info device_id method_name)
  else
    DevMgr.execute_device_specific_method device_id method_name x
    return DeviceMethodResponseMsg device_id method_name

end Executor

namespace ExecutorAdapter

/-- `res` with an array of that name and those values. -/
def withArray (dev_id : BitVec 16) (method name : String) (values : List String) : GenericMsg :=
  let array := values.foldl XmlElement.add_item (namedElement "array" name)
  create ((deviceResponseElement dev_id method).xmlAddChild array.toNode)

/-- A bool as `std::to_string` writes it. -/
def boolText (b : Bool) : String := if b then "1" else "0"

/-- What `registers_list` says of a register. -/
def registerElement (it : RegisterDesc) : XmlElement :=
  let desc := (⟨"dict", [], []⟩ : XmlElement).add_value "register" (toString it.number.toNat)
  let desc := (desc.add_value "name" it.name).add_value "type" it.type
  let desc := desc.add_value "size" (toString it.size)
  let desc := desc.add_value "readable" (boolText it.readable)
  let desc := desc.add_value "writable" (boolText it.writable)
  let desc := desc.add_value "description" it.description
  if it.bits_names = [] then desc
  else desc.xmlAddChild
    (it.bits_names.foldl XmlElement.add_item (namedElement "array" "bits_names")).toNode

/-- The methods of `execute_device_method` but those that subscribe. -/
def execute_other_method (dev_id : BitVec 16) (method : String) (exedevcmsg : GenericMsg)
    (x : Exchange) : Prog DevMgr Exn GenericMsg := do
  let m ← get
  if method = "methods_list" then
    return withArray dev_id method "methods" (["methods_list", "events_list", "registers_list",
      "subscribe", "unsubscribe", "reset"] ++ Executor.get_device_methods_list m dev_id)
  else if method = "events_list" then
    return withArray dev_id method "events" (m.get_events_list dev_id)
  else if method = "registers_list" then
    let registers := (m.get_registers_list dev_id).foldl
      (fun registers it => registers.xmlAddChild (registerElement it).toNode)
      (namedElement "array" "registers")
    return create ((deviceResponseElement dev_id method).xmlAddChild registers.toNode)
  else if Executor.has_device_specific_method m dev_id method then
    tryCatch (Executor.execute_device_method dev_id method exedevcmsg x) fun
      | .out_of_range _ => return ErrorMsg .INVALID_PARAMETERS "Missing parameters"
      | .invalid_argument _ => return ErrorMsg .INVALID_PARAMETERS "Invalid parameters"
      | e => throw e
  else
    return ErrorMsg .UNSUPPORTED_DEVICE_METHOD
      ("Unsupported device (id: " ++ toString dev_id.toNat ++ ") method: " ++ method)

/-- The whole of `execute_device_method` for the client `c`: the reply, and what becomes of the
client's list and of the device manager. The device manager returns no error to `subscribe` and
`unsubscribe`. -/
def device_method_reply (c : ℕ) (exedevcmsg : GenericMsg) (x : Exchange) :
    Prog (ExecutorAdapter × DevMgr) Exn GenericMsg := do
  let (_, m) ← get
  match ← lift (execute_device_method m exedevcmsg) with
  | .answer msg => return msg
  | .attach dev_id event =>
    modifyFst fun a => { a.attach_device_event_observer dev_id event with phase := a.phase }
    onSnd (modify fun m => m.attach_event_observer c event dev_id)
    return (MethodResponseMsg "subscribe").set_request_id (← lift (get_id exedevcmsg))
  | .detach dev_id event =>
    modifyFst fun a => { a.detach_device_event_observer dev_id event with phase := a.phase }
    onSnd (modify fun m => m.detach_event_observer c event dev_id)
    return (MethodResponseMsg "unsubscribe").set_request_id (← lift (get_id exedevcmsg))
  | .other =>
    let dev_id ← lift (get_device_id exedevcmsg)
    let method ← lift (get_method_name exedevcmsg)
    let res ← onSnd (execute_other_method dev_id method exedevcmsg x)
    return res.set_request_id (← lift (get_id exedevcmsg))

end ExecutorAdapter

end H9
