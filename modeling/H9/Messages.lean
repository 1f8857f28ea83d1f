import H9.DeviceMethods
import H9.EventMgr

/-!
# The messages that the programs send

The classes of messages (protocol/) build the element in the root of a document, and the programs put
values into it: the clients in the requests, h9bus (h9bus/eventmgr.cc) and h9d (h9d/executoradapter.cc,
h9d/executor.cc) in the responses.
-/

namespace H9

open GenericMsg

/-! ### Values -/

/-- A value, an array or a dictionary, as `ArrayValue` and `DictValue` (protocol/value.cc) add it. -/
inductive Content
  | value (name : Option String) (text : String)
  | array (name : Option String) (items : List Content)
  | dict (name : Option String) (items : List Content)

namespace Content

def nameProps : Option String → List (String × String)
  | some name => [("name", name)]
  | none => []

mutual

def node : Content → XmlNode
  | value name text => .element "value" (nameProps name) [.text text]
  | array name items => .element "array" (nameProps name) (nodes items)
  | dict name items => .element "dict" (nameProps name) (nodes items)

def nodes : List Content → List XmlNode
  | [] => []
  | c :: cs => node c :: nodes cs

end

end Content

/-! ### Requests -/

def IdentificationMsg (entity : String) : GenericMsg :=
  create ⟨"identification", [("entity", entity)], []⟩

/-- `SubscribeMsg::SubscribeMsg`, which writes the same for both contents. -/
def SubscribeMsg : GenericMsg := create ⟨"subscribe", [("content", "FRAME")], []⟩

def ExecuteMethodMsg (method_name : String) (values : List Content) : GenericMsg :=
  create ⟨"execute", [("method", method_name)], Content.nodes values⟩

/-- `ExecuteDeviceMethodMsg::ExecuteDeviceMethodMsg`: its base class is that of a device's response, so
that it builds the element of one. -/
def ExecuteDeviceMethodMsg (device_id : BitVec 16) (method_name : String) (values : List Content) :
    GenericMsg :=
  create ⟨"response", [("method", method_name), ("device-id", toString device_id.toNat)],
    Content.nodes values⟩

/-! ### Responses of h9d -/

namespace ExecutorAdapter

/-- The response to `h9d_stat`. -/
def h9d_stat (version : String) (uptime : ℤ) (connected_clients_count active_devices_count : ℕ) :
    GenericMsg :=
  let res := ((responseElement "h9d_stat").add_value "version" version).add_value "uptime"
    (toString uptime)
  let res := res.add_value "connected_clients_count" (toString connected_clients_count)
  create (res.add_value "active_devices_count" (toString active_devices_count))

/-- What `devices_list` says of a device. -/
def deviceElement (id : BitVec 16) (d : Device) : XmlElement :=
  let version := toString d.get_device_version_major.toNat ++ "." ++
    toString d.get_device_version_minor.toNat ++ "." ++ toString d.get_device_version_patch.toNat
  let desc := (⟨"dict", [], []⟩ : XmlElement).add_value "id" (toString id.toNat)
  let desc := desc.add_value "type" (toString d.device_type.toNat)
  (desc.add_value "version" version).add_value "name" d.device_name

/-- The response to `devices_list`. -/
def devices_list (m : DevMgr) : GenericMsg :=
  let devices := m.devices_map.toList.foldl
    (fun devices (it : BitVec 16 × Device) => devices.xmlAddChild (deviceElement it.1 it.2).toNode)
    (namedElement "array" "devices")
  create ((responseElement "devices_list").xmlAddChild devices.toNode)

/-- The response to `registers_list`. -/
def registers_list (dev_id : BitVec 16) (d : Device) : GenericMsg :=
  let registers := d.get_registers_list.foldl
    (fun registers it => registers.xmlAddChild (registerElement it).toNode)
    (namedElement "array" "registers")
  create ((deviceResponseElement dev_id "registers_list").xmlAddChild registers.toNode)

/-- The response with a register and its value. -/
def registerResponse (dev_id : BitVec 16) (method reg value : String) : GenericMsg :=
  create (((deviceResponseElement dev_id method).add_value "register" reg).add_value "value" value)

end ExecutorAdapter

/-- A message that one of the programs builds, with what it is built from. -/
inductive Built
  | identification (entity : String)
  | sendframe (f : H9frame)
  | frame (f : H9frame) (origin endpoint : String)
  | subscribe
  | execute_method (method_name : String) (values : List Content)
  | execute_device_method (device_id : BitVec 16) (method_name : String) (values : List Content)
  | error (code : ErrorNumber) (msg : String)
  /-- Of h9bus or h9d: `methods_list` and `events_list`. -/
  | list (method_name name : String) (values : List String)
  | response (method_name : String)
  | fault (method_name : String) (error_code : ℕ) (error_message : String)
  | h9bus_stat (host : Host) (uptime : ℤ) (bm : BusMgr) (s : Server)
  | h9d_stat (version : String) (uptime : ℤ) (connected_clients_count active_devices_count : ℕ)
  | devices_list (m : DevMgr)
  /-- Of a device: `methods_list` and `events_list`. -/
  | device_list (dev_id : BitVec 16) (method name : String) (values : List String)
  | registers_list (dev_id : BitVec 16) (d : Device)
  | register (dev_id : BitVec 16) (method reg value : String)
  | device_response (dev_id : BitVec 16) (method : String)
  | device_fault (dev_id : BitVec 16) (method : String) (error_code : ℕ) (error_message : String)
  | info (dev_id : BitVec 16) (d : Device)
  | register_change (node_id : BitVec 16) (f : H9frame)

def Built.msg : Built → GenericMsg
  | .identification entity => IdentificationMsg entity
  | .sendframe f => SendFrameMsg f
  | .frame f origin endpoint => FrameMsg f origin endpoint
  | .subscribe => SubscribeMsg
  | .execute_method method_name values => ExecuteMethodMsg method_name values
  | .execute_device_method device_id method_name values =>
    ExecuteDeviceMethodMsg device_id method_name values
  | .error code msg => ErrorMsg code msg
  | .list method_name name values => EventMgr.withArray method_name name values
  | .response method_name => MethodResponseMsg method_name
  | .fault method_name error_code error_message =>
    MethodResponseMsg.fault method_name error_code error_message
  | .h9bus_stat host uptime bm s => EventMgr.get_stat host uptime bm s
  | .h9d_stat version uptime connected_clients_count active_devices_count =>
    ExecutorAdapter.h9d_stat version uptime connected_clients_count active_devices_count
  | .devices_list m => ExecutorAdapter.devices_list m
  | .device_list dev_id method name values => ExecutorAdapter.withArray dev_id method name values
  | .registers_list dev_id d => ExecutorAdapter.registers_list dev_id d
  | .register dev_id method reg value => ExecutorAdapter.registerResponse dev_id method reg value
  | .device_response dev_id method => DeviceMethodResponseMsg dev_id method
  | .device_fault dev_id method error_code error_message =>
    DeviceMethodResponseMsg.fault dev_id method error_code error_message
  | .info dev_id d => Executor.info dev_id "info" d
  | .register_change node_id f => Device.register_change node_id f

/-- The message as it is sent: with its id, and with the id of the request that it answers, if it
answers one. -/
def GenericMsg.stamped (msg : GenericMsg) (id : UInt64) (request_id : Option UInt64) : GenericMsg :=
  (match request_id with
    | some request_id => msg.set_request_id request_id
    | none => msg).set_id id

end H9
