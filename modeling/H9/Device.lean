import H9.GenericMsg

/-!
# The devices

`Device` and `DevMgr` (h9d/): a node that announces itself gets a `Device`, which is built again
when it announces another type or version. The clients that subscribe an event of a device are
told of it. What goes out on the bus and to the clients is kept in the order it goes.
-/

namespace H9

namespace H9frame

def DISCOVER : UInt8 := 15
def REG_EXTERNALLY_CHANGED : UInt8 := 16
def REG_INTERNALLY_CHANGED : UInt8 := 17
def REG_VALUE_BROADCAST : UInt8 := 18
def NODE_INFO : UInt8 := 22
def NODE_TURNED_ON : UInt8 := 23

def BROADCAST_ID : BitVec 16 := 0x01ff

/-- Two bytes of the data as the number they make. -/
def word (frame : H9frame) (i : Fin 7) : UInt16 :=
  (frame.data.get i.castSucc).toUInt16 <<< 8 ||| (frame.data.get i.succ).toUInt16

end H9frame

/-! ### The bus, as the device manager uses it -/

/-- The numbers of the next frames of each source, and the frames given to `send_frame_sync`. -/
structure Bus where
  next_seqnum : BitVec 16 → UInt8
  sent : List H9frame

namespace Bus

def new : Bus where
  next_seqnum _ := 0
  sent := []

def INVALID_SOURCE_ID : ℤ := -3

/-- The number of the next frame, and the counter past it. -/
def get_next_seqnum (bus : Bus) (source_id : BitVec 16) : UInt8 × Bus :=
  let ret := bus.next_seqnum source_id
  (ret &&& 31, { bus with next_seqnum := Function.update bus.next_seqnum source_id (ret + 1) })

/-- The frame that `send_node_discover` hands to `send_frame_sync`, or what it returns instead. -/
def node_discover (priority : Priority) (seqnum : UInt8) (source destination : BitVec 16) :
    Except ℤ H9frame :=
  if source < 1 ∨ H9frame.BROADCAST_ID ≤ source then .error INVALID_SOURCE_ID
  else .ok { H9frame.new with
    priority := priority
    type := H9frame.DISCOVER
    seqnum := BitVec.ofNat 5 seqnum.toNat
    source_id := source.setWidth 9
    destination_id := destination.setWidth 9 }

def send_node_discover (bus : Bus) (priority : Priority) (seqnum : UInt8)
    (source destination : BitVec 16) : Bus :=
  match node_discover priority seqnum source destination with
  | .ok frame => { bus with sent := bus.sent ++ [frame] }
  | .error _ => bus

end Bus

/-! ### Devices -/

structure RegisterDesc where
  number : UInt8
  name : String
  type : String
  size : ℤ
  readable : Bool
  writable : Bool
  bits_names : List String
  description : String

structure DeviceDesc where
  name : String
  description : String
  registers : Std.TreeMap UInt16 RegisterDesc

/-- What the devices description file says of each type. -/
abbrev DeviceDescLoader := Std.TreeMap UInt16 DeviceDesc

namespace DeviceDescLoader

def get_device_name_by_type (loader : DeviceDescLoader) (type : UInt16) : String :=
  (loader.get? type).elim "" DeviceDesc.name

def get_device_description_by_type (loader : DeviceDescLoader) (type : UInt16) : String :=
  (loader.get? type).elim "" DeviceDesc.description

def get_device_register_by_type (loader : DeviceDescLoader) (type : UInt16) :
    Std.TreeMap UInt16 RegisterDesc :=
  (loader.get? type).elim ∅ DeviceDesc.registers

end DeviceDescLoader

/-- A client is the number of its `TCPClientThread`. -/
structure Device where
  /-- Which `new` made the object. -/
  addr : ℕ
  node_id : BitVec 16
  device_type : UInt16
  device_version : UInt64
  device_name : String
  device_description : String
  created_time : ℤ
  last_seen_time : ℤ
  register_map : Std.TreeMap UInt8 RegisterDesc
  event_observers : Std.TreeMap String (Std.TreeSet ℕ)

namespace Device

/-- The registers that every node has. -/
def defaultRegisters : List RegisterDesc :=
  [⟨1, "Node type", "uint", 16, true, false, [], ""⟩,
    ⟨2, "Node version", "uint", 48, true, false, [], ""⟩,
    ⟨3, "Build metadata", "char", 48, true, false, [], ""⟩,
    ⟨4, "Node id", "uint", 9, true, true, [], ""⟩,
    ⟨5, "MCU type", "uint", 8, true, false, [], ""⟩]

/-- `Device::Device`. -/
def new (loader : DeviceDescLoader) (now : ℤ) (addr : ℕ) (node_id : BitVec 16) (node_type : UInt16)
    (node_version : UInt64) : Device where
  addr := addr
  node_id := node_id
  device_type := node_type
  device_version := node_version
  device_name :=
    if loader.get_device_name_by_type node_type ≠ "" then loader.get_device_name_by_type node_type
    else "unknown"
  device_description :=
    if loader.get_device_name_by_type node_type ≠ "" then
      loader.get_device_description_by_type node_type
    else ""
  created_time := now
  last_seen_time := now
  register_map :=
    (loader.get_device_register_by_type node_type).foldl
      (fun regs number reg => regs.insert number.toUInt8 reg)
      (defaultRegisters.foldl (fun regs reg => regs.insert reg.number reg) ∅)
  event_observers := ∅

/-- `AntennaSwitch::AntennaSwitch`, whose version has 16 bits. -/
def newAntennaSwitch (loader : DeviceDescLoader) (now : ℤ) (addr : ℕ) (node_id : BitVec 16)
    (node_version : UInt16) : Device :=
  new loader now addr node_id 5 node_version.toUInt64

def buildDevice (loader : DeviceDescLoader) (now : ℤ) (addr : ℕ) (node_id : BitVec 16)
    (node_type : UInt16) (node_version : UInt64) : Device :=
  if node_type = 5 then newAntennaSwitch loader now addr node_id node_version.toUInt16
  else new loader now addr node_id node_type node_version

/-- `event_observers[event_name]`. -/
def observers (d : Device) (event_name : String) : Std.TreeSet ℕ :=
  d.event_observers.getD event_name ∅

def update_device_last_seen_time (d : Device) (now : ℤ) : Device := { d with last_seen_time := now }

def attach_event_observer (d : Device) (observer : ℕ) (event_name : String) : Device :=
  { d with event_observers :=
    d.event_observers.insert event_name ((d.observers event_name).insert observer) }

def detach_event_observer (d : Device) (observer : ℕ) (event_name : String) : Device :=
  { d with event_observers :=
    d.event_observers.insert event_name ((d.observers event_name).erase observer) }

/-- The calls of `send_msg`, one for each observer. -/
def notify_event_observer (d : Device) (event_name : String) (msg : GenericMsg) :
    List (ℕ × GenericMsg) :=
  (d.observers event_name).toList.map (·, msg)

/-- The element of an event, `DeviceEvent::DeviceEvent`. -/
def eventElement (device_id : BitVec 16) (event_name : String) : XmlElement :=
  ⟨"event", [("device-id", toString device_id.toNat), ("event", event_name)], []⟩

/-- The number in the bytes after the first. A frame has at most 8 bytes. -/
def register_value (frame : H9frame) : UInt64 :=
  ((frame.data.toList.take frame.dlc.toNat).drop 1).foldl
    (fun value byte => value <<< 8 ||| byte.toUInt64) 0

def register_change (node_id : BitVec 16) (frame : H9frame) : GenericMsg :=
  let event := (eventElement node_id "register_change").add_value "register_id"
    (toString (frame.data.get 0).toNat)
  let event := event.add_value "value_len" (toString ((frame.dlc.toNat : ℤ) - 1))
  GenericMsg.create (event.add_value "value" (toString (register_value frame).toNat))

/-- The device after the frame, and what its observers are sent. -/
def update_device_state (d : Device) (frame : H9frame) (now : ℤ) :
    Device × List (ℕ × GenericMsg) :=
  let d := d.update_device_last_seen_time now
  if frame.type = H9frame.REG_EXTERNALLY_CHANGED ∨ frame.type = H9frame.REG_INTERNALLY_CHANGED ∨
      frame.type = H9frame.REG_VALUE_BROADCAST then
    (d, d.notify_event_observer "register_change" (register_change d.node_id frame))
  else (d, [])

end Device

/-! ### The device manager -/

structure DevMgr where
  devices_map : Std.TreeMap (BitVec 16) Device
  frame_queue : List H9frame
  /-- How many devices were built. -/
  built : ℕ
  bus : Bus
  /-- The messages given to the clients. -/
  notified : List (ℕ × GenericMsg)

namespace DevMgr

def new : DevMgr where
  devices_map := ∅
  frame_queue := []
  built := 0
  bus := Bus.new
  notified := []

def on_frame_recv (m : DevMgr) (frame : H9frame) : DevMgr :=
  { m with frame_queue := m.frame_queue ++ [frame] }

def is_device_exist (m : DevMgr) (dev_id : BitVec 16) : Bool := m.devices_map.contains dev_id

/-- The device under `node_id` changed, or a new one. -/
def setDevice (m : DevMgr) (node_id : BitVec 16) (d : Device) : DevMgr :=
  { m with devices_map := m.devices_map.insert node_id d }

/-- `devices_map[node_id] = Device::buildDevice(...)`. -/
def build (m : DevMgr) (loader : DeviceDescLoader) (now : ℤ) (node_id : BitVec 16)
    (node_type : UInt16) (node_version : UInt64) : DevMgr :=
  { m.setDevice node_id (Device.buildDevice loader now m.built node_id node_type node_version) with
    built := m.built + 1 }

def add_device (m : DevMgr) (loader : DeviceDescLoader) (now : ℤ) (node_id : BitVec 16)
    (node_type : UInt16) (node_version : UInt64) : DevMgr :=
  match m.devices_map[node_id]? with
  | some d =>
    if d.device_type ≠ node_type ∨ d.device_version ≠ node_version then
      m.build loader now node_id node_type node_version
    else m.setDevice node_id (d.update_device_last_seen_time now)
  | none => m.build loader now node_id node_type node_version

/-- The version in an announcement, from its three numbers. -/
def version (frame : H9frame) : UInt64 :=
  let version := (frame.word 2).toUInt64
  let version := version <<< 16 ||| (frame.word 4).toUInt64
  version <<< 16 ||| (frame.word 6).toUInt64

/-- What `devices_update_thread` does with a frame. -/
def process (m : DevMgr) (loader : DeviceDescLoader) (now : ℤ) (frame : H9frame) : DevMgr :=
  let source_id := frame.source_id.setWidth 16
  if frame.type = H9frame.NODE_INFO then
    m.add_device loader now source_id (frame.word 0) (version frame)
  else if frame.type = H9frame.NODE_TURNED_ON then
    m.add_device loader now source_id (frame.word 0) (version frame)
  else if H9frame.REG_EXTERNALLY_CHANGED ≤ frame.type then
    match m.devices_map[source_id]? with
    | some d =>
      let (d, msgs) := d.update_device_state frame now
      { m.setDevice source_id d with notified := m.notified ++ msgs }
    | none =>
      let (seqnum, bus) := m.bus.get_next_seqnum 1
      { m with bus := bus.send_node_discover .LOW seqnum 1 source_id }
  else m

/-- A pass of `devices_update_thread`, which waits while there is no frame. -/
def devices_update_thread (m : DevMgr) (loader : DeviceDescLoader) (now : ℤ) : Option DevMgr :=
  match m.frame_queue with
  | [] => none
  | frame :: frames => some ({ m with frame_queue := frames }.process loader now frame)

def attach_event_observer (m : DevMgr) (observer : ℕ) (event_name : String) (dev_id : BitVec 16) :
    DevMgr :=
  match m.devices_map[dev_id]? with
  | some d => m.setDevice dev_id (d.attach_event_observer observer event_name)
  | none => m

def detach_event_observer (m : DevMgr) (observer : ℕ) (event_name : String) (dev_id : BitVec 16) :
    DevMgr :=
  match m.devices_map[dev_id]? with
  | some d => m.setDevice dev_id (d.detach_event_observer observer event_name)
  | none => m

end DevMgr

/-! ### Announcements -/

/-- The type and the version that a node announces. -/
structure Announcement where
  type : ℕ
  version : ℕ
deriving DecidableEq

namespace H9frame

/-- The number that the bytes make, the most significant one first. -/
def bigEndian (bytes : List UInt8) : ℕ := bytes.foldl (fun n byte => 256 * n + byte.toNat) 0

def Announces (frame : H9frame) : Prop := frame.type = NODE_INFO ∨ frame.type = NODE_TURNED_ON

instance (frame : H9frame) : Decidable frame.Announces := inferInstanceAs (Decidable (_ ∨ _))

def announced (frame : H9frame) : Announcement where
  type := bigEndian (frame.data.toList.take 2)
  version := bigEndian (frame.data.toList.drop 2)

/-- The key of the node that sent the frame. -/
def node (frame : H9frame) : BitVec 16 := frame.source_id.setWidth 16

/-- What `node_id` announced last, the newest frame being the first one. -/
def lastAnnouncement (node_id : BitVec 16) : List H9frame → Option Announcement
  | [] => none
  | frame :: frames =>
    if frame.Announces ∧ frame.node = node_id then some frame.announced
    else lastAnnouncement node_id frames

end H9frame

/-- What the device was built for. -/
def Device.shown (d : Device) : Announcement where
  type := d.device_type.toNat
  version := d.device_version.toNat

/-- The device manager now and before its last frame, and the frames so far, newest first. -/
structure UpdateRun where
  before : DevMgr
  now : DevMgr
  frames : List H9frame

namespace UpdateRun

def start : UpdateRun where
  before := DevMgr.new
  now := DevMgr.new
  frames := []

/-- The next frame, and the time at which it is processed. -/
def step (loader : DeviceDescLoader) (s : UpdateRun) (e : H9frame × ℤ) : Option UpdateRun :=
  some { before := s.now, now := s.now.process loader e.2 e.1, frames := e.1 :: s.frames }

/-- The device under `node_id` is gone, or another one is in its place. -/
def Rebuilt (m m' : DevMgr) (node_id : BitVec 16) : Prop :=
  ∃ d, m.devices_map[node_id]? = some d ∧
    ∀ d', m'.devices_map[node_id]? = some d' → d'.addr ≠ d.addr

/-- The device of the node has what the last frame announced, and if a device was built again then
because its node announced something else before. -/
def Tracks (s : UpdateRun) : Prop :=
  match s.frames with
  | [] => True
  | frame :: earlier =>
    (frame.Announces → ∃ d, s.now.devices_map[frame.node]? = some d ∧
      d.shown = frame.announced) ∧
    ∀ node_id, Rebuilt s.before s.now node_id → frame.Announces ∧ frame.node = node_id ∧
      H9frame.lastAnnouncement node_id earlier ≠ some frame.announced

/-- A node of the type of an antenna switch has a version below `0.1.0`. -/
def Fits (frame : H9frame) : Prop :=
  frame.Announces → frame.announced.type = 5 → frame.announced.version < 2 ^ 16

end UpdateRun

end H9
