import H9.Device

/-!
# The subscriptions of device events

`ExecutorAdapter` (h9d/executoradapter.cc) keeps a list of what its client subscribes, and the
device manager keeps the client with the device. The thread of the client changes the one and then
the other, each of the clients at its own pace, and the device manager goes on with the frames in
between: a step takes the lock of the map of the devices at most once.
-/

namespace H9

open GenericMsg

/-- How `execute_device_method` goes on: it attaches the client to an event or detaches it,
answers, or has a method that does neither. -/
inductive DeviceCall
  | attach (dev_id : BitVec 16) (event_name : String)
  | detach (dev_id : BitVec 16) (event_name : String)
  | answer (msg : GenericMsg)
  | other

/-- Where the thread of a client is. A client that is gone ran through `cleanup_connection`. -/
inductive ClientPhase
  | absent
  | idle
  | attaching (dev_id : BitVec 16) (event_name : String)
  | detaching (dev_id : BitVec 16) (event_name : String)
  | cleaning (mementos : List (BitVec 16 × String))
  | gone
deriving DecidableEq

structure ExecutorAdapter where
  phase : ClientPhase
  attach_device_event_observer_memento : List (BitVec 16 × String)

namespace Executor

def is_device_exist (m : DevMgr) (dev_id : BitVec 16) : Bool :=
  if dev_id < H9frame.BROADCAST_ID then m.is_device_exist dev_id else false

end Executor

namespace ExecutorAdapter

def absent : ExecutorAdapter where
  phase := .absent
  attach_device_event_observer_memento := []

/-- The error as the answer to a request. -/
def refuse (exedevcmsg : GenericMsg) (code : ErrorNumber) (text : String) : Except Exn DeviceCall := do
  let id ← get_id exedevcmsg
  return .answer ((ErrorMsg code text).set_request_id id)

/-- The methods `subscribe` and `unsubscribe`, which `call` tells apart. -/
def event_call (exedevcmsg : GenericMsg) (call : String → DeviceCall) : Except Exn DeviceCall :=
  match parameter exedevcmsg "event" >>= XmlElement.get_value_as_str with
  | .ok event => .ok (call event)
  | .error (.out_of_range _) => refuse exedevcmsg .INVALID_PARAMETERS "Missing parameters"
  | .error (.invalid_argument _) => refuse exedevcmsg .INVALID_PARAMETERS "Invalid parameters"
  | .error e => .error e

/-- `execute_device_method`, up to where it attaches or detaches. -/
def execute_device_method (m : DevMgr) (exedevcmsg : GenericMsg) : Except Exn DeviceCall := do
  let dev_id ← get_device_id exedevcmsg
  let method ← get_method_name exedevcmsg
  if Executor.is_device_exist m dev_id = false then
    refuse exedevcmsg .INVALID_DEVICE ("Invalid device (id: " ++ toString dev_id.toNat ++ ")")
  else if method = "subscribe" then event_call exedevcmsg (.attach dev_id)
  else if method = "unsubscribe" then event_call exedevcmsg (.detach dev_id)
  else return .other

/-- `attach_device_event_observer`, before it calls the executor. -/
def attach_device_event_observer (a : ExecutorAdapter) (dev_id : BitVec 16) (event_name : String) :
    ExecutorAdapter where
  phase := .attaching dev_id event_name
  attach_device_event_observer_memento :=
    a.attach_device_event_observer_memento ++ [(dev_id, event_name)]

/-- `detach_device_event_observer`, before it calls the executor. -/
def detach_device_event_observer (a : ExecutorAdapter) (dev_id : BitVec 16) (event_name : String) :
    ExecutorAdapter where
  phase := .detaching dev_id event_name
  attach_device_event_observer_memento :=
    a.attach_device_event_observer_memento.filter (· ≠ (dev_id, event_name))

def Connected (a : ExecutorAdapter) : Prop :=
  match a.phase with
  | .idle | .attaching _ _ | .detaching _ _ => True
  | .absent | .cleaning _ | .gone => False

end ExecutorAdapter

/-- The device manager and the clients, each of which has a number of its own. -/
structure H9d where
  devmgr : DevMgr
  clients : ℕ → ExecutorAdapter
  /-- The clients that got a message after they were gone. -/
  used_gone : List ℕ

inductive H9dStep
  | connect (c : ℕ)
  | execute_device_method (c : ℕ) (exedevcmsg : GenericMsg)
  /-- The call of the device manager that ends `subscribe` or `unsubscribe`. -/
  | call (c : ℕ)
  | disconnect (c : ℕ)
  /-- The next round of the loop in `cleanup_connection`, or its end. -/
  | cleanup (c : ℕ)
  | on_frame_recv (frame : H9frame)
  | devices_update (now : ℤ)

namespace H9d

def start : H9d where
  devmgr := DevMgr.new
  clients _ := ExecutorAdapter.absent
  used_gone := []

def setClient (s : H9d) (c : ℕ) (a : ExecutorAdapter) : H9d :=
  { s with clients := Function.update s.clients c a }

def setPhase (s : H9d) (c : ℕ) (phase : ClientPhase) : H9d :=
  s.setClient c { s.clients c with phase := phase }

/-- The clients that the device manager gave a message since `before`. -/
def receivers (before m : DevMgr) : List ℕ :=
  (m.notified.drop before.notified.length).map Prod.fst

/-- The device manager became `m` when it processed a frame. -/
def updated (s : H9d) (m : DevMgr) : H9d :=
  { s with
    devmgr := m
    used_gone := s.used_gone ++
      (receivers s.devmgr m).filter fun c => (s.clients c).phase = .gone }

/-- The next step, if the party whose step it is can take it. An exception that gets out of a
thread ends the program. -/
def step (loader : DeviceDescLoader) (s : H9d) : H9dStep → Option H9d
  | .connect c =>
    match (s.clients c).phase with
    | .absent => some (s.setClient c ⟨.idle, []⟩)
    | _ => none
  | .execute_device_method c exedevcmsg =>
    match (s.clients c).phase with
    | .idle =>
      match ExecutorAdapter.execute_device_method s.devmgr exedevcmsg with
      | .ok (.attach dev_id event_name) =>
        some (s.setClient c ((s.clients c).attach_device_event_observer dev_id event_name))
      | .ok (.detach dev_id event_name) =>
        some (s.setClient c ((s.clients c).detach_device_event_observer dev_id event_name))
      | .ok (.answer _) | .ok .other => some s
      | .error _ => none
    | _ => none
  | .call c =>
    match (s.clients c).phase with
    | .attaching dev_id event_name =>
      some { s.setPhase c .idle with
        devmgr := s.devmgr.attach_event_observer c event_name dev_id }
    | .detaching dev_id event_name =>
      some { s.setPhase c .idle with
        devmgr := s.devmgr.detach_event_observer c event_name dev_id }
    | _ => none
  | .disconnect c =>
    match (s.clients c).phase with
    | .idle => some (s.setPhase c (.cleaning (s.clients c).attach_device_event_observer_memento))
    | _ => none
  | .cleanup c =>
    match (s.clients c).phase with
    | .cleaning ((dev_id, event_name) :: mementos) =>
      some { s.setPhase c (.cleaning mementos) with
        devmgr := s.devmgr.detach_event_observer c event_name dev_id }
    | .cleaning [] => some (s.setPhase c .gone)
    | _ => none
  | .on_frame_recv frame => some { s with devmgr := s.devmgr.on_frame_recv frame }
  | .devices_update now => (s.devmgr.devices_update_thread loader now).map s.updated

end H9d

namespace DevMgr

def Knows (m : DevMgr) (dev_id : BitVec 16) : Prop := dev_id ∈ m.devices_map

/-- The client is among the observers of the event. -/
def Observes (m : DevMgr) (c : ℕ) (dev_id : BitVec 16) (event_name : String) : Prop :=
  ∃ d, m.devices_map[dev_id]? = some d ∧ c ∈ d.observers event_name

/-- The frame makes `add_device` delete the device of its node and build another one. -/
def Rebuilds (m : DevMgr) (frame : H9frame) : Prop :=
  frame.Announces ∧ ∃ d, m.devices_map[frame.node]? = some d ∧
    (d.device_type ≠ frame.word 0 ∨ d.device_version ≠ version frame)

end DevMgr

namespace H9d

/-- A client that is gone observes no event, and got no message since. -/
def Released (s : H9d) : Prop :=
  (∀ c, (s.clients c).phase = .gone → ∀ dev_id event_name,
    ¬ s.devmgr.Observes c dev_id event_name) ∧ s.used_gone = []

/-- A connected client observes what it has in its list, but for what it is just attaching. -/
def Subscribed (s : H9d) : Prop :=
  ∀ c, (s.clients c).Connected → ∀ p ∈ (s.clients c).attach_device_event_observer_memento,
    s.devmgr.Knows p.1 → s.devmgr.Observes c p.1 p.2 ∨ (s.clients c).phase = .attaching p.1 p.2

/-- No device is built again that a connected client has in its list, but for what the client is
just attaching. -/
def Undisturbed (e : H9dStep) (s : H9d) : Prop :=
  match e with
  | .devices_update _ => ∀ frame ∈ s.devmgr.frame_queue.head?, s.devmgr.Rebuilds frame →
    ∀ c, (s.clients c).Connected → ∀ p ∈ (s.clients c).attach_device_event_observer_memento,
      p.1 = frame.node → (s.clients c).phase = .attaching p.1 p.2
  | _ => True

end H9d

end H9
