import H9.GenericMsg

/-!
# The thread of a client

`Epoll` and `TCPClientThread` (h9d/): other threads put messages for a client into a queue, and its
own thread sends them when an event wakes it up. A step holds the lock of the queue throughout,
or it is the trigger that `send_msg` makes while it still holds it.
-/

namespace H9

/-- What `Epoll::wait` reports: a socket to read from, or the event of the other threads. -/
inductive PollEvent
  | socket
  | async
deriving DecidableEq

/-- The event is edge-triggered: it is reported once for what it was triggered since. -/
structure Epoll where
  triggered : Bool

namespace Epoll

def new : Epoll where
  triggered := false

def trigger_async_event (event : Epoll) : Epoll := { event with triggered := true }

/-- What `wait` may report: something, and no event twice. -/
def Reports (event : Epoll) (evs : List PollEvent) : Prop :=
  evs ≠ [] ∧ evs.Nodup ∧ (.async ∈ evs → event.triggered = true)

instance (event : Epoll) (evs : List PollEvent) : Decidable (event.Reports evs) :=
  inferInstanceAs (Decidable (_ ∧ _ ∧ _))

/-- The event after `wait` reported `evs`. -/
def wait (event : Epoll) (evs : List PollEvent) : Epoll :=
  if .async ∈ evs then { event with triggered := false } else event

end Epoll

/-- Where the thread is, and the events of the last `wait` that it did not come to yet. -/
inductive ThreadPhase
  /-- In the loop of `thread`, or in `wait` when there is no event left. -/
  | polled (evs : List PollEvent)
  /-- In the loop of `thread_send_async_msg`, about to lock the queue. -/
  | draining (evs : List PollEvent)
  | sending (msg : GenericMsg) (queue_empty : Bool) (evs : List PollEvent)
  | ended
  /-- The assertion failed. -/
  | aborted

structure TCPClientThread where
  running : Bool
  phase : ThreadPhase
  event : Epoll
  async_msg_queue : List GenericMsg
  /-- The thread that holds the lock and is going to trigger the event. -/
  async_msg_queue_mtx : Option ℕ
  /-- The messages that went into the queue, of which the program keeps no record. -/
  pushed : List GenericMsg
  /-- Those of them that were sent. -/
  sent : List GenericMsg

inductive ThreadStep
  /-- The other thread `p` calls `send_msg`. -/
  | send_msg (p : ℕ) (msg : GenericMsg)
  | trigger_async_event (p : ℕ)
  | wait (evs : List PollEvent)
  /-- `thread_recv_msg`, at whose end the connection may be closed. -/
  | thread_recv_msg (closed : Bool)
  | thread_send_async_msg
  | pop
  | send
  | leave

namespace TCPClientThread

def start : TCPClientThread where
  running := true
  phase := .polled []
  event := Epoll.new
  async_msg_queue := []
  async_msg_queue_mtx := none
  pushed := []
  sent := []

/-- `send_msg` of the thread `p`: with more than one message in the queue it is done. -/
def push (s : TCPClientThread) (p : ℕ) (msg : GenericMsg) : TCPClientThread :=
  { s with
    async_msg_queue := s.async_msg_queue ++ [msg]
    async_msg_queue_mtx := if (s.async_msg_queue ++ [msg]).length = 1 then some p else none
    pushed := s.pushed ++ [msg] }

/-- The next step, if the thread whose step it is can take it. -/
def step (s : TCPClientThread) : ThreadStep → Option TCPClientThread
  | .send_msg p msg => if s.async_msg_queue_mtx = none then some (s.push p msg) else none
  | .trigger_async_event p =>
    if s.async_msg_queue_mtx = some p then
      some { s with event := s.event.trigger_async_event, async_msg_queue_mtx := none }
    else none
  | .wait evs =>
    match s.phase with
    | .polled [] =>
      if s.running = true ∧ s.event.Reports evs then
        some { s with phase := .polled evs, event := s.event.wait evs }
      else none
    | _ => none
  | .thread_recv_msg closed =>
    match s.phase with
    | .polled (.socket :: evs) =>
      some { s with phase := .polled evs, running := s.running && !closed }
    | _ => none
  | .thread_send_async_msg =>
    match s.phase with
    | .polled (.async :: evs) => some { s with phase := .draining evs }
    | _ => none
  | .pop =>
    match s.phase, s.async_msg_queue_mtx with
    | .draining evs, none =>
      match s.async_msg_queue with
      | [] => some { s with phase := .aborted }
      | msg :: msgs =>
        some { s with phase := .sending msg msgs.isEmpty evs, async_msg_queue := msgs }
    | _, _ => none
  | .send =>
    match s.phase with
    | .sending msg queue_empty evs =>
      some { s with
        phase := if queue_empty then .polled evs else .draining evs
        sent := s.sent ++ [msg] }
    | _ => none
  | .leave =>
    match s.phase with
    | .polled [] => if s.running = false then some { s with phase := .ended } else none
    | _ => none

/-- No event is on its way to the thread, which is not in `thread_send_async_msg`, and nobody is in
`send_msg`. -/
def Quiet (s : TCPClientThread) : Prop :=
  s.event.triggered = false ∧ s.async_msg_queue_mtx = none ∧
    match s.phase with
    | .polled evs => .async ∉ evs
    | .ended => True
    | .draining _ | .sending _ _ _ | .aborted => False

/-- The assertion holds, what was sent is the start of what was pushed, and no message is left
behind. -/
structure Delivers (s : TCPClientThread) : Prop where
  asserts : s.phase ≠ .aborted
  order : s.sent <+: s.pushed
  drained : s.Quiet → s.async_msg_queue = []

end TCPClientThread

end H9
