import H9.Lib.Promises
import H9.Lib.Steps
import H9.Node

/-!
# Waiting for a node

The other half of `Node` (h9d/node.cc): a request puts a promise with a comparator into
`frame_promise_list`, has its frame sent, and waits for the promise, while `on_frame_recv` goes
through the list with each frame of the node. The requests of one node run on several threads, and
each of their steps and each section under `frame_promise_list_mtx` is a step here. The clock is the
steady clock; time passes between the steps, but not past the end of a wait. A promise is known by
the number of its request.
-/

namespace H9

/-- The timeouts in the configuration, `Bus::send_timeout` and `Node::recv_timeout`. -/
structure Timeouts where
  send_timeout : ℤ
  recv_timeout : ℤ

/-- `std::chrono::seconds` in the nanoseconds of the clock. -/
def seconds (n : ℤ) : ℤ := 1000000000 * n

/-- When a `wait_for` that begins at `now` ends at the latest. With a negative time it ends at once. -/
def waitEnd (now timeout : ℤ) : ℤ := now + (seconds timeout).toNat

namespace Node

inductive Request
  | reset
  | set_raw_reg (reg : UInt8) (nbyte : ℕ) (buf : List UInt8)
  | get_raw_reg (reg : UInt8) (nbyte : ℕ)
deriving DecidableEq, Repr

namespace Request

/-- The frame that the request waits for. A reset waits for one with the number 0. -/
def comparator (node_id : BitVec 16) (seqnum : UInt8) : Request → H9FrameComparator
  | reset => ((H9FrameComparator.new.set_source_id ⟨node_id⟩).set_type H9frame.NODE_TURNED_ON).set_seqnum 0
  | set_raw_reg reg _ _ =>
    (((H9FrameComparator.new.set_source_id ⟨node_id⟩).set_type
      H9frame.REG_EXTERNALLY_CHANGED).set_first_data_byte reg).set_seqnum seqnum
  | get_raw_reg reg _ =>
    (((H9FrameComparator.new.set_source_id ⟨node_id⟩).set_type
      H9frame.REG_VALUE).set_first_data_byte reg).set_seqnum seqnum

/-- The frame that is given to the bus, or what the bus returns instead. -/
def frame (node_id : BitVec 16) (seqnum : UInt8) : Request → Except ℤ H9frame
  | reset => Bus.node_reset .LOW seqnum source_id node_id
  | set_raw_reg reg nbyte buf => Bus.set_reg .LOW seqnum source_id node_id reg nbyte buf
  | get_raw_reg reg _ => Bus.get_reg .LOW seqnum source_id node_id reg

end Request

/-- How far a request is. `reset` makes its promise first, the others draw their number first. -/
inductive Phase
  | called
  | numbered
  | promised
  | ready
  /-- In `send_frame_sync`, waiting for `h9bus` until then at the latest. -/
  | sending (until_time : ℤ)
  | sent
  | waiting (until_time : ℤ)
  | done (answer : Option H9frame)
deriving DecidableEq, Repr

namespace Phase

/-- It is not past the end of a wait at that time. -/
def Allows (now : ℤ) : Phase → Prop
  | sending until_time => now ≤ until_time
  | waiting until_time => now ≤ until_time
  | _ => True

instance (now : ℤ) : ∀ phase : Phase, Decidable (phase.Allows now)
  | called => .isTrue trivial
  | numbered => .isTrue trivial
  | promised => .isTrue trivial
  | ready => .isTrue trivial
  | sending until_time => inferInstanceAs (Decidable (now ≤ until_time))
  | sent => .isTrue trivial
  | waiting until_time => inferInstanceAs (Decidable (now ≤ until_time))
  | done _ => .isTrue trivial

def isDone : Phase → Bool
  | done _ => true
  | _ => false

/-- After `get_next_seqnum`. -/
def drawn : Request → Phase → Option Phase
  | .reset, promised => some ready
  | .set_raw_reg .., called => some numbered
  | .get_raw_reg .., called => some numbered
  | _, _ => none

/-- After `create_frame_future`. -/
def created : Request → Phase → Option Phase
  | .reset, called => some promised
  | .set_raw_reg .., numbered => some ready
  | .get_raw_reg .., numbered => some ready
  | _, _ => none

end Phase

/-- A request on its thread. The last three fields are not the program's: how many numbers of the node
had been drawn when it began, how many before its own, and when it made its promise. -/
structure Requester where
  request : Request
  phase : Phase
  seqnum : UInt8
  started : ℕ
  draw : ℕ
  promise_time : ℤ
deriving DecidableEq, Repr

/-- An entry of `frame_promise_list`. -/
structure FramePromise where
  comparator : H9FrameComparator
  promise : ℕ
  expiry : ℤ

/-- What `on_frame_recv` does with an entry. -/
def FramePromise.verdict (frame : H9frame) (now : ℤ) (e : FramePromise) : Promise.Verdict H9frame :=
  if e.comparator.eqFrame frame then .fulfil frame
  else if e.expiry < now then .discard
  else .keep

end Node

/-- A node and the requests made so far, how many of its numbers were drawn, and the exception that
left a `noexcept` function, which ends the program. -/
structure NodeRun where
  clock : ℤ
  bus : Bus
  frame_promise_list : List Node.FramePromise
  futures : Promise.Shared H9frame
  calls : List Node.Requester
  drawn : ℕ
  error : Option Promise.Errc

/-- What the thread of a request does next. -/
inductive Node.CallStep
  | get_next_seqnum
  | create_frame_future
  /-- The frame goes to `h9bus`, if the connector does not throw. -/
  | send (throws : Bool)
  | send_return
  | wait_for
  /-- `wait_for` returns. -/
  | wake
deriving DecidableEq, Repr

inductive NodeStep
  | tick (nanoseconds : ℕ)
  | call (request : Node.Request)
  | thread (i : ℕ) (a : Node.CallStep)
  /-- Another function draws a number of the node. -/
  | get_next_seqnum
  /-- The section of `on_frame_recv`, which has looked at the clock before. -/
  | on_frame_recv (frame : H9frame) (now : ℤ)
deriving DecidableEq, Repr

namespace NodeRun

open Node Promise

def start : NodeRun where
  clock := 0
  bus := Bus.new
  frame_promise_list := []
  futures _ := .pending
  calls := []
  drawn := 0
  error := none

def setCall (s : NodeRun) (i : ℕ) (c : Requester) : NodeRun := { s with calls := s.calls.set i c }

def setPhase (s : NodeRun) (i : ℕ) (c : Requester) (phase : Phase) : NodeRun :=
  s.setCall i { c with phase := phase }

def draw (s : NodeRun) (node_id : BitVec 16) : NodeRun :=
  { s with bus := (s.bus.get_next_seqnum node_id).2, drawn := s.drawn + 1 }

def create_frame_future (s : NodeRun) (cfg : Timeouts) (i : ℕ) (comparator : H9FrameComparator) :
    NodeRun :=
  { s with frame_promise_list := s.frame_promise_list ++
    [⟨comparator, i, s.clock + seconds (cfg.recv_timeout + 3)⟩] }

/-- A step of the thread of the `i`-th request, which is `c`. -/
def stepCall (s : NodeRun) (cfg : Timeouts) (node_id : BitVec 16) (i : ℕ) (c : Requester) :
    CallStep → Option NodeRun
  | .get_next_seqnum =>
    (Phase.drawn c.request c.phase).map fun phase => (s.draw node_id).setCall i
      { c with phase := phase, seqnum := (s.bus.get_next_seqnum node_id).1, draw := s.drawn }
  | .create_frame_future =>
    (Phase.created c.request c.phase).map fun phase =>
      (s.create_frame_future cfg i (c.request.comparator node_id c.seqnum)).setCall i
        { c with phase := phase, promise_time := s.clock }
  | .send throws =>
    if c.phase = .ready then
      match c.request.frame node_id c.seqnum with
      | .error _ => some (s.setPhase i c .sent)
      | .ok frame =>
        let phase := if throws then .sent else .sending (waitEnd s.clock cfg.send_timeout)
        some ({ s with bus := s.bus.send (.ok frame) }.setPhase i c phase)
    else none
  | .send_return =>
    match c.phase with
    | .sending _ => some (s.setPhase i c .sent)
    | _ => none
  | .wait_for =>
    if c.phase = .sent then some (s.setPhase i c (.waiting (waitEnd s.clock cfg.recv_timeout)))
    else none
  | .wake =>
    match c.phase with
    | .waiting until_time =>
      match s.futures i with
      | .value frame => some (s.setPhase i c (.done (some frame)))
      | .broken => some { s with error := some .broken_promise }
      | .pending => if until_time ≤ s.clock then some (s.setPhase i c (.done none)) else none
    | _ => none

def recv (s : NodeRun) (frame : H9frame) (now : ℤ) : NodeRun :=
  match sweep FramePromise.promise (FramePromise.verdict frame now) s.frame_promise_list s.futures with
  | .ok (kept, futures) => { s with frame_promise_list := kept, futures := futures }
  | .error e => { s with error := some e }

def step (cfg : Timeouts) (node_id : BitVec 16) (s : NodeRun) (e : NodeStep) : Option NodeRun :=
  if s.error.isSome then none
  else match e with
  | .tick n =>
    if ∀ c ∈ s.calls, c.phase.Allows (s.clock + n) then some { s with clock := s.clock + n } else none
  | .call request =>
    some { s with calls := s.calls ++ [⟨request, .called, 0, s.drawn, 0, 0⟩] }
  | .thread i a => s.calls[i]?.bind fun c => s.stepCall cfg node_id i c a
  | .get_next_seqnum => some (s.draw node_id)
  | .on_frame_recv frame now => if now ≤ s.clock then some (s.recv frame now) else none

end NodeRun

end H9
