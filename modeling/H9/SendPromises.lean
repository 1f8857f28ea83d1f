import H9.GenericMsg
import H9.Lib.Promises
import H9.Lib.Steps

/-!
# Waiting for the bus

`Bus::send_frame_sync` and `Bus::recv_thread` (h9d/bus.cc): a thread that sends a frame puts a promise
into `send_promise_map` under the id of its message and waits for it, and the thread that receives
from `h9bus` sets the promise under the request-id of a message. Each section under
`send_promise_map_mtx` is a step here. A promise is known by the number of the call that made it, and
no two calls have the same id.
-/

namespace H9

namespace Bus

def OK : ℤ := 0
def NOT_CONNECTED_TO_H9BUS : ℤ := -2
def SEND_TIMEOUT : ℤ := -6
def H9BUS_ERROR : ℤ := -7

/-- The messages that settle a promise. -/
inductive Reply
  | FRAME
  | ERROR
deriving DecidableEq, Repr

namespace Reply

def value : Reply → ℤ
  | FRAME => OK
  | ERROR => H9BUS_ERROR

def type : Reply → MsgType
  | FRAME => .FRAME
  | ERROR => .ERROR

end Reply

/-- Which reply `recv_thread` takes a message for. It reads the frame for the observers, and the id of
an error for the log. -/
def reply (msg : GenericMsg) : Except Exn (Option Reply) := do
  match ← msg.get_type with
  | .FRAME =>
    let _ ← get_frame msg
    return some .FRAME
  | .ERROR =>
    let _ ← msg.get_id
    return some .ERROR
  | _ => return none

/-- How far a call of `send_frame_sync` is. -/
inductive SendPhase
  | called
  | inserted
  /-- The connector threw; the promise is still to be erased. -/
  | failed
  | waiting
  /-- `wait_for` timed out; the promise is still to be erased. -/
  | timedOut
  | returned (ret : ℤ)
deriving DecidableEq, Repr

/-- A call of `send_frame_sync`. The last two fields are not the program's: how many messages had been
processed when it began and when it returned. -/
structure SendCall where
  id : UInt64
  phase : SendPhase
  started : ℕ
  ended : ℕ
deriving DecidableEq, Repr

/-- What ends the program. -/
inductive Fatal
  | future_error (e : Promise.Errc)
  | exception (e : Exn)
deriving DecidableEq, Repr

/-- What the thread of a call does next. -/
inductive SendStep
  | insert
  | send (throws : Bool)
  /-- `wait_for` returns, the promise not being ready. -/
  | time_out
  /-- `wait_for` returns, and `get` of a promise that is ready. -/
  | get
  | erase
deriving DecidableEq, Repr

end Bus

/-- The map, the calls so far, and the messages processed so far. -/
structure SendRun where
  send_promise_map : Std.TreeMap UInt64 ℕ
  futures : Promise.Shared ℤ
  calls : List Bus.SendCall
  processed : List GenericMsg
  error : Option Bus.Fatal

/-- A call begins with an id, its thread goes on, or `recv_thread` handles a message. -/
inductive SendRunStep
  | send_frame_sync (id : UInt64)
  | thread (i : ℕ) (a : Bus.SendStep)
  | recv (msg : GenericMsg)

namespace SendRun

open Bus Promise

def start : SendRun where
  send_promise_map := ∅
  futures _ := .pending
  calls := []
  processed := []
  error := none

def setPhase (s : SendRun) (i : ℕ) (c : SendCall) (phase : SendPhase) : SendRun :=
  { s with calls := s.calls.set i { c with phase := phase } }

/-- `return ret`. -/
def return_ (s : SendRun) (i : ℕ) (c : SendCall) (ret : ℤ) : SendRun :=
  { s with calls := s.calls.set i { c with phase := .returned ret, ended := s.processed.length } }

/-- The promise under `id`, if there is one, is destroyed. -/
def destroy (s : SendRun) (id : UInt64) : SendRun :=
  match s.send_promise_map[id]? with
  | some p => { s with futures := s.futures.destroy p }
  | none => s

/-- `send_promise_map[id] = std::move(send_promise)`. -/
def insert (s : SendRun) (id : UInt64) (promise : ℕ) : SendRun :=
  { s.destroy id with send_promise_map := s.send_promise_map.insert id promise }

/-- `send_promise_map.erase(id)`. -/
def erase (s : SendRun) (id : UInt64) : SendRun :=
  { s.destroy id with send_promise_map := s.send_promise_map.erase id }

/-- The section of `recv_thread`. -/
def complete (s : SendRun) (id : UInt64) (value : ℤ) : SendRun :=
  match s.send_promise_map[id]? with
  | some p =>
    match s.futures.set_value p value with
    | .ok futures => { s with futures := futures }.erase id
    | .error e => { s with error := some (.future_error e) }
  | none => s

/-- `recv_thread` with a message. -/
def recv_thread (s : SendRun) (msg : GenericMsg) : SendRun :=
  match reply msg with
  | .error e => { s with error := some (.exception e) }
  | .ok none => s
  | .ok (some r) =>
    let s := { s with processed := s.processed ++ [msg] }
    if msg.get_request_id ≠ 0 then s.complete msg.get_request_id r.value else s

/-- A step of the thread of the `i`-th call, which is `c`. -/
def stepCall (s : SendRun) (i : ℕ) (c : SendCall) (a : SendStep) : Option SendRun :=
  match a, c.phase with
  | .insert, .called => some ((s.insert c.id i).setPhase i c .inserted)
  | .send throws, .inserted => some (s.setPhase i c (if throws then .failed else .waiting))
  | .time_out, .waiting =>
    if s.futures i = .pending then some (s.setPhase i c .timedOut) else none
  | .get, .waiting =>
    match s.futures i with
    | .pending => none
    | .value ret => some (s.return_ i c ret)
    | .broken => some { s with error := some (.future_error .broken_promise) }
  | .erase, .failed => some ((s.erase c.id).return_ i c NOT_CONNECTED_TO_H9BUS)
  | .erase, .timedOut => some ((s.erase c.id).return_ i c SEND_TIMEOUT)
  | _, _ => none

def step (s : SendRun) (e : SendRunStep) : Option SendRun :=
  if s.error.isSome then none
  else match e with
  | .send_frame_sync id =>
    if id ≠ 0 ∧ ∀ c ∈ s.calls, c.id ≠ id then
      some { s with calls := s.calls ++ [⟨id, .called, s.processed.length, 0⟩] }
    else none
  | .thread i a => s.calls[i]?.bind fun c => s.stepCall i c a
  | .recv msg => some (s.recv_thread msg)

end SendRun

end H9
