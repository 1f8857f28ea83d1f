import H9.TCPClientThread

/-!
# The server's list of clients

`TCPServer::run` (h9d/tcpserver.cc) and what the threads of its clients do at their ends: a client's
thread triggers the event of the server and then puts `thread_running` down, and the server
deletes those that it finds not running. A client is an object of its own.
-/

namespace H9

/-- Where the thread of a client is. -/
inductive LifePhase
  /-- Before it puts `thread_running` up. -/
  | created
  /-- In its receive loop. -/
  | receiving
  /-- Past the loop, on the way to `cleanup_tcpclientthread`. -/
  | left
  /-- Past `cleanup_connection`. -/
  | triggered
  | ended
deriving DecidableEq

structure ClientLife where
  phase : LifePhase
  thread_running : Bool

/-- Where the server's thread is, and the events of the last `wait` that it did not come to yet. -/
inductive ServerPhase
  | polled (evs : List PollEvent)
  /-- With the new client `c`, whose thread runs already, on its way into the list. -/
  | accepting (c : ℕ) (evs : List PollEvent)
  /-- In the loop over the list, before the clients `its`. -/
  | scanning (its : List ℕ) (evs : List PollEvent)
  /-- In the destructor of the client `it`, which joins its thread. -/
  | joining (it : ℕ) (its : List ℕ) (evs : List PollEvent)
deriving DecidableEq

structure TCPServer where
  phase : ServerPhase
  event : Epoll
  tcpclientthread_list : List ℕ
  clients : ℕ → Option ClientLife
  /-- The clients that the server took from the list. -/
  removed : List ℕ

inductive ServerStep
  | wait (evs : List PollEvent)
  /-- The new client `c`, whose `thread_running` has the value that was in its memory. -/
  | accept (c : ℕ) (thread_running : Bool)
  | push_back
  /-- The server comes to the event. -/
  | scan
  /-- It looks at the next client, or is at the end of the list. -/
  | is_running
  /-- The thread of the client that it deletes has ended. -/
  | erase
  | run (c : ℕ)
  | leave (c : ℕ)
  | trigger (c : ℕ)
  | finish (c : ℕ)
deriving DecidableEq

/-- The client that a scan comes to. -/
def ServerPhase.next : ServerPhase → Option ℕ
  | .scanning (it :: _) _ => some it
  | _ => none

namespace TCPServer

def start : TCPServer where
  phase := .polled []
  event := Epoll.new
  tcpclientthread_list := []
  clients _ := none
  removed := []

def setClient (s : TCPServer) (c : ℕ) (life : ClientLife) : TCPServer :=
  { s with clients := Function.update s.clients c (some life) }

/-- The thread of the client goes from one phase to the next. -/
def advance (s : TCPServer) (c : ℕ) (source target : LifePhase) (thread_running : Bool → Bool) :
    Option TCPServer :=
  match s.clients c with
  | some life =>
    if life.phase = source then some (s.setClient c ⟨target, thread_running life.thread_running⟩)
    else none
  | none => none

/-- The next step, if the thread whose step it is can take it. -/
def step (s : TCPServer) : ServerStep → Option TCPServer
  | .wait evs =>
    match s.phase with
    | .polled [] =>
      if s.event.Reports evs then some { s with phase := .polled evs, event := s.event.wait evs }
      else none
    | _ => none
  | .accept c thread_running =>
    match s.phase, s.clients c with
    | .polled (.socket :: evs), none =>
      some { s.setClient c ⟨.created, thread_running⟩ with phase := .accepting c evs }
    | _, _ => none
  | .push_back =>
    match s.phase with
    | .accepting c evs =>
      some { s with
        phase := .polled evs
        tcpclientthread_list := s.tcpclientthread_list ++ [c] }
    | _ => none
  | .scan =>
    match s.phase with
    | .polled (.async :: evs) => some { s with phase := .scanning s.tcpclientthread_list evs }
    | _ => none
  | .is_running =>
    match s.phase with
    | .scanning [] evs => some { s with phase := .polled evs }
    | .scanning (it :: its) evs =>
      match s.clients it with
      | some life =>
        some { s with
          phase := if life.thread_running then .scanning its evs else .joining it its evs }
      | none => none
    | _ => none
  | .erase =>
    match s.phase with
    | .joining it its evs =>
      match s.clients it with
      | some life =>
        if life.phase = .ended then
          some { s with
            phase := .scanning its evs
            tcpclientthread_list := s.tcpclientthread_list.erase it
            removed := s.removed ++ [it] }
        else none
      | none => none
    | _ => none
  | .run c => s.advance c .created .receiving fun _ => true
  | .leave c => s.advance c .receiving .left id
  | .trigger c =>
    (s.advance c .left .triggered id).map fun s => { s with event := s.event.trigger_async_event }
  | .finish c => s.advance c .triggered .ended fun _ => false

/-- No event of the clients is on its way to the server or at work there. -/
def Quiet (s : TCPServer) : Prop :=
  s.event.triggered = false ∧
    match s.phase with
    | .polled evs | .accepting _ evs => .async ∉ evs
    | .scanning _ _ | .joining _ _ _ => False

/-- Only clients that left their loops are removed, and while no event is pending none that has
ended is in the list. -/
structure Reaps (s : TCPServer) : Prop where
  removed : ∀ c ∈ s.removed, ∀ life ∈ s.clients c,
    life.phase = .left ∨ life.phase = .triggered ∨ life.phase = .ended
  reaped : s.Quiet → ∀ c ∈ s.tcpclientthread_list, ∀ life ∈ s.clients c, life.phase ≠ .ended

/-- The server does not look at a client that triggered the event and still has `thread_running` up,
unless the event was triggered again. -/
def Settled (e : ServerStep) (s : TCPServer) : Prop :=
  e = .is_running → ∀ it ∈ s.phase.next, ∀ life ∈ s.clients it, life.phase = .triggered →
    s.event.triggered = true

instance (e : ServerStep) (s : TCPServer) : Decidable (Settled e s) :=
  inferInstanceAs (Decidable (_ → _))

end TCPServer

end H9
