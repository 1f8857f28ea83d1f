import H9.Socket

/-!
# Threads that share a connector

`Bus::send_frame_sync` (h9d/bus.cc) runs in every client thread and in the device update thread,
over one `H9Connector`. Its mutexes guard the promise map; between the two `::send` calls of
`H9Socket::send` a thread holds none.
-/

namespace H9

/-- One thread: the messages it will send, and the one whose length is out and whose text is not. -/
structure Sender where
  todo : List Payload
  mid : Option Payload

structure Senders where
  threads : ℕ → Sender
  wire : List UInt8
  /-- The messages sent, each with its thread, in the order in which their texts went out. -/
  sent : List (ℕ × Payload)

namespace Senders

def new (todo : ℕ → List Payload) : Senders where
  threads t := ⟨todo t, none⟩
  wire := []
  sent := []

/-- Thread `t` makes its next `::send`, which writes all its bytes. -/
def step (s : Senders) (t : ℕ) : Senders :=
  match (s.threads t).mid with
  | some p =>
    { threads := Function.update s.threads t ⟨(s.threads t).todo, none⟩
      wire := s.wire ++ p.text
      sent := s.sent ++ [(t, p)] }
  | none =>
    match (s.threads t).todo with
    | [] => s
    | p :: todo =>
      { s with
        threads := Function.update s.threads t ⟨todo, some p⟩
        wire := s.wire ++ Framing.be32 p.text.length }

/-- The threads make their `::send` calls in the order of `ts`. -/
def run : List ℕ → Senders → Senders
  | [], s => s
  | t :: ts, s => run ts (s.step t)

/-- The texts sent. -/
def texts (s : Senders) : List (List UInt8) := s.sent.map fun m => m.2.text

/-- No thread writes a length while another one's text is still to come. -/
def Serial : List ℕ → Senders → Prop
  | [], _ => True
  | t :: ts, s =>
    ((s.threads t).mid = none → ∀ u, (s.threads u).mid = none) ∧ Serial ts (s.step t)

end Senders

end H9
