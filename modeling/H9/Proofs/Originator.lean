import H9.Proofs.LoopRules

/-!
# Who is told that a frame was sent

A frame that waits remembers the connection that asked for it by a descriptor number. While no
connection gets a number that a frame that waits remembers, and no open client loses its own, the
number leads back to that connection, if to any (`Wired`), and the `FRAME` that carries its request
id goes nowhere else.
-/

namespace H9

open Prog SelectLoop

/-- No message with a request id went to another connection than the one that asked for its
frame. -/
def ToOriginator (s : BusMgr × Server) : Prop :=
  ∀ d ∈ s.2.deliveries, ∀ i ∈ s.2.issues, i.busframe = d.busframe → i.client = d.client

/-- The number in a frame that waits leads to the client that asked for it, or nowhere. -/
structure Wired (Q : String → List BusFrame) (s : FrameHeap × Server) : Prop where
  entry : ∀ k c, s.2.clients k = some c → c.h9socket.isSome → s.2.tcp_clients[c.socket]? = some k
  zero : s.2.tcp_clients[0]? = none
  queued : ∀ n, ∀ b ∈ Q n, ∀ k, s.2.tcp_clients[b.orgin_client_id]? = some k →
    ⟨k, b.addr⟩ ∈ s.2.issues
  unique : ∀ i ∈ s.2.issues, ∀ j ∈ s.2.issues, i.busframe = j.busframe → i.client = j.client
  fresh : ∀ i ∈ s.2.issues, i.busframe < s.1.next
  law : ∀ d ∈ s.2.deliveries, ⟨d.client, d.busframe⟩ ∈ s.2.issues

namespace Wired

variable {Q Q' : String → List BusFrame} {h h' : FrameHeap} {s : Server}

theorem mono (hw : Wired Q (h, s)) (hQ : ∀ n, ∀ b ∈ Q' n, b ∈ Q n) (hn : h'.next = h.next) :
    Wired Q' (h', s) :=
  ⟨hw.entry, hw.zero, fun n b hb => hw.queued n b (hQ n b hb), hw.unique,
    fun i hi => (hw.fresh i hi).trans_eq hn.symm, hw.law⟩

/-- A client changes, but not its number, and is not opened. -/
theorem change (hw : Wired Q (h, s)) {k : ℕ} {c c' : TcpClient} (hc : s.clients k = some c)
    (hs : c'.socket = c.socket) (hopen : c'.h9socket.isSome → c.h9socket.isSome)
    {fds : Finset ℕ} : Wired Q (h, { s.setClient k c' with open_fds := fds }) where
  entry k' c'' hc'' ho := by
    have hc'' : Function.update s.clients k (some c') k' = some c'' := hc''
    by_cases hk : k' = k
    · subst hk
      rw [Function.update_self] at hc''
      obtain rfl := Option.some.inj hc''
      exact (congrArg (fun fd => s.tcp_clients[fd]?) hs).trans (hw.entry k' c hc (hopen ho))
    · rw [Function.update_of_ne hk] at hc''
      exact hw.entry k' c'' hc'' ho
  zero := hw.zero
  queued := hw.queued
  unique := hw.unique
  fresh := hw.fresh
  law := hw.law

theorem close (hw : Wired Q (h, s)) {k : ℕ} {c : TcpClient} (hc : s.clients k = some c) :
    Wired Q (h, s.closed k c) :=
  have hs : ({ c with h9socket := none, connected := false } : TcpClient).socket = c.socket := rfl
  hw.change hc hs fun ho => Bool.noConfusion ho

end Wired

theorem keeps_modify {f : Server → Server} (hi : ∀ s, (f s).issues = s.issues)
    (hd : ∀ s, (f s).deliveries = s.deliveries) :
    Keeps ToOriginator (onSnd (modify f) : Prog (BusMgr × Server) Exn Unit) := by
  rintro ⟨bm, s⟩ h
  change ToOriginator (bm, f s)
  unfold ToOriginator
  rw [hi, hd]
  exact h

end H9
