import H9.EventMgr
import H9.Proofs.BusRules

/-!
# What the clients' side keeps

Sending to a client and closing one change its object and nothing else but the descriptors that
are open. An invariant that bears these two changes (`ClientRule`) holds through every
message to the subscribers, through every frame on the bus, and through every message of a client.
-/

namespace H9

open Prog

/-- The client but for what it was sent, its name and its subscription. -/
structure TcpClient.Like (c' c : TcpClient) : Prop where
  socket : c'.socket = c.socket
  connected : c'.connected = c.connected
  h9socket : c'.h9socket.isSome = c.h9socket.isSome
  sends : ∀ a ∈ c'.sends, a ∈ c.sends

theorem TcpClient.stamped_like (c : TcpClient) : c.stamped.Like c :=
  ⟨rfl, rfl, rfl, fun _ h => List.mem_of_mem_tail h⟩

/-- The errors of a write that mean that the peer is gone. -/
def Errno.PeerGone (e : Errno) : Prop := e = .ECONNRESET ∨ e = .EPIPE ∨ e = .EBADF

namespace Server

/-- The state after the client `k`, which is `c`, was closed. -/
def closed (s : Server) (k : ℕ) (c : TcpClient) : Server :=
  { s.setClient k { c with h9socket := none, connected := false } with
    open_fds := if c.h9socket.isSome then s.open_fds.erase c.socket else s.open_fds }

/-- The state with one more delivery. -/
def delivered (s : Server) (d : Delivery) : Server := { s with deliveries := s.deliveries ++ [d] }

end Server

/-- `I` bears what is sent to a client, and that one is closed; `X` are the exits that it cannot
exclude. -/
structure ClientRule (X : Exn → Prop) (I : Server → Prop) : Prop where
  missing : ∀ {s : Server} {fd k : ℕ}, I s → s.tcp_clients[fd]? = some k → s.clients k = none → X .undefined
  answer : ∀ {s k c e}, I s → s.clients k = some c → c.answer = .error e → ¬ e.PeerGone →
    X (.system_error e)
  touch : ∀ {s k c c'}, I s → s.clients k = some c → c'.Like c → I (s.setClient k c')
  close : ∀ {s k c}, I s → s.clients k = some c → I (s.closed k c)

namespace Server

variable {X : Exn → Prop} {I : Server → Prop}

theorem setClient_setClient (s : Server) (k : ℕ) (c c' : TcpClient) :
    (s.setClient k c).setClient k c' = s.setClient k c' := by
  simp [setClient]

theorem client_some {s : Server} {k : ℕ} {c : TcpClient} (h : s.clients k = some c) :
    (client k).exec s = (.ok c, s) := by
  simp [client, h]

theorem client_none {s : Server} {k : ℕ} (h : s.clients k = none) :
    (client k).exec s = (.error .undefined, s) := by
  simp [client, h]

theorem send_rule (hI : ClientRule X I) (k : ℕ) (msg : GenericMsg) :
    Triple (fun s => I s ∧ (s.clients k = none → X .undefined)) (send k msg) (fun _ => I)
      fun e s => I s ∧ (e = .closeSocketException (.client k) ∨ X e) := by
  rintro s ⟨hs, hmiss⟩
  unfold send
  rcases hc : s.clients k with _ | c
  · rw [exec_bind, client_none hc]
    exact ⟨hs, .inr (hmiss hc)⟩
  · simp only [exec_bind, client_some hc, exec_modify]
    have hstamp : I (s.setClient k c.stamped) := hI.touch hs hc c.stamped_like
    rcases ha : c.answer with _ | _ | e
    · have hsent : I (s.setClient k
          { c.stamped with sent := c.sent ++ [msg.set_id c.stamped.next_msg_id] }) :=
        hI.touch hs hc ⟨rfl, rfl, rfl, c.stamped_like.sends⟩
      rw [exec_modify, setClient_setClient]
      exact hsent
    · rw [exec_throw]
      exact ⟨hstamp, .inl rfl⟩
    · rw [exec_ite]
      split_ifs with he
      · rw [exec_throw]
        exact ⟨hstamp, .inl rfl⟩
      · rw [exec_throw]
        exact ⟨hstamp, .inr (hI.answer hs hc ha he)⟩

theorem on_close_rule (hI : ClientRule X I) (k : ℕ) :
    Triple (fun s => I s ∧ (s.clients k = none → X .undefined)) (on_close k) (fun _ => I)
      fun e s => I s ∧ X e := by
  rintro s ⟨hs, hmiss⟩
  unfold on_close
  rcases hc : s.clients k with _ | c
  · rw [exec_bind, client_none hc]
    exact ⟨hs, hmiss hc⟩
  · simp only [exec_bind, client_some hc, exec_modify]
    exact hI.close hs hc

theorem rule_and (hI : ClientRule X I) (T : Std.TreeMap ℕ ℕ) :
    ClientRule X fun s => I s ∧ s.tcp_clients = T where
  missing hs := hI.missing hs.1
  answer hs := hI.answer hs.1
  touch hs hc hl := ⟨hI.touch hs.1 hc hl, hs.2⟩
  close hs hc := ⟨hI.close hs.1 hc, hs.2⟩

theorem closing_rule (hI : ClientRule X I) {k : ℕ} {p : Prog Server Exn Unit}
    (hmiss : ∀ s, I s → s.clients k = none → X .undefined)
    (hp : Triple I p (fun _ => I) fun e s => I s ∧ (e = .closeSocketException (.client k) ∨ X e)) :
    Triple I (closing k p) (fun _ => I) fun e s => I s ∧ X e := by
  refine Triple.tryCatch hp fun e => ?_
  rcases e with ref | _
  case closeSocketException =>
    exact (on_close_rule hI k).conseq (fun s hs => ⟨hs.1, hmiss s hs.1⟩) (fun _ _ h => h)
      fun _ _ h => h
  all_goals
    refine Triple.throw _ fun s hs => ⟨hs.1, hs.2.resolve_left ?_⟩
    exact fun h => Exn.noConfusion h

/-- A message to the subscribers: none of them makes it leave but by `X`. -/
theorem send_msg_to_subscriber_rule (hI : ClientRule X I) (msg : GenericMsg) {orgin_client_id : ℕ}
    {orgin_msg_id : UInt64} {busframe : ℕ}
    (hlog : ∀ s k, I s → s.tcp_clients[orgin_client_id]? = some k →
      I (s.delivered ⟨k, busframe, msg.set_request_id orgin_msg_id⟩)) :
    Triple I (send_msg_to_subscriber msg orgin_client_id orgin_msg_id busframe) (fun _ => I)
      fun e s => I s ∧ X e := by
  refine Triple.get_bind fun s₀ => ?_
  set T := s₀.tcp_clients with hT
  have hJ := rule_and hI T
  refine Triple.conseq (P := fun s => I s ∧ s.tcp_clients = T)
    (Triple.forEach T.toList fun it hit => ?_) (fun s hs => ⟨hs.1, by rw [hs.2]⟩)
    (fun _ _ h => h.1) fun e s (h : (I s ∧ s.tcp_clients = T) ∧ X e) => ⟨h.1.1, h.2⟩
  have hentry : T[it.1]? = some it.2 := Std.TreeMap.mem_toList_iff_getElem?_eq_some.1 hit
  have hmiss : ∀ s, I s ∧ s.tcp_clients = T → s.clients it.2 = none → X .undefined :=
    fun s hs => hI.missing hs.1 (by rw [hs.2]; exact hentry)
  have hsend := fun msg => (send_rule hJ it.2 msg).conseq (fun s hs => ⟨hs, hmiss s hs⟩)
    (fun _ _ h => h) fun _ _ h => h
  refine Triple.bind (M := fun _ s => I s ∧ s.tcp_clients = T) (fun s hs => ?_) fun c => ?_
  · rcases hc : s.clients it.2 with _ | c
    · rw [client_none hc]
      exact ⟨hs, hmiss s hs hc⟩
    · rw [client_some hc]
      exact hs
  refine Triple.ite (fun hid => ?_) fun _ => Triple.ite (fun _ => ?_) fun _ =>
    Triple.pure _ fun _ h => h
  · refine closing_rule hJ hmiss (Triple.bind (hsend _) fun _ => Triple.modify _ fun s hs => ?_)
    refine ⟨hlog s it.2 hs.1 ?_, hs.2⟩
    rw [hs.2, ← hid]
    exact hentry
  · exact closing_rule hJ hmiss (hsend _)

end Server

end H9
