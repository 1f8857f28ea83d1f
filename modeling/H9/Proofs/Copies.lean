import H9.Proofs.Replies
import H9.Proofs.ServerRules

/-!
# A message to the subscribers

The loop over the clients sends one message, which each client it goes to stamps with its own id,
and a copy with the request id to the originator. What one client has put into the message the
next one replaces (`Restamped`), so the loop is that over an unchanged message
(`exec_send_shared`). Each turn of that one tells its client or closes it, and touches no other
(`visited`).
-/

namespace H9

open Prog GenericMsg

/-! ### Properties that are set twice -/

namespace XmlElement

theorem setProp_setProp (name v w : String) :
    ∀ ps : List (String × String), setProp name v (setProp name w ps) = setProp name v ps
  | [] => by simp [setProp]
  | p :: ps => by
    have ih := setProp_setProp name v w ps
    by_cases hp : p.1 = name
    · simp [setProp, hp]
    · simp [setProp, hp, ih]

theorem setProp_comm {name name' : String} (hne : name ≠ name') (v w : String) :
    ∀ {ps : List (String × String)}, name ∈ ps.map Prod.fst →
      setProp name' w (setProp name v ps) = setProp name v (setProp name' w ps)
  | p :: ps, h => by
    by_cases hp : p.1 = name
    · have hp' : p.1 ≠ name' := fun h' => hne (hp.symm.trans h')
      simp [setProp, hp, hne]
    · have hmem : name ∈ ps.map Prod.fst := by
        rcases List.mem_cons.1 h with heq | hmem
        · exact absurd heq.symm hp
        · exact hmem
      have ih := setProp_comm hne v w hmem
      by_cases hp' : p.1 = name'
      · simp [setProp, hp', hne.symm]
      · simp [setProp, hp, hp', ih]

theorem lookup_setProp_of_ne {name name' : String} (hne : name' ≠ name) (v : String) :
    ∀ ps : List (String × String), (setProp name v ps).lookup name' = ps.lookup name'
  | [] => by
    have hbeq : (name' == name) = false := by simpa using hne
    rw [setProp, List.lookup_cons, hbeq]
  | p :: ps => by
    have ih := lookup_setProp_of_ne hne v ps
    have hbeq : (name' == name) = false := by simpa using hne
    rw [setProp]
    split_ifs with hp
    · rw [List.lookup_cons, List.lookup_cons, hp, hbeq]
    · rw [List.lookup_cons, List.lookup_cons, ih]

end XmlElement

/-- The message has an id, as every new one. -/
def GenericMsg.HasId (msg : GenericMsg) : Prop := "id" ∈ msg.props.map Prod.fst

theorem GenericMsg.hasId_create (node : XmlElement) : (create node).HasId := by
  simp [GenericMsg.HasId, create]

/-- `m` is `msg`, possibly with another id. -/
def GenericMsg.Restamped (m msg : GenericMsg) : Prop := m = msg ∨ ∃ id, m = msg.set_id id

theorem GenericMsg.set_id_set_id (msg : GenericMsg) (a b : UInt64) :
    (msg.set_id a).set_id b = msg.set_id b := by
  simp only [set_id, XmlElement.xmlSetProp, XmlElement.setProp_setProp]

theorem GenericMsg.set_request_id_set_id {msg : GenericMsg} (h : msg.HasId) (a b : UInt64) :
    (msg.set_id a).set_request_id b = (msg.set_request_id b).set_id a := by
  have hcomm : XmlElement.setProp "request-id" (toString b.toNat)
      (XmlElement.setProp "id" (toString a.toNat) msg.props) =
        XmlElement.setProp "id" (toString a.toNat)
          (XmlElement.setProp "request-id" (toString b.toNat) msg.props) :=
    XmlElement.setProp_comm (by decide) _ _ h
  simp only [set_id, set_request_id, XmlElement.xmlSetProp, hcomm]

namespace GenericMsg.Restamped

variable {m msg : GenericMsg}

theorem set_id (h : Restamped m msg) (id : UInt64) : Restamped (m.set_id id) msg := by
  rcases h with rfl | ⟨a, rfl⟩
  · exact .inr ⟨id, rfl⟩
  · exact .inr ⟨id, set_id_set_id msg a id⟩

theorem set_id_eq (h : Restamped m msg) (id : UInt64) : m.set_id id = msg.set_id id := by
  rcases h with rfl | ⟨a, rfl⟩
  · rfl
  · exact set_id_set_id msg a id

theorem set_request_id_eq (h : Restamped m msg) (hid : msg.HasId) (r id : UInt64) :
    (m.set_request_id r).set_id id = (msg.set_request_id r).set_id id := by
  rcases h with rfl | ⟨a, rfl⟩
  · rfl
  · rw [set_request_id_set_id hid, set_id_set_id]

end GenericMsg.Restamped

namespace Server

/-- A client stamps what it sends, so the id it had does not matter. -/
theorem send_congr (k : ℕ) {m m' : GenericMsg} (h : ∀ id, m.set_id id = m'.set_id id) :
    send k m = send k m' := by
  unfold send
  simp only [h]

/-- The loop over the one message does what the loop over the unchanged message does. -/
theorem exec_send_shared {msg : GenericMsg} (hid : msg.HasId) (orgin_client_id : ℕ)
    (orgin_msg_id : UInt64) (busframe : ℕ) (s : Server) :
    ∃ m, (send_shared_msg_to_subscriber msg orgin_client_id orgin_msg_id busframe).exec (msg, s) =
      (((send_msg_to_subscriber msg orgin_client_id orgin_msg_id busframe).exec s).1,
        (m, ((send_msg_to_subscriber msg orgin_client_id orgin_msg_id busframe).exec s).2)) := by
  unfold send_shared_msg_to_subscriber send_msg_to_subscriber
  simp only [exec_bind, exec_onSnd, exec_get]
  refine (exec_forEach_onSnd (J := fun m => Restamped m msg) (fun it m t hm => ?_)
    s.tcp_clients.toList msg s (.inl rfl)).imp fun _ => And.right
  simp only [exec_bind, exec_onSnd]
  rcases (client it.2).exec t with ⟨e | c, t⟩
  · exact ⟨m, hm, rfl⟩
  · simp only [exec_ite]
    split_ifs
    · have hsend := send_congr it.2 (hm.set_request_id_eq hid orgin_msg_id)
      refine ⟨m, hm, ?_⟩
      simp only [exec_bind, exec_getFst, exec_onSnd, hsend]
    · have hsend := send_congr it.2 (hm.set_id c.stamped.next_msg_id).set_id_eq
      refine ⟨_, hm.set_id c.stamped.next_msg_id, ?_⟩
      simp only [exec_bind, exec_modifyFst, exec_getFst, exec_onSnd, hsend]
    · exact ⟨m, hm, rfl⟩

end Server

/-! ### One turn of the loop -/

/-- The client after it was sent `m`: it has it, or it is closed. -/
def TcpClient.told (c : TcpClient) (m : GenericMsg) : TcpClient :=
  if c.answer = .count then { c.stamped with sent := c.sent ++ [m.set_id c.stamped.next_msg_id] }
  else { c.stamped with h9socket := none, connected := false }

/-- The client is closed if it is sent something. -/
def TcpClient.Lost (c : TcpClient) : Prop := c.answer ≠ .count ∧ c.h9socket.isSome

instance (c : TcpClient) : Decidable c.Lost := inferInstanceAs (Decidable (_ ∧ _))

/-- A write to it that fails says that the peer is gone. -/
def TcpClient.FailsAsClosed (c : TcpClient) : Prop := ∀ e, c.answer = .error e → e.PeerGone

namespace Server

/-- The state after the client `k`, which is `c`, was sent `m`. -/
def tell (s : Server) (k : ℕ) (c : TcpClient) (m : GenericMsg) : Server :=
  { s.setClient k (c.told m) with
    open_fds := if c.Lost then s.open_fds.erase c.socket else s.open_fds }

theorem exec_send_closing {s : Server} {k : ℕ} {c : TcpClient} (hc : s.clients k = some c)
    (hfail : c.FailsAsClosed) (m : GenericMsg) :
    (send k m).exec s = if c.answer = .count then (.ok (), s.tell k c m)
      else (.error (.closeSocketException (.client k)), s.setClient k c.stamped) := by
  unfold send
  simp only [exec_bind, client_some hc, exec_modify]
  rcases ha : c.answer with _ | _ | e
  · simp [tell, TcpClient.told, TcpClient.Lost, ha, setClient_setClient]
    rfl
  · rfl
  · have hgone : e = .ECONNRESET ∨ e = .EPIPE ∨ e = .EBADF := hfail e ha
    rw [exec_ite, if_pos hgone]
    rfl

theorem exec_send_logged {s : Server} {k : ℕ} {c : TcpClient} (hc : s.clients k = some c)
    (hfail : c.FailsAsClosed) (m : GenericMsg) (f : Server → Server) :
    (do send k m; modify f : Prog Server Exn Unit).exec s =
      if c.answer = .count then (.ok (), f (s.tell k c m))
      else (.error (.closeSocketException (.client k)), s.setClient k c.stamped) := by
  rw [exec_bind, exec_send_closing hc hfail]
  split_ifs <;> rfl

theorem exec_closing {s t : Server} {k : ℕ} {c : TcpClient} (m : GenericMsg)
    {p : Prog Server Exn Unit} (hp : p.exec s = if c.answer = .count then (.ok (), t)
      else (.error (.closeSocketException (.client k)), s.setClient k c.stamped)) :
    (closing k p).exec s = (.ok (), if c.answer = .count then t else s.tell k c m) := by
  have hstamped : (s.setClient k c.stamped).clients k = some c.stamped := Function.update_self ..
  unfold closing
  rw [exec_tryCatch, hp]
  split_ifs with ha
  · rfl
  · have hlost : c.Lost ↔ c.stamped.h9socket.isSome := ⟨And.right, fun hopen => ⟨ha, hopen⟩⟩
    simp only [on_close, exec_bind, client_some hstamped, exec_modify, setClient_setClient, tell,
      TcpClient.told, if_neg ha, hlost]
    rfl

/-- The message for the client at a descriptor, if there is one. -/
def copyFor (msg : GenericMsg) (orgin_client_id : ℕ) (orgin_msg_id : UInt64) (fd : ℕ)
    (c : TcpClient) : Option GenericMsg :=
  if fd = orgin_client_id then some (msg.set_request_id orgin_msg_id)
  else if c.active_subscription then some msg else none

variable (msg : GenericMsg) (orgin_client_id : ℕ) (orgin_msg_id : UInt64) (busframe : ℕ)

/-- The state after the loop came to a client. -/
def visited (s : Server) (it : ℕ × ℕ) : Server :=
  match s.clients it.2 with
  | none => s
  | some c =>
    match copyFor msg orgin_client_id orgin_msg_id it.1 c with
    | none => s
    | some m =>
      if it.1 = orgin_client_id ∧ c.answer = .count then
        (s.tell it.2 c m).delivered ⟨it.2, busframe, m⟩
      else s.tell it.2 c m

/-- The clients of these entries are there, each in one entry, and their writes fail as closed if
they fail. -/
structure Told (l : List (ℕ × ℕ)) (s : Server) : Prop where
  nodup : (l.map Prod.snd).Nodup
  there : ∀ it ∈ l, ∃ c, s.clients it.2 = some c ∧ c.FailsAsClosed

variable {msg orgin_client_id orgin_msg_id busframe}

theorem visited_clients_of_ne (s : Server) (it : ℕ × ℕ) {k : ℕ} (hk : k ≠ it.2) :
    (visited msg orgin_client_id orgin_msg_id busframe s it).clients k = s.clients k := by
  unfold visited
  split
  · rfl
  · split
    · rfl
    · split_ifs <;> exact Function.update_of_ne hk _ _

theorem Told.tail {it : ℕ × ℕ} {l : List (ℕ × ℕ)} {s : Server} (h : Told (it :: l) s) :
    Told l (visited msg orgin_client_id orgin_msg_id busframe s it) where
  nodup := (List.nodup_cons.1 h.nodup).2
  there it' hit' := by
    have hne : it'.2 ≠ it.2 := fun heq =>
      (List.nodup_cons.1 h.nodup).1 (heq ▸ List.mem_map_of_mem hit')
    rw [visited_clients_of_ne s it hne]
    exact h.there it' (List.mem_cons_of_mem it hit')

/-- One turn of the loop. -/
def visit (msg : GenericMsg) (orgin_client_id : ℕ) (orgin_msg_id : UInt64) (busframe : ℕ)
    (it : ℕ × ℕ) : Prog Server Exn Unit := do
  let c ← client it.2
  if it.1 = orgin_client_id then
    closing it.2 do
      let tmp_msg := msg.set_request_id orgin_msg_id
      send it.2 tmp_msg
      modify fun s => { s with deliveries := s.deliveries ++ [⟨it.2, busframe, tmp_msg⟩] }
  else if c.active_subscription then closing it.2 (send it.2 msg)

theorem exec_visit {s : Server} {it : ℕ × ℕ} {c : TcpClient} (hc : s.clients it.2 = some c)
    (hfail : it.1 = orgin_client_id ∨ c.active_subscription = true → c.FailsAsClosed) :
    (visit msg orgin_client_id orgin_msg_id busframe it).exec s =
      (.ok (), visited msg orgin_client_id orgin_msg_id busframe s it) := by
  unfold visit
  simp only [exec_bind, client_some hc, exec_ite]
  by_cases hfd : it.1 = orgin_client_id
  · rw [if_pos hfd]
    refine (exec_closing (msg.set_request_id orgin_msg_id)
      (exec_send_logged hc (hfail (.inl hfd)) _ _)).trans ?_
    simp only [visited, hc, copyFor, hfd, true_and]
    rfl
  · rw [if_neg hfd]
    by_cases hsub : c.active_subscription = true
    · rw [if_pos hsub, exec_closing msg (exec_send_closing hc (hfail (.inr hsub)) msg), ite_self]
      simp only [visited, hc, copyFor, if_pos hsub, hfd, false_and, if_false]
    · rw [if_neg hsub, exec_pure]
      simp only [visited, hc, copyFor, if_neg hfd, if_neg hsub]

/-- The loop comes to the end. -/
theorem exec_send_msg_to_subscriber {s : Server} (h : Told s.tcp_clients.toList s) :
    (send_msg_to_subscriber msg orgin_client_id orgin_msg_id busframe).exec s =
      (.ok (), s.tcp_clients.toList.foldl (visited msg orgin_client_id orgin_msg_id busframe) s) := by
  unfold send_msg_to_subscriber
  rw [exec_bind, exec_get]
  refine exec_forEach_foldl (P := Told) (fun it l s h => ⟨?_, h.tail⟩) _ _ h
  obtain ⟨c, hc, hfail⟩ := h.there it List.mem_cons_self
  exact exec_visit hc fun _ => hfail

/-! ### The whole loop -/

/-- What the loop makes of a client at a descriptor. -/
def after (msg : GenericMsg) (orgin_client_id : ℕ) (orgin_msg_id : UInt64) (fd : ℕ) (c : TcpClient) :
    TcpClient :=
  match copyFor msg orgin_client_id orgin_msg_id fd c with
  | none => c
  | some m => c.told m

theorem visited_clients_self {s : Server} {it : ℕ × ℕ} {c : TcpClient}
    (hc : s.clients it.2 = some c) :
    (visited msg orgin_client_id orgin_msg_id busframe s it).clients it.2 =
      some (after msg orgin_client_id orgin_msg_id it.1 c) := by
  unfold visited after
  rw [hc]
  dsimp only
  split
  · exact hc
  · split_ifs <;> exact Function.update_self ..

theorem visited_tcp_clients (s : Server) (it : ℕ × ℕ) :
    (visited msg orgin_client_id orgin_msg_id busframe s it).tcp_clients = s.tcp_clients := by
  unfold visited
  split
  · rfl
  · split
    · rfl
    · split_ifs <;> rfl

theorem visited_open_fds {s : Server} {it : ℕ × ℕ} {c : TcpClient} (hc : s.clients it.2 = some c)
    (fd : ℕ) : fd ∈ (visited msg orgin_client_id orgin_msg_id busframe s it).open_fds ↔
      fd ∈ s.open_fds ∧ ¬ ((copyFor msg orgin_client_id orgin_msg_id it.1 c).isSome ∧ c.Lost ∧
        fd = c.socket) := by
  unfold visited
  rw [hc]
  dsimp only
  split
  · next hnone => simp [hnone]
  · next m hsome =>
    have hfds : ((if it.1 = orgin_client_id ∧ c.answer = .count then
        (s.tell it.2 c m).delivered ⟨it.2, busframe, m⟩ else s.tell it.2 c m)).open_fds =
          (s.tell it.2 c m).open_fds := by
      by_cases hlog : it.1 = orgin_client_id ∧ c.answer = .count
      · rw [if_pos hlog]
        rfl
      · rw [if_neg hlog]
    rw [hfds, hsome]
    by_cases hlost : c.Lost
    · simp [tell, hlost, and_comm]
    · simp [tell, hlost]

theorem foldl_visited_of_not_mem : ∀ {l : List (ℕ × ℕ)} {s : Server} {k : ℕ}, k ∉ l.map Prod.snd →
    (l.foldl (visited msg orgin_client_id orgin_msg_id busframe) s).clients k = s.clients k
  | [], _, _, _ => rfl
  | it :: l, s, k, hk => by
    rw [List.map_cons, List.mem_cons, not_or] at hk
    rw [List.foldl_cons, foldl_visited_of_not_mem hk.2, visited_clients_of_ne s it hk.1]

theorem foldl_visited_of_mem : ∀ {l : List (ℕ × ℕ)} {s : Server}, (l.map Prod.snd).Nodup →
    ∀ it ∈ l, ∀ c, s.clients it.2 = some c →
      (l.foldl (visited msg orgin_client_id orgin_msg_id busframe) s).clients it.2 =
        some (after msg orgin_client_id orgin_msg_id it.1 c)
  | it' :: l, s, h, it, hit, c, hc => by
    obtain ⟨hnot, hnodup⟩ := List.nodup_cons.1 h
    rw [List.foldl_cons]
    rcases List.mem_cons.1 hit with rfl | hit
    · rw [foldl_visited_of_not_mem hnot, visited_clients_self hc]
    · have hne : it.2 ≠ it'.2 := fun heq => hnot (heq ▸ List.mem_map_of_mem hit)
      refine foldl_visited_of_mem hnodup it hit c ?_
      rwa [visited_clients_of_ne s it' hne]

theorem foldl_visited_tcp_clients : ∀ (l : List (ℕ × ℕ)) (s : Server),
    (l.foldl (visited msg orgin_client_id orgin_msg_id busframe) s).tcp_clients = s.tcp_clients
  | [], _ => rfl
  | it :: l, s => by
    rw [List.foldl_cons, foldl_visited_tcp_clients l, visited_tcp_clients]

theorem foldl_visited_open_fds (fd : ℕ) : ∀ {l : List (ℕ × ℕ)} {s : Server}, Told l s →
    (fd ∈ (l.foldl (visited msg orgin_client_id orgin_msg_id busframe) s).open_fds ↔
      fd ∈ s.open_fds ∧ ∀ it ∈ l, ∀ c, s.clients it.2 = some c →
        ¬ ((copyFor msg orgin_client_id orgin_msg_id it.1 c).isSome ∧ c.Lost ∧ fd = c.socket))
  | [], s, _ => by simp
  | it :: l, s, h => by
    obtain ⟨c, hc, -⟩ := h.there it List.mem_cons_self
    have hnot := (List.nodup_cons.1 h.nodup).1
    have hrest : ∀ it' ∈ l, (visited msg orgin_client_id orgin_msg_id busframe s it).clients it'.2 =
        s.clients it'.2 := fun it' hit' =>
      visited_clients_of_ne s it fun heq => hnot (heq ▸ List.mem_map_of_mem hit')
    rw [List.foldl_cons, foldl_visited_open_fds fd h.tail, visited_open_fds hc, and_assoc]
    refine and_congr_right fun _ => ?_
    rw [List.forall_mem_cons]
    refine and_congr ?_ (forall₂_congr fun it' hit' => by rw [hrest it' hit'])
    simp only [hc, Option.some.injEq, forall_eq']

/-! ### Who gets a copy -/

/-- The connected clients are at their own descriptors, none of which is 0, and a write to one of
them fails as closed if it fails. -/
structure Populated (s : Server) : Prop where
  client : ∀ fd k, s.tcp_clients[fd]? = some k →
    ∃ c, s.clients k = some c ∧ c.socket = fd ∧ c.FailsAsClosed
  positive : ∀ fd k, s.tcp_clients[fd]? = some k → 0 < fd

/-- The originator of a frame, its descriptor and the id of its message, if it has one. -/
abbrev Originator := Option (ℕ × UInt64)

/-- A client gets a copy if it subscribed or is the originator. -/
def Receives (o : Originator) (fd : ℕ) (c : TcpClient) : Prop :=
  (∃ id, o = some (fd, id)) ∨ c.active_subscription = true

/-- The request id for a client, which is the originator's. -/
def requestId : Originator → ℕ → Option UInt64
  | some (fd', id), fd => if fd' = fd then some id else none
  | none, _ => none

/-- The message with that id, and with a request id or without one. -/
structure CopyOf (msg : GenericMsg) (id : UInt64) (request_id : Option UInt64) (copy : GenericMsg) :
    Prop where
  name : copy.name = msg.name
  children : copy.children = msg.children
  id : copy.xmlGetProp "id" = some (toString id.toNat)
  request_id : copy.xmlGetProp "request-id" = request_id.map fun r => toString r.toNat
  props : ∀ prop, prop ≠ "id" → prop ≠ "request-id" → copy.xmlGetProp prop = msg.xmlGetProp prop

/-- One copy to each receiver with the receiver's own next id, none to any other, and who cannot be
written to is closed, and nobody else. -/
structure Copied (msg : GenericMsg) (o : Originator) (s s' : Server) : Prop where
  copy : ∀ fd k c, s.tcp_clients[fd]? = some k → s.clients k = some c → Receives o fd c →
    c.answer = .count → ∃ copy,
      CopyOf msg (H9MsgSocket.get_next_id c.next_msg_id) (requestId o fd) copy ∧
      s'.clients k = some { c.stamped with sent := c.sent ++ [copy] }
  closed : ∀ fd k c, s.tcp_clients[fd]? = some k → s.clients k = some c → Receives o fd c →
    c.answer ≠ .count → s'.clients k = some { c.stamped with h9socket := none, connected := false }
  other : ∀ fd k c, s.tcp_clients[fd]? = some k → s.clients k = some c → ¬ Receives o fd c →
    s'.clients k = some c
  absent : ∀ k, (∀ fd : ℕ, s.tcp_clients[fd]? ≠ some k) → s'.clients k = s.clients k
  tcp_clients : s'.tcp_clients = s.tcp_clients
  open_fds : ∀ fd, fd ∈ s'.open_fds ↔ fd ∈ s.open_fds ∧ ∀ k c, s.tcp_clients[fd]? = some k →
    s.clients k = some c → Receives o fd c → ¬ c.Lost

theorem Populated.told {s : Server} (h : s.Populated) : Told s.tcp_clients.toList s where
  nodup := by
    refine List.pairwise_map.2 (s.tcp_clients.distinct_keys_toList.imp_of_mem
      fun {it it'} hit hit' hne heq => hne ?_)
    -- two entries of one client would both be at its own descriptor
    obtain ⟨c, hc, hfd, -⟩ := h.client _ _ (Std.TreeMap.mem_toList_iff_getElem?_eq_some.1 hit)
    obtain ⟨c', hc', hfd', -⟩ := h.client _ _ (Std.TreeMap.mem_toList_iff_getElem?_eq_some.1 hit')
    rw [heq] at hc
    obtain rfl := Option.some.inj (hc.symm.trans hc')
    rw [← hfd, ← hfd']
    exact Std.ReflCmp.compare_self
  there it hit := by
    obtain ⟨c, hc, -, hfail⟩ := h.client _ _ (Std.TreeMap.mem_toList_iff_getElem?_eq_some.1 hit)
    exact ⟨c, hc, hfail⟩

theorem copyOf_stamped {msg : GenericMsg} (hnone : msg.xmlGetProp "request-id" = none)
    (id : UInt64) : CopyOf msg id none (msg.set_id id) where
  name := rfl
  children := rfl
  id := XmlElement.lookup_setProp _ _ _
  request_id := (XmlElement.lookup_setProp_of_ne (by decide) _ _).trans hnone
  props prop hid _ := XmlElement.lookup_setProp_of_ne hid _ _

theorem copyOf_answered (msg : GenericMsg) (r id : UInt64) :
    CopyOf msg id (some r) ((msg.set_request_id r).set_id id) where
  name := rfl
  children := rfl
  id := XmlElement.lookup_setProp _ _ _
  request_id := (XmlElement.lookup_setProp_of_ne (by decide) _ _).trans (XmlElement.lookup_setProp _ _ _)
  props prop hid hrequest := (XmlElement.lookup_setProp_of_ne hid _ _).trans
    (XmlElement.lookup_setProp_of_ne hrequest _ _)

theorem told_of_count {c : TcpClient} (h : c.answer = .count) (m : GenericMsg) : c.told m =
    { c.stamped with sent := c.sent ++ [m.set_id (H9MsgSocket.get_next_id c.next_msg_id)] } :=
  if_pos h

theorem told_of_ne {c : TcpClient} (h : c.answer ≠ .count) (m : GenericMsg) :
    c.told m = { c.stamped with h9socket := none, connected := false } :=
  if_neg h

theorem receives_iff {o : Originator} {fd : ℕ} {c : TcpClient} :
    Receives o fd c ↔ (requestId o fd).isSome ∨ c.active_subscription = true := by
  refine or_congr_left ?_
  rcases o with _ | ⟨fd', id⟩
  · simp [requestId]
  · simp only [requestId, Option.some.injEq, Prod.mk.injEq, exists_and_left, exists_eq', and_true]
    split_ifs with h <;> simp [h]

section Loop

variable {o : Originator} {fd : ℕ}

/-- The arguments of the loop name the originator. -/
def Names (orgin_client_id : ℕ) (orgin_msg_id : UInt64) (o : Originator) (fd : ℕ) : Prop :=
  requestId o fd = if fd = orgin_client_id then some orgin_msg_id else none

theorem copyFor_isSome (ho : Names orgin_client_id orgin_msg_id o fd) (c : TcpClient) :
    (copyFor msg orgin_client_id orgin_msg_id fd c).isSome ↔ Receives o fd c := by
  rw [receives_iff, ho, copyFor]
  split_ifs with hfd hsub <;> simp [*]

theorem copyOf_copyFor (hnone : msg.xmlGetProp "request-id" = none)
    (ho : Names orgin_client_id orgin_msg_id o fd) {c : TcpClient} {m : GenericMsg}
    (hm : copyFor msg orgin_client_id orgin_msg_id fd c = some m) (id : UInt64) :
    CopyOf msg id (requestId o fd) (m.set_id id) := by
  rw [ho]
  rw [copyFor] at hm
  split_ifs at hm ⊢ with hfd hsub
  · exact Option.some.inj hm ▸ copyOf_answered msg orgin_msg_id id
  · exact Option.some.inj hm ▸ copyOf_stamped hnone id

theorem copied_foldl {s : Server} (h : s.Populated) (hnone : msg.xmlGetProp "request-id" = none)
    (ho : ∀ fd k, s.tcp_clients[fd]? = some k → Names orgin_client_id orgin_msg_id o fd) :
    Copied msg o s
      (s.tcp_clients.toList.foldl (visited msg orgin_client_id orgin_msg_id busframe) s) := by
  have hentry {fd k : ℕ} (hk : s.tcp_clients[fd]? = some k) : (fd, k) ∈ s.tcp_clients.toList :=
    Std.TreeMap.mem_toList_iff_getElem?_eq_some.2 hk
  have hafter (fd k : ℕ) (c : TcpClient) (hk : s.tcp_clients[fd]? = some k)
      (hc : s.clients k = some c) : (s.tcp_clients.toList.foldl
        (visited msg orgin_client_id orgin_msg_id busframe) s).clients k =
          some (after msg orgin_client_id orgin_msg_id fd c) :=
    foldl_visited_of_mem h.told.nodup _ (hentry hk) c hc
  have hsome (fd k : ℕ) (c : TcpClient) (hk : s.tcp_clients[fd]? = some k)
      (hr : Receives o fd c) : ∃ m, copyFor msg orgin_client_id orgin_msg_id fd c = some m :=
    Option.isSome_iff_exists.1 ((copyFor_isSome (ho fd k hk) c).2 hr)
  exact {
    copy := by
      intro fd k c hk hc hr ha
      obtain ⟨m, hm⟩ := hsome fd k c hk hr
      refine ⟨_, copyOf_copyFor hnone (ho fd k hk) hm _, (hafter fd k c hk hc).trans ?_⟩
      simp only [after, hm, told_of_count ha]
    closed := by
      intro fd k c hk hc hr ha
      obtain ⟨m, hm⟩ := hsome fd k c hk hr
      refine (hafter fd k c hk hc).trans ?_
      simp only [after, hm, told_of_ne ha]
    other := by
      intro fd k c hk hc hr
      have hm : copyFor msg orgin_client_id orgin_msg_id fd c = none :=
        Option.not_isSome_iff_eq_none.1 fun hsome => hr ((copyFor_isSome (ho fd k hk) c).1 hsome)
      refine (hafter fd k c hk hc).trans ?_
      simp only [after, hm]
    absent := by
      intro k hk
      refine foldl_visited_of_not_mem fun hmem => ?_
      obtain ⟨it, hit, rfl⟩ := List.mem_map.1 hmem
      exact hk it.1 (Std.TreeMap.mem_toList_iff_getElem?_eq_some.1 hit)
    tcp_clients := foldl_visited_tcp_clients _ _
    open_fds := by
      intro fd
      rw [foldl_visited_open_fds fd h.told]
      refine and_congr_right fun _ => ⟨fun hall k c hk hc hr hlost => ?_, fun hall it hit c hc hbad => ?_⟩
      · obtain ⟨c', hc', hfd, -⟩ := h.client fd k hk
        obtain rfl := Option.some.inj (hc.symm.trans hc')
        exact hall _ (hentry hk) c hc ⟨(copyFor_isSome (ho fd k hk) c).2 hr, hlost, hfd.symm⟩
      · have hk := Std.TreeMap.mem_toList_iff_getElem?_eq_some.1 hit
        obtain ⟨c', hc', hfd, -⟩ := h.client _ _ hk
        obtain rfl := Option.some.inj (hc.symm.trans hc')
        obtain rfl := hbad.2.2.trans hfd
        exact hall it.2 c hk hc ((copyFor_isSome (ho _ _ hk) c).1 hbad.1) hbad.2.1 }

/-- The loop over the one message, which has an id and no request id. -/
theorem exec_copied {s : Server} (h : s.Populated) (hid : msg.HasId)
    (hnone : msg.xmlGetProp "request-id" = none) (busframe : ℕ)
    (ho : ∀ fd k, s.tcp_clients[fd]? = some k → Names orgin_client_id orgin_msg_id o fd) :
    ∃ m s', (send_shared_msg_to_subscriber msg orgin_client_id orgin_msg_id busframe).exec (msg, s) =
      (.ok (), (m, s')) ∧ Copied msg o s s' := by
  obtain ⟨m, hm⟩ := exec_send_shared hid orgin_client_id orgin_msg_id busframe s
  rw [exec_send_msg_to_subscriber h.told] at hm
  exact ⟨m, _, hm, copied_foldl h hnone ho⟩

end Loop

/-- A frame that was sent goes to its originator and to the subscribers, one that was received to
the subscribers. -/
theorem frame_copied {s : Server} (h : s.Populated) (b : BusFrame) (endpoint : String) :
    let msg := FrameMsg b.frame b.origin endpoint
    (∃ m s', (send_shared_msg_to_subscriber msg b.orgin_client_id b.orgin_msg_id b.addr).exec
        (msg, s) = (.ok (), (m, s')) ∧ Copied msg (some (b.orgin_client_id, b.orgin_msg_id)) s s') ∧
      ∃ m s', (send_shared_msg_to_subscriber msg 0 0 b.addr).exec (msg, s) = (.ok (), (m, s')) ∧
        Copied msg none s s' := by
  intro msg
  have hid : msg.HasId := GenericMsg.hasId_create _
  have hnone : msg.xmlGetProp "request-id" = none := rfl
  refine ⟨exec_copied h hid hnone b.addr fun fd k _ => ?_, exec_copied h hid hnone b.addr fun fd k hk => ?_⟩
  · simp only [Names, requestId, eq_comm]
  · exact (if_neg (h.positive fd k hk).ne').symm

/-- A subscriber at 5, the originator of a frame at 7, and a subscriber at 9 whose peer is gone. -/
def threeClients : Server where
  socket_set := ∅
  event_socket_set := ∅
  socket_max := 9
  tcp_server := 3
  tcp_clients := ((Std.TreeMap.empty.insert 5 0).insert 7 1).insert 9 2
  clients
    | 0 => some { TcpClient.new 5 "" "" [] with active_subscription := true, next_msg_id := 3 }
    | 1 => some (TcpClient.new 7 "" "" [])
    | 2 => some { TcpClient.new 9 "" "" [.error .EPIPE] with active_subscription := true }
    | _ => none
  next_client := 3
  open_fds := {3, 5, 7, 9}
  issues := []
  deliveries := []

theorem entries_threeClients {fd k : ℕ} (h : threeClients.tcp_clients[fd]? = some k) :
    fd = 5 ∧ k = 0 ∨ fd = 7 ∧ k = 1 ∨ fd = 9 ∧ k = 2 := by
  simp only [threeClients, Std.TreeMap.getElem?_insert, Std.LawfulEqCmp.compare_eq_iff_eq] at h
  split_ifs at h with h9 h7 h5
  · exact .inr (.inr ⟨h9.symm, (Option.some.inj h).symm⟩)
  · exact .inr (.inl ⟨h7.symm, (Option.some.inj h).symm⟩)
  · exact .inl ⟨h5.symm, (Option.some.inj h).symm⟩
  · simp at h

theorem populated_threeClients : threeClients.Populated where
  client fd k hk := by
    rcases entries_threeClients hk with ⟨rfl, rfl⟩ | ⟨rfl, rfl⟩ | ⟨rfl, rfl⟩
    · exact ⟨_, rfl, rfl, fun e he => by cases he⟩
    · exact ⟨_, rfl, rfl, fun e he => by cases he⟩
    · exact ⟨_, rfl, rfl, fun e he => WriteAnswer.error.inj he ▸ .inr (.inl rfl)⟩
  positive fd k hk := by
    rcases entries_threeClients hk with ⟨rfl, -⟩ | ⟨rfl, -⟩ | ⟨rfl, -⟩ <;> decide

/-- The frame is sent for the client at 7. -/
theorem frame_copied_threeClients :
    let b : BusFrame := ⟨1, H9frame.new, "client", 7, 4⟩
    let msg := FrameMsg b.frame b.origin "can0"
    (∃ m s', (send_shared_msg_to_subscriber msg 7 4 1).exec (msg, threeClients) = (.ok (), (m, s')) ∧
      Copied msg (some (7, 4)) threeClients s') ∧
      ∃ m s', (send_shared_msg_to_subscriber msg 0 0 1).exec (msg, threeClients) =
        (.ok (), (m, s')) ∧ Copied msg none threeClients s' :=
  frame_copied populated_threeClients ⟨1, H9frame.new, "client", 7, 4⟩ "can0"

end Server

end H9
