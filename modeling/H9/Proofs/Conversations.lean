import H9.Proofs.Copies
import H9.Proofs.EventReplies
import H9.Proofs.Registry
import H9.Proofs.Requests

/-!
# What h9bus sends to a client

A client is told of frames, by any step of the loop, and is answered when it asks for something. What
a message to it can do is said once (`TellRule`), so that an invariant which bears that and a change
of what was asked holds after a run. For each client of a run it says what the client was sent for
what it had sent. That nothing else comes into its stream is so while no driver has its descriptor
(`Apart`): one that is closed keeps its number and still writes to it.
-/

namespace H9

open Prog GenericMsg SelectLoop

/-! ### Messages about frames -/

/-- A message about a frame that a client may get: it waits for frames, or has the message for a reply. -/
def TcpClient.Told (c : TcpClient) (msg : GenericMsg) : Prop :=
  msg.get_type = .ok .FRAME ∧
    (c.active_subscription = true ∨ (msg.xmlGetProp "request-id").isSome = true)

/-- The client after a message went out to it. -/
def TcpClient.given (c : TcpClient) (msg : GenericMsg) : TcpClient :=
  { c.stamped with sent := c.sent ++ [msg.set_id c.stamped.next_msg_id] }

/-- `I` looks at the clients only, and bears a message about a frame, one that does not go out and
closes the client, and that a client is closed. -/
structure TellRule (I : Server → Prop) : Prop where
  congr : ∀ {s s' : Server}, I s → s'.clients = s.clients → s'.next_client = s.next_client → I s'
  told : ∀ {s k c msg}, I s → s.clients k = some c → c.answer = .count → c.Told msg →
    I (s.setClient k (c.given msg))
  lost : ∀ {s k c}, I s → s.clients k = some c → I ((s.setClient k c.stamped).closed k c.stamped)
  close : ∀ {s k c}, I s → s.clients k = some c → I (s.closed k c)

/-- After an exit that asks for a socket to be closed, `I` holds. -/
def HoldsOnClose (I : Server → Prop) (e : Exn) (s : Server) : Prop :=
  (∃ ref, e = .closeSocketException ref) → I s

namespace Server

variable {I : Server → Prop} {s : Server} {k : ℕ} {c : TcpClient}

theorem exec_send_cases (hc : s.clients k = some c) (msg : GenericMsg) :
    c.answer = .count ∧ (send k msg).exec s = (.ok (), s.setClient k (c.given msg)) ∨
      (∃ e, (send k msg).exec s = (.error e, s.setClient k c.stamped) ∧
        ∀ ref, e = .closeSocketException ref → ref = .client k) := by
  rcases ha : c.answer with _ | _ | e
  · exact .inl ⟨rfl, exec_send hc ha msg⟩
  · refine .inr ⟨_, ?_, fun ref h => (Exn.closeSocketException.inj h).symm⟩
    unfold send
    simp only [exec_bind, client_some hc, exec_modify, ha, exec_throw]
  · unfold send
    simp only [exec_bind, client_some hc, exec_modify, ha, exec_ite, exec_throw]
    by_cases he : e = .ECONNRESET ∨ e = .EPIPE ∨ e = .EBADF
    · exact .inr ⟨_, by rw [if_pos he], fun ref h => (Exn.closeSocketException.inj h).symm⟩
    · exact .inr ⟨_, by rw [if_neg he], fun ref h => by cases h⟩

theorem exec_on_close (hc : s.clients k = some c) : (on_close k).exec s = (.ok (), s.closed k c) := by
  unfold on_close
  simp only [exec_bind, client_some hc, exec_modify]
  rfl

theorem setClient_self_clients (s : Server) (k : ℕ) (c : TcpClient) :
    (s.setClient k c).clients k = some c := Function.update_self k _ _

/-- A message about a frame, and what is noted of it. -/
theorem tell_rule (hI : TellRule I) (hc : s.clients k = some c) (hs : I s) (msg : GenericMsg)
    (hmsg : c.Told msg) (p : Prog Server Exn Unit)
    (hp : ∀ t, I t → ∃ t', p.exec t = (.ok (), t') ∧ I t') :
    Triple (· = s) (closing k (send k msg >>= fun _ => p)) (fun _ => I) (HoldsOnClose I) := by
  intro s' hs'
  rw [hs']
  unfold closing
  rw [exec_tryCatch, exec_bind]
  rcases exec_send_cases hc msg with ⟨ha, hexec⟩ | ⟨e, hexec, href⟩
  · obtain ⟨t', ht', hI'⟩ := hp _ (hI.told hs hc ha hmsg)
    rw [hexec]
    dsimp only
    rw [ht']
    exact hI'
  · rw [hexec]
    rcases e with ref | _
    case closeSocketException =>
      dsimp only
      rw [exec_on_close (setClient_self_clients s k c.stamped)]
      exact hI.lost hs hc
    all_goals
      rintro ⟨ref, h⟩
      cases h

/-- Whoever is told of a frame, `I` holds afterwards. -/
theorem tells_rule (hI : TellRule I) {msg : GenericMsg} (htype : msg.get_type = .ok .FRAME)
    (orgin_client_id : ℕ) (orgin_msg_id : UInt64) (busframe : ℕ) :
    Triple I (send_msg_to_subscriber msg orgin_client_id orgin_msg_id busframe) (fun _ => I)
      (HoldsOnClose I) := by
  refine Triple.get_bind fun s₀ => ?_
  refine Triple.conseq (P := I) (Triple.forEach _ fun it _ => ?_) (fun _ h => h.1) (fun _ _ h => h)
    fun _ _ h => h
  intro s hs
  rw [exec_bind]
  rcases hc : s.clients it.2 with _ | c
  · rw [client_none hc]
    rintro ⟨ref, h⟩
    cases h
  rw [client_some hc]
  dsimp only
  by_cases hid : it.1 = orgin_client_id
  · rw [if_pos hid]
    have hprop : (msg.set_request_id orgin_msg_id).xmlGetProp "request-id" =
        some (toString orgin_msg_id.toNat) := XmlElement.lookup_setProp _ _ _
    have htold : c.Told (msg.set_request_id orgin_msg_id) := ⟨htype, .inr (by rw [hprop]; rfl)⟩
    exact tell_rule hI hc hs _ htold
      (modify fun s => s.delivered ⟨it.2, busframe, msg.set_request_id orgin_msg_id⟩)
      (fun t ht => ⟨_, rfl, hI.congr ht rfl rfl⟩) s rfl
  · rw [if_neg hid]
    by_cases hactive : c.active_subscription = true
    · rw [if_pos hactive]
      have h := tell_rule hI hc hs msg ⟨htype, .inl hactive⟩ (pure ()) fun t ht => ⟨t, rfl, ht⟩
      rw [bind_pure] at h
      exact h _ rfl
    · rw [if_neg hactive]
      exact hs

end Server

namespace TellRule

variable {I : Server → Prop}

/-- The bus, whose events are told to the clients. -/
theorem bus (hI : TellRule I) : BusMgr.BusRule EventMgr.handler (fun _ => True)
    (fun _ t => I t.2) fun e _ t => HoldsOnClose I e t.2 := by
  refine fun n Q => ⟨⟨fun _ h => h, fun _ h _ => h⟩, fun b q => ?_, fun f q => ?_⟩
  · exact BusMgr.on_send_frame_rule fun h => Server.tells_rule hI rfl _ _ _
  · exact BusMgr.on_recv_frame_rule fun h => Server.tells_rule hI rfl _ _ _

theorem kept {bm : BusMgr} {s : Server} (hs : I s) :
    BusMgr.Kept (fun _ => True) (fun _ t => I t.2) bm (bm, s) :=
  ⟨fun _ => rfl, fun _ _ _ _ _ _ _ => trivial, id, hs⟩

theorem on_select (hI : TellRule I) (n : String) (answer : ReadAnswer) :
    Triple (fun t => I t.2) (BusMgr.on_select EventMgr.handler n answer) (fun _ t => I t.2)
      fun e t => HoldsOnClose I e t.2 := by
  rintro ⟨bm, s⟩ hs
  exact (BusMgr.on_select_rule hI.bus (fun _ => trivial) n answer).conseq (fun _ h => h)
    (fun _ _ h => h.inv) (fun _ _ h => h.inv) _ (kept hs)

theorem send_frame (hI : TellRule I) (frame : H9frame) (origin : String) (orgin_client_id : ℕ)
    (orgin_msg_id : UInt64) (endpoint : String) :
    Triple (fun t => I t.2)
      (BusMgr.send_frame EventMgr.handler frame origin orgin_client_id orgin_msg_id endpoint)
      (fun _ t => I t.2) fun e t => HoldsOnClose I e t.2 := by
  rintro ⟨bm, s⟩ hs
  exact (BusMgr.send_frame_rule (I := fun _ t => I t.2) hI.bus
    (b := ⟨bm.heap.next, frame, origin, orgin_client_id, orgin_msg_id⟩)
    (fun _ _ _ => .inr fun _ _ _ h => h) (fun _ _ _ h _ => h) (fun _ _ _ _ h => h) endpoint).conseq
    (fun _ h => h) (fun _ _ h => h.inv) (fun _ _ h => h.inv) _ ⟨kept hs, rfl⟩

end TellRule

/-! ### What a client asks for -/

/-- A message that `recv_msg` answers with one of its own: one that is not valid, or a request that is
no identification, no frame to be sent and no `SUBSCRIBE`. -/
def GenericMsg.Owed (msg : GenericMsg) : Bool :=
  if Schema.valid msg then
    match msg.get_type with
    | .ok .IDENTIFICATION | .ok .SEND_FRAME | .ok .SUBSCRIBE => false
    | _ => true
  else true

/-- Whether the message subscribes or unsubscribes, if it does either. -/
def GenericMsg.subscribes (msg : GenericMsg) : Option Bool :=
  if Schema.valid msg then
    match msg.get_type with
    | .ok .SUBSCRIBE => some true
    | .ok .EXECUTEMETHOD =>
      if event msg = .ok "frame" then
        if get_method_name msg = .ok "subscribe" then some true
        else if get_method_name msg = .ok "unsubscribe" then some false
        else none
      else none
    | _ => none
  else none

/-- The subscription after those messages. -/
def lastSubscription (asked : List GenericMsg) : Bool :=
  asked.foldl (fun active msg => msg.subscribes.getD active) false

/-- What the client gets for a message that is answered. -/
structure GenericMsg.Settles (reply msg : GenericMsg) : Prop where
  request_id : Schema.valid msg = true → get_id msg = .ok reply.get_request_id
  unnumbered : Schema.valid msg = false → reply.xmlGetProp "request-id" = none
  type : reply.get_type = .ok .ERROR ∨ Schema.valid msg = true ∧ msg.get_type = .ok .EXECUTEMETHOD ∧
    reply.get_type = .ok .METHODRESPONSE
  method_name : reply.get_type = .ok .METHODRESPONSE → ¬ EventMgr.Misnamed msg →
    get_method_name reply = get_method_name msg

/-- The message is about a frame. -/
def GenericMsg.AboutFrame (msg : GenericMsg) : Bool := msg.get_type = .ok .FRAME

/-- What a client of h9bus was sent, and what is kept of it, once it sent `asked`. -/
structure Conversed (asked : List GenericMsg) (c : TcpClient) : Prop where
  /-- What it was sent is numbered from 1. -/
  ids : ∃ msgs, c.sent = numbered msgs ∧
    (c.h9socket.isSome → c.next_msg_id = UInt64.ofNat msgs.length)
  /-- But for the frames it is the answers to what it sent, in order, all of them while it is open. -/
  answers : ∃ answered, answered <+: asked.filter GenericMsg.Owed ∧
    List.Forall₂ GenericMsg.Settles (c.sent.filter fun msg => !msg.AboutFrame) answered ∧
    (c.h9socket.isSome → answered = asked.filter GenericMsg.Owed)
  /-- Its subscription is the one it last asked for. -/
  active : c.h9socket.isSome → c.active_subscription = lastSubscription asked
  /-- Frames that it did not send itself are those of a subscription. -/
  frames : ∀ msg ∈ c.sent, msg.AboutFrame → msg.xmlGetProp "request-id" = none →
    ∃ request ∈ asked, request.subscribes = some true

theorem lastSubscription_append (asked : List GenericMsg) (msg : GenericMsg) :
    lastSubscription (asked ++ [msg]) = msg.subscribes.getD (lastSubscription asked) := by
  simp [lastSubscription]

theorem exists_subscribes {asked : List GenericMsg} (h : lastSubscription asked = true) :
    ∃ request ∈ asked, request.subscribes = some true := by
  induction asked using List.reverseRecOn with
  | nil => cases h
  | append_singleton asked msg ih =>
    rw [lastSubscription_append] at h
    rcases hm : msg.subscribes with _ | active
    · rw [hm] at h
      obtain ⟨request, hrequest, hsub⟩ := ih h
      exact ⟨request, List.mem_append_left _ hrequest, hsub⟩
    · rw [hm] at h
      exact ⟨msg, by simp, hm.trans (congrArg some h)⟩

namespace GenericMsg

@[simp] theorem xmlGetProp_set_id (msg : GenericMsg) (id : UInt64) :
    (msg.set_id id).xmlGetProp "request-id" = msg.xmlGetProp "request-id" :=
  XmlElement.lookup_setProp_of_ne (by decide) _ _

@[simp] theorem get_type_set_id (msg : GenericMsg) (id : UInt64) :
    (msg.set_id id).get_type = msg.get_type := rfl

@[simp] theorem get_method_name_set_id (msg : GenericMsg) (id : UInt64) :
    get_method_name (msg.set_id id) = get_method_name msg := rfl

@[simp] theorem aboutFrame_set_id (msg : GenericMsg) (id : UInt64) :
    (msg.set_id id).AboutFrame = msg.AboutFrame := rfl

theorem Settles.set_id {reply msg : GenericMsg} (h : reply.Settles msg) (id : UInt64) :
    (reply.set_id id).Settles msg where
  request_id := by simpa [get_request_id] using h.request_id
  unnumbered := by simpa using h.unnumbered
  type := h.type
  method_name := h.method_name

theorem Settles.not_aboutFrame {reply msg : GenericMsg} (h : reply.Settles msg) :
    reply.AboutFrame = false := by
  rcases h.type with htype | ⟨-, -, htype⟩ <;> simp [AboutFrame, htype]

end GenericMsg

theorem TcpClient.open_of_answer {c : TcpClient} (h : c.answer = .count) : c.h9socket.isSome := by
  rw [TcpClient.answer] at h
  rcases hs : c.h9socket with _ | h9socket
  · simp [hs] at h
  · rfl

namespace Conversed

variable {asked : List GenericMsg} {c c' : TcpClient} {msg reply : GenericMsg}

theorem new (socket : ℕ) (address port : String) (sends : List WriteAnswer) :
    Conversed [] (TcpClient.new socket address port sends) where
  ids := ⟨[], rfl, fun _ => rfl⟩
  answers := ⟨[], List.nil_prefix, .nil, fun _ => rfl⟩
  active _ := rfl
  frames _ hmsg := absurd hmsg List.not_mem_nil

theorem congr (h : Conversed asked c) (hsent : c'.sent = c.sent) (hopen : c'.h9socket.isSome →
    c.h9socket.isSome ∧ c'.next_msg_id = c.next_msg_id ∧
      c'.active_subscription = c.active_subscription) : Conversed asked c' := by
  obtain ⟨⟨msgs, hmsgs, hnext⟩, ⟨answered, hprefix, hsettles, hall⟩, hactive, hframes⟩ := h
  refine ⟨⟨msgs, hsent.trans hmsgs, fun ho => ?_⟩, ⟨answered, hprefix, hsent ▸ hsettles,
    fun ho => hall (hopen ho).1⟩, fun ho => ?_, hsent ▸ hframes⟩
  · exact (hopen ho).2.1.trans (hnext (hopen ho).1)
  · exact (hopen ho).2.2.trans (hactive (hopen ho).1)

/-- Once it is closed, nothing that it asked is answered any more. -/
theorem closed (h : Conversed asked c) (hsent : c'.sent = c.sent) (hclosed : c'.h9socket = none)
    (rest : List GenericMsg) : Conversed (asked ++ rest) c' := by
  obtain ⟨⟨msgs, hmsgs, -⟩, ⟨answered, hprefix, hsettles, -⟩, -, hframes⟩ := h
  have hnot : ¬ c'.h9socket.isSome := by simp [hclosed]
  refine ⟨⟨msgs, hsent.trans hmsgs, fun ho => absurd ho hnot⟩, ⟨answered, ?_, hsent ▸ hsettles,
    fun ho => absurd ho hnot⟩, fun ho => absurd ho hnot, fun msg hmsg htype hid => ?_⟩
  · rw [List.filter_append]
    exact hprefix.trans (List.prefix_append _ _)
  · obtain ⟨request, hrequest, hsub⟩ := hframes msg (hsent ▸ hmsg) htype hid
    exact ⟨request, List.mem_append_left _ hrequest, hsub⟩

/-- A request that is not answered is noted. -/
theorem noted (h : Conversed asked c) (howed : msg.Owed = false) : Conversed (asked ++ [msg])
    { c with active_subscription := msg.subscribes.getD c.active_subscription } := by
  obtain ⟨hids, ⟨answered, hprefix, hsettles, hall⟩, hactive, hframes⟩ := h
  have hfilter : (asked ++ [msg]).filter GenericMsg.Owed = asked.filter GenericMsg.Owed := by
    simp [howed]
  refine ⟨hids, ⟨answered, hfilter ▸ hprefix, hsettles, fun ho => hfilter ▸ hall ho⟩,
    fun ho => ?_, fun m hm htype hid => ?_⟩
  · rw [lastSubscription_append, ← hactive ho]
  · obtain ⟨request, hrequest, hsub⟩ := hframes m hm htype hid
    exact ⟨request, List.mem_append_left _ hrequest, hsub⟩

/-- What goes out is numbered. -/
theorem ids_given (h : Conversed asked c) (ha : c.answer = .count) (msg : GenericMsg) :
    ∃ msgs, (c.given msg).sent = numbered msgs ∧
      ((c.given msg).h9socket.isSome → (c.given msg).next_msg_id = UInt64.ofNat msgs.length) := by
  obtain ⟨msgs, hmsgs, hnext⟩ := h.ids
  have hid : c.stamped.next_msg_id = UInt64.ofNat (msgs.length + 1) := by
    rw [TcpClient.stamped, hnext (TcpClient.open_of_answer ha), ClientThread.get_next_id_ofNat]
  refine ⟨msgs ++ [msg], ?_, fun _ => ?_⟩
  · rw [TcpClient.given, hid, hmsgs, numbered_append_singleton]
  · rw [List.length_append, List.length_singleton]
    exact hid

/-- A message about a frame goes out. -/
theorem told (h : Conversed asked c) (ha : c.answer = .count) (hmsg : c.Told msg) :
    Conversed asked (c.given msg) := by
  have hopen := TcpClient.open_of_answer ha
  have hframe : msg.AboutFrame = true := by simp [AboutFrame, hmsg.1]
  refine ⟨h.ids_given ha msg, ?_, h.active, fun m hm htype hid => ?_⟩
  · obtain ⟨answered, hprefix, hsettles, hall⟩ := h.answers
    refine ⟨answered, hprefix, ?_, hall⟩
    simpa [TcpClient.given, hframe] using hsettles
  · rw [TcpClient.given, List.mem_append, List.mem_singleton] at hm
    rcases hm with hm | rfl
    · exact h.frames m hm htype hid
    · rw [xmlGetProp_set_id] at hid
      have hactive : c.active_subscription = true := by simpa [hid] using hmsg.2
      exact exists_subscribes (h.active hopen ▸ hactive)

/-- A request is answered, with the subscription that it sets. -/
theorem replied (h : Conversed asked c) (ha : c.answer = .count) (howed : msg.Owed = true)
    (hreply : reply.Settles msg) {active : Bool}
    (hactive : active = msg.subscribes.getD c.active_subscription) :
    Conversed (asked ++ [msg]) ({ c with active_subscription := active }.given reply) := by
  have hopen := TcpClient.open_of_answer ha
  have hframe := hreply.not_aboutFrame
  have hfilter : (asked ++ [msg]).filter GenericMsg.Owed =
      asked.filter GenericMsg.Owed ++ [msg] := by simp [howed]
  refine ⟨h.ids_given ha reply, ?_, fun _ => ?_, fun m hm htype hid => ?_⟩
  · obtain ⟨answered, -, hsettles, hall⟩ := h.answers
    obtain rfl := hall hopen
    refine ⟨asked.filter GenericMsg.Owed ++ [msg], hfilter ▸ List.prefix_refl _, ?_,
      fun _ => hfilter.symm⟩
    have hsent : ({ c with active_subscription := active }.given reply).sent.filter
        (fun msg => !msg.AboutFrame) = c.sent.filter (fun msg => !msg.AboutFrame) ++
          [reply.set_id c.stamped.next_msg_id] := by
      simp [TcpClient.given, hframe, TcpClient.stamped]
    rw [hsent]
    exact List.rel_append hsettles (.cons (hreply.set_id _) .nil)
  · rw [lastSubscription_append, ← h.active hopen]
    exact hactive
  · rw [TcpClient.given, List.mem_append, List.mem_singleton] at hm
    rcases hm with hm | rfl
    · obtain ⟨request, hrequest, hsub⟩ := h.frames m hm htype hid
      exact ⟨request, List.mem_append_left _ hrequest, hsub⟩
    · rw [aboutFrame_set_id, hframe] at htype
      cases htype

end Conversed

/-! ### What the server keeps of it -/

namespace Server

/-- The client `k` was sent what it should be for `asked`; before it was there it asked nothing. -/
structure Knows (k : ℕ) (asked : List GenericMsg) (s : Server) : Prop where
  conversed : ∀ c, s.clients k = some c → Conversed asked c
  fresh : s.next_client ≤ k → asked = [] ∧ s.clients k = none

variable {k k' : ℕ} {asked rest : List GenericMsg} {s s' : Server} {c c' : TcpClient}
  {msg reply : GenericMsg}

theorem Knows.congr (h : Knows k asked s) (hclients : s'.clients = s.clients)
    (hnext : s'.next_client = s.next_client) : Knows k asked s' := by
  obtain ⟨h1, h2⟩ := h
  exact ⟨fun c hc => h1 c (by rw [← hclients, hc]), fun hle => by
    rw [hclients]
    exact h2 (hnext ▸ hle)⟩

/-- The client `k'` changed, having asked for `rest` if it is `k`. -/
theorem Knows.set (h : Knows k asked s) (hc : s.clients k' = some c)
    (hself : k' = k → Conversed asked c → Conversed (asked ++ rest) c')
    (hother : k' ≠ k → rest = []) : Knows k (asked ++ rest) (s.setClient k' c') := by
  obtain ⟨h1, h2⟩ := h
  by_cases hk : k' = k
  · subst hk
    refine ⟨fun c'' hc'' => ?_, fun hle => ?_⟩
    · rw [setClient_self_clients] at hc''
      obtain rfl := Option.some.inj hc''
      exact hself rfl (h1 c hc)
    · rw [(h2 hle).2] at hc
      cases hc
  · rw [hother hk, List.append_nil]
    have hsame : (s.setClient k' c').clients k = s.clients k := Function.update_of_ne (Ne.symm hk) _ _
    exact ⟨fun c'' hc'' => h1 c'' (hsame.symm.trans hc''), fun hle => hsame ▸ h2 hle⟩

/-- The client `k'` was closed. -/
theorem Knows.lose (h : Knows k asked s) (hc : s.clients k' = some c) (hsent : c'.sent = c.sent)
    (hclosed : c'.h9socket = none) (hother : k' ≠ k → rest = []) :
    Knows k (asked ++ rest) (s.setClient k' c') :=
  h.set hc (fun _ hcon => hcon.closed hsent hclosed rest) hother

theorem tellRule_knows (k : ℕ) (asked : List GenericMsg) : TellRule (Knows k asked) where
  congr h hclients hnext := h.congr hclients hnext
  told {s k' c msg} h hc ha hmsg := by
    have hset : Knows k (asked ++ []) (s.setClient k' (c.given msg)) :=
      h.set hc (fun _ hcon => by rw [List.append_nil]; exact hcon.told ha hmsg) fun _ => rfl
    rwa [List.append_nil] at hset
  lost {s k' c} h hc := by
    have hset : Knows k (asked ++ []) (s.setClient k' { c.stamped with
        h9socket := none, connected := false }) := h.lose hc rfl rfl fun _ => rfl
    rw [List.append_nil] at hset
    exact hset.congr (by simp [Server.closed, setClient]) rfl
  close {s k' c} h hc := by
    have hset : Knows k (asked ++ []) (s.setClient k' { c with h9socket := none, connected := false }) :=
      h.lose hc rfl rfl fun _ => rfl
    rw [List.append_nil] at hset
    exact hset.congr rfl rfl

/-- What of a message of the client `k'` is one of the client `k`. -/
def ofClient (k k' : ℕ) (msg : GenericMsg) : List GenericMsg := if k' = k then [msg] else []

/-- After an exit that asks for a socket to be closed, `I` holds once the client `k` is closed. -/
def Ends (I : Server → Prop) (k : ℕ) (e : Exn) (s : Server) : Prop :=
  (∃ ref, e = .closeSocketException ref) → ∀ c, s.clients k = some c → I (s.closed k c)

/-- A message that is not answered was noted. -/
theorem Knows.noted (h : Knows k asked s) (hc : s.clients k' = some c) (howed : msg.Owed = false) :
    Knows k (asked ++ ofClient k k' msg) (s.setClient k' { c with
      active_subscription := msg.subscribes.getD c.active_subscription }) := by
  refine h.set hc (fun hk hcon => ?_) fun hk => if_neg hk
  rw [ofClient, if_pos hk]
  exact hcon.noted howed

/-- A request is answered, or the client that asked is closed. -/
theorem Knows.replied (h : Knows k asked s) (hc : s.clients k' = some c) (howed : msg.Owed = true)
    (hreply : reply.Settles msg) {active : Bool}
    (hactive : active = msg.subscribes.getD c.active_subscription) :
    Triple (· = s.setClient k' { c with active_subscription := active }) (send k' reply)
      (fun _ => Knows k (asked ++ ofClient k k' msg)) (Ends (Knows k (asked ++ ofClient k k' msg)) k') := by
  rintro _ rfl
  have hc' := setClient_self_clients s k' { c with active_subscription := active }
  rcases exec_send_cases hc' reply with ⟨ha, hexec⟩ | ⟨e, hexec, -⟩
  · rw [hexec, setClient_setClient]
    refine h.set hc (fun hk hcon => ?_) fun hk => if_neg hk
    rw [ofClient, if_pos hk]
    exact hcon.replied ha howed hreply hactive
  · rw [hexec, setClient_setClient]
    rintro - c'' hc''
    rw [setClient_self_clients] at hc''
    obtain rfl := Option.some.inj hc''
    have hset : Knows k (asked ++ ofClient k k' msg) (s.setClient k' { c.stamped with
        active_subscription := active, h9socket := none, connected := false }) :=
      h.lose hc rfl rfl fun hk => if_neg hk
    refine hset.congr ?_ rfl
    simp [Server.closed, setClient]
    rfl

end Server

namespace EventMgr

variable {host : Host} {uptime : ℤ} {bm : BusMgr} {s : Server} {c : TcpClient}
  {method_name : String} {msg : GenericMsg}

/-! ### Method calls -/

theorem called_type (ev : Except Exn String) :
    (called host uptime bm s c method_name ev).2.get_type = .ok .ERROR ∨
      (called host uptime bm s c method_name ev).2.get_type = .ok .METHODRESPONSE := by
  have hsub (active : Bool) : (subscribed method_name active c ev).2.get_type = .ok .ERROR ∨
      (subscribed method_name active c ev).2.get_type = .ok .METHODRESPONSE := by
    rcases ev with e | text
    · left
      cases e <;> rfl
    · right
      rw [subscribed]
      split_ifs <;> rfl
  unfold called
  split_ifs
  · exact .inr rfl
  · exact .inr rfl
  · exact .inr rfl
  · exact hsub true
  · exact hsub false
  · exact .inl rfl

theorem subscribed_fst (active : Bool) (c : TcpClient) (ev : Except Exn String) :
    (subscribed method_name active c ev).1 = if ev = .ok "frame" then active else c.active_subscription := by
  rcases ev with e | text
  · cases e <;> rfl
  · rw [subscribed]
    simp only [Except.ok.injEq]
    split_ifs <;> rfl

/-- A call leaves the client the subscription that it asks for. -/
theorem called_fst (hvalid : Schema.valid msg = true) (htype : msg.get_type = .ok .EXECUTEMETHOD)
    (hname : get_method_name msg = .ok method_name) :
    (called host uptime bm s c method_name (event msg)).1 =
      msg.subscribes.getD c.active_subscription := by
  have hsub : msg.subscribes = if event msg = .ok "frame" then
      if method_name = "subscribe" then some true
      else if method_name = "unsubscribe" then some false else none
    else none := by
    simp [subscribes, hvalid, htype, hname]
  rw [hsub]
  unfold called
  split_ifs <;> simp_all [subscribed_fst]

theorem called_settles (hvalid : Schema.valid msg = true) (htype : msg.get_type = .ok .EXECUTEMETHOD)
    (hname : get_method_name msg = .ok method_name) {id : UInt64} (hid : get_id msg = .ok id) :
    ((called host uptime bm s c method_name (event msg)).2.set_request_id id).Settles msg where
  request_id _ := by rw [get_request_id_set_request_id, hid]
  unnumbered h := by simp [hvalid] at h
  type := (called_type (event msg)).imp (fun h => h) fun h => ⟨hvalid, htype, h⟩
  method_name hresponse hnot := by
    have hspec := called_spec host uptime bm s c method_name (event msg) fun text htext hne hunsub =>
      hnot ⟨hname.trans (congrArg _ hunsub), text, htext, hne⟩
    rw [get_method_name_set_request_id, hspec.1 hresponse, hname]

theorem error_settles (hvalid : Schema.valid msg = true) {id : UInt64} (hid : get_id msg = .ok id)
    (code : ErrorNumber) (text : String) : ((ErrorMsg code text).set_request_id id).Settles msg where
  request_id _ := by rw [get_request_id_set_request_id, hid]
  unnumbered h := by simp [hvalid] at h
  type := .inl rfl
  method_name h := by cases h

theorem invalid_settles (hvalid : Schema.valid msg = false) (code : ErrorNumber) (text : String) :
    (ErrorMsg code text).Settles msg where
  request_id h := by simp [hvalid] at h
  unnumbered _ := rfl
  type := .inl rfl
  method_name h := by cases h

/-! ### A message of a client -/

/-- The message that `recv_msg` reads, if it is complete, be it valid or not. -/
def heard (host : Host) (k : ℕ) (inbound : Inbound) (s : Server) : Option GenericMsg := do
  let c ← s.clients k
  let h9socket ← c.h9socket
  match (H9MsgSocket.recv host.xmlReadMemory h9socket inbound).1 with
  | .ok (.msg msg) => some msg
  | _ => none

/-- The client `k` was sent what it should be, or is once the client `k'` is closed. -/
def Conversing (k k' : ℕ) (asked : List GenericMsg) (p : Prog (BusMgr × Server) Exn Unit)
    (t : BusMgr × Server) : Prop :=
  Triple (· = t) p (fun _ t => Server.Knows k asked t.2)
    fun e t => Server.Ends (Server.Knows k asked) k' e t.2

variable {k k' : ℕ} {asked : List GenericMsg} {reply : GenericMsg} {t : BusMgr × Server}
  {p : Prog (BusMgr × Server) Exn Unit}

theorem Conversing.exit {e : Exn} {u : BusMgr × Server} (hp : p.exec t = (.error e, u))
    (he : ∀ ref, e ≠ .closeSocketException ref) : Conversing k k' asked p t := by
  rintro _ rfl
  rw [hp]
  rintro ⟨ref, h⟩
  exact absurd h (he ref)

theorem Conversing.congr {q : Prog (BusMgr × Server) Exn Unit} {t' : BusMgr × Server}
    (h : Conversing k k' asked q t') (hp : p.exec t = q.exec t') : Conversing k k' asked p t := by
  rintro _ rfl
  rw [hp]
  exact h t' rfl

theorem Conversing.ok {u : BusMgr × Server} (hp : p.exec t = (.ok (), u))
    (h : Server.Knows k asked u.2) : Conversing k k' asked p t := by
  rintro _ rfl
  rw [hp]
  exact h

theorem Conversing.of_holdsOnClose (h : Triple (fun t => Server.Knows k asked t.2) p
      (fun _ t => Server.Knows k asked t.2) fun e t => HoldsOnClose (Server.Knows k asked) e t.2)
    (ht : Server.Knows k asked t.2) : Conversing k k' asked p t := by
  refine h.conseq ?_ (fun _ _ h => h) fun e t h he c hc => ?_
  · rintro _ rfl
    exact ht
  · exact (Server.tellRule_knows k asked).close (h he) hc

/-- A reply, which is to the client `k'`. -/
theorem conversing_send (bm : BusMgr) (h : Server.Knows k asked s) (hc : s.clients k' = some c)
    (howed : msg.Owed = true) (hreply : reply.Settles msg) {active : Bool}
    (hactive : active = msg.subscribes.getD c.active_subscription) :
    Conversing k k' (asked ++ Server.ofClient k k' msg) (onSnd (Server.send k' reply))
      (bm, s.setClient k' { c with active_subscription := active }) := by
  refine Triple.onSnd fun bm' t ht => ?_
  obtain ⟨rfl, rfl⟩ := Prod.mk.inj ht
  exact h.replied hc howed hreply hactive _ rfl

theorem owed_of_type {type : MsgType} (htype : msg.get_type = .ok type)
    (h : type ≠ .IDENTIFICATION ∧ type ≠ .SEND_FRAME ∧ type ≠ .SUBSCRIBE) : msg.Owed = true := by
  unfold Owed
  rw [htype]
  cases type <;> simp_all

theorem subscribes_of_type {type : MsgType} (htype : msg.get_type = .ok type)
    (h : type ≠ .SUBSCRIBE ∧ type ≠ .EXECUTEMETHOD) : msg.subscribes = none := by
  unfold subscribes
  rw [htype]
  cases type <;> simp_all

/-- A valid message that is no identification. -/
theorem conversing_process_msg (host : Host) (uptime : ℤ) (bm : BusMgr) (h : Server.Knows k asked s) (hc : s.clients k' = some c)
    (hvalid : Schema.valid msg = true) (hident : msg.get_type ≠ .ok .IDENTIFICATION) :
    Conversing k k' (asked ++ Server.ofClient k k' msg) (process_msg host uptime k' msg) (bm, s) := by
  have hself : s.setClient k' { c with active_subscription := c.active_subscription } = s :=
    Server.setClient_self hc
  rcases htype : msg.get_type with e | type
  · refine .exit (e := e) (u := (bm, s)) ?_ (get_type_endsPlain msg e htype).ne_close
    rw [process_msg, exec_bind, exec_lift, htype]
  rcases hid : msg.get_id with e | id
  · refine .exit (e := e) (u := (bm, s)) ?_ (get_id_endsPlain msg e hid).ne_close
    rw [process_msg, exec_bind, exec_lift, htype]
    dsimp only
    rw [exec_bind, exec_lift, hid]
  by_cases hsend : type = .SEND_FRAME
  · subst hsend
    have howed : msg.Owed = false := by simp [Owed, hvalid, htype]
    have hnoted := h.noted hc howed
    rw [subscribes_of_type htype (by simp), Option.getD_none, hself] at hnoted
    rcases hf : get_frame msg with e | frame
    · refine .exit (e := e) (u := (bm, s)) ?_ (get_frame_endsPlain msg e hf).ne_close
      simp only [process_msg, exec_bind, exec_lift, htype, hid, exec_onSnd, Server.client_some hc, hf]
    · refine Conversing.congr (Conversing.of_holdsOnClose
        (t := (bm, { s with issues := s.issues ++ [⟨k', bm.heap.next⟩] }))
        ((Server.tellRule_knows k _).send_frame frame c.get_client_idstring c.socket id "")
        (hnoted.congr rfl rfl)) ?_
      simp only [process_msg, exec_bind, exec_lift, htype, hid, exec_onSnd, Server.client_some hc, hf,
        exec_modify]
  by_cases hsubscribe : type = .SUBSCRIBE
  · subst hsubscribe
    have howed : msg.Owed = false := by simp [Owed, hvalid, htype]
    have hnoted := h.noted hc howed
    have hsub : msg.subscribes = some true := by simp [subscribes, hvalid, htype]
    rw [hsub] at hnoted
    refine .ok (u := (bm, _)) ?_ hnoted
    simp only [process_msg, exec_bind, exec_lift, htype, hid, exec_onSnd, Server.client_some hc,
      exec_modify, Option.getD_some]
    rfl
  have howed := owed_of_type htype ⟨fun h => hident (h ▸ htype), hsend, hsubscribe⟩
  by_cases hexecute : type = .EXECUTEMETHOD
  · subst hexecute
    rcases hname : get_method_name msg with e | method_name
    · refine .exit (e := e) (u := (bm, s)) ?_
        (requiredOfRoot_endsPlain msg _ e hname).ne_close
      simp only [process_msg, exec_bind, exec_lift, htype, hid, exec_onSnd, Server.client_some hc, hname]
    · obtain ⟨node, hroot⟩ := root_of_method_name hname
      have hrun : (process_msg host uptime k' msg).exec (bm, s) =
          (execute_method host uptime k' msg).exec (bm, s) := by
        simp only [process_msg, exec_bind, exec_lift, htype, hid, exec_onSnd, Server.client_some hc, hname]
      exact Conversing.congr (conversing_send bm h hc howed (called_settles hvalid htype hname hid)
        (called_fst hvalid htype hname)) (hrun.trans (exec_execute_method hroot hname hid hc))
  · have hsub := subscribes_of_type htype ⟨hsubscribe, hexecute⟩
    have hactive : c.active_subscription = msg.subscribes.getD c.active_subscription := by
      rw [hsub, Option.getD_none]
    have hreply := error_settles hvalid hid .UNSUPPORTED_MESSAGE_TYPE "EventMgr::flush_msg"
    refine Conversing.congr (conversing_send bm h hc howed hreply hactive) ?_
    rw [hself]
    simp only [process_msg, exec_bind, exec_lift, htype, hid, exec_onSnd, Server.client_some hc]
    cases type <;> first
      | exact absurd rfl hsend
      | exact absurd rfl hsubscribe
      | exact absurd rfl hexecute
      | rfl

/-- What `recv_msg` does with a message that is complete. -/
theorem conversing_msg (h : Server.Knows k asked s) (hc : s.clients k' = some c) :
    Conversing k k' (asked ++ Server.ofClient k k' msg)
      (if Schema.valid msg then do
        if (← lift msg.get_type) = .IDENTIFICATION then
          let entity ← lift (get_entity msg)
          onSnd do
            let c ← Server.client k'
            modify fun s => s.setClient k' { c with entity := entity }
        else process_msg host uptime k' msg
      else onSnd (Server.send k' (ErrorMsg .INVALID_MESSAGE_SCHEMA (host.xmlGetLastError msg))))
      (bm, s) := by
  have hself : s.setClient k' { c with active_subscription := c.active_subscription } = s :=
    Server.setClient_self hc
  by_cases hvalid : Schema.valid msg = true
  · rw [if_pos hvalid]
    rcases htype : msg.get_type with e | type
    · exact .exit (by rw [exec_bind, exec_lift]) (get_type_endsPlain msg e htype).ne_close
    by_cases hident : type = .IDENTIFICATION
    · subst hident
      rcases he : get_entity msg with e | entity
      · refine .exit (e := e) (u := (bm, s)) ?_
          (requiredOfRoot_endsPlain msg _ e he).ne_close
        simp only [exec_bind, exec_lift, if_true]
      · have howed : msg.Owed = false := by simp [Owed, hvalid, htype]
        have hsub := subscribes_of_type htype (by simp)
        have hset : Server.Knows k (asked ++ Server.ofClient k k' msg)
            (s.setClient k' { c with entity := entity }) := by
          refine h.set hc (fun hk hcon => ?_) fun hk => if_neg hk
          rw [Server.ofClient, if_pos hk]
          exact (hcon.noted howed).congr rfl fun ho => ⟨ho, rfl, by rw [hsub]; rfl⟩
        refine .ok (u := (bm, _)) ?_ hset
        simp only [exec_bind, exec_lift, if_true, exec_onSnd, Server.client_some hc, exec_modify]
        rfl
    · have hne : msg.get_type ≠ .ok .IDENTIFICATION :=
        fun h => hident (Except.ok.inj (htype.symm.trans h))
      refine (conversing_process_msg host uptime bm h hc hvalid hne).congr ?_
      simp only [exec_bind, exec_lift, if_neg hident]
  · rw [if_neg hvalid]
    rw [Bool.not_eq_true] at hvalid
    have howed : msg.Owed = true := by simp [Owed, hvalid]
    have hsub : msg.subscribes = none := by simp [subscribes, hvalid]
    have hactive : c.active_subscription = msg.subscribes.getD c.active_subscription := by
      rw [hsub, Option.getD_none]
    have hsends := conversing_send bm h hc howed (invalid_settles hvalid .INVALID_MESSAGE_SCHEMA
      (host.xmlGetLastError msg)) hactive
    rwa [hself] at hsends

/-- Whatever comes in on the client `k'`. -/
theorem conversing_recv_msg (host : Host) (uptime : ℤ) (bm : BusMgr) (h : Server.Knows k asked s)
    (k' : ℕ) (inbound : Inbound) :
    Conversing k k' (asked ++ if k' = k then (heard host k' inbound s).toList else [])
      (recv_msg host uptime k' inbound) (bm, s) := by
  rcases hc : s.clients k' with _ | c
  · refine .exit (e := .undefined) (u := (bm, s)) ?_ fun ref he => by cases he
    rw [recv_msg, exec_bind, exec_onSnd, Server.client_none hc]
  rcases hh : c.h9socket with _ | h9socket
  · refine .exit (e := .system_error .EBADF) (u := (bm, s)) ?_ fun ref he => by cases he
    simp only [recv_msg, exec_bind, exec_onSnd, Server.client_some hc, hh, exec_throw]
  set c' : TcpClient := { c with
    h9socket := some (H9MsgSocket.recv host.xmlReadMemory h9socket inbound).2.1 } with hc'
  have hset : Server.Knows k (asked ++ []) (s.setClient k' c') := by
    refine h.set hc (fun _ hcon => ?_) fun _ => rfl
    rw [List.append_nil]
    exact hcon.congr rfl fun _ => ⟨by rw [hh]; rfl, rfl, rfl⟩
  have hclient := Server.setClient_self_clients s k' c'
  have hclose {p : Prog (BusMgr × Server) Exn Unit} (hp : p.exec (bm, s) =
      (.error (.closeSocketException (.client k')), (bm, s.setClient k' c'))) :
      Conversing k k' (asked ++ []) p (bm, s) := by
    rintro _ rfl
    rw [hp]
    intro _ c'' hc''
    exact (Server.tellRule_knows k _).close hset hc''
  rcases hr : (H9MsgSocket.recv host.xmlReadMemory h9socket inbound).1 with e | msg | _ | e
  · refine .exit (e := e) (u := (bm, s.setClient k' c')) ?_
      (recv_endsPlain host.xmlReadMemory h9socket inbound e hr).ne_close
    simp only [recv_msg, exec_bind, exec_onSnd, Server.client_some hc, hh, exec_modify, exec_lift, hr]
    rfl
  · have hheard : heard host k' inbound s = some msg := by simp [heard, hc, hh, hr]
    rw [hheard]
    exact (conversing_msg (List.append_nil asked ▸ hset) hclient).congr (by
      simp only [recv_msg, exec_bind, exec_onSnd, Server.client_some hc, hh, exec_modify, exec_lift, hr]
      rfl)
  · have hheard : heard host k' inbound s = none := by simp [heard, hc, hh, hr]
    rw [hheard, Option.toList_none, ite_self]
    refine hclose ?_
    simp only [recv_msg, exec_bind, exec_onSnd, Server.client_some hc, hh, exec_modify, exec_lift, hr]
    rfl
  · have hheard : heard host k' inbound s = none := by simp [heard, hc, hh, hr]
    rw [hheard, Option.toList_none, ite_self]
    have hrun : (recv_msg host uptime k' inbound).exec (bm, s) =
        (if e = .ECONNRESET then throw (.closeSocketException (.client k'))
          else if e = .EAGAIN then pure () else throw (.system_error e) :
            Prog (BusMgr × Server) Exn Unit).exec (bm, s.setClient k' c') := by
      simp only [recv_msg, exec_bind, exec_onSnd, Server.client_some hc, hh, exec_modify, exec_lift, hr]
      rfl
    by_cases hreset : e = .ECONNRESET
    · exact hclose (by rw [hrun, if_pos hreset, exec_throw])
    by_cases hagain : e = .EAGAIN
    · exact .ok (by rw [hrun, if_neg hreset, if_pos hagain, exec_pure]) hset
    · exact .exit (by rw [hrun, if_neg hreset, if_neg hagain, exec_throw]) fun ref he => by cases he

end EventMgr

/-! ### A run -/

/-- What a step reads of the client `k`. -/
def LoopStep.heard (host : Host) (k : ℕ) (s : BusMgr × Server) : LoopStep → List GenericMsg
  | .visit (.client k' inbound _) =>
    if k' = k ∧ .client k ∈ s.2.socket_set then (EventMgr.heard host k inbound s.2).toList else []
  | _ => []

namespace SelectLoop

/-- What the steps read of the client `k`, one after another. -/
def stepsHeard (host : Host) (k : ℕ) : List LoopStep → BusMgr × Server → List GenericMsg
  | [], _ => []
  | e :: es, s => e.heard host k s ++ stepsHeard host k es ((step host e).exec s).2

/-- What h9bus reads of the client `k` in those passes. -/
def heard (host : Host) (k : ℕ) : List Pass → BusMgr × Server → List GenericMsg
  | [], _ => []
  | p :: ps, s => stepsHeard host k (p.steps s) s ++ heard host k ps ((pass host p).exec s).2

variable {host : Host} {k : ℕ} {asked : List GenericMsg} {s s' : BusMgr × Server}

theorem knows_accept (h : Server.Knows k asked s.2) {answer : Except Errno Accepted}
    (hrun : (visit host (.accept answer)).exec s = (.ok (), s')) : Server.Knows k asked s'.2 := by
  obtain ⟨c, address, port, rfl, -, rfl⟩ := accept_cases hrun
  obtain ⟨h1, h2⟩ := h
  refine ⟨fun c' hc' => ?_, fun hle => ?_⟩
  · by_cases hk : k = s.2.next_client
    · subst hk
      simp only [Server.accepted, Function.update_self, Option.some.injEq] at hc'
      rw [(h2 le_rfl).1, ← hc']
      exact Conversed.new _ _ _ _
    · simp only [Server.accepted, Function.update_of_ne hk] at hc'
      exact h1 c' hc'
  · have hle : s.2.next_client + 1 ≤ k := hle
    have hk : k ≠ s.2.next_client := by omega
    simp only [Server.accepted, Function.update_of_ne hk]
    exact h2 (by omega)

theorem knows_driver (h : Server.Knows k asked s.2) {name : String} {answer : ReadAnswer}
    (hrun : (visit host (.driver name answer)).exec s = (.ok (), s')) : Server.Knows k asked s'.2 := by
  have hselect := (Server.tellRule_knows k asked).on_select name answer
  rcases visit_cases hrun with hok | ⟨ref, t, herr, hclose⟩
  · exact hselect.ok h hok
  · obtain ⟨d, -, rfl⟩ := on_close_driver hclose
    exact (hselect.error h herr ⟨ref, rfl⟩).congr rfl rfl

theorem knows_client (h : Server.Knows k asked s.2) {k' : ℕ} {inbound : Inbound} {uptime : ℤ}
    (hrun : (visit host (.client k' inbound uptime)).exec s = (.ok (), s')) :
    Server.Knows k (asked ++ if k' = k then (EventMgr.heard host k' inbound s.2).toList else []) s'.2 := by
  have hselect := EventMgr.conversing_recv_msg host uptime s.1 h k' inbound
  rcases visit_cases hrun with hok | ⟨ref, t, herr, hclose⟩
  · exact Triple.ok hselect rfl hok
  · obtain ⟨c, hc, rfl⟩ := on_close_client hclose
    exact Triple.error hselect rfl herr ⟨ref, rfl⟩ c hc

theorem knows_unregister (socket : SocketRef) (fd : ℕ) : Triple (Server.Knows k asked)
    (SocketMgr.unregister_socket socket fd) (fun _ => Server.Knows k asked) fun _ _ => True := by
  refine Triple.ite (fun _ => ?_) fun _ => ?_
  · exact Triple.pure () fun _ h => h
  · exact Triple.modify _ fun _ h => h.congr rfl rfl

theorem knows_flush_dev : Triple (fun t => Server.Knows k asked t.2) BusMgr.flush_dev
    (fun _ t => Server.Knows k asked t.2) fun _ _ => True := by
  rintro ⟨bm, s⟩ h
  unfold BusMgr.flush_dev
  rw [exec_bind, exec_getFst]
  refine Triple.forEach (I := fun t : BusMgr × Server => Server.Knows k asked t.2) bm.dev.toList
    (fun it _ => Triple.ite (fun _ => ?_) fun _ => ?_) (bm, s) h
  · refine Triple.bind (M := fun _ t => Server.Knows k asked t.2)
      (Triple.onSnd fun _ => knows_unregister _ _) fun _ => ?_
    refine Triple.ite (fun _ => ?_) fun _ => ?_
    · exact Triple.modify _ fun _ h => h
    · exact Triple.pure _ fun _ h => h
  · exact Triple.pure _ fun _ h => h

theorem knows_flush_clients : Triple (Server.Knows k asked) Server.flush_clients
    (fun _ => Server.Knows k asked) fun _ _ => True := by
  intro s h
  unfold Server.flush_clients
  rw [exec_bind, exec_get]
  refine Triple.forEach s.tcp_clients.toList (fun it _ => ?_) s h
  intro t ht
  rw [exec_bind]
  rcases hc : t.clients it.2 with _ | c
  · rw [Server.client_none hc]
    trivial
  rw [Server.client_some hc]
  dsimp only
  refine Triple.ite (fun _ => ?_) (fun _ => Triple.pure _ fun _ h => h) t ht
  refine Triple.bind (knows_unregister _ _) fun _ => Triple.modify _ fun u hu => ?_
  by_cases hk : k = it.2
  · have hnone : (Function.update u.clients it.2 none) k = none := by simp [hk]
    exact ⟨fun c hc => (by cases hnone.symm.trans hc), fun hle => ⟨(hu.fresh hle).1, hnone⟩⟩
  · have hsame : (Function.update u.clients it.2 none) k = u.clients k := Function.update_of_ne hk _ _
    exact ⟨fun c hc => hu.conversed c (hsame.symm.trans hc), fun hle => ⟨(hu.fresh hle).1,
      hsame.trans (hu.fresh hle).2⟩⟩

theorem knows_step (h : Server.Knows k asked s.2) {e : LoopStep}
    (hrun : (step host e).exec s = (.ok (), s')) :
    Server.Knows k (asked ++ e.heard host k s) s'.2 := by
  rcases e with v | ⟨name, answer⟩ | _
  · unfold step at hrun
    simp only [exec_bind, exec_get, exec_ite] at hrun
    by_cases hmem : v.socket ∈ s.2.socket_set
    · rw [if_pos hmem] at hrun
      rcases v with answer | ⟨name, answer⟩ | ⟨k', inbound, uptime⟩
      · change Server.Knows k (asked ++ []) s'.2
        rw [List.append_nil]
        exact knows_accept h hrun
      · change Server.Knows k (asked ++ []) s'.2
        rw [List.append_nil]
        exact knows_driver h hrun
      · have hheard := knows_client h hrun
        rw [LoopStep.heard]
        by_cases hk : k' = k
        · subst hk
          rw [if_pos rfl] at hheard
          rwa [if_pos ⟨rfl, hmem⟩]
        · rw [if_neg hk] at hheard
          rwa [if_neg fun h => hk h.1]
    · rw [if_neg hmem, exec_pure] at hrun
      obtain rfl := (Prod.mk.inj hrun).2
      have hnone : (LoopStep.visit v).heard host k s = [] := by
        rcases v with answer | ⟨name, answer⟩ | ⟨k', inbound, uptime⟩
        · rfl
        · rfl
        · rw [LoopStep.heard, if_neg]
          rintro ⟨rfl, hk⟩
          exact hmem hk
      rwa [hnone, List.append_nil]
  · change Server.Knows k (asked ++ []) s'.2
    rw [List.append_nil]
    rcases reopen_cases hrun with rfl | ⟨d, -, -, -, ⟨fd, -, -, rfl⟩ | ⟨leaked, bm', -, -, rfl⟩⟩
    · exact h
    · exact h.congr rfl rfl
    · exact h.congr rfl rfl
  · change Server.Knows k (asked ++ []) s'.2
    rw [List.append_nil]
    have hflush : Triple (fun t => Server.Knows k asked t.2) (step host .flush)
        (fun _ t => Server.Knows k asked t.2) fun _ _ => True :=
      Triple.bind knows_flush_dev fun _ => Triple.onSnd fun _ => knows_flush_clients
    exact hflush.ok h hrun

theorem knows_steps : ∀ {es : List LoopStep} {asked : List GenericMsg} {s : BusMgr × Server},
    Server.Knows k asked s.2 → (forEach es (step host)).exec s = (.ok (), s') →
      Server.Knows k (asked ++ stepsHeard host k es s) s'.2
  | [], asked, s, h, hrun => by
    obtain rfl := (Prod.mk.inj hrun).2
    rwa [stepsHeard, List.append_nil]
  | e :: es, asked, s, h, hrun => by
    obtain ⟨t, ht, hrun⟩ := exec_forEach_cons.1 hrun
    rw [stepsHeard, ht, ← List.append_assoc]
    exact knows_steps (knows_step h ht) hrun

theorem knows_passes : ∀ {ps : List Pass} {asked : List GenericMsg} {s : BusMgr × Server},
    Server.Knows k asked s.2 → (select_loop host ps).exec s = (.ok (), s') →
      Server.Knows k (asked ++ heard host k ps s) s'.2
  | [], asked, s, h, hrun => by
    obtain rfl := (Prod.mk.inj hrun).2
    rwa [heard, List.append_nil]
  | p :: ps, asked, s, h, hrun => by
    obtain ⟨t, ht, hrun⟩ := exec_forEach_cons.1 hrun
    rw [heard, ht, ← List.append_assoc]
    have hsteps : (forEach (p.steps s) (step host)).exec s = (.ok (), t) := by
      rwa [pass, exec_bind, exec_get] at ht
    exact knows_passes (knows_steps h hsteps) hrun

/-- No two sockets have one descriptor, so that what is written to one comes out at no other. -/
def Apart (s : BusMgr × Server) : Prop :=
  ∀ r r' fd, get_socket s r = some fd → get_socket s r' = some fd → r = r'

/-- In any run in which the kernel gives no number that another socket object still has, and no step uses
a frame after it was deleted: no step is taken while two sockets have one descriptor, and at the end each
client in the table was sent, but for the frames that it subscribed or asked to be sent, one answer to
each message that is answered, in their order, and all of it is numbered. -/
theorem clients_conversed (host : Host) (config : Config) (ps : List Pass)
    (h : Meets host (fun e t => e.Unheld t ∧ ((step host e).exec t).2.1.heap.Intact) ps config.start)
    {s : BusMgr × Server} (hrun : (select_loop host ps).exec config.start = (.ok (), s)) :
    Meets host (fun _ t => Apart t) ps config.start ∧
      ∀ k c, s.2.clients k = some c → Conversed (heard host k ps config.start) c := by
  refine ⟨?_, fun k c hc => ?_⟩
  · exact (registry_loop host fun _ _ hC => hC.1).meets (fun hr _ => hr.inv.distinct) ps
      ⟨start_registry config, config.start_nonzero, config.start_flushed⟩ h
  · have hstart : Server.Knows k [] config.start.2 := ⟨fun _ h => (by cases h), fun _ => ⟨rfl, rfl⟩⟩
    exact (knows_passes hstart hrun).conversed c hc

/-- A host that takes every text for a call that subscribes frames. -/
def subscribeHost : Host where
  xmlReadMemory _ := some (EventMgr.eventCall "subscribe" "frame")
  xmlGetLastError _ := ""
  version := "0"

/-- A client subscribes, gets a frame that the adapter has received, and subscribes again. -/
def subscribedRun : List Pass :=
  [one (connect 7), one (sendFrame 0),
    one (.driver "can0" ⟨.ok ['T', '0', '2', '0', '0', '0', '4', '0', '8', '0', '\r'], .new⟩),
    one (sendFrame 0)]

theorem clients_conversed_subscribed : ∃ s c,
    (select_loop subscribeHost subscribedRun).exec sampleConfig.start = (.ok (), s) ∧
      s.2.clients 0 = some c ∧ c.h9socket.isSome = true ∧ c.sent.length = 3 ∧
        Meets subscribeHost (fun _ t => Apart t) subscribedRun sampleConfig.start ∧
          Conversed (heard subscribeHost 0 subscribedRun sampleConfig.start) c := by
  have hmeets : Meets subscribeHost (fun e t => e.Unheld t ∧
      ((step subscribeHost e).exec t).2.1.heap.Intact) subscribedRun sampleConfig.start := by
    have hnone : ∀ {e : LoopStep} {t : BusMgr × Server}, e.given t = none → e.Unheld t :=
      fun he _ hg => by cases he.symm.trans hg
    refine .cons (.cons ⟨?_, by decide +kernel⟩ (.cons ⟨hnone rfl, by decide +kernel⟩ trivial)) ?_
    · intro given hg r hr
      obtain rfl : _ = given := Option.some.inj hg
      have hmem := sampleConfig.mem_sockets.2 hr
      simp [Config.sockets, sampleConfig] at hmem
    refine .cons (.cons ⟨hnone rfl, by decide +kernel⟩ (.cons ⟨hnone rfl, by decide +kernel⟩ trivial)) ?_
    refine .cons (.cons ⟨hnone rfl, by decide +kernel⟩ (.cons ⟨hnone rfl, by decide +kernel⟩ trivial)) ?_
    exact .cons (.cons ⟨hnone rfl, by decide +kernel⟩ (.cons ⟨hnone rfl, by decide +kernel⟩ trivial)) trivial
  have hok : ((select_loop subscribeHost subscribedRun).exec sampleConfig.start).1 = .ok () := by
    decide +kernel
  have hclient : (((select_loop subscribeHost subscribedRun).exec sampleConfig.start).2.2.clients 0).map
      (fun c => (c.h9socket.isSome, c.sent.length)) = some (true, 3) := by decide +kernel
  rcases hrun : (select_loop subscribeHost subscribedRun).exec sampleConfig.start with ⟨r, s⟩
  rw [hrun] at hok hclient
  obtain rfl : r = .ok () := hok
  obtain ⟨c, hc, hsent⟩ := Option.map_eq_some_iff.1 hclient
  obtain ⟨hopen, hlength⟩ := Prod.mk.inj hsent
  have hrest := clients_conversed subscribeHost sampleConfig subscribedRun hmeets hrun
  exact ⟨s, c, rfl, hc, hopen, hlength, hrest.1, hrest.2 0 c hc⟩

end SelectLoop

end H9
