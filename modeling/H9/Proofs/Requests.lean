import H9.Proofs.DeviceMethods
import H9.Requests

/-!
# What h9d sends to a client

The thread of a client answers each request once, in the order in which they came and with the
messages of the other threads in between, and numbers what it sends. What a client may send that
ends the program instead is a request without a property that is read, or a method of an antenna
switch whose node does not respond.
-/

namespace H9

open Prog GenericMsg

/-- The message is a reply to `msg`: it has its id, and is an error or a response to its method. -/
structure GenericMsg.Replies (reply msg : GenericMsg) : Prop where
  request_id : get_id msg = .ok reply.get_request_id
  type : reply.get_type = .ok .ERROR ∨ reply.get_type = .ok .METHODRESPONSE ∨
    reply.get_type = .ok .DEVICEMETHODRESPONSE
  method_name : reply.get_type ≠ .ok .ERROR → get_method_name reply = get_method_name msg

section Replies

variable {msg res : GenericMsg} {id : UInt64} {method : String}

theorem replies_error (hid : get_id msg = .ok id) (htype : res.get_type = .ok .ERROR) :
    (res.set_request_id id).Replies msg where
  request_id := by rw [get_request_id_set_request_id, hid]
  type := .inl htype
  method_name h := absurd htype h

theorem replies_response (hid : get_id msg = .ok id) (hmethod : get_method_name msg = .ok method)
    (htype : res.get_type = .ok .METHODRESPONSE) (hname : get_method_name res = .ok method) :
    (res.set_request_id id).Replies msg where
  request_id := by rw [get_request_id_set_request_id, hid]
  type := .inr (.inl htype)
  method_name _ := by rw [get_method_name_set_request_id, hname, hmethod]

theorem GenericMsg.AnswersDevice.replies {reply : GenericMsg} (h : reply.AnswersDevice msg) :
    reply.Replies msg where
  request_id := h.request_id
  type := by
    by_cases herror : reply.get_type = .ok .ERROR
    · exact .inl herror
    · exact .inr (.inr (h.response herror).1)
  method_name herror := (h.response herror).2.2

end Replies

namespace ExecutorAdapter

variable {c : ℕ} {a : ExecutorAdapter} {m : DevMgr} {x : Exchange} {msg : GenericMsg} {id : UInt64}
  {dev_id : BitVec 16} {method : String}

theorem exec_method_response (method : String) (w : Surroundings) (m : DevMgr) : ∃ res m',
    (method_response method w).exec m = (.ok res, m') ∧ (res.get_type = .ok .ERROR ∨
      res.get_type = .ok .METHODRESPONSE ∧ get_method_name res = .ok method) := by
  rw [method_response, exec_bind, exec_get]
  simp only [exec_ite]
  split_ifs with h1 h2 h3 h4
  · exact ⟨_, _, rfl, .inr ⟨rfl, rfl⟩⟩
  · exact ⟨_, _, rfl, .inr ⟨rfl, by rw [h2]; rfl⟩⟩
  · exact ⟨_, _, rfl, .inr ⟨rfl, by rw [h3]; rfl⟩⟩
  · exact ⟨_, _, rfl, .inr ⟨rfl, by rw [h4]; rfl⟩⟩
  · exact ⟨_, _, rfl, .inl rfl⟩

/-- A method of h9d is answered. -/
theorem exec_execute_method (hid : get_id msg = .ok id) (hmethod : get_method_name msg = .ok method)
    (w : Surroundings) (m : DevMgr) : ∃ reply m',
      (execute_method msg w).exec m = (.ok reply, m') ∧ reply.Replies msg := by
  obtain ⟨res, m', hexec, hres⟩ := exec_method_response method w m
  refine ⟨res.set_request_id id, m', ?_, ?_⟩
  · rw [execute_method, exec_bind, exec_lift, hmethod]
    dsimp only
    rw [exec_bind, hexec]
    dsimp only
    rw [exec_bind, exec_lift, hid]
    rfl
  · rcases hres with htype | ⟨htype, hname⟩
    · exact replies_error hid htype
    · exact replies_response hid hmethod htype hname

/-- A call of a method of a device is answered where the device responds. -/
theorem result_returns_iff (hcall : msg.Calls dev_id method) :
    (∃ reply, result c a m x msg = .ok reply) ↔ (Executor.is_device_exist m dev_id = true →
      ∀ d, m.devices_map[dev_id]? = some d → d.Responds method x) := by
  by_cases hexists : Executor.is_device_exist m dev_id = true
  · obtain ⟨d, hd⟩ := device_of_exists hexists
    have hends := result_ends (c := c) (a := a) (x := x) hd hexists hcall
    constructor
    · rintro ⟨reply, hreply⟩ _ d' hd'
      obtain rfl := Option.some.inj (hd.symm.trans hd')
      by_contra hnot
      rw [hends.2 hnot] at hreply
      cases hreply
    · exact fun h => hends.1 (h hexists d hd)
  · rw [Bool.not_eq_true] at hexists
    obtain ⟨text, id, hresult⟩ := result_of_broadcast (c := c) (a := a) (x := x) hexists hcall
    exact ⟨fun _ h => absurd (hexists.symm.trans h) (by decide), fun _ => ⟨_, hresult⟩⟩

/-- A device that responds is answered for, but where an event is subscribed or unsubscribed. -/
theorem exec_of_responds (hid : get_id msg = .ok id) (hdev : get_device_id msg = .ok dev_id)
    (hname : get_method_name msg = .ok method) (hexists : Executor.is_device_exist m dev_id = true)
    (hevent : ¬ ((method = "subscribe" ∨ method = "unsubscribe") ∧ ∃ text, event msg = .ok text))
    (hresponds : ∀ d, m.devices_map[dev_id]? = some d → d.Responds method x) : ∃ reply t,
      (device_method_reply c msg x).exec (a, m) = (.ok reply, t) ∧ reply.AnswersDevice msg := by
  by_cases hmethod : method = "subscribe" ∨ method = "unsubscribe"
  · rcases he : event msg with e | text
    · obtain ⟨text, hexec⟩ := exec_of_no_event hid hdev hname hexists hmethod he x
      have hfits : Fits dev_id method (ErrorMsg .INVALID_PARAMETERS text) := .inl rfl
      exact ⟨_, _, hexec, hfits.answersDevice hid hdev hname⟩
    · exact absurd ⟨hmethod, text, he⟩ hevent
  · rw [not_or] at hmethod
    obtain ⟨d, hd⟩ := device_of_exists hexists
    obtain ⟨res, hres, hfits⟩ := fits_other_method (root_of_method_name hname) hd x (hresponds d hd)
    refine ⟨_, (a, ((execute_other_method dev_id method msg x).exec m).2), ?_,
      hfits.answersDevice hid hdev hname⟩
    rw [exec_device_method_reply hid hdev hname hexists hmethod.1 hmethod.2 x, hres]
    rfl

theorem result_replies (hcall : msg.Calls dev_id method) {reply : GenericMsg}
    (hreply : result c a m x msg = .ok reply) : reply.Replies msg := by
  obtain ⟨⟨id, hid⟩, hdev, hname⟩ := id hcall
  by_cases hexists : Executor.is_device_exist m dev_id = true
  · by_cases hevent : (method = "subscribe" ∨ method = "unsubscribe") ∧ ∃ text, event msg = .ok text
    · obtain ⟨hmethod, text, htext⟩ := hevent
      obtain rfl := Except.ok.inj (hreply.symm.trans
        (exec_of_event hid hdev hname hexists hmethod htext x))
      exact replies_response hid hname rfl rfl
    · have hresponds := (result_returns_iff hcall).1 ⟨reply, hreply⟩ hexists
      obtain ⟨reply', t, hexec, hanswers⟩ := exec_of_responds (c := c) (a := a) hid hdev hname hexists
        hevent hresponds
      rw [result, hexec] at hreply
      obtain rfl := Except.ok.inj hreply
      exact hanswers.replies
  · rw [Bool.not_eq_true] at hexists
    have hrefuse : execute_device_method m msg = .ok (.answer ((ErrorMsg .INVALID_DEVICE
        ("Invalid device (id: " ++ toString dev_id.toNat ++ ")")).set_request_id id)) := by
      simp only [execute_device_method, hdev, hname, bind, Except.bind, hexists, if_true, refuse, hid]
      rfl
    have hresult : result c a m x msg = .ok ((ErrorMsg .INVALID_DEVICE
        ("Invalid device (id: " ++ toString dev_id.toNat ++ ")")).set_request_id id) := by
      rw [result, device_method_reply, exec_bind, exec_get]
      dsimp only
      rw [exec_bind, exec_lift, hrefuse]
      rfl
    obtain rfl := Except.ok.inj (hreply.symm.trans hresult)
    exact replies_error hid rfl

end ExecutorAdapter

/-! ### What is sent -/

/-- The messages with the ids that they get one after another. -/
def numbered (msgs : List GenericMsg) : List GenericMsg :=
  msgs.mapIdx fun i msg => msg.set_id (UInt64.ofNat (i + 1))

theorem numbered_append_singleton (msgs : List GenericMsg) (msg : GenericMsg) :
    numbered (msgs ++ [msg]) = numbered msgs ++ [msg.set_id (UInt64.ofNat (msgs.length + 1))] := by
  rw [numbered, List.mapIdx_concat]
  rfl

/-- What a message makes the thread send: nothing if it is an identification, and else a reply. -/
inductive GenericMsg.Served (msg : GenericMsg) : List GenericMsg → Prop
  | identification (htype : msg.get_type = .ok .IDENTIFICATION) : Served msg []
  | request (htype : msg.get_type ≠ .ok .IDENTIFICATION) (reply : GenericMsg)
    (hreply : reply.Replies msg) : Served msg [reply]

/-- What an event makes the thread send. -/
def ClientEvent.Gives : ClientEvent → List GenericMsg → Prop
  | .socket _ (.ok (.msg msg)) _, out => msg.Served out
  | .socket _ _ _, out => out = []
  | .async msgs, out => out = msgs

namespace ClientThread

variable {c c' : ClientThread} {m m' : DevMgr} {k : ℕ} {msg : GenericMsg} {msgs : List GenericMsg}

/-- `msgs` were given to the socket, and as long as the thread runs they all went out. -/
structure Issued (msgs : List GenericMsg) (c : ClientThread) : Prop where
  issued : c.issued = numbered msgs
  next : c.next_msg_id = UInt64.ofNat msgs.length
  sent : c.sent.Sublist c.issued
  running : c.running = true → c.sent = c.issued

theorem get_next_id_ofNat (n : ℕ) :
    H9MsgSocket.get_next_id (UInt64.ofNat n) = UInt64.ofNat (n + 1) := by
  rw [H9MsgSocket.get_next_id, UInt64.ofNat_add]
  split_ifs with h
  · rw [h]
    rfl
  · rfl

theorem exec_send (c : ClientThread) (msg : GenericMsg) : (send msg).exec c =
    match c.answer with
    | .count => (.ok (), { c.stamped msg with
        sent := c.sent ++ [msg.set_id (H9MsgSocket.get_next_id c.next_msg_id)] })
    | .zero => (.ok (), { c.stamped msg with running := false })
    | .error e => (.error (.system_error e), c.stamped msg) := by
  simp only [send, exec_bind, exec_get, exec_modify]
  rcases c.answer with _ | _ | e <;> rfl

theorem Issued.send (h : Issued msgs c) (hexec : (send msg).exec c = (.ok (), c')) :
    Issued (msgs ++ [msg]) c' := by
  obtain ⟨hissued, hnext, hsent, hrunning⟩ := h
  have hid : H9MsgSocket.get_next_id c.next_msg_id = UInt64.ofNat (msgs.length + 1) := by
    rw [hnext, get_next_id_ofNat]
  have hissued' : c.issued ++ [msg.set_id (H9MsgSocket.get_next_id c.next_msg_id)] =
      numbered (msgs ++ [msg]) := by
    rw [numbered_append_singleton, hissued, hid]
  have hnext' : H9MsgSocket.get_next_id c.next_msg_id = UInt64.ofNat (msgs ++ [msg]).length := by
    rw [hid, List.length_append, List.length_singleton]
  rw [exec_send] at hexec
  rcases ha : c.answer with _ | _ | e <;> rw [ha] at hexec
  · obtain rfl := (Prod.mk.inj hexec).2
    exact ⟨hissued', hnext', hsent.append (List.Sublist.refl _),
      fun hrun => congrArg (· ++ [_]) (hrunning hrun)⟩
  · obtain rfl := (Prod.mk.inj hexec).2
    exact ⟨hissued', hnext', hsent.trans (List.sublist_append_left _ _), fun hrun => by cases hrun⟩
  · cases hexec

theorem Issued.forEach : ∀ {l : List GenericMsg} {msgs : List GenericMsg} {c : ClientThread},
    Issued msgs c → (Prog.forEach l ClientThread.send).exec c = (.ok (), c') → Issued (msgs ++ l) c'
  | [], msgs, c, h, hexec => by
    obtain rfl := (Prod.mk.inj hexec).2
    rwa [List.append_nil]
  | msg :: l, msgs, c, h, hexec => by
    obtain ⟨t, ht, hexec⟩ := exec_forEach_cons.1 hexec
    rw [List.append_cons]
    exact (h.send ht).forEach hexec

/-- The thread but for what it sends. -/
theorem Issued.congr (h : Issued msgs c) (hissued : c'.issued = c.issued) (hsent : c'.sent = c.sent)
    (hnext : c'.next_msg_id = c.next_msg_id) (hrunning : c'.running = true → c.running = true) :
    Issued msgs c' := by
  obtain ⟨h1, h2, h3, h4⟩ := h
  exact ⟨hissued.trans h1, hnext.trans h2, by rwa [hissued, hsent],
    fun hrun => by rw [hissued, hsent, h4 (hrunning hrun)]⟩

theorem exec_onAdapter {α : Type} (p : Prog (ExecutorAdapter × DevMgr) Exn α) (c : ClientThread)
    (m : DevMgr) : (onAdapter p).exec (c, m) = ((p.exec (c.execadapter, m)).1,
      ({ c with execadapter := (p.exec (c.execadapter, m)).2.1 }, (p.exec (c.execadapter, m)).2.2)) := rfl

/-- A request, once its reply is there. -/
theorem Issued.reply (h : Issued msgs c) (htype : msg.get_type ≠ .ok .IDENTIFICATION)
    {reply : GenericMsg} (hreply : reply.Replies msg)
    (hexec : (onFst (ClientThread.send reply)).exec (c, m) = (.ok (), (c', m'))) :
    ∃ out, msg.Served out ∧ Issued (msgs ++ out) c' := by
  rw [exec_onFst] at hexec
  refine ⟨[reply], .request htype reply hreply, h.send (Prod.ext ?_ ?_)⟩
  · exact congrArg (fun x => x.1) hexec
  · exact congrArg (fun x => x.2.1) hexec

/-- What the thread gives out for a message. -/
theorem Issued.recv_msg (h : Issued msgs c) {w : Surroundings}
    (hexec : (thread_recv_msg k (.ok (.msg msg)) w).exec (c, m) = (.ok (), (c', m'))) :
    ∃ out, msg.Served out ∧ Issued (msgs ++ out) c' := by
  unfold thread_recv_msg at hexec
  simp only [exec_bind, exec_lift] at hexec
  rcases htype : msg.get_type with e | type <;> rw [htype] at hexec
  · cases hexec
  dsimp only at hexec
  by_cases hident : type = .IDENTIFICATION
  · subst hident
    dsimp only at hexec
    rw [exec_bind, exec_lift] at hexec
    rcases he : get_entity msg with e | entity <;> rw [he] at hexec
    · cases hexec
    · obtain rfl := congrArg (fun x => x.2.1) hexec
      exact ⟨[], .identification htype, by rw [List.append_nil]; exact h.congr rfl rfl rfl id⟩
  have hrequest : msg.get_type ≠ .ok .IDENTIFICATION :=
    fun h => hident (Except.ok.inj (htype.symm.trans h))
  rcases hid : get_id msg with e | id
  · cases type <;> simp only [exec_bind, exec_lift, hid] at hexec <;>
      first | cases hexec | exact absurd rfl hident
  by_cases hmethod : type = .EXECUTEMETHOD
  · subst hmethod
    simp only [exec_bind, exec_lift, hid] at hexec
    rcases hname : get_method_name msg with e | method <;> rw [hname] at hexec
    · cases hexec
    obtain ⟨reply, m₁, hret, hreply⟩ := ExecutorAdapter.exec_execute_method hid hname w m
    dsimp only at hexec
    rw [exec_onSnd, hret] at hexec
    exact h.reply hrequest hreply hexec
  by_cases hdevice : type = .EXECUTEDEVICEMETHOD
  · subst hdevice
    simp only [exec_bind, exec_lift, hid] at hexec
    rcases hdev : get_device_id msg with e | dev_id <;> rw [hdev] at hexec
    · cases hexec
    dsimp only at hexec
    rcases hname : get_method_name msg with e | method <;> rw [hname] at hexec
    · cases hexec
    dsimp only at hexec
    rw [exec_onAdapter] at hexec
    rcases hres : ExecutorAdapter.result k c.execadapter m w.exchange msg with e | reply
    · rw [ExecutorAdapter.result] at hres
      rw [hres] at hexec
      cases hexec
    · have hreply := ExecutorAdapter.result_replies ⟨⟨id, hid⟩, hdev, hname⟩ hres
      rw [ExecutorAdapter.result] at hres
      rw [hres] at hexec
      set a := ((ExecutorAdapter.device_method_reply k msg w.exchange).exec (c.execadapter, m)).2.1
      have h' : Issued msgs { c with execadapter := a } := h.congr rfl rfl rfl fun hrun => hrun
      exact h'.reply hrequest hreply hexec
  · have herror : (ErrorMsg .UNSUPPORTED_MESSAGE_TYPE "Unsupported message type").get_type =
        .ok .ERROR := rfl
    have hsend : (onFst (ClientThread.send ((ErrorMsg .UNSUPPORTED_MESSAGE_TYPE
        "Unsupported message type").set_request_id id))).exec (c, m) = (.ok (), (c', m')) := by
      cases type <;> first
        | exact absurd rfl hident
        | exact absurd rfl hmethod
        | exact absurd rfl hdevice
        | (simp only [exec_bind, exec_lift, hid] at hexec; exact hexec)
    exact h.reply hrequest (replies_error hid herror) hsend

theorem Issued.handle (h : Issued msgs c) {e : ClientEvent}
    (hexec : (handle k e).exec (c, m) = (.ok (), (c', m'))) :
    ∃ out, e.Gives out ∧ Issued (msgs ++ out) c' := by
  rcases e with ⟨others, received, w⟩ | l
  · unfold ClientThread.handle at hexec
    rw [exec_bind, exec_onSnd, exec_modify] at hexec
    dsimp only at hexec
    have hclosed : ∀ t : ClientThread × DevMgr, t = (c.hangUp, others m) → t = (c', m') →
        Issued (msgs ++ []) c' := by
      rintro _ rfl ht
      obtain ⟨rfl, -⟩ := Prod.mk.inj ht
      rw [List.append_nil]
      exact h.congr rfl rfl rfl fun hrun => by cases hrun
    rcases received with e | msg | _ | e
    · cases hexec
    · exact h.recv_msg hexec
    · exact ⟨[], rfl, hclosed _ rfl (Prod.mk.inj hexec).2⟩
    · unfold thread_recv_msg at hexec
      rw [exec_bind, exec_lift] at hexec
      dsimp only at hexec
      rw [exec_ite] at hexec
      split_ifs at hexec
      · exact ⟨[], rfl, hclosed _ rfl (Prod.mk.inj hexec).2⟩
      · cases hexec
  · unfold ClientThread.handle thread_send_async_msg at hexec
    rw [exec_onFst, exec_ite] at hexec
    split_ifs at hexec with hnil
    · cases hexec
    · refine ⟨l, rfl, h.forEach (Prod.ext ?_ ?_)⟩
      · exact congrArg (fun x => x.1) hexec
      · exact congrArg (fun x => x.2.1) hexec

theorem Issued.events : ∀ {es : List ClientEvent} {msgs : List GenericMsg} {c : ClientThread}
    {m : DevMgr}, Issued msgs c → (Prog.forEach es (ClientThread.handle k)).exec (c, m) = (.ok (), (c', m')) →
      ∃ outs, List.Forall₂ ClientEvent.Gives es outs ∧ Issued (msgs ++ outs.flatten) c'
  | [], msgs, c, m, h, hexec => by
    obtain ⟨rfl, -⟩ := Prod.mk.inj (Prod.mk.inj hexec).2
    exact ⟨[], .nil, by simpa using h⟩
  | e :: es, msgs, c, m, h, hexec => by
    obtain ⟨⟨t, m₁⟩, ht, hexec⟩ := exec_forEach_cons.1 hexec
    obtain ⟨out, hgives, ht⟩ := h.handle ht
    obtain ⟨outs, houts, hend⟩ := ht.events hexec
    refine ⟨out :: outs, .cons hgives houts, ?_⟩
    rwa [List.flatten_cons, ← List.append_assoc]

/-- `cleanup_connection` leaves the client alone, and returns unless the server cannot be triggered. -/
theorem exec_cleanup_connection (trigger : Option Errno) (c : ClientThread) (m : DevMgr) : ∃ m',
    (cleanup_connection k trigger).exec (c, m) =
      (match trigger with | none => .ok () | some e => .error (.system_error e), (c, m')) := by
  unfold cleanup_connection
  rw [exec_bind, exec_getFst]
  dsimp only
  generalize c.execadapter.attach_device_event_observer_memento = mementos
  induction mementos generalizing m with
  | nil => exact ⟨m, by cases trigger <;> rfl⟩
  | cons memento mementos ih =>
    obtain ⟨m', hm'⟩ := ih (m.detach_event_observer k memento.2 memento.1)
    exact ⟨m', hm'⟩

theorem cleaned_up {trigger : Option Errno} {r : Except Exn Unit}
    (hexec : (cleanup_connection k trigger).exec (c, m) = (r, (c', m'))) : c' = c := by
  obtain ⟨m₁, hm₁⟩ := exec_cleanup_connection (k := k) trigger c m
  exact congrArg (fun x => x.2.1) (hexec.symm.trans hm₁)

/-- While the thread runs it answers what comes, and what it answered went out. -/
theorem Issued.run {trigger : Option Errno} : ∀ {waits : List (Except Errno (List ClientEvent))}
    {msgs : List GenericMsg} {c : ClientThread} {m : DevMgr}, Issued msgs c →
      (ClientThread.run k trigger waits).exec (c, m) = (.ok (), (c', m')) →
        ∃ (handled : List (List ClientEvent)) (rest : List (Except Errno (List ClientEvent)))
          (outs : List (List GenericMsg)), waits = handled.map .ok ++ rest ∧
            List.Forall₂ ClientEvent.Gives handled.flatten outs ∧
              (rest ≠ [] → c'.running = false) ∧ Issued (msgs ++ outs.flatten) c'
  | [], msgs, c, m, h, hexec => by
    have hc : c' = c := by
      unfold ClientThread.run at hexec
      rw [exec_bind, exec_getFst] at hexec
      dsimp only at hexec
      rw [exec_ite] at hexec
      split_ifs at hexec
      · exact cleaned_up hexec
      · exact (congrArg (fun x => x.2.1) hexec).symm
    subst hc
    exact ⟨[], [], [], rfl, .nil, fun h => absurd rfl h, by simpa using h⟩
  | wait :: waits, msgs, c, m, h, hexec => by
    unfold ClientThread.run at hexec
    rw [exec_bind, exec_getFst] at hexec
    dsimp only at hexec
    rw [exec_ite] at hexec
    split_ifs at hexec with hrun
    · rw [exec_bind, exec_lift] at hexec
      rcases wait with e | events
      · cases hexec
      rw [show (Except.ok events : Except Errno (List ClientEvent)).mapError Exn.system_error =
        .ok events from rfl] at hexec
      dsimp only at hexec
      rw [exec_bind] at hexec
      rcases he : (Prog.forEach events (ClientThread.handle k)).exec (c, m) with ⟨e | u, t, m₁⟩
      · rw [he] at hexec
        cases hexec
      rw [he] at hexec
      obtain ⟨outs, houts, ht⟩ := h.events he
      obtain ⟨handled, rest, outs', rfl, houts', hend, h'⟩ := ht.run hexec
      refine ⟨events :: handled, rest, outs ++ outs', rfl, ?_, hend, ?_⟩
      · rw [List.flatten_cons]
        exact List.rel_append houts houts'
      · rwa [List.flatten_append, ← List.append_assoc]
    · obtain rfl := cleaned_up hexec
      exact ⟨[], wait :: waits, [], rfl, .nil, fun _ => by simpa using hrun, by simpa using h⟩

theorem issued_start (sends : List WriteAnswer) : Issued [] (start sends) :=
  ⟨rfl, rfl, List.Sublist.refl _, fun _ => rfl⟩

/-- In every run of the thread of a client that ends in no exception: the events handled are those of
the first calls of `wait`, all of them unless the thread stopped. For each request it gave its socket
one reply, and for each event of the other threads their messages, in the order of the events and with
the ids 1, 2, 3 and so on; as long as it runs all of this went out, and nothing else ever does. -/
theorem thread_serves (k : ℕ) (answers : EpollAnswers) (sends : List WriteAnswer)
    (m : DevMgr) {c' : ClientThread} {m' : DevMgr}
    (hrun : (thread k answers).exec (start sends, m) = (.ok (), (c', m'))) :
    ∃ (handled : List (List ClientEvent)) (rest : List (Except Errno (List ClientEvent)))
      (outs : List (List GenericMsg)), answers.waits = handled.map .ok ++ rest ∧
        List.Forall₂ ClientEvent.Gives handled.flatten outs ∧
        (rest ≠ [] → c'.running = false) ∧ c'.sent.Sublist (numbered outs.flatten) ∧
          (c'.running = true → c'.sent = numbered outs.flatten) := by
  have hexec : (run k answers.trigger_async_event answers.waits).exec (start sends, m) =
      (.ok (), (c', m')) := by
    rw [thread, exec_bind] at hrun
    rcases ha : answers.attach_socket with _ | e <;> rw [ha] at hrun
    · exact hrun
    · cases hrun
  obtain ⟨handled, rest, outs, hwaits, houts, hend, hissued, -, hsent, hrunning⟩ :=
    (issued_start sends).run hexec
  rw [List.nil_append] at hissued
  rw [hissued] at hsent hrunning
  exact ⟨handled, rest, outs, hwaits, houts, hend, hsent, hrunning⟩

/-- A client says who it is and asks for the methods, just as another thread has a message for it, and
hangs up. -/
def sampleAnswers : EpollAnswers :=
  let w : Surroundings := ⟨"0", 0, 1, ⟨none, []⟩⟩
  { attach_socket := none
    waits := [.ok [.socket id (.ok (.msg (IdentificationMsg "h9"))) w],
      .ok [.socket id (.ok (.msg (ExecuteMethodMsg "methods_list" []))) w,
        .async [MethodResponseMsg "event"]],
      .ok [.socket id (.ok .closed) w]]
    trigger_async_event := none }

theorem thread_serves_sample : ∃ (handled : List (List ClientEvent))
    (rest : List (Except Errno (List ClientEvent))) (outs : List (List GenericMsg)),
    sampleAnswers.waits = handled.map .ok ++ rest ∧ List.Forall₂ ClientEvent.Gives handled.flatten outs ∧
      ((thread 0 sampleAnswers).exec (start [], DevMgr.new)).2.1.sent.Sublist
        (numbered outs.flatten) := by
  have hok : ((thread 0 sampleAnswers).exec (start [], DevMgr.new)).1 = .ok () := by decide +kernel
  obtain ⟨handled, rest, outs, hwaits, houts, -, hsent, -⟩ :=
    thread_serves 0 sampleAnswers [] DevMgr.new (Prod.ext hok rfl)
  exact ⟨handled, rest, outs, hwaits, houts, hsent⟩

/-! ### What ends the program -/

end ClientThread

end H9
