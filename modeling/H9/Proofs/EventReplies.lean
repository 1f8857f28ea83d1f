import H9.Proofs.EventRules
import H9.Proofs.Replies
import H9.Proofs.SchemaRules

/-!
# One reply to each method call

However a client calls a method of h9bus, `execute_method` sets the subscription of the client, or
leaves it, and then sends the client one message (`Served`). That message answers the call, but for
one slip: `unsubscribe` refuses an event it does not know under the name `subscribe`.
-/

namespace H9

open Prog GenericMsg

/-- A response that carries no error. -/
def GenericMsg.Succeeds (msg : GenericMsg) : Prop :=
  msg.get_type = .ok .METHODRESPONSE ∧
    ∀ node ∈ msg.get_msg_root, ∀ e ∈ node.elements, e.name ≠ "error"

/-- The message answers the call: it has the id of the call, and is an error or has its method. -/
structure GenericMsg.Answers (msg call_msg : GenericMsg) : Prop where
  request_id : call_msg.get_id = .ok msg.get_request_id
  method : msg.get_type = .ok .METHODRESPONSE → get_method_name msg = get_method_name call_msg

namespace EventMgr

/-- The call comes to a new state of the subscription of the client and to one message to it, which
answers the call, and says that the call succeeded if the subscription changed. -/
def Served (host : Host) (uptime : ℤ) (call_msg : GenericMsg) (bm : BusMgr) (s : Server) (k : ℕ)
    (c : TcpClient) : Prop :=
  ∃ active msg, (execute_method host uptime k call_msg).exec (bm, s) =
      (onSnd (Server.send k msg)).exec (bm, s.setClient k { c with active_subscription := active }) ∧
    msg.Answers call_msg ∧
    (active ≠ c.active_subscription → msg.Succeeds ∧
      (get_method_name msg = .ok "subscribe" ∨ get_method_name msg = .ok "unsubscribe"))

end EventMgr

namespace Server

theorem setClient_self {s : Server} {k : ℕ} {c : TcpClient} (h : s.clients k = some c) :
    s.setClient k c = s := by
  rw [setClient, ← h, Function.update_eq_self]

theorem exec_send {s : Server} {k : ℕ} {c : TcpClient} (hc : s.clients k = some c)
    (hopen : c.answer = .count) (msg : GenericMsg) : (send k msg).exec s = (.ok (), s.setClient k
      { c.stamped with sent := c.sent ++ [msg.set_id c.stamped.next_msg_id] }) := by
  unfold send
  simp only [exec_bind, client_some hc, exec_modify, hopen, setClient_setClient]

/-- A send leaves by an exit of its own, none of which is about a parameter. -/
theorem send_exit (k : ℕ) (msg : GenericMsg) (s : Server) (what : String) :
    ((send k msg).exec s).1 ≠ .error (.out_of_range what) ∧
      ((send k msg).exec s).1 ≠ .error (.invalid_argument what) := by
  unfold send
  rcases hc : s.clients k with _ | c
  · rw [exec_bind, client_none hc]
    exact ⟨by simp, by simp⟩
  · simp only [exec_bind, client_some hc, exec_modify]
    rcases c.answer with _ | _ | e
    · exact ⟨by simp, by simp⟩
    · exact ⟨by simp, by simp⟩
    · rw [exec_ite]
      split_ifs <;> exact ⟨by simp, by simp⟩

end Server

namespace EventMgr

variable {host : Host} {uptime : ℤ} {call_msg : GenericMsg} {bm : BusMgr} {s : Server} {k : ℕ}
  {c : TcpClient} {id : UInt64} {method_name : String} {active : Bool}

/-- What `subscription` comes to, by the event that the call names. -/
def subscribed (method_name : String) (active : Bool) (c : TcpClient) :
    Except Exn String → Bool × GenericMsg
  | .ok text =>
    if text = "frame" then (active, MethodResponseMsg method_name)
    else (c.active_subscription,
      MethodResponseMsg.fault "subscribe" 103 ("Unsupported event: " ++ text))
  | .error (.out_of_range _) =>
    (c.active_subscription, ErrorMsg .INVALID_PARAMETERS "Missing 'event' attribute")
  | .error _ => (c.active_subscription, ErrorMsg .INVALID_PARAMETERS "Invalid parameters")

/-- What a reply leaves by is not caught. -/
theorem exec_tryCatch_reply {p : Prog (BusMgr × Server) Exn Unit}
    {h : Exn → Prog (BusMgr × Server) Exn Unit} {t t' : BusMgr × Server} {msg : GenericMsg}
    (hp : p.exec t = (reply k msg id).exec t')
    (hthrow : ∀ e, (∀ what, e ≠ .out_of_range what ∧ e ≠ .invalid_argument what) →
      h e = throw e) :
    (tryCatch p h).exec t = (reply k msg id).exec t' := by
  obtain ⟨bm, s⟩ := t'
  have hexit := Server.send_exit k (msg.set_request_id id) s
  rw [exec_tryCatch, hp, reply, exec_onSnd]
  rcases hsend : (Server.send k (msg.set_request_id id)).exec s with ⟨e | _, s'⟩
  · rw [hsend] at hexit
    dsimp only
    rw [hthrow e fun what => ?_, exec_throw]
    exact ⟨fun he => (hexit what).1 (by rw [he]), fun he => (hexit what).2 (by rw [he])⟩
  · rfl

/-- `subscription` sets the subscription and replies, both as `subscribed` says. -/
theorem exec_subscription (hc : s.clients k = some c) {node : XmlElement}
    (hroot : call_msg.get_msg_root = some node) :
    (subscription k call_msg id method_name active).exec (bm, s) =
      (reply k (subscribed method_name active c (event call_msg)).2 id).exec
        (bm, s.setClient k { c with
          active_subscription := (subscribed method_name active c (event call_msg)).1 }) := by
  have hself : s.setClient k { c with active_subscription := c.active_subscription } = s :=
    Server.setClient_self hc
  have hevent : (do (← parameter call_msg "event").get_value_as_str) = event call_msg := rfl
  unfold subscription
  rw [hevent]
  rcases hev : event call_msg with exn | text
  · rcases event_error hroot hev with ⟨what, rfl⟩ | ⟨what, rfl⟩
    · rw [exec_tryCatch, exec_bind, exec_lift]
      dsimp only [subscribed]
      rw [hself]
    · rw [exec_tryCatch, exec_bind, exec_lift]
      dsimp only [subscribed]
      rw [hself]
  · refine exec_tryCatch_reply ?_ fun e he => ?_
    · rw [exec_bind, exec_lift]
      dsimp only [subscribed]
      rw [exec_ite]
      split_ifs
      · simp only [exec_bind, exec_onSnd, Server.client_some hc, exec_modify]
      · rw [hself]
    · split
      · exact absurd rfl (he _).1
      · exact absurd rfl (he _).2
      · rfl

/-! ### The replies -/

theorem succeeds_methodResponseMsg (method_name : String) :
    (MethodResponseMsg method_name).Succeeds :=
  ⟨rfl, fun node hnode e he => by
    obtain rfl := Option.some.inj hnode
    exact absurd he List.not_mem_nil⟩

@[simp] theorem get_method_name_fault (method_name : String) (error_code : ℕ)
    (error_message : String) :
    get_method_name (MethodResponseMsg.fault method_name error_code error_message) =
      .ok method_name := rfl

theorem get_method_name_get_stat (host : Host) (uptime : ℤ) (bm : BusMgr) (s : Server) :
    get_method_name (get_stat host uptime bm s) = .ok "h9bus_stat" := rfl

theorem served_reply {msg : GenericMsg} {active : Bool} (hid : call_msg.get_id = .ok id)
    (hexec : (execute_method host uptime k call_msg).exec (bm, s) = (reply k msg id).exec
      (bm, s.setClient k { c with active_subscription := active }))
    (hname : msg.get_type = .ok .METHODRESPONSE → get_method_name msg = get_method_name call_msg)
    (hactive : active ≠ c.active_subscription → msg.Succeeds ∧
      (get_method_name msg = .ok "subscribe" ∨ get_method_name msg = .ok "unsubscribe")) :
    Served host uptime call_msg bm s k c :=
  ⟨active, msg.set_request_id id, hexec,
    ⟨by rw [get_request_id_set_request_id, hid], hname⟩, hactive⟩

/-- The slip: `unsubscribe` with an event that there is not. -/
def Misnamed (call_msg : GenericMsg) : Prop :=
  get_method_name call_msg = .ok "unsubscribe" ∧
    ∃ text, event call_msg = .ok text ∧ text ≠ "frame"

/-- What a subscription replies to has its method, if an event that there is not comes with
`subscribe` only. -/
theorem subscribed_spec (active : Bool) (c : TcpClient) {ev : Except Exn String}
    (hev : ∀ text, ev = .ok text → text ≠ "frame" → method_name = "subscribe") :
    ((subscribed method_name active c ev).2.get_type = .ok .METHODRESPONSE →
      get_method_name (subscribed method_name active c ev).2 = .ok method_name) ∧
    ((subscribed method_name active c ev).1 ≠ c.active_subscription →
      (subscribed method_name active c ev).2.Succeeds ∧
        get_method_name (subscribed method_name active c ev).2 = .ok method_name) := by
  rcases ev with e | text
  · have herror : (subscribed method_name active c (.error e)).1 = c.active_subscription ∧
        (subscribed method_name active c (.error e)).2.get_type = .ok .ERROR := by
      cases e <;> exact ⟨rfl, rfl⟩
    exact ⟨fun ht => (by cases herror.2.symm.trans ht), fun hne => absurd herror.1 hne⟩
  · by_cases hframe : text = "frame"
    · rw [subscribed, if_pos hframe]
      exact ⟨fun _ => rfl, fun _ => ⟨succeeds_methodResponseMsg method_name, rfl⟩⟩
    · rw [subscribed, if_neg hframe]
      exact ⟨fun _ => by rw [get_method_name_fault, hev text rfl hframe], fun hne => absurd rfl hne⟩

/-- What a call comes to: whether the client has the subscription then, and the reply. -/
def called (host : Host) (uptime : ℤ) (bm : BusMgr) (s : Server) (c : TcpClient) (method_name : String)
    (ev : Except Exn String) : Bool × GenericMsg :=
  if method_name = "methods_list" then (c.active_subscription, withArray method_name "methods"
    ["methods_list", "h9bus_stat", "events_list", "subscribe", "unsubscribe"])
  else if method_name = "h9bus_stat" then (c.active_subscription, get_stat host uptime bm s)
  else if method_name = "events_list" then
    (c.active_subscription, withArray method_name "events" ["frame"])
  else if method_name = "subscribe" then subscribed method_name true c ev
  else if method_name = "unsubscribe" then subscribed method_name false c ev
  else (c.active_subscription, ErrorMsg .UNSUPPORTED_METHOD ("Unsupported method: " ++ method_name))

/-- `execute_method` sets the subscription and replies, both as `called` says. -/
theorem exec_execute_method {node : XmlElement} (hroot : call_msg.get_msg_root = some node)
    (hname : get_method_name call_msg = .ok method_name) (hid : call_msg.get_id = .ok id)
    (hc : s.clients k = some c) : (execute_method host uptime k call_msg).exec (bm, s) =
      (reply k (called host uptime bm s c method_name (event call_msg)).2 id).exec
        (bm, s.setClient k { c with active_subscription :=
          (called host uptime bm s c method_name (event call_msg)).1 }) := by
  have hself : s.setClient k { c with active_subscription := c.active_subscription } = s :=
    Server.setClient_self hc
  rw [execute_method, exec_bind, exec_lift, hname]
  dsimp only
  rw [exec_bind, exec_lift, hid]
  unfold called
  simp only [exec_ite]
  split_ifs with h1 h2 h3 h4 h5
  · rw [hself]
  · rw [hself, exec_bind, exec_get]
  · rw [hself]
  · exact exec_subscription hc hroot
  · exact exec_subscription hc hroot
  · rw [hself]

/-- What a call comes to has its method, and tells the client if the subscription changed, if an event
that there is not does not come with `unsubscribe`. -/
theorem called_spec (host : Host) (uptime : ℤ) (bm : BusMgr) (s : Server) (c : TcpClient)
    (method_name : String) (ev : Except Exn String)
    (hev : ∀ text, ev = .ok text → text ≠ "frame" → method_name ≠ "unsubscribe") :
    ((called host uptime bm s c method_name ev).2.get_type = .ok .METHODRESPONSE →
      get_method_name (called host uptime bm s c method_name ev).2 = .ok method_name) ∧
    ((called host uptime bm s c method_name ev).1 ≠ c.active_subscription →
      (called host uptime bm s c method_name ev).2.Succeeds ∧
        get_method_name (called host uptime bm s c method_name ev).2 = .ok method_name ∧
        (method_name = "subscribe" ∨ method_name = "unsubscribe")) := by
  unfold called
  split_ifs with h1 h2 h3 h4 h5
  · exact ⟨fun _ => rfl, fun hne => absurd rfl hne⟩
  · rw [h2]
    exact ⟨fun _ => get_method_name_get_stat host uptime bm s, fun hne => absurd rfl hne⟩
  · exact ⟨fun _ => rfl, fun hne => absurd rfl hne⟩
  · obtain ⟨hmsg, hactive⟩ := subscribed_spec true c fun text _ _ => h4
    exact ⟨hmsg, fun hne => ⟨(hactive hne).1, (hactive hne).2, .inl h4⟩⟩
  · have hknown : ∀ text, ev = .ok text → text ≠ "frame" → method_name = "subscribe" :=
      fun text htext hne => absurd h5 (hev text htext hne)
    obtain ⟨hmsg, hactive⟩ := subscribed_spec false c hknown
    exact ⟨hmsg, fun hne => ⟨(hactive hne).1, (hactive hne).2, .inr h5⟩⟩
  · exact ⟨fun ht => (by cases ht), fun hne => absurd rfl hne⟩

theorem served_of_not_misnamed {node : XmlElement} (hroot : call_msg.get_msg_root = some node)
    (hname : get_method_name call_msg = .ok method_name) (hid : call_msg.get_id = .ok id)
    (hc : s.clients k = some c) (h : ¬ Misnamed call_msg) :
    Served host uptime call_msg bm s k c := by
  obtain ⟨hmsg, hactive⟩ := called_spec host uptime bm s c method_name (event call_msg)
    fun text htext hne hunsub => h ⟨hname.trans (congrArg _ hunsub), text, htext, hne⟩
  refine served_reply hid (exec_execute_method hroot hname hid hc)
    (fun ht => (hmsg ht).trans hname.symm) fun hne => ?_
  obtain ⟨hsucceeds, hmethod, hor⟩ := hactive hne
  rw [hmethod]
  exact ⟨hsucceeds, hor.imp (congrArg _) (congrArg _)⟩

/-- The reply to a misnamed call has another method name than the call. -/
theorem not_served_of_misnamed {node : XmlElement} (hroot : call_msg.get_msg_root = some node)
    (hid : call_msg.get_id = .ok id) (hc : s.clients k = some c) (hopen : c.answer = .count)
    (h : Misnamed call_msg) : ¬ Served host uptime call_msg bm s k c := by
  obtain ⟨hname, text, htext, hne⟩ := h
  rintro ⟨active, msg, hexec, hanswers, -⟩
  have hself : s.setClient k { c with active_subscription := c.active_subscription } = s :=
    Server.setClient_self hc
  set fault := MethodResponseMsg.fault "subscribe" 103 ("Unsupported event: " ++ text) with hfault
  have hrun : (execute_method host uptime k call_msg).exec (bm, s) =
      (reply k fault id).exec (bm, s) := by
    have hcalled : called host uptime bm s c "unsubscribe" (event call_msg) =
        (c.active_subscription, fault) := by
      rw [htext, called, if_neg (by decide), if_neg (by decide), if_neg (by decide),
        if_neg (by decide), if_pos rfl, subscribed, if_neg hne]
    rw [exec_execute_method hroot hname hid hc, hcalled, hself]
  have hc' : (s.setClient k { c with active_subscription := active }).clients k =
      some { c with active_subscription := active } := Function.update_self k _ _
  rw [hrun, reply, exec_onSnd, exec_onSnd, Server.exec_send hc hopen,
    Server.exec_send hc' hopen] at hexec
  have hsent := congrArg (fun r => (r.2.2.clients k).map TcpClient.sent) hexec
  simp only [Server.setClient, Function.update_self, Option.map_some, Option.some.injEq] at hsent
  have hmsg := (List.cons.inj (List.append_cancel_left hsent)).1
  have hroot' := congrArg get_msg_root hmsg
  rw [get_msg_root_set_id, get_msg_root_set_request_id, get_msg_root_set_id] at hroot'
  have hmethod := hanswers.method ((get_type_congr hroot').symm.trans rfl)
  rw [← get_method_name_congr hroot', hname, hfault, get_method_name_fault] at hmethod
  simp at hmethod

/-- A server with one client, which takes what it is sent. -/
def oneClient : Server where
  socket_set := ∅
  event_socket_set := ∅
  socket_max := 0
  tcp_server := 3
  tcp_clients := ∅
  clients := Function.update (fun _ => none) 0 (some (TcpClient.new 4 "" "" []))
  next_client := 1
  open_fds := ∅
  issues := []
  deliveries := []

/-- A call of a method is served, whatever the state of the bus and of the client, but for one of
`unsubscribe` with an event that there is not. -/
theorem execute_method_served_iff (host : Host) {call_msg : GenericMsg}
    (hvalid : Schema.valid call_msg = true) (htype : call_msg.get_type = .ok .EXECUTEMETHOD) :
    (∀ uptime bm s k c, s.clients k = some c → Served host uptime call_msg bm s k c) ↔
      ¬ Misnamed call_msg := by
  obtain ⟨node, hroot, -⟩ := Schema.valid_root hvalid
  obtain ⟨id, hid⟩ := Schema.get_id_ok hvalid
  constructor
  · intro h hmisnamed
    have hc : oneClient.clients 0 = some (TcpClient.new 4 "" "" []) := rfl
    exact not_served_of_misnamed hroot hid hc rfl hmisnamed
      (h 0 ⟨∅, .empty⟩ oneClient 0 (TcpClient.new 4 "" "" []) hc)
  · intro h uptime bm s k c hc
    obtain ⟨method_name, hname⟩ := Schema.get_method_name_ok hvalid htype
    exact served_of_not_misnamed hroot hname hid hc h

/-- A call of the method with that event. -/
def eventCall (method_name text : String) : GenericMsg where
  name := "h9"
  props := [("version", "0.0"), ("id", "7")]
  children := [.element "execute" [("method", method_name)]
    [.element "value" [("name", "event")] [.text text]]]

theorem execute_method_served_subscribe :
    Served ⟨fun _ => none, fun _ => "", ""⟩ 0 (eventCall "subscribe" "errors") ⟨∅, .empty⟩ oneClient 0
      (TcpClient.new 4 "" "" []) := by
  refine (execute_method_served_iff ⟨fun _ => none, fun _ => "", ""⟩ (by decide) (by decide)).2 ?_
    0 ⟨∅, .empty⟩ oneClient 0 (TcpClient.new 4 "" "" []) rfl
  rintro ⟨hname, -⟩
  revert hname
  decide

/-- The client that wants no more `errors` is told so of `subscribe`. -/
theorem execute_method_misnamed : ¬ ∀ (host : Host) (call_msg : GenericMsg),
    Schema.valid call_msg = true → call_msg.get_type = .ok .EXECUTEMETHOD →
      ∀ uptime bm s k c, s.clients k = some c → Served host uptime call_msg bm s k c := by
  intro h
  have hserved := h ⟨fun _ => none, fun _ => "", ""⟩ (eventCall "unsubscribe" "errors")
    (by decide) (by decide) 0 ⟨∅, .empty⟩ oneClient 0 _ rfl
  exact not_served_of_misnamed rfl rfl rfl rfl ⟨rfl, "errors", rfl, by decide⟩ hserved

end EventMgr

end H9
