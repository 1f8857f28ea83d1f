import H9.Messages
import H9.Proofs.DeviceReplies

/-!
# What a device lists and what it does

The list of methods is put together from those that every device has, those of its node and those of
its own. The call of a method goes through the same three, so it is refused only where the list does
not have it. The list has `reset` twice (`methodNames`), and a method of its own may end the program.
-/

namespace H9

open Prog GenericMsg

/-- Elements that a loop puts into another one. -/
theorem XmlElement.foldl_xmlAddChild {α : Type} (f : α → XmlElement) : ∀ (xs : List α) (e : XmlElement),
    xs.foldl (fun e x => e.xmlAddChild (f x).toNode) e =
      { e with children := e.children ++ xs.map fun x => (f x).toNode }
  | [], e => by simp
  | x :: xs, e => by
    rw [List.foldl_cons, foldl_xmlAddChild f xs]
    simp [xmlAddChild]

/-- The texts in the arrays of a response. -/
def XmlNode.items : XmlNode → List String
  | .element name _ children =>
    if name = "array" then children.filterMap fun
      | .element _ _ [.text content] => some content
      | _ => none
    else []
  | _ => []

/-- The names that a reply lists. -/
def GenericMsg.names (reply : GenericMsg) : List String :=
  match reply.get_msg_root with
  | some node => node.children.flatMap XmlNode.items
  | none => []

/-- A message that calls the method of the device. -/
structure GenericMsg.Calls (msg : GenericMsg) (dev_id : BitVec 16) (method : String) : Prop where
  id : ∃ id, get_id msg = .ok id
  device_id : get_device_id msg = .ok dev_id
  method_name : get_method_name msg = .ok method

/-- The reply says that the device has no such method. -/
def GenericMsg.Unsupported (reply : GenericMsg) : Prop :=
  ∃ text id, reply = (ErrorMsg .UNSUPPORTED_DEVICE_METHOD text).set_request_id id

/-- A reply that is of another kind, or of another error. -/
def GenericMsg.Supports (reply : GenericMsg) : Prop := ∃ node, reply.get_msg_root = some node ∧
  node.xmlGetProp "code" ≠ some (toString ErrorNumber.UNSUPPORTED_DEVICE_METHOD.code)

theorem GenericMsg.Supports.not_unsupported {reply : GenericMsg} (h : reply.Supports) (id : UInt64) :
    ¬ (reply.set_request_id id).Unsupported := by
  obtain ⟨node, hroot, hcode⟩ := h
  rintro ⟨text, id', heq⟩
  have hroot' : (reply.set_request_id id).get_msg_root = some node := hroot
  rw [heq] at hroot'
  obtain rfl := Option.some.inj hroot'
  exact hcode rfl

theorem supports_create {node : XmlElement} (h : node.props.lookup "code" = none) :
    (create node).Supports := by
  refine ⟨node, rfl, ?_⟩
  rw [XmlElement.xmlGetProp, h]
  simp

theorem supports_ErrorMsg {code : ErrorNumber} (h : code ≠ .UNSUPPORTED_DEVICE_METHOD) (text : String) :
    (ErrorMsg code text).Supports := by
  refine ⟨_, rfl, ?_⟩
  show some (toString code.code) ≠ some _
  revert h
  cases code <;> decide

namespace ExecutorAdapter

/-- The methods of a device, as a reply to `methods_list` gives them. -/
def methodNames (d : Device) : List String :=
  ["methods_list", "events_list", "registers_list", "subscribe", "unsubscribe", "reset",
    "set_register", "get_register", "reset", "info"] ++ d.get_device_specific_methods

/-- What a call ends in: a reply, or an exception that leaves `execute_device_method`. -/
def result (c : ℕ) (a : ExecutorAdapter) (m : DevMgr) (x : Exchange) (msg : GenericMsg) :
    Except Exn GenericMsg :=
  ((device_method_reply c msg x).exec (a, m)).1

/-- The names that a call of `methods_list` returns. -/
def listed : Except Exn GenericMsg → List String
  | .ok reply => reply.names
  | .error _ => []

/-- What a device lists are different methods, and these are the ones that it has and answers. -/
def Lists (c : ℕ) (a : ExecutorAdapter) (m : DevMgr) (x : Exchange) (dev_id : BitVec 16) : Prop :=
  ∀ list : GenericMsg, list.Calls dev_id "methods_list" →
    (listed (result c a m x list)).Nodup ∧
      ∀ (msg : GenericMsg) (method : String), msg.Calls dev_id method →
        ((∀ reply, result c a m x msg = .ok reply → ¬ reply.Unsupported) ↔
            method ∈ listed (result c a m x list)) ∧
          (method ∈ listed (result c a m x list) → ∃ reply, result c a m x msg = .ok reply)

variable {c : ℕ} {dev_id : BitVec 16} {method : String} {msg list : GenericMsg} {a : ExecutorAdapter}
  {m : DevMgr} {d : Device} {x : Exchange} {id : UInt64}

theorem foldl_add_item (values : List String) (e : XmlElement) :
    values.foldl XmlElement.add_item e =
      { e with children := e.children ++ values.map fun value => .element "value" [] [.text value] } :=
  XmlElement.foldl_xmlAddChild (fun value => ⟨"value", [], [.text value]⟩) values e

theorem names_withArray (dev_id : BitVec 16) (method name : String) (values : List String)
    (id : UInt64) : ((withArray dev_id method name values).set_request_id id).names = values := by
  have hroot : ((withArray dev_id method name values).set_request_id id).get_msg_root =
      some ((deviceResponseElement dev_id method).xmlAddChild
        (values.foldl XmlElement.add_item (namedElement "array" name)).toNode) := rfl
  have hitems : (values.foldl XmlElement.add_item (namedElement "array" name)).toNode.items = values := by
    rw [foldl_add_item]
    show List.filterMap _ (values.map _) = values
    rw [List.filterMap_map]
    exact List.filterMap_some
  rw [GenericMsg.names, hroot]
  show List.flatMap XmlNode.items [_] = values
  rw [List.flatMap_singleton, hitems]

/-! ### The replies -/

theorem listed_methods_list (hd : m.devices_map[dev_id]? = some d)
    (hexists : Executor.is_device_exist m dev_id = true) (hlist : list.Calls dev_id "methods_list") :
    listed (result c a m x list) = methodNames d := by
  obtain ⟨⟨id, hid⟩, hdev, hname⟩ := hlist
  have hother : ((execute_other_method dev_id "methods_list" list x).exec m).1 =
      .ok (withArray dev_id "methods_list" "methods" (methodNames d)) := by
    rw [execute_other_method, exec_bind, exec_get]
    simp only [if_true, exec_pure, Executor.get_device_methods_list,
      DevMgr.get_device_specific_methods, DevMgr.withDevice, hd]
    rfl
  rw [result, exec_device_method_reply hid hdev hname hexists (by decide) (by decide), hother]
  exact names_withArray _ _ _ _ id

/-- What `execute_other_method` may return. -/
inductive OtherReply (dev_id : BitVec 16) (method : String) (d : Device) : GenericMsg → Prop
  | list (name : String) (values : List String) :
    OtherReply dev_id method d (withArray dev_id method name values)
  | registers : OtherReply dev_id method d (registers_list dev_id d)
  | register (reg value : String) :
    OtherReply dev_id method d (registerResponse dev_id method reg value)
  | response : OtherReply dev_id method d (DeviceMethodResponseMsg dev_id method)
  | fault : OtherReply dev_id method d (DeviceMethodResponseMsg.fault dev_id method 102 "Timeout")
  | info : OtherReply dev_id method d (Executor.info dev_id "info" d)
  | invalid (text : String) : OtherReply dev_id method d (ErrorMsg .INVALID_PARAMETERS text)
  | unsupported (text : String) (h : method ∉ methodNames d) :
    OtherReply dev_id method d (ErrorMsg .UNSUPPORTED_DEVICE_METHOD text)

/-- The call of a method of the node ends in a response. -/
theorem otherReply_of_execute (hd : m.devices_map[dev_id]? = some d) {res : GenericMsg}
    (hres : ((Executor.execute_device_method dev_id method msg x).exec m).1 = .ok res) :
    OtherReply dev_id method d res := by
  have hresponse (ret : ℤ) (value : String)
      (hres : Executor.register_response dev_id method msg ret value = .ok res) :
      OtherReply dev_id method d res := by
    unfold Executor.register_response at hres
    split_ifs at hres
    · obtain rfl := Except.ok.inj hres
      exact .fault
    · rcases hr : Executor.int_parameter msg "register" with e | reg
      · rw [hr] at hres
        cases hres
      · rw [hr] at hres
        obtain rfl := Except.ok.inj hres
        exact .register (toString reg) value
  unfold Executor.execute_device_method at hres
  simp only [exec_ite] at hres
  split_ifs at hres with h1 h2 h3 h4
  · rw [exec_bind, exec_lift] at hres
    rcases hr : Executor.int_parameter msg "register" with e | reg
    · rw [hr] at hres
      cases hres
    rw [hr] at hres
    dsimp only at hres
    rw [exec_bind, exec_lift] at hres
    rcases hv : Executor.int_parameter msg "value" with e | value
    · rw [hv] at hres
      cases hres
    rw [hv] at hres
    dsimp only at hres
    rw [exec_bind, DevMgr.set_device_register, DevMgr.exec_converse hd] at hres
    exact hresponse _ _ hres
  · rw [exec_bind, exec_lift] at hres
    rcases hr : Executor.int_parameter msg "register" with e | reg
    · rw [hr] at hres
      cases hres
    rw [hr] at hres
    dsimp only at hres
    rw [exec_bind, DevMgr.get_device_register, DevMgr.exec_converse hd] at hres
    exact hresponse _ _ hres
  · rw [exec_bind, DevMgr.device_reset, DevMgr.exec_converse hd] at hres
    dsimp only at hres
    rw [exec_ite] at hres
    split_ifs at hres
    · obtain rfl := Except.ok.inj hres
      exact .fault
    · obtain rfl := Except.ok.inj hres
      exact .response
  · rw [exec_bind, exec_get] at hres
    simp only [DevMgr.withDevice, hd, h4] at hres
    obtain rfl := Except.ok.inj hres
    exact .info
  · rw [exec_bind] at hres
    rcases he : (DevMgr.execute_device_specific_method dev_id method x).exec m with ⟨e | u, m'⟩
    · rw [he] at hres
      cases hres
    · rw [he] at hres
      obtain rfl := Except.ok.inj hres
      exact .response

theorem otherReply_of_other_method (hd : m.devices_map[dev_id]? = some d) (hsub : method ≠ "subscribe")
    (hunsub : method ≠ "unsubscribe") {res : GenericMsg}
    (hres : ((execute_other_method dev_id method msg x).exec m).1 = .ok res) :
    OtherReply dev_id method d res := by
  rw [execute_other_method, exec_bind, exec_get] at hres
  simp only [exec_ite] at hres
  split_ifs at hres with h1 h2 h3 h4
  · obtain rfl := Except.ok.inj hres
    exact .list _ _
  · obtain rfl := Except.ok.inj hres
    exact .list _ _
  · obtain rfl := Except.ok.inj hres
    rw [h3, DevMgr.get_registers_list, DevMgr.withDevice, hd]
    exact .registers
  · rw [exec_tryCatch] at hres
    rcases he : (Executor.execute_device_method dev_id method msg x).exec m with ⟨e | res', m'⟩
    · rw [he] at hres
      cases e with
      | out_of_range what =>
        obtain rfl := Except.ok.inj hres
        exact .invalid _
      | invalid_argument what =>
        obtain rfl := Except.ok.inj hres
        exact .invalid _
      | _ => cases hres
    · rw [he] at hres
      obtain rfl := Except.ok.inj hres
      exact otherReply_of_execute hd (congrArg Prod.fst he)
  · obtain rfl := Except.ok.inj hres
    refine .unsupported _ fun hmethod => h4 ?_
    -- the list has no other method
    rw [Executor.has_device_specific_method, List.contains_iff_mem, Executor.get_device_methods_list,
      DevMgr.get_device_specific_methods, DevMgr.withDevice, hd]
    simp [methodNames, h1, h2, h3, hsub, hunsub] at hmethod
    simp
    tauto

/-- What is not subscribed or unsubscribed is refused only if the device does not list it. -/
theorem OtherReply.supports {res : GenericMsg} (h : OtherReply dev_id method d res)
    (hmethod : method ∈ methodNames d) : res.Supports := by
  cases h with
  | list name values => exact supports_create rfl
  | registers => exact supports_create rfl
  | register reg value => exact supports_create rfl
  | response => exact supports_create rfl
  | fault => exact supports_create rfl
  | info => exact supports_create rfl
  | invalid text => exact supports_ErrorMsg (by decide) text
  | unsupported text h => exact absurd hmethod h

theorem result_of_event (hid : get_id msg = .ok id) (hcall : msg.Calls dev_id method)
    (hexists : Executor.is_device_exist m dev_id = true)
    (hmethod : method = "subscribe" ∨ method = "unsubscribe") :
    ∃ reply : GenericMsg, result c a m x msg = .ok (reply.set_request_id id) ∧ reply.Supports := by
  rcases he : event msg with e | text
  · obtain ⟨text, hexec⟩ :=
      exec_of_no_event hid hcall.device_id hcall.method_name hexists hmethod he x
    exact ⟨_, congrArg Prod.fst hexec, supports_ErrorMsg (by decide) text⟩
  · exact ⟨_, exec_of_event hid hcall.device_id hcall.method_name hexists hmethod he x,
      supports_create rfl⟩

theorem result_of_unlisted (hid : get_id msg = .ok id) (hcall : msg.Calls dev_id method)
    (hd : m.devices_map[dev_id]? = some d) (hexists : Executor.is_device_exist m dev_id = true)
    (hmethod : method ∉ methodNames d) : ∃ reply, result c a m x msg = .ok reply ∧ reply.Unsupported := by
  simp only [methodNames, List.cons_append, List.nil_append, List.mem_cons, not_or] at hmethod
  obtain ⟨h1, h2, h3, h4, h5, h6, h7, h8, -, h9, hspecific⟩ := hmethod
  have hnot : ¬ Executor.has_device_specific_method m dev_id method = true := by
    rw [Executor.has_device_specific_method, List.contains_iff_mem, Executor.get_device_methods_list,
      DevMgr.get_device_specific_methods, DevMgr.withDevice, hd]
    simp [h6, h7, h8, h9, hspecific]
  have hother : ((execute_other_method dev_id method msg x).exec m).1 =
      .ok (ErrorMsg .UNSUPPORTED_DEVICE_METHOD
        ("Unsupported device (id: " ++ toString dev_id.toNat ++ ") method: " ++ method)) := by
    rw [execute_other_method, exec_bind, exec_get]
    simp only [if_neg h1, if_neg h2, if_neg h3, if_neg hnot, exec_pure]
  have hreply : result c a m x msg = .ok ((ErrorMsg .UNSUPPORTED_DEVICE_METHOD
      ("Unsupported device (id: " ++ toString dev_id.toNat ++ ") method: " ++ method)).set_request_id
        id) := by
    rw [result, exec_device_method_reply hid hcall.device_id hcall.method_name hexists h4 h5, hother]
    rfl
  exact ⟨_, hreply, _, id, rfl⟩

theorem supported_iff_listed (hd : m.devices_map[dev_id]? = some d)
    (hexists : Executor.is_device_exist m dev_id = true) (hcall : msg.Calls dev_id method) :
    (∀ reply, result c a m x msg = .ok reply → ¬ reply.Unsupported) ↔ method ∈ methodNames d := by
  obtain ⟨id, hid⟩ := hcall.id
  constructor
  · intro h
    by_contra hmethod
    obtain ⟨reply, hreply, hunsupported⟩ := result_of_unlisted hid hcall hd hexists hmethod
    exact h reply hreply hunsupported
  · intro hmethod reply hreply
    by_cases hevent : method = "subscribe" ∨ method = "unsubscribe"
    · obtain ⟨reply', hreply', hsupports⟩ := result_of_event hid hcall hexists hevent
      obtain rfl := Except.ok.inj (hreply.symm.trans hreply')
      exact hsupports.not_unsupported id
    · rw [not_or] at hevent
      rw [result, exec_device_method_reply hid hcall.device_id hcall.method_name hexists hevent.1
        hevent.2] at hreply
      rcases he : ((execute_other_method dev_id method msg x).exec m).1 with e | res
      · rw [he] at hreply
        cases hreply
      · rw [he] at hreply
        obtain rfl := Except.ok.inj hreply
        exact ((otherReply_of_other_method hd hevent.1 hevent.2 he).supports hmethod).not_unsupported id

/-- A call ends in a reply where the device responds, and otherwise an assertion fails. -/
theorem result_ends (hd : m.devices_map[dev_id]? = some d)
    (hexists : Executor.is_device_exist m dev_id = true) (hcall : msg.Calls dev_id method) :
    (d.Responds method x → ∃ reply, result c a m x msg = .ok reply) ∧
      (¬ d.Responds method x → result c a m x msg = .error .abort) := by
  obtain ⟨id, hid⟩ := hcall.id
  by_cases hevent : method = "subscribe" ∨ method = "unsubscribe"
  · obtain ⟨reply, hreply, -⟩ := result_of_event hid hcall hexists hevent
    refine ⟨fun _ => ⟨_, hreply⟩, fun hnot => absurd (fun hmem => ?_) hnot⟩
    unfold Device.get_device_specific_methods at hmem
    rcases hevent with rfl | rfl <;> split_ifs at hmem <;> simp at hmem
  · rw [not_or] at hevent
    rw [result, exec_device_method_reply hid hcall.device_id hcall.method_name hexists hevent.1 hevent.2]
    constructor
    · intro hresponds
      obtain ⟨res, hres, -⟩ := fits_other_method (root_of_method_name hcall.method_name) hd x hresponds
      rw [hres]
      exact ⟨_, rfl⟩
    · intro hnot
      rw [other_method_aborts hd x hnot]
      rfl

theorem calls_deviceCall (method : String) (dev_id : BitVec 16) :
    (deviceCall method (toString dev_id.toNat)).Calls dev_id method where
  id := ⟨7, rfl⟩
  device_id := by
    have hlt : dev_id.toNat < 2 ^ 63 := by omega
    show Except.ok (BitVec.ofInt 16 (CText.strtol 10 (toString dev_id.toNat).toList)) = _
    rw [CText.strtol_repr hlt, BitVec.ofInt_natCast, BitVec.ofNat_toNat, BitVec.setWidth_eq]
  method_name := rfl

theorem not_nodup_methodNames (d : Device) : ¬ (methodNames d).Nodup := by
  intro h
  have hfixed := (List.nodup_append.1 h).1
  exact absurd hfixed (by decide)

/-- A device of the broadcast id does not exist for a client. -/
theorem result_of_broadcast (hnot : Executor.is_device_exist m dev_id = false)
    (hcall : msg.Calls dev_id method) : ∃ text id, result c a m x msg =
      .ok ((ErrorMsg .INVALID_DEVICE text).set_request_id id) := by
  obtain ⟨id, hid⟩ := hcall.id
  have hrefuse : execute_device_method m msg = .ok (.answer ((ErrorMsg .INVALID_DEVICE
      ("Invalid device (id: " ++ toString dev_id.toNat ++ ")")).set_request_id id)) := by
    simp only [execute_device_method, hcall.device_id, hcall.method_name, bind, Except.bind, hnot,
      if_true, refuse, hid]
    rfl
  have hresult : result c a m x msg = .ok ((ErrorMsg .INVALID_DEVICE
      ("Invalid device (id: " ++ toString dev_id.toNat ++ ")")).set_request_id id) := by
    rw [result, device_method_reply, exec_bind, exec_get]
    dsimp only
    rw [exec_bind, exec_lift, hrefuse]
    rfl
  exact ⟨_, id, hresult⟩

theorem not_lists (c : ℕ) (a : ExecutorAdapter) (x : Exchange) (hd : m.devices_map[dev_id]? = some d) :
    ¬ Lists c a m x dev_id := by
  intro h
  obtain ⟨hnodup, hcalls⟩ := h _ (calls_deviceCall "methods_list" dev_id)
  rcases hexists : Executor.is_device_exist m dev_id with _ | _
  · obtain ⟨text, id, hlist⟩ :=
      result_of_broadcast hexists (calls_deviceCall "methods_list" dev_id)
    obtain ⟨text', id', hreset⟩ := result_of_broadcast hexists (calls_deviceCall "reset" dev_id)
    have hmem := (hcalls _ "reset" (calls_deviceCall "reset" dev_id)).1.1 fun reply hreply => by
      obtain rfl := Except.ok.inj (hreset.symm.trans hreply)
      exact (supports_ErrorMsg (by decide) text').not_unsupported id'
    rw [hlist] at hmem
    cases hmem
  · rw [listed_methods_list hd hexists (calls_deviceCall "methods_list" dev_id)] at hnodup
    exact not_nodup_methodNames d hnodup

/-- No device lists its methods without one twice. What is listed is what is supported, and a call of
it ends in a reply unless it is one of the methods of an antenna switch whose node does not respond. -/
theorem methods_of_device {m : DevMgr} {dev_id : BitVec 16} {d : Device}
    (hd : m.devices_map[dev_id]? = some d) (c : ℕ) (a : ExecutorAdapter) (x : Exchange) :
    ¬ Lists c a m x dev_id ∧ (Executor.is_device_exist m dev_id = true →
      ∀ (list msg : GenericMsg) (method : String), list.Calls dev_id "methods_list" →
        msg.Calls dev_id method →
          ((∀ reply, result c a m x msg = .ok reply → ¬ reply.Unsupported) ↔
              method ∈ listed (result c a m x list)) ∧
            (d.Responds method x → ∃ reply, result c a m x msg = .ok reply) ∧
            (¬ d.Responds method x → result c a m x msg = .error .abort)) := by
  refine ⟨not_lists c a x hd, fun hexists list msg method hlist hcall => ⟨?_, ?_⟩⟩
  · rw [listed_methods_list hd hexists hlist]
    exact supported_iff_listed hd hexists hcall
  · exact result_ends hd hexists hcall

/-- An antenna switch whose node does not answer. -/
theorem switch_known : ∃ d, (withSwitch 32).devices_map[(32 : BitVec 16)]? = some d ∧
    d.get_device_specific_methods = ["select_antenna", "get_selected_antenna"] := by
  have hmethods : (withSwitch 32).devices_map[(32 : BitVec 16)]?.map
      Device.get_device_specific_methods = some ["select_antenna", "get_selected_antenna"] := by
    decide +kernel
  exact Option.map_eq_some_iff.1 hmethods

theorem methods_of_device_switch : ¬ Lists 0 absent (withSwitch 32) ⟨none, []⟩ 32 ∧
    result 0 absent (withSwitch 32) ⟨none, []⟩ (deviceCall "get_selected_antenna" "32") =
      .error .abort := by
  obtain ⟨d, hd, hmethods⟩ := switch_known
  have hexists : Executor.is_device_exist (withSwitch 32) 32 = true := by decide +kernel
  obtain ⟨hlists, hcalls⟩ := methods_of_device hd 0 absent ⟨none, []⟩
  refine ⟨hlists, (hcalls hexists _ _ _ (calls_deviceCall "methods_list" 32)
    (calls_deviceCall "get_selected_antenna" 32)).2.2 fun hresponds => ?_⟩
  obtain ⟨-, res, hres, -⟩ := hresponds (by rw [hmethods]; decide)
  cases hres

/-- The antenna switch lists `reset` twice. -/
theorem not_lists_switch : ¬ ∀ (c : ℕ) (a : ExecutorAdapter) (m : DevMgr) (x : Exchange)
    (dev_id : BitVec 16) (d : Device), m.devices_map[dev_id]? = some d → Lists c a m x dev_id := by
  intro h
  obtain ⟨d, hd, -⟩ := switch_known
  exact not_lists 0 absent ⟨none, []⟩ hd (h 0 absent (withSwitch 32) ⟨none, []⟩ 32 d hd)

end ExecutorAdapter

end H9
