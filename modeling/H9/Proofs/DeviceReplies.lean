import H9.DeviceMethods
import H9.Proofs.Replies

/-!
# The replies of the devices

A reply to a call of a method of a device is built as a `DeviceMethodResponseMsg`, which says in the
document which device it is of. The one to `subscribe` and `unsubscribe` is built as a
`MethodResponseMsg` and then taken for one, which leaves the document as it is: on the wire it is a
response of no device. A method that an antenna switch lists may end the program.
-/

namespace H9

open Prog GenericMsg

/-- The message answers the call of a method of a device: it has the id of the call, and is an error
or a response of the device to the method. -/
structure GenericMsg.AnswersDevice (reply msg : GenericMsg) : Prop where
  request_id : get_id msg = .ok reply.get_request_id
  response : reply.get_type ≠ .ok .ERROR → reply.get_type = .ok .DEVICEMETHODRESPONSE ∧
    get_device_id reply = get_device_id msg ∧ get_method_name reply = get_method_name msg

/-- A message that is an error, or a response of that device to that method. -/
def Fits (dev_id : BitVec 16) (method : String) (res : GenericMsg) : Prop :=
  res.get_type = .ok .ERROR ∨ ∃ node, res.get_msg_root = some node ∧ node.name = "response" ∧
    node.props = (deviceResponseElement dev_id method).props

theorem fits_create {dev_id : BitVec 16} {method : String} {node : XmlElement}
    (hname : node.name = "response")
    (hprops : node.props = (deviceResponseElement dev_id method).props) :
    Fits dev_id method (create node) :=
  .inr ⟨node, rfl, hname, hprops⟩

theorem Fits.answersDevice {dev_id : BitVec 16} {method : String} {res msg : GenericMsg} {id : UInt64}
    (h : Fits dev_id method res) (hid : get_id msg = .ok id) (hdev : get_device_id msg = .ok dev_id)
    (hmethod : get_method_name msg = .ok method) :
    (res.set_request_id id).AnswersDevice msg := by
  refine ⟨by rw [get_request_id_set_request_id, hid], fun herror => ?_⟩
  obtain ⟨node, hroot, hname, hprops⟩ := h.resolve_left herror
  have hroot' : (res.set_request_id id).get_msg_root = some node := hroot
  have hid' : node.props.lookup "device-id" = some (toString dev_id.toNat) := by rw [hprops]; rfl
  have hmethod' : node.props.lookup "method" = some method := by rw [hprops]; rfl
  refine ⟨?_, ?_, ?_⟩
  · have hhas : node.xmlHasProp "device-id" = true := by
      rw [XmlElement.xmlHasProp, XmlElement.xmlGetProp, hid']
      rfl
    rw [get_type, hroot']
    simp [hname, hhas]
  · have hlt : dev_id.toNat < 2 ^ 63 := by omega
    rw [hdev, get_device_id, requiredOfRoot_of_lookup hroot' hid']
    show Except.ok (BitVec.ofInt 16 (CText.strtol 10 (toString dev_id.toNat).toList)) = _
    rw [CText.strtol_repr hlt, BitVec.ofInt_natCast, BitVec.ofNat_toNat, BitVec.setWidth_eq]
  · rw [hmethod, get_method_name, requiredOfRoot_of_lookup hroot' hmethod']

/-! ### The methods of the node -/

/-- A method of its own that a device lists ends in a response: the node of an antenna switch that
is asked for the antenna answers with one byte. -/
def Device.Responds (d : Device) (method : String) (x : Exchange) : Prop :=
  method ∈ d.get_device_specific_methods →
    method = "get_selected_antenna" ∧ ∃ res, x.answer = some res ∧ res.dlc = 2

theorem Node.get_raw_reg_eq_one (bus : Bus) (node_id : BitVec 16) (reg : UInt8) (x : Exchange) :
    (Node.get_raw_reg bus node_id reg 8 x).1.1 = 1 ↔ ∃ res, x.answer = some res ∧ res.dlc = 2 := by
  unfold Node.get_raw_reg
  rcases x.answer with _ | res
  · simp
  · have hdlc : res.dlc = 2 ↔ res.dlc.toNat = 2 := by rw [← UInt8.toNat_inj]; rfl
    have hzero : res.dlc = 0 ↔ res.dlc.toNat = 0 := by rw [← UInt8.toNat_inj]; rfl
    simp only [Node.copied, Option.some.injEq, exists_eq_left', hdlc, hzero]
    split_ifs <;> omega

namespace Device

theorem get_register_eq_one (d : Device) (bus : Bus) (reg : UInt8) (x : Exchange) :
    (d.get_register bus reg x).1.1 = 1 ↔ ∃ res, x.answer = some res ∧ res.dlc = 2 := by
  rw [← Node.get_raw_reg_eq_one bus d.node_id reg x]
  unfold get_register
  dsimp only
  split_ifs with h
  · rfl
  · refine iff_of_false (by simp) fun hone => h ?_
    rw [hone]
    exact Int.one_pos

/-- A device that responds to a method of its own does so, and otherwise an assertion fails. -/
theorem execute_device_specific_method_eq {d : Device} {method : String}
    (hmethod : method ∈ d.get_device_specific_methods) (bus : Bus) (x : Exchange)
    [Decidable (d.Responds method x)] : (d.execute_device_specific_method bus method x).1 =
      if d.Responds method x then .ok () else .error .abort := by
  have htype : d.device_type = 5 := by
    by_contra h
    rw [get_device_specific_methods, if_neg h] at hmethod
    cases hmethod
  have hone := d.get_register_eq_one bus 10 x
  unfold execute_device_specific_method
  by_cases hname : method = "get_selected_antenna"
  · rw [if_pos ⟨htype, hname⟩]
    refine if_congr ?_ rfl rfl
    rw [hone]
    exact ⟨fun h _ => ⟨hname, h⟩, fun h => (h hmethod).2⟩
  · rw [if_neg fun h => hname h.2, if_neg fun h => hname (h hmethod).1]

end Device

namespace DevMgr

theorem exec_converse {α : Type} {m : DevMgr} {dev_id : BitVec 16} {d : Device}
    (hd : m.devices_map[dev_id]? = some d) (dflt : α) (f : Device → Bus → α × Bus) :
    (converse dev_id dflt f).exec m = (.ok (f d m.bus).1, { m with bus := (f d m.bus).2 }) := by
  simp only [converse, exec_bind, exec_get, hd, exec_set, exec_pure]

end DevMgr

namespace Executor

variable {dev_id : BitVec 16} {method : String} {msg : GenericMsg} {node : XmlElement}
  {m : DevMgr} {d : Device}

/-- What a call of the node ends in: a reply to it, or an exception of a parameter. -/
def Ends (dev_id : BitVec 16) (method : String) : Except Exn GenericMsg → Prop
  | .ok res => Fits dev_id method res
  | .error e => e.OfParameter

theorem register_response_ends (hroot : msg.get_msg_root = some node) (ret : ℤ) (value : String) :
    Ends dev_id method (register_response dev_id method msg ret value) := by
  unfold register_response
  split_ifs
  · exact fits_create rfl rfl
  · rcases hr : int_parameter msg "register" with e | reg
    · exact int_parameter_error hroot hr
    · exact fits_create rfl rfl

theorem mem_specific (hd : m.devices_map[dev_id]? = some d)
    (hspecific : has_device_specific_method m dev_id method = true)
    (hnot : method ≠ "set_register" ∧ method ≠ "get_register" ∧ method ≠ "reset" ∧
      method ≠ "info") : method ∈ d.get_device_specific_methods := by
  rw [has_device_specific_method, List.contains_iff_mem, get_device_methods_list,
    DevMgr.get_device_specific_methods, DevMgr.withDevice, hd] at hspecific
  simpa [hnot] using hspecific

open scoped Classical in
theorem exec_specific (hd : m.devices_map[dev_id]? = some d)
    (hmethod : method ∈ d.get_device_specific_methods) (x : Exchange) :
    (DevMgr.execute_device_specific_method dev_id method x).exec m =
      (if d.Responds method x then .ok () else .error .abort,
        { m with bus := (d.execute_device_specific_method m.bus method x).2 }) := by
  rw [DevMgr.execute_device_specific_method, exec_bind, DevMgr.exec_converse hd]
  dsimp only
  rw [exec_lift, Device.execute_device_specific_method_eq hmethod]

/-- A method of the node is answered, if the device responds to those of its own. -/
theorem execute_device_method_ends (hroot : msg.get_msg_root = some node)
    (hd : m.devices_map[dev_id]? = some d)
    (hspecific : has_device_specific_method m dev_id method = true) (x : Exchange)
    (hresponds : d.Responds method x) :
    Ends dev_id method ((execute_device_method dev_id method msg x).exec m).1 := by
  unfold execute_device_method
  simp only [exec_ite]
  split_ifs with h1 h2 h3 h4
  · rw [exec_bind, exec_lift]
    rcases hr : int_parameter msg "register" with e | reg
    · exact int_parameter_error hroot hr
    dsimp only
    rw [exec_bind, exec_lift]
    rcases hv : int_parameter msg "value" with e | value
    · exact int_parameter_error hroot hv
    dsimp only
    rw [exec_bind, DevMgr.set_device_register, DevMgr.exec_converse hd]
    exact register_response_ends hroot _ _
  · rw [exec_bind, exec_lift]
    rcases hr : int_parameter msg "register" with e | reg
    · exact int_parameter_error hroot hr
    dsimp only
    rw [exec_bind, DevMgr.get_device_register, DevMgr.exec_converse hd]
    exact register_response_ends hroot _ _
  · rw [exec_bind, DevMgr.device_reset, DevMgr.exec_converse hd]
    dsimp only
    rw [exec_ite]
    split_ifs <;> exact fits_create rfl rfl
  · rw [exec_bind, exec_get]
    simp only [DevMgr.withDevice, hd]
    exact fits_create rfl rfl
  · rw [exec_bind, exec_specific hd (mem_specific hd hspecific ⟨h1, h2, h3, h4⟩), if_pos hresponds]
    exact fits_create rfl rfl

/-- Otherwise the program ends. -/
theorem execute_device_method_aborts (hd : m.devices_map[dev_id]? = some d) (x : Exchange)
    (hresponds : ¬ d.Responds method x) :
    ((execute_device_method dev_id method msg x).exec m).1 = .error .abort := by
  obtain ⟨hmethod, -⟩ := Classical.not_imp.1 hresponds
  have hnot : method ≠ "set_register" ∧ method ≠ "get_register" ∧ method ≠ "reset" ∧
      method ≠ "info" := by
    unfold Device.get_device_specific_methods at hmethod
    split_ifs at hmethod
    · fin_cases hmethod <;> decide
    · cases hmethod
  obtain ⟨h1, h2, h3, h4⟩ := hnot
  unfold execute_device_method
  simp only [if_neg h1, if_neg h2, if_neg h3, if_neg h4]
  rw [exec_bind, exec_specific hd hmethod, if_neg hresponds]

end Executor

/-! ### All methods -/

namespace ExecutorAdapter

variable {c : ℕ} {dev_id : BitVec 16} {method : String} {msg : GenericMsg} {a : ExecutorAdapter}
  {m : DevMgr} {d : Device} {id : UInt64}

theorem device_of_exists (h : Executor.is_device_exist m dev_id = true) :
    ∃ d, m.devices_map[dev_id]? = some d := by
  unfold Executor.is_device_exist at h
  split_ifs at h
  rw [DevMgr.is_device_exist, Std.TreeMap.contains_eq_isSome_getElem?] at h
  exact Option.isSome_iff_exists.1 h

/-- A method that does not subscribe, from the reply of `execute_other_method`. -/
theorem exec_device_method_reply (hid : get_id msg = .ok id) (hdev : get_device_id msg = .ok dev_id)
    (hname : get_method_name msg = .ok method) (hexists : Executor.is_device_exist m dev_id = true)
    (hsub : method ≠ "subscribe") (hunsub : method ≠ "unsubscribe") (x : Exchange) :
    (device_method_reply c msg x).exec (a, m) =
      (((execute_other_method dev_id method msg x).exec m).1.map (·.set_request_id id),
        (a, ((execute_other_method dev_id method msg x).exec m).2)) := by
  have hcall : execute_device_method m msg = .ok .other := by
    simp only [execute_device_method, hdev, hname, bind, Except.bind, hexists, if_neg hsub,
      if_neg hunsub]
    rfl
  rw [device_method_reply, exec_bind, exec_get]
  dsimp only
  rw [exec_bind, exec_lift, hcall]
  dsimp only
  rw [exec_bind, exec_lift, hdev]
  dsimp only
  rw [exec_bind, exec_lift, hname]
  dsimp only
  rw [exec_bind, exec_onSnd]
  rcases (execute_other_method dev_id method msg x).exec m with ⟨e | res, m'⟩
  · rfl
  · dsimp only
    rw [exec_bind, exec_lift, hid]
    rfl

theorem fits_other_method (hroot : ∃ node, msg.get_msg_root = some node)
    (hd : m.devices_map[dev_id]? = some d) (x : Exchange) (hresponds : d.Responds method x) :
    ∃ res, ((execute_other_method dev_id method msg x).exec m).1 = .ok res ∧
      Fits dev_id method res := by
  obtain ⟨node, hroot⟩ := hroot
  rw [execute_other_method, exec_bind, exec_get]
  simp only [exec_ite]
  split_ifs with h1 h2 h3 h4
  · exact ⟨_, rfl, fits_create rfl rfl⟩
  · exact ⟨_, rfl, fits_create rfl rfl⟩
  · exact ⟨_, rfl, fits_create rfl rfl⟩
  · have hends := Executor.execute_device_method_ends hroot hd h4 x hresponds
    rw [exec_tryCatch]
    rcases he : (Executor.execute_device_method dev_id method msg x).exec m with ⟨e | res, m'⟩
    · rw [he] at hends
      have hparam : e.OfParameter := hends
      rcases hparam with ⟨what, rfl⟩ | ⟨what, rfl⟩
      · exact ⟨_, rfl, .inl rfl⟩
      · exact ⟨_, rfl, .inl rfl⟩
    · rw [he] at hends
      exact ⟨res, rfl, hends⟩
  · exact ⟨_, rfl, .inl rfl⟩

theorem other_method_aborts (hd : m.devices_map[dev_id]? = some d) (x : Exchange)
    (hresponds : ¬ d.Responds method x) :
    ((execute_other_method dev_id method msg x).exec m).1 = .error .abort := by
  obtain ⟨hmethod, -⟩ := Classical.not_imp.1 hresponds
  have hspecific : Executor.has_device_specific_method m dev_id method = true := by
    rw [Executor.has_device_specific_method, List.contains_iff_mem, Executor.get_device_methods_list,
      DevMgr.get_device_specific_methods, DevMgr.withDevice, hd]
    exact List.mem_append_right _ hmethod
  have hnot : method ≠ "methods_list" ∧ method ≠ "events_list" ∧ method ≠ "registers_list" := by
    unfold Device.get_device_specific_methods at hmethod
    split_ifs at hmethod
    · fin_cases hmethod <;> decide
    · cases hmethod
  obtain ⟨h1, h2, h3⟩ := hnot
  rw [execute_other_method, exec_bind, exec_get]
  simp only [if_neg h1, if_neg h2, if_neg h3, if_pos hspecific, exec_tryCatch]
  have haborts : ((Executor.execute_device_method dev_id method msg x).exec m).1 = .error .abort :=
    Executor.execute_device_method_aborts hd x hresponds
  rcases he : (Executor.execute_device_method dev_id method msg x).exec m with ⟨e | res, m'⟩
  · rw [he] at haborts
    obtain rfl := Except.error.inj haborts
    rfl
  · rw [he] at haborts
    cases haborts

/-- A call that subscribes, up to where the client is attached or detached. -/
theorem execute_device_method_of_event (hdev : get_device_id msg = .ok dev_id)
    (hname : get_method_name msg = .ok method) (hexists : Executor.is_device_exist m dev_id = true)
    (hmethod : method = "subscribe" ∨ method = "unsubscribe") :
    execute_device_method m msg =
      event_call msg (if method = "subscribe" then .attach dev_id else .detach dev_id) := by
  simp only [execute_device_method, hdev, hname, bind, Except.bind, hexists]
  rcases hmethod with rfl | rfl <;> rfl

/-- The response to `subscribe` or `unsubscribe` is built as one of no device. -/
theorem exec_of_event (hid : get_id msg = .ok id) (hdev : get_device_id msg = .ok dev_id)
    (hname : get_method_name msg = .ok method) (hexists : Executor.is_device_exist m dev_id = true)
    (hmethod : method = "subscribe" ∨ method = "unsubscribe") {text : String}
    (htext : event msg = .ok text) (x : Exchange) : ((device_method_reply c msg x).exec (a, m)).1 =
      .ok ((MethodResponseMsg method).set_request_id id) := by
  have hcall : execute_device_method m msg =
      .ok (if method = "subscribe" then .attach dev_id text else .detach dev_id text) := by
    rw [execute_device_method_of_event hdev hname hexists hmethod, event_call]
    rw [event] at htext
    rw [htext]
    rcases hmethod with rfl | rfl <;> rfl
  rw [device_method_reply, exec_bind, exec_get]
  dsimp only
  rw [exec_bind, exec_lift, hcall]
  rcases hmethod with rfl | rfl
  · rw [if_pos rfl]
    simp only [exec_bind, exec_modifyFst, exec_onSnd, exec_modify, exec_lift, hid, exec_pure]
  · rw [if_neg (by decide)]
    simp only [exec_bind, exec_modifyFst, exec_onSnd, exec_modify, exec_lift, hid, exec_pure]

/-- Without an event that can be read the reply is an error. -/
theorem exec_of_no_event (hid : get_id msg = .ok id) (hdev : get_device_id msg = .ok dev_id)
    (hname : get_method_name msg = .ok method) (hexists : Executor.is_device_exist m dev_id = true)
    (hmethod : method = "subscribe" ∨ method = "unsubscribe") {e : Exn} (he : event msg = .error e)
    (x : Exchange) : ∃ text, (device_method_reply c msg x).exec (a, m) =
      (.ok ((ErrorMsg .INVALID_PARAMETERS text).set_request_id id), (a, m)) := by
  obtain ⟨node, hroot⟩ := root_of_method_name hname
  have hparam := event_error hroot he
  have hcall : ∃ text, execute_device_method m msg =
      .ok (.answer ((ErrorMsg .INVALID_PARAMETERS text).set_request_id id)) := by
    rw [execute_device_method_of_event hdev hname hexists hmethod, event_call]
    rw [event] at he
    rw [he]
    rcases hparam with ⟨what, rfl⟩ | ⟨what, rfl⟩
    · exact ⟨_, by simp only [refuse, hid]; rfl⟩
    · exact ⟨_, by simp only [refuse, hid]; rfl⟩
  obtain ⟨text, hcall⟩ := hcall
  refine ⟨text, ?_⟩
  rw [device_method_reply, exec_bind, exec_get]
  dsimp only
  rw [exec_bind, exec_lift, hcall]
  rfl

/-- A call for a device that is there gets a reply that answers it, unless it subscribes an event or
unsubscribes one, or the device does not respond to a method that it lists. -/
theorem device_method_answered_iff (hid : get_id msg = .ok id) (hdev : get_device_id msg = .ok dev_id)
    (hname : get_method_name msg = .ok method) (hexists : Executor.is_device_exist m dev_id = true)
    (x : Exchange) :
    (∃ reply t, (device_method_reply c msg x).exec (a, m) = (.ok reply, t) ∧
      reply.AnswersDevice msg) ↔
    ¬ ((method = "subscribe" ∨ method = "unsubscribe") ∧ ∃ text, event msg = .ok text) ∧
      ∀ d, m.devices_map[dev_id]? = some d → d.Responds method x := by
  have hresponds_of (hmethod : method = "subscribe" ∨ method = "unsubscribe") (d : Device) :
      d.Responds method x := by
    intro hmem
    unfold Device.get_device_specific_methods at hmem
    rcases hmethod with rfl | rfl <;> split_ifs at hmem <;> simp at hmem
  constructor
  · rintro ⟨reply, t, hexec, hanswers⟩
    refine ⟨?_, fun d hd => ?_⟩
    · rintro ⟨hmethod, text, htext⟩
      have hreply : ((device_method_reply c msg x).exec (a, m)).1 = _ :=
        exec_of_event hid hdev hname hexists hmethod htext x
      rw [hexec] at hreply
      obtain rfl := Except.ok.inj hreply
      have htype := (hanswers.response (by simp)).1
      simp at htype
    · by_contra hnot
      have hmethod : ¬ (method = "subscribe" ∨ method = "unsubscribe") :=
        fun h => hnot (hresponds_of h d)
      rw [not_or] at hmethod
      rw [exec_device_method_reply hid hdev hname hexists hmethod.1 hmethod.2 x,
        other_method_aborts hd x hnot] at hexec
      cases congrArg Prod.fst hexec
  · rintro ⟨hevent, hresponds⟩
    by_cases hmethod : method = "subscribe" ∨ method = "unsubscribe"
    · rcases he : event msg with e | text
      · obtain ⟨text, hexec⟩ := exec_of_no_event hid hdev hname hexists hmethod he x
        have hfits : Fits dev_id method (ErrorMsg .INVALID_PARAMETERS text) := .inl rfl
        exact ⟨_, _, hexec, hfits.answersDevice hid hdev hname⟩
      · exact absurd ⟨hmethod, text, he⟩ hevent
    · rw [not_or] at hmethod
      obtain ⟨d, hd⟩ := device_of_exists hexists
      obtain ⟨res, hres, hfits⟩ := fits_other_method (root_of_method_name hname) hd x (hresponds d hd)
      refine ⟨res.set_request_id id, (a, ((execute_other_method dev_id method msg x).exec m).2), ?_,
        hfits.answersDevice hid hdev hname⟩
      rw [exec_device_method_reply hid hdev hname hexists hmethod.1 hmethod.2 x, hres]
      rfl

/-- The thread of the client takes two steps to subscribe, or to unsubscribe: the one changes its
list and the other the device. -/
theorem steps_of_reply (loader : DeviceDescLoader) {s : H9d} (hidle : (s.clients c).phase = .idle)
    {text : String}
    (hcall : execute_device_method s.devmgr msg = .ok (.attach dev_id text) ∨
      execute_device_method s.devmgr msg = .ok (.detach dev_id text)) (x : Exchange) :
    ∃ t u, s.step loader (.execute_device_method c msg) = some t ∧ t.step loader (.call c) = some u ∧
      ((device_method_reply c msg x).exec (s.clients c, s.devmgr)).2 = (u.clients c, u.devmgr) := by
  rcases hcall with hcall | hcall
  · set t := s.setClient c ((s.clients c).attach_device_event_observer dev_id text) with ht
    have hclient : t.clients c = (s.clients c).attach_device_event_observer dev_id text :=
      Function.update_self c _ s.clients
    have hphase : (t.clients c).phase = .attaching dev_id text := by
      rw [hclient]
      rfl
    refine ⟨t, { t.setPhase c .idle with
      devmgr := t.devmgr.attach_event_observer c text dev_id }, ?_, ?_, ?_⟩
    · simp only [H9d.step, hidle, hcall, ht]
    · simp only [H9d.step, hphase]
    · rw [device_method_reply, exec_bind, exec_get]
      dsimp only
      rw [exec_bind, exec_lift, hcall]
      simp only [exec_bind, exec_modifyFst, exec_onSnd, exec_modify, exec_lift, hidle, ht,
        H9d.setPhase, H9d.setClient, Function.update_self, attach_device_event_observer]
      rcases get_id msg with e | id <;> rfl
  · set t := s.setClient c ((s.clients c).detach_device_event_observer dev_id text) with ht
    have hclient : t.clients c = (s.clients c).detach_device_event_observer dev_id text :=
      Function.update_self c _ s.clients
    have hphase : (t.clients c).phase = .detaching dev_id text := by
      rw [hclient]
      rfl
    refine ⟨t, { t.setPhase c .idle with
      devmgr := t.devmgr.detach_event_observer c text dev_id }, ?_, ?_, ?_⟩
    · simp only [H9d.step, hidle, hcall, ht]
    · simp only [H9d.step, hphase]
    · rw [device_method_reply, exec_bind, exec_get]
      dsimp only
      rw [exec_bind, exec_lift, hcall]
      simp only [exec_bind, exec_modifyFst, exec_onSnd, exec_modify, exec_lift, hidle, ht,
        H9d.setPhase, H9d.setClient, Function.update_self, detach_device_event_observer]
      rcases get_id msg with e | id <;> rfl

/-- A device manager that knows an antenna switch of that number. -/
def withSwitch (node_id : BitVec 16) : DevMgr :=
  DevMgr.new.build ∅ 0 node_id 5 0

/-- A call of the method of the device, with the event `register_change`. -/
def deviceCall (method device_id : String) : GenericMsg where
  name := "h9"
  props := [("version", "0.0"), ("id", "7")]
  children := [.element "execute" [("method", method), ("device-id", device_id)]
    [.element "value" [("name", "event")] [.text "register_change"]]]

theorem device_method_answered_antenna :
    ∃ reply t, (device_method_reply 0 (deviceCall "get_selected_antenna" "32")
        ⟨some { H9frame.new with type := 19, dlc := 2 }, []⟩).exec (absent, withSwitch 32) =
      (.ok reply, t) ∧ reply.AnswersDevice (deviceCall "get_selected_antenna" "32") := by
  have hid : get_id (deviceCall "get_selected_antenna" "32") = .ok 7 := rfl
  have hdev : get_device_id (deviceCall "get_selected_antenna" "32") = .ok 32 := rfl
  have hname : get_method_name (deviceCall "get_selected_antenna" "32") =
      .ok "get_selected_antenna" := rfl
  have hexists : Executor.is_device_exist (withSwitch 32) 32 = true := by decide +kernel
  refine (device_method_answered_iff hid hdev hname hexists _).2
    ⟨?_, fun d hd _ => ⟨rfl, _, rfl, rfl⟩⟩
  rintro ⟨h | h, -⟩ <;> simp at h

/-- The response to `subscribe` names no device. -/
theorem device_method_unanswered : ¬ ∀ (c : ℕ) (msg : GenericMsg) (a : ExecutorAdapter) (m : DevMgr)
    (x : Exchange) (id : UInt64) (dev_id : BitVec 16) (method : String), get_id msg = .ok id →
      get_device_id msg = .ok dev_id → get_method_name msg = .ok method →
        Executor.is_device_exist m dev_id = true →
          ∃ reply t, (device_method_reply c msg x).exec (a, m) = (.ok reply, t) ∧
            reply.AnswersDevice msg := by
  intro h
  have hid : get_id (deviceCall "subscribe" "32") = .ok 7 := rfl
  have hdev : get_device_id (deviceCall "subscribe" "32") = .ok 32 := rfl
  have hname : get_method_name (deviceCall "subscribe" "32") = .ok "subscribe" := rfl
  have htext : event (deviceCall "subscribe" "32") = .ok "register_change" := rfl
  have hexists : Executor.is_device_exist (withSwitch 32) 32 = true := by decide +kernel
  obtain ⟨reply, t, hexec, hanswers⟩ :=
    h 0 (deviceCall "subscribe" "32") absent (withSwitch 32) ⟨none, []⟩ 7 32 "subscribe" hid hdev
      hname hexists
  have hreply : ((device_method_reply 0 (deviceCall "subscribe" "32") ⟨none, []⟩).exec
      (absent, withSwitch 32)).1 = _ := exec_of_event hid hdev hname hexists (.inl rfl) htext _
  rw [hexec] at hreply
  obtain rfl := Except.ok.inj hreply
  have htype := (hanswers.response (by simp)).1
  simp at htype

end ExecutorAdapter

end H9
