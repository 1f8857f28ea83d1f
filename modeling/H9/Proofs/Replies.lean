import H9.GenericMsg

/-!
# What is read of a reply

The readers of a message look at the root or at the element in it, and the ids are properties of
the root. So a reply carries the request id it was given, and has the type and the method name of
its element whatever ids it got.
-/

namespace H9

open GenericMsg

theorem XmlElement.lookup_setProp (name value : String) :
    ∀ ps : List (String × String), (setProp name value ps).lookup name = some value
  | [] => by simp [setProp]
  | p :: ps => by
    rw [setProp]
    split_ifs with hp
    · simp
    · have hne : (name == p.1) = false := by simpa using fun h => hp h.symm
      rw [List.lookup_cons, hne]
      exact lookup_setProp name value ps

/-- What reading a parameter throws. -/
def Exn.OfParameter (e : Exn) : Prop := (∃ what, e = .out_of_range what) ∨ ∃ what, e = .invalid_argument what

namespace GenericMsg

@[simp] theorem get_msg_root_create (node : XmlElement) : (create node).get_msg_root = some node := rfl

@[simp] theorem get_msg_root_set_id (msg : GenericMsg) (id : UInt64) :
    (msg.set_id id).get_msg_root = msg.get_msg_root := rfl

@[simp] theorem get_msg_root_set_request_id (msg : GenericMsg) (id : UInt64) :
    (msg.set_request_id id).get_msg_root = msg.get_msg_root := rfl

theorem requiredOfRoot_of_lookup {msg : GenericMsg} {node : XmlElement} {prop value : String}
    (hroot : msg.get_msg_root = some node) (h : node.props.lookup prop = some value) :
    requiredOfRoot msg prop = .ok value := by
  simp only [requiredOfRoot, hroot, required, XmlElement.xmlGetProp, h]

/-- Messages with the same element in the root have the same type and the same method name. -/
theorem get_type_congr {msg msg' : GenericMsg} (h : msg.get_msg_root = msg'.get_msg_root) :
    msg.get_type = msg'.get_type := by
  rw [get_type, get_type, h]

theorem get_method_name_congr {msg msg' : GenericMsg} (h : msg.get_msg_root = msg'.get_msg_root) :
    get_method_name msg = get_method_name msg' := by
  rw [get_method_name, get_method_name, requiredOfRoot, requiredOfRoot, h]

/-- A call of a method is an `execute` element, with an id of a device or without. -/
theorem name_of_execute {msg : GenericMsg} {node : XmlElement} (hroot : msg.get_msg_root = some node)
    (htype : msg.get_type = .ok .EXECUTEMETHOD ∨ msg.get_type = .ok .EXECUTEDEVICEMETHOD) :
    node.name = "execute" := by
  rw [get_type, hroot] at htype
  dsimp only at htype
  split_ifs at htype with h1 h2 h3 h4 h5 h6 <;> first | exact h6 | simp at htype

@[simp] theorem get_type_set_request_id (msg : GenericMsg) (id : UInt64) :
    (msg.set_request_id id).get_type = msg.get_type := rfl

@[simp] theorem get_method_name_set_request_id (msg : GenericMsg) (id : UInt64) :
    get_method_name (msg.set_request_id id) = get_method_name msg := rfl

@[simp] theorem get_type_methodResponseMsg (method_name : String) :
    (MethodResponseMsg method_name).get_type = .ok .METHODRESPONSE := rfl

@[simp] theorem get_request_id_set_request_id (msg : GenericMsg) (id : UInt64) :
    (msg.set_request_id id).get_request_id = id := by
  have hprop : (msg.set_request_id id).xmlGetProp "request-id" = some (toString id.toNat) :=
    XmlElement.lookup_setProp _ _ _
  rw [get_request_id, hprop]
  exact CText.strtoull_repr id

/-! ### Parameters -/

/-- The event that a call names, if it names one with a text. -/
def event (msg : GenericMsg) : Except Exn String :=
  parameter msg "event" >>= XmlElement.get_value_as_str

theorem root_of_method_name {msg : GenericMsg} {method : String}
    (h : get_method_name msg = .ok method) : ∃ node, msg.get_msg_root = some node := by
  rw [get_method_name, requiredOfRoot] at h
  rcases hroot : msg.get_msg_root with _ | node
  · rw [hroot] at h
    cases h
  · exact ⟨node, rfl⟩

/-- Reading a parameter fails as an element is not there, or as its content is not what it is read
as. -/
theorem parameter_error {α : Type} {read : XmlElement → Except Exn α}
    (hread : ∀ e exn, read e = .error exn → exn.OfParameter) {msg : GenericMsg} {node : XmlElement}
    (hroot : msg.get_msg_root = some node) {name : String} {exn : Exn}
    (h : (parameter msg name >>= read) = .error exn) : exn.OfParameter := by
  unfold parameter XmlElement.value at h
  rw [hroot] at h
  dsimp only at h
  split at h
  · exact hread _ exn h
  · cases h
    exact .inl ⟨_, rfl⟩

theorem event_error {msg : GenericMsg} {node : XmlElement} (hroot : msg.get_msg_root = some node)
    {exn : Exn} (h : event msg = .error exn) : exn.OfParameter := by
  refine parameter_error (fun e exn he => ?_) hroot h
  unfold XmlElement.get_value_as_str at he
  split at he
  · cases he
  · cases he
    exact .inr ⟨_, rfl⟩

theorem int_parameter_error {msg : GenericMsg} {node : XmlElement}
    (hroot : msg.get_msg_root = some node) {name : String} {exn : Exn}
    (h : (parameter msg name >>= XmlElement.get_value_as_int) = .error exn) : exn.OfParameter := by
  refine parameter_error (fun e exn he => ?_) hroot h
  unfold XmlElement.get_value_as_int at he
  split at he
  · split at he
    · cases he
    · cases he
      exact .inr ⟨_, rfl⟩
    · cases he
      exact .inl ⟨_, rfl⟩
  · cases he
    exact .inr ⟨_, rfl⟩

end GenericMsg

end H9
