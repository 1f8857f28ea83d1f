import H9.Proofs.DeviceReplies
import H9.Proofs.Subscriptions

/-!
# The numbers of a register request

A client names a device, a register and a value by numerals, which go through several narrower types
before they are in a frame. A request comes to one frame or to none (`sent_frames`), and the numbers
in the frame are those of the request up to these types. They are the same where they fit, and where
the register has a size that one of the three widths of a write is for.
-/

namespace H9

open Prog GenericMsg Framing

/-! ### Numerals -/

/-- There is a numeral of `n` at the start of the text. -/
def CText.Numeral (cs : List Char) (n : ℤ) : Prop := (CText.scan 10 cs).2 ≠ [] ∧ CText.value 10 cs = n

/-- A number that an `int` holds. -/
def InInt (n : ℤ) : Prop := -2 ^ 31 ≤ n ∧ n < 2 ^ 31

instance (n : ℤ) : Decidable (InInt n) := inferInstanceAs (Decidable (_ ∧ _))

/-- The request has a parameter of that name with a numeral of `n`. -/
def GenericMsg.Names (msg : GenericMsg) (name : String) (n : ℤ) : Prop :=
  ∃ text, (parameter msg name >>= XmlElement.get_value_as_str) = .ok text ∧
    CText.Numeral text.toList n

theorem int_parameter_of_names {msg : GenericMsg} {name : String} {n : ℤ} (h : msg.Names name n) :
    Executor.int_parameter msg name = if InInt n then .ok n else .error (.out_of_range "stoi") := by
  obtain ⟨text, htext, hne, hvalue⟩ := h
  rw [Executor.int_parameter]
  rcases hp : parameter msg name with e | node
  · rw [hp] at htext
    cases htext
  · rw [hp] at htext
    have hstr : node.get_value_as_str = .ok text := htext
    show node.get_value_as_int = _
    unfold XmlElement.get_value_as_str at hstr
    unfold XmlElement.get_value_as_int
    rcases hchildren : node.children with _ | ⟨c, cs⟩
    · rw [hchildren] at hstr
      cases hstr
    · rw [hchildren] at hstr
      cases c with
      | text content =>
        obtain rfl : content = text := by simpa using hstr
        by_cases hn : InInt n
        · have hn' : -2 ^ 31 ≤ n ∧ n < 2 ^ 31 := hn
          simp only [CText.stoi, hne, hvalue, if_false, if_pos hn, if_pos hn']
        · have hn' : ¬ (-2 ^ 31 ≤ n ∧ n < 2 ^ 31) := hn
          simp only [CText.stoi, hne, hvalue, if_false, if_neg hn, if_neg hn']
      | element name props children => cases hstr
      | cdata content => cases hstr
      | comment => cases hstr

/-- A device id is the number modulo 2^16, as far as a `long` holds it. -/
theorem get_device_id_of_numeral {msg : GenericMsg} {text : String} {d : ℤ}
    (htext : requiredOfRoot msg "device-id" = .ok text) (hd : CText.Numeral text.toList d) :
    get_device_id msg = .ok (BitVec.ofInt 16 (max (-2 ^ 63) (min (2 ^ 63 - 1) d))) := by
  rw [get_device_id, htext, ← hd.2]
  rfl

theorem toNat_device_id (d : ℤ) :
    ((BitVec.ofInt 16 (max (-2 ^ 63) (min (2 ^ 63 - 1) d))).toNat : ℤ) = d ↔ 0 ≤ d ∧ d < 2 ^ 16 := by
  rw [BitVec.toNat_ofInt]
  omega

/-! ### The bytes of a write -/

namespace Device

/-- The bytes that a write of `value` into a register of that size sends, if it sends any. -/
def written (size value : ℤ) : Option (List UInt8) :=
  let n := (size + 7).tdiv 8
  if n = 1 then some [UInt8.ofInt value]
  else if n = 2 then some (Node.htons (UInt16.ofInt value))
  else if 2 < n then some (Node.htonl (UInt32.ofInt value))
  else none

theorem tdiv_eight (size : ℤ) :
    (1 ≤ size ∧ (size + 7).tdiv 8 = (size + 7) / 8) ∨ (size < 1 ∧ (size + 7).tdiv 8 ≤ 0) := by
  by_cases h : 1 ≤ size
  · exact .inl ⟨h, Int.tdiv_eq_ediv_of_nonneg (by omega)⟩
  · refine .inr ⟨by omega, ?_⟩
    have hneg : (-(size + 7)).tdiv 8 = -(size + 7).tdiv 8 := Int.neg_tdiv _ _
    by_cases h7 : 0 ≤ size + 7
    · rw [Int.tdiv_eq_ediv_of_nonneg h7]
      omega
    · have hdiv := Int.tdiv_eq_ediv_of_nonneg (a := -(size + 7)) (b := 8) (by omega)
      omega

theorem written_isSome (size value : ℤ) : (written size value).isSome ↔ 1 ≤ size := by
  have hn := tdiv_eight size
  unfold written
  dsimp only
  split_ifs with h1 h2 h3 <;> simp <;> omega

theorem toNat_ofInt_byte (n : ℕ) : (UInt8.ofInt (n : ℤ)).toNat = n % 2 ^ 8 := by
  rw [UInt8.ofInt, UInt8.toNat_ofNat']
  omega

theorem htons_ofInt (n : ℕ) : Node.htons (UInt16.ofInt (n : ℤ)) = be 2 n := by
  have hn : (UInt16.ofInt (n : ℤ)).toNat = n % 2 ^ 16 := by
    rw [UInt16.ofInt, UInt16.toNat_ofNat']
    omega
  simp [Node.htons, be, ← UInt8.toNat_inj, Nat.shiftRight_eq_div_pow, hn]
  omega

theorem htonl_ofInt (n : ℕ) : Node.htonl (UInt32.ofInt (n : ℤ)) = be 4 n := by
  have hn : (UInt32.ofInt (n : ℤ)).toNat = n % 2 ^ 32 := by
    rw [UInt32.ofInt, UInt32.toNat_ofNat']
    omega
  simp [Node.htonl, be, ← UInt8.toNat_inj, Nat.shiftRight_eq_div_pow, hn]
  omega

theorem written_eq {size v : ℤ} (hsize : 1 ≤ size) (hv : 0 ≤ v) : written size v =
    some (be (if size ≤ 8 then 1 else if size ≤ 16 then 2 else 4) v.toNat) := by
  obtain ⟨n, rfl⟩ := Int.eq_ofNat_of_zero_le hv
  have hn : (size + 7).tdiv 8 = (size + 7) / 8 := Int.tdiv_eq_ediv_of_nonneg (by omega)
  have hbyte : [UInt8.ofInt (n : ℤ)] = be 1 n := by
    simp [be, ← UInt8.toNat_inj, toNat_ofInt_byte]
  unfold written
  dsimp only
  rw [hn, hbyte, htons_ofInt, htonl_ofInt, Int.toNat_natCast]
  split_ifs <;> first | rfl | omega

end Device

/-! ### Frames -/

/-- The frame puts the bytes into the register of the node. -/
structure H9frame.Sets (frame : H9frame) (node_id : BitVec 16) (reg : UInt8) (buf : List UInt8) :
    Prop where
  type : frame.type = H9frame.SET_REG
  destination : frame.destination_id = node_id.setWidth 9
  dlc : frame.dlc.toNat = buf.length + 1
  data : frame.data.toList.take frame.dlc.toNat = reg :: buf

/-- The frame asks the node for the register. -/
structure H9frame.Gets (frame : H9frame) (node_id : BitVec 16) (reg : UInt8) : Prop where
  type : frame.type = H9frame.GET_REG
  destination : frame.destination_id = node_id.setWidth 9
  data : frame.data.get 0 = reg

theorem take_fillData (data : Vector UInt8 8) {bs : List UInt8} (h : bs.length ≤ 8) :
    (fillData data bs).toList.take bs.length = bs := by
  refine List.ext_getElem (by simp; omega) fun i hi hi' => ?_
  simp [fillData, List.getD_eq_getElem?_getD, hi']

theorem Bus.set_reg_spec {priority : Priority} {seqnum : UInt8} {node_id : BitVec 16} {reg : UInt8}
    {buf : List UInt8} (hid : node_id ≤ H9frame.BROADCAST_ID) (hbuf : buf.length ≤ 7) :
    ∃ frame, Bus.set_reg priority seqnum Node.source_id node_id reg buf.length buf = .ok frame ∧
      frame.Sets node_id reg buf := by
  have hsource : ¬ (Node.source_id < 1 ∨ H9frame.BROADCAST_ID ≤ Node.source_id) := by decide
  have hdlc : (UInt8.ofNat (buf.length + 1)).toNat = buf.length + 1 := by
    rw [UInt8.toNat_ofNat']
    omega
  unfold Bus.set_reg
  rw [if_neg hsource, if_neg (BitVec.not_lt.2 hid), if_neg (by omega), List.take_length]
  refine ⟨_, rfl, rfl, rfl, hdlc, ?_⟩
  have hlen : (reg :: buf).length ≤ 8 := by rw [List.length_cons]; omega
  rw [hdlc]
  exact take_fillData H9frame.new.data hlen

theorem Bus.get_reg_spec {priority : Priority} {seqnum : UInt8} {node_id : BitVec 16} {reg : UInt8}
    (hid : node_id ≤ H9frame.BROADCAST_ID) :
    ∃ frame, Bus.get_reg priority seqnum Node.source_id node_id reg = .ok frame ∧
      frame.Gets node_id reg := by
  have hsource : ¬ (Node.source_id < 1 ∨ H9frame.BROADCAST_ID ≤ Node.source_id) := by decide
  unfold Bus.get_reg
  rw [if_neg hsource, if_neg (BitVec.not_lt.2 hid)]
  exact ⟨_, rfl, rfl, rfl, by simp [fillData]⟩

/-! ### What a request sends -/

namespace Node

/-- A write sends one frame, whatever comes back. -/
theorem set_raw_reg_sent (bus : Bus) {node_id : BitVec 16} (hid : node_id ≤ H9frame.BROADCAST_ID)
    (reg : UInt8) {buf : List UInt8} (hbuf : buf.length ≤ 7) (x : Exchange) :
    ∃ frame, (set_raw_reg_value bus node_id reg buf x).2.sent = bus.sent ++ [frame] ∧
      frame.Sets node_id reg buf := by
  obtain ⟨frame, hframe, hsets⟩ : ∃ frame, Bus.set_reg .LOW (bus.get_next_seqnum node_id).1 source_id
      node_id reg buf.length buf = .ok frame ∧ frame.Sets node_id reg buf := Bus.set_reg_spec hid hbuf
  refine ⟨frame, ?_, hsets⟩
  simp only [set_raw_reg_value, set_raw_reg, hframe]
  cases x.answer <;> rfl

theorem get_raw_reg_sent (bus : Bus) {node_id : BitVec 16} (hid : node_id ≤ H9frame.BROADCAST_ID)
    (reg : UInt8) (nbyte : ℕ) (x : Exchange) :
    ∃ frame, (get_raw_reg bus node_id reg nbyte x).2.sent = bus.sent ++ [frame] ∧
      frame.Gets node_id reg := by
  obtain ⟨frame, hframe, hgets⟩ : ∃ frame, Bus.get_reg .LOW (bus.get_next_seqnum node_id).1 source_id
      node_id reg = .ok frame ∧ frame.Gets node_id reg := Bus.get_reg_spec hid
  refine ⟨frame, ?_, hgets⟩
  simp only [get_raw_reg, hframe]
  cases x.answer <;> rfl

end Node

namespace Device

/-- The bytes that `set_register` sends for a register, if it sends any. -/
def writes (d : Device) (reg : UInt8) (value : ℤ) : Option (List UInt8) :=
  d.register_map[reg]?.bind fun desc => written desc.size value

theorem writes_isSome (d : Device) (reg : UInt8) (value : ℤ) : (d.writes reg value).isSome ↔
    ∃ desc, d.register_map[reg]? = some desc ∧ 1 ≤ desc.size := by
  rw [writes]
  rcases d.register_map[reg]? with _ | desc
  · simp
  · simp [written_isSome]

variable {d : Device} (hid : d.node_id ≤ H9frame.BROADCAST_ID)
include hid

theorem set_register_sent (bus : Bus) (reg : UInt8) (value : ℤ) (x : Exchange) :
    ∃ frames, (d.set_register bus reg value x).2.sent = bus.sent ++ frames ∧
      List.Forall₂ (fun frame buf => frame.Sets d.node_id reg buf) frames
        (d.writes reg value).toList := by
  have hone {buf : List UInt8} (hbuf : buf.length ≤ 7) :
      ∃ frames, (Node.set_raw_reg_value bus d.node_id reg buf x).2.sent = bus.sent ++ frames ∧
        List.Forall₂ (fun frame buf => frame.Sets d.node_id reg buf) frames [buf] := by
    obtain ⟨frame, hsent, hsets⟩ := Node.set_raw_reg_sent bus hid reg hbuf x
    exact ⟨[frame], hsent, .cons hsets .nil⟩
  unfold set_register writes
  rcases d.register_map[reg]? with _ | desc
  · exact ⟨[], by simp, .nil⟩
  · simp only [Option.bind_some, written]
    split_ifs
    · exact hone (by simp)
    · exact hone (by simp [Node.htons])
    · exact hone (by simp [Node.htonl])
    · exact ⟨[], by simp, .nil⟩

theorem get_register_sent (bus : Bus) (reg : UInt8) (x : Exchange) :
    ∃ frame, (d.get_register bus reg x).2.sent = bus.sent ++ [frame] ∧
      frame.Gets d.node_id reg := by
  obtain ⟨frame, hsent, hgets⟩ := Node.get_raw_reg_sent bus hid reg 8 x
  refine ⟨frame, ?_, hgets⟩
  unfold get_register
  dsimp only
  split_ifs <;> exact hsent

end Device

/-! ### Requests -/

namespace Executor

variable {m : DevMgr} {dev_id : BitVec 16} {d : Device} {msg : GenericMsg} {r v : ℤ}
  (hd : m.devices_map[dev_id]? = some d) (hr : msg.Names "register" r) (x : Exchange)
include hd hr

/-- `set_register` gets to the device if both numbers are ones of an `int`. -/
theorem exec_set_register (hv : msg.Names "value" v) :
    ((execute_device_method dev_id "set_register" msg x).exec m).2 =
      if InInt r ∧ InInt v then
        { m with bus := (d.set_register m.bus (UInt8.ofInt r) v x).2 }
      else m := by
  unfold execute_device_method
  rw [exec_ite, if_pos rfl, exec_bind, exec_lift, int_parameter_of_names hr]
  by_cases hri : InInt r
  · rw [if_pos hri]
    dsimp only
    rw [exec_bind, exec_lift, int_parameter_of_names hv]
    by_cases hvi : InInt v
    · rw [if_pos hvi, if_pos ⟨hri, hvi⟩]
      dsimp only
      rw [exec_bind, DevMgr.set_device_register, DevMgr.exec_converse hd]
      rfl
    · rw [if_neg hvi, if_neg fun h => hvi h.2]
  · rw [if_neg hri, if_neg fun h => hri h.1]

theorem exec_get_register :
    ((execute_device_method dev_id "get_register" msg x).exec m).2 =
      if InInt r then { m with bus := (d.get_register m.bus (UInt8.ofInt r) x).2 } else m := by
  unfold execute_device_method
  rw [exec_ite, if_neg (by decide), exec_ite, if_pos rfl, exec_bind, exec_lift,
    int_parameter_of_names hr]
  by_cases hri : InInt r
  · rw [if_pos hri, if_pos hri]
    dsimp only
    rw [exec_bind, DevMgr.get_device_register, DevMgr.exec_converse hd]
    rfl
  · rw [if_neg hri, if_neg hri]

end Executor

namespace ExecutorAdapter

/-- A call of a method of the node changes of the device manager what the executor changes. -/
theorem device_method_reply_devmgr {c : ℕ} {msg : GenericMsg} {dev_id : BitVec 16} {method : String}
    {a : ExecutorAdapter} {m : DevMgr} {id : UInt64} (hid : get_id msg = .ok id)
    (hdev : get_device_id msg = .ok dev_id) (hname : get_method_name msg = .ok method)
    (hexists : Executor.is_device_exist m dev_id = true)
    (hmethod : method = "set_register" ∨ method = "get_register") (x : Exchange) :
    ((device_method_reply c msg x).exec (a, m)).2.2 =
      ((Executor.execute_device_method dev_id method msg x).exec m).2 := by
  have hspecific : Executor.has_device_specific_method m dev_id method = true := by
    rw [Executor.has_device_specific_method, List.contains_iff_mem]
    refine List.mem_append_left _ ?_
    rcases hmethod with rfl | rfl <;> simp
  have hne (other : String) (h : other ≠ "set_register" ∧ other ≠ "get_register") : method ≠ other := by
    rintro rfl
    exact hmethod.elim h.1 h.2
  rw [exec_device_method_reply hid hdev hname hexists (hne _ (by decide)) (hne _ (by decide)),
    execute_other_method, exec_bind, exec_get]
  simp only [if_neg (hne "methods_list" (by decide)), if_neg (hne "events_list" (by decide)),
    if_neg (hne "registers_list" (by decide)), if_pos hspecific, exec_tryCatch]
  rcases (Executor.execute_device_method dev_id method msg x).exec m with ⟨e | res, m'⟩
  · cases e <;> rfl
  · rfl

/-- The frames that a call of a method puts on the bus. -/
def framesSent (c : ℕ) (msg : GenericMsg) (x : Exchange) (a : ExecutorAdapter) (m : DevMgr) :
    List H9frame :=
  ((device_method_reply c msg x).exec (a, m)).2.2.bus.sent.drop m.bus.sent.length

end ExecutorAdapter

/-- A request to set or to get a register, with numerals of a device, a register and a value. -/
structure RegisterRequest (msg : GenericMsg) (method : String) (d r v : ℤ) : Prop where
  id : ∃ id, get_id msg = .ok id
  device_id : ∃ text, requiredOfRoot msg "device-id" = .ok text ∧ CText.Numeral text.toList d
  method_name : get_method_name msg = .ok method
  sets_or_gets : method = "set_register" ∨ method = "get_register"
  register : msg.Names "register" r
  value : method = "set_register" → msg.Names "value" v

/-- The frame goes to that node and is about that register. -/
def H9frame.AddressedTo (frame : H9frame) (d r : ℤ) : Prop :=
  (frame.destination_id.toNat : ℤ) = d ∧ ((frame.data.get 0).toNat : ℤ) = r

namespace Device

/-- The request comes to a frame: the numbers are ones of an `int`, and a register that is set is
described with a size. -/
def Goes (dev : Device) (method : String) (r v : ℤ) : Prop :=
  InInt r ∧ (method = "set_register" →
    InInt v ∧ ∃ desc, dev.register_map[UInt8.ofInt r]? = some desc ∧ 1 ≤ desc.size)

/-- The request sets a register that has a size, to a number of that size. -/
def Describes (dev : Device) (method : String) (r v : ℤ) (desc : RegisterDesc) : Prop :=
  method = "set_register" ∧ 0 ≤ r ∧ r < 2 ^ 8 ∧ dev.register_map[UInt8.ofInt r]? = some desc ∧
    1 ≤ desc.size ∧ desc.size ≤ 56 ∧ 0 ≤ v ∧ v < 2 ^ desc.size.toNat

/-- The frames are about the register and to the node of the request, and the value that is set is
in one of them. -/
structure Carried (dev : Device) (method : String) (d r v : ℤ) (frames : List H9frame) : Prop where
  addressed : ∀ frame ∈ frames, frame.type = H9frame.SET_REG ∨ frame.type = H9frame.GET_REG →
    frame.AddressedTo d r
  set : ∀ desc, dev.Describes method r v desc → ∃ frame ∈ frames, frame.type = H9frame.SET_REG ∧
    frame.AddressedTo d r ∧ (frame.data.toList.take frame.dlc.toNat).drop 1 =
      be ((desc.size.toNat + 7) / 8) v.toNat

/-- The numbers fit where they go, and the register has a size that a write has. -/
structure Fitting (dev : Device) (method : String) (d r v : ℤ) : Prop where
  addressed : dev.Goes method r v → (0 ≤ d ∧ d < 2 ^ 16) ∧ 0 ≤ r ∧ r < 2 ^ 8
  set : ∀ desc, dev.Describes method r v desc →
    v < 2 ^ 31 ∧ (desc.size ≤ 16 ∨ 24 < desc.size ∧ desc.size ≤ 32)

end Device

section Request

variable {msg : GenericMsg} {method : String} {d r v : ℤ} {dev_id : BitVec 16} {m : DevMgr}
  {dev : Device}

theorem toNat_register (r : ℤ) : ((UInt8.ofInt r).toNat : ℤ) = r ↔ 0 ≤ r ∧ r < 2 ^ 8 := by
  rw [UInt8.ofInt, UInt8.toNat_ofNat']
  omega

theorem H9frame.Sets.first {frame : H9frame} {node_id : BitVec 16} {reg : UInt8} {buf : List UInt8}
    (h : frame.Sets node_id reg buf) : frame.data.get 0 = reg := by
  have hdata := congrArg (fun l => l[0]?) h.data
  rw [h.dlc] at hdata
  simpa [Vector.get_eq_getElem] using hdata

theorem framesSent_eq (hreq : RegisterRequest msg method d r v) (hdev : get_device_id msg = .ok dev_id)
    (hexists : Executor.is_device_exist m dev_id = true) (hd : m.devices_map[dev_id]? = some dev)
    (hid : dev.node_id = dev_id) (c : ℕ) (x : Exchange) (a : ExecutorAdapter) :
    (¬ dev.Goes method r v ∧ ExecutorAdapter.framesSent c msg x a m = []) ∨
    (dev.Goes method r v ∧ ∃ frame, ExecutorAdapter.framesSent c msg x a m = [frame] ∧
      frame.destination_id = dev_id.setWidth 9 ∧ frame.data.get 0 = UInt8.ofInt r ∧
      (method = "get_register" ∧ frame.type = H9frame.GET_REG ∨
        method = "set_register" ∧ frame.type = H9frame.SET_REG ∧
          dev.writes (UInt8.ofInt r) v = some ((frame.data.toList.take frame.dlc.toNat).drop 1))) := by
  subst hid
  obtain ⟨id, hid⟩ := hreq.id
  have hbroadcast : dev.node_id ≤ H9frame.BROADCAST_ID := by
    unfold Executor.is_device_exist at hexists
    split_ifs at hexists with hlt
    exact BitVec.le_of_lt hlt
  rw [ExecutorAdapter.framesSent, ExecutorAdapter.device_method_reply_devmgr hid hdev hreq.method_name
    hexists hreq.sets_or_gets]
  rcases hreq.sets_or_gets with rfl | rfl
  · rw [Executor.exec_set_register hd hreq.register x (hreq.value rfl)]
    have hwrites := dev.writes_isSome (UInt8.ofInt r) v
    by_cases hin : InInt r ∧ InInt v
    · obtain ⟨frames, hsent, hframes⟩ :=
        Device.set_register_sent hbroadcast m.bus (UInt8.ofInt r) v x
      rw [if_pos hin, hsent, List.drop_left]
      rcases hw : dev.writes (UInt8.ofInt r) v with _ | buf <;> rw [hw] at hframes hwrites
      · refine .inl ⟨fun h => ?_, List.forall₂_nil_right_iff.1 hframes⟩
        have hsome := hwrites.2 (h.2 rfl).2
        cases hsome
      · obtain ⟨frame, rest, hsets, hrest, rfl⟩ := List.forall₂_cons_right_iff.1 hframes
        rw [List.forall₂_nil_right_iff.1 hrest]
        refine .inr ⟨⟨hin.1, fun _ => ⟨hin.2, hwrites.1 rfl⟩⟩, frame, rfl, hsets.destination,
          hsets.first, .inr ⟨rfl, hsets.type, ?_⟩⟩
        rw [hsets.data, List.drop_one, List.tail_cons]
    · rw [if_neg hin, List.drop_length]
      exact .inl ⟨fun h => hin ⟨h.1, (h.2 rfl).1⟩, rfl⟩
  · rw [Executor.exec_get_register hd hreq.register]
    by_cases hr : InInt r
    · obtain ⟨frame, hsent, hgets⟩ := Device.get_register_sent hbroadcast m.bus (UInt8.ofInt r) x
      refine .inr ⟨⟨hr, fun h => by simp at h⟩, frame, ?_, hgets.destination, hgets.data,
        .inl ⟨rfl, hgets.type⟩⟩
      rw [if_pos hr, hsent, List.drop_left]
    · rw [if_neg hr, List.drop_length]
      exact .inl ⟨fun h => hr h.1, rfl⟩

theorem addressedTo_iff {frame : H9frame} (hdev : get_device_id msg = .ok dev_id)
    (hreq : RegisterRequest msg method d r v) (hlt : dev_id < H9frame.BROADCAST_ID)
    (hdest : frame.destination_id = dev_id.setWidth 9) (hreg : frame.data.get 0 = UInt8.ofInt r) :
    frame.AddressedTo d r ↔ (0 ≤ d ∧ d < 2 ^ 16) ∧ 0 ≤ r ∧ r < 2 ^ 8 := by
  obtain ⟨text, htext, hd⟩ := hreq.device_id
  have hid := Except.ok.inj (hdev.symm.trans (get_device_id_of_numeral htext hd))
  have hdest' : frame.destination_id.toNat = dev_id.toNat := by
    have hlt' : dev_id.toNat < 511 := hlt
    rw [hdest, BitVec.toNat_setWidth, Nat.mod_eq_of_lt (by omega)]
  rw [H9frame.AddressedTo, hdest', hreg, toNat_register, hid, toNat_device_id]

theorem goes_of_describes {desc : RegisterDesc} (h : dev.Describes method r v desc) :
    dev.Goes method r v ↔ v < 2 ^ 31 := by
  obtain ⟨rfl, hr, hr', hdesc, hsize, -, hv, -⟩ := h
  have hr31 : InInt r := ⟨by omega, by omega⟩
  constructor
  · intro h
    exact (h.2 rfl).1.2
  · intro h
    exact ⟨hr31, fun _ => ⟨⟨by omega, h⟩, desc, hdesc, hsize⟩⟩

theorem width_iff {size : ℤ} (h : 1 ≤ size) :
    (if size ≤ 8 then 1 else if size ≤ 16 then 2 else 4) = (size.toNat + 7) / 8 ↔
      size ≤ 16 ∨ 24 < size ∧ size ≤ 32 := by
  split_ifs <;> omega

theorem payload_iff {desc : RegisterDesc} (h : dev.Describes method r v desc) {bytes : List UInt8}
    (hwrites : dev.writes (UInt8.ofInt r) v = some bytes) :
    bytes = be ((desc.size.toNat + 7) / 8) v.toNat ↔
      desc.size ≤ 16 ∨ 24 < desc.size ∧ desc.size ≤ 32 := by
  obtain ⟨-, -, -, hdesc, hsize, -, hv, -⟩ := h
  rw [Device.writes, hdesc, Option.bind_some, Device.written_eq hsize hv] at hwrites
  obtain rfl := Option.some.inj hwrites
  rw [← width_iff hsize]
  constructor
  · intro heq
    simpa using congrArg List.length heq
  · intro heq
    rw [heq]

/-- A request is carried out as it says where its numbers fit, and only there. -/
theorem carried_iff (hreq : RegisterRequest msg method d r v) (hdev : get_device_id msg = .ok dev_id)
    (hexists : Executor.is_device_exist m dev_id = true) (hd : m.devices_map[dev_id]? = some dev)
    (hid : dev.node_id = dev_id) (c : ℕ) (x : Exchange) (a : ExecutorAdapter) :
    dev.Carried method d r v (ExecutorAdapter.framesSent c msg x a m) ↔
      dev.Fitting method d r v := by
  have hlt : dev_id < H9frame.BROADCAST_ID := by
    unfold Executor.is_device_exist at hexists
    split_ifs at hexists with hlt
    exact hlt
  rcases framesSent_eq hreq hdev hexists hd hid c x a with ⟨hgoes, hframes⟩ |
    ⟨hgoes, frame, hframes, hdest, hreg, hkind⟩
  · rw [hframes]
    constructor
    · intro h
      refine ⟨fun hg => absurd hg hgoes, fun desc hdesc => ?_⟩
      obtain ⟨frame, hmem, -⟩ := h.set desc hdesc
      cases hmem
    · intro h
      refine ⟨fun frame hmem => (by cases hmem), fun desc hdesc => ?_⟩
      exact absurd ((goes_of_describes hdesc).2 (h.set desc hdesc).1) hgoes
  · rw [hframes]
    have haddressed := addressedTo_iff hdev hreq hlt hdest hreg
    have htype : frame.type = H9frame.SET_REG ∨ frame.type = H9frame.GET_REG :=
      hkind.symm.imp (fun h => h.2.1) fun h => h.2
    have hset {desc : RegisterDesc} (hdesc : dev.Describes method r v desc) :
        frame.type = H9frame.SET_REG ∧
          ((frame.data.toList.take frame.dlc.toNat).drop 1 =
            be ((desc.size.toNat + 7) / 8) v.toNat ↔
              desc.size ≤ 16 ∨ 24 < desc.size ∧ desc.size ≤ 32) := by
      rcases hkind with ⟨hget, -⟩ | ⟨-, hsets, hwrites⟩
      · have hname := hget.symm.trans hdesc.1
        simp at hname
      · exact ⟨hsets, payload_iff hdesc hwrites⟩
    constructor
    · intro h
      refine ⟨fun _ => haddressed.1 (h.addressed frame List.mem_cons_self htype),
        fun desc hdesc => ⟨(goes_of_describes hdesc).1 hgoes, ?_⟩⟩
      obtain ⟨frame', hmem, -, -, hbytes⟩ := h.set desc hdesc
      obtain rfl := List.mem_singleton.1 hmem
      exact (hset hdesc).2.1 hbytes
    · intro h
      have hto : frame.AddressedTo d r := haddressed.2 (h.addressed hgoes)
      refine ⟨fun frame' hmem _ => ?_, fun desc hdesc => ?_⟩
      · rw [List.mem_singleton.1 hmem]
        exact hto
      · exact ⟨frame, List.mem_cons_self, (hset hdesc).1, hto,
          (hset hdesc).2.2 (h.set desc hdesc).2⟩

end Request

/-! ### The devices under their ids -/

namespace DevMgr

/-- Each device is under the id of its node. -/
def Keyed (m : DevMgr) : Prop :=
  ∀ (id : BitVec 16) (d : Device), m.devices_map[id]? = some d → d.node_id = id

theorem Keyed.setDevice {m : DevMgr} (h : m.Keyed) {id : BitVec 16} {d : Device}
    (hd : d.node_id = id) : (m.setDevice id d).Keyed := by
  intro id' d' hd'
  rw [DevMgr.setDevice, Std.TreeMap.getElem?_insert] at hd'
  split_ifs at hd' with heq
  · rw [← Option.some.inj hd', hd, Std.LawfulEqCmp.eq_of_compare heq]
  · exact h id' d' hd'

theorem buildDevice_node_id (loader : DeviceDescLoader) (now : ℤ) (addr : ℕ) (node_id : BitVec 16)
    (type : UInt16) (version : UInt64) :
    (Device.buildDevice loader now addr node_id type version).node_id = node_id := by
  unfold Device.buildDevice
  split_ifs <;> rfl

theorem Keyed.process {m : DevMgr} (h : m.Keyed) (loader : DeviceDescLoader) (now : ℤ)
    (frame : H9frame) : (m.process loader now frame).Keyed := by
  intro id d hd
  by_cases ha : frame.Announces ∧ frame.node = id
  · obtain ⟨ha, rfl⟩ := ha
    rw [lookup_announced loader now m ha] at hd
    obtain rfl := Option.some.inj hd
    rcases hold : m.devices_map[frame.node]? with _ | d
    · exact buildDevice_node_id ..
    · rw [replacement]
      split_ifs
      · exact buildDevice_node_id ..
      · have hkeep : (d.update_device_last_seen_time now).node_id = d.node_id := rfl
        rw [hkeep]
        exact h frame.node d hold
  · rcases lookup_unannounced loader now m ha with heq | ⟨d', hd', hnew⟩
    · exact h id d (heq ▸ hd)
    · obtain rfl := Option.some.inj (hnew.symm.trans hd)
      exact h id d' hd'

theorem Keyed.attach {m : DevMgr} (h : m.Keyed) (c : ℕ) (e : String) (id : BitVec 16) :
    (m.attach_event_observer c e id).Keyed := by
  unfold attach_event_observer
  rcases hd : m.devices_map[id]? with _ | d
  · exact h
  · exact h.setDevice (h id d hd)

theorem Keyed.detach {m : DevMgr} (h : m.Keyed) (c : ℕ) (e : String) (id : BitVec 16) :
    (m.detach_event_observer c e id).Keyed := by
  unfold detach_event_observer
  rcases hd : m.devices_map[id]? with _ | d
  · exact h
  · exact h.setDevice (h id d hd)

end DevMgr

namespace H9d

theorem keyed_step {loader : DeviceDescLoader} (e : H9dStep) (s t : H9d) (h : s.devmgr.Keyed)
    (hstep : s.step loader e = some t) : t.devmgr.Keyed := by
  cases move_of_step hstep with
  | connect | attach | detach | answer | disconnect | cleaned | on_frame_recv => exact h
  | attached => exact h.attach _ _ _
  | detached | clean => exact h.detach _ _ _
  | @update frame frames now m hq hm =>
    have hrest : DevMgr.Keyed { s.devmgr with frame_queue := frames } := h
    rw [hm]
    exact hrest.process loader now frame

theorem keyed_run {loader : DeviceDescLoader} {es : List H9dStep} {s : H9d}
    (hrun : Steps.run (step loader) es start = some s) : s.devmgr.Keyed := by
  have hstart : start.devmgr.Keyed := fun id d hd => by simp [start, DevMgr.new] at hd
  exact Steps.inv_of_run keyed_step hstart hrun

end H9d

/-- In every run of h9d, a request for a register of a device that is there is carried out as it says
where its numbers fit, and only there. -/
theorem register_request_carried_iff {loader : DeviceDescLoader} {es : List H9dStep} {s : H9d}
    (hrun : Steps.run (H9d.step loader) es H9d.start = some s) {msg : GenericMsg} {method : String}
    {d r v : ℤ} (hreq : RegisterRequest msg method d r v) {dev_id : BitVec 16}
    (hdev : get_device_id msg = .ok dev_id)
    (hexists : Executor.is_device_exist s.devmgr dev_id = true) {dev : Device}
    (hd : s.devmgr.devices_map[dev_id]? = some dev) (bus : Bus) (c : ℕ) (x : Exchange)
    (a : ExecutorAdapter) :
    dev.Carried method d r v
        (ExecutorAdapter.framesSent c msg x a { s.devmgr with bus := bus }) ↔
      dev.Fitting method d r v := by
  set m : DevMgr := { s.devmgr with bus := bus } with hm
  have hexists' : Executor.is_device_exist m dev_id = true := hexists
  have hd' : m.devices_map[dev_id]? = some dev := hd
  exact carried_iff hreq hdev hexists' hd' (H9d.keyed_run hrun dev_id dev hd) c x a

/-- A device with a register of 16 bits has announced itself. -/
def announcedRegister : List H9dStep :=
  [.on_frame_recv { H9frame.new with
    type := H9frame.NODE_INFO, source_id := 32, data := #v[0, 1, 0, 0, 0, 0, 0, 0] },
    .devices_update 0]

def stateRegister : RegisterDesc := ⟨10, "state", "uint", 16, true, true, [], ""⟩

def relays : DeviceDescLoader :=
  (∅ : DeviceDescLoader).insert 1 ⟨"relay", "", (∅ : Std.TreeMap UInt16 RegisterDesc).insert 10 stateRegister⟩

/-- A request for that register by those numerals. -/
def registerCall (method device_id register value : String) : GenericMsg where
  name := "h9"
  props := [("version", "0.0"), ("id", "7")]
  children := [.element "execute" [("method", method), ("device-id", device_id)]
    [.element "value" [("name", "register")] [.text register],
      .element "value" [("name", "value")] [.text value]]]

theorem relayRequest {register value : String} {r v : ℤ} (hr : CText.Numeral register.toList r)
    (hv : CText.Numeral value.toList v) :
    RegisterRequest (registerCall "set_register" "32" register value) "set_register" 32 r v where
  id := ⟨7, rfl⟩
  device_id := ⟨"32", rfl, by decide, by decide⟩
  method_name := rfl
  sets_or_gets := .inl rfl
  register := ⟨register, rfl, hr⟩
  value _ := ⟨value, rfl, hv⟩

/-- The run ends with the device, whose register 10 has 16 bits. -/
theorem relay_known : ∃ s dev desc, Steps.run (H9d.step relays) announcedRegister H9d.start = some s ∧
    Executor.is_device_exist s.devmgr 32 = true ∧
    s.devmgr.devices_map[(32 : BitVec 16)]? = some dev ∧
    dev.register_map[(10 : UInt8)]? = some desc ∧ desc.size = 16 := by
  have hsize : ((Steps.run (H9d.step relays) announcedRegister H9d.start).bind fun s =>
      s.devmgr.devices_map[(32 : BitVec 16)]?.bind fun dev =>
        dev.register_map[(10 : UInt8)]?.map RegisterDesc.size) = some 16 := by
    decide +kernel
  obtain ⟨s, hs, hsize⟩ := Option.bind_eq_some_iff.1 hsize
  obtain ⟨dev, hdev, hsize⟩ := Option.bind_eq_some_iff.1 hsize
  obtain ⟨desc, hdesc, hsize⟩ := Option.map_eq_some_iff.1 hsize
  refine ⟨s, dev, desc, hs, ?_, hdev, hdesc, hsize⟩
  rw [Executor.is_device_exist, if_pos (by decide), DevMgr.is_device_exist,
    Std.TreeMap.contains_eq_isSome_getElem?, hdev]
  rfl

/-- The request to set the register to 513 puts the bytes 2 and 1 into it. -/
theorem register_request_carried_relay : ∃ s dev, Steps.run (H9d.step relays) announcedRegister
      H9d.start = some s ∧ s.devmgr.devices_map[(32 : BitVec 16)]? = some dev ∧
    dev.Carried "set_register" 32 10 513 (ExecutorAdapter.framesSent 0
      (registerCall "set_register" "32" "10" "513") ⟨none, []⟩ ExecutorAdapter.absent
        { s.devmgr with bus := Bus.new }) := by
  obtain ⟨s, dev, desc, hs, hexists, hdev, hdesc, hsize⟩ := relay_known
  refine ⟨s, dev, hs, hdev, (register_request_carried_iff hs
    (relayRequest ⟨by decide, by decide⟩ ⟨by decide, by decide⟩) rfl hexists hdev Bus.new 0
      ⟨none, []⟩ ExecutorAdapter.absent).2 ⟨fun _ => by norm_num, ?_⟩⟩
  rintro desc' ⟨-, -, -, hdesc', -⟩
  have hreg : UInt8.ofInt 10 = 10 := by decide
  rw [hreg, hdesc] at hdesc'
  obtain rfl := Option.some.inj hdesc'
  exact ⟨by norm_num, .inl (by omega)⟩

/-- The register 266 is asked for, and the register 10 is set. -/
theorem register_request_truncated : ¬ ∀ (loader : DeviceDescLoader) (es : List H9dStep) (s : H9d)
    (msg : GenericMsg) (method : String) (d r v : ℤ) (dev_id : BitVec 16) (dev : Device) (c : ℕ)
    (x : Exchange) (a : ExecutorAdapter),
    Steps.run (H9d.step loader) es H9d.start = some s → RegisterRequest msg method d r v →
      get_device_id msg = .ok dev_id → Executor.is_device_exist s.devmgr dev_id = true →
        s.devmgr.devices_map[dev_id]? = some dev →
          dev.Carried method d r v (ExecutorAdapter.framesSent c msg x a s.devmgr) := by
  intro h
  obtain ⟨s, dev, desc, hs, hexists, hdev, hdesc, hsize⟩ := relay_known
  have hreq : RegisterRequest (registerCall "set_register" "32" "266" "1") "set_register" 32 266 1 :=
    relayRequest ⟨by decide, by decide⟩ ⟨by decide, by decide⟩
  have hcarried := h relays announcedRegister s _ _ 32 266 1 32 dev 0 ⟨none, []⟩ .absent hs hreq rfl
    hexists hdev
  rw [carried_iff hreq rfl hexists hdev (H9d.keyed_run hs 32 dev hdev)] at hcarried
  have hreg : UInt8.ofInt 266 = 10 := by decide
  have hgoes : dev.Goes "set_register" 266 1 := by
    refine ⟨by decide, fun _ => ⟨by decide, desc, ?_, by omega⟩⟩
    rw [hreg, hdesc]
  exact absurd (hcarried.addressed hgoes).2.2 (by norm_num)

end H9
