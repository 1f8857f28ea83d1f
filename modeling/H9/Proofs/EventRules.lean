import H9.Proofs.Replies
import H9.Proofs.ServerRules

/-!
# What a client's message keeps

An invariant of the queues, the memory of the frames and the clients' side that bears what one
frame and one message do (`SystemRule`) holds through all that a message of a client starts.
-/

namespace H9

open Prog

/-! ### What neither closes nor registers a socket -/

theorem required_endsPlain (node : XmlElement) (prop : String) :
    EndsPlain (GenericMsg.required node prop) := by
  unfold GenericMsg.required
  split
  · exact .ok _
  · exact .error trivial

theorem requiredOfRoot_endsPlain (msg : GenericMsg) (prop : String) :
    EndsPlain (GenericMsg.requiredOfRoot msg prop) := by
  unfold GenericMsg.requiredOfRoot
  split
  · exact required_endsPlain _ prop
  · exact .error trivial

theorem get_type_endsPlain (msg : GenericMsg) : EndsPlain msg.get_type := by
  unfold GenericMsg.get_type
  split
  · exact .error trivial
  · intro e h
    split_ifs at h

theorem get_id_endsPlain (msg : GenericMsg) : EndsPlain msg.get_id :=
  .bind (required_endsPlain _ _) fun _ => .pure _

theorem get_frame_endsPlain (msg : GenericMsg) : EndsPlain (get_frame msg) := by
  have hrequired := fun prop => requiredOfRoot_endsPlain msg prop
  refine .bind (hrequired _) fun priority => .bind (hrequired _) fun type => .ite ?_ ?_
  · exact .error trivial
  refine .bind (hrequired _) fun seqnum => .bind (hrequired _) fun source => ?_
  refine .bind (hrequired _) fun destination => .bind (hrequired _) fun dlc => ?_
  dsimp only
  split
  · exact .pure _
  · exact .ite (.error trivial) (.pure _)

theorem recv_endsPlain (xmlReadMemory : List UInt8 → Option XmlDoc) (h : H9Socket) (k : Inbound) :
    EndsPlain (H9MsgSocket.recv xmlReadMemory h k).1 := by
  rw [show (H9MsgSocket.recv xmlReadMemory h k).1 =
    H9MsgSocket.convert xmlReadMemory (h.recv k).1 from rfl]
  unfold H9MsgSocket.convert noexcept
  split
  · split
    · exact .ok _
    · exact .error trivial
  · exact .ok _
  · exact .ok _

/-! ### The invariant -/

/-- `I` after an exit in `X`. -/
def KeptBy (X : Exn → Prop) (I : (String → List BusFrame) → FrameHeap × Server → Prop) (e : Exn)
    (Q : String → List BusFrame) (s : FrameHeap × Server) : Prop := I Q s ∧ X e

structure SystemRule (X : Exn → Prop)
    (I : (String → List BusFrame) → FrameHeap × Server → Prop) : Prop where
  perm : ∀ {Q n q q' s}, q.Perm q' → I (Function.update Q n q) s → I (Function.update Q n q') s
  client : ∀ Q h, ClientRule X fun s => I Q (h, s)
  /-- The driver `n` is done with `b`, or failed to tell. -/
  pop : ∀ {Q n b q h s}, I (Function.update Q n (b :: q)) (h, s) →
    I (Function.update Q n q) (h.complete b.addr n, s) ∧
      I (Function.update Q n q) (h.int_completed_endpoint_count b.addr n, s)
  /-- The originator of `b` is told. -/
  log : ∀ {Q : String → List BusFrame} {n b q h} {s : Server} {k : ℕ} {msg},
    I (Function.update Q n (b :: q)) (h, s) → s.tcp_clients[b.orgin_client_id]? = some k →
      I (Function.update Q n (b :: q)) (h, s.delivered ⟨k, b.addr, msg⟩)
  /-- A frame of a driver has no originator. -/
  zero : ∀ {Q : String → List BusFrame} {h} {s : Server} {k : ℕ} {d}, I Q (h, s) →
    s.tcp_clients[0]? = some k → I Q (h, s.delivered d)

namespace SystemRule

variable {X : Exn → Prop} {I : (String → List BusFrame) → FrameHeap × Server → Prop}

theorem bus (hS : SystemRule X I) : BusMgr.BusRule EventMgr.handler X I (KeptBy X I) := by
  refine fun n Q => ⟨⟨hS.perm, fun he hs => ⟨hs, he⟩⟩, fun b q => ?_, fun f q => ?_⟩
  · refine BusMgr.on_send_frame_rule fun h => ?_
    refine (Server.send_msg_to_subscriber_rule (hS.client (Function.update Q n (b :: q)) h) _
      fun s k hs hk => hS.log hs hk).conseq (fun _ h => h) (fun _ s hs => (hS.pop hs).1) ?_
    exact fun e s hs => ⟨(hS.pop hs.1).2, hs.2⟩
  · exact BusMgr.on_recv_frame_rule fun h =>
      (Server.send_msg_to_subscriber_rule (hS.client (Function.update Q n q) h) _
        fun s k hs hk => hS.zero hs hk).conseq (fun _ h => h) (fun _ _ h => h) fun _ _ h => h

end SystemRule

/-- The clients' side throws plain exceptions only. -/
theorem free_rule {X : Exn → Prop} (hX : ∀ e : Exn, e.Plain → X e) :
    SystemRule X fun _ _ => True where
  perm _ _ := trivial
  client _ _ := {
    missing := fun _ _ _ => hX _ trivial
    answer := fun _ _ _ _ => hX _ trivial
    touch := fun _ _ _ => trivial
    close := fun _ _ => trivial }
  pop _ := ⟨trivial, trivial⟩
  log _ _ := trivial
  zero _ _ := trivial

namespace EventMgr

variable {X Y : Exn → Prop} {I : (String → List BusFrame) → FrameHeap × Server → Prop}
  {bm₀ : BusMgr}

/-- The bus is kept, its drivers' own exits being in `Y`, and the exit is in `X`. -/
def KeptAnd (X Y : Exn → Prop) (I : (String → List BusFrame) → FrameHeap × Server → Prop)
    (bm₀ : BusMgr) (e : Exn) (s : BusMgr × Server) : Prop := BusMgr.Kept Y I bm₀ s ∧ X e

theorem KeptAnd.left {e : Exn} {s : BusMgr × Server} (h : KeptAnd X Y I bm₀ e s) :
    BusMgr.Left (KeptBy X I) bm₀ e s := ⟨h.1.ports, h.1.inv, h.2⟩

theorem onSnd_rule {α : Type} {p : Prog Server Exn α}
    (hp : ∀ Q h, Triple (fun s => I Q (h, s)) p (fun _ s => I Q (h, s))
      fun e s => I Q (h, s) ∧ X e) :
    Triple (BusMgr.Kept Y I bm₀) (onSnd p : Prog (BusMgr × Server) Exn α)
      (fun _ => BusMgr.Kept Y I bm₀) (KeptAnd X Y I bm₀) := by
  refine Triple.onSnd fun bm => fun s hs => ?_
  have h := hp bm.queues bm.heap s hs.inv
  rcases he : p.exec s with ⟨e | a, s'⟩ <;> rw [he] at h
  · exact ⟨⟨hs.ports, hs.within, hs.idle, h.1⟩, h.2⟩
  · exact ⟨hs.ports, hs.within, hs.idle, h⟩

theorem lift_rule {α : Type} {x : Except Exn α} (hx : ∀ e, x = .error e → X e) :
    Triple (BusMgr.Kept Y I bm₀) (lift x : Prog (BusMgr × Server) Exn α)
      (fun a s => BusMgr.Kept Y I bm₀ s ∧ x = .ok a) (KeptAnd X Y I bm₀) :=
  Triple.lift x (fun _ ha _ hs => ⟨hs, ha⟩) fun e he _ hs => ⟨hs, hx e he⟩

/-- The frame of a `SEND_FRAME`, for an invariant of the clients' side alone. -/
theorem send_frame_rule (hS : SystemRule X I)
    (hfree : ∀ {Q Q' h h' s}, I Q (h, s) → I Q' (h', s))
    (hissue : ∀ {Q h s} i, I Q (h, s) → I Q (h, { s with issues := s.issues ++ [i] }))
    {bm : BusMgr} {s : Server} (hs : BusMgr.Kept X I bm₀ (bm, s)) (i : Issue) (frame : H9frame)
    (origin : String) (orgin_client_id : ℕ) (orgin_msg_id : UInt64) :
    Triple (· = (bm, { s with issues := s.issues ++ [i] }))
      (BusMgr.send_frame handler frame origin orgin_client_id orgin_msg_id "")
      (fun _ => BusMgr.Kept X I bm₀) (BusMgr.Left (KeptBy X I) bm₀) := by
  rintro _ rfl
  exact BusMgr.send_frame_rule (I := I) hS.bus
    (b := ⟨bm.heap.next, frame, origin, orgin_client_id, orgin_msg_id⟩)
    (fun _ _ _ => .inr fun _ _ _ h => hfree h) (fun _ _ _ h _ => hfree h)
    (fun _ _ _ _ h => hfree h) "" _ ⟨⟨hs.ports, hs.within, hs.idle, hissue i hs.inv⟩, rfl⟩

section Messages

variable (hS : ∀ Q h, ClientRule X fun s => I Q (h, s)) {k : ℕ} (hclose : X (.closeSocketException (.client k)))
  (hk : ∀ Q h s, I Q (h, s) → s.clients k = none → X .undefined)
include hS hk

/-- A change of the client `k` that keeps what `I` looks at. -/
theorem touch_rule (f : TcpClient → TcpClient) (hf : ∀ c, (f c).Like c) :
    Triple (BusMgr.Kept Y I bm₀)
      (onSnd (do
        let c ← Server.client k
        modify fun s => s.setClient k (f c)) : Prog (BusMgr × Server) Exn Unit)
      (fun _ => BusMgr.Kept Y I bm₀) (KeptAnd X Y I bm₀) := by
  refine onSnd_rule fun Q h s hs => ?_
  rcases hc : s.clients k with _ | c
  · rw [exec_bind, Server.client_none hc]
    exact ⟨hs, hk Q h s hs hc⟩
  · simp only [exec_bind, Server.client_some hc, exec_modify]
    exact (hS Q h).touch hs hc (hf c)

include hclose

theorem reply_rule (msg : GenericMsg) (request_id : UInt64) :
    Triple (BusMgr.Kept Y I bm₀) (reply k msg request_id) (fun _ => BusMgr.Kept Y I bm₀)
      (KeptAnd X Y I bm₀) :=
  onSnd_rule fun Q h => (Server.send_rule (hS Q h) k _).conseq
    (fun s hs => ⟨hs, hk Q h s hs⟩) (fun _ _ h => h)
    fun _ _ h => ⟨h.1, h.2.elim (fun he => he ▸ hclose) id⟩

/-- The two exceptions of a parameter that is not there or no text are caught. -/
theorem subscription_rule (call_msg : GenericMsg) (id : UInt64) (method_name : String)
    (active : Bool) (hroot : call_msg.get_msg_root = none → X .undefined) :
    Triple (BusMgr.Kept Y I bm₀) (subscription k call_msg id method_name active)
      (fun _ => BusMgr.Kept Y I bm₀) (KeptAnd X Y I bm₀) := by
  have hparam : ∀ e, GenericMsg.event call_msg = .error e → X e ∨ e.OfParameter := by
    intro e he
    rcases hr : call_msg.get_msg_root with _ | node
    · unfold GenericMsg.event parameter at he
      rw [hr] at he
      obtain rfl : Exn.undefined = e := by simpa [bind, Except.bind] using he
      exact .inl (hroot hr)
    · exact .inr (GenericMsg.event_error hr he)
  unfold subscription
  refine Triple.tryCatch (R := fun e s => BusMgr.Kept Y I bm₀ s ∧ (X e ∨ e.OfParameter)) ?_ fun e => ?_
  · refine Triple.bind (M := fun _ => BusMgr.Kept Y I bm₀)
      (Triple.lift _ (fun _ _ _ hs => hs) fun e he _ hs => ⟨hs, hparam e he⟩) fun event => ?_
    refine Triple.conseq (R := KeptAnd X Y I bm₀) (Triple.ite (fun _ => ?_) fun _ => ?_)
      (fun _ h => h) (fun _ _ h => h) fun _ _ h => ⟨h.1, .inl h.2⟩
    · exact Triple.bind (touch_rule hS hk _ fun c => ⟨rfl, rfl, rfl, fun _ h => h⟩)
        fun _ => reply_rule hS hclose hk _ _
    · exact reply_rule hS hclose hk _ _
  · split
    · exact (reply_rule hS hclose hk _ _).conseq (fun _ h => h.1) (fun _ _ h => h) fun _ _ h => h
    · exact (reply_rule hS hclose hk _ _).conseq (fun _ h => h.1) (fun _ _ h => h) fun _ _ h => h
    · rename_i hout hinv
      refine Triple.throw _ fun s hs => ⟨hs.1, hs.2.resolve_right ?_⟩
      rintro (⟨what, rfl⟩ | ⟨what, rfl⟩)
      · exact hout what rfl
      · exact hinv what rfl

theorem execute_method_rule (host : Host) (uptime : ℤ) (call_msg : GenericMsg)
    (hname : ∀ e, get_method_name call_msg = .error e → X e)
    (hid : ∀ e, call_msg.get_id = .error e → X e)
    (hroot : call_msg.get_msg_root = none → X .undefined) :
    Triple (BusMgr.Kept Y I bm₀) (execute_method host uptime k call_msg)
      (fun _ => BusMgr.Kept Y I bm₀) (KeptAnd X Y I bm₀) := by
  unfold execute_method
  refine Triple.bind (lift_rule hname) fun method_name => ?_
  refine Triple.bind ((lift_rule hid).conseq (fun _ h => h.1) (fun _ _ h => h)
    fun _ _ h => h) fun id => ?_
  refine Triple.conseq (P := BusMgr.Kept Y I bm₀) ?_ (fun _ h => h.1) (fun _ _ h => h)
    fun _ _ h => h
  refine Triple.ite (fun _ => reply_rule hS hclose hk _ _) fun _ => ?_
  refine Triple.ite (fun _ => ?_) fun _ => ?_
  · exact Triple.get_bind fun s₀ => (reply_rule hS hclose hk _ _).conseq (fun _ h => h.1)
      (fun _ _ h => h) fun _ _ h => h
  refine Triple.ite (fun _ => reply_rule hS hclose hk _ _) fun _ => ?_
  refine Triple.ite (fun _ => subscription_rule hS hclose hk _ _ _ _ hroot) fun _ => ?_
  refine Triple.ite (fun _ => subscription_rule hS hclose hk _ _ _ _ hroot) fun _ => ?_
  exact reply_rule hS hclose hk _ _

/-- `hsend` is about the frame of a `SEND_FRAME`, given to all drivers; `P` holds at the start. -/
theorem process_msg_rule (host : Host) (uptime : ℤ) (msg : GenericMsg) {P : BusMgr × Server → Prop}
    (htype : ∀ e, msg.get_type = .error e → X e) (hid : ∀ e, msg.get_id = .error e → X e)
    (hname : msg.get_type = .ok .EXECUTEMETHOD → ∀ e, get_method_name msg = .error e → X e)
    (hframe : msg.get_type = .ok .SEND_FRAME → ∀ e, get_frame msg = .error e → X e)
    (hsend : msg.get_type = .ok .SEND_FRAME → ∀ bm s c frame id, BusMgr.Kept Y I bm₀ (bm, s) →
      P (bm, s) → s.clients k = some c →
        Triple (· = (bm, { s with issues := s.issues ++ [⟨k, bm.heap.next⟩] }))
          (BusMgr.send_frame handler frame c.get_client_idstring c.socket id "")
          (fun _ => BusMgr.Kept Y I bm₀) (BusMgr.Left (KeptBy X I) bm₀)) :
    Triple (fun s => BusMgr.Kept Y I bm₀ s ∧ P s) (process_msg host uptime k msg)
      (fun _ => BusMgr.Kept Y I bm₀) (BusMgr.Left (KeptBy X I) bm₀) := by
  rintro ⟨bm, s⟩ ⟨hs, hP⟩
  unfold process_msg
  simp only [exec_bind, exec_lift]
  rcases ht : msg.get_type with e | type
  · exact KeptAnd.left ⟨hs, htype e ht⟩
  rcases hi : msg.get_id with e | id
  · exact KeptAnd.left ⟨hs, hid e hi⟩
  dsimp only
  rw [exec_onSnd]
  rcases hc : s.clients k with _ | c
  · rw [Server.client_none hc]
    exact KeptAnd.left ⟨hs, hk _ _ _ hs.inv hc⟩
  rw [Server.client_some hc]
  refine (show Triple (· = (bm, s)) _ (fun _ => BusMgr.Kept Y I bm₀)
    (BusMgr.Left (KeptBy X I) bm₀) from ?_) _ rfl
  split
  · rintro _ rfl
    simp only [exec_bind, exec_lift]
    rcases hf : get_frame msg with e | frame
    · exact KeptAnd.left ⟨hs, hframe ht e hf⟩
    · exact hsend ht bm s c frame id hs hP hc _ rfl
  · rintro _ rfl
    rw [exec_onSnd, exec_modify]
    exact ⟨hs.ports, hs.within, hs.idle,
      (hS _ _).touch hs.inv hc ⟨rfl, rfl, rfl, fun _ h => h⟩⟩
  · rintro _ rfl
    have hroot : msg.get_msg_root = none → X .undefined := by
      intro hr
      rw [GenericMsg.get_type, hr] at ht
      cases ht
    simp only [exec_bind, exec_lift]
    rcases hn : get_method_name msg with e | name
    · exact KeptAnd.left ⟨hs, hname ht e hn⟩
    · exact (execute_method_rule hS hclose hk host uptime msg (hname ht) hid hroot).conseq
        (fun _ h => h) (fun _ _ h => h) (fun _ _ h => h.left) _ hs
  · rintro _ rfl
    exact (reply_rule hS hclose hk _ _).conseq (fun _ h => h) (fun _ _ h => h)
      (fun _ _ h => h.left) _ hs

omit hclose hk in
/-- Whatever comes in on a client, if every exit is allowed but those that ask for another socket
to be closed. `B` holds at the start. -/
theorem recv_msg_rule (hX : ∀ e, e.For (.client k) → X e) (host : Host) (uptime : ℤ)
    (inbound : Inbound) {B : BusMgr × Server → Prop}
    (hsend : ∀ s₀ msg, B s₀ → received host k inbound s₀.2 = some msg →
      msg.get_type = .ok .SEND_FRAME → ∀ s c frame id, BusMgr.Kept Y I bm₀ (s₀.1, s) →
        s.clients k = some c → c.h9socket.isSome →
          Triple (· = (s₀.1, { s with issues := s.issues ++ [⟨k, s₀.1.heap.next⟩] }))
            (BusMgr.send_frame handler frame c.get_client_idstring c.socket id "")
            (fun _ => BusMgr.Kept Y I bm₀) (BusMgr.Left (KeptBy X I) bm₀)) :
    Triple (fun s => BusMgr.Kept Y I bm₀ s ∧ B s) (recv_msg host uptime k inbound)
      (fun _ => BusMgr.Kept Y I bm₀) (BusMgr.Left (KeptBy X I) bm₀) := by
  rintro ⟨bm, s⟩ ⟨hs, hB⟩
  have hnot : ∀ e : Exn, e.Plain → X e := fun e he => hX e (he.for _)
  have hundef : X .undefined := hnot _ trivial
  have hclose : X (.closeSocketException (.client k)) := hX _ (Exn.for_close _)
  have hk : ∀ Q h s, I Q (h, s) → s.clients k = none → X .undefined := fun _ _ _ _ _ => hundef
  have hleft : ∀ {s'} (e : Exn), X e → BusMgr.Kept Y I bm₀ s' →
      BusMgr.Left (KeptBy X I) bm₀ e s' := fun e he h => KeptAnd.left ⟨h, he⟩
  unfold recv_msg
  rw [exec_bind, exec_onSnd]
  rcases hc : s.clients k with _ | c
  · rw [Server.client_none hc]
    exact hleft _ hundef hs
  rw [Server.client_some hc]
  dsimp only
  rcases hh : c.h9socket with _ | h9socket
  · exact hleft _ (hnot _ trivial) hs
  dsimp only
  have hnone := recv_endsPlain host.xmlReadMemory h9socket inbound
  have hmsg : ∀ msg, (H9MsgSocket.recv host.xmlReadMemory h9socket inbound).1 = .ok (.msg msg) →
      Schema.valid msg = true → received host k inbound s = some msg := by
    intro msg he hvalid
    simp [received, hc, hh, he, hvalid]
  revert hnone hmsg
  generalize H9MsgSocket.recv host.xmlReadMemory h9socket inbound = got
  obtain ⟨r, h9socket', inbound'⟩ := got
  intro hnone hmsg
  have hlike : TcpClient.Like { c with h9socket := some h9socket' } c :=
    ⟨rfl, rfl, by rw [hh]; rfl, fun _ h => h⟩
  have hs' : BusMgr.Kept Y I bm₀ (bm, s.setClient k { c with h9socket := some h9socket' }) :=
    ⟨hs.ports, hs.within, hs.idle, (hS _ _).touch hs.inv hc hlike⟩
  have hopen : ∀ c', (s.setClient k { c with h9socket := some h9socket' }).clients k = some c' →
      c'.h9socket.isSome := by
    intro c' hc'
    have hc' : some { c with h9socket := some h9socket' } = some c' :=
      (Function.update_self k _ s.clients).symm.trans hc'
    obtain rfl := Option.some.inj hc'
    rfl
  simp only [exec_bind, exec_onSnd, exec_modify, exec_lift]
  generalize s.setClient k { c with h9socket := some h9socket' } = s' at hs' hopen
  rcases r with e | msg | _ | e
  · exact hleft e (hnot e (hnone e rfl)) hs'
  · dsimp only
    rw [exec_ite]
    split_ifs with hvalid
    · rw [exec_bind, exec_lift]
      rcases ht : msg.get_type with e | type
      · exact hleft _ (hX e ((get_type_endsPlain msg).exit _ ht)) hs'
      dsimp only
      rw [exec_ite]
      split_ifs with hident
      · rw [exec_bind, exec_lift]
        rcases he : get_entity msg with e | entity
        · exact hleft _ (hX e ((requiredOfRoot_endsPlain msg _).exit _ he)) hs'
        · exact (touch_rule hS hk (fun c => { c with entity := entity })
            fun c => ⟨rfl, rfl, rfl, fun _ h => h⟩).conseq (fun _ h => h) (fun _ _ h => h)
              (fun _ _ h => h.left) _ hs'
      · exact process_msg_rule hS hclose hk host uptime msg
          (P := fun t => t.1 = bm ∧ ∀ c, t.2.clients k = some c → c.h9socket.isSome)
          (fun e he => hX e ((get_type_endsPlain msg).exit _ he))
          (fun e he => hX e ((get_id_endsPlain msg).exit _ he))
          (fun _ e he => hX e ((requiredOfRoot_endsPlain msg _).exit _ he))
          (fun _ e he => hX e ((get_frame_endsPlain msg).exit _ he))
          (fun ht bm' s c frame id h hP hc => by
            obtain ⟨rfl, hP⟩ := hP
            exact hsend _ msg hB (hmsg msg rfl hvalid) ht s c frame id h hc (hP c hc))
          _ ⟨hs', rfl, hopen⟩
    · exact (onSnd_rule fun Q h => (Server.send_rule (hS Q h) k _).conseq
        (fun s hs => ⟨hs, hk Q h s hs⟩) (fun _ _ h => h)
          fun _ _ h => ⟨h.1, h.2.elim (fun he => he ▸ hclose) id⟩).conseq
        (fun _ h => h) (fun _ _ h => h) (fun _ _ h => h.left) _ hs'
  · exact hleft _ hclose hs'
  · dsimp only
    simp only [exec_ite]
    split_ifs
    · exact hleft _ hclose hs'
    · exact hs'
    · exact hleft _ (hnot _ trivial) hs'

end Messages

end EventMgr

end H9
