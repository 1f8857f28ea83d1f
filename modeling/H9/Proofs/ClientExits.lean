import H9.Proofs.ClientTable
import H9.Proofs.RefCount
import H9.Proofs.Routing

/-!
# What a valid message can throw

The readers of `TcpClient::recv_msg` and `EventMgr::process_msg` find all that they ask for in a
message that the schema lets through, and a write that fails as it does when the other end is gone
asks for a socket to be closed, which `select_loop` does. But the schema does not ask for the bytes
that the `dlc` of a frame counts: without them `get_frame` throws an `InvalidMsg`, which nobody
catches. And a frame that the first of several drivers is done with at once (`Hasty`) is used after it
was deleted.
-/

namespace H9

open Prog SelectLoop

/-- `select_loop` catches it. -/
def Exn.IsClose : Exn → Prop
  | .closeSocketException _ => True
  | _ => False

instance decidableIsClose : DecidablePred Exn.IsClose
  | .closeSocketException _ => .isTrue trivial
  | .invalidMsg _ | .out_of_range _ | .invalid_argument _ | .system_error _ | .abort | .terminate
  | .undefined | .overrun => .isFalse id

/-- The write to a client succeeds, or fails as it does when the peer is gone. -/
def WriteAnswer.Bearable : WriteAnswer → Prop
  | .error e => e.PeerGone
  | .count | .zero => True

instance decidableBearable : DecidablePred WriteAnswer.Bearable
  | .error e => inferInstanceAs (Decidable (e = .ECONNRESET ∨ e = .EPIPE ∨ e = .EBADF))
  | .count | .zero => .isTrue trivial

/-- The writes to come succeed, or fail as they do when the other end is gone. -/
structure WritesClose (s : BusMgr × Server) : Prop where
  drivers : ∀ it ∈ s.1.dev.toList, ∀ a ∈ it.2.writes, ∀ e ∈ it.2.answerExit a, e.IsClose
  clients : ∀ k < s.2.next_client, ∀ c ∈ s.2.clients k, ∀ a ∈ c.sends, a.Bearable

/-- What comes in on the client `k` throws nothing but what asks for a socket to be closed, and
`select_loop` goes on; and no frame was used after it was deleted. -/
structure EventMgr.Survives (host : Host) (uptime : ℤ) (k : ℕ) (inbound : Inbound)
    (s : BusMgr × Server) : Prop where
  exits : ∀ e t, (recv_msg host uptime k inbound).exec s = (.error e, t) → e.IsClose
  returns : ((SelectLoop.visit host (.client k inbound uptime)).exec s).1 = .ok ()
  alive : ((recv_msg host uptime k inbound).exec s).2.1.heap.Intact

/-! ### The clients -/

/-- The clients in the map are there, and so is the client `k`, and they are written to as long as
they are. -/
structure Attended (k : ℕ) (s : Server) : Prop where
  alive : ∀ fd j : ℕ, s.tcp_clients[fd]? = some j → (s.clients j).isSome
  visited : (s.clients k).isSome
  sends : ∀ j c, s.clients j = some c → ∀ a ∈ c.sends, a.Bearable

theorem Attended.touch {k j : ℕ} {s : Server} {c c' : TcpClient} (h : Attended k s)
    (hc : s.clients j = some c) (hs : ∀ a ∈ c'.sends, a ∈ c.sends) :
    Attended k (s.setClient j c') := by
  have hsome : ∀ i, (s.clients i).isSome → ((s.setClient j c').clients i).isSome := by
    intro i hi
    by_cases hij : i = j
    · subst hij
      simp [Server.setClient]
    · simpa [Server.setClient, Function.update_of_ne hij] using hi
  refine ⟨fun fd i hi => hsome i (h.alive fd i hi), hsome k h.visited, fun i d hi a ha => ?_⟩
  by_cases hij : i = j
  · subst hij
    have hd : some c' = some d := (Function.update_self i _ s.clients).symm.trans hi
    obtain rfl := Option.some.inj hd
    exact h.sends i c hc a (hs a ha)
  · have hd : s.clients i = some d := (Function.update_of_ne hij _ s.clients).symm.trans hi
    exact h.sends i d hd a ha

theorem TcpClient.failsAsClosed {c : TcpClient} (h : ∀ a ∈ c.sends, a.Bearable) :
    c.FailsAsClosed := by
  intro e ha
  unfold answer at ha
  split_ifs at ha with hclosed
  · exact .inr (.inr (WriteAnswer.error.inj ha).symm)
  · rcases hsends : c.sends with _ | ⟨a, as⟩ <;> rw [hsends] at ha
    · cases ha
    · obtain rfl : a = .error e := ha
      exact h (.error e) (by rw [hsends]; exact List.mem_cons_self)

theorem TcpClient.lasts : ∀ (n : ℕ) {c : TcpClient}, (∀ a ∈ c.sends, a.Bearable) → c.Lasts n
  | 0, _, _ => trivial
  | n + 1, _, h => ⟨failsAsClosed h, fun _ => lasts n fun a ha => h a (List.mem_of_mem_tail ha)⟩

theorem Attended.hears {k : ℕ} {s : Server} (h : Attended k s) (o n : ℕ) : s.Hears o n :=
  fun _ _ c _ hc _ => TcpClient.lasts n (h.sends _ c hc)

theorem attended_rule (k : ℕ) : ClientRule Exn.IsClose (Attended k) where
  missing h hj hnone := by
    have hsome := h.alive _ _ hj
    rw [hnone] at hsome
    cases hsome
  answer {s j c e} h hc ha he := absurd (TcpClient.failsAsClosed (h.sends j c hc) e ha) he
  touch h hc hl := h.touch hc hl.sends
  close {s j c} h hc := by
    have ht : Attended k (s.setClient j { c with h9socket := none, connected := false }) :=
      h.touch hc fun _ ha => ha
    exact ⟨ht.alive, ht.visited, ht.sends⟩

theorem attended_system (k : ℕ) : SystemRule Exn.IsClose fun _ s => Attended k s.2 where
  perm _ h := h
  client _ _ := attended_rule k
  pop h := ⟨h, h⟩
  log h _ := ⟨h.alive, h.visited, h.sends⟩
  zero h _ := ⟨h.alive, h.visited, h.sends⟩

/-! ### The frames -/

/-- The addresses in use are not those of the frames to come. -/
def Fresh (s : BusMgr × Server) : Prop := BusMgr.Old 0 s.1.queues (s.1.heap, s.2)

theorem old_system (k : ℕ) : SystemRule (fun _ => True) (BusMgr.Old k) where
  perm hp h := h.congr (BusMgr.mem_update fun _ hb => hp.mem_iff.2 hb) rfl fun _ he => .inl he
  client _ _ := {
    missing := fun _ _ _ => trivial
    answer := fun _ _ _ _ => trivial
    touch := fun h _ _ => ⟨h.next, h.queued, h.log⟩
    close := fun h _ => ⟨h.next, h.queued, h.log⟩ }
  pop h := h.pop
  log h _ := ⟨h.next, h.queued, h.log⟩
  zero h _ := ⟨h.next, h.queued, h.log⟩

theorem on_select_fresh (host : Host) {v : Visit} (hv : ∀ a, v ≠ .accept a) {s : BusMgr × Server}
    (h : Fresh s) : Fresh ((SelectLoop.on_select host v).exec s).2 := by
  refine (on_select_system host (old_system 0) (fun bm t k c frame id ht _ _ => ?_) hv h).2
  rintro _ rfl
  refine ((BusMgr.send_frame_old EventMgr.handler
    (b := ⟨bm.heap.next, frame, c.get_client_idstring, c.socket, id⟩) (old_system _).bus "").conseq
    (fun _ h => h) (fun _ _ h => h) fun _ _ h => ⟨h.ports, h.inv.1.zero, trivial⟩) _ ⟨?_, rfl⟩
  exact ⟨ht.ports, ht.within, ht.idle, ht.inv.next, ht.inv.queued, ht.inv.log⟩

theorem Fresh.set {s : BusMgr × Server} (h : Fresh s) {n : String} {d d' : Driver} {bm' : BusMgr}
    {srv' : Server} (hd : s.1.dev[n]? = some d) (hset : BusMgr.Set n d' s.1 bm')
    (hq : d'.send_queue = d.send_queue) : Fresh (bm', srv') := by
  unfold Fresh
  rw [queues_set hd hq hset, hset.heap]
  exact ⟨h.next, h.queued, h.log⟩

theorem fresh_loop (host : Host) (C : LoopStep → BusMgr × Server → Prop) :
    LoopRule host C Fresh fun _ => True where
  accept h _ _ := ⟨h.next, h.queued, h.log⟩
  visit {s s' v} h _ hv _ hrun := by
    obtain ⟨t, hsel, hcases⟩ := visit_closes hv hrun
    have ht : Fresh t := hsel ▸ on_select_fresh host hv h
    rcases hcases with rfl | ⟨n, d, -, hd, rfl⟩ | ⟨k, c, -, hc, rfl⟩
    · exact ht
    · exact ht.set hd (t.1.set_setDriver n { d with connected := false }) rfl
    · exact ⟨ht.next, ht.queued, ht.log⟩
  opened {s fd n d} h _ hd _ _ _ _ :=
    h.set hd (s.1.set_setDriver n { d with socket := fd, connected := true }) rfl
  failed h _ hd _ _ hset := h.set hd hset (by rfl)
  unregister h _ _ := ⟨h.next, h.queued, h.log⟩
  remove h _ _ _ := ⟨h.next, fun m b hb => h.queued m b (queues_erase hb), h.log⟩
  flush_client h _ _ _ := ⟨h.next, h.queued, h.log⟩
  stop _ _ _ := trivial

/-- A new frame that is given to all drivers is used after it was deleted just when the first of several
is done with it at once. -/
theorem BusMgr.send_all_intact {bm : BusMgr} {s : Server} (b : BusFrame) (haddr : b.addr = bm.heap.next)
    (hs : s.Seated) (hh : ∀ n, s.Hears b.orgin_client_id n) (hlog : ∀ e ∈ bm.heap.log, e.1 < bm.heap.next)
    (hi : bm.heap.Intact) :
    ((send_frame EventMgr.handler b.frame b.origin b.orgin_client_id b.orgin_msg_id "").exec
      (bm, s)).2.1.heap.Intact ↔ ¬ bm.Hasty := by
  obtain ⟨T, hT, hown, hsound⟩ := send_all_sound bm b haddr hs
  have hends : bm.EndsEarly bm.dev.keys b.orgin_client_id s ↔ bm.Hasty := by
    refine ⟨EndsEarly.hasty, ?_⟩
    rintro ⟨n, rest, d, hkeys, hne, hd, htells, hr⟩
    refine ⟨n, rest, d, hkeys, hne, hd, htells, fun m hm c hc => ?_, hh _⟩
    obtain rfl := List.mem_singleton.1 hm
    exact Option.some.inj (hd.symm.trans hc) ▸ hr
  rw [FrameHeap.Intact, hT, FrameHeap.Sound, List.pairwise_append, ← hends, ← hsound]
  refine ⟨fun h => h.2.1, fun h => ⟨hi, h, fun e he e' he' _ heq => ?_⟩⟩
  exact (hlog e he).ne (heq.symm.trans (hown e' he'))

/-! ### The message -/

namespace EventMgr

variable {host : Host} {k : ℕ} {inbound : Inbound} {msg : GenericMsg} {s : BusMgr × Server}
  (uptime : ℤ)

/-- Of a message that is complete and valid `recv_msg` looks at the type. -/
theorem exec_recv_msg (h : received host k inbound s.2 = some msg) : ∃ (c c' : TcpClient)
    (type : MsgType), s.2.clients k = some c ∧ c'.socket = c.socket ∧
      (∀ a ∈ c'.sends, a ∈ c.sends) ∧ Schema.valid msg = true ∧ msg.get_type = .ok type ∧
        (recv_msg host uptime k inbound).exec s =
          (if type = .IDENTIFICATION then do
            let entity ← lift (get_entity msg)
            onSnd do
              let c ← Server.client k
              modify fun s => s.setClient k { c with entity := entity }
          else process_msg host uptime k msg).exec (s.1, s.2.setClient k c') := by
  obtain ⟨bm, srv⟩ := s
  unfold received at h
  rcases hc : srv.clients k with _ | c <;> simp only [hc, Option.bind_eq_bind, Option.bind] at h
  · cases h
  rcases hh : c.h9socket with _ | h9socket <;> simp only [hh] at h
  · cases h
  rcases hr : (H9MsgSocket.recv host.xmlReadMemory h9socket inbound).1 with e | m | _ | e <;>
    simp only [hr] at h
  · cases h
  · split_ifs at h with hvalid
    obtain rfl := Option.some.inj h
    obtain ⟨type, htype⟩ := Schema.get_type_ok hvalid
    refine ⟨c, { c with
      h9socket := some (H9MsgSocket.recv host.xmlReadMemory h9socket inbound).2.1 }, type, rfl,
      rfl, fun _ ha => ha, hvalid, htype, ?_⟩
    unfold recv_msg
    rw [exec_bind, exec_onSnd, Server.client_some hc]
    simp only [hh, exec_bind, exec_onSnd, exec_modify, exec_lift, hr, if_pos hvalid, htype]
  · cases h
  · cases h

/-- What leaves `recv_msg` with a message that can be read. -/
theorem recv_msg_closes (h : received host k inbound s.2 = some msg) (hs : Attended k s.2)
    (hw : s.1.Within Exn.IsClose) (hread : msg.get_type = .ok .SEND_FRAME → ¬ Mismatched msg) :
    Triple (· = s) (recv_msg host uptime k inbound) (fun _ _ => True) fun e _ => e.IsClose := by
  intro t ht
  obtain ⟨c, c', type, hc, -, hsends, hvalid, htype, hexec⟩ := exec_recv_msg uptime h
  rw [ht, hexec]
  have hs' : Attended k (s.2.setClient k c') := hs.touch hc hsends
  have hkept : BusMgr.Kept Exn.IsClose (fun _ t => Attended k t.2) s.1
      (s.1, s.2.setClient k c') := ⟨fun _ => rfl, hw, id, hs'⟩
  have hnone : ∀ (Q : String → List BusFrame) (h : FrameHeap) (s : Server), Attended k s →
      s.clients k = none → Exn.IsClose .undefined := by
    intro Q h s hk hnone
    have hsome := hk.visited
    rw [hnone] at hsome
    cases hsome
  refine (show Triple (· = (s.1, s.2.setClient k c')) _ (fun _ _ => True)
    (fun e _ => Exn.IsClose e) from Triple.ite (fun hident => ?_) fun hident => ?_) _ rfl
  · rw [hident] at htype
    obtain ⟨entity, hentity⟩ := Schema.get_entity_ok hvalid htype
    rintro _ rfl
    obtain ⟨c, hc⟩ := Option.isSome_iff_exists.1 hs'.visited
    rw [hentity, exec_bind, exec_lift]
    simp only [exec_onSnd, exec_bind, Server.client_some hc, exec_modify]
  · have hok : ∀ {α : Type} {x : Except Exn α}, (∃ a, x = .ok a) → ∀ e, x = .error e →
        e.IsClose := by
      rintro α x ⟨a, rfl⟩ e he
      cases he
    have hget : msg.get_type = .ok .SEND_FRAME → ∃ frame, get_frame msg = .ok frame := by
      intro ht
      rcases get_frame_readable hvalid ht with ⟨hmis, -⟩ | ⟨-, hframe⟩
      · exact absurd hmis (hread ht)
      · exact hframe
    exact (process_msg_rule (attended_system k).client trivial hnone host uptime msg (P := fun _ => True)
      (hok ⟨type, htype⟩) (hok (Schema.get_id_ok hvalid))
      (fun ht => hok (Schema.get_method_name_ok hvalid ht)) (fun ht => hok (hget ht))
      fun _ bm s c frame id hk _ _ => send_frame_rule (attended_system k) (fun h => h)
        (fun _ h => ⟨h.alive, h.visited, h.sends⟩) hk _ frame _ _ id).conseq
      (fun t ht => ⟨ht ▸ hkept, trivial⟩) (fun _ _ _ => trivial) fun _ _ h => h.inv.2

/-- What leaves it with one that lacks its bytes. -/
theorem recv_msg_mismatched (h : received host k inbound s.2 = some msg)
    (htype : msg.get_type = .ok .SEND_FRAME) (hmis : Mismatched msg) :
    ∃ e t, (recv_msg host uptime k inbound).exec s = (.error e, t) ∧ ¬ e.IsClose := by
  obtain ⟨c, c', type, hc, -, -, hvalid, htype', hexec⟩ := exec_recv_msg uptime h
  obtain rfl := Except.ok.inj (htype'.symm.trans htype)
  obtain ⟨id, hid⟩ := Schema.get_id_ok hvalid
  obtain ⟨e, he⟩ : ∃ e, get_frame msg = .error e := by
    rcases get_frame_readable hvalid htype with ⟨-, herr⟩ | ⟨hnot, -⟩
    · exact herr
    · exact absurd hmis hnot
  refine ⟨e, (s.1, s.2.setClient k c'), ?_, fun hclose => ?_⟩
  · have hc' : (s.2.setClient k c').clients k = some c' := Function.update_self k _ _
    rw [hexec, if_neg (by decide), process_msg]
    simp only [exec_bind, exec_lift, htype, hid, exec_onSnd, Server.client_some hc', he]
  · rcases e with ref | _
    case closeSocketException => exact get_frame_endsPlain msg _ he
    all_goals exact hclose

/-- Only a frame to send changes the memory of the frames. -/
theorem recv_msg_heap (h : received host k inbound s.2 = some msg)
    (htype : msg.get_type ≠ .ok .SEND_FRAME) :
    ((recv_msg host uptime k inbound).exec s).2.1.heap = s.1.heap := by
  set I : (String → List BusFrame) → FrameHeap × Server → Prop := fun _ t => t.1 = s.1.heap
  have hrule : Triple (fun t => BusMgr.Kept (fun _ => True) I s.1 t ∧ t = s)
      (recv_msg host uptime k inbound) (fun _ => BusMgr.Kept (fun _ => True) I s.1)
      (BusMgr.Left (KeptBy (fun _ => True) I) s.1) := by
    refine recv_msg_rule (fun _ _ => ?_) (fun _ _ => trivial) host uptime inbound ?_
    · exact ⟨fun _ _ _ => trivial, fun _ _ _ _ => trivial, fun h _ _ => h, fun h _ => h⟩
    · rintro _ msg' rfl hmsg' htype'
      obtain rfl := Option.some.inj (h.symm.trans hmsg')
      exact absurd htype' htype
  have hend := hrule s ⟨⟨fun _ => rfl, fun _ _ _ _ _ _ _ => trivial, id, rfl⟩, rfl⟩
  rcases he : (recv_msg host uptime k inbound).exec s with ⟨e | u, t⟩ <;> rw [he] at hend
  · exact hend.inv.1
  · exact hend.inv

theorem seated_touch {j : ℕ} {srv : Server} {c c' : TcpClient} (h : srv.Seated)
    (hc : srv.clients j = some c) (hs : c'.socket = c.socket) : (srv.setClient j c').Seated := by
  intro fd i hi
  obtain ⟨d, hd, hfd⟩ := h fd i hi
  by_cases hij : i = j
  · subst hij
    obtain rfl := Option.some.inj (hc.symm.trans hd)
    exact ⟨c', Function.update_self i _ _, hs.trans hfd⟩
  · exact ⟨d, (Function.update_of_ne hij _ _).trans hd, hfd⟩

/-- The frame that a message with all its bytes asks for. -/
theorem recv_msg_intact (h : received host k inbound s.2 = some msg) (hs : Attended k s.2)
    (hseated : s.2.Seated) (hf : Fresh s) (hi : s.1.heap.Intact)
    (htype : msg.get_type = .ok .SEND_FRAME) (hmis : ¬ Mismatched msg) :
    ((recv_msg host uptime k inbound).exec s).2.1.heap.Intact ↔ ¬ s.1.Hasty := by
  obtain ⟨c, c', type, hc, hsocket, hsends, hvalid, htype', hexec⟩ := exec_recv_msg uptime h
  obtain rfl := Except.ok.inj (htype'.symm.trans htype)
  obtain ⟨frame, hget⟩ : ∃ frame, get_frame msg = .ok frame := by
    rcases get_frame_readable hvalid htype with ⟨hbad, -⟩ | ⟨-, hframe⟩
    · exact absurd hbad hmis
    · exact hframe
  obtain ⟨id, hproc⟩ := exec_process_sendframe host uptime k (s := s.2.setClient k c') (c := c')
    s.1 hvalid htype (Function.update_self k _ _)
  rw [hexec, if_neg (by decide), hproc, hget]
  exact BusMgr.send_all_intact ⟨s.1.heap.next, frame, c'.get_client_idstring, c'.socket, id⟩ rfl
    (seated_touch hseated hc hsocket) ((hs.touch hc hsends).hears c'.socket) hf.log hi

theorem WritesClose.within (h : WritesClose s) : s.1.Within Exn.IsClose := by
  intro n d hd a ha e he
  exact h.drivers (n, d) (Std.TreeMap.mem_toList_iff_getElem?_eq_some.2 hd) a ha e he

theorem attended (hp : Populated s) (hw : WritesClose s) (hc : (s.2.clients k).isSome) :
    Attended k s.2 where
  alive fd j hj := by
    have hsocket := hp.entry fd j hj
    rw [get_socket] at hsocket
    rw [← Option.isSome_map (f := TcpClient.socket), hsocket]
    rfl
  visited := hc
  sends j c hj := by
    have hlt : j < s.2.next_client := hp.next j c.socket (by rw [get_socket, hj, Option.map_some])
    exact hw.clients j hlt c hj

theorem visit_returns (hexits : ∀ e t, (recv_msg host uptime k inbound).exec s = (.error e, t) →
    e.IsClose) (hc : (s.2.clients k).isSome) :
    ((SelectLoop.visit host (.client k inbound uptime)).exec s).1 = .ok () := by
  have hsame : SameSockets s ((SelectLoop.on_select host (.client k inbound uptime)).exec s).2 :=
    on_select_same host (by rintro a ha; cases ha) s
  have hselect : SelectLoop.on_select host (.client k inbound uptime) =
    recv_msg host uptime k inbound := rfl
  unfold SelectLoop.visit
  rw [exec_tryCatch]
  rw [hselect] at hsame ⊢
  rcases he : (recv_msg host uptime k inbound).exec s with ⟨e | u, t⟩
  · have hclose := hexits e t he
    rcases e with ref | _
    case closeSocketException =>
      rw [he] at hsame
      have hsome : (t.2.clients k).isSome := by
        rw [← Option.isSome_map (f := TcpClient.socket), hsame.clients.sockets, Option.isSome_map]
        exact hc
      obtain ⟨c, hc⟩ := Option.isSome_iff_exists.1 hsome
      obtain ⟨bm, srv⟩ := t
      change ((onSnd (Server.on_close k) : Prog (BusMgr × Server) Exn Unit).exec (bm, srv)).1 = .ok ()
      unfold Server.on_close
      rw [exec_onSnd, exec_bind, Server.client_some hc]
      rfl
    all_goals exact hclose.elim
  · rfl

theorem seated (hp : Populated s) : s.2.Seated := fun fd j hj => by
  obtain ⟨c, hc, hfd⟩ := Option.map_eq_some_iff.1 (hp.entry fd j hj)
  exact ⟨c, hc, hfd⟩

/-- A valid message ends the program if and only if it asks for a frame and lacks its bytes, or the
frame would be deleted too early. -/
theorem survives_iff (h : received host k inbound s.2 = some msg) (hp : Populated s) (hf : Fresh s)
    (hi : s.1.heap.Intact) (hw : WritesClose s) : Survives host uptime k inbound s ↔
      ¬ (msg.get_type = .ok .SEND_FRAME ∧ (Mismatched msg ∨ s.1.Hasty)) := by
  obtain ⟨c, -, -, hc, -⟩ := exec_recv_msg uptime h
  have hsome : (s.2.clients k).isSome := by rw [hc]; rfl
  have hattended := attended hp hw hsome
  constructor
  · rintro hsurvives ⟨htype, hbad⟩
    by_cases hmis : Mismatched msg
    · obtain ⟨e, t, he, hclose⟩ := recv_msg_mismatched uptime h htype hmis
      exact hclose (hsurvives.exits e t he)
    · exact (recv_msg_intact uptime h hattended (seated hp) hf hi htype hmis).1 hsurvives.alive
        (hbad.resolve_left hmis)
  · intro hread
    have hcloses := recv_msg_closes uptime h hattended
      (WritesClose.within hw) fun ht hmis => hread ⟨ht, .inl hmis⟩
    have hexits : ∀ e t, (recv_msg host uptime k inbound).exec s = (.error e, t) → e.IsClose :=
      fun e t he => hcloses.error rfl he
    refine ⟨hexits, visit_returns uptime hexits hsome, ?_⟩
    by_cases htype : msg.get_type = .ok .SEND_FRAME
    · exact (recv_msg_intact uptime h hattended (seated hp) hf hi htype fun hmis =>
        hread ⟨htype, .inl hmis⟩).2 fun hhasty => hread ⟨htype, .inr hhasty⟩
    · rw [recv_msg_heap uptime h htype]
      exact hi

end EventMgr

theorem stepsMeet_true (host : Host) : ∀ (es : List LoopStep) (s : BusMgr × Server),
    StepsMeet host (fun _ _ => True) es s
  | [], _ => trivial
  | _ :: es, _ => ⟨trivial, fun s' _ => stepsMeet_true host es s'⟩

/-- Every run is one of steps that meet nothing in particular. -/
theorem meets_true (host : Host) : ∀ (ps : List Pass) (s : BusMgr × Server),
    Meets host (fun _ _ => True) ps s
  | [], _ => trivial
  | p :: ps, s => ⟨stepsMeet_true host (p.steps s) s, fun s' _ => meets_true host ps s'⟩

theorem start_populated (config : Config) : Populated config.start where
  entry fd k h := by simp [Config.start, Config.serverMgr] at h
  next k fd h := by simp [get_socket, Config.start, Config.serverMgr] at h

theorem start_fresh (config : Config) : Fresh config.start where
  next := Nat.zero_le _
  queued n b hb := by
    rw [config.start_queues] at hb
    cases hb
  log e he := by cases he

/-- In every state in which a step of a run is taken, if no frame was used after it was deleted so far
and the writes to come succeed or fail as closed: a valid message leaves `recv_msg` by a close at most,
`select_loop` goes on, and still no frame was used after it was deleted, if and only if the message is
not one that asks for a frame and lacks its bytes, or that comes while the first of several drivers is
done with a frame at once. -/
theorem select_loop_survives_iff (host : Host) (config : Config) (ps : List Pass) :
    Meets host (fun _ s => ∀ uptime k inbound msg,
      EventMgr.received host k inbound s.2 = some msg → s.1.heap.Intact → WritesClose s →
        (EventMgr.Survives host uptime k inbound s ↔
          ¬ (msg.get_type = .ok .SEND_FRAME ∧ (Mismatched msg ∨ s.1.Hasty)))) ps config.start := by
  have hfresh : Meets host (fun _ s => Fresh s) ps config.start :=
    (fresh_loop host fun _ _ => True).meets (fun h _ => h.inv) ps
      ⟨start_fresh config, config.start_nonzero, config.start_flushed⟩ (meets_true host ps _)
  exact (populated_loop host fun _ s => Fresh s).meets
    (fun h hf uptime _ _ _ hreceived hi hw => EventMgr.survives_iff uptime hreceived h.inv hf hi hw) ps
    ⟨start_populated config, config.start_nonzero, config.start_flushed⟩ hfresh

namespace SelectLoop

/-- A `sendframe` of one byte, which is not there. -/
def emptyFrameDoc : XmlDoc :=
  { sendFrameDoc with
    children := [.element "sendframe" [("priority", "H"), ("type", "1"), ("seqnum", "0"),
      ("source", "1"), ("destination", "2"), ("dlc", "1")] []] }

/-- Its text. -/
def emptyFrameText : List UInt8 :=
  ("<h9 version=\"0.0\" id=\"1\"><sendframe priority=\"H\" type=\"1\" seqnum=\"0\" " ++
    "source=\"1\" destination=\"2\" dlc=\"1\"/></h9>").toList.map fun c => UInt8.ofNat c.toNat

def emptyFrameHost : Host where
  xmlReadMemory text := if text = emptyFrameText then some emptyFrameDoc else none
  xmlGetLastError _ := ""
  version := "0"

/-- The message on its way, behind its length. -/
def emptyFrame : Inbound :=
  ⟨Framing.be32 emptyFrameText.length ++ emptyFrameText, [.bytes 3, .bytes emptyFrameText.length]⟩

end SelectLoop

/-- The client sends the frame, and the program ends. -/
theorem not_select_loop_survives : ¬ ∀ (host : Host) (config : Config) (ps : List Pass),
    Meets host (fun _ s => ∀ uptime k inbound msg,
      EventMgr.received host k inbound s.2 = some msg → s.1.heap.Intact → WritesClose s →
        EventMgr.Survives host uptime k inbound s) ps config.start := by
  intro h
  have hmeet := h emptyFrameHost sampleConfig
    ([one (connect 7)] ++ [one (.client 0 emptyFrame 0)])
  have hok : ((select_loop emptyFrameHost [one (connect 7)]).exec sampleConfig.start).1 =
      .ok () := by decide +kernel
  have hreceived : (EventMgr.received emptyFrameHost 0 emptyFrame
      ((select_loop emptyFrameHost [one (connect 7)]).exec sampleConfig.start).2.2).isSome := by
    decide +kernel
  have hdrivers : ∀ it ∈ ((select_loop emptyFrameHost [one (connect 7)]).exec
      sampleConfig.start).2.1.dev.toList, ∀ a ∈ it.2.writes, ∀ e ∈ it.2.answerExit a,
        e.IsClose := by decide +kernel
  have hclients : ∀ k < ((select_loop emptyFrameHost [one (connect 7)]).exec
      sampleConfig.start).2.2.next_client, ∀ c ∈ ((select_loop emptyFrameHost
        [one (connect 7)]).exec sampleConfig.start).2.2.clients k, ∀ a ∈ c.sends, a.Bearable := by
    decide +kernel
  have hintact : ((select_loop emptyFrameHost [one (connect 7)]).exec
      sampleConfig.start).2.1.heap.Intact := by decide +kernel
  have hexit : ((EventMgr.recv_msg emptyFrameHost 0 0 emptyFrame).exec
      ((select_loop emptyFrameHost [one (connect 7)]).exec sampleConfig.start).2).1 =
        .error (.invalidMsg "'dlc' and 'data' mismatch") := by decide +kernel
  rcases hrun : (select_loop emptyFrameHost [one (connect 7)]).exec sampleConfig.start with ⟨r, s⟩
  rw [hrun] at hok hreceived hdrivers hclients hintact hexit
  obtain rfl : r = .ok () := hok
  obtain ⟨msg, hmsg⟩ := Option.isSome_iff_exists.1 hreceived
  have hsurvives := (hmeet.last hrun).1 0 0 emptyFrame msg hmsg hintact ⟨hdrivers, hclients⟩
  exact hsurvives.exits _ _ (Prod.ext hexit rfl)

end H9
