import H9.Proofs.LoopRules

/-!
# Who is closed

`Socket::close` throws, and a handler that catches it closes the socket it was busy with: in
`select_loop` the one visited, in `send_msg_to_subscriber` the client it was sending to. What a
driver reads makes no other socket throw, and a message to a client only that client. A client's
frame, though, is written to the drivers inside the client's visit: a driver that finds its device
gone there gets the client closed.
-/

namespace H9

open Prog SelectLoop

/-- The driver writes the next frame at once, and finds the device gone. -/
def Driver.Breaks (d : Driver) : Prop :=
  (d.kind = .slcan ∨ d.kind = .socketcan) ∧ d.socket ≠ 0 ∧ d.send_queue = [] ∧
    (d.writes.head? = some .zero ∨ d.writes.head? = some (.error Errno.ENXIO))

instance (d : Driver) : Decidable d.Breaks :=
  inferInstanceAs (Decidable (_ ∧ _ ∧ _ ∧ _))

/-- No driver finds its device gone when a client's frame is written to it. -/
def LoopStep.Unbroken (host : Host) : LoopStep → BusMgr × Server → Prop
  | .visit (.client k inbound _), s => ∀ msg ∈ EventMgr.received host k inbound s.2,
    msg.get_type = .ok .SEND_FRAME → ∀ it ∈ s.1.dev.toList, ¬ it.2.Breaks
  | _, _ => True

instance (host : Host) : ∀ (e : LoopStep) (s : BusMgr × Server), Decidable (e.Unbroken host s)
  | .visit (.client k inbound _), s =>
    inferInstanceAs (Decidable (∀ msg ∈ EventMgr.received host k inbound s.2,
      msg.get_type = .ok .SEND_FRAME → ∀ it ∈ s.1.dev.toList, ¬ it.2.Breaks))
  | .visit (.accept _), _ | .visit (.driver _ _), _ | .reopen _ _, _ | .flush, _ => .isTrue trivial

/-- What reaches the handler of `select_loop` from a visit asks for the socket visited, which is
the one the handler closes. -/
def LoopStep.CatchesOwn (host : Host) (e : LoopStep) (s : BusMgr × Server) : Prop :=
  ∀ v ref t, e = .visit v → v.socket ∈ s.2.socket_set →
    (SelectLoop.on_select host v).exec s = (.error (.closeSocketException ref), t) →
      ref = v.socket

/-- What reaches a handler from a program about the client `k` asks for that client. -/
def Server.ThrowsOwn (k : ℕ) (p : Prog Server Exn Unit) : Prop :=
  ∀ s ref t, p.exec s = (.error (.closeSocketException ref), t) → ref = .client k

/-! ### A message to a client -/

theorem Server.send_throwsOwn (k : ℕ) (msg : GenericMsg) : Server.ThrowsOwn k (Server.send k msg) := by
  intro s ref t h
  have hI : ClientRule (fun e => ∀ ref, e ≠ .closeSocketException ref) fun _ => True := {
    missing := fun _ _ _ ref h => by cases h
    answer := fun _ _ _ _ ref h => by cases h
    touch := fun _ _ _ => trivial
    close := fun _ _ => trivial }
  have hsend := (Server.send_rule hI k msg).error ⟨trivial, fun _ ref h => by cases h⟩ h
  rcases hsend.2 with he | he
  · exact Exn.closeSocketException.inj he
  · exact absurd rfl (he ref)

/-! ### A driver's visit -/

theorem driver_visit_throws {n : String} {answer : ReadAnswer} {s t : BusMgr × Server} {e : Exn}
    (hname : ∀ d, s.1.dev[n]? = some d → d.name = n)
    (h : (BusMgr.on_select EventMgr.handler n answer).exec s = (.error e, t)) :
    e.For (.driver n) := by
  obtain ⟨bm, srv⟩ := s
  rcases hd : bm.dev[n]? with _ | d
  · have hexec := BusMgr.exec_onDriver_none EventMgr.handler
      (fun cb => Driver.recv_data cb answer) (w := srv) hd
    obtain rfl := Except.error.inj (Prod.mk.inj (hexec.symm.trans h)).1
    trivial
  · have hrule := Driver.recv_data_rule
      ((free_rule (X := Exn.For (.driver d.name)) fun e he => he.for _).bus n fun _ => [])
      rfl (fun _ _ _ he => Driver.exit_own he) (fun e he => he) answer
    have hend := hrule (d, bm.heap, srv) ⟨rfl, trivial⟩
    unfold BusMgr.on_select at h
    rw [BusMgr.exec_onDriver EventMgr.handler _ hd] at h
    rcases hr : (Driver.recv_data (BusMgr.callbacks EventMgr.handler n) answer).exec
      (d, bm.heap, srv) with ⟨e' | u, t'⟩ <;> rw [hr] at h hend
    · obtain rfl := Except.error.inj (Prod.mk.inj h).1
      exact hname d hd ▸ hend.2.2
    · cases (Prod.mk.inj h).1

/-! ### A client's frame -/

/-- A driver that gets a frame leaves by what the callback throws, or by what its write does. -/
theorem Driver.send_frame_throws {S : Type} {cb : Callbacks S} {X : Exn → Prop}
    (hcb : ∀ b, Triple (fun _ => True) (cb.send_frame b) (fun _ _ => True) fun e _ => X e)
    (d : Driver) (b : BusFrame) (hw : d.socket ≠ 0 → d.send_queue = [] →
      ∀ a, d.writes.head? = some a → ∀ e, d.answerExit a = some e → X e) :
    Triple (fun s => s.1 = d) (Driver.send_frame cb b) (fun _ _ => True) fun e _ => X e := by
  rintro ⟨d, s⟩ rfl
  unfold send_frame send_data
  rw [exec_bind, exec_getFst]
  dsimp only
  rw [exec_ite]
  by_cases hs : d.socket = 0
  · rw [if_pos hs]
    trivial
  rw [if_neg hs, exec_bind, exec_modifyFst]
  dsimp only
  rw [exec_ite]
  by_cases hq : d.send_queue = []
  swap
  · rw [if_neg hq]
    trivial
  rw [if_pos hq, queued_of_nil hq]
  dsimp only
  obtain ⟨r, d', he, hport, hq', -, hexit⟩ := write_exec (d.queued b) b s
  rw [exec_bind, he]
  rcases r with e | ⟨⟩
  · obtain ⟨a, ha, hae⟩ := hexit e rfl
    exact hw hs hq a ha e hae
  rw [queued_of_nil hq] at hq'
  dsimp only
  rw [exec_bind, exec_getFst]
  dsimp only
  rw [exec_ite]
  by_cases hk : d'.kind ≠ .slcan
  swap
  · rw [if_neg hk]
    trivial
  -- the frame is the only one: once it is out the queue is empty, and nothing more is written
  have hempty : (d'.reportedOn b).send_queue = [] := by
    rw [reportedOn, hq']
    rfl
  rw [if_pos hk, hq', List.length_singleton, on_frame_send, exec_bind, exec_getFst]
  dsimp only
  rw [hq']
  have hsent := hcb b s trivial
  simp only [exec_bind, exec_modifyFst, exec_onSnd, exec_getFst]
  rcases hc : (cb.send_frame b).exec s with ⟨e | u, s'⟩ <;> rw [hc] at hsent
  · exact hsent
  · dsimp only
    rw [hempty]
    trivial

namespace BusMgr

/-- The drivers not yet given the frame are as they were, so each leaves by its own next write, or
by what the callback throws. -/
theorem send_frame_throws {W : Type} {handler : EventHandler W} {X : Exn → Prop}
    (hX : X .undefined)
    (hcb : ∀ n b, Triple (fun _ => True) ((callbacks handler n).send_frame b) (fun _ _ => True)
      fun e _ => X e)
    (bm : BusMgr) (hw : ∀ (n : String) (d : Driver), bm.dev[n]? = some d → d.socket ≠ 0 →
      d.send_queue = [] → ∀ a, d.writes.head? = some a → ∀ e, d.answerExit a = some e → X e)
    (frame : H9frame) (origin : String) (orgin_client_id : ℕ) (orgin_msg_id : UInt64) :
    Triple (fun s => s.1 = bm)
      (send_frame handler frame origin orgin_client_id orgin_msg_id "")
      (fun _ _ => True) fun e _ => X e := by
  have hloop : ∀ b, Triple (fun s => ∀ n ∉ ([] : List String), s.1.dev[n]? = bm.dev[n]?)
      (forEach bm.dev.keys (give handler b))
      (fun _ s => ∀ n ∉ bm.dev.keys, s.1.dev[n]? = bm.dev[n]?) fun e _ => X e := by
    intro b
    refine Triple.forEach_prefix bm.dev.keys
      (I := fun (pre : List String) (s : BusMgr × W) => ∀ n ∉ pre, s.1.dev[n]? = bm.dev[n]?)
      fun pre n post hl => ?_
    rintro ⟨bm', w⟩ hsame
    have hn : n ∉ pre := by
      have hnd : bm.dev.keys.Nodup := Std.TreeMap.nodup_keys
      rw [hl, List.nodup_append] at hnd
      exact fun hmem => hnd.2.2 n hmem n List.mem_cons_self rfl
    unfold give
    simp only [exec_bind, exec_modifyFst]
    have hd' : bm'.dev[n]? = bm.dev[n]? := hsame n hn
    set heap' := (bm'.heap.inc_total_endpoint_count b.addr n).touch b.addr (.queued n)
    rcases hd : bm.dev[n]? with _ | d
    · have hdev : ({ bm' with heap := heap' } : BusMgr).dev[n]? = none := hd'.trans hd
      rw [exec_onDriver_none handler _ hdev]
      exact hX
    · have hsend := Driver.send_frame_throws (hcb n) d b (hw n d hd) (d, heap', w) rfl
      have hdev : ({ bm' with heap := heap' } : BusMgr).dev[n]? = some d := hd'.trans hd
      rw [exec_onDriver handler _ hdev]
      rcases hr : (Driver.send_frame (callbacks handler n) b).exec (d, heap', w) with
        ⟨e | u, d'', heap'', w''⟩ <;> rw [hr] at hsend
      · exact hsend
      · intro m hm
        rw [List.mem_append, List.mem_singleton, not_or] at hm
        have hins : (bm'.dev.insert n d'')[m]? = bm'.dev[m]? := by
          simp only [Std.TreeMap.getElem?_insert, Std.LawfulEqCmp.compare_eq_iff_eq,
            if_neg (Ne.symm hm.2)]
        exact hins.trans (hsame m hm.1)
  rintro ⟨bm, w⟩ rfl
  unfold send_frame
  simp only [exec_bind, exec_getFst, exec_modifyFst, if_true]
  exact ((hloop ⟨bm.heap.next, frame, origin, orgin_client_id, orgin_msg_id⟩).conseq
    (fun _ h => h) (fun _ _ _ => trivial) fun _ _ h => h) _ fun n _ => rfl

end BusMgr

theorem Driver.gone_of_answerExit {d : Driver} {a : WriteAnswer} {ref : SocketRef}
    (h : d.answerExit a = some (.closeSocketException ref)) :
    (d.kind = .slcan ∨ d.kind = .socketcan) ∧ (a = .zero ∨ a = .error Errno.ENXIO) := by
  unfold answerExit at h
  rcases hk : d.kind <;> rcases a with _ | _ | x <;> rw [hk] at h <;> simp at h ⊢ <;>
    (by_contra hx; simp [hx] at h)

/-! ### The visits -/

theorem client_visit_throws {host : Host} {k : ℕ} {inbound : Inbound} {uptime : ℤ}
    {s t : BusMgr × Server} {e : Exn}
    (hC : LoopStep.Unbroken host (.visit (.client k inbound uptime)) s)
    (h : (EventMgr.recv_msg host uptime k inbound).exec s = (.error e, t)) : e.For (.client k) := by
  have hS := free_rule (X := Exn.For (.client k)) fun e he => he.for _
  have hkept : BusMgr.Kept (fun _ => True) (fun _ _ => True) s.1 s :=
    ⟨fun _ => rfl, fun _ _ _ _ _ _ _ => trivial, id, trivial⟩
  suffices hrule : Triple (fun t => BusMgr.Kept (fun _ => True) (fun _ _ => True) s.1 t ∧ t = s)
      (EventMgr.recv_msg host uptime k inbound)
      (fun _ => BusMgr.Kept (fun _ => True) (fun _ _ => True) s.1)
      (BusMgr.Left (KeptBy (Exn.For (.client k)) fun _ _ => True) s.1) from
    (hrule.error ⟨hkept, rfl⟩ h).inv.2
  refine EventMgr.recv_msg_rule hS.client (fun e he => he) host uptime inbound ?_
  rintro s msg rfl hmsg htype srv c frame id hs - -
  have hkeep := EventMgr.send_frame_rule (free_rule fun _ _ => trivial) (fun h => h)
    (fun _ h => h) hs ⟨k, s.1.heap.next⟩ frame c.get_client_idstring c.socket id
  have hthrow := BusMgr.send_frame_throws (X := Exn.For (.client k))
    trivial
    (fun n b => ((hS.bus n fun _ => []).sent b []).conseq (fun _ _ => trivial)
      (fun _ _ _ => trivial) fun _ _ h => h.2)
    s.1 (fun n d hd hopen hq a ha e he => ?_) frame c.get_client_idstring c.socket id
  · exact (hkeep.and hthrow).conseq (fun _ h => ⟨h, h ▸ rfl⟩) (fun _ _ h => h.1)
      fun _ _ h => ⟨h.1.ports, trivial, h.2⟩
  · refine ((Driver.exit_own he).plain ?_).for _
    rintro rfl
    obtain ⟨hkind, hgone⟩ := Driver.gone_of_answerExit he
    refine absurd ⟨hkind, hopen, hq, ?_⟩
      (hC msg hmsg htype (n, d) (Std.TreeMap.mem_toList_iff_getElem?_eq_some.2 hd))
    rcases hgone with rfl | rfl
    · exact .inl ha
    · exact .inr ha

theorem accept_throws {answer : Except Errno Accepted} {host : Host} {s t : BusMgr × Server}
    {ref : SocketRef} :
    (SelectLoop.on_select host (.accept answer)).exec s ≠ (.error (.closeSocketException ref), t) := by
  intro h
  obtain ⟨bm, srv⟩ := s
  unfold SelectLoop.on_select at h
  rcases answer with e | c
  · cases h
  · dsimp only at h
    unfold Server.on_new_connection SocketMgr.register_socket at h
    rw [exec_onSnd, exec_bind, exec_modify] at h
    rcases hp : c.peer with _ | ⟨address, port⟩
    · rw [hp] at h
      cases h
    · rw [hp] at h
      simp only [exec_bind, exec_get, exec_modify, exec_ite, exec_throw] at h
      split_ifs at h <;> cases h

/-! ### The loop -/

/-- Each driver is under its name. -/
def Named (s : BusMgr × Server) : Prop := ∀ (n : String) (d : Driver), s.1.dev[n]? = some d → d.name = n

theorem Named.ports {s s' : BusMgr × Server} (h : Named s)
    (hp : ∀ n : String, s'.1.dev[n]?.map Driver.port = s.1.dev[n]?.map Driver.port) : Named s' := by
  intro n d hd
  obtain ⟨d₀, hd₀, hd₀'⟩ := BusMgr.exists_port hp hd
  rw [← (Driver.port_eq hd₀').1]
  exact h n d₀ hd₀

theorem Named.set {s s' : BusMgr × Server} (h : Named s) {n : String} {d d' : Driver}
    (hd : s.1.dev[n]? = some d) (hname : d'.name = d.name) (hset : BusMgr.Set n d' s.1 s'.1) :
    Named s' := by
  intro m c hm
  rw [hset.dev] at hm
  split_ifs at hm with hmn
  · obtain rfl := Option.some.inj hm
    rw [hname, ← hmn]
    exact h n d hd
  · exact h m c hm

theorem named_loop (host : Host) (C : LoopStep → BusMgr × Server → Prop) :
    LoopRule host C Named fun _ => True where
  accept h _ _ := h
  visit {s s' v} h _ hv _ hrun := by
    obtain ⟨t, hsel, hcases⟩ := visit_closes hv hrun
    have ht : Named t := h.ports (hsel ▸ on_select_same host hv s).ports
    rcases hcases with rfl | ⟨n, d, -, hd, rfl⟩ | ⟨k, c, -, hc, rfl⟩
    · exact ht
    · exact ht.set hd (by rfl) (t.1.set_setDriver n { d with connected := false })
    · exact ht
  opened {s fd n d} h _ hd _ _ _ _ :=
    h.set hd (by rfl) (s.1.set_setDriver n { d with socket := fd, connected := true })
  failed h _ hd _ _ hset := h.set hd (by rfl) hset
  unregister h _ _ := h
  remove {s n d} h _ _ _ := by
    intro m c hm
    rw [Std.TreeMap.getElem?_erase] at hm
    split_ifs at hm
    exact h m c hm
  flush_client h _ _ _ := h
  stop _ _ _ := trivial

theorem start_named (config : Config) : Named config.start := by
  intro n d hd
  obtain ⟨x, -, rfl, rfl⟩ := config.getElem?_bus.1 hd
  rfl

/-- In every run in which no driver finds its device gone when a client's frame is written to it,
every handler closes the socket that asked for it: that of the loop the socket visited, and that
of a message to the subscribers, in any state, the client it is for. -/
theorem select_loop_catchesOwn (host : Host) (config : Config) (ps : List Pass)
    (h : Meets host (LoopStep.Unbroken host) ps config.start) :
    Meets host (LoopStep.CatchesOwn host) ps config.start ∧
      ∀ k msg, Server.ThrowsOwn k (Server.send k msg) := by
  refine ⟨(named_loop host _).meets (fun {e s} he hC => ?_) ps
    ⟨start_named config, config.start_nonzero, config.start_flushed⟩ h, Server.send_throwsOwn⟩
  rintro v ref t rfl hmem hthrow
  rcases v with a | ⟨n, answer⟩ | ⟨k, inbound, uptime⟩
  · exact absurd hthrow accept_throws
  · exact driver_visit_throws (fun d hd => he.inv n d hd) hthrow
  · exact client_visit_throws hC hthrow

namespace SelectLoop

/-- A client connects and asks for a frame. -/
def asked : List Pass := [one (connect 7), one (sendFrame 0)]

/-- A serial driver whose first write returns 0. -/
def goneConfig : Config where
  drivers := [⟨"can0", .slcan, 5, [.zero]⟩]
  server := 6
  others := {0, 1, 2}
  names := by decide
  fds := by decide
  unused := by decide
  below := by decide

end SelectLoop

/-- The frame is written, and the adapter acknowledges it. -/
theorem select_loop_catchesOwn_acknowledged :
    Meets sendFrameHost (LoopStep.CatchesOwn sendFrameHost) (asked ++ [one acknowledge])
        sampleConfig.start ∧
      ∀ k msg, Server.ThrowsOwn k (Server.send k msg) :=
  select_loop_catchesOwn sendFrameHost sampleConfig (asked ++ [one acknowledge]) (by decide +kernel)

/-- The device is gone when the frame is written: the client is closed for it. -/
theorem not_select_loop_catchesOwn : ¬ ∀ (host : Host) (config : Config) (ps : List Pass),
    Meets host LoopStep.Possible ps config.start →
      Meets host (LoopStep.CatchesOwn host) ps config.start := by
  intro h
  have hmeet := h sendFrameHost goneConfig ([one (connect 7)] ++ [one (sendFrame 0)])
    (by decide +kernel)
  have hok : ((select_loop sendFrameHost [one (connect 7)]).exec goneConfig.start).1 = .ok () := by
    decide +kernel
  have hmem : (sendFrame 0).socket ∈
      ((select_loop sendFrameHost [one (connect 7)]).exec goneConfig.start).2.2.socket_set := by
    decide +kernel
  have hthrow : ((SelectLoop.on_select sendFrameHost (sendFrame 0)).exec
      ((select_loop sendFrameHost [one (connect 7)]).exec goneConfig.start).2).1 =
        .error (.closeSocketException (.driver "can0")) := by decide +kernel
  rcases hrun : (select_loop sendFrameHost [one (connect 7)]).exec goneConfig.start with ⟨r, s⟩
  rw [hrun] at hok hmem hthrow
  obtain rfl : r = .ok () := hok
  have hown := (hmeet.last hrun).1 (sendFrame 0) (.driver "can0") _ rfl hmem (Prod.ext hthrow rfl)
  cases hown

end H9
