import H9.Proofs.LoopRules
import H9.Proofs.SlcanRun

/-!
# What a serial driver has in flight

A frame goes to the adapter when it finds the queue empty, or when the adapter acknowledges the
one before. So a connected driver with frames has one with its adapter (`Carried`), as long as every
frame written gets an acknowledgement. An error that the adapter reports, a write that fails
and a driver that is opened again with frames left start no transmission: from then on the queue
only grows.
-/

namespace H9

open Prog Steps

variable {W : Type} (cb : Callbacks W)

namespace Driver

@[simp] theorem handed_wroteTo (d : Driver) (b : BusFrame) : (d.wroteTo b).handed = d.handed + 1 := by
  simp [handed, wroteTo]

@[simp] theorem handed_reportedOn (d : Driver) (b : BusFrame) :
    (d.reportedOn b).handed = d.handed := by
  simp [handed, reportedOn]

@[simp] theorem handed_queued (d : Driver) (b : BusFrame) : (d.queued b).handed = d.handed := rfl

@[simp] theorem handed_on_close (d : Driver) : d.on_close.handed = d.handed := rfl

/-- A write to the adapter succeeds, or fails as the kernel's answer says. -/
theorem write_serial {d : Driver} (hk : d.kind = .slcan) (b : BusFrame) (w : W) :
    (write b).exec (d, w) = (.ok (), (d.wroteTo b, w)) ∨
      ∃ e, (write b).exec (d, w) = (.error e, ({ d with writes := d.writes.tail }, w)) ∧
        ∀ ref, e = .closeSocketException ref →
          d.writes.head? = some .zero ∨ d.writes.head? = some (.error Errno.ENXIO) := by
  unfold write
  simp only [exec_bind, exec_getFst, hk]
  rcases hw : d.writes.head? with _ | _ | _ | e
  · exact .inl (by simp)
  · exact .inl (by simp)
  · exact .inr ⟨.closeSocketException (.driver d.name), by simp [hk], fun _ _ => .inl rfl⟩
  · by_cases he : e = Errno.ENXIO
    · exact .inr ⟨.closeSocketException (.driver d.name), by simp [hk, he],
        fun _ _ => .inr (by rw [he])⟩
    · exact .inr ⟨.system_error e, by simp [hk, he], fun _ h => by cases h⟩

theorem write_gone {d : Driver} (hk : d.kind = .slcan) (h : d.writes.head? = some .zero ∨
    d.writes.head? = some (.error Errno.ENXIO)) (b : BusFrame) (w : W) :
    (write b).exec (d, w) = (.error (.closeSocketException (.driver d.name)),
      ({ d with writes := d.writes.tail }, w)) := by
  unfold write
  rcases h with h | h <;> simp [hk, h]

/-- The driver after a frame was taken from its queue: nothing was written, and if the call
returned nothing is left, or the next frame was. -/
theorem on_frame_send_serial {d : Driver} (hk : d.kind = .slcan) (hl : d.last_send = none)
    {top : BusFrame} {rest : List BusFrame} (hq : d.send_queue = top :: rest) (n : ℕ) (w : W) :
    ∃ r d' w', (on_frame_send cb (n + 1)).exec (d, w) = (r, (d', w')) ∧ d'.kind = .slcan ∧
      (d'.last_send = none ∧ d'.handed = d.handed ∧ (r = .ok () → d'.send_queue = []) ∨
        d'.last_send.isSome ∧ d'.handed = d.handed + 1 ∧ d'.send_queue ≠ [] ∧ r = .ok () ∨
        d'.send_queue ≠ [] ∧ r ≠ .ok ()) := by
  unfold on_frame_send
  simp only [exec_bind, exec_getFst, hq, exec_modifyFst, exec_onSnd]
  rcases hcb : (cb.send_frame top).exec w with ⟨e | ⟨⟩, w'⟩
  · exact ⟨_, _, _, rfl, hk, .inl ⟨hl, handed_reportedOn d top, fun h => by cases h⟩⟩
  dsimp only
  rcases hp : (d.reportedOn top).send_queue with _ | ⟨next, rest'⟩
  · exact ⟨_, _, _, rfl, hk, .inl ⟨hl, handed_reportedOn d top, fun _ => hp⟩⟩
  have hne : (d.reportedOn top).send_queue ≠ [] := by
    rw [hp]
    exact List.cons_ne_nil _ _
  have hk₁ : (d.reportedOn top).kind = .slcan := hk
  dsimp only
  rcases write_serial hk₁ next w' with hw | ⟨e, hw, -⟩
  · refine ⟨.ok (), (d.reportedOn top).wroteTo next, w', ?_, hk, .inr (.inl ⟨rfl, by simp, hne, rfl⟩)⟩
    simp [hw, hk]
  · refine ⟨.error e, { d.reportedOn top with writes := (d.reportedOn top).writes.tail }, w',
      ?_, hk, .inr (.inr ⟨hne, by simp⟩)⟩
    simp [hw]

end Driver

namespace SerialRun

/-- An empty queue has no frame on the line, and one with frames one of them. -/
structure Carried (s : SerialRun W) : Prop where
  kind : s.state.1.kind = .slcan
  idle : s.state.1.send_queue = [] → s.state.1.last_send = none
  empty : s.state.1.connected = true → s.state.1.send_queue = [] → s.outstanding = 0
  flight : s.state.1.connected = true → s.state.1.send_queue ≠ [] →
    s.state.1.last_send.isSome ∧ s.outstanding = 1

theorem Carried.inFlight {s : SerialRun W} (h : s.Carried) : s.InFlight :=
  fun hc hq => (h.flight hc hq).2

theorem carried_start (name : String) (fd : ℕ) (writes : List WriteAnswer) (w : W) :
    (start name fd writes w).Carried where
  kind := rfl
  idle _ := rfl
  empty _ _ := rfl
  flight _ h := absurd rfl h

/-- A driver that was closed needs nothing but that an empty queue has no frame on the line. -/
theorem carried_closed {s : SerialRun W} {d : Driver} {w : W} (n : ℕ) (hk : d.kind = .slcan)
    (hidle : d.send_queue = [] → d.last_send = none) : (s.after n (d.on_close, w)).Carried where
  kind := hk
  idle := hidle
  empty h := by cases h
  flight h := by cases h

theorem send_frame_exec {d : Driver} (hk : d.kind = .slcan) (b : BusFrame) (w : W) :
    (Driver.send_frame cb b).exec (d, w) =
      if d.socket = 0 then (.ok (), (d, w))
      else if d.send_queue = [] then (Driver.write b).exec (d.queued b, w)
      else (.ok (), (d.queued b, w)) := by
  unfold Driver.send_frame Driver.send_data
  rw [exec_bind, exec_getFst]
  dsimp only
  split_ifs with hs hq
  · simp
  · rcases Driver.write_serial (d := d.queued b) hk b w with hw | ⟨e, hw, -⟩
    · simp [Driver.queued_of_nil hq, hw, hk]
    · simp [Driver.queued_of_nil hq, hw]
  · simp

/-- What a submitted frame leads to, whoever is closed for it. -/
theorem send_cases {s t : SerialRun W} {b : BusFrame} (h : s.step cb (.send_frame b) = some t) :
    ∃ r u, (Driver.send_frame cb b).exec s.state = (r, u) ∧ t = s.after 0 u ∧
      (r = .ok () ∨ ∃ ref, r = .error (.closeSocketException ref)) := by
  unfold step at h
  dsimp only at h
  split at h
  · rename_i u he
    exact ⟨_, u, he, (Option.some.inj h).symm, .inl rfl⟩
  · rename_i ref u he
    exact ⟨_, u, he, (Option.some.inj h).symm, .inr ⟨ref, rfl⟩⟩
  · cases h

/-- What a line leads to: the driver goes on, or is closed. -/
theorem receive_cases {s t : SerialRun W} {n : ℕ} {response : List Char}
    (h : s.receive cb n response = some t) : s.state.1.connected = true ∧
      ∃ r u, (Driver.parse_response cb response).exec s.state = (r, u) ∧
        (r = .ok () ∧ t = s.after n u ∨ r ≠ .ok () ∧ t = s.after n (u.1.on_close, u.2)) := by
  unfold receive at h
  split_ifs at h with hc
  refine ⟨hc, ?_⟩
  split at h
  · rename_i u he
    exact ⟨_, u, he, .inl ⟨rfl, (Option.some.inj h).symm⟩⟩
  · rename_i ref u he
    exact ⟨_, u, he, .inr ⟨by simp, (Option.some.inj h).symm⟩⟩
  · cases h

theorem carried_send {s t : SerialRun W} (h : s.Carried) {b : BusFrame}
    (hC : Sound (.send_frame b) s) (hrun : s.step cb (.send_frame b) = some t) : t.Carried := by
  obtain ⟨r, u, he, rfl, hr⟩ := send_cases cb hrun
  obtain ⟨⟨d, w⟩, outstanding⟩ := s
  obtain ⟨hk, hidle, hempty, hflight⟩ := h
  dsimp only at hk hidle hempty hflight he
  rw [send_frame_exec cb hk] at he
  by_cases hs : d.socket = 0
  · rw [if_pos hs] at he
    obtain ⟨rfl, rfl⟩ := Prod.mk.inj he
    exact ⟨hk, hidle, fun hc hq => by simp [after, hempty hc hq],
      fun hc hq => by simp [after, hflight hc hq]⟩
  rw [if_neg hs] at he
  have hne : (d.queued b).send_queue ≠ [] := Heap.push_ne_nil BusFrameLess d.send_queue b
  by_cases hq : d.send_queue = []
  swap
  · rw [if_neg hq] at he
    obtain ⟨rfl, rfl⟩ := Prod.mk.inj he
    exact ⟨hk, fun h => absurd h hne, fun _ h => absurd h hne,
      fun hc _ => ⟨(hflight hc hq).1, by simp [after, (hflight hc hq).2]⟩⟩
  rw [if_pos hq] at he
  rcases Driver.write_serial (d := d.queued b) hk b w with hw | ⟨e, hw, hgone⟩ <;> rw [hw] at he
  · obtain ⟨rfl, rfl⟩ := Prod.mk.inj he
    refine ⟨hk, fun h => absurd h hne, fun _ h => absurd h hne, fun hc _ => ⟨rfl, ?_⟩⟩
    simp [after, hempty hc hq]
  · obtain ⟨rfl, rfl⟩ := Prod.mk.inj he
    refine ⟨hk, fun h => absurd h hne, fun _ h => absurd h hne, fun hc _ => ?_⟩
    obtain ⟨hzero, hnxio⟩ := hC hc hs hq
    rcases hr with hr | ⟨ref, hr⟩
    · cases hr
    rcases hgone ref (Except.error.inj hr) with hw | hw
    · exact absurd hw hzero
    · exact absurd hw hnxio

theorem carried_cr {s t : SerialRun W} (h : s.Carried) (hrun : s.step cb .cr = some t) :
    t.Carried := by
  obtain ⟨hc, r, u, he, ht⟩ := receive_cases cb hrun
  obtain ⟨⟨d, w⟩, outstanding⟩ := s
  obtain ⟨hk, hidle, hempty, hflight⟩ := h
  dsimp only at hk hidle hempty hflight hc he
  have hexec : (Driver.parse_response cb ['\r']).exec (d, w) =
      if d.last_send.isSome then
        (Driver.on_frame_send cb d.send_queue.length).exec ({ d with last_send := none }, w)
      else (.ok (), (d, w)) := by
    unfold Driver.parse_response
    by_cases hl : d.last_send.isSome <;> simp [hl]
  rw [hexec] at he
  by_cases hl : d.last_send.isSome
  swap
  · have hq : d.send_queue = [] := by
      by_contra hq
      exact hl (hflight hc hq).1
    rw [if_neg hl] at he
    obtain ⟨rfl, rfl⟩ := Prod.mk.inj he
    obtain ⟨-, rfl⟩ := ht.resolve_right fun h => h.1 rfl
    exact ⟨hk, hidle, fun _ _ => by simp [after, hempty hc hq], fun _ h => absurd hq h⟩
  rw [if_pos hl] at he
  obtain ⟨top, rest, hq⟩ : ∃ top rest, d.send_queue = top :: rest := by
    refine List.exists_cons_of_ne_nil fun hq => ?_
    rw [hidle hq] at hl
    cases hl
  have hone := (hflight hc (by simp [hq])).2
  obtain ⟨r', d', w', he', hk', hcases⟩ := Driver.on_frame_send_serial cb
    (d := { d with last_send := none }) hk rfl hq rest.length w
  rw [show d.send_queue.length = rest.length + 1 by rw [hq, List.length_cons], he'] at he
  obtain ⟨rfl, rfl⟩ := Prod.mk.inj he
  have hhanded : ({ d with last_send := none } : Driver).handed = d.handed := rfl
  rcases ht with ⟨rfl, rfl⟩ | ⟨-, rfl⟩
  · rcases hcases with ⟨hl', hh, hq'⟩ | ⟨hl', hh, hne, -⟩ | ⟨-, hr⟩
    · refine ⟨hk', fun _ => hl', fun _ _ => ?_, fun _ h => absurd (hq' rfl) h⟩
      simp [after, hh, hhanded, hone]
    · refine ⟨hk', fun h => absurd h hne, fun _ h => absurd h hne, fun _ _ => ⟨hl', ?_⟩⟩
      simp [after, hh, hhanded, hone]
    · exact absurd rfl hr
  · refine carried_closed 1 hk' fun hq' => ?_
    rcases hcases with ⟨hl', -⟩ | ⟨-, -, hne, -⟩ | ⟨hne, -⟩
    · exact hl'
    · exact absurd hq' hne
    · exact absurd hq' hne

/-- The queue and the line are the same. -/
structure SameLine (d d' : Driver) : Prop where
  kind : d'.kind = d.kind
  connected : d'.connected = d.connected
  send_queue : d'.send_queue = d.send_queue
  last_send : d'.last_send = d.last_send
  handed : d'.handed = d.handed

/-- What is neither an acknowledgement nor a reply to a frame that is with the adapter. -/
theorem carried_receive {s t : SerialRun W} (h : s.Carried) {n : ℕ} {response : List Char}
    (hexec : SameLine s.state.1 ((Driver.parse_response cb response).exec s.state).2.1)
    (hn : n = 0 ∨ s.state.1.send_queue = []) (hrun : s.receive cb n response = some t) :
    t.Carried := by
  obtain ⟨hk, hidle, hempty, hflight⟩ := h
  obtain ⟨hc, r, ⟨d', w'⟩, he, ht⟩ := receive_cases cb hrun
  rw [he] at hexec
  obtain ⟨hk', hc', hq', hl', hh'⟩ := hexec
  dsimp only at hk' hc' hq' hl' hh'
  have hidle' : d'.send_queue = [] → d'.last_send = none := by
    rw [hq', hl']
    exact hidle
  rcases ht with ⟨-, rfl⟩ | ⟨-, rfl⟩
  · refine ⟨hk'.trans hk, hidle', fun _ hq => ?_, fun _ hq => ?_⟩
    · have hzero := hempty hc (hq' ▸ hq)
      simp [after, hh', hzero]
    · have hq : s.state.1.send_queue ≠ [] := hq' ▸ hq
      obtain ⟨hl, hone⟩ := hflight hc hq
      refine ⟨hl' ▸ hl, ?_⟩
      simp [after, hh', hn.resolve_right hq, hone]
  · exact carried_closed n (hk'.trans hk) hidle'

theorem parse_line (text : List Char) (s : Driver × W) :
    SameLine s.1 ((Driver.parse_response cb ('T' :: text)).exec s).2.1 := by
  obtain ⟨d, w⟩ := s
  have hsame : SameLine d d := ⟨rfl, rfl, rfl, rfl, rfl⟩
  rw [show Driver.parse_response cb ('T' :: text) =
    if 10 ≤ ('T' :: text).length then _ else pure () from rfl, exec_ite]
  split_ifs
  · rcases hp : Slcan.parse_slcan_msg ('T' :: text) with e | frame
    · exact hsame
    · unfold Driver.on_frame_recv
      rw [exec_bind, exec_modifyFst]
      dsimp only
      rw [exec_onSnd]
      exact ⟨rfl, rfl, rfl, rfl, rfl⟩
  · exact hsame

theorem carried_step (e : SerialStep) (s t : SerialRun W) (h : s.Carried) (hC : Sound e s)
    (hrun : s.step cb e = some t) : t.Carried := by
  rcases e with b | _ | _ | text | _ | fd
  · exact carried_send cb h hC hrun
  · exact carried_cr cb h hrun
  · have hbel : s.receive cb 1 ['\x07'] = some t := hrun
    have hc := (receive_cases cb hbel).1
    have hsame : SameLine s.state.1 ((Driver.parse_response cb ['\x07']).exec s.state).2.1 :=
      ⟨rfl, rfl, rfl, rfl, rfl⟩
    exact carried_receive cb h hsame (.inr (hC hc)) hbel
  · exact carried_receive cb h (parse_line cb text s.state) (.inl rfl) hrun
  · obtain rfl := Option.some.inj hrun
    have hc : s.state.1.on_close.connected ≠ true := Bool.false_ne_true
    exact ⟨h.kind, h.idle, fun h => absurd h hc, fun h => absurd h hc⟩
  · unfold step at hrun
    dsimp only at hrun
    split_ifs at hrun with hc
    obtain rfl := Option.some.inj hrun
    exact ⟨h.kind, h.idle, fun _ _ => rfl, fun _ hq => absurd (hC hc.1 hc.2) hq⟩

/-- A step that is not sound leaves the driver with frames of which none is in flight. -/
theorem stuck_step (e : SerialStep) (s : SerialRun W) (h : s.Carried) (hC : ¬ Sound e s) :
    ∃ t, s.step cb e = some t ∧ ¬ t.InFlight := by
  obtain ⟨⟨d, w⟩, outstanding⟩ := s
  obtain ⟨hk, hidle, hempty, hflight⟩ := h
  dsimp only at hk hidle hempty hflight
  rcases e with b | _ | _ | text | _ | fd
  · simp only [Sound, Classical.not_imp, not_and_or, not_not] at hC
    obtain ⟨hc, hs, hq, hw⟩ := hC
    have hgone := Driver.write_gone (d := d.queued b) hk hw b w
    have hstep : step cb ⟨(d, w), outstanding⟩ (.send_frame b) =
        some (after ⟨(d, w), outstanding⟩ 0 ({ d.queued b with writes := d.writes.tail }, w)) := by
      simp only [step, send_frame_exec cb hk, if_neg hs, if_pos hq, hgone]
      rfl
    refine ⟨_, hstep, fun h => ?_⟩
    have hone : outstanding + (d.handed - d.handed) = 1 :=
      h hc (Heap.push_ne_nil BusFrameLess d.send_queue b)
    have hzero := hempty hc hq
    omega
  · exact absurd trivial hC
  · simp only [Sound, Classical.not_imp] at hC
    obtain ⟨hc, hq⟩ := hC
    have hstep : step cb ⟨(d, w), outstanding⟩ .bel =
        some (after ⟨(d, w), outstanding⟩ 1 (d, w)) := if_pos hc
    refine ⟨_, hstep, fun h => ?_⟩
    have hone : outstanding - 1 + (d.handed - d.handed) = 1 := h hc hq
    have hflying := (hflight hc hq).2
    omega
  · exact absurd trivial hC
  · exact absurd trivial hC
  · simp only [Sound, Classical.not_imp] at hC
    obtain ⟨hc, hr, hq⟩ := hC
    refine ⟨_, if_pos ⟨hc, hr⟩, fun h => ?_⟩
    cases h rfl hq

/-! ### On the bus -/

theorem on_close_dev {n : String} {s s' : BusMgr × Server} {d : Driver}
    (hd : s.1.dev[n]? = some d) (h : (BusMgr.on_close n).exec s = (.ok (), s')) :
    s'.1.dev[n]? = some d.on_close := by
  obtain ⟨d', hd', rfl⟩ := on_close_driver h
  obtain rfl := Option.some.inj (hd.symm.trans hd')
  exact ((s.1.set_setDriver n _).dev n).trans (if_pos rfl)

theorem reopen_dev {n : String} {fd : ℕ} {s s' : BusMgr × Server} {d : Driver}
    (hd : s.1.dev[n]? = some d) (hc : d.connected = false ∧ d.retry_auto_connect ≠ 0)
    (h : (BusMgr.reopen n (.opened fd)).exec s = (.ok (), s')) :
    s'.1.dev[n]? = some (d.opened fd) := by
  obtain ⟨bm, srv⟩ := s
  unfold BusMgr.reopen SocketMgr.register_socket at h
  rw [exec_bind, exec_getFst] at h
  dsimp only at h
  rw [show bm.dev[n]? = some d from hd] at h
  simp only [exec_ite, if_pos hc, exec_bind, exec_modifyFst, exec_onSnd, exec_modify,
    exec_throw] at h
  by_cases h0 : fd = 0
  · rw [if_pos h0] at h
    cases h
  rw [if_neg h0] at h
  by_cases hbig : FD_SETSIZE ≤ fd
  · rw [if_pos hbig] at h
    cases h
  · rw [if_neg hbig] at h
    obtain rfl := (Prod.mk.inj h).2
    exact ((bm.set_setDriver n _).dev n).trans (if_pos rfl)

/-! ### The runs -/

/-- In a run of a serial driver a queue with frames always has one in flight if and only if every
step is sound. -/
theorem always_inFlight_iff (name : String) (fd : ℕ) (writes : List WriteAnswer) (w : W)
    (es : List SerialStep) :
    Always (step cb) InFlight es (start name fd writes w) ↔
      Meet (step cb) Sound es (start name fd writes w) :=
  always_iff_meet (fun _ h => h.inFlight) (carried_step cb) (stuck_step cb)
    (carried_start name fd writes w)

instance (s : SerialRun W) : Decidable s.InFlight :=
  inferInstanceAs (Decidable (s.state.1.connected = true → s.state.1.send_queue ≠ [] →
    s.outstanding = 1))

/-- The adapter reports an error for the only frame, which then stays where it is. -/
theorem not_always_inFlight : ¬ ∀ (W : Type) (cb : Callbacks W) (name : String) (fd : ℕ)
    (writes : List WriteAnswer) (w : W) (es : List SerialStep),
      Always (step cb) InFlight es (start name fd writes w) := by
  intro h
  have hbel := h Unit SlcanRun.quiet "can0" 5 [] () [.send_frame (SlcanRun.sample .LOW), .bel]
  revert hbel
  decide +kernel

end SerialRun

end H9
