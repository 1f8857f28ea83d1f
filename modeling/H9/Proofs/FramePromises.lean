import H9.FramePromises
import H9.Proofs.ComparatorOrder

/-!
# Whose frame it is

Every entry of `frame_promise_list` is that of a request that has its promise, and has that request's
comparator. Nothing was put into the promises in the list and none of them is in it twice, so a
promise is set once. The number in a comparator is the place of the request in the order of the draws,
modulo 32. Two requests that wait at the same time have different places, and the distance is less
than 32 where fewer than 32 numbers were drawn since the first of them began.
-/

namespace H9

open Promise

namespace Node

/-- A step that takes a request with its promise and its number further. -/
inductive Moves (cfg : Timeouts) (now : ℤ) (shared : State H9frame) : CallStep → Phase → Phase → Prop
  | notSent {throws : Bool} : Moves cfg now shared (.send throws) .ready .sent
  | sends : Moves cfg now shared (.send false) .ready (.sending (waitEnd now cfg.send_timeout))
  | returns {until_time : ℤ} : Moves cfg now shared .send_return (.sending until_time) .sent
  | waits : Moves cfg now shared .wait_for .sent (.waiting (waitEnd now cfg.recv_timeout))
  | answered {until_time : ℤ} {frame : H9frame} (h : shared = .value frame) :
    Moves cfg now shared .wake (.waiting until_time) (.done (some frame))
  | timedOut {until_time : ℤ} (h : shared = .pending) (hnow : until_time ≤ now) :
    Moves cfg now shared .wake (.waiting until_time) (.done none)

namespace Phase

/-- The promise has been made. -/
def hasPromise : Phase → Bool
  | called => false
  | numbered => false
  | _ => true

/-- The number of the request has been drawn. -/
def hasNumber : Phase → Bool
  | called => false
  | promised => false
  | _ => true

theorem drawn_cases {r : Request} {p q : Phase} (h : drawn r p = some q) :
    (r = .reset ∧ p = promised ∧ q = ready) ∨ (r ≠ .reset ∧ p = called ∧ q = numbered) := by
  cases r <;> cases p <;> simp [drawn] at h <;> simp [h]

theorem created_cases {r : Request} {p q : Phase} (h : created r p = some q) :
    (r = .reset ∧ p = called ∧ q = promised) ∨ (r ≠ .reset ∧ p = numbered ∧ q = ready) := by
  cases r <;> cases p <;> simp [created] at h <;> simp [h]

end Phase

section Moves

variable {cfg : Timeouts} {now : ℤ} {shared : State H9frame} {a : CallStep} {p q : Phase}

theorem Moves.hasPromise (h : Moves cfg now shared a p q) :
    p.hasPromise = true ∧ q.hasPromise = true := by
  cases h <;> exact ⟨rfl, rfl⟩

theorem Moves.hasNumber (h : Moves cfg now shared a p q) :
    p.hasNumber = true ∧ q.hasNumber = true := by
  cases h <;> exact ⟨rfl, rfl⟩

theorem Moves.not_done (h : Moves cfg now shared a p q) : p.isDone = false := by
  cases h <;> rfl

end Moves

end Node

open Node

namespace NodeRun

variable {cfg : Timeouts} {node_id : BitVec 16} {s t : NodeRun} {i : ℕ} {c : Requester}

theorem getElem?_setCall (h : s.calls[i]? = some c) (c' : Requester) (j : ℕ) :
    (s.setCall i c').calls[j]? = if i = j then some c' else s.calls[j]? :=
  getElem?_set_of_some h c' j

/-- What the thread of a request does once the promise and the number are there. -/
theorem stepCall_moves {a : CallStep} (h : s.stepCall cfg node_id i c a = some t)
    (hseqnum : a ≠ .get_next_seqnum) (hcreate : a ≠ .create_frame_future) :
    (∃ bus phase, Moves cfg s.clock (s.futures i) a c.phase phase ∧
      bus.next_seqnum = s.bus.next_seqnum ∧ t = { s with bus := bus }.setPhase i c phase) ∨
    (a = .wake ∧ s.futures i = .broken ∧ (∃ until_time, c.phase = .waiting until_time) ∧
      t = { s with error := some .broken_promise }) := by
  have hmove {p phase : Phase} (bus : Bus) (hp : c.phase = p)
      (hm : Moves cfg s.clock (s.futures i) a p phase)
      (hbus : bus.next_seqnum = s.bus.next_seqnum)
      (ht : some ({ s with bus := bus }.setPhase i c phase) = some t) :
      ∃ bus phase, Moves cfg s.clock (s.futures i) a c.phase phase ∧
        bus.next_seqnum = s.bus.next_seqnum ∧ t = { s with bus := bus }.setPhase i c phase :=
    ⟨bus, phase, hp ▸ hm, hbus, (Option.some.inj ht).symm⟩
  cases a with
  | get_next_seqnum => exact absurd rfl hseqnum
  | create_frame_future => exact absurd rfl hcreate
  | send throws =>
    simp only [stepCall] at h
    split at h
    · rename_i hready
      cases hframe : c.request.frame node_id c.seqnum with
      | error ret =>
        rw [hframe] at h
        exact .inl (hmove s.bus hready .notSent rfl h)
      | ok frame =>
        rw [hframe] at h
        cases throws with
        | true => exact .inl (hmove (s.bus.send (.ok frame)) hready .notSent rfl h)
        | false => exact .inl (hmove (s.bus.send (.ok frame)) hready .sends rfl h)
    · cases h
  | send_return =>
    simp only [stepCall] at h
    split at h
    · rename_i until_time hphase
      exact .inl (hmove s.bus hphase .returns rfl h)
    · cases h
  | wait_for =>
    simp only [stepCall] at h
    split_ifs at h with hsent
    exact .inl (hmove s.bus hsent .waits rfl h)
  | wake =>
    simp only [stepCall] at h
    split at h
    · rename_i until_time hphase
      cases hshared : s.futures i with
      | value frame =>
        rw [hshared] at h
        exact .inl (hshared ▸ hmove s.bus hphase (.answered hshared) rfl h)
      | broken =>
        rw [hshared] at h
        exact .inr ⟨rfl, rfl, ⟨until_time, hphase⟩, (Option.some.inj h).symm⟩
      | pending =>
        simp only [hshared] at h
        split_ifs at h with hnow
        exact .inl (hshared ▸ hmove s.bus hphase (.timedOut hshared hnow) rfl h)
    · cases h

theorem stepCall_cases {a : CallStep} (h : s.stepCall cfg node_id i c a = some t) :
    (∃ phase, a = .get_next_seqnum ∧ Phase.drawn c.request c.phase = some phase ∧
      t = (s.draw node_id).setCall i { c with
        phase := phase, seqnum := (s.bus.get_next_seqnum node_id).1, draw := s.drawn }) ∨
    (∃ phase, a = .create_frame_future ∧ Phase.created c.request c.phase = some phase ∧
      t = (s.create_frame_future cfg i (c.request.comparator node_id c.seqnum)).setCall i
        { c with phase := phase, promise_time := s.clock }) ∨
    (∃ bus phase, Moves cfg s.clock (s.futures i) a c.phase phase ∧
      bus.next_seqnum = s.bus.next_seqnum ∧ t = { s with bus := bus }.setPhase i c phase) ∨
    (a = .wake ∧ s.futures i = .broken ∧ (∃ until_time, c.phase = .waiting until_time) ∧
      t = { s with error := some .broken_promise }) := by
  by_cases hseqnum : a = .get_next_seqnum
  · subst hseqnum
    obtain ⟨phase, hphase, rfl⟩ := Option.map_eq_some_iff.1 h
    exact .inl ⟨phase, rfl, hphase, rfl⟩
  by_cases hcreate : a = .create_frame_future
  · subst hcreate
    obtain ⟨phase, hphase, rfl⟩ := Option.map_eq_some_iff.1 h
    exact .inr (.inl ⟨phase, rfl, hphase, rfl⟩)
  exact .inr (.inr (stepCall_moves h hseqnum hcreate))

theorem step_cases {e : NodeStep} (h : s.step cfg node_id e = some t) : s.error = none ∧
    ((∃ n, e = .tick n ∧ (∀ c ∈ s.calls, c.phase.Allows (s.clock + n)) ∧
      t = { s with clock := s.clock + n }) ∨
    (∃ request, e = .call request ∧
      t = { s with calls := s.calls ++ [⟨request, .called, 0, s.drawn, 0, 0⟩] }) ∨
    (∃ i a c, e = .thread i a ∧ s.calls[i]? = some c ∧ s.stepCall cfg node_id i c a = some t) ∨
    (e = .get_next_seqnum ∧ t = s.draw node_id) ∨
    (∃ frame now, e = .on_frame_recv frame now ∧ now ≤ s.clock ∧ t = s.recv frame now)) := by
  unfold step at h
  split_ifs at h with herror
  refine ⟨by simpa using herror, ?_⟩
  cases e with
  | tick n =>
    simp only at h
    split_ifs at h with hallows
    exact .inl ⟨n, rfl, hallows, (Option.some.inj h).symm⟩
  | call request => exact .inr (.inl ⟨request, rfl, (Option.some.inj h).symm⟩)
  | thread i a =>
    obtain ⟨c, hc, hstep⟩ := Option.bind_eq_some_iff.1 h
    exact .inr (.inr (.inl ⟨i, a, c, rfl, hc, hstep⟩))
  | get_next_seqnum => exact .inr (.inr (.inr (.inl ⟨rfl, (Option.some.inj h).symm⟩)))
  | on_frame_recv frame now =>
    simp only at h
    split_ifs at h with hnow
    exact .inr (.inr (.inr (.inr ⟨frame, now, rfl, hnow, (Option.some.inj h).symm⟩)))

/-! ### The list and the requests -/

/-- What holds of a request when `drawn` numbers of the node were drawn. -/
structure CallOk (drawn : ℕ) (c : Requester) : Prop where
  started : c.started ≤ drawn
  number : c.phase.hasNumber = true →
    c.started ≤ c.draw ∧ c.draw < drawn ∧ c.seqnum = UInt8.ofNat c.draw &&& 31
  promised : c.phase = .promised → c.request = .reset

structure Inv (cfg : Timeouts) (node_id : BitVec 16) (s : NodeRun) : Prop where
  held : Held s.futures (s.frame_promise_list.map FramePromise.promise)
  entry : ∀ e ∈ s.frame_promise_list, ∃ c, s.calls[e.promise]? = some c ∧
    c.phase.hasPromise = true ∧ e.comparator = c.request.comparator node_id c.seqnum ∧
      e.expiry = c.promise_time + seconds (cfg.recv_timeout + 3)
  early : ∀ i : ℕ, (∀ c, s.calls[i]? = some c → c.phase.hasPromise = false) → s.futures i = .pending
  counter : s.bus.next_seqnum node_id = UInt8.ofNat s.drawn
  call : ∀ (i : ℕ) (c : Requester), s.calls[i]? = some c → CallOk s.drawn c
  distinct : ∀ (i j : ℕ) (c d : Requester), s.calls[i]? = some c → s.calls[j]? = some d →
    c.phase.hasNumber = true → d.phase.hasNumber = true → c.draw = d.draw → i = j
  error : s.error ≠ some .promise_already_satisfied

theorem inv_start : Inv cfg node_id start where
  held := ⟨List.nodup_nil, fun _ h => (by cases h)⟩
  entry := fun _ h => (by cases h)
  early := fun _ _ => rfl
  counter := rfl
  call := fun _ _ h => (by cases h)
  distinct := fun _ _ _ _ h => (by cases h)
  error := fun h => (by cases h)

/-- The next request has no promise yet. -/
theorem Inv.pending_length (h : Inv cfg node_id s) : s.futures s.calls.length = .pending :=
  h.early _ fun _ hc => absurd (List.getElem?_eq_some_iff.1 hc).1 (lt_irrefl _)

/-- A request goes on: it keeps its promise, and a number that it draws is no other's. -/
theorem Inv.setCall (h : Inv cfg node_id s) (hc : s.calls[i]? = some c) {c' : Requester}
    (hkeep : c.phase.hasPromise = true → c'.phase.hasPromise = true ∧
      c'.request.comparator node_id c'.seqnum = c.request.comparator node_id c.seqnum ∧
        c'.promise_time = c.promise_time)
    (hok : CallOk s.drawn c')
    (hnew : ∀ j d, s.calls[j]? = some d → j ≠ i → d.phase.hasNumber = true →
      c'.phase.hasNumber = true → c'.draw ≠ d.draw) :
    Inv cfg node_id (s.setCall i c') where
  held := h.held
  entry := by
    intro e he
    obtain ⟨d, hd, hpromise, hcomparator, hexpiry⟩ := h.entry e he
    rw [getElem?_setCall hc]
    split_ifs with hie
    · subst hie
      obtain rfl := Option.some.inj (hc.symm.trans hd)
      obtain ⟨hpromise', hcomparator', htime⟩ := hkeep hpromise
      exact ⟨c', rfl, hpromise', hcomparator.trans hcomparator'.symm, by rw [htime, hexpiry]⟩
    · exact ⟨d, hd, hpromise, hcomparator, hexpiry⟩
  early := by
    intro j hj
    simp only [getElem?_setCall hc] at hj
    refine h.early j fun d hd => ?_
    by_cases hij : i = j
    · subst hij
      obtain rfl := Option.some.inj (hc.symm.trans hd)
      by_contra hpromise
      have hpromise' := (hkeep (by simpa using hpromise)).1
      rw [hj c' (by simp)] at hpromise'
      cases hpromise'
    · exact hj d (by rw [if_neg hij]; exact hd)
  counter := h.counter
  call := by
    intro j d hd
    rw [getElem?_setCall hc] at hd
    split_ifs at hd with hij
    · exact Option.some.inj hd ▸ hok
    · exact h.call j d hd
  distinct := by
    intro j k d d' hd hd' hnumber hnumber' hdraw
    rw [getElem?_setCall hc] at hd hd'
    split_ifs at hd hd' with hij hik hik
    · exact hij.symm.trans hik
    · obtain rfl := Option.some.inj hd
      exact absurd hdraw (hnew k d' hd' (Ne.symm hik) hnumber' hnumber)
    · obtain rfl := Option.some.inj hd'
      exact absurd hdraw.symm (hnew j d hd (Ne.symm hij) hnumber hnumber')
    · exact h.distinct j k d d' hd hd' hnumber hnumber' hdraw
  error := h.error

theorem Inv.draw (h : Inv cfg node_id s) : Inv cfg node_id (s.draw node_id) where
  held := h.held
  entry := h.entry
  early := h.early
  counter := by
    show Function.update s.bus.next_seqnum node_id (s.bus.next_seqnum node_id + 1) node_id =
      UInt8.ofNat (s.drawn + 1)
    rw [Function.update_self, h.counter, UInt8.ofNat_add]
    rfl
  call := by
    intro i c hc
    obtain ⟨hstarted, hnumber, hpromised⟩ := h.call i c hc
    refine ⟨?_, fun hn => ?_, hpromised⟩
    · show c.started ≤ s.drawn + 1
      omega
    · obtain ⟨hle, hlt, hseqnum⟩ := hnumber hn
      exact ⟨hle, Nat.lt_succ_of_lt hlt, hseqnum⟩
  distinct := h.distinct
  error := h.error

theorem Inv.create (h : Inv cfg node_id s) (hc : s.calls[i]? = some c)
    (hpromise : c.phase.hasPromise = false) {phase : Phase} (hphase : phase.hasPromise = true)
    (hok : CallOk s.drawn { c with phase := phase, promise_time := s.clock })
    (hnumber : phase.hasNumber = c.phase.hasNumber) :
    Inv cfg node_id ((s.create_frame_future cfg i (c.request.comparator node_id c.seqnum)).setCall i
      { c with phase := phase, promise_time := s.clock }) := by
  have hset : Inv cfg node_id (s.setCall i { c with phase := phase, promise_time := s.clock }) := by
    refine h.setCall hc (fun hp => ?_) hok fun j d hd hji hdn hcn hdraw => ?_
    · rw [hpromise] at hp
      cases hp
    · exact hji (h.distinct j i d c hd hc hdn (hnumber ▸ hcn) hdraw.symm)
  have hnot : i ∉ s.frame_promise_list.map FramePromise.promise := by
    intro hi
    obtain ⟨e, he, rfl⟩ := List.mem_map.1 hi
    obtain ⟨d, hd, hdp, -⟩ := h.entry e he
    rw [Option.some.inj (hc.symm.trans hd), hdp] at hpromise
    cases hpromise
  have hpending : s.futures i = .pending := by
    refine h.early i fun d hd => ?_
    rw [← Option.some.inj (hc.symm.trans hd)]
    exact hpromise
  refine { hset with held := ?_, entry := ?_ }
  · show Held s.futures ((s.frame_promise_list ++ [_]).map FramePromise.promise)
    rw [List.map_append]
    exact h.held.concat hpending hnot
  · intro e he
    rcases List.mem_append.1 he with he | he
    · exact hset.entry e he
    · obtain rfl := List.mem_singleton.1 he
      refine ⟨{ c with phase := phase, promise_time := s.clock }, ?_, hphase, rfl, rfl⟩
      show (s.setCall i _).calls[i]? = _
      rw [getElem?_setCall hc, if_pos rfl]

theorem Inv.addCall (h : Inv cfg node_id s) (request : Request) :
    Inv cfg node_id { s with calls := s.calls ++ [⟨request, .called, 0, s.drawn, 0, 0⟩] } := by
  refine ⟨h.held, fun e he => ?_, fun j hj => ?_, h.counter, fun j d hd => ?_,
    fun j k d d' hd hd' hn hn' => ?_, h.error⟩
  · obtain ⟨d, hd, hrest⟩ := h.entry e he
    exact ⟨d, getElem?_concat_of_some hd, hrest⟩
  · exact h.early j fun d hd => hj d (getElem?_concat_of_some hd)
  · rcases getElem?_concat_cases hd with hd | ⟨-, rfl⟩
    · exact h.call j d hd
    · exact ⟨le_rfl, fun hn => (by cases hn), fun hp => (by cases hp)⟩
  · rcases getElem?_concat_cases hd with hd | ⟨-, rfl⟩
    · rcases getElem?_concat_cases hd' with hd' | ⟨-, rfl⟩
      · exact h.distinct j k d d' hd hd' hn hn'
      · cases hn'
    · cases hn

/-- What a frame does: the list is gone through to its end, and each entry gets what is its due. -/
theorem Inv.recv_eq (h : Inv cfg node_id s) (frame : H9frame) (now : ℤ) :
    ∃ futures, s.recv frame now = { s with
        frame_promise_list := s.frame_promise_list.filter fun e => (e.verdict frame now).keeps
        futures := futures } ∧
      (∀ e ∈ s.frame_promise_list, futures e.promise = (e.verdict frame now).state) ∧
        ∀ i ∉ s.frame_promise_list.map FramePromise.promise, futures i = s.futures i := by
  obtain ⟨futures, hsweep, hin, hout⟩ : ∃ futures,
      sweep FramePromise.promise (FramePromise.verdict frame now) s.frame_promise_list s.futures = _ ∧
        _ ∧ _ := sweep_held h.held
  refine ⟨futures, ?_, hin, hout⟩
  unfold recv
  rw [hsweep]

theorem Inv.recv (h : Inv cfg node_id s) (frame : H9frame) (now : ℤ) :
    Inv cfg node_id (s.recv frame now) := by
  obtain ⟨futures, heq, hin, hout⟩ := h.recv_eq frame now
  rw [heq]
  refine ⟨h.held.kept hin, fun e he => h.entry e (List.mem_filter.1 he).1, fun j hj => ?_, h.counter,
    h.call, h.distinct, h.error⟩
  show futures j = .pending
  have hnot : j ∉ s.frame_promise_list.map FramePromise.promise := by
    intro hmem
    obtain ⟨e, he, rfl⟩ := List.mem_map.1 hmem
    obtain ⟨d, hd, hp, -⟩ := h.entry e he
    rw [hj d hd] at hp
    cases hp
  rw [hout j hnot, h.early j hj]

theorem Inv.with_bus (h : Inv cfg node_id s) {bus : Bus} (hbus : bus.next_seqnum = s.bus.next_seqnum) :
    Inv cfg node_id { s with bus := bus } where
  held := h.held
  entry := h.entry
  early := h.early
  counter := by rw [hbus, h.counter]
  call := h.call
  distinct := h.distinct
  error := h.error

theorem Inv.move (h : Inv cfg node_id s) (hc : s.calls[i]? = some c) {a : CallStep} {phase : Phase}
    (hm : Moves cfg s.clock (s.futures i) a c.phase phase) : Inv cfg node_id (s.setPhase i c phase) := by
  have hok := h.call i c hc
  refine h.setCall hc (fun _ => ⟨hm.hasPromise.2, rfl, rfl⟩)
    ⟨hok.started, fun _ => hok.number hm.hasNumber.1, ?_⟩ fun j d hd hji hn _ hdraw => ?_
  · rintro rfl
    exact absurd hm.hasNumber.2 (by decide)
  · exact hji (h.distinct j i d c hd hc hn hm.hasNumber.1 hdraw.symm)

theorem Inv.drawFor (h : Inv cfg node_id s) (hc : s.calls[i]? = some c) {phase : Phase}
    (hp : Phase.drawn c.request c.phase = some phase) :
    Inv cfg node_id ((s.draw node_id).setCall i { c with
      phase := phase, seqnum := (s.bus.get_next_seqnum node_id).1, draw := s.drawn }) := by
  have hok := h.call i c hc
  refine h.draw.setCall hc (fun hpromise => ?_) ⟨Nat.le_succ_of_le hok.started, fun _ =>
    ⟨hok.started, Nat.lt_succ_self _, ?_⟩, fun hpromised => ?_⟩ fun j d hd hji hn _ hdraw => ?_
  · rcases Phase.drawn_cases hp with ⟨hreset, -, rfl⟩ | ⟨-, hcalled, -⟩
    · refine ⟨rfl, ?_, rfl⟩
      simp only [hreset, Request.comparator]
    · rw [hcalled] at hpromise
      cases hpromise
  · show s.bus.next_seqnum node_id &&& 31 = _
    rw [h.counter]
  · rcases Phase.drawn_cases hp with ⟨-, -, rfl⟩ | ⟨-, -, rfl⟩ <;> cases hpromised
  · have hlt := ((h.call j d hd).number hn).2.1
    exact absurd hdraw (Nat.ne_of_gt hlt)

theorem Inv.createFor (h : Inv cfg node_id s) (hc : s.calls[i]? = some c) {phase : Phase}
    (hp : Phase.created c.request c.phase = some phase) :
    Inv cfg node_id ((s.create_frame_future cfg i (c.request.comparator node_id c.seqnum)).setCall i
      { c with phase := phase, promise_time := s.clock }) := by
  have hok := h.call i c hc
  rcases Phase.created_cases hp with ⟨hreset, hphase, rfl⟩ | ⟨-, hphase, rfl⟩
  · exact h.create hc (by rw [hphase]; rfl) rfl ⟨hok.started, fun hn => (by cases hn), fun _ => hreset⟩
      (by rw [hphase]; rfl)
  · exact h.create hc (by rw [hphase]; rfl) rfl
      ⟨hok.started, fun _ => hok.number (by rw [hphase]; rfl), fun hn => (by cases hn)⟩
      (by rw [hphase]; rfl)

theorem inv_step (e : NodeStep) (s t : NodeRun) (h : Inv cfg node_id s)
    (hstep : s.step cfg node_id e = some t) : Inv cfg node_id t := by
  obtain ⟨-, ⟨n, -, -, rfl⟩ | ⟨request, -, rfl⟩ | ⟨i, a, c, -, hc, hcall⟩ | ⟨-, rfl⟩ |
    ⟨frame, now, -, -, rfl⟩⟩ := step_cases hstep
  · exact ⟨h.held, h.entry, h.early, h.counter, h.call, h.distinct, h.error⟩
  · exact h.addCall request
  · obtain ⟨phase, -, hp, rfl⟩ | ⟨phase, -, hp, rfl⟩ | ⟨bus, phase, hm, hbus, rfl⟩ |
      ⟨-, -, -, rfl⟩ := stepCall_cases hcall
    · exact h.drawFor hc hp
    · exact h.createFor hc hp
    · exact (h.with_bus hbus).move hc hm
    · exact { h with error := by simp }
  · exact h.draw
  · exact h.recv frame now

theorem inv_run {as : List NodeStep} (h : Steps.run (step cfg node_id) as start = some s) :
    Inv cfg node_id s :=
  Steps.inv_of_run inv_step inv_start h

end NodeRun

/-! ### The frame of a request -/

namespace Node

/-- The type and the first byte of the frame that a request for a register waits for. -/
def Request.awaited : Request → Option (UInt8 × UInt8)
  | .reset => none
  | .set_raw_reg reg _ _ => some (H9frame.REG_EXTERNALLY_CHANGED, reg)
  | .get_raw_reg reg _ => some (H9frame.REG_VALUE, reg)

/-- The frame is from the node and has the request's type, number and first byte. -/
structure Requester.Answered (node_id : BitVec 16) (c : Requester) (frame : H9frame) : Prop where
  source : frame.source_id.toNat = node_id.toNat
  register : c.request.awaited = some (frame.type, frame.data.get 0)
  first_byte : 1 ≤ frame.dlc
  seqnum : frame.seqnum.toNat = c.seqnum.toNat

/-- A comparator of a request for a register lets no other frame through. -/
theorem Requester.answered_of_eqFrame {node_id : BitVec 16} {c : Requester} {frame : H9frame}
    (hrequest : c.request ≠ .reset)
    (h : (c.request.comparator node_id c.seqnum).eqFrame frame = true) : c.Answered node_id frame := by
  have hanswered {type reg : UInt8} (hawaited : c.request.awaited = some (type, reg))
      (h : ((((H9FrameComparator.new.set_source_id ⟨node_id⟩).set_type type).set_first_data_byte
        reg).set_seqnum c.seqnum).eqFrame frame = true) : c.Answered node_id frame := by
    obtain ⟨hsource, rfl, hseqnum, hdlc, rfl⟩ :=
      H9FrameComparator.eqFrame_request_iff.1 h
    exact ⟨hsource.symm, hawaited, hdlc, hseqnum.symm⟩
  cases hr : c.request with
  | reset => exact absurd hr hrequest
  | set_raw_reg reg nbyte buf =>
    rw [hr] at h
    exact hanswered (by rw [hr]; rfl) h
  | get_raw_reg reg nbyte =>
    rw [hr] at h
    exact hanswered (by rw [hr]; rfl) h

end Node

namespace NodeRun

variable {cfg : Timeouts} {node_id : BitVec 16} {s t : NodeRun}

/-- Of each request that has not stopped waiting: fewer than 32 numbers of the node were drawn since it
began. -/
def Paced (s : NodeRun) : Prop :=
  ∀ c ∈ s.calls, c.phase.isDone = false → s.drawn < c.started + 32

/-- Between `s` and `t` the `i`-th request got the frame. -/
def Fulfils (s t : NodeRun) (frame : H9frame) (i : ℕ) : Prop :=
  s.futures i = .pending ∧ t.futures i = .value frame

/-- A request that is given a frame is one whose comparator lets it through. -/
theorem Inv.entry_of_value (h : Inv cfg node_id s) {frame frame' : H9frame} {now : ℤ} {i : ℕ}
    (hpending : s.futures i = .pending) (hvalue : (s.recv frame now).futures i = .value frame')
    {c : Requester} (hc : s.calls[i]? = some c) : frame' = frame ∧ c.phase.hasPromise = true ∧
      (c.request.comparator node_id c.seqnum).eqFrame frame = true := by
  obtain ⟨futures, heq, hin, hout⟩ := h.recv_eq frame now
  rw [heq] at hvalue
  have hmem : i ∈ s.frame_promise_list.map FramePromise.promise := by
    by_contra hnot
    have hsame : futures i = s.futures i := hout i hnot
    rw [show futures i = .value frame' from hvalue, hpending] at hsame
    cases hsame
  obtain ⟨e, he, rfl⟩ := List.mem_map.1 hmem
  obtain ⟨d, hd, hpromise, hcomparator, -⟩ := h.entry e he
  obtain rfl := Option.some.inj (hc.symm.trans hd)
  have hverdict : (e.verdict frame now).state = .value frame' := (hin e he).symm.trans hvalue
  rw [← hcomparator]
  unfold FramePromise.verdict at hverdict
  split_ifs at hverdict with hframe
  · exact ⟨(State.value.inj hverdict).symm, hpromise, hframe⟩
  · cases hverdict
  · cases hverdict

/-- The places of two requests in the order of the draws are the same, if their numbers are and fewer
than 32 numbers were drawn since each of them began. -/
theorem draw_eq {drawn : ℕ} {c d : Requester} (hc : CallOk drawn c) (hd : CallOk drawn d)
    (hcn : c.phase.hasNumber = true) (hdn : d.phase.hasNumber = true)
    (hcp : drawn < c.started + 32) (hdp : drawn < d.started + 32)
    (hseqnum : c.seqnum.toNat = d.seqnum.toNat) : c.draw = d.draw := by
  have hnumber (k : ℕ) : (UInt8.ofNat k &&& 31).toNat = k % 32 := by
    rw [UInt8.toNat_and, UInt8.toNat_ofNat']
    show k % 2 ^ 8 &&& (2 ^ 5 - 1) = k % 32
    rw [Nat.and_two_pow_sub_one_eq_mod]
    omega
  obtain ⟨hcs, hcd, hcq⟩ := hc.number hcn
  obtain ⟨hds, hdd, hdq⟩ := hd.number hdn
  rw [hcq, hdq, hnumber, hnumber] at hseqnum
  omega

theorem hasNumber_of_register {drawn : ℕ} {c : Requester} (h : CallOk drawn c) (hr : c.request ≠ .reset)
    (hp : c.phase.hasPromise = true) : c.phase.hasNumber = true := by
  cases hphase : c.phase with
  | promised => exact absurd (h.promised hphase) hr
  | called => rw [hphase] at hp; cases hp
  | numbered => rfl
  | ready => rfl
  | sending _ => rfl
  | sent => rfl
  | waiting _ => rfl
  | done _ => rfl

/-- What a promise shares does not change any more once something was put into it. -/
theorem Inv.settled (h : Inv cfg node_id s) {e : NodeStep} (hstep : s.step cfg node_id e = some t)
    {i : ℕ} (hi : s.futures i ≠ .pending) : t.futures i = s.futures i := by
  obtain ⟨-, ⟨n, -, -, rfl⟩ | ⟨request, -, rfl⟩ | ⟨i, a, c, -, hc, hcall⟩ | ⟨-, rfl⟩ |
    ⟨frame, now, -, -, rfl⟩⟩ := step_cases hstep
  · rfl
  · rfl
  · obtain ⟨phase, -, hp, rfl⟩ | ⟨phase, -, hp, rfl⟩ | ⟨bus, phase, hm, hbus, rfl⟩ |
      ⟨-, -, -, rfl⟩ := stepCall_cases hcall <;> rfl
  · rfl
  · obtain ⟨futures, heq, hin, hout⟩ := h.recv_eq frame now
    rw [heq]
    exact hout i fun hmem => hi (h.held.pending i hmem)

/-- In every run of requests of a node: a promise is not set twice, and a frame goes to the requests
whose source, type, number and first byte it has, which is at most one of those that still wait if
fewer than 32 numbers of the node were drawn since each of these began. -/
theorem frame_fulfils_one {as : List NodeStep}
    (hrun : Steps.run (step cfg node_id) as start = some s) :
    s.error ≠ some .promise_already_satisfied ∧
    (∀ e t i, s.step cfg node_id e = some t → s.futures i ≠ .pending →
      t.futures i = s.futures i) ∧
    ∀ frame now t, s.step cfg node_id (.on_frame_recv frame now) = some t →
      (∀ i c, s.calls[i]? = some c → c.request ≠ .reset → Fulfils s t frame i →
        c.Answered node_id frame) ∧
      (s.Paced → ∀ i j c d, s.calls[i]? = some c → s.calls[j]? = some d →
        c.phase.isDone = false → d.phase.isDone = false → c.request ≠ .reset → d.request ≠ .reset →
          Fulfils s t frame i → Fulfils s t frame j → i = j) := by
  have h := inv_run hrun
  refine ⟨h.error, fun e t i hstep => h.settled hstep, fun frame now t hstep => ?_⟩
  obtain ⟨-, ⟨n, he, -⟩ | ⟨request, he, -⟩ | ⟨i, a, c, he, -⟩ | ⟨he, -⟩ |
    ⟨frame, now, he, -, rfl⟩⟩ := step_cases hstep
  · cases he
  · cases he
  · cases he
  · cases he
  cases he
  refine ⟨fun i c hc hr hi => Requester.answered_of_eqFrame hr (h.entry_of_value hi.1 hi.2 hc).2.2, ?_⟩
  intro hpaced i j c d hc hd hcw hdw hcr hdr hi hj
  obtain ⟨-, hcp, hcf⟩ := h.entry_of_value hi.1 hi.2 hc
  obtain ⟨-, hdp, hdf⟩ := h.entry_of_value hj.1 hj.2 hd
  have hcn := hasNumber_of_register (h.call i c hc) hcr hcp
  have hdn := hasNumber_of_register (h.call j d hd) hdr hdp
  have hseqnum : c.seqnum.toNat = d.seqnum.toNat :=
    (Requester.answered_of_eqFrame hcr hcf).seqnum.symm.trans (Requester.answered_of_eqFrame hdr hdf).seqnum
  exact h.distinct i j c d hc hd hcn hdn <| draw_eq (h.call i c hc) (h.call j d hd) hcn hdn
    (hpaced c (List.mem_of_getElem? hc) hcw) (hpaced d (List.mem_of_getElem? hd) hdw) hseqnum

/-- Two threads ask a node for its register 10, the second one draws its number first. -/
def twoReads : List NodeStep :=
  [.call (.get_raw_reg 10 2), .call (.get_raw_reg 10 2), .thread 1 .get_next_seqnum,
    .thread 0 .get_next_seqnum, .thread 0 .create_frame_future, .thread 1 .create_frame_future]

def registerValue : H9frame := { H9frame.new with
  type := H9frame.REG_VALUE, seqnum := 1, source_id := 32, dlc := 3, data := #v[10, 0, 7, 0, 0, 0, 0, 0] }

theorem frame_fulfils_one_first : ∃ s t, Steps.run (step ⟨3, 3⟩ 32) twoReads start = some s ∧
    s.step ⟨3, 3⟩ 32 (.on_frame_recv registerValue 0) = some t ∧
      Fulfils s t registerValue 0 ∧ ¬ Fulfils s t registerValue 1 := by
  refine ⟨_, _, rfl, rfl, ⟨rfl, rfl⟩, fun hother => ?_⟩
  have hpaced : ∀ c : Requester, c ∈ [(⟨.get_raw_reg 10 2, .ready, 1, 0, 1, 0⟩ : Requester),
      ⟨.get_raw_reg 10 2, .ready, 0, 0, 0, 0⟩] → c.phase.isDone = false → 2 < c.started + 32 := by
    decide
  have hrun : Steps.run (step ⟨3, 3⟩ 32) twoReads start = some _ := rfl
  have hone := ((frame_fulfils_one hrun).2.2 registerValue 0 _ rfl).2 hpaced 0 1 _ _ rfl rfl rfl rfl
    (by decide) (by decide) ⟨rfl, rfl⟩ hother
  exact absurd hone (by decide)

end NodeRun

end H9
