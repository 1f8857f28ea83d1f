import H9.Proofs.FramePromises

/-!
# When a promise expires

A promise expires `recv_timeout + 3` seconds after it is made, and then the next frame of the node
throws it away. A request first waits for `h9bus`, for at most `send_timeout`, and then for the node,
for at most `recv_timeout`. So a request that waits for the node within 3 seconds of its promise is
through when the promise expires, and where time passes in the two waits only this is so for every
timing of the frames if and only if `send_timeout` is at most 3.
-/

namespace H9

open Promise Node

namespace Timeouts

/-- How many seconds a request may have its promise for before it waits for the node. -/
def slack (cfg : Timeouts) : ℤ := cfg.recv_timeout + 3 - cfg.recv_timeout.toNat

/-- The two waits are over when the promise expires. A wait of a negative time takes no time. -/
def Fits (cfg : Timeouts) : Prop :=
  (cfg.send_timeout.toNat : ℤ) + cfg.recv_timeout.toNat ≤ cfg.recv_timeout + 3

end Timeouts

namespace Node.Phase

/-- The promise is there, and the wait for the node has not begun. -/
def isStarting : Phase → Bool
  | promised => true
  | ready => true
  | sending _ => true
  | sent => true
  | _ => false

/-- The promise is there, and the thread is in neither of the two waits. -/
def isBusy : Phase → Bool
  | promised => true
  | ready => true
  | sent => true
  | _ => false

end Node.Phase

namespace NodeRun

/-- Time passes only while every request that has its promise is in one of the two waits. -/
def Prompt : NodeStep → NodeRun → Prop
  | .tick _, s => ∀ c ∈ s.calls, c.phase.isBusy = false
  | _, _ => True

/-- No request has its promise for longer than `slack` before it waits for the node. -/
def InTime (cfg : Timeouts) : NodeStep → NodeRun → Prop
  | .tick n, s => ∀ c ∈ s.calls, c.phase.isStarting = true →
    s.clock + n - c.promise_time ≤ seconds cfg.slack
  | .thread _ .create_frame_future, _ => 0 ≤ cfg.slack
  | _, _ => True

/-- No promise was thrown away of a request that has not stopped waiting, and no `future::get` threw. -/
structure Spared (s : NodeRun) : Prop where
  waiting : ∀ (i : ℕ) (c : Requester), s.calls[i]? = some c → c.phase.isDone = false → s.futures i ≠ .broken
  error : s.error ≠ some .broken_promise

variable {cfg : Timeouts} {node_id : BitVec 16} {s t : NodeRun} {e : NodeStep}

/-! ### Clocks of the requests -/

theorem forall_setCall {P : Requester → Prop} (h : ∀ c ∈ s.calls, P c) (i : ℕ) {c' : Requester} (hc' : P c') :
    ∀ c ∈ (s.setCall i c').calls, P c := by
  intro c hc
  rcases List.mem_or_eq_of_mem_set hc with hc | rfl
  · exact h c hc
  · exact hc'

/-- What is kept of the clock and each request's promise time and phase. -/
theorem timed_step {Q : ℤ → ℤ → Phase → Prop} (hstep : s.step cfg node_id e = some t)
    (h : ∀ c ∈ s.calls, Q s.clock c.promise_time c.phase)
    (htick : ∀ n, e = .tick n → ∀ c ∈ s.calls, c.phase.Allows (s.clock + n) →
      Q s.clock c.promise_time c.phase → Q (s.clock + n) c.promise_time c.phase)
    (hcalled : Q s.clock 0 .called)
    (hdrawn : ∀ r p q x, Phase.drawn r p = some q → Q s.clock x p → Q s.clock x q)
    (hcreated : ∀ i r p q, e = .thread i .create_frame_future → Phase.created r p = some q →
      Q s.clock s.clock q)
    (hmoves : ∀ a shared p q x, Moves cfg s.clock shared a p q → Q s.clock x p → Q s.clock x q) :
    ∀ c ∈ t.calls, Q t.clock c.promise_time c.phase := by
  obtain ⟨-, ⟨n, he, hallows, rfl⟩ | ⟨request, -, rfl⟩ | ⟨i, a, c, he, hc, hcall⟩ | ⟨-, rfl⟩ |
    ⟨frame, now, -, -, rfl⟩⟩ := step_cases hstep
  · exact fun c hc => htick n he c hc (hallows c hc) (h c hc)
  · intro c hc
    rcases List.mem_append.1 hc with hc | hc
    · exact h c hc
    · rw [List.mem_singleton.1 hc]
      exact hcalled
  · have hold := h c (List.mem_of_getElem? hc)
    obtain ⟨phase, -, hp, rfl⟩ | ⟨phase, rfl, hp, rfl⟩ | ⟨bus, phase, hm, -, rfl⟩ |
      ⟨-, -, -, rfl⟩ := stepCall_cases hcall
    · exact forall_setCall (s := s.draw node_id) h i (hdrawn _ _ _ _ hp hold)
    · exact forall_setCall (s := s.create_frame_future _ _ _) h i (hcreated i _ _ _ he hp)
    · exact forall_setCall (s := { s with bus := bus }) h i (hmoves a _ _ _ _ hm hold)
    · exact h
  · exact h
  · unfold recv
    split <;> exact h

/-- A request that has not stopped waiting has a promise that has not expired. -/
def Timely (cfg : Timeouts) (now promise_time : ℤ) : Phase → Prop
  | .waiting until_time => now ≤ until_time ∧ until_time - promise_time ≤ seconds (cfg.recv_timeout + 3)
  | phase => phase.isStarting = true → now - promise_time ≤ seconds cfg.slack

theorem timely_step (hC : InTime cfg e s) (hstep : s.step cfg node_id e = some t)
    (h : ∀ c ∈ s.calls, Timely cfg s.clock c.promise_time c.phase) :
    ∀ c ∈ t.calls, Timely cfg t.clock c.promise_time c.phase := by
  refine timed_step hstep h ?_ ?_ ?_ ?_ ?_
  · rintro n rfl c hc hallows hold
    have hstart := hC c hc
    cases hp : c.phase with
    | waiting until_time =>
      rw [hp] at hallows hold
      exact ⟨hallows, hold.2⟩
    | _ =>
      rw [hp] at hstart
      exact hstart
  · exact fun hs => (by cases hs)
  · intro r p q x hp hold
    rcases Phase.drawn_cases hp with ⟨-, rfl, rfl⟩ | ⟨-, rfl, rfl⟩
    · exact hold
    · exact fun hs => (by cases hs)
  · rintro i r p q rfl hp
    have hslack : 0 ≤ cfg.slack := hC
    rcases Phase.created_cases hp with ⟨-, -, rfl⟩ | ⟨-, -, rfl⟩ <;>
    · intro _
      unfold seconds
      omega
  · intro a shared p q x hm hold
    cases hm with
    | notSent => exact hold
    | sends => exact hold
    | returns => exact hold
    | waits =>
      have hnow := hold rfl
      simp only [Timely, waitEnd, Timeouts.slack, seconds] at hnow ⊢
      omega
    | answered => exact fun hs => (by cases hs)
    | timedOut => exact fun hs => (by cases hs)

/-! ### No promise is thrown away -/

/-- A promise in the list belongs to a request that is done, or has not expired. -/
theorem Inv.not_expired (h : Inv cfg node_id s)
    (htimely : ∀ c ∈ s.calls, Timely cfg s.clock c.promise_time c.phase) {e : FramePromise}
    (he : e ∈ s.frame_promise_list) {c : Requester} (hc : s.calls[e.promise]? = some c)
    (hw : c.phase.isDone = false) : s.clock ≤ e.expiry := by
  obtain ⟨d, hd, hpromise, -, hexpiry⟩ := h.entry e he
  obtain rfl := Option.some.inj (hc.symm.trans hd)
  have htime := htimely c (List.mem_of_getElem? hc)
  have hstarting (hs : c.phase.isStarting = true) (hle : s.clock - c.promise_time ≤ seconds cfg.slack) :
      s.clock ≤ e.expiry := by
    rw [hexpiry]
    simp only [Timeouts.slack, seconds] at hle ⊢
    omega
  cases hp : c.phase with
  | waiting until_time =>
    rw [hp] at htime
    obtain ⟨hnow, hle⟩ := htime
    rw [hexpiry]
    omega
  | called => rw [hp] at hpromise; cases hpromise
  | numbered => rw [hp] at hpromise; cases hpromise
  | done _ => rw [hp] at hw; cases hw
  | _ =>
    rw [hp] at htime
    exact hstarting (by rw [hp]; rfl) (htime rfl)

theorem Spared.recv (h : Spared s) (hinv : Inv cfg node_id s)
    (htimely : ∀ c ∈ s.calls, Timely cfg s.clock c.promise_time c.phase) (frame : H9frame) {now : ℤ}
    (hnow : now ≤ s.clock) : Spared (s.recv frame now) := by
  obtain ⟨futures, heq, hin, hout⟩ := hinv.recv_eq frame now
  rw [heq]
  refine ⟨fun i c hc hw hbroken => ?_, h.error⟩
  by_cases hmem : i ∈ s.frame_promise_list.map FramePromise.promise
  · obtain ⟨e, he, rfl⟩ := List.mem_map.1 hmem
    have hexpiry := hinv.not_expired htimely he hc hw
    have hverdict : (e.verdict frame now).state = .broken := (hin e he).symm.trans hbroken
    unfold FramePromise.verdict at hverdict
    split_ifs at hverdict with hframe hlate
    · cases hverdict
    · omega
    · cases hverdict
  · exact h.waiting i c hc hw ((hout i hmem).symm.trans hbroken)

/-- A request that was not done goes on. -/
theorem Spared.setCall (h : Spared s) {i : ℕ} {c : Requester} (hc : s.calls[i]? = some c)
    (hw : c.phase.isDone = false) (c' : Requester) : Spared (s.setCall i c') := by
  refine ⟨fun j d hd hdw => ?_, h.error⟩
  rw [getElem?_setCall hc] at hd
  split_ifs at hd with hij
  · exact hij ▸ h.waiting i c hc hw
  · exact h.waiting j d hd hdw

theorem Spared.step (h : Spared s) (hinv : Inv cfg node_id s)
    (htimely : ∀ c ∈ s.calls, Timely cfg s.clock c.promise_time c.phase)
    (hstep : s.step cfg node_id e = some t) : Spared t := by
  have hinv' := inv_step e s t hinv hstep
  obtain ⟨-, ⟨n, -, -, rfl⟩ | ⟨request, -, rfl⟩ | ⟨i, a, c, -, hc, hcall⟩ | ⟨-, rfl⟩ |
    ⟨frame, now, -, hnow, rfl⟩⟩ := step_cases hstep
  · exact ⟨h.waiting, h.error⟩
  · refine ⟨fun i c hc hw => ?_, h.error⟩
    rcases getElem?_concat_cases hc with hc | ⟨rfl, rfl⟩
    · exact h.waiting i c hc hw
    · rw [show s.futures s.calls.length = .pending from hinv.pending_length]
      decide
  · obtain ⟨phase, -, hp, rfl⟩ | ⟨phase, -, hp, rfl⟩ | ⟨bus, phase, hm, -, rfl⟩ |
      ⟨-, hbroken, ⟨until_time, hw⟩, rfl⟩ := stepCall_cases hcall
    · have hdraw : Spared (s.draw node_id) := ⟨h.waiting, h.error⟩
      refine hdraw.setCall hc ?_ _
      rcases Phase.drawn_cases hp with ⟨-, hphase, -⟩ | ⟨-, hphase, -⟩ <;> rw [hphase] <;> rfl
    · have hcreate : Spared (s.create_frame_future cfg i (c.request.comparator node_id c.seqnum)) :=
        ⟨h.waiting, h.error⟩
      refine hcreate.setCall hc ?_ _
      rcases Phase.created_cases hp with ⟨-, hphase, -⟩ | ⟨-, hphase, -⟩ <;> rw [hphase] <;> rfl
    · have hbus : Spared { s with bus := bus } := ⟨h.waiting, h.error⟩
      exact hbus.setCall hc hm.not_done _
    · exact absurd hbroken (h.waiting i c hc (by rw [hw]; rfl))
  · exact ⟨h.waiting, h.error⟩
  · exact h.recv hinv htimely frame hnow

/-- The requests are in time, and no promise of a waiting one was thrown away. -/
structure Safe (cfg : Timeouts) (node_id : BitVec 16) (s : NodeRun) : Prop where
  inv : Inv cfg node_id s
  timely : ∀ c ∈ s.calls, Timely cfg s.clock c.promise_time c.phase
  spared : Spared s

theorem safe_start : Safe cfg node_id start where
  inv := inv_start
  timely := fun c hc => (by cases hc)
  spared := ⟨fun i c hc => (by cases hc), fun herror => (by cases herror)⟩

theorem safe_step (e : NodeStep) (s t : NodeRun) (h : Safe cfg node_id s) (hC : InTime cfg e s)
    (hstep : s.step cfg node_id e = some t) : Safe cfg node_id t where
  inv := inv_step e s t h.inv hstep
  timely := timely_step hC hstep h.timely
  spared := h.spared.step h.inv h.timely hstep

/-! ### Every timing of a configuration -/

/-- How long a request has had its promise where time passes in the two waits only. -/
def Margin (cfg : Timeouts) (now promise_time : ℤ) : Phase → Prop
  | .promised => now ≤ promise_time
  | .ready => now ≤ promise_time
  | .sending until_time =>
    now ≤ until_time ∧ until_time - promise_time ≤ seconds cfg.send_timeout.toNat
  | .sent => now - promise_time ≤ seconds cfg.send_timeout.toNat
  | _ => True

theorem margin_step (hC : Prompt e s) (hstep : s.step cfg node_id e = some t)
    (h : ∀ c ∈ s.calls, Margin cfg s.clock c.promise_time c.phase) :
    ∀ c ∈ t.calls, Margin cfg t.clock c.promise_time c.phase := by
  refine timed_step hstep h ?_ trivial ?_ ?_ ?_
  · rintro n rfl c hc hallows hold
    have hwaits := hC c hc
    cases hp : c.phase with
    | sending until_time =>
      rw [hp] at hallows hold
      exact ⟨hallows, hold.2⟩
    | promised => rw [hp] at hwaits; cases hwaits
    | ready => rw [hp] at hwaits; cases hwaits
    | sent => rw [hp] at hwaits; cases hwaits
    | _ => trivial
  · intro r p q x hp hold
    rcases Phase.drawn_cases hp with ⟨-, rfl, rfl⟩ | ⟨-, rfl, rfl⟩
    · exact hold
    · trivial
  · intro i r p q he hp
    rcases Phase.created_cases hp with ⟨-, -, rfl⟩ | ⟨-, -, rfl⟩
    · exact le_rfl
    · exact le_rfl
  · intro a shared p q x hm hold
    cases hm with
    | notSent =>
      simp only [Margin, seconds] at hold ⊢
      omega
    | sends =>
      simp only [Margin, waitEnd, seconds] at hold ⊢
      omega
    | returns =>
      simp only [Margin] at hold ⊢
      omega
    | waits => trivial
    | answered => trivial
    | timedOut => trivial

theorem inTime_of_prompt (hfits : cfg.Fits) (hC : Prompt e s) (hstep : s.step cfg node_id e = some t)
    (h : ∀ c ∈ s.calls, Margin cfg s.clock c.promise_time c.phase) : InTime cfg e s := by
  unfold Timeouts.Fits at hfits
  obtain ⟨-, ⟨n, rfl, hallows, -⟩ | ⟨request, rfl, -⟩ | ⟨i, a, c, rfl, -⟩ | ⟨rfl, -⟩ |
    ⟨frame, now, rfl, -⟩⟩ := step_cases hstep
  · intro c hc hs
    have hallow := hallows c hc
    have hwaits := hC c hc
    have hmargin := h c hc
    cases hp : c.phase with
    | sending until_time =>
      rw [hp] at hallow hmargin
      simp only [Phase.Allows, Margin, Timeouts.slack, seconds] at hallow hmargin ⊢
      omega
    | promised => rw [hp] at hwaits; cases hwaits
    | ready => rw [hp] at hwaits; cases hwaits
    | sent => rw [hp] at hwaits; cases hwaits
    | _ => rw [hp] at hs; cases hs
  · trivial
  · cases a with
    | create_frame_future =>
      simp only [InTime, Timeouts.slack]
      omega
    | _ => trivial
  · trivial
  · trivial

theorem spared_of_fits (hfits : cfg.Fits) {as : List NodeStep}
    (h : Steps.Meet (step cfg node_id) Prompt as start) :
    Steps.Always (step cfg node_id) Spared as start := by
  let I : NodeRun → Prop := fun s => Safe cfg node_id s ∧
    ∀ c ∈ s.calls, Margin cfg s.clock c.promise_time c.phase
  have hstart : I start := ⟨safe_start, fun c hc => (by cases hc)⟩
  refine Steps.always_of_meet (I := I) (fun s hs => hs.1.spared) ?_ hstart h
  rintro e s t ⟨hsafe, hmargin⟩ hC hstep
  exact ⟨safe_step e s t hsafe (inTime_of_prompt hfits hC hstep hmargin) hstep,
    margin_step hC hstep hmargin⟩

/-! ### A frame after the expiry -/

/-- A thread asks for the register 10, and makes its promise. -/
def readBegins : List NodeStep :=
  [.call (.get_raw_reg 10 2), .thread 0 .get_next_seqnum, .thread 0 .create_frame_future]

/-- It waits as long as it may, for `h9bus` and for the node. -/
def readWaits (cfg : Timeouts) : List NodeStep :=
  [.thread 0 (.send false), .tick (seconds cfg.send_timeout).toNat, .thread 0 .send_return,
    .thread 0 .wait_for, .tick (seconds cfg.recv_timeout).toNat]

/-- When both waits are over, after the times that they take. -/
def readEnd (cfg : Timeouts) : ℤ := waitEnd (waitEnd 0 cfg.send_timeout) cfg.recv_timeout

def heartbeat (id : BitVec 9) : H9frame := { H9frame.new with type := 21, source_id := id }

/-- The state of that thread once it has its promise. -/
def asking (cfg : Timeouts) (id : BitVec 9) (bus : Bus) (clock : ℤ) (phase : Phase) : NodeRun where
  clock := clock
  bus := bus
  frame_promise_list :=
    [⟨(Request.get_raw_reg 10 2).comparator (id.setWidth 16) 0, 0, 0 + seconds (cfg.recv_timeout + 3)⟩]
  futures _ := .pending
  calls := [⟨.get_raw_reg 10 2, phase, 0, 0, 0, 0⟩]
  drawn := 1
  error := none

section Slow

variable {id : BitVec 9} {clock : ℤ} {phase : Phase}

theorem tick_asking {bus : Bus} {n : ℕ} (h : phase.Allows (clock + n)) :
    step cfg node_id (asking cfg id bus clock phase) (.tick n) =
      some (asking cfg id bus (clock + n) phase) := by
  have hall : ∀ c ∈ (asking cfg id bus clock phase).calls, c.phase.Allows (clock + n) := by
    intro c hc
    rw [List.mem_singleton.1 hc]
    exact h
  show (if ∀ c ∈ (asking cfg id bus clock phase).calls, c.phase.Allows (clock + n) then _ else none) = _
  rw [if_pos hall]
  rfl

theorem send_asking (bus : Bus) : ∃ bus', step cfg (id.setWidth 16) (asking cfg id bus clock .ready)
    (.thread 0 (.send false)) =
      some (asking cfg id bus' clock (.sending (waitEnd clock cfg.send_timeout))) := by
  have hid : ¬ H9frame.BROADCAST_ID < id.setWidth 16 := by
    unfold H9frame.BROADCAST_ID
    bv_omega
  obtain ⟨frame, hframe⟩ : ∃ frame, Bus.get_reg .LOW 0 source_id (id.setWidth 16) 10 = .ok frame := by
    unfold Bus.get_reg
    rw [if_neg (by decide), if_neg hid]
    exact ⟨_, rfl⟩
  refine ⟨bus.send (.ok frame), ?_⟩
  simp [step, asking, stepCall, Request.frame, hframe, setPhase, setCall]

theorem run_readBegins (cfg : Timeouts) (id : BitVec 9) :
    Steps.run (step cfg (id.setWidth 16)) readBegins start =
      some (asking cfg id (Bus.new.get_next_seqnum (id.setWidth 16)).2 0 .ready) := by
  have hseqnum : (Bus.new.get_next_seqnum (id.setWidth 16)).1 = 0 := by
    show (0 &&& 31 : UInt8) = 0
    decide
  have hcall : step cfg (id.setWidth 16) start (.call (.get_raw_reg 10 2)) =
      some { start with calls := [⟨.get_raw_reg 10 2, .called, 0, 0, 0, 0⟩] } := rfl
  have hnumber : step cfg (id.setWidth 16)
      { start with calls := [⟨.get_raw_reg 10 2, .called, 0, 0, 0, 0⟩] } (.thread 0 .get_next_seqnum) =
        some { start.draw (id.setWidth 16) with calls := [⟨.get_raw_reg 10 2, .numbered,
          (Bus.new.get_next_seqnum (id.setWidth 16)).1, 0, 0, 0⟩] } := rfl
  rw [hseqnum] at hnumber
  simp only [readBegins, Steps.run, hcall, hnumber, Option.bind_some]
  rfl

theorem run_readWaits (cfg : Timeouts) (id : BitVec 9) (bus : Bus) : ∃ bus',
    Steps.run (step cfg (id.setWidth 16)) (readWaits cfg) (asking cfg id bus 0 .ready) =
      some (asking cfg id bus' (readEnd cfg) (.waiting (readEnd cfg))) ∧
    Steps.Meet (step cfg (id.setWidth 16)) Prompt (readWaits cfg) (asking cfg id bus 0 .ready) := by
  obtain ⟨bus', hsend⟩ : ∃ bus', _ = some (asking cfg id bus' 0 _) := send_asking bus
  have htick : step cfg (id.setWidth 16) (asking cfg id bus' 0 (.sending (waitEnd 0 cfg.send_timeout)))
      (.tick (seconds cfg.send_timeout).toNat) = some (asking cfg id bus'
        (waitEnd 0 cfg.send_timeout) (.sending (waitEnd 0 cfg.send_timeout))) := tick_asking le_rfl
  have hreturn : step cfg (id.setWidth 16) (asking cfg id bus' (waitEnd 0 cfg.send_timeout)
      (.sending (waitEnd 0 cfg.send_timeout))) (.thread 0 .send_return) =
        some (asking cfg id bus' (waitEnd 0 cfg.send_timeout) .sent) := rfl
  have hwait : step cfg (id.setWidth 16) (asking cfg id bus' (waitEnd 0 cfg.send_timeout) .sent)
      (.thread 0 .wait_for) =
        some (asking cfg id bus' (waitEnd 0 cfg.send_timeout) (.waiting (readEnd cfg))) := rfl
  have htick' : step cfg (id.setWidth 16) (asking cfg id bus' (waitEnd 0 cfg.send_timeout)
      (.waiting (readEnd cfg))) (.tick (seconds cfg.recv_timeout).toNat) =
        some (asking cfg id bus' (readEnd cfg) (.waiting (readEnd cfg))) := tick_asking le_rfl
  refine ⟨bus', ?_, ?_⟩
  · simp only [readWaits, Steps.run, hsend, htick, hreturn, hwait, htick', Option.bind_some]
  · simp only [readWaits, Steps.Meet, hsend, htick, hreturn, hwait, htick', Option.some.injEq, forall_eq',
      and_true]
    refine ⟨trivial, fun c hc => ?_, trivial, trivial, fun c hc => ?_⟩
    · rw [List.mem_singleton.1 hc]
      rfl
    · rw [List.mem_singleton.1 hc]
      rfl

/-- What the node sends when the promise has expired throws it away. -/
theorem recv_asking (cfg : Timeouts) (id : BitVec 9) (bus : Bus) {clock : ℤ}
    (h : seconds (cfg.recv_timeout + 3) < clock) (until_time : ℤ) :
    ∃ t, step cfg (id.setWidth 16) (asking cfg id bus clock (.waiting until_time))
      (.on_frame_recv (heartbeat id) clock) = some t ∧ ¬ Spared t := by
  have htype : ¬ H9frame.REG_VALUE = 21 := by decide
  have hframe : ((Request.get_raw_reg 10 2).comparator (id.setWidth 16) 0).eqFrame (heartbeat id) =
      false := by
    rw [Bool.eq_false_iff]
    intro hframe
    exact htype (H9FrameComparator.eqFrame_request_iff.1 hframe).2.1
  have hverdict : FramePromise.verdict (heartbeat id) clock ⟨(Request.get_raw_reg 10 2).comparator
      (id.setWidth 16) 0, 0, 0 + seconds (cfg.recv_timeout + 3)⟩ = .discard := by
    unfold FramePromise.verdict
    rw [if_neg (by rw [hframe]; decide), if_pos (by rw [zero_add]; exact h)]
  have hsweep : sweep FramePromise.promise (FramePromise.verdict (heartbeat id) clock)
      (asking cfg id bus clock (.waiting until_time)).frame_promise_list (fun _ => .pending) =
        .ok ([], Function.update (fun _ => .pending) 0 .broken) := by
    unfold asking sweep
    rw [hverdict]
    rfl
  refine ⟨(asking cfg id bus clock (.waiting until_time)).recv (heartbeat id) clock, ?_, fun hspared => ?_⟩
  · show (if clock ≤ clock then some _ else none) = _
    rw [if_pos le_rfl]
  · unfold recv at hspared
    rw [show (asking cfg id bus clock (.waiting until_time)).futures = fun _ => .pending from rfl,
      hsweep] at hspared
    exact hspared.waiting 0 _ rfl rfl rfl

end Slow

/-- If the timeouts do not fit, a frame can come between the expiry and the end of the second wait. -/
theorem exists_not_spared (cfg : Timeouts) (id : BitVec 9) (hfits : ¬ cfg.Fits) :
    ∃ as, Steps.Meet (step cfg (id.setWidth 16)) Prompt as start ∧
      ¬ Steps.Always (step cfg (id.setWidth 16)) Spared as start := by
  have hlate : seconds (cfg.recv_timeout + 3) < readEnd cfg := by
    unfold Timeouts.Fits at hfits
    simp only [readEnd, waitEnd, seconds]
    omega
  obtain ⟨bus, hwaits, hprompt⟩ :=
    run_readWaits cfg id (Bus.new.get_next_seqnum (id.setWidth 16)).2
  obtain ⟨t, hrecv, hbad⟩ := recv_asking cfg id bus hlate (readEnd cfg)
  have hrun : Steps.run (step cfg (id.setWidth 16))
      (readBegins ++ (readWaits cfg ++ [.on_frame_recv (heartbeat id) (readEnd cfg)])) start = some t := by
    rw [Steps.run_append, run_readBegins, Option.bind_some, Steps.run_append, hwaits, Option.bind_some]
    simp only [Steps.run, hrecv, Option.bind_some]
  refine ⟨_, ?_, fun h => hbad (h.run hrun)⟩
  refine Steps.meet_append ⟨trivial, fun _ _ => ⟨trivial, fun _ _ => ⟨trivial, fun _ _ => trivial⟩⟩⟩ ?_
  intro u hu
  obtain rfl := Option.some.inj ((run_readBegins cfg id).symm.trans hu)
  exact Steps.meet_append hprompt fun _ _ => ⟨trivial, fun _ _ => trivial⟩

/-- In every run in which no request has its promise for longer than `slack` before it waits for the
node, no promise is thrown away of a request that has not stopped waiting. Where time passes in the
two waits only, this is so in every run if and only if the two timeouts fit. -/
theorem expiry_spares_iff (cfg : Timeouts) (id : BitVec 9) :
    (∀ as, Steps.Meet (step cfg (id.setWidth 16)) (InTime cfg) as start →
      Steps.Always (step cfg (id.setWidth 16)) Spared as start) ∧
    ((∀ as, Steps.Meet (step cfg (id.setWidth 16)) Prompt as start →
      Steps.Always (step cfg (id.setWidth 16)) Spared as start) ↔ cfg.Fits) := by
  refine ⟨fun as h => Steps.always_of_meet (fun _ hs => hs.spared) safe_step safe_start h,
    fun h => ?_, fun hfits as => spared_of_fits hfits⟩
  by_contra hfits
  obtain ⟨as, hprompt, hbad⟩ := exists_not_spared cfg id hfits
  exact hbad (h as hprompt)

/-- With 10 seconds for `h9bus` and 3 for the node. -/
theorem expiry_breaks_promise : ¬ ∀ (cfg : Timeouts) (id : BitVec 9) (as : List NodeStep),
    Steps.Meet (step cfg (id.setWidth 16)) Prompt as start →
      Steps.Always (step cfg (id.setWidth 16)) Spared as start := by
  intro h
  obtain ⟨as, hprompt, hbad⟩ := exists_not_spared ⟨10, 3⟩ 32 (by unfold Timeouts.Fits; decide)
  exact hbad (h ⟨10, 3⟩ 32 as hprompt)

end NodeRun

end H9
