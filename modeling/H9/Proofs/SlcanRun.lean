import H9.Driver

/-!
# A serial driver and its adapter

The frame on the line is the front of the queue while `last_send` is set. A frame that is not
more urgent than the front goes behind it, so the front stays the frame on the line until the
adapter replies, and every frame is written once and then reported (`Steady`).
-/

namespace H9

open Prog

variable {W : Type} (cb : Callbacks W)

namespace Driver

theorem write_slcan {d : Driver} (hk : d.kind = .slcan) (hw : ∀ a ∈ d.writes, a = .count)
    (b : BusFrame) (w : W) : (write b).exec (d, w) = (.ok (), (d.wroteTo b, w)) := by
  unfold write
  rcases hh : d.writes with _ | ⟨a, as⟩
  · simp [hk, hh]
  · obtain rfl := hw a (by simp [hh])
    simp [hk, hh]

/-- A serial driver reports the front of its queue, and writes the next frame unless the report
failed. -/
theorem on_frame_send_slcan {d : Driver} (hk : d.kind = .slcan) (hw : ∀ a ∈ d.writes, a = .count)
    {top : BusFrame} {rest : List BusFrame} (hq : d.send_queue = top :: rest) (n : ℕ) (w : W) :
    ((on_frame_send cb (n + 1)).exec (d, w)).2.1 =
      match ((cb.send_frame top).exec w).1, (d.reportedOn top).send_queue with
      | .ok _, next :: _ => (d.reportedOn top).wroteTo next
      | _, _ => d.reportedOn top := by
  unfold on_frame_send
  simp only [exec_bind, exec_getFst, hq, exec_modifyFst, exec_onSnd]
  rcases hcb : (cb.send_frame top).exec w with ⟨_ | _, w'⟩
  · rfl
  · rcases hp : (d.reportedOn top).send_queue with _ | ⟨next, rest'⟩
    · simp [hp]
    · have hwrite := write_slcan (d := d.reportedOn top) hk hw next w'
      simp [hp, hwrite, hk]

/-- A frame for an empty queue is written, any other one waits. -/
theorem send_frame_slcan {d : Driver} (hk : d.kind = .slcan) (hw : ∀ a ∈ d.writes, a = .count)
    (hs : d.socket ≠ 0) (b : BusFrame) (w : W) :
    ((send_frame cb b).exec (d, w)).2.1 =
      if d.send_queue = [] then (d.queued b).wroteTo b else d.queued b := by
  unfold send_frame send_data
  by_cases hq : d.send_queue = []
  · have hwrite := write_slcan (d := d.queued b) hk hw b w
    simp [hs, hq, queued_of_nil hq, hwrite, hk]
  · simp [hs, hq]

/-- A CR while a frame is on the line is its acknowledgement. -/
theorem parse_cr (d : Driver) (w : W) :
    ((parse_response cb ['\r']).exec (d, w)).2.1 =
      if d.last_send.isSome then
        ((on_frame_send cb d.send_queue.length).exec ({ d with last_send := none }, w)).2.1
      else d := by
  unfold parse_response
  by_cases hl : d.last_send.isSome
  · simp [hl]
  · simp [hl]

end Driver

namespace SlcanRun

/-- Each frame written and then reported. -/
def paired (bs : List BusFrame) : List LineEvent :=
  bs.flatMap fun b => [.wrote b (Slcan.build_slcan_msg b.frame), .reported b]

@[simp] theorem paired_append (bs cs : List BusFrame) : paired (bs ++ cs) = paired bs ++ paired cs := by
  simp [paired]

@[simp] theorem paired_singleton (b : BusFrame) :
    paired [b] = [.wrote b (Slcan.build_slcan_msg b.frame), .reported b] := rfl

/-- The frames accepted are those written and reported and those in the queue, of which the
front is on the line or none is. -/
structure Steady (s : SlcanRun W) : Prop where
  kind : s.state.1.kind = .slcan
  socket : s.state.1.socket ≠ 0
  writes : ∀ a ∈ s.state.1.writes, a = .count
  fresh : ∀ b ∈ s.accepted, b.addr < s.accepted.length
  nodup : s.accepted.Nodup
  line : ∃ bs, (bs ++ s.state.1.send_queue).Perm s.accepted ∧
    (s.state.1.last_send = none ∧ s.state.1.trace = paired bs ∨
      ∃ top rest, s.state.1.send_queue = top :: rest ∧ s.state.1.last_send = some top ∧
        s.state.1.trace = paired bs ++ [.wrote top (Slcan.build_slcan_msg top.frame)])

theorem Steady.congr {s s' : SlcanRun W} (h : s.Steady) (hd : s'.state.1 = s.state.1)
    (ha : s'.accepted = s.accepted) : s'.Steady := by
  obtain ⟨⟨d, w⟩, accepted⟩ := s
  obtain ⟨⟨d', w'⟩, accepted'⟩ := s'
  dsimp only at hd ha
  subst hd ha
  exact ⟨h.kind, h.socket, h.writes, h.fresh, h.nodup, h.line⟩

theorem steady_start (name : String) {fd : ℕ} (hfd : fd ≠ 0) (w : W) :
    (start name fd w).Steady where
  kind := rfl
  socket := hfd
  writes _ h := absurd h (List.not_mem_nil)
  fresh _ h := absurd h (List.not_mem_nil)
  nodup := List.nodup_nil
  line := ⟨[], List.Perm.refl _, .inl ⟨rfl, rfl⟩⟩

/-- A frame that is not more urgent than the front goes behind it. -/
theorem steady_send {s : SlcanRun W} (h : s.Steady) {b : BusFrame}
    (hcalm : ∀ top ∈ s.state.1.send_queue.head?, BusFrameLess top b = false) :
    (s.step cb (.send_frame b)).Steady := by
  obtain ⟨⟨d, w⟩, accepted⟩ := s
  obtain ⟨hk, hs, hw, hfresh, hnodup, bs, hperm, hline⟩ := h
  dsimp only at hk hs hw hfresh hnodup hperm hline hcalm
  set b' : BusFrame := { b with addr := accepted.length } with hb'
  have hnot : b' ∉ accepted := fun hmem => absurd (hfresh b' hmem) (by simp [hb'])
  have hfresh' : ∀ c ∈ accepted ++ [b'], c.addr < (accepted ++ [b']).length := by
    intro c hc
    rw [List.length_append, List.length_singleton]
    rcases List.mem_append.1 hc with hc | hc
    · exact Nat.lt_succ_of_lt (hfresh c hc)
    · rw [List.mem_singleton.1 hc]
      exact Nat.lt_succ_self _
  have hnodup' : (accepted ++ [b']).Nodup :=
    List.nodup_append.2 ⟨hnodup, List.nodup_singleton b', fun a ha c hc => by
      rw [List.mem_singleton.1 hc]; rintro rfl; exact hnot ha⟩
  have hsend := Driver.send_frame_slcan cb hk hw hs b' w
  by_cases hq : d.send_queue = []
  · rw [if_pos hq] at hsend
    rcases hline with ⟨-, htrace⟩ | ⟨top, rest, hq', -⟩
    swap
    · rw [hq] at hq'
      simp at hq'
    have hone : (d.queued b').send_queue = [b'] := Driver.queued_of_nil hq b'
    have hperm' : (bs ++ (d.queued b').send_queue).Perm (accepted ++ [b']) := by
      rw [hone]
      rw [hq, List.append_nil] at hperm
      exact hperm.append_right [b']
    have hnew : SlcanRun.Steady ⟨((d.queued b').wroteTo b', w), accepted ++ [b']⟩ :=
      ⟨hk, hs, fun a ha => hw a (List.mem_of_mem_tail ha), hfresh', hnodup', bs, hperm',
        .inr ⟨b', [], hone, rfl, by rw [← htrace]; rfl⟩⟩
    exact hnew.congr hsend rfl
  · rw [if_neg hq] at hsend
    have hperm' : (bs ++ (d.queued b').send_queue).Perm (accepted ++ [b']) := by
      refine ((Heap.push_perm BusFrameLess d.send_queue b').append_left bs).trans ?_
      refine List.perm_middle.trans ?_
      exact (List.Perm.cons b' hperm).trans (List.perm_append_singleton b' accepted).symm
    refine Steady.congr (s := ⟨(d.queued b', w), accepted ++ [b']⟩)
      ⟨hk, hs, hw, hfresh', hnodup', bs, hperm', ?_⟩ hsend rfl
    rcases hline with hnone | ⟨top, rest, hq', hl, htrace⟩
    · exact .inl hnone
    · have hfront : (d.queued b').send_queue.head? = some top := by
        rw [Driver.queued, hq']
        exact Heap.head_push BusFrameLess rest (hcalm top (by rw [hq']; rfl))
      obtain ⟨rest', hrest'⟩ := List.head?_eq_some_iff.1 hfront
      exact .inr ⟨top, rest', hrest', hl, htrace⟩

/-- The frame acknowledged is the one on the line, and the next one goes out. -/
theorem steady_acknowledge {s : SlcanRun W} (h : s.Steady) :
    (s.step cb .acknowledge).Steady := by
  obtain ⟨⟨d, w⟩, accepted⟩ := s
  have hcr := Driver.parse_cr cb d w
  obtain ⟨hk, hs, hw, hfresh, hnodup, bs, hperm, hline⟩ := h
  dsimp only at hk hs hw hfresh hnodup hperm hline
  rcases hline with ⟨hl, htrace⟩ | ⟨top, rest, hq, hl, htrace⟩
  · rw [hl] at hcr
    exact Steady.congr (s := ⟨(d, w), accepted⟩)
      ⟨hk, hs, hw, hfresh, hnodup, bs, hperm, .inl ⟨hl, htrace⟩⟩ hcr rfl
  · set d₀ : Driver := { d with last_send := none } with hd₀
    have hq₀ : d₀.send_queue = top :: rest := hq
    have hsend := Driver.on_frame_send_slcan cb (d := d₀) hk hw hq₀ rest.length w
    rw [hl, Option.isSome_some, if_pos rfl, hq, List.length_cons, hsend] at hcr
    have hpop : (d₀.reportedOn top).send_queue.Perm rest := by
      rw [Driver.reportedOn, hq₀]
      exact Heap.pop_perm BusFrameLess top rest
    have hperm' : (bs ++ [top] ++ (d₀.reportedOn top).send_queue).Perm accepted := by
      rw [List.append_assoc]
      refine ((List.Perm.cons top hpop).append_left bs).trans ?_
      rw [← hq]
      exact hperm
    have htrace' : (d₀.reportedOn top).trace = paired (bs ++ [top]) := by
      change d.trace ++ _ = _
      rw [htrace, paired_append, paired_singleton, List.append_assoc]
      rfl
    have hstalled : SlcanRun.Steady ⟨(d₀.reportedOn top, w), accepted⟩ :=
      ⟨hk, hs, hw, hfresh, hnodup, bs ++ [top], hperm', .inl ⟨rfl, htrace'⟩⟩
    rcases hres : ((cb.send_frame top).exec w).1 with e | u
    · rw [hres] at hcr
      exact hstalled.congr hcr rfl
    · rcases hnext : (d₀.reportedOn top).send_queue with _ | ⟨next, rest'⟩
      · rw [hres, hnext] at hcr
        exact hstalled.congr hcr rfl
      · rw [hres, hnext] at hcr
        refine Steady.congr (s := ⟨((d₀.reportedOn top).wroteTo next, w), accepted⟩)
          ⟨hk, hs, fun a ha => hw a (List.mem_of_mem_tail ha), hfresh, hnodup, bs ++ [top],
            hperm', .inr ⟨next, rest', hnext, rfl, ?_⟩⟩ hcr rfl
        rw [← htrace']
        rfl

theorem run_steady : ∀ (es : List LineStep) {s : SlcanRun W}, s.Steady → Calm cb es s →
    (run cb es s).Steady
  | [], _, h, _ => h
  | .send_frame b :: es, s, h, hc => by
    change (run cb es (s.step cb (.send_frame b))).Steady
    exact run_steady es (steady_send cb h hc.1) hc.2
  | .acknowledge :: es, s, h, hc => by
    change (run cb es (s.step cb .acknowledge)).Steady
    exact run_steady es (steady_acknowledge cb h) hc.2

/-! ### What went over the line -/

/-- The frames written, each with its text. -/
def written (t : List LineEvent) : List (BusFrame × List Char) :=
  t.filterMap fun
    | .wrote b text => some (b, text)
    | .reported _ => none

/-- The frames reported as sent. -/
def reported (t : List LineEvent) : List BusFrame :=
  t.filterMap fun
    | .wrote _ _ => none
    | .reported b => some b

/-- No frame was written twice; a frame reported was the one last written; and with an empty
queue all frames accepted were written and reported, each once. -/
def OncePerFrame (s : SlcanRun W) : Prop :=
  ((written s.state.1.trace).map Prod.fst).Nodup ∧
    (∀ pre b post, s.state.1.trace = pre ++ .reported b :: post →
      (written pre).getLast? = some (b, Slcan.build_slcan_msg b.frame)) ∧
    (s.state.1.send_queue = [] →
      ((written s.state.1.trace).map Prod.fst).Perm s.accepted ∧
        (reported s.state.1.trace).Perm s.accepted)

theorem written_paired : ∀ bs : List BusFrame, (written (paired bs)).map Prod.fst = bs
  | [] => rfl
  | b :: bs => congrArg (b :: ·) (written_paired bs)

theorem reported_paired : ∀ bs : List BusFrame, reported (paired bs) = bs
  | [] => rfl
  | b :: bs => congrArg (b :: ·) (reported_paired bs)

theorem written_append (t u : List LineEvent) : written (t ++ u) = written t ++ written u :=
  List.filterMap_append

/-- In a trace of pairs, perhaps with one more frame written, a frame reported is the one last
written. -/
theorem last_written_paired {tail : List LineEvent} (htail : ∀ b, .reported b ∉ tail) :
    ∀ (bs : List BusFrame) {pre post : List LineEvent} {b : BusFrame},
      paired bs ++ tail = pre ++ .reported b :: post →
        (written pre).getLast? = some (b, Slcan.build_slcan_msg b.frame)
  | [], pre, post, b, h => by
    refine absurd ?_ (htail b)
    rw [show tail = pre ++ .reported b :: post from h]
    simp
  | c :: bs, [], post, b, h => by simp [paired] at h
  | c :: bs, [e], post, b, h => by
    simp only [paired, List.flatMap_cons, List.cons_append, List.nil_append, List.cons.injEq,
      LineEvent.reported.injEq] at h
    obtain ⟨rfl, rfl, -⟩ := h
    rfl
  | c :: bs, e :: f :: pre, post, b, h => by
    have h' : paired bs ++ tail = pre ++ .reported b :: post := by
      simp only [paired, List.flatMap_cons, List.cons_append, List.nil_append,
        List.cons.injEq] at h
      exact h.2.2
    have ih := last_written_paired htail bs h'
    rw [show e :: f :: pre = [e, f] ++ pre from rfl, written_append]
    rw [List.getLast?_append, ih]
    rfl

theorem Steady.oncePerFrame {s : SlcanRun W} (h : s.Steady) : s.OncePerFrame := by
  obtain ⟨-, -, -, -, hnodup, bs, hperm, hline⟩ := h
  have hnodup' := hperm.nodup_iff.2 hnodup
  rcases hline with ⟨-, htrace⟩ | ⟨top, rest, hq, -, htrace⟩
  · refine ⟨?_, fun pre b post hb => ?_, fun hq => ?_⟩
    · rw [htrace, written_paired]
      exact (List.nodup_append.1 hnodup').1
    · rw [htrace, ← List.append_nil (paired bs)] at hb
      exact last_written_paired (by simp) bs hb
    · rw [hq, List.append_nil] at hperm
      rw [htrace, written_paired, reported_paired]
      exact ⟨hperm, hperm⟩
  · refine ⟨?_, fun pre b post hb => ?_, fun hq' => ?_⟩
    · rw [htrace, written_append, List.map_append, written_paired]
      rw [hq, ← List.singleton_append, ← List.append_assoc] at hnodup'
      exact (List.nodup_append.1 hnodup').1
    · rw [htrace] at hb
      exact last_written_paired (by simp) bs hb
    · rw [hq] at hq'
      simp at hq'

/-- While no frame is submitted that is more urgent than the front of the queue, every frame
accepted is written once and then reported. -/
theorem run_oncePerFrame (name : String) (fd : ℕ) (hfd : fd ≠ 0) (w : W) (es : List LineStep)
    (h : Calm cb es (start name fd w)) : (run cb es (start name fd w)).OncePerFrame :=
  (run_steady cb es (steady_start name hfd w) h).oncePerFrame

/-- Callbacks that do nothing. -/
def quiet : Callbacks Unit where
  recv_frame _ := pure ()
  send_frame _ := pure ()

/-- A frame of that priority. -/
def sample (p : Priority) : BusFrame := ⟨0, { H9frame.new with priority := p }, "", 0, 0⟩

/-- Two urgent frames and one that is not, all acknowledged. -/
theorem run_oncePerFrame_three :
    ((written (run quiet [.send_frame (sample .HIGH), .send_frame (sample .LOW),
      .send_frame (sample .HIGH), .acknowledge, .acknowledge, .acknowledge]
        (start "can0" 5 ())).state.1.trace).map Prod.fst).Nodup := by
  refine (run_oncePerFrame quiet "can0" 5 (by decide) () _ ?_).1
  refine ⟨by simp [start, Driver.new], ?_, ?_, trivial, trivial, trivial, trivial⟩
  · decide
  · decide

/-- An urgent frame submitted while one that is not is on the line: the adapter's reply is taken
for it, and the frame on the line is written again. -/
theorem not_oncePerFrame : ¬ ∀ (W : Type) (cb : Callbacks W) (name : String) (fd : ℕ) (w : W)
    (es : List LineStep), fd ≠ 0 → (run cb es (start name fd w)).OncePerFrame := by
  intro h
  have := (h Unit quiet "can0" 5 () [.send_frame (sample .LOW), .send_frame (sample .HIGH),
    .acknowledge] (by decide)).1
  revert this
  decide +kernel

end SlcanRun

end H9
