import H9.Proofs.SlcanStream

/-!
# Lines that are no frames

`parse_response` takes every line of ten characters that begins with `T` for a frame, the CR among
the ten. Whether such a line is one is found out by `substr` and `stoi`, which throw, and by the
number of bytes, which nobody compares with the room for them. So no line does harm just when those
taken for frames are frames.
-/

namespace H9

open Prog Lines

/-- A line that a frame on the bus can have: its fields are hexadecimal digits in the places for
them, with nothing behind, an identifier of 29 bits and at most eight bytes. -/
def WellFormed (line : List Char) : Prop :=
  ∃ id dlc data, line = Slcan.frameLine id dlc data ∧ Slcan.Fields id dlc data

/-- A line that is neither an acknowledgement nor a frame. -/
def Malformed (line : List Char) : Prop := line ≠ ['\r'] ∧ ¬ WellFormed line

namespace Driver

variable {W : Type} {cb : Callbacks W}

/-- Nothing but a failed write ends the reading, no frame of more than eight bytes is handed over,
and malformed lines are skipped. -/
structure ContentSafe (cb : Callbacks W) (name : String) (fd : ℕ) (writes : List WriteAnswer) (w : W)
    (es : List PortStep) : Prop where
  exits : ∀ e, (portRun cb name fd writes w es).1 = .error e → WriteFailed writes e
  dlc : ∀ frame, .received frame ∈ (portRun cb name fd writes w es).2 → frame.dlc ≤ 8
  skips : ∀ line ∈ lines isEnd (es.flatMap PortStep.bytes), Malformed line →
    ∀ s, (parse_response cb line).exec s = (.ok (), s)

theorem parse_wellFormed {line : List Char} (h : WellFormed line) :
    ∃ frame, Slcan.parse_slcan_msg line = .ok frame ∧ frame.dlc ≤ 8 := by
  obtain ⟨id, dlc, data, rfl, hfields⟩ := h
  obtain ⟨n, hle, hn, -⟩ := hfields.dlc
  obtain ⟨v, hparse, -⟩ := Slcan.parse_frameLine hfields hn
  refine ⟨_, hparse, ?_⟩
  change (UInt8.ofNat n).toNat ≤ 8
  rw [UInt8.toNat_ofNat']
  omega

/-- A line that is not taken for a frame does nothing, unless it is a CR. -/
theorem parse_response_skips {line : List Char} (haddr : ¬ Addressed line)
    (hcr : line.head? ≠ some '\r') (s : Driver × W) :
    (parse_response cb line).exec s = (.ok (), s) := by
  unfold parse_response
  split
  · exact absurd rfl hcr
  · rw [exec_ite, if_neg fun hlen => haddr ⟨rfl, hlen⟩, exec_pure]
  · rfl

/-- A line that is taken for a frame is not skipped. -/
theorem parse_response_ok {line : List Char} (haddr : Addressed line) {frame : H9frame}
    (hparse : Slcan.parse_slcan_msg line = .ok frame) :
    parse_response cb line = on_frame_recv cb frame := by
  obtain ⟨cs, rfl⟩ := List.head?_eq_some_iff.1 haddr.1
  rw [show parse_response cb ('T' :: cs) = if 10 ≤ ('T' :: cs).length then _ else pure () from rfl,
    if_pos haddr.2, hparse]

theorem parse_response_error {line : List Char} (haddr : Addressed line) {e : Exn}
    (hparse : Slcan.parse_slcan_msg line = .error e) : parse_response cb line = throw e := by
  obtain ⟨cs, rfl⟩ := List.head?_eq_some_iff.1 haddr.1
  rw [show parse_response cb ('T' :: cs) = if 10 ≤ ('T' :: cs).length then _ else pure () from rfl,
    if_pos haddr.2, hparse]

theorem parse_response_addressed {line : List Char} (haddr : Addressed line) (s : Driver × W) :
    (parse_response cb line).exec s ≠ (.ok (), s) := by
  rcases hparse : Slcan.parse_slcan_msg line with e | frame
  · intro h
    rw [parse_response_error haddr hparse] at h
    cases (Prod.mk.inj h).1
  · intro h
    rw [parse_response_ok haddr hparse] at h
    obtain ⟨d, w⟩ := s
    unfold on_frame_recv at h
    simp only [exec_bind, exec_modifyFst, exec_onSnd] at h
    have hcounter := congrArg (fun t => t.2.1.received_frames_counter) h
    simp at hcounter

theorem exists_of_forall₂ {α β : Type} {R : α → β → Prop} {l : List α} {u : List β}
    (h : List.Forall₂ R l u) {b : β} (hb : b ∈ u) : ∃ a ∈ l, R a b := by
  induction h with
  | nil => cases hb
  | cons hab _ ih =>
    rcases List.mem_cons.1 hb with rfl | hb
    · exact ⟨_, List.mem_cons_self, hab⟩
    · obtain ⟨a, ha, hR⟩ := ih hb
      exact ⟨a, List.mem_cons_of_mem _ ha, hR⟩

/-- A line that begins with a CR ends there. -/
theorem eq_cr {line : List Char} (h : IsLine isEnd line) (hcr : line.head? = some '\r') :
    line = ['\r'] := by
  obtain ⟨init, c, rfl, -, hinit⟩ := h
  rcases init with _ | ⟨a, init⟩
  · exact congrArg (fun c => [c]) (Option.some.inj hcr)
  · obtain rfl := Option.some.inj hcr
    exact absurd (hinit '\r' List.mem_cons_self) (by decide)

/-- The content of the lines does no harm if and only if each line taken for a frame is one. -/
theorem contentSafe_iff (hcb : cb.Quiet) (name : String) (fd : ℕ) (writes : List WriteAnswer) (w : W)
    {es : List PortStep} (hreads : .recv_data [] ∉ es) :
    ContentSafe cb name fd writes w es ↔
      ∀ line ∈ lines isEnd (es.flatMap PortStep.bytes), Addressed line → WellFormed line := by
  constructor
  · intro h line hline haddr
    by_contra hbad
    have hmalformed : Malformed line := by
      refine ⟨?_, hbad⟩
      rintro rfl
      cases haddr.1
    exact parse_response_addressed haddr _ (h.skips line hline hmalformed
      (portStart name fd writes, w))
  · intro h
    obtain ⟨done, hdone, ⟨calls, hcalls, hlog⟩, hend⟩ := portRun_answers hcb name fd writes w hreads
    constructor
    · intro e he
      rcases hend with ⟨hok, -⟩ | ⟨e', he', hw | ⟨line, hline, haddr, hparse⟩⟩
      · rw [hok] at he
        cases he
      · rw [he] at he'
        exact Except.error.inj he' ▸ hw
      · obtain ⟨frame, hok, -⟩ := parse_wellFormed (h line (hline.subset (by simp)) haddr)
        rw [hok] at hparse
        cases hparse
    · intro frame hframe
      rw [hlog] at hframe
      obtain ⟨call, hcall, hmem⟩ := List.mem_flatten.1 hframe
      obtain ⟨line, hline, hanswers⟩ := exists_of_forall₂ hcalls hcall
      by_cases haddr : Addressed line
      · obtain ⟨frame', hparse, rfl⟩ := hanswers.1 haddr
        obtain ⟨frame'', hok, hle⟩ := parse_wellFormed (h line (hdone.subset hline) haddr)
        rw [hparse] at hok
        rw [List.mem_singleton] at hmem
        rw [FrameCall.received.inj hmem, Except.ok.inj hok]
        exact hle
      · rcases hanswers.2 haddr with rfl | ⟨-, b, rfl⟩ <;> simp at hmem
    · intro line hline hmalformed s
      refine parse_response_skips (fun haddr => hmalformed.2 (h line hline haddr)) (fun hcr => ?_) s
      exact hmalformed.1 (eq_cr (isLine_of_mem line hline) hcr)

/-- A line of a frame with one byte, behind lines that are skipped. -/
theorem contentSafe_junk : ContentSafe SlcanRun.quiet "can0" 5 [] ()
    [.recv_data "V1013\rT0000".toList, .recv_data "\r\x07T1fffffff1a5\r".toList] := by
  refine (contentSafe_iff ⟨fun _ _ => rfl, fun _ _ => rfl⟩ "can0" 5 [] () (by simp)).2 ?_
  have hlines : lines isEnd (List.flatMap PortStep.bytes
      [.recv_data "V1013\rT0000".toList, .recv_data "\r\x07T1fffffff1a5\r".toList]) =
      ["V1013\r".toList, "T0000\r".toList, "\x07".toList, "T1fffffff1a5\r".toList] := by
    decide +kernel
  rw [hlines, List.forall_mem_cons, List.forall_mem_cons, List.forall_mem_cons,
    List.forall_mem_singleton]
  have hdigits (cs : List Char) (h : cs.all (fun c => (CText.hexDigit c).isSome) = true) :
      ∀ c ∈ cs, CText.hexDigit c ≠ none :=
    fun c hc => Option.isSome_iff_ne_none.1 (List.all_eq_true.1 h c hc)
  refine ⟨fun haddr => ?_, fun haddr => ?_, fun haddr => ?_, fun _ => ?_⟩
  · exact absurd haddr.1 (by decide)
  · exact absurd haddr.2 (by decide)
  · exact absurd haddr.1 (by decide)
  · exact ⟨"1fffffff".toList, '1', "a5".toList, by decide,
      ⟨by decide, hdigits _ (by decide), by decide, ⟨1, by decide, by decide, by decide⟩,
        hdigits _ (by decide)⟩⟩

/-- A line of ten characters with its CR has no number of bytes. -/
theorem not_contentSafe : ¬ ContentSafe SlcanRun.quiet "can0" 5 [] ()
    [.recv_data "T00000000\r".toList] := by
  intro h
  have hthrow : (portRun SlcanRun.quiet "can0" 5 [] () [.recv_data "T00000000\r".toList]).1 =
      .error (.invalid_argument "stoi") := by decide +kernel
  obtain ⟨⟨a, ha, -⟩, -⟩ := h.exits _ hthrow
  exact absurd ha List.not_mem_nil

end Driver

end H9
