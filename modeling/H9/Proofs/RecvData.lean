import H9.Proofs.SlcanLines
import H9.RecvData

/-!
# Frames that were not received

A `SocketCAN` keeps the count of its read in a `size_t`, which the -1 of an error makes positive, and
neither record driver compares it with the size of its record. The serial driver takes a line for a
frame whose digits are not all there. So only some results of a read keep `recv_data` to frames that
were received in full.
-/

namespace H9

open Prog

/-- The texts that `parse_response` gets when `bytes` are read behind `buf`. -/
def responses (buf : List Char) : List Char → List (List Char)
  | [] => []
  | c :: cs => if isEnd c then (buf ++ [c]) :: responses [] cs else responses (buf ++ [c]) cs

/-- The digits of a frame are all there: eight of the identifier, the number of bytes, and two of each
byte. -/
def Whole (line : List Char) : Prop :=
  ∃ id dlc data rest n, line = 'T' :: id ++ dlc :: data ++ rest ∧ id.length = 8 ∧
    CText.hexDigit dlc = some n ∧ n ≤ 8 ∧ data.length = 2 * n ∧
      (∀ c ∈ id, CText.hexDigit c ≠ none) ∧ ∀ c ∈ data, CText.hexDigit c ≠ none

/-- A line that the reading gets to: each one before it that is taken for a frame can be parsed. -/
inductive Reached : List (List Char) → List Char → Prop
  | head (line : List Char) (ls : List (List Char)) : Reached (line :: ls) line
  | tail {l line : List Char} {ls : List (List Char)} :
    (Addressed l → ∃ frame, Slcan.parse_slcan_msg l = .ok frame) → Reached ls line →
      Reached (l :: ls) line

namespace Representation

variable (rep : Representation)

/-- The whole encoding of the frame was received. -/
def Complete (kind : DriverKind) (buf : List Char) (r : ReadResult (rep.room kind))
    (frame : H9.H9frame) : Prop :=
  match kind with
  | .dummy => False
  | .loop => ∃ (bytes : Vector UInt8 rep.H9frame_size) (h : bytes.toList.length ≤ _),
    r = .ok ⟨bytes.toList, h⟩ ∧ rep.H9frame bytes = frame
  | .slcan => ∃ line ∈ responses buf r.text, Whole line ∧ Slcan.parse_slcan_msg line = .ok frame
  | .socketcan => ∃ (bytes : Vector UInt8 rep.can_frame_size) (h : bytes.toList.length ≤ _),
    r = .ok ⟨bytes.toList, h⟩ ∧ SocketCAN.recv_data (rep.can_frame bytes) = frame

/-- Whatever the driver's memory, its queue, its writes and its callbacks are, `recv_data` hands over
only frames that were received in full. -/
def OnlyComplete (kind : DriverKind) (buf : List Char) (r : ReadResult (rep.room kind)) : Prop :=
  ∀ (memory : ℕ → UInt8) (W : Type) (cb : Callbacks W) (w : W) (d : Driver), d.kind = kind →
    d.recv_buf = buf → ∀ frame,
      .received frame ∈
        ((Driver.recv_data cb.logged (rep.answer kind memory r)).exec (d, [], w)).2.2.1 →
      rep.Complete kind buf r frame

/-- The read gave no record, or all of one, or lines of which each that is taken for a frame is whole
or has the frame of one that is. -/
def Intact (kind : DriverKind) (buf : List Char) (r : ReadResult (rep.room kind)) : Prop :=
  match kind with
  | .dummy => True
  | .loop => ∀ bytes, r = .ok bytes → bytes.1.length = rep.H9frame_size
  | .slcan => ∀ line, Reached (responses buf r.text) line → Addressed line →
    ∀ frame, Slcan.parse_slcan_msg line = .ok frame →
      ∃ line' ∈ responses buf r.text, Whole line' ∧ Slcan.parse_slcan_msg line' = .ok frame
  | .socketcan => ∃ bytes, r = .ok bytes ∧ (bytes.1 = [] ∨ bytes.1.length = rep.can_frame_size)

end Representation

/-! ### What is handed over -/

namespace Driver

variable {W : Type} {cb : Callbacks W}

/-- All frames that were handed over are in `F`. -/
def Received (F : H9frame → Prop) (s : Driver × List FrameCall × W) : Prop :=
  ∀ frame, .received frame ∈ s.2.1 → F frame

variable {F : H9frame → Prop}

theorem Received.of_log {s t : Driver × List FrameCall × W} (h : Received F s) (hlog : t.2.1 = s.2.1) :
    Received F t := by
  intro frame hframe
  rw [hlog] at hframe
  exact h frame hframe

theorem keeps_modify (f : Driver → Driver) :
    Keeps (Received F) (Prog.modifyFst f : Prog (Driver × List FrameCall × W) Exn Unit) :=
  fun _ h => h.of_log rfl

theorem keeps_write (b : BusFrame) :
    Keeps (Received F) (write b : Prog (Driver × List FrameCall × W) Exn Unit) := by
  rintro ⟨d, s⟩ h
  obtain ⟨r, d', hexec, -⟩ := write_exec d b s
  rw [hexec]
  rcases r with e | ⟨⟩
  · exact h.of_log rfl
  · exact h.of_log rfl

theorem keeps_send (b : BusFrame) : Keeps (Received F) (onSnd (cb.logged.send_frame b)) := by
  rintro ⟨d, log, w⟩ h
  have hlog : Received F (d, log ++ [.sent b], ((cb.send_frame b).exec w).2) := by
    intro frame hframe
    exact h frame (by simpa using hframe)
  simp only [exec_onSnd, Callbacks.logged, exec_bind, exec_modifyFst]
  rcases hsend : (cb.send_frame b).exec w with ⟨e | u, w'⟩ <;> rw [hsend] at hlog
  · exact hlog
  · exact hlog

theorem keeps_on_frame_send : ∀ n, Keeps (Received F) (on_frame_send cb.logged n)
  | 0 => Triple.throw _ fun _ h => h
  | n + 1 => by
    unfold on_frame_send
    refine Triple.bind (M := fun _ => Received F) (fun _ h => h) fun d => ?_
    split
    · exact Triple.throw _ fun _ h => h
    · refine Triple.bind (keeps_modify _) fun _ => Triple.bind (keeps_send _) fun _ => ?_
      refine Triple.bind (M := fun _ => Received F) (fun _ h => h) fun d' => ?_
      split
      · exact Triple.pure _ fun _ h => h
      · refine Triple.bind (keeps_write _) fun _ => ?_
        exact Triple.ite (fun _ => keeps_on_frame_send n) fun _ => Triple.pure _ fun _ h => h

theorem keeps_recv (frame : H9frame) (h : F frame) :
    Keeps (Received F) (on_frame_recv cb.logged frame) := by
  refine Triple.bind (keeps_modify _) fun _ => ?_
  rintro ⟨d, log, w⟩ hreceived
  have hlog : Received F (d, log ++ [.received frame], ((cb.recv_frame frame).exec w).2) := by
    intro frame' hframe'
    rcases List.mem_append.1 hframe' with hold | hnew
    · exact hreceived frame' hold
    · rw [List.mem_singleton] at hnew
      rw [FrameCall.received.inj hnew]
      exact h
  simp only [exec_onSnd, Callbacks.logged, exec_bind, exec_modifyFst]
  rcases hrecv : (cb.recv_frame frame).exec w with ⟨e | u, w'⟩ <;> rw [hrecv] at hlog
  · exact hlog
  · exact hlog

/-- A line hands over only its own frame, and ends the reading if it has none. -/
theorem parse_response_received {line : List Char}
    (h : ∀ frame, Addressed line → Slcan.parse_slcan_msg line = .ok frame → F frame) :
    Triple (Received F) (parse_response cb.logged line)
      (fun _ s => Received F s ∧ (Addressed line → ∃ frame, Slcan.parse_slcan_msg line = .ok frame))
      fun _ => Received F := by
  unfold parse_response
  split
  · have hnot : ∀ {cs : List Char}, Addressed ('\r' :: cs) → ∃ frame,
        Slcan.parse_slcan_msg ('\r' :: cs) = .ok frame := fun haddr => nomatch haddr.1
    refine Triple.bind (M := fun _ => Received F) (fun _ h => h) fun d => ?_
    refine Triple.ite (fun _ => ?_) fun _ => Triple.pure _ fun _ hs => ⟨hs, hnot⟩
    refine Triple.bind (keeps_modify _) fun _ => ?_
    exact (keeps_on_frame_send _).conseq (fun _ h => h) (fun _ _ hs => ⟨hs, hnot⟩) fun _ _ hs => hs
  · rename_i cs
    refine Triple.ite (fun hlen => ?_) fun hlen => Triple.pure _ fun _ hs =>
      ⟨hs, fun haddr => absurd haddr.2 hlen⟩
    rcases hparse : Slcan.parse_slcan_msg ('T' :: cs) with e | frame
    · exact Triple.throw _ fun _ hs => hs
    · exact (keeps_recv frame (h frame ⟨rfl, hlen⟩ hparse)).conseq (fun _ h => h)
        (fun _ _ hs => ⟨hs, fun _ => ⟨frame, rfl⟩⟩) fun _ _ hs => hs
  · rename_i hT
    refine Triple.pure _ fun _ hs => ⟨hs, fun haddr => ?_⟩
    obtain ⟨cs, rfl⟩ := List.head?_eq_some_iff.1 haddr.1
    exact absurd rfl (hT cs)

/-- The frames that a read hands over are those of the lines that it gets to. -/
theorem recv_bytes_received : ∀ (cs buf : List Char),
    (∀ line, Reached (responses buf cs) line → Addressed line →
      ∀ frame, Slcan.parse_slcan_msg line = .ok frame → F frame) →
    Triple (fun s => s.1.recv_buf = buf ∧ Received F s) (recv_bytes cb.logged cs)
      (fun _ => Received F) fun _ => Received F
  | [], _, _ => Triple.pure _ fun _ h => h.2
  | c :: cs, buf, h => by
    unfold recv_bytes
    refine Triple.bind (M := fun _ s => s.1.recv_buf = buf ++ [c] ∧ Received F s)
      (fun s hs => ⟨by rw [← hs.1], hs.2.of_log rfl⟩) fun _ => ?_
    by_cases hc : c = '\r' ∨ c = '\x07'
    · have hend : isEnd c = true := by simpa [isEnd] using hc
      rw [responses, if_pos hend] at h
      rw [if_pos hc]
      rintro ⟨d, s⟩ ⟨hbuf, hs⟩
      have hline : Triple (Received F) (parse_response cb.logged (buf ++ [c])) _ _ :=
        parse_response_received fun frame haddr => h _ (.head _ _) haddr frame
      replace hline := hline (d, s) hs
      simp only [exec_bind, exec_getFst, show d.recv_buf = buf ++ [c] from hbuf]
      rcases he : (parse_response cb.logged (buf ++ [c])).exec (d, s) with ⟨e | ⟨⟩, d', s'⟩ <;>
        rw [he] at hline
      · exact hline
      · refine recv_bytes_received cs [] (fun line hreached => h line (.tail hline.2 hreached))
          ({ d' with recv_buf := [] }, s') ⟨rfl, hline.1.of_log rfl⟩
    · have hinside : ¬ isEnd c = true := by simpa [isEnd] using hc
      rw [responses, if_neg hinside] at h
      rw [if_neg hc]
      exact recv_bytes_received cs (buf ++ [c]) h

/-! ### With callbacks that do nothing -/

theorem parse_response_quiet {d : Driver} (hlast : d.last_send = none) (log : List FrameCall)
    (line : List Char) : ∃ r d' log',
      (parse_response SlcanRun.quiet.logged line).exec (d, log, ()) = (r, d', log', ()) ∧
      d'.last_send = none ∧ (∀ call ∈ log, call ∈ log') ∧
      (∀ frame, Addressed line → Slcan.parse_slcan_msg line = .ok frame → .received frame ∈ log') ∧
      ((Addressed line → ∃ frame, Slcan.parse_slcan_msg line = .ok frame) → r = .ok ()) := by
  by_cases haddr : Addressed line
  · rcases hparse : Slcan.parse_slcan_msg line with e | frame
    · rw [parse_response_error haddr hparse]
      refine ⟨.error e, d, log, rfl, hlast, fun _ h => h, fun _ _ h => (by cases h), fun h => ?_⟩
      obtain ⟨frame, hframe⟩ := h haddr
      cases hframe
    · rw [parse_response_ok haddr hparse]
      refine ⟨.ok (), { d with received_frames_counter := d.received_frames_counter + 1 },
        log ++ [.received frame], rfl, hlast, fun _ h => by simp [h], ?_, fun _ => rfl⟩
      intro frame' _ hframe'
      rw [Except.ok.inj hframe']
      simp
  · refine ⟨.ok (), d, log, ?_, hlast, fun _ h => h, fun _ h => absurd h haddr, fun _ => rfl⟩
    unfold parse_response
    split
    · simp [hlast]
    · rw [exec_ite, if_neg fun hlen => haddr ⟨rfl, hlen⟩, exec_pure]
    · rfl

/-- Then all frames are handed over that the reading gets to. -/
theorem recv_bytes_quiet : ∀ (cs : List Char) {d : Driver}, d.last_send = none →
    ∀ log : List FrameCall,
      (∀ call ∈ log, call ∈ ((recv_bytes SlcanRun.quiet.logged cs).exec (d, log, ())).2.2.1) ∧
      ∀ line, Reached (responses d.recv_buf cs) line → Addressed line →
        ∀ frame, Slcan.parse_slcan_msg line = .ok frame →
          .received frame ∈ ((recv_bytes SlcanRun.quiet.logged cs).exec (d, log, ())).2.2.1
  | [], _, _, _ => ⟨fun _ h => h, fun _ h => (by cases h)⟩
  | c :: cs, d, hlast, log => by
    unfold recv_bytes
    rw [responses]
    by_cases hc : c = '\r' ∨ c = '\x07'
    · have hend : isEnd c = true := by simpa [isEnd] using hc
      obtain ⟨r, d', log', hexec, hlast', hlog, hframe, hok⟩ :=
        parse_response_quiet (d := { d with recv_buf := d.recv_buf ++ [c] }) hlast log (d.recv_buf ++ [c])
      rw [if_pos hend, if_pos hc]
      simp only [exec_bind, exec_modifyFst, exec_getFst, hexec]
      rcases r with e | ⟨⟩
      · refine ⟨hlog, fun line hreached haddr frame hparse => ?_⟩
        cases hreached with
        | head _ _ => exact hframe frame haddr hparse
        | tail hline _ => cases hok hline
      · obtain ⟨hold, hnew⟩ := recv_bytes_quiet cs (d := { d' with recv_buf := [] }) hlast' log'
        refine ⟨fun call h => hold call (hlog call h), fun line hreached haddr frame hparse => ?_⟩
        cases hreached with
        | head _ _ => exact hold _ (hframe frame haddr hparse)
        | tail _ hreached => exact hnew line hreached haddr frame hparse
    · have hinside : ¬ isEnd c = true := by simpa [isEnd] using hc
      rw [if_neg hinside, if_neg hc]
      exact recv_bytes_quiet cs (d := { d with recv_buf := d.recv_buf ++ [c] }) hlast log

end Driver

/-! ### The reads -/

theorem readInto_full {n : ℕ} (memory : ℕ → UInt8) (bytes : Vector UInt8 n) :
    readInto n memory bytes.toList = bytes := by
  ext i hi
  simp [readInto]

namespace Representation

variable {rep : Representation} {buf : List Char}

open Driver

/-- A record is handed over as it lies in the variable. -/
theorem eq_of_received {W : Type} {cb : Callbacks W} {s : Driver × List FrameCall × W}
    (hlog : s.2.1 = []) {frame frame' : H9.H9frame}
    (h : .received frame' ∈ ((on_frame_recv cb.logged frame).exec s).2.2.1) : frame' = frame := by
  have hempty : Received (· = frame) s := by
    intro frame' h
    rw [hlog] at h
    cases h
  exact Keeps.exec (keeps_recv (F := (· = frame)) frame rfl) hempty frame' h

theorem exists_vector {n : ℕ} {bytes : List UInt8} (h : bytes.length = n) :
    ∃ v : Vector UInt8 n, v.toList = bytes := ⟨⟨bytes.toArray, by simpa using h⟩, rfl⟩

/-- Where `recv_data` hands over its variable, that was filled just when the record was received. -/
theorem onlyComplete_loop (r : ReadResult (rep.room .loop)) :
    rep.OnlyComplete .loop buf r ↔ rep.Intact .loop buf r := by
  constructor
  · intro h bytes hr
    subst hr
    obtain ⟨v, hv, heq, -⟩ := h (fun _ => 0) Unit SlcanRun.quiet ()
      { Driver.new "" .loop with recv_buf := buf } rfl rfl _ (List.mem_singleton_self _)
    rw [Except.ok.inj heq]
    exact v.length_toList
  · intro h memory W cb w d hkind hbuf frame hframe
    rcases r with e | bytes
    · simp [recv_data, hkind, answer, Except.map] at hframe
    · obtain ⟨v, hv⟩ := exists_vector (h bytes rfl)
      have hexec : (recv_data cb.logged (rep.answer .loop memory (.ok bytes))).exec (d, [], w) =
          (on_frame_recv cb.logged (rep.answer .loop memory (.ok bytes)).buf).exec (d, [], w) := by
        simp [recv_data, hkind, answer, Except.map]
      rw [hexec] at hframe
      rw [eq_of_received rfl hframe]
      refine ⟨v, by rw [hv]; exact bytes.2, congrArg _ (Subtype.ext hv.symm), ?_⟩
      change rep.H9frame v = rep.H9frame (readInto _ memory bytes.1)
      rw [← hv, readInto_full]

theorem onlyComplete_socketcan (r : ReadResult (rep.room .socketcan)) :
    rep.OnlyComplete .socketcan buf r ↔ rep.Intact .socketcan buf r := by
  constructor
  · intro h
    rcases r with e | ⟨_ | ⟨b, bs⟩, hle⟩
    · obtain ⟨v, hv, heq, -⟩ := h (fun _ => 0) Unit SlcanRun.quiet ()
        { Driver.new "" .socketcan with recv_buf := buf } rfl rfl _ (List.mem_singleton_self _)
      cases heq
    · exact ⟨_, rfl, .inl rfl⟩
    · obtain ⟨v, hv, heq, -⟩ := h (fun _ => 0) Unit SlcanRun.quiet ()
        { Driver.new "" .socketcan with recv_buf := buf } rfl rfl _ (List.mem_singleton_self _)
      refine ⟨_, rfl, .inr ?_⟩
      rw [Except.ok.inj heq]
      exact v.length_toList
  · rintro ⟨bytes, rfl, hbytes⟩ memory W cb w d hkind hbuf frame hframe
    rcases hbytes with hnil | hfull
    · simp [recv_data, hkind, answer, Except.map, ReadResult.text, ReadResult.bytes, hnil] at hframe
    · by_cases hnil : bytes.1 = []
      · simp [recv_data, hkind, answer, Except.map, ReadResult.text, ReadResult.bytes, hnil] at hframe
      obtain ⟨b, bs, hcons⟩ := List.exists_cons_of_ne_nil hnil
      obtain ⟨v, hv⟩ := exists_vector hfull
      have hexec : (recv_data cb.logged (rep.answer .socketcan memory (.ok bytes))).exec (d, [], w) =
          (on_frame_recv cb.logged (rep.answer .socketcan memory (.ok bytes)).buf).exec (d, [], w) := by
        simp [recv_data, hkind, answer, Except.map, ReadResult.text, ReadResult.bytes, hcons]
      rw [hexec] at hframe
      rw [eq_of_received rfl hframe]
      refine ⟨v, by rw [hv]; exact bytes.2, congrArg _ (Subtype.ext hv.symm), ?_⟩
      change SocketCAN.recv_data (rep.can_frame v) =
        SocketCAN.recv_data (rep.can_frame (readInto _ memory bytes.1))
      rw [← hv, readInto_full]

theorem onlyComplete_slcan (r : ReadResult (rep.room .slcan)) :
    rep.OnlyComplete .slcan buf r ↔ rep.Intact .slcan buf r := by
  have hempty : r.text = [] → ∀ line, ¬ Reached (responses buf r.text) line := by
    intro htext line hreached
    rw [htext] at hreached
    cases hreached
  constructor
  · intro h line hreached haddr frame hparse
    have hne : r.text ≠ [] := fun htext => hempty htext line hreached
    obtain ⟨c, cs, htext⟩ := List.exists_cons_of_ne_nil hne
    rcases r with e | bytes
    · exact absurd rfl hne
    · have hmem := (recv_bytes_quiet (ReadResult.text (.ok bytes))
        (d := { Driver.new "" .slcan with recv_buf := buf }) rfl []).2 line hreached haddr frame hparse
      refine h (fun _ => 0) Unit SlcanRun.quiet () { Driver.new "" .slcan with recv_buf := buf } rfl rfl
        frame ?_
      have hexec : (recv_data SlcanRun.quiet.logged (rep.answer .slcan (fun _ => 0) (.ok bytes))).exec
          ({ Driver.new "" .slcan with recv_buf := buf }, [], ()) =
          (recv_bytes SlcanRun.quiet.logged (ReadResult.text (.ok bytes))).exec
            ({ Driver.new "" .slcan with recv_buf := buf }, [], ()) := by
        simp [recv_data, Driver.new, answer, Except.map, htext]
      rw [hexec]
      exact hmem
  · intro h memory W cb w d hkind hbuf frame hframe
    rcases r with e | bytes
    · by_cases he : e = Errno.ENXIO
      · simp [recv_data, hkind, answer, Except.map, he] at hframe
      · simp [recv_data, hkind, answer, Except.map, he] at hframe
    · rcases htext : ReadResult.text (.ok bytes : ReadResult (rep.room .slcan)) with _ | ⟨c, cs⟩
      · simp [recv_data, hkind, answer, Except.map, htext] at hframe
      · have hexec : (recv_data cb.logged (rep.answer .slcan memory (.ok bytes))).exec (d, [], w) =
            (recv_bytes cb.logged (ReadResult.text (.ok bytes : ReadResult (rep.room .slcan)))).exec
              (d, [], w) := by
          simp [recv_data, hkind, answer, Except.map, htext]
        rw [hexec] at hframe
        have hall : Triple _ (recv_bytes cb.logged _) _ _ := recv_bytes_received _ buf h
        have hcomplete := hall (d, [], w) ⟨hbuf, fun _ h => (by cases h)⟩
        rcases he : (recv_bytes cb.logged (ReadResult.text (.ok bytes :
          ReadResult (rep.room .slcan)))).exec (d, [], w) with ⟨e | ⟨⟩, t⟩ <;> rw [he] at hcomplete hframe
        · exact hcomplete frame hframe
        · exact hcomplete frame hframe

/-- `recv_data` hands over only frames that were received in full just where the read of a record
driver gives no record or all of one, and where each line that a serial driver takes for a frame is
whole. -/
theorem onlyComplete_iff (rep : Representation) (kind : DriverKind) (buf : List Char)
    (r : ReadResult (rep.room kind)) : rep.OnlyComplete kind buf r ↔ rep.Intact kind buf r := by
  cases kind with
  | dummy =>
    refine ⟨fun _ => trivial, fun _ memory W cb w d hkind hbuf frame hframe => ?_⟩
    rcases r with e | bytes <;> simp [recv_data, hkind, answer, Except.map] at hframe
  | loop => exact onlyComplete_loop r
  | slcan => exact onlyComplete_slcan r
  | socketcan => exact onlyComplete_socketcan r

/-- A `SocketCAN` hands a frame over when its read fails. -/
theorem not_onlyComplete : ¬ ∀ (kind : DriverKind) (buf : List Char)
    (r : ReadResult (x86_64.room kind)), x86_64.OnlyComplete kind buf r := by
  intro h
  obtain ⟨v, hv, heq, -⟩ := h .socketcan [] (.error (.other 100)) (fun _ => 0) Unit SlcanRun.quiet ()
    (Driver.new "can0" .socketcan) rfl rfl _ (List.mem_singleton_self _)
  cases heq

end Representation

end H9
