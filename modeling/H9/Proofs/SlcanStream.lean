import H9.Lib.Lines
import H9.Proofs.InFlight
import H9.Proofs.SlcanText

/-!
# The stream from a serial adapter

`recv_data` puts the lines of the stream together, however the reads cut it, and `parse_response`
answers each (`Answers`): a CR reports the frame that was sent last, a line of a frame hands the
frame over, and any other line does nothing. A line that cannot be parsed and a write that fails end
the reading.
-/

namespace H9

open Prog Lines

/-- A frame is submitted to a serial driver, or bytes are read from its line. -/
inductive PortStep
  | send_frame (b : BusFrame)
  | recv_data (bytes : List Char)

def PortStep.bytes : PortStep → List Char
  | .send_frame _ => []
  | .recv_data bytes => bytes

/-- A call of `recv_frame_callback` or of `send_frame_callback`. -/
inductive FrameCall
  | received (frame : H9frame)
  | sent (b : BusFrame)
deriving DecidableEq, Repr

namespace Callbacks

variable {W : Type}

/-- The callbacks, with a list of their calls. -/
def logged (cb : Callbacks W) : Callbacks (List FrameCall × W) where
  recv_frame frame := do
    modifyFst (· ++ [.received frame])
    onSnd (cb.recv_frame frame)
  send_frame b := do
    modifyFst (· ++ [.sent b])
    onSnd (cb.send_frame b)

/-- They throw nothing. -/
def Quiet (cb : Callbacks W) : Prop :=
  (∀ frame w, ((cb.recv_frame frame).exec w).1 = .ok ()) ∧
    ∀ b w, ((cb.send_frame b).exec w).1 = .ok ()

theorem Quiet.recv_frame {cb : Callbacks W} (h : cb.Quiet) (frame : H9frame)
    (s : List FrameCall × W) : ∃ w, (cb.logged.recv_frame frame).exec s =
      (.ok (), (s.1 ++ [.received frame], w)) := by
  refine ⟨((cb.recv_frame frame).exec s.2).2, ?_⟩
  simp [logged, h.1 frame s.2]

theorem Quiet.send_frame {cb : Callbacks W} (h : cb.Quiet) (b : BusFrame)
    (s : List FrameCall × W) : ∃ w, (cb.logged.send_frame b).exec s =
      (.ok (), (s.1 ++ [.sent b], w)) := by
  refine ⟨((cb.send_frame b).exec s.2).2, ?_⟩
  simp [logged, h.2 b s.2]

end Callbacks

/-- A CR or a BEL ends a line. -/
def isEnd (c : Char) : Bool := c = '\r' || c = '\x07'

/-- A line that `parse_response` takes for a frame. -/
def Addressed (line : List Char) : Prop := line.head? = some 'T' ∧ 10 ≤ line.length

/-- The calls that a line leads to. -/
def Answers (line : List Char) (calls : List FrameCall) : Prop :=
  (Addressed line → ∃ frame, Slcan.parse_slcan_msg line = .ok frame ∧ calls = [.received frame]) ∧
    (¬ Addressed line → calls = [] ∨ line.head? = some '\r' ∧ ∃ b, calls = [.sent b])

namespace Driver

variable {W : Type} {cb : Callbacks W}

/-- The step of a serial driver. -/
def portStep (cb : Callbacks W) : PortStep → Prog (Driver × W) Exn Unit
  | .send_frame b => send_frame cb b
  | .recv_data bytes => recv_data cb ⟨.ok bytes, H9frame.new⟩

/-- The lines were answered. -/
def Answered (done : List (List Char)) (log : List FrameCall) : Prop :=
  ∃ calls, List.Forall₂ Answers done calls ∧ log = calls.flatten

theorem Answered.append {done : List (List Char)} {log : List FrameCall} (h : Answered done log)
    {line : List Char} {calls : List FrameCall} (hline : Answers line calls) :
    Answered (done ++ [line]) (log ++ calls) := by
  obtain ⟨all, hall, rfl⟩ := h
  exact ⟨all ++ [calls], List.rel_append hall (.cons hline .nil), by simp⟩

/-- A serial driver that answered the lines `done` and read `buf` behind them. -/
structure Reading (writes : List WriteAnswer) (done : List (List Char)) (buf : List Char)
    (s : Driver × List FrameCall × W) : Prop where
  kind : s.1.kind = .slcan
  writes : ∀ a ∈ s.1.writes, a ∈ writes
  on_line : s.1.last_send.isSome → s.1.send_queue ≠ []
  recv_buf : s.1.recv_buf = buf
  log : Answered done s.2.1

/-- How a write that failed ends the reading. -/
def WriteFailed (writes : List WriteAnswer) (e : Exn) : Prop :=
  (∃ a ∈ writes, a ≠ .count) ∧
    ((∃ errno, e = .system_error errno) ∨ ∃ socket, e = .closeSocketException socket)

theorem writeFailed_of_answerExit {d : Driver} {writes : List WriteAnswer} {a : WriteAnswer}
    (ha : a ∈ writes) {e : Exn} (h : d.answerExit a = some e) : WriteFailed writes e := by
  unfold answerExit at h
  refine ⟨⟨a, ha, ?_⟩, ?_⟩
  · rintro rfl
    split at h <;> simp_all
  · split at h <;> simp only [reduceCtorEq, Option.some.injEq] at h
    · exact .inl ⟨_, h.symm⟩
    · exact .inr ⟨_, h.symm⟩
    · split_ifs at h
      · exact .inr ⟨_, h.symm⟩
      · exact .inl ⟨_, h.symm⟩

/-- A write to the serial line leaves the reading as it is, and a frame that was written is the one
to be acknowledged next. -/
theorem write_reading {writes : List WriteAnswer} {done : List (List Char)} {buf : List Char}
    {d : Driver} {s : List FrameCall × W} (h : Reading writes done buf (d, s))
    (hq : d.send_queue ≠ []) (b : BusFrame) :
    ∃ r d', (write b).exec (d, s) = (r, (d', s)) ∧ Reading writes done buf (d', s) ∧
      ∀ e, r = .error e → WriteFailed writes e := by
  obtain ⟨r, d'', he, -, -, -, hfail⟩ := write_exec d b s
  have hexit (e : Exn) (hr : r = .error e) : WriteFailed writes e := by
    obtain ⟨a, ha, hae⟩ := hfail e hr
    exact writeFailed_of_answerExit (h.writes a (List.mem_of_mem_head? ha)) hae
  have htail : ∀ a ∈ d.writes.tail, a ∈ writes := fun a ha => h.writes a (List.mem_of_mem_tail ha)
  rcases write_serial h.kind b s with hw | ⟨e, hw, -⟩
  · rw [hw] at he ⊢
    exact ⟨_, _, rfl, ⟨h.kind, htail, fun _ => hq, h.recv_buf, h.log⟩, fun e he => by cases he⟩
  · rw [hw] at he ⊢
    exact ⟨_, _, rfl, ⟨h.kind, htail, h.on_line, h.recv_buf, h.log⟩, fun e' he' =>
      hexit e' ((Prod.mk.inj he).1.symm.trans he')⟩

/-- How the reading of the stream `bytes` ends early: the lines answered are the first of its lines,
and a write failed, or the next line is one that cannot be parsed. -/
def Stopped (writes : List WriteAnswer) (lines : List (List Char)) (e : Exn)
    (s : Driver × List FrameCall × W) : Prop :=
  ∃ done, done <+: lines ∧ Answered done s.2.1 ∧ (WriteFailed writes e ∨
    ∃ line, done ++ [line] <+: lines ∧ Addressed line ∧ Slcan.parse_slcan_msg line = .error e)

theorem Stopped.mono {writes : List WriteAnswer} {ls ls' : List (List Char)} (hp : ls <+: ls')
    {e : Exn} {s : Driver × List FrameCall × W} (h : Stopped writes ls e s) :
    Stopped writes ls' e s := by
  obtain ⟨done, hdone, hlog, hw | ⟨line, hline, hparse⟩⟩ := h
  · exact ⟨done, hdone.trans hp, hlog, .inl hw⟩
  · exact ⟨done, hdone.trans hp, hlog, .inr ⟨line, hline.trans hp, hparse⟩⟩

section Rules

variable {writes : List WriteAnswer} {done : List (List Char)} (hcb : cb.Quiet)
include hcb

theorem on_frame_send_reading {buf : List Char} {d : Driver} {log : List FrameCall} {w : W}
    (h : Reading writes done buf (d, log, w)) (hl : d.last_send = none) {top : BusFrame}
    {queue : List BusFrame} (hq : d.send_queue = top :: queue) (n : ℕ) {line : List Char}
    (hanswer : ∀ b, Answers line [.sent b]) :
    ∃ r t, (on_frame_send cb.logged (n + 1)).exec (d, log, w) = (r, t) ∧
      Reading writes (done ++ [line]) buf t ∧ ∀ e, r = .error e → WriteFailed writes e := by
  obtain ⟨w', hsent⟩ := hcb.send_frame top (log, w)
  have hreported : Reading writes (done ++ [line]) buf
      (d.reportedOn top, log ++ [.sent top], w') :=
    ⟨h.kind, h.writes, fun hs => by simp [reportedOn, hl] at hs, h.recv_buf,
      h.log.append (hanswer top)⟩
  unfold on_frame_send
  simp only [exec_bind, exec_getFst, hq, exec_modifyFst, exec_onSnd, hsent]
  rcases hp : (d.reportedOn top).send_queue with _ | ⟨front, queue'⟩
  · exact ⟨_, _, rfl, hreported, fun e he => by cases he⟩
  obtain ⟨r, d', hwrite, hreading, hfail⟩ := write_reading hreported (by simp [hp]) front
  dsimp only
  simp only [exec_bind, hwrite]
  rcases r with e | ⟨⟩
  · exact ⟨_, _, rfl, hreading, hfail⟩
  · refine ⟨.ok (), _, ?_, hreading, fun e he => by cases he⟩
    simp [show d.kind = .slcan from h.kind]

/-- A CR reports the frame that was sent last, if any. -/
theorem parse_cr_rule {cs : List Char} :
    Triple (Reading writes done ('\r' :: cs)) (parse_response cb.logged ('\r' :: cs))
      (fun _ => Reading writes (done ++ ['\r' :: cs]) ('\r' :: cs))
      (Stopped writes (done ++ ['\r' :: cs])) := by
  have hanswer (calls : List FrameCall) (h : calls = [] ∨ ∃ b, calls = [.sent b]) :
      Answers ('\r' :: cs) calls := by
    refine ⟨fun haddr => absurd haddr.1 (by simp), fun _ => h.imp_right fun h => ⟨rfl, h⟩⟩
  rintro ⟨d, log, w⟩ h
  unfold parse_response
  by_cases hl : d.last_send.isSome
  swap
  · have hlog := h.log.append (hanswer [] (.inl rfl))
    rw [List.append_nil] at hlog
    simp only [exec_bind, exec_getFst, hl]
    exact ⟨h.kind, h.writes, h.on_line, h.recv_buf, hlog⟩
  obtain ⟨top, queue, hq⟩ := List.exists_cons_of_ne_nil (h.on_line hl)
  have hcleared : Reading writes done ('\r' :: cs) ({ d with last_send := none }, log, w) :=
    ⟨h.kind, h.writes, fun hs => (by cases hs), h.recv_buf, h.log⟩
  obtain ⟨r, t, hexec, hreading, hfail⟩ := on_frame_send_reading hcb hcleared rfl hq queue.length
    fun b => hanswer [.sent b] (.inr ⟨b, rfl⟩)
  have hlen : d.send_queue.length = queue.length + 1 := by rw [hq, List.length_cons]
  simp only [exec_bind, exec_getFst, hl, if_true, exec_modifyFst, hlen, hexec]
  rcases r with e | ⟨⟩
  · exact ⟨done ++ ['\r' :: cs], List.prefix_rfl, hreading.log, .inl (hfail e rfl)⟩
  · exact hreading

/-- `parse_response` answers a line, or cannot parse it, or a write fails. -/
theorem parse_response_answers (line : List Char) :
    Triple (Reading writes done line) (parse_response cb.logged line)
      (fun _ => Reading writes (done ++ [line]) line) (Stopped writes (done ++ [line])) := by
  have hnothing (haddr : ¬ Addressed line) (s : Driver × List FrameCall × W)
      (h : Reading writes done line s) : Reading writes (done ++ [line]) line s := by
    have hanswers : Answers line [] := ⟨fun h => absurd h haddr, fun _ => .inl rfl⟩
    have hlog := h.log.append hanswers
    rw [List.append_nil] at hlog
    exact ⟨h.kind, h.writes, h.on_line, h.recv_buf, hlog⟩
  unfold parse_response
  split
  · exact parse_cr_rule hcb
  · rename_i cs
    split_ifs with hlen
    swap
    · exact Triple.pure _ (hnothing fun haddr => hlen haddr.2)
    rcases hparse : Slcan.parse_slcan_msg ('T' :: cs) with e | frame
    · exact Triple.throw _ fun s h =>
        ⟨done, List.prefix_append _ _, h.log, .inr ⟨_, List.prefix_rfl, ⟨rfl, hlen⟩, hparse⟩⟩
    rintro ⟨d, log, w⟩ h
    obtain ⟨w', hrecv⟩ := hcb.recv_frame frame (log, w)
    have hanswers : Answers ('T' :: cs) [.received frame] :=
      ⟨fun _ => ⟨frame, hparse, rfl⟩, fun haddr => absurd ⟨rfl, hlen⟩ haddr⟩
    have hlog := h.log.append hanswers
    unfold on_frame_recv
    simp only [exec_bind, exec_modifyFst, exec_onSnd, hrecv]
    exact ⟨h.kind, h.writes, h.on_line, h.recv_buf, hlog⟩
  · rename_i hT
    refine Triple.pure _ (hnothing fun haddr => ?_)
    obtain ⟨cs, rfl⟩ := List.head?_eq_some_iff.1 haddr.1
    exact hT cs rfl

/-- The bytes of a read carry the lines on, wherever the reads before it stopped. -/
theorem recv_bytes_reading : ∀ cs bytes : List Char,
    Triple (Reading writes (lines isEnd bytes) (rest isEnd bytes)) (recv_bytes cb.logged cs)
      (fun _ => Reading writes (lines isEnd (bytes ++ cs)) (rest isEnd (bytes ++ cs)))
      (Stopped writes (lines isEnd (bytes ++ cs)))
  | [], bytes => by
    rw [List.append_nil]
    exact Triple.pure _ fun _ h => h
  | c :: cs, bytes => by
    have ih := recv_bytes_reading cs (bytes ++ [c])
    rw [List.append_assoc, List.singleton_append] at ih
    unfold recv_bytes
    refine Triple.bind (M := fun _ => Reading writes (lines isEnd bytes) (rest isEnd bytes ++ [c]))
      (Triple.modify _ fun s h => ⟨h.kind, h.writes, h.on_line, by rw [← h.recv_buf], h.log⟩)
      fun _ => ?_
    by_cases hc : c = '\r' ∨ c = '\x07'
    · have hend : isEnd c = true := by simpa [isEnd] using hc
      rw [if_pos hc]
      rw [lines_append_end bytes hend, rest_append_end bytes hend] at ih
      set line := rest isEnd bytes ++ [c] with hline
      have hmore : lines isEnd bytes ++ [line] <+: lines isEnd (bytes ++ c :: cs) := by
        rw [hline, ← lines_append_end bytes hend, List.append_cons bytes c cs]
        exact lines_prefix _ _
      rintro ⟨d, s⟩ h
      have hanswer := parse_response_answers hcb line (d, s) h
      simp only [exec_bind, exec_getFst, show d.recv_buf = line from h.recv_buf]
      rcases he : (parse_response cb.logged line).exec (d, s) with ⟨e | ⟨⟩, d', s'⟩ <;>
        rw [he] at hanswer
      · exact hanswer.mono hmore
      · exact ih ({ d' with recv_buf := [] }, s')
          ⟨hanswer.kind, hanswer.writes, hanswer.on_line, rfl, hanswer.log⟩
    · have hinside : isEnd c = false := by simpa [isEnd] using hc
      rw [if_neg hc]
      rwa [lines_append_inside bytes hinside, rest_append_inside bytes hinside] at ih

omit hcb in
theorem send_frame_reading {buf : List Char} (b : BusFrame) :
    Triple (Reading writes done buf) (send_frame cb.logged b) (fun _ => Reading writes done buf)
      (Stopped writes done) := by
  rintro ⟨d, s⟩ h
  have hqueued : (d.queued b).send_queue ≠ [] := Heap.push_ne_nil BusFrameLess _ _
  have hreading : Reading writes done buf (d.queued b, s) :=
    ⟨h.kind, h.writes, fun _ => hqueued, h.recv_buf, h.log⟩
  rw [SerialRun.send_frame_exec cb.logged h.kind]
  split_ifs with hs hq
  · exact h
  · obtain ⟨r, d', hwrite, hreading', hfail⟩ := write_reading hreading hqueued b
    rw [hwrite]
    rcases r with e | ⟨⟩
    · exact ⟨done, List.prefix_rfl, hreading'.log, .inl (hfail e rfl)⟩
    · exact hreading'
  · exact hreading

theorem portStep_reading {e : PortStep} (he : e ≠ .recv_data []) (bytes : List Char) :
    Triple (Reading writes (lines isEnd bytes) (rest isEnd bytes)) (portStep cb.logged e)
      (fun _ => Reading writes (lines isEnd (bytes ++ e.bytes)) (rest isEnd (bytes ++ e.bytes)))
      (Stopped writes (lines isEnd (bytes ++ e.bytes))) := by
  rcases e with b | cs
  · rw [PortStep.bytes, List.append_nil]
    exact send_frame_reading b
  · obtain ⟨c, cs, rfl⟩ := List.exists_cons_of_ne_nil fun hnil => he (congrArg _ hnil)
    rintro ⟨d, s⟩ h
    have hrecv := recv_bytes_reading hcb (c :: cs) bytes (d, s) h
    simp only [portStep, recv_data, exec_bind, exec_getFst, show d.kind = .slcan from h.kind]
    exact hrecv

/-- Any number of reads, with frames submitted between them. -/
theorem portSteps_reading : ∀ (es : List PortStep) (bytes : List Char),
    .recv_data [] ∉ es →
    Triple (Reading writes (lines isEnd bytes) (rest isEnd bytes)) (forEach es (portStep cb.logged))
      (fun _ => Reading writes (lines isEnd (bytes ++ es.flatMap PortStep.bytes))
        (rest isEnd (bytes ++ es.flatMap PortStep.bytes)))
      (Stopped writes (lines isEnd (bytes ++ es.flatMap PortStep.bytes)))
  | [], bytes, _ => by
    rw [List.flatMap_nil, List.append_nil]
    exact Triple.pure _ fun _ h => h
  | e :: es, bytes, hes => by
    rw [List.mem_cons, not_or] at hes
    have ih := portSteps_reading es (bytes ++ e.bytes) hes.2
    rw [List.append_assoc, ← List.flatMap_cons] at ih
    refine Triple.bind ((portStep_reading hcb (Ne.symm hes.1) bytes).conseq (fun _ h => h) (fun _ _ h => h)
      fun e' s h => h.mono ?_) fun _ => ih
    rw [List.flatMap_cons, ← List.append_assoc]
    exact lines_prefix _ _

end Rules

/-- A serial driver that was just opened, and the answers to its writes. -/
def portStart (name : String) (fd : ℕ) (writes : List WriteAnswer) : Driver :=
  { Driver.new name .slcan with socket := fd, connected := true, writes := writes }

theorem reading_start (name : String) (fd : ℕ) (writes : List WriteAnswer) (w : W) :
    Reading writes [] [] (portStart name fd writes, [], w) where
  kind := rfl
  writes _ h := h
  on_line h := by cases h
  recv_buf := rfl
  log := ⟨[], .nil, rfl⟩

/-- How a serial driver that was just opened comes out of the steps, and the calls it made. -/
def portRun (cb : Callbacks W) (name : String) (fd : ℕ) (writes : List WriteAnswer) (w : W)
    (es : List PortStep) : Except Exn Unit × List FrameCall :=
  let (r, s) := (forEach es (portStep cb.logged)).exec (portStart name fd writes, [], w)
  (r, s.2.1)

/-- The lines of the stream are answered in their order, up to one that cannot be parsed or to a
write that fails. -/
theorem portRun_answers (hcb : cb.Quiet) (name : String) (fd : ℕ) (writes : List WriteAnswer) (w : W)
    {es : List PortStep} (hes : .recv_data [] ∉ es) :
    ∃ done, done <+: lines isEnd (es.flatMap PortStep.bytes) ∧
      Answered done (portRun cb name fd writes w es).2 ∧
      ((portRun cb name fd writes w es).1 = .ok () ∧ done = lines isEnd (es.flatMap PortStep.bytes) ∨
        ∃ e, (portRun cb name fd writes w es).1 = .error e ∧ (WriteFailed writes e ∨
          ∃ line, done ++ [line] <+: lines isEnd (es.flatMap PortStep.bytes) ∧ Addressed line ∧
            Slcan.parse_slcan_msg line = .error e)) := by
  have hrun := portSteps_reading hcb es [] hes _ (reading_start name fd writes w)
  rw [List.nil_append] at hrun
  unfold portRun
  rcases he : (forEach es (portStep cb.logged)).exec (portStart name fd writes, [], w) with
    ⟨e | ⟨⟩, s⟩ <;> rw [he] at hrun
  · obtain ⟨done, hdone, hlog, hstop⟩ := hrun
    exact ⟨done, hdone, hlog, .inr ⟨e, rfl, hstop⟩⟩
  · exact ⟨_, List.prefix_rfl, hrun.log, .inl ⟨rfl, rfl⟩⟩

end Driver

/-! ### What an adapter sends -/

/-- A frame, the acknowledgement of one, or an error. -/
inductive Output
  | frame (frame : H9frame)
  | cr
  | bel

namespace Output

def text : Output → List Char
  | .frame f => Slcan.build_slcan_msg f
  | .cr => ['\r']
  | .bel => ['\x07']

/-- A frame is one that the bus can carry. -/
def Fits : Output → Prop
  | .frame f => f.type < 32 ∧ f.dlc ≤ 8
  | _ => True

/-- The calls an output is to lead to: a frame is handed over, a CR may report one. -/
def Calls : Output → List FrameCall → Prop
  | .frame f, calls => calls = [.received f.sent]
  | .cr, calls => calls = [] ∨ ∃ b, calls = [.sent b]
  | .bel, calls => calls = []

theorem isEnd_of_hexDigit {c : Char} (h : CText.hexDigit c ≠ none) : isEnd c = false := by
  rw [isEnd, Bool.or_eq_false_iff, decide_eq_false_iff_not, decide_eq_false_iff_not]
  constructor <;> rintro rfl <;> exact h rfl

theorem isLine_frameLine {id data : List Char} {dlc : Char} (h : Slcan.Fields id dlc data) :
    IsLine isEnd (Slcan.frameLine id dlc data) := by
  obtain ⟨n, -, hdlc, -⟩ := h.dlc
  refine ⟨'T' :: id ++ [dlc] ++ data, '\r', rfl, rfl, ?_⟩
  rw [List.forall_mem_append, List.forall_mem_append, List.forall_mem_cons,
    List.forall_mem_singleton]
  exact ⟨⟨⟨by decide, fun c hc => isEnd_of_hexDigit (h.digits_id c hc)⟩,
    isEnd_of_hexDigit (by simp [hdlc])⟩, fun c hc => isEnd_of_hexDigit (h.digits_data c hc)⟩

theorem addressed_frameLine {id data : List Char} {dlc : Char} (h : Slcan.Fields id dlc data) :
    Addressed (Slcan.frameLine id dlc data) := by
  refine ⟨rfl, ?_⟩
  have := h.length_id
  simp [Slcan.frameLine]
  omega

theorem isLine_text {o : Output} (h : o.Fits) : IsLine isEnd o.text := by
  cases o with
  | frame f =>
    rw [text, Slcan.build_slcan_msg_eq h.2]
    exact isLine_frameLine (Slcan.fields_of_frame h.2)
  | cr => exact ⟨[], '\r', by rfl, by rfl, by simp⟩
  | bel => exact ⟨[], '\x07', by rfl, by rfl, by simp⟩

/-- Only the frames are taken for frames. -/
theorem addressed_text {o : Output} (h : o.Fits) : Addressed o.text ↔ ∃ f, o = .frame f := by
  cases o with
  | frame f =>
    refine iff_of_true ?_ ⟨f, rfl⟩
    rw [text, Slcan.build_slcan_msg_eq h.2]
    exact addressed_frameLine (Slcan.fields_of_frame h.2)
  | cr => exact iff_of_false (fun haddr => by cases haddr.1) (by simp)
  | bel => exact iff_of_false (fun haddr => by cases haddr.1) (by simp)

/-- What answers the text of an output are the calls it is to lead to. -/
theorem calls_of_answers {o : Output} (h : o.Fits) {calls : List FrameCall}
    (hcalls : Answers o.text calls) : o.Calls calls := by
  have haddr := addressed_text h
  cases o with
  | frame f =>
    obtain ⟨f', hparse, rfl⟩ := hcalls.1 (haddr.2 ⟨f, rfl⟩)
    rw [text, Slcan.parse_build h.1 h.2] at hparse
    rw [Calls, Except.ok.inj hparse]
  | cr => exact (hcalls.2 (by simp [haddr])).imp_right And.right
  | bel => exact (hcalls.2 (by simp [haddr])).resolve_right fun hcr => by cases hcr.1

end Output

namespace Driver

variable {W : Type} {cb : Callbacks W}

/-- However the reads cut what the adapter sends, each frame of it is handed over once, in its
order, and only a CR reports a frame as sent. A write that fails ends the reading. -/
theorem recv_data_delivers (hcb : cb.Quiet) (name : String) (fd : ℕ) (writes : List WriteAnswer)
    (w : W) {outputs : List Output} (hfits : ∀ o ∈ outputs, o.Fits) {es : List PortStep}
    (hreads : .recv_data [] ∉ es)
    (hbytes : es.flatMap PortStep.bytes = outputs.flatMap Output.text) :
    ∃ done, done <+: outputs ∧
      (∃ calls, List.Forall₂ Output.Calls done calls ∧
        (portRun cb name fd writes w es).2 = calls.flatten) ∧
      ((portRun cb name fd writes w es).1 = .ok () ∧ done = outputs ∨
        ∃ e, (portRun cb name fd writes w es).1 = .error e ∧ WriteFailed writes e) := by
  have hlines : lines isEnd (es.flatMap PortStep.bytes) = outputs.map Output.text := by
    rw [hbytes, List.flatMap_def]
    exact (lines_flatten (List.forall_mem_map.2 fun o ho => Output.isLine_text (hfits o ho))).1
  obtain ⟨done, hdone, ⟨calls, hcalls, hlog⟩, hend⟩ := portRun_answers hcb name fd writes w hreads
  rw [hlines] at hdone hend
  obtain ⟨done, rfl, hprefix⟩ : ∃ done', done = done'.map Output.text ∧ done' <+: outputs := by
    refine ⟨outputs.take done.length, ?_, List.take_prefix _ _⟩
    rw [List.map_take]
    exact List.prefix_iff_eq_take.1 hdone
  refine ⟨done, hprefix, ⟨calls, ?_, hlog⟩, ?_⟩
  · rw [List.forall₂_map_left_iff] at hcalls
    exact ((List.forall₂_and_left _ _).2 ⟨fun o ho => hfits o ( hprefix.subset ho), hcalls⟩).imp
      fun o c h => Output.calls_of_answers h.1 h.2
  · refine hend.imp (And.imp_right fun heq => ?_) ?_
    · exact hprefix.eq_of_length (by simpa using congrArg List.length heq)
    · rintro ⟨e, he, hw | ⟨line, hline, haddr, hparse⟩⟩
      · exact ⟨e, he, hw⟩
      · have hmem : line ∈ outputs.map Output.text := hline.subset (by simp)
        obtain ⟨o, ho, rfl⟩ := List.mem_map.1 hmem
        obtain ⟨f, rfl⟩ := (Output.addressed_text (hfits o ho)).1 haddr
        rw [Output.text, Slcan.parse_build (hfits _ ho).1 (hfits _ ho).2] at hparse
        cases hparse

/-- An acknowledgement, a frame and an error in three reads, for a driver that sent two frames. -/
theorem recv_data_delivers_three :
    let f : H9frame := ⟨.HIGH, 24, 13, 0x1ff, 300, 3, #v[0x0a, 0xff, 0x2c, 7, 0, 0, 0, 0]⟩
    let b := SlcanRun.sample .LOW
    let run := portRun SlcanRun.quiet "can0" 5 [] () [.send_frame b, .recv_data "\rT0c3".toList,
      .send_frame b, .recv_data "7ff2c".toList, .recv_data "30aff2c\r\x07".toList]
    run = (.ok (), [.sent b, .received f.sent]) ∧
    ∃ done, done <+: [Output.cr, .frame f, .bel] ∧
      (∃ calls, List.Forall₂ Output.Calls done calls ∧ run.2 = calls.flatten) ∧
      (run.1 = .ok () ∧ done = [.cr, .frame f, .bel] ∨ ∃ e, run.1 = .error e ∧ WriteFailed [] e) := by
  intro f b run
  refine ⟨by decide +kernel, recv_data_delivers ⟨fun _ _ => rfl, fun _ _ => rfl⟩ "can0" 5 [] () ?_ ?_ ?_⟩
  · simp [Output.Fits, f]
  · simp
  · decide +kernel

end Driver

end H9
