import H9.Lib.Heap
import H9.Lib.Steps
import H9.Slcan

/-!
# Drivers

`Driver` (h9bus/driver.cc) and its four kinds (drivers/): a queue of frames to send, of which the
front is the one being sent. A frame leaves the queue when it is out, which the record drivers
know at once and the serial one when the adapter replies. The program below a driver is `W`, which
its two callbacks run on.
-/

namespace H9

/-- A `BusFrame` at its address; its counters are in the memory of the `BusMgr`. -/
structure BusFrame where
  addr : ℕ
  frame : H9frame
  origin : String
  orgin_client_id : ℕ
  orgin_msg_id : UInt64
deriving DecidableEq, Repr

/-- `Driver::BusFrameLess`: `HIGH` is 0. -/
def BusFrameLess (x y : BusFrame) : Bool :=
  match x.frame.priority, y.frame.priority with
  | .LOW, .HIGH => true
  | _, _ => false

inductive DriverKind
  | dummy
  | loop
  | slcan
  | socketcan
deriving DecidableEq, Repr

/-- The kernel's answer to a write: some bytes, none, or an error. -/
inductive WriteAnswer
  | count
  | zero
  | error (e : Errno)
deriving DecidableEq, Repr

/-- The kernel's answer to a read: bytes or an error, and the frame that the buffer of a driver
that reads records then holds. -/
structure ReadAnswer where
  result : Except Errno (List Char)
  buf : H9frame

/-- What happens on a serial line: a frame is written, or reported as sent. -/
inductive LineEvent
  | wrote (b : BusFrame) (text : List Char)
  | reported (b : BusFrame)
deriving DecidableEq, Repr

structure Driver where
  name : String
  kind : DriverKind
  socket : ℕ
  connected : Bool
  retry_auto_connect : ℕ
  send_queue : List BusFrame
  sent_frames_counter : UInt32
  received_frames_counter : UInt32
  last_send : Option BusFrame
  recv_buf : List Char
  /-- The answers to the writes to come. With none left a write succeeds. -/
  writes : List WriteAnswer
  /-- What happened so far, of which the program keeps no record. -/
  trace : List LineEvent

def Driver.new (name : String) (kind : DriverKind) : Driver where
  name := name
  kind := kind
  socket := 0
  connected := false
  retry_auto_connect := 10
  send_queue := []
  sent_frames_counter := 0
  received_frames_counter := 0
  last_send := none
  recv_buf := []
  writes := []
  trace := []

/-- `recv_frame_callback` and `send_frame_callback`. -/
structure Callbacks (W : Type) where
  recv_frame : H9frame → Prog W Exn Unit
  send_frame : BusFrame → Prog W Exn Unit

namespace Driver

open Prog

variable {W : Type} (cb : Callbacks W)

/-- The driver after its serial line took the frame `b`. -/
def wroteTo (d : Driver) (b : BusFrame) : Driver :=
  { d with
    writes := d.writes.tail
    last_send := some b
    trace := d.trace ++ [.wrote b (Slcan.build_slcan_msg b.frame)] }

/-- The driver after the front `b` of its queue left it. -/
def reportedOn (d : Driver) (b : BusFrame) : Driver :=
  { d with
    sent_frames_counter := d.sent_frames_counter + 1
    send_queue := Heap.pop BusFrameLess d.send_queue
    trace := d.trace ++ [.reported b] }

/-- The driver with `b` in its queue. -/
def queued (d : Driver) (b : BusFrame) : Driver :=
  { d with send_queue := Heap.push BusFrameLess d.send_queue b }

@[simp] theorem wroteTo_kind (d : Driver) (b : BusFrame) : (d.wroteTo b).kind = d.kind := rfl

@[simp] theorem reportedOn_kind (d : Driver) (b : BusFrame) : (d.reportedOn b).kind = d.kind := rfl

@[simp] theorem queued_kind (d : Driver) (b : BusFrame) : (d.queued b).kind = d.kind := rfl

theorem queued_of_nil {d : Driver} (h : d.send_queue = []) (b : BusFrame) :
    (d.queued b).send_queue = [b] := by
  rw [queued, h]
  rfl

/-- The write in `send_data`. It goes to the number `socket`, whosever that is by now: the trace says what
the driver wrote, and not that its own device got it. -/
def write (b : BusFrame) : Prog (Driver × W) Exn Unit := do
  let d ← getFst
  match d.kind with
  | .dummy => pure ()
  | .loop =>
    modifyFst fun d => { d with writes := d.writes.tail }
    match d.writes.head? with
    | some (.error e) => throw (.system_error e)
    | _ => pure ()
  | kind =>
    match d.writes.head? with
    | some .zero =>
      modifyFst fun d => { d with writes := d.writes.tail }
      throw (.closeSocketException (.driver d.name))
    | some (.error e) =>
      modifyFst fun d => { d with writes := d.writes.tail }
      if e = Errno.ENXIO then throw (.closeSocketException (.driver d.name))
      else throw (.system_error e)
    | _ =>
      if kind = .slcan then modifyFst fun d => d.wroteTo b
      else modifyFst fun d => { d with writes := d.writes.tail }

/-- `Driver::on_frame_send`. The record drivers call it again for each frame left; `n` bounds how
often. -/
def on_frame_send : ℕ → Prog (Driver × W) Exn Unit
  | 0 => throw .undefined
  | n + 1 => do
    let d ← getFst
    match d.send_queue with
    | [] => throw .undefined
    | tmp :: _ =>
      modifyFst fun d => d.reportedOn tmp
      onSnd (cb.send_frame tmp)
      let d ← getFst
      match d.send_queue with
      | [] => pure ()
      | top :: _ =>
        write top
        if d.kind ≠ .slcan then on_frame_send n

/-- `send_data` of the frame `b`, whose `H9frame` it takes by reference. -/
def send_data (b : BusFrame) : Prog (Driver × W) Exn Unit := do
  write b
  let d ← getFst
  if d.kind ≠ .slcan then on_frame_send cb d.send_queue.length

/-- `Driver::send_frame`. -/
def send_frame (busframe : BusFrame) : Prog (Driver × W) Exn Unit := do
  let d ← getFst
  if d.socket = 0 then return
  modifyFst fun d => d.queued busframe
  if d.send_queue = [] then
    match (d.queued busframe).send_queue with
    | [] => throw .undefined
    | top :: _ => send_data cb top

def on_frame_recv (frame : H9frame) : Prog (Driver × W) Exn Unit := do
  modifyFst fun d => { d with received_frames_counter := d.received_frames_counter + 1 }
  onSnd (cb.recv_frame frame)

/-- `Slcan::parse_response`. -/
def parse_response (response : List Char) : Prog (Driver × W) Exn Unit := do
  match response with
  | '\r' :: _ =>
    let d ← getFst
    if d.last_send.isSome then
      modifyFst fun d => { d with last_send := none }
      on_frame_send cb d.send_queue.length
  | 'T' :: _ =>
    if 10 ≤ response.length then
      match Slcan.parse_slcan_msg response with
      | .ok frame => on_frame_recv cb frame
      | .error e => throw e
  | _ => pure ()

/-- The loop of `Slcan::recv_data` over the bytes read. -/
def recv_bytes : List Char → Prog (Driver × W) Exn Unit
  | [] => pure ()
  | c :: cs => do
    modifyFst fun d => { d with recv_buf := d.recv_buf ++ [c] }
    if c = '\r' ∨ c = '\x07' then
      let d ← getFst
      parse_response cb d.recv_buf
      modifyFst fun d => { d with recv_buf := [] }
    recv_bytes cs

/-- `recv_data`. A `SocketCAN` does not see that its read failed. -/
def recv_data (answer : ReadAnswer) : Prog (Driver × W) Exn Unit := do
  let d ← getFst
  match d.kind, answer.result with
  | .slcan, .ok [] => throw (.closeSocketException (.driver d.name))
  | .slcan, .ok bytes => recv_bytes cb bytes
  | .slcan, .error e =>
    if e = Errno.ENXIO then throw (.closeSocketException (.driver d.name)) else throw (.system_error e)
  | .socketcan, .ok [] => throw (.closeSocketException (.driver d.name))
  | .socketcan, _ => on_frame_recv cb answer.buf
  | .loop, .ok _ => on_frame_recv cb answer.buf
  | .loop, .error e => throw (.system_error e)
  | .dummy, .ok _ => pure ()
  | .dummy, .error e => throw (.system_error e)

end Driver

/-! ### A serial driver and its adapter -/

/-- A frame is submitted, or the adapter acknowledges one with a CR. -/
inductive LineStep
  | send_frame (busframe : BusFrame)
  | acknowledge

/-- A serial driver, what is below it, and the frames it accepted. -/
structure SlcanRun (W : Type) where
  state : Driver × W
  accepted : List BusFrame

namespace SlcanRun

variable {W : Type} (cb : Callbacks W)

/-- A driver that is open on the descriptor `fd`, with no frame. -/
def start (name : String) (fd : ℕ) (w : W) : SlcanRun W where
  state := ({ Driver.new name .slcan with socket := fd, connected := true }, w)
  accepted := []

/-- The next step; a frame submitted is a new object, at an address of its own. -/
def step (s : SlcanRun W) : LineStep → SlcanRun W
  | .send_frame busframe =>
    let b := { busframe with addr := s.accepted.length }
    { state := ((Driver.send_frame cb b).exec s.state).2
      accepted := s.accepted ++ [b] }
  | .acknowledge => { s with state := ((Driver.parse_response cb ['\r']).exec s.state).2 }

def run : List LineStep → SlcanRun W → SlcanRun W
  | [], s => s
  | e :: es, s => run es (s.step cb e)

/-- No frame is submitted that is more urgent than the one at the front of the queue. -/
def Calm : List LineStep → SlcanRun W → Prop
  | [], _ => True
  | e :: es, s =>
    (match e with
      | .send_frame b => ∀ top ∈ s.state.1.send_queue.head?, BusFrameLess top b = false
      | .acknowledge => True) ∧ Calm es (s.step cb e)

end SlcanRun

/-- What happens to a serial driver: a frame is submitted, its adapter sends a CR, a BEL or a
frame, it is closed, or `BusMgr::cron` opens it again. A line comes as a whole: nothing of one is left in
`recv_buf`, which neither `on_close` nor `open` clears. -/
inductive SerialStep
  | send_frame (busframe : BusFrame)
  | cr
  | bel
  | line (text : List Char)
  | on_close
  | reopen (fd : ℕ)

/-- A serial driver and what is below it, and of the frames handed to its adapter the number of
those to which there was no reply yet, which the program does not count. -/
structure SerialRun (W : Type) where
  state : Driver × W
  outstanding : ℕ

namespace Driver

/-- `Driver::on_close`, whose `::close` is the kernel's. -/
def on_close (d : Driver) : Driver := { d with connected := false }

/-- `Slcan::open` that got the descriptor `fd`. -/
def opened (d : Driver) (fd : ℕ) : Driver := { d with socket := fd, connected := true }

/-- How many frames went to the adapter. -/
def handed (d : Driver) : ℕ :=
  d.trace.countP fun
    | .wrote _ _ => true
    | .reported _ => false

end Driver

namespace SerialRun

open Prog

variable {W : Type} (cb : Callbacks W)

/-- A driver that is open on the descriptor `fd`, with no frame, and the answers to its writes. -/
def start (name : String) (fd : ℕ) (writes : List WriteAnswer) (w : W) : SerialRun W where
  state := ({ Driver.new name .slcan with socket := fd, connected := true, writes := writes }, w)
  outstanding := 0

/-- After the driver became `t`, and `replies` came from the adapter. -/
def after (s : SerialRun W) (replies : ℕ) (t : Driver × W) : SerialRun W where
  state := t
  outstanding := s.outstanding - replies + (t.1.handed - s.state.1.handed)

/-- A line from the adapter, which `select_loop` reads: it closes the driver if that asks for it.
Any other exception ends the program. -/
def receive (s : SerialRun W) (replies : ℕ) (response : List Char) : Option (SerialRun W) :=
  if s.state.1.connected then
    match (Driver.parse_response cb response).exec s.state with
    | (.ok (), t) => some (s.after replies t)
    | (.error (.closeSocketException _), t) => some (s.after replies (t.1.on_close, t.2))
    | (.error _, _) => none
  else none

/-- The next step. A frame is submitted while a client is visited, so a close that its write asks
for is none of the driver. -/
def step (s : SerialRun W) : SerialStep → Option (SerialRun W)
  | .send_frame b =>
    match (Driver.send_frame cb b).exec s.state with
    | (.ok (), t) => some (s.after 0 t)
    | (.error (.closeSocketException _), t) => some (s.after 0 t)
    | (.error _, _) => none
  | .cr => s.receive cb 1 ['\r']
  | .bel => s.receive cb 1 ['\x07']
  | .line text => s.receive cb 0 ('T' :: text)
  | .on_close => some { s with state := (s.state.1.on_close, s.state.2) }
  | .reopen fd =>
    if s.state.1.connected = false ∧ s.state.1.retry_auto_connect ≠ 0 then
      some { state := (s.state.1.opened fd, s.state.2), outstanding := 0 }
    else none

/-- While the driver is connected and has frames, one of them is with the adapter, which has not
replied yet. -/
def InFlight (s : SerialRun W) : Prop :=
  s.state.1.connected = true → s.state.1.send_queue ≠ [] → s.outstanding = 1

/-- The adapter reports no error for a frame, the driver is not opened again with frames left, and
a frame that is written at once does not find the device gone. -/
def Sound (e : SerialStep) (s : SerialRun W) : Prop :=
  match e with
  | .send_frame _ => s.state.1.connected = true → s.state.1.socket ≠ 0 →
    s.state.1.send_queue = [] → s.state.1.writes.head? ≠ some .zero ∧
      s.state.1.writes.head? ≠ some (.error Errno.ENXIO)
  | .bel => s.state.1.connected = true → s.state.1.send_queue = []
  | .reopen _ => s.state.1.connected = false → s.state.1.retry_auto_connect ≠ 0 →
    s.state.1.send_queue = []
  | _ => True

end SerialRun

end H9
