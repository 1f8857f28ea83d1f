import H9.Driver

/-!
# The bus

`BusMgr` (h9bus/busmgr.cc) keeps the drivers by their names and sends a frame on all of them. A
`BusFrame` counts the drivers it was given to and those that are done with it, and the last one
deletes it. The events go to a handler on the state `W` of the rest of the program.
-/

namespace H9

open Prog

/-- What happens to a `BusFrame`: a driver is counted, gets it, or is done with it; and its end. -/
inductive Touch
  | counted (endpoint : String)
  | queued (endpoint : String)
  | completed (endpoint : String)
  | deleted
deriving DecidableEq, Repr

structure Counters where
  total_endpoint_count : ℕ
  completed_endpoint_count : ℕ
deriving DecidableEq, Repr

/-- The memory of the `BusFrame` objects. The counters of one that was deleted stay here as they were,
which says nothing of the program: that it does not look at them is what `Intact` says. -/
structure FrameHeap where
  next : ℕ
  counters : ℕ → Counters
  /-- What happened to the object at each address, of which the program keeps no record. -/
  log : List (ℕ × Touch)

namespace FrameHeap

def empty : FrameHeap where
  next := 1
  counters _ := ⟨0, 0⟩
  log := []

/-- `new BusFrame`; `next` is its address. -/
def alloc (h : FrameHeap) : FrameHeap :=
  { h with next := h.next + 1, counters := Function.update h.counters h.next ⟨0, 0⟩ }

/-- What happened to the object at `a`. -/
def touches (h : FrameHeap) (a : ℕ) : List Touch :=
  h.log.filterMap fun e => if e.1 = a then some e.2 else none

def touch (h : FrameHeap) (a : ℕ) (t : Touch) : FrameHeap := { h with log := h.log ++ [(a, t)] }

/-- Nothing happens to an object after it was deleted. -/
def Sound (log : List (ℕ × Touch)) : Prop := log.Pairwise fun e e' => e.2 = .deleted → e'.1 ≠ e.1

instance (log : List (ℕ × Touch)) : Decidable (Sound log) :=
  inferInstanceAs (Decidable (log.Pairwise fun e e' => e.2 = .deleted → e'.1 ≠ e.1))

/-- No object was used after it was deleted, which C++ leaves undefined. -/
def Intact (h : FrameHeap) : Prop := Sound h.log

instance (h : FrameHeap) : Decidable h.Intact := inferInstanceAs (Decidable (Sound h.log))

def inc_total_endpoint_count (h : FrameHeap) (a : ℕ) (endpoint : String) : FrameHeap :=
  { h.touch a (.counted endpoint) with
    counters := Function.update h.counters a
      { h.counters a with total_endpoint_count := (h.counters a).total_endpoint_count + 1 } }

def int_completed_endpoint_count (h : FrameHeap) (a : ℕ) (endpoint : String) : FrameHeap :=
  { h.touch a (.completed endpoint) with
    counters := Function.update h.counters a
      { h.counters a with completed_endpoint_count := (h.counters a).completed_endpoint_count + 1 } }

end FrameHeap

/-- `EventMgr::process_recv_frame` and `process_sent_frame`. -/
structure EventHandler (W : Type) where
  process_recv_frame : String → BusFrame → Prog W Exn Unit
  process_sent_frame : String → BusFrame → Prog W Exn Unit

structure BusMgr where
  dev : Std.TreeMap String Driver
  heap : FrameHeap

namespace BusMgr

variable {W : Type} (handler : EventHandler W)

/-- `BusMgr::on_recv_frame`, whose `BusFrame` is a local. -/
def on_recv_frame (endpoint : String) (frame : H9frame) : Prog (FrameHeap × W) Exn Unit :=
  onSnd (handler.process_recv_frame endpoint ⟨0, frame, endpoint, 0, 0⟩)

/-- `BusMgr::on_send_frame`. Of a `busframe` that is deleted already nothing can be said (`Intact`). -/
def on_send_frame (endpoint : String) (busframe : BusFrame) : Prog (FrameHeap × W) Exn Unit := do
  modifyFst fun h => h.int_completed_endpoint_count busframe.addr endpoint
  let h ← getFst
  let tmp := (h.counters busframe.addr).completed_endpoint_count
  onSnd (handler.process_sent_frame endpoint busframe)
  let h ← getFst
  if tmp = (h.counters busframe.addr).total_endpoint_count then
    modifyFst fun h => h.touch busframe.addr .deleted

def callbacks (endpoint : String) : Callbacks (FrameHeap × W) where
  recv_frame := on_recv_frame handler endpoint
  send_frame := on_send_frame handler endpoint

/-- A call on the driver `dev[endpoint]`, which is null if there is none. -/
def onDriver {α : Type} (endpoint : String)
    (p : Callbacks (FrameHeap × W) → Prog (Driver × FrameHeap × W) Exn α) :
    Prog (BusMgr × W) Exn α := fun (bm, w) =>
  match bm.dev[endpoint]? with
  | none => (.error .undefined, bm, w)
  | some d =>
    match (p (callbacks handler endpoint)).exec (d, bm.heap, w) with
    | (r, d', heap', w') => (r, { dev := bm.dev.insert endpoint d', heap := heap' }, w')

/-- The driver `endpoint` is counted and gets the frame. -/
def give (busframe : BusFrame) (endpoint : String) : Prog (BusMgr × W) Exn Unit := do
  modifyFst fun bm =>
    { bm with heap := bm.heap.inc_total_endpoint_count busframe.addr endpoint }
  modifyFst fun bm => { bm with heap := bm.heap.touch busframe.addr (.queued endpoint) }
  onDriver handler endpoint fun cb => Driver.send_frame cb busframe

/-- `BusMgr::send_frame`; to all drivers if `endpoint` is empty. -/
def send_frame (frame : H9frame) (origin : String) (orgin_client_id : ℕ) (orgin_msg_id : UInt64)
    (endpoint : String) : Prog (BusMgr × W) Exn Unit := do
  let bm ← getFst
  let bus_frame : BusFrame := ⟨bm.heap.next, frame, origin, orgin_client_id, orgin_msg_id⟩
  modifyFst fun bm => { bm with heap := bm.heap.alloc }
  if endpoint = "" then forEach bm.dev.keys (give handler bus_frame)
  else if bm.dev.contains endpoint then give handler bus_frame endpoint

/-- `Driver::on_select` of the driver `endpoint`. -/
def on_select (endpoint : String) (answer : ReadAnswer) : Prog (BusMgr × W) Exn Unit :=
  onDriver handler endpoint fun cb => Driver.recv_data cb answer

end BusMgr

/-- What reaches the bus: a frame to send, or what a driver's descriptor has to read. -/
inductive BusStep
  | send_frame (frame : H9frame) (origin : String) (orgin_client_id : ℕ) (orgin_msg_id : UInt64)
      (endpoint : String)
  | on_select (endpoint : String) (answer : ReadAnswer)

def BusStep.run {W : Type} (handler : EventHandler W) : BusStep → Prog (BusMgr × W) Exn Unit
  | .send_frame frame origin orgin_client_id orgin_msg_id endpoint =>
    BusMgr.send_frame handler frame origin orgin_client_id orgin_msg_id endpoint
  | .on_select endpoint answer => BusMgr.on_select handler endpoint answer

end H9
