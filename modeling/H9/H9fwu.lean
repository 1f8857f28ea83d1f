import H9.Frame

/-!
# The upload of a firmware

The loop of `main` (h9fwu/h9fwu.cc), from the first frame that it sends. The connection to h9bus holds.
-/

namespace H9

namespace H9frame

def PAGE_START : UInt8 := 1
def QUIT_BOOTLOADER : UInt8 := 2
def PAGE_FILL : UInt8 := 3
def BOOTLOADER_TURNED_ON : UInt8 := 4
def PAGE_FILL_NEXT : UInt8 := 5
def PAGE_WRITED : UInt8 := 6
def NODE_UPGRADE : UInt8 := 13

end H9frame

/-- The 128 KiB that `read_ihex` allocates, and the length that it returns. -/
structure Firmware where
  fw : Vector UInt8 (128 * 1024)
  fw_size : ℕ

namespace Firmware

/-- `fw[fw_idx++]` eight times, which is nothing where one of them is not in the buffer. -/
def next (image : Firmware) (fw_idx : ℕ) : Option (Vector UInt8 8) :=
  if h : fw_idx + 8 ≤ 128 * 1024 then
    some (Vector.ofFn fun i : Fin 8 => image.fw.get ⟨fw_idx + i, by omega⟩)
  else none

end Firmware

/-- How the program ends. -/
inductive H9fwuEnd
  | EXIT_SUCCESS
  | division_by_zero
  | out_of_bounds
deriving DecidableEq, Repr

/-- The local variables of `main`, with the frames that were sent. -/
structure H9fwu where
  frame : H9frame
  seqnum : UInt8
  page : UInt16
  fw_idx : ℕ
  sent : List H9frame
  ended : Option H9fwuEnd

namespace H9fwu

/-- `frame` is filled in, and sent with the next number. -/
def send (s : H9fwu) (type dlc : UInt8) (data : Vector UInt8 8) : H9fwu :=
  let frame := { s.frame with
    type := type, dlc := dlc, seqnum := BitVec.ofNat 5 s.seqnum.toNat, data := data }
  { s with frame := frame, seqnum := s.seqnum + 1, sent := s.sent ++ [frame] }

def page_start (s : H9fwu) : H9fwu :=
  s.send H9frame.PAGE_START 2
    ((s.frame.data.set 0 (s.page >>> 8).toUInt8).set 1 s.page.toUInt8)

/-- Up to the loop. -/
def start (noupgrademsg : Bool) (source_id destination_id : BitVec 9) : H9fwu :=
  let frame := { H9frame.new with
    priority := .HIGH, source_id := source_id, destination_id := destination_id }
  let s : H9fwu := ⟨frame, 0, 0, 0, [], none⟩
  if noupgrademsg then s.page_start else s.send H9frame.NODE_UPGRADE 0 s.frame.data

/-- What the loop does with a frame. -/
def recv (image : Firmware) (s : H9fwu) (recv_frame : H9frame) : H9fwu :=
  if recv_frame.source_id ≠ s.frame.destination_id then s
  else if recv_frame.type = H9frame.BOOTLOADER_TURNED_ON ∨ recv_frame.type = H9frame.PAGE_WRITED then
    if recv_frame.type = H9frame.PAGE_WRITED then
      -- the progress is `fw_idx * 100 / fw_size`
      if image.fw_size = 0 then { s with ended := some .division_by_zero }
      else if image.fw_size ≤ s.fw_idx then
        { s.send H9frame.QUIT_BOOTLOADER 0 s.frame.data with ended := some .EXIT_SUCCESS }
      else { s with page := s.page + 1 }.page_start
    else s.page_start
  else if recv_frame.type = H9frame.PAGE_FILL_NEXT then
    match image.next s.fw_idx with
    | some data => { s with fw_idx := s.fw_idx + 8 }.send H9frame.PAGE_FILL 8 data
    | none => { s with ended := some .out_of_bounds }
  else s

/-- One turn of the loop, with a frame or with a message of another kind. -/
def step (image : Firmware) (s : H9fwu) (raw_msg : Option H9frame) : Option H9fwu :=
  if s.ended.isSome then none
  else
    match raw_msg with
    | some recv_frame => some (s.recv image recv_frame)
    | none => some s

end H9fwu

end H9
