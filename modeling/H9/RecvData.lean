import H9.Driver
import H9.SocketCan

/-!
# What the drivers read

`recv_data` of a `SocketCAN` and of a `Loop` (drivers/socketcan.cc, drivers/loop.cc) reads a record
into a variable on the stack and takes the frame from there. A read writes to as much of the variable
as it counts, and to nothing when it fails. An `Slcan` reads bytes of lines.
-/

namespace H9

/-- How a `can_frame` and an `H9frame` lie in memory. -/
structure Representation where
  can_frame_size : ℕ
  can_frame : Vector UInt8 can_frame_size → can_frame
  H9frame_size : ℕ
  H9frame : Vector UInt8 H9frame_size → H9frame

namespace Representation

variable (rep : Representation)

/-- How many bytes `recv_data` asks for. -/
def room : DriverKind → ℕ
  | .dummy => rep.H9frame_size
  | .loop => rep.H9frame_size
  | .slcan => 99
  | .socketcan => rep.can_frame_size

/-- The numbers that a little-endian processor takes from bytes. -/
def littleEndian (bytes : List UInt8) : ℕ := bytes.foldr (fun b n => b.toNat + 256 * n) 0

/-- Both as x86-64 has them. -/
def x86_64 : Representation where
  can_frame_size := 16
  can_frame v :=
    { can_id := BitVec.ofNat 32 (littleEndian [v[0], v[1], v[2], v[3]])
      can_dlc := v[4]
      data := #v[v[8], v[9], v[10], v[11], v[12], v[13], v[14], v[15]] }
  H9frame_size := 16
  H9frame v :=
    let ids := BitVec.ofNat 32 (littleEndian [v[2], v[3], v[4], v[5]])
    { priority := if v[0] = 0 then .HIGH else .LOW
      type := v[1]
      seqnum := ids.setWidth 5
      destination_id := (ids >>> 5).setWidth 9
      source_id := (ids >>> 16).setWidth 9
      dlc := v[6]
      data := #v[v[7], v[8], v[9], v[10], v[11], v[12], v[13], v[14]] }

end Representation

/-- The variable of `n` bytes in this memory, after `bytes` were read into it. -/
def readInto (n : ℕ) (memory : ℕ → UInt8) (bytes : List UInt8) : Vector UInt8 n :=
  Vector.ofFn fun i => bytes.getD i (memory i)

/-- What a read gives: an error, or no more bytes than there is room for. -/
abbrev ReadResult (room : ℕ) := Except Errno { bytes : List UInt8 // bytes.length ≤ room }

namespace ReadResult

variable {room : ℕ}

def bytes : ReadResult room → List UInt8
  | .ok bs => bs.1
  | .error _ => []

/-- The bytes as text. -/
def text (r : ReadResult room) : List Char := r.bytes.map fun b => Char.ofNat b.toNat

end ReadResult

/-- The answer to the read in `recv_data`, and the frame in the variable that it read into. -/
def Representation.answer (rep : Representation) (kind : DriverKind) (memory : ℕ → UInt8)
    (r : ReadResult (rep.room kind)) : ReadAnswer where
  result := r.map fun _ => r.text
  buf :=
    match kind with
    | .socketcan => SocketCAN.recv_data (rep.can_frame (readInto _ memory r.bytes))
    | _ => rep.H9frame (readInto _ memory r.bytes)

end H9
