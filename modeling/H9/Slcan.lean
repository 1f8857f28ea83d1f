import H9.Exits
import H9.Frame
import H9.Lib.CText

/-!
# Frames on the serial line

The lines of an slcan adapter (drivers/slcan.cc): `T`, an identifier of eight hexadecimal digits
that packs a frame's fields, the number of bytes, and the bytes.
-/

namespace H9

namespace Slcan

/-- The number in hexadecimal, at least `width` digits of it. -/
def hex (width n : ℕ) : List Char :=
  let digits := Nat.toDigits 16 n
  List.replicate (width - digits.length) '0' ++ digits

/-- The 29 bits of a frame's identifier. -/
def frame_id (frame : H9frame) : ℕ :=
  let id := match frame.priority with | .HIGH => 0 | .LOW => 1
  let id := id <<< 5 ||| (frame.type &&& 31).toNat
  let id := id <<< 5 ||| frame.seqnum.toNat
  let id := id <<< 9 ||| frame.destination_id.toNat
  id <<< 9 ||| frame.source_id.toNat

def build_slcan_msg (frame : H9frame) : List Char :=
  'T' :: hex 8 (frame_id frame) ++ hex 1 frame.dlc.toNat ++
    (frame.data.toList.take frame.dlc.toNat).flatMap (fun b => hex 2 b.toNat) ++ ['\r']

/-- `std::string::substr`. -/
def substr (s : List Char) (pos n : ℕ) : Except Exn (List Char) :=
  if s.length < pos then .error (.out_of_range "basic_string::substr") else .ok ((s.drop pos).take n)

/-- `std::stoi` of a hexadecimal numeral. -/
def stoi16 (s : List Char) : Except Exn ℤ :=
  match CText.stoi 16 s with
  | .ok n => .ok n
  | .error .invalid_argument => .error (.invalid_argument "stoi")
  | .error .out_of_range => .error (.out_of_range "stoi")

/-- The bytes `i` and on of a line, `n` of them. A frame has room for eight. -/
def parseData (s : List Char) : ℕ → ℕ → Vector UInt8 8 → Except Exn (Vector UInt8 8)
  | 0, _, data => .ok data
  | n + 1, i, data => do
    let tmp ← stoi16 (← substr s (10 + i * 2) 2)
    if h : i < 8 then parseData s n (i + 1) (data.set i (UInt8.ofInt tmp)) else throw .undefined

def parse_slcan_msg (slcan_data : List Char) : Except Exn H9frame := do
  let id ← stoi16 (← substr slcan_data 1 8)
  let id := BitVec.ofInt 32 id
  let dlc ← stoi16 (← substr slcan_data 9 1)
  let data ← parseData slcan_data (BitVec.ofInt 32 dlc).toNat 0 (Vector.replicate 8 0)
  return {
    priority := if id.getLsbD 28 then .LOW else .HIGH
    type := UInt8.ofBitVec ((id >>> 23 &&& 31).setWidth 8)
    seqnum := (id >>> 18).setWidth 5
    destination_id := (id >>> 9).setWidth 9
    source_id := id.setWidth 9
    dlc := UInt8.ofInt dlc
    data := data }

end Slcan

end H9
