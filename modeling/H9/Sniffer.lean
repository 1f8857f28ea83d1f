import H9.Expression
import H9.H9fwu
import H9.Libxml2

/-!
# What h9sniffer prints

h9sniffer (h9sniffer/h9sniffer.cc) subscribes to the frames of h9bus and prints each one that comes, as
a line of comma-separated values, as a line of text (bus/h9frame.cc), or as this line and more behind it.
-/

namespace H9

open GenericMsg

/-! ### Numbers on a stream -/

def dec (n : ℕ) : List Char := (toString n).toList

/-- `std::setw(2)`, with blanks. -/
def setw (cs : List Char) : List Char := List.replicate (2 - cs.length) ' ' ++ cs

/-- `std::hex` with `std::setw(2)` and `std::setfill('0')`. -/
def hex (b : UInt8) : List Char :=
  let digit (n : ℕ) : Char :=
    if n < 10 then Char.ofNat ('0'.toNat + n) else Char.ofNat ('a'.toNat + (n - 10))
  [digit (b.toNat / 16), digit (b.toNat % 16)]

namespace H9frame

def priorityChar (frame : H9frame) : Char :=
  match frame.priority with
  | .HIGH => 'H'
  | .LOW => 'L'

/-- The bytes that `dlc` counts. A frame has at most 8. -/
def bytes (frame : H9frame) : List UInt8 := frame.data.toList.take frame.dlc.toNat

/-- `operator<<`. -/
def text (frame : H9frame) : List Char :=
  dec frame.source_id.toNat ++ " -> ".toList ++ dec frame.destination_id.toNat ++
    " priority: ".toList ++ [frame.priorityChar] ++
    " type: ".toList ++ setw (dec frame.type.toNat) ++
    " seqnum: ".toList ++ setw (dec frame.seqnum.toNat) ++
    " dlc: ".toList ++ dec frame.dlc.toNat ++
    " data:".toList ++ frame.bytes.flatMap fun b => ' ' :: hex b

/-- `H9frame::type_to_string`, null where there is no such type. -/
def type_to_string (type : UInt8) : Option String :=
  ["NOP", "PAGE_START", "QUIT_BOOTLOADER", "PAGE_FILL", "BOOTLOADER_TURNED_ON", "PAGE_FILL_NEXT",
    "PAGE_WRITED", "PAGE_FILL_BREAK", "SET_REG", "GET_REG", "SET_BIT", "CLEAR_BIT", "TOGGLE_BIT",
    "NODE_UPGRADE", "NODE_RESET", "DISCOVER", "REG_EXTERNALLY_CHANGED", "REG_INTERNALLY_CHANGED",
    "REG_VALUE_BROADCAST", "REG_VALUE", "ERROR", "NODE_HEARTBEAT", "NODE_INFO", "NODE_TURNED_ON",
    "NODE_SPECIFIC_BULK0", "NODE_SPECIFIC_BULK1", "NODE_SPECIFIC_BULK2", "NODE_SPECIFIC_BULK3",
    "NODE_SPECIFIC_BULK4", "NODE_SPECIFIC_BULK5", "NODE_SPECIFIC_BULK6",
    "NODE_SPECIFIC_BULK7"][type.toNat]?

end H9frame

/-! ### Output -/

namespace H9sniffer

inductive Output
  | simple
  | normal
  | extended
deriving DecidableEq, Repr

def header : Output → List (List Char)
  | .simple => ["source_id,destination_id,priority,type,seqnum,dlc,data".toList]
  | _ => []

/-- The line of the simple output. -/
def csv (frame : H9frame) : List Char :=
  dec frame.source_id.toNat ++ ',' :: (dec frame.destination_id.toNat ++
    ',' :: ([frame.priorityChar] ++ ',' :: (dec frame.type.toNat ++ ',' :: (dec frame.seqnum.toNat ++
      ',' :: (dec frame.dlc.toNat ++ ',' :: frame.bytes.flatMap hex)))))

/-- A number in two bytes of the data. -/
def word (frame : H9frame) (i : Fin 7) : List Char :=
  dec ((frame.data.get i.castSucc).toNat * 256 + (frame.data.get i.succ).toNat)

def byte (frame : H9frame) (i : Fin 8) : List Char := dec (frame.data.get i).toNat

/-- The line of `print_reg_value`. -/
def valueLine (value : Option ℤ × List UInt8) : List Char :=
  "    value: ".toList ++ (match value.1 with
    | some n => (toString n).toList
    | none => []) ++ ' ' :: value.2.map fun b => Char.ofNat b.toNat

/-- What `print_frame` prints of the data. -/
def dataLines (frame : H9frame) : List (List Char) :=
  let reg := "    reg: ".toList ++ byte frame 0
  if frame.type ∈ [H9frame.REG_EXTERNALLY_CHANGED, H9frame.REG_INTERNALLY_CHANGED,
      H9frame.REG_VALUE_BROADCAST, H9frame.REG_VALUE, H9frame.SET_REG, H9frame.GET_REG] then
    reg :: ((print_reg_value frame).map valueLine).toList
  else if frame.type = H9frame.SET_BIT then [reg, "    set bit: ".toList ++ byte frame 1]
  else if frame.type = H9frame.CLEAR_BIT then [reg, "    clear bit: ".toList ++ byte frame 1]
  else if frame.type = H9frame.TOGGLE_BIT then [reg, "    toggle bit: ".toList ++ byte frame 1]
  else if frame.type = H9frame.NODE_TURNED_ON ∨ frame.type = H9frame.NODE_INFO then
    ["    node type: ".toList ++ word frame 0,
      "    node firmware: ".toList ++ word frame 2 ++ '.' :: word frame 4 ++ '.' :: word frame 6]
  else if frame.type = H9frame.BOOTLOADER_TURNED_ON then
    ["    bootloader version: ".toList ++ byte frame 0 ++ '.' :: byte frame 1,
      "    node MCU type: ".toList ++ byte frame 2,
      "    node type: ".toList ++ word frame 3]
  else if frame.type = H9frame.ERROR then
    ["    error: ".toList ++ byte frame 0 ++ " - ".toList ++
      (H9frame.error_to_string (frame.data.get 0)).toList]
  else []

/-- `print_frame`. To print a null pointer is undefined. -/
def print_frame (frame : H9frame) : Except Exn (List (List Char)) :=
  match H9frame.type_to_string frame.type with
  | none => .error .undefined
  | some name => .ok (("    type name: ".toList ++ name.toList) ::
    ((if frame.destination_id = 0x1ff then ["    destination: BROADCAST".toList] else []) ++
      dataLines frame))

/-- The lines of a frame. A `dlc` above 8 has bytes printed that are not there. -/
def lines (output : Output) (frame : H9frame) : Except Exn (List (List Char)) :=
  if 8 < frame.dlc then .error .undefined
  else match output with
    | .simple => .ok [csv frame]
    | .normal => .ok [frame.text]
    | .extended => do return frame.text :: (← print_frame frame)

/-- What the loop does with a message. Others than frames go to the log. -/
def handle (output : Output) (raw_msg : GenericMsg) : Except Exn (List (List Char)) := do
  if (← get_type raw_msg) = .FRAME then lines output (← get_frame raw_msg) else return []

variable (lib : Libxml2)

/-- The loop of `main` around the one of `H9Connector::recv`, for `n` calls of `H9MsgSocket::recv`: the
lines, and what ended the loop, if something did. An exception out of it ends the program. -/
def loop (output : Output) : ℕ → H9Socket → Inbound → List (List Char) × Option Exn
  | 0, _, _ => ([], none)
  | n + 1, h, k =>
    let first := H9MsgSocket.recv lib.xmlReadMemory h k
    match first.1 with
    | .ok (.error .EAGAIN) => loop output n first.2.1 first.2.2
    | .ok (.error e) => ([], some (.system_error e))
    | .ok .closed => ([], some .terminate)
    | .error e => ([], some e)
    | .ok (.msg raw_msg) =>
      match handle output raw_msg with
      | .error e => ([], some e)
      | .ok ls =>
        let rest := loop output n first.2.1 first.2.2
        (ls ++ rest.1, rest.2)

/-- The text of lines. -/
def text (ls : List (List Char)) : List Char := (ls.map (· ++ ['\n'])).flatten

end H9sniffer

end H9
