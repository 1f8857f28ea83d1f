import H9.Messages
import H9.Node

/-!
# Register values on the command line

The commands of h9cli (h9cli/expression.cc) give the bus a frame for a register of a node and print
what the node answers. h9sniffer prints the registers in the frames that pass by.
-/

namespace H9

namespace H9frame

def SET_BIT : UInt8 := 10
def CLEAR_BIT : UInt8 := 11
def TOGGLE_BIT : UInt8 := 12
def ERROR : UInt8 := 20

/-- `H9frame::error_to_string`. -/
def error_to_string (error : UInt8) : String :=
  if error = 1 then "INVALID_MSG"
  else if error = 2 then "UNSUPPORTED_BOOTLOADER"
  else if error = 3 then "INVALID_REGISTER"
  else if error = 0xff then "NODE_SPECIFIC_ERROR"
  else "UNKNOWN"

end H9frame

/-! ### The commands of h9cli -/

/-- A node, whose number is an `int`. -/
structure NodeExp where
  node_id : ℤ
deriving DecidableEq, Repr

structure NodeRegExp where
  node : NodeExp
  reg_number : ℤ
deriving DecidableEq, Repr

/-- What a command prints of an answer. -/
inductive Printed
  | value (tmp : UInt64)
  | error (err_num : UInt8) (name : String)
deriving DecidableEq, Repr

/-- The frame of a command, with these numbers at the start of its data. A byte keeps the last eight
bits of an `int`. -/
def NodeExp.frame (node : NodeExp) (source_id : BitVec 16) (type dlc : UInt8) (data : List ℤ) :
    H9frame :=
  { H9frame.new with
    priority := .LOW
    source_id := source_id.setWidth 9
    destination_id := BitVec.ofInt 9 node.node_id
    type := type
    dlc := dlc
    data := fillData H9frame.new.data (data.map UInt8.ofInt) }

/-- The number in the bytes after the first. A frame has at most 8 bytes. -/
def response_value (frame : H9frame) : UInt64 :=
  ((frame.data.toList.take frame.dlc.toNat).drop 2).foldl
    (fun tmp byte => tmp <<< 8 ||| byte.toUInt64) (frame.data.get 1).toUInt64

namespace NodeRegExp

/-- What is printed of a frame, if it ends the wait for an answer of that type. -/
def response (reg : NodeRegExp) (type : UInt8) (frame : H9frame) : Option Printed :=
  if (frame.source_id.toNat : ℤ) = reg.node.node_id ∧ frame.type = type ∧ 1 < frame.dlc ∧
      ((frame.data.get 0).toNat : ℤ) = reg.reg_number then
    some (.value (response_value frame))
  else if (frame.source_id.toNat : ℤ) = reg.node.node_id ∧ frame.type = H9frame.ERROR ∧
      frame.dlc = 1 then
    some (.error (frame.data.get 0) (H9frame.error_to_string (frame.data.get 0)))
  else none

/-- What is printed of the messages that are received, the frames of those that have one. -/
def wait (reg : NodeRegExp) (type : UInt8) (received : List (Option H9frame)) : Option Printed :=
  received.findSome? fun msg => msg.bind (reg.response type)

/-- The messages of a command that waits for the answer: the last one is sent when there is one. -/
def messages (frame : H9frame) (printed : Option Printed) : List GenericMsg :=
  [SubscribeMsg, SendFrameMsg frame] ++ printed.toList.map fun _ => SubscribeMsg

end NodeRegExp

/-- `NodeRestart::operator()`: the message that it sends. -/
def NodeRestart (source_id : BitVec 16) (node : NodeExp) : GenericMsg :=
  SendFrameMsg (node.frame source_id H9frame.NODE_RESET 0 [])

namespace NodeGetReg

def frame (source_id : BitVec 16) (reg : NodeRegExp) : H9frame :=
  reg.node.frame source_id H9frame.GET_REG 1 [reg.reg_number]

/-- The loop in `operator()`. -/
def print_response (reg : NodeRegExp) (received : List (Option H9frame)) : Option Printed :=
  reg.wait H9frame.REG_VALUE received

/-- `operator()`: what it sends and what it prints. -/
def run (source_id : BitVec 16) (reg : NodeRegExp) (received : List (Option H9frame)) :
    List GenericMsg × Option Printed :=
  let printed := print_response reg received
  (NodeRegExp.messages (frame source_id reg) printed, printed)

end NodeGetReg

namespace NodeSetReg

def print_response (reg : NodeRegExp) (received : List (Option H9frame)) : Option Printed :=
  reg.wait H9frame.REG_EXTERNALLY_CHANGED received

/-- `operator()` of the commands that change a register, by the frame that they send. -/
def run (frame : H9frame) (reg : NodeRegExp) (received : List (Option H9frame)) :
    List GenericMsg × Option Printed :=
  let printed := print_response reg received
  (NodeRegExp.messages frame printed, printed)

end NodeSetReg

def NodeSetBit.frame (source_id : BitVec 16) (reg : NodeRegExp) (bit_num : ℤ) : H9frame :=
  reg.node.frame source_id H9frame.SET_BIT 2 [reg.reg_number, bit_num]

def NodeClearBit.frame (source_id : BitVec 16) (reg : NodeRegExp) (bit_num : ℤ) : H9frame :=
  reg.node.frame source_id H9frame.CLEAR_BIT 2 [reg.reg_number, bit_num]

def NodeToggleBit.frame (source_id : BitVec 16) (reg : NodeRegExp) (bit_num : ℤ) : H9frame :=
  reg.node.frame source_id H9frame.TOGGLE_BIT 2 [reg.reg_number, bit_num]

def NodeSet1Reg.frame (source_id : BitVec 16) (reg : NodeRegExp) (value : ℤ) : H9frame :=
  reg.node.frame source_id H9frame.SET_REG 2 [reg.reg_number, value]

def NodeSet2Reg.frame (source_id : BitVec 16) (reg : NodeRegExp) (value : ℤ) : H9frame :=
  reg.node.frame source_id H9frame.SET_REG 3 [reg.reg_number, value <<< (8 : ℕ), value]

def NodeSet3Reg.frame (source_id : BitVec 16) (reg : NodeRegExp) (value : ℤ) : H9frame :=
  reg.node.frame source_id H9frame.SET_REG 4 [reg.reg_number, value <<< (16 : ℕ), value <<< (8 : ℕ), value]

def NodeSet4Reg.frame (source_id : BitVec 16) (reg : NodeRegExp) (value : ℤ) : H9frame :=
  reg.node.frame source_id H9frame.SET_REG 5
    [reg.reg_number, value <<< (24 : ℕ), value <<< (16 : ℕ), value <<< (8 : ℕ), value]

/-- The commands that write a number into a register, with how many bytes they write. -/
def NodeSetReg.commands : List (ℕ × (BitVec 16 → NodeRegExp → ℤ → H9frame)) :=
  [(1, NodeSet1Reg.frame), (2, NodeSet2Reg.frame), (3, NodeSet3Reg.frame), (4, NodeSet4Reg.frame)]

/-! ### What h9sniffer prints -/

/-- `isprint` in the C locale. -/
def isprint (c : UInt8) : Bool := 0x20 ≤ c ∧ c ≤ 0x7e

/-- The text in `buf`, into which the printable bytes at the end of the data are copied. -/
def printable (bytes : List UInt8) : List UInt8 :=
  let tail := (bytes.reverse.takeWhile isprint).reverse
  (List.replicate (bytes.length - tail.length) 0 ++ tail).takeWhile (· ≠ 0)

/-- The number in the case of the length, an `int`. -/
def print_reg_number (frame : H9frame) : Option ℤ :=
  let byte (i : Fin 8) : UInt32 := (frame.data.get i).toUInt32
  if frame.dlc = 2 then some (byte 1).toInt32.toInt
  else if frame.dlc = 3 then some (byte 1 <<< 8 ||| byte 2).toInt32.toInt
  else if frame.dlc = 5 then
    some (byte 1 <<< 24 ||| byte 2 <<< 16 ||| byte 3 <<< 8 ||| byte 4).toInt32.toInt
  else none

/-- `print_reg_value`: the number, if it prints one, and the text behind it. -/
def print_reg_value (frame : H9frame) : Option (Option ℤ × List UInt8) :=
  if 1 < frame.dlc then
    some (print_reg_number frame, printable ((frame.data.toList.take frame.dlc.toNat).drop 1))
  else none

end H9
