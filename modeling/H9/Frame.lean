import Mathlib

/-!
# Frames on the bus

`H9frame` (bus/h9frame.h). A type is a byte, as `set_type_from_underlying` puts any byte below 64
into it.
-/

namespace H9

inductive Priority
  | HIGH
  | LOW
deriving DecidableEq, Repr

/-- `H9frame::to_underlying`. -/
def Priority.to_underlying : Priority → UInt8
  | .HIGH => 0
  | .LOW => 1

-- Numbers are used as places in the data, and those of two bytes.
instance neZero_bytes : NeZero 8 := ⟨by decide⟩
instance neZero_words : NeZero 7 := ⟨by decide⟩

structure H9frame where
  priority : Priority
  type : UInt8
  seqnum : BitVec 5
  destination_id : BitVec 9
  source_id : BitVec 9
  dlc : UInt8
  data : Vector UInt8 8
deriving DecidableEq, Repr

/-- `H9frame::H9frame`, which leaves the number and the addresses unset. -/
def H9frame.new : H9frame where
  priority := .LOW
  type := 0
  seqnum := 0
  destination_id := 0
  source_id := 0
  dlc := 0
  data := Vector.replicate 8 0

end H9
