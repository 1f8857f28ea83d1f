import H9.Frame
import H9.Lib.OrdMap

/-!
# Who gets which frame

`H9FrameComparator` (bus/h9framecomparator.cc) and `FrameSubject` (h9d/framesubject.cc): observers of
the frames on the bus, in a map by the comparator that says which frames they get. The order of the
map is the comparators' own.
-/

namespace H9

structure H9FrameComparator where
  fields_to_compare : UInt8
  priority : Priority
  type : UInt8
  alternate_type : UInt8
  seqnum : UInt8
  destination_id : UInt16
  source_id : UInt16
  dlc : UInt8
  data : Vector UInt8 8
  first_data_byte : UInt8
deriving DecidableEq, Repr

namespace H9FrameComparator

def PRIORITY : UInt8 := 1

def TYPE : UInt8 := 2

def ALTERNATE_TYPE : UInt8 := 4

def SEQNUM : UInt8 := 8

def DESTINATION_ID : UInt8 := 16

def SOURCE_ID : UInt8 := 32

def DATA : UInt8 := 64

def FIRST_DATA_BYTE : UInt8 := 128

/-- `H9FrameComparator::H9FrameComparator(void)`. -/
def new : H9FrameComparator where
  fields_to_compare := 0
  priority := .LOW
  type := 0
  alternate_type := 0
  seqnum := 0
  destination_id := 0
  source_id := 0
  dlc := 0
  data := Vector.replicate 8 0
  first_data_byte := 0

def set_priority (c : H9FrameComparator) (priority_v : Priority) : H9FrameComparator :=
  { c with priority := priority_v, fields_to_compare := c.fields_to_compare ||| PRIORITY }

def set_type (c : H9FrameComparator) (type_v : UInt8) : H9FrameComparator :=
  { c with type := type_v, fields_to_compare := c.fields_to_compare ||| TYPE }

def set_alternate_type (c : H9FrameComparator) (type_v : UInt8) : H9FrameComparator :=
  { c with alternate_type := type_v, fields_to_compare := c.fields_to_compare ||| ALTERNATE_TYPE }

def set_seqnum (c : H9FrameComparator) (seqnum_v : UInt8) : H9FrameComparator :=
  { c with seqnum := seqnum_v, fields_to_compare := c.fields_to_compare ||| SEQNUM }

def set_destination_id (c : H9FrameComparator) (destination_id_v : UInt16) : H9FrameComparator :=
  { c with
    destination_id := destination_id_v
    fields_to_compare := c.fields_to_compare ||| DESTINATION_ID }

def set_source_id (c : H9FrameComparator) (source_id_v : UInt16) : H9FrameComparator :=
  { c with source_id := source_id_v, fields_to_compare := c.fields_to_compare ||| SOURCE_ID }

/-- The bytes beyond those set stay. -/
def set_data (c : H9FrameComparator) (data_v : List UInt8) : H9FrameComparator :=
  { c with
    data := Vector.ofFn fun i => data_v.getD i.val c.data[i]
    dlc := UInt8.ofNat data_v.length
    fields_to_compare := c.fields_to_compare ||| DATA }

def set_first_data_byte (c : H9FrameComparator) (data0 : UInt8) : H9FrameComparator :=
  { c with first_data_byte := data0, fields_to_compare := c.fields_to_compare ||| FIRST_DATA_BYTE }

/-- `H9FrameComparator::H9FrameComparator(std::uint16_t)`. -/
def ofSource (source_id_v : UInt16) : H9FrameComparator := new.set_source_id source_id_v

/-- A call of a setter. There are eight bytes at most. -/
inductive Setter
  | set_priority (priority_v : Priority)
  | set_type (type_v : UInt8)
  | set_alternate_type (type_v : UInt8)
  | set_seqnum (seqnum_v : UInt8)
  | set_destination_id (destination_id_v : UInt16)
  | set_source_id (source_id_v : UInt16)
  | set_data (data_v : List UInt8) (nbyte_le : data_v.length ≤ 8)
  | set_first_data_byte (data0 : UInt8)

def set (c : H9FrameComparator) : Setter → H9FrameComparator
  | .set_priority priority_v => c.set_priority priority_v
  | .set_type type_v => c.set_type type_v
  | .set_alternate_type type_v => c.set_alternate_type type_v
  | .set_seqnum seqnum_v => c.set_seqnum seqnum_v
  | .set_destination_id destination_id_v => c.set_destination_id destination_id_v
  | .set_source_id source_id_v => c.set_source_id source_id_v
  | .set_data data_v _ => c.set_data data_v
  | .set_first_data_byte data0 => c.set_first_data_byte data0

/-- The comparator after the calls, from the default constructor on. -/
def built (calls : List Setter) : H9FrameComparator := calls.foldl set new

def compares (c : H9FrameComparator) (field : UInt8) : Bool := c.fields_to_compare &&& field ≠ 0

/-- `operator==`: whether the frame is one that the comparator asks for. -/
def eqFrame (c : H9FrameComparator) (b : H9frame) : Bool :=
  if c.compares PRIORITY ∧ c.priority ≠ b.priority then false
  else if c.compares TYPE ∧ c.type ≠ b.type ∧
    (¬ c.compares ALTERNATE_TYPE ∨ c.alternate_type ≠ b.type) then false
  else if c.compares SEQNUM ∧ c.seqnum.toNat ≠ b.seqnum.toNat then false
  else if c.compares DESTINATION_ID ∧ c.destination_id.toNat ≠ b.destination_id.toNat then false
  else if c.compares SOURCE_ID ∧ c.source_id.toNat ≠ b.source_id.toNat then false
  else if c.compares DATA ∧ (c.dlc ≠ b.dlc ∨
    c.data.toList.take c.dlc.toNat ≠ b.data.toList.take c.dlc.toNat) then false
  else if c.compares FIRST_DATA_BYTE ∧ (b.dlc < 1 ∨ c.first_data_byte ≠ b.data.get 0) then false
  else true

/-- `operator<`, which goes on to the next field also where one is greater. -/
def less (a b : H9FrameComparator) : Bool :=
  if a.fields_to_compare < b.fields_to_compare then true
  else if a.priority.to_underlying < b.priority.to_underlying then true
  else if a.type < b.type then true
  else if a.seqnum < b.seqnum then true
  else if a.destination_id < b.destination_id then true
  else if a.source_id < b.source_id then true
  else if a.dlc < b.dlc then true
  else if a.dlc = b.dlc ∧ ((a.data.toList.zip b.data.toList).take a.dlc.toNat).any (fun p => p.1 < p.2)
    then true
  else a.first_data_byte < b.first_data_byte

end H9FrameComparator

/-- The observers, for each comparator those attached with it. -/
structure FrameSubject (O : Type) where
  frame_observers : List (H9FrameComparator × List O)

namespace FrameSubject

variable {O : Type} [DecidableEq O]

def new : FrameSubject O := ⟨[]⟩

def attach_frame_observer (s : FrameSubject O) (observer : O) (comparator : H9FrameComparator) :
    FrameSubject O :=
  ⟨OrdMap.modify H9FrameComparator.less comparator [] (· ++ [observer]) s.frame_observers⟩

def detach_frame_observer (s : FrameSubject O) (observer : O) : FrameSubject O :=
  ⟨OrdMap.remove observer s.frame_observers⟩

/-- The observers whose `on_frame_recv` is called with the frame, in the order of the calls. -/
def notify_frame_observer (s : FrameSubject O) (frame : H9frame) : List O :=
  s.frame_observers.flatMap fun o => if o.1.eqFrame frame then o.2 else []

end FrameSubject

/-- Who observes the bus: the `DevMgr`, or a `Node` with its id. -/
inductive Watcher
  | devMgr
  | node (node_id : UInt16)
deriving DecidableEq, Repr

/-- The comparator that it is constructed with. -/
def Watcher.comparator : Watcher → H9FrameComparator
  | devMgr => .new
  | node node_id => .ofSource node_id

/-- A call on the bus as a subject. -/
inductive SubjectCall (O : Type)
  | attach_frame_observer (observer : O) (watcher : Watcher)
  | detach_frame_observer (observer : O)
  | notify_frame_observer (frame : H9frame)

namespace FrameSubject

variable {O : Type} [DecidableEq O]

/-- The subject after a call. A notification changes nothing. -/
def step (s : FrameSubject O) : SubjectCall O → FrameSubject O
  | .attach_frame_observer observer watcher =>
    s.attach_frame_observer observer watcher.comparator
  | .detach_frame_observer observer => s.detach_frame_observer observer
  | .notify_frame_observer _ => s

def run (s : FrameSubject O) (calls : List (SubjectCall O)) : FrameSubject O := calls.foldl step s

end FrameSubject

end H9
