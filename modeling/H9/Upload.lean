import H9.H9fwu
import H9.Lib.Steps

/-!
# h9fwu and a node in its bootloader

The node turns its bootloader on once. It asks for the `K` parts of a page that is started, for one
after another is there, and writes the page when it has them all. The frames of the two, and those of
others, are on their way for any time, in the order in which they were sent.
-/

namespace H9

/-- What a frame to a node in its bootloader tells it. -/
inductive Command
  | node_upgrade
  | page_start (page : ℕ)
  | page_fill (data : List UInt8)
  | quit_bootloader
deriving DecidableEq, Repr

def H9frame.command (node_id : BitVec 9) (frame : H9frame) : Option Command :=
  if frame.destination_id ≠ node_id then none
  else if frame.type = NODE_UPGRADE ∧ frame.dlc = 0 then some .node_upgrade
  else if frame.type = PAGE_START ∧ frame.dlc = 2 then
    some (.page_start (256 * (frame.data.get 0).toNat + (frame.data.get 1).toNat))
  else if frame.type = PAGE_FILL ∧ frame.dlc = 8 then some (.page_fill frame.data.toList)
  else if frame.type = QUIT_BOOTLOADER ∧ frame.dlc = 0 then some .quit_bootloader
  else none

/-- Where a node is. -/
inductive Bootloader
  | off
  | ready
  | filling (page : ℕ) (data : List UInt8)
  | quit
deriving DecidableEq, Repr

/-- The program and the node: how many of the program's frames the node has got, the pages that it has
written, and the messages that the program has not received yet. -/
structure Upload where
  host : H9fwu
  bootloader : Bootloader
  heard : ℕ
  pages : List (ℕ × List UInt8)
  inbox : List (Option H9frame)

/-- A step of one of the two, or a message to the program that is not from the node. The node sends the
frame with its own address and type. -/
inductive UploadStep
  | turn_on (frame : H9frame)
  | node (frame : H9frame)
  | host
  | other (msg : Option H9frame)
deriving DecidableEq, Repr

namespace Upload

variable (image : Firmware) (node_id : BitVec 9) (K : ℕ)

def start (source_id : BitVec 9) : Upload := ⟨H9fwu.start false source_id node_id, .off, 0, [], []⟩

/-- A frame of the node is on its way. -/
def answer (s : Upload) (type : UInt8) (frame : H9frame) : Upload :=
  { s with inbox := s.inbox ++ [some { frame with source_id := node_id, type := type }] }

/-- The node has these parts of the page. -/
def fill (s : Upload) (page : ℕ) (data : List UInt8) (frame : H9frame) : Upload :=
  if data.length < 8 * K then
    { s with bootloader := .filling page data }.answer node_id H9frame.PAGE_FILL_NEXT frame
  else
    { s with bootloader := .ready, pages := s.pages ++ [(page, data)] }.answer node_id
      H9frame.PAGE_WRITED frame

/-- The node gets a command, to which it may answer with `frame`. -/
def hear (s : Upload) (frame : H9frame) : Option Command → Upload
  | some (.page_start page) =>
    if s.bootloader = .off ∨ s.bootloader = .quit then s else s.fill node_id K page [] frame
  | some (.page_fill bytes) =>
    match s.bootloader with
    | .filling page data => s.fill node_id K page (data ++ bytes) frame
    | _ => s
  | some .quit_bootloader => { s with bootloader := .quit }
  | _ => s

/-- Whether a message is not from the node. -/
def FromOther (msg : Option H9frame) : Prop := ∀ frame ∈ msg, frame.source_id ≠ node_id

instance : DecidablePred (FromOther node_id) := fun msg =>
  inferInstanceAs (Decidable (∀ frame ∈ msg, frame.source_id ≠ node_id))

def step (s : Upload) : UploadStep → Option Upload
  | .turn_on frame =>
    if s.bootloader = .off then
      some ({ s with bootloader := .ready }.answer node_id H9frame.BOOTLOADER_TURNED_ON frame)
    else none
  | .node frame =>
    s.host.sent[s.heard]?.map fun sent =>
      { s with heard := s.heard + 1 }.hear node_id K frame (sent.command node_id)
  | .host =>
    match s.inbox with
    | [] => none
    | msg :: inbox => (s.host.step image msg).map fun host => { s with host := host, inbox := inbox }
  | .other msg => if FromOther node_id msg then some { s with inbox := s.inbox ++ [msg] } else none

/-- The commands that the program has sent. -/
def commands (s : Upload) : List (Option Command) := s.host.sent.map (H9frame.command node_id)

/-- The messages that are on their way are there: neither of the two gets another one. -/
def Settled (s : Upload) : Prop := (s.inbox = [] ∨ s.host.ended.isSome) ∧ s.heard = s.host.sent.length

end Upload

/-! ### What is to be sent -/

namespace Firmware

variable (image : Firmware) (K : ℕ)

/-- The bytes from `i` on. -/
def slice (i n : ℕ) : List UInt8 := (image.fw.toList.drop i).take n

/-- How many pages of `8 * K` bytes the image has. -/
def pageCount : ℕ := (image.fw_size + (8 * K - 1)) / (8 * K)

/-- The pages of the image. -/
def pages (n : ℕ) : List (ℕ × List UInt8) :=
  (List.range n).map fun p => (p, image.slice (8 * K * p) (8 * K))

/-- The page is started and its first `i` parts are sent. -/
def pageCommands (p i : ℕ) : List Command :=
  .page_start p :: (List.range i).map fun j => .page_fill (image.slice (8 * K * p + 8 * j) 8)

/-- The first `p` pages are sent. -/
def upTo (p : ℕ) : List Command :=
  .node_upgrade :: (List.range p).flatMap fun q => image.pageCommands K q K

/-- The whole upload. -/
def script : List Command := image.upTo K (image.pageCount K) ++ [.quit_bootloader]

end Firmware

end H9
