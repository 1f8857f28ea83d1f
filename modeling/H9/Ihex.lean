import H9.H9fwu
import H9.Lib.Lines

/-!
# Reading an Intel HEX file

`read_ihex` (h9fwu/h9fwu.cc) reads the records of a file line by line into 128 KiB. A pointer is a
function from the offsets; what is behind a line in its buffer is whatever was in memory there.
-/

namespace H9

/-- What `hex2bin` takes a character for. -/
def hexNibble (c : UInt8) : UInt8 :=
  (if 0x30 ≤ c ∧ c ≤ 0x39 then c - 0x30
  else if 0x61 ≤ c ∧ c ≤ 0x66 then c - 0x61 + 10
  else if 0x41 ≤ c ∧ c ≤ 0x46 then c - 0x41 + 10
  else c) &&& 0xf

def hex2bin (hex : ℕ → UInt8) : UInt8 :=
  if hex 0 = 0 then 0
  else if hex 1 = 0 then hexNibble (hex 0)
  else hexNibble (hex 0) <<< 4 ||| hexNibble (hex 1)

/-- `line + n`. -/
def pointer (line : ℕ → UInt8) (n : ℕ) : ℕ → UInt8 := fun i => line (n + i)

/-- The buffer of a line, with a zero behind its characters. -/
def lineBuffer (line : List UInt8) (memory : ℕ → UInt8) : ℕ → UInt8 := fun i =>
  if i < line.length then line.getD i 0 else if i = line.length then 0 else memory i

/-- The lines that `getline` gives, of which the last one may have no end. -/
def getlines (file : List UInt8) : List (List UInt8) :=
  let rest := Lines.rest (· = 0x0a) file
  Lines.lines (· = 0x0a) file ++ if rest = [] then [] else [rest]

/-- The local variables of `read_ihex`, with the indices of `fw_data` that were written. An
`extended_address` and what is added to it are below 2^32. -/
structure ReadIhex where
  extended_address : ℕ
  data_length : ℕ
  fw_data : ℕ → UInt8
  written : List ℕ

namespace ReadIhex

def start : ReadIhex where
  extended_address := 0
  data_length := 0
  fw_data _ := 0xff
  written := []

/-- `(*fw_data)[data_length++] = tmp`. -/
def store (s : ReadIhex) (tmp : UInt8) : ReadIhex :=
  { s with
    fw_data := Function.update s.fw_data s.data_length tmp
    data_length := s.data_length + 1
    written := s.written ++ [s.data_length] }

/-- The end of a record whose check sum is `crc`, and whether it is the right one. -/
def check (s : ReadIhex) (tmp_crc crc : UInt8) : ReadIhex × Bool :=
  if 0 - tmp_crc ≠ crc then ({ s with data_length := 0 }, false) else (s, true)

/-- A record of type 0, and whether the loop goes on. -/
def data_record (s : ReadIhex) (line : ℕ → UInt8) (address : ℕ) (size tmp_crc : UInt8) :
    ReadIhex × Bool :=
  let s := if s.data_length < address then { s with data_length := address } else s
  let bytes := (List.range size.toNat).map fun n => hex2bin (pointer line (9 + n * 2))
  (bytes.foldl store s).check (bytes.foldl (· + ·) tmp_crc)
    (hex2bin (pointer line (9 + size.toNat * 2)))

/-- A record of type 4, and whether the loop goes on: more than 128 KiB are not read. -/
def address_record (s : ReadIhex) (line : ℕ → UInt8) (tmp_crc : UInt8) : ReadIhex × Bool :=
  let msb := hex2bin (pointer line 9)
  let lsb := hex2bin (pointer line 11)
  let s := { s with extended_address := (msb.toNat * 256 + lsb.toNat) * 65536 }
  let (s, go_on) := s.check (tmp_crc + msb + lsb) (hex2bin (pointer line 13))
  (s, go_on && s.extended_address ≤ 65536)

/-- A line that starts with a colon. -/
def record (s : ReadIhex) (line : ℕ → UInt8) : ReadIhex × Bool :=
  let size := hex2bin (pointer line 1)
  let msb := hex2bin (pointer line 3)
  let lsb := hex2bin (pointer line 5)
  let rtype := hex2bin (pointer line 7)
  let address := s.extended_address + msb.toNat * 256 + lsb.toNat
  let tmp_crc := size + msb + lsb + rtype
  if rtype = 0 then s.data_record line address size tmp_crc
  else if rtype = 4 then s.address_record line tmp_crc
  else (s, true)

/-- The loop over the lines. -/
def read (s : ReadIhex) : List (ℕ → UInt8) → ReadIhex
  | [] => s
  | line :: lines =>
    if line 0 ≠ 0x3a then s.read lines
    else
      match s.record line with
      | (s, true) => s.read lines
      | (s, false) => s

/-- What `main` has of it. -/
def firmware (s : ReadIhex) : Firmware where
  fw := Vector.ofFn fun i => s.fw_data i
  fw_size := s.data_length

end ReadIhex

/-- The buffers of the lines of a file, `memory` being what was in them before each line. -/
def lineBuffers (memory : ℕ → ℕ → UInt8) (file : List UInt8) : List (ℕ → UInt8) :=
  (getlines file).mapIdx fun n line => lineBuffer line (memory n)

/-- `read_ihex` of a file that can be opened. -/
def read_ihex (memory : ℕ → ℕ → UInt8) (file : List UInt8) : ReadIhex :=
  ReadIhex.start.read (lineBuffers memory file)

end H9
