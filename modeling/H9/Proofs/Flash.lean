import H9.Proofs.IhexFormat
import H9.Proofs.Upload

/-!
# From a file to the memory of a node

A node writes each page that it has got to where the number of the page says. What `read_ihex` makes of
a file, uploaded in any run, is then in its memory what the records of the file say.
-/

namespace H9

open Blocks IntelHex

/-- The memory of a node after it wrote pages of `n` bytes over what was there. -/
def flash (n : ℕ) (memory : ℕ → UInt8) (pages : List (ℕ × List UInt8)) : ℕ → UInt8 :=
  pages.foldl (fun memory page => write memory (n * page.1) page.2) memory

namespace Firmware

variable {image : Firmware} {K : ℕ}

theorem getElem?_slice (image : Firmware) (i n j : ℕ) :
    (image.slice i n)[j]? = if j < n then image.fw.toList[i + j]? else none := by
  rw [slice, List.getElem?_take, List.getElem?_drop]

/-- The first pages that are written are the first pages of the image. -/
theorem eq_pages_of_prefix {pages : List (ℕ × List UInt8)} {n : ℕ} (h : pages <+: image.pages K n) :
    pages = image.pages K pages.length ∧ pages.length ≤ n := by
  have hlength := h.length_le
  rw [Firmware.pages, List.length_map, List.length_range] at hlength
  refine ⟨?_, hlength⟩
  have htake := List.prefix_iff_eq_take.1 h
  rw [Firmware.pages, ← List.map_take, List.take_range, Nat.min_eq_left hlength] at htake
  exact htake

/-- Below the end of the pages the memory is the image, and it is untouched from there on. -/
theorem flash_pages (memory : ℕ → UInt8) : ∀ p : ℕ, 8 * K * p ≤ 128 * 1024 → ∀ x : ℕ,
    flash (8 * K) memory (image.pages K p) x =
      if x < 8 * K * p then image.fw.toList.getD x 0 else memory x
  | 0, _, x => by
    rw [if_neg (by omega)]
    rfl
  | p + 1, hp, x => by
    have hend : 8 * K * (p + 1) = 8 * K * p + 8 * K := Nat.mul_succ _ _
    rw [Upload.pages_succ, flash, List.foldl_append]
    show write (flash (8 * K) memory (image.pages K p)) (8 * K * p) (image.slice (8 * K * p) (8 * K)) x = _
    have hlength : image.fw.toList.length = 128 * 1024 := Vector.length_toList
    rw [write_apply, flash_pages memory p (by omega)]
    by_cases hbelow : x < 8 * K * p
    · rw [if_neg (by omega), if_pos hbelow, if_pos (by omega)]
    · rw [if_pos (by omega), if_neg hbelow, getElem?_slice]
      by_cases hinside : x < 8 * K * (p + 1)
      · have hx : 8 * K * p + (x - 8 * K * p) = x := by omega
        have hlt : x < image.fw.toList.length := by omega
        rw [if_pos (by omega), if_pos hinside, hx, List.getElem?_eq_getElem hlt,
          List.getD_eq_getElem _ _ hlt]
        rfl
      · rw [if_neg (by omega), if_neg hinside]
        rfl

end Firmware

/-! ### The image of a file -/

section File

variable {rs : List Record} {file : List UInt8}

theorem read_ihex_loads (hfile : SpellsFile rs file) (hplain : Plain rs) (memory : ℕ → ℕ → UInt8) :
    (read_ihex memory file).fw_data = load (fun _ => 0xff) 0 (blocks 0 rs) ∧
      (read_ihex memory file).data_length = stop 0 (blocks 0 rs) := by
  obtain ⟨body, e, rfl, he, hbody⟩ := hplain
  obtain ⟨hblocks, hrej⟩ := blocksRead_of_plain he hbody (forall₂_reads hfile memory) 0
  obtain ⟨hfw, -, -, hlength⟩ := read_ihex_spec memory file
  rw [hfw, hlength hrej]
  have hblocks' : fileBlocks memory file = blocks 0 (body ++ [e]) := hblocks
  rw [hblocks']
  exact ⟨rfl, rfl⟩

theorem firmware_getD (s : ReadIhex) {x : ℕ} (hx : x < 128 * 1024) :
    s.firmware.fw.toList.getD x 0 = s.fw_data x := by
  have hlength : s.firmware.fw.toList.length = 128 * 1024 := Vector.length_toList
  rw [List.getD_eq_getElem _ _ (by omega)]
  simp [ReadIhex.firmware]

end File

/-- What an upload of a file leaves in a node whose memory was `memory`. -/
structure Programs (bs : List (Block UInt8)) (node_id : BitVec 9) (K : ℕ) (memory : ℕ → UInt8)
    (s : Upload) : Prop where
  /-- Below the end of the pages that were written, every byte of the file is at its address. -/
  named : ∀ x a, x < 8 * K * s.pages.length → Names bs x a →
    flash (8 * K) memory s.pages x = a
  /-- The others are what the memory has where it is erased. -/
  unnamed : ∀ x, x < 8 * K * s.pages.length → (∀ a, ¬ Names bs x a) →
    flash (8 * K) memory s.pages x = 0xff
  /-- Behind it nothing changed. -/
  rest : ∀ x, 8 * K * s.pages.length ≤ x → flash (8 * K) memory s.pages x = memory x
  /-- The bootloader is only quit when the whole file is below that end. -/
  quit : some .quit_bootloader ∈ s.commands node_id → top bs ≤ 8 * K * s.pages.length
  /-- With the bootloader turned on, the upload does not stop before. -/
  complete : s.bootloader ≠ .off → s.Settled → some .quit_bootloader ∈ s.commands node_id

/-- In every run of an upload of a file whose records that show are in place, the node's memory is at
any time the file up to the page that is written next, and all of it when the bootloader is quit. -/
theorem file_programmed {rs : List Record} {file : List UInt8} (hfile : SpellsFile rs file)
    (hplain : Plain rs) (hapart : Apart (blocks 0 rs)) (hplace : InPlace 0xff (blocks 0 rs))
    {K : ℕ} (hK : 0 < K) (hpos : 0 < top (blocks 0 rs))
    (hfits : (top (blocks 0 rs) + (8 * K - 1)) / (8 * K) * (8 * K) ≤ 128 * 1024)
    (buffers : ℕ → ℕ → UInt8) {node_id source_id : BitVec 9} {as : List UploadStep} {s : Upload}
    (hrun : Steps.run (Upload.step (read_ihex buffers file).firmware node_id K) as
      (Upload.start node_id source_id) = some s) (memory : ℕ → UInt8) :
    Programs (blocks 0 rs) node_id K memory s := by
  obtain ⟨hdata, hlength⟩ := read_ihex_loads hfile hplain buffers
  have hshows := (loaded_iff hapart).2 hplace
  set image := (read_ihex buffers file).firmware with himage
  have hsize : image.fw_size = top (blocks 0 rs) := hlength.trans hshows.length
  have hpageCount : image.pageCount K * (8 * K) ≤ 128 * 1024 := by
    rw [Firmware.pageCount, hsize]
    exact hfits
  have hpos' : 0 < image.fw_size := hsize ▸ hpos
  obtain ⟨stage, h⟩ := Steps.inv_of_run (Upload.at_step hK hpageCount hpos')
    ⟨.off, Upload.at_start image node_id source_id K⟩ hrun
  obtain ⟨hpages, hle⟩ := Firmware.eq_pages_of_prefix h.pages_prefix
  have hend : 8 * K * s.pages.length ≤ 128 * 1024 := by
    refine le_trans ?_ hpageCount
    rw [Nat.mul_comm]
    exact Nat.mul_le_mul_right _ hle
  have hflash (x : ℕ) : flash (8 * K) memory s.pages x =
      if x < 8 * K * s.pages.length then load (fun _ => 0xff) 0 (blocks 0 rs) x else memory x := by
    rw [hpages, Firmware.flash_pages memory _ hend, ← hpages]
    split_ifs with hx
    · rw [himage, firmware_getD _ (by omega), hdata]
    · rfl
  refine ⟨fun x a hx hnames => ?_, fun x hx hnone => ?_, fun x hx => ?_, fun hquit => ?_,
    fun hon hsettled => ?_⟩
  · rw [hflash, if_pos hx]
    exact hshows.named x a hnames
  · rw [hflash, if_pos hx]
    exact hshows.unnamed x hnone
  · rw [hflash, if_neg (by omega)]
  · have hcount : 0 < image.pageCount K := (Upload.lt_pageCount hK).2 (by simpa using hpos')
    obtain ⟨hall, -⟩ := (h.quit_iff hcount).1 hquit
    have hlast : ¬ image.pageCount K < image.pageCount K := lt_irrefl _
    rw [Upload.lt_pageCount hK, hsize] at hlast
    rw [hall, Firmware.pages, List.length_map, List.length_range]
    omega
  · rw [h.script_of_settled hon hsettled]
    simp [Firmware.script]

/-- The upload of the file with the bytes at 0 and 16, in three pages of 8 bytes. -/
def lowHighSteps : List UploadStep :=
  [.node H9frame.new, .turn_on H9frame.new, .host] ++
    (List.replicate 3 [.node H9frame.new, .host, .node H9frame.new, .host]).flatten

theorem inPlace_low_high : InPlace 0xff (blocks 0 [low, high, eof]) := by
  have hapart : Apart (blocks 0 [low, high, eof]) := apart_pair (.inl (by decide))
  refine (loaded_iff hapart).1 ⟨?_, ?_, by decide⟩
  · rintro x a ⟨b, hb, i, hi, rfl⟩
    have hblocks : blocks 0 [low, high, eof] = [⟨0, [2]⟩, ⟨16, [1]⟩] := rfl
    rw [hblocks, List.mem_cons, List.mem_singleton] at hb
    rcases hb with rfl | rfl <;> rcases i with _ | i <;> simp at hi <;> subst hi <;> rfl
  · intro x hx
    refine load_unnamed _ _ 0 x fun a ha => hx a ?_
    exact ha

theorem file_programmed_low_high : ∃ s, Steps.run (Upload.step (read_ihex (fun _ _ => 0)
      (ascii ":0100000002FD\n:0100100001EE\n:00000001FF\n")).firmware 32 1) lowHighSteps
        (Upload.start 32 4) = some s ∧ s.host.ended = some .EXIT_SUCCESS ∧
      Programs (blocks 0 [low, high, eof]) 32 1 (fun _ => 0) s := by
  have hrun : ((Steps.run (Upload.step (read_ihex (fun _ _ => 0)
      (ascii ":0100000002FD\n:0100100001EE\n:00000001FF\n")).firmware 32 1) lowHighSteps
        (Upload.start 32 4)).map fun s => s.host.ended) = some (some .EXIT_SUCCESS) := by
    decide +kernel
  obtain ⟨s, hs, hended⟩ := Option.map_eq_some_iff.1 hrun
  exact ⟨s, hs, hended, file_programmed spellsFile_low_high (plain_pair rfl rfl)
    (apart_pair (.inl (by decide))) inPlace_low_high (by decide) (by decide) (by decide) _ hs _⟩

end H9
