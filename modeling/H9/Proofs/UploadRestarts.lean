import H9.Proofs.Upload

/-!
# A node that restarts in an upload

A `BOOTLOADER_TURNED_ON` makes the program start its page again, but `fw_idx` stays where it is. Where
no part of the page was sent, that is still where the page begins.
-/

namespace H9

/-! ### Commands that were sent -/

namespace Command

variable (image : Firmware) (K : ℕ) (commands : List (Option Command))

def isFill : Option Command → Bool
  | some (.page_fill _) => true
  | _ => false

def isStart : Option Command → Bool
  | some (.page_start _) => true
  | _ => false

/-- How many parts were sent since a page was started. -/
def filled : ℕ :=
  commands.foldl (fun n c => if isFill c then n + 1 else if isStart c then 0 else n) 0

/-- No part was sent since the page was started. -/
def Pending (p : ℕ) : Prop := ∃ before between, commands = before ++ some (.page_start p) :: between ∧
  ∀ c ∈ between, isFill c = false

/-- The first part that is sent after a page was started is the first one of the page. -/
def Aligned : Prop := ∀ before data after, commands = before ++ some (.page_fill data) :: after →
  ∀ p, Pending before p → data = image.slice (8 * K * p) 8

variable {image K commands} {p : ℕ} {c : Option Command}

theorem filled_concat (commands : List (Option Command)) (c : Option Command) :
    filled (commands ++ [c]) =
      if isFill c then filled commands + 1 else if isStart c then 0 else filled commands := by
  rw [filled, List.foldl_append]
  rfl

theorem Pending.of_concat (h : Pending (commands ++ [c]) p) :
    c = some (.page_start p) ∨ Pending commands p ∧ isFill c = false := by
  obtain ⟨before, between, heq, hbetween⟩ := h
  rcases List.eq_nil_or_concat between with rfl | ⟨rest, last, rfl⟩
  · rw [List.append_singleton_inj] at heq
    exact .inl heq.2
  · rw [List.concat_eq_append, ← List.cons_append, ← List.append_assoc,
      List.append_singleton_inj] at heq
    rw [List.concat_eq_append] at hbetween
    refine .inr ⟨⟨before, rest, heq.1, fun d hd => hbetween d (List.mem_append_left _ hd)⟩, ?_⟩
    rw [heq.2]
    exact hbetween last (by simp)

theorem Aligned.concat (h : Aligned image K commands)
    (hc : ∀ data, c = some (.page_fill data) → ∀ p, Pending commands p →
      data = image.slice (8 * K * p) 8) : Aligned image K (commands ++ [c]) := by
  intro before data after heq
  rcases List.eq_nil_or_concat after with rfl | ⟨rest, last, rfl⟩
  · rw [List.append_singleton_inj] at heq
    obtain ⟨rfl, hlast⟩ := heq
    exact hc data hlast
  · rw [List.concat_eq_append, ← List.cons_append, ← List.append_assoc,
      List.append_singleton_inj] at heq
    exact h before data rest heq.1

end Command

open Command

namespace H9fwu

variable (node_id : BitVec 9) (K : ℕ)

/-- The commands that the program has sent to the node. -/
def commands (s : H9fwu) : List (Option Command) := s.sent.map (H9frame.command node_id)

/-- A page is only written when the node has got all its parts. -/
def Paced (msg : Option H9frame) (s : H9fwu) : Prop := ∀ frame ∈ msg, frame.source_id = node_id →
  frame.type = H9frame.PAGE_WRITED →
    (s.commands node_id).any isStart = true ∧ filled (s.commands node_id) = K

/-- The bootloader is only turned on where no part of the page was sent. -/
def Restarts (msg : Option H9frame) (s : H9fwu) : Prop := ∀ frame ∈ msg, frame.source_id = node_id →
  frame.type = H9frame.BOOTLOADER_TURNED_ON → filled (s.commands node_id) = 0

instance (msg : Option H9frame) (s : H9fwu) : Decidable (s.Paced node_id K msg) :=
  inferInstanceAs (Decidable (∀ frame ∈ msg, frame.source_id = node_id →
    frame.type = H9frame.PAGE_WRITED → _ ∧ _))

instance (msg : Option H9frame) (s : H9fwu) : Decidable (s.Restarts node_id msg) :=
  inferInstanceAs (Decidable (∀ frame ∈ msg, frame.source_id = node_id →
    frame.type = H9frame.BOOTLOADER_TURNED_ON → _ = _))

/-- While it goes on, `fw_idx` is where the parts of the page that were sent end. -/
structure Keeps (image : Firmware) (s : H9fwu) : Prop where
  aligned : Aligned image K (s.commands node_id)
  position : s.ended = none → ∃ cs page fw_idx, s.Shows node_id cs page fw_idx ∧
    fw_idx = 8 * K * page + 8 * filled (s.commands node_id) ∧ fw_idx ≤ 128 * 1024 ∧
      ∀ p, Pending (s.commands node_id) p →
        filled (s.commands node_id) = 0 ∧ 8 * K * p = 8 * K * page

variable {node_id : BitVec 9} {K : ℕ} {image : Firmware} {s t : H9fwu} {cs : List Command} {c : Command}
  {page fw_idx page' fw_idx' : ℕ} {frame : H9frame}

theorem Shows.commands_eq (h : s.Shows node_id cs page fw_idx) : s.commands node_id = cs.map some :=
  h.sent

theorem Shows.commands_concat (hs : s.Shows node_id cs page fw_idx)
    (ht : t.sent.map (H9frame.command node_id) = (cs ++ [c]).map some) :
    t.commands node_id = s.commands node_id ++ [some c] := by
  rw [hs.commands_eq, commands, ht, List.map_append]
  rfl

theorem Keeps.page_start (h : s.Keeps node_id K image) (hs : s.Shows node_id cs page fw_idx)
    (ht : t.Shows node_id (cs ++ [.page_start page']) page' fw_idx)
    (hidx : fw_idx = 8 * K * page') (hle : fw_idx ≤ 128 * 1024)
    (hpending : ∀ p, Pending (s.commands node_id) p → 8 * K * p = 8 * K * page') :
    t.Keeps node_id K image := by
  have hcommands := hs.commands_concat ht.sent
  have hfilled : filled (t.commands node_id) = 0 := by
    rw [hcommands, filled_concat]
    rfl
  refine ⟨?_, fun _ => ⟨_, page', fw_idx, ht, ?_, hle, fun p hp => ⟨hfilled, ?_⟩⟩⟩
  · rw [hcommands]
    exact h.aligned.concat fun data hdata => by cases hdata
  · rw [hfilled]
    exact hidx
  · rw [hcommands] at hp
    rcases hp.of_concat with heq | ⟨hp, -⟩
    · cases heq
      rfl
    · exact hpending p hp

theorem Keeps.turned_on (h : s.Keeps node_id K image) (hended : s.ended = none)
    (hsource : frame.source_id = node_id) (htype : frame.type = H9frame.BOOTLOADER_TURNED_ON)
    (hrestarts : s.Restarts node_id (some frame)) : (s.recv image frame).Keeps node_id K image := by
  obtain ⟨cs, page, fw_idx, hs, hidx, hle, hpending⟩ := h.position hended
  rw [hrestarts frame rfl hsource htype] at hidx
  exact h.page_start hs (hs.turned_on image hsource htype) hidx hle fun p hp => (hpending p hp).2

theorem Keeps.page_writed (h : s.Keeps node_id K image) (hended : s.ended = none)
    (hsource : frame.source_id = node_id) (htype : frame.type = H9frame.PAGE_WRITED)
    (hpaced : s.Paced node_id K (some frame)) : (s.recv image frame).Keeps node_id K image := by
  obtain ⟨cs, page, fw_idx, hs, hidx, hle, hpending⟩ := h.position hended
  rw [(hpaced frame rfl hsource htype).2] at hidx hpending
  rcases Nat.eq_zero_or_pos image.fw_size with hzero | hsize
  · have hrecv : s.recv image frame = { s with ended := some .division_by_zero } := by
      rw [recv, if_neg (not_not.2 (hsource.trans hs.node.symm)), if_pos (.inr htype), if_pos htype,
        if_pos hzero]
    rw [hrecv]
    exact ⟨h.aligned, fun hnone => by cases hnone⟩
  by_cases hmore : fw_idx < image.fw_size
  · have hwritten : fw_idx = 8 * K * (page + 1) := by
      rw [hidx, Nat.mul_add_one]
    -- without parts all pages begin at the same place, otherwise there are fewer than 2^16 of them
    have hpage : 8 * K * ((page + 1) % 2 ^ 16) = 8 * K * (page + 1) := by
      rcases Nat.eq_zero_or_pos K with rfl | hK
      · simp
      · have hbound : 8 * (page + 1) ≤ 8 * K * (page + 1) := Nat.mul_le_mul_right _ (by omega)
        rw [Nat.mod_eq_of_lt (by omega)]
    refine h.page_start hs (hs.page_writed hsource htype hmore) (hwritten.trans hpage.symm) hle
      fun p hp => ?_
    obtain ⟨hzero, hp⟩ := hpending p hp
    rw [hpage, hp, hzero]
    simp
  · obtain ⟨hsent, hend⟩ := hs.quit hsource htype hsize (Nat.not_lt.1 hmore)
    refine ⟨?_, fun hnone => by rw [hend] at hnone; cases hnone⟩
    rw [hs.commands_concat hsent]
    exact h.aligned.concat fun data hdata => by cases hdata

theorem Keeps.page_fill (h : s.Keeps node_id K image) (hended : s.ended = none)
    (hsource : frame.source_id = node_id) (htype : frame.type = H9frame.PAGE_FILL_NEXT) :
    (s.recv image frame).Keeps node_id K image := by
  obtain ⟨cs, page, fw_idx, hs, hidx, hle, hpending⟩ := h.position hended
  by_cases hfits : fw_idx + 8 ≤ 128 * 1024
  · have ht := hs.page_fill image hsource htype hfits
    have hcommands := hs.commands_concat ht.sent
    refine ⟨?_, fun _ => ⟨_, page, fw_idx + 8, ht, ?_, hfits, fun p hp => ?_⟩⟩
    · rw [hcommands]
      refine h.aligned.concat fun data hdata p hp => ?_
      obtain ⟨hzero, hp⟩ := hpending p hp
      obtain rfl : image.slice fw_idx 8 = data := by simpa using hdata
      rw [hidx, hzero, hp, Nat.mul_zero, Nat.add_zero]
    · rw [hcommands, filled_concat, hidx]
      simp only [isFill, if_true]
      omega
    · rw [hcommands] at hp
      rcases hp.of_concat with heq | ⟨-, hfill⟩
      · cases heq
      · cases hfill
  · have hidx' : s.fw_idx = fw_idx := hs.fw_idx
    have hrecv : s.recv image frame = { s with ended := some .out_of_bounds } := by
      rw [recv, if_neg (not_not.2 (hsource.trans hs.node.symm)), if_neg (by rw [htype]; decide),
        if_pos htype, hidx', Firmware.next, dif_neg hfits]
    rw [hrecv]
    exact ⟨h.aligned, fun hnone => by cases hnone⟩

theorem keeps_step (msg : Option H9frame) (s t : H9fwu) (h : s.Keeps node_id K image)
    (hmsg : s.Paced node_id K msg ∧ s.Restarts node_id msg) (hstep : s.step image msg = some t) :
    t.Keeps node_id K image := by
  unfold step at hstep
  split_ifs at hstep with hended
  have hended : s.ended = none := by simpa using hended
  rcases msg with _ | frame
  · exact Option.some.inj hstep ▸ h
  obtain rfl := Option.some.inj hstep
  obtain ⟨cs, page, fw_idx, hs, -⟩ := h.position hended
  by_cases hsource : frame.source_id = node_id
  · by_cases hon : frame.type = H9frame.BOOTLOADER_TURNED_ON
    · exact h.turned_on hended hsource hon hmsg.2
    by_cases hwritten : frame.type = H9frame.PAGE_WRITED
    · exact h.page_writed hended hsource hwritten hmsg.1
    by_cases hnext : frame.type = H9frame.PAGE_FILL_NEXT
    · exact h.page_fill hended hsource hnext
    · have hrecv : s.recv image frame = s := by
        rw [recv, if_neg (not_not.2 (hsource.trans hs.node.symm)),
          if_neg (not_or.2 ⟨hon, hwritten⟩), if_neg hnext]
      rw [hrecv]
      exact h
  · rw [hs.recv_of_other hsource]
    exact h

theorem keeps_start (image : Firmware) (node_id source_id : BitVec 9) (K : ℕ) (noupgrademsg : Bool) :
    (start noupgrademsg source_id node_id).Keeps node_id K image := by
  have hnew : Shows ⟨{ H9frame.new with
      priority := .HIGH, source_id := source_id, destination_id := node_id }, 0, 0, 0, [], none⟩
      node_id [] 0 0 := ⟨rfl, rfl, rfl, rfl, rfl⟩
  have hnone {q : ℕ} : ¬ Pending [] q := fun ⟨before, between, heq, _⟩ => by simp at heq
  cases noupgrademsg with
  | true =>
    have hkeeps : Keeps node_id K image ⟨{ H9frame.new with
        priority := .HIGH, source_id := source_id, destination_id := node_id }, 0, 0, 0, [], none⟩ :=
      ⟨fun before data after heq => by simp [commands] at heq,
        fun _ => ⟨[], 0, 0, hnew, rfl, Nat.zero_le _, fun p hp => (hnone hp).elim⟩⟩
    exact hkeeps.page_start hnew hnew.page_start rfl (Nat.zero_le _) fun p hp => (hnone hp).elim
  | false =>
    have hs : (start false source_id node_id).Shows node_id [.node_upgrade] 0 0 := shows_start source_id
    have hcommands : (start false source_id node_id).commands node_id = [] ++ [some .node_upgrade] :=
      hs.sent
    refine ⟨?_, fun _ => ⟨_, 0, 0, hs, ?_, Nat.zero_le _, fun p hp => ?_⟩⟩
    · have hempty : Aligned image K [] := fun before data after heq => by simp at heq
      rw [hcommands]
      exact hempty.concat fun data hdata => by cases hdata
    · rw [hcommands]
      rfl
    · rw [hcommands] at hp
      rcases hp.of_concat with heq | ⟨hp, -⟩
      · cases heq
      · exact (hnone hp).elim

/-- In every run in which the bootloader is only turned on where no part of the page was sent, the
first part after a page was started is the first one of the page. -/
theorem always_aligned {image : Firmware} {node_id source_id : BitVec 9} {K : ℕ} {noupgrademsg : Bool}
    {msgs : List (Option H9frame)}
    (hmeet : Steps.Meet (step image) (fun msg s => s.Paced node_id K msg ∧ s.Restarts node_id msg) msgs
      (start noupgrademsg source_id node_id)) :
    Steps.Always (step image) (fun s => Aligned image K (s.commands node_id)) msgs
      (start noupgrademsg source_id node_id) :=
  Steps.always_of_meet (fun _ h => h.aligned) keeps_step
    (keeps_start image node_id source_id K noupgrademsg) hmeet

/-- A frame of the node 32. -/
def from32 (type : UInt8) : H9frame := { H9frame.new with type := type, source_id := 32 }

/-- The node turns its bootloader on again when its page is started. -/
def restartedBefore : List (Option H9frame) :=
  [some (from32 H9frame.BOOTLOADER_TURNED_ON), some (from32 H9frame.BOOTLOADER_TURNED_ON),
    some (from32 H9frame.PAGE_FILL_NEXT)]

theorem always_aligned_restartedBefore : Steps.Always (step Upload.blank)
    (fun s => Aligned Upload.blank 2 (s.commands 32)) restartedBefore (start false 4 32) :=
  always_aligned (by decide)

/-- It does when it has got a part of the page. -/
def restartedAfter : List (Option H9frame) :=
  [some (from32 H9frame.BOOTLOADER_TURNED_ON), some (from32 H9frame.PAGE_FILL_NEXT),
    some (from32 H9frame.BOOTLOADER_TURNED_ON), some (from32 H9frame.PAGE_FILL_NEXT)]

/-- An image whose first byte is like no other. -/
def marked : Firmware := ⟨(Vector.replicate (128 * 1024) 0xff).set 0 0, 16⟩

theorem marked_slice : marked.slice 8 8 ≠ marked.slice 0 8 := by
  intro heq
  have hhead := congrArg (·[0]?) heq
  simp [marked, Firmware.slice] at hhead

/-- The page is started again, and the first part that is sent is its second one. -/
theorem not_always_aligned : ¬ ∀ (image : Firmware) (node_id source_id : BitVec 9) (K : ℕ)
    (noupgrademsg : Bool) (msgs : List (Option H9frame)),
    Steps.Meet (step image) (fun msg s => s.Paced node_id K msg) msgs
        (start noupgrademsg source_id node_id) →
      Steps.Always (step image) (fun s => Aligned image K (s.commands node_id)) msgs
        (start noupgrademsg source_id node_id) := by
  intro h
  have hmeet : Steps.Meet (step marked) (fun msg s => s.Paced 32 2 msg) restartedAfter
      (start false 4 32) := by
    decide
  let turned := (start false 4 32).recv marked (from32 H9frame.BOOTLOADER_TURNED_ON)
  have hturned : turned.Shows 32 [.node_upgrade, .page_start 0] 0 0 :=
    (shows_start 4).turned_on marked rfl rfl
  let filled := turned.recv marked (from32 H9frame.PAGE_FILL_NEXT)
  have hfilled : filled.Shows 32 [.node_upgrade, .page_start 0, .page_fill (marked.slice 0 8)] 0 8 :=
    hturned.page_fill marked rfl rfl (by decide)
  let again := filled.recv marked (from32 H9frame.BOOTLOADER_TURNED_ON)
  have hagain : again.Shows 32 [.node_upgrade, .page_start 0, .page_fill (marked.slice 0 8),
      .page_start 0] 0 8 := hfilled.turned_on marked rfl rfl
  have hlast : (again.recv marked (from32 H9frame.PAGE_FILL_NEXT)).Shows 32 [.node_upgrade,
      .page_start 0, .page_fill (marked.slice 0 8), .page_start 0, .page_fill (marked.slice 8 8)] 0 16 :=
    hagain.page_fill marked rfl rfl (by decide)
  have haligned := (h marked 32 4 2 false restartedAfter hmeet).run (t := _) rfl
  refine marked_slice (haligned [some .node_upgrade, some (.page_start 0),
    some (.page_fill (marked.slice 0 8)), some (.page_start 0)] _ [] hlast.commands_eq 0
      ⟨[some .node_upgrade, some (.page_start 0), some (.page_fill (marked.slice 0 8))], [], rfl, ?_⟩)
  simp

end H9fwu

end H9
