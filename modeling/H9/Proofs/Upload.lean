import H9.Upload

/-!
# An upload step by step

What the program sends depends on `page` and `fw_idx` only (`H9fwu.Shows`). Of the program and the
node only one has something to do at a time: the program a frame of the node to receive, or the node a
command (`Upload.Stands`). What has been sent and what is where then follow from the stage that the
upload has reached (`Upload.At`), and a step leads from a stage to the next one or leaves it as it is.
-/

namespace H9

/-! ### Parts of the image -/

namespace Firmware

variable {image : Firmware}

theorem slice_append (i m n : ℕ) : image.slice i m ++ image.slice (i + m) n = image.slice i (m + n) := by
  rw [slice, slice, slice, List.take_add, List.drop_drop]

theorem length_slice {i n : ℕ} (h : i + n ≤ 128 * 1024) : (image.slice i n).length = n := by
  rw [slice, List.length_take, List.length_drop, Vector.length_toList]
  omega

theorem next_eq {i : ℕ} (h : i + 8 ≤ 128 * 1024) :
    ∃ data, image.next i = some data ∧ data.toList = image.slice i 8 := by
  refine ⟨_, dif_pos h, ?_⟩
  refine List.ext_getElem (by rw [length_slice h, Vector.length_toList]) fun j hj _ => ?_
  simp [slice, Vector.get_eq_getElem]

end Firmware

/-! ### What the program sends -/

namespace H9fwu

/-- It goes on, and has sent these commands to the node. -/
structure Shows (s : H9fwu) (node_id : BitVec 9) (commands : List Command) (page fw_idx : ℕ) : Prop where
  sent : s.sent.map (H9frame.command node_id) = commands.map some
  node : s.frame.destination_id = node_id
  page : s.page.toNat = page
  fw_idx : s.fw_idx = fw_idx
  ended : s.ended = none

variable {s : H9fwu} {node_id : BitVec 9} {commands : List Command} {page fw_idx : ℕ}
  {image : Firmware} {frame : H9frame}

theorem Shows.send (h : s.Shows node_id commands page fw_idx) {type dlc : UInt8}
    {data : Vector UInt8 8} {c : Command} (hc : ∀ frame : H9frame, frame.destination_id = node_id →
      frame.type = type → frame.dlc = dlc → frame.data = data → frame.command node_id = some c) :
    (s.send type dlc data).Shows node_id (commands ++ [c]) page fw_idx where
  sent := by
    rw [H9fwu.send, List.map_append, List.map_append, h.sent]
    exact congrArg (commands.map some ++ [·]) (hc _ h.node rfl rfl rfl)
  node := h.node
  page := h.page
  fw_idx := h.fw_idx
  ended := h.ended

theorem Shows.page_start (h : s.Shows node_id commands page fw_idx) :
    s.page_start.Shows node_id (commands ++ [.page_start page]) page fw_idx := by
  refine h.send fun frame hnode htype hdlc hdata => ?_
  have hpage : 256 * (frame.data.get 0).toNat + (frame.data.get 1).toNat = page := by
    have hlt : s.page.toNat < 65536 := s.page.toNat_lt
    rw [hdata, ← h.page]
    simp [Vector.get_eq_getElem, Nat.shiftRight_eq_div_pow]
    omega
  simp [H9frame.command, hnode, htype, hdlc, hpage, H9frame.PAGE_START, H9frame.NODE_UPGRADE]

theorem Shows.turned_on (h : s.Shows node_id commands page fw_idx) (image : Firmware)
    (hsource : frame.source_id = node_id) (htype : frame.type = H9frame.BOOTLOADER_TURNED_ON) :
    (s.recv image frame).Shows node_id (commands ++ [.page_start page]) page fw_idx := by
  rw [recv, if_neg (not_not.2 (hsource.trans h.node.symm)), if_pos (.inl htype),
    if_neg (by rw [htype]; decide)]
  exact h.page_start

theorem Shows.page_writed (h : s.Shows node_id commands page fw_idx) (hsource : frame.source_id = node_id)
    (htype : frame.type = H9frame.PAGE_WRITED) (hmore : fw_idx < image.fw_size) :
    (s.recv image frame).Shows node_id (commands ++ [.page_start ((page + 1) % 2 ^ 16)])
      ((page + 1) % 2 ^ 16) fw_idx := by
  have hidx : s.fw_idx = fw_idx := h.fw_idx
  rw [recv, if_neg (not_not.2 (hsource.trans h.node.symm)), if_pos (.inr htype), if_pos htype,
    if_neg (by omega), if_neg (by omega)]
  refine Shows.page_start (s := { s with page := s.page + 1 }) ⟨h.sent, h.node, ?_, h.fw_idx, h.ended⟩
  rw [UInt16.toNat_add, h.page]
  rfl

theorem Shows.quit (h : s.Shows node_id commands page fw_idx) (hsource : frame.source_id = node_id)
    (htype : frame.type = H9frame.PAGE_WRITED) (hsize : 0 < image.fw_size)
    (hlast : image.fw_size ≤ fw_idx) :
    (s.recv image frame).sent.map (H9frame.command node_id) =
        (commands ++ [Command.quit_bootloader]).map some ∧
      (s.recv image frame).ended = some .EXIT_SUCCESS := by
  have hidx : s.fw_idx = fw_idx := h.fw_idx
  rw [recv, if_neg (not_not.2 (hsource.trans h.node.symm)), if_pos (.inr htype), if_pos htype,
    if_neg (by omega), if_pos (by omega)]
  refine ⟨(h.send fun frame hnode htype hdlc _ => ?_).sent, rfl⟩
  simp [H9frame.command, hnode, htype, hdlc, H9frame.QUIT_BOOTLOADER, H9frame.NODE_UPGRADE,
    H9frame.PAGE_START, H9frame.PAGE_FILL]

theorem Shows.page_fill (h : s.Shows node_id commands page fw_idx) (image : Firmware)
    (hsource : frame.source_id = node_id) (htype : frame.type = H9frame.PAGE_FILL_NEXT)
    (hfits : fw_idx + 8 ≤ 128 * 1024) :
    (s.recv image frame).Shows node_id (commands ++ [.page_fill (image.slice fw_idx 8)]) page
      (fw_idx + 8) := by
  obtain ⟨data, hnext, hdata⟩ : ∃ data, image.next fw_idx = some data ∧
      data.toList = image.slice fw_idx 8 := Firmware.next_eq hfits
  have hidx : s.fw_idx = fw_idx := h.fw_idx
  rw [recv, if_neg (not_not.2 (hsource.trans h.node.symm)), if_neg (by rw [htype]; decide),
    if_pos htype, hidx, hnext]
  have hs : Shows { s with fw_idx := fw_idx + 8 } node_id commands page (fw_idx + 8) :=
    ⟨h.sent, h.node, h.page, rfl, h.ended⟩
  refine hs.send fun frame hnode htype hdlc hframe => ?_
  simp [H9frame.command, hnode, htype, hdlc, hframe, hdata, H9frame.PAGE_FILL, H9frame.NODE_UPGRADE,
    H9frame.PAGE_START]

theorem shows_start (source_id : BitVec 9) :
    (start false source_id node_id).Shows node_id [.node_upgrade] 0 0 := by
  have hnew : Shows ⟨{ H9frame.new with
      priority := .HIGH, source_id := source_id, destination_id := node_id }, 0, 0, 0, [], none⟩
      node_id [] 0 0 := ⟨rfl, rfl, rfl, rfl, rfl⟩
  refine hnew.send fun frame hnode htype hdlc _ => ?_
  rw [H9frame.command, if_neg (not_not.2 hnode), if_pos ⟨htype, hdlc⟩]

theorem recv_sent (s : H9fwu) (image : Firmware) (frame : H9frame) :
    s.sent <+: (s.recv image frame).sent := by
  unfold recv
  split_ifs
  · exact List.prefix_refl _
  · exact List.prefix_refl _
  · exact List.prefix_append _ _
  · exact List.prefix_append _ _
  · exact List.prefix_append _ _
  · rcases image.next s.fw_idx with _ | data
    · exact List.prefix_refl _
    · exact List.prefix_append _ _
  · exact List.prefix_refl _

/-- Nothing is done with a frame of another one. -/
theorem Shows.recv_of_other (h : s.Shows node_id commands page fw_idx) (hsource : frame.source_id ≠ node_id) :
    s.recv image frame = s := by
  rw [recv, if_pos (h.node ▸ hsource)]

end H9fwu

/-! ### What is on its way -/

namespace Upload

/-- The type of a frame of the node. -/
def fromNode (node_id : BitVec 9) (msg : Option H9frame) : Option UInt8 :=
  msg.bind fun frame => if frame.source_id = node_id then some frame.type else none

/-- What the program has sent and where it is, where the node is, the answers of the node that are on
their way to the program, and the commands to the node that are, but for a `NODE_UPGRADE`. -/
structure Stands (s : Upload) (node_id : BitVec 9) (commands : List Command) (page fw_idx : ℕ)
    (bootloader : Bootloader) (pages : List (ℕ × List UInt8)) (answers : List UInt8)
    (unheard : List Command) : Prop where
  host : s.host.Shows node_id commands page fw_idx
  bootloader : s.bootloader = bootloader
  pages : s.pages = pages
  answers : s.inbox.filterMap (fromNode node_id) = answers
  heard : s.heard ≤ s.host.sent.length
  unheard : ∃ upgrades : List Command, (∀ c ∈ upgrades, c = .node_upgrade) ∧
    (s.host.sent.drop s.heard).map (H9frame.command node_id) = (upgrades ++ unheard).map some

variable {s t : Upload} {node_id : BitVec 9} {commands : List Command} {page fw_idx K : ℕ}
  {bootloader : Bootloader} {pages : List (ℕ × List UInt8)} {answers : List UInt8}
  {unheard : List Command} {image : Firmware} {frame : H9frame}

theorem Stands.other
    (h : s.Stands node_id commands page fw_idx bootloader pages answers unheard)
    {msg : Option H9frame} (hmsg : FromOther node_id msg) :
    Stands { s with inbox := s.inbox ++ [msg] } node_id commands page fw_idx bootloader pages answers
      unheard := by
  have hnone : fromNode node_id msg = none := by
    rcases msg with _ | frame
    · rfl
    · exact if_neg (hmsg frame rfl)
  refine { h with answers := ?_ }
  rw [List.filterMap_append, h.answers, List.filterMap_cons_none hnone, List.filterMap_nil,
    List.append_nil]

theorem Stands.answer
    (h : s.Stands node_id commands page fw_idx bootloader pages answers unheard) (type : UInt8)
    (frame : H9frame) : (s.answer node_id type frame).Stands node_id commands page fw_idx bootloader
      pages (answers ++ [type]) unheard := by
  refine { h with answers := ?_ }
  rw [Upload.answer, List.filterMap_append, h.answers]
  simp [fromNode]

/-- The program receives the first answer, or a message that it does nothing with. -/
theorem Stands.host_cases
    (h : s.Stands node_id commands page fw_idx bootloader pages answers unheard)
    (hstep : s.step image node_id K .host = some t) :
    t.Stands node_id commands page fw_idx bootloader pages answers unheard ∨
      ∃ frame inbox, answers = frame.type :: inbox.filterMap (fromNode node_id) ∧
        frame.source_id = node_id ∧ t = { s with host := s.host.recv image frame, inbox := inbox } := by
  simp only [step] at hstep
  split at hstep
  · cases hstep
  rename_i msg inbox hinbox
  obtain ⟨host, hhost, rfl⟩ := Option.map_eq_some_iff.1 hstep
  have hended : ¬ s.host.ended.isSome := by
    rw [h.host.ended]
    decide
  simp only [H9fwu.step, if_neg hended] at hhost
  have hskip (hhost' : host = s.host) (hnone : fromNode node_id msg = none) :
      Stands { s with host := host, inbox := inbox } node_id commands page fw_idx bootloader pages
        answers unheard := by
    subst hhost'
    refine { h with answers := ?_ }
    rw [← h.answers, hinbox, List.filterMap_cons_none hnone]
  rcases msg with _ | frame
  · exact .inl (hskip (Option.some.inj hhost).symm rfl)
  obtain rfl := Option.some.inj hhost
  by_cases hsource : frame.source_id = node_id
  · have hsome : fromNode node_id (some frame) = some frame.type := if_pos hsource
    refine .inr ⟨frame, inbox, ?_, hsource, rfl⟩
    rw [← h.answers, hinbox, List.filterMap_cons_some hsome]
  · exact .inl (hskip (h.host.recv_of_other hsource) (if_neg hsource))

/-- The node gets the first command, or does nothing with a `NODE_UPGRADE`. -/
theorem Stands.node_cases
    (h : s.Stands node_id commands page fw_idx bootloader pages answers unheard)
    (hstep : s.step image node_id K (.node frame) = some t) :
    t.Stands node_id commands page fw_idx bootloader pages answers unheard ∨
      ∃ c rest, unheard = c :: rest ∧ t = Upload.hear node_id K { s with heard := s.heard + 1 } frame
          (some c) ∧
        Stands { s with heard := s.heard + 1 } node_id commands page fw_idx bootloader pages answers
          rest := by
  obtain ⟨sent, hsent, rfl⟩ := Option.map_eq_some_iff.1 hstep
  obtain ⟨hlt, hget⟩ := List.getElem?_eq_some_iff.1 hsent
  obtain ⟨upgrades, hupgrades, hunheard⟩ := h.unheard
  rw [List.drop_eq_getElem_cons hlt, List.map_cons, hget] at hunheard
  rcases upgrades with _ | ⟨c, upgrades⟩
  · rcases unheard with _ | ⟨c, rest⟩
    · cases hunheard
    · obtain ⟨hc, hrest⟩ := List.cons.inj hunheard
      refine .inr ⟨c, rest, rfl, by rw [hc], ?_⟩
      exact { h with heard := hlt, unheard := ⟨[], by simp, hrest⟩ }
  · obtain ⟨hc, hrest⟩ := List.cons.inj hunheard
    obtain rfl := hupgrades c List.mem_cons_self
    refine .inl ?_
    rw [hc]
    exact { h with
      heard := hlt
      unheard := ⟨upgrades, fun c hc => hupgrades c (List.mem_cons_of_mem _ hc), hrest⟩ }

theorem Stands.recv
    (h : s.Stands node_id commands page fw_idx bootloader pages answers [])
    (inbox : List (Option H9frame)) {c : Command} {page' fw_idx' : ℕ}
    (hrecv : (s.host.recv image frame).Shows node_id (commands ++ [c]) page' fw_idx') :
    Stands { s with host := s.host.recv image frame, inbox := inbox } node_id (commands ++ [c]) page'
      fw_idx' bootloader pages (inbox.filterMap (fromNode node_id)) [c] := by
  obtain ⟨frames, hframes⟩ := s.host.recv_sent image frame
  obtain ⟨upgrades, hupgrades, hunheard⟩ := h.unheard
  have hcommand : frames.map (H9frame.command node_id) = [some c] := by
    have hsent := hrecv.sent
    rw [← hframes, List.map_append, List.map_append, h.host.sent] at hsent
    exact List.append_cancel_left hsent
  refine ⟨hrecv, h.bootloader, h.pages, rfl, ?_, upgrades, hupgrades, ?_⟩
  · rw [← hframes, List.length_append]
    exact h.heard.trans (Nat.le_add_right _ _)
  · rw [← hframes, List.drop_append_of_le_length h.heard, List.map_append, hunheard, hcommand]
    simp

/-! ### The stages of an upload -/

/-- How far an upload has come: the page, and how many of its parts were sent before. -/
inductive Stage
  | off
  | turnedOn
  | starting (page : ℕ)
  | asking (page i : ℕ)
  | filling (page i : ℕ)
  | written (page : ℕ)
  | quit

/-- The upload is at the stage. -/
def At (image : Firmware) (node_id : BitVec 9) (K : ℕ) (s : Upload) : Stage → Prop
  | .off => s.Stands node_id (image.upTo K 0) 0 0 .off [] [] []
  | .turnedOn => s.Stands node_id (image.upTo K 0) 0 0 .ready [] [H9frame.BOOTLOADER_TURNED_ON] []
  | .starting p => p < image.pageCount K ∧ s.Stands node_id
      (image.upTo K p ++ image.pageCommands K p 0) p (8 * K * p) .ready (image.pages K p) []
        [.page_start p]
  | .asking p i => p < image.pageCount K ∧ i < K ∧ s.Stands node_id
      (image.upTo K p ++ image.pageCommands K p i) p (8 * K * p + 8 * i)
        (.filling p (image.slice (8 * K * p) (8 * i))) (image.pages K p) [H9frame.PAGE_FILL_NEXT] []
  | .filling p i => p < image.pageCount K ∧ i < K ∧ s.Stands node_id
      (image.upTo K p ++ image.pageCommands K p (i + 1)) p (8 * K * p + 8 * (i + 1))
        (.filling p (image.slice (8 * K * p) (8 * i))) (image.pages K p) []
          [.page_fill (image.slice (8 * K * p + 8 * i) 8)]
  | .written p => p < image.pageCount K ∧ s.Stands node_id (image.upTo K (p + 1)) p (8 * K * (p + 1))
      .ready (image.pages K (p + 1)) [H9frame.PAGE_WRITED] []
  | .quit => s.commands node_id = (image.script K).map some ∧ s.host.ended = some .EXIT_SUCCESS ∧
      s.pages = image.pages K (image.pageCount K) ∧ s.inbox.filterMap (fromNode node_id) = [] ∧
        (s.bootloader = .ready ∨ s.bootloader = .quit) ∧ s.heard ≤ s.host.sent.length ∧
          ∃ upgrades : List Command, (∀ c ∈ upgrades, c = .node_upgrade ∨ c = .quit_bootloader) ∧
            (s.host.sent.drop s.heard).map (H9frame.command node_id) = upgrades.map some

theorem upTo_succ (image : Firmware) (K p : ℕ) :
    image.upTo K (p + 1) = image.upTo K p ++ image.pageCommands K p K := by
  simp [Firmware.upTo, List.range_succ]

theorem pageCommands_succ (image : Firmware) (K p i : ℕ) : image.pageCommands K p (i + 1) =
    image.pageCommands K p i ++ [.page_fill (image.slice (8 * K * p + 8 * i) 8)] := by
  simp [Firmware.pageCommands, List.range_succ]

theorem pages_succ (image : Firmware) (K p : ℕ) :
    image.pages K (p + 1) = image.pages K p ++ [(p, image.slice (8 * K * p) (8 * K))] := by
  simp [Firmware.pages, List.range_succ]

theorem lt_pageCount (hK : 0 < K) {p : ℕ} : p < image.pageCount K ↔ 8 * K * p < image.fw_size := by
  rw [Firmware.pageCount, Nat.lt_iff_add_one_le, Nat.le_div_iff_mul_le (by omega), Nat.add_mul,
    Nat.mul_comm p]
  omega

theorem page_fits (hfits : image.pageCount K * (8 * K) ≤ 128 * 1024) {p : ℕ}
    (hp : p < image.pageCount K) : 8 * K * p + 8 * K ≤ 128 * 1024 := by
  have hle : (p + 1) * (8 * K) ≤ image.pageCount K * (8 * K) := Nat.mul_le_mul_right _ hp
  rw [Nat.add_mul, Nat.mul_comm p] at hle
  omega

theorem Stands.fill_of_lt (h : s.Stands node_id commands page fw_idx bootloader pages [] [])
    {p : ℕ} {data : List UInt8} (hlt : data.length < 8 * K) (frame : H9frame) :
    (s.fill node_id K p data frame).Stands node_id commands page fw_idx (.filling p data) pages
      [H9frame.PAGE_FILL_NEXT] [] := by
  rw [Upload.fill, if_pos hlt]
  have hs : Stands { s with bootloader := .filling p data } node_id commands page fw_idx
      (.filling p data) pages [] [] := { h with bootloader := rfl }
  exact hs.answer _ frame

theorem Stands.fill_of_le (h : s.Stands node_id commands page fw_idx bootloader pages [] [])
    {p : ℕ} {data : List UInt8} (hle : 8 * K ≤ data.length) (frame : H9frame) :
    (s.fill node_id K p data frame).Stands node_id commands page fw_idx .ready
      (pages ++ [(p, data)]) [H9frame.PAGE_WRITED] [] := by
  rw [Upload.fill, if_neg (Nat.not_lt.2 hle)]
  have hs : Stands { s with bootloader := .ready, pages := s.pages ++ [(p, data)] } node_id commands
      page fw_idx .ready (pages ++ [(p, data)]) [] [] :=
    { h with bootloader := rfl, pages := by rw [h.pages] }
  exact hs.answer _ frame

theorem at_turn_on {stage : Stage} (h : At image node_id K s stage)
    (hstep : s.step image node_id K (.turn_on frame) = some t) : ∃ stage, At image node_id K t stage := by
  simp only [step] at hstep
  split_ifs at hstep with hoff
  obtain rfl := Option.some.inj hstep
  cases stage with
  | off =>
    have hs : Stands { s with bootloader := .ready } node_id (image.upTo K 0) 0 0 .ready [] [] [] :=
      { h with bootloader := rfl }
    exact ⟨.turnedOn, hs.answer _ frame⟩
  | turnedOn => exact absurd (hoff.symm.trans h.bootloader) (by decide)
  | starting p => exact absurd (hoff.symm.trans h.2.bootloader) (by decide)
  | asking p i => exact absurd (hoff.symm.trans h.2.2.bootloader) Bootloader.noConfusion
  | filling p i => exact absurd (hoff.symm.trans h.2.2.bootloader) Bootloader.noConfusion
  | written p => exact absurd (hoff.symm.trans h.2.bootloader) (by decide)
  | quit =>
    rcases h.2.2.2.2.1 with hready | hquit
    · exact absurd (hoff.symm.trans hready) (by decide)
    · exact absurd (hoff.symm.trans hquit) (by decide)

theorem at_other {stage : Stage} (h : At image node_id K s stage) {msg : Option H9frame}
    (hstep : s.step image node_id K (.other msg) = some t) : At image node_id K t stage := by
  simp only [step] at hstep
  split_ifs at hstep with hmsg
  obtain rfl := Option.some.inj hstep
  cases stage with
  | off => exact Stands.other h hmsg
  | turnedOn => exact Stands.other h hmsg
  | starting p => exact ⟨h.1, h.2.other hmsg⟩
  | asking p i => exact ⟨h.1, h.2.1, h.2.2.other hmsg⟩
  | filling p i => exact ⟨h.1, h.2.1, h.2.2.other hmsg⟩
  | written p => exact ⟨h.1, h.2.other hmsg⟩
  | quit =>
    obtain ⟨hcommands, hended, hpages, hinbox, hrest⟩ := h
    refine ⟨hcommands, hended, hpages, ?_, hrest⟩
    rw [List.filterMap_append, hinbox, List.nil_append]
    rcases msg with _ | frame
    · rfl
    · have hnone : fromNode node_id (some frame) = none := if_neg (hmsg frame rfl)
      rw [List.filterMap_cons_none hnone, List.filterMap_nil]

section

variable (hK : 0 < K) (hfits : image.pageCount K * (8 * K) ≤ 128 * 1024)
include hK hfits

theorem at_host (hsize : 0 < image.fw_size) {stage : Stage} (h : At image node_id K s stage)
    (hstep : s.step image node_id K .host = some t) : ∃ stage, At image node_id K t stage := by
  cases stage with
  | off =>
    rcases Stands.host_cases h hstep with hsame | ⟨frame, inbox, hanswers, -⟩
    · exact ⟨.off, hsame⟩
    · cases hanswers
  | turnedOn =>
    rcases Stands.host_cases h hstep with hsame | ⟨frame, inbox, hanswers, hsource, rfl⟩
    · exact ⟨.turnedOn, hsame⟩
    obtain ⟨htype, hinbox⟩ := List.cons.inj hanswers
    have hpage : 0 < image.pageCount K := (lt_pageCount hK).2 (by omega)
    have hrecv := Stands.recv h inbox (h.host.turned_on image hsource htype.symm)
    rw [← hinbox] at hrecv
    exact ⟨.starting 0, hpage, hrecv⟩
  | starting p =>
    rcases h.2.host_cases hstep with hsame | ⟨frame, inbox, hanswers, -⟩
    · exact ⟨.starting p, h.1, hsame⟩
    · cases hanswers
  | asking p i =>
    obtain ⟨hp, hi, hs⟩ := h
    rcases hs.host_cases hstep with hsame | ⟨frame, inbox, hanswers, hsource, rfl⟩
    · exact ⟨.asking p i, hp, hi, hsame⟩
    obtain ⟨htype, hinbox⟩ := List.cons.inj hanswers
    have hpage := page_fits hfits hp
    have hrecv := hs.recv inbox
      (hs.host.page_fill image hsource htype.symm (by omega))
    rw [← hinbox, List.append_assoc, ← pageCommands_succ] at hrecv
    exact ⟨.filling p i, hp, hi, hrecv⟩
  | filling p i =>
    rcases h.2.2.host_cases hstep with hsame | ⟨frame, inbox, hanswers, -⟩
    · exact ⟨.filling p i, h.1, h.2.1, hsame⟩
    · cases hanswers
  | written p =>
    obtain ⟨hp, hs⟩ := h
    rcases hs.host_cases hstep with hsame | ⟨frame, inbox, hanswers, hsource, rfl⟩
    · exact ⟨.written p, hp, hsame⟩
    obtain ⟨htype, hinbox⟩ := List.cons.inj hanswers
    by_cases hnext : p + 1 < image.pageCount K
    · have hpage := page_fits hfits hnext
      have hbound : 8 * (p + 1) ≤ 8 * K * (p + 1) := Nat.mul_le_mul_right _ (by omega)
      have hrecv := hs.recv inbox (hs.host.page_writed hsource htype.symm ((lt_pageCount hK).1 hnext))
      rw [← hinbox, Nat.mod_eq_of_lt (by omega : p + 1 < 2 ^ 16)] at hrecv
      exact ⟨.starting (p + 1), hnext, hrecv⟩
    · have hcount : p + 1 = image.pageCount K := by omega
      have hlast : image.fw_size ≤ 8 * K * (p + 1) := by
        rw [← Nat.not_lt, ← lt_pageCount hK]
        exact hnext
      obtain ⟨hsent, hended⟩ := hs.host.quit hsource htype.symm hsize hlast
      obtain ⟨frames, hframes⟩ := s.host.recv_sent image frame
      obtain ⟨upgrades, hupgrades, hunheard⟩ := hs.unheard
      have hcommand : frames.map (H9frame.command node_id) = [some .quit_bootloader] := by
        rw [← hframes, List.map_append, List.map_append, hs.host.sent] at hsent
        exact List.append_cancel_left hsent
      refine ⟨.quit, ?_, hended, ?_, hinbox.symm, .inl hs.bootloader, ?_,
        upgrades ++ [.quit_bootloader], ?_, ?_⟩
      · rw [hcount] at hsent
        exact hsent
      · rw [← hcount]
        exact hs.pages
      · rw [← hframes, List.length_append]
        exact hs.heard.trans (Nat.le_add_right _ _)
      · intro c hc
        rcases List.mem_append.1 hc with hc | hc
        · exact .inl (hupgrades c hc)
        · exact .inr (List.mem_singleton.1 hc)
      · rw [← hframes, List.drop_append_of_le_length hs.heard, List.map_append, hunheard, hcommand]
        simp
  | quit =>
    obtain ⟨-, hended, -⟩ := h
    simp only [step] at hstep
    split at hstep
    · cases hstep
    · simp [H9fwu.step, hended] at hstep

theorem at_node {stage : Stage} (h : At image node_id K s stage)
    (hstep : s.step image node_id K (.node frame) = some t) : ∃ stage, At image node_id K t stage := by
  cases stage with
  | off =>
    rcases Stands.node_cases h hstep with hsame | ⟨c, rest, hunheard, -⟩
    · exact ⟨.off, hsame⟩
    · cases hunheard
  | turnedOn =>
    rcases Stands.node_cases h hstep with hsame | ⟨c, rest, hunheard, -⟩
    · exact ⟨.turnedOn, hsame⟩
    · cases hunheard
  | starting p =>
    obtain ⟨hp, hs⟩ := h
    rcases hs.node_cases hstep with hsame | ⟨c, rest, hunheard, rfl, hrest⟩
    · exact ⟨.starting p, hp, hsame⟩
    obtain ⟨rfl, rfl⟩ := List.cons.inj hunheard
    have hready : ¬ (s.bootloader = .off ∨ s.bootloader = .quit) := by
      rw [hs.bootloader]
      decide
    refine ⟨.asking p 0, hp, hK, ?_⟩
    rw [hear, if_neg hready]
    exact hrest.fill_of_lt (by simp; omega) frame
  | asking p i =>
    rcases h.2.2.node_cases hstep with hsame | ⟨c, rest, hunheard, -⟩
    · exact ⟨.asking p i, h.1, h.2.1, hsame⟩
    · cases hunheard
  | filling p i =>
    obtain ⟨hp, hi, hs⟩ := h
    rcases hs.node_cases hstep with hsame | ⟨c, rest, hunheard, rfl, hrest⟩
    · exact ⟨.filling p i, hp, hi, hsame⟩
    obtain ⟨rfl, rfl⟩ := List.cons.inj hunheard
    have hpage := page_fits hfits hp
    have hdata : image.slice (8 * K * p) (8 * i) ++ image.slice (8 * K * p + 8 * i) 8 =
        image.slice (8 * K * p) (8 * (i + 1)) := Firmware.slice_append _ _ _
    have hlength : (image.slice (8 * K * p) (8 * (i + 1))).length = 8 * (i + 1) :=
      Firmware.length_slice (by omega)
    have hbootloader : s.bootloader = .filling p (image.slice (8 * K * p) (8 * i)) := hs.bootloader
    simp only [hear, hbootloader, hdata]
    by_cases hmore : i + 1 < K
    · exact ⟨.asking p (i + 1), hp, hmore, hrest.fill_of_lt (by omega) frame⟩
    · obtain rfl : K = i + 1 := by omega
      have hwritten := hrest.fill_of_le (p := p) hlength.ge frame
      rw [← pages_succ, ← upTo_succ] at hwritten
      exact ⟨.written p, hp, by rw [Nat.mul_add_one]; exact hwritten⟩
  | written p =>
    rcases h.2.node_cases hstep with hsame | ⟨c, rest, hunheard, -⟩
    · exact ⟨.written p, h.1, hsame⟩
    · cases hunheard
  | quit =>
    obtain ⟨hcommands, hended, hpages, hinbox, hboot, -, upgrades, hupgrades, hunheard⟩ := h
    obtain ⟨sent, hsent, rfl⟩ := Option.map_eq_some_iff.1 hstep
    obtain ⟨hlt, hget⟩ := List.getElem?_eq_some_iff.1 hsent
    rw [List.drop_eq_getElem_cons hlt, List.map_cons, hget] at hunheard
    rcases upgrades with _ | ⟨c, upgrades⟩
    · cases hunheard
    obtain ⟨hc, hrest⟩ := List.cons.inj hunheard
    have hrest' : ∀ c ∈ upgrades, c = .node_upgrade ∨ c = .quit_bootloader :=
      fun c hc => hupgrades c (List.mem_cons_of_mem _ hc)
    rcases hupgrades c List.mem_cons_self with rfl | rfl
    · rw [hc]
      exact ⟨.quit, hcommands, hended, hpages, hinbox, hboot, hlt, upgrades, hrest', hrest⟩
    · rw [hc]
      exact ⟨.quit, hcommands, hended, hpages, hinbox, .inr rfl, hlt, upgrades, hrest', hrest⟩

theorem at_step (hsize : 0 < image.fw_size) (a : UploadStep) (s t : Upload)
    (h : ∃ stage, At image node_id K s stage) (hstep : s.step image node_id K a = some t) : ∃ stage, At image node_id K t stage := by
  obtain ⟨stage, h⟩ := h
  cases a with
  | turn_on frame => exact at_turn_on h hstep
  | node frame => exact at_node hK hfits h hstep
  | host => exact at_host hK hfits hsize h hstep
  | other msg => exact ⟨stage, at_other h hstep⟩

end

theorem at_start (image : Firmware) (node_id source_id : BitVec 9) (K : ℕ) :
    At image node_id K (start node_id source_id) .off where
  host := H9fwu.shows_start source_id
  bootloader := rfl
  pages := rfl
  answers := rfl
  heard := Nat.zero_le _
  unheard := ⟨[.node_upgrade], by simp, (H9fwu.shows_start source_id).sent⟩

/-! ### Runs -/

theorem pageCommands_prefix (image : Firmware) (K p : ℕ) {i j : ℕ} (h : i ≤ j) :
    image.pageCommands K p i <+: image.pageCommands K p j := by
  induction j, h using Nat.le_induction with
  | base => exact List.prefix_refl _
  | succ j _ ih =>
    rw [pageCommands_succ]
    exact ih.trans (List.prefix_append _ _)

theorem upTo_prefix (image : Firmware) (K : ℕ) {p q : ℕ} (h : p ≤ q) :
    image.upTo K p <+: image.upTo K q := by
  induction q, h using Nat.le_induction with
  | base => exact List.prefix_refl _
  | succ q _ ih =>
    rw [upTo_succ]
    exact ih.trans (List.prefix_append _ _)

theorem pages_prefix (image : Firmware) (K : ℕ) {p q : ℕ} (h : p ≤ q) :
    image.pages K p <+: image.pages K q := by
  induction q, h using Nat.le_induction with
  | base => exact List.prefix_refl _
  | succ q _ ih =>
    rw [pages_succ]
    exact ih.trans (List.prefix_append _ _)

theorem upTo_script {p : ℕ} (hp : p ≤ image.pageCount K) : image.upTo K p <+: image.script K :=
  ( upTo_prefix image K hp).trans (List.prefix_append _ _)

theorem page_script {p i : ℕ} (hp : p < image.pageCount K) (hi : i ≤ K) :
    image.upTo K p ++ image.pageCommands K p i <+: image.script K := by
  have hpage : image.upTo K p ++ image.pageCommands K p i <+: image.upTo K (p + 1) := by
    rw [upTo_succ, List.prefix_append_right_inj]
    exact pageCommands_prefix image K p hi
  exact hpage.trans (upTo_script hp)

theorem Stands.commands_eq
    (h : s.Stands node_id commands page fw_idx bootloader pages answers unheard) :
    s.commands node_id = commands.map some := h.host.sent

theorem At.commands_prefix {stage : Stage} (h : At image node_id K s stage) :
    s.commands node_id <+: (image.script K).map some := by
  have hmap {cs : List Command} (hs : s.commands node_id = cs.map some) (hcs : cs <+: image.script K) :
      s.commands node_id <+: (image.script K).map some := by
    rw [hs]
    exact hcs.map some
  cases stage with
  | off => exact hmap (Stands.commands_eq h) (upTo_script (Nat.zero_le _))
  | turnedOn => exact hmap (Stands.commands_eq h) (upTo_script (Nat.zero_le _))
  | starting p => exact hmap h.2.commands_eq (page_script h.1 (Nat.zero_le _))
  | asking p i => exact hmap h.2.2.commands_eq (page_script h.1 h.2.1.le)
  | filling p i => exact hmap h.2.2.commands_eq (page_script h.1 h.2.1)
  | written p => exact hmap h.2.commands_eq (upTo_script h.1)
  | quit => exact hmap h.1 (List.prefix_refl _)

theorem At.pages_prefix {stage : Stage} (h : At image node_id K s stage) :
    s.pages <+: image.pages K (image.pageCount K) := by
  have hle {p : ℕ} (hs : s.pages = image.pages K p) (hp : p ≤ image.pageCount K) :
      s.pages <+: image.pages K (image.pageCount K) := by
    rw [hs]
    exact Upload.pages_prefix image K hp
  cases stage with
  | off => exact hle (p := 0) h.pages (Nat.zero_le _)
  | turnedOn => exact hle (p := 0) h.pages (Nat.zero_le _)
  | starting p => exact hle h.2.pages h.1.le
  | asking p i => exact hle h.2.2.pages h.1.le
  | filling p i => exact hle h.2.2.pages h.1.le
  | written p => exact hle h.2.pages h.1
  | quit => exact hle h.2.2.1 le_rfl

theorem forall_fromOther_iff {inbox : List (Option H9frame)} :
    (∀ msg ∈ inbox, FromOther node_id msg) ↔ inbox.filterMap (fromNode node_id) = [] := by
  rw [List.filterMap_eq_nil_iff]
  refine forall₂_congr fun msg _ => ?_
  rcases msg with _ | frame
  · simp [FromOther, fromNode]
  · simp [FromOther, fromNode]

theorem quit_not_mem_upTo (image : Firmware) (K p : ℕ) : Command.quit_bootloader ∉ image.upTo K p := by
  simp [Firmware.upTo, Firmware.pageCommands]

theorem quit_not_mem_page (image : Firmware) (K p i : ℕ) :
    Command.quit_bootloader ∉ image.upTo K p ++ image.pageCommands K p i := by
  simp [Firmware.upTo, Firmware.pageCommands]

/-- Before the upload is over there is a page to write, or an answer to receive. -/
theorem At.quit_iff (hpos : 0 < image.pageCount K) {stage : Stage} (h : At image node_id K s stage) :
    some .quit_bootloader ∈ s.commands node_id ↔
      s.pages = image.pages K (image.pageCount K) ∧ ∀ msg ∈ s.inbox, FromOther node_id msg := by
  rw [forall_fromOther_iff]
  have hnot {cs : List Command} (hs : s.commands node_id = cs.map some)
      (hcs : Command.quit_bootloader ∉ cs) : some Command.quit_bootloader ∉ s.commands node_id := by
    rw [hs]
    simpa using hcs
  have hpage {cs : List Command} {p : ℕ} (hs : s.commands node_id = cs.map some)
      (hcs : Command.quit_bootloader ∉ cs) (hp : p < image.pageCount K)
      (hpages : s.pages = image.pages K p) : some Command.quit_bootloader ∈ s.commands node_id ↔
        s.pages = image.pages K (image.pageCount K) ∧ s.inbox.filterMap (fromNode node_id) = [] := by
    refine iff_of_false (hnot hs hcs) fun hr => ?_
    have hlength := congrArg List.length (hpages.symm.trans hr.1)
    simp [Firmware.pages] at hlength
    omega
  cases stage with
  | off => exact hpage (Stands.commands_eq h) (quit_not_mem_upTo image K 0) hpos h.pages
  | turnedOn => exact hpage (Stands.commands_eq h) (quit_not_mem_upTo image K 0) hpos h.pages
  | starting p => exact hpage h.2.commands_eq (quit_not_mem_page image K p 0) h.1 h.2.pages
  | asking p i => exact hpage h.2.2.commands_eq (quit_not_mem_page image K p i) h.1 h.2.2.pages
  | filling p i => exact hpage h.2.2.commands_eq (quit_not_mem_page image K p (i + 1)) h.1 h.2.2.pages
  | written p =>
    refine iff_of_false (hnot h.2.commands_eq (quit_not_mem_upTo _ _ _)) fun hr => ?_
    rw [h.2.answers] at hr
    cases hr.2
  | quit =>
    refine iff_of_true ?_ ⟨h.2.2.1, h.2.2.2.1⟩
    rw [h.1]
    simp [Firmware.script]

/-- Only where the upload is over, neither of the two has something to receive. -/
theorem At.script_of_settled {stage : Stage} (h : At image node_id K s stage)
    (hon : s.bootloader ≠ .off) (hsettled : s.Settled) :
    s.commands node_id = (image.script K).map some := by
  obtain ⟨hinbox, hheard⟩ := hsettled
  have hanswer {commands page fw_idx bootloader pages type unheard}
      (hs : s.Stands node_id commands page fw_idx bootloader pages [type] unheard) : False := by
    rcases hinbox with hinbox | hended
    · have hanswers := hs.answers
      rw [hinbox] at hanswers
      cases hanswers
    · rw [hs.host.ended] at hended
      cases hended
  have hcommand {commands page fw_idx bootloader pages answers c}
      (hs : s.Stands node_id commands page fw_idx bootloader pages answers [c]) : False := by
    obtain ⟨upgrades, -, hunheard⟩ := hs.unheard
    rw [hheard, List.drop_length] at hunheard
    simp at hunheard
  cases stage with
  | off => exact absurd h.bootloader hon
  | turnedOn => exact (hanswer h).elim
  | starting p => exact (hcommand h.2).elim
  | asking p i => exact (hanswer h.2.2).elim
  | filling p i => exact (hcommand h.2.2).elim
  | written p => exact (hanswer h.2).elim
  | quit => exact h.1

/-- What is still to be received at most: the messages to the program, and for each command that the
node has not got the command and its answer. -/
def budget (image : Firmware) (K : ℕ) (s : Upload) : ℕ :=
  s.inbox.length + 2 * ((image.script K).length - s.heard) + if s.bootloader = .off then 2 else 0

/-- What a step adds to that and one more. -/
def brought : UploadStep → ℕ
  | .other _ => 2
  | _ => 0

theorem At.heard_le {stage : Stage} (h : At image node_id K s stage) :
    s.host.sent.length ≤ (image.script K).length := by
  have hlength := h.commands_prefix.length_le
  rwa [commands, List.length_map, List.length_map] at hlength

theorem length_inbox_answer (s : Upload) (type : UInt8) (frame : H9frame) :
    (s.answer node_id type frame).inbox.length = s.inbox.length + 1 := by
  rw [Upload.answer, List.length_append, List.length_singleton]

/-- The node answers at most once, and does not turn off. -/
theorem hear_inbox (node_id : BitVec 9) (K : ℕ) (s : Upload) (frame : H9frame) (c : Option Command) :
    (s.hear node_id K frame c).inbox.length ≤ s.inbox.length + 1 ∧
      (s.hear node_id K frame c).heard = s.heard ∧
        ((s.hear node_id K frame c).bootloader = .off → s.bootloader = .off) := by
  have hfill (page : ℕ) (data : List UInt8) :
      (s.fill node_id K page data frame).inbox.length ≤ s.inbox.length + 1 ∧
        (s.fill node_id K page data frame).heard = s.heard ∧
          ((s.fill node_id K page data frame).bootloader = .off → s.bootloader = .off) := by
    unfold Upload.fill
    split_ifs
    · exact ⟨(length_inbox_answer _ _ _).le, rfl, fun hoff => Bootloader.noConfusion hoff⟩
    · exact ⟨(length_inbox_answer _ _ _).le, rfl, fun hoff => Bootloader.noConfusion hoff⟩
  unfold hear
  split
  · split_ifs
    · exact ⟨Nat.le_succ _, rfl, id⟩
    · exact hfill _ _
  · split
    · exact hfill _ _
    · exact ⟨Nat.le_succ _, rfl, id⟩
  · exact ⟨Nat.le_succ _, rfl, fun hoff => Bootloader.noConfusion hoff⟩
  · exact ⟨Nat.le_succ _, rfl, id⟩

/-- A step receives something, but for those that send first. -/
theorem budget_step {a : UploadStep} {stage : Stage} (h : At image node_id K s stage)
    (hstep : s.step image node_id K a = some t) :
    t.budget image K + 1 ≤ s.budget image K + brought a := by
  cases a with
  | turn_on frame =>
    simp only [step] at hstep
    split_ifs at hstep with hoff
    obtain rfl := Option.some.inj hstep
    simp only [budget, brought, length_inbox_answer, if_pos hoff]
    simp only [Upload.answer, reduceCtorEq, if_false]
    omega
  | node frame =>
    obtain ⟨sent, hsent, rfl⟩ := Option.map_eq_some_iff.1 hstep
    have hlt := (List.getElem?_eq_some_iff.1 hsent).1
    have hle := h.heard_le
    obtain ⟨hinbox, hheard, hoff⟩ :=
      hear_inbox node_id K { s with heard := s.heard + 1 } frame (sent.command node_id)
    simp only [budget, brought, hheard] at *
    split_ifs with hoff' hoff''
    · omega
    · exact absurd (hoff hoff') hoff''
    · omega
    · omega
  | host =>
    simp only [step] at hstep
    split at hstep
    · cases hstep
    · rename_i msg inbox hinbox
      obtain ⟨host, -, rfl⟩ := Option.map_eq_some_iff.1 hstep
      simp only [budget, brought, hinbox, List.length_cons]
      omega
  | other msg =>
    simp only [step] at hstep
    split_ifs at hstep
    obtain rfl := Option.some.inj hstep
    simp only [budget, brought, List.length_append, List.length_singleton]
    omega

theorem sum_brought (as : List UploadStep) :
    (as.map brought).sum = 2 * as.countP fun a => brought a = 2 := by
  induction as with
  | nil => rfl
  | cons a as ih =>
    rw [List.map_cons, List.sum_cons, ih, List.countP_cons]
    cases a <;> (simp [brought]; try omega)

/-- What an upload is to do, of a state that the steps lead to. -/
structure Uploads (image : Firmware) (node_id : BitVec 9) (K : ℕ) (as : List UploadStep) (s : Upload) :
    Prop where
  /-- The program sends the commands of the upload, in order and each of them once. -/
  commands : s.commands node_id <+: (image.script K).map some
  /-- The node writes the pages of the image. -/
  pages : s.pages <+: image.pages K (image.pageCount K)
  /-- The bootloader is quit when the program has heard that the last page is written. -/
  quit : some .quit_bootloader ∈ s.commands node_id ↔
    s.pages = image.pages K (image.pageCount K) ∧ ∀ msg ∈ s.inbox, FromOther node_id msg
  /-- With the bootloader turned on, the upload only stops when it is complete. -/
  complete : s.bootloader ≠ .off → s.Settled → s.commands node_id = (image.script K).map some
  /-- It does not go on for ever. -/
  bounded : as.length ≤ 2 * as.countP (fun a => brought a = 2) + 2 * (image.script K).length + 2

/-- In every run of h9fwu with a node, whatever other messages come in between, the image is written
page by page. -/
theorem image_uploaded {image : Firmware} {K : ℕ} (hsize : 0 < image.fw_size) (hK : 0 < K)
    (hfits : image.pageCount K * (8 * K) ≤ 128 * 1024) {node_id source_id : BitVec 9}
    {as : List UploadStep} {s : Upload}
    (hrun : Steps.run (step image node_id K) as (start node_id source_id) = some s) :
    Uploads image node_id K as s := by
  have hstart : ∃ stage, At image node_id K (start node_id source_id) stage :=
    ⟨.off, at_start image node_id source_id K⟩
  have hpos : 0 < image.pageCount K := (lt_pageCount hK).2 hsize
  obtain ⟨stage, h⟩ := Steps.inv_of_run (at_step hK hfits hsize) hstart hrun
  refine ⟨h.commands_prefix, h.pages_prefix, h.quit_iff hpos, h.script_of_settled, ?_⟩
  have hstep (a : UploadStep) (s t : Upload) (h : ∃ stage, At image node_id K s stage)
      (hstep : s.step image node_id K a = some t) :
      (∃ stage, At image node_id K t stage) ∧ t.budget image K + 1 ≤ s.budget image K + brought a :=
    ⟨at_step hK hfits hsize a s t h hstep, h.elim fun _ hs => budget_step hs hstep⟩
  have hlength := Steps.length_le_of_run hstep hstart hrun
  have hbudget : (start node_id source_id).budget image K = 2 * (image.script K).length + 2 := by
    simp [budget, start]
  rw [sum_brought, hbudget] at hlength
  omega

/-- An image of 9 bytes. -/
def blank : Firmware := ⟨Vector.replicate (128 * 1024) 0xff, 9⟩

/-- The whole upload of that image in pages of 8 bytes, with a heartbeat of another node. -/
def blankSteps : List UploadStep :=
  [.node H9frame.new, .turn_on H9frame.new, .other (some H9frame.new), .host, .node H9frame.new, .host,
    .host, .node H9frame.new, .host, .node H9frame.new, .host, .node H9frame.new, .host]

theorem image_uploaded_blank : ∃ s, Steps.run (step blank 32 1) blankSteps (start 32 4) = some s ∧
    s.host.ended = some .EXIT_SUCCESS ∧ Uploads blank 32 1 blankSteps s := by
  have hrun : ((Steps.run (step blank 32 1) blankSteps (start 32 4)).map fun s => s.host.ended) =
      some (some .EXIT_SUCCESS) := by
    rfl
  obtain ⟨s, hs, hended⟩ := Option.map_eq_some_iff.1 hrun
  exact ⟨s, hs, hended, image_uploaded (by decide) (by decide) (by decide) hs⟩

end Upload

end H9
