import H9.Device
import H9.Lib.Steps

/-!
# What a device is known by

The device of a node has the type and the version of the node's last announcement, as long as no
antenna switch announces a version that its constructor cuts off. A device is built again only
for an announcement that differs from the one it was built for.
-/

namespace H9

open Steps

namespace H9frame

theorem word_toNat (frame : H9frame) (i : Fin 7) : (frame.word i).toNat =
    256 * (frame.data.get i.castSucc).toNat + (frame.data.get i.succ).toNat := by
  have hhi := (frame.data.get i.castSucc).toNat_lt
  have hlo := (frame.data.get i.succ).toNat_lt
  have hor := Nat.shiftLeft_add_eq_or_of_lt hlo (frame.data.get i.castSucc).toNat
  have height : UInt16.toNat 8 % 16 = 8 := rfl
  simp only [word, UInt16.toNat_or, UInt16.toNat_shiftLeft, UInt8.toNat_toUInt16, height,
    Nat.shiftLeft_eq] at hor ⊢
  rw [Nat.mod_eq_of_lt (by omega), ← hor]
  omega

theorem shift_or_toNat {v : UInt64} (hv : v.toNat < 2 ^ 48) (w : UInt16) :
    (v <<< 16 ||| w.toUInt64).toNat = 2 ^ 16 * v.toNat + w.toNat := by
  have hw := w.toNat_lt
  have hor := Nat.shiftLeft_add_eq_or_of_lt hw v.toNat
  have hsixteen : UInt64.toNat 16 % 64 = 16 := rfl
  simp only [UInt64.toNat_or, UInt64.toNat_shiftLeft, UInt16.toNat_toUInt64, hsixteen,
    Nat.shiftLeft_eq] at hor ⊢
  rw [Nat.mod_eq_of_lt (by omega), ← hor]
  omega

theorem version_toNat (frame : H9frame) : (DevMgr.version frame).toNat =
    2 ^ 16 * (2 ^ 16 * (frame.word 2).toNat + (frame.word 4).toNat) + (frame.word 6).toNat := by
  have hmajor := (frame.word 2).toNat_lt
  have hminor := (frame.word 4).toNat_lt
  have htwo := shift_or_toNat (v := (frame.word 2).toUInt64) (by rw [UInt16.toNat_toUInt64]; omega)
    (frame.word 4)
  rw [UInt16.toNat_toUInt64] at htwo
  rw [DevMgr.version, shift_or_toNat (by omega), htwo]

theorem data_toList (frame : H9frame) : frame.data.toList =
    [frame.data.get 0, frame.data.get 1, frame.data.get 2, frame.data.get 3, frame.data.get 4,
      frame.data.get 5, frame.data.get 6, frame.data.get 7] := by
  rcases frame with ⟨_, _, _, _, _, _, ⟨⟨l⟩, hl⟩⟩
  match l, hl with
  | [_, _, _, _, _, _, _, _], _ => rfl

theorem announced_eq (frame : H9frame) :
    frame.announced = ⟨(frame.word 0).toNat, (DevMgr.version frame).toNat⟩ := by
  have hword := word_toNat frame
  simp only [announced, data_toList, bigEndian, version_toNat, List.take, List.drop,
    List.foldl_cons, List.foldl_nil, Announcement.mk.injEq]
  constructor
  · rw [hword 0]
    show _ = 256 * (frame.data.get 0).toNat + (frame.data.get 1).toNat
    omega
  · rw [hword 2, hword 4, hword 6]
    show _ = 2 ^ 16 * (2 ^ 16 * (256 * (frame.data.get 2).toNat + (frame.data.get 3).toNat) +
      (256 * (frame.data.get 4).toNat + (frame.data.get 5).toNat)) +
      (256 * (frame.data.get 6).toNat + (frame.data.get 7).toNat)
    omega

end H9frame

namespace Device

theorem buildDevice_fits (loader : DeviceDescLoader) (now : ℤ) (addr : ℕ) (node_id : BitVec 16)
    (type : UInt16) (version : UInt64)
    (h : (buildDevice loader now addr node_id type version).device_type = 5) :
    (buildDevice loader now addr node_id type version).device_version.toNat < 2 ^ 16 := by
  unfold buildDevice at h ⊢
  split_ifs with h₅
  · exact version.toUInt16.toNat_lt
  · rw [if_neg h₅] at h
    exact absurd h h₅

/-- A device is built with the version announced, unless it is an antenna switch. -/
theorem buildDevice_shown {type : UInt16} {version : UInt64}
    (h : type = 5 → version.toNat < 2 ^ 16) (loader : DeviceDescLoader) (now : ℤ) (addr : ℕ)
    (node_id : BitVec 16) :
    (buildDevice loader now addr node_id type version).shown = ⟨type.toNat, version.toNat⟩ := by
  unfold buildDevice
  split_ifs with h₅
  · subst h₅
    simp only [shown, newAntennaSwitch, new, UInt16.toNat_toUInt64, UInt64.toNat_toUInt16,
      Nat.mod_eq_of_lt (h rfl)]
  · rfl

theorem update_device_state_fst (d : Device) (frame : H9frame) (now : ℤ) :
    (d.update_device_state frame now).1 = d.update_device_last_seen_time now := by
  unfold update_device_state
  split_ifs <;> rfl

end Device

namespace DevMgr

variable (loader : DeviceDescLoader) (now : ℤ)

/-- What `add_device` puts in the place of a device, or where there is none. -/
def replacement (m : DevMgr) (frame : H9frame) : Option Device → Device
  | some d =>
    if d.device_type ≠ frame.word 0 ∨ d.device_version ≠ version frame then
      Device.buildDevice loader now m.built frame.node (frame.word 0) (version frame)
    else d.update_device_last_seen_time now
  | none => Device.buildDevice loader now m.built frame.node (frame.word 0) (version frame)

theorem process_of_announces (m : DevMgr) {frame : H9frame} (h : frame.Announces) :
    m.process loader now frame =
      m.add_device loader now frame.node (frame.word 0) (version frame) := by
  unfold process
  rcases h with h | h
  · rw [if_pos h]
    rfl
  · rw [if_neg (by rw [h]; decide), if_pos h]
    rfl

theorem lookup_announced (m : DevMgr) {frame : H9frame} (h : frame.Announces) :
    (m.process loader now frame).devices_map[frame.node]? =
      some (replacement loader now m frame m.devices_map[frame.node]?) := by
  rw [process_of_announces loader now m h]
  unfold add_device replacement
  rcases m.devices_map[frame.node]? with _ | d
  · simp [build, setDevice]
  · dsimp only
    split_ifs <;> simp [build, setDevice]

theorem lookup_unannounced (m : DevMgr) {frame : H9frame} {node_id : BitVec 16}
    (h : ¬ (frame.Announces ∧ frame.node = node_id)) :
    (m.process loader now frame).devices_map[node_id]? = m.devices_map[node_id]? ∨
      ∃ d, m.devices_map[node_id]? = some d ∧
        (m.process loader now frame).devices_map[node_id]? =
          some (d.update_device_last_seen_time now) := by
  by_cases ha : frame.Announces
  · have hne : frame.node ≠ node_id := fun hn => h ⟨ha, hn⟩
    rw [process_of_announces loader now m ha]
    unfold add_device
    rcases m.devices_map[frame.node]? with _ | d
    · simp [build, setDevice, Std.TreeMap.getElem?_insert, hne]
    · dsimp only
      split_ifs <;> simp [build, setDevice, Std.TreeMap.getElem?_insert, hne]
  · obtain ⟨hi, ht⟩ := not_or.1 ha
    unfold process
    rw [if_neg hi, if_neg ht]
    dsimp only
    split_ifs
    · rcases hd : m.devices_map[frame.node]? with _ | d <;> rw [H9frame.node] at hd <;> rw [hd]
      · exact .inl rfl
      · dsimp only [setDevice]
        rw [Device.update_device_state_fst]
        by_cases hn : frame.node = node_id
        · subst hn
          exact .inr ⟨d, hd, Std.TreeMap.getElem?_insert_self⟩
        · rw [H9frame.node] at hn
          simp [Std.TreeMap.getElem?_insert, hn]
    · exact .inl rfl

theorem replacement_addr (m : DevMgr) (frame : H9frame) {d : Device}
    (h : d.shown = frame.announced) :
    (replacement loader now m frame (some d)).addr = d.addr := by
  rw [H9frame.announced_eq, Device.shown, Announcement.mk.injEq, UInt16.toNat_inj,
    UInt64.toNat_inj] at h
  simp only [replacement, h.1, h.2, ne_eq, not_true_eq_false, or_self, if_false]
  rfl

theorem replacement_shown (m : DevMgr) {frame : H9frame} (h : UpdateRun.Fits frame)
    (ha : frame.Announces) (before : Option Device) :
    (replacement loader now m frame before).shown = frame.announced := by
  have hfits : frame.word 0 = 5 → (version frame).toNat < 2 ^ 16 := by
    intro h₅
    have hlt := h ha
    rw [H9frame.announced_eq, h₅] at hlt
    exact hlt rfl
  have hbuilt := Device.buildDevice_shown hfits loader now m.built frame.node
  rw [← H9frame.announced_eq] at hbuilt
  rcases before with _ | d
  · exact hbuilt
  · unfold replacement
    dsimp only
    split_ifs with hd
    · exact hbuilt
    · obtain ⟨htype, hversion⟩ := not_or.1 hd
      rw [H9frame.announced_eq, ← not_not.1 htype, ← not_not.1 hversion]
      rfl

theorem replacement_fits (m : DevMgr) (frame : H9frame) {before : Option Device}
    (h : ∀ d ∈ before, d.device_type = 5 → d.device_version.toNat < 2 ^ 16)
    (h₅ : (replacement loader now m frame before).device_type = 5) :
    (replacement loader now m frame before).device_version.toNat < 2 ^ 16 := by
  rcases before with _ | d
  · exact Device.buildDevice_fits _ _ _ _ _ _ h₅
  · unfold replacement at h₅ ⊢
    dsimp only at h₅ ⊢
    split_ifs at h₅ ⊢
    · exact Device.buildDevice_fits _ _ _ _ _ _ h₅
    · exact h d rfl h₅

end DevMgr

namespace UpdateRun

variable (loader : DeviceDescLoader)

/-- Each node has the device of its last announcement, whose version an antenna switch can hold. -/
structure Current (s : UpdateRun) : Prop where
  tracks : s.Tracks
  shown : ∀ node_id, (s.now.devices_map[node_id]?).map Device.shown =
    H9frame.lastAnnouncement node_id s.frames
  fits : ∀ (node_id : BitVec 16) (d : Device), s.now.devices_map[node_id]? = some d →
    d.device_type = 5 → d.device_version.toNat < 2 ^ 16

theorem current_start : start.Current where
  tracks := trivial
  shown _ := rfl
  fits _ _ h := by cases h

/-- A device that is built again was built for something else. -/
theorem not_rebuilt {s : UpdateRun} (h : s.Current) {frame : H9frame} {now : ℤ}
    {node_id : BitVec 16} (hr : Rebuilt s.now (s.now.process loader now frame) node_id) :
    frame.Announces ∧ frame.node = node_id ∧
      H9frame.lastAnnouncement node_id s.frames ≠ some frame.announced := by
  obtain ⟨d, hd, haddr⟩ := hr
  by_cases hf : frame.Announces ∧ frame.node = node_id
  · obtain ⟨ha, rfl⟩ := hf
    refine ⟨ha, rfl, fun hlast => ?_⟩
    have hshown : d.shown = frame.announced := by
      rw [← h.shown, hd] at hlast
      exact Option.some.inj hlast
    have hnew := DevMgr.lookup_announced loader now s.now ha
    rw [hd] at hnew
    exact haddr _ hnew (DevMgr.replacement_addr loader now s.now frame hshown)
  · rcases DevMgr.lookup_unannounced loader now s.now hf with heq | ⟨d', hd', hnew⟩
    · exact (haddr d (heq.trans hd) rfl).elim
    · obtain rfl := Option.some.inj (hd.symm.trans hd')
      exact (haddr _ hnew rfl).elim

theorem current_step {s t : UpdateRun} {e : H9frame × ℤ} (h : s.Current) (hC : Fits e.1)
    (hst : s.step loader e = some t) : t.Current := by
  obtain ⟨frame, now⟩ := e
  obtain rfl := Option.some.inj hst
  refine ⟨⟨fun ha => ?_, fun node_id => not_rebuilt loader h⟩, fun node_id => ?_,
    fun node_id d hd h₅ => ?_⟩
  · exact ⟨_, DevMgr.lookup_announced loader now s.now ha,
      DevMgr.replacement_shown loader now s.now hC ha _⟩
  · by_cases hf : frame.Announces ∧ frame.node = node_id
    · obtain ⟨ha, rfl⟩ := hf
      simp only [H9frame.lastAnnouncement, ha, true_and, if_true,
        DevMgr.lookup_announced loader now s.now ha, Option.map_some,
        DevMgr.replacement_shown loader now s.now hC ha]
    · rw [H9frame.lastAnnouncement, if_neg hf, ← h.shown]
      rcases DevMgr.lookup_unannounced loader now s.now hf with heq | ⟨d, hd, hnew⟩
      · exact congrArg _ heq
      · rw [hd]
        exact (congrArg (Option.map Device.shown) hnew).trans rfl
  · by_cases hf : frame.Announces ∧ frame.node = node_id
    · obtain ⟨ha, rfl⟩ := hf
      obtain rfl := Option.some.inj ((DevMgr.lookup_announced loader now s.now ha).symm.trans hd)
      exact DevMgr.replacement_fits loader now s.now frame (fun d hd => h.fits _ d hd) h₅
    · rcases DevMgr.lookup_unannounced loader now s.now hf with heq | ⟨d', hd', hnew⟩
      · exact h.fits node_id d (heq.symm.trans hd) h₅
      · obtain rfl := Option.some.inj (hnew.symm.trans hd)
        exact h.fits node_id d' hd' h₅

/-- An antenna switch with a version that does not fit has a device with another one. -/
theorem not_tracks {s t : UpdateRun} {e : H9frame × ℤ} (h : s.Current) (hC : ¬ Fits e.1)
    (hst : s.step loader e = some t) : ¬ t.Tracks := by
  obtain ⟨frame, now⟩ := e
  obtain rfl := Option.some.inj hst
  intro ht
  simp only [Fits, Classical.not_imp, not_lt] at hC
  obtain ⟨ha, h₅, hlarge⟩ := hC
  obtain ⟨d, hd, hshown⟩ := ht.1 ha
  obtain rfl := Option.some.inj ((DevMgr.lookup_announced loader now s.now ha).symm.trans hd)
  have hlt := DevMgr.replacement_fits loader now s.now frame (fun d hd => h.fits _ d hd)
    (UInt16.toNat_inj.1 ((congrArg Announcement.type hshown).trans h₅))
  have hversion : _ = frame.announced.version := congrArg Announcement.version hshown
  exact absurd (hversion ▸ hlt) (not_lt.2 hlarge)

/-- After every frame the devices are those that the nodes announced, each of them built again only
for another announcement, if and only if no antenna switch announces a version from `0.1.0` on. -/
theorem always_tracks_iff (es : List (H9frame × ℤ)) :
    Always (step loader) Tracks es start ↔ ∀ e ∈ es, Fits e.1 := by
  have hmeet : Always (step loader) Tracks es start ↔
      Meet (step loader) (fun e _ => Fits e.1) es start :=
    always_iff_meet (fun _ => Current.tracks) (fun _ _ _ => current_step loader)
      (fun _ _ h hC => ⟨_, rfl, not_tracks loader h hC rfl⟩) current_start
  exact hmeet.trans (meet_iff_forall (fun _ _ => rfl) es start)

/-- An antenna switch of version `1.0.0`. -/
def antennaSwitch : H9frame :=
  { H9frame.new with
    type := H9frame.NODE_TURNED_ON
    source_id := 32
    dlc := 8
    data := #v[0, 5, 0, 1, 0, 0, 0, 0] }

/-- Its device has the version `0.0.0`. -/
theorem not_always_tracks : ¬ ∀ loader es, Always (step loader) Tracks es start := by
  intro h
  obtain ⟨d, hd, hshown⟩ := ((h ∅ [(antennaSwitch, 0)]).2 _ rfl).1 (.inr rfl)
  have hversion : ∀ d ∈ (DevMgr.new.process ∅ 0 antennaSwitch).devices_map[antennaSwitch.node]?,
      d.device_version = 0 := by decide +kernel
  have hzero := hversion d hd
  have hone : antennaSwitch.announced.version = 2 ^ 32 := by decide +kernel
  have heq : d.device_version.toNat = antennaSwitch.announced.version :=
    congrArg Announcement.version hshown
  rw [hzero, hone] at heq
  cases heq

end UpdateRun

end H9
