import H9.Proofs.Announcements
import H9.Subscriptions

/-!
# Who observes a device

What attaching, detaching and a frame make of the observers. An observer has the event in its list,
or is just undoing it (`Covered`), so no client that is gone is left with a device. The other way
round a client observes what is in its list, as long as no device that it subscribed is built again:
the new object has no observers.
-/

namespace H9

open Steps

namespace Device

theorem mem_observers_attach (d : Device) (c : ℕ) (e : String) (c' : ℕ) (e' : String) :
    c' ∈ (d.attach_event_observer c e).observers e' ↔ c' ∈ d.observers e' ∨ c' = c ∧ e' = e := by
  unfold attach_event_observer observers
  rw [Std.TreeMap.getD_insert]
  by_cases he : e = e'
  · subst he
    simp [or_comm, @eq_comm ℕ c' c]
  · simp [he, Ne.symm he]

theorem mem_observers_detach (d : Device) (c : ℕ) (e : String) (c' : ℕ) (e' : String) :
    c' ∈ (d.detach_event_observer c e).observers e' ↔ c' ∈ d.observers e' ∧ ¬ (c' = c ∧ e' = e) := by
  unfold detach_event_observer observers
  rw [Std.TreeMap.getD_insert]
  by_cases he : e = e'
  · subst he
    simp [and_comm, @eq_comm ℕ c' c]
  · simp [he, Ne.symm he]

@[simp] theorem observers_touch (d : Device) (now : ℤ) :
    (d.update_device_last_seen_time now).observers = d.observers := rfl

@[simp] theorem observers_buildDevice (loader : DeviceDescLoader) (now : ℤ) (addr : ℕ)
    (node_id : BitVec 16) (type : UInt16) (version : UInt64) (e : String) :
    (buildDevice loader now addr node_id type version).observers e = ∅ := by
  unfold buildDevice
  split_ifs <;> rfl

end Device

namespace DevMgr

variable (m : DevMgr) (loader : DeviceDescLoader) (now : ℤ)

theorem knows_iff (dev_id : BitVec 16) : m.Knows dev_id ↔ ∃ d, m.devices_map[dev_id]? = some d := by
  rw [Knows, ← Std.TreeMap.isSome_getElem?_iff_mem, Option.isSome_iff_exists]

theorem knows_setDevice (id : BitVec 16) (d : Device) (id' : BitVec 16) :
    (m.setDevice id d).Knows id' ↔ m.Knows id' ∨ id' = id := by
  simp [Knows, setDevice, or_comm, @eq_comm _ id' id]

theorem observes_setDevice (id : BitVec 16) (d : Device) (c : ℕ) (id' : BitVec 16) (e : String) :
    (m.setDevice id d).Observes c id' e ↔
      if id' = id then c ∈ d.observers e else m.Observes c id' e := by
  unfold Observes setDevice
  dsimp only
  split_ifs with h
  · subst h
    simp
  · simp [Std.TreeMap.getElem?_insert, Ne.symm h]

variable {m} in
theorem knows_setDevice_of_lookup {id : BitVec 16} {d : Device} (hd : m.devices_map[id]? = some d)
    (d' : Device) (id' : BitVec 16) : (m.setDevice id d').Knows id' ↔ m.Knows id' := by
  rw [knows_setDevice, or_iff_left_iff_imp]
  rintro rfl
  exact (m.knows_iff id').2 ⟨d, hd⟩

theorem knows_attach (c : ℕ) (e : String) (id id' : BitVec 16) :
    (m.attach_event_observer c e id).Knows id' ↔ m.Knows id' := by
  unfold attach_event_observer
  rcases hd : m.devices_map[id]? with _ | d
  · rfl
  · exact knows_setDevice_of_lookup hd _ id'

theorem knows_detach (c : ℕ) (e : String) (id id' : BitVec 16) :
    (m.detach_event_observer c e id).Knows id' ↔ m.Knows id' := by
  unfold detach_event_observer
  rcases hd : m.devices_map[id]? with _ | d
  · rfl
  · exact knows_setDevice_of_lookup hd _ id'

theorem observes_attach (c : ℕ) (e : String) (id : BitVec 16) (c' : ℕ) (id' : BitVec 16)
    (e' : String) : (m.attach_event_observer c e id).Observes c' id' e' ↔
      m.Observes c' id' e' ∨ m.Knows id ∧ c' = c ∧ id' = id ∧ e' = e := by
  unfold attach_event_observer
  rcases hd : m.devices_map[id]? with _ | d
  · simp [knows_iff, hd]
  · have hknows : m.Knows id := (m.knows_iff id).2 ⟨d, hd⟩
    simp only [observes_setDevice, Device.mem_observers_attach]
    split_ifs with h
    · subst h
      simp [Observes, hd, hknows]
    · simp [h]

theorem observes_detach (c : ℕ) (e : String) (id : BitVec 16) (c' : ℕ) (id' : BitVec 16)
    (e' : String) : (m.detach_event_observer c e id).Observes c' id' e' ↔
      m.Observes c' id' e' ∧ ¬ (c' = c ∧ id' = id ∧ e' = e) := by
  unfold detach_event_observer
  rcases hd : m.devices_map[id]? with _ | d
  · refine (and_iff_left_of_imp ?_).symm
    rintro hobs ⟨-, rfl, -⟩
    obtain ⟨d, hd', -⟩ := hobs
    cases hd.symm.trans hd'
  · simp only [observes_setDevice, Device.mem_observers_detach]
    split_ifs with h
    · subst h
      simp [Observes, hd]
    · simp [h]

theorem knows_process (frame : H9frame) (id : BitVec 16) :
    (m.process loader now frame).Knows id ↔ m.Knows id ∨ frame.Announces ∧ frame.node = id := by
  rw [knows_iff, knows_iff]
  by_cases h : frame.Announces ∧ frame.node = id
  · obtain ⟨ha, rfl⟩ := h
    rw [lookup_announced loader now m ha]
    simp [ha]
  · rw [or_iff_left h]
    rcases lookup_unannounced loader now m h with heq | ⟨d, hd, hnew⟩
    · rw [heq]
    · simp [hd, hnew]

/-- A device that is built again has no observers, and all others keep theirs. -/
theorem observes_process (frame : H9frame) (c : ℕ) (id : BitVec 16) (e : String) :
    (m.process loader now frame).Observes c id e ↔
      m.Observes c id e ∧ ¬ (m.Rebuilds frame ∧ frame.node = id) := by
  unfold Observes
  by_cases h : frame.Announces ∧ frame.node = id
  · obtain ⟨ha, rfl⟩ := h
    rw [lookup_announced loader now m ha]
    rcases hd : m.devices_map[frame.node]? with _ | d
    · simp [replacement]
    · by_cases hne : d.device_type ≠ frame.word 0 ∨ d.device_version ≠ version frame
      · simp only [replacement, if_pos hne]
        simp [Rebuilds, ha, hd, hne]
      · simp only [replacement, if_neg hne]
        simp [Rebuilds, hd, hne]
  · have hr : ¬ (m.Rebuilds frame ∧ frame.node = id) := fun hr => h ⟨hr.1.1, hr.2⟩
    rw [and_iff_left hr]
    rcases lookup_unannounced loader now m h with heq | ⟨d, hd, hnew⟩
    · rw [heq]
    · simp [hd, hnew]

variable {m} in
theorem devices_update_cons {frame : H9frame} {frames : List H9frame}
    (h : m.frame_queue = frame :: frames) : m.devices_update_thread loader now =
      some ({ m with frame_queue := frames }.process loader now frame) := by
  simp only [devices_update_thread, h]

@[simp] theorem notified_add_device (id : BitVec 16) (type : UInt16) (version : UInt64) :
    (m.add_device loader now id type version).notified = m.notified := by
  unfold add_device
  rcases m.devices_map[id]? with _ | d
  · rfl
  · dsimp only
    split_ifs <;> rfl

theorem notified_process (frame : H9frame) : ∃ msgs : List (ℕ × GenericMsg),
    (m.process loader now frame).notified = m.notified ++ msgs ∧
      ∀ p ∈ msgs, ∃ id e, m.Observes p.1 id e := by
  have hnone : ∃ msgs : List (ℕ × GenericMsg), m.notified = m.notified ++ msgs ∧
      ∀ p ∈ msgs, ∃ id e, m.Observes p.1 id e := ⟨[], by simp, by simp⟩
  unfold process
  dsimp only
  split_ifs with hi ht hr
  · rwa [notified_add_device]
  · rwa [notified_add_device]
  · rcases hd : m.devices_map[(frame.source_id.setWidth 16 : BitVec 16)]? with _ | d
    · exact hnone
    · refine ⟨_, rfl, fun p hp => ⟨_, "register_change", d, hd, ?_⟩⟩
      unfold Device.update_device_state at hp
      split_ifs at hp
      · obtain ⟨c, hc, rfl⟩ := List.mem_map.1 hp
        exact Std.TreeSet.mem_toList.1 hc
      · cases hp
  · exact hnone

end DevMgr

namespace ExecutorAdapter

theorem refuse_answers {exedevcmsg : GenericMsg} {code : ErrorNumber} {text : String}
    {call : DeviceCall} (h : refuse exedevcmsg code text = .ok call) : ∃ msg, call = .answer msg := by
  unfold refuse at h
  rcases hid : GenericMsg.get_id exedevcmsg with x | id <;> rw [hid] at h
  · cases h
  · exact ⟨_, (Except.ok.inj h).symm⟩

theorem event_call_ok {exedevcmsg : GenericMsg} {call : String → DeviceCall} {call' : DeviceCall}
    (h : event_call exedevcmsg call = .ok call') : (∃ e, call' = call e) ∨ ∃ msg, call' = .answer msg := by
  unfold event_call at h
  split at h
  · exact .inl ⟨_, (Except.ok.inj h).symm⟩
  · exact .inr (refuse_answers h)
  · exact .inr (refuse_answers h)
  · cases h

/-- A client is attached to a device that is there. -/
theorem knows_of_attach {m : DevMgr} {exedevcmsg : GenericMsg} {id : BitVec 16} {e : String}
    (h : execute_device_method m exedevcmsg = .ok (.attach id e)) : m.Knows id := by
  unfold execute_device_method at h
  rcases hd : get_device_id exedevcmsg with x | dev_id <;> rw [hd] at h
  · cases h
  rcases hm : get_method_name exedevcmsg with x | method <;> rw [hm] at h
  · cases h
  simp only [bind, Except.bind] at h
  split_ifs at h with hexist hsub hunsub
  · obtain ⟨msg, hmsg⟩ := refuse_answers h
    cases hmsg
  · rcases event_call_ok h with ⟨e', he'⟩ | ⟨msg, hmsg⟩
    · obtain ⟨rfl, -⟩ := DeviceCall.attach.inj he'
      rw [Bool.not_eq_false] at hexist
      unfold Executor.is_device_exist at hexist
      split_ifs at hexist
      exact Std.TreeMap.contains_iff_mem.1 hexist
    · cases hmsg
  · rcases event_call_ok h with ⟨e', he'⟩ | ⟨msg, hmsg⟩
    · cases he'
    · cases hmsg
  · cases h

end ExecutorAdapter

namespace H9d

open ExecutorAdapter

variable (loader : DeviceDescLoader)

/-- What the steps that can be taken make of a state. -/
inductive Move (s : H9d) : H9dStep → H9d → Prop
  | connect {c : ℕ} (h : (s.clients c).phase = .absent) : Move s (.connect c) (s.setClient c ⟨.idle, []⟩)
  | attach {c : ℕ} {msg : GenericMsg} {id : BitVec 16} (e : String) (h : (s.clients c).phase = .idle)
      (hk : s.devmgr.Knows id) : Move s (.execute_device_method c msg)
        (s.setClient c ((s.clients c).attach_device_event_observer id e))
  | detach {c : ℕ} {msg : GenericMsg} (id : BitVec 16) (e : String)
      (h : (s.clients c).phase = .idle) : Move s (.execute_device_method c msg)
        (s.setClient c ((s.clients c).detach_device_event_observer id e))
  | answer {c : ℕ} {msg : GenericMsg} : Move s (.execute_device_method c msg) s
  | attached {c : ℕ} {id : BitVec 16} {e : String} (h : (s.clients c).phase = .attaching id e) :
      Move s (.call c)
        { s.setPhase c .idle with devmgr := s.devmgr.attach_event_observer c e id }
  | detached {c : ℕ} {id : BitVec 16} {e : String} (h : (s.clients c).phase = .detaching id e) :
      Move s (.call c)
        { s.setPhase c .idle with devmgr := s.devmgr.detach_event_observer c e id }
  | disconnect {c : ℕ} (h : (s.clients c).phase = .idle) : Move s (.disconnect c)
      (s.setPhase c (.cleaning (s.clients c).attach_device_event_observer_memento))
  | clean {c : ℕ} {id : BitVec 16} {e : String} {rest : List (BitVec 16 × String)}
      (h : (s.clients c).phase = .cleaning ((id, e) :: rest)) : Move s (.cleanup c)
        { s.setPhase c (.cleaning rest) with devmgr := s.devmgr.detach_event_observer c e id }
  | cleaned {c : ℕ} (h : (s.clients c).phase = .cleaning []) : Move s (.cleanup c) (s.setPhase c .gone)
  | on_frame_recv (frame : H9frame) :
      Move s (.on_frame_recv frame) { s with devmgr := s.devmgr.on_frame_recv frame }
  | update {frame : H9frame} {frames : List H9frame} (now : ℤ) {m : DevMgr}
      (h : s.devmgr.frame_queue = frame :: frames)
      (hm : m = { s.devmgr with frame_queue := frames }.process loader now frame) :
      Move s (.devices_update now) (s.updated m)

variable {loader}

theorem move_of_step {s t : H9d} {e : H9dStep} (h : s.step loader e = some t) :
    Move loader s e t := by
  cases e with
  | connect c =>
    simp only [step] at h
    split at h
    · rename_i hc
      exact Option.some.inj h ▸ .connect hc
    · cases h
  | execute_device_method c msg =>
    simp only [step] at h
    split at h
    · rename_i hc
      split at h
      · rename_i id e hcall
        exact Option.some.inj h ▸ .attach e hc (knows_of_attach hcall)
      · rename_i id e hcall
        exact Option.some.inj h ▸ .detach id e hc
      · exact Option.some.inj h ▸ .answer
      · exact Option.some.inj h ▸ .answer
      · cases h
    · cases h
  | call c =>
    simp only [step] at h
    split at h
    · rename_i id e hc
      exact Option.some.inj h ▸ .attached hc
    · rename_i id e hc
      exact Option.some.inj h ▸ .detached hc
    · cases h
  | disconnect c =>
    simp only [step] at h
    split at h
    · rename_i hc
      exact Option.some.inj h ▸ .disconnect hc
    · cases h
  | cleanup c =>
    simp only [step] at h
    split at h
    · rename_i id e rest hc
      exact Option.some.inj h ▸ .clean hc
    · rename_i hc
      exact Option.some.inj h ▸ .cleaned hc
    · cases h
  | on_frame_recv frame => exact Option.some.inj h ▸ .on_frame_recv frame
  | devices_update now =>
    obtain ⟨m, hm, rfl⟩ := Option.map_eq_some_iff.1 h
    unfold DevMgr.devices_update_thread at hm
    split at hm
    · cases hm
    · rename_i frame frames hq
      exact .update now hq (Option.some.inj hm).symm

theorem forall_setClient {s : H9d} {c : ℕ} {a : ExecutorAdapter} {P : ℕ → ExecutorAdapter → Prop}
    (hc : P c a) (h : ∀ c', c' ≠ c → P c' (s.clients c')) :
    ∀ c', P c' ((s.setClient c a).clients c') := by
  intro c'
  rcases eq_or_ne c' c with rfl | hne
  · simpa [setClient] using hc
  · simpa [setClient, hne] using h c' hne

end H9d

/-! ### What is left when a client is gone -/

namespace ExecutorAdapter

/-- What the client may still observe. -/
def pending (a : ExecutorAdapter) : List (BitVec 16 × String) :=
  match a.phase with
  | .absent | .gone => []
  | .idle | .attaching _ _ => a.attach_device_event_observer_memento
  | .detaching id e => (id, e) :: a.attach_device_event_observer_memento
  | .cleaning mementos => mementos

/-- What the client observes it has in its list, or is about to detach. -/
structure Covered (m : DevMgr) (c : ℕ) (a : ExecutorAdapter) : Prop where
  observed : ∀ id e, m.Observes c id e → (id, e) ∈ a.pending
  listed : ∀ id e, a.phase = .attaching id e → (id, e) ∈ a.attach_device_event_observer_memento

theorem Covered.of_observes {m m' : DevMgr} {c : ℕ} {a : ExecutorAdapter} (h : Covered m c a)
    (hle : ∀ id e, m'.Observes c id e → m.Observes c id e) : Covered m' c a where
  observed id e ho := h.observed id e (hle id e ho)
  listed := h.listed

theorem Covered.observed_in {m : DevMgr} {c : ℕ} {a : ExecutorAdapter} {phase : ClientPhase}
    (h : Covered m c a) (hphase : a.phase = phase) {id : BitVec 16} {e : String}
    (ho : m.Observes c id e) : (id, e) ∈ pending { a with phase := phase } :=
  hphase ▸ h.observed id e ho

theorem Covered.detach {m : DevMgr} {c : ℕ} {a : ExecutorAdapter} {id : BitVec 16} {e : String}
    {rest : List (BitVec 16 × String)} (h : Covered m c a) (hpending : a.pending = (id, e) :: rest)
    {id' : BitVec 16} {e' : String} (ho : (m.detach_event_observer c e id).Observes c id' e') :
    (id', e') ∈ rest := by
  obtain ⟨ho, hne⟩ := (m.observes_detach c e id c id' e').1 ho
  have hmem := h.observed id' e' ho
  rw [hpending] at hmem
  exact (List.mem_cons.1 hmem).resolve_left fun heq => hne ⟨rfl, Prod.mk.inj heq⟩

end ExecutorAdapter

namespace H9d

open ExecutorAdapter

variable (loader : DeviceDescLoader)

structure AllCovered (s : H9d) : Prop where
  covered : ∀ c, Covered s.devmgr c (s.clients c)
  used : s.used_gone = []

theorem AllCovered.released {s : H9d} (h : s.AllCovered) : s.Released := by
  refine ⟨fun c hc id e ho => ?_, h.used⟩
  cases (h.covered c).observed_in hc ho

/-- One client moves on, and the devices have no new observers but that client. -/
theorem AllCovered.moved {s : H9d} (h : s.AllCovered) {c : ℕ} {a : ExecutorAdapter} {m : DevMgr}
    (ha : Covered m c a)
    (hle : ∀ c', c' ≠ c → ∀ id e, m.Observes c' id e → s.devmgr.Observes c' id e) :
    AllCovered { s.setClient c a with devmgr := m } :=
  ⟨forall_setClient ha fun c' hne => (h.covered c').of_observes (hle c' hne), h.used⟩

theorem allCovered_start : start.AllCovered := by
  refine ⟨fun c => ⟨fun id e ho => ?_, fun id e h => ?_⟩, rfl⟩
  · obtain ⟨d, hd, -⟩ := ho
    cases hd
  · cases h

/-- Only those who observe get a message. -/
theorem receivers_observe {m m' : DevMgr} {frame : H9frame} {now : ℤ}
    (hm : m' = m.process loader now frame) {c : ℕ} (hc : c ∈ receivers m m') :
    ∃ id e, m.Observes c id e := by
  subst hm
  obtain ⟨msgs, heq, hmsgs⟩ := m.notified_process loader now frame
  rw [receivers, heq, List.drop_left] at hc
  obtain ⟨p, hp, rfl⟩ := List.mem_map.1 hc
  exact hmsgs p hp

theorem allCovered_step {s t : H9d} {e : H9dStep} (h : s.AllCovered)
    (hst : s.step loader e = some t) : t.AllCovered := by
  have hsame (c' c : ℕ) (_ : c' ≠ c) (id : BitVec 16) (e : String)
      (ho : s.devmgr.Observes c' id e) : s.devmgr.Observes c' id e := ho
  cases move_of_step hst with
  | @connect c hc =>
    refine h.moved ⟨fun id e ho => ?_, fun id e h => by cases h⟩ (hsame · c)
    cases (h.covered c).observed_in hc ho
  | @attach c _ id e hc hk =>
    refine h.moved ⟨fun id' e' ho => ?_, fun id' e' h => ?_⟩ (hsame · c)
    · exact List.mem_append_left _ ((h.covered c).observed_in hc ho)
    · obtain ⟨rfl, rfl⟩ := ClientPhase.attaching.inj h
      exact List.mem_append_right _ List.mem_cons_self
  | @detach c _ id e hc =>
    refine h.moved ⟨fun id' e' ho => ?_, fun id' e' h => by cases h⟩ (hsame · c)
    have hp := (h.covered c).observed_in hc ho
    by_cases heq : (id', e') = (id, e)
    · exact heq ▸ List.mem_cons_self
    · exact List.mem_cons_of_mem _ (List.mem_filter.2 ⟨hp, decide_eq_true heq⟩)
  | answer => exact h
  | @attached c id e hc =>
    refine h.moved ⟨fun id' e' ho => ?_, fun id' e' h => by cases h⟩ fun c' hne id' e' ho => ?_
    · rcases (s.devmgr.observes_attach c e id c id' e').1 ho with ho | ⟨-, -, rfl, rfl⟩
      · exact (h.covered c).observed_in hc ho
      · exact (h.covered c).listed id' e' hc
    · rcases (s.devmgr.observes_attach c e id c' id' e').1 ho with ho | ⟨-, hc', -⟩
      · exact ho
      · exact absurd hc' hne
  | @detached c id e hc =>
    have hpending : (s.clients c).pending =
        (id, e) :: (s.clients c).attach_device_event_observer_memento := by rw [pending, hc]
    exact h.moved ⟨fun _ _ => (h.covered c).detach hpending, fun id' e' h => by cases h⟩
      fun c' _ id' e' ho => ((s.devmgr.observes_detach c e id c' id' e').1 ho).1
  | @disconnect c hc =>
    exact h.moved ⟨fun _ _ => (h.covered c).observed_in hc, fun id e h => by cases h⟩ (hsame · c)
  | @clean c id e rest hc =>
    have hpending : (s.clients c).pending = (id, e) :: rest := by rw [pending, hc]
    exact h.moved ⟨fun _ _ => (h.covered c).detach hpending, fun id' e' h => by cases h⟩
      fun c' _ id' e' ho => ((s.devmgr.observes_detach c e id c' id' e').1 ho).1
  | @cleaned c hc =>
    exact h.moved ⟨fun _ _ => (h.covered c).observed_in hc, fun id e h => by cases h⟩ (hsame · c)
  | on_frame_recv frame => exact ⟨fun c => (h.covered c).of_observes fun _ _ ho => ho, h.used⟩
  | @update frame frames now m hq hm =>
    refine ⟨fun c => (h.covered c).of_observes fun id e ho => ?_, ?_⟩
    · rw [updated, hm, DevMgr.observes_process] at ho
      exact ho.1
    · rw [updated, h.used, List.nil_append, List.filter_eq_nil_iff]
      intro c hc hgone
      obtain ⟨id, e, ho⟩ := receivers_observe loader hm hc
      exact h.released.1 c (of_decide_eq_true hgone) id e ho

/-- Whatever the clients and the nodes do, a client that ran through `cleanup_connection` is left
with no device, and none uses it again. -/
theorem always_released (es : List H9dStep) : Always (step loader) Released es start :=
  always_of_inv (fun _ => AllCovered.released) (fun _ _ _ => allCovered_step loader)
    allCovered_start

end H9d

/-! ### What a subscription lasts -/

namespace ExecutorAdapter

/-- What a client that is connected has in its list is a device that is there, and observed
unless the client is just attaching it. -/
structure Agrees (m : DevMgr) (c : ℕ) (a : ExecutorAdapter) : Prop where
  known : ∀ p ∈ a.attach_device_event_observer_memento, m.Knows p.1
  observed : ∀ p ∈ a.attach_device_event_observer_memento,
    m.Observes c p.1 p.2 ∨ a.phase = .attaching p.1 p.2
  undone : ∀ id e, a.phase = .detaching id e → (id, e) ∉ a.attach_device_event_observer_memento

theorem Agrees.of_observes {m m' : DevMgr} {c : ℕ} {a : ExecutorAdapter} (h : Agrees m c a)
    (hk : ∀ id, m.Knows id → m'.Knows id)
    (hle : ∀ p ∈ a.attach_device_event_observer_memento, m.Observes c p.1 p.2 →
      m'.Observes c p.1 p.2 ∨ a.phase = .attaching p.1 p.2) : Agrees m' c a where
  known p hp := hk p.1 (h.known p hp)
  observed p hp := (h.observed p hp).elim (hle p hp) .inr
  undone := h.undone

/-- What is in the list of a client that attaches nothing is observed. -/
theorem Agrees.observes {m : DevMgr} {c : ℕ} {a : ExecutorAdapter} {phase : ClientPhase}
    (h : Agrees m c a) (hphase : a.phase = phase) (hne : ∀ id e, phase ≠ .attaching id e)
    {p : BitVec 16 × String} (hp : p ∈ a.attach_device_event_observer_memento) :
    m.Observes c p.1 p.2 :=
  (h.observed p hp).resolve_right fun heq => hne p.1 p.2 (hphase.symm.trans heq)

theorem Connected.of_idle {a : ExecutorAdapter} (h : a.phase = .idle) : a.Connected := by
  rw [Connected, h]
  trivial

theorem Connected.of_attaching {a : ExecutorAdapter} {id : BitVec 16} {e : String}
    (h : a.phase = .attaching id e) : a.Connected := by
  rw [Connected, h]
  trivial

theorem Connected.of_detaching {a : ExecutorAdapter} {id : BitVec 16} {e : String}
    (h : a.phase = .detaching id e) : a.Connected := by
  rw [Connected, h]
  trivial

end ExecutorAdapter

namespace H9d

open ExecutorAdapter

variable (loader : DeviceDescLoader)

def AllAgree (s : H9d) : Prop := ∀ c, (s.clients c).Connected → Agrees s.devmgr c (s.clients c)

theorem AllAgree.subscribed {s : H9d} (h : s.AllAgree) : s.Subscribed :=
  fun c hc p hp _ => (h c hc).observed p hp

/-- One client moves on, and the devices keep the other observers. -/
theorem AllAgree.moved {s : H9d} (h : s.AllAgree) {c : ℕ} {a : ExecutorAdapter} {m : DevMgr}
    (ha : a.Connected → Agrees m c a) (hk : ∀ id, s.devmgr.Knows id → m.Knows id)
    (hle : ∀ c', c' ≠ c → ∀ id e, s.devmgr.Observes c' id e → m.Observes c' id e) :
    AllAgree { s.setClient c a with devmgr := m } :=
  forall_setClient (P := fun c' a => a.Connected → Agrees m c' a) ha fun c' hne hc' =>
    (h c' hc').of_observes hk fun p _ ho => .inl (hle c' hne p.1 p.2 ho)

theorem allAgree_step {s t : H9d} {e : H9dStep} (h : s.AllAgree) (hC : Undisturbed e s)
    (hst : s.step loader e = some t) : t.AllAgree := by
  have hsame (c' c : ℕ) (_ : c' ≠ c) (id : BitVec 16) (e : String)
      (ho : s.devmgr.Observes c' id e) : s.devmgr.Observes c' id e := ho
  have hothers (c : ℕ) (e : String) (id : BitVec 16) (c' : ℕ) (hne : c' ≠ c) (id' : BitVec 16)
      (e' : String) (ho : s.devmgr.Observes c' id' e') :
      (s.devmgr.detach_event_observer c e id).Observes c' id' e' :=
    (s.devmgr.observes_detach c e id c' id' e').2 ⟨ho, fun heq => hne heq.1⟩
  cases move_of_step hst with
  | @connect c hc =>
    refine h.moved (fun _ => ⟨?_, ?_, fun id e h => by cases h⟩) (fun _ hk => hk) (hsame · c)
    · intro p hp
      cases hp
    · intro p hp
      cases hp
  | @attach c _ id e hc hk =>
    have ha := h c (.of_idle hc)
    refine h.moved (fun _ => ⟨fun p hp => ?_, fun p hp => ?_, fun id e h => by cases h⟩)
      (fun _ hk => hk) (hsame · c)
    · rcases List.mem_append.1 hp with hp | hp
      · exact ha.known p hp
      · rwa [List.mem_singleton.1 hp]
    · rcases List.mem_append.1 hp with hp | hp
      · exact .inl (ha.observes hc (by simp) hp)
      · rw [List.mem_singleton.1 hp]
        exact .inr rfl
  | @detach c _ id e hc =>
    have ha := h c (.of_idle hc)
    refine h.moved (fun _ => ⟨fun p hp => ha.known p (List.mem_filter.1 hp).1, fun p hp => .inl ?_,
      fun id' e' h => ?_⟩) (fun _ hk => hk) (hsame · c)
    · exact ha.observes hc (by simp) (List.mem_filter.1 hp).1
    · obtain ⟨rfl, rfl⟩ := ClientPhase.detaching.inj h
      exact fun hmem => of_decide_eq_true (List.mem_filter.1 hmem).2 rfl
  | answer => exact h
  | @attached c id e hc =>
    have ha := h c (.of_attaching hc)
    have hk (id' : BitVec 16) (hid : s.devmgr.Knows id') :
        (s.devmgr.attach_event_observer c e id).Knows id' :=
      (s.devmgr.knows_attach c e id id').2 hid
    refine h.moved (fun _ => ⟨fun p hp => hk _ (ha.known p hp), fun p hp => .inl ?_,
      fun id e h => by cases h⟩) hk fun c' _ id' e' ho =>
        (s.devmgr.observes_attach c e id c' id' e').2 (.inl ho)
    refine (s.devmgr.observes_attach c e id c p.1 p.2).2 ((ha.observed p hp).imp_right fun h => ?_)
    obtain ⟨rfl, rfl⟩ := ClientPhase.attaching.inj (hc.symm.trans h)
    exact ⟨ha.known p hp, rfl, rfl, rfl⟩
  | @detached c id e hc =>
    have ha := h c (.of_detaching hc)
    have hk (id' : BitVec 16) := (s.devmgr.knows_detach c e id id').2
    refine h.moved (fun _ => ⟨fun p hp => hk _ (ha.known p hp), fun p hp => .inl ?_,
      fun id e h => by cases h⟩) hk (hothers c e id)
    refine (s.devmgr.observes_detach c e id c p.1 p.2).2 ⟨ha.observes hc (by simp) hp, ?_⟩
    rintro ⟨-, rfl, rfl⟩
    exact ha.undone p.1 p.2 hc hp
  | @disconnect c hc => exact h.moved (fun hf => hf.elim) (fun _ hk => hk) (hsame · c)
  | @clean c id e rest hc =>
    exact h.moved (fun hf => hf.elim) (fun id' => (s.devmgr.knows_detach c e id id').2)
      (hothers c e id)
  | @cleaned c hc => exact h.moved (fun hf => hf.elim) (fun _ hk => hk) (hsame · c)
  | on_frame_recv frame =>
    exact fun c hc => (h c hc).of_observes (fun _ hk => hk) fun _ _ ho => .inl ho
  | @update frame frames now m hq hm =>
    intro c hc
    subst hm
    refine (h c hc).of_observes (fun id hk => (DevMgr.knows_process _ loader now frame id).2 (.inl hk))
      fun p hp ho => ?_
    rw [updated, DevMgr.observes_process]
    by_cases hr : s.devmgr.Rebuilds frame ∧ frame.node = p.1
    · exact .inr (hC frame (by rw [hq]; rfl) hr.1 c hc p hp hr.2.symm)
    · exact .inl ⟨ho, hr⟩

/-- A device that is built again has forgotten the clients that subscribed it. -/
theorem not_subscribed {s : H9d} {e : H9dStep} (hC : ¬ Undisturbed e s) :
    ∃ t, s.step loader e = some t ∧ ¬ t.Subscribed := by
  cases e with
  | devices_update now =>
    simp only [Undisturbed, not_forall, Option.mem_def] at hC
    obtain ⟨frame, hhead, hr, c, hc, p, hp, hnode, hphase⟩ := hC
    obtain ⟨frames, hq⟩ := List.head?_eq_some_iff.1 hhead
    refine ⟨_, congrArg (Option.map s.updated) (DevMgr.devices_update_cons loader now hq),
      fun h => ?_⟩
    have hk : (DevMgr.process { s.devmgr with frame_queue := frames } loader now frame).Knows p.1 :=
      (DevMgr.knows_process _ loader now frame p.1).2 (.inr ⟨hr.1, hnode.symm⟩)
    have ho := (h c hc p hp hk).resolve_right hphase
    rw [updated, DevMgr.observes_process] at ho
    exact ho.2 ⟨hr, hnode.symm⟩
  | _ => exact absurd trivial hC

/-- In a run a connected client observes all that it subscribed and did not unsubscribe, if and only if no
device that a connected client subscribed is built again. -/
theorem always_subscribed_iff (es : List H9dStep) :
    Always (step loader) Subscribed es start ↔ Meet (step loader) Undisturbed es start :=
  always_iff_meet (fun _ => AllAgree.subscribed) (fun _ _ _ => allAgree_step loader)
    (fun _ _ _ => not_subscribed loader) fun _ hc => hc.elim

/-- Node 32, of type 1 and the version `major.0.0`. -/
def announcement (major : UInt8) : H9frame :=
  { H9frame.new with
    type := H9frame.NODE_TURNED_ON
    source_id := 32
    dlc := 8
    data := #v[0, 1, 0, major, 0, 0, 0, 0] }

/-- A request to subscribe the register changes of node 32. -/
def subscribeMsg : GenericMsg :=
  let execute : XmlElement := ⟨"execute", [("device-id", "32"), ("method", "subscribe")], []⟩
  GenericMsg.create (execute.add_value "event" "register_change")

/-- A client subscribes, and then the node is turned on with a new version. -/
def upgraded : List H9dStep :=
  [.on_frame_recv (announcement 1), .devices_update 0, .connect 0,
    .execute_device_method 0 subscribeMsg, .call 0,
    .on_frame_recv (announcement 2), .devices_update 1]

/-- The client is connected, has the event in its list, and is no observer of the new device. -/
theorem not_always_subscribed : ¬ ∀ loader es, Always (step loader) Subscribed es start := by
  intro h
  have hend : (Steps.run (step ∅) upgraded start).map (fun s =>
      ((s.clients 0).phase, (s.clients 0).attach_device_event_observer_memento,
        (s.devmgr.devices_map[(32 : BitVec 16)]?).map fun d =>
          (d.observers "register_change").contains 0)) =
      some (.idle, [(32, "register_change")], some false) := by decide +kernel
  obtain ⟨s, hrun, hs⟩ := Option.map_eq_some_iff.1 hend
  obtain ⟨hphase, hmemento, hdev⟩ : (s.clients 0).phase = .idle ∧
      (s.clients 0).attach_device_event_observer_memento = [(32, "register_change")] ∧
      (s.devmgr.devices_map[(32 : BitVec 16)]?).map
        (fun d => (d.observers "register_change").contains 0) = some false := by
    simpa only [Prod.mk.injEq] using hs
  obtain ⟨d, hd, hd₀⟩ := Option.map_eq_some_iff.1 hdev
  have hsub : s.Subscribed := (h ∅ (upgraded ++ [])).run hrun
  rcases hsub 0 (.of_idle hphase) (32, "register_change") (by simp [hmemento])
    ((s.devmgr.knows_iff 32).2 ⟨d, hd⟩) with ⟨d', hd', ho⟩ | hattaching
  · obtain rfl := Option.some.inj (hd.symm.trans hd')
    exact Bool.false_ne_true (hd₀.symm.trans (Std.TreeSet.contains_iff_mem.2 ho))
  · cases hphase.symm.trans hattaching

end H9d

end H9
