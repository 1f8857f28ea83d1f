import H9.ObserverLife
import H9.Proofs.Observers

/-!
# Whom a notification reaches

An observer is in the subject from its base's constructor to its base's destructor (`Registered`),
so a notification reaches it also while the rest of it is not there yet, or not any more.
-/

namespace H9

namespace ObserverRun

variable {O : Type} [DecidableEq O]

/-- `on_frame_recv` was called on whole observers only. -/
def OnWhole (s : ObserverRun O) : Prop := ∀ c ∈ s.on_frame_recv, c.2 = .constructed

instance (s : ObserverRun O) : Decidable s.OnWhole :=
  inferInstanceAs (Decidable (∀ c ∈ s.on_frame_recv, c.2 = .constructed))

/-- A frame that is notified of is not for an observer on its way in or out. -/
def Undisturbed : ObserverStep O → ObserverRun O → Prop
  | .notify_frame_observer frame, s => ∀ observer,
    s.phase observer = .constructing ∨ s.phase observer = .destroying →
      ¬ (s.watcher observer).Matches frame
  | _, _ => True

/-- The subject has the observers that are there in any part, each with what it watches. -/
def Registered (s : ObserverRun O) : Prop :=
  ∃ l, s.bus.Holds l ∧ ∀ observer w,
    (observer, w) ∈ l ↔ s.phase observer ≠ .absent ∧ s.watcher observer = w

omit [DecidableEq O] in
theorem registered_start : (start : ObserverRun O).Registered :=
  ⟨[], FrameSubject.holds_new, by simp [start]⟩

omit [DecidableEq O] in
theorem Registered.mem_notify {s : ObserverRun O} (h : s.Registered) {frame : H9frame}
    {observer : O} : observer ∈ s.bus.notify_frame_observer frame ↔
      s.phase observer ≠ .absent ∧ (s.watcher observer).Matches frame := by
  obtain ⟨l, hl, hmem⟩ := h
  rw [hl.mem_notify]
  simp only [hmem]
  constructor
  · rintro ⟨w, ⟨hphase, rfl⟩, hmatches⟩
    exact ⟨hphase, hmatches⟩
  · rintro ⟨hphase, hmatches⟩
    exact ⟨_, ⟨hphase, rfl⟩, hmatches⟩

/-- An observer goes on while it is there. -/
theorem Registered.goto {s : ObserverRun O} (h : s.Registered) {observer : O}
    {dst : ObserverPhase} (hsrc : s.phase observer ≠ .absent) (hdst : dst ≠ .absent) :
    (s.goto observer dst).Registered := by
  obtain ⟨l, hl, hmem⟩ := h
  refine ⟨l, hl, fun o w => (hmem o w).trans (and_congr_left fun _ => ?_)⟩
  by_cases heq : o = observer
  · subst heq
    simp [ObserverRun.goto, hsrc, hdst]
  · simp [ObserverRun.goto, Function.update_of_ne heq]

theorem Registered.attach {s : ObserverRun O} (h : s.Registered) {observer : O} (watcher : Watcher)
    (hphase : s.phase observer = .absent) : Registered
      { s.goto observer .constructing with
        bus := s.bus.attach_frame_observer observer watcher.comparator
        watcher := Function.update s.watcher observer watcher } := by
  obtain ⟨l, hl, hmem⟩ := h
  refine ⟨(observer, watcher) :: l, hl.attach observer watcher, fun o w => ?_⟩
  rw [List.mem_cons, hmem]
  by_cases heq : o = observer
  · subst heq
    simp [ObserverRun.goto, hphase, eq_comm]
  · simp [ObserverRun.goto, heq]

theorem Registered.detach {s : ObserverRun O} (h : s.Registered) (observer : O) : Registered
    { s.goto observer .absent with bus := s.bus.detach_frame_observer observer } := by
  obtain ⟨l, hl, hmem⟩ := h
  refine ⟨_, hl.detach observer, fun o w => ?_⟩
  rw [List.mem_filter, hmem]
  by_cases heq : o = observer
  · subst heq
    simp [ObserverRun.goto]
  · simp [ObserverRun.goto, heq]

theorem Registered.advance {s s' : ObserverRun O} (h : s.Registered) {observer : O}
    {src dst : ObserverPhase} (hs : s.advance observer src dst = some s') (hsrc : src ≠ .absent)
    (hdst : dst ≠ .absent) : s'.Registered ∧ s'.on_frame_recv = s.on_frame_recv := by
  rw [ObserverRun.advance] at hs
  split_ifs at hs with hphase
  obtain rfl := Option.some.inj hs
  exact ⟨h.goto (hphase ▸ hsrc) hdst, rfl⟩

theorem registered_step {a : ObserverStep O} {s s' : ObserverRun O} (h : s.Registered)
    (hs : s.step a = some s') : s'.Registered := by
  cases a with
  | attach observer watcher =>
    simp only [step] at hs
    split_ifs at hs with hphase
    exact Option.some.inj hs ▸ h.attach watcher hphase
  | construct observer => exact (h.advance hs (by decide) (by decide)).1
  | destroy observer => exact (h.advance hs (by decide) (by decide)).1
  | detach observer =>
    simp only [step] at hs
    split_ifs at hs with hphase
    exact Option.some.inj hs ▸ h.detach observer
  | notify_frame_observer frame => exact Option.some.inj hs ▸ h

/-- Only a notification calls `on_frame_recv`. -/
theorem onWhole_step {a : ObserverStep O} {s s' : ObserverRun O} (h : s.Registered)
    (hwhole : s.OnWhole) (ha : Undisturbed a s) (hs : s.step a = some s') : s'.OnWhole := by
  cases a with
  | attach observer watcher =>
    simp only [step] at hs
    split_ifs at hs with hphase
    exact Option.some.inj hs ▸ hwhole
  | construct observer =>
    rw [OnWhole, (h.advance hs (by decide) (by decide)).2]
    exact hwhole
  | destroy observer =>
    rw [OnWhole, (h.advance hs (by decide) (by decide)).2]
    exact hwhole
  | detach observer =>
    simp only [step] at hs
    split_ifs at hs with hphase
    exact Option.some.inj hs ▸ hwhole
  | notify_frame_observer frame =>
    obtain rfl := Option.some.inj hs
    intro c hc
    rcases List.mem_append.1 hc with hc | hc
    · exact hwhole c hc
    · obtain ⟨observer, hobserver, rfl⟩ := List.mem_map.1 hc
      obtain ⟨hphase, hmatches⟩ := h.mem_notify.1 hobserver
      have hquiet := fun hway => ha observer hway hmatches
      show s.phase observer = .constructed
      cases hp : s.phase observer <;> simp [hp] at hphase hquiet ⊢

/-- Where a frame is for an observer on its way in or out, that observer is called. -/
theorem not_onWhole_step {a : ObserverStep O} {s : ObserverRun O} (h : s.Registered)
    (ha : ¬ Undisturbed a s) : ∃ s', s.step a = some s' ∧ ¬ s'.OnWhole := by
  cases a with
  | notify_frame_observer frame =>
    refine ⟨_, rfl, fun hwhole => ha fun observer hway hmatches => ?_⟩
    have hpresent : s.phase observer ≠ .absent := by
      rcases hway with hp | hp <;> simp [hp]
    have hcall := hwhole (observer, s.phase observer) (List.mem_append_right _
      (List.mem_map_of_mem (h.mem_notify.2 ⟨hpresent, hmatches⟩)))
    rcases hway with hp | hp <;> simp [hp] at hcall
  | attach | construct | destroy | detach => exact absurd trivial ha

/-- Notifications reach whole observers only in just those runs in which no frame comes for an
observer that is being constructed or destroyed. -/
theorem always_onWhole_iff (steps : List (ObserverStep O)) :
    Steps.Always step OnWhole steps (start : ObserverRun O) ↔
      Steps.Meet step Undisturbed steps (start : ObserverRun O) := by
  have hstart : (start : ObserverRun O).OnWhole := fun c hc => by cases hc
  exact Steps.always_iff_meet (I := fun s : ObserverRun O => s.Registered ∧ s.OnWhole) (fun s h => h.2)
    (fun a s t h ha hs => ⟨registered_step h.1 hs, onWhole_step h.1 h.2 ha hs⟩)
    (fun a s h ha => not_onWhole_step h.1 ha) ⟨registered_start, hstart⟩

/-- A frame arrives while the device manager is being constructed. -/
theorem not_always_onWhole : ¬ ∀ steps : List (ObserverStep ℕ),
    Steps.Always step OnWhole steps start := by
  intro h
  exact absurd (h [.attach 0 .devMgr, .notify_frame_observer H9frame.new]) (by decide)

end ObserverRun

end H9
