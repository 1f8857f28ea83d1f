import H9.Proofs.Exclusion

/-!
# The calls of the lock return

The flag is set only while a thread has `main_lock_mtx`, so no thread ever waits for `lock_all`, and
at most one waits for `lock_main`. A sharer that leaves as the last one is on its way to wake it. So
where no thread can go on, each that is in a call waits, link by link, for one that has the lock;
and how many operations the threads take is bounded by their calls.
-/

namespace H9

open Threads

namespace LockPhase

/-- The thread is outside the functions. -/
def atRest : LockPhase → Bool
  | idle | exclusive | shared => true
  | _ => false

/-- The thread has returned from `lock` or `lock_shared` and has called nothing since. -/
def holds : LockPhase → Bool
  | exclusive | shared => true
  | _ => false

/-- From the setting of the flag to its clearing. -/
def flagged : LockPhase → Bool
  | lock_shared_counter_mtx | test_shared_counter | wait_lock_main | unlock_lck | exclusive
  | clear_main_lock => true
  | _ => false

/-- From the decrement to the `notify_one`. -/
def notifies : LockPhase → Bool
  | release_unlock_counter_mtx | notify_lock_main => true
  | _ => false

/-- How many operations are left at most, when nothing wakes the thread. -/
def weight : LockPhase → ℕ
  | idle | exclusive | shared => 0
  | lock_main_lock_mtx => 5
  | set_main_lock => 4
  | lock_shared_counter_mtx => 3
  | test_shared_counter => 2
  | wait_lock_main => 1
  | unlock_lck => 1
  | clear_main_lock => 3
  | unlock_main_lock_mtx => 2
  | notify_lock_all => 1
  | shared_main_lock_mtx => 6
  | test_main_lock => 5
  | wait_lock_all => 6
  | shared_counter_mtx => 4
  | increment => 3
  | shared_unlock_counter_mtx => 2
  | shared_unlock_lck => 1
  | release_counter_mtx => 6
  | decrement => 5
  | release_unlock_counter_mtx => 4
  | notify_lock_main => 3

theorem flagged_inMain {p : LockPhase} (h : p.flagged = true) : p.inMain = true := by
  cases p <;> simp [flagged, inMain] at h ⊢

end LockPhase

namespace LockStep

variable {T : Type}

/-- The operations that a call takes at most, and what a thread that wakes takes again. -/
def cost : LockStep T → ℕ
  | lock _ => 5
  | unlock _ => 3
  | lock_shared _ => 6
  | unlock_shared _ => 6
  | op _ _ => 0
  | wake _ => 2

def isOp : LockStep T → Bool
  | op _ _ => true
  | _ => false

end LockStep

namespace SharedMutex

variable {T : Type} [DecidableEq T]

structure Live (s : SharedMutex T) : Prop extends Inv s where
  main_lock : s.main_lock = true → ∃ t, (s.phase t).flagged = true
  lock_all : s.lock_all = [] ∧ ∀ t, s.phase t ≠ .wait_lock_all
  lock_main : s.lock_main = [] ∨ ∃ t, s.lock_main = [t] ∧ s.phase t = .wait_lock_main
  notified : s.lock_main ≠ [] → s.shared_counter = 0 → ∃ t, (s.phase t).notifies = true

omit [DecidableEq T] in
theorem live_new : Live (new : SharedMutex T) where
  toInv := inv_new
  main_lock := by simp [new]
  lock_all := by simp [new]
  lock_main := .inl rfl
  notified := by simp [new]

section Live

variable {s s' : SharedMutex T} {t : T} {p : LockPhase}

omit [DecidableEq T] in
/-- A thread that waits for `lock_main` is in that phase. -/
theorem Live.phase_of_mem (h : Live s) (ht : t ∈ s.lock_main) : s.phase t = .wait_lock_main := by
  rcases h.lock_main with hnil | ⟨u, hu, hphase⟩
  · simp [hnil] at ht
  · obtain rfl : t = u := by simpa [hu] using ht
    exact hphase

omit [DecidableEq T] in
/-- A thread that has `main_lock_mtx` and has not set the flag finds it cleared. -/
theorem Live.main_lock_eq_false (h : Live s) (ht : (s.phase t).inMain = true)
    (hnot : (s.phase t).flagged = false) : s.main_lock = false := by
  by_contra hset
  obtain ⟨u, hu⟩ := h.main_lock (by simpa using hset)
  obtain rfl := h.main_lock_mtx.eq ht (LockPhase.flagged_inMain hu)
  simp [hnot] at hu

omit [DecidableEq T] in
/-- Nobody waits for `lock_main` while a thread that does not has `main_lock_mtx`. -/
theorem Live.lock_main_eq_nil (h : Live s) (ht : (s.phase t).inMain = true)
    (hnot : s.phase t ≠ .wait_lock_main) : s.lock_main = [] := by
  rcases h.lock_main with hnil | ⟨u, hu, hphase⟩
  · exact hnil
  · obtain rfl := h.main_lock_mtx.eq ht (by rw [hphase]; rfl)
    exact absurd hphase hnot

/-- What the step of a thread may do to the flag and to those that wait. -/
theorem live_goto (h : Live s) (hinv : Inv s') (hphase : s'.phase = Function.update s.phase t p)
    (hall : s'.lock_all = [] ∧ p ≠ .wait_lock_all)
    (hflag : s'.main_lock = true →
      p.flagged = true ∨ s.main_lock = true ∧ (s.phase t).flagged = false)
    (hmain : s'.lock_main = [] ∨
      s'.lock_main = [t] ∧ p = .wait_lock_main ∧ s'.shared_counter ≠ 0 ∨
      s'.lock_main = s.lock_main ∧ s.phase t ≠ .wait_lock_main ∧
        (s'.shared_counter = 0 →
          p.notifies = true ∨ s.shared_counter = 0 ∧ (s.phase t).notifies = false)) : Live s' where
  toInv := hinv
  main_lock := by
    intro hset
    rw [hphase]
    rcases hflag hset with hp | ⟨hold, ht⟩
    · exact ⟨t, by simpa using hp⟩
    · obtain ⟨u, hu⟩ := h.main_lock hold
      have hne : u ≠ t := by
        rintro rfl
        simp [ht] at hu
      exact ⟨u, by simpa [Function.update_of_ne hne] using hu⟩
  lock_all := by
    refine ⟨hall.1, fun u => ?_⟩
    rw [hphase]
    by_cases hu : u = t
    · subst hu
      simpa using hall.2
    · simpa [Function.update_of_ne hu] using h.lock_all.2 u
  lock_main := by
    rcases hmain with hnil | ⟨hone, hp, -⟩ | ⟨hsame, ht, -⟩
    · exact .inl hnil
    · exact .inr ⟨t, hone, by simp [hphase, hp]⟩
    · rcases h.lock_main with hnil | ⟨u, hu, hwait⟩
      · exact .inl (hsame.trans hnil)
      · have hne : u ≠ t := by
          rintro rfl
          exact ht hwait
        exact .inr ⟨u, hsame.trans hu, by simpa [hphase, Function.update_of_ne hne] using hwait⟩
  notified := by
    intro hwait hzero
    rcases hmain with hnil | ⟨-, -, hne⟩ | ⟨hsame, -, hnot⟩
    · exact absurd hnil hwait
    · exact absurd hzero hne
    · rw [hphase]
      rcases hnot hzero with hp | ⟨hold, ht⟩
      · exact ⟨t, by simpa using hp⟩
      · obtain ⟨u, hu⟩ := h.notified (hsame ▸ hwait) hold
        have hne : u ≠ t := by
          rintro rfl
          simp [ht] at hu
        exact ⟨u, by simpa [Function.update_of_ne hne] using hu⟩

omit [DecidableEq T] in
/-- A thread woken from `lock_main` was the only one to wait for it. -/
theorem Live.lock_main_eq_nil_of_woken (h : Live s) (ht : s.phase t = .wait_lock_main)
    (hnot : t ∉ s.lock_main) : s.lock_main = [] := by
  rcases h.lock_main with hnil | ⟨u, hu, hphase⟩
  · exact hnil
  · obtain rfl := h.main_lock_mtx.eq (t := t) (u := u) (by rw [ht]; rfl) (by rw [hphase]; rfl)
    simp [hu] at hnot

omit [DecidableEq T] in
/-- A `notify_one` leaves nobody waiting. -/
theorem Live.eraseIdx_lock_main (h : Live s) (pick : ℕ) :
    s.lock_main.eraseIdx (pick % s.lock_main.length) = [] := by
  rcases h.lock_main with hnil | ⟨u, hu, -⟩
  · simp [hnil]
  · simp [hu, Nat.mod_one]

theorem live_op {pick : ℕ} (h : Live s) (hs : s.op t pick = some s') : Live s' := by
  have hinv := inv_op h.toInv hs
  have hall := h.lock_all
  have hflag := h.main_lock_eq_false (t := t)
  have hnil := h.lock_main_eq_nil (t := t)
  unfold op at hs
  cases hphase : s.phase t <;> simp only [hphase, Option.some.injEq, reduceCtorEq] at hs hflag hnil
  case set_main_lock | unlock_lck =>
    subst hs
    exact live_goto h hinv rfl ⟨hall.1, nofun⟩ (fun _ => .inl rfl) (.inl (hnil rfl nofun))
  case lock_shared_counter_mtx =>
    split_ifs at hs
    obtain rfl := Option.some.inj hs
    exact live_goto h hinv rfl ⟨hall.1, nofun⟩ (fun _ => .inl rfl) (.inl (hnil rfl nofun))
  case test_shared_counter =>
    split_ifs at hs with hzero
    · obtain rfl := Option.some.inj hs
      exact live_goto h hinv rfl ⟨hall.1, nofun⟩ (fun _ => .inl rfl) (.inl (hnil rfl nofun))
    · obtain rfl := Option.some.inj hs
      have hone : s.lock_main ++ [t] = [t] := by rw [hnil rfl nofun, List.nil_append]
      exact live_goto h hinv rfl ⟨hall.1, nofun⟩ (fun _ => .inl rfl)
        (.inr (.inl ⟨hone, rfl, hzero⟩))
  case wait_lock_main =>
    split_ifs at hs with hwoken
    obtain rfl := Option.some.inj hs
    exact live_goto h hinv rfl ⟨hall.1, nofun⟩ (fun _ => .inl rfl)
      (.inl (h.lock_main_eq_nil_of_woken hphase hwoken.1))
  case clear_main_lock =>
    subst hs
    exact live_goto h hinv rfl ⟨hall.1, nofun⟩ nofun (.inl (hnil rfl nofun))
  case test_main_lock =>
    -- the flag is cleared before its mutex is released
    rw [if_pos (hflag rfl rfl)] at hs
    obtain rfl := Option.some.inj hs
    exact live_goto h hinv rfl ⟨hall.1, nofun⟩ (fun hset => .inr ⟨hset, by rw [hphase]; rfl⟩)
      (.inl (hnil rfl nofun))
  case wait_lock_all => exact absurd hphase (hall.2 t)
  case unlock_main_lock_mtx | increment | shared_unlock_counter_mtx | shared_unlock_lck =>
    subst hs
    exact live_goto h hinv rfl ⟨hall.1, nofun⟩ (fun hset => .inr ⟨hset, by rw [hphase]; rfl⟩)
      (.inl (hnil rfl nofun))
  case shared_counter_mtx =>
    split_ifs at hs
    obtain rfl := Option.some.inj hs
    exact live_goto h hinv rfl ⟨hall.1, nofun⟩ (fun hset => .inr ⟨hset, by rw [hphase]; rfl⟩)
      (.inl (hnil rfl nofun))
  case lock_main_lock_mtx | shared_main_lock_mtx | release_counter_mtx =>
    split_ifs at hs
    obtain rfl := Option.some.inj hs
    exact live_goto h hinv rfl ⟨hall.1, nofun⟩ (fun hset => .inr ⟨hset, by rw [hphase]; rfl⟩)
      (.inr (.inr ⟨rfl, by simp [hphase], fun hzero => .inr ⟨hzero, by rw [hphase]; rfl⟩⟩))
  case notify_lock_all =>
    subst hs
    exact live_goto h hinv rfl ⟨rfl, nofun⟩ (fun hset => .inr ⟨hset, by rw [hphase]; rfl⟩)
      (.inr (.inr ⟨rfl, by simp [hphase], fun hzero => .inr ⟨hzero, by rw [hphase]; rfl⟩⟩))
  case decrement | release_unlock_counter_mtx =>
    subst hs
    exact live_goto h hinv rfl ⟨hall.1, nofun⟩ (fun hset => .inr ⟨hset, by rw [hphase]; rfl⟩)
      (.inr (.inr ⟨rfl, by simp [hphase], fun _ => .inl rfl⟩))
  case notify_lock_main =>
    subst hs
    exact live_goto h hinv rfl ⟨hall.1, nofun⟩ (fun hset => .inr ⟨hset, by rw [hphase]; rfl⟩)
      (.inl (h.eraseIdx_lock_main pick))

theorem live_call {src dst : LockPhase} (h : Live s) (hinv : Inv s')
    (hs : s.call t src dst = some s') (hsrc : src ≠ .wait_lock_main ∧ src.notifies = false)
    (hdst : dst ≠ .wait_lock_all ∧ dst.flagged = src.flagged) : Live s' := by
  rw [call] at hs
  split_ifs at hs with hphase
  obtain rfl := Option.some.inj hs
  subst hphase
  refine live_goto h hinv rfl ⟨h.lock_all.1, hdst.1⟩ (fun hset => ?_)
    (.inr (.inr ⟨rfl, hsrc.1, fun hzero => .inr ⟨hzero, hsrc.2⟩⟩))
  rw [hdst.2]
  cases (s.phase t).flagged with
  | true => exact .inl rfl
  | false => exact .inr ⟨hset, rfl⟩

theorem Live.wake (h : Live s) (t : T) :
    Live { s with lock_all := s.lock_all.erase t, lock_main := s.lock_main.erase t } where
  toInv := ⟨h.main_lock_mtx, h.shared_counter_mtx, h.shared_counter, h.alone⟩
  main_lock := h.main_lock
  lock_all := ⟨by simp [h.lock_all.1], h.lock_all.2⟩
  lock_main := by
    rcases h.lock_main with hnil | ⟨u, hu, hphase⟩
    · simp [hnil]
    · by_cases heq : u = t <;> simp [hu, hphase, heq]
  notified := fun hwait => h.notified fun hnil => hwait (by simp [hnil])

theorem live_step {a : LockStep T} (h : Live s) (hs : s.step a = some s') : Live s' := by
  have hinv := inv_step h.toInv hs
  cases a with
  | lock t => exact live_call h hinv hs (by decide) (by decide)
  | unlock t => exact live_call h hinv hs (by decide) (by decide)
  | lock_shared t => exact live_call h hinv hs (by decide) (by decide)
  | unlock_shared t => exact live_call h hinv hs (by decide) (by decide)
  | op t pick => exact live_op h hs
  | wake t =>
    obtain rfl := Option.some.inj hs
    exact h.wake t

end Live

/-- `t` waits for `u` to release `main_lock_mtx`, or to leave the sharers. -/
def WaitsFor (s : SharedMutex T) (t u : T) : Prop :=
  (s.phase t = .lock_main_lock_mtx ∨ s.phase t = .shared_main_lock_mtx) ∧ s.main_lock_mtx = some u ∨
    s.phase t = .wait_lock_main ∧ s.phase u = .shared

section Blocked

variable {s : SharedMutex T} {t : T}

/-- A thread that cannot go on finds a mutex taken, or waits and has not been woken. -/
theorem op_eq_none {pick : ℕ} (h : s.op t pick = none) :
    (s.phase t).atRest = true ∨
      (s.phase t = .lock_main_lock_mtx ∨ s.phase t = .shared_main_lock_mtx) ∧
        s.main_lock_mtx ≠ none ∨
      (s.phase t).inCounter = false ∧ s.shared_counter_mtx ≠ none ∨
      s.phase t = .wait_lock_main ∧ t ∈ s.lock_main ∨
      s.phase t = .wait_lock_all := by
  unfold op at h
  cases hphase : s.phase t <;> simp [hphase, LockPhase.atRest, LockPhase.inCounter] at h ⊢ <;>
    grind

/-- Whether a thread can go on does not depend on whom it would wake. -/
theorem op_eq_none_of_pick {pick : ℕ} (h : s.op t pick = none) (pick' : ℕ) :
    s.op t pick' = none := by
  unfold op at h ⊢
  cases hphase : s.phase t <;> simp_all

/-- Who has `shared_counter_mtx` can always go on. -/
theorem Live.counter_free (h : Live s) (hnone : ∀ t pick, s.op t pick = none) :
    s.shared_counter_mtx = none := by
  by_contra hsome
  obtain ⟨u, hu⟩ := Option.ne_none_iff_exists'.1 hsome
  have hin := (h.shared_counter_mtx u).2 hu
  rcases op_eq_none (hnone u 0) with hp | ⟨hp | hp, -⟩ | ⟨hp, -⟩ | ⟨hp, -⟩ | hp
  · cases hphase : s.phase u <;> simp [hphase, LockPhase.atRest, LockPhase.inCounter] at hp hin
  · simp [hp, LockPhase.inCounter] at hin
  · simp [hp, LockPhase.inCounter] at hin
  · rw [hp] at hin
    exact Bool.noConfusion hin
  · simp [hp, LockPhase.inCounter] at hin
  · simp [hp, LockPhase.inCounter] at hin

/-- Where no thread can go on, each is at rest, or waits for `main_lock_mtx` or for the sharers. -/
theorem Live.phase_of_stuck (h : Live s) (hnone : ∀ t pick, s.op t pick = none) (t : T) :
    (s.phase t).atRest = true ∨
      (s.phase t = .lock_main_lock_mtx ∨ s.phase t = .shared_main_lock_mtx) ∧
        s.main_lock_mtx ≠ none ∨
      s.phase t = .wait_lock_main ∧ t ∈ s.lock_main := by
  have hfree := h.counter_free hnone
  have hall := h.lock_all.2 t
  have hop := op_eq_none (hnone t 0)
  tauto

/-- A writer that waits has a sharer to wait for, since the last one to leave would wake it. -/
theorem Live.exists_shared (h : Live s) (hnone : ∀ t pick, s.op t pick = none)
    (ht : t ∈ s.lock_main) : ∃ u, s.phase u = .shared := by
  have hne : s.shared_counter ≠ 0 := by
    intro hzero
    obtain ⟨u, hu⟩ := h.notified (List.ne_nil_of_mem ht) hzero
    rcases h.phase_of_stuck hnone u with hp | ⟨hp | hp, -⟩ | ⟨hp, -⟩
    · cases hphase : s.phase u <;> simp [hphase, LockPhase.atRest, LockPhase.notifies] at hp hu
    all_goals simp [hp, LockPhase.notifies] at hu
  obtain ⟨l, hl, hn⟩ := h.shared_counter
  obtain ⟨u, hu⟩ : l.Nonempty := by
    rw [Finset.nonempty_iff_ne_empty]
    rintro rfl
    exact hne hn
  refine ⟨u, ?_⟩
  have hcounted := (hl u).1 hu
  rcases h.phase_of_stuck hnone u with hp | ⟨hp | hp, -⟩ | ⟨hp, -⟩
  · cases hphase : s.phase u <;> simp [hphase, LockPhase.atRest, LockPhase.counted] at hp hcounted ⊢
  all_goals simp [hp, LockPhase.counted] at hcounted

/-- Where no thread can go on, those in a call wait, link by link, for one that has the lock. -/
theorem Live.waitsFor (h : Live s) (hnone : ∀ t pick, s.op t pick = none)
    (ht : (s.phase t).atRest = false) :
    ∃ u, Relation.TransGen s.WaitsFor t u ∧ (s.phase u).holds = true := by
  have hwriter {u : T} (hu : u ∈ s.lock_main) :
      ∃ v, s.WaitsFor u v ∧ (s.phase v).holds = true := by
    obtain ⟨v, hv⟩ := h.exists_shared hnone hu
    exact ⟨v, .inr ⟨h.phase_of_mem hu, hv⟩, by rw [hv]; rfl⟩
  rcases h.phase_of_stuck hnone t with hp | ⟨hp, hsome⟩ | ⟨-, hmem⟩
  · rw [ht] at hp
    exact Bool.noConfusion hp
  · obtain ⟨u, hu⟩ := Option.ne_none_iff_exists'.1 hsome
    have hfor : s.WaitsFor t u := .inl ⟨hp, hu⟩
    have hin := (h.main_lock_mtx u).2 hu
    -- who has the mutex has the lock, or waits for the sharers
    rcases h.phase_of_stuck hnone u with hq | ⟨hq | hq, -⟩ | ⟨-, hmem⟩
    · refine ⟨u, .single hfor, ?_⟩
      cases hphase : s.phase u <;>
        simp [hphase, LockPhase.atRest, LockPhase.inMain, LockPhase.holds] at hq hin ⊢
    · simp [hq, LockPhase.inMain] at hin
    · simp [hq, LockPhase.inMain] at hin
    · obtain ⟨v, hv, hholds⟩ := hwriter hmem
      exact ⟨v, .tail (.single hfor) hv, hholds⟩
  · obtain ⟨v, hv, hholds⟩ := hwriter hmem
    exact ⟨v, .single hv, hholds⟩

end Blocked

section Weight

variable {s s' : SharedMutex T} {t : T} {p : LockPhase}

/-- How many operations a thread has left at most, when nothing else wakes it. -/
def weight (s : SharedMutex T) (t : T) : ℕ :=
  if s.phase t = .wait_lock_main ∧ t ∉ s.lock_main then 3 else (s.phase t).weight

theorem weight_of_ne (ht : s.phase t ≠ .wait_lock_main) : s.weight t = (s.phase t).weight := by
  simp [weight, ht]

/-- A step by which one thread goes on, and of those that wait only it may be woken. -/
structure GoesOn (s s' : SharedMutex T) (t : T) : Prop where
  phase : ∀ u, u ≠ t → s'.phase u = s.phase u
  lock_main : ∀ u, u ≠ t → (u ∈ s'.lock_main ↔ u ∈ s.lock_main)

theorem GoesOn.weight (h : GoesOn s s' t) (u : T) (hu : u ≠ t) : s'.weight u = s.weight u := by
  simp [SharedMutex.weight, h.phase u hu, h.lock_main u hu]

theorem goesOn_of_update (hphase : s'.phase = Function.update s.phase t p)
    (hmain : s'.lock_main = s.lock_main ∨ s'.lock_main = s.lock_main ++ [t]) : GoesOn s s' t where
  phase := fun u hu => by rw [hphase, Function.update_of_ne hu]
  lock_main := fun u hu => by rcases hmain with heq | heq <;> simp [heq, hu]

/-- An operation takes from what the thread has left. -/
theorem weight_op {pick : ℕ} (h : Live s) (hs : s.op t pick = some s')
    (hnot : s.phase t ≠ .notify_lock_main) : GoesOn s s' t ∧ s'.weight t + 1 ≤ s.weight t := by
  have hall := h.lock_all.2 t
  have hflag := h.main_lock_eq_false (t := t)
  unfold op at hs
  cases hphase : s.phase t <;>
    simp only [hphase, Option.some.injEq, reduceCtorEq, ne_eq, not_true_eq_false] at hs hall hnot
  case test_main_lock =>
    rw [if_pos (hflag (by rw [hphase]; rfl) (by rw [hphase]; rfl))] at hs
    obtain rfl := Option.some.inj hs
    exact ⟨goesOn_of_update rfl (.inl rfl), by simp [weight, goto, hphase, LockPhase.weight]⟩
  case test_shared_counter =>
    split_ifs at hs
    · obtain rfl := Option.some.inj hs
      exact ⟨goesOn_of_update rfl (.inl rfl), by simp [weight, goto, hphase, LockPhase.weight]⟩
    · obtain rfl := Option.some.inj hs
      exact ⟨goesOn_of_update rfl (.inr rfl), by simp [weight, goto, hphase, LockPhase.weight]⟩
  case wait_lock_main =>
    split_ifs at hs with hwoken
    obtain rfl := Option.some.inj hs
    exact ⟨goesOn_of_update rfl (.inl rfl), by simp [weight, goto, hphase, hwoken.1, LockPhase.weight]⟩
  case lock_main_lock_mtx | lock_shared_counter_mtx | shared_main_lock_mtx | shared_counter_mtx
      | release_counter_mtx =>
    split_ifs at hs
    obtain rfl := Option.some.inj hs
    exact ⟨goesOn_of_update rfl (.inl rfl), by simp [weight, goto, hphase, LockPhase.weight]⟩
  all_goals
    subst hs
    exact ⟨goesOn_of_update rfl (.inl rfl), by simp [weight, goto, hphase, LockPhase.weight]⟩

/-- A thread that wakes takes the mutex and tests again. -/
theorem weight_le_of_phase (hphase : s'.phase t = s.phase t) : s'.weight t ≤ s.weight t + 2 := by
  unfold weight
  rw [hphase]
  split_ifs with h' h
  · omega
  · simp [h'.1, LockPhase.weight]
  · simp [LockPhase.weight, (by assumption : _ ∧ _).1]
  · omega

/-- How many operations all threads have left at most. -/
noncomputable def left (s : SharedMutex T) : ℕ := total s.weight

structure Spends (s : SharedMutex T) : Prop extends Live s where
  finite : s.weight.support.Finite

theorem weight_new : (new : SharedMutex T).weight = fun _ => 0 := by
  funext t
  simp [weight, new, LockPhase.weight]

theorem spends_new : Spends (new : SharedMutex T) where
  toLive := live_new
  finite := by simp [weight_new]

theorem GoesOn.left (hgo : GoesOn s s' t) (hfin : s.weight.support.Finite) :
    s'.weight.support.Finite ∧ s'.left + s.weight t = s.left + s'.weight t :=
  ⟨finite_support_of_eq hfin hgo.weight, total_of_eq hfin hgo.weight⟩

theorem left_call {src dst : LockPhase} (hfin : s.weight.support.Finite)
    (hs : s.call t src dst = some s') (hsrc : src.weight = 0) (hdst : dst ≠ .wait_lock_main) :
    s'.weight.support.Finite ∧ s'.left = s.left + dst.weight := by
  rw [call] at hs
  split_ifs at hs with hphase
  obtain rfl := Option.some.inj hs
  have hwait : s.phase t ≠ .wait_lock_main := by
    rw [hphase]
    rintro rfl
    simp [LockPhase.weight] at hsrc
  have hweight : (s.goto t dst).weight t = dst.weight := by simp [weight, goto, hdst]
  have hgo : GoesOn s (s.goto t dst) t := goesOn_of_update rfl (.inl rfl)
  obtain ⟨hfin', hleft⟩ := hgo.left hfin
  rw [weight_of_ne hwait, hphase, hsrc, hweight] at hleft
  exact ⟨hfin', hleft⟩

/-- One thread is woken, or none. -/
theorem left_wake (hfin : s.weight.support.Finite) (hphase : s'.phase = s.phase)
    (hmain : ∀ u, u ≠ t → (u ∈ s'.lock_main ↔ u ∈ s.lock_main)) :
    s'.weight.support.Finite ∧ s'.left ≤ s.left + 2 := by
  have hgo : GoesOn s s' t := ⟨fun u _ => by rw [hphase], hmain⟩
  obtain ⟨hfin', hleft⟩ := hgo.left hfin
  have hle : s'.weight t ≤ s.weight t + 2 := weight_le_of_phase (by rw [hphase])
  exact ⟨hfin', by omega⟩

/-- The `notify_one` is paid for by the one who calls it. -/
theorem left_notify {pick : ℕ} (h : Spends s) (ht : s.phase t = .notify_lock_main)
    (hs : s.op t pick = some s') : s'.weight.support.Finite ∧ s'.left + 1 ≤ s.left := by
  simp only [op, ht, Option.some.injEq] at hs
  subst hs
  have hgo : GoesOn s (s.goto t .idle) t := goesOn_of_update rfl (.inl rfl)
  obtain ⟨hfin, hleft⟩ := hgo.left h.finite
  have hold : s.weight t = 3 := by simp [weight, ht, LockPhase.weight]
  have hnew : (s.goto t .idle).weight t = 0 := by simp [weight, goto, LockPhase.weight]
  rw [h.eraseIdx_lock_main pick]
  have hwake : ∃ u, ∀ v, v ≠ u → (v ∈ ([] : List T) ↔ v ∈ s.lock_main) := by
    rcases h.lock_main with hnil | ⟨u, hu, -⟩
    · exact ⟨t, fun v _ => by simp [hnil]⟩
    · exact ⟨u, fun v hv => by simp [hu, hv]⟩
  obtain ⟨u, hu⟩ := hwake
  let woken : SharedMutex T := { s.goto t .idle with lock_main := [] }
  obtain ⟨hfin', hle⟩ : woken.weight.support.Finite ∧ woken.left ≤ (s.goto t .idle).left + 2 :=
    left_wake (t := u) hfin rfl hu
  exact ⟨hfin', (Nat.succ_le_succ hle).trans (by omega)⟩

theorem spends_step {a : LockStep T} (h : Spends s) (hs : s.step a = some s') :
    Spends s' ∧ s'.left + 1 ≤ s.left + (a.cost + if a.isOp then 0 else 1) := by
  have hlive := live_step h.toLive hs
  have hcall {src dst : LockPhase} {t : T} (hs : s.call t src dst = some s')
      (hsrc : src.weight = 0) (hdst : dst ≠ .wait_lock_main) :
      Spends s' ∧ s'.left = s.left + dst.weight := by
    obtain ⟨hfin, hleft⟩ := left_call h.finite hs hsrc hdst
    exact ⟨⟨hlive, hfin⟩, hleft⟩
  cases a with
  | lock t =>
    obtain ⟨hspends, hleft⟩ := hcall hs rfl nofun
    exact ⟨hspends, by simp [hleft, LockStep.cost, LockStep.isOp, LockPhase.weight]⟩
  | unlock t =>
    obtain ⟨hspends, hleft⟩ := hcall hs rfl nofun
    exact ⟨hspends, by simp [hleft, LockStep.cost, LockStep.isOp, LockPhase.weight]⟩
  | lock_shared t =>
    obtain ⟨hspends, hleft⟩ := hcall hs rfl nofun
    exact ⟨hspends, by simp [hleft, LockStep.cost, LockStep.isOp, LockPhase.weight]⟩
  | unlock_shared t =>
    obtain ⟨hspends, hleft⟩ := hcall hs rfl nofun
    exact ⟨hspends, by simp [hleft, LockStep.cost, LockStep.isOp, LockPhase.weight]⟩
  | op t pick =>
    by_cases ht : s.phase t = .notify_lock_main
    · obtain ⟨hfin, hleft⟩ := left_notify h ht hs
      exact ⟨⟨hlive, hfin⟩, by simpa [LockStep.cost, LockStep.isOp] using hleft⟩
    · obtain ⟨hgo, hweight⟩ := weight_op h.toLive hs ht
      obtain ⟨hfin, hleft⟩ := hgo.left h.finite
      exact ⟨⟨hlive, hfin⟩, by simp [LockStep.cost, LockStep.isOp]; omega⟩
  | wake t =>
    obtain rfl := Option.some.inj hs
    let woken : SharedMutex T :=
      { s with lock_all := s.lock_all.erase t, lock_main := s.lock_main.erase t }
    obtain ⟨hfin, hleft⟩ : woken.weight.support.Finite ∧ woken.left ≤ s.left + 2 :=
      left_wake (t := t) h.finite rfl fun u hu => by simp [woken, hu]
    exact ⟨⟨hlive, hfin⟩, by simp [LockStep.cost, LockStep.isOp]; omega⟩

end Weight

omit [DecidableEq T] in
/-- Each step that is no operation of a thread is one of the others. -/
theorem length_eq_countP (steps : List (LockStep T)) :
    (steps.map fun a => a.cost + if a.isOp then 0 else 1).sum + steps.countP LockStep.isOp =
      (steps.map LockStep.cost).sum + steps.length := by
  induction steps with
  | nil => rfl
  | cons a as ih =>
    simp only [List.map_cons, List.sum_cons, List.countP_cons, List.length_cons]
    split_ifs <;> omega

/-- Whatever the threads do, and in whatever order: they take no more operations than their calls
and wakes pay for, nobody waits for `lock_all`, and where none can go on, those in a call wait for one
that has the lock. -/
theorem calls_return {steps : List (LockStep T)} {s : SharedMutex T}
    (hrun : Steps.run step steps new = some s) :
    steps.countP LockStep.isOp ≤ (steps.map LockStep.cost).sum ∧
      (∀ t, s.phase t ≠ .wait_lock_all) ∧
      ((∀ t pick, s.op t pick = none) → ∀ t, (s.phase t).atRest = false →
        ∃ u, Relation.TransGen s.WaitsFor t u ∧ (s.phase u).holds = true) := by
  have hlive := Steps.inv_of_run (fun _ _ _ => live_step) live_new hrun
  refine ⟨?_, hlive.lock_all.2, fun hnone t ht => hlive.waitsFor hnone ht⟩
  have hle := Steps.length_le_of_run (fun _ _ _ => spends_step) spends_new hrun
  have hlen := length_eq_countP steps
  have hzero : (new : SharedMutex T).left = 0 := by rw [left, weight_new, total_zero]
  omega

/-- A reader behind a writer behind a reader, where nobody can go on. -/
def threeInLine : List (LockStep (Fin 3)) :=
  .lock_shared 0 :: List.replicate 6 (.op 0 0) ++ .lock 1 :: List.replicate 4 (.op 1 0) ++
    [.lock_shared 2]

theorem calls_return_threeInLine : ∃ s, Steps.run step threeInLine new = some s ∧
    threeInLine.countP LockStep.isOp ≤ (threeInLine.map LockStep.cost).sum ∧
      ∃ u, Relation.TransGen s.WaitsFor 2 u ∧ (s.phase u).holds = true := by
  obtain ⟨s, hs⟩ := Option.isSome_iff_exists.1
    (by decide : (Steps.run step threeInLine new).isSome = true)
  have hstuck : (Steps.run step threeInLine new).all (fun s =>
      (s.phase 2).atRest = false ∧ ∀ t, s.op t 0 = none) = true := by decide
  rw [hs, Option.all_some, decide_eq_true_eq] at hstuck
  obtain ⟨hops, -, hwaits⟩ := calls_return hs
  exact ⟨s, hs, hops, hwaits (fun t pick => op_eq_none_of_pick (hstuck.2 t) pick) 2 hstuck.1⟩

end SharedMutex

end H9
