import H9.Lib.Threads
import H9.SharedMutex

/-!
# Exclusion

A thread that takes the lock exclusively has `main_lock_mtx` from then on to the end, and nobody
joins the counter without that mutex. So the counter stays at the zero that the thread waited for.
-/

namespace H9

open Threads

namespace LockPhase

/-- Between `lock` and `unlock` of `main_lock_mtx`. -/
def inMain : LockPhase → Bool
  | set_main_lock | lock_shared_counter_mtx | test_shared_counter | wait_lock_main | unlock_lck
  | exclusive | clear_main_lock | unlock_main_lock_mtx => true
  | test_main_lock | shared_counter_mtx | increment | shared_unlock_counter_mtx
  | shared_unlock_lck => true
  | _ => false

/-- Between `lock` and `unlock` of `shared_counter_mtx`. -/
def inCounter : LockPhase → Bool
  | test_shared_counter | unlock_lck => true
  | increment | shared_unlock_counter_mtx => true
  | decrement | release_unlock_counter_mtx => true
  | _ => false

/-- Between the increment in `lock_shared` and the decrement in `unlock_shared`. -/
def counted : LockPhase → Bool
  | shared_unlock_counter_mtx | shared_unlock_lck | shared | release_counter_mtx | decrement => true
  | _ => false

/-- From the return of `lock` to the release of `main_lock_mtx`. -/
def excludes : LockPhase → Bool
  | exclusive | clear_main_lock | unlock_main_lock_mtx => true
  | _ => false

/-- After the test of the counter succeeded. -/
def alone (p : LockPhase) : Bool := p = unlock_lck ∨ p.excludes

theorem alone_inMain {p : LockPhase} (h : p.alone = true) : p.inMain = true := by
  cases p <;> simp [alone, excludes, inMain] at h ⊢

end LockPhase

namespace SharedMutex

variable {T : Type} [DecidableEq T]

structure Inv (s : SharedMutex T) : Prop where
  main_lock_mtx : Owned LockPhase.inMain s.main_lock_mtx s.phase
  shared_counter_mtx : Owned LockPhase.inCounter s.shared_counter_mtx s.phase
  shared_counter : Counts LockPhase.counted s.shared_counter s.phase
  alone : ∀ t, (s.phase t).alone = true → s.shared_counter = 0

omit [DecidableEq T] in
theorem inv_new : Inv (new : SharedMutex T) where
  main_lock_mtx := fun t => by simp [new, LockPhase.inMain]
  shared_counter_mtx := fun t => by simp [new, LockPhase.inCounter]
  shared_counter := ⟨∅, fun t => by simp [new, LockPhase.counted], rfl⟩
  alone := fun t h => by simp [new, LockPhase.alone, LockPhase.excludes] at h

/-- A phase that is entered after the counter was zero, or is not one of being alone. -/
theorem alone_goto {s : SharedMutex T} (h : Inv s) {t : T} {p : LockPhase}
    (hp : p.alone = true → s.shared_counter = 0) :
    ∀ u, ((s.goto t p).phase u).alone = true → s.shared_counter = 0 := by
  intro u hu
  by_cases heq : u = t
  · subst heq
    exact hp (by simpa [goto] using hu)
  · exact h.alone u (by simpa [goto, Function.update_of_ne heq] using hu)

omit [DecidableEq T] in
/-- No other thread is alone while `t` has `main_lock_mtx`. -/
theorem not_alone_of_inMain {s : SharedMutex T} (h : Inv s) {t u : T}
    (ht : (s.phase t).inMain = true) (hnot : (s.phase t).alone = false) :
    (s.phase u).alone = false := by
  by_contra hu
  rw [Bool.not_eq_false] at hu
  have heq := h.main_lock_mtx.eq ht (LockPhase.alone_inMain hu)
  subst heq
  rw [hnot] at hu
  exact Bool.noConfusion hu

theorem inv_call {s s' : SharedMutex T} {t : T} {src dst : LockPhase} (h : Inv s)
    (hs : s.call t src dst = some s') (hmain : dst.inMain = src.inMain)
    (hcounter : dst.inCounter = src.inCounter) (hcounted : dst.counted = src.counted)
    (halone : dst.alone = true → src.alone = true) : Inv s' := by
  rw [call] at hs
  split_ifs at hs with hphase
  obtain rfl := Option.some.inj hs
  subst hphase
  exact {
    main_lock_mtx := h.main_lock_mtx.keep hmain
    shared_counter_mtx := h.shared_counter_mtx.keep hcounter
    shared_counter := h.shared_counter.keep hcounted
    alone := alone_goto h fun hdst => h.alone t (halone hdst) }

/-- What a step may do to the mutexes and the counter: one thing, and in a phase for it. -/
theorem inv_goto {s s' : SharedMutex T} {t : T} {p : LockPhase} (h : Inv s)
    (hphase : s'.phase = Function.update s.phase t p)
    (hmain : s'.main_lock_mtx = s.main_lock_mtx ∧ p.inMain = (s.phase t).inMain ∨
      s.main_lock_mtx = none ∧ s'.main_lock_mtx = some t ∧ p.inMain = true ∨
      s'.main_lock_mtx = none ∧ (s.phase t).inMain = true ∧ p.inMain = false)
    (hcounter : s'.shared_counter_mtx = s.shared_counter_mtx ∧ p.inCounter = (s.phase t).inCounter ∨
      s.shared_counter_mtx = none ∧ s'.shared_counter_mtx = some t ∧ p.inCounter = true ∨
      s'.shared_counter_mtx = none ∧ (s.phase t).inCounter = true ∧ p.inCounter = false)
    (hcounted : s'.shared_counter = s.shared_counter ∧ p.counted = (s.phase t).counted)
    (halone : p.alone = true → s.shared_counter = 0) : Inv s' where
  main_lock_mtx := by
    rw [hphase]
    rcases hmain with ⟨heq, hp⟩ | ⟨hfree, heq, hp⟩ | ⟨heq, ht, hp⟩
    · exact heq ▸ h.main_lock_mtx.keep hp
    · exact heq ▸ (hfree ▸ h.main_lock_mtx).lock hp
    · exact heq ▸ h.main_lock_mtx.unlock ht hp
  shared_counter_mtx := by
    rw [hphase]
    rcases hcounter with ⟨heq, hp⟩ | ⟨hfree, heq, hp⟩ | ⟨heq, ht, hp⟩
    · exact heq ▸ h.shared_counter_mtx.keep hp
    · exact heq ▸ (hfree ▸ h.shared_counter_mtx).lock hp
    · exact heq ▸ h.shared_counter_mtx.unlock ht hp
  shared_counter := by
    rw [hphase, hcounted.1]
    exact h.shared_counter.keep hcounted.2
  alone := by
    rw [hphase, hcounted.1]
    exact alone_goto h halone

/-- A thread that increments has `main_lock_mtx`, so no thread relies on the zero. -/
theorem inv_increment {s : SharedMutex T} {t : T} (h : Inv s) (ht : s.phase t = .increment) :
    Inv { s.goto t .shared_unlock_counter_mtx with shared_counter := s.shared_counter + 1 } where
  main_lock_mtx := h.main_lock_mtx.keep (by rw [ht]; rfl)
  shared_counter_mtx := h.shared_counter_mtx.keep (by rw [ht]; rfl)
  shared_counter := h.shared_counter.enter (by rw [ht]; rfl) rfl
  alone := by
    intro u hu
    have hnone := not_alone_of_inMain (u := u) h (by rw [ht]; rfl) (by rw [ht]; rfl)
    by_cases heq : u = t
    · subst heq
      simp [goto, LockPhase.alone, LockPhase.excludes] at hu
    · simp [goto, Function.update_of_ne heq, hnone] at hu

/-- A thread that decrements is counted, so no thread relies on a zero. -/
theorem inv_decrement {s : SharedMutex T} {t : T} (h : Inv s) (ht : s.phase t = .decrement) :
    Inv { s.goto t .release_unlock_counter_mtx with shared_counter := s.shared_counter - 1 } where
  main_lock_mtx := h.main_lock_mtx.keep (by rw [ht]; rfl)
  shared_counter_mtx := h.shared_counter_mtx.keep (by rw [ht]; rfl)
  shared_counter := h.shared_counter.leave (by rw [ht]; rfl) rfl
  alone := by
    intro u hu
    have hpos := h.shared_counter.pos (t := t) (by rw [ht]; rfl)
    by_cases heq : u = t
    · subst heq
      simp [goto, LockPhase.alone, LockPhase.excludes] at hu
    · have hzero := h.alone u (by simpa [goto, Function.update_of_ne heq] using hu)
      omega

/-- The operation that a thread is before, case by case. -/
theorem inv_op {s s' : SharedMutex T} {t : T} {pick : ℕ} (h : Inv s) (hs : s.op t pick = some s') :
    Inv s' := by
  have halone := h.alone t
  unfold op at hs
  cases hphase : s.phase t <;> simp only [hphase, Option.some.injEq, reduceCtorEq] at hs halone
  case increment => exact hs ▸ inv_increment h hphase
  case decrement => exact hs ▸ inv_decrement h hphase
  case set_main_lock | notify_lock_all | notify_lock_main =>
    subst hs
    exact inv_goto h rfl (.inl ⟨rfl, hphase ▸ rfl⟩) (.inl ⟨rfl, hphase ▸ rfl⟩) ⟨rfl, hphase ▸ rfl⟩ nofun
  case clear_main_lock =>
    subst hs
    exact inv_goto h rfl (.inl ⟨rfl, hphase ▸ rfl⟩) (.inl ⟨rfl, hphase ▸ rfl⟩) ⟨rfl, hphase ▸ rfl⟩
      fun _ => halone rfl
  case lock_main_lock_mtx | shared_main_lock_mtx =>
    split_ifs at hs with hfree
    obtain rfl := Option.some.inj hs
    exact inv_goto h rfl (.inr (.inl ⟨hfree, rfl, rfl⟩)) (.inl ⟨rfl, hphase ▸ rfl⟩)
      ⟨rfl, hphase ▸ rfl⟩ nofun
  case wait_lock_all =>
    split_ifs at hs with hfree
    obtain rfl := Option.some.inj hs
    exact inv_goto h rfl (.inr (.inl ⟨hfree.2, rfl, rfl⟩)) (.inl ⟨rfl, hphase ▸ rfl⟩)
      ⟨rfl, hphase ▸ rfl⟩ nofun
  case lock_shared_counter_mtx | shared_counter_mtx | release_counter_mtx =>
    split_ifs at hs with hfree
    obtain rfl := Option.some.inj hs
    exact inv_goto h rfl (.inl ⟨rfl, hphase ▸ rfl⟩) (.inr (.inl ⟨hfree, rfl, rfl⟩))
      ⟨rfl, hphase ▸ rfl⟩ nofun
  case wait_lock_main =>
    split_ifs at hs with hfree
    obtain rfl := Option.some.inj hs
    exact inv_goto h rfl (.inl ⟨rfl, hphase ▸ rfl⟩) (.inr (.inl ⟨hfree.2, rfl, rfl⟩))
      ⟨rfl, hphase ▸ rfl⟩ nofun
  case unlock_main_lock_mtx | shared_unlock_lck =>
    subst hs
    exact inv_goto h rfl (.inr (.inr ⟨rfl, hphase ▸ rfl, rfl⟩)) (.inl ⟨rfl, hphase ▸ rfl⟩)
      ⟨rfl, hphase ▸ rfl⟩ nofun
  case unlock_lck =>
    subst hs
    exact inv_goto h rfl (.inl ⟨rfl, hphase ▸ rfl⟩) (.inr (.inr ⟨rfl, hphase ▸ rfl, rfl⟩))
      ⟨rfl, hphase ▸ rfl⟩ fun _ => halone rfl
  case shared_unlock_counter_mtx | release_unlock_counter_mtx =>
    subst hs
    exact inv_goto h rfl (.inl ⟨rfl, hphase ▸ rfl⟩) (.inr (.inr ⟨rfl, hphase ▸ rfl, rfl⟩))
      ⟨rfl, hphase ▸ rfl⟩ nofun
  case test_shared_counter =>
    split_ifs at hs with hzero
    · obtain rfl := Option.some.inj hs
      exact inv_goto h rfl (.inl ⟨rfl, hphase ▸ rfl⟩) (.inl ⟨rfl, hphase ▸ rfl⟩)
        ⟨rfl, hphase ▸ rfl⟩ fun _ => hzero
    · obtain rfl := Option.some.inj hs
      exact inv_goto h rfl (.inl ⟨rfl, hphase ▸ rfl⟩) (.inr (.inr ⟨rfl, hphase ▸ rfl, rfl⟩))
        ⟨rfl, hphase ▸ rfl⟩ nofun
  case test_main_lock =>
    split_ifs at hs with hflag
    · obtain rfl := Option.some.inj hs
      exact inv_goto h rfl (.inl ⟨rfl, hphase ▸ rfl⟩) (.inl ⟨rfl, hphase ▸ rfl⟩)
        ⟨rfl, hphase ▸ rfl⟩ nofun
    · obtain rfl := Option.some.inj hs
      exact inv_goto h rfl (.inr (.inr ⟨rfl, hphase ▸ rfl, rfl⟩)) (.inl ⟨rfl, hphase ▸ rfl⟩)
        ⟨rfl, hphase ▸ rfl⟩ nofun

theorem inv_step {s s' : SharedMutex T} {a : LockStep T} (h : Inv s) (hs : s.step a = some s') :
    Inv s' := by
  cases a with
  | lock t => exact inv_call h hs rfl rfl rfl nofun
  | unlock t => exact inv_call h hs rfl rfl rfl fun _ => rfl
  | lock_shared t => exact inv_call h hs rfl rfl rfl nofun
  | unlock_shared t => exact inv_call h hs rfl rfl rfl nofun
  | op t pick => exact inv_op h hs
  | wake t =>
    obtain rfl := Option.some.inj hs
    exact ⟨h.main_lock_mtx, h.shared_counter_mtx, h.shared_counter, h.alone⟩

/-- Who excludes others is the only one to hold the lock, and the counter counts its sharers. -/
structure Exclusive (s : SharedMutex T) : Prop where
  excludes : ∀ t u, t ≠ u → (s.phase t).excludes = true →
    (s.phase u).excludes = false ∧ (s.phase u).counted = false
  finite : {t | (s.phase t).counted = true}.Finite
  shared_counter : s.shared_counter = {t | (s.phase t).counted = true}.ncard

omit [DecidableEq T] in
theorem Inv.exclusive {s : SharedMutex T} (h : Inv s) : Exclusive s where
  excludes := by
    intro t u hne ht
    have halone : (s.phase t).alone = true := by simp [LockPhase.alone, ht]
    constructor
    · by_contra hu
      rw [Bool.not_eq_false] at hu
      have halone' : (s.phase u).alone = true := by simp [LockPhase.alone, hu]
      exact hne (h.main_lock_mtx.eq (LockPhase.alone_inMain halone) (LockPhase.alone_inMain halone'))
    · by_contra hu
      rw [Bool.not_eq_false] at hu
      have hpos := h.shared_counter.pos hu
      have hzero := h.alone t halone
      omega
  finite := h.shared_counter.ncard.1
  shared_counter := h.shared_counter.ncard.2

/-- Whatever the threads do, and in whatever order. -/
theorem always_exclusive (steps : List (LockStep T)) :
    Steps.Always step Exclusive steps (new : SharedMutex T) :=
  Steps.always_of_inv (fun _ => Inv.exclusive) (fun _ _ _ => inv_step) inv_new

/-- A thread that waits for a sharer is woken by it and has the lock to itself. -/
example :
    let share : List (LockStep ℕ) := .lock_shared 0 :: List.replicate 6 (.op 0 0)
    let wait : List (LockStep ℕ) := .lock 1 :: List.replicate 4 (.op 1 0)
    let release : List (LockStep ℕ) := .unlock_shared 0 :: List.replicate 4 (.op 0 0)
    ((Steps.run step (share ++ wait) new).map fun s => (s.phase 0, s.phase 1)) =
        some (.shared, .wait_lock_main) ∧
      ((Steps.run step (share ++ wait ++ release ++ List.replicate 3 (.op 1 0)) new).map fun s =>
        (s.phase 0, s.phase 1)) = some (.idle, .exclusive) := by
  decide

end SharedMutex

end H9
