import H9.Lib.Steps

/-!
# A lock with shared holders

`SharedMutex` (h9d/sharedmutex.cc), built from two mutexes, a flag, a counter and two condition
variables. Any number of threads use it, each in a phase of its calls; a step is one operation of
one thread on a mutex, a condition variable, the flag or the counter.
-/

namespace H9

/-- Where a thread is. Each phase but `idle`, `exclusive` and `shared` is before an operation. -/
inductive LockPhase
  | idle
  -- `lock`
  | lock_main_lock_mtx
  | set_main_lock
  | lock_shared_counter_mtx
  | test_shared_counter
  | wait_lock_main
  | unlock_lck
  | exclusive
  -- `unlock`
  | clear_main_lock
  | unlock_main_lock_mtx
  | notify_lock_all
  -- `lock_shared`
  | shared_main_lock_mtx
  | test_main_lock
  | wait_lock_all
  | shared_counter_mtx
  | increment
  | shared_unlock_counter_mtx
  | shared_unlock_lck
  | shared
  -- `unlock_shared`
  | release_counter_mtx
  | decrement
  | release_unlock_counter_mtx
  | notify_lock_main
deriving DecidableEq, Repr

/-- A mutex is who has it, a condition variable who waits for it. -/
structure SharedMutex (T : Type) where
  main_lock : Bool
  main_lock_mtx : Option T
  shared_counter_mtx : Option T
  shared_counter : ℤ
  lock_all : List T
  lock_main : List T
  phase : T → LockPhase

inductive LockStep (T : Type)
  | lock (t : T)
  | unlock (t : T)
  | lock_shared (t : T)
  | unlock_shared (t : T)
  /-- The next operation of a thread. `pick` is which of those that wait a `notify_one` wakes. -/
  | op (t : T) (pick : ℕ)
  /-- A thread that waits wakes on its own. -/
  | wake (t : T)
deriving DecidableEq, Repr

namespace SharedMutex

variable {T : Type} [DecidableEq T]

/-- `SharedMutex::SharedMutex`. -/
def new : SharedMutex T where
  main_lock := false
  main_lock_mtx := none
  shared_counter_mtx := none
  shared_counter := 0
  lock_all := []
  lock_main := []
  phase := fun _ => .idle

def goto (s : SharedMutex T) (t : T) (p : LockPhase) : SharedMutex T :=
  { s with phase := Function.update s.phase t p }

/-- A thread that may call a function does so. -/
def call (s : SharedMutex T) (t : T) (src dst : LockPhase) : Option (SharedMutex T) :=
  if s.phase t = src then some (s.goto t dst) else none

/-- The next operation of a thread. It does nothing where the thread is blocked. -/
def op (s : SharedMutex T) (t : T) (pick : ℕ) : Option (SharedMutex T) :=
  match s.phase t with
  | .idle | .exclusive | .shared => none
  | .lock_main_lock_mtx =>
    if s.main_lock_mtx = none then some { s.goto t .set_main_lock with main_lock_mtx := some t }
    else none
  | .set_main_lock => some { s.goto t .lock_shared_counter_mtx with main_lock := true }
  | .lock_shared_counter_mtx =>
    if s.shared_counter_mtx = none then
      some { s.goto t .test_shared_counter with shared_counter_mtx := some t }
    else none
  | .test_shared_counter =>
    if s.shared_counter = 0 then some (s.goto t .unlock_lck)
    else some
      { s.goto t .wait_lock_main with
        shared_counter_mtx := none
        lock_main := s.lock_main ++ [t] }
  | .wait_lock_main =>
    -- woken, the wait takes its mutex back and tests again
    if t ∉ s.lock_main ∧ s.shared_counter_mtx = none then
      some { s.goto t .test_shared_counter with shared_counter_mtx := some t }
    else none
  | .unlock_lck => some { s.goto t .exclusive with shared_counter_mtx := none }
  | .clear_main_lock => some { s.goto t .unlock_main_lock_mtx with main_lock := false }
  | .unlock_main_lock_mtx => some { s.goto t .notify_lock_all with main_lock_mtx := none }
  | .notify_lock_all => some { s.goto t .idle with lock_all := [] }
  | .shared_main_lock_mtx =>
    if s.main_lock_mtx = none then some { s.goto t .test_main_lock with main_lock_mtx := some t }
    else none
  | .test_main_lock =>
    if s.main_lock = false then some (s.goto t .shared_counter_mtx)
    else some
      { s.goto t .wait_lock_all with
        main_lock_mtx := none
        lock_all := s.lock_all ++ [t] }
  | .wait_lock_all =>
    if t ∉ s.lock_all ∧ s.main_lock_mtx = none then
      some { s.goto t .test_main_lock with main_lock_mtx := some t }
    else none
  | .shared_counter_mtx =>
    if s.shared_counter_mtx = none then
      some { s.goto t .increment with shared_counter_mtx := some t }
    else none
  | .increment =>
    some { s.goto t .shared_unlock_counter_mtx with shared_counter := s.shared_counter + 1 }
  | .shared_unlock_counter_mtx =>
    some { s.goto t .shared_unlock_lck with shared_counter_mtx := none }
  | .shared_unlock_lck => some { s.goto t .shared with main_lock_mtx := none }
  | .release_counter_mtx =>
    if s.shared_counter_mtx = none then
      some { s.goto t .decrement with shared_counter_mtx := some t }
    else none
  | .decrement =>
    some { s.goto t .release_unlock_counter_mtx with shared_counter := s.shared_counter - 1 }
  | .release_unlock_counter_mtx =>
    some { s.goto t .notify_lock_main with shared_counter_mtx := none }
  | .notify_lock_main =>
    some { s.goto t .idle with
      lock_main := s.lock_main.eraseIdx (pick % s.lock_main.length) }

/-- A thread releases what it holds. -/
def step (s : SharedMutex T) : LockStep T → Option (SharedMutex T)
  | .lock t => s.call t .idle .lock_main_lock_mtx
  | .unlock t => s.call t .exclusive .clear_main_lock
  | .lock_shared t => s.call t .idle .shared_main_lock_mtx
  | .unlock_shared t => s.call t .shared .release_counter_mtx
  | .op t pick => s.op t pick
  | .wake t => some { s with lock_all := s.lock_all.erase t, lock_main := s.lock_main.erase t }

end SharedMutex

end H9
