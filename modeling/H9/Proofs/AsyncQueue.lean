import H9.Lib.Steps
import H9.TCPClientThread

/-!
# The messages of the other threads

While the queue has messages exactly one thing is there that makes the thread come to them: the
trigger that a thread is about to make, the event, its report, or the loop that the thread is in.
Without messages there is none, so the thread never finds the queue empty.
-/

namespace H9

open Steps

namespace ThreadPhase

/-- How often the thread is going to look into the queue. -/
def wakeups : ThreadPhase → ℕ
  | .polled evs => evs.count .async
  | .draining evs => 1 + evs.count .async
  | .sending _ queue_empty evs => (!queue_empty).toNat + evs.count .async
  | .ended | .aborted => 0

/-- The message that the thread is just sending. -/
def inHand : ThreadPhase → List GenericMsg
  | .sending msg _ _ => [msg]
  | .polled _ | .draining _ | .ended | .aborted => []

end ThreadPhase

namespace TCPClientThread

def wakeups (s : TCPClientThread) : ℕ :=
  s.event.triggered.toNat + s.async_msg_queue_mtx.isSome.toNat + s.phase.wakeups

/-- A queue with messages has one wake-up, and no message is lost or turned around. -/
structure Accounted (s : TCPClientThread) : Prop where
  asserts : s.phase ≠ .aborted
  conserved : s.pushed = s.sent ++ s.phase.inHand ++ s.async_msg_queue
  woken : s.wakeups = (!s.async_msg_queue.isEmpty).toNat

theorem accounted_start : start.Accounted where
  asserts h := by cases h
  conserved := rfl
  woken := rfl

theorem Accounted.delivers {s : TCPClientThread} (h : s.Accounted) : s.Delivers where
  asserts := h.asserts
  order := by
    rw [h.conserved, List.append_assoc]
    exact List.prefix_append _ _
  drained hq := by
    obtain ⟨htriggered, hmtx, hphase⟩ := hq
    have hzero : s.phase.wakeups = 0 := by
      cases hp : s.phase with
      | polled evs =>
        rw [hp] at hphase
        exact List.count_eq_zero.2 hphase
      | ended => rfl
      | draining _ | sending _ _ _ | aborted =>
        rw [hp] at hphase
        exact hphase.elim
    have hwoken := h.woken
    rw [wakeups, htriggered, hmtx, hzero] at hwoken
    rcases hqueue : s.async_msg_queue with _ | ⟨msg, msgs⟩
    · rfl
    · rw [hqueue] at hwoken
      cases hwoken

/-- A report takes the trigger over. -/
theorem wakeups_wait {event : Epoll} {evs : List PollEvent} (h : event.Reports evs) :
    (event.wait evs).triggered.toNat + evs.count .async = event.triggered.toNat := by
  obtain ⟨-, hnodup, htriggered⟩ := h
  unfold Epoll.wait
  split_ifs with hmem
  · simp [hnodup.count, hmem, htriggered hmem]
  · simp [List.count_eq_zero.2 hmem]

theorem accounted_step {s t : TCPClientThread} {e : ThreadStep} (h : s.Accounted)
    (hst : s.step e = some t) : t.Accounted := by
  obtain ⟨running, phase, event, queue, mtx, pushed, sent⟩ := s
  obtain ⟨hasserts, hconserved, hwoken⟩ := h
  dsimp only [wakeups] at hasserts hconserved hwoken
  cases e with
  | send_msg p msg =>
    simp only [step] at hst
    split_ifs at hst with hmtx
    obtain rfl := Option.some.inj hst
    subst hmtx
    refine ⟨hasserts, by simp [push, hconserved], ?_⟩
    rcases queue with _ | ⟨msg', msgs⟩
    · simp only [wakeups, push, List.nil_append, List.length_singleton, if_true,
        Option.isSome_some, Option.isSome_none, Bool.toNat_true, Bool.toNat_false,
        List.isEmpty_nil, List.isEmpty_cons, Bool.not_true, Bool.not_false] at hwoken ⊢
      omega
    · simpa [wakeups, push] using hwoken
  | trigger_async_event p =>
    simp only [step] at hst
    split_ifs at hst with hmtx
    obtain rfl := Option.some.inj hst
    refine ⟨hasserts, hconserved, ?_⟩
    subst hmtx
    rcases event with ⟨_ | _⟩ <;> rcases queue with _ | ⟨msg, msgs⟩ <;>
      simp [wakeups, Epoll.trigger_async_event] at hwoken ⊢ <;> omega
  | wait evs =>
    simp only [step] at hst
    split at hst
    · rename_i hphase
      split_ifs at hst with hwait
      obtain rfl := Option.some.inj hst
      refine ⟨nofun, ?_, ?_⟩
      · simpa [ThreadPhase.inHand] using hconserved
      · have hreport := wakeups_wait hwait.2
        simp only [wakeups, ThreadPhase.wakeups, List.count_nil] at hwoken hreport ⊢
        omega
    · cases hst
  | thread_recv_msg closed =>
    simp only [step] at hst
    split at hst
    · rename_i evs
      obtain rfl := Option.some.inj hst
      refine ⟨nofun, hconserved, ?_⟩
      simpa [wakeups, ThreadPhase.wakeups] using hwoken
    · cases hst
  | thread_send_async_msg =>
    simp only [step] at hst
    split at hst
    · rename_i evs
      obtain rfl := Option.some.inj hst
      refine ⟨nofun, hconserved, ?_⟩
      simp [wakeups, ThreadPhase.wakeups] at hwoken ⊢
      omega
    · cases hst
  | pop =>
    simp only [step] at hst
    split at hst
    · rename_i evs
      rcases queue with _ | ⟨msg, msgs⟩
      · simp [ThreadPhase.wakeups] at hwoken
      · obtain rfl := Option.some.inj hst
        refine ⟨nofun, ?_, ?_⟩
        · simpa [ThreadPhase.inHand] using hconserved
        · simp only [wakeups, ThreadPhase.wakeups, List.isEmpty_cons, Bool.not_false,
            Bool.toNat_true] at hwoken ⊢
          omega
    · cases hst
  | send =>
    simp only [step] at hst
    split at hst
    · rename_i msg queue_empty evs
      obtain rfl := Option.some.inj hst
      cases queue_empty
      · refine ⟨nofun, ?_, ?_⟩
        · simpa [ThreadPhase.inHand] using hconserved
        · simpa [wakeups, ThreadPhase.wakeups] using hwoken
      · refine ⟨nofun, ?_, ?_⟩
        · simpa [ThreadPhase.inHand] using hconserved
        · simpa [wakeups, ThreadPhase.wakeups] using hwoken
    · cases hst
  | leave =>
    simp only [step] at hst
    split at hst
    · split_ifs at hst
      obtain rfl := Option.some.inj hst
      exact ⟨nofun, hconserved, hwoken⟩
    · cases hst

/-- Whatever the threads do, the messages are sent in the order in which they were pushed, and none
is left in the queue. -/
theorem always_delivers (es : List ThreadStep) : Always step Delivers es start :=
  always_of_inv (fun _ => Accounted.delivers) (fun _ _ _ => accounted_step) accounted_start

end TCPClientThread

end H9
