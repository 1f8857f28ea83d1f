import H9.Lib.Steps
import H9.TCPServer

/-!
# Which clients the server deletes

A client that triggered the event of the server is looked at afterwards: the event is pending, or
the server is about to come to the client (`ServerPhase.Comes`). It is then deleted if its thread
has put `thread_running` down, which it does after the trigger. A scan in between passes it by.
A client is taken from the list after its thread was joined, whatever `thread_running` says.
-/

namespace H9

open Steps

namespace ServerPhase

/-- The server is going to look at the client. -/
def Comes (c : ℕ) : ServerPhase → Prop
  | .polled evs | .accepting _ evs => .async ∈ evs
  | .scanning its evs => c ∈ its ∨ .async ∈ evs
  | .joining it its evs => c = it ∨ c ∈ its ∨ .async ∈ evs

/-- The client that is on its way into the list. -/
def fresh : ServerPhase → List ℕ
  | .accepting c _ => [c]
  | .polled _ | .scanning _ _ | .joining _ _ _ => []

end ServerPhase

namespace TCPServer

/-- The clients in the list, and the one on its way into it. -/
def known (s : TCPServer) : List ℕ := s.tcpclientthread_list ++ s.phase.fresh

structure Watched (s : TCPServer) : Prop where
  removed : ∀ c ∈ s.removed, ∀ life ∈ s.clients c, life.phase = .ended
  flag : ∀ c, ∀ life ∈ s.clients c, life.phase ≠ .created →
    (life.thread_running = true ↔ life.phase ≠ .ended)
  built : ∀ c ∈ s.removed ++ s.known, s.clients c ≠ none
  nodup : s.known.Nodup
  noticed : ∀ c ∈ s.known, ∀ life ∈ s.clients c, life.phase = .triggered ∨ life.phase = .ended →
    s.event.triggered = true ∨ s.phase.Comes c

theorem watched_start : start.Watched where
  removed _ h := by cases h
  flag _ _ h := by cases h
  built _ h := by cases h
  nodup := List.nodup_nil
  noticed _ h := by cases h

theorem Watched.reaps {s : TCPServer} (h : s.Watched) : s.Reaps where
  removed c hc life hlife := .inr (.inr (h.removed c hc life hlife))
  reaped hq c hc life hlife hended := by
    obtain ⟨htriggered, hphase⟩ := hq
    have hcomes := (h.noticed c (List.mem_append_left _ hc) life hlife (.inr hended)).resolve_left
      (by simp [htriggered])
    cases hp : s.phase <;> rw [hp] at hphase hcomes
    · exact hphase hcomes
    · exact hphase hcomes
    · exact hphase
    · exact hphase

theorem Watched.setClient {s : TCPServer} (h : s.Watched) {c : ℕ} {life : ClientLife}
    (hlife : s.clients c = some life) (hrunning : life.phase ≠ .ended) {target : LifePhase}
    {thread_running : Bool} (hflag : thread_running = true ↔ target ≠ .ended)
    (hnoticed : target = .triggered ∨ target = .ended → s.event.triggered = true ∨
      life.phase = .triggered) : (s.setClient c ⟨target, thread_running⟩).Watched where
  removed c' hc' life' hlife' := by
    by_cases hcc : c' = c
    · subst hcc
      exact absurd (h.removed c' hc' life hlife) hrunning
    · simp only [TCPServer.setClient, Function.update_of_ne hcc] at hlife'
      exact h.removed c' hc' life' hlife'
  flag c' life' hlife' hc' := by
    by_cases hcc : c' = c
    · subst hcc
      simp only [TCPServer.setClient, Function.update_self, Option.mem_some_iff] at hlife'
      subst hlife'
      exact hflag
    · simp only [TCPServer.setClient, Function.update_of_ne hcc] at hlife'
      exact h.flag c' life' hlife' hc'
  built c' hc' := by
    by_cases hcc : c' = c
    · subst hcc
      simp [TCPServer.setClient]
    · simpa [TCPServer.setClient, Function.update_of_ne hcc] using h.built c' hc'
  nodup := h.nodup
  noticed c' hc' life' hlife' hphase := by
    by_cases hcc : c' = c
    · subst hcc
      simp only [TCPServer.setClient, Function.update_self, Option.mem_some_iff] at hlife'
      subst hlife'
      exact (hnoticed hphase).elim .inl fun ht => h.noticed c' hc' life hlife (.inl ht)
    · simp only [TCPServer.setClient, Function.update_of_ne hcc] at hlife'
      exact h.noticed c' hc' life' hlife' hphase

theorem advance_eq {s t : TCPServer} {c : ℕ} {source target : LifePhase} {f : Bool → Bool}
    (h : s.advance c source target f = some t) : ∃ life, s.clients c = some life ∧
      life.phase = source ∧ t = s.setClient c ⟨target, f life.thread_running⟩ := by
  unfold advance at h
  split at h
  · rename_i life hlife
    split_ifs at h with hphase
    exact ⟨life, hlife, hphase, (Option.some.inj h).symm⟩
  · cases h

theorem Watched.trigger {s : TCPServer} (h : s.Watched) :
    ({ s with event := s.event.trigger_async_event } : TCPServer).Watched where
  removed := h.removed
  flag := h.flag
  built := h.built
  nodup := h.nodup
  noticed _ _ _ _ _ := .inl rfl

theorem Watched.goesOn {s : TCPServer} (h : s.Watched) {phase : ServerPhase} {event : Epoll}
    (hfresh : phase.fresh = s.phase.fresh)
    (hnoticed : ∀ c ∈ s.known, ∀ life ∈ s.clients c, life.phase = .triggered ∨ life.phase = .ended →
      event.triggered = true ∨ phase.Comes c) :
    ({ s with phase := phase, event := event } : TCPServer).Watched := by
  have hknown : ({ s with phase := phase, event := event } : TCPServer).known = s.known := by
    simp only [known, hfresh]
  refine ⟨h.removed, h.flag, ?_, ?_, ?_⟩
  · rw [hknown]
    exact h.built
  · rw [hknown]
    exact h.nodup
  · rw [hknown]
    exact hnoticed

theorem Watched.accept {s : TCPServer} (h : s.Watched) {evs : List PollEvent}
    (hphase : s.phase = .polled (.socket :: evs)) {c : ℕ} (hc : s.clients c = none)
    (thread_running : Bool) :
    ({ s.setClient c ⟨.created, thread_running⟩ with phase := .accepting c evs } : TCPServer).Watched := by
  have hlist : s.known = s.tcpclientthread_list := by simp [known, hphase, ServerPhase.fresh]
  have hne (c' : ℕ) (hc' : c' ∈ s.removed ++ s.known) : c' ≠ c := by
    rintro rfl
    exact h.built c' hc' hc
  have hold {c' : ℕ} (hcc : c' ≠ c) :
      Function.update s.clients c (some ⟨.created, thread_running⟩) c' = s.clients c' :=
    Function.update_of_ne hcc _ _
  have hmem {c' : ℕ} (hc' : c' ∈ s.tcpclientthread_list ++ [c]) (hcc : c' ≠ c) : c' ∈ s.known := by
    simpa [hlist, hcc] using hc'
  refine ⟨fun c' hc' life hlife => ?_, fun c' life hlife => ?_, fun c' hc' => ?_, ?_,
    fun c' hc' life hlife hl => ?_⟩
  · exact h.removed c' hc' life ((hold (hne c' (List.mem_append_left _ hc'))).symm.trans hlife)
  · rcases eq_or_ne c' c with rfl | hcc
    · obtain rfl : _ = life := by simpa [TCPServer.setClient] using hlife
      exact fun hcreated => absurd rfl hcreated
    · exact h.flag c' life ((hold hcc).symm.trans hlife)
  · rcases eq_or_ne c' c with rfl | hcc
    · simp [TCPServer.setClient]
    · refine fun hnone => h.built c' ?_ ((hold hcc).symm.trans hnone)
      exact (List.mem_append.1 hc').elim (List.mem_append_left _)
        fun hc' => List.mem_append_right _ (hmem hc' hcc)
  · refine (hlist ▸ h.nodup).append (List.nodup_singleton c) fun c' hc' hcc => ?_
    exact hne c' (List.mem_append_right _ (hlist ▸ hc')) (List.mem_singleton.1 hcc)
  · rcases eq_or_ne c' c with rfl | hcc
    · obtain rfl : _ = life := by simpa [TCPServer.setClient] using hlife
      simp at hl
    · refine (h.noticed c' (hmem hc' hcc) life ((hold hcc).symm.trans hlife) hl).imp_right
        fun hcomes => ?_
      rw [hphase] at hcomes
      exact (List.mem_cons.1 hcomes).resolve_left (by decide)

theorem Watched.erase {s : TCPServer} (h : s.Watched) {it : ℕ} {its : List ℕ} {evs : List PollEvent}
    (hphase : s.phase = .joining it its evs) {life : ClientLife} (hlife : s.clients it = some life)
    (hended : life.phase = .ended) :
    ({ s with
      phase := .scanning its evs
      tcpclientthread_list := s.tcpclientthread_list.erase it
      removed := s.removed ++ [it] } : TCPServer).Watched := by
  have hlist : s.known = s.tcpclientthread_list := by simp [known, hphase, ServerPhase.fresh]
  have hnodup : s.tcpclientthread_list.Nodup := hlist ▸ h.nodup
  have hmem {c : ℕ} (hc : c ∈ s.tcpclientthread_list.erase it ++ []) : c ≠ it ∧ c ∈ s.known := by
    simpa [hlist, hnodup.mem_erase_iff] using hc
  refine ⟨fun c hc life' hlife' => ?_, h.flag, fun c hc => ?_, ?_, fun c hc life' hlife' hl => ?_⟩
  · rcases List.mem_append.1 hc with hc | hc
    · exact h.removed c hc life' hlife'
    · obtain rfl := List.mem_singleton.1 hc
      obtain rfl := Option.some.inj (hlife.symm.trans hlife')
      exact hended
  · rcases List.mem_append.1 hc with hc | hc
    · rcases List.mem_append.1 hc with hc | hc
      · exact h.built c (List.mem_append_left _ hc)
      · rw [List.mem_singleton.1 hc]
        exact fun hnone => by cases hnone.symm.trans hlife
    · exact h.built c (List.mem_append_right _ (hmem hc).2)
  · simpa [known, ServerPhase.fresh] using hnodup.erase it
  · refine (h.noticed c (hmem hc).2 life' hlife' hl).imp_right fun hcomes => ?_
    rw [hphase] at hcomes
    exact hcomes.resolve_left (hmem hc).1

/-- The server looks at a client: it passes one by that is running, and that one is noticed still. -/
theorem Watched.is_running {s : TCPServer} (h : s.Watched) (hC : Settled .is_running s) {it : ℕ}
    {its : List ℕ} {evs : List PollEvent} (hphase : s.phase = .scanning (it :: its) evs)
    {life : ClientLife} (hlife : s.clients it = some life) :
    ({ s with phase := if life.thread_running then .scanning its evs else .joining it its evs } :
      TCPServer).Watched := by
  refine h.goesOn (by split_ifs <;> simp [hphase, ServerPhase.fresh]) fun c hc life' hlife' hl => ?_
  have hcomes := h.noticed c hc life' hlife' hl
  rw [hphase] at hcomes
  rcases hcomes with htriggered | hcomes | hcomes
  · exact .inl htriggered
  · rcases List.mem_cons.1 hcomes with rfl | hcomes
    · obtain rfl := Option.some.inj (hlife.symm.trans hlife')
      split_ifs with hrunning
      · refine .inl (hC rfl c (by rw [hphase]; rfl) life hlife (hl.resolve_right fun hended => ?_))
        exact (h.flag c life hlife (by simp [hended])).1 hrunning hended
      · exact .inr (.inl rfl)
    · split_ifs
      · exact .inr (.inl hcomes)
      · exact .inr (.inr (.inl hcomes))
  · split_ifs
    · exact .inr (.inr hcomes)
    · exact .inr (.inr (.inr hcomes))

theorem watched_step {s t : TCPServer} {e : ServerStep} (h : s.Watched) (hC : Settled e s)
    (hst : s.step e = some t) : t.Watched := by
  obtain ⟨phase, event, list, clients, removed⟩ := s
  cases e with
  | wait evs =>
    simp only [step] at hst
    split at hst
    · split_ifs at hst
      obtain rfl := Option.some.inj hst
      refine h.goesOn rfl fun c hc life hlife hl => ?_
      have htriggered := (h.noticed c hc life hlife hl).resolve_right List.not_mem_nil
      by_cases hmem : PollEvent.async ∈ evs
      · exact .inr hmem
      · left
        simp only [Epoll.wait, if_neg hmem]
        exact htriggered
    · cases hst
  | accept c thread_running =>
    simp only [step] at hst
    split at hst
    · rename_i evs hc
      exact Option.some.inj hst ▸ h.accept rfl hc thread_running
    · cases hst
  | push_back =>
    simp only [step] at hst
    split at hst
    · rename_i c evs
      obtain rfl := Option.some.inj hst
      exact ⟨h.removed, h.flag, fun c' hc' => h.built c' (by simpa [known, ServerPhase.fresh] using hc'),
        by simpa [known, ServerPhase.fresh] using h.nodup,
        fun c' hc' => h.noticed c' (by simpa [known, ServerPhase.fresh] using hc')⟩
    · cases hst
  | scan =>
    simp only [step] at hst
    split at hst
    · rename_i evs
      obtain rfl := Option.some.inj hst
      refine h.goesOn rfl fun c hc _ _ _ => .inr (.inl ?_)
      simpa [known, ServerPhase.fresh] using hc
    · cases hst
  | is_running =>
    simp only [step] at hst
    split at hst
    · rename_i evs
      obtain rfl := Option.some.inj hst
      exact h.goesOn rfl fun c hc life hlife hl =>
        (h.noticed c hc life hlife hl).imp_right fun hcomes => hcomes.resolve_left List.not_mem_nil
    · rename_i it its evs
      split at hst
      · rename_i life hlife
        exact Option.some.inj hst ▸ h.is_running hC rfl hlife
      · cases hst
    · cases hst
  | erase =>
    simp only [step] at hst
    split at hst
    · rename_i it its evs
      split at hst
      · rename_i life hlife
        split_ifs at hst with hended
        exact Option.some.inj hst ▸ h.erase rfl hlife hended
      · cases hst
    · cases hst
  | run c =>
    simp only [step] at hst
    obtain ⟨life, hlife, hphase, rfl⟩ := advance_eq hst
    exact h.setClient hlife (by simp [hphase]) (by simp) (by simp)
  | leave c =>
    simp only [step] at hst
    obtain ⟨life, hlife, hphase, rfl⟩ := advance_eq hst
    have hflag := h.flag c life hlife (by simp [hphase])
    exact h.setClient hlife (by simp [hphase]) (by simpa [hphase] using hflag) (by simp)
  | trigger c =>
    obtain ⟨u, hu, rfl⟩ := Option.map_eq_some_iff.1 hst
    obtain ⟨life, hlife, hphase, rfl⟩ := advance_eq hu
    have hflag := h.flag c life hlife (by simp [hphase])
    exact h.trigger.setClient hlife (by simp [hphase]) (by simpa [hphase] using hflag)
      fun _ => .inl rfl
  | finish c =>
    simp only [step] at hst
    obtain ⟨life, hlife, hphase, rfl⟩ := advance_eq hst
    exact h.setClient hlife (by simp [hphase]) (by simp) fun _ => .inr hphase

/-- In a run in which no scan comes between a client's trigger and the end of its thread, unless
the event was triggered again, the server deletes only clients that left their loops, and leaves none
that ended. -/
theorem always_reaps {es : List ServerStep} (h : Meet step Settled es start) :
    Always step Reaps es start :=
  always_of_meet (fun _ => Watched.reaps) (fun _ _ _ => watched_step) watched_start h

/-- A client connects and leaves, and its thread ends before the server comes to the event. -/
def served : List ServerStep :=
  [.wait [.socket], .accept 0 false, .push_back, .run 0, .leave 0, .trigger 0, .finish 0,
    .wait [.async], .scan, .is_running, .erase, .is_running]

/-- The server deletes the client. -/
theorem always_reaps_served : Always step Reaps served start ∧
    (Steps.run step served start).map TCPServer.removed = some [0] :=
  ⟨always_reaps (by decide +kernel), by decide +kernel⟩

/-- The server comes to the event before the thread has put `thread_running` down. -/
def missed : List ServerStep :=
  [.wait [.socket], .accept 0 false, .push_back, .run 0, .leave 0, .trigger 0,
    .wait [.async], .scan, .is_running, .is_running, .finish 0]

/-- The client has ended and stays in the list, and no event is pending. -/
theorem not_always_reaps : ¬ ∀ es, Always step Reaps es start := by
  intro h
  have hend : (Steps.run step missed start).map (fun s =>
      (s.phase, s.event.triggered, s.tcpclientthread_list, (s.clients 0).map ClientLife.phase)) =
        some (.polled [], false, [0], some .ended) := by decide +kernel
  obtain ⟨s, hrun, hs⟩ := Option.map_eq_some_iff.1 hend
  obtain ⟨hphase, htriggered, hlist, hlife⟩ : s.phase = .polled [] ∧ s.event.triggered = false ∧
      s.tcpclientthread_list = [0] ∧ (s.clients 0).map ClientLife.phase = some .ended := by
    simpa only [Prod.mk.injEq] using hs
  obtain ⟨life, hlife, hended⟩ := Option.map_eq_some_iff.1 hlife
  have hreaps : s.Reaps := (h (missed ++ [])).run hrun
  refine hreaps.reaped ⟨htriggered, ?_⟩ 0 ?_ life hlife hended
  · rw [hphase]
    exact List.not_mem_nil
  · rw [hlist]
    exact List.mem_cons_self

end TCPServer

end H9
