import H9.Proofs.SocketStream
import H9.Senders

/-!
# Threads that share a connector

While no thread writes a length between another one's length and text, the stream is the frames
of the messages sent, and at most one length behind them (`Framed`). The first length that does
come between is read as text.
-/

namespace H9

open Framing

namespace Senders

/-- The stream is the frames of the messages sent and the length of the one under way. -/
def Framed (s : Senders) : Prop :=
  (∀ u, (s.threads u).mid = none) ∧ s.wire = encode s.texts ∨
    ∃ t p, (s.threads t).mid = some p ∧ (∀ u ≠ t, (s.threads u).mid = none) ∧
      s.wire = encode s.texts ++ be32 p.text.length

/-- The messages of each thread are sent in its order, each once. -/
def Accounted (todo : ℕ → List Payload) (s : Senders) : Prop :=
  ∀ t, (s.sent.filter (·.1 = t)).map (·.2) ++ (s.threads t).mid.toList ++ (s.threads t).todo = todo t

theorem step_framed {s : Senders} (h : s.Framed) {t : ℕ}
    (ht : (s.threads t).mid = none → ∀ u, (s.threads u).mid = none) : (s.step t).Framed := by
  unfold step
  rcases hm : (s.threads t).mid with _ | p <;> dsimp only
  · have hnone := ht hm
    have hwire : s.wire = encode s.texts := by
      rcases h with ⟨-, hw⟩ | ⟨u, p, hu, -⟩
      · exact hw
      · rw [hnone u] at hu
        simp at hu
    rcases (s.threads t).todo with _ | ⟨p, todo⟩
    · exact .inl ⟨hnone, hwire⟩
    · refine .inr ⟨t, p, by simp, fun u hu => ?_, by rw [hwire]; rfl⟩
      dsimp only
      rw [Function.update_of_ne hu]
      exact hnone u
  · rcases h with ⟨hnone, -⟩ | ⟨u, q, hu, hothers, hw⟩
    · rw [hnone t] at hm
      simp at hm
    obtain rfl : t = u := by
      by_contra hne
      rw [hothers t hne] at hm
      simp at hm
    obtain rfl : p = q := Option.some.inj (hm.symm.trans hu)
    refine .inl ⟨fun u => ?_, ?_⟩
    · dsimp only
      by_cases hut : u = t
      · rw [hut, Function.update_self]
      · rw [Function.update_of_ne hut]
        exact hothers u hut
    · simp [texts, hw, frame]

theorem step_accounted {todo : ℕ → List Payload} {s : Senders} (h : s.Accounted todo) (t : ℕ) :
    (s.step t).Accounted todo := by
  intro u
  have hu := h u
  unfold step
  by_cases hut : u = t
  · subst hut
    rcases hm : (s.threads u).mid with _ | p <;> rcases ht : (s.threads u).todo with _ | ⟨q, todo⟩ <;>
      simp_all
  · rcases hm : (s.threads t).mid with _ | p <;> rcases ht : (s.threads t).todo with _ | ⟨q, todo⟩ <;>
      simp_all [Ne.symm hut]

theorem run_framed : ∀ {ts : List ℕ} {s : Senders}, s.Framed → Serial ts s → (run ts s).Framed
  | [], _, h, _ => h
  | t :: ts, s, h, ⟨ht, hts⟩ => by
    change (run ts (s.step t)).Framed
    exact run_framed (step_framed h ht) hts

theorem run_accounted {todo : ℕ → List Payload} :
    ∀ (ts : List ℕ) {s : Senders}, s.Accounted todo → (run ts s).Accounted todo
  | [], _, h => h
  | t :: ts, s, h => by
    change (run ts (s.step t)).Accounted todo
    exact run_accounted ts (step_accounted h t)

theorem Framed.wire_eq {s : Senders} (h : s.Framed) :
    ∃ t, Partial t ∧ s.wire = encode s.texts ++ t := by
  rcases h with ⟨-, hw⟩ | ⟨t, p, -, -, hw⟩
  · exact ⟨[], partial_nil, by rw [hw, List.append_nil]⟩
  · refine ⟨be32 p.text.length, .inr ?_, hw⟩
    have hpos := List.length_pos_iff.2 p.ne_nil
    rw [List.take_of_length_le (length_be32 _).le, ofBe_be32 (p.short.trans (by decide)),
      length_be32]
    omega

theorem mem_texts {s : Senders} {p : List UInt8} (h : p ∈ s.texts) :
    p ≠ [] ∧ 0 ∉ p ∧ p.length < 2 ^ 32 := by
  obtain ⟨m, -, rfl⟩ := List.mem_map.1 h
  exact ⟨m.2.ne_nil, m.2.nul_free, m.2.short.trans (by decide)⟩

/-- While no length comes between another length and its text, the receiver returns exactly the
messages sent, and each thread's messages are sent once and in its order. -/
theorem recvs_of_serial (todo : ℕ → List Payload) (ts : List ℕ) (h : Serial ts (new todo))
    (as : List Arrival) (hlive : ∀ a ∈ as, a = .wouldBlock ∨ ∃ k, a = .bytes k) (n : ℕ) :
    let s := run ts (new todo)
    let out := H9Socket.new.recvs n ⟨s.wire, as⟩
    (∀ r ∈ out.1, r = .error .EAGAIN ∨ ∃ p, r = .msg p) ∧
      msgs out.1 <+: s.texts ∧
      (out.2.2.stream = [] → msgs out.1 = s.texts) ∧
      (s.wire.length ≤ as.countP (· matches .bytes _) → as.length ≤ n → out.2.2.stream = []) ∧
      ∀ t, (s.sent.filter (·.1 = t)).map (·.2) ++ (s.threads t).mid.toList ++ (s.threads t).todo
        = todo t := by
  intro s out
  have hacc : s.Accounted todo := run_accounted ts fun t => by simp [new]
  have hframed : s.Framed := run_framed (.inl ⟨fun _ => rfl, rfl⟩) h
  obtain ⟨t, ht, hw⟩ := hframed.wire_eq
  obtain ⟨hres, hpre, -, hall, hdrain⟩ :=
    recvs_encode (fun p (hp : p ∈ s.texts) => mem_texts hp) ht as hlive n
  rw [← hw] at hres hpre hall hdrain
  exact ⟨hres, hpre, hall, hdrain, hacc⟩

/-- Two threads, one message each, one after the other. -/
theorem recvs_of_serial_two :
    msgs (H9Socket.new.recvs 12
      ⟨(run [0, 0, 1, 1] (new fun t => if t < 2 then [helloCall.payload] else [])).wire,
        List.replicate 12 (.bytes 3)⟩).1 = [[72, 57], [72, 57]] := by
  have hserial : Serial [0, 0, 1, 1] (new fun t => if t < 2 then [helloCall.payload] else []) := by
    refine ⟨fun _ _ => rfl, ⟨by rintro ⟨⟩, ?_, ⟨by rintro ⟨⟩, trivial⟩⟩⟩
    intro _ u
    by_cases hu : u = 0
    · rw [hu]
      rfl
    · simp [step, new, Function.update_of_ne hu]
  have hlive : ∀ a ∈ List.replicate 12 (Arrival.bytes 3), a = .wouldBlock ∨ ∃ k, a = .bytes k := by
    intro a ha
    exact .inr ⟨3, (List.mem_replicate.1 ha).2⟩
  obtain ⟨-, -, hall, hdrain, -⟩ := recvs_of_serial _ _ hserial _ hlive 12
  exact hall (hdrain (by decide) (by decide))

/-- Both lengths first and then both texts: the receiver takes the second length for the text and
returns the part of it before its first zero, the empty text. -/
theorem msgs_not_serial : ¬ ∀ (todo : ℕ → List Payload) (ts : List ℕ) (as : List Arrival) (n : ℕ),
    (∀ a ∈ as, a = .wouldBlock ∨ ∃ k, a = .bytes k) →
      msgs (H9Socket.new.recvs n ⟨(run ts (new todo)).wire, as⟩).1 <+: (run ts (new todo)).texts := by
  intro h
  have := h (fun t => if t < 2 then [helloCall.payload] else []) [0, 1, 0, 1] [.bytes 3, .bytes 1] 1
    (by simp)
  revert this
  decide +kernel

end Senders

end H9
