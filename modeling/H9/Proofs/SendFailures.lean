import H9.Proofs.SocketStream

/-!
# Writes that fail or stop short

A send that fails leaves the connection open, and the caller may go on. While no byte follows a
message that was cut, the receiver sees whole frames and one last piece (`wire_of_noGap`), and
returns only texts that were sent. As soon as one does, it is taken for the rest of the message
cut, and the receiver returns a text nobody sent.
-/

namespace H9

open Framing

namespace Call

theorem wire_of_silent {c : Call} (h : c.Silent) : c.wire = [] := by
  unfold wire H9Socket.send
  rcases hh : c.header with k | _ | e
  · exact absurd hh (h k)
  · rfl
  · rfl

/-- What a tidy call puts on the stream is its frame, or stops inside it. -/
theorem wire_of_tidy {c : Call} (h : c.Tidy) : c.wire <+: frame c.payload.text := by
  unfold wire H9Socket.send frame
  rcases hh : c.header with j | _ | e
  · have hheader : (be32 c.payload.text.length).take (j + 1) <+: be32 c.payload.text.length ++
        c.payload.text :=
      (List.take_prefix _ _).trans (List.prefix_append _ _)
    rcases ht : c.text with k | _ | e
    · have hj := h j k hh ht
      have htext : (be32 c.payload.text.length).take (j + 1) ++ c.payload.text.take (k + 1) <+:
          be32 c.payload.text.length ++ c.payload.text := by
        rw [List.take_of_length_le ((length_be32 _).le.trans hj)]
        exact (List.prefix_append_right_inj _).2 (List.take_prefix _ _)
      dsimp only [SendAnswer.taken]
      split_ifs
      · exact hheader
      · exact htext
      · exact htext
    · exact hheader
    · exact hheader
  · exact List.nil_prefix
  · exact List.nil_prefix

end Call

theorem wire_of_silent : ∀ {cs : List Call}, (∀ c ∈ cs, c.Silent) → wire cs = []
  | [], _ => rfl
  | c :: cs, h => by
    have ih := wire_of_silent fun d hd => h d (List.mem_cons_of_mem c hd)
    rw [wire_cons, ih, Call.wire_of_silent (h c List.mem_cons_self), List.append_nil]

/-- The stream is the frames of some of the texts, in their order, and one last piece. -/
theorem wire_of_noGap : ∀ {cs : List Call}, NoGap cs →
    ∃ ps t, ps.Sublist (texts cs) ∧ Partial t ∧ wire cs = encode ps ++ t
  | [], _ => ⟨[], [], List.Sublist.slnil, partial_nil, rfl⟩
  | c :: cs, .inl ⟨hc, h⟩ => by
    obtain ⟨ps, t, hsub, ht, hw⟩ := wire_of_noGap h
    rw [wire_cons, texts_cons, hw]
    rcases hc with hc | hc
    · refine ⟨c.payload.text :: ps, t, hsub.cons_cons _, ht, ?_⟩
      rw [Call.wire_of_full hc, encode_cons, List.append_assoc]
    · exact ⟨ps, t, hsub.cons _, ht, by rw [Call.wire_of_silent hc, List.nil_append]⟩
  | c :: cs, .inr ⟨hc, h⟩ => by
    have hlt : c.payload.text.length < 2 ^ 32 := c.payload.short.trans (by decide)
    rw [wire_cons, texts_cons, wire_of_silent h, List.append_nil]
    by_cases hf : c.wire = frame c.payload.text
    · exact ⟨[c.payload.text], [], (List.nil_sublist _).cons_cons _, partial_nil, by simp [hf]⟩
    · exact ⟨[], c.wire, List.nil_sublist _, partial_of_prefix hlt (Call.wire_of_tidy hc) hf, rfl⟩

/-- If no byte follows a message that was cut, the receiver returns only texts that were sent,
in their order and none of them twice. -/
theorem msgs_sublist_texts (cs : List Call) (h : NoGap cs) (as : List Arrival) (n : ℕ) :
    (msgs (H9Socket.new.recvs n ⟨wire cs, as⟩).1).Sublist (texts cs) := by
  obtain ⟨ps, t, hsub, ht, hw⟩ := wire_of_noGap h
  rw [hw]
  have hps : ∀ p ∈ ps, p.length < 2 ^ 32 ∧ 0 ∉ p := by
    intro p hp
    have := mem_texts (hsub.mem hp)
    exact ⟨this.2.2, this.2.1⟩
  exact ( msgs_recvs_prefix hps ht n as).sublist.trans hsub

/-- `ABC`, of which one byte goes out. -/
def cutCall : Call where
  payload := ⟨[65, 66, 67], by decide, by decide, by decide⟩
  header := .count 3
  text := .count 0

/-- After a failed call, a message in full and one that is cut. -/
theorem msgs_sublist_texts_cut :
    (msgs (H9Socket.new.recvs 12 ⟨wire [⟨helloCall.payload, .error .EPIPE, .zero⟩, helloCall,
      cutCall], List.replicate 12 (.bytes 3)⟩).1).Sublist [[72, 57], [72, 57], [65, 66, 67]] := by
  refine msgs_sublist_texts [⟨helloCall.payload, .error .EPIPE, .zero⟩, helloCall, cutCall] ?_ _ _
  refine Or.inl ⟨.inr (by rintro k ⟨⟩), Or.inl ⟨.inl helloCall_full, Or.inr ⟨?_, by simp⟩⟩⟩
  rintro j k ⟨⟩ -
  decide

/-- A message cut after one byte and then another: the receiver returns `A`, the byte and the
first two of the other's length. -/
theorem msgs_not_texts : ¬ ∀ (cs : List Call) (as : List Arrival) (n : ℕ),
    ∀ p ∈ msgs (H9Socket.new.recvs n ⟨wire cs, as⟩).1, p ∈ texts cs := by
  intro h
  have := h [cutCall, helloCall] [.bytes 3, .bytes 2] 1
  revert this
  decide +kernel

end H9
