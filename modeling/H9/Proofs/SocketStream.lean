import H9.Socket

/-!
# A stream read in pieces

`H9Socket::recv` resumes where the last call stopped. What it has of the message under way is
`held`; a call moves bytes of the stream behind it, and a message leaves when it is a whole
frame (`recv_spec`). So any number of calls cuts the stream into frames and one last piece
(`recvs_spec`), however the kernel splits it.
-/

namespace H9

open Framing

/-! ### The kernel's side -/

/-- From `k` to `k'` the bytes `bs` were read. An answer that lets bytes through moves at least
one while there are any. -/
def Inbound.Reads (k k' : Inbound) (bs : List UInt8) : Prop :=
  bs ++ k'.stream = k.stream ∧ k'.arrivals <:+ k.arrivals ∧
    (k'.stream = [] ∨ k'.stream.length + k.arrivals.countP (· matches .bytes _)
      ≤ k.stream.length + k'.arrivals.countP (· matches .bytes _))

/-- An answer was used, if there was one. -/
def Inbound.Shrinks (k k' : Inbound) : Prop :=
  k.arrivals = [] ∨ k'.arrivals.length < k.arrivals.length

namespace Inbound

theorem Reads.refl (k : Inbound) : k.Reads k [] :=
  ⟨rfl, List.suffix_refl _, .inr le_rfl⟩

theorem Reads.trans {k₁ k₂ k₃ : Inbound} {bs cs : List UInt8} (h : k₁.Reads k₂ bs)
    (h' : k₂.Reads k₃ cs) : k₁.Reads k₃ (bs ++ cs) := by
  obtain ⟨hs, ha, hc⟩ := h
  obtain ⟨hs', ha', hc'⟩ := h'
  refine ⟨by rw [List.append_assoc, hs', hs], ha'.trans ha, ?_⟩
  rcases hc' with hc' | hc'
  · exact .inl hc'
  rcases hc with hc | hc
  · rw [hc, List.append_eq_nil_iff] at hs'
    exact .inl hs'.2
  · exact .inr (by omega)

theorem recv_spec (k : Inbound) (n : ℕ) : ∃ bs, k.Reads (k.recv n).2 bs ∧
    ((k.recv n).1 = .zero ∨ k.Shrinks (k.recv n).2) ∧
    match (k.recv n).1 with
    | .bytes bs' => bs' = bs ∧ bs.length ≤ n ∧ bs ≠ []
    | .zero => bs = [] ∧ (n = 0 ∨ .eof ∈ k.arrivals)
    | .error e => bs = [] ∧ (e = .EAGAIN ∨ .error e ∈ k.arrivals) := by
  obtain ⟨stream, arrivals⟩ := k
  unfold recv
  by_cases hn : n = 0
  · rw [if_pos hn]
    exact ⟨[], .refl _, .inl rfl, rfl, .inl hn⟩
  rw [if_neg hn]
  rcases arrivals with _ | ⟨a, as⟩
  · exact ⟨[], .refl _, .inr (.inl rfl), rfl, .inl rfl⟩
  have hsuf : as <:+ a :: as := List.suffix_cons a as
  have hlt : as.length < (a :: as).length := Nat.lt_succ_self as.length
  rcases a with m | _ | _ | e <;> dsimp only
  · by_cases hs : stream = []
    · rw [if_pos hs]
      exact ⟨[], ⟨rfl, hsuf, .inl hs⟩, .inr (.inr hlt), rfl, .inl rfl⟩
    · rw [if_neg hs]
      have hpos := List.length_pos_iff.2 hs
      refine ⟨stream.take (min n (m + 1)), ⟨List.take_append_drop _ _, hsuf, .inr ?_⟩,
        .inr (.inr hlt), rfl, ?_, ?_⟩
      · simp only [List.length_drop, List.countP_cons_of_pos]
        omega
      · simp only [List.length_take]
        omega
      · refine List.length_pos_iff.1 ?_
        simp only [List.length_take]
        omega
  · exact ⟨[], ⟨rfl, hsuf, .inr (by simp)⟩, .inr (.inr hlt), rfl, .inl rfl⟩
  · exact ⟨[], ⟨rfl, hsuf, .inr (by simp)⟩, .inl rfl, rfl, .inr (by simp)⟩
  · exact ⟨[], ⟨rfl, hsuf, .inr (by simp)⟩, .inr (.inr hlt), rfl, .inr (by simp)⟩

end Inbound

/-! ### The buffers -/

theorem take_poke {mem : List UInt8} {off : ℕ} (h : off ≤ mem.length) (bs : List UInt8) :
    (poke mem off bs).take (off + bs.length) = mem.take off ++ bs := by
  rw [poke, List.take_left' (by simp only [List.length_append, List.length_take]; omega)]

theorem length_poke {mem : List UInt8} {off : ℕ} {bs : List UInt8}
    (h : off + bs.length ≤ mem.length) : (poke mem off bs).length = mem.length := by
  simp only [poke, List.length_append, List.length_take, List.length_drop]
  omega

theorem cstr_append_zero : ∀ bs r : List UInt8, cstr (bs ++ 0 :: r) = cstr bs
  | [], r => by simp [cstr]
  | b :: bs, r => by
    have ih := cstr_append_zero bs r
    unfold cstr at ih ⊢
    rw [List.cons_append, List.takeWhile_cons, List.takeWhile_cons, ih]

theorem cstr_eq_self {bs : List UInt8} (h : 0 ∉ bs) : cstr bs = bs := by
  refine List.takeWhile_eq_self_iff.2 fun b hb => ?_
  simp only [ne_eq, decide_eq_true_eq]
  rintro rfl
  exact h hb

theorem msgs_cons (r : RecvResult) (rs : List RecvResult) : msgs (r :: rs) = msgs [r] ++ msgs rs := by
  rcases r with p | _ | e <;> rfl

namespace H9Socket

/-- What has been received of the message under way. -/
def held (h : H9Socket) : List UInt8 :=
  h.header_buf.take h.recv_bytes ++ h.data_buf.take (h.recv_bytes - 4)

/-- Between two calls the counters agree with the length received. -/
structure Wf (h : H9Socket) : Prop where
  header : h.header_buf.length = 4
  data : h.data_buf.length = h.data_buf_len + 1
  due : h.recv_bytes < 4 ∧ h.bytes_to_recv = 4 ∨
    4 ≤ h.recv_bytes ∧ h.bytes_to_recv = 4 + ofBe h.header_buf ∧
      ofBe h.header_buf ≤ h.data_buf_len ∧
      (h.recv_bytes < h.bytes_to_recv ∨ ofBe h.header_buf = 0 ∧ h.recv_bytes = 4)

theorem wf_new : new.Wf := by
  refine ⟨rfl, ?_, .inl ⟨by decide, rfl⟩⟩
  simp only [new, List.length_replicate]

@[simp] theorem held_new : new.held = [] := rfl

theorem held_of_le {h : H9Socket} (hr : h.recv_bytes ≤ 4) :
    h.held = h.header_buf.take h.recv_bytes := by
  rw [held, Nat.sub_eq_zero_of_le hr, List.take_zero, List.append_nil]

theorem Wf.held_of_ge {h : H9Socket} (hw : h.Wf) (hr : 4 ≤ h.recv_bytes) :
    h.held = h.header_buf ++ h.data_buf.take (h.recv_bytes - 4) := by
  rw [held, List.take_of_length_le (by rw [hw.header]; exact hr)]

/-- What is held stops inside a frame, unless it is the frame of an empty text, which `recv`
cannot finish: it asks for no byte, and 0 is the answer. -/
theorem Wf.partial_or {h : H9Socket} (hw : h.Wf) : Partial h.held ∨ h.held = frame [] := by
  rcases hw.due with ⟨hr, -⟩ | ⟨hr, hb, hl, hlt | ⟨h0, h4⟩⟩
  · left; left
    rw [held_of_le (by omega), List.length_take]
    omega
  · left; right
    rw [hw.held_of_ge hr, List.take_left' hw.header, List.length_append, hw.header,
      List.length_take]
    omega
  · right
    rw [hw.held_of_ge hr, h4, Nat.sub_self, List.take_zero, List.append_nil, ← be32_ofBe hw.header,
      h0]
    rfl

/-- How a call ends that found `h` and left `h'`, having read `bs`. -/
def Outcome (h h' : H9Socket) (as : List Arrival) (bs : List UInt8) : RecvResult → Prop
  | .msg p => h'.held = [] ∧ ∃ q, (q.length < 2 ^ 32 ∧ q ≠ []) ∧ h.held ++ bs = frame q ∧ p = cstr q
  | .closed => h.held ++ bs = h'.held ∧ (.eof ∈ as ∨ h'.held = frame [])
  | .error e => h.held ++ bs = h'.held ∧ (e = .EAGAIN ∨ .error e ∈ as)

theorem Outcome.of_append {h₀ h h' : H9Socket} {as as₀ : List Arrival} {bs cs : List UInt8}
    (heq : h.held = h₀.held ++ cs) (has : as <:+ as₀) :
    ∀ {r : RecvResult}, Outcome h h' as bs r → Outcome h₀ h' as₀ (cs ++ bs) r
  | .msg p, ⟨he, q, hq, hf, hp⟩ =>
    ⟨he, q, hq, by rw [← hf, heq, List.append_assoc], hp⟩
  | .closed, ⟨he, hz⟩ =>
    ⟨by rw [← he, heq, List.append_assoc], hz.imp_left has.mem⟩
  | .error e, ⟨he, hz⟩ =>
    ⟨by rw [← he, heq, List.append_assoc], hz.imp_right has.mem⟩

/-- With bytes of the text in, what is held is the longer by them. -/
theorem Wf.held_data {h : H9Socket} (hw : h.Wf) (hr : 4 ≤ h.recv_bytes) (bs : List UInt8) :
    h.header_buf ++ (poke h.data_buf (h.recv_bytes - 4) bs).take (h.recv_bytes + bs.length - 4)
      = h.held ++ bs := by
  have hd := hw.data
  have hoff : h.recv_bytes - 4 ≤ h.data_buf.length := by
    rcases hw.due with ⟨h4, -⟩ | ⟨-, hb, hl, h' | ⟨h', h''⟩⟩ <;> omega
  rw [hw.held_of_ge hr, List.append_assoc, ← take_poke hoff bs]
  congr 2
  omega

theorem recv_data_spec {h : H9Socket} (hw : h.Wf) (hr : 4 ≤ h.recv_bytes) (k : Inbound) :
    (h.recv_data k).2.1.Wf ∧ ((h.recv_data k).1 = .closed ∨ k.Shrinks (h.recv_data k).2.2) ∧
      ∃ bs, k.Reads (h.recv_data k).2.2 bs ∧
        Outcome h (h.recv_data k).2.1 k.arrivals bs (h.recv_data k).1 := by
  obtain ⟨bs, hreads, hshr, hm⟩ := k.recv_spec (h.bytes_to_recv - h.recv_bytes)
  unfold recv_data
  rcases hk : k.recv (h.bytes_to_recv - h.recv_bytes) with ⟨bs' | _ | e, k'⟩ <;>
    rw [hk] at hm hreads hshr <;> dsimp only at hm hreads hshr ⊢
  · obtain ⟨rfl, hlen, hne⟩ := hm
    have hpos := List.length_pos_iff.2 hne
    have hheld := hw.held_data hr bs'
    have hd := hw.data
    rcases hw.due with ⟨h4, -⟩ | ⟨-, hb, hl, hlt⟩
    · omega
    have hfit : h.recv_bytes - 4 + bs'.length ≤ h.data_buf.length := by omega
    have hpoke := length_poke hfit
    unfold finish
    dsimp only
    by_cases hd : h.recv_bytes + bs'.length < h.bytes_to_recv
    · rw [if_pos hd]
      have hw' : Wf { h with
          data_buf := poke h.data_buf (h.recv_bytes - 4) bs'
          recv_bytes := h.recv_bytes + bs'.length } :=
        ⟨hw.header, by rw [hpoke]; exact hw.data, .inr ⟨by dsimp only; omega, hb, hl, .inl hd⟩⟩
      refine ⟨hw', .inr (hshr.resolve_left (by simp)), bs', hreads, ?_, .inl rfl⟩
      rw [hw'.held_of_ge (by dsimp only; omega), ← hheld]
    · rw [if_neg hd]
      have hfull : h.recv_bytes + bs'.length = h.bytes_to_recv := by omega
      refine ⟨⟨hw.header, ?_, .inl ⟨Nat.succ_pos 3, rfl⟩⟩,
        .inr (hshr.resolve_left (by simp)), bs', hreads, rfl,
        (poke h.data_buf (h.recv_bytes - 4) bs').take (h.recv_bytes + bs'.length - 4), ?_, ?_, ?_⟩
      · dsimp only
        rw [length_poke (by rw [hpoke, List.length_singleton]; omega), hpoke, hw.data]
      · have := ofBe_lt hw.header
        refine ⟨by rw [List.length_take]; omega, List.length_pos_iff.1 ?_⟩
        rw [List.length_take]
        omega
      · rw [← hheld, frame, List.length_take, hpoke, ← be32_ofBe hw.header]
        congr 3
        omega
      · rw [poke, List.append_assoc, List.singleton_append, cstr_append_zero]
  · obtain ⟨rfl, hz⟩ := hm
    refine ⟨hw, .inl rfl, [], hreads, List.append_nil _, hz.symm.imp_right fun h0 => ?_⟩
    rcases hw.partial_or with hp | hp
    · rcases hw.due with ⟨h4, -⟩ | ⟨-, hb, hl, hlt | ⟨hz, h4⟩⟩
      · omega
      · omega
      · rw [hw.held_of_ge hr, h4, Nat.sub_self, List.take_zero, List.append_nil,
          ← be32_ofBe hw.header, hz]
        rfl
    · exact hp
  · obtain ⟨rfl, hz⟩ := hm
    exact ⟨hw, .inr (hshr.resolve_left (by simp)), [], hreads, List.append_nil _, hz⟩

theorem Wf.grow {h : H9Socket} (hh : h.header_buf.length = 4)
    (hd : h.data_buf.length = h.data_buf_len + 1) (hr : h.recv_bytes = 4)
    (hb : h.bytes_to_recv = 4) : h.grow.Wf := by
  unfold H9Socket.grow
  dsimp only
  split_ifs with hlt
  · refine ⟨hh, ?_, .inr ⟨by dsimp only; omega, by dsimp only; omega, le_rfl, ?_⟩⟩
    · simp only [List.length_append, List.length_replicate]
      omega
    · dsimp only
      omega
  · exact ⟨hh, hd, .inr ⟨by dsimp only; omega, by dsimp only; omega, by dsimp only; omega, by
      dsimp only; omega⟩⟩

@[simp] theorem grow_header_buf (h : H9Socket) : h.grow.header_buf = h.header_buf := by
  unfold H9Socket.grow
  dsimp only
  split_ifs <;> rfl

@[simp] theorem grow_recv_bytes (h : H9Socket) : h.grow.recv_bytes = h.recv_bytes := by
  unfold H9Socket.grow
  dsimp only
  split_ifs <;> rfl

/-- One call: the bytes it read are behind what was held, and they leave together as soon as
they are a frame. -/
theorem recv_spec {h : H9Socket} (hw : h.Wf) (k : Inbound) :
    (h.recv k).2.1.Wf ∧ ((h.recv k).1 = .closed ∨ k.Shrinks (h.recv k).2.2) ∧ ∃ bs, k.Reads (h.recv k).2.2 bs ∧
      Outcome h (h.recv k).2.1 k.arrivals bs (h.recv k).1 := by
  by_cases hr : h.recv_bytes < 4
  swap
  · rw [recv, if_neg hr]
    exact recv_data_spec hw (by omega) k
  obtain ⟨-, hb⟩ : h.recv_bytes < 4 ∧ h.bytes_to_recv = 4 := by
    rcases hw.due with h' | ⟨h', -⟩
    · exact h'
    · omega
  have hheld := held_of_le hr.le
  have hh := hw.header
  obtain ⟨bs, hreads, hshr, hm⟩ := k.recv_spec (4 - h.recv_bytes)
  rw [recv, if_pos hr]
  rcases hk : k.recv (4 - h.recv_bytes) with ⟨bs' | _ | e, k'⟩ <;>
    rw [hk] at hm hreads hshr <;> dsimp only at hm hreads hshr ⊢
  · obtain ⟨rfl, hlen, -⟩ := hm
    have hfit : h.recv_bytes + bs'.length ≤ h.header_buf.length := by omega
    have hpoke : (poke h.header_buf h.recv_bytes bs').length = 4 := by rw [length_poke hfit, hh]
    have htake := take_poke (by omega : h.recv_bytes ≤ h.header_buf.length) bs'
    by_cases h4 : h.recv_bytes + bs'.length = 4
    · rw [if_pos h4]
      set g : H9Socket := { h with
        header_buf := poke h.header_buf h.recv_bytes bs'
        recv_bytes := h.recv_bytes + bs'.length } with hg
      have hgw : g.grow.Wf := Wf.grow hpoke hw.data h4 hb
      have hgheld : g.grow.held = h.held ++ bs' := by
        rw [held_of_le (by rw [grow_recv_bytes]; exact h4.le), grow_header_buf, grow_recv_bytes,
          hheld, ← htake]
      have hge : 4 ≤ g.grow.recv_bytes := by rw [grow_recv_bytes]; exact h4.ge
      obtain ⟨hw', -, cs, hreads', ho⟩ := recv_data_spec hgw hge k'
      exact ⟨hw', .inr ((hshr.resolve_left (by simp)).imp_right hreads'.2.1.length_le.trans_lt),
        bs' ++ cs, hreads.trans hreads', ho.of_append hgheld hreads.2.1⟩
    · rw [if_neg h4, finish, if_pos (by dsimp only; omega)]
      have hlt : h.recv_bytes + bs'.length < 4 := by omega
      refine ⟨⟨hpoke, hw.data, .inl ⟨hlt, hb⟩⟩, ?_, bs', hreads, ?_, .inl rfl⟩
      · exact .inr (hshr.resolve_left (by simp))
      · rw [hheld, ← htake]
        refine Eq.symm (held_of_le ?_)
        exact Nat.le_of_lt hlt
  · obtain ⟨rfl, hz⟩ := hm
    exact ⟨hw, .inl rfl, [], hreads, List.append_nil _, hz.elim (fun h0 => by omega) .inl⟩
  · obtain ⟨rfl, hz⟩ := hm
    exact ⟨hw, .inr (hshr.resolve_left (by simp)), [], hreads, List.append_nil _, hz⟩

/-- What a call may return on a stream of `bs` with the answers `as`. -/
def Legit (as : List Arrival) (bs : List UInt8) : RecvResult → Prop
  | .msg _ => True
  | .closed => .eof ∈ as ∨ ∃ qs t, (∀ q ∈ qs, q.length < 2 ^ 32) ∧ bs = encode qs ++ (frame [] ++ t)
  | .error e => e = .EAGAIN ∨ .error e ∈ as

theorem Legit.mono {as as' : List Arrival} {bs : List UInt8} {qs : List (List UInt8)}
    (has : as' <:+ as) (hqs : ∀ q ∈ qs, q.length < 2 ^ 32) :
    ∀ {r : RecvResult}, Legit as' bs r → Legit as (encode qs ++ bs) r
  | .msg _, _ => trivial
  | .closed, .inl h => .inl (has.mem h)
  | .closed, .inr ⟨qs', t, hqs', h⟩ => by
    refine .inr ⟨qs ++ qs', t, fun q hq => ?_, by rw [h, encode_append, List.append_assoc]⟩
    rcases List.mem_append.1 hq with hq | hq
    · exact hqs q hq
    · exact hqs' q hq
  | .error _, h => h.imp_right has.mem

/-- A call takes at most one frame off the stream. -/
theorem recv_cut {h : H9Socket} (hw : h.Wf) (k : Inbound) :
    ∃ qs, (∀ q ∈ qs, q.length < 2 ^ 32 ∧ q ≠ []) ∧ msgs [(h.recv k).1] = qs.map cstr ∧
      h.held ++ k.stream = encode qs ++ ((h.recv k).2.1.held ++ (h.recv k).2.2.stream) ∧
      Legit k.arrivals (h.held ++ k.stream) (h.recv k).1 := by
  obtain ⟨-, -, bs, ⟨hs, -, -⟩, ho⟩ := recv_spec hw k
  rcases hr : (h.recv k).1 with p | _ | e <;> rw [hr] at ho
  · obtain ⟨he, q, hq, hf, rfl⟩ := ho
    refine ⟨[q], by simpa using hq, rfl, ?_, trivial⟩
    rw [he, ← hs, ← List.append_assoc, hf, encode_cons, encode_nil, List.append_nil,
      List.nil_append]
  · obtain ⟨he, hz⟩ := ho
    have heq : h.held ++ k.stream = (h.recv k).2.1.held ++ (h.recv k).2.2.stream := by
      rw [← hs, ← List.append_assoc, he]
    refine ⟨[], by simp, rfl, heq, hz.imp_right fun hz => ?_⟩
    exact ⟨[], (h.recv k).2.2.stream, by simp, by rw [heq, hz]; rfl⟩
  · obtain ⟨he, hz⟩ := ho
    exact ⟨[], by simp, rfl, by rw [← hs, ← List.append_assoc, he]; rfl, hz⟩

/-- Any number of calls: frames off the stream, in its order, and one last piece held. -/
theorem recvs_spec : ∀ (n : ℕ) {h : H9Socket} (_ : h.Wf) (k : Inbound),
    (h.recvs n k).2.1.Wf ∧ (∃ bs, k.Reads (h.recvs n k).2.2 bs) ∧
      (∃ qs, (∀ q ∈ qs, q.length < 2 ^ 32 ∧ q ≠ []) ∧ msgs (h.recvs n k).1 = qs.map cstr ∧
        h.held ++ k.stream = encode qs ++ ((h.recvs n k).2.1.held ++ (h.recvs n k).2.2.stream)) ∧
      (∀ r ∈ (h.recvs n k).1, Legit k.arrivals (h.held ++ k.stream) r) ∧
      ((h.recvs n k).1.contains .closed ∨
        (h.recvs n k).2.2.arrivals.length ≤ k.arrivals.length - n)
  | 0, h, hw, k =>
    ⟨hw, ⟨[], .refl k⟩, ⟨[], by simp, rfl, rfl⟩, by simp [recvs], .inr le_rfl⟩
  | n + 1, h, hw, k => by
    obtain ⟨hw₁, hshr, bs, hreads, -⟩ := recv_spec hw k
    obtain ⟨qs, hqs, hm, heq, hleg⟩ := recv_cut hw k
    obtain ⟨hw₂, ⟨cs, hreads'⟩, ⟨rs, hrs, hm', heq'⟩, hleg', hlen⟩ :=
      recvs_spec n hw₁ (h.recv k).2.2
    simp only [recvs]
    refine ⟨hw₂, ⟨_, hreads.trans hreads'⟩, ⟨qs ++ rs, ?_, ?_, ?_⟩, ?_, ?_⟩
    · intro q hq
      rcases List.mem_append.1 hq with hq | hq
      · exact hqs q hq
      · exact hrs q hq
    · rw [List.map_append, ← hm, ← hm', msgs_cons]
    · rw [heq, heq', encode_append, List.append_assoc]
    · intro r hr
      rcases List.mem_cons.1 hr with rfl | hr
      · exact hleg
      · rw [heq]
        exact (hleg' r hr).mono hreads.2.1 fun q hq => (hqs q hq).1
    · simp only [List.contains_cons, Bool.or_eq_true, beq_iff_eq]
      rcases hlen with hc | hlen
      · exact .inl (.inr hc)
      rcases hshr with hc | hnil | hlt
      · exact .inl (.inl hc.symm)
      · right
        have := hreads'.2.1.length_le.trans hreads.2.1.length_le
        rw [hnil] at this ⊢
        simpa using this
      · right
        omega

end H9Socket

/-- The empty text has no frame in a stream of texts that are not empty. -/
theorem encode_append_ne {ps qs : List (List UInt8)} {s t : List UInt8}
    (hps : ∀ p ∈ ps, p.length < 2 ^ 32 ∧ p ≠ []) (ht : Partial t)
    (hqs : ∀ q ∈ qs, q.length < 2 ^ 32) : encode qs ++ (frame [] ++ s) ≠ encode ps ++ t := by
  intro h
  have heq : encode (qs ++ [[]]) ++ s = encode ps ++ t := by
    simp [← h]
  have hpre := prefix_of_encode (fun q hq => ?_) (fun p hp => (hps p hp).1) ht heq
  · exact (hps [] (hpre.mem (by simp))).2 rfl
  · rcases List.mem_append.1 hq with hq | hq
    · exact hqs q hq
    · rw [List.mem_singleton.1 hq]
      decide

/-- Fed the frames of `ps` and a piece of one more, a receiver takes frames of `ps` off the
stream, the first ones. -/
theorem recvs_prefix {ps : List (List UInt8)} (hps : ∀ p ∈ ps, p.length < 2 ^ 32) {t : List UInt8}
    (ht : Partial t) (as : List Arrival) (n : ℕ) :
    ∃ qs, (∀ q ∈ qs, q ≠ []) ∧ qs <+: ps ∧
      msgs (H9Socket.new.recvs n ⟨encode ps ++ t, as⟩).1 = qs.map cstr := by
  obtain ⟨-, -, ⟨qs, hqs, hm, heq⟩, -⟩ := H9Socket.recvs_spec n H9Socket.wf_new ⟨encode ps ++ t, as⟩
  rw [H9Socket.held_new, List.nil_append] at heq
  exact ⟨qs, fun q hq => (hqs q hq).2,
    prefix_of_encode (fun q hq => (hqs q hq).1) hps ht heq.symm, hm⟩

/-- Fed the frames of texts that are not empty, and a piece of one more, a receiver loses no
byte, and has taken all of these frames once it has read everything. -/
theorem recvs_frames {ps : List (List UInt8)} (hps : ∀ p ∈ ps, p.length < 2 ^ 32 ∧ p ≠ [])
    {t : List UInt8} (ht : Partial t) (as : List Arrival)
    (hlive : ∀ a ∈ as, a = .wouldBlock ∨ ∃ k, a = .bytes k) (n : ℕ) :
    let out := H9Socket.new.recvs n ⟨encode ps ++ t, as⟩
    (∀ r ∈ out.1, r = .error .EAGAIN ∨ ∃ p, r = .msg p) ∧
      (∃ qs, qs <+: ps ∧ msgs out.1 = qs.map cstr ∧
        encode qs ++ out.2.1.held ++ out.2.2.stream = encode ps ++ t ∧
        (out.2.2.stream = [] → qs = ps)) ∧
      ((encode ps ++ t).length ≤ as.countP (· matches .bytes _) → as.length ≤ n →
        out.2.2.stream = []) := by
  intro out
  have hlt : ∀ p ∈ ps, p.length < 2 ^ 32 := fun p hp => (hps p hp).1
  obtain ⟨hw, ⟨bs, hreads⟩, ⟨qs, hqs, hm, heq⟩, hleg, hlen⟩ :=
    H9Socket.recvs_spec n H9Socket.wf_new ⟨encode ps ++ t, as⟩
  change out.2.1.Wf at hw
  change Inbound.Reads _ out.2.2 bs at hreads
  change msgs out.1 = _ at hm
  change _ = _ ++ (out.2.1.held ++ out.2.2.stream) at heq
  change ∀ r ∈ out.1, _ at hleg
  change _ ∨ out.2.2.arrivals.length ≤ as.length - n at hlen
  simp only [H9Socket.held_new, List.nil_append] at heq hleg
  have hqlt : ∀ q ∈ qs, q.length < 2 ^ 32 := fun q hq => (hqs q hq).1
  have hres : ∀ r ∈ out.1, r = .error .EAGAIN ∨ ∃ p, r = .msg p := by
    intro r hr
    rcases r with p | _ | e
    · exact .inr ⟨p, rfl⟩
    · rcases hleg _ hr with heof | ⟨qs', t', hqs', h⟩
      · rcases hlive _ heof with h | ⟨k, h⟩ <;> simp at h
      · exact absurd h.symm (encode_append_ne hps ht hqs')
    · rcases hleg _ hr with rfl | he
      · exact .inl rfl
      · rcases hlive _ he with h | ⟨k, h⟩ <;> simp at h
  refine ⟨hres, ⟨qs, prefix_of_encode hqlt hlt ht heq.symm, hm, by rw [heq, List.append_assoc],
    fun hnil => ?_⟩, fun hall hn => ?_⟩
  · rw [hnil, List.append_nil] at heq
    rcases hw.partial_or with hp | hp
    · exact (eq_of_encode hlt hqlt ht hp heq).1.symm
    · rw [hp, ← List.append_nil (frame [])] at heq
      exact absurd heq.symm (encode_append_ne hps ht hqlt)
  · rcases hlen with hc | hlen
    · rcases hres .closed (List.contains_iff_mem.1 hc) with h | ⟨p, h⟩ <;> simp at h
    have harr : out.2.2.arrivals = [] := List.length_eq_zero_iff.1 (by omega)
    rcases hreads.2.2 with h | h
    · exact h
    · rw [harr] at h
      refine List.length_eq_zero_iff.1 ?_
      simp only [List.countP_nil] at h
      omega

theorem map_cstr_of_prefix {ps qs : List (List UInt8)} (hps : ∀ p ∈ ps, 0 ∉ p) (h : qs <+: ps) :
    qs.map cstr = qs := by
  rw [List.map_congr_left fun q hq => cstr_eq_self (hps q (h.mem hq)), List.map_id']

/-- A receiver fed frames and a piece of one more returns their texts, the first ones. -/
theorem msgs_recvs_prefix {ps : List (List UInt8)} (hps : ∀ p ∈ ps, p.length < 2 ^ 32 ∧ 0 ∉ p)
    {t : List UInt8} (ht : Partial t) (n : ℕ) (as : List Arrival) :
    msgs (H9Socket.new.recvs n ⟨encode ps ++ t, as⟩).1 <+: ps := by
  obtain ⟨qs, -, hpre, hm⟩ := recvs_prefix (fun p hp => (hps p hp).1) ht as n
  rw [hm, map_cstr_of_prefix (fun p hp => (hps p hp).2) hpre]
  exact hpre

/-- Fed the frames of `ps` and a piece of one more, a receiver returns texts of `ps` or `EAGAIN`,
loses no byte, and returns all of `ps` once it has read everything. -/
theorem recvs_encode {ps : List (List UInt8)} (hps : ∀ p ∈ ps, p ≠ [] ∧ 0 ∉ p ∧ p.length < 2 ^ 32)
    {t : List UInt8} (ht : Partial t) (as : List Arrival)
    (hlive : ∀ a ∈ as, a = .wouldBlock ∨ ∃ k, a = .bytes k) (n : ℕ) :
    let out := H9Socket.new.recvs n ⟨encode ps ++ t, as⟩
    (∀ r ∈ out.1, r = .error .EAGAIN ∨ ∃ p, r = .msg p) ∧
      msgs out.1 <+: ps ∧
      encode (msgs out.1) ++ out.2.1.held ++ out.2.2.stream = encode ps ++ t ∧
      (out.2.2.stream = [] → msgs out.1 = ps) ∧
      ((encode ps ++ t).length ≤ as.countP (· matches .bytes _) → as.length ≤ n →
        out.2.2.stream = []) := by
  obtain ⟨hres, ⟨qs, hpre, hm, heq, hall⟩, hdrain⟩ :=
    recvs_frames (fun p hp => ⟨(hps p hp).2.2, (hps p hp).1⟩) ht as hlive n
  rw [ map_cstr_of_prefix (fun p hp => (hps p hp).2.1) hpre] at hm
  dsimp only
  rw [hm]
  exact ⟨hres, hpre, heq, hall, hdrain⟩

theorem Call.wire_of_full {c : Call} (h : c.Full) : c.wire = frame c.payload.text := by
  obtain ⟨j, k, hh, hj, ht, hk⟩ := h
  have hne := List.length_pos_iff.2 c.payload.ne_nil
  unfold Call.wire H9Socket.send frame
  rw [hh, ht]
  simp only [SendAnswer.taken, List.take_of_length_le hk,
    List.take_of_length_le ((length_be32 _).le.trans hj)]
  rw [if_neg (by omega)]
  simp

/-- The texts of the calls. -/
def texts (cs : List Call) : List (List UInt8) := cs.map fun c => c.payload.text

@[simp] theorem texts_cons (c : Call) (cs : List Call) :
    texts (c :: cs) = c.payload.text :: texts cs := rfl

@[simp] theorem wire_cons (c : Call) (cs : List Call) : wire (c :: cs) = c.wire ++ wire cs := rfl

theorem mem_texts {cs : List Call} {p : List UInt8} (h : p ∈ texts cs) :
    p ≠ [] ∧ 0 ∉ p ∧ p.length < 2 ^ 32 := by
  obtain ⟨c, -, rfl⟩ := List.mem_map.1 h
  exact ⟨c.payload.ne_nil, c.payload.nul_free, c.payload.short.trans (by decide)⟩

theorem wire_of_full : ∀ {cs : List Call}, (∀ c ∈ cs, c.Full) → wire cs = encode (texts cs)
  | [], _ => rfl
  | c :: cs, h => by
    have ih := wire_of_full fun d hd => h d (List.mem_cons_of_mem c hd)
    rw [wire_cons, texts_cons, ih, Call.wire_of_full (h c List.mem_cons_self), encode_cons]

/-- However the kernel splits the stream of messages sent in full, the calls return these
messages, each once and in order, or `EAGAIN`, and the bytes not yet returned are held or on
their way. With an answer for each byte and a call for each answer all messages are returned. -/
theorem recvs_wire (cs : List Call) (hfull : ∀ c ∈ cs, c.Full) (as : List Arrival)
    (hlive : ∀ a ∈ as, a = .wouldBlock ∨ ∃ k, a = .bytes k) (n : ℕ) :
    let out := H9Socket.new.recvs n ⟨wire cs, as⟩
    (∀ r ∈ out.1, r = .error .EAGAIN ∨ ∃ p, r = .msg p) ∧
      msgs out.1 <+: texts cs ∧
      encode (msgs out.1) ++ out.2.1.held ++ out.2.2.stream = wire cs ∧
      (out.2.2.stream = [] → msgs out.1 = texts cs) ∧
      ((wire cs).length ≤ as.countP (· matches .bytes _) → as.length ≤ n →
        out.2.2.stream = []) := by
  have h := recvs_encode (fun p (hp : p ∈ texts cs) => mem_texts hp) partial_nil as hlive n
  rw [List.append_nil, ← wire_of_full hfull] at h
  exact h

/-- The text `H9`, sent in full. -/
def helloCall : Call where
  payload := ⟨[72, 57], by decide, by decide, by decide⟩
  header := .count 3
  text := .count 1

theorem helloCall_full : helloCall.Full :=
  ⟨3, 1, rfl, by decide, rfl, by decide⟩

/-- Two messages, in pieces that end inside a header and inside a text. -/
theorem recvs_wire_hello :
    msgs (H9Socket.new.recvs 13 ⟨wire [helloCall, helloCall],
      .wouldBlock :: List.replicate 12 (.bytes 1)⟩).1 = [[72, 57], [72, 57]] := by
  have hfull : ∀ c ∈ [helloCall, helloCall], c.Full := by
    simp only [List.mem_cons, List.not_mem_nil, or_false]
    rintro c (rfl | rfl) <;> exact helloCall_full
  have hlive : ∀ a ∈ Arrival.wouldBlock :: List.replicate 12 (.bytes 1),
      a = .wouldBlock ∨ ∃ k, a = .bytes k := by
    simp only [List.mem_cons, List.mem_replicate]
    rintro a (rfl | ⟨-, rfl⟩)
    · exact .inl rfl
    · exact .inr ⟨1, rfl⟩
  obtain ⟨-, -, -, hall, hdrain⟩ := recvs_wire [helloCall, helloCall] hfull _ hlive 13
  exact hall (hdrain (by decide) (by decide))

end H9
