import H9.MsgSocket
import H9.Proofs.SocketStream

/-!
# Receiving a payload

`H9MsgSocket::recv` passes on what `H9Socket::recv` returns, and parses a text. The parser's
failure is an exception in a function that may not throw, so a payload is handled if and only
if it parses, or never becomes a text because it is empty.
-/

namespace H9

open Framing

namespace H9MsgSocket

variable (xmlReadMemory : List UInt8 → Option XmlDoc)

/-- A result the callers handle: a document, the end of the connection, or a message not yet
complete. -/
def Handled : Except Exn MsgResult → Prop
  | .ok (.msg _) => True
  | .ok .closed => True
  | .ok (.error e) => e = .EAGAIN
  | .error _ => False

theorem handled_convert {r : RecvResult} (he : ∀ e, r = .error e → e = .EAGAIN)
    (hp : ∀ p, r = .msg p → (xmlReadMemory p).isSome) : Handled (convert xmlReadMemory r) := by
  rcases r with p | _ | e
  · obtain ⟨doc, hdoc⟩ := Option.isSome_iff_exists.1 (hp p rfl)
    simp only [convert, parse, hdoc]
    trivial
  · trivial
  · exact he e rfl

theorem not_handled_convert {p : List UInt8} (hp : xmlReadMemory p = none) :
    convert xmlReadMemory (.msg p) = .error .terminate := by
  simp only [convert, parse, hp]
  rfl

theorem noexcept_convert (r : RecvResult) :
    noexcept (convert xmlReadMemory r) = convert xmlReadMemory r := by
  rcases r with p | _ | e
  · rcases hp : xmlReadMemory p with _ | doc <;> simp only [convert, parse, hp] <;> rfl
  · rfl
  · rfl

/-- What the calls return is made of what `H9Socket::recv` returned. -/
theorem mem_recvs : ∀ (n : ℕ) (h : H9Socket) (k : Inbound),
    ∀ r ∈ recvs xmlReadMemory n h k, ∃ r₀ ∈ (h.recvs n k).1, r = convert xmlReadMemory r₀
  | 0, _, _, r, hr => by simp [recvs] at hr
  | n + 1, h, k, r, hr => by
    simp only [recvs, H9Socket.recvs, recv] at hr ⊢
    rcases hc : convert xmlReadMemory (h.recv k).1 with e | m <;> rw [hc] at hr
    · rw [List.mem_singleton.1 hr, ← hc]
      exact ⟨_, List.mem_cons_self, rfl⟩
    · rcases List.mem_cons.1 hr with rfl | hr
      · exact ⟨_, List.mem_cons_self, hc.symm⟩
      · obtain ⟨r₀, hr₀, rfl⟩ := mem_recvs n _ _ r hr
        exact ⟨r₀, List.mem_cons_of_mem _ hr₀, rfl⟩

theorem recv_complete_msg_eq : ∀ (n : ℕ) (h : H9Socket) (k : Inbound) {r : Except Exn MsgResult},
    recv_complete_msg xmlReadMemory n h k = some r →
      ∃ r₀ ∈ (h.recvs n k).1, r = convert xmlReadMemory r₀
  | 0, _, _, r, hr => by simp [recv_complete_msg] at hr
  | n + 1, h, k, r, hr => by
    simp only [recv_complete_msg, H9Socket.recvs, recv] at hr ⊢
    split at hr
    · obtain ⟨r₀, hr₀, rfl⟩ := recv_complete_msg_eq n _ _ hr
      exact ⟨r₀, List.mem_cons_of_mem _ hr₀, rfl⟩
    · refine ⟨_, List.mem_cons_self, ?_⟩
      rw [← Option.some.inj hr, noexcept_convert]

/-- A call that gets a text that does not parse is the last one, and throws. -/
theorem terminate_mem_recvs : ∀ (n : ℕ) (h : H9Socket) (k : Inbound) {p : List UInt8},
    .msg p ∈ (h.recvs n k).1 → xmlReadMemory p = none →
      ∃ r ∈ recvs xmlReadMemory n h k, ¬ Handled r
  | 0, _, _, p, hp, _ => by simp [H9Socket.recvs] at hp
  | n + 1, h, k, p, hp, hnone => by
    simp only [recvs, H9Socket.recvs, recv] at hp ⊢
    rcases hc : convert xmlReadMemory (h.recv k).1 with e | m
    · exact ⟨.error e, List.mem_singleton.2 rfl, fun hh => hh⟩
    · rcases List.mem_cons.1 hp with heq | hp
      · rw [← heq, not_handled_convert xmlReadMemory hnone] at hc
        simp at hc
      · obtain ⟨r, hr, hh⟩ := terminate_mem_recvs n _ _ hp hnone
        exact ⟨r, List.mem_cons_of_mem _ hr, hh⟩

/-- What `H9Socket::recv` returns while the frame of a payload comes in. -/
theorem recvs_payload {payload : List UInt8} (hlen : payload.length < 2 ^ 32) (as : List Arrival)
    (hlive : ∀ a ∈ as, a = .wouldBlock ∨ a = .eof ∨ ∃ k, a = .bytes k) (n : ℕ) :
    ∀ r ∈ (H9Socket.new.recvs n ⟨frame payload, as⟩).1,
      (∀ e, r = .error e → e = .EAGAIN) ∧ ∀ p, r = .msg p → payload ≠ [] ∧ p = cstr payload := by
  intro r hr
  have hstream : frame payload = encode [payload] ++ [] := by simp
  refine ⟨fun e he => ?_, fun p hp => ?_⟩
  · obtain ⟨-, -, -, hleg, -⟩ := H9Socket.recvs_spec n H9Socket.wf_new ⟨frame payload, as⟩
    have h := hleg r hr
    rw [he] at h
    rcases h with rfl | h
    · rfl
    · rcases hlive _ h with h | h | ⟨k, h⟩ <;> simp at h
  · rw [hstream] at hr
    obtain ⟨qs, hne, hpre, hm⟩ :=
      recvs_prefix (by simpa using hlen : ∀ p ∈ [payload], p.length < 2 ^ 32) partial_nil as n
    have hmem : p ∈ qs.map cstr := by
      rw [← hm]
      exact List.mem_filterMap.2 ⟨r, hr, by rw [hp]⟩
    obtain ⟨q, hq, rfl⟩ := List.mem_map.1 hmem
    obtain rfl : q = payload := by simpa using hpre.mem hq
    exact ⟨hne q hq, rfl⟩

/-- With an answer for each of its bytes, the frame of a payload that is not empty becomes a
text. -/
theorem msg_mem_recvs {payload : List UInt8} (hlen : payload.length < 2 ^ 32)
    (hne : payload ≠ []) :
    .msg (cstr payload) ∈ (H9Socket.new.recvs (frame payload).length
      ⟨frame payload, List.replicate (frame payload).length (.bytes 0)⟩).1 := by
  set n := (frame payload).length with hn
  have hstream : encode [payload] ++ [] = frame payload := by simp
  have hlive : ∀ a ∈ List.replicate n (Arrival.bytes 0), a = .wouldBlock ∨ ∃ k, a = .bytes k :=
    fun a ha => .inr ⟨0, (List.mem_replicate.1 ha).2⟩
  obtain ⟨-, ⟨qs, -, hm, -, hall⟩, hdrain⟩ :=
    recvs_frames (by simpa using ⟨hlen, hne⟩ : ∀ p ∈ [payload], p.length < 2 ^ 32 ∧ p ≠ [])
      partial_nil _ hlive n
  rw [hstream] at hm hall hdrain
  have hq := hall (hdrain (by rw [List.countP_replicate, if_pos rfl]) (by simp))
  rw [hq] at hm
  have hmem : cstr payload ∈ msgs (H9Socket.new.recvs n
      ⟨frame payload, List.replicate n (.bytes 0)⟩).1 := by
    rw [hm]
    exact List.mem_singleton.2 rfl
  obtain ⟨r, hr, hrp⟩ := List.mem_filterMap.1 hmem
  rcases r with p | _ | e
  · obtain rfl : p = cstr payload := by simpa using hrp
    exact hr
  · simp at hrp
  · simp at hrp

/-- However the frame of a payload comes in, all calls return a result the callers handle if and
only if the payload is empty or its text parses. -/
theorem handled_iff (payload : List UInt8) (hlen : payload.length < 2 ^ 32) :
    (∀ (as : List Arrival) (_ : ∀ a ∈ as, a = .wouldBlock ∨ a = .eof ∨ ∃ k, a = .bytes k) (n : ℕ),
      (∀ r ∈ recvs xmlReadMemory n H9Socket.new ⟨frame payload, as⟩, Handled r) ∧
      ∀ r, recv_complete_msg xmlReadMemory n H9Socket.new ⟨frame payload, as⟩ = some r →
        Handled r) ↔
    payload = [] ∨ (xmlReadMemory (cstr payload)).isSome := by
  refine ⟨fun h => ?_, fun h as hlive n => ?_⟩
  · by_contra hc
    push Not at hc
    have hnone : xmlReadMemory (cstr payload) = none := by simpa using hc.2
    obtain ⟨r, hr, hh⟩ :=
      terminate_mem_recvs xmlReadMemory _ _ _ (msg_mem_recvs hlen hc.1) hnone
    exact hh ((h _ (fun a ha => .inr (.inr ⟨0, (List.mem_replicate.1 ha).2⟩)) _).1 r hr)
  · have hall : ∀ r₀ ∈ (H9Socket.new.recvs n ⟨frame payload, as⟩).1,
        Handled (convert xmlReadMemory r₀) := by
      intro r₀ hr₀
      obtain ⟨he, hp⟩ := recvs_payload hlen as hlive n r₀ hr₀
      refine handled_convert xmlReadMemory he fun p hpr => ?_
      obtain ⟨hne, rfl⟩ := hp p hpr
      exact h.resolve_left hne
    refine ⟨fun r hr => ?_, fun r hr => ?_⟩
    · obtain ⟨r₀, hr₀, rfl⟩ := mem_recvs xmlReadMemory n _ _ r hr
      exact hall r₀ hr₀
    · obtain ⟨r₀, hr₀, rfl⟩ := recv_complete_msg_eq xmlReadMemory n _ _ hr
      exact hall r₀ hr₀

/-- What libxml2 makes of `<h9/>`, and of a text without a tag. -/
def parseRoot (text : List UInt8) : Option XmlDoc :=
  if text = [60, 104, 57, 47, 62] then some ⟨"h9", [], []⟩ else none

/-- A payload that parses, and how it may come in. -/
theorem handled_iff_root :
    List.Forall Handled (recvs parseRoot 9 H9Socket.new
      ⟨frame [60, 104, 57, 47, 62], [.bytes 2, .wouldBlock, .bytes 9, .bytes 2, .eof]⟩) := by
  have h := (handled_iff parseRoot [60, 104, 57, 47, 62] (by decide)).2 (.inr (by decide))
  exact List.forall_iff_forall_mem.2 (h _ (by simp) 9).1

/-- A payload that is not XML ends the program: libxml2 gives no document for it. -/
theorem not_handled : ¬ ∀ (xmlReadMemory : List UInt8 → Option XmlDoc) (payload : List UInt8)
    (as : List Arrival) (_ : ∀ a ∈ as, a = .wouldBlock ∨ a = .eof ∨ ∃ k, a = .bytes k) (n : ℕ),
    payload.length < 2 ^ 32 →
      ∀ r ∈ recvs xmlReadMemory n H9Socket.new ⟨frame payload, as⟩, Handled r := by
  intro h
  have hmem : Except.error .terminate ∈
      recvs parseRoot 1 H9Socket.new ⟨frame [120], [.bytes 3, .bytes 0]⟩ := by
    have hrecv : (H9Socket.new.recv ⟨frame [120], [.bytes 3, .bytes 0]⟩).1 = .msg [120] := by
      decide +kernel
    simp only [recvs, recv, hrecv, not_handled_convert parseRoot (by decide : parseRoot [120] = none)]
    exact List.mem_singleton.2 rfl
  exact h parseRoot [120] [.bytes 3, .bytes 0] (by simp) 1 (by decide) _ hmem

end H9MsgSocket

end H9
