import Mathlib

/-!
# Length-prefixed framing

A frame is a payload behind its length, in four bytes with the most significant first. Frames
written one after another can be told apart again: a stream that starts with the frames `qs`, and
is the frames `ps` cut somewhere, starts with no other frames than the first of `ps`
(`prefix_of_encode`), and if both stop inside a frame they are the same frames
(`eq_of_encode`).
-/

namespace Framing

/-- `n` in four bytes, the most significant first. -/
def be32 (n : ℕ) : List UInt8 :=
  [UInt8.ofNat (n / 2 ^ 24), UInt8.ofNat (n / 2 ^ 16), UInt8.ofNat (n / 2 ^ 8), UInt8.ofNat n]

/-- The number whose bytes are `bs`, the most significant first. -/
def ofBe (bs : List UInt8) : ℕ := bs.foldl (fun n b => n * 256 + b.toNat) 0

/-- `v` in `n` bytes, the most significant first. -/
def be : ℕ → ℕ → List UInt8
  | 0, _ => []
  | n + 1, v => be n (v / 256) ++ [UInt8.ofNat v]

@[simp] theorem length_be : ∀ n v : ℕ, (be n v).length = n
  | 0, _ => rfl
  | n + 1, v => by simp [be, length_be n]

@[simp] theorem length_be32 (n : ℕ) : (be32 n).length = 4 := rfl

theorem ofBe_be32 {n : ℕ} (h : n < 2 ^ 32) : ofBe (be32 n) = n := by
  simp only [ofBe, be32, List.foldl_cons, List.foldl_nil, UInt8.toNat_ofNat']
  omega

theorem exists_four {bs : List UInt8} (h : bs.length = 4) : ∃ a b c d, bs = [a, b, c, d] := by
  rcases bs with _ | ⟨a, _ | ⟨b, _ | ⟨c, _ | ⟨d, _ | ⟨e, l⟩⟩⟩⟩⟩ <;> simp at h
  exact ⟨a, b, c, d, rfl⟩

theorem ofBe_lt {bs : List UInt8} (h : bs.length = 4) : ofBe bs < 2 ^ 32 := by
  obtain ⟨a, b, c, d, rfl⟩ := exists_four h
  have ha := a.toNat_lt
  have hb := b.toNat_lt
  have hc := c.toNat_lt
  have hd := d.toNat_lt
  simp only [ofBe, List.foldl_cons, List.foldl_nil]
  omega

theorem be32_ofBe {bs : List UInt8} (h : bs.length = 4) : be32 (ofBe bs) = bs := by
  obtain ⟨a, b, c, d, rfl⟩ := exists_four h
  have ha := a.toNat_lt
  have hb := b.toNat_lt
  have hc := c.toNat_lt
  have hd := d.toNat_lt
  simp only [be32, ofBe, List.foldl_cons, List.foldl_nil, List.cons.injEq, and_true,
    ← UInt8.toNat_inj, UInt8.toNat_ofNat']
  omega

/-- A payload behind its length. -/
def frame (p : List UInt8) : List UInt8 := be32 p.length ++ p

/-- The frames of the payloads, one after another. -/
def encode (ps : List (List UInt8)) : List UInt8 := ps.flatMap frame

@[simp] theorem encode_nil : encode [] = [] := rfl

@[simp] theorem encode_cons (p : List UInt8) (ps : List (List UInt8)) :
    encode (p :: ps) = frame p ++ encode ps := rfl

@[simp] theorem encode_append (ps qs : List (List UInt8)) :
    encode (ps ++ qs) = encode ps ++ encode qs := by
  simp [encode]

theorem length_frame (p : List UInt8) : (frame p).length = 4 + p.length := by
  simp [frame]

theorem take_frame_append {p : List UInt8} (hp : p.length < 2 ^ 32) (t : List UInt8) :
    ofBe ((frame p ++ t).take 4) = p.length := by
  rw [frame, List.append_assoc, List.take_left' (length_be32 _), ofBe_be32 hp]

theorem frame_append_inj {p q s t : List UInt8} (hp : p.length < 2 ^ 32) (hq : q.length < 2 ^ 32)
    (h : frame p ++ s = frame q ++ t) : p = q ∧ s = t := by
  have hlen : p.length = q.length := by
    rw [← take_frame_append hp s, h, take_frame_append hq]
  have := List.append_inj h (by simp only [length_frame, hlen])
  refine ⟨?_, this.2⟩
  have h' := this.1
  rw [frame, frame, hlen] at h'
  exact List.append_cancel_left h'

/-- What stops inside a frame: before its length is complete, or before its payload is. -/
def Partial (t : List UInt8) : Prop := t.length < 4 ∨ t.length < 4 + ofBe (t.take 4)

theorem partial_nil : Partial [] := .inl (by simp)

theorem not_partial_frame_append {p : List UInt8} (hp : p.length < 2 ^ 32) (t : List UInt8) :
    ¬ Partial (frame p ++ t) := by
  unfold Partial
  rw [take_frame_append hp, List.length_append, length_frame]
  omega

/-- A frame cut short stops inside a frame. -/
theorem partial_of_prefix {p t : List UInt8} (hp : p.length < 2 ^ 32) (h : t <+: frame p)
    (hne : t ≠ frame p) : Partial t := by
  obtain ⟨u, hu⟩ := h
  have hlen := congrArg List.length hu
  rw [List.length_append, length_frame] at hlen
  have hu0 : 0 < u.length := by
    rcases u with _ | ⟨b, u⟩
    · simp only [List.append_nil] at hu
      exact absurd hu hne
    · simp
  by_cases ht : t.length < 4
  · exact .inl ht
  · right
    have htake := take_frame_append hp []
    rw [List.append_nil, ← hu, List.take_append_of_le_length (by omega)] at htake
    omega

section Unique

variable {ps qs : List (List UInt8)} {s t : List UInt8}

/-- A stream of the frames `ps` cut somewhere starts with no frames but the first of them. -/
theorem prefix_of_encode : ∀ {qs ps : List (List UInt8)}, (∀ q ∈ qs, q.length < 2 ^ 32) →
    (∀ p ∈ ps, p.length < 2 ^ 32) → Partial t → encode qs ++ s = encode ps ++ t → qs <+: ps
  | [], ps, _, _, _, _ => List.nil_prefix
  | q :: qs, [], hq, _, ht, h => by
    rw [encode_nil, List.nil_append, encode_cons, List.append_assoc] at h
    rw [← h] at ht
    exact absurd ht (not_partial_frame_append (hq q List.mem_cons_self) _)
  | q :: qs, p :: ps, hq, hp, ht, h => by
    simp only [encode_cons, List.append_assoc] at h
    obtain ⟨rfl, h'⟩ :=
      frame_append_inj (hq q List.mem_cons_self) (hp p List.mem_cons_self) h
    have ih := prefix_of_encode (fun x hx => hq x (List.mem_cons_of_mem _ hx))
      (fun x hx => hp x (List.mem_cons_of_mem _ hx)) ht h'
    exact (List.prefix_cons_inj q).2 ih

/-- Two streams of frames that stop inside a frame are equal only frame by frame. -/
theorem eq_of_encode (hq : ∀ q ∈ qs, q.length < 2 ^ 32) (hp : ∀ p ∈ ps, p.length < 2 ^ 32)
    (hs : Partial s) (ht : Partial t) (h : encode qs ++ s = encode ps ++ t) :
    qs = ps ∧ s = t := by
  obtain ⟨r, rfl⟩ := prefix_of_encode hq hp ht h
  rw [encode_append, List.append_assoc] at h
  have hst := List.append_cancel_left h
  rcases r with _ | ⟨p, r⟩
  · simpa using hst
  · rw [encode_cons, List.append_assoc] at hst
    rw [hst] at hs
    exact absurd hs (not_partial_frame_append (hp p (by simp)) _)

end Unique

end Framing
