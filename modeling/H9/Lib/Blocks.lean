import Mathlib

/-!
# Blocks of data that are loaded one after another

A block has an address. A loader that writes each block behind the one before, or at its address where
that is further on, puts it elsewhere than at its address when the running end is past it already.
`stop_le_iff` says where the end is, `load_named` and `load_unnamed` what the loader leaves, and
`loaded_iff` when this is what the blocks say: every block that would show is at its address.
-/

namespace Blocks

structure Block (α : Type*) where
  address : ℕ
  data : List α
deriving DecidableEq, Repr

variable {α : Type*}

/-- A block says that `a` is at `x`. -/
def Names (bs : List (Block α)) (x : ℕ) (a : α) : Prop :=
  ∃ b ∈ bs, ∃ i, b.data[i]? = some a ∧ x = b.address + i

/-- No address is in two blocks. -/
def Apart (bs : List (Block α)) : Prop :=
  ∀ (i j : ℕ) (b c : Block α), bs[i]? = some b → bs[j]? = some c → ∀ m n, m < b.data.length →
    n < c.data.length → b.address + m = c.address + n → i = j

/-- One more than the highest address in a block. -/
def top (bs : List (Block α)) : ℕ :=
  (bs.map fun b => if b.data = [] then 0 else b.address + b.data.length).foldr max 0

def total (bs : List (Block α)) : ℕ := (bs.map fun b => b.data.length).sum

/-- What the blocks say, `d` being what is at the other addresses. -/
structure Shows (d : α) (bs : List (Block α)) (image : ℕ → α) (length : ℕ) : Prop where
  named : ∀ x a, Names bs x a → image x = a
  unnamed : ∀ x, (∀ a, ¬ Names bs x a) → image x = d
  length : length = top bs

theorem apart_pair {b c : Block α}
    (h : b.address + b.data.length ≤ c.address ∨ c.address + c.data.length ≤ b.address) :
    Apart [b, c] := by
  intro i j b' c' hb hc m n hm hn heq
  match i, j with
  | 0, 0 | 1, 1 => rfl
  | 0, 1 =>
    obtain rfl : b = b' := by simpa using hb
    obtain rfl : c = c' := by simpa using hc
    omega
  | 1, 0 =>
    obtain rfl : c = b' := by simpa using hb
    obtain rfl : b = c' := by simpa using hc
    omega
  | _ + 2, _ => simp at hb
  | _, _ + 2 => simp at hc

/-! ### The loader -/

/-- The data written from `x` on. -/
def write (image : ℕ → α) (x : ℕ) : List α → ℕ → α
  | [] => image
  | a :: as => write (Function.update image x a) (x + 1) as

/-- The end behind the blocks, `n` being the one before them. -/
def stop (n : ℕ) : List (Block α) → ℕ
  | [] => n
  | b :: bs => stop (max n b.address + b.data.length) bs

/-- The blocks where the loader puts them. -/
def placed (n : ℕ) : List (Block α) → List (Block α)
  | [] => []
  | b :: bs => ⟨max n b.address, b.data⟩ :: placed (max n b.address + b.data.length) bs

def load (image : ℕ → α) (n : ℕ) : List (Block α) → ℕ → α
  | [] => image
  | b :: bs => load (write image (max n b.address) b.data) (max n b.address + b.data.length) bs

/-- The addresses that are written to. -/
def written (n : ℕ) : List (Block α) → List ℕ
  | [] => []
  | b :: bs => List.range' (max n b.address) b.data.length ++
      written (max n b.address + b.data.length) bs

theorem total_cons (b : Block α) (bs : List (Block α)) : total (b :: bs) = b.data.length + total bs := by
  simp [total]

/-- The end is the furthest that one of the blocks and those behind it go. -/
theorem stop_le_iff (x : ℕ) : ∀ (bs : List (Block α)) (n : ℕ), stop n bs ≤ x ↔
    n + total bs ≤ x ∧ ∀ (k : ℕ) (b : Block α), bs[k]? = some b → b.address + total (bs.drop k) ≤ x
  | [], n => by simp [stop, total]
  | b :: bs, n => by
    rw [stop, stop_le_iff x bs, total_cons]
    constructor
    · rintro ⟨hend, hrest⟩
      refine ⟨by omega, fun k c hc => ?_⟩
      cases k with
      | zero =>
        obtain rfl : b = c := by simpa using hc
        rw [List.drop_zero, total_cons]
        omega
      | succ k => exact hrest k c (by simpa using hc)
    · rintro ⟨hend, hrest⟩
      have hfirst := hrest 0 b rfl
      rw [List.drop_zero, total_cons] at hfirst
      exact ⟨by omega, fun k c hc => hrest (k + 1) c (by simpa using hc)⟩

theorem le_stop (bs : List (Block α)) (n : ℕ) : n ≤ stop n bs := by
  have h := ((stop_le_iff (stop n bs) bs n).1 le_rfl).1
  omega

theorem placed_getElem? : ∀ (bs : List (Block α)) (n j : ℕ), (placed n bs)[j]? =
    bs[j]?.map fun b => ⟨max (stop n (bs.take j)) b.address, b.data⟩
  | [], _, _ => rfl
  | b :: bs, n, 0 => rfl
  | b :: bs, n, j + 1 => by
    rw [placed, List.getElem?_cons_succ, placed_getElem? bs, List.getElem?_cons_succ,
      List.take_succ_cons, stop]

theorem stop_take_succ : ∀ (bs : List (Block α)) (n j : ℕ) (b : Block α), bs[j]? = some b →
    stop n (bs.take (j + 1)) = max (stop n (bs.take j)) b.address + b.data.length
  | [], _, _, _, h => by simp at h
  | c :: bs, n, 0, b, h => by
    obtain rfl : c = b := by simpa using h
    rfl
  | c :: bs, n, j + 1, b, h => by
    rw [List.take_succ_cons, stop, stop_take_succ bs _ j b (by simpa using h), List.take_succ_cons, stop]

theorem stop_take_mono (bs : List (Block α)) (n : ℕ) {i j : ℕ} (h : i ≤ j) :
    stop n (bs.take i) ≤ stop n (bs.take j) := by
  induction h with
  | refl => exact le_rfl
  | @step j _ ih =>
    refine ih.trans ?_
    rcases hb : bs[j]? with _ | b
    · rw [List.take_of_length_le (Nat.le_succ_of_le (List.getElem?_eq_none_iff.1 hb)),
        List.take_of_length_le (List.getElem?_eq_none_iff.1 hb)]
    · rw [stop_take_succ bs n j b hb]
      omega

/-! ### What is left -/

theorem write_apply : ∀ (as : List α) (image : ℕ → α) (x y : ℕ),
    write image x as y = if x ≤ y then as[y - x]?.getD (image y) else image y
  | [], _, _, _ => by simp [write]
  | a :: as, image, x, y => by
    rw [write, write_apply as]
    rcases Nat.lt_trichotomy y x with h | rfl | h
    · rw [if_neg (by omega), if_neg (by omega), Function.update_of_ne (by omega)]
    · rw [if_neg (by omega), if_pos le_rfl, Function.update_self, Nat.sub_self]
      rfl
    · obtain ⟨i, hi⟩ : ∃ i, y - x = i + 1 := ⟨y - x - 1, by omega⟩
      have hi' : y - (x + 1) = i := by omega
      rw [if_pos (by omega), if_pos (by omega), Function.update_of_ne (by omega), hi, hi',
        List.getElem?_cons_succ]

theorem write_inside {as : List α} {i : ℕ} {a : α} (h : as[i]? = some a) (image : ℕ → α) (x : ℕ) :
    write image x as (x + i) = a := by
  rw [write_apply, if_pos (by omega), Nat.add_sub_cancel_left, h]
  rfl

theorem write_outside {as : List α} {x y : ℕ} (h : y < x ∨ x + as.length ≤ y) (image : ℕ → α) :
    write image x as y = image y := by
  rw [write_apply]
  split_ifs with hle
  · rw [List.getElem?_eq_none (by omega)]
    rfl
  · rfl

/-- The loader does not go back. -/
theorem le_of_placed : ∀ {bs : List (Block α)} {n : ℕ}, ∀ b ∈ placed n bs, n ≤ b.address
  | [], _, _, h => by cases h
  | c :: bs, n, b, h => by
    rw [placed, List.mem_cons] at h
    rcases h with rfl | h
    · exact le_max_left _ _
    · have hle := le_of_placed b h
      omega

theorem load_unnamed : ∀ (bs : List (Block α)) (image : ℕ → α) (n x : ℕ),
    (∀ a, ¬ Names (placed n bs) x a) → load image n bs x = image x
  | [], _, _, _, _ => rfl
  | b :: bs, image, n, x, h => by
    have houtside : x < max n b.address ∨ max n b.address + b.data.length ≤ x := by
      by_contra hin
      have hlt : x - max n b.address < b.data.length := by omega
      refine h b.data[x - max n b.address] ⟨_, List.mem_cons_self, x - max n b.address, ?_, ?_⟩
      · exact List.getElem?_eq_getElem hlt
      · show x = max n b.address + _
        omega
    rw [load, load_unnamed bs, write_outside houtside]
    rintro a ⟨c, hc, hi⟩
    exact h a ⟨c, List.mem_cons_of_mem _ hc, hi⟩

theorem load_below : ∀ (bs : List (Block α)) (image : ℕ → α) {n x : ℕ}, x < n →
    load image n bs x = image x := by
  intro bs image n x hx
  refine load_unnamed bs image n x ?_
  rintro a ⟨b, hb, i, -, rfl⟩
  have hle := le_of_placed b hb
  omega

theorem load_named : ∀ (bs : List (Block α)) (image : ℕ → α) (n x : ℕ) (a : α),
    Names (placed n bs) x a → load image n bs x = a
  | [], _, _, _, _, ⟨_, hb, _⟩ => by cases hb
  | b :: bs, image, n, x, a, ⟨c, hc, i, hi, hx⟩ => by
    rw [placed, List.mem_cons] at hc
    rw [load]
    rcases hc with rfl | hc
    · have hlt : i < b.data.length := (List.getElem?_eq_some_iff.1 hi).1
      rw [hx, load_below bs _ (Nat.add_lt_add_left hlt _)]
      exact write_inside hi image _
    · exact load_named bs _ _ x a ⟨c, hc, i, hi, hx⟩

theorem mem_written_lt : ∀ {bs : List (Block α)} {n : ℕ}, ∀ x ∈ written n bs, x < stop n bs
  | [], _, _, h => by cases h
  | b :: bs, n, x, h => by
    rw [written, List.mem_append, List.mem_range'_1] at h
    rcases h with h | h
    · exact Nat.lt_of_lt_of_le h.2 (le_stop bs _)
    · have ih : ∀ x ∈ written (max n b.address + b.data.length) bs, x < stop _ bs := mem_written_lt
      exact ih x h

/-- All is written below `N` where the end is not past it. -/
theorem written_lt_iff {N : ℕ} : ∀ {bs : List (Block α)} {n : ℕ}, n ≤ N → (∀ b ∈ bs, b.address ≤ N) →
    ((∀ x ∈ written n bs, x < N) ↔ stop n bs ≤ N)
  | [], n, hn, _ => by simpa [written, stop] using hn
  | b :: bs, n, hn, h => by
    rw [List.forall_mem_cons] at h
    refine ⟨fun hw => ?_, fun hle x hx => Nat.lt_of_lt_of_le (mem_written_lt x hx) hle⟩
    rw [written, List.forall_mem_append] at hw
    have hfits : max n b.address + b.data.length ≤ N := by
      by_cases hnil : b.data.length = 0
      · omega
      · have hlast := hw.1 (max n b.address + (b.data.length - 1))
          (List.mem_range'_1.2 ⟨by omega, by omega⟩)
        omega
    rw [stop]
    exact (written_lt_iff hfits h.2).1 hw.2

/-! ### When the loader leaves what the blocks say -/

/-- Every block that would show at another place is behind what is loaded before it, and nothing goes
further than the highest address in a block. -/
structure InPlace (d : α) (bs : List (Block α)) : Prop where
  order : ∀ (j : ℕ) (c : Block α), bs[j]? = some c → (∃ a ∈ c.data, a ≠ d) → ∀ (k : ℕ) (b : Block α),
    k < j → bs[k]? = some b → b.address + total ((bs.take j).drop k) ≤ c.address
  last : ∀ (k : ℕ) (b : Block α), bs[k]? = some b → b.address + total (bs.drop k) ≤ top bs

theorem stop_zero_le_iff (x : ℕ) (bs : List (Block α)) : stop 0 bs ≤ x ↔
    ∀ (k : ℕ) (b : Block α), bs[k]? = some b → b.address + total (bs.drop k) ≤ x := by
  rw [stop_le_iff, and_iff_right_iff_imp]
  intro h
  rcases bs with _ | ⟨b, bs⟩
  · simp [total]
  · have hfirst := h 0 b rfl
    rw [List.drop_zero] at hfirst
    omega

/-- The end is 0 where no block goes past the address 0. -/
theorem stop_eq_zero_iff : ∀ (bs : List (Block α)) (n : ℕ), stop n bs = 0 ↔
    n = 0 ∧ ∀ b ∈ bs, b.address + b.data.length = 0
  | [], n => by simp [stop]
  | b :: bs, n => by
    rw [stop, stop_eq_zero_iff bs, List.forall_mem_cons]
    constructor
    · rintro ⟨hend, hrest⟩
      exact ⟨by omega, by omega, hrest⟩
    · rintro ⟨hn, hfirst, hrest⟩
      exact ⟨by omega, hrest⟩

theorem stop_take_le_iff (x : ℕ) (bs : List (Block α)) (j : ℕ) : stop 0 (bs.take j) ≤ x ↔
    ∀ (k : ℕ) (b : Block α), k < j → bs[k]? = some b → b.address + total ((bs.take j).drop k) ≤ x := by
  rw [stop_zero_le_iff]
  constructor
  · intro h k b hk hb
    exact h k b (by rw [List.getElem?_take_of_lt hk, hb])
  · intro h k b hb
    have hk : k < j := by
      by_contra hge
      rw [List.getElem?_take, if_neg hge] at hb
      cases hb
    exact h k b hk (by rwa [List.getElem?_take_of_lt hk] at hb)

theorem top_le_stop : ∀ (bs : List (Block α)) (n : ℕ), top bs ≤ stop n bs
  | [], n => Nat.zero_le _
  | b :: bs, n => by
    have hrest := top_le_stop bs (max n b.address + b.data.length)
    have hend := le_stop bs (max n b.address + b.data.length)
    have htop : top (b :: bs) = max (if b.data = [] then 0 else b.address + b.data.length) (top bs) := rfl
    rw [htop, stop]
    split_ifs <;> omega

theorem names_iff {bs : List (Block α)} {x : ℕ} {a : α} : Names bs x a ↔
    ∃ (j : ℕ) (b : Block α) (i : ℕ), bs[j]? = some b ∧ b.data[i]? = some a ∧ x = b.address + i := by
  constructor
  · rintro ⟨b, hb, i, hi, hx⟩
    obtain ⟨j, hj⟩ := List.mem_iff_getElem?.1 hb
    exact ⟨j, b, i, hj, hi, hx⟩
  · rintro ⟨j, b, i, hj, hi, hx⟩
    exact ⟨b, List.mem_iff_getElem?.2 ⟨j, hj⟩, i, hi, hx⟩

theorem names_placed_iff {bs : List (Block α)} {x : ℕ} {a : α} : Names (placed 0 bs) x a ↔
    ∃ (j : ℕ) (b : Block α) (i : ℕ), bs[j]? = some b ∧ b.data[i]? = some a ∧
      x = max (stop 0 (bs.take j)) b.address + i := by
  rw [names_iff]
  constructor
  · rintro ⟨j, c, i, hj, hi, hx⟩
    rw [placed_getElem?] at hj
    obtain ⟨b, hb, rfl⟩ := Option.map_eq_some_iff.1 hj
    exact ⟨j, b, i, hb, hi, hx⟩
  · rintro ⟨j, b, i, hj, hi, hx⟩
    exact ⟨j, ⟨max (stop 0 (bs.take j)) b.address, b.data⟩, i, by rw [placed_getElem?, hj]; rfl, hi, hx⟩

section Loaded

variable {d : α} {bs : List (Block α)}

/-- What is not `d` after the load is in a block, at the place where that was put. -/
theorem exists_of_load_ne {x : ℕ} (h : load (fun _ => d) 0 bs x ≠ d) :
    ∃ (j : ℕ) (b : Block α) (i : ℕ), bs[j]? = some b ∧
      b.data[i]? = some (load (fun _ => d) 0 bs x) ∧ x = max (stop 0 (bs.take j)) b.address + i := by
  by_cases hnone : ∀ a, ¬ Names (placed 0 bs) x a
  · exact absurd (load_unnamed bs _ 0 x hnone) h
  · push Not at hnone
    obtain ⟨a, ha⟩ := hnone
    rw [← names_placed_iff, load_named bs _ 0 x a ha]
    exact ha

/-- A block that shows is put at its address, by induction on the blocks before it: the first of its
elements that shows would be looked for in a block of its own or in an earlier one. -/
theorem stop_le_address (hapart : Apart bs) (hnamed : ∀ x a, Names bs x a → load (fun _ => d) 0 bs x = a)
    (j : ℕ) : ∀ c, bs[j]? = some c → (∃ a ∈ c.data, a ≠ d) → stop 0 (bs.take j) ≤ c.address := by
  induction j using Nat.strongRecOn with
  | _ j ih =>
    intro c hc hshows
    by_contra hlt
    classical
    have hex : ∃ i : ℕ, ∃ a, c.data[i]? = some a ∧ a ≠ d := by
      obtain ⟨a, ha, hne⟩ := hshows
      obtain ⟨i, hi⟩ := List.mem_iff_getElem?.1 ha
      exact ⟨i, a, hi, hne⟩
    obtain ⟨a, ha, hne⟩ := Nat.find_spec hex
    set i := Nat.find hex
    have hload := hnamed (c.address + i) a (names_iff.2 ⟨j, c, i, hc, ha, rfl⟩)
    have hi : i < c.data.length := (List.getElem?_eq_some_iff.1 ha).1
    obtain ⟨j', b, i', hb, hi', hx⟩ := exists_of_load_ne (x := c.address + i) (by rwa [hload])
    rw [hload] at hi'
    have hi'lt : i' < b.data.length := (List.getElem?_eq_some_iff.1 hi').1
    rcases Nat.lt_trichotomy j' j with hj | rfl | hj
    · have hplace := ih j' hj b hb ⟨a, List.mem_of_getElem? hi', hne⟩
      have hsame := hapart j' j b c hb hc i' i hi'lt hi (by omega)
      omega
    · obtain rfl : c = b := Option.some.inj (hc.symm.trans hb)
      exact Nat.find_min hex (show i' < i by omega) ⟨a, hi', hne⟩
    · have hend := stop_take_mono bs 0 (show j + 1 ≤ j' from hj)
      rw [stop_take_succ bs 0 j c hc] at hend
      omega

theorem loaded_iff (hapart : Apart bs) :
    Shows d bs (load (fun _ => d) 0 bs) (stop 0 bs) ↔ InPlace d bs := by
  constructor
  · intro h
    refine ⟨fun j c hc hshows => ?_, ?_⟩
    · exact (stop_take_le_iff _ _ _).1 (stop_le_address hapart h.named j c hc hshows)
    · exact (stop_zero_le_iff _ _).1 h.length.le
  · intro h
    have hplace : ∀ (j : ℕ) (b : Block α) (i : ℕ) (a : α), bs[j]? = some b → b.data[i]? = some a →
        a ≠ d → max (stop 0 (bs.take j)) b.address = b.address := by
      intro j b i a hb ha hne
      exact max_eq_right ((stop_take_le_iff _ _ _).2
        (h.order j b hb ⟨a, List.mem_of_getElem? ha, hne⟩))
    refine ⟨fun x a hx => ?_, fun x hx => ?_, ?_⟩
    · obtain ⟨j, b, i, hb, ha, rfl⟩ := names_iff.1 hx
      by_contra hne
      have hshows : load (fun _ => d) 0 bs (b.address + i) ≠ d := by
        intro hload
        have had : a ≠ d := fun had => hne (hload.trans had.symm)
        have hnames : Names (placed 0 bs) (b.address + i) a :=
          names_placed_iff.2 ⟨j, b, i, hb, ha, by rw [hplace j b i a hb ha had]⟩
        exact hne (load_named bs _ 0 _ a hnames)
      obtain ⟨j', b', i', hb', ha', hx'⟩ := exists_of_load_ne hshows
      rw [hplace j' b' i' _ hb' ha' hshows] at hx'
      obtain rfl := hapart j j' b b' hb hb' i i' (List.getElem?_eq_some_iff.1 ha).1
        (List.getElem?_eq_some_iff.1 ha').1 hx'
      obtain rfl : b = b' := Option.some.inj (hb.symm.trans hb')
      obtain rfl : i = i' := by omega
      exact hne (Option.some.inj (ha'.symm.trans ha))
    · by_contra hshows
      obtain ⟨j, b, i, hb, ha, hx'⟩ := exists_of_load_ne hshows
      rw [hplace j b i _ hb ha hshows] at hx'
      exact hx _ (names_iff.2 ⟨j, b, i, hb, ha, hx'⟩)
    · exact le_antisymm ((stop_zero_le_iff _ _).2 h.last) (top_le_stop bs 0)

end Loaded

end Blocks
