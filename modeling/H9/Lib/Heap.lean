import Mathlib

/-!
# A priority queue over a vector

`std::push_heap` and `std::pop_heap` as libstdc++ has them: `siftUp` moves a hole towards the
front while the parent is less than the value to be put down, and `siftDown` moves it to the back
along the greater children. Both move a value at a time (`set_move`), so a queue keeps its values
(`push_perm`, `pop_perm`), and a value that is not more urgent than the front does not become the
front (`head_push`). How the values move depends on how they compare alone (`push_map`,
`pop_map`), so the order in which a queue is emptied (`drain`) is that of any values that compare
alike.
-/

namespace Heap

variable {α : Type} (less : α → α → Bool)

/-- `std::__push_heap` with the hole at `hole`; `n` bounds its way. -/
def siftUp (value : α) : ℕ → ℕ → List α → List α
  | 0, hole, v => v.set hole value
  | n + 1, hole, v =>
    let parent := (hole - 1) / 2
    if 0 < hole ∧ less (v.getD parent value) value then
      siftUp value n parent (v.set hole (v.getD parent value))
    else v.set hole value

/-- The loop of `std::__adjust_heap` on `len` values: where the hole ends, and the values. -/
def siftDown (value : α) (len : ℕ) : ℕ → ℕ → List α → ℕ × List α
  | 0, hole, v => (hole, v)
  | n + 1, hole, v =>
    if hole < (len - 1) / 2 then
      let right := 2 * (hole + 1)
      let child := if less (v.getD right value) (v.getD (right - 1) value) then right - 1 else right
      siftDown value len n child (v.set hole (v.getD child value))
    else (hole, v)

/-- `std::__adjust_heap` from the front. -/
def adjust (value : α) (v : List α) : List α :=
  let (hole, w) := siftDown less value v.length v.length 0 v
  if v.length % 2 = 0 ∧ 2 ≤ v.length ∧ hole = (v.length - 2) / 2 then
    siftUp less value v.length (2 * hole + 1) (w.set hole (w.getD (2 * hole + 1) value))
  else siftUp less value v.length hole w

/-- `std::priority_queue::push`. -/
def push (v : List α) (value : α) : List α :=
  siftUp less value v.length v.length (v ++ [value])

/-- `std::priority_queue::pop`. -/
def pop : List α → List α
  | [] => []
  | [_] => []
  | a :: b :: v => adjust less ((b :: v).getLast (List.cons_ne_nil b v)) ((a :: b :: v).dropLast)

section Perm

variable {less}

/-- Moving the hole from `i` to `j` and the value at `j` to `i`. -/
theorem set_move {v : List α} {i j : ℕ} (x : α) (hi : i < v.length) (hj : j < v.length)
    (hij : i ≠ j) : ((v.set i (v.getD j x)).set j x).Perm (v.set i x) := by
  have hil : i < (v.set i x).length := by simpa using hi
  have hjl : j < (v.set i x).length := by simpa using hj
  have hj' : (v.set i x)[j] = v.getD j x := by
    rw [List.getElem_set_ne hij, List.getD_eq_getElem _ _ hj]
  have hi' : (v.set i x)[i] = x := List.getElem_set_self _
  have h := List.set_set_perm hil hjl
  rwa [hj', hi', List.set_set] at h

theorem siftUp_perm (value : α) : ∀ (n hole : ℕ) {v : List α}, hole < v.length →
    (siftUp less value n hole v).Perm (v.set hole value)
  | 0, _, _, _ => List.Perm.refl _
  | n + 1, hole, v, h => by
    unfold siftUp
    dsimp only
    split_ifs with hc
    · have hparent : (hole - 1) / 2 < hole := by omega
      have ih := siftUp_perm value n ((hole - 1) / 2) (v := v.set hole (v.getD ((hole - 1) / 2) value))
        (by rw [List.length_set]; omega)
      exact ih.trans (set_move value h (by omega) (by omega))
    · exact List.Perm.refl _

theorem siftDown_perm (value : α) {len : ℕ} : ∀ (n : ℕ) {hole : ℕ} {v : List α}, v.length = len →
    hole < len → (siftDown less value len n hole v).1 < len ∧
      (siftDown less value len n hole v).2.length = len ∧
      ((siftDown less value len n hole v).2.set (siftDown less value len n hole v).1 value).Perm
        (v.set hole value)
  | 0, _, _, hl, h => ⟨h, hl, List.Perm.refl _⟩
  | n + 1, hole, v, hl, h => by
    unfold siftDown
    dsimp only
    split_ifs with hc hless
    · obtain ⟨h1, h2, h3⟩ := siftDown_perm value n
        (v := v.set hole (v.getD (2 * (hole + 1) - 1) value)) (by rw [List.length_set, hl])
        (by omega : 2 * (hole + 1) - 1 < len)
      exact ⟨h1, h2, h3.trans (set_move value (by omega) (by omega) (by omega))⟩
    · obtain ⟨h1, h2, h3⟩ := siftDown_perm value n
        (v := v.set hole (v.getD (2 * (hole + 1)) value)) (by rw [List.length_set, hl])
        (by omega : 2 * (hole + 1) < len)
      exact ⟨h1, h2, h3.trans (set_move value (by omega) (by omega) (by omega))⟩
    · exact ⟨h, hl, List.Perm.refl _⟩

theorem adjust_perm (value : α) {v : List α} (h : 0 < v.length) :
    (adjust less value v).Perm (v.set 0 value) := by
  obtain ⟨hlt, hlen, hperm⟩ := @siftDown_perm α less value v.length v.length 0 v rfl h
  unfold adjust
  rcases hs : siftDown less value v.length v.length 0 v with ⟨hole, w⟩
  rw [hs] at hlt hlen hperm
  dsimp only at hlt hlen hperm ⊢
  split_ifs with hc
  · have hchild : 2 * hole + 1 < w.length := by omega
    refine (siftUp_perm value _ _ (by rw [List.length_set]; exact hchild)).trans ?_
    exact (set_move value (by omega) hchild (by omega)).trans hperm
  · exact (siftUp_perm value _ _ (by omega)).trans hperm

variable (less)

theorem push_perm (v : List α) (value : α) : (push less v value).Perm (value :: v) := by
  unfold push
  refine (siftUp_perm value _ _ (by simp)).trans ?_
  rw [List.set_append_right _ _ le_rfl, Nat.sub_self]
  exact List.perm_append_singleton value v

theorem pop_perm (a : α) (v : List α) : (pop less (a :: v)).Perm v := by
  rcases v with _ | ⟨b, v⟩
  · exact List.Perm.refl _
  · unfold pop
    refine (adjust_perm _ (by simp)).trans ?_
    rw [List.dropLast_cons_of_ne_nil (List.cons_ne_nil b v), List.set_cons_zero]
    refine (List.perm_append_singleton _ _).symm.trans ?_
    rw [List.dropLast_append_getLast]

theorem push_ne_nil (v : List α) (value : α) : push less v value ≠ [] := by
  intro h
  have := (push_perm less v value).length_eq
  rw [h] at this
  simp at this

/-- A hole behind the front leaves a front that is not less than the value. -/
theorem head_siftUp {value a : α} (ha : less a value = false) : ∀ (n hole : ℕ) {v : List α},
    v.head? = some a → 0 < hole → (siftUp less value n hole v).head? = some a
  | 0, hole + 1, b :: v, h, _ => by simpa [siftUp] using h
  | n + 1, hole + 1, b :: v, h, _ => by
    obtain rfl : b = a := by simpa using h
    unfold siftUp
    dsimp only
    split_ifs with hc
    · rcases Nat.eq_zero_or_pos ((hole + 1 - 1) / 2) with h0 | hpos
      · rw [h0, List.getD_cons_zero, ha] at hc
        exact absurd hc.2 Bool.false_ne_true
      · exact head_siftUp ha n _ rfl hpos
    · rfl
  | 0, _, [], h, _ => by simp at h
  | _ + 1, _, [], h, _ => by simp at h

theorem head_push {a value : α} (v : List α) (ha : less a value = false) :
    (push less (a :: v) value).head? = some a :=
  head_siftUp less ha _ _ rfl (by simp)

end Perm

/-! ### The order in which the values leave -/

/-- The fronts of a queue of `n` values, popped one after another. -/
def drain : ℕ → List α → List α
  | 0, _ => []
  | _ + 1, [] => []
  | n + 1, a :: v => a :: drain n (pop less (a :: v))

section Map

variable {β : Type} {less} {less' : β → β → Bool} {f : α → β}

theorem getD_map (v : List α) (i : ℕ) (x : α) : (v.map f).getD i (f x) = f (v.getD i x) := by
  rw [List.getD_eq_getElem?_getD, List.getElem?_map, List.getD_eq_getElem?_getD, Option.getD_map]

/-- A queue moves its values as they compare, whatever else they are. -/
theorem siftUp_map (hf : ∀ x y, less' (f x) (f y) = less x y) (value : α) :
    ∀ (n hole : ℕ) (v : List α),
      siftUp less' (f value) n hole (v.map f) = (siftUp less value n hole v).map f
  | 0, hole, v => by simp [siftUp]
  | n + 1, hole, v => by
    unfold siftUp
    simp only [getD_map, hf]
    split_ifs with hc
    · rw [← List.map_set, siftUp_map hf]
    · rw [List.map_set]

theorem siftDown_map (hf : ∀ x y, less' (f x) (f y) = less x y) (value : α) (len : ℕ) :
    ∀ (n hole : ℕ) (v : List α), siftDown less' (f value) len n hole (v.map f) =
      ((siftDown less value len n hole v).1, (siftDown less value len n hole v).2.map f)
  | 0, hole, v => rfl
  | n + 1, hole, v => by
    unfold siftDown
    simp only [getD_map, hf]
    split_ifs with hc hless
    · rw [← List.map_set, siftDown_map hf]
    · rw [← List.map_set, siftDown_map hf]
    · rfl

theorem adjust_map (hf : ∀ x y, less' (f x) (f y) = less x y) (value : α) (v : List α) :
    adjust less' (f value) (v.map f) = (adjust less value v).map f := by
  unfold adjust
  simp only [List.length_map, siftDown_map hf, getD_map]
  split_ifs with hc
  · rw [← List.map_set, siftUp_map hf]
  · rw [siftUp_map hf]

theorem push_map (hf : ∀ x y, less' (f x) (f y) = less x y) (v : List α) (value : α) :
    push less' (v.map f) (f value) = (push less v value).map f := by
  unfold push
  rw [List.length_map, ← siftUp_map hf, List.map_append]
  rfl

theorem pop_map (hf : ∀ x y, less' (f x) (f y) = less x y) :
    ∀ v : List α, pop less' (v.map f) = (pop less v).map f
  | [] => rfl
  | [_] => rfl
  | a :: b :: v => by
    have hlast : (f b :: v.map f).getLast (List.cons_ne_nil _ _) =
        f ((b :: v).getLast (List.cons_ne_nil b v)) := by
      rw [← List.getLast_map (f := f) (l := b :: v) (by simp)]
      rfl
    have hdrop : (f a :: f b :: v.map f).dropLast = ((a :: b :: v).dropLast).map f := by
      rw [List.map_dropLast]
      rfl
    simp only [List.map_cons, pop, hlast, hdrop, adjust_map hf]

theorem drain_map (hf : ∀ x y, less' (f x) (f y) = less x y) :
    ∀ (n : ℕ) (v : List α), drain less' n (v.map f) = (drain less n v).map f
  | 0, _ => rfl
  | _ + 1, [] => rfl
  | n + 1, a :: v => by
    have hpop := pop_map hf (a :: v)
    rw [List.map_cons] at hpop
    rw [List.map_cons, drain, hpop, drain_map hf n, drain, List.map_cons]

end Map

theorem length_pop (v : List α) : (pop less v).length = v.length - 1 := by
  rcases v with _ | ⟨a, v⟩
  · rfl
  · exact (pop_perm less a v).length_eq

/-- A queue that is emptied gives back all its values. -/
theorem drain_perm : ∀ (n : ℕ) (v : List α), v.length ≤ n → (drain less n v).Perm v
  | 0, v, h => by
    obtain rfl : v = [] := by simpa using h
    exact .refl _
  | _ + 1, [], _ => .refl _
  | n + 1, a :: v, h => by
    have hpop := pop_perm less a v
    have hlen : (pop less (a :: v)).length ≤ n := by
      rw [hpop.length_eq]
      simpa using h
    exact ((drain_perm n _ hlen).trans hpop).cons a


end Heap
