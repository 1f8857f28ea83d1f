import Mathlib

/-!
# Maps in the order of their keys

A `std::map` as the list of its entries. Two keys are the same where neither is less than the other,
which is equality for keys that `less` orders strictly (`Strict`). A map to lists is a grouping of
the elements of these lists (`members`), which adding an element to the group of its key and
removing an element everywhere change as they change a list of elements with their keys.
-/

namespace OrdMap

variable {κ β α : Type*} (less : κ → κ → Bool)

/-- The map with `f` applied at `k`, to `dflt` if there was nothing. -/
def modify (k : κ) (dflt : β) (f : β → β) : List (κ × β) → List (κ × β)
  | [] => [(k, f dflt)]
  | (k', b) :: m =>
    if less k' k then (k', b) :: modify k dflt f m
    else if less k k' then (k, f dflt) :: (k', b) :: m
    else (k', f b) :: m

/-- The entries stand in the order of their keys, no two with the same. -/
def Ordered (m : List (κ × β)) : Prop := m.Pairwise fun e e' => less e.1 e'.1 = true

/-- `less` is a strict order of the keys with `P`, and any two of them are in it. -/
structure Strict (P : κ → Prop) : Prop where
  irrefl : ∀ a, P a → less a a = false
  trans : ∀ a b c, P a → P b → P c → less a b = true → less b c = true → less a c = true
  connected : ∀ a b, P a → P b → less a b = false → less b a = false → a = b

variable {less} {P : κ → Prop} {k : κ} {dflt : β} {f : β → β}

theorem keys_modify : ∀ {m : List (κ × β)}, ∀ e ∈ modify less k dflt f m,
    e.1 = k ∨ ∃ e' ∈ m, e'.1 = e.1
  | [], e, he => by
    rw [modify, List.mem_singleton] at he
    exact .inl (by rw [he])
  | (k', b) :: m, e, he => by
    rw [modify] at he
    split_ifs at he
    · rcases List.mem_cons.1 he with rfl | he
      · exact .inr ⟨_, List.mem_cons_self, rfl⟩
      · exact (keys_modify e he).imp_right fun ⟨e', he', h⟩ => ⟨e', List.mem_cons_of_mem _ he', h⟩
    · rcases List.mem_cons.1 he with rfl | he
      · exact .inl rfl
      · exact .inr ⟨e, he, rfl⟩
    · rcases List.mem_cons.1 he with rfl | he
      · exact .inr ⟨_, List.mem_cons_self, rfl⟩
      · exact .inr ⟨e, List.mem_cons_of_mem _ he, rfl⟩

theorem forall_keys_modify {m : List (κ × β)} (hm : ∀ e ∈ m, P e.1) (hk : P k) :
    ∀ e ∈ modify less k dflt f m, P e.1 := by
  intro e he
  rcases keys_modify e he with h | ⟨e', he', h⟩
  · rwa [h]
  · exact h ▸ hm e' he'

theorem Ordered.modify (hless : Strict less P) (hk : P k) : ∀ {m : List (κ × β)},
    Ordered less m → (∀ e ∈ m, P e.1) → Ordered less (modify less k dflt f m)
  | [], _, _ => List.pairwise_singleton _ _
  | (k', b) :: m, h, hm => by
    rw [Ordered, List.pairwise_cons] at h
    rw [List.forall_mem_cons] at hm
    rw [OrdMap.modify]
    split_ifs with hlt hgt
    · refine List.pairwise_cons.2 ⟨fun e he => ?_, Ordered.modify hless hk h.2 hm.2⟩
      rcases keys_modify e he with heq | ⟨e', he', heq⟩
      · rwa [heq]
      · exact heq ▸ h.1 e' he'
    · refine List.pairwise_cons.2 ⟨fun e he => ?_, List.pairwise_cons.2 h⟩
      rcases List.mem_cons.1 he with rfl | he
      · exact hgt
      · exact hless.trans k k' e.1 hk hm.1 (hm.2 e he) hgt (h.1 e he)
    · exact List.pairwise_cons.2 h

/-! ### Groups -/

/-- The elements of the groups, each with its key. -/
def members (m : List (κ × List α)) : List (α × κ) := m.flatMap fun e => e.2.map (·, e.1)

theorem members_cons (e : κ × List α) (m : List (κ × List α)) :
    members (e :: m) = e.2.map (·, e.1) ++ members m := rfl

theorem members_modify (hless : Strict less P) (hk : P k) (a : α) :
    ∀ {m : List (κ × List α)}, (∀ e ∈ m, P e.1) →
      (members (modify less k [] (· ++ [a]) m)).Perm ((a, k) :: members m)
  | [], _ => List.Perm.refl _
  | (k', l) :: m, hm => by
    rw [List.forall_mem_cons] at hm
    rw [modify]
    split_ifs with hlt hgt
    · rw [members_cons, members_cons]
      exact ((members_modify hless hk a hm.2).append_left _).trans List.perm_middle
    · exact List.Perm.refl _
    · obtain rfl := hless.connected k k' hk hm.1 (by simpa using hgt) (by simpa using hlt)
      rw [members_cons, members_cons, List.map_append, List.append_assoc]
      exact List.perm_middle

/-- The groups without an element, and without those that it leaves empty. -/
def remove [DecidableEq α] (a : α) (m : List (κ × List α)) : List (κ × List α) :=
  m.filterMap fun e =>
    let l := e.2.filter (· ≠ a)
    if l = [] then none else some (e.1, l)

theorem mem_remove [DecidableEq α] {a : α} {e e' : κ × List α}
    (h : (let l := e.2.filter (· ≠ a); if l = [] then none else some (e.1, l)) = some e') :
    e'.1 = e.1 := by
  dsimp only at h
  split_ifs at h
  rw [← Option.some.inj h]

theorem members_remove [DecidableEq α] (a : α) : ∀ m : List (κ × List α),
    members (remove a m) = (members m).filter fun p => p.1 ≠ a
  | [] => rfl
  | e :: m => by
    have ih := members_remove a m
    have hfirst : (e.2.map (·, e.1)).filter (fun p => decide (p.1 ≠ a)) =
        (e.2.filter (· ≠ a)).map (·, e.1) := List.filter_map
    rw [members_cons, List.filter_append, ← ih, hfirst, remove, List.filterMap_cons]
    by_cases hnil : e.2.filter (· ≠ a) = []
    · simp only [hnil, if_true, List.map_nil, List.nil_append]
      rfl
    · simp only [if_neg hnil]
      rfl

theorem Ordered.remove [DecidableEq α] {m : List (κ × List α)} (h : Ordered less m) (a : α) :
    Ordered less (remove a m) := by
  refine List.pairwise_filterMap.2 (List.Pairwise.imp (fun hlt e he e' he' => ?_) h)
  rw [mem_remove he, mem_remove he']
  exact hlt

theorem forall_keys_remove [DecidableEq α] {m : List (κ × List α)} (hm : ∀ e ∈ m, P e.1) (a : α) :
    ∀ e ∈ remove a m, P e.1 := by
  intro e he
  obtain ⟨e', he', hsome⟩ := List.mem_filterMap.1 he
  exact mem_remove hsome ▸ hm e' he'

end OrdMap
