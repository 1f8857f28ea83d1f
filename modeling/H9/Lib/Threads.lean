import Mathlib

/-!
# Threads and what they hold

Each thread is in a phase of its program. A mutex is owned by the thread that is in one of the
phases between its `lock` and its `unlock` (`Owned`), and a counter counts the threads that are in
certain phases (`Counts`). Both are kept as the threads go on, one at a time. What the threads
weigh together (`total`) changes by what the one that goes on comes to weigh.
-/

namespace Threads

variable {T Phase : Type} [DecidableEq T] {phase : T → Phase} {t : T} {p : Phase}

/-- The owner of a mutex is the thread in a phase with `H`, if there is one. -/
def Owned (H : Phase → Bool) (owner : Option T) (phase : T → Phase) : Prop :=
  ∀ t, H (phase t) = true ↔ owner = some t

section Owned

variable {H : Phase → Bool} {owner : Option T}

omit [DecidableEq T] in
theorem Owned.eq (h : Owned H owner phase) {u : T} (ht : H (phase t) = true)
    (hu : H (phase u) = true) : t = u :=
  Option.some.inj (((h t).1 ht).symm.trans ((h u).1 hu))

theorem Owned.lock (h : Owned H none phase) (hp : H p = true) :
    Owned H (some t) (Function.update phase t p) := by
  intro u
  by_cases hu : u = t
  · subst hu
    simp [hp]
  · have hnot : ¬ H (phase u) = true := fun hH => Option.some_ne_none u ((h u).1 hH).symm
    simp [Function.update_of_ne hu, hnot, Ne.symm hu]

theorem Owned.unlock (h : Owned H owner phase) (ht : H (phase t) = true) (hp : H p = false) :
    Owned H none (Function.update phase t p) := by
  intro u
  by_cases hu : u = t
  · subst hu
    simp [hp]
  · simpa [Function.update_of_ne hu] using fun hH => hu (h.eq hH ht)

theorem Owned.keep (h : Owned H owner phase) (hp : H p = H (phase t)) :
    Owned H owner (Function.update phase t p) := by
  intro u
  by_cases hu : u = t
  · subst hu
    rw [Function.update_self, hp]
    exact h u
  · rw [Function.update_of_ne hu]
    exact h u

end Owned

/-- `n` threads are in a phase with `C`. -/
def Counts (C : Phase → Bool) (n : ℤ) (phase : T → Phase) : Prop :=
  ∃ l : Finset T, (∀ t, t ∈ l ↔ C (phase t) = true) ∧ n = l.card

section Counts

variable {C : Phase → Bool} {n : ℤ}

theorem Counts.enter (h : Counts C n phase) (ht : C (phase t) = false) (hp : C p = true) :
    Counts C (n + 1) (Function.update phase t p) := by
  obtain ⟨l, hl, rfl⟩ := h
  have hnot : t ∉ l := by simp [hl, ht]
  refine ⟨insert t l, fun u => ?_, by simp [hnot]⟩
  by_cases hu : u = t
  · subst hu
    simp [hp]
  · simp [hu, hl]

theorem Counts.leave (h : Counts C n phase) (ht : C (phase t) = true) (hp : C p = false) :
    Counts C (n - 1) (Function.update phase t p) := by
  obtain ⟨l, hl, rfl⟩ := h
  have hmem : t ∈ l := (hl t).2 ht
  refine ⟨l.erase t, fun u => ?_, ?_⟩
  · by_cases hu : u = t
    · subst hu
      simp [hp]
    · simp [hu, hl]
  · have := Finset.card_erase_add_one hmem
    omega

theorem Counts.keep (h : Counts C n phase) (hp : C p = C (phase t)) :
    Counts C n (Function.update phase t p) := by
  obtain ⟨l, hl, hn⟩ := h
  refine ⟨l, fun u => ?_, hn⟩
  by_cases hu : u = t
  · subst hu
    rw [Function.update_self, hp]
    exact hl u
  · rw [Function.update_of_ne hu]
    exact hl u

omit [DecidableEq T] in
theorem Counts.pos (h : Counts C n phase) (ht : C (phase t) = true) : 0 < n := by
  obtain ⟨l, hl, rfl⟩ := h
  have := Finset.card_pos.2 ⟨t, (hl t).2 ht⟩
  omega

omit [DecidableEq T] in
theorem Counts.ncard (h : Counts C n phase) :
    {t | C (phase t) = true}.Finite ∧ n = {t | C (phase t) = true}.ncard := by
  obtain ⟨l, hl, rfl⟩ := h
  have hset : {t | C (phase t) = true} = ↑l := Set.ext fun t => (hl t).symm
  rw [hset]
  exact ⟨l.finite_toSet, by rw [Set.ncard_coe_finset]⟩

end Counts

section Total

variable {w w' : T → ℕ}

/-- The sum of what the threads weigh, where only finitely many weigh anything. -/
noncomputable def total (w : T → ℕ) : ℕ := ∑ᶠ t, w t

omit [DecidableEq T] in
theorem total_zero : total (fun _ : T => 0) = 0 := finsum_zero

theorem finite_support_of_eq (hfin : w.support.Finite) (h : ∀ u, u ≠ t → w' u = w u) :
    w'.support.Finite := by
  refine (hfin.insert t).subset fun u hu => ?_
  by_cases heq : u = t
  · exact .inl heq
  · exact .inr (by simpa [h u heq] using hu)

/-- Where one thread comes to weigh something else. -/
theorem total_of_eq (hfin : w.support.Finite) (h : ∀ u, u ≠ t → w' u = w u) :
    total w' + w t = total w + w' t := by
  have hsub : w.support ⊆ ↑(insert t hfin.toFinset) := fun u hu => by simp_all
  have hsub' : w'.support ⊆ ↑(insert t hfin.toFinset) := by
    intro u hu
    by_cases heq : u = t
    · simp [heq]
    · exact hsub (by simpa [h u heq] using hu)
  have hmem : t ∈ insert t hfin.toFinset := Finset.mem_insert_self ..
  have hrest : ∑ u ∈ (insert t hfin.toFinset).erase t, w' u =
      ∑ u ∈ (insert t hfin.toFinset).erase t, w u :=
    Finset.sum_congr rfl fun u hu => h u (Finset.ne_of_mem_erase hu)
  rw [total, total, finsum_eq_sum_of_support_subset w hsub, finsum_eq_sum_of_support_subset w' hsub',
    ← Finset.add_sum_erase _ w hmem, ← Finset.add_sum_erase _ w' hmem, hrest]
  omega

end Total

end Threads
