import Mathlib

/-!
# Runs of a system

A system is given by what a step `a` makes of a state, which is nothing where the step cannot be
taken. `Always step P as s` says that `P` holds in every state that the steps `as` lead to from
`s`, and `Meet step C as s` that each of them is taken in a state that meets `C`. An invariant
that the steps keep where they meet `C` takes the one to the other.
-/

namespace Steps

variable {S A : Type} (step : S → A → Option S)

/-- `P` holds now, and in every state the steps lead to. -/
def Always (P : S → Prop) : List A → S → Prop
  | [], s => P s
  | a :: as, s => P s ∧ ∀ t, step s a = some t → Always P as t

/-- Each step meets `C` in the state in which it is taken. -/
def Meet (C : A → S → Prop) : List A → S → Prop
  | [], _ => True
  | a :: as, s => C a s ∧ ∀ t, step s a = some t → Meet C as t

/-- The state the steps lead to. -/
def run : List A → S → Option S
  | [], s => some s
  | a :: as, s => (step s a).bind (run as)

instance decidableAlways (P : S → Prop) [DecidablePred P] : ∀ as s, Decidable (Always step P as s)
  | [], s => inferInstanceAs (Decidable (P s))
  | a :: as, s =>
    match he : step s a with
    | none => decidable_of_iff (P s) (iff_self_and.2 fun _ _ ht => by cases he.symm.trans ht)
    | some t =>
      have := decidableAlways P as t
      decidable_of_iff (P s ∧ Always step P as t)
        (and_congr_right' ⟨fun h _ ht => Option.some.inj (he.symm.trans ht) ▸ h, fun h => h t he⟩)

instance decidableMeet (C : A → S → Prop) [∀ a s, Decidable (C a s)] :
    ∀ as s, Decidable (Meet step C as s)
  | [], _ => .isTrue trivial
  | a :: as, s =>
    match he : step s a with
    | none => decidable_of_iff (C a s) (iff_self_and.2 fun _ _ ht => by cases he.symm.trans ht)
    | some t =>
      have := decidableMeet C as t
      decidable_of_iff (C a s ∧ Meet step C as t)
        (and_congr_right' ⟨fun h _ ht => Option.some.inj (he.symm.trans ht) ▸ h, fun h => h t he⟩)

variable {step} {P I : S → Prop} {C : A → S → Prop}

theorem Always.head : ∀ {as : List A} {s : S}, Always step P as s → P s
  | [], _, h => h
  | _ :: _, _, h => h.1

/-- It holds in the state that the steps lead to. -/
theorem Always.run : ∀ {as : List A} {s t : S}, Always step P as s → run step as s = some t → P t
  | [], _, _, h, ht => Option.some.inj ht ▸ h
  | _ :: _, _, _, h, ht => by
    obtain ⟨u, hu, ht⟩ := Option.bind_eq_some_iff.1 ht
    exact Always.run (h.2 u hu) ht

theorem run_append (bs : List A) :
    ∀ (as : List A) (s : S), Steps.run step (as ++ bs) s = (Steps.run step as s).bind (Steps.run step bs)
  | [], s => rfl
  | a :: as, s => by
    show (step s a).bind (Steps.run step (as ++ bs)) = ((step s a).bind (Steps.run step as)).bind _
    cases step s a with
    | none => rfl
    | some t => exact run_append bs as t

theorem meet_append {bs : List A} : ∀ {as : List A} {s : S}, Meet step C as s →
    (∀ t, Steps.run step as s = some t → Meet step C bs t) → Meet step C (as ++ bs) s
  | [], s, _, hbs => hbs s rfl
  | a :: as, s, has, hbs => by
    refine ⟨has.1, fun t ht => meet_append (has.2 t ht) fun u hu => hbs u ?_⟩
    show (step s a).bind (Steps.run step as) = some u
    rw [ht]
    exact hu

/-- A condition that does not look at the state, where every step can be taken. -/
theorem meet_iff_forall {D : A → Prop} (hstep : ∀ s a, (step s a).isSome) :
    ∀ (as : List A) (s : S), Meet step (fun a _ => D a) as s ↔ ∀ a ∈ as, D a
  | [], s => by simp [Meet]
  | a :: as, s => by
    obtain ⟨t, ht⟩ := Option.isSome_iff_exists.1 (hstep s a)
    simp only [Meet, ht, Option.some.injEq, List.forall_mem_cons, forall_eq',
      meet_iff_forall hstep as]

/-- What an invariant gives holds in every state of a run whose steps meet `C`. -/
theorem always_of_meet (hP : ∀ s, I s → P s)
    (hstep : ∀ a s t, I s → C a s → step s a = some t → I t) :
    ∀ {as : List A} {s : S}, I s → Meet step C as s → Always step P as s
  | [], s, hs, _ => hP s hs
  | a :: _, s, hs, h =>
    ⟨hP s hs, fun t ht => always_of_meet hP hstep (hstep a s t hs h.1 ht) (h.2 t ht)⟩

/-- With no condition on the steps. -/
theorem always_of_inv (hP : ∀ s, I s → P s) (hstep : ∀ a s t, I s → step s a = some t → I t) :
    ∀ {as : List A} {s : S}, I s → Always step P as s
  | [], s, hs => hP s hs
  | a :: _, s, hs => ⟨hP s hs, fun t ht => always_of_inv hP hstep (hstep a s t hs ht)⟩

/-- The state that any number of steps lead to has an invariant. -/
theorem inv_of_run (hstep : ∀ a s t, I s → step s a = some t → I t) :
    ∀ {as : List A} {s t : S}, I s → run step as s = some t → I t
  | [], _, _, hs, ht => Option.some.inj ht ▸ hs
  | a :: _, s, _, hs, ht => by
    obtain ⟨u, hu, ht⟩ := Option.bind_eq_some_iff.1 ht
    exact inv_of_run hstep (hstep a s u hs hu) ht

/-- A run in which each step uses up one of `μ`, but for what it brings, is not longer than that. -/
theorem length_le_of_run {μ : S → ℕ} {brought : A → ℕ}
    (hstep : ∀ a s t, I s → step s a = some t → I t ∧ μ t + 1 ≤ μ s + brought a) :
    ∀ {as : List A} {s t : S}, I s → run step as s = some t →
      μ t + as.length ≤ μ s + (as.map brought).sum
  | [], s, t, _, ht => by
    obtain rfl : s = t := Option.some.inj ht
    simp
  | a :: as, s, t, hs, ht => by
    obtain ⟨u, hu, ht⟩ := Option.bind_eq_some_iff.1 ht
    obtain ⟨hI, hμ⟩ := hstep a s u hs hu
    have ih := length_le_of_run hstep hI ht
    rw [List.length_cons, List.map_cons, List.sum_cons]
    omega

/-- If a step that does not meet `C` leads to a state without `P`, the two are the same. -/
theorem always_iff_meet (hP : ∀ s, I s → P s)
    (hstep : ∀ a s t, I s → C a s → step s a = some t → I t)
    (hbad : ∀ a s, I s → ¬ C a s → ∃ t, step s a = some t ∧ ¬ P t) :
    ∀ {as : List A} {s : S}, I s → (Always step P as s ↔ Meet step C as s)
  | [], s, hs => iff_of_true (hP s hs) trivial
  | a :: as, s, hs => by
    refine ⟨fun h => ?_, always_of_meet hP hstep hs⟩
    have hC : C a s := by
      by_contra hC
      obtain ⟨t, ht, hPt⟩ := hbad a s hs hC
      exact hPt (h.2 t ht).head
    exact ⟨hC, fun t ht => (always_iff_meet hP hstep hbad (hstep a s t hs hC ht)).1 (h.2 t ht)⟩

end Steps
