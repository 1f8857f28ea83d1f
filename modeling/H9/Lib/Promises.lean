import Mathlib

/-!
# Promises and tables of them

What a `std::promise` shares with its future, promises being known by numbers. A table of promises
that nothing was put into and none of which is there twice (`Held`) can be swept: each entry is kept,
thrown away, or gets its value and is thrown away, and no promise is set a second time
(`sweep_held`).
-/

namespace Promise

inductive State (α : Type)
  | pending
  | value (a : α)
  | broken
deriving DecidableEq, Repr

/-- What a `std::future_error` says. -/
inductive Errc
  | broken_promise
  | promise_already_satisfied
deriving DecidableEq, Repr

/-- What each promise shares. -/
abbrev Shared (α : Type) := ℕ → State α

variable {α E : Type}

namespace Shared

def set_value (f : Shared α) (p : ℕ) (a : α) : Except Errc (Shared α) :=
  match f p with
  | .pending => .ok (Function.update f p (.value a))
  | _ => .error .promise_already_satisfied

/-- `promise::~promise`. -/
def destroy (f : Shared α) (p : ℕ) : Shared α :=
  match f p with
  | .pending => Function.update f p .broken
  | _ => f

theorem set_value_of_pending {f : Shared α} {p : ℕ} (h : f p = .pending) (a : α) :
    f.set_value p a = .ok (Function.update f p (.value a)) := by
  simp only [set_value, h]

theorem destroy_of_pending {f : Shared α} {p : ℕ} (h : f p = .pending) :
    f.destroy p = Function.update f p .broken := by
  simp only [destroy, h]

theorem destroy_of_ne {f : Shared α} {p q : ℕ} (h : p ≠ q) : f.destroy q p = f p := by
  unfold destroy
  cases hq : f q with
  | pending => exact Function.update_of_ne h _ _
  | value a => rfl
  | broken => rfl

end Shared

/-- What becomes of an entry. -/
inductive Verdict (α : Type)
  | keep
  | discard
  | fulfil (a : α)

namespace Verdict

def keeps : Verdict α → Bool
  | keep => true
  | _ => false

/-- What is shared when nothing was put in before. -/
def state : Verdict α → State α
  | keep => .pending
  | discard => .broken
  | fulfil a => .value a

end Verdict

/-- A pass over a table, from its first entry to its last. -/
def sweep (promise : E → ℕ) (verdict : E → Verdict α) :
    List E → Shared α → Except Errc (List E × Shared α)
  | [], f => .ok ([], f)
  | e :: es, f =>
    match verdict e with
    | .fulfil a => (f.set_value (promise e) a).bind (sweep promise verdict es)
    | .discard => sweep promise verdict es (f.destroy (promise e))
    | .keep => (sweep promise verdict es f).map fun (kept, f) => (e :: kept, f)

/-- The promises `ps` have no value yet, and none of them is there twice. -/
structure Held (f : Shared α) (ps : List ℕ) : Prop where
  nodup : ps.Nodup
  pending : ∀ p ∈ ps, f p = .pending

namespace Held

variable {f : Shared α} {p : ℕ} {ps : List ℕ}

theorem concat (h : Held f ps) (hp : f p = .pending) (hmem : p ∉ ps) : Held f (ps ++ [p]) where
  nodup := by
    rw [List.nodup_append]
    refine ⟨h.nodup, List.nodup_singleton p, fun q hq r hr => ?_⟩
    obtain rfl := List.mem_singleton.1 hr
    exact fun hqr => hmem (hqr ▸ hq)
  pending := by
    intro q hq
    rcases List.mem_append.1 hq with hq | hq
    · exact h.pending q hq
    · exact List.mem_singleton.1 hq ▸ hp

/-- Something happens to the first promise, which is no longer in the table. -/
theorem tail_update (h : Held f (p :: ps)) (x : State α) : Held (Function.update f p x) ps where
  nodup := (List.nodup_cons.1 h.nodup).2
  pending := by
    intro q hq
    have hne : q ≠ p := fun hqp => (List.nodup_cons.1 h.nodup).1 (hqp ▸ hq)
    rw [Function.update_of_ne hne]
    exact h.pending q (List.mem_cons_of_mem p hq)

theorem tail (h : Held f (p :: ps)) : Held f ps where
  nodup := (List.nodup_cons.1 h.nodup).2
  pending q hq := h.pending q (List.mem_cons_of_mem p hq)

end Held

variable {promise : E → ℕ} {verdict : E → Verdict α}

/-- A pass over a table comes to its end. What it does to an entry's promise is what the entry's
verdict says, and it does nothing to another promise. -/
theorem sweep_held : ∀ {es : List E} {f : Shared α}, Held f (es.map promise) →
    ∃ f', sweep promise verdict es f = .ok (es.filter fun e => (verdict e).keeps, f') ∧
      (∀ e ∈ es, f' (promise e) = (verdict e).state) ∧ ∀ p ∉ es.map promise, f' p = f p
  | [], f, _ => ⟨f, rfl, by simp, fun _ _ => rfl⟩
  | e :: es, f, h => by
    have hpending : f (promise e) = .pending := h.pending _ List.mem_cons_self
    have hnot : promise e ∉ es.map promise := (List.nodup_cons.1 h.nodup).1
    -- the rest of the pass, after what was done to the promise of `e`
    have hrest {g : Shared α} (hg : Held g (es.map promise))
        (he : g (promise e) = (verdict e).state) (hother : ∀ p, p ≠ promise e → g p = f p) :
        ∃ f', sweep promise verdict es g = .ok (es.filter fun e => (verdict e).keeps, f') ∧
          (∀ e' ∈ e :: es, f' (promise e') = (verdict e').state) ∧
            ∀ p ∉ (e :: es).map promise, f' p = f p := by
      obtain ⟨f', hf', hin, hout⟩ := sweep_held hg
      refine ⟨f', hf', ?_, ?_⟩
      · intro e' he'
        rcases List.mem_cons.1 he' with rfl | he'
        · rw [hout _ hnot, he]
        · exact hin e' he'
      · intro p hp
        rw [List.map_cons, List.mem_cons, not_or] at hp
        rw [hout p hp.2, hother p hp.1]
    unfold sweep
    cases hv : verdict e with
    | fulfil a =>
      obtain ⟨f', hf', hin, hout⟩ := hrest (h.tail_update (.value a)) (by simp [hv, Verdict.state])
        fun p hp => Function.update_of_ne hp _ _
      refine ⟨f', ?_, hin, hout⟩
      simp only [Shared.set_value_of_pending hpending, Except.bind, hf']
      simp [hv, Verdict.keeps]
    | discard =>
      obtain ⟨f', hf', hin, hout⟩ := hrest (h.tail_update .broken) (by simp [hv, Verdict.state])
        fun p hp => Function.update_of_ne hp _ _
      refine ⟨f', ?_, hin, hout⟩
      simp only [Shared.destroy_of_pending hpending, hf']
      simp [hv, Verdict.keeps]
    | keep =>
      obtain ⟨f', hf', hin, hout⟩ := hrest h.tail (by simp [hv, Verdict.state, hpending])
        fun _ _ => rfl
      refine ⟨f', ?_, hin, hout⟩
      simp only [hf', Except.map]
      simp [hv, Verdict.keeps]

/-- The entries that are left are a table again. -/
theorem Held.kept {es : List E} {f f' : Shared α} (h : Held f (es.map promise))
    (hin : ∀ e ∈ es, f' (promise e) = (verdict e).state) :
    Held f' ((es.filter fun e => (verdict e).keeps).map promise) where
  nodup := h.nodup.sublist (List.filter_sublist.map promise)
  pending := by
    intro p hp
    obtain ⟨e, he, rfl⟩ := List.mem_map.1 hp
    obtain ⟨he, hkeep⟩ := List.mem_filter.1 he
    rw [hin e he]
    cases hv : verdict e with
    | keep => rfl
    | discard => rw [hv] at hkeep; cases hkeep
    | fulfil a => rw [hv] at hkeep; cases hkeep

/-! ### Calls by their numbers

Those who make promises are in a list, in the order in which they began. -/

theorem getElem?_concat_cases {l : List E} {a b : E} {i : ℕ} (h : (l ++ [a])[i]? = some b) :
    l[i]? = some b ∨ i = l.length ∧ b = a := by
  rw [List.getElem?_append] at h
  split_ifs at h with hlt
  · exact .inl h
  · obtain ⟨hi, hb⟩ := List.getElem?_eq_some_iff.1 h
    rw [List.length_singleton] at hi
    exact .inr ⟨by omega, by rw [← hb, List.getElem_singleton]⟩

theorem getElem?_concat_of_some {l : List E} {a b : E} {i : ℕ} (h : l[i]? = some b) :
    (l ++ [a])[i]? = some b :=
  (List.getElem?_append_left (List.getElem?_eq_some_iff.1 h).1).trans h

theorem getElem?_set_of_some {l : List E} {a : E} {i : ℕ} (h : l[i]? = some a) (b : E) (j : ℕ) :
    (l.set i b)[j]? = if i = j then some b else l[j]? := by
  have hi : i < l.length := (List.getElem?_eq_some_iff.1 h).1
  rw [List.getElem?_set]
  simp only [hi, if_true]

end Promise
