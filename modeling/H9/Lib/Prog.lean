import Mathlib

/-!
# Programs with a state and abrupt exits

`Prog σ ε α` runs on a state `σ` and either returns an `α` or leaves by an exit `ε`; the state
reached stays either way, as an exception in the source does not undo what ran before it.
`Triple P p Q R` says that from a state with `P`, `p` returns with `Q` or leaves with `R`, and
`Keeps I p` that `p` keeps `I` however it ends.
-/

/-- A program on a state `σ`, returning an `α` or leaving by an `ε`. -/
abbrev Prog (σ ε α : Type) := ExceptT ε (StateM σ) α

namespace Prog

variable {σ τ ε α β : Type}

/-- How the program ends from `s`, and the state it ends in. -/
def exec (p : Prog σ ε α) (s : σ) : Except ε α × σ := p s

@[simp] theorem exec_pure (a : α) (s : σ) : (pure a : Prog σ ε α).exec s = (.ok a, s) := rfl

@[simp] theorem exec_throw (e : ε) (s : σ) : (throw e : Prog σ ε α).exec s = (.error e, s) := rfl

@[simp] theorem exec_get (s : σ) : (get : Prog σ ε σ).exec s = (.ok s, s) := rfl

@[simp] theorem exec_set (s t : σ) : (set t : Prog σ ε PUnit).exec s = (.ok (), t) := rfl

@[simp] theorem exec_modify (f : σ → σ) (s : σ) :
    (modify f : Prog σ ε PUnit).exec s = (.ok (), f s) := rfl

@[simp] theorem exec_bind (p : Prog σ ε α) (f : α → Prog σ ε β) (s : σ) :
    (p >>= f).exec s = match p.exec s with
      | (.ok a, t) => (f a).exec t
      | (.error e, t) => (.error e, t) := by
  change (ExceptT.bindCont f (p s).1) (p s).2 = _
  simp only [exec]
  rcases p s with ⟨_ | _, t⟩ <;> rfl

@[simp] theorem exec_tryCatch (p : Prog σ ε α) (h : ε → Prog σ ε α) (s : σ) :
    (tryCatch p h).exec s = match p.exec s with
      | (.ok a, t) => (.ok a, t)
      | (.error e, t) => (h e).exec t := by
  change (ExceptT.tryCatch p h) s = _
  simp only [ExceptT.tryCatch, ExceptT.mk, exec]
  rcases hp : p s with ⟨_ | _, t⟩ <;> simp only [bind, StateT.bind, hp]; rfl

@[simp] theorem exec_ite (c : Prop) [Decidable c] (p q : Prog σ ε α) (s : σ) :
    (if c then p else q).exec s = if c then p.exec s else q.exec s := by
  split <;> rfl

/-- The end of a call that leaves the state alone. -/
def lift (x : Except ε α) : Prog σ ε α := fun s => (x, s)

@[simp] theorem exec_lift (x : Except ε α) (s : σ) : (lift x : Prog σ ε α).exec s = (x, s) := rfl

/-- `f` for each element of the list, in its order, up to the first that leaves. -/
def forEach : List α → (α → Prog σ ε Unit) → Prog σ ε Unit
  | [], _ => pure ()
  | a :: l, f => do
    f a
    forEach l f

theorem exec_forEach_cons {a : α} {l : List α} {f : α → Prog σ ε Unit} {s s' : σ} :
    (forEach (a :: l) f).exec s = (.ok (), s') ↔
      ∃ t, (f a).exec s = (.ok (), t) ∧ (forEach l f).exec t = (.ok (), s') := by
  rw [show forEach (a :: l) f = f a >>= fun _ => forEach l f from rfl, exec_bind]
  rcases (f a).exec s with ⟨_ | _, t⟩ <;> simp

theorem exec_forEach_append {f : α → Prog σ ε Unit} : ∀ {l l' : List α} {s s' : σ},
    (forEach (l ++ l') f).exec s = (.ok (), s') ↔
      ∃ t, (forEach l f).exec s = (.ok (), t) ∧ (forEach l' f).exec t = (.ok (), s')
  | [], _, s, _ => ⟨fun h => ⟨s, rfl, h⟩, fun ⟨_, ht, h⟩ => (Prod.mk.inj ht).2 ▸ h⟩
  | _ :: _, _, _, _ => by
    rw [List.cons_append, exec_forEach_cons]
    constructor
    · rintro ⟨u, hu, h⟩
      obtain ⟨t, ht, h⟩ := exec_forEach_append.1 h
      exact ⟨t, exec_forEach_cons.2 ⟨u, hu, ht⟩, h⟩
    · rintro ⟨t, ht, h⟩
      obtain ⟨u, hu, ht⟩ := exec_forEach_cons.1 ht
      exact ⟨u, hu, exec_forEach_append.2 ⟨t, ht, h⟩⟩

/-- The first half of the state. -/
def getFst : Prog (σ × τ) ε σ := fun s => (.ok s.1, s)

@[simp] theorem exec_getFst (s : σ × τ) : (getFst : Prog (σ × τ) ε σ).exec s = (.ok s.1, s) := rfl

def modifyFst (f : σ → σ) : Prog (σ × τ) ε Unit := modify fun s => (f s.1, s.2)

@[simp] theorem exec_modifyFst (f : σ → σ) (s : σ × τ) :
    (modifyFst f : Prog (σ × τ) ε Unit).exec s = (.ok (), (f s.1, s.2)) := rfl

/-- `p` on the second half of the state. -/
def onSnd (p : Prog τ ε α) : Prog (σ × τ) ε α := fun s => ((p.exec s.2).1, (s.1, (p.exec s.2).2))

@[simp] theorem exec_onSnd (p : Prog τ ε α) (s : σ) (t : τ) :
    (onSnd p : Prog (σ × τ) ε α).exec (s, t) = ((p.exec t).1, (s, (p.exec t).2)) := rfl

/-- `p` on the first half of the state. -/
def onFst (p : Prog σ ε α) : Prog (σ × τ) ε α := fun s => ((p.exec s.1).1, ((p.exec s.1).2, s.2))

@[simp] theorem exec_onFst (p : Prog σ ε α) (s : σ × τ) :
    (onFst p : Prog (σ × τ) ε α).exec s = ((p.exec s.1).1, ((p.exec s.1).2, s.2)) := rfl

/-- A loop whose turns do what `f` says, as long as `P` holds of what is left of the list. -/
theorem exec_forEach_foldl {P : List α → σ → Prop} {p : α → Prog σ ε Unit} {f : σ → α → σ}
    (h : ∀ a l s, P (a :: l) s → (p a).exec s = (.ok (), f s a) ∧ P l (f s a)) :
    ∀ (l : List α) (s : σ), P l s → (forEach l p).exec s = (.ok (), l.foldl f s)
  | [], _, _ => rfl
  | a :: l, s, hs => by
    obtain ⟨ha, hl⟩ := h a l s hs
    rw [forEach, exec_bind, ha]
    exact exec_forEach_foldl h l (f s a) hl

/-- A loop that also changes the first half of the state ends as the loop `g` on the second half, if
each turn does while `J` holds of the first. -/
theorem exec_forEach_onSnd {J : σ → Prop} {f : α → Prog (σ × τ) ε Unit} {g : α → Prog τ ε Unit}
    (h : ∀ a x t, J x → ∃ x', J x' ∧ (f a).exec (x, t) = (((g a).exec t).1, (x', ((g a).exec t).2))) :
    ∀ (l : List α) (x : σ) (t : τ), J x → ∃ x', J x' ∧
      (forEach l f).exec (x, t) = (((forEach l g).exec t).1, (x', ((forEach l g).exec t).2))
  | [], x, t, hx => ⟨x, hx, rfl⟩
  | a :: l, x, t, hx => by
    obtain ⟨x', hx', ha⟩ := h a x t hx
    simp only [forEach, exec_bind, ha]
    rcases (g a).exec t with ⟨e | u, t'⟩
    · exact ⟨x', hx', rfl⟩
    · exact exec_forEach_onSnd h l x' t' hx'

/-- From `s`, the program returns. -/
def Returns (p : Prog σ ε α) (s : σ) : Prop := ∃ a t, p.exec s = (.ok a, t)

@[simp] theorem returns_modify (f : σ → σ) (s : σ) :
    Returns (modify f : Prog σ ε PUnit) s := ⟨(), f s, rfl⟩

section Rules

/-- From a state with `P`, the program returns with `Q` or leaves with `R`. -/
def Triple (P : σ → Prop) (p : Prog σ ε α) (Q : α → σ → Prop) (R : ε → σ → Prop) : Prop :=
  ∀ s, P s → match p.exec s with
    | (.ok a, t) => Q a t
    | (.error e, t) => R e t

variable {P P' I : σ → Prop} {Q Q' : α → σ → Prop} {R R' : ε → σ → Prop} {p q : Prog σ ε α}

theorem Triple.ok (h : Triple P p Q R) {s t : σ} {a : α} (hs : P s)
    (he : p.exec s = (.ok a, t)) : Q a t := by
  have := h s hs
  rw [he] at this
  exact this

theorem Triple.error (h : Triple P p Q R) {s t : σ} {e : ε} (hs : P s)
    (he : p.exec s = (.error e, t)) : R e t := by
  have := h s hs
  rw [he] at this
  exact this

theorem Triple.conseq (h : Triple P p Q R) (hP : ∀ s, P' s → P s) (hQ : ∀ a s, Q a s → Q' a s)
    (hR : ∀ e s, R e s → R' e s) : Triple P' p Q' R' := by
  intro s hs
  have := h s (hP s hs)
  rcases hp : p.exec s with ⟨e | a, t⟩ <;> rw [hp] at this
  · exact hR e t this
  · exact hQ a t this

theorem Triple.and (h : Triple P p Q R) (h' : Triple P' p Q' R') :
    Triple (fun s => P s ∧ P' s) p (fun a s => Q a s ∧ Q' a s) fun e s => R e s ∧ R' e s := by
  rintro s ⟨hs, hs'⟩
  have h := h s hs
  have h' := h' s hs'
  rcases hp : p.exec s with ⟨e | a, t⟩ <;> rw [hp] at h h' <;> exact ⟨h, h'⟩

theorem Triple.pure (a : α) (h : ∀ s, P s → Q a s) : Triple P (pure a : Prog σ ε α) Q R :=
  fun s hs => h s hs

theorem Triple.throw (e : ε) (h : ∀ s, P s → R e s) : Triple P (throw e : Prog σ ε α) Q R :=
  fun s hs => h s hs

theorem Triple.lift (x : Except ε α) (hok : ∀ a, x = .ok a → ∀ s, P s → Q a s)
    (herr : ∀ e, x = .error e → ∀ s, P s → R e s) : Triple P (lift x) Q R := by
  intro s hs
  rcases x with e | a
  · exact herr e rfl s hs
  · exact hok a rfl s hs

theorem Triple.get {Q : σ → σ → Prop} (h : ∀ s, P s → Q s s) :
    Triple P (get : Prog σ ε σ) Q R := fun s hs => h s hs

theorem Triple.modify {Q : PUnit → σ → Prop} (f : σ → σ) (h : ∀ s, P s → Q () (f s)) :
    Triple P (modify f : Prog σ ε PUnit) Q R := fun s hs => h s hs

theorem Triple.bind {f : β → Prog σ ε α} {p : Prog σ ε β} {M : β → σ → Prop}
    (hp : Triple P p M R) (hf : ∀ b, Triple (M b) (f b) Q R) : Triple P (p >>= f) Q R := by
  intro s hs
  have hm := hp s hs
  rw [exec_bind]
  rcases he : p.exec s with ⟨e | b, t⟩ <;> rw [he] at hm
  · exact hm
  · exact hf b t hm

/-- Reading the state first: what follows may use that it is the state it started from. -/
theorem Triple.get_bind {f : σ → Prog σ ε α} (h : ∀ s₀, Triple (fun s => P s ∧ s = s₀) (f s₀) Q R) :
    Triple P (MonadState.get >>= f) Q R :=
  fun s hs => h s s ⟨hs, rfl⟩

theorem Triple.tryCatch {h : ε → Prog σ ε α} (hp : Triple P p Q R)
    (hh : ∀ e, Triple (R e) (h e) Q R') : Triple P (tryCatch p h) Q R' := by
  intro s hs
  have hm := hp s hs
  rw [exec_tryCatch]
  rcases he : p.exec s with ⟨e | a, t⟩ <;> rw [he] at hm
  · exact hh e t hm
  · exact hm

theorem Triple.ite {c : Prop} [Decidable c] (hp : c → Triple P p Q R) (hq : ¬ c → Triple P q Q R) :
    Triple P (if c then p else q) Q R := by
  split
  · exact hp ‹_›
  · exact hq ‹_›

/-- A loop over `l`, with an invariant that may depend on the elements it is done with. -/
theorem Triple.forEach_prefix {f : α → Prog σ ε Unit} {R : ε → σ → Prop} (l : List α)
    {I : List α → σ → Prop} (h : ∀ pre a post, l = pre ++ a :: post →
      Triple (I pre) (f a) (fun _ => I (pre ++ [a])) R) :
    Triple (I []) (forEach l f) (fun _ => I l) R := by
  suffices hgo : ∀ post pre, l = pre ++ post →
      Triple (I pre) (Prog.forEach post f) (fun _ => I l) R from hgo l [] rfl
  intro post
  induction post with
  | nil =>
    intro pre hl
    rw [List.append_nil] at hl
    exact Triple.pure () fun s hs => hl ▸ hs
  | cons a post ih =>
    intro pre hl
    exact Triple.bind (h pre a post hl) fun _ => ih (pre ++ [a]) (by rw [hl]; simp)

theorem Triple.forEach {f : α → Prog σ ε Unit} {R : ε → σ → Prop} (l : List α)
    (h : ∀ a ∈ l, Triple I (f a) (fun _ => I) R) : Triple I (forEach l f) (fun _ => I) R :=
  Triple.forEach_prefix l (I := fun _ => I) fun pre a _ hl =>
    h a (hl ▸ List.mem_append_right pre List.mem_cons_self)

theorem Triple.onSnd {P : σ × τ → Prop} {p : Prog τ ε α} {Q : α → σ × τ → Prop}
    {R : ε → σ × τ → Prop} (h : ∀ s, Triple (fun t => P (s, t)) p (fun a t => Q a (s, t))
      fun e t => R e (s, t)) : Triple P (onSnd p) Q R := by
  rintro ⟨s, t⟩ hs
  have := h s t hs
  rw [exec_onSnd]
  rcases he : p.exec t with ⟨e | a, t'⟩ <;> rw [he] at this <;> exact this

/-! The first half of the state is known, and `P` holds of the second. -/

def At (a : σ) (P : τ → Prop) (s : σ × τ) : Prop := s.1 = a ∧ P s.2

variable {a : σ} {S : τ → Prop} {U : β → σ × τ → Prop} {V : ε → σ × τ → Prop}

theorem Triple.getFst_bind {f : σ → Prog (σ × τ) ε β} (h : Triple (At a S) (f a) U V) :
    Triple (At a S) (Prog.getFst >>= f) U V := by
  rintro ⟨s, t⟩ ⟨rfl, ht⟩
  exact h (s, t) ⟨rfl, ht⟩

theorem Triple.modifyFst_bind {g : σ → σ} {f : Unit → Prog (σ × τ) ε β}
    (h : Triple (At (g a) S) (f ()) U V) : Triple (At a S) (Prog.modifyFst g >>= f) U V := by
  rintro ⟨s, t⟩ ⟨rfl, ht⟩
  exact h (g s, t) ⟨rfl, ht⟩

theorem Triple.modifyFst {g : σ → σ} {U : Unit → σ × τ → Prop} (h : ∀ t, S t → U () (g a, t)) :
    Triple (At a S) (Prog.modifyFst g) U V := by
  rintro ⟨s, t⟩ ⟨rfl, ht⟩
  exact h t ht

theorem Triple.onSnd_bind {p : Prog τ ε α} {f : α → Prog (σ × τ) ε β} {M : α → τ → Prop}
    {X : ε → τ → Prop} (hp : Triple S p M X) (hX : ∀ e t, X e t → V e (a, t))
    (hf : ∀ x, Triple (At a (M x)) (f x) U V) :
    Triple (At a S) (Prog.onSnd p >>= f) U V := by
  rintro ⟨s, t⟩ ⟨rfl, ht⟩
  have hm := hp t ht
  rw [exec_bind, exec_onSnd]
  rcases he : p.exec t with ⟨e | x, t'⟩ <;> rw [he] at hm
  · exact hX e t' hm
  · exact hf x (s, t') ⟨rfl, hm⟩

theorem Triple.onSnd_at {p : Prog τ ε β} (hp : Triple S p (fun b t => U b (a, t)) fun e t => V e (a, t)) :
    Triple (At a S) (Prog.onSnd p) U V := by
  rintro ⟨s, t⟩ ⟨rfl, ht⟩
  have hm := hp t ht
  rw [exec_onSnd]
  rcases he : p.exec t with ⟨e | x, t'⟩ <;> rw [he] at hm <;> exact hm

/-- However the program ends, `I` still holds. -/
def Keeps (I : σ → Prop) (p : Prog σ ε α) : Prop := Triple I p (fun _ => I) fun _ => I

theorem Keeps.exec (h : Keeps I p) {s : σ} (hs : I s) : I (p.exec s).2 := by
  have := h s hs
  rcases he : p.exec s with ⟨e | a, t⟩ <;> rw [he] at this <;> exact this

end Rules

end Prog
