import Mathlib

/-!
# Parsers that tables drive

A parser keeps a stack of states, each with the value of the symbol that led to it. It shifts a token
onto the stack, or reduces the symbols on top of it to the left-hand side of a rule, as its tables
say. A state that can only reduce does so at once, and any other one has the next token read first.

What is done depends on the states and the tokens alone. With derivation trees for values nothing
fails, and with other values the parser does the same as long as these trees have a value
(`run_eval`).
-/

namespace LR

/-- A token with what its text says, or a text that is no token. -/
inductive Lexeme (τ χ : Type)
  | token (t : τ) (text : χ)
  | invalid
deriving DecidableEq, Repr

inductive Action (σ ρ : Type)
  | shift (s : σ)
  | reduce (r : ρ)
  | error

/-- The rules of a grammar, and what the states of a parser do. -/
structure Tables (σ τ ν ρ : Type) where
  lhs : ρ → ν
  rhs : ρ → List (τ ⊕ ν)
  start : σ
  /-- Where the text is accepted. -/
  final : σ
  /-- What a state reduces that reads no token for it. -/
  reduction : σ → Option ρ
  action : σ → τ → Action σ ρ
  /-- Where a symbol leads to, if it can follow. -/
  goto : σ → ν → Option σ

/-- What the parser does next. A reduction comes with the state that it leads to. -/
inductive Decision (σ τ χ ρ : Type)
  | accept
  | reject
  | read (t : τ) (text : χ)
  | shift (s : σ)
  | reduce (r : ρ) (s : σ)

variable {σ τ χ ν ρ V ε : Type}

namespace Tables

variable (T : Tables σ τ ν ρ)

/-- The state on top of the stack. -/
def top (ss : List σ) : σ := ss.headD T.start

def reduceBy (ss : List σ) (r : ρ) : Decision σ τ χ ρ :=
  match T.goto (T.top (ss.drop (T.rhs r).length)) (T.lhs r) with
  | some s => .reduce r s
  | none => .reject

/-- What is done in the states `ss`, where `looked` says that the next token was read. -/
def next [DecidableEq σ] (ss : List σ) (looked : Bool) (input : List (Lexeme τ χ)) :
    Decision σ τ χ ρ :=
  if T.top ss = T.final then .accept
  else match T.reduction (T.top ss), input with
    | some r, _ => T.reduceBy ss r
    | none, .token t x :: _ =>
      if looked then
        match T.action (T.top ss) t with
        | .shift s => .shift s
        | .reduce r => T.reduceBy ss r
        | .error => .reject
      else .read t x
    | none, _ => .reject

end Tables

/-! ### Values -/

/-- What the values of tokens and of rules are; an action of a rule has those of its symbols. -/
structure Semantics (τ χ ρ V ε : Type) where
  token : τ → χ → Except ε V
  act : ρ → List V → Except ε V

/-- A value that was made, when a token was read or by a rule. -/
inductive Made (ρ V : Type)
  | read (v : V)
  | reduced (r : ρ) (v : V)

def Made.value : Made ρ V → V
  | read v => v
  | reduced _ v => v

structure Config (σ τ χ ρ V : Type) where
  stack : List (σ × V)
  /-- The value of the first token in `input`, if it was read. -/
  lookahead : Option V
  input : List (Lexeme τ χ)
  /-- What was made so far, the newest first. -/
  made : List (Made ρ V)

namespace Config

def states (c : Config σ τ χ ρ V) : List σ := c.stack.map Prod.fst

def start (input : List (Lexeme τ χ)) : Config σ τ χ ρ V where
  stack := []
  lookahead := none
  input := input
  made := []

def read (c : Config σ τ χ ρ V) (v : V) : Config σ τ χ ρ V :=
  { c with lookahead := some v, made := .read v :: c.made }

def shift (c : Config σ τ χ ρ V) (s : σ) (v : V) : Config σ τ χ ρ V :=
  { c with stack := (s, v) :: c.stack, lookahead := none, input := c.input.tail }

/-- The values of the `n` symbols on top of the stack, the topmost last. -/
def values (c : Config σ τ χ ρ V) (n : ℕ) : List V := ((c.stack.take n).map Prod.snd).reverse

/-- The configuration with `v` for the `n` symbols on top. -/
def reduce (c : Config σ τ χ ρ V) (n : ℕ) (r : ρ) (s : σ) (v : V) : Config σ τ χ ρ V :=
  { c with stack := (s, v) :: c.stack.drop n, made := .reduced r v :: c.made }

end Config

inductive Step (σ τ χ ρ V : Type)
  | next (c : Config σ τ χ ρ V)
  | done (accepted : Bool)

section Run

variable [DecidableEq σ] (T : Tables σ τ ν ρ) (S : Semantics τ χ ρ V ε)

/-- What is done in the configuration. -/
def Config.decision (c : Config σ τ χ ρ V) : Decision σ τ χ ρ :=
  T.next c.states c.lookahead.isSome c.input

def step (c : Config σ τ χ ρ V) : Except ε (Step σ τ χ ρ V) :=
  match c.decision T with
  | .accept => .ok (.done true)
  | .reject => .ok (.done false)
  | .read t x => (S.token t x).map fun v => .next (c.read v)
  | .shift s =>
    match c.lookahead with
    | some v => .ok (.next (c.shift s v))
    | none => .ok (.done false)
  | .reduce r s =>
    (S.act r (c.values (T.rhs r).length)).map fun v => .next (c.reduce (T.rhs r).length r s v)

/-- The run of at most `n` steps: whether the text is accepted, and all that was made. -/
def run : ℕ → Config σ τ χ ρ V → Option (Except ε (Bool × List (Made ρ V)))
  | 0, _ => none
  | n + 1, c =>
    match step T S c with
    | .error e => some (.error e)
    | .ok (.done b) => some (.ok (b, c.made))
    | .ok (.next c') => run n c'

end Run

/-- The steps that go on. -/
inductive Moves [DecidableEq σ] (T : Tables σ τ ν ρ) (S : Semantics τ χ ρ V ε)
    (c : Config σ τ χ ρ V) : Config σ τ χ ρ V → Prop
  | read {t : τ} {x : χ} {v : V} :
    c.decision T = .read t x → S.token t x = .ok v → Moves T S c (c.read v)
  | shift {s : σ} {v : V} : c.decision T = .shift s → c.lookahead = some v → Moves T S c (c.shift s v)
  | reduce {r : ρ} {s : σ} {v : V} : c.decision T = .reduce r s →
    S.act r (c.values (T.rhs r).length) = .ok v → Moves T S c (c.reduce (T.rhs r).length r s v)

theorem step_eq_next_iff [DecidableEq σ] {T : Tables σ τ ν ρ} {S : Semantics τ χ ρ V ε}
    {c d : Config σ τ χ ρ V} : step T S c = .ok (.next d) ↔ Moves T S c d := by
  constructor
  · intro h
    unfold step at h
    split at h
    · cases h
    · cases h
    · rename_i t x hread
      rcases hv : S.token t x with e | v <;> rw [hv] at h
      · cases h
      · cases h
        exact .read hread hv
    · rename_i s hshift
      rcases hlook : c.lookahead with _ | v <;> rw [hlook] at h
      · cases h
      · cases h
        exact .shift hshift hlook
    · rename_i r s hreduce
      rcases hv : S.act r (c.values (T.rhs r).length) with e | v <;> rw [hv] at h
      · cases h
      · cases h
        exact .reduce hreduce hv
  · rintro (⟨hread, hv⟩ | ⟨hshift, hlook⟩ | ⟨hreduce, hv⟩)
    · rw [step, hread]
      simp only [hv]
      rfl
    · rw [step, hshift]
      simp only [hlook]
    · rw [step, hreduce]
      simp only [hv]
      rfl

/-! ### Trees -/

/-- A derivation. -/
inductive Tree (τ χ ρ : Type)
  | leaf (t : τ) (text : χ)
  | node (r : ρ) (children : List (Tree τ χ ρ))

namespace Tree

/-- Trees as values. -/
def semantics : Semantics τ χ ρ (Tree τ χ ρ) ε where
  token t x := .ok (.leaf t x)
  act r ts := .ok (.node r ts)

mutual

/-- The tokens that the tree derives. -/
def words : Tree τ χ ρ → List (Lexeme τ χ)
  | leaf t x => [.token t x]
  | node _ ts => wordsAll ts

def wordsAll : List (Tree τ χ ρ) → List (Lexeme τ χ)
  | [] => []
  | t :: ts => t.words ++ wordsAll ts

end

/-- The symbol that the tree is a derivation of. -/
def root (T : Tables σ τ ν ρ) : Tree τ χ ρ → τ ⊕ ν
  | leaf t _ => .inl t
  | node r _ => .inr (T.lhs r)

/-- In each node are derivations of the symbols of its rule. -/
inductive Valid (T : Tables σ τ ν ρ) : Tree τ χ ρ → Prop
  | leaf (t : τ) (x : χ) : Valid T (leaf t x)
  | node {r : ρ} {ts : List (Tree τ χ ρ)} :
    ts.map (root T) = T.rhs r → (∀ t ∈ ts, Valid T t) → Valid T (node r ts)

end Tree

mutual

/-- The value of a derivation. -/
def Semantics.eval (S : Semantics τ χ ρ V ε) : Tree τ χ ρ → Except ε V
  | .leaf t x => S.token t x
  | .node r ts => S.evalAll ts >>= S.act r

def Semantics.evalAll (S : Semantics τ χ ρ V ε) : List (Tree τ χ ρ) → Except ε (List V)
  | [] => .ok []
  | t :: ts => do
    let v ← S.eval t
    let vs ← S.evalAll ts
    return v :: vs

end

/-! ### The same run with other values -/

section Eval

variable (S : Semantics τ χ ρ V ε)

/-- The token of the tree has no value, or the trees in it have values of which its rule makes none. -/
inductive Tree.Fails (e : ε) : Tree τ χ ρ → Prop
  | leaf {t : τ} {x : χ} : S.token t x = .error e → Fails e (.leaf t x)
  | node {r : ρ} {ts : List (Tree τ χ ρ)} {vs : List V} :
    S.evalAll ts = .ok vs → S.act r vs = .error e → Fails e (.node r ts)

/-- The value that was made is that of the tree that was made. -/
inductive Made.Evals : Made ρ (Tree τ χ ρ) → Made ρ V → Prop
  | read {t : Tree τ χ ρ} {v : V} : S.eval t = .ok v → Evals (.read t) (.read v)
  | reduced {r : ρ} {t : Tree τ χ ρ} {v : V} : S.eval t = .ok v → Evals (.reduced r t) (.reduced r v)

/-- The values are those of the trees. -/
structure Config.Evals (c : Config σ τ χ ρ (Tree τ χ ρ)) (d : Config σ τ χ ρ V) : Prop where
  stack : List.Forall₂ (fun a b => a.1 = b.1 ∧ S.eval a.2 = .ok b.2) c.stack d.stack
  lookahead : Option.Rel (fun t v => S.eval t = .ok v) c.lookahead d.lookahead
  input : d.input = c.input
  made : List.Forall₂ (Made.Evals S) c.made d.made

theorem Config.evals_start (input : List (Lexeme τ χ)) :
    Config.Evals S (Config.start input : Config σ τ χ ρ _) (Config.start input) where
  stack := .nil
  lookahead := .none
  input := rfl
  made := .nil

variable {S}

theorem eval_node_eq_ok {r : ρ} {ts : List (Tree τ χ ρ)} {v : V} :
    S.eval (.node r ts) = .ok v ↔ ∃ vs, S.evalAll ts = .ok vs ∧ S.act r vs = .ok v := by
  rw [Semantics.eval]
  rcases S.evalAll ts with e | vs
  · simp [bind, Except.bind]
  · simp [bind, Except.bind]

theorem evalAll_nil_eq_ok {vs : List V} :
    S.evalAll ([] : List (Tree τ χ ρ)) = .ok vs ↔ vs = [] := by
  simp [Semantics.evalAll, eq_comm]

theorem evalAll_cons_eq_ok {t : Tree τ χ ρ} {ts : List (Tree τ χ ρ)} {vs : List V} :
    S.evalAll (t :: ts) = .ok vs ↔ ∃ w ws, S.eval t = .ok w ∧ S.evalAll ts = .ok ws ∧ vs = w :: ws := by
  rw [Semantics.evalAll]
  rcases S.eval t with e | w
  · simp [bind, Except.bind]
  · rcases S.evalAll ts with e | ws
    · simp [bind, Except.bind]
    · simp [bind, Except.bind, pure, Except.pure, eq_comm]

theorem evalAll_eq_ok {ts : List (Tree τ χ ρ)} : ∀ {vs : List V},
    S.evalAll ts = .ok vs ↔ List.Forall₂ (fun t v => S.eval t = .ok v) ts vs := by
  induction ts with
  | nil => simp [evalAll_nil_eq_ok]
  | cons t ts ih =>
    intro vs
    rw [evalAll_cons_eq_ok, List.forall₂_cons_left_iff]
    simp only [ih]

section Children

variable {r : ρ} {a b c : Tree τ χ ρ} {v : V}

theorem eval_node_one : S.eval (.node r [a]) = .ok v ↔ ∃ x, S.eval a = .ok x ∧ S.act r [x] = .ok v := by
  simp only [eval_node_eq_ok, evalAll_cons_eq_ok, evalAll_nil_eq_ok]
  constructor
  · rintro ⟨_, ⟨x, _, hx, rfl, rfl⟩, hact⟩
    exact ⟨x, hx, hact⟩
  · rintro ⟨x, hx, hact⟩
    exact ⟨_, ⟨x, _, hx, rfl, rfl⟩, hact⟩

theorem eval_node_two : S.eval (.node r [a, b]) = .ok v ↔
    ∃ x y, S.eval a = .ok x ∧ S.eval b = .ok y ∧ S.act r [x, y] = .ok v := by
  simp only [eval_node_eq_ok, evalAll_cons_eq_ok, evalAll_nil_eq_ok]
  constructor
  · rintro ⟨_, ⟨x, _, hx, ⟨y, _, hy, rfl, rfl⟩, rfl⟩, hact⟩
    exact ⟨x, y, hx, hy, hact⟩
  · rintro ⟨x, y, hx, hy, hact⟩
    exact ⟨_, ⟨x, _, hx, ⟨y, _, hy, rfl, rfl⟩, rfl⟩, hact⟩

theorem eval_node_three : S.eval (.node r [a, b, c]) = .ok v ↔
    ∃ x y z, S.eval a = .ok x ∧ S.eval b = .ok y ∧ S.eval c = .ok z ∧ S.act r [x, y, z] = .ok v := by
  simp only [eval_node_eq_ok, evalAll_cons_eq_ok, evalAll_nil_eq_ok]
  constructor
  · rintro ⟨_, ⟨x, _, hx, ⟨y, _, hy, ⟨z, _, hz, rfl, rfl⟩, rfl⟩, rfl⟩, hact⟩
    exact ⟨x, y, z, hx, hy, hz, hact⟩
  · rintro ⟨x, y, z, hx, hy, hz, hact⟩
    exact ⟨_, ⟨x, _, hx, ⟨y, _, hy, ⟨z, _, hz, rfl, rfl⟩, rfl⟩, rfl⟩, hact⟩

end Children

namespace Config.Evals

variable {c : Config σ τ χ ρ (Tree τ χ ρ)} {d : Config σ τ χ ρ V}

theorem states (h : Config.Evals S c d) : d.states = c.states := by
  have hmap : ∀ {as : List (σ × Tree τ χ ρ)} {bs : List (σ × V)},
      List.Forall₂ (fun a b => a.1 = b.1 ∧ S.eval a.2 = .ok b.2) as bs →
        bs.map Prod.fst = as.map Prod.fst := by
    intro as bs hab
    induction hab with
    | nil => rfl
    | cons hfst _ ih => rw [List.map_cons, List.map_cons, hfst.1, ih]
  exact hmap h.stack

theorem isSome (h : Config.Evals S c d) : d.lookahead.isSome = c.lookahead.isSome := by
  have hlook := h.lookahead
  generalize c.lookahead = l at hlook ⊢
  generalize d.lookahead = k at hlook ⊢
  cases hlook with
  | some _ => rfl
  | none => rfl

theorem looked (h : Config.Evals S c d) {t : Tree τ χ ρ} (ht : c.lookahead = some t) :
    ∃ v, S.eval t = .ok v ∧ d.lookahead = some v := by
  have hlook := h.lookahead
  rw [ht] at hlook
  generalize d.lookahead = k at hlook ⊢
  cases hlook with
  | some hv => exact ⟨_, hv, rfl⟩

theorem decision [DecidableEq σ] (h : Config.Evals S c d) (T : Tables σ τ ν ρ) :
    d.decision T = c.decision T := by
  rw [Config.decision, h.states, h.isSome, h.input]
  rfl

theorem values (h : Config.Evals S c d) (n : ℕ) : S.evalAll (c.values n) = .ok (d.values n) := by
  refine evalAll_eq_ok.2 ?_
  rw [Config.values, Config.values, List.forall₂_reverse_iff, List.forall₂_map_left_iff,
    List.forall₂_map_right_iff]
  exact (List.forall₂_take n h.stack).imp fun _ _ hab => hab.2

theorem read (h : Config.Evals S c d) {t : Tree τ χ ρ} {v : V} (hv : S.eval t = .ok v) :
    Config.Evals S (c.read t) (d.read v) where
  stack := h.stack
  lookahead := .some hv
  input := h.input
  made := .cons (.read hv) h.made

theorem shift (h : Config.Evals S c d) (s : σ) {t : Tree τ χ ρ} {v : V} (hv : S.eval t = .ok v) :
    Config.Evals S (c.shift s t) (d.shift s v) where
  stack := .cons ⟨rfl, hv⟩ h.stack
  lookahead := .none
  input := congrArg List.tail h.input
  made := h.made

theorem reduce (h : Config.Evals S c d) (n : ℕ) (r : ρ) (s : σ) {t : Tree τ χ ρ} {v : V}
    (hv : S.eval t = .ok v) : Config.Evals S (c.reduce n r s t) (d.reduce n r s v) where
  stack := .cons ⟨rfl, hv⟩ (List.forall₂_drop n h.stack)
  lookahead := h.lookahead
  input := h.input
  made := .cons (.reduced hv) h.made

end Config.Evals

end Eval

section Eval

variable {S : Semantics τ χ ρ V ε}

theorem eval_of_made {made : List (Made ρ (Tree τ χ ρ))} {made' : List (Made ρ V)}
    (h : List.Forall₂ (Made.Evals S) made made') {m : Made ρ (Tree τ χ ρ)} (hm : m ∈ made) :
    ∃ v, S.eval m.value = .ok v := by
  induction h with
  | nil => cases hm
  | cons hevals _ ih =>
    rcases List.mem_cons.1 hm with rfl | hm
    · cases hevals with
      | read hv => exact ⟨_, hv⟩
      | reduced hv => exact ⟨_, hv⟩
    · exact ih hm

end Eval

section Trees

mutual

/-- A tree is the value of its own derivation. -/
theorem eval_trees : ∀ t : Tree τ χ ρ, (Tree.semantics : Semantics τ χ ρ _ ε).eval t = .ok t
  | .leaf _ _ => rfl
  | .node _ ts => eval_node_eq_ok.2 ⟨ts, evalAll_trees ts, rfl⟩

theorem evalAll_trees : ∀ ts : List (Tree τ χ ρ),
    (Tree.semantics : Semantics τ χ ρ _ ε).evalAll ts = .ok ts
  | [] => rfl
  | t :: ts => evalAll_cons_eq_ok.2 ⟨t, ts, eval_trees t, evalAll_trees ts, rfl⟩

end

end Trees

section RunEval

variable [DecidableEq σ] {T : Tables σ τ ν ρ} {S : Semantics τ χ ρ V ε}

/-- With trees for values no step fails. -/
theorem step_trees (T : Tables σ τ ν ρ) (c : Config σ τ χ ρ (Tree τ χ ρ)) :
    ∃ r, step T (Tree.semantics : Semantics τ χ ρ _ ε) c = .ok r := by
  rcases hdec : c.decision T with _ | _ | ⟨t, x⟩ | s | ⟨r, s⟩ <;> simp only [step, hdec]
  · exact ⟨_, rfl⟩
  · exact ⟨_, rfl⟩
  · exact ⟨_, rfl⟩
  · rcases c.lookahead with _ | t
    · exact ⟨_, rfl⟩
    · exact ⟨_, rfl⟩
  · exact ⟨_, rfl⟩

theorem run_trees (T : Tables σ τ ν ρ) : ∀ (n : ℕ) {c : Config σ τ χ ρ (Tree τ χ ρ)}
    {out : Except ε (Bool × List (Made ρ (Tree τ χ ρ)))},
    run T Tree.semantics n c = some out → ∃ r, out = .ok r
  | 0, _, _, h => by cases h
  | n + 1, c, out, h => by
    obtain ⟨r, hr⟩ := step_trees (ε := ε) T c
    rw [run, hr] at h
    rcases r with d | b
    · exact run_trees T n h
    · exact ⟨_, (Option.some.inj h).symm⟩

/-- What was made stays made. -/
theorem Moves.made_suffix {c d : Config σ τ χ ρ V} (h : Moves T S c d) : c.made <:+ d.made := by
  cases h with
  | read _ _ => exact List.suffix_cons _ _
  | shift _ _ => exact List.suffix_rfl
  | reduce _ _ => exact List.suffix_cons _ _

theorem made_suffix_of_run : ∀ (n : ℕ) {c : Config σ τ χ ρ V} {b : Bool} {made : List (Made ρ V)},
    run T S n c = some (.ok (b, made)) → c.made <:+ made
  | 0, _, _, _, h => by cases h
  | n + 1, c, b, made, h => by
    rw [run] at h
    split at h
    · cases h
    · simp only [Option.some.injEq, Except.ok.injEq, Prod.mk.injEq] at h
      rw [h.2]
    · rename_i d hd
      exact (step_eq_next_iff.1 hd).made_suffix.trans (made_suffix_of_run n h)

/-- A step with values does what the step with trees does, or fails at the tree that is made. -/
theorem step_eval {c d : Config σ τ χ ρ (Tree τ χ ρ)} {c' : Config σ τ χ ρ V}
    (h : Config.Evals S c c') (hstep : Moves T (Tree.semantics : Semantics τ χ ρ _ ε) c d) :
    (∃ d', Moves T S c' d' ∧ Config.Evals S d d') ∨
      ∃ m ∈ d.made, ∃ e, m.value.Fails S e ∧ step T S c' = .error e := by
  have hdecision := h.decision T
  cases hstep with
  | @read t x v hread hv =>
    rw [hread] at hdecision
    cases hv
    rcases htoken : S.token t x with e | w
    · refine .inr ⟨_, List.mem_cons_self, e, .leaf htoken, ?_⟩
      rw [step, hdecision]
      simp only [htoken]
      rfl
    · exact .inl ⟨_, .read hdecision htoken, h.read htoken⟩
  | @shift s t hshift hlook =>
    rw [hshift] at hdecision
    obtain ⟨v, hv, hsome⟩ := h.looked hlook
    exact .inl ⟨_, .shift hdecision hsome, h.shift s hv⟩
  | @reduce r s t hreduce ht =>
    rw [hreduce] at hdecision
    cases ht
    have heval : S.eval (.node r (c.values (T.rhs r).length)) = S.act r (c'.values (T.rhs r).length) := by
      rw [Semantics.eval, h.values]
      rfl
    rcases hact : S.act r (c'.values (T.rhs r).length) with e | v
    · refine .inr ⟨_, List.mem_cons_self, e, .node (h.values _) hact, ?_⟩
      rw [step, hdecision]
      simp only [hact]
      rfl
    · exact .inl ⟨_, .reduce hdecision hact, h.reduce _ r s (heval.trans hact)⟩

theorem step_done {c : Config σ τ χ ρ (Tree τ χ ρ)} {c' : Config σ τ χ ρ V}
    (h : Config.Evals S c c') {b : Bool}
    (hstep : step T (Tree.semantics : Semantics τ χ ρ _ ε) c = .ok (.done b)) :
    step T S c' = .ok (.done b) := by
  have hdecision := h.decision T
  have hsome := h.isSome
  rcases hdec : c.decision T with _ | _ | ⟨t, x⟩ | s | ⟨r, s⟩ <;> rw [hdec] at hdecision <;>
    simp only [step, hdec, hdecision] at hstep ⊢
  · cases hstep
    rfl
  · cases hstep
    rfl
  · cases hstep
  · rcases hlook : c.lookahead with _ | t <;> rw [hlook] at hstep hsome
    · cases hstep
      rw [Option.isNone_iff_eq_none.1 (Option.isSome_eq_false_iff.1 hsome)]
    · cases hstep
  · cases hstep

/-- With other values the run is the same, each tree that is made having a value, or it fails at one of
them. -/
theorem run_eval : ∀ (n : ℕ) {c : Config σ τ χ ρ (Tree τ χ ρ)} {c' : Config σ τ χ ρ V} {b : Bool}
    {made : List (Made ρ (Tree τ χ ρ))}, Config.Evals S c c' →
    run T (Tree.semantics : Semantics τ χ ρ _ ε) n c = some (.ok (b, made)) →
      (∃ made', run T S n c' = some (.ok (b, made')) ∧ List.Forall₂ (Made.Evals S) made made') ∨
        ∃ m ∈ made, ∃ e, m.value.Fails S e ∧ run T S n c' = some (.error e)
  | 0, _, _, _, _, _, hrun => by cases hrun
  | n + 1, c, c', b, made, h, hrun => by
    rw [run] at hrun ⊢
    split at hrun
    · cases hrun
    · rename_i hstep
      simp only [Option.some.injEq, Except.ok.injEq, Prod.mk.injEq] at hrun
      rw [step_done h hstep, ← hrun.1, ← hrun.2]
      exact .inl ⟨_, rfl, h.made⟩
    · rename_i d hstep
      rcases step_eval h (step_eq_next_iff.1 hstep) with ⟨d', hmoves, hd⟩ | ⟨m, hm, e, he, herror⟩
      · rw [step_eq_next_iff.2 hmoves]
        exact run_eval n hd hrun
      · rw [herror]
        exact .inr ⟨m, (made_suffix_of_run n hrun).subset hm, e, he, rfl⟩

end RunEval

/-! ### Paths -/

section Paths

variable (T : Tables σ τ ν ρ)

/-- A stack of states that shifts and reductions lead to. -/
inductive Path : List σ → Prop
  | start : Path []
  | shift {ss : List σ} {t : τ} {s : σ} : Path ss → T.action (T.top ss) t = .shift s → Path (s :: ss)
  | goto {ss : List σ} {A : ν} {s : σ} : Path ss → T.goto (T.top ss) A = some s → Path (s :: ss)

/-- The state reduces by the rule, for some next token or for any. -/
def Tables.Reduces (s : σ) (r : ρ) : Prop := T.reduction s = some r ∨ ∃ t, T.action s t = .reduce r

variable {T}

theorem Path.drop {ss : List σ} (h : Path T ss) : ∀ n, Path T (ss.drop n)
  | 0 => h
  | n + 1 => by
    cases h with
    | start => exact .start
    | shift hss _ => exact hss.drop n
    | goto hss _ => exact hss.drop n

theorem Tables.reduceBy_eq {ss : List σ} {r : ρ} {d : Decision σ τ χ ρ} (h : T.reduceBy ss r = d) :
    d = .reject ∨
      ∃ s, d = .reduce r s ∧ T.goto (T.top (ss.drop (T.rhs r).length)) (T.lhs r) = some s := by
  unfold Tables.reduceBy at h
  split at h
  · rename_i s hs
    exact .inr ⟨s, h.symm, hs⟩
  · exact .inl h.symm

variable [DecidableEq σ] {ss : List σ} {looked : Bool} {input : List (Lexeme τ χ)}

/-- What the tables say of what is done. -/
theorem Tables.next_cases {d : Decision σ τ χ ρ} (h : T.next ss looked input = d) :
    (d = .accept ∨ d = .reject) ∨
    (∃ t x rest, d = .read t x ∧ looked = false ∧ input = .token t x :: rest) ∨
    (∃ t x rest s, d = .shift s ∧ looked = true ∧ input = .token t x :: rest ∧
      T.action (T.top ss) t = .shift s) ∨
    ∃ r s, d = .reduce r s ∧ T.Reduces (T.top ss) r ∧
      T.goto (T.top (ss.drop (T.rhs r).length)) (T.lhs r) = some s := by
  unfold Tables.next at h
  split at h
  · exact .inl (.inl h.symm)
  · split at h
    · rename_i r hr
      rcases Tables.reduceBy_eq h with hreject | ⟨s, hs, hgoto⟩
      · exact .inl (.inr hreject)
      · exact .inr (.inr (.inr ⟨r, s, hs, .inl hr, hgoto⟩))
    · rename_i t x rest _
      split at h
      · rename_i hlooked
        split at h
        · rename_i s hs
          exact .inr (.inr (.inl ⟨t, x, rest, s, h.symm, hlooked, rfl, hs⟩))
        · rename_i r hr
          rcases Tables.reduceBy_eq h with hreject | ⟨s, hs, hgoto⟩
          · exact .inl (.inr hreject)
          · exact .inr (.inr (.inr ⟨r, s, hs, .inr ⟨t, hr⟩, hgoto⟩))
        · exact .inl (.inr h.symm)
      · rename_i hlooked
        exact .inr (.inl ⟨t, x, rest, h.symm, by simpa using hlooked, rfl⟩)
    · exact .inl (.inr h.symm)

/-- What is shifted was read and is the first token. -/
theorem Tables.next_eq_shift {s : σ} (h : T.next ss looked input = .shift s) :
    looked = true ∧ ∃ t x rest, input = .token t x :: rest ∧ T.action (T.top ss) t = .shift s := by
  rcases Tables.next_cases h with (hd | hd) | ⟨_, _, _, hd, _⟩ | ⟨t, x, rest, s', hd, hlooked, hinput, ha⟩ |
    ⟨_, _, hd, _⟩
  · cases hd
  · cases hd
  · cases hd
  · cases hd
    exact ⟨hlooked, t, x, rest, hinput, ha⟩
  · cases hd

theorem Tables.next_eq_reduce {r : ρ} {s : σ} (h : T.next ss looked input = .reduce r s) :
    T.Reduces (T.top ss) r ∧ T.goto (T.top (ss.drop (T.rhs r).length)) (T.lhs r) = some s := by
  rcases Tables.next_cases h with (hd | hd) | ⟨_, _, _, hd, _⟩ | ⟨_, _, _, _, hd, _⟩ | ⟨r', s', hd, hr, hgoto⟩
  · cases hd
  · cases hd
  · cases hd
  · cases hd
  · cases hd
    exact ⟨hr, hgoto⟩

/-- Only what was not read is read. -/
theorem Tables.next_eq_read {t : τ} {x : χ} (h : T.next ss looked input = .read t x) :
    looked = false ∧ ∃ rest, input = .token t x :: rest := by
  rcases Tables.next_cases h with (hd | hd) | ⟨t', x', rest, hd, hlooked, hinput⟩ | ⟨_, _, _, _, hd, _⟩ |
    ⟨_, _, hd, _⟩
  · cases hd
  · cases hd
  · cases hd
    exact ⟨hlooked, rest, hinput⟩
  · cases hd
  · cases hd

theorem Moves.path {S : Semantics τ χ ρ V ε} {c d : Config σ τ χ ρ V} (h : Moves T S c d)
    (hc : Path T c.states) : Path T d.states := by
  cases h with
  | read _ _ => exact hc
  | shift hshift _ =>
    obtain ⟨-, t, x, rest, -, haction⟩ := Tables.next_eq_shift hshift
    exact .shift hc haction
  | @reduce r s v hreduce _ =>
    obtain ⟨-, hgoto⟩ := Tables.next_eq_reduce hreduce
    have hstates : (c.reduce (T.rhs r).length r s v).states =
        s :: c.states.drop (T.rhs r).length := by
      simp [Config.states, Config.reduce, List.map_drop]
    rw [hstates]
    exact .goto (hc.drop _) hgoto

end Paths

/-! ### The end of a run -/

section Ends

variable [DecidableEq σ] (T : Tables σ τ ν ρ)

/-- A weight of the states that a reduction lowers and a shift raises by less than `K`. -/
structure Lowers (Φ : List σ → ℕ) (K : ℕ) : Prop where
  shift {ss : List σ} {t : τ} {s : σ} : Path T ss → T.action (T.top ss) t = .shift s →
    Φ (s :: ss) < Φ ss + K
  reduce {ss : List σ} {r : ρ} {s : σ} : Path T ss → T.Reduces (T.top ss) r →
    T.goto (T.top (ss.drop (T.rhs r).length)) (T.lhs r) = some s →
      Φ (s :: ss.drop (T.rhs r).length) < Φ ss

/-- What bounds the steps from `c`: each token is read once and shifted once. -/
def Config.measure (Φ : List σ → ℕ) (K : ℕ) (c : Config σ τ χ ρ V) : ℕ :=
  K * (2 * c.input.length + if c.lookahead.isSome then 0 else 1) + Φ c.states

variable {T} {Φ : List σ → ℕ} {K : ℕ} {S : Semantics τ χ ρ V ε}

theorem Moves.measure_lt (hΦ : Lowers T Φ K) (hK : 0 < K) {c d : Config σ τ χ ρ V}
    (h : Moves T S c d) (hc : Path T c.states) : d.measure Φ K < c.measure Φ K := by
  cases h with
  | read hread _ =>
    have hlooked := (Tables.next_eq_read hread).1
    simp only [Config.measure, Config.read, hlooked, Option.isSome_some, if_true, Bool.false_eq_true,
      if_false, Config.states]
    have hmul : K * (2 * c.input.length + 1) = K * (2 * c.input.length + 0) + K := by ring
    omega
  | @shift s v hshift _ =>
    obtain ⟨hlooked, t, x, rest, hinput, haction⟩ := Tables.next_eq_shift hshift
    have hlt := hΦ.shift hc haction
    have hmul : K * (2 * (rest.length + 1) + 0) = K * (2 * rest.length + 1) + K := by ring
    simp only [Config.states] at hlt
    simp only [Config.measure, Config.shift, hlooked, hinput, if_true, Option.isSome_none,
      Bool.false_eq_true, if_false, Config.states, List.tail_cons, List.length_cons, List.map_cons]
    omega
  | @reduce r s v hreduce _ =>
    obtain ⟨hr, hgoto⟩ := Tables.next_eq_reduce hreduce
    have hlt := hΦ.reduce hc hr hgoto
    simp only [Config.states, ← List.map_drop] at hlt
    exact Nat.add_lt_add_left hlt _

/-- A run of as many steps as the measure of the configuration comes to an end. -/
theorem run_isSome (hΦ : Lowers T Φ K) (hK : 0 < K) : ∀ (n : ℕ) {c : Config σ τ χ ρ V},
    Path T c.states → c.measure Φ K < n → (run T S n c).isSome
  | 0, _, _, hlt => absurd hlt (Nat.not_lt_zero _)
  | n + 1, c, hc, hlt => by
    rw [run]
    split
    · rfl
    · rfl
    · rename_i d hd
      have hmoves := step_eq_next_iff.1 hd
      exact run_isSome hΦ hK n (hmoves.path hc) (by have := hmoves.measure_lt hΦ hK hc; omega)

end Ends

/-! ### Derivations -/

section Derivations

variable (T : Tables σ τ ν ρ)

/-- The symbols that lead to the states are those of the rules that these states reduce by. -/
structure Spells (symbol : σ → τ ⊕ ν) : Prop where
  shift {s s' : σ} {t : τ} : T.action s t = .shift s' → symbol s' = .inl t
  goto {s s' : σ} {A : ν} : T.goto s A = some s' → symbol s' = .inr A
  reduce {ss : List σ} {r : ρ} : Path T ss → T.Reduces (T.top ss) r →
    (ss.take (T.rhs r).length).map symbol = (T.rhs r).reverse

/-- The trees are derivations of the symbols of the states, and with the tokens left they derive the
text. -/
structure Derives (symbol : σ → τ ⊕ ν) (text : List (Lexeme τ χ))
    (c : Config σ τ χ ρ (Tree τ χ ρ)) : Prop where
  path : Path T c.states
  roots : ∀ a ∈ c.stack, a.2.root T = symbol a.1
  looked : ∀ t ∈ c.lookahead, ∃ k x rest, t = .leaf k x ∧ c.input = .token k x :: rest
  valid : ∀ m ∈ c.made, m.value.Valid T
  stacked : ∀ a ∈ c.stack, a.2.Valid T
  words : Tree.wordsAll (c.stack.map Prod.snd).reverse ++ c.input = text
  parts : ∀ m ∈ c.made, m.value.words <:+: text

variable {T} {symbol : σ → τ ⊕ ν} {text : List (Lexeme τ χ)}

theorem wordsAll_append : ∀ ts us : List (Tree τ χ ρ),
    Tree.wordsAll (ts ++ us) = Tree.wordsAll ts ++ Tree.wordsAll us
  | [], us => rfl
  | t :: ts, us => by
    rw [List.cons_append, Tree.wordsAll, Tree.wordsAll, wordsAll_append ts us, List.append_assoc]

theorem words_subset {ts : List (Tree τ χ ρ)} {t : Tree τ χ ρ} (ht : t ∈ ts) :
    t.words ⊆ Tree.wordsAll ts := by
  obtain ⟨before, after, rfl⟩ := List.append_of_mem ht
  rw [wordsAll_append, Tree.wordsAll]
  exact fun x hx => by simp [hx]

theorem wordsAll_singleton (t : Tree τ χ ρ) : Tree.wordsAll [t] = t.words := by
  simp [Tree.wordsAll]

theorem derives_start (text : List (Lexeme τ χ)) : Derives T symbol text (Config.start text) where
  path := .start
  roots := by simp [Config.start]
  looked := by simp [Config.start]
  valid := by simp [Config.start]
  stacked := by simp [Config.start]
  words := by simp [Config.start, Tree.wordsAll]
  parts := by simp [Config.start]

/-- The words of the symbols below and of those that are reduced are the words of all. -/
theorem words_values (c : Config σ τ χ ρ (Tree τ χ ρ)) (n : ℕ) :
    Tree.wordsAll (c.stack.map Prod.snd).reverse =
      Tree.wordsAll ((c.stack.drop n).map Prod.snd).reverse ++ Tree.wordsAll (c.values n) := by
  rw [← wordsAll_append, Config.values, ← List.reverse_append, ← List.map_append,
    List.take_append_drop]

variable [DecidableEq σ]

theorem Moves.derives (hT : Spells T symbol) {c d : Config σ τ χ ρ (Tree τ χ ρ)}
    (h : Moves T (Tree.semantics : Semantics τ χ ρ _ ε) c d) (hc : Derives T symbol text c) :
    Derives T symbol text d := by
  have hpath := h.path hc.path
  cases h with
  | @read t x v hread hv =>
    cases hv
    obtain ⟨-, rest, hinput⟩ := Tables.next_eq_read hread
    refine ⟨hpath, hc.roots, ?_, ?_, hc.stacked, hc.words, ?_⟩
    · intro u hu
      obtain rfl := Option.some.inj hu
      exact ⟨t, x, rest, rfl, hinput⟩
    · exact List.forall_mem_cons.2 ⟨.leaf t x, hc.valid⟩
    · refine List.forall_mem_cons.2 ⟨?_, hc.parts⟩
      rw [← hc.words, hinput]
      exact ⟨Tree.wordsAll (c.stack.map Prod.snd).reverse, rest, by simp [Made.value, Tree.words]⟩
  | @shift s v hshift hlook =>
    obtain ⟨-, t, x, rest, hinput, haction⟩ := Tables.next_eq_shift hshift
    obtain ⟨k, y, rest', rfl, hinput'⟩ := hc.looked v hlook
    rw [hinput] at hinput'
    cases hinput'
    refine ⟨hpath, ?_, by simp [Config.shift], hc.valid, ?_, ?_, hc.parts⟩
    · exact List.forall_mem_cons.2 ⟨(hT.shift haction).symm, hc.roots⟩
    · exact List.forall_mem_cons.2 ⟨.leaf t x, hc.stacked⟩
    · rw [← hc.words, hinput]
      simp [Config.shift, hinput, wordsAll_append, wordsAll_singleton, Tree.words]
  | @reduce r s v hreduce hv =>
    cases hv
    obtain ⟨hr, hgoto⟩ := Tables.next_eq_reduce hreduce
    have hvalid : Tree.Valid T (.node r (c.values (T.rhs r).length)) := by
      refine .node ?_ fun t ht => ?_
      · have hspell := congrArg List.reverse (hT.reduce hc.path hr)
        rw [List.reverse_reverse] at hspell
        refine Eq.trans ?_ hspell
        rw [Config.values, List.map_reverse, List.map_map, Config.states, ← List.map_take, List.map_map]
        exact congrArg List.reverse (List.map_congr_left fun a ha => hc.roots a (List.mem_of_mem_take ha))
      · rw [Config.values, List.mem_reverse, List.mem_map] at ht
        obtain ⟨a, ha, rfl⟩ := ht
        exact hc.stacked a (List.mem_of_mem_take ha)
    have hwords : Tree.wordsAll ((c.stack.drop (T.rhs r).length).map Prod.snd).reverse ++
        ((Tree.node r (c.values (T.rhs r).length)).words ++ c.input) = text := by
      rw [← hc.words, words_values c (T.rhs r).length, List.append_assoc]
      rfl
    refine ⟨hpath, ?_, hc.looked, ?_, ?_, ?_, ?_⟩
    · refine List.forall_mem_cons.2 ⟨(hT.goto hgoto).symm, fun a ha => ?_⟩
      exact hc.roots a (List.mem_of_mem_drop ha)
    · exact List.forall_mem_cons.2 ⟨hvalid, hc.valid⟩
    · exact List.forall_mem_cons.2 ⟨hvalid, fun a ha => hc.stacked a (List.mem_of_mem_drop ha)⟩
    · rw [← hwords, Config.reduce, List.map_cons, List.reverse_cons, wordsAll_append,
        wordsAll_singleton, List.append_assoc]
    · exact List.forall_mem_cons.2 ⟨⟨_, c.input, by rw [List.append_assoc]; exact hwords⟩, hc.parts⟩

/-- All that a run makes are derivations, and each derives a part of the text. -/
theorem run_derives (hT : Spells T symbol) : ∀ (n : ℕ) {c : Config σ τ χ ρ (Tree τ χ ρ)} {b : Bool}
    {made : List (Made ρ (Tree τ χ ρ))}, Derives T symbol text c →
    run T (Tree.semantics : Semantics τ χ ρ _ ε) n c = some (.ok (b, made)) →
      ∀ m ∈ made, m.value.Valid T ∧ m.value.words <:+: text
  | 0, _, _, _, _, hrun => by cases hrun
  | n + 1, c, b, made, hc, hrun => by
    rw [run] at hrun
    split at hrun
    · cases hrun
    · simp only [Option.some.injEq, Except.ok.injEq, Prod.mk.injEq] at hrun
      rw [← hrun.2]
      exact fun m hm => ⟨hc.valid m hm, hc.parts m hm⟩
    · rename_i d hd
      exact run_derives hT n ((step_eq_next_iff.1 hd).derives hT hc) hrun

theorem Tables.eq_final_of_accept {ss : List σ} {looked : Bool} {input : List (Lexeme τ χ)}
    (h : T.next ss looked input = (.accept : Decision σ τ χ ρ)) : T.top ss = T.final := by
  have hreduceBy : ∀ r, T.reduceBy ss r ≠ (.accept : Decision σ τ χ ρ) := by
    intro r hr
    rcases Tables.reduceBy_eq hr with hd | ⟨s, hd, -⟩
    · cases hd
    · cases hd
  unfold Tables.next at h
  split at h
  · assumption
  · split at h
    · exact absurd h (hreduceBy _)
    · split at h
      · split at h
        · cases h
        · exact absurd h (hreduceBy _)
        · cases h
      · cases h
    · cases h

/-- A text that is accepted is derived by what is on the stack in the end. -/
theorem derives_of_accept (hT : Spells T symbol) : ∀ (n : ℕ) {c : Config σ τ χ ρ (Tree τ χ ρ)}
    {made : List (Made ρ (Tree τ χ ρ))}, Derives T symbol text c →
    run T (Tree.semantics : Semantics τ χ ρ _ ε) n c = some (.ok (true, made)) →
      ∃ d, Derives T symbol text d ∧ d.made = made ∧ T.top d.states = T.final
  | 0, _, _, _, hrun => by cases hrun
  | n + 1, c, made, hc, hrun => by
    rw [run] at hrun
    split at hrun
    · cases hrun
    · rename_i b hstep
      simp only [Option.some.injEq, Except.ok.injEq, Prod.mk.injEq] at hrun
      obtain ⟨rfl, hmade⟩ := hrun
      refine ⟨c, hc, hmade, ?_⟩
      unfold step at hstep
      split at hstep
      · rename_i hdec
        exact Tables.eq_final_of_accept hdec
      · cases hstep
      · cases hstep
      · split at hstep <;> cases hstep
      · cases hstep
    · rename_i d hd
      exact derives_of_accept hT n ((step_eq_next_iff.1 hd).derives hT hc) hrun

end Derivations

/-! ### Steps in a row -/

section Reaches

variable [DecidableEq σ] (T : Tables σ τ ν ρ) (S : Semantics τ χ ρ V ε)

/-- Steps lead from the one configuration to the other. -/
def Reaches : Config σ τ χ ρ V → Config σ τ χ ρ V → Prop := Relation.ReflTransGen (Moves T S)

variable {T S}

/-- A run goes through what its start reaches. -/
theorem run_of_reaches {c d : Config σ τ χ ρ V} (h : Reaches T S c d) :
    ∀ {n : ℕ} {out : Except ε (Bool × List (Made ρ V))}, run T S n c = some out →
      ∃ m, run T S m d = some out := by
  induction h using Relation.ReflTransGen.head_induction_on with
  | refl => exact fun hrun => ⟨_, hrun⟩
  | @head a b hab _ ih =>
    intro n out hrun
    rcases n with _ | n
    · cases hrun
    · rw [run, step_eq_next_iff.2 hab] at hrun
      exact ih hrun

/-- A run that ends ends where steps lead to the end. -/
theorem run_of_reaches_done {c d : Config σ τ χ ρ V} (h : Reaches T S c d) {b : Bool}
    (hdone : step T S d = .ok (.done b)) {n : ℕ} (hrun : (run T S n c).isSome) :
    run T S n c = some (.ok (b, d.made)) := by
  obtain ⟨out, hout⟩ := Option.isSome_iff_exists.1 hrun
  obtain ⟨m, hm⟩ := run_of_reaches h hout
  rcases m with _ | m
  · cases hm
  · rw [run, hdone] at hm
    rw [hout, ← hm]

variable {st below : List (σ × V)} {la : Option V} {input : List (Lexeme τ χ)}
  {made : List (Made ρ V)} {t : τ} {x : χ} {rest : List (Lexeme τ χ)} {w v : V} {r : ρ} {s : σ}

/-- A state that reduces nothing by itself has the next token read. -/
theorem reaches_read (hfinal : T.top (st.map Prod.fst) ≠ T.final)
    (hnone : T.reduction (T.top (st.map Prod.fst)) = none) (hw : S.token t x = .ok w) :
    Reaches T S ⟨st, none, .token t x :: rest, made⟩
      ⟨st, some w, .token t x :: rest, .read w :: made⟩ := by
  refine .single (.read (t := t) (x := x) ?_ hw)
  simp [Config.decision, Config.states, Tables.next, hfinal, hnone]

/-- The next token is read, if it was not before. -/
theorem reaches_looked (st : List (σ × V)) (made : List (Made ρ V)) (rest : List (Lexeme τ χ))
    (hfinal : T.top (st.map Prod.fst) ≠ T.final)
    (hnone : T.reduction (T.top (st.map Prod.fst)) = none) (hw : S.token t x = .ok w)
    (hla : la = none ∨ la = some w) : ∃ made',
      Reaches T S ⟨st, la, .token t x :: rest, made⟩ ⟨st, some w, .token t x :: rest, made'⟩ := by
  rcases hla with rfl | rfl
  · exact ⟨_, reaches_read hfinal hnone hw⟩
  · exact ⟨made, .refl⟩

theorem reaches_shift (hfinal : T.top (st.map Prod.fst) ≠ T.final)
    (hnone : T.reduction (T.top (st.map Prod.fst)) = none)
    (haction : T.action (T.top (st.map Prod.fst)) t = .shift s) :
    Reaches T S ⟨st, some w, .token t x :: rest, made⟩ ⟨(s, w) :: st, none, rest, made⟩ := by
  refine .single (.shift (v := w) ?_ rfl)
  simp [Config.decision, Config.states, Tables.next, hfinal, hnone, haction]

/-- The next token is read, if it was not before, and shifted. -/
theorem reaches_token (st : List (σ × V)) (made : List (Made ρ V)) (rest : List (Lexeme τ χ))
    (hfinal : T.top (st.map Prod.fst) ≠ T.final)
    (hnone : T.reduction (T.top (st.map Prod.fst)) = none)
    (haction : T.action (T.top (st.map Prod.fst)) t = .shift s) (hw : S.token t x = .ok w)
    (hla : la = none ∨ la = some w) : ∃ made',
      Reaches T S ⟨st, la, .token t x :: rest, made⟩ ⟨(s, w) :: st, none, rest, made'⟩ := by
  obtain ⟨made', hlooked⟩ := reaches_looked st made rest hfinal hnone hw hla
  exact ⟨made', hlooked.trans (reaches_shift hfinal hnone haction)⟩

/-- What a state reduces by the next token or by none. -/
theorem reaches_reduce (popped : List (σ × V)) (hlen : popped.length = (T.rhs r).length)
    (hfinal : T.top ((popped ++ below).map Prod.fst) ≠ T.final)
    (hreduces : T.reduction (T.top ((popped ++ below).map Prod.fst)) = some r ∨
      T.reduction (T.top ((popped ++ below).map Prod.fst)) = none ∧ la.isSome ∧
        ∃ t x rest, input = .token t x :: rest ∧
          T.action (T.top ((popped ++ below).map Prod.fst)) t = .reduce r)
    (hgoto : T.goto (T.top (below.map Prod.fst)) (T.lhs r) = some s)
    (hact : S.act r (popped.map Prod.snd).reverse = .ok v) :
    Reaches T S ⟨popped ++ below, la, input, made⟩
      ⟨(s, v) :: below, la, input, .reduced r v :: made⟩ := by
  have hby : T.reduceBy ((popped ++ below).map Prod.fst) r = (.reduce r s : Decision σ τ χ ρ) := by
    rw [Tables.reduceBy, ← hlen, ← List.map_drop, List.drop_left, hgoto]
  have hmoves := Moves.reduce (T := T) (S := S) (c := ⟨popped ++ below, la, input, made⟩) (r := r) (s := s)
    (v := v) ?_ ?_
  · rw [Config.reduce, ← hlen, List.drop_left] at hmoves
    exact .single hmoves
  · change T.next ((popped ++ below).map Prod.fst) la.isSome input = _
    generalize (popped ++ below).map Prod.fst = ss at hfinal hreduces hby ⊢
    rcases hreduces with hsome | ⟨hnone, hla, t, x, rest, rfl, haction⟩
    · simp [Tables.next, hfinal, hsome, hby]
    · simp [Tables.next, hfinal, hnone, hla, haction, hby]
  · rw [Config.values, ← hlen, List.take_left]
    exact hact

end Reaches

end LR
