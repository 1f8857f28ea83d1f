import H9.Proofs.CliParser

/-!
# Precedences on the command line

A number on the command line of h9cli is an expression. The precedences in h9cli/parser.yy say that
`*` and `/` bind tighter than `+` and `-`, and that all of them associate to the left. The rule of the
unary minus has the precedence of its token, the one of the subtraction. So what follows a negated
operand by `*` or `/` is under the minus, and `3 * - 1 / 2` is `3 * -(1 / 2)`.

`usual` groups what any derivation derives in the usual way, with the minus binding tightest, and
`regroup` turns this into the grouping that the parser makes.
-/

namespace H9

open LR

namespace NumExp

/-! ### Groupings -/

/-- How tight the outermost operation binds. -/
def level : NumExp → ℕ
  | binary o _ _ => o.level
  | _ => 2

/-- The expression ends in the operand of a minus. -/
def opens : NumExp → Bool
  | minus _ => true
  | binary _ _ r => r.opens
  | _ => false

/-- The unary minus binds tighter than `*` and `/`, these tighter than `+` and `-`, and all of these
associate to the left. -/
def Usual : NumExp → Prop
  | number _ => True
  | binary o l r => (l.Usual ∧ r.Usual) ∧ o.level ≤ l.level ∧ o.level < r.level
  | paren e => e.Usual
  | minus e => e.Usual ∧ e.level = 2

/-- The precedences decide, that of a minus being the one of a subtraction. -/
def Declared : NumExp → Prop
  | number _ => True
  | binary o l r => (l.Declared ∧ r.Declared) ∧ o.level ≤ l.level ∧ o.level < r.level ∧
    (o.level = 1 → l.opens = false)
  | paren e => e.Declared
  | minus e => e.Declared ∧ 1 ≤ e.level

/-- The operation of `o` on the expression and `f`, under the last minus that ends the expression. -/
def absorb (o : BinOp) (f : NumExp) : NumExp → NumExp
  | number l => binary o (number l) f
  | paren e => binary o (paren e) f
  | minus e => minus (absorb o f e)
  | binary o' l r => if r.opens then binary o' l (absorb o f r) else binary o (binary o' l r) f

/-- The grouping with what follows a negated operand by `*` or `/` moved under the minus. -/
def regroup : NumExp → NumExp
  | number l => number l
  | binary o l r =>
    if o.level = 1 then absorb o r.regroup l.regroup else binary o l.regroup r.regroup
  | paren e => paren e.regroup
  | minus e => minus e.regroup

/-- The usual grouping of an expression, the operator `o` and an operand that binds tighter. -/
def attach (o : BinOp) : NumExp → NumExp → NumExp
  | binary o' l r, f =>
    if o.level ≤ o'.level then binary o (binary o' l r) f else binary o' l (binary o r f)
  | e, f => binary o e f

/-- The usual grouping of two expressions with the operator `o` between them. -/
def join (o : BinOp) (l : NumExp) : NumExp → NumExp
  | binary o' a b => attach o' (join o l a) b
  | f => attach o l f

/-- The usual grouping of an expression after a minus. -/
def negate : NumExp → NumExp
  | binary o l r => binary o l.negate r
  | e => minus e

/-- The usual grouping of what is derived. -/
def usual : NumExp → NumExp
  | number l => number l
  | binary o l r => join o l.usual r.usual
  | paren e => paren e.usual
  | minus e => e.usual.negate

theorem level_le (e : NumExp) : e.level ≤ 2 := by
  cases e with
  | binary o _ _ => cases o <;> simp [level, BinOp.level]
  | _ => exact le_rfl

theorem level_op_le (o : BinOp) : o.level ≤ 1 := by
  cases o <;> simp [BinOp.level]

/-! ### The usual grouping -/

theorem attach_of_le {o : BinOp} {e : NumExp} (f : NumExp) (h : o.level ≤ e.level) :
    attach o e f = binary o e f := by
  cases e with
  | binary o' l r => exact if_pos h
  | _ => rfl

theorem attach_of_lt {o o' : BinOp} (l r f : NumExp) (h : o'.level < o.level) :
    attach o (binary o' l r) f = binary o' l (binary o r f) := if_neg (Nat.not_le.2 h)

theorem tokens_attach (o : BinOp) (e f : NumExp) :
    (attach o e f).tokens = e.tokens ++ .token (.OP o) none :: f.tokens := by
  unfold attach
  split
  · split_ifs
    · rfl
    · simp [tokens]
  · rfl

theorem tokens_join (o : BinOp) (l : NumExp) : ∀ r : NumExp,
    (join o l r).tokens = l.tokens ++ .token (.OP o) none :: r.tokens
  | number _ => tokens_attach o l _
  | binary o' a b => by
    rw [join, tokens_attach, tokens_join o l a]
    simp [tokens]
  | paren _ => tokens_attach o l _
  | minus _ => tokens_attach o l _

theorem tokens_negate : ∀ e : NumExp, e.negate.tokens = .token (.OP .sub) none :: e.tokens
  | number _ => rfl
  | binary o l r => by
    rw [negate, tokens, tokens_negate l]
    rfl
  | paren _ => rfl
  | minus _ => rfl

/-- The grouping derives the same tokens. -/
theorem tokens_usual : ∀ e : NumExp, e.usual.tokens = e.tokens
  | number _ => rfl
  | binary o l r => by rw [usual, tokens_join, tokens_usual l, tokens_usual r, tokens]
  | paren e => by rw [usual, tokens, tokens_usual e, tokens]
  | minus e => by rw [usual, tokens_negate, tokens_usual e, tokens]

theorem usual_attach {o : BinOp} {e f : NumExp} (he : e.Usual) (hf : f.Usual)
    (h : o.level < f.level) : (attach o e f).Usual := by
  by_cases hle : o.level ≤ e.level
  · rw [attach_of_le f hle]
    exact ⟨⟨he, hf⟩, hle, h⟩
  · cases e with
    | binary o' l r =>
      have hlt : o'.level < o.level := Nat.not_le.1 hle
      rw [attach_of_lt l r f hlt]
      have hlevel := level_op_le o
      obtain ⟨⟨hl, hr⟩, hleft, hright⟩ := he
      exact ⟨⟨hl, ⟨hr, hf⟩, by omega, h⟩, hleft, hlt⟩
    | _ => exact absurd ((level_op_le o).trans one_le_two) hle

theorem usual_join {o : BinOp} {l : NumExp} (hl : l.Usual) : ∀ {r : NumExp}, r.Usual →
    (join o l r).Usual
  | number _, hr => usual_attach hl hr (Nat.lt_succ_of_le (level_op_le o))
  | binary _ _ _, hr => usual_attach (usual_join hl hr.1.1) hr.1.2 hr.2.2
  | paren _, hr => usual_attach hl hr (Nat.lt_succ_of_le (level_op_le o))
  | minus _, hr => usual_attach hl hr (Nat.lt_succ_of_le (level_op_le o))

theorem level_negate : ∀ e : NumExp, e.negate.level = e.level
  | number _ => rfl
  | binary _ _ _ => rfl
  | paren _ => rfl
  | minus _ => rfl

theorem usual_negate : ∀ {e : NumExp}, e.Usual → e.negate.Usual
  | number _, h => ⟨h, rfl⟩
  | binary o l r, h => by
    refine ⟨⟨usual_negate h.1.1, h.1.2⟩, ?_, h.2.2⟩
    rw [level_negate]
    exact h.2.1
  | paren _, h => ⟨h, rfl⟩
  | minus _, h => ⟨h, rfl⟩

theorem usual_usual : ∀ e : NumExp, e.usual.Usual
  | number _ => trivial
  | binary _ l r => usual_join (usual_usual l) (usual_usual r)
  | paren e => usual_usual e
  | minus e => usual_negate (usual_usual e)

/-! ### Only one grouping is usual -/

theorem attach_of_level_zero {o : BinOp} (ho : o.level = 0) (e f : NumExp) :
    attach o e f = binary o e f := attach_of_le f (ho ▸ Nat.zero_le _)

theorem join_attach (o o' : BinOp) (l e f : NumExp) :
    join o l (attach o' e f) = attach o' (join o l e) f := by
  by_cases hle : o'.level ≤ e.level
  · rw [attach_of_le f hle]
    rfl
  · cases e with
    | binary o₁ a b =>
      have hlt : o₁.level < o'.level := Nat.not_le.1 hle
      have hzero : o₁.level = 0 := by
        have := level_op_le o'
        omega
      rw [attach_of_lt a b f hlt, join, join, attach_of_level_zero hzero, attach_of_level_zero hzero,
        attach_of_lt _ b f hlt]
    | _ => exact absurd ((level_op_le o').trans one_le_two) hle

theorem join_assoc (o o' : BinOp) (l r : NumExp) : ∀ f : NumExp,
    join o l (join o' r f) = join o' (join o l r) f
  | number _ => join_attach o o' l r _
  | binary o₁ a b => by rw [join, join_attach, join_assoc o o' l r a, join]
  | paren _ => join_attach o o' l r _
  | minus _ => join_attach o o' l r _

theorem negate_attach (o : BinOp) (e f : NumExp) : (attach o e f).negate = attach o e.negate f := by
  by_cases hle : o.level ≤ e.level
  · rw [attach_of_le f hle, attach_of_le f ((level_negate e).symm ▸ hle)]
    rfl
  · cases e with
    | binary o₁ a b =>
      have hlt : o₁.level < o.level := Nat.not_le.1 hle
      rw [attach_of_lt a b f hlt, negate, negate, attach_of_lt _ b f hlt]
    | _ => exact absurd ((level_op_le o).trans one_le_two) hle

theorem negate_join (o : BinOp) (l : NumExp) : ∀ r : NumExp, (join o l r).negate = join o l.negate r
  | number _ => negate_attach o l _
  | binary _ a b => by rw [join, negate_attach, negate_join o l a, join]
  | paren _ => negate_attach o l _
  | minus _ => negate_attach o l _

theorem join_of_lt {o : BinOp} {l : NumExp} (hl : o.level ≤ l.level) : ∀ {r : NumExp}, r.Usual →
    o.level < r.level → join o l r = binary o l r
  | number _, _, _ => attach_of_le _ hl
  | binary o' a b, hr, hlt => by
    rw [join, join_of_lt hl hr.1.1 (hlt.trans_le hr.2.1), attach_of_lt l a b hlt]
  | paren _, _, _ => attach_of_le _ hl
  | minus _, _, _ => attach_of_le _ hl

/-- A usual grouping is its own. -/
theorem usual_eq_self : ∀ {e : NumExp}, e.Usual → e.usual = e
  | number _, _ => rfl
  | binary o l r, h => by
    rw [usual, usual_eq_self h.1.1, usual_eq_self h.1.2, join_of_lt h.2.1 h.1.2 h.2.2]
  | paren e, h => by rw [usual, usual_eq_self (e := e) h]
  | minus e, h => by
    rw [usual, usual_eq_self h.1]
    cases e with
    | binary o _ _ => exact absurd (h.2 ▸ level_op_le o : 2 ≤ 1) (by decide)
    | _ => rfl

theorem usual_absorb (o : BinOp) (f : NumExp) : ∀ e : NumExp,
    (absorb o f e).usual = join o e.usual f.usual
  | number _ => rfl
  | binary o' l r => by
    rw [absorb]
    split_ifs
    · rw [usual, usual_absorb o f r, join_assoc, usual]
    · rfl
  | paren _ => rfl
  | minus e => by rw [absorb, usual, usual_absorb o f e, negate_join, usual]

/-- What the parser groups otherwise is grouped back. -/
theorem usual_regroup : ∀ e : NumExp, e.regroup.usual = e.usual
  | number _ => rfl
  | binary o l r => by
    rw [regroup]
    split_ifs
    · rw [usual_absorb, usual_regroup l, usual_regroup r, usual]
    · rw [usual, usual_regroup l, usual_regroup r, usual]
  | paren e => by rw [regroup, usual, usual_regroup e, usual]
  | minus e => by rw [regroup, usual, usual_regroup e, usual]

theorem tree_injective : ∀ {e f : NumExp}, e.tree = f.tree → e = f
  | number _, number _, h => by
    simp only [tree, Tree.node.injEq, List.cons.injEq, Tree.leaf.injEq, Option.some.injEq, true_and,
      and_true] at h
    rw [h]
  | binary _ _ _, binary _ _ _, h => by
    simp only [tree, Tree.node.injEq, List.cons.injEq, Rule.binary.injEq, and_true] at h
    obtain ⟨rfl, hl, -, hr⟩ := h
    rw [tree_injective hl, tree_injective hr]
  | paren _, paren _, h => by
    simp only [tree, Tree.node.injEq, List.cons.injEq, true_and, and_true] at h
    rw [tree_injective h]
  | minus _, minus _, h => by
    simp only [tree, Tree.node.injEq, List.cons.injEq, true_and, and_true] at h
    rw [tree_injective h]
  | number _, binary _ _ _, h | number _, paren _, h | number _, minus _, h => by
    simp [tree] at h
  | binary _ _ _, number _, h | binary _ _ _, paren _, h | binary _ _ _, minus _, h => by
    simp [tree] at h
  | paren _, number _, h | paren _, binary _ _ _, h | paren _, minus _, h => by
    simp [tree] at h
  | minus _, number _, h | minus _, binary _ _ _, h | minus _, paren _, h => by
    simp [tree] at h

/-! ### The grouping of the parser -/

theorem tokens_absorb (o : BinOp) (f : NumExp) : ∀ e : NumExp,
    (absorb o f e).tokens = e.tokens ++ .token (.OP o) none :: f.tokens
  | number _ => rfl
  | binary o' l r => by
    rw [absorb]
    split_ifs
    · rw [tokens, tokens_absorb o f r]
      simp [tokens]
    · rfl
  | paren _ => rfl
  | minus e => by
    rw [absorb, tokens, tokens_absorb o f e]
    rfl

theorem tokens_regroup : ∀ e : NumExp, e.regroup.tokens = e.tokens
  | number _ => rfl
  | binary o l r => by
    rw [regroup]
    split_ifs
    · rw [tokens_absorb, tokens_regroup l, tokens_regroup r, tokens]
    · rw [tokens, tokens_regroup l, tokens_regroup r, tokens]
  | paren e => by rw [regroup, tokens, tokens_regroup e, tokens]
  | minus e => by rw [regroup, tokens, tokens_regroup e, tokens]

section Absorb

variable {o : BinOp} {f : NumExp}

theorem level_absorb (ho : o.level = 1) : ∀ {e : NumExp}, 1 ≤ e.level → 1 ≤ (absorb o f e).level
  | number _, _ => ho.ge
  | binary o' l r, he => by
    rw [absorb]
    split_ifs
    · exact he
    · exact ho.ge
  | paren _, _ => ho.ge
  | minus _, _ => one_le_two

/-- Under a minus the operand binds as tight as before. -/
theorem level_absorb_of_two {e : NumExp} (he : e.level = 2) (hopens : e.opens = true) :
    (absorb o f e).level = 2 := by
  cases e with
  | minus e => rfl
  | binary o' _ _ => exact absurd (he ▸ level_op_le o' : 2 ≤ 1) (by decide)
  | _ => cases hopens

theorem declared_absorb (ho : o.level = 1) (hf : f.Declared) (hlevel : f.level = 2) :
    ∀ {e : NumExp}, e.Declared → 1 ≤ e.level → (absorb o f e).Declared
  | number _, he, _ => ⟨⟨he, hf⟩, ho.trans_le one_le_two, by omega, fun _ => rfl⟩
  | binary o' l r, he, hle => by
    have ho' : o'.level = 1 := le_antisymm (level_op_le o') hle
    obtain ⟨⟨hl, hr⟩, hleft, hright, hopens⟩ := he
    have hrlevel : r.level = 2 := by
      have := level_le r
      omega
    rw [absorb]
    split_ifs with hro
    · refine ⟨⟨hl, declared_absorb ho hf hlevel hr (by omega)⟩, hleft, ?_, hopens⟩
      rw [level_absorb_of_two hrlevel hro]
      omega
    · refine ⟨⟨⟨⟨hl, hr⟩, hleft, hright, hopens⟩, hf⟩, ?_, by omega, fun _ => ?_⟩
      · exact (ho.trans ho'.symm).le
      · exact Bool.not_eq_true _ ▸ hro
  | paren _, he, _ => ⟨⟨he, hf⟩, ho.trans_le one_le_two, by omega, fun _ => rfl⟩
  | minus e, he, _ => ⟨declared_absorb ho hf hlevel he.1 he.2, level_absorb ho he.2⟩

end Absorb

theorem level_regroup_of_two : ∀ {e : NumExp}, e.level = 2 → e.regroup.level = 2
  | number _, _ => rfl
  | binary o _ _, h => absurd (h ▸ level_op_le o : 2 ≤ 1) (by decide)
  | paren _, _ => rfl
  | minus _, _ => rfl

/-- A usual grouping becomes one that the precedences decide on. -/
theorem declared_regroup : ∀ {e : NumExp}, e.Usual →
    e.regroup.Declared ∧ min 1 e.level ≤ e.regroup.level
  | number _, _ => ⟨trivial, min_le_right _ _⟩
  | binary o l r, h => by
    obtain ⟨⟨hl, hr⟩, hleft, hright⟩ := h
    obtain ⟨hdl, hll⟩ := declared_regroup hl
    obtain ⟨hdr, hlr⟩ := declared_regroup hr
    rw [regroup]
    split_ifs with ho
    · have hrlevel : r.level = 2 := by
        have := level_le r
        omega
      have hfactor := level_regroup_of_two hrlevel
      have hproduct : 1 ≤ l.regroup.level := by omega
      refine ⟨declared_absorb ho hdr hfactor hdl hproduct, ?_⟩
      exact (min_le_left _ _).trans (level_absorb ho hproduct)
    · have hsum := level_op_le o
      refine ⟨⟨⟨hdl, hdr⟩, by omega, by omega, fun ho' => absurd ho' ho⟩, ?_⟩
      exact min_le_right _ _
  | paren e, h => ⟨(declared_regroup (e := e) h).1, min_le_right _ _⟩
  | minus e, h => by
    obtain ⟨hd, hlevel⟩ := declared_regroup h.1
    refine ⟨⟨hd, ?_⟩, min_le_right _ _⟩
    rw [level_regroup_of_two h.2]
    exact one_le_two

end NumExp

/-! ### Where the groupings agree -/

namespace NumExp

/-- No `*` or `/` follows a negated operand. -/
def Plain : NumExp → Prop
  | number _ => True
  | binary o l r => (l.Plain ∧ r.Plain) ∧ (o.level = 1 → l.opens = false)
  | paren e => e.Plain
  | minus e => e.Plain

theorem absorb_of_closed (o : BinOp) (f : NumExp) : ∀ {e : NumExp}, e.opens = false →
    absorb o f e = binary o e f
  | number _, _ => rfl
  | binary _ _ r, h => by
    have hr : r.opens = false := h
    rw [absorb, hr]
    rfl
  | paren _, _ => rfl
  | minus _, h => nomatch h

theorem regroup_eq_self : ∀ {e : NumExp}, e.Plain → e.regroup = e
  | number _, _ => rfl
  | binary o l r, h => by
    rw [regroup, regroup_eq_self h.1.1, regroup_eq_self h.1.2]
    split_ifs with ho
    · exact absorb_of_closed o r (h.2 ho)
    · rfl
  | paren e, h => by rw [regroup, regroup_eq_self (e := e) h]
  | minus e, h => by rw [regroup, regroup_eq_self (e := e) h]

end NumExp

/-! ### The run on a grouping -/

/-- A `num_exp` that binds so tight is not ended in this place by an operator in it. -/
def Context.Admits (x : Context) (n : ℕ) : Prop := ∀ l ∈ x.level, l < n

/-- No part of the expression goes on with the token. -/
def NumExp.Stops (e : NumExp) (t : Token) : Prop :=
  ∀ o, t = .OP o → o.level ≤ e.level ∧ (o.level = 1 → e.opens = false)

theorem conflict_of_admits {x : Context} {o : BinOp} (h : x.Admits o.level) :
    x.conflict o = .shift (.before (.op o)) := by
  unfold Context.conflict
  split
  · rename_i l hl
    exact if_pos (h l hl)
  · rfl

theorem action_after {x : Context} {r : Rule} {t : Token} (hr : x.rule = some r)
    (ht : ∀ o, t = .OP o → ∃ l, x.level = some l ∧ o.level ≤ l) :
    State.action (.after x) t = .reduce r := by
  have hreduce : x.reduce = .reduce r := by rw [Context.reduce, hr]
  cases t with
  | OP o =>
    obtain ⟨l, hl, hle⟩ := ht o rfl
    change x.conflict o = _
    rw [Context.conflict, hl]
    exact (if_neg (Nat.not_lt.2 hle)).trans hreduce
  | RPAREN =>
    cases x with
    | lparen => cases hr
    | _ => exact hreduce
  | _ => exact hreduce

section Run

variable {V ε : Type} {S : Semantics Token (Option Literal) Rule V ε}

open CLIParser

/-- After a `*` or `/` the operation is reduced whatever follows. -/
theorem reduction_op (o : BinOp) : State.reduction (.after (.op o)) = some (.binary o) ∨
    State.reduction (.after (.op o)) = none := by
  cases o with
  | mul => exact .inl rfl
  | div => exact .inl rfl
  | _ => exact .inr rfl

/-- After the right operand the operation is reduced. -/
theorem reaches_binary {o : BinOp} {x : Context} {t : Token} {y : Option Literal} {w a k b v v₀ : V}
    {la : Option V} {st : List (State × V)} (rest : List (Lexeme Token (Option Literal)))
    (made : List (Made Rule V)) (hw : S.token t y = .ok w)
    (ht : ∀ o', t = .OP o' → o'.level ≤ o.level) (hla : la = none ∨ la = some w)
    (hact : S.act (.binary o) [a, k, b] = .ok v) : ∃ la' made', (la' = none ∨ la' = some w) ∧
      Reaches tables S ⟨(.after (.op o), b) :: (.before (.op o), k) :: (.after x, a) ::
        (.before x, v₀) :: st, la, .token t y :: rest, made⟩
        ⟨(.after x, v) :: (.before x, v₀) :: st, la', .token t y :: rest, made'⟩ := by
  have hreduce : ∀ la made, State.reduction (.after (.op o)) = some (.binary o) ∨
      State.reduction (.after (.op o)) = none ∧ la.isSome →
      Reaches tables S ⟨(.after (.op o), b) :: (.before (.op o), k) :: (.after x, a) ::
        (.before x, v₀) :: st, la, .token t y :: rest, made⟩
        ⟨(.after x, v) :: (.before x, v₀) :: st, la, .token t y :: rest,
          .reduced (.binary o) v :: made⟩ := by
    intro la made h
    refine reaches_reduce ([(.after (.op o), b), (.before (.op o), k), (.after x, a)] : List (State × V))
      rfl (by simp [Tables.top, tables]) (h.imp id fun h => ?_) rfl hact
    exact ⟨h.1, h.2, t, y, rest, rfl, action_after rfl fun o' ho' => ⟨o.level, rfl, ht o' ho'⟩⟩
  rcases reduction_op o with hsome | hnone
  · exact ⟨la, _, hla, hreduce la made (.inl hsome)⟩
  · obtain ⟨made', hlooked⟩ := reaches_looked (T := tables)
      ((.after (.op o), b) :: (.before (.op o), k) :: (.after x, a) :: (.before x, v₀) :: st) made rest
      (by simp [Tables.top, tables]) hnone hw hla
    exact ⟨some w, _, .inr rfl, hlooked.trans (hreduce _ _ (.inr ⟨hnone, rfl⟩))⟩

/-- On a grouping that the precedences decide the parser makes just its derivation. -/
theorem reaches_numExp : ∀ {e : NumExp}, e.Declared → ∀ {x : Context}, x.Admits e.level →
    ∀ {t : Token} {y : Option Literal} {w : V}, S.token t y = .ok w → e.Stops t →
    ∀ {v : V}, S.eval e.tree = .ok v →
    ∀ (v₀ : V) (st : List (State × V)) (made : List (Made Rule V))
      (rest : List (Lexeme Token (Option Literal))),
    ∃ la made', (la = none ∨ la = some w) ∧
      Reaches tables S ⟨(.before x, v₀) :: st, none, e.tokens ++ .token t y :: rest, made⟩
        ⟨(.after x, v) :: (.before x, v₀) :: st, la, .token t y :: rest, made'⟩
  | .number l, _, x, _, t, y, w, _, _, v, heval, v₀, st, made, rest => by
    obtain ⟨n, hn, hact⟩ := NumExp.eval_number_tree.1 heval
    obtain ⟨made₁, hread⟩ := reaches_token (T := tables) (s := .number) ((.before x, v₀) :: st) made
      (.token t y :: rest) (by simp [Tables.top, tables]) rfl rfl hn (.inl rfl)
    have hreduce : Reaches tables S
        ⟨(.number, n) :: (.before x, v₀) :: st, none, .token t y :: rest, made₁⟩ _ :=
      reaches_reduce [(State.number, n)] rfl (by simp [Tables.top, tables]) (.inl rfl) rfl hact
    exact ⟨none, _, .inl rfl, hread.trans hreduce⟩
  | .paren e, he, x, _, t, y, w, _, _, v, heval, v₀, st, made, rest => by
    obtain ⟨l, n, r, hl, hn, hr, hact⟩ := NumExp.eval_paren_tree.1 heval
    obtain ⟨made₁, hopen⟩ := reaches_token (T := tables) (s := .before .lparen) ((.before x, v₀) :: st)
      made (e.tokens ++ .token .RPAREN none :: .token t y :: rest) (by simp [Tables.top, tables]) rfl rfl
      hl (.inl rfl)
    have hstops : e.Stops .RPAREN := fun o ho => (by cases ho)
    have hadmits : Context.lparen.Admits e.level := fun l hl => (by cases hl)
    obtain ⟨la, made₂, hla, hexp⟩ := reaches_numExp (e := e) he hadmits hr hstops hn l ((.before x, v₀) :: st)
      made₁ (.token t y :: rest)
    obtain ⟨made₃, hclose⟩ := reaches_token (T := tables) (s := .rparen)
      ((.after .lparen, n) :: (.before .lparen, l) :: (.before x, v₀) :: st) made₂ (.token t y :: rest)
      (by simp [Tables.top, tables]) rfl rfl hr hla
    have hreduce : Reaches tables S ⟨(.rparen, r) :: (.after .lparen, n) :: (.before .lparen, l) ::
        (.before x, v₀) :: st, none, .token t y :: rest, made₃⟩ _ :=
      reaches_reduce [(State.rparen, r), (.after .lparen, n), (.before .lparen, l)] rfl
        (by simp [Tables.top, tables]) (.inl rfl) rfl hact
    have htokens : (NumExp.paren e).tokens ++ .token t y :: rest =
        .token .LPAREN none :: (e.tokens ++ .token .RPAREN none :: .token t y :: rest) := by
      simp [NumExp.tokens]
    rw [htokens]
    exact ⟨none, _, .inl rfl, hopen.trans (hexp.trans (hclose.trans hreduce))⟩
  | .minus e, he, x, _, t, y, w, hw, hstops, v, heval, v₀, st, made, rest => by
    obtain ⟨k, n, hk, hn, hact⟩ := NumExp.eval_minus_tree.1 heval
    obtain ⟨made₁, hminus⟩ := reaches_token (T := tables) (s := .before .minus) ((.before x, v₀) :: st)
      made (e.tokens ++ .token t y :: rest) (by simp [Tables.top, tables]) rfl rfl hk (.inl rfl)
    -- Only a `+` or `-` may follow, which ends the operand as well.
    have hsum : ∀ o, t = .OP o → o.level = 0 := by
      intro o ho
      have hle := NumExp.level_op_le o
      have hopens := (hstops o ho).2
      by_contra hne
      cases hopens (by omega)
    have hstops' : e.Stops t := fun o ho => by
      rw [hsum o ho]
      exact ⟨Nat.zero_le _, fun h => (by cases h)⟩
    have hadmits : Context.minus.Admits e.level := fun l hl => by
      obtain rfl := Option.some.inj hl
      exact he.2
    obtain ⟨la, made₂, hla, hexp⟩ := reaches_numExp he.1 hadmits hw hstops' hn k ((.before x, v₀) :: st)
      made₁ rest
    obtain ⟨made₃, hlooked⟩ := reaches_looked (T := tables)
      ((.after .minus, n) :: (.before .minus, k) :: (.before x, v₀) :: st) made₂ rest
      (by simp [Tables.top, tables]) rfl hw hla
    have hreduce : Reaches tables S ⟨(.after .minus, n) :: (.before .minus, k) :: (.before x, v₀) :: st,
        some w, .token t y :: rest, made₃⟩ _ :=
      reaches_reduce [(State.after .minus, n), (.before .minus, k)] rfl (by simp [Tables.top, tables])
        (.inr ⟨rfl, rfl, t, y, rest, rfl, action_after rfl fun o ho => ⟨0, rfl, (hsum o ho).le⟩⟩) rfl hact
    exact ⟨some w, _, .inr rfl, hminus.trans (hexp.trans (hlooked.trans hreduce))⟩
  | .binary o l r, he, x, hx, t, y, w, hw, hstops, v, heval, v₀, st, made, rest => by
    obtain ⟨a, k, b, ha, hk, hb, hact⟩ := NumExp.eval_binary_tree.1 heval
    obtain ⟨⟨hl, hr⟩, hleft, hright, hopens⟩ := he
    have hadmitsl : x.Admits l.level := fun n hn => (hx n hn).trans_le hleft
    have hstopsl : l.Stops (.OP o) := fun o' ho' => by
      cases ho'
      exact ⟨hleft, hopens⟩
    obtain ⟨la, made₁, hla, hexpl⟩ := reaches_numExp hl hadmitsl hk hstopsl ha v₀ st made
      (r.tokens ++ .token t y :: rest)
    have hshift : tables.action (.after x) (.OP o) = .shift (.before (.op o)) := conflict_of_admits hx
    have hnone : State.reduction (.after x) = none := by
      have hadmits := hx
      cases x with
      | op o' =>
        have hlt := hadmits o'.level rfl
        have hle := NumExp.level_op_le o
        change o'.level < o.level at hlt
        cases o' with
        | mul => exact absurd (hlt.trans_le hle) (lt_irrefl _)
        | div => exact absurd (hlt.trans_le hle) (lt_irrefl _)
        | _ => rfl
      | _ => rfl
    obtain ⟨made₂, hop⟩ := reaches_token (T := tables) ((.after x, a) :: (.before x, v₀) :: st) made₁
      (r.tokens ++ .token t y :: rest) (by simp [Tables.top, tables]) hnone hshift hk hla
    have hadmitsr : (Context.op o).Admits r.level := fun n hn => by
      obtain rfl := Option.some.inj hn
      exact hright
    have hstopsr : r.Stops t := fun o' ho' =>
      ⟨(hstops o' ho').1.trans hright.le, (hstops o' ho').2⟩
    obtain ⟨la', made₃, hla', hexpr⟩ := reaches_numExp hr hadmitsr hw hstopsr hb k
      ((.after x, a) :: (.before x, v₀) :: st) made₂ rest
    obtain ⟨la'', made₄, hla'', hbinary⟩ := reaches_binary rest made₃ hw
      (fun o' ho' => (hstops o' ho').1) hla' hact
    have htokens : (NumExp.binary o l r).tokens ++ .token t y :: rest =
        l.tokens ++ .token (.OP o) none :: (r.tokens ++ .token t y :: rest) := by
      simp [NumExp.tokens]
    rw [htokens]
    exact ⟨la'', made₄, hla'', hexpl.trans (hop.trans (hexpr.trans hbinary))⟩

/-- The tokens of a line with `node` before them. -/
def nodeLine (ts : List (Lexeme Token (Option Literal))) : List (Lexeme Token (Option Literal)) :=
  .token .T_NODE none :: (ts ++ [.token .END none])

theorem run_nodeLine {e : NumExp} (he : e.Declared) {k v n u z : V} (hk : S.token .T_NODE none = .ok k)
    (hv : S.eval e.tree = .ok v) (hn : S.act .node_exp [k, v] = .ok n)
    (hu : S.act .unit_node_exp [n] = .ok u) (hz : S.token .END none = .ok z) :
    ∃ made, LR.run tables S (steps (nodeLine e.tokens)) (LR.Config.start (nodeLine e.tokens)) =
      some (.ok (true, .reduced .unit_node_exp u :: .reduced .node_exp n :: made)) := by
  obtain ⟨made₁, hnode⟩ := reaches_token (T := tables) (s := .before .node) [] []
    (e.tokens ++ [.token .END none]) (by simp [Tables.top, tables]) rfl rfl hk (.inl rfl)
  have hadmits : Context.node.Admits e.level := fun l hl => (by cases hl)
  have hstops : e.Stops .END := fun o ho => (by cases ho)
  obtain ⟨la, made₂, hla, hexp⟩ := reaches_numExp he hadmits hz hstops hv k [] made₁ []
  obtain ⟨made₃, hlooked⟩ := reaches_looked (T := tables) [(.after .node, v), (.before .node, k)] made₂ []
    (by simp [Tables.top, tables]) rfl hz hla
  have hreduce : Reaches tables S
      ⟨[(.after .node, v), (.before .node, k)], some z, [.token .END none], made₃⟩ _ :=
    reaches_reduce [(State.after .node, v), (.before .node, k)] rfl (by simp [Tables.top, tables])
      (.inr ⟨rfl, rfl, .END, none, [], rfl, rfl⟩) rfl hn
  have hunit : Reaches tables S
      ⟨[(.node_exp, n)], some z, [.token .END none], .reduced .node_exp n :: made₃⟩ _ :=
    reaches_reduce [(State.node_exp, n)] rfl (by simp [Tables.top, tables])
      (.inr ⟨rfl, rfl, .END, none, [], rfl, rfl⟩) rfl hu
  have hend : Reaches tables S ⟨[(.unit, u)], some z, [.token .END none],
      .reduced .unit_node_exp u :: .reduced .node_exp n :: made₃⟩ _ :=
    reaches_shift (s := .final) (by simp [Tables.top, tables]) rfl rfl
  exact ⟨made₃, run_of_reaches_done
    (hnode.trans (hexp.trans (hlooked.trans (hreduce.trans (hunit.trans hend))))) rfl
    (run_steps_isSome S _)⟩

end Run

namespace CLIParser

/-- The value that the parser gives the tokens after `node`. -/
def Computes (ts : List (Lexeme Token (Option Literal))) (n : ℤ) : Prop :=
  ∃ p, parseTokens (nodeLine ts) = some (.ok p) ∧ p.ret = 0 ∧ p.result = some (.node_exp ⟨n⟩)

/-- The derivation of such a line. -/
def nodeTree (e : NumExp) : LR.Tree Token (Option Literal) Rule :=
  .node .unit_node_exp [.node .node_exp [.leaf .T_NODE none, e.tree]]

theorem run_trees_nodeLine {e : NumExp} (he : e.Declared) : ∃ made,
    LR.run tables (Tree.semantics : Semantics _ _ _ _ Exn) (steps (nodeLine e.tokens))
        (LR.Config.start (nodeLine e.tokens)) =
      some (.ok (true, .reduced .unit_node_exp (nodeTree e) :: made)) := by
  obtain ⟨made, hrun⟩ := run_nodeLine (S := (Tree.semantics : Semantics _ _ _ _ Exn)) he rfl
    (eval_trees e.tree) rfl rfl rfl
  exact ⟨_, hrun⟩

/-- No two such groupings derive the same tokens. -/
theorem declared_unique {e f : NumExp} (he : e.Declared) (hf : f.Declared) (h : e.tokens = f.tokens) :
    e = f := by
  obtain ⟨made, hrun⟩ := run_trees_nodeLine he
  obtain ⟨made', hrun'⟩ := run_trees_nodeLine hf
  rw [h, hrun'] at hrun
  simp only [nodeTree, Option.some.injEq, Except.ok.injEq, Prod.mk.injEq, List.cons.injEq,
    Made.reduced.injEq, LR.Tree.node.injEq, true_and, and_true] at hrun
  exact NumExp.tree_injective hrun.1.symm

theorem usual_unique {u e : NumExp} (hu : u.Usual) (h : u.tokens = e.tokens) : u = e.usual := by
  have hregroup : u.regroup = e.usual.regroup := by
    refine declared_unique (NumExp.declared_regroup hu).1
      (NumExp.declared_regroup (NumExp.usual_usual e)).1 ?_
    rw [NumExp.tokens_regroup, NumExp.tokens_regroup, NumExp.tokens_usual, h]
  calc u = u.usual := (NumExp.usual_eq_self hu).symm
    _ = u.regroup.usual := (NumExp.usual_regroup u).symm
    _ = e.usual.regroup.usual := by rw [hregroup]
    _ = e.usual.usual := NumExp.usual_regroup _
    _ = e.usual := NumExp.usual_eq_self (NumExp.usual_usual e)

theorem computes_value {e : NumExp} (he : e.Declared) (hlexed : ∀ x ∈ e.tokens, Lexed x)
    (hs : e.Safe) : Computes e.tokens e.value := by
  have heval := (NumExp.eval_eq_ok hlexed).2 ⟨hs, rfl⟩
  obtain ⟨made, hrun⟩ := run_nodeLine (S := semantics) he rfl heval rfl rfl rfl
  exact ⟨_, by rw [parseTokens, hrun]; rfl, rfl, rfl⟩

/-- The value of a grouping that the precedences decide is what the parser computes. -/
theorem computes_iff {e : NumExp} (he : e.Declared) (hlexed : ∀ x ∈ e.tokens, Lexed x) {n : ℤ} :
    Computes e.tokens n ↔ e.Safe ∧ n = e.value := by
  constructor
  · rintro ⟨p, hp, -, hresult⟩
    obtain ⟨made, hrun⟩ := run_trees_nodeLine he
    have hmem : nodeTree e ∈ derivations (nodeLine e.tokens) := by
      rw [derivations, hrun]
      exact List.mem_cons_self
    obtain ⟨v, hv⟩ := eval_of_parseTokens hp hmem
    obtain ⟨_, hall, -⟩ := eval_node_eq_ok.1 hv
    obtain ⟨a, _, ha, -⟩ := evalAll_cons_eq_ok.1 hall
    obtain ⟨_, hexp, -⟩ := eval_node_eq_ok.1 ha
    obtain ⟨_, _, -, hall', -⟩ := evalAll_cons_eq_ok.1 hexp
    obtain ⟨w, _, hw, -⟩ := evalAll_cons_eq_ok.1 hall'
    obtain ⟨hs, rfl⟩ := (NumExp.eval_eq_ok hlexed).1 hw
    refine ⟨hs, ?_⟩
    obtain ⟨p', hp', -, hresult'⟩ := computes_value he hlexed hs
    obtain rfl := Except.ok.inj (Option.some.inj (hp.symm.trans hp'))
    simpa using hresult.symm.trans hresult'
  · rintro ⟨hs, rfl⟩
    exact computes_value he hlexed hs

/-- Without a `*` or `/` after a negated operand the parser computes the usual value. -/
theorem computes_usual_of_plain {e : NumExp} (hlexed : ∀ x ∈ e.tokens, Lexed x)
    (hplain : e.usual.Plain) (hs : e.usual.Safe) : Computes e.tokens e.usual.value := by
  have hdeclared := (NumExp.declared_regroup (NumExp.usual_usual e)).1
  rw [NumExp.regroup_eq_self hplain] at hdeclared
  rw [← NumExp.tokens_usual] at hlexed ⊢
  exact (computes_iff hdeclared hlexed).2 ⟨hs, rfl⟩

/-- The usual grouping of the tokens of a derivation is the only one, and the parser computes its value
just where that is the value with what follows negated operands moved under the minus. -/
theorem computes_usual_iff (e : NumExp) (hlexed : ∀ x ∈ e.tokens, Lexed x) :
    (∀ u : NumExp, u.Usual ∧ u.tokens = e.tokens ↔ u = e.usual) ∧
      (e.usual.Safe → (Computes e.tokens e.usual.value ↔
        e.usual.regroup.Safe ∧ e.usual.regroup.value = e.usual.value)) := by
  refine ⟨fun u => ⟨fun h => usual_unique h.1 h.2, ?_⟩, fun _ => ?_⟩
  · rintro rfl
    exact ⟨NumExp.usual_usual e, NumExp.tokens_usual e⟩
  · have htokens : e.usual.regroup.tokens = e.tokens := by
      rw [NumExp.tokens_regroup, NumExp.tokens_usual]
    rw [← htokens] at hlexed ⊢
    rw [computes_iff (NumExp.declared_regroup (NumExp.usual_usual e)).1 hlexed]
    exact and_congr_right fun _ => eq_comm

/-- `3 * - 1 / 2`. -/
def halfOfProduct : NumExp :=
  .binary .div (.binary .mul (.number (.decimal ['3'])) (.minus (.number (.decimal ['1']))))
    (.number (.decimal ['2']))

theorem halfOfProduct_lexed : ∀ x ∈ halfOfProduct.tokens, Lexed x := by
  have hdigit : ∀ c : Char, c.isDigit = true → Lexed (.token .NUMBER (some (.decimal [c]))) :=
    fun c hc => ⟨_, rfl, by simp, by simpa using hc⟩
  simp only [halfOfProduct, NumExp.tokens, List.cons_append, List.nil_append, List.forall_mem_cons]
  exact ⟨hdigit '3' rfl, rfl, rfl, hdigit '1' rfl, rfl, hdigit '2' rfl, by simp⟩

theorem computes_usual_halfOfProduct :
    Computes halfOfProduct.tokens halfOfProduct.usual.value ↔
      halfOfProduct.usual.regroup.Safe ∧ halfOfProduct.usual.regroup.value = halfOfProduct.usual.value :=
  (computes_usual_iff halfOfProduct halfOfProduct_lexed).2 (by decide)

theorem not_computes_usual : ¬ ∀ e : NumExp, (∀ x ∈ e.tokens, Lexed x) → e.usual.Safe →
    Computes e.tokens e.usual.value := by
  intro h
  obtain ⟨p, hp, -, hresult⟩ := h halfOfProduct halfOfProduct_lexed (by decide)
  have hparse : parseTokens (nodeLine halfOfProduct.tokens) =
      some (.ok ⟨0, some (.node_exp ⟨0⟩), some (.node_exp ⟨0⟩)⟩) := by
    decide +kernel
  obtain rfl := Except.ok.inj (Option.some.inj (hp.symm.trans hparse))
  exact absurd hresult (by decide)

end CLIParser

end H9
