import H9.CliParser

/-!
# The states of the command line parser

The automaton of h9cli/parser.yy takes few ways from one state to the next. So what it reduces by a
rule is on top of its stack and of the symbols of the rule, the left-hand side of the rule can follow
then, and it comes to an end on every text.
-/

namespace H9

open LR

/-- How the automaton gets from a state to the next one. -/
inductive Edge : State → State → Prop
  | node : Edge .start (.before .node)
  | number (x : Context) : Edge (.before x) .number
  | lparen (x : Context) : Edge (.before x) (.before .lparen)
  | minus (x : Context) : Edge (.before x) (.before .minus)
  | op (x : Context) (o : BinOp) : Edge (.after x) (.before (.op o))
  | rparen : Edge (.after .lparen) .rparen
  | restart : Edge .node_exp .restart
  | reg : Edge .node_exp (.before .reg)
  | get : Edge .node_reg_exp .get
  | set (c : SetCommand) : Edge .node_reg_exp (.before (.set c))
  | final : Edge .unit .final
  | num_exp (x : Context) : Edge (.before x) (.after x)
  | unit : Edge .start .unit
  | node_exp : Edge .start .node_exp
  | node_command : Edge .start .node_command
  | node_reg_exp : Edge .start .node_reg_exp
  | node_reg_command : Edge .start .node_reg_command

/-- What stands between a state and the one before it. -/
def State.symbol : State → Token ⊕ Nonterminal
  | .start => .inr .unit
  | .before .node => .inl .T_NODE
  | .before .reg => .inl .T_REG
  | .before (.set c) => .inl (.T_SET c)
  | .before .lparen => .inl .LPAREN
  | .before .minus => .inl (.OP .sub)
  | .before (.op o) => .inl (.OP o)
  | .after _ => .inr .num_exp
  | .number => .inl .NUMBER
  | .rparen => .inl .RPAREN
  | .node_exp => .inr .node_exp
  | .restart => .inl .T_RESTART
  | .node_command => .inr .node_command
  | .node_reg_exp => .inr .node_reg_exp
  | .get => .inl .T_GET
  | .node_reg_command => .inr .node_reg_command
  | .unit => .inr .unit
  | .final => .inl .END

theorem Context.reduce_ne_shift (x : Context) (s : State) : x.reduce ≠ .shift s := by
  unfold Context.reduce
  cases x.rule <;> simp

theorem Context.conflict_eq_shift {x : Context} {o : BinOp} {s : State} (h : x.conflict o = .shift s) :
    s = .before (.op o) := by
  unfold Context.conflict at h
  split at h
  · split_ifs at h
    · simpa using h.symm
    · exact absurd h (x.reduce_ne_shift s)
  · simpa using h.symm

theorem Context.reduce_eq {x : Context} {r : Rule} (h : x.reduce = .reduce r) : x.rule = some r := by
  unfold Context.reduce at h
  split at h
  · rename_i r' hr
    cases h
    exact hr
  · cases h

theorem Context.conflict_eq_reduce {x : Context} {o : BinOp} {r : Rule}
    (h : x.conflict o = .reduce r) :
    x.rule = some r := by
  unfold Context.conflict at h
  split at h
  · split_ifs at h
    exact Context.reduce_eq h
  · cases h

theorem edge_of_shift {s s' : State} {t : Token} (h : State.action s t = .shift s') :
    Edge s s' ∧ s'.symbol = .inl t := by
  unfold State.action at h
  split at h
  · cases h
    exact ⟨.node, rfl⟩
  · cases h
  · rename_i x
    cases h
    exact ⟨.number x, rfl⟩
  · rename_i x
    cases h
    exact ⟨.lparen x, rfl⟩
  · rename_i x
    cases h
    exact ⟨.minus x, rfl⟩
  · rename_i x o
    rw [Context.conflict_eq_shift h]
    exact ⟨.op x o, rfl⟩
  · cases h
    exact ⟨.rparen, rfl⟩
  · exact absurd h (Context.reduce_ne_shift _ s')
  · cases h
    exact ⟨.restart, rfl⟩
  · cases h
    exact ⟨.reg, rfl⟩
  · cases h
  · cases h
    exact ⟨.get, rfl⟩
  · rename_i c
    cases h
    exact ⟨.set c, rfl⟩
  · cases h
  · cases h
    exact ⟨.final, rfl⟩
  · cases h

theorem edge_of_goto {s s' : State} {A : Nonterminal} (h : State.goto s A = some s') :
    Edge s s' ∧ s'.symbol = .inr A := by
  unfold State.goto at h
  split at h
  · rename_i x
    cases h
    exact ⟨.num_exp x, rfl⟩
  · cases h
    exact ⟨.unit, rfl⟩
  · cases h
    exact ⟨.node_exp, rfl⟩
  · cases h
    exact ⟨.node_command, rfl⟩
  · cases h
    exact ⟨.node_reg_exp, rfl⟩
  · cases h
    exact ⟨.node_reg_command, rfl⟩
  · cases h

namespace CLIParser

/-- Where a rule is reduced: the states of its symbols, the last on top, and the state below them. -/
inductive Handle : Rule → List State → State → Prop
  | unit_empty : Handle .unit_empty [] .start
  | unit_node_exp : Handle .unit_node_exp [.node_exp] .start
  | unit_node_command : Handle .unit_node_command [.node_command] .start
  | unit_node_reg_exp : Handle .unit_node_reg_exp [.node_reg_exp] .start
  | unit_node_reg_command : Handle .unit_node_reg_command [.node_reg_command] .start
  | node_exp : Handle .node_exp [.after .node, .before .node] .start
  | node_command : Handle .node_command [.restart, .node_exp] .start
  | node_reg_exp : Handle .node_reg_exp [.after .reg, .before .reg, .node_exp] .start
  | get : Handle .get [.get, .node_reg_exp] .start
  | set (c : SetCommand) : Handle (.set c) [.after (.set c), .before (.set c), .node_reg_exp] .start
  | number (x : Context) : Handle .number [.number] (.before x)
  | binary (o : BinOp) (x : Context) :
    Handle (.binary o) [.after (.op o), .before (.op o), .after x] (.before x)
  | paren (x : Context) : Handle .paren [.rparen, .after .lparen, .before .lparen] (.before x)
  | minus (x : Context) : Handle .minus [.after .minus, .before .minus] (.before x)

variable {ss : List State} {s : State} {r : Rule}

theorem edge_of_path (h : Path tables (s :: ss)) : Edge (tables.top ss) s ∧ Path tables ss := by
  cases h with
  | shift hss haction => exact ⟨(edge_of_shift haction).1, hss⟩
  | goto hss hgoto => exact ⟨(edge_of_goto hgoto).1, hss⟩

/-- Only an empty stack has the first state on top. -/
theorem eq_nil_of_top (h : Path tables ss) (htop : tables.top ss = .start) : ss = [] := by
  rcases ss with _ | ⟨s, ss⟩
  · rfl
  · obtain ⟨hedge, -⟩ := edge_of_path h
    change s = .start at htop
    subst htop
    generalize tables.top ss = p at hedge
    cases hedge

theorem eq_cons_of_top (htop : tables.top ss = s) (hs : s ≠ .start) : ∃ below, ss = s :: below := by
  rcases ss with _ | ⟨s', ss⟩
  · exact absurd htop.symm hs
  · exact ⟨ss, congrArg (· :: ss) htop⟩

theorem below_after {x : Context} (h : Path tables (.after x :: ss)) :
    ∃ below, ss = .before x :: below ∧ Path tables (.before x :: below) := by
  obtain ⟨hedge, hpath⟩ := edge_of_path h
  generalize htop : tables.top ss = s at hedge
  cases hedge
  obtain ⟨below, rfl⟩ := eq_cons_of_top htop (by simp)
  exact ⟨below, rfl, hpath⟩

theorem below_op {o : BinOp} (h : Path tables (.before (.op o) :: ss)) :
    ∃ x below, ss = .after x :: .before x :: below := by
  obtain ⟨hedge, hpath⟩ := edge_of_path h
  generalize htop : tables.top ss = s at hedge
  cases hedge with
  | op x o =>
    obtain ⟨below, rfl⟩ := eq_cons_of_top htop (by simp)
    obtain ⟨below, rfl, -⟩ := below_after hpath
    exact ⟨x, below, rfl⟩

/-- A symbol that leads on to the state of only one other. -/
theorem below_eq {p : State} (h : Path tables (s :: ss)) (honly : ∀ q, Edge q s → q = p)
    (hp : p ≠ .start) : ∃ below, ss = p :: below ∧ Path tables (p :: below) := by
  obtain ⟨hedge, hpath⟩ := edge_of_path h
  obtain ⟨below, rfl⟩ := eq_cons_of_top (honly _ hedge) hp
  exact ⟨below, rfl, hpath⟩

theorem below_eq_nil (h : Path tables (s :: ss)) (honly : ∀ q, Edge q s → q = .start) : ss = [] := by
  obtain ⟨hedge, hpath⟩ := edge_of_path h
  exact eq_nil_of_top hpath (honly _ hedge)

theorem top_before (h : Path tables (s :: ss)) (honly : ∀ q, Edge q s → ∃ x, q = .before x) :
    ∃ x, tables.top ss = .before x := honly _ (edge_of_path h).1

/-- The rules that the states reduce by. -/
inductive Ends : State → Rule → Prop
  | unit_empty : Ends .start .unit_empty
  | unit_node_exp : Ends .node_exp .unit_node_exp
  | unit_node_command : Ends .node_command .unit_node_command
  | unit_node_reg_exp : Ends .node_reg_exp .unit_node_reg_exp
  | unit_node_reg_command : Ends .node_reg_command .unit_node_reg_command
  | num_exp {x : Context} {r : Rule} : x.rule = some r → Ends (.after x) r
  | restart : Ends .restart .node_command
  | get : Ends .get .get
  | number : Ends .number .number
  | rparen : Ends .rparen .paren

theorem ends_of_reduces (h : tables.Reduces s r) : Ends s r := by
  rcases h with h | ⟨t, h⟩
  · change State.reduction s = some r at h
    unfold State.reduction at h
    split at h <;> cases h <;> first | exact .num_exp rfl | constructor
  · change State.action s t = .reduce r at h
    unfold State.action at h
    split at h
    all_goals first
      | exact .num_exp (Context.conflict_eq_reduce h)
      | exact .num_exp (Context.reduce_eq h)
      | cases h <;> constructor

/-- What is reduced is on top of the stack. -/
theorem handle_of_reduces (h : Path tables ss) (hr : tables.Reduces (tables.top ss) r) :
    ∃ popped below, ss = popped ++ below ∧ Handle r popped (tables.top below) := by
  have hends := ends_of_reduces hr
  generalize htop : tables.top ss = s at hends
  cases hends with
  | unit_empty =>
    obtain rfl := eq_nil_of_top h htop
    exact ⟨[], [], rfl, .unit_empty⟩
  | unit_node_exp =>
    obtain ⟨below, rfl⟩ := eq_cons_of_top htop (by simp)
    obtain rfl := below_eq_nil h fun _ hedge => by cases hedge; rfl
    exact ⟨[_], [], rfl, .unit_node_exp⟩
  | unit_node_command =>
    obtain ⟨below, rfl⟩ := eq_cons_of_top htop (by simp)
    obtain rfl := below_eq_nil h fun _ hedge => by cases hedge; rfl
    exact ⟨[_], [], rfl, .unit_node_command⟩
  | unit_node_reg_exp =>
    obtain ⟨below, rfl⟩ := eq_cons_of_top htop (by simp)
    obtain rfl := below_eq_nil h fun _ hedge => by cases hedge; rfl
    exact ⟨[_], [], rfl, .unit_node_reg_exp⟩
  | unit_node_reg_command =>
    obtain ⟨below, rfl⟩ := eq_cons_of_top htop (by simp)
    obtain rfl := below_eq_nil h fun _ hedge => by cases hedge; rfl
    exact ⟨[_], [], rfl, .unit_node_reg_command⟩
  | restart =>
    obtain ⟨below, rfl⟩ := eq_cons_of_top htop (by simp)
    obtain ⟨below, rfl, hbelow⟩ := below_eq h (fun _ hedge => by cases hedge; rfl) (by simp)
    obtain rfl := below_eq_nil hbelow fun _ hedge => by cases hedge; rfl
    exact ⟨[_, _], [], rfl, .node_command⟩
  | get =>
    obtain ⟨below, rfl⟩ := eq_cons_of_top htop (by simp)
    obtain ⟨below, rfl, hbelow⟩ := below_eq h (fun _ hedge => by cases hedge; rfl) (by simp)
    obtain rfl := below_eq_nil hbelow fun _ hedge => by cases hedge; rfl
    exact ⟨[_, _], [], rfl, .get⟩
  | number =>
    obtain ⟨below, rfl⟩ := eq_cons_of_top htop (by simp)
    obtain ⟨x, hx⟩ := top_before h fun _ hedge => by cases hedge; exact ⟨_, rfl⟩
    exact ⟨[_], below, rfl, hx ▸ .number x⟩
  | rparen =>
    obtain ⟨below, rfl⟩ := eq_cons_of_top htop (by simp)
    obtain ⟨below, rfl, hbelow⟩ := below_eq h (fun _ hedge => by cases hedge; rfl) (by simp)
    obtain ⟨below, rfl, hbefore⟩ := below_after hbelow
    obtain ⟨x, hx⟩ := top_before hbefore fun _ hedge => by cases hedge; exact ⟨_, rfl⟩
    exact ⟨[_, _, _], below, rfl, hx ▸ .paren x⟩
  | @num_exp x _ hrule =>
    obtain ⟨below, rfl⟩ := eq_cons_of_top htop (by simp)
    obtain ⟨below, rfl, hbefore⟩ := below_after h
    cases x with
    | node =>
      cases hrule
      obtain rfl := below_eq_nil hbefore fun _ hedge => by cases hedge; rfl
      exact ⟨[_, _], [], rfl, .node_exp⟩
    | reg =>
      cases hrule
      obtain ⟨below, rfl, hnode⟩ := below_eq hbefore (fun _ hedge => by cases hedge; rfl) (by simp)
      obtain rfl := below_eq_nil hnode fun _ hedge => by cases hedge; rfl
      exact ⟨[_, _, _], [], rfl, .node_reg_exp⟩
    | set c =>
      cases hrule
      obtain ⟨below, rfl, hnode⟩ := below_eq hbefore (fun _ hedge => by cases hedge; rfl) (by simp)
      obtain rfl := below_eq_nil hnode fun _ hedge => by cases hedge; rfl
      exact ⟨[_, _, _], [], rfl, .set c⟩
    | lparen => cases hrule
    | minus =>
      cases hrule
      obtain ⟨x, hx⟩ := top_before hbefore fun _ hedge => by cases hedge; exact ⟨_, rfl⟩
      exact ⟨[_, _], below, rfl, hx ▸ .minus x⟩
    | op o =>
      cases hrule
      obtain ⟨x, below, rfl⟩ := below_op hbefore
      exact ⟨[_, _, _], .before x :: below, rfl, .binary o x⟩

theorem Handle.length {popped : List State} (h : Handle r popped s) :
    popped.length = (tables.rhs r).length := by
  cases h <;> rfl

/-- The symbol of the rule can follow. -/
theorem Handle.goto {popped : List State} (h : Handle r popped s) :
    ∃ s', tables.goto s (tables.lhs r) = some s' := by
  cases h <;> exact ⟨_, rfl⟩

theorem Handle.symbols {popped : List State} (h : Handle r popped s) :
    popped.map State.symbol = (tables.rhs r).reverse := by
  cases h <;> rfl

theorem spells : Spells tables State.symbol where
  shift h := (edge_of_shift h).2
  goto h := (edge_of_goto h).2
  reduce h hr := by
    obtain ⟨popped, below, rfl, hhandle⟩ := handle_of_reduces h hr
    rw [← hhandle.length, List.take_left, hhandle.symbols]

/-! ### The end of a run -/

/-- What a state adds to the steps that are left before the next token. -/
def weight : State → ℕ
  | .after _ => 2
  | .number => 3
  | .node_exp => 2
  | .node_command => 2
  | .node_reg_exp => 2
  | .node_reg_command => 2
  | _ => 1

def stackWeight (ss : List State) : ℕ := if ss = [] then 2 else (ss.map weight).sum

theorem lowers : Lowers tables stackWeight 4 where
  shift {ss t s} h haction := by
    have hweight : weight s ≤ 3 := by cases s <;> simp [weight]
    rcases ss with _ | ⟨s', ss⟩
    · simp only [stackWeight, List.cons_ne_nil, if_false, if_true, List.map_cons, List.map_nil,
        List.sum_cons, List.sum_nil]
      omega
    · simp only [stackWeight, List.cons_ne_nil, if_false, List.map_cons, List.sum_cons]
      omega
  reduce {ss r s} h hr hgoto := by
    obtain ⟨popped, below, rfl, hhandle⟩ := handle_of_reduces h hr
    rw [← hhandle.length, List.drop_left] at hgoto ⊢
    generalize htop : tables.top below = p at hhandle hgoto
    cases hhandle with
    | unit_empty =>
      obtain rfl := eq_nil_of_top h htop
      cases hgoto
      decide
    | _ =>
      cases hgoto
      simp only [stackWeight, weight, List.cons_append, List.nil_append, List.cons_ne_nil, if_false,
        List.map_cons, List.sum_cons]
      omega

variable {V ε : Type}

/-- The parser comes to an end on every text. -/
theorem run_steps_isSome (S : Semantics Token (Option Literal) Rule V ε)
    (input : List (Lexeme Token (Option Literal))) :
    (LR.run tables S (steps input) (LR.Config.start input)).isSome := by
  refine run_isSome lowers (by decide) _ .start ?_
  simp only [LR.Config.measure, steps, LR.Config.start, LR.Config.states, List.map_nil, Option.isSome_none,
    Bool.false_eq_true, if_false, stackWeight, if_true]
  omega

end CLIParser

end H9
