import H9.CliLine
import H9.Proofs.Precedence

/-!
# The language of the command line

The parser of h9cli accepts a text just where its tokens are those of a line whose numbers are grouped
as the precedences say. There is only one such line, and the parser makes what it says. What h9cli
offers on the tab key after a line is what lines go on with.
-/

namespace H9

open LR

namespace CliLine

/-! ### Derivations of lines -/

def nodeExpTree (n : NumExp) : Tree Token (Option Literal) Rule :=
  .node .node_exp [.leaf .T_NODE none, n.tree]

def nodeRegExpTree (n r : NumExp) : Tree Token (Option Literal) Rule :=
  .node .node_reg_exp [nodeExpTree n, .leaf .T_REG none, r.tree]

/-- The rule of `unit`. -/
def rule : CliLine → Rule
  | empty => .unit_empty
  | node _ => .unit_node_exp
  | restart _ => .unit_node_command
  | reg _ _ => .unit_node_reg_exp
  | get _ _ => .unit_node_reg_command
  | set _ _ _ _ => .unit_node_reg_command

def parts : CliLine → List (Tree Token (Option Literal) Rule)
  | empty => []
  | node n => [nodeExpTree n]
  | restart n => [.node .node_command [nodeExpTree n, .leaf .T_RESTART none]]
  | reg n r => [nodeRegExpTree n r]
  | get n r => [.node .get [nodeRegExpTree n r, .leaf .T_GET none]]
  | set c n r v => [.node (.set c) [nodeRegExpTree n r, .leaf (.T_SET c) none, v.tree]]

def tree (line : CliLine) : Tree Token (Option Literal) Rule := .node line.rule line.parts

/-- The precedences decide on the numbers. -/
def Declared (line : CliLine) : Prop := ∀ e ∈ line.numbers, e.Declared

def mapNumbers (f : NumExp → NumExp) : CliLine → CliLine
  | empty => empty
  | node n => node (f n)
  | restart n => restart (f n)
  | reg n r => reg (f n) (f r)
  | get n r => get (f n) (f r)
  | set c n r v => set c (f n) (f r) (f v)

theorem numbers_mapNumbers (f : NumExp → NumExp) (line : CliLine) :
    (line.mapNumbers f).numbers = line.numbers.map f := by
  cases line <;> rfl

theorem tokens_mapNumbers {f : NumExp → NumExp} (hf : ∀ e, (f e).tokens = e.tokens) (line : CliLine) :
    (line.mapNumbers f).tokens = line.tokens := by
  cases line <;> simp [mapNumbers, tokens, nodeTokens, regTokens, hf]

/-- The same tokens, grouped as the precedences say. -/
def regroup (line : CliLine) : CliLine := line.mapNumbers fun e => e.usual.regroup

theorem tokens_regroup (line : CliLine) : line.regroup.tokens = line.tokens :=
  tokens_mapNumbers (fun e => by rw [NumExp.tokens_regroup, NumExp.tokens_usual]) line

theorem declared_regroup (line : CliLine) : line.regroup.Declared := by
  intro e he
  rw [regroup, numbers_mapNumbers, List.mem_map] at he
  obtain ⟨e, -, rfl⟩ := he
  exact (NumExp.declared_regroup (NumExp.usual_usual e)).1

theorem words_nodeExpTree (n : NumExp) : (nodeExpTree n).words = nodeTokens n := by
  simp [nodeExpTree, nodeTokens, Tree.words, Tree.wordsAll, NumExp.words_tree]

theorem words_nodeRegExpTree (n r : NumExp) : (nodeRegExpTree n r).words = regTokens n r := by
  simp [nodeRegExpTree, regTokens, Tree.words, Tree.wordsAll, NumExp.words_tree, words_nodeExpTree]

theorem words_tree (line : CliLine) : line.tree.words = line.tokens := by
  cases line <;> simp [tree, parts, tokens, Tree.words, Tree.wordsAll, NumExp.words_tree,
    words_nodeExpTree, words_nodeRegExpTree]

theorem nodeExpTree_injective {n n' : NumExp} (h : nodeExpTree n = nodeExpTree n') : n = n' := by
  simp only [nodeExpTree, Tree.node.injEq, List.cons.injEq, true_and, and_true] at h
  exact NumExp.tree_injective h

theorem nodeRegExpTree_injective {n n' r r' : NumExp} (h : nodeRegExpTree n r = nodeRegExpTree n' r') :
    n = n' ∧ r = r' := by
  simp only [nodeRegExpTree, Tree.node.injEq, List.cons.injEq, true_and, and_true] at h
  exact ⟨nodeExpTree_injective h.1, NumExp.tree_injective h.2⟩

theorem tree_injective {line line' : CliLine} (h : line.tree = line'.tree) : line = line' := by
  cases line <;> cases line' <;>
    simp only [tree, rule, parts, Tree.node.injEq, reduceCtorEq, List.cons.injEq, false_and,
      true_and, and_true, Rule.set.injEq] at h
  case empty.empty => rfl
  case node.node => rw [nodeExpTree_injective h]
  case restart.restart => rw [nodeExpTree_injective h]
  case reg.reg =>
    obtain ⟨rfl, rfl⟩ := nodeRegExpTree_injective h
    rfl
  case get.get =>
    obtain ⟨rfl, rfl⟩ := nodeRegExpTree_injective h
    rfl
  case set.set =>
    obtain ⟨rfl, hreg, -, hv⟩ := h
    obtain ⟨rfl, rfl⟩ := nodeRegExpTree_injective hreg
    rw [NumExp.tree_injective hv]

/-! ### Values of lines -/

/-- What the parser makes of the line. -/
def value (line : CliLine) : SymbolValue :=
  match line.exp with
  | some e => .exp e
  | none => .none

open CLIParser (semantics)

theorem eval_nodeExpTree {n : NumExp} (hlexed : ∀ x ∈ nodeTokens n, Lexed x) {v : SymbolValue} :
    semantics.eval (nodeExpTree n) = .ok v ↔ n.Safe ∧ v = .exp (.node_exp ⟨n.value⟩) := by
  have hn := fun v => NumExp.eval_eq_ok (e := n) (v := v) fun x hx => hlexed x (by simp [nodeTokens, hx])
  rw [nodeExpTree, eval_node_two]
  constructor
  · rintro ⟨x, y, -, hy, hact⟩
    obtain ⟨hs, rfl⟩ := (hn y).1 hy
    exact ⟨hs, (Except.ok.inj hact).symm⟩
  · rintro ⟨hs, rfl⟩
    exact ⟨.none, _, rfl, (hn _).2 ⟨hs, rfl⟩, rfl⟩

theorem eval_nodeRegExpTree {n r : NumExp} (hlexed : ∀ x ∈ regTokens n r, Lexed x) {v : SymbolValue} :
    semantics.eval (nodeRegExpTree n r) = .ok v ↔
      (n.Safe ∧ r.Safe) ∧ v = .exp (.node_reg_exp ⟨⟨n.value⟩, r.value⟩) := by
  have hn := fun v => eval_nodeExpTree (n := n) (v := v) fun x hx => hlexed x (by simp [regTokens, hx])
  have hr := fun v => NumExp.eval_eq_ok (e := r) (v := v) fun x hx => hlexed x (by simp [regTokens, hx])
  rw [nodeRegExpTree, eval_node_three]
  constructor
  · rintro ⟨x, y, z, hx, -, hz, hact⟩
    obtain ⟨hsn, rfl⟩ := (hn x).1 hx
    obtain ⟨hsr, rfl⟩ := (hr z).1 hz
    exact ⟨⟨hsn, hsr⟩, (Except.ok.inj hact).symm⟩
  · rintro ⟨⟨hsn, hsr⟩, rfl⟩
    exact ⟨_, .none, _, (hn _).2 ⟨hsn, rfl⟩, rfl, (hr _).2 ⟨hsr, rfl⟩, rfl⟩

/-- A line has a value where it is safe. -/
theorem eval_tree {line : CliLine} (hlexed : ∀ x ∈ line.tokens, Lexed x) {v : SymbolValue} :
    semantics.eval line.tree = .ok v ↔ line.Safe ∧ v = line.value := by
  cases line with
  | empty =>
    rw [tree, parts, eval_node_eq_ok]
    simp only [evalAll_nil_eq_ok, exists_eq_left, Safe, numbers, List.not_mem_nil, false_imp_iff,
      implies_true, true_and]
    exact ⟨fun h => (Except.ok.inj h).symm, fun h => h ▸ rfl⟩
  | node n =>
    have hn := fun v => eval_nodeExpTree (n := n) (v := v) hlexed
    simp only [tree, parts, eval_node_one, hn, Safe, numbers, List.forall_mem_singleton]
    constructor
    · rintro ⟨x, ⟨hs, rfl⟩, hact⟩
      exact ⟨hs, (Except.ok.inj hact).symm⟩
    · rintro ⟨hs, rfl⟩
      exact ⟨_, ⟨hs, rfl⟩, rfl⟩
  | restart n =>
    have hn := fun v => eval_nodeExpTree (n := n) (v := v) fun x hx => hlexed x (by simp [tokens, hx])
    simp only [tree, parts, eval_node_one, eval_node_two, hn, Safe, numbers, List.forall_mem_singleton]
    constructor
    · rintro ⟨w, ⟨x, y, ⟨hs, rfl⟩, -, hact⟩, hunit⟩
      obtain rfl := Except.ok.inj hact
      exact ⟨hs, (Except.ok.inj hunit).symm⟩
    · rintro ⟨hs, rfl⟩
      exact ⟨_, ⟨_, .none, ⟨hs, rfl⟩, rfl, rfl⟩, rfl⟩
  | reg n r =>
    have hr := fun v => eval_nodeRegExpTree (n := n) (r := r) (v := v) hlexed
    simp only [tree, parts, eval_node_one, hr, Safe, numbers, List.forall_mem_cons, List.not_mem_nil,
      false_imp_iff, implies_true, and_true]
    constructor
    · rintro ⟨x, ⟨hs, rfl⟩, hact⟩
      exact ⟨hs, (Except.ok.inj hact).symm⟩
    · rintro ⟨hs, rfl⟩
      exact ⟨_, ⟨hs, rfl⟩, rfl⟩
  | get n r =>
    have hr := fun v => eval_nodeRegExpTree (n := n) (r := r) (v := v)
      fun x hx => hlexed x (by simp [tokens, hx])
    simp only [tree, parts, eval_node_one, eval_node_two, hr, Safe, numbers, List.forall_mem_cons,
      List.not_mem_nil, false_imp_iff, implies_true, and_true]
    constructor
    · rintro ⟨w, ⟨x, y, ⟨hs, rfl⟩, -, hact⟩, hunit⟩
      obtain rfl := Except.ok.inj hact
      exact ⟨hs, (Except.ok.inj hunit).symm⟩
    · rintro ⟨hs, rfl⟩
      exact ⟨_, ⟨_, .none, ⟨hs, rfl⟩, rfl, rfl⟩, rfl⟩
  | set c n r e =>
    have hr := fun v => eval_nodeRegExpTree (n := n) (r := r) (v := v)
      fun x hx => hlexed x (by simp [tokens, hx])
    have he := fun v => NumExp.eval_eq_ok (e := e) (v := v) fun x hx => hlexed x (by simp [tokens, hx])
    simp only [tree, parts, eval_node_one, eval_node_three, hr, he, Safe, numbers, List.forall_mem_cons,
      List.not_mem_nil, false_imp_iff, implies_true, and_true]
    constructor
    · rintro ⟨w, ⟨x, y, z, ⟨hs, rfl⟩, -, ⟨hse, rfl⟩, hact⟩, hunit⟩
      obtain rfl := Except.ok.inj hact
      exact ⟨⟨hs.1, hs.2, hse⟩, (Except.ok.inj hunit).symm⟩
    · rintro ⟨⟨hsn, hsr, hse⟩, rfl⟩
      exact ⟨_, ⟨_, .none, _, ⟨⟨hsn, hsr⟩, rfl⟩, rfl, ⟨hse, rfl⟩, rfl⟩, rfl⟩

/-! ### The run on a line -/

section Run

variable {V ε : Type} {S : Semantics Token (Option Literal) Rule V ε}

open CLIParser (tables steps run_steps_isSome)

/-- Nothing was reduced since. -/
def Reads (front : List (Made Rule V)) : Prop := ∀ m ∈ front, ∃ v, m = .read v

theorem reads_unique {r r' : Rule} {u u' : V} {made made' : List (Made Rule V)} :
    ∀ {front front' : List (Made Rule V)}, Reads front → Reads front' →
      front ++ .reduced r u :: made = front' ++ .reduced r' u' :: made' → r = r' ∧ u = u'
  | [], [], _, _, h => by
    simp only [List.nil_append, List.cons.injEq, Made.reduced.injEq] at h
    exact h.1
  | [], m :: front', _, h', h => by
    obtain ⟨v, rfl⟩ := h' m List.mem_cons_self
    simp at h
  | m :: front, [], hfront, _, h => by
    obtain ⟨v, rfl⟩ := hfront m List.mem_cons_self
    simp at h
  | m :: front, m' :: front', hfront, hfront', h => by
    simp only [List.cons_append, List.cons.injEq] at h
    exact reads_unique (fun x hx => hfront x (List.mem_cons_of_mem _ hx))
      (fun x hx => hfront' x (List.mem_cons_of_mem _ hx)) h.2

variable {k v w z : V} {t : Token} {y : Option Literal}

/-- A `num_exp` in its place, up to a token that is no operator. -/
theorem reaches_number {e : NumExp} (he : e.Declared) {x : Context} (hx : x.level = none)
    (hv : S.eval e.tree = .ok v) (hz : S.token t y = .ok z) (ht : ∀ o, t ≠ .OP o)
    (st : List (State × V)) (made : List (Made Rule V)) (rest : List (Lexeme Token (Option Literal))) :
    ∃ made', Reaches tables S ⟨(.before x, k) :: st, none, e.tokens ++ .token t y :: rest, made⟩
      ⟨(.after x, v) :: (.before x, k) :: st, some z, .token t y :: rest, made'⟩ := by
  have hadmits : x.Admits e.level := fun l hl => by
    rw [hx] at hl
    cases hl
  have hstops : e.Stops t := fun o ho => absurd ho (ht o)
  obtain ⟨la, made₁, hla, hexp⟩ := reaches_numExp he hadmits hz hstops hv k st made rest
  have hnone : State.reduction (.after x) = none := by
    cases x with
    | op o => cases hx
    | _ => rfl
  obtain ⟨made₂, hlooked⟩ := reaches_looked (T := tables) ((.after x, v) :: (.before x, k) :: st) made₁
    rest (by simp [Tables.top, tables]) hnone hz hla
  exact ⟨made₂, hexp.trans hlooked⟩

theorem reaches_node {n : NumExp} (hn : n.Declared) (hw : S.eval (nodeExpTree n) = .ok w)
    (hz : S.token t y = .ok z) (ht : ∀ o, t ≠ .OP o) (rest : List (Lexeme Token (Option Literal))) :
    ∃ made, Reaches tables S (LR.Config.start (nodeTokens n ++ .token t y :: rest))
      ⟨[(.node_exp, w)], some z, .token t y :: rest, .reduced .node_exp w :: made⟩ := by
  obtain ⟨k, v, hk, hv, hact⟩ := eval_node_two.1 hw
  obtain ⟨made₁, hnode⟩ := reaches_token (T := tables) (s := .before .node) [] []
    (n.tokens ++ .token t y :: rest) (by simp [Tables.top, tables]) rfl rfl hk (.inl rfl)
  obtain ⟨made₂, hexp⟩ := reaches_number (k := k) hn (x := .node) rfl hv hz ht [] made₁ rest
  have hreduce : Reaches tables S
      ⟨[(.after .node, v), (.before .node, k)], some z, .token t y :: rest, made₂⟩ _ :=
    reaches_reduce [(State.after .node, v), (.before .node, k)] rfl (by simp [Tables.top, tables])
      (.inr ⟨rfl, rfl, t, y, rest, rfl, action_after rfl fun o ho => absurd ho (ht o)⟩) rfl hact
  exact ⟨made₂, hnode.trans (hexp.trans hreduce)⟩

theorem reaches_reg {n r : NumExp} (hn : n.Declared) (hr : r.Declared)
    (hw : S.eval (nodeRegExpTree n r) = .ok w) (hz : S.token t y = .ok z) (ht : ∀ o, t ≠ .OP o)
    (rest : List (Lexeme Token (Option Literal))) :
    ∃ made, Reaches tables S (LR.Config.start (regTokens n r ++ .token t y :: rest))
      ⟨[(.node_reg_exp, w)], some z, .token t y :: rest, .reduced .node_reg_exp w :: made⟩ := by
  obtain ⟨a, k, v, ha, hk, hv, hact⟩ := eval_node_three.1 hw
  obtain ⟨made₁, hnode⟩ := reaches_node hn ha hk nofun (r.tokens ++ .token t y :: rest)
  have hshift : Reaches tables S ⟨[(.node_exp, a)], some k,
      .token .T_REG none :: (r.tokens ++ .token t y :: rest), .reduced .node_exp a :: made₁⟩ _ :=
    reaches_shift (s := .before .reg) (by simp [Tables.top, tables]) rfl rfl
  obtain ⟨made₂, hexp⟩ := reaches_number (k := k) hr (x := .reg) rfl hv hz ht [(.node_exp, a)]
    (.reduced .node_exp a :: made₁) rest
  have hreduce : Reaches tables S ⟨[(.after .reg, v), (.before .reg, k), (.node_exp, a)], some z,
      .token t y :: rest, made₂⟩ _ :=
    reaches_reduce [(State.after .reg, v), (.before .reg, k), (.node_exp, a)] rfl
      (by simp [Tables.top, tables])
      (.inr ⟨rfl, rfl, t, y, rest, rfl, action_after rfl fun o ho => absurd ho (ht o)⟩) rfl hact
  have htokens : regTokens n r ++ .token t y :: rest =
      nodeTokens n ++ .token .T_REG none :: (r.tokens ++ .token t y :: rest) := by
    simp [regTokens]
  rw [htokens]
  exact ⟨made₂, hnode.trans (hshift.trans (hexp.trans hreduce))⟩

/-- The end of the text after what is a `unit`. -/
theorem run_unit {s : State} {r : Rule} {u : V} {la : Option V} {made : List (Made Rule V)}
    {input : List (Lexeme Token (Option Literal))} (hz : S.token .END none = .ok z)
    (hla : la = none ∨ la = some z)
    (hr : State.reduction s = some r ∨
      State.reduction s = none ∧ la = some z ∧ State.action s .END = .reduce r)
    (hrule : r.rhs.length = 1 ∧ r.lhs = .unit) (hs : s ≠ .final) (hu : S.act r [w] = .ok u)
    (h : Reaches tables S (LR.Config.start input) ⟨[(s, w)], la, [.token .END none], made⟩) :
    ∃ front, Reads front ∧ LR.run tables S (steps input) (LR.Config.start input) =
      some (.ok (true, front ++ .reduced r u :: made)) := by
  have hgoto : tables.goto (tables.top ([] : List State)) (tables.lhs r) = some .unit := by
    change State.goto .start r.lhs = _
    rw [hrule.2]
    rfl
  have hreduce : Reaches tables S ⟨[(s, w)], la, [.token .END none], made⟩
      ⟨[(.unit, u)], la, [.token .END none], .reduced r u :: made⟩ := by
    refine reaches_reduce [(s, w)] hrule.1.symm hs ?_ hgoto hu
    rcases hr with hsome | ⟨hnone, rfl, haction⟩
    · exact .inl hsome
    · exact .inr ⟨hnone, rfl, .END, none, [], rfl, haction⟩
  have hend (made' : List (Made Rule V)) : Reaches tables S ⟨[(.unit, u)], some z, [.token .END none], made'⟩
      ⟨[(.final, z), (.unit, u)], none, [], made'⟩ :=
    reaches_shift (T := tables) (s := .final) (by simp [Tables.top, tables]) rfl rfl
  rcases hla with rfl | rfl
  · have hread : Reaches tables S
        ⟨[(.unit, u)], none, [.token .END none], .reduced r u :: made⟩ _ :=
      reaches_read (T := tables) (by simp [Tables.top, tables]) rfl hz
    refine ⟨[.read z], by simp [Reads], run_of_reaches_done
      (h.trans (hreduce.trans (hread.trans (hend _)))) rfl (run_steps_isSome S _)⟩
  · exact ⟨[], by simp [Reads], run_of_reaches_done (h.trans (hreduce.trans (hend _))) rfl
      (run_steps_isSome S _)⟩

/-- A line up to the end of the text. -/
def input (line : CliLine) : List (Lexeme Token (Option Literal)) := line.tokens ++ [.token .END none]

/-- What was made before a line was reduced to `unit`: for the empty one nothing, for any other the
value of its only part. -/
def Before (S : Semantics Token (Option Literal) Rule V ε) (line : CliLine) (u : V)
    (made : List (Made Rule V)) : Prop :=
  line = empty ∧ Reads made ∨
    ∃ r w rest, made = .reduced r w :: rest ∧ r.lhs ≠ .unit ∧ S.act line.rule [w] = .ok u

/-- The parser accepts the line and makes its value last. -/
theorem run_line {line : CliLine} (hdeclared : line.Declared) {u : V} (hu : S.eval line.tree = .ok u)
    (hz : S.token .END none = .ok z) : ∃ front made, Reads front ∧ Before S line u made ∧
      LR.run tables S (steps line.input) (LR.Config.start line.input) =
        some (.ok (true, front ++ .reduced line.rule u :: made)) := by
  cases line with
  | empty =>
    obtain ⟨vs, hvs, hact⟩ := eval_node_eq_ok.1 hu
    obtain rfl := evalAll_nil_eq_ok.1 hvs
    have hread : Reaches tables S (LR.Config.start [.token .END none]) _ :=
      reaches_read (by simp [Tables.top, tables]) rfl hz
    have hreduce : Reaches tables S ⟨[], some z, [.token .END none], [.read z]⟩
        ⟨[(.unit, u)], some z, [.token .END none], [.reduced .unit_empty u, .read z]⟩ :=
      reaches_reduce ([] : List (State × V)) rfl (by simp [Tables.top, tables])
        (.inr ⟨rfl, rfl, .END, none, [], rfl, rfl⟩) rfl hact
    have hend : Reaches tables S ⟨[(.unit, u)], some z, [.token .END none],
        [.reduced .unit_empty u, .read z]⟩ _ :=
      reaches_shift (s := .final) (by simp [Tables.top, tables]) rfl rfl
    exact ⟨[], [.read z], by simp [Reads], .inl ⟨rfl, by simp [Reads]⟩,
      run_of_reaches_done (hread.trans (hreduce.trans hend)) rfl (run_steps_isSome S _)⟩
  | node n =>
    obtain ⟨w, hw, hact⟩ := eval_node_one.1 hu
    obtain ⟨made, hnode⟩ := reaches_node (hdeclared n (by simp [numbers])) hw hz (by simp) []
    obtain ⟨front, hfront, hrun⟩ := run_unit (s := .node_exp) hz (.inr rfl) (.inr ⟨rfl, rfl, rfl⟩)
      ⟨rfl, rfl⟩ (by simp) hact hnode
    exact ⟨front, _, hfront, .inr ⟨.node_exp, w, made, rfl, by simp [Rule.lhs], hact⟩, hrun⟩
  | restart n =>
    obtain ⟨w, hw, hact⟩ := eval_node_one.1 hu
    obtain ⟨a, k, ha, hk, hcmd⟩ := eval_node_two.1 hw
    obtain ⟨made, hnode⟩ := reaches_node (hdeclared n (by simp [numbers])) ha hk (by simp)
      [.token .END none]
    have hshift : Reaches tables S ⟨[(.node_exp, a)], some k, [.token .T_RESTART none, .token .END none],
        .reduced .node_exp a :: made⟩ _ :=
      reaches_shift (s := .restart) (by simp [Tables.top, tables]) rfl rfl
    have hreduce : Reaches tables S ⟨[(.restart, k), (.node_exp, a)], none, [.token .END none],
        .reduced .node_exp a :: made⟩ _ :=
      reaches_reduce [(State.restart, k), (.node_exp, a)] rfl (by simp [Tables.top, tables]) (.inl rfl)
        rfl hcmd
    have hinput : (restart n).input = nodeTokens n ++ [.token .T_RESTART none, .token .END none] := by
      simp [input, tokens]
    rw [hinput]
    obtain ⟨front, hfront, hrun⟩ := run_unit (s := .node_command) hz (.inl rfl) (.inl rfl) ⟨rfl, rfl⟩
      (by simp) hact (hnode.trans (hshift.trans hreduce))
    exact ⟨front, _, hfront, .inr ⟨.node_command, w, _, rfl, by simp [Rule.lhs], hact⟩, hrun⟩
  | reg n r =>
    obtain ⟨w, hw, hact⟩ := eval_node_one.1 hu
    obtain ⟨made, hreg⟩ := reaches_reg (hdeclared n (by simp [numbers]))
      (hdeclared r (by simp [numbers])) hw hz (by simp) []
    obtain ⟨front, hfront, hrun⟩ := run_unit (s := .node_reg_exp) hz (.inr rfl) (.inr ⟨rfl, rfl, rfl⟩)
      ⟨rfl, rfl⟩ (by simp) hact hreg
    exact ⟨front, _, hfront, .inr ⟨.node_reg_exp, w, made, rfl, by simp [Rule.lhs], hact⟩, hrun⟩
  | get n r =>
    obtain ⟨w, hw, hact⟩ := eval_node_one.1 hu
    obtain ⟨a, k, ha, hk, hcmd⟩ := eval_node_two.1 hw
    obtain ⟨made, hreg⟩ := reaches_reg (hdeclared n (by simp [numbers]))
      (hdeclared r (by simp [numbers])) ha hk (by simp) [.token .END none]
    have hshift : Reaches tables S ⟨[(.node_reg_exp, a)], some k, [.token .T_GET none, .token .END none],
        .reduced .node_reg_exp a :: made⟩ _ :=
      reaches_shift (s := .get) (by simp [Tables.top, tables]) rfl rfl
    have hreduce : Reaches tables S ⟨[(.get, k), (.node_reg_exp, a)], none, [.token .END none],
        .reduced .node_reg_exp a :: made⟩ _ :=
      reaches_reduce [(State.get, k), (.node_reg_exp, a)] rfl (by simp [Tables.top, tables]) (.inl rfl)
        rfl hcmd
    have hinput : (get n r).input = regTokens n r ++ [.token .T_GET none, .token .END none] := by
      simp [input, tokens]
    rw [hinput]
    obtain ⟨front, hfront, hrun⟩ := run_unit (s := .node_reg_command) hz (.inl rfl) (.inl rfl) ⟨rfl, rfl⟩
      (by simp) hact (hreg.trans (hshift.trans hreduce))
    exact ⟨front, _, hfront, .inr ⟨.get, w, _, rfl, by simp [Rule.lhs], hact⟩, hrun⟩
  | set c n r e =>
    obtain ⟨w, hw, hact⟩ := eval_node_one.1 hu
    obtain ⟨a, k, v, ha, hk, hv, hcmd⟩ := eval_node_three.1 hw
    obtain ⟨made₁, hreg⟩ := reaches_reg (hdeclared n (by simp [numbers]))
      (hdeclared r (by simp [numbers])) ha hk (by simp) (e.tokens ++ [.token .END none])
    have hshift : Reaches tables S ⟨[(.node_reg_exp, a)], some k,
        .token (.T_SET c) none :: (e.tokens ++ [.token .END none]), .reduced .node_reg_exp a :: made₁⟩ _ :=
      reaches_shift (s := .before (.set c)) (by simp [Tables.top, tables]) rfl rfl
    obtain ⟨made₂, hexp⟩ := reaches_number (k := k) (hdeclared e (by simp [numbers])) (x := .set c) rfl hv
      hz (by simp) [(.node_reg_exp, a)] (.reduced .node_reg_exp a :: made₁) []
    have hreduce : Reaches tables S ⟨[(.after (.set c), v), (.before (.set c), k), (.node_reg_exp, a)],
        some z, [.token .END none], made₂⟩ _ :=
      reaches_reduce [(State.after (.set c), v), (.before (.set c), k), (.node_reg_exp, a)] rfl
        (by simp [Tables.top, tables])
        (.inr ⟨rfl, rfl, .END, none, [], rfl,
          action_after (t := .END) (x := .set c) (r := .set c) rfl (by simp)⟩) rfl hcmd
    have hinput : (set c n r e).input =
        regTokens n r ++ .token (.T_SET c) none :: (e.tokens ++ [.token .END none]) := by
      simp [input, tokens]
    rw [hinput]
    obtain ⟨front, hfront, hrun⟩ := run_unit (s := .node_reg_command) hz (.inr rfl) (.inl rfl) ⟨rfl, rfl⟩
      (by simp) hact (hreg.trans (hshift.trans (hexp.trans hreduce)))
    exact ⟨front, _, hfront, .inr ⟨.set c, w, _, rfl, by simp [Rule.lhs], hact⟩, hrun⟩

end Run

/-! ### Acceptance -/

section Accept

open CLIParser

/-- The text that a line is the whole of, up to the end. -/
theorem eq_nil_of_yylex : ∀ (n : ℕ) (cs : List Char) {front back : List (Lexeme Token (Option Literal))}
    {x : Option Literal}, yylex n cs = front ++ .token .END x :: back → back = []
  | 0, _, front, back, x, h => by simp [yylex] at h
  | _ + 1, [], front, back, x, h => by
    rw [yylex] at h
    rcases front with _ | ⟨a, front⟩
    · exact (List.cons.inj h).2.symm
    · exact absurd (List.cons.inj h).2 (by simp)
  | n + 1, c :: cs, front, back, x, h => by
    have hskip := eq_nil_of_yylex n
    have hmem := LexRule.longest_mem (c :: cs)
    rw [yylex] at h
    rcases hlongest : LexRule.longest (c :: cs) with ⟨rule, len⟩
    rw [hlongest] at h hmem
    have hcons {t : Token} {y : Option Literal} (ht : t ≠ .END)
        (h : .token t y :: yylex n ((c :: cs).drop len) = front ++ .token .END x :: back) : back = [] := by
      rcases front with _ | ⟨a, front⟩
      · simp [ht] at h
      · exact hskip _ (List.cons.inj h).2
    cases rule with
    | comment => exact hskip _ h
    | blank => exact hskip _ h
    | word text t =>
      refine hcons ?_ h
      rintro rfl
      simp [LexRule.all] at hmem
    | other =>
      rcases front with _ | ⟨a, front⟩
      · simp at h
      · simp at h
    | _ => exact hcons (by simp) h

variable {t : Tree Token (Option Literal) Rule}

theorem exists_node (h : t.Valid tables) (hroot : t.root tables = .inr .node_exp)
    (hlexed : ∀ x ∈ t.words, Lexed x) : ∃ n, t = nodeExpTree n := by
  cases h with
  | leaf k x => cases hroot
  | @node r ts hroots hvalid =>
    cases r with
    | node_exp =>
      obtain ⟨k, _, rfl, hk, hroots⟩ := List.map_eq_cons_iff.1 hroots
      obtain ⟨a, rfl, ha⟩ := List.map_eq_singleton_iff.1 hroots
      obtain ⟨x, rfl⟩ := eq_leaf_of_root hk
      obtain rfl : x = none := hlexed (.token .T_NODE x) (by simp [Tree.words, Tree.wordsAll])
      obtain ⟨n, rfl⟩ := exists_numExp (hvalid a (by simp)) ha
        fun x hx => hlexed x (by simp [Tree.words, Tree.wordsAll, hx])
      exact ⟨n, rfl⟩
    | _ => cases hroot

theorem exists_reg (h : t.Valid tables) (hroot : t.root tables = .inr .node_reg_exp)
    (hlexed : ∀ x ∈ t.words, Lexed x) : ∃ n r, t = nodeRegExpTree n r := by
  cases h with
  | leaf k x => cases hroot
  | @node r ts hroots hvalid =>
    cases r with
    | node_reg_exp =>
      obtain ⟨a, _, rfl, ha, hroots⟩ := List.map_eq_cons_iff.1 hroots
      obtain ⟨k, _, rfl, hk, hroots⟩ := List.map_eq_cons_iff.1 hroots
      obtain ⟨b, rfl, hb⟩ := List.map_eq_singleton_iff.1 hroots
      obtain ⟨x, rfl⟩ := eq_leaf_of_root hk
      obtain rfl : x = none := hlexed (.token .T_REG x) (by simp [Tree.words, Tree.wordsAll])
      obtain ⟨n, rfl⟩ := exists_node (hvalid a (by simp)) ha
        fun x hx => hlexed x (by simp [Tree.words, Tree.wordsAll, hx])
      obtain ⟨r, rfl⟩ := exists_numExp (hvalid b (by simp)) hb
        fun x hx => hlexed x (by simp [Tree.words, Tree.wordsAll, hx])
      exact ⟨n, r, rfl⟩
    | _ => cases hroot

theorem exists_node_command (h : t.Valid tables) (hroot : t.root tables = .inr .node_command)
    (hlexed : ∀ x ∈ t.words, Lexed x) :
    ∃ n, t = .node .node_command [nodeExpTree n, .leaf .T_RESTART none] := by
  cases h with
  | leaf k x => cases hroot
  | @node r ts hroots hvalid =>
    cases r with
    | node_command =>
      obtain ⟨a, _, rfl, ha, hroots⟩ := List.map_eq_cons_iff.1 hroots
      obtain ⟨k, rfl, hk⟩ := List.map_eq_singleton_iff.1 hroots
      obtain ⟨x, rfl⟩ := eq_leaf_of_root hk
      obtain rfl : x = none := hlexed (.token .T_RESTART x) (by simp [Tree.words, Tree.wordsAll])
      obtain ⟨n, rfl⟩ := exists_node (hvalid a (by simp)) ha
        fun x hx => hlexed x (by simp [Tree.words, Tree.wordsAll, hx])
      exact ⟨n, rfl⟩
    | _ => cases hroot

theorem exists_node_reg_command (h : t.Valid tables) (hroot : t.root tables = .inr .node_reg_command)
    (hlexed : ∀ x ∈ t.words, Lexed x) :
    (∃ n r, t = .node .get [nodeRegExpTree n r, .leaf .T_GET none]) ∨
      ∃ (c : SetCommand) (n r e : NumExp),
        t = .node (.set c) [nodeRegExpTree n r, .leaf (.T_SET c) none, e.tree] := by
  cases h with
  | leaf k x => cases hroot
  | @node r ts hroots hvalid =>
    cases r with
    | get =>
      obtain ⟨a, _, rfl, ha, hroots⟩ := List.map_eq_cons_iff.1 hroots
      obtain ⟨k, rfl, hk⟩ := List.map_eq_singleton_iff.1 hroots
      obtain ⟨x, rfl⟩ := eq_leaf_of_root hk
      obtain rfl : x = none := hlexed (.token .T_GET x) (by simp [Tree.words, Tree.wordsAll])
      obtain ⟨n, r, rfl⟩ := exists_reg (hvalid a (by simp)) ha
        fun x hx => hlexed x (by simp [Tree.words, Tree.wordsAll, hx])
      exact .inl ⟨n, r, rfl⟩
    | set c =>
      obtain ⟨a, _, rfl, ha, hroots⟩ := List.map_eq_cons_iff.1 hroots
      obtain ⟨k, _, rfl, hk, hroots⟩ := List.map_eq_cons_iff.1 hroots
      obtain ⟨b, rfl, hb⟩ := List.map_eq_singleton_iff.1 hroots
      obtain ⟨x, rfl⟩ := eq_leaf_of_root hk
      obtain rfl : x = none := hlexed (.token (.T_SET c) x) (by simp [Tree.words, Tree.wordsAll])
      obtain ⟨n, r, rfl⟩ := exists_reg (hvalid a (by simp)) ha
        fun x hx => hlexed x (by simp [Tree.words, Tree.wordsAll, hx])
      obtain ⟨e, rfl⟩ := exists_numExp (hvalid b (by simp)) hb
        fun x hx => hlexed x (by simp [Tree.words, Tree.wordsAll, hx])
      exact .inr ⟨c, n, r, e, rfl⟩
    | _ => cases hroot

/-- A derivation of `unit` is a line. -/
theorem exists_line (h : t.Valid tables) (hroot : t.root tables = .inr .unit)
    (hlexed : ∀ x ∈ t.words, Lexed x) : ∃ line : CliLine, t = line.tree := by
  cases h with
  | leaf k x => cases hroot
  | @node r ts hroots hvalid =>
    have hwords {a : Tree Token (Option Literal) Rule} (ha : ts = [a]) : ∀ x ∈ a.words, Lexed x := by
      subst ha
      exact fun x hx => hlexed x (by simp [Tree.words, Tree.wordsAll, hx])
    cases r with
    | unit_empty =>
      obtain rfl := List.map_eq_nil_iff.1 hroots
      exact ⟨empty, rfl⟩
    | unit_node_exp =>
      obtain ⟨a, rfl, ha⟩ := List.map_eq_singleton_iff.1 hroots
      obtain ⟨n, rfl⟩ := exists_node (hvalid a (by simp)) ha (hwords rfl)
      exact ⟨node n, rfl⟩
    | unit_node_reg_exp =>
      obtain ⟨a, rfl, ha⟩ := List.map_eq_singleton_iff.1 hroots
      obtain ⟨n, r, rfl⟩ := exists_reg (hvalid a (by simp)) ha (hwords rfl)
      exact ⟨reg n r, rfl⟩
    | unit_node_command =>
      obtain ⟨a, rfl, ha⟩ := List.map_eq_singleton_iff.1 hroots
      obtain ⟨n, rfl⟩ := exists_node_command (hvalid a (by simp)) ha (hwords rfl)
      exact ⟨restart n, rfl⟩
    | unit_node_reg_command =>
      obtain ⟨a, rfl, ha⟩ := List.map_eq_singleton_iff.1 hroots
      rcases exists_node_reg_command (hvalid a (by simp)) ha (hwords rfl) with
        ⟨n, r, rfl⟩ | ⟨c, n, r, e, rfl⟩
      · exact ⟨get n r, rfl⟩
      · exact ⟨set c n r e, rfl⟩
    | _ => cases hroot

/-- An accepted text is the tokens of a line. -/
theorem exists_line_of_accept {text : List (Lexeme Token (Option Literal))}
    (hlexed : ∀ x ∈ text, Lexed x)
    (hend : ∀ {front back x}, text = front ++ .token .END x :: back → back = [])
    {made : List (Made Rule (Tree Token (Option Literal) Rule))}
    (hrun : LR.run tables (Tree.semantics : Semantics _ _ _ _ Exn) (steps text) (LR.Config.start text) =
      some (.ok (true, made))) : ∃ line : CliLine, text = line.input := by
  obtain ⟨d, hd, -, htop⟩ := derives_of_accept spells _ (derives_start text) hrun
  obtain ⟨below, hstates⟩ := eq_cons_of_top htop (by simp [tables])
  have hpath := hd.path
  rw [hstates] at hpath
  obtain ⟨below, rfl, hunit⟩ := below_eq hpath (fun _ hedge => by cases hedge; rfl) (by simp)
  obtain rfl := below_eq_nil hunit fun _ hedge => by cases hedge; rfl
  obtain ⟨⟨_, a⟩, _, hstack, rfl, hrest⟩ := List.map_eq_cons_iff.1 hstates
  obtain ⟨⟨_, t⟩, hrest, rfl⟩ := List.map_eq_singleton_iff.1 hrest
  subst hrest
  have hwords := hd.words
  rw [hstack] at hwords
  have hroots := hd.roots
  have hvalid := hd.stacked
  rw [hstack] at hroots hvalid
  obtain ⟨x, rfl⟩ := eq_leaf_of_root (hroots _ List.mem_cons_self)
  have htext : text = t.words ++ .token .END x :: d.input := by
    rw [← hwords]
    simp [Tree.words, Tree.wordsAll]
  rw [hend htext] at htext
  obtain rfl : x = none := hlexed (.token .END x) (by simp [htext])
  obtain ⟨line, rfl⟩ := exists_line (hvalid (State.unit, t) (by simp)) (hroots (State.unit, t) (by simp))
    fun x hx => hlexed x (by rw [htext]; simp [hx])
  exact ⟨line, by rw [htext, words_tree, input]⟩

/-- What the parser returns and leaves in the object for the line. -/
def parsed (line : CliLine) : Parsed := ⟨0, line.exp, line.exp⟩

theorem result_of_reads {front : List (Made Rule SymbolValue)} (h : Reads front)
    (made : List (Made Rule SymbolValue)) :
    result (front ++ made) = result made ∧ last_match (front ++ made) = last_match made := by
  induction front with
  | nil => exact ⟨rfl, rfl⟩
  | cons m front ih =>
    obtain ⟨v, rfl⟩ := h m List.mem_cons_self
    exact ih fun x hx => h x (List.mem_cons_of_mem _ hx)

/-- The two last values that are made of a line are what it says. -/
theorem result_of_before {line : CliLine} {made : List (Made Rule SymbolValue)}
    (h : Before semantics line line.value made) :
    result (.reduced line.rule line.value :: made) = line.exp ∧
      last_match (.reduced line.rule line.value :: made) = line.exp := by
  rcases h with ⟨rfl, hreads⟩ | ⟨r, w, rest, rfl, hr, hact⟩
  · obtain ⟨hresult, hlast⟩ := result_of_reads hreads []
    rw [List.append_nil] at hresult hlast
    exact ⟨hresult, hlast⟩
  · have hresult {q : Rule} {e : AbstractExp} (hq : q.lhs = .unit) :
        result (.reduced q (.exp e) :: .reduced r (.exp e) :: rest) = some e ∧
          last_match (.reduced q (.exp e) :: .reduced r (.exp e) :: rest) = some e := by
      simp [result, last_match, hq, hr]
    cases line with
    | empty => cases hact
    | _ =>
      obtain rfl := Except.ok.inj hact
      exact hresult rfl

theorem parseTokens_input {line : CliLine} (hdeclared : line.Declared) (hsafe : line.Safe)
    (hlexed : ∀ x ∈ line.tokens, Lexed x) : parseTokens line.input = some (.ok line.parsed) := by
  obtain ⟨front, made, hfront, hbefore, hrun⟩ :=
    run_line hdeclared ((eval_tree hlexed).2 ⟨hsafe, rfl⟩) (S := semantics) rfl
  obtain ⟨hresult, hlast⟩ := result_of_reads hfront (.reduced line.rule line.value :: made)
  obtain ⟨hresult', hlast'⟩ := result_of_before hbefore
  have hparse : parseTokens line.input = some (.ok ⟨0, result (front ++ .reduced line.rule line.value :: made),
      last_match (front ++ .reduced line.rule line.value :: made)⟩) := by
    rw [parseTokens, hrun]
    rfl
  rw [hparse, hresult, hlast, hresult', hlast', parsed]

/-- No two lines with numbers grouped so have the same tokens. -/
theorem eq_of_tokens {line line' : CliLine} (h : line.Declared) (h' : line'.Declared)
    (htokens : line.tokens = line'.tokens) : line = line' := by
  obtain ⟨front, made, hfront, -, hrun⟩ :=
    run_line h (S := (Tree.semantics : Semantics _ _ _ _ Exn)) (eval_trees _) rfl
  obtain ⟨front', made', hfront', -, hrun'⟩ :=
    run_line h' (S := (Tree.semantics : Semantics _ _ _ _ Exn)) (eval_trees _) rfl
  rw [input, htokens, ← input, hrun'] at hrun
  simp only [Option.some.injEq, Except.ok.injEq, Prod.mk.injEq, true_and] at hrun
  exact tree_injective (reads_unique hfront' hfront hrun).2.symm

/-- Where the parser succeeds, it read a line, and what it made is what the line says. -/
theorem exists_line_of_parse {str : List Char} {p : Parsed} (hp : parse str = some (.ok p))
    (hret : p.ret = 0) : ∃ line : CliLine, line.Declared ∧ scan_string str = line.input ∧ line.Safe ∧
      p = line.parsed := by
  have hlexed := scan_string_lexed str
  obtain ⟨b, made, hrun, hmade⟩ := derivations_eq (scan_string str)
  have haccept : b = true := by
    rcases run_eval _ (LR.Config.evals_start semantics (scan_string str)) hrun with ⟨made', hrun', -⟩ |
      ⟨_, -, e, -, herror⟩
    · have hp' := hp
      rw [parse, parseTokens, hrun'] at hp'
      obtain rfl := Except.ok.inj (Option.some.inj hp')
      by_contra hb
      simp [hb] at hret
    · rw [parse, parseTokens, herror] at hp
      cases hp
  subst haccept
  obtain ⟨line, hline⟩ := exists_line_of_accept hlexed (eq_nil_of_yylex _ _) hrun
  have hinput : scan_string str = line.regroup.input := by rw [hline, input, input, tokens_regroup]
  have hdeclared := declared_regroup line
  have hlexed' : ∀ x ∈ line.regroup.tokens, Lexed x := fun x hx => hlexed x (by simp [hinput, input, hx])
  obtain ⟨front, made', -, -, hrun'⟩ := run_line hdeclared
    (S := (Tree.semantics : Semantics _ _ _ _ Exn)) (eval_trees _) rfl
  have hmem : line.regroup.tree ∈ derivations (scan_string str) := by
    rw [derivations, hinput, hrun']
    simp [Made.value]
  obtain ⟨v, hv⟩ := eval_of_parseTokens hp hmem
  have hsafe := ((eval_tree hlexed').1 hv).1
  have hparsed := parseTokens_input hdeclared hsafe hlexed'
  rw [parse, hinput, hparsed] at hp
  obtain rfl := Except.ok.inj (Option.some.inj hp)
  exact ⟨line.regroup, hdeclared, hinput, hsafe, rfl⟩

/-- The parser succeeds on just the texts whose tokens are those of a line with safe numbers. Grouped as
the precedences say there is only one such line, and what it says is what the parser makes. -/
theorem parse_iff (str : List Char) (p : Parsed) : parse str = some (.ok p) ∧ p.ret = 0 ↔
    ∃! line : CliLine, (line.Declared ∧ scan_string str = line.input) ∧ line.Safe ∧ p = line.parsed := by
  constructor
  · rintro ⟨hp, hret⟩
    obtain ⟨line, hdeclared, hinput, hsafe, rfl⟩ := exists_line_of_parse hp hret
    refine ⟨line, ⟨⟨hdeclared, hinput⟩, hsafe, rfl⟩, ?_⟩
    rintro line' ⟨⟨hdeclared', hinput'⟩, -, -⟩
    exact eq_of_tokens hdeclared' hdeclared (List.append_cancel_right (hinput'.symm.trans hinput))
  · rintro ⟨line, ⟨⟨hdeclared, hinput⟩, hsafe, rfl⟩, -⟩
    refine ⟨?_, rfl⟩
    rw [parse, hinput]
    exact parseTokens_input hdeclared hsafe fun x hx =>
      scan_string_lexed str x (by simp [hinput, input, hx])

end Accept

/-! ### Completion -/

theorem matches_of_some {text : List Char} {name : String} {list rest : List String}
    (h : cli_completion_generator text list = some (name, rest)) :
    rl_completion_matches text list = name :: rl_completion_matches text rest := by
  rw [rl_completion_matches]
  split
  · rename_i h'
    obtain ⟨rfl, rfl⟩ := Prod.mk.inj (Option.some.inj (h.symm.trans h'))
    rfl
  · rename_i h'
    cases h.symm.trans h'

theorem matches_of_none {text : List Char} {list : List String}
    (h : cli_completion_generator text list = none) : rl_completion_matches text list = [] := by
  rw [rl_completion_matches]
  split
  · rename_i h'
    cases h.symm.trans h'
  · rfl

theorem generator_cons (text : List Char) (name : String) (list : List String) :
    cli_completion_generator text (name :: list) =
      if text.isPrefixOf name.toList then some (name, list) else cli_completion_generator text list := rfl

/-- The names that begin like the text. -/
theorem matches_eq_filter (text : List Char) : ∀ list : List String,
    rl_completion_matches text list = list.filter fun name => text.isPrefixOf name.toList
  | [] => matches_of_none rfl
  | name :: list => by
    have ih := matches_eq_filter text list
    rw [List.filter_cons, ← ih]
    have hgen := generator_cons text name list
    split_ifs at hgen ⊢
    · exact matches_of_some hgen
    · rcases hrest : cli_completion_generator text list with _ | ⟨name', rest⟩
      · rw [matches_of_none hrest, matches_of_none (hgen.trans hrest)]
      · rw [matches_of_some hrest, matches_of_some (hgen.trans hrest)]

/-- The words of the scanner that are no operators. -/
def keywords : List (List Char × Token) :=
  LexRule.all.filterMap fun
    | .word text t => if text.all Char.isAlphanum then some (text, t) else none
    | _ => none

theorem keywords_eq : keywords =
    [("node".toList, .T_NODE), ("restart".toList, .T_RESTART), ("reg".toList, .T_REG),
      ("setbit".toList, .T_SET .setbit), ("clearbit".toList, .T_SET .clearbit),
      ("togglebit".toList, .T_SET .togglebit), ("set1".toList, .T_SET .set1),
      ("set2".toList, .T_SET .set2), ("set3".toList, .T_SET .set3), ("set4".toList, .T_SET .set4),
      ("get".toList, .T_GET)] := by
  rfl

/-- The token comes next in some line that begins so. -/
def Continues (front : List (Lexeme Token (Option Literal))) (t : Token) : Prop :=
  ∃ (line : CliLine) (more : List (Lexeme Token (Option Literal))),
    line.tokens = front ++ .token t none :: more

def isKeyword : Token → Bool
  | .T_NODE | .T_RESTART | .T_REG | .T_SET _ | .T_GET => true
  | _ => false

/-- The keywords that go on with the line. -/
def next : CliLine → List Token
  | empty => [.T_NODE]
  | node _ => [.T_REG, .T_RESTART]
  | reg _ _ => [.T_GET, .T_SET .setbit, .T_SET .clearbit, .T_SET .togglebit, .T_SET .set1, .T_SET .set2,
      .T_SET .set3, .T_SET .set4]
  | _ => []

theorem next_regroup (line : CliLine) : line.regroup.next = line.next := by
  cases line <;> rfl

theorem isKeyword_of_mem {text : List Char} {t : Token} (h : (text, t) ∈ keywords) :
    isKeyword t = true := by
  simp only [keywords_eq, List.mem_cons, List.not_mem_nil, or_false, Prod.mk.injEq] at h
  rcases h with ⟨-, rfl⟩ | ⟨-, rfl⟩ | ⟨-, rfl⟩ | ⟨-, rfl⟩ | ⟨-, rfl⟩ | ⟨-, rfl⟩ | ⟨-, rfl⟩ | ⟨-, rfl⟩ |
    ⟨-, rfl⟩ | ⟨-, rfl⟩ | ⟨-, rfl⟩ <;> rfl

theorem isKeyword_of_mem_tokens {t : Token} {y : Option Literal} : ∀ {e : NumExp},
    .token t y ∈ e.tokens → isKeyword t = false
  | .number l, h => by
    obtain ⟨rfl, -⟩ : t = .NUMBER ∧ y = some l := by simpa [NumExp.tokens] using h
    rfl
  | .binary o l r, h => by
    simp only [NumExp.tokens, List.mem_append, List.mem_cons, Lexeme.token.injEq] at h
    rcases h with h | ⟨rfl, -⟩ | h
    · exact isKeyword_of_mem_tokens h
    · rfl
    · exact isKeyword_of_mem_tokens h
  | .paren e, h => by
    simp only [NumExp.tokens, List.mem_append, List.mem_cons, List.not_mem_nil, or_false,
      Lexeme.token.injEq] at h
    rcases h with ⟨rfl, -⟩ | h | ⟨rfl, -⟩
    · rfl
    · exact isKeyword_of_mem_tokens h
    · rfl
  | .minus e, h => by
    simp only [NumExp.tokens, List.mem_cons, Lexeme.token.injEq] at h
    rcases h with ⟨rfl, -⟩ | h
    · rfl
    · exact isKeyword_of_mem_tokens h

section Split

variable {t : Token} {front more rest : List (Lexeme Token (Option Literal))}

/-- A keyword is not within a number. -/
theorem split_tokens (ht : isKeyword t = true) {e : NumExp}
    (h : e.tokens ++ rest = front ++ .token t none :: more) :
    ∃ front', front = e.tokens ++ front' ∧ rest = front' ++ .token t none :: more := by
  rcases List.append_eq_append_iff.1 h with ⟨front', hfront, hrest⟩ | ⟨between, he, hrest⟩
  · exact ⟨front', hfront, hrest⟩
  · rcases between with _ | ⟨x, between⟩
    · exact ⟨[], by simpa using he.symm, by simpa using hrest.symm⟩
    · obtain ⟨rfl, -⟩ := List.cons.inj hrest
      have hmem : Lexeme.token t none ∈ e.tokens := by simp [he]
      rw [isKeyword_of_mem_tokens hmem] at ht
      cases ht

theorem eq_nil_of_tokens (ht : isKeyword t = true) {e : NumExp} :
    e.tokens ≠ front ++ .token t none :: more := by
  intro h
  have hmem : Lexeme.token t none ∈ e.tokens := by simp [h]
  rw [isKeyword_of_mem_tokens hmem] at ht
  cases ht

theorem split_node (ht : isKeyword t = true) {n : NumExp}
    (h : nodeTokens n ++ rest = front ++ .token t none :: more) :
    front = [] ∧ t = .T_NODE ∨
      ∃ front', front = nodeTokens n ++ front' ∧ rest = front' ++ .token t none :: more := by
  rcases front with _ | ⟨x, front⟩
  · have heq := (List.cons.inj h).1
    simp only [Lexeme.token.injEq, and_true] at heq
    exact .inl ⟨rfl, heq.symm⟩
  · obtain ⟨rfl, htail⟩ := List.cons.inj h
    obtain ⟨front', rfl, hrest⟩ := split_tokens ht htail
    exact .inr ⟨front', rfl, hrest⟩

theorem split_reg (ht : isKeyword t = true) {n r : NumExp}
    (h : regTokens n r ++ rest = front ++ .token t none :: more) :
    (front = [] ∧ t = .T_NODE ∨ front = nodeTokens n ∧ t = .T_REG) ∨
      ∃ front', front = regTokens n r ++ front' ∧ rest = front' ++ .token t none :: more := by
  rw [regTokens, List.append_assoc] at h
  rcases split_node ht h with hnode | ⟨front', rfl, hrest⟩
  · exact .inl (.inl hnode)
  · rcases front' with _ | ⟨x, front'⟩
    · have heq := (List.cons.inj hrest).1
      simp only [Lexeme.token.injEq, and_true] at heq
      exact .inl (.inr ⟨by simp, heq.symm⟩)
    · obtain ⟨rfl, htail⟩ := List.cons.inj hrest
      obtain ⟨front', rfl, hafter⟩ := split_tokens ht htail
      exact .inr ⟨front', by simp [regTokens], hafter⟩

/-- After the one keyword at the end of what is read. -/
theorem split_last {k : Token} (h : .token k none :: rest = front ++ .token t none :: more)
    (hrest : ∀ front', rest ≠ front' ++ .token t none :: more) : front = [] ∧ t = k := by
  rcases front with _ | ⟨x, front⟩
  · have heq := (List.cons.inj h).1
    simp only [Lexeme.token.injEq, and_true] at heq
    exact ⟨rfl, heq.symm⟩
  · exact absurd (List.cons.inj h).2 (hrest front)

/-- What a keyword may follow is a line, and the keyword goes on with it. -/
theorem continues_iff (ht : isKeyword t = true) :
    Continues front t ↔ ∃ line : CliLine, line.tokens = front ∧ t ∈ line.next := by
  constructor
  · rintro ⟨line, more, h⟩
    cases line with
    | empty => simp [tokens] at h
    | node n =>
      rw [tokens, ← List.append_nil (nodeTokens n)] at h
      rcases split_node ht h with ⟨rfl, rfl⟩ | ⟨front', -, hrest⟩
      · exact ⟨empty, rfl, by simp [next]⟩
      · simp at hrest
    | restart n =>
      rcases split_node ht h with ⟨rfl, rfl⟩ | ⟨front', rfl, hrest⟩
      · exact ⟨empty, rfl, by simp [next]⟩
      · obtain ⟨rfl, rfl⟩ := split_last hrest (by simp)
        exact ⟨node n, by simp [tokens], by simp [next]⟩
    | reg n r =>
      rw [tokens, ← List.append_nil (regTokens n r)] at h
      rcases split_reg ht h with (⟨rfl, rfl⟩ | ⟨rfl, rfl⟩) | ⟨front', -, hrest⟩
      · exact ⟨empty, rfl, by simp [next]⟩
      · exact ⟨node n, rfl, by simp [next]⟩
      · simp at hrest
    | get n r =>
      rcases split_reg ht h with (⟨rfl, rfl⟩ | ⟨rfl, rfl⟩) | ⟨front', rfl, hrest⟩
      · exact ⟨empty, rfl, by simp [next]⟩
      · exact ⟨node n, rfl, by simp [next]⟩
      · obtain ⟨rfl, rfl⟩ := split_last hrest (by simp)
        exact ⟨reg n r, by simp [tokens], by simp [next]⟩
    | set c n r v =>
      rcases split_reg ht h with (⟨rfl, rfl⟩ | ⟨rfl, rfl⟩) | ⟨front', rfl, hrest⟩
      · exact ⟨empty, rfl, by simp [next]⟩
      · exact ⟨node n, rfl, by simp [next]⟩
      · obtain ⟨rfl, rfl⟩ := split_last hrest fun _ => eq_nil_of_tokens ht
        exact ⟨reg n r, by simp [tokens], by cases c <;> simp [next]⟩
  · rintro ⟨line, rfl, hmem⟩
    let zero : NumExp := .number (.decimal ['0'])
    cases line with
    | empty =>
      obtain rfl : t = .T_NODE := by simpa [next] using hmem
      exact ⟨node zero, zero.tokens, by simp [tokens, nodeTokens]⟩
    | node n =>
      simp only [next, List.mem_cons, List.not_mem_nil, or_false] at hmem
      rcases hmem with rfl | rfl
      · exact ⟨reg n zero, zero.tokens, by simp [tokens, regTokens]⟩
      · exact ⟨restart n, [], by simp [tokens]⟩
    | reg n r =>
      cases t with
      | T_GET => exact ⟨get n r, [], by simp [tokens]⟩
      | T_SET c => exact ⟨set c n r zero, zero.tokens, by simp [tokens]⟩
      | _ => simp [next] at hmem
    | _ => simp [next] at hmem

end Split

section Offered

open CLIParser

/-- What is offered after a line are the words of the keywords that go on with it. -/
theorem mem_completion_list (line : CliLine) (name : String) :
    name ∈ line.parsed.completion_list.getD [] ↔ ∃ t ∈ line.next, (name.toList, t) ∈ keywords := by
  simp only [keywords_eq]
  cases line <;>
    simp [parsed, exp, Parsed.completion_list, AbstractExp.get_completion_list,
      CLIParser.completion_list, NodeExp.completion_list, NodeRegExp.completion_list, next,
      ← String.toList_inj]

/-- A text that is a line is accepted, if the parser returns. -/
theorem ret_eq_zero {str : List Char} {p : Parsed} (hp : parse str = some (.ok p)) (line : CliLine)
    (hline : scan_string str = line.input) : p.ret = 0 := by
  have hinput : scan_string str = line.regroup.input := by rw [hline, input, input, tokens_regroup]
  obtain ⟨front, made, -, -, hrun⟩ := run_line (declared_regroup line)
    (S := (Tree.semantics : Semantics _ _ _ _ Exn)) (eval_trees _) rfl
  rw [← hinput] at hrun
  rcases run_eval _ (LR.Config.evals_start semantics (scan_string str)) hrun with ⟨made', hrun', -⟩ |
    ⟨_, -, e, -, herror⟩
  · rw [parse, parseTokens, hrun'] at hp
    obtain rfl := Except.ok.inj (Option.some.inj hp)
    rfl
  · rw [parse, parseTokens, herror] at hp
    cases hp

theorem mem_offered {buffer text : List Char} {start : ℕ} {offered : List String}
    (h : cli_completion buffer text start = some (.ok offered)) :
    ∃ p, parse (buffer.take start) = some (.ok p) ∧ ∀ name,
      name ∈ offered ↔ name ∈ p.completion_list.getD [] ∧ text <+: name.toList := by
  unfold cli_completion at h
  rcases hparse : parse (buffer.take start) with _ | ⟨e | p⟩
  · rw [hparse] at h
    cases h
  · rw [hparse] at h
    cases h
  · rw [hparse] at h
    obtain rfl := Except.ok.inj (Option.some.inj h)
    refine ⟨p, rfl, fun name => ?_⟩
    rcases hlist : p.completion_list with _ | list
    · simp [hlist]
    · simp [hlist, matches_eq_filter]

/-- Where the parser returns on what stands before the text, the words offered are just those that begin
with the text and whose keyword comes next in some line that begins so. -/
theorem offered_iff {buffer text : List Char} {start : ℕ} {offered : List String}
    (h : cli_completion buffer text start = some (.ok offered)) (name : String) :
    name ∈ offered ↔ text <+: name.toList ∧ ∃ front t,
      scan_string (buffer.take start) = front ++ [.token .END none] ∧
        (name.toList, t) ∈ keywords ∧ Continues front t := by
  obtain ⟨p, hp, hmem⟩ := mem_offered h
  rw [hmem, and_comm]
  refine and_congr_right fun _ => ⟨fun hname => ?_, ?_⟩
  · have hret : p.ret = 0 := by
      by_contra hret
      rw [Parsed.completion_list, if_neg hret] at hname
      cases hname
    obtain ⟨line, -, hinput, -, rfl⟩ := exists_line_of_parse hp hret
    obtain ⟨t, hnext, hkey⟩ := (mem_completion_list line name).1 hname
    exact ⟨line.tokens, t, hinput, hkey, (continues_iff (isKeyword_of_mem hkey)).2 ⟨line, rfl, hnext⟩⟩
  · rintro ⟨front, t, hscan, hkey, hcontinues⟩
    obtain ⟨line, rfl, hnext⟩ := (continues_iff (isKeyword_of_mem hkey)).1 hcontinues
    obtain ⟨line', hdeclared, hinput, -, rfl⟩ :=
      exists_line_of_parse hp (ret_eq_zero hp line hscan)
    -- the parser groups the numbers as the precedences say
    have htokens : line'.tokens = line.regroup.tokens := by
      rw [tokens_regroup]
      exact List.append_cancel_right (hinput.symm.trans hscan)
    obtain rfl := eq_of_tokens hdeclared (declared_regroup line) htokens
    exact (mem_completion_list _ name).2 ⟨t, by rwa [next_regroup], hkey⟩

theorem offered_iff_re : "restart" ∈ ["reg", "restart"] ↔ "re".toList <+: "restart".toList ∧
    ∃ front t, scan_string ("node 5 re".toList.take 7) = front ++ [.token .END none] ∧
      ("restart".toList, t) ∈ keywords ∧ Continues front t :=
  @offered_iff "node 5 re".toList "re".toList 7 _ (by decide +kernel) _

end Offered

end CliLine

end H9
