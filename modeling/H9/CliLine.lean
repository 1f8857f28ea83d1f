import H9.CliParser

/-!
# Lines of h9cli

On the tab key h9cli (h9cli/h9cli.cc) parses what stands before the word under the cursor, and offers
the words of a list that begin like it. The list is the one of what was matched last.

`CliLine` says what lines there are.
-/

namespace H9

open LR

/-! ### Completion -/

def NodeExp.completion_list : List String := ["reg", "restart"]

def NodeRegExp.completion_list : List String :=
  ["get", "setbit", "clearbit", "togglebit", "set1", "set2", "set3", "set4"]

def CLIParser.completion_list : List String := ["node"]

/-- A command has no list. -/
def AbstractExp.get_completion_list : AbstractExp → Option (List String)
  | node_exp _ => some NodeExp.completion_list
  | node_reg_exp _ => some NodeRegExp.completion_list
  | NodeRestart _ => none
  | NodeGetReg _ => none
  | NodeSetReg _ _ _ => none

/-- `cli_completion_generator`, from `list_index` on: a name, and where the next call goes on. -/
def cli_completion_generator (text : List Char) : List String → Option (String × List String)
  | [] => none
  | name :: rest =>
    if text.isPrefixOf name.toList then some (name, rest) else cli_completion_generator text rest

theorem length_of_generator {text : List Char} {name : String} {rest : List String} :
    ∀ {list : List String}, cli_completion_generator text list = some (name, rest) →
      rest.length < list.length
  | [], h => by cases h
  | name' :: list, h => by
    rw [cli_completion_generator] at h
    split_ifs at h
    · obtain ⟨-, rfl⟩ := Prod.mk.inj (Option.some.inj h)
      exact Nat.lt_succ_self _
    · exact (length_of_generator h).trans (Nat.lt_succ_self _)

/-- `rl_completion_matches`: the names of all calls. -/
def rl_completion_matches (text : List Char) (list : List String) : List String :=
  match h : cli_completion_generator text list with
  | some (name, rest) =>
    have := length_of_generator h
    name :: rl_completion_matches text rest
  | none => []
termination_by list.length

/-- What `cli_completion` assigns to `completion_list`. -/
def CLIParser.Parsed.completion_list (p : CLIParser.Parsed) : Option (List String) :=
  if p.ret = 0 then
    match p.last_match with
    | some e => e.get_completion_list
    | none => some CLIParser.completion_list
  else none

/-- `cli_completion`: what is offered for the text that starts there. -/
def cli_completion (rl_line_buffer text : List Char) (start : ℕ) :
    Option (Except Exn (List String)) :=
  (CLIParser.parse (rl_line_buffer.take start)).map fun parsed => parsed.map fun p =>
    match p.completion_list with
    | some list => rl_completion_matches text list
    | none => []

/-! ### What lines there are -/

/-- A derivation of `unit`. -/
inductive CliLine
  | empty
  | node (n : NumExp)
  | restart (n : NumExp)
  | reg (n r : NumExp)
  | get (n r : NumExp)
  | set (c : SetCommand) (n r v : NumExp)
deriving DecidableEq, Repr

namespace CliLine

def numbers : CliLine → List NumExp
  | empty => []
  | node n => [n]
  | restart n => [n]
  | reg n r => [n, r]
  | get n r => [n, r]
  | set _ n r v => [n, r, v]

def nodeTokens (n : NumExp) : List (Lexeme Token (Option Literal)) := .token .T_NODE none :: n.tokens

def regTokens (n r : NumExp) : List (Lexeme Token (Option Literal)) :=
  nodeTokens n ++ .token .T_REG none :: r.tokens

def tokens : CliLine → List (Lexeme Token (Option Literal))
  | empty => []
  | node n => nodeTokens n
  | restart n => nodeTokens n ++ [.token .T_RESTART none]
  | reg n r => regTokens n r
  | get n r => regTokens n r ++ [.token .T_GET none]
  | set c n r v => regTokens n r ++ .token (.T_SET c) none :: v.tokens

/-- What the line says. -/
def exp : CliLine → Option AbstractExp
  | empty => none
  | node n => some (.node_exp ⟨n.value⟩)
  | restart n => some (.NodeRestart ⟨n.value⟩)
  | reg n r => some (.node_reg_exp ⟨⟨n.value⟩, r.value⟩)
  | get n r => some (.NodeGetReg ⟨⟨n.value⟩, r.value⟩)
  | set c n r v => some (.NodeSetReg c ⟨⟨n.value⟩, r.value⟩ v.value)

/-- All its numbers are those of `int`s, and nothing is divided by zero. -/
def Safe (line : CliLine) : Prop := ∀ e ∈ line.numbers, e.Safe

instance (line : CliLine) : Decidable line.Safe := List.decidableBAll _ _

end CliLine

end H9
