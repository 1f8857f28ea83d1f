import H9.Expression
import H9.Lib.LR

/-!
# The command line of h9cli

`CLIParser::parse` (h9cli/cliparser.cc) runs the parser that bison makes of h9cli/parser.yy on what
the scanner that flex makes of h9cli/lexer.l finds in a line. The scanner takes the longest text that
a rule matches, the first rule of these. The parser is the LALR(1) automaton of the grammar with its
conflicts resolved by the precedences and with default reductions.
-/

namespace H9

open LR

/-! ### The scanner -/

/-- The commands with a number, `T_SETBIT` to `T_SET4`. -/
inductive SetCommand
  | setbit
  | clearbit
  | togglebit
  | set1
  | set2
  | set3
  | set4
deriving DecidableEq, Repr

/-- The operators, `PLUS`, `MINUS`, `STAR` and `SLASH`. -/
inductive BinOp
  | add
  | sub
  | mul
  | div
deriving DecidableEq, Repr

inductive Token
  | END
  | LF_SEMICOLON
  | T_NODE
  | T_RESTART
  | T_REG
  | T_SET (c : SetCommand)
  | T_GET
  | OP (o : BinOp)
  | LPAREN
  | RPAREN
  | ASSIGN
  | COLON
  | STRING
  | NUMBER
deriving DecidableEq, Repr

/-- The text of a number, by the rule that matches it. -/
inductive Literal
  | decimal (yytext : List Char)
  | binary (yytext : List Char)
  | hex (yytext : List Char)
deriving DecidableEq, Repr

/-- The rules of h9cli/lexer.l. -/
inductive LexRule
  | comment
  | blank
  | semicolon
  | word (text : List Char) (t : Token)
  | decimal
  | binary
  | hex
  | string
  | other

namespace LexRule

def isBlank (c : Char) : Bool := c = ' ' || c = '\t' || c = '\n'

def isBit (c : Char) : Bool := c = '0' || c = '1'

def isHex (c : Char) : Bool := (CText.hexDigit c).isSome

/-- How much of the text the rule matches at most; 0 where it does not match. -/
def matched : LexRule → List Char → ℕ
  | _, [] => 0
  | comment, c :: cs => if c = '#' then 1 + (cs.takeWhile (· ≠ '\n')).length else 0
  | blank, c :: _ => if isBlank c then 1 else 0
  | semicolon, c :: _ => if c = ';' ∨ c = '\n' then 1 else 0
  | word text _, cs => if text.isPrefixOf cs then text.length else 0
  | decimal, cs => (cs.takeWhile Char.isDigit).length
  | binary, c :: cs =>
    let n := min 32 (cs.takeWhile isBit).length
    if c = 'b' ∧ n ≠ 0 then 1 + n else 0
  | hex, c :: cs =>
    let n := min 8 (cs.tail.takeWhile isHex).length
    if c = '0' ∧ (cs.head? = some 'x' ∨ cs.head? = some 'X') ∧ n ≠ 0 then 2 + n else 0
  | string, c :: cs =>
    let n := (cs.takeWhile fun c => c ≠ '\n' ∧ c ≠ '"').length
    if c = '"' ∧ n ≠ 0 ∧ (cs.drop n).head? = some '"' then 2 + n else 0
  | other, c :: cs => max (if c = '\n' then 0 else 1) ((c :: cs).takeWhile fun c => !isBlank c).length

/-- The rules in their order. -/
def all : List LexRule :=
  [comment, blank, semicolon, word ['-'] (.OP .sub), word ['+'] (.OP .add), word ['*'] (.OP .mul),
    word ['/'] (.OP .div), word ['('] .LPAREN, word [')'] .RPAREN, word ['='] .ASSIGN,
    word [':'] .COLON, word "node".toList .T_NODE, word "restart".toList .T_RESTART,
    word "reg".toList .T_REG, word "setbit".toList (.T_SET .setbit),
    word "clearbit".toList (.T_SET .clearbit), word "togglebit".toList (.T_SET .togglebit),
    word "set1".toList (.T_SET .set1), word "set2".toList (.T_SET .set2),
    word "set3".toList (.T_SET .set3), word "set4".toList (.T_SET .set4), word "get".toList .T_GET,
    decimal, binary, hex, string, other]

/-- The first of the rules that match the longest text, and its length. -/
def longest (cs : List Char) : LexRule × ℕ :=
  all.foldl (fun best r => if best.2 < r.matched cs then (r, r.matched cs) else best) (other, 0)

end LexRule

/-- What `yylex` finds from call to call, in at most `n` calls, and the end of the text. A text that is
no token is where the parser ends. -/
def yylex : ℕ → List Char → List (Lexeme Token (Option Literal))
  | 0, _ => []
  | _ + 1, [] => [.token .END none]
  | n + 1, c :: cs =>
    let (rule, len) := LexRule.longest (c :: cs)
    let yytext := (c :: cs).take len
    let rest := (c :: cs).drop len
    match rule with
    | .comment => yylex n rest
    | .blank => yylex n rest
    | .semicolon => .token .LF_SEMICOLON none :: yylex n rest
    | .word _ t => .token t none :: yylex n rest
    | .decimal => .token .NUMBER (some (.decimal yytext)) :: yylex n rest
    | .binary => .token .NUMBER (some (.binary yytext)) :: yylex n rest
    | .hex => .token .NUMBER (some (.hex yytext)) :: yylex n rest
    | .string => .token .STRING none :: yylex n rest
    | .other => [.invalid]

/-- `std::stoul`, with an `unsigned long` of 64 bits. -/
def stoul (base : ℕ) (cs : List Char) : Except CText.StoiError ℤ :=
  if (CText.scan base cs).2 = [] then .error .invalid_argument
  else if 2 ^ 64 ≤ CText.number base (CText.scan base cs).2 then .error .out_of_range
  else .ok (CText.value base cs % 2 ^ 64)

/-- The number of a rule: its action, whose `int` has 32 bits. -/
def Literal.convert : Literal → Except Exn ℤ
  | decimal yytext => exn "stoi" (CText.stoi 10 yytext)
  | binary yytext => (exn "stoul" (stoul 2 yytext.tail)).map fun n => n.bmod (2 ^ 32)
  | hex yytext => (exn "stoul" (stoul 16 yytext)).map fun n => n.bmod (2 ^ 32)
where
  exn (what : String) : Except CText.StoiError ℤ → Except Exn ℤ
    | .ok n => .ok n
    | .error .invalid_argument => .error (.invalid_argument what)
    | .error .out_of_range => .error (.out_of_range what)

/-! ### The grammar -/

inductive Nonterminal
  | unit
  | node_exp
  | node_command
  | node_reg_exp
  | node_reg_command
  | num_exp
deriving DecidableEq, Repr

/-- The rules of h9cli/parser.yy. -/
inductive Rule
  | unit_empty
  | unit_node_exp
  | unit_node_command
  | unit_node_reg_exp
  | unit_node_reg_command
  | node_exp
  | node_command
  | node_reg_exp
  | get
  | set (c : SetCommand)
  | number
  | binary (o : BinOp)
  | paren
  | minus
deriving DecidableEq, Repr

namespace Rule

def lhs : Rule → Nonterminal
  | unit_empty => .unit
  | unit_node_exp => .unit
  | unit_node_command => .unit
  | unit_node_reg_exp => .unit
  | unit_node_reg_command => .unit
  | node_exp => .node_exp
  | node_command => .node_command
  | node_reg_exp => .node_reg_exp
  | get => .node_reg_command
  | set _ => .node_reg_command
  | number => .num_exp
  | binary _ => .num_exp
  | paren => .num_exp
  | minus => .num_exp

def rhs : Rule → List (Token ⊕ Nonterminal)
  | unit_empty => []
  | unit_node_exp => [.inr .node_exp]
  | unit_node_command => [.inr .node_command]
  | unit_node_reg_exp => [.inr .node_reg_exp]
  | unit_node_reg_command => [.inr .node_reg_command]
  | node_exp => [.inl .T_NODE, .inr .num_exp]
  | node_command => [.inr .node_exp, .inl .T_RESTART]
  | node_reg_exp => [.inr .node_exp, .inl .T_REG, .inr .num_exp]
  | get => [.inr .node_reg_exp, .inl .T_GET]
  | set c => [.inr .node_reg_exp, .inl (.T_SET c), .inr .num_exp]
  | number => [.inl .NUMBER]
  | binary o => [.inr .num_exp, .inl (.OP o), .inr .num_exp]
  | paren => [.inl .LPAREN, .inr .num_exp, .inl .RPAREN]
  | minus => [.inl (.OP .sub), .inr .num_exp]

end Rule

/-- The precedence of an operator, `%left "+" "-"` before `%left "*" "/"`. -/
def BinOp.level : BinOp → ℕ
  | add => 0
  | sub => 0
  | mul => 1
  | div => 1

/-! ### The automaton -/

/-- What stands before a `num_exp`. -/
inductive Context
  | node
  | reg
  | set (c : SetCommand)
  | lparen
  | minus
  | op (o : BinOp)
deriving DecidableEq, Repr

/-- The states of the automaton, by what was read last. -/
inductive State
  | start
  /-- Before a `num_exp`. -/
  | before (x : Context)
  /-- After it, where it may go on. -/
  | after (x : Context)
  | number
  | rparen
  | node_exp
  | restart
  | node_command
  | node_reg_exp
  | get
  | node_reg_command
  | unit
  | final
deriving DecidableEq, Repr

/-- The precedence of the rule that a `num_exp` in this place would end. That of `"-" num_exp` is the
one of its token. -/
def Context.level : Context → Option ℕ
  | .op o => some o.level
  | .minus => some BinOp.sub.level
  | _ => none

/-- The rule that is reduced after a `num_exp` in this place, if it can end there. -/
def Context.rule : Context → Option Rule
  | .node => some .node_exp
  | .reg => some .node_reg_exp
  | .set c => some (.set c)
  | .lparen => none
  | .minus => some .minus
  | .op o => some (.binary o)

/-- A default reduction. -/
def Context.reduce (x : Context) : Action State Rule :=
  match x.rule with
  | some r => .reduce r
  | none => .error

/-- The conflict of a shift and a reduction: an operator is shifted that binds tighter than the rule
and reduced before otherwise, all of them being left-associative. -/
def Context.conflict (x : Context) (o : BinOp) : Action State Rule :=
  match x.level with
  | some l => if l < o.level then .shift (.before (.op o)) else x.reduce
  | none => .shift (.before (.op o))

/-- The states with nothing but one reduction, after the conflicts are resolved. -/
def State.reduction : State → Option Rule
  | .after (.op .mul) => some (.binary .mul)
  | .after (.op .div) => some (.binary .div)
  | .number => some .number
  | .rparen => some .paren
  | .restart => some .node_command
  | .node_command => some .unit_node_command
  | .get => some .get
  | .node_reg_command => some .unit_node_reg_command
  | _ => none

def State.action : State → Token → Action State Rule
  | .start, .T_NODE => .shift (.before .node)
  | .start, _ => .reduce .unit_empty
  | .before _, .NUMBER => .shift .number
  | .before _, .LPAREN => .shift (.before .lparen)
  | .before _, .OP .sub => .shift (.before .minus)
  | .after x, .OP o => x.conflict o
  | .after .lparen, .RPAREN => .shift .rparen
  | .after x, _ => x.reduce
  | .node_exp, .T_RESTART => .shift .restart
  | .node_exp, .T_REG => .shift (.before .reg)
  | .node_exp, _ => .reduce .unit_node_exp
  | .node_reg_exp, .T_GET => .shift .get
  | .node_reg_exp, .T_SET c => .shift (.before (.set c))
  | .node_reg_exp, _ => .reduce .unit_node_reg_exp
  | .unit, .END => .shift .final
  | _, _ => .error

def State.goto : State → Nonterminal → Option State
  | .before x, .num_exp => some (.after x)
  | .start, .unit => some .unit
  | .start, .node_exp => some .node_exp
  | .start, .node_command => some .node_command
  | .start, .node_reg_exp => some .node_reg_exp
  | .start, .node_reg_command => some .node_reg_command
  | _, _ => none

namespace CLIParser

/-- The parser that bison makes of the grammar. -/
def tables : Tables State Token Nonterminal Rule where
  lhs := Rule.lhs
  rhs := Rule.rhs
  start := .start
  final := .final
  reduction := State.reduction
  action := State.action
  goto := State.goto

end CLIParser

/-! ### The actions -/

inductive AbstractExp
  | node_exp (e : NodeExp)
  | node_reg_exp (e : NodeRegExp)
  | NodeRestart (node : NodeExp)
  | NodeGetReg (reg : NodeRegExp)
  | NodeSetReg (c : SetCommand) (reg : NodeRegExp) (value : ℤ)
deriving DecidableEq, Repr

/-- The value of a symbol. -/
inductive SymbolValue
  | none
  | number (n : ℤ)
  | exp (e : AbstractExp)
deriving DecidableEq, Repr

/-- A result of arithmetic, which C++ leaves undefined where no `int` is that number. -/
def checkedInt (n : ℤ) : Except Exn ℤ :=
  if -2 ^ 31 ≤ n ∧ n < 2 ^ 31 then .ok n else .error .undefined

def BinOp.apply : BinOp → ℤ → ℤ → Except Exn ℤ
  | add, a, b => checkedInt (a + b)
  | sub, a, b => checkedInt (a - b)
  | mul, a, b => checkedInt (a * b)
  | div, a, b => if b = 0 then .error .undefined else checkedInt (a.tdiv b)

namespace CLIParser

def token : Token → Option Literal → Except Exn SymbolValue
  | .NUMBER, some l => l.convert.map .number
  | _, _ => .ok .none

/-- The action of a rule. There are no other values than those of its symbols. -/
def act : Rule → List SymbolValue → Except Exn SymbolValue
  | .unit_empty, [] => .ok .none
  | .unit_node_exp, [e] => .ok e
  | .unit_node_command, [e] => .ok e
  | .unit_node_reg_exp, [e] => .ok e
  | .unit_node_reg_command, [e] => .ok e
  | .node_exp, [_, .number n] => .ok (.exp (.node_exp ⟨n⟩))
  | .node_command, [.exp (.node_exp e), _] => .ok (.exp (.NodeRestart e))
  | .node_reg_exp, [.exp (.node_exp e), _, .number n] => .ok (.exp (.node_reg_exp ⟨e, n⟩))
  | .get, [.exp (.node_reg_exp e), _] => .ok (.exp (.NodeGetReg e))
  | .set c, [.exp (.node_reg_exp e), _, .number n] => .ok (.exp (.NodeSetReg c e n))
  | .number, [n] => .ok n
  | .binary o, [.number a, _, .number b] => (o.apply a b).map .number
  | .paren, [_, n, _] => .ok n
  | .minus, [_, .number a] => (checkedInt (-a)).map .number
  | _, _ => .error .undefined

def semantics : Semantics Token (Option Literal) Rule SymbolValue Exn where
  token := token
  act := act

/-- The number that `parse` returns, and what it leaves in the object. -/
structure Parsed where
  ret : ℕ
  result : Option AbstractExp
  last_match : Option AbstractExp
deriving DecidableEq, Repr

/-- What the rules of `unit` assigned last. -/
def result (made : List (Made Rule SymbolValue)) : Option AbstractExp :=
  made.findSome? fun
    | .reduced r (.exp e) => if r.lhs = .unit then some e else none
    | _ => none

/-- What the other rules assigned last. -/
def last_match (made : List (Made Rule SymbolValue)) : Option AbstractExp :=
  made.findSome? fun
    | .reduced r (.exp e) => if r.lhs = .unit then none else some e
    | _ => none

/-- More steps than a run on these tokens takes. -/
def steps (input : List (Lexeme Token (Option Literal))) : ℕ := 4 * (2 * input.length + 1) + 3

/-- `yy::parser::operator()` on tokens. -/
def parseTokens (input : List (Lexeme Token (Option Literal))) : Option (Except Exn Parsed) :=
  (LR.run tables semantics (steps input) (LR.Config.start input)).map fun out => out.map fun r =>
    ⟨if r.1 then 0 else 1, result r.2, last_match r.2⟩

/-- The tokens of a C string. -/
def scan_string (str : List Char) : List (Lexeme Token (Option Literal)) :=
  let str := str.takeWhile (· ≠ '\x00')
  yylex (str.length + 1) str

/-- `CLIParser::parse`. -/
def parse (str : List Char) : Option (Except Exn Parsed) := parseTokens (scan_string str)

end CLIParser

/-! ### What an expression says -/

/-- The number of a literal that is as long as it may be. -/
def Literal.value : Literal → ℤ
  | decimal yytext => CText.value 10 yytext
  | binary yytext => (CText.value 2 yytext.tail).bmod (2 ^ 32)
  | hex yytext => (CText.value 16 yytext).bmod (2 ^ 32)

/-- An `int` holds the number. -/
def Literal.Fits : Literal → Prop
  | decimal yytext => CText.value 10 yytext < 2 ^ 31
  | _ => True

instance : ∀ l : Literal, Decidable l.Fits
  | .decimal _ => inferInstanceAs (Decidable (_ < _))
  | .binary _ => .isTrue trivial
  | .hex _ => .isTrue trivial

/-- A derivation of `num_exp`. -/
inductive NumExp
  | number (l : Literal)
  | binary (o : BinOp) (l r : NumExp)
  | paren (e : NumExp)
  | minus (e : NumExp)
deriving DecidableEq, Repr

/-- The number of an operation, of whatever size; division truncates. -/
def BinOp.value : BinOp → ℤ → ℤ → ℤ
  | add, a, b => a + b
  | sub, a, b => a - b
  | mul, a, b => a * b
  | div, a, b => a.tdiv b

namespace NumExp

def tree : NumExp → Tree Token (Option Literal) Rule
  | number l => .node .number [.leaf .NUMBER (some l)]
  | binary o l r => .node (.binary o) [l.tree, .leaf (.OP o) none, r.tree]
  | paren e => .node .paren [.leaf .LPAREN none, e.tree, .leaf .RPAREN none]
  | minus e => .node .minus [.leaf (.OP .sub) none, e.tree]

def tokens : NumExp → List (Lexeme Token (Option Literal))
  | number l => [.token .NUMBER (some l)]
  | binary o l r => l.tokens ++ .token (.OP o) none :: r.tokens
  | paren e => .token .LPAREN none :: (e.tokens ++ [.token .RPAREN none])
  | minus e => .token (.OP .sub) none :: e.tokens

def value : NumExp → ℤ
  | number l => l.value
  | binary o l r => o.value l.value r.value
  | paren e => e.value
  | minus e => -e.value

/-- The literals and the results are in the range of `int`, and nothing is divided by zero. -/
def Safe : NumExp → Prop
  | number l => l.Fits
  | binary o l r => (l.Safe ∧ r.Safe) ∧ (o = .div → r.value ≠ 0) ∧
    (-2 ^ 31 ≤ o.value l.value r.value ∧ o.value l.value r.value < 2 ^ 31)
  | paren e => e.Safe
  | minus e => e.Safe ∧ (-2 ^ 31 ≤ -e.value ∧ -e.value < 2 ^ 31)

instance decidableSafe : ∀ e : NumExp, Decidable e.Safe
  | number l => inferInstanceAs (Decidable l.Fits)
  | binary _ l r =>
    have := decidableSafe l
    have := decidableSafe r
    inferInstanceAs (Decidable ((_ ∧ _) ∧ (_ → _) ∧ _ ∧ _))
  | paren e => decidableSafe e
  | minus e =>
    have := decidableSafe e
    inferInstanceAs (Decidable (_ ∧ _ ∧ _))

end NumExp

namespace CLIParser

/-- The derivations of what the parser reads and reduces, where none of its actions fails. -/
def derivations (input : List (Lexeme Token (Option Literal))) :
    List (Tree Token (Option Literal) Rule) :=
  match LR.run tables (Tree.semantics : Semantics _ _ _ _ Exn) (steps input) (LR.Config.start input) with
  | some (.ok r) => r.2.map Made.value
  | _ => []

/-- The scanner is asked for the number. -/
def Reads (input : List (Lexeme Token (Option Literal))) (l : Literal) : Prop :=
  .leaf .NUMBER (some l) ∈ derivations input

/-- The parser evaluates the expression. -/
def Evaluates (input : List (Lexeme Token (Option Literal))) (e : NumExp) : Prop :=
  e.tree ∈ derivations input

end CLIParser

end H9
