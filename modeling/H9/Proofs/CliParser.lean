import H9.Proofs.CliStates

/-!
# Failures of the command line

The parser of h9cli ends on every line, but not always by returning. The scanner converts a number in
its action, and `std::stoi` throws when an `int` does not hold the number. What an expression makes of
the numbers is no `int` either, or a division by zero.
-/

namespace H9

open LR

/-! ### The numbers of literals -/

/-- The text is one that the rule of the literal matches. -/
def Literal.Lexed : Literal → Prop
  | decimal yytext => yytext ≠ [] ∧ ∀ c ∈ yytext, c.isDigit = true
  | binary yytext => ∃ bits, yytext = 'b' :: bits ∧ bits ≠ [] ∧ bits.length ≤ 32 ∧
    ∀ c ∈ bits, LexRule.isBit c = true
  | hex yytext => ∃ x ds, yytext = '0' :: x :: ds ∧ (x = 'x' ∨ x = 'X') ∧ ds ≠ [] ∧ ds.length ≤ 8 ∧
    ∀ c ∈ ds, LexRule.isHex c = true

theorem stoul_eq {base : ℕ} {cs : List Char} {ds : List ℕ} (hscan : CText.scan base cs = (false, ds))
    (hne : ds ≠ []) (hlt : CText.number base ds < 2 ^ 64) :
    stoul base cs = .ok (CText.value base cs) := by
  have hvalue : CText.value base cs = CText.number base ds := by
    simp only [CText.value, hscan, Bool.false_eq_true, if_false]
  rw [stoul, hscan, if_neg hne, if_neg (Nat.not_le.2 hlt), hvalue]
  exact congrArg _ (Int.emod_eq_of_lt (by omega) (by omega))

theorem convert_decimal {yytext : List Char} (hne : yytext ≠ [])
    (h : ∀ c ∈ yytext, c.isDigit = true) :
    (Literal.decimal yytext).convert =
      if (Literal.decimal yytext).Fits then .ok (Literal.decimal yytext).value
      else .error (.out_of_range "stoi") := by
  have hvalue : CText.value 10 yytext = (Nat.ofDigitChars 10 yytext 0 : ℤ) := by
    simp only [CText.value, CText.scan_of_isDigit hne h, CText.number_digits h, Bool.false_eq_true,
      if_false]
  simp only [Literal.convert, Literal.Fits, Literal.value, CText.stoi_of_isDigit hne h, hvalue]
  by_cases hlt : Nat.ofDigitChars 10 yytext 0 < 2 ^ 31
  · rw [if_pos hlt, if_pos (by omega)]
    rfl
  · rw [if_neg hlt, if_neg (by omega)]
    rfl

theorem convert_binary {bits : List Char} (hne : bits ≠ []) (hlen : bits.length ≤ 32)
    (h : ∀ c ∈ bits, LexRule.isBit c = true) :
    (Literal.binary ('b' :: bits)).convert = .ok (Literal.binary ('b' :: bits)).value := by
  have hval : ∀ c ∈ bits, ∃ d, CText.digitVal c = some d ∧ d < 2 := by
    intro c hc
    have hbit := h c hc
    simp only [LexRule.isBit, Bool.or_eq_true, decide_eq_true_eq] at hbit
    rcases hbit with rfl | rfl
    · exact ⟨0, rfl, by decide⟩
    · exact ⟨1, rfl, by decide⟩
  have hscan : CText.scan 2 bits = (false, CText.digits 2 bits) := by
    obtain ⟨c, bits, rfl⟩ := List.exists_cons_of_ne_nil hne
    obtain ⟨d, hd, -⟩ := hval c List.mem_cons_self
    rw [CText.scan_of_digitVal (by simp [hd]), CText.dropHexPrefix_of_ne (by decide)]
  have hlt := CText.number_digits_lt (by decide : 0 < 2) bits
  have hpow : 2 ^ bits.length ≤ 2 ^ 32 := Nat.pow_le_pow_right (by decide) hlen
  rw [Literal.convert, List.tail_cons,
    stoul_eq hscan (CText.digits_ne_nil hval hne) (by omega)]
  rfl

theorem convert_hex {x : Char} {ds : List Char} (hx : x = 'x' ∨ x = 'X') (hne : ds ≠ [])
    (hlen : ds.length ≤ 8) (h : ∀ c ∈ ds, LexRule.isHex c = true) :
    (Literal.hex ('0' :: x :: ds)).convert = .ok (Literal.hex ('0' :: x :: ds)).value := by
  have hval : ∀ c ∈ ds, ∃ d, CText.digitVal c = some d ∧ d < 16 := by
    intro c hc
    obtain ⟨d, hd⟩ := Option.isSome_iff_exists.1 (h c hc)
    exact ⟨d, CText.hexDigit_eq_some.1 hd⟩
  have hscan := CText.scan_hexPrefix hx (CText.digits_ne_nil hval hne)
  have hlt := CText.number_digits_lt (by decide : 0 < 16) ds
  have hpow : 16 ^ ds.length ≤ 16 ^ 8 := Nat.pow_le_pow_right (by decide) hlen
  rw [Literal.convert, stoul_eq hscan (CText.digits_ne_nil hval hne) (by omega)]
  rfl

/-- A number fails to be one only where it is too large for `std::stoi`. -/
theorem convert_eq {l : Literal} (h : l.Lexed) :
    l.convert = if l.Fits then .ok l.value else .error (.out_of_range "stoi") := by
  cases l with
  | decimal yytext => exact convert_decimal h.1 h.2
  | binary yytext =>
    obtain ⟨bits, rfl, hne, hlen, hbits⟩ := h
    exact (convert_binary hne hlen hbits).trans (if_pos trivial).symm
  | hex yytext =>
    obtain ⟨x, ds, rfl, hx, hne, hlen, hds⟩ := h
    exact (convert_hex hx hne hlen hds).trans (if_pos trivial).symm

/-! ### The tokens of the scanner -/

/-- Numbers have the text of a literal, and no other tokens have one. -/
def Lexed : Lexeme Token (Option Literal) → Prop
  | .token .NUMBER x => ∃ l : Literal, x = some l ∧ l.Lexed
  | .token _ x => x = none
  | .invalid => True

namespace LexRule

/-- A rule that is chosen matches as much as is taken. -/
theorem longest_eq (cs : List Char) :
    longest cs = (other, 0) ∨ 0 < (longest cs).2 ∧ (longest cs).2 = (longest cs).1.matched cs := by
  refine List.foldlRecOn
    (motive := fun best => best = (other, 0) ∨ 0 < best.2 ∧ best.2 = best.1.matched cs)
    all _ (.inl rfl) fun best h r _ => ?_
  split_ifs with hlt
  · exact .inr ⟨Nat.zero_lt_of_lt hlt, rfl⟩
  · exact h

theorem matched_of_longest {cs : List Char} {r : LexRule} {n : ℕ} (h : longest cs = (r, n))
    (hr : r ≠ other) : 0 < n ∧ n = r.matched cs := by
  rcases longest_eq cs with hother | hmatched
  · rw [h] at hother
    exact absurd (congrArg Prod.fst hother) hr
  · rw [h] at hmatched
    exact hmatched

theorem take_length_takeWhile (p : Char → Bool) (cs : List Char) :
    cs.take (cs.takeWhile p).length = cs.takeWhile p :=
  (List.prefix_iff_eq_take.1 (List.takeWhile_prefix p)).symm

theorem mem_take_takeWhile {p : Char → Bool} {cs : List Char} {k : ℕ} {c : Char}
    (hc : c ∈ cs.take (min k (cs.takeWhile p).length)) : p c = true := by
  rw [← List.take_take, take_length_takeWhile] at hc
  exact List.mem_takeWhile_imp (List.mem_of_mem_take hc)

theorem lexed_decimal {cs : List Char} {n : ℕ} (hn : 0 < n) (h : n = decimal.matched cs) :
    (Literal.decimal (cs.take n)).Lexed := by
  have hmatched : decimal.matched cs = (cs.takeWhile Char.isDigit).length := by
    cases cs <;> rfl
  rw [h, hmatched, take_length_takeWhile]
  refine ⟨?_, fun c hc => List.mem_takeWhile_imp hc⟩
  rw [← List.length_pos_iff_ne_nil]
  omega

theorem lexed_binary {cs : List Char} {n : ℕ} (hn : 0 < n) (h : n = binary.matched cs) :
    (Literal.binary (cs.take n)).Lexed := by
  rcases cs with _ | ⟨c, cs⟩
  · exact absurd h hn.ne'
  · simp only [matched] at h
    split_ifs at h with hc
    · obtain ⟨rfl, hne⟩ := hc
      rw [h, add_comm, List.take_succ_cons]
      refine ⟨_, rfl, ?_, ?_, fun c hc => mem_take_takeWhile hc⟩
      · have hlen := (List.takeWhile_prefix (l := cs) isBit).length_le
        rw [← List.length_pos_iff_ne_nil, List.length_take]
        omega
      · rw [List.length_take]
        omega
    · exact absurd h hn.ne'

theorem lexed_hex {cs : List Char} {n : ℕ} (hn : 0 < n) (h : n = hex.matched cs) :
    (Literal.hex (cs.take n)).Lexed := by
  rcases cs with _ | ⟨c, cs⟩
  · exact absurd h hn.ne'
  · simp only [matched] at h
    split_ifs at h with hc
    · obtain ⟨rfl, hx, hne⟩ := hc
      rcases cs with _ | ⟨x, cs⟩
      · simp at hx
      · rw [h, add_comm, List.take_succ_cons, List.take_succ_cons]
        refine ⟨x, _, rfl, by simpa using hx, ?_, ?_, fun c hc => mem_take_takeWhile hc⟩
        · have hlen := (List.takeWhile_prefix (l := cs) isHex).length_le
          simp only [List.tail_cons] at hne ⊢
          rw [← List.length_pos_iff_ne_nil, List.length_take]
          omega
        · simp only [List.tail_cons, List.length_take]
          omega
    · exact absurd h hn.ne'

/-- The tokens of the words are not numbers. -/
theorem word_ne_number {text : List Char} {t : Token} (h : word text t ∈ all) : t ≠ .NUMBER := by
  simp only [all, List.mem_cons, List.not_mem_nil, or_false, reduceCtorEq, false_or,
    word.injEq] at h
  rintro rfl
  simp at h

theorem longest_mem (cs : List Char) : (longest cs).1 ∈ all := by
  refine List.foldlRecOn (motive := fun best : LexRule × ℕ => best.1 ∈ all) all _ (by simp [all])
    fun best h r hr => ?_
  split_ifs
  · exact hr
  · exact h

end LexRule

theorem lexed_of_ne_number {t : Token} (h : t ≠ .NUMBER) : Lexed (.token t none) := by
  cases t <;> first | rfl | exact absurd rfl h

/-- The numbers that the scanner finds are those of its rules. -/
theorem yylex_lexed : ∀ (n : ℕ) (cs : List Char), ∀ x ∈ yylex n cs, Lexed x
  | 0, _, _, hx => by cases hx
  | _ + 1, [], x, hx => by
    obtain rfl := List.mem_singleton.1 hx
    exact lexed_of_ne_number (by simp)
  | n + 1, c :: cs, x, hx => by
    rw [yylex] at hx
    have hmem := LexRule.longest_mem (c :: cs)
    rcases hlongest : LexRule.longest (c :: cs) with ⟨rule, len⟩
    rw [hlongest] at hx hmem
    have ih := yylex_lexed n ((c :: cs).drop len)
    cases rule with
    | comment => exact ih x hx
    | blank => exact ih x hx
    | semicolon =>
      rcases List.mem_cons.1 hx with rfl | hx
      · exact lexed_of_ne_number (by simp)
      · exact ih x hx
    | word text t =>
      rcases List.mem_cons.1 hx with rfl | hx
      · exact lexed_of_ne_number (LexRule.word_ne_number hmem)
      · exact ih x hx
    | decimal =>
      rcases List.mem_cons.1 hx with rfl | hx
      · obtain ⟨hpos, hlen⟩ := LexRule.matched_of_longest hlongest (by simp)
        exact ⟨_, rfl, LexRule.lexed_decimal hpos hlen⟩
      · exact ih x hx
    | binary =>
      rcases List.mem_cons.1 hx with rfl | hx
      · obtain ⟨hpos, hlen⟩ := LexRule.matched_of_longest hlongest (by simp)
        exact ⟨_, rfl, LexRule.lexed_binary hpos hlen⟩
      · exact ih x hx
    | hex =>
      rcases List.mem_cons.1 hx with rfl | hx
      · obtain ⟨hpos, hlen⟩ := LexRule.matched_of_longest hlongest (by simp)
        exact ⟨_, rfl, LexRule.lexed_hex hpos hlen⟩
      · exact ih x hx
    | string =>
      rcases List.mem_cons.1 hx with rfl | hx
      · exact lexed_of_ne_number (by simp)
      · exact ih x hx
    | other =>
      obtain rfl := List.mem_singleton.1 hx
      exact trivial

/-! ### The values of expressions -/

theorem checkedInt_eq_ok {n m : ℤ} :
    checkedInt n = .ok m ↔ (-2 ^ 31 ≤ n ∧ n < 2 ^ 31) ∧ m = n := by
  unfold checkedInt
  split_ifs with h
  · exact ⟨fun heq => ⟨h, (Except.ok.inj heq).symm⟩, fun heq => congrArg _ heq.2.symm⟩
  · exact ⟨fun heq => (by cases heq), fun heq => absurd heq.1 h⟩

theorem BinOp.apply_eq_ok {o : BinOp} {a b n : ℤ} : o.apply a b = .ok n ↔
    ((o = .div → b ≠ 0) ∧ -2 ^ 31 ≤ o.value a b ∧ o.value a b < 2 ^ 31) ∧ n = o.value a b := by
  cases o with
  | add => simp [BinOp.apply, BinOp.value, checkedInt_eq_ok]
  | sub => simp [BinOp.apply, BinOp.value, checkedInt_eq_ok]
  | mul => simp [BinOp.apply, BinOp.value, checkedInt_eq_ok]
  | div =>
    by_cases hb : b = 0
    · simp [BinOp.apply, hb]
    · simp [BinOp.apply, BinOp.value, checkedInt_eq_ok, hb]

theorem map_eq_ok {α β : Type} {x : Except Exn α} {f : α → β} {b : β} :
    x.map f = .ok b ↔ ∃ a, x = .ok a ∧ f a = b := by
  rcases x with e | a <;> simp [Except.map]

theorem eval_literal {l : Literal} (h : l.Lexed) {v : SymbolValue} :
    CLIParser.semantics.eval (.leaf .NUMBER (some l)) = .ok v ↔ l.Fits ∧ v = .number l.value := by
  change l.convert.map SymbolValue.number = .ok v ↔ _
  rw [map_eq_ok, convert_eq h]
  split_ifs with hfits
  · simp [hfits, eq_comm]
  · simp [hfits]

namespace NumExp

theorem words_tree : ∀ e : NumExp, e.tree.words = e.tokens
  | number _ => by simp [tree, tokens, Tree.words, Tree.wordsAll]
  | binary _ l r => by simp [tree, tokens, Tree.words, Tree.wordsAll, words_tree l, words_tree r]
  | paren e => by simp [tree, tokens, Tree.words, Tree.wordsAll, words_tree e]
  | minus e => by simp [tree, tokens, Tree.words, Tree.wordsAll, words_tree e]

section Eval

variable {V ε : Type} {S : Semantics Token (Option Literal) Rule V ε} {v : V}

theorem eval_number_tree {l : Literal} : S.eval (number l).tree = .ok v ↔
    ∃ n, S.token .NUMBER (some l) = .ok n ∧ S.act .number [n] = .ok v := by
  simp only [tree, eval_node_eq_ok, evalAll_cons_eq_ok, evalAll_nil_eq_ok]
  constructor
  · rintro ⟨_, ⟨n, _, hn, rfl, rfl⟩, hact⟩
    exact ⟨n, hn, hact⟩
  · rintro ⟨n, hn, hact⟩
    exact ⟨_, ⟨n, _, hn, rfl, rfl⟩, hact⟩

theorem eval_binary_tree {o : BinOp} {l r : NumExp} : S.eval (binary o l r).tree = .ok v ↔
    ∃ a k b, S.eval l.tree = .ok a ∧ S.token (.OP o) none = .ok k ∧ S.eval r.tree = .ok b ∧
      S.act (.binary o) [a, k, b] = .ok v := by
  simp only [tree, eval_node_eq_ok, evalAll_cons_eq_ok, evalAll_nil_eq_ok]
  constructor
  · rintro ⟨_, ⟨a, _, ha, ⟨k, _, hk, ⟨b, _, hb, rfl, rfl⟩, rfl⟩, rfl⟩, hact⟩
    exact ⟨a, k, b, ha, hk, hb, hact⟩
  · rintro ⟨a, k, b, ha, hk, hb, hact⟩
    exact ⟨_, ⟨a, _, ha, ⟨k, _, hk, ⟨b, _, hb, rfl, rfl⟩, rfl⟩, rfl⟩, hact⟩

theorem eval_paren_tree {e : NumExp} : S.eval (paren e).tree = .ok v ↔
    ∃ l a r, S.token .LPAREN none = .ok l ∧ S.eval e.tree = .ok a ∧ S.token .RPAREN none = .ok r ∧
      S.act .paren [l, a, r] = .ok v := by
  simp only [tree, eval_node_eq_ok, evalAll_cons_eq_ok, evalAll_nil_eq_ok]
  constructor
  · rintro ⟨_, ⟨l, _, hl, ⟨a, _, ha, ⟨r, _, hr, rfl, rfl⟩, rfl⟩, rfl⟩, hact⟩
    exact ⟨l, a, r, hl, ha, hr, hact⟩
  · rintro ⟨l, a, r, hl, ha, hr, hact⟩
    exact ⟨_, ⟨l, _, hl, ⟨a, _, ha, ⟨r, _, hr, rfl, rfl⟩, rfl⟩, rfl⟩, hact⟩

theorem eval_minus_tree {e : NumExp} : S.eval (minus e).tree = .ok v ↔
    ∃ k a, S.token (.OP .sub) none = .ok k ∧ S.eval e.tree = .ok a ∧
      S.act .minus [k, a] = .ok v := by
  simp only [tree, eval_node_eq_ok, evalAll_cons_eq_ok, evalAll_nil_eq_ok]
  constructor
  · rintro ⟨_, ⟨k, _, hk, ⟨a, _, ha, rfl, rfl⟩, rfl⟩, hact⟩
    exact ⟨k, a, hk, ha, hact⟩
  · rintro ⟨k, a, hk, ha, hact⟩
    exact ⟨_, ⟨k, _, hk, ⟨a, _, ha, rfl, rfl⟩, rfl⟩, hact⟩

end Eval

/-- The parser makes the value of an expression where that is safe, and of no other makes any. -/
theorem eval_eq_ok : ∀ {e : NumExp} {v : SymbolValue}, (∀ x ∈ e.tokens, H9.Lexed x) →
    (CLIParser.semantics.eval e.tree = .ok v ↔ e.Safe ∧ v = .number e.value)
  | number l, v, h => by
    obtain ⟨l', hl', hlexed⟩ := h (.token .NUMBER (some l)) (by simp [tokens])
    obtain rfl := Option.some.inj hl'
    rw [eval_number_tree]
    constructor
    · rintro ⟨n, hn, hact⟩
      obtain ⟨hfits, rfl⟩ := (eval_literal hlexed).1 hn
      exact ⟨hfits, (Except.ok.inj hact).symm⟩
    · rintro ⟨hfits, rfl⟩
      exact ⟨_, (eval_literal hlexed).2 ⟨hfits, rfl⟩, rfl⟩
  | binary o l r, v, h => by
    have hl := fun w => eval_eq_ok (e := l) (v := w) fun x hx => h x (by simp [tokens, hx])
    have hr := fun w => eval_eq_ok (e := r) (v := w) fun x hx => h x (by simp [tokens, hx])
    rw [eval_binary_tree]
    constructor
    · rintro ⟨a, k, b, ha, -, hb, hact⟩
      obtain ⟨hsl, rfl⟩ := (hl a).1 ha
      obtain ⟨hsr, rfl⟩ := (hr b).1 hb
      obtain ⟨n, hn, rfl⟩ := map_eq_ok.1 hact
      obtain ⟨hcond, rfl⟩ := BinOp.apply_eq_ok.1 hn
      exact ⟨⟨⟨hsl, hsr⟩, hcond⟩, rfl⟩
    · rintro ⟨⟨⟨hsl, hsr⟩, hcond⟩, rfl⟩
      refine ⟨_, .none, _, (hl _).2 ⟨hsl, rfl⟩, rfl, (hr _).2 ⟨hsr, rfl⟩, ?_⟩
      exact map_eq_ok.2 ⟨_, BinOp.apply_eq_ok.2 ⟨hcond, rfl⟩, rfl⟩
  | paren e, v, h => by
    have he := fun w => eval_eq_ok (e := e) (v := w) fun x hx => h x (by simp [tokens, hx])
    rw [eval_paren_tree]
    constructor
    · rintro ⟨l, a, r, -, ha, -, hact⟩
      obtain ⟨hs, rfl⟩ := (he a).1 ha
      exact ⟨hs, (Except.ok.inj hact).symm⟩
    · rintro ⟨hs, rfl⟩
      exact ⟨.none, _, .none, rfl, (he _).2 ⟨hs, rfl⟩, rfl, rfl⟩
  | minus e, v, h => by
    have he := fun w => eval_eq_ok (e := e) (v := w) fun x hx => h x (by simp [tokens, hx])
    rw [eval_minus_tree]
    constructor
    · rintro ⟨k, a, -, ha, hact⟩
      obtain ⟨hs, rfl⟩ := (he a).1 ha
      obtain ⟨n, hn, rfl⟩ := map_eq_ok.1 hact
      obtain ⟨hcond, rfl⟩ := checkedInt_eq_ok.1 hn
      exact ⟨⟨hs, hcond⟩, rfl⟩
    · rintro ⟨⟨hs, hcond⟩, rfl⟩
      refine ⟨.none, _, rfl, (he _).2 ⟨hs, rfl⟩, ?_⟩
      exact map_eq_ok.2 ⟨_, checkedInt_eq_ok.2 ⟨hcond, rfl⟩, rfl⟩

end NumExp

/-! ### Derivations -/

namespace CLIParser

variable {t : Tree Token (Option Literal) Rule} {v : SymbolValue} {r : Rule} {vs : List SymbolValue}

theorem eq_leaf_of_root {k : Token} (h : t.root tables = .inl k) : ∃ x, t = .leaf k x := by
  cases t with
  | leaf k' x => exact ⟨x, by rw [Sum.inl.inj h]⟩
  | node r ts => cases h

/-- A derivation of `num_exp` is an expression. -/
theorem exists_numExp (h : t.Valid tables) (hroot : t.root tables = .inr .num_exp)
    (hlexed : ∀ x ∈ t.words, Lexed x) : ∃ e : NumExp, t = e.tree := by
  induction h with
  | leaf k x => cases hroot
  | @node r ts hroots hvalid ih =>
    cases r with
    | number =>
      obtain ⟨t, rfl, ht⟩ := List.map_eq_singleton_iff.1 hroots
      obtain ⟨x, rfl⟩ := eq_leaf_of_root ht
      obtain ⟨l, rfl, -⟩ := hlexed (.token .NUMBER x) (by simp [Tree.words, Tree.wordsAll])
      exact ⟨.number l, rfl⟩
    | binary o =>
      obtain ⟨a, _, rfl, ha, hroots⟩ := List.map_eq_cons_iff.1 hroots
      obtain ⟨k, _, rfl, hk, hroots⟩ := List.map_eq_cons_iff.1 hroots
      obtain ⟨b, rfl, hb⟩ := List.map_eq_singleton_iff.1 hroots
      obtain ⟨x, rfl⟩ := eq_leaf_of_root hk
      obtain rfl : x = none := hlexed (.token (.OP o) x) (by simp [Tree.words, Tree.wordsAll])
      obtain ⟨l, rfl⟩ := ih a (by simp) ha fun x hx => hlexed x (by simp [Tree.words, Tree.wordsAll, hx])
      obtain ⟨r, rfl⟩ := ih b (by simp) hb fun x hx => hlexed x (by simp [Tree.words, Tree.wordsAll, hx])
      exact ⟨.binary o l r, rfl⟩
    | paren =>
      obtain ⟨k, _, rfl, hk, hroots⟩ := List.map_eq_cons_iff.1 hroots
      obtain ⟨a, _, rfl, ha, hroots⟩ := List.map_eq_cons_iff.1 hroots
      obtain ⟨k', rfl, hk'⟩ := List.map_eq_singleton_iff.1 hroots
      obtain ⟨x, rfl⟩ := eq_leaf_of_root hk
      obtain ⟨y, rfl⟩ := eq_leaf_of_root hk'
      obtain rfl : x = none := hlexed (.token .LPAREN x) (by simp [Tree.words, Tree.wordsAll])
      obtain rfl : y = none := hlexed (.token .RPAREN y) (by simp [Tree.words, Tree.wordsAll])
      obtain ⟨e, rfl⟩ := ih a (by simp) ha fun x hx => hlexed x (by simp [Tree.words, Tree.wordsAll, hx])
      exact ⟨.paren e, rfl⟩
    | minus =>
      obtain ⟨k, _, rfl, hk, hroots⟩ := List.map_eq_cons_iff.1 hroots
      obtain ⟨a, rfl, ha⟩ := List.map_eq_singleton_iff.1 hroots
      obtain ⟨x, rfl⟩ := eq_leaf_of_root hk
      obtain rfl : x = none := hlexed (.token (.OP .sub) x) (by simp [Tree.words, Tree.wordsAll])
      obtain ⟨e, rfl⟩ := ih a (by simp) ha fun x hx => hlexed x (by simp [Tree.words, Tree.wordsAll, hx])
      exact ⟨.minus e, rfl⟩
    | _ => cases hroot

/-- What kind of value a symbol has. -/
def Typed : Token ⊕ Nonterminal → SymbolValue → Prop
  | .inl .NUMBER, v => ∃ n, v = .number n
  | .inr .num_exp, v => ∃ n, v = .number n
  | .inr .node_exp, v => ∃ e, v = .exp (.node_exp e)
  | .inr .node_reg_exp, v => ∃ e, v = .exp (.node_reg_exp e)
  | _, _ => True

/-- An action takes the kinds of its symbols to that of its rule. -/
theorem act_typed (h : List.Forall₂ Typed r.rhs vs) (hact : act r vs = .ok v) :
    Typed (.inr r.lhs) v := by
  cases r with
  | node_exp =>
    obtain _ | ⟨-, _ | ⟨⟨n, rfl⟩, _ | _⟩⟩ := h
    exact ⟨_, (Except.ok.inj hact).symm⟩
  | node_reg_exp =>
    obtain _ | ⟨⟨e, rfl⟩, _ | ⟨-, _ | ⟨⟨n, rfl⟩, _ | _⟩⟩⟩ := h
    exact ⟨_, (Except.ok.inj hact).symm⟩
  | number =>
    obtain _ | ⟨⟨n, rfl⟩, _ | _⟩ := h
    exact ⟨_, (Except.ok.inj hact).symm⟩
  | binary o =>
    obtain _ | ⟨⟨a, rfl⟩, _ | ⟨-, _ | ⟨⟨b, rfl⟩, _ | _⟩⟩⟩ := h
    obtain ⟨n, -, rfl⟩ := map_eq_ok.1 hact
    exact ⟨n, rfl⟩
  | paren =>
    obtain _ | ⟨-, _ | ⟨⟨n, rfl⟩, _ | ⟨-, _ | _⟩⟩⟩ := h
    exact ⟨_, (Except.ok.inj hact).symm⟩
  | minus =>
    obtain _ | ⟨-, _ | ⟨⟨a, rfl⟩, _ | _⟩⟩ := h
    obtain ⟨n, -, rfl⟩ := map_eq_ok.1 hact
    exact ⟨n, rfl⟩
  | _ => exact trivial

/-- Only an action that computes can fail. -/
theorem act_ok (h : List.Forall₂ Typed r.rhs vs) (hr : r.lhs ≠ .num_exp) : ∃ v, act r vs = .ok v := by
  cases r with
  | unit_empty =>
    obtain _ | _ := h
    exact ⟨_, rfl⟩
  | unit_node_exp =>
    obtain _ | ⟨-, _ | _⟩ := h
    exact ⟨_, rfl⟩
  | unit_node_command =>
    obtain _ | ⟨-, _ | _⟩ := h
    exact ⟨_, rfl⟩
  | unit_node_reg_exp =>
    obtain _ | ⟨-, _ | _⟩ := h
    exact ⟨_, rfl⟩
  | unit_node_reg_command =>
    obtain _ | ⟨-, _ | _⟩ := h
    exact ⟨_, rfl⟩
  | node_exp =>
    obtain _ | ⟨-, _ | ⟨⟨n, rfl⟩, _ | _⟩⟩ := h
    exact ⟨_, rfl⟩
  | node_command =>
    obtain _ | ⟨⟨e, rfl⟩, _ | ⟨-, _ | _⟩⟩ := h
    exact ⟨_, rfl⟩
  | node_reg_exp =>
    obtain _ | ⟨⟨e, rfl⟩, _ | ⟨-, _ | ⟨⟨n, rfl⟩, _ | _⟩⟩⟩ := h
    exact ⟨_, rfl⟩
  | get =>
    obtain _ | ⟨⟨e, rfl⟩, _ | ⟨-, _ | _⟩⟩ := h
    exact ⟨_, rfl⟩
  | set c =>
    obtain _ | ⟨⟨e, rfl⟩, _ | ⟨-, _ | ⟨⟨n, rfl⟩, _ | _⟩⟩⟩ := h
    exact ⟨_, rfl⟩
  | _ => exact absurd rfl hr

theorem typed_of_token {k : Token} {x : Option Literal} (hx : Lexed (.token k x))
    (h : token k x = .ok v) : Typed (.inl k) v := by
  cases k with
  | NUMBER =>
    obtain ⟨l, rfl, -⟩ := hx
    obtain ⟨n, -, rfl⟩ := map_eq_ok.1 h
    exact ⟨n, rfl⟩
  | _ => exact trivial

theorem typed_of_evalAll {ts : List (Tree Token (Option Literal) Rule)}
    (hroots : ts.map (Tree.root tables) = r.rhs) (hvs : semantics.evalAll ts = .ok vs)
    (htyped : ∀ t ∈ ts, ∀ v, semantics.eval t = .ok v → Typed (t.root tables) v) :
    List.Forall₂ Typed r.rhs vs := by
  rw [← hroots, List.forall₂_map_left_iff]
  have hboth := (List.forall₂_and_left _ _).2 ⟨htyped, evalAll_eq_ok.1 hvs⟩
  exact hboth.imp fun t v h => h.1 v h.2

theorem typed_of_eval (h : t.Valid tables) : (∀ x ∈ t.words, Lexed x) →
    ∀ v, semantics.eval t = .ok v → Typed (t.root tables) v := by
  induction h with
  | leaf k x => exact fun hlexed v heval => typed_of_token (hlexed _ (by simp [Tree.words])) heval
  | @node r ts hroots hvalid ih =>
    intro hlexed v heval
    obtain ⟨vs, hvs, hact⟩ := eval_node_eq_ok.1 heval
    have htyped := fun t ht => ih t ht fun x hx => hlexed x (words_subset ht hx)
    exact act_typed (typed_of_evalAll hroots hvs htyped) hact

/-- A derivation that fails is a number that is too large or an expression that is not safe. -/
theorem cases_of_fails (h : t.Valid tables) (hlexed : ∀ x ∈ t.words, Lexed x) {e : Exn}
    (hfails : t.Fails semantics e) : (∃ l : Literal, t = .leaf .NUMBER (some l) ∧ ¬ l.Fits) ∨
      ∃ e : NumExp, t = e.tree ∧ ¬ e.Safe := by
  cases hfails with
  | @leaf k x htoken =>
    cases k with
    | NUMBER =>
      obtain ⟨l, rfl, hl⟩ := hlexed (.token .NUMBER x) (by simp [Tree.words])
      refine .inl ⟨l, rfl, fun hfits => ?_⟩
      have heval := (eval_literal hl).2 ⟨hfits, rfl⟩
      cases htoken.symm.trans heval
    | _ => cases htoken
  | @node r ts vs hvs hact =>
    by_cases hr : r.lhs = .num_exp
    · obtain ⟨e, he⟩ := exists_numExp h (congrArg _ hr) hlexed
      refine .inr ⟨e, he, fun hsafe => ?_⟩
      rw [he, NumExp.words_tree] at hlexed
      have heval := (NumExp.eval_eq_ok hlexed).2 ⟨hsafe, rfl⟩
      rw [← he] at heval
      obtain ⟨ws, hws, hactw⟩ := eval_node_eq_ok.1 heval
      obtain rfl := Except.ok.inj (hvs.symm.trans hws)
      cases hact.symm.trans hactw
    · cases h with
      | node hroots hvalid =>
        have htyped := fun t ht => typed_of_eval (hvalid t ht) fun x hx => hlexed x (words_subset ht hx)
        obtain ⟨v, hv⟩ := act_ok (typed_of_evalAll hroots hvs htyped) hr
        cases hact.symm.trans hv

/-! ### The whole parser -/

variable {input : List (Lexeme Token (Option Literal))}

theorem derivations_eq (input : List (Lexeme Token (Option Literal))) : ∃ b made,
    LR.run tables (Tree.semantics : Semantics _ _ _ _ Exn) (steps input) (LR.Config.start input) =
      some (.ok (b, made)) ∧ derivations input = made.map Made.value := by
  obtain ⟨out, hout⟩ := Option.isSome_iff_exists.1 (run_steps_isSome Tree.semantics input)
  obtain ⟨⟨b, made⟩, rfl⟩ := run_trees tables _ hout
  exact ⟨b, made, hout, by rw [derivations, hout]⟩

/-- What the parser makes are derivations of parts of the line. -/
theorem valid_of_mem_derivations (h : t ∈ derivations input) :
    t.Valid tables ∧ t.words <:+: input := by
  obtain ⟨b, made, hrun, hmade⟩ := derivations_eq input
  rw [hmade] at h
  obtain ⟨m, hm, rfl⟩ := List.mem_map.1 h
  exact run_derives spells _ (derives_start input) hrun m hm

theorem tokens_of_evaluates {e : NumExp} (h : Evaluates input e) : e.tokens <:+: input := by
  rw [← NumExp.words_tree]
  exact (valid_of_mem_derivations h).2

/-- Where nothing fails, all that is made has a value. -/
theorem eval_of_parseTokens {p : Parsed} (h : parseTokens input = some (.ok p))
    (ht : t ∈ derivations input) : ∃ v, semantics.eval t = .ok v := by
  obtain ⟨b, made, hrun, hmade⟩ := derivations_eq input
  rw [hmade] at ht
  obtain ⟨m, hm, rfl⟩ := List.mem_map.1 ht
  rcases run_eval _ (LR.Config.evals_start semantics input) hrun with ⟨made', -, hevals⟩ |
    ⟨_, -, e, -, herror⟩
  · exact eval_of_made hevals hm
  · rw [parseTokens, herror] at h
    cases h

/-- The parser returns on tokens of the scanner where the numbers that it reads and the expressions
that it evaluates are those of `int`s. -/
theorem parseTokens_eq_ok_iff (hlexed : ∀ x ∈ input, Lexed x) :
    (∃ p, parseTokens input = some (.ok p)) ↔
      (∀ l, Reads input l → l.Fits) ∧ ∀ e, Evaluates input e → e.Safe := by
  constructor
  · rintro ⟨p, hp⟩
    refine ⟨fun l hl => ?_, fun e he => ?_⟩
    · obtain ⟨v, hv⟩ := eval_of_parseTokens hp hl
      obtain ⟨l', hl', hl''⟩ := hlexed (.token .NUMBER (some l))
        ((valid_of_mem_derivations hl).2.subset (by simp [Tree.words]))
      obtain rfl := Option.some.inj hl'
      exact ((eval_literal hl'').1 hv).1
    · obtain ⟨v, hv⟩ := eval_of_parseTokens hp he
      exact ((NumExp.eval_eq_ok fun x hx => hlexed x ((tokens_of_evaluates he).subset hx)).1 hv).1
  · rintro ⟨hreads, hevaluates⟩
    obtain ⟨b, made, hrun, hmade⟩ := derivations_eq input
    rcases run_eval _ (LR.Config.evals_start semantics input) hrun with ⟨made', hrun', -⟩ |
      ⟨m, hm, e, hfails, -⟩
    · exact ⟨_, by rw [parseTokens, hrun']; rfl⟩
    · have hmem : m.value ∈ derivations input := by
        rw [hmade]
        exact List.mem_map_of_mem hm
      obtain ⟨hvalid, hwords⟩ := valid_of_mem_derivations hmem
      rcases cases_of_fails hvalid (fun x hx => hlexed x (hwords.subset hx)) hfails with
        ⟨l, hl, hnot⟩ | ⟨e, he, hnot⟩
      · exact absurd (hreads l (by rw [Reads, ← hl]; exact hmem)) hnot
      · exact absurd (hevaluates e (by rw [Evaluates, ← he]; exact hmem)) hnot

theorem scan_string_lexed (str : List Char) : ∀ x ∈ scan_string str, Lexed x := yylex_lexed _ _

/-- `parse` returns, with success or a parse error, on just the lines where each number that is read
fits in an `int` and each expression that is evaluated stays in its range and divides by no zero. -/
theorem parse_returns_iff (str : List Char) : (∃ p, parse str = some (.ok p)) ↔
    (∀ l, Reads (scan_string str) l → l.Fits) ∧ ∀ e, Evaluates (scan_string str) e → e.Safe :=
  parseTokens_eq_ok_iff (scan_string_lexed str)

theorem not_parse_returns : ¬ ∀ str : List Char, ∃ p, parse str = some (.ok p) := by
  intro h
  obtain ⟨p, hp⟩ := h "node 99999999999".toList
  have hthrows : parse "node 99999999999".toList = some (.error (.out_of_range "stoi")) := by
    decide +kernel
  rw [hthrows] at hp
  cases hp

end CLIParser

end H9
