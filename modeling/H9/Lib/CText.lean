import Mathlib

/-!
# Numbers in C text

`strtol`, `strtoull` and `std::stoi` read the longest numeral at the start of a text, behind
blanks and a sign, and stop at the first character that is none of it. A numeral between blanks
is read as if it stood alone, and `strtol` returns its value.
-/

namespace CText

/-- `isspace` in the C locale. -/
def isspace (c : Char) : Bool :=
  c = ' ' || c = '\t' || c = '\n' || c = '\x0b' || c = '\x0c' || c = '\r'

/-- The value of a character as a digit, letters after `9`. -/
def digitVal (c : Char) : Option ℕ :=
  if '0' ≤ c ∧ c ≤ '9' then some (c.toNat - '0'.toNat)
  else if 'a' ≤ c ∧ c ≤ 'z' then some (c.toNat - 'a'.toNat + 10)
  else if 'A' ≤ c ∧ c ≤ 'Z' then some (c.toNat - 'A'.toNat + 10)
  else none

/-- The digits at the start of the text. -/
def digits (base : ℕ) : List Char → List ℕ
  | [] => []
  | c :: cs =>
    match digitVal c with
    | some d => if d < base then d :: digits base cs else []
    | none => []

/-- The number whose digits are `ds`. -/
def number (base : ℕ) (ds : List ℕ) : ℕ := ds.foldl (fun n d => n * base + d) 0

/-- The sign at the start of the text, and what follows it. -/
def sign : List Char → Bool × List Char
  | '-' :: cs => (true, cs)
  | '+' :: cs => (false, cs)
  | cs => (false, cs)

/-- What follows a `0x` that a hexadecimal digit follows. -/
def dropHexPrefix (base : ℕ) : List Char → List Char
  | '0' :: x :: cs =>
    if base = 16 ∧ (x = 'x' ∨ x = 'X') ∧ digits 16 cs ≠ [] then cs else '0' :: x :: cs
  | cs => cs

/-- The sign and the digits of the numeral at the start of the text. -/
def scan (base : ℕ) (cs : List Char) : Bool × List ℕ :=
  let signed := sign (cs.dropWhile isspace)
  (signed.1, digits base (dropHexPrefix base signed.2))

/-- The value of the numeral at the start of the text, unbounded; 0 without one. -/
def value (base : ℕ) (cs : List Char) : ℤ :=
  let (neg, ds) := scan base cs
  if neg then -(number base ds : ℤ) else number base ds

/-- `strtol`, with a `long` of 64 bits. -/
def strtol (base : ℕ) (cs : List Char) : ℤ :=
  max (-2 ^ 63) (min (2 ^ 63 - 1) (value base cs))

/-- `strtoull` to base 10: a numeral too long gives the largest number, a negative one wraps. -/
def strtoull (cs : List Char) : UInt64 :=
  let (neg, ds) := scan 10 cs
  if 2 ^ 64 ≤ number 10 ds then UInt64.ofNat (2 ^ 64 - 1)
  else if neg then -UInt64.ofNat (number 10 ds) else UInt64.ofNat (number 10 ds)

/-- How `std::stoi` fails. -/
inductive StoiError
  | invalid_argument
  | out_of_range
deriving DecidableEq, Repr

/-- `std::stoi`, with an `int` of 32 bits. -/
def stoi (base : ℕ) (cs : List Char) : Except StoiError ℤ :=
  if (scan base cs).2 = [] then .error .invalid_argument
  else if -2 ^ 31 ≤ value base cs ∧ value base cs < 2 ^ 31 then .ok (value base cs)
  else .error .out_of_range

theorem number_append_singleton (base : ℕ) (ds : List ℕ) (d : ℕ) :
    number base (ds ++ [d]) = number base ds * base + d := by
  rw [number, List.foldl_append]
  rfl

theorem number_replicate_zero (base k : ℕ) (ds : List ℕ) :
    number base (List.replicate k 0 ++ ds) = number base ds := by
  induction k with
  | zero => rfl
  | succ k ih =>
    rw [List.replicate_succ, List.cons_append, number, List.foldl_cons, Nat.zero_mul]
    exact ih

theorem digitVal_of_isspace {c : Char} (h : isspace c) : digitVal c = none := by
  simp only [isspace, Bool.or_eq_true, decide_eq_true_eq] at h
  rcases h with ((((rfl | rfl) | rfl) | rfl) | rfl) | rfl <;> rfl

/-- Blanks end the digits. -/
theorem digits_append {base : ℕ} {post : List Char} (hpost : ∀ c ∈ post, isspace c) :
    ∀ ds : List Char, digits base (ds ++ post) = digits base ds
  | [] => by
    rcases post with _ | ⟨c, post⟩
    · rfl
    · simp only [List.nil_append, digits, digitVal_of_isspace (hpost c List.mem_cons_self)]
  | c :: ds => by
    rw [List.cons_append, digits, digits, digits_append hpost ds]

theorem sign_append {body post : List Char} (h : body ≠ []) :
    sign (body ++ post) = ((sign body).1, (sign body).2 ++ post) := by
  rcases body with _ | ⟨c, cs⟩
  · exact absurd rfl h
  · unfold sign
    simp only [List.cons_append]
    split <;> simp_all

theorem dropHexPrefix_ten (cs : List Char) : dropHexPrefix 10 cs = cs := by
  unfold dropHexPrefix
  split
  · exact if_neg fun h => absurd h.1 (by decide)
  · rfl

/-- A numeral between blanks is read as if it stood alone. -/
theorem scan_numeral {pre body post : List Char} (hpre : ∀ c ∈ pre, isspace c)
    (hne : body ≠ []) (hbody : ∀ c ∈ body.head?, ¬ isspace c) (hpost : ∀ c ∈ post, isspace c) :
    scan 10 (pre ++ (body ++ post)) = ((sign body).1, digits 10 (sign body).2) := by
  have hdrop : (pre ++ (body ++ post)).dropWhile isspace = body ++ post := by
    rw [List.dropWhile_append, List.dropWhile_eq_nil_iff.2 hpre]
    rcases body with _ | ⟨c, cs⟩
    · exact absurd rfl hne
    · exact List.dropWhile_cons_of_neg (hbody c rfl)
  simp only [scan, hdrop, sign_append hne, dropHexPrefix_ten, digits_append hpost]

theorem strtol_numeral {pre body post : List Char} (hpre : ∀ c ∈ pre, isspace c)
    (hne : body ≠ []) (hbody : ∀ c ∈ body.head?, ¬ isspace c) (hpost : ∀ c ∈ post, isspace c)
    {n : ℕ} (hn : number 10 (digits 10 (sign body).2) = n) (hsign : (sign body).1 = true → n = 0)
    (hlt : n < 2 ^ 63) : strtol 10 (pre ++ (body ++ post)) = n := by
  have hvalue : value 10 (pre ++ (body ++ post)) = n := by
    simp only [value, scan_numeral hpre hne hbody hpost, hn]
    split_ifs with h
    · rw [hsign h]
      rfl
    · rfl
  rw [strtol, hvalue]
  omega

theorem digitVal_of_isDigit {c : Char} (h : c.isDigit = true) :
    digitVal c = some (c.toNat - '0'.toNat) ∧ c.toNat - '0'.toNat < 10 := by
  simp only [Char.isDigit, Bool.and_eq_true, decide_eq_true_eq] at h
  have hle : '0' ≤ c ∧ c ≤ '9' := h
  have hnine : c.toNat ≤ '9'.toNat := h.2
  refine ⟨by rw [digitVal, if_pos hle], ?_⟩
  simp only [Char.reduceToNat] at hnine ⊢
  omega

theorem digits_of_isDigit : ∀ {cs : List Char}, (∀ c ∈ cs, c.isDigit = true) →
    digits 10 cs = cs.map fun c => c.toNat - '0'.toNat
  | [], _ => rfl
  | c :: cs, h => by
    obtain ⟨hval, hlt⟩ := digitVal_of_isDigit (h c List.mem_cons_self)
    rw [digits, hval]
    dsimp only
    rw [if_pos hlt, digits_of_isDigit fun c hc => h c (List.mem_cons_of_mem _ hc), List.map_cons]

theorem number_digits {cs : List Char} (h : ∀ c ∈ cs, c.isDigit = true) :
    number 10 (digits 10 cs) = Nat.ofDigitChars 10 cs 0 := by
  simp only [number, digits_of_isDigit h, List.foldl_map, Nat.ofDigitChars_eq_foldl, mul_comm 10]

theorem sign_of_isDigit {cs : List Char} (h : ∀ c ∈ cs, c.isDigit = true) : sign cs = (false, cs) := by
  unfold sign
  split
  · exact absurd (h '-' List.mem_cons_self) (by decide)
  · exact absurd (h '+' List.mem_cons_self) (by decide)
  · rfl

theorem not_isspace_of_isDigit {c : Char} (h : c.isDigit = true) : isspace c = false := by
  by_contra hs
  rw [Bool.not_eq_false] at hs
  cases (digitVal_of_isDigit h).1.symm.trans (digitVal_of_isspace hs)

/-- The digits alone are a numeral. -/
theorem scan_of_isDigit {cs : List Char} (hne : cs ≠ []) (h : ∀ c ∈ cs, c.isDigit = true) :
    scan 10 cs = (false, digits 10 cs) := by
  have hlist : cs = [] ++ (cs ++ []) := by simp
  rw [hlist, scan_numeral (by simp) hne (fun c hc => ?_) (by simp), sign_of_isDigit h]
  · simp
  · rw [not_isspace_of_isDigit (h c (List.mem_of_mem_head? hc))]
    exact Bool.false_ne_true

/-- `std::stoi` of digits alone fails when an `int` does not hold the number. -/
theorem stoi_of_isDigit {cs : List Char} (hne : cs ≠ []) (h : ∀ c ∈ cs, c.isDigit = true) :
    stoi 10 cs = if Nat.ofDigitChars 10 cs 0 < 2 ^ 31 then .ok (Nat.ofDigitChars 10 cs 0 : ℤ)
      else .error .out_of_range := by
  have hscan := scan_of_isDigit hne h
  have hdigits : (scan 10 cs).2 ≠ [] := by
    rw [hscan, digits_of_isDigit h]
    simpa using hne
  have hvalue : value 10 cs = (Nat.ofDigitChars 10 cs 0 : ℤ) := by
    simp only [value, hscan, number_digits h, Bool.false_eq_true, if_false]
  rw [stoi, if_neg hdigits, hvalue]
  split_ifs <;> first | rfl | omega

theorem isDigit_repr {n : ℕ} {c : Char} (hc : c ∈ Nat.toDigits 10 n) : c.isDigit = true :=
  Nat.isDigit_of_mem_toDigits (by decide) (by decide) hc

theorem scan_repr (n : ℕ) :
    (scan 10 (toString n).toList).1 = false ∧ number 10 (scan 10 (toString n).toList).2 = n := by
  have hlist : (toString n).toList = Nat.toDigits 10 n := by simp
  rw [hlist, scan_of_isDigit Nat.toDigits_ne_nil fun _ => isDigit_repr,
    number_digits fun _ => isDigit_repr, Nat.ofDigitChars_ten_toDigits]
  exact ⟨rfl, rfl⟩

theorem stoi_repr (n : ℕ) : stoi 10 (toString n).toList =
    if n < 2 ^ 31 then .ok (n : ℤ) else .error .out_of_range := by
  have hlist : (toString n).toList = Nat.toDigits 10 n := by simp
  rw [hlist, stoi_of_isDigit Nat.toDigits_ne_nil fun _ => isDigit_repr, Nat.ofDigitChars_ten_toDigits]

theorem strtol_repr {n : ℕ} (hn : n < 2 ^ 63) : strtol 10 (toString n).toList = n := by
  obtain ⟨hsign, hnumber⟩ := scan_repr n
  simp only [strtol, value, hsign, hnumber, Bool.false_eq_true, if_false]
  omega

theorem strtoull_repr (n : UInt64) : strtoull (toString n.toNat).toList = n := by
  obtain ⟨hsign, hnumber⟩ := scan_repr n.toNat
  have hlt : ¬ 2 ^ 64 ≤ n.toNat := Nat.not_le.2 n.toNat_lt
  simp only [strtoull, hsign, hnumber, hlt, Bool.false_eq_true, if_false, UInt64.ofNat_toNat]

/-! ### The digits of a base -/

theorem number_lt {base : ℕ} {ds : List ℕ} :
    (∀ d ∈ ds, d < base) → number base ds < base ^ ds.length := by
  induction ds using List.reverseRecOn with
  | nil => simp [number]
  | append_singleton ds d ih =>
    intro h
    have hd : d < base := h d (by simp)
    have hlt : number base ds + 1 ≤ base ^ ds.length := ih fun e he => h e (by simp [he])
    have hmul := Nat.mul_le_mul_right base hlt
    rw [number_append_singleton, List.length_append, List.length_singleton, pow_succ]
    rw [Nat.add_mul, one_mul] at hmul
    omega

theorem digits_lt {base : ℕ} : ∀ {cs : List Char}, ∀ d ∈ digits base cs, d < base
  | [], d, hd => by simp [digits] at hd
  | c :: cs, d, hd => by
    rw [digits] at hd
    split at hd
    · split_ifs at hd with hlt
      · rcases List.mem_cons.1 hd with rfl | hd
        · exact hlt
        · exact digits_lt d hd
      · cases hd
    · cases hd

theorem length_digits_le (base : ℕ) : ∀ cs : List Char, (digits base cs).length ≤ cs.length
  | [] => le_rfl
  | c :: cs => by
    rw [digits]
    have ih := length_digits_le base cs
    split
    · split_ifs
      · simpa using ih
      · simp
    · simp

theorem number_digits_lt {base : ℕ} (h : 0 < base) (cs : List Char) :
    number base (digits base cs) < base ^ cs.length :=
  (number_lt digits_lt).trans_le (Nat.pow_le_pow_right h (length_digits_le base cs))

section Digits

variable {base : ℕ} {cs : List Char}

theorem digits_ne_nil (h : ∀ c ∈ cs, ∃ d, digitVal c = some d ∧ d < base) (hne : cs ≠ []) :
    digits base cs ≠ [] := by
  rcases cs with _ | ⟨c, cs⟩
  · exact absurd rfl hne
  · obtain ⟨d, hval, hlt⟩ := h c List.mem_cons_self
    rw [digits, hval]
    dsimp only
    rw [if_pos hlt]
    exact List.cons_ne_nil _ _

theorem dropHexPrefix_of_ne (h : base ≠ 16) : dropHexPrefix base cs = cs := by
  unfold dropHexPrefix
  split
  · exact if_neg fun hbad => h hbad.1
  · rfl

/-- What starts with a digit has no blanks and no sign before it. -/
theorem scan_of_digitVal {c : Char} (h : digitVal c ≠ none) :
    scan base (c :: cs) = (false, digits base (dropHexPrefix base (c :: cs))) := by
  have hspace : isspace c = false := by
    by_contra hs
    rw [Bool.not_eq_false] at hs
    exact h (digitVal_of_isspace hs)
  have hsign : sign (c :: cs) = (false, c :: cs) := by
    unfold sign
    split
    · rename_i heq
      cases heq
      exact absurd rfl h
    · rename_i heq
      cases heq
      exact absurd rfl h
    · rfl
  rw [scan, List.dropWhile_cons_of_neg (by simp [hspace]), hsign]

/-- `0x` is dropped before hexadecimal digits. -/
theorem scan_hexPrefix {x : Char} (hx : x = 'x' ∨ x = 'X') (h : digits 16 cs ≠ []) :
    scan 16 ('0' :: x :: cs) = (false, digits 16 cs) := by
  have h0 : digitVal '0' ≠ none := by decide
  rw [scan_of_digitVal h0]
  exact congrArg (fun cs => (false, digits 16 cs)) (if_pos ⟨rfl, hx, h⟩)

end Digits

/-! ### Hexadecimal digits -/

/-- The value of a hexadecimal digit. -/
def hexDigit (c : Char) : Option ℕ := (digitVal c).filter (· < 16)

theorem hexDigit_eq_some {c : Char} {d : ℕ} : hexDigit c = some d ↔ digitVal c = some d ∧ d < 16 := by
  simp [hexDigit, Option.filter_eq_some_iff]

theorem hexDigit_isAlphanum {c : Char} (h : hexDigit c ≠ none) : c.isAlphanum = true := by
  obtain ⟨d, hd⟩ := Option.ne_none_iff_exists'.1 h
  have hval := (hexDigit_eq_some.1 hd).1
  unfold digitVal at hval
  simp only [Char.isAlphanum, Char.isAlpha, Char.isUpper, Char.isLower, Char.isDigit,
    Bool.or_eq_true, Bool.and_eq_true, decide_eq_true_eq]
  split_ifs at hval with h0 ha hA
  · exact .inr h0
  · exact .inl (.inr ha)
  · exact .inl (.inl hA)

theorem isAlphanum_bounds {c : Char} (h : c.isAlphanum = true) :
    (65 ≤ c.toNat ∧ c.toNat ≤ 90 ∨ 97 ≤ c.toNat ∧ c.toNat ≤ 122) ∨ 48 ≤ c.toNat ∧ c.toNat ≤ 57 := by
  simp only [Char.isAlphanum, Char.isAlpha, Char.isUpper, Char.isLower, Char.isDigit,
    Bool.or_eq_true, Bool.and_eq_true, decide_eq_true_eq] at h
  exact h

theorem hexDigit_ascii {c : Char} (h : hexDigit c ≠ none) : 0 < c.toNat ∧ c.toNat < 128 := by
  have hbounds := isAlphanum_bounds (hexDigit_isAlphanum h)
  omega

/-- No hexadecimal digit is a blank or a sign. -/
theorem hexDigit_plain {c : Char} (h : hexDigit c ≠ none) :
    isspace c = false ∧ c ≠ '-' ∧ c ≠ '+' ∧ c ≠ 'x' ∧ c ≠ 'X' := by
  refine ⟨?_, ?_, ?_, ?_, ?_⟩
  · by_contra hs
    rw [Bool.not_eq_false] at hs
    exact h (by rw [hexDigit, digitVal_of_isspace hs]; rfl)
  all_goals
    rintro rfl
    exact h rfl

theorem digits_hexDigits : ∀ {cs : List Char}, (∀ c ∈ cs, hexDigit c ≠ none) →
    digits 16 cs = cs.filterMap hexDigit
  | [], _ => rfl
  | c :: cs, h => by
    obtain ⟨d, hd⟩ := Option.ne_none_iff_exists'.1 (h c List.mem_cons_self)
    obtain ⟨hval, hlt⟩ := hexDigit_eq_some.1 hd
    rw [digits, hval, List.filterMap_cons_some hd]
    dsimp only
    rw [if_pos hlt, digits_hexDigits fun c hc => h c (List.mem_cons_of_mem _ hc)]

/-- Hexadecimal digits are read as a numeral that has no sign and no more to it. -/
theorem scan_hexDigits {cs : List Char} (h : ∀ c ∈ cs, hexDigit c ≠ none) :
    scan 16 cs = (false, cs.filterMap hexDigit) := by
  have hdrop : cs.dropWhile isspace = cs := by
    rcases cs with _ | ⟨c, cs⟩
    · rfl
    · exact List.dropWhile_cons_of_neg (by simp [(hexDigit_plain (h c List.mem_cons_self)).1])
  have hsign : sign cs = (false, cs) := by
    unfold sign
    split
    · exact absurd rfl (hexDigit_plain (h '-' List.mem_cons_self)).2.1
    · exact absurd rfl (hexDigit_plain (h '+' List.mem_cons_self)).2.2.1
    · rfl
  have hhex : dropHexPrefix 16 cs = cs := by
    unfold dropHexPrefix
    split
    · rename_i x cs
      have hx := hexDigit_plain (h x (List.mem_cons_of_mem _ List.mem_cons_self))
      exact if_neg fun hbad => hbad.2.1.elim hx.2.2.2.1 hx.2.2.2.2
    · rfl
  rw [scan, hdrop, hsign, hhex, digits_hexDigits h]

theorem value_hexDigits {cs : List Char} (h : ∀ c ∈ cs, hexDigit c ≠ none) :
    value 16 cs = number 16 (cs.filterMap hexDigit) := by
  simp only [value, scan_hexDigits h, Bool.false_eq_true, if_false]

end CText
