import Mathlib

/-!
# Tags with attributes as text

A root element with empty elements in it, written as an XML document with an element a line, and
read back. Characters that markup or the normalization of attributes would take away stand as
references in a value.
-/

namespace Markup

/-- What is written of an element: its name and its attributes. -/
structure Tag where
  name : List Char
  attrs : List (List Char × List Char)

/-- The characters that stand as references, with the names of these. -/
def entity (c : Char) : Option (List Char) :=
  if c = '"' then some ['q', 'u', 'o', 't']
  else if c = '&' then some ['a', 'm', 'p']
  else if c = '<' then some ['l', 't']
  else if c = '>' then some ['g', 't']
  else if c = '\n' then some ['#', '1', '0']
  else if c = '\r' then some ['#', '1', '3']
  else if c = '\t' then some ['#', '9']
  else none

/-- What a reference stands for. -/
def referred (name : List Char) : List Char :=
  ['"', '&', '<', '>', '\n', '\r', '\t'].filter fun c => entity c = some name

def escapeChar (c : Char) : List Char :=
  match entity c with
  | some name => '&' :: (name ++ [';'])
  | none => [c]

def escape (cs : List Char) : List Char := cs.flatMap escapeChar

/-- The text of a value; `name` is what was read of a reference, the last character first. -/
def unescape : Option (List Char) → List Char → List Char
  | _, [] => []
  | none, c :: cs => if c = '&' then unescape (some []) cs else c :: unescape none cs
  | some name, c :: cs =>
    if c = ';' then referred name.reverse ++ unescape none cs else unescape (some (c :: name)) cs

/-- A character of a name. -/
def isName (c : Char) : Bool := c.isAlphanum || c = '-'

def writeAttrs (attrs : List (List Char × List Char)) : List Char :=
  attrs.flatMap fun a => ' ' :: (a.1 ++ '=' :: '"' :: (escape a.2 ++ ['"']))

/-- The tag up to its end, `/>` or `>`. -/
def writeTag (t : Tag) : List Char := '<' :: (t.name ++ writeAttrs t.attrs)

def writeChildren (ts : List Tag) : List Char :=
  ts.flatMap fun t => '\n' :: ' ' :: ' ' :: (writeTag t ++ ['/', '>'])

def header : List Char := "<?xml version=\"1.0\"?>\n".toList

def write (root : Tag) (ts : List Tag) : List Char :=
  header ++ (writeTag root ++
    if ts = [] then ['/', '>', '\n']
    else '>' :: (writeChildren ts ++ '\n' :: '<' :: '/' :: (root.name ++ ['>', '\n'])))

/-- The attributes at the start of the text, no more than `n`, and what follows them. -/
def readAttrs : ℕ → List Char → Option (List (List Char × List Char) × List Char)
  | n + 1, ' ' :: cs =>
    match cs.dropWhile isName with
    | '=' :: '"' :: vs =>
      match vs.dropWhile (· ≠ '"') with
      | '"' :: rest => (readAttrs n rest).map fun r =>
        ((cs.takeWhile isName, unescape none (vs.takeWhile (· ≠ '"'))) :: r.1, r.2)
      | _ => none
    | _ => none
  | _, cs => some ([], cs)

def readTag : List Char → Option (Tag × List Char)
  | '<' :: cs => (readAttrs cs.length (cs.dropWhile isName)).map fun r =>
    (⟨cs.takeWhile isName, r.1⟩, r.2)
  | _ => none

/-- The empty elements at the start of the text, no more than `n`, and what follows them. -/
def readChildren : ℕ → List Char → Option (List Tag × List Char)
  | n + 1, '\n' :: ' ' :: ' ' :: cs =>
    match readTag cs with
    | some (t, '/' :: '>' :: rest) => (readChildren n rest).map fun r => (t :: r.1, r.2)
    | _ => none
  | _, cs => some ([], cs)

def read (cs : List Char) : Option (Tag × List Tag) :=
  if header.isPrefixOf cs then
    match readTag (cs.drop header.length) with
    | some (root, ['/', '>', '\n']) => some (root, [])
    | some (root, '>' :: rest) =>
      match readChildren rest.length rest with
      | some (ts, tail) =>
        if tail = '\n' :: '<' :: '/' :: (root.name ++ ['>', '\n']) then some (root, ts) else none
      | none => none
    | _ => none
  else none

/-- A reference stands for the one character it is written for. -/
theorem unescape_escapeChar (c : Char) (cs : List Char) :
    unescape none (escapeChar c ++ cs) = c :: unescape none cs := by
  unfold escapeChar entity
  split_ifs with h₁ h₂ h₃ h₄ h₅ h₆ h₇
  · subst h₁; rfl
  · subst h₂; rfl
  · subst h₃; rfl
  · subst h₄; rfl
  · subst h₅; rfl
  · subst h₆; rfl
  · subst h₇; rfl
  · simp [unescape, h₂]

theorem unescape_escape : ∀ cs : List Char, unescape none (escape cs) = cs
  | [] => rfl
  | c :: cs => by
    rw [escape, List.flatMap_cons, unescape_escapeChar]
    exact congrArg (c :: ·) (unescape_escape cs)

theorem quote_not_mem_escapeChar (c : Char) : '"' ∉ escapeChar c := by
  intro h
  unfold escapeChar entity at h
  split_ifs at h with h₁
  · simp at h
  · simp at h
  · simp at h
  · simp at h
  · simp at h
  · simp at h
  · simp at h
  · exact h₁ (List.mem_singleton.1 h).symm

/-- A value ends at the first quotation mark. -/
theorem ne_quote_of_mem_escape {c : Char} {cs : List Char} (h : c ∈ escape cs) : c ≠ '"' := by
  rintro rfl
  obtain ⟨b, -, hb⟩ := List.mem_flatMap.1 h
  exact quote_not_mem_escapeChar b hb

theorem takeWhile_append_of_stop {p : Char → Bool} {l rest : List Char} (hl : ∀ c ∈ l, p c = true)
    (hrest : ∀ c ∈ rest.head?, p c = false) : (l ++ rest).takeWhile p = l := by
  rw [List.takeWhile_append_of_pos hl]
  rcases rest with _ | ⟨c, rest⟩
  · simp
  · simp [hrest c rfl]

theorem dropWhile_append_of_stop {p : Char → Bool} {l rest : List Char} (hl : ∀ c ∈ l, p c = true)
    (hrest : ∀ c ∈ rest.head?, p c = false) : (l ++ rest).dropWhile p = rest := by
  rw [List.dropWhile_append_of_pos hl]
  rcases rest with _ | ⟨c, rest⟩
  · rfl
  · rw [List.dropWhile_cons, hrest c rfl]
    rfl

theorem readAttrs_stop {rest : List Char} (h : rest.head? ≠ some ' ') (n : ℕ) :
    readAttrs n rest = some ([], rest) := by
  unfold readAttrs
  split
  · simp at h
  · rfl

theorem readAttrs_cons {name value cs rest : List Char} (n : ℕ) (hname : ∀ c ∈ name, isName c = true)
    (hvalue : ∀ c ∈ value, c ≠ '"') (h : cs = name ++ '=' :: '"' :: (value ++ '"' :: rest)) :
    readAttrs (n + 1) (' ' :: cs) =
      (readAttrs n rest).map fun r => ((name, unescape none value) :: r.1, r.2) := by
  have hquote : ∀ c ∈ value, decide (c ≠ '"') = true := fun c hc => decide_eq_true (hvalue c hc)
  have hdrop : cs.dropWhile isName = '=' :: '"' :: (value ++ '"' :: rest) := by
    rw [h, dropWhile_append_of_stop hname (by simp [isName])]
  have htake : cs.takeWhile isName = name := by
    rw [h, takeWhile_append_of_stop hname (by simp [isName])]
  have hend : (value ++ '"' :: rest).dropWhile (fun c => decide (c ≠ '"')) = '"' :: rest :=
    dropWhile_append_of_stop hquote (by simp)
  have hval : (value ++ '"' :: rest).takeWhile (fun c => decide (c ≠ '"')) = value :=
    takeWhile_append_of_stop hquote (by simp)
  simp only [readAttrs, hdrop, hend, htake, hval]

/-- The attributes are read up to a character that begins none. -/
theorem readAttrs_write : ∀ (attrs : List (List Char × List Char)) {rest : List Char} {n : ℕ},
    (∀ a ∈ attrs, ∀ c ∈ a.1, isName c = true) → rest.head? ≠ some ' ' → attrs.length ≤ n →
      readAttrs n (writeAttrs attrs ++ rest) = some (attrs, rest)
  | [], rest, n, _, hrest, _ => readAttrs_stop hrest n
  | a :: attrs, rest, 0, _, _, hn => by simp at hn
  | a :: attrs, rest, n + 1, hname, hrest, hn => by
    have htext : writeAttrs (a :: attrs) ++ rest = ' ' :: (a.1 ++ '=' :: '"' ::
        (escape a.2 ++ '"' :: (writeAttrs attrs ++ rest))) := by
      simp [writeAttrs]
    have ih := readAttrs_write attrs (fun b hb => hname b (List.mem_cons_of_mem _ hb)) hrest
      (Nat.le_of_succ_le_succ hn)
    rw [htext, readAttrs_cons n (hname a List.mem_cons_self) (fun _ => ne_quote_of_mem_escape) rfl,
      ih, unescape_escape]
    rfl

theorem length_le_writeAttrs : ∀ attrs : List (List Char × List Char),
    attrs.length ≤ (writeAttrs attrs).length
  | [] => Nat.zero_le _
  | a :: attrs => by
    have ih := length_le_writeAttrs attrs
    simp only [writeAttrs, List.flatMap_cons, List.length_append, List.length_cons] at ih ⊢
    omega

/-- The characters of the names are characters of names. -/
structure Tag.Named (t : Tag) : Prop where
  name : ∀ c ∈ t.name, isName c = true
  attrs : ∀ a ∈ t.attrs, ∀ c ∈ a.1, isName c = true

/-- A tag is read up to its end. -/
theorem readTag_write {t : Tag} (ht : t.Named) {rest : List Char}
    (hrest : ∀ c ∈ rest.head?, c = '/' ∨ c = '>') : readTag (writeTag t ++ rest) = some (t, rest) := by
  have hstop : ∀ c ∈ (writeAttrs t.attrs ++ rest).head?, isName c = false := by
    rcases t.attrs with _ | ⟨a, attrs⟩
    · intro c hc
      rcases hrest c hc with rfl | rfl <;> rfl
    · intro c hc
      obtain rfl : ' ' = c := by simpa [writeAttrs] using hc
      rfl
  have hspace : rest.head? ≠ some ' ' := by
    intro h
    rcases hrest ' ' h with h | h <;> cases h
  have hlen := length_le_writeAttrs t.attrs
  have htext : writeTag t ++ rest = '<' :: (t.name ++ (writeAttrs t.attrs ++ rest)) := by
    simp [writeTag]
  rw [htext, readTag, dropWhile_append_of_stop ht.name hstop, takeWhile_append_of_stop ht.name hstop,
    readAttrs_write t.attrs ht.attrs hspace (by simp only [List.length_append]; omega)]
  rfl

theorem readChildren_cons {t : Tag} {cs rest : List Char} (n : ℕ)
    (h : readTag cs = some (t, '/' :: '>' :: rest)) :
    readChildren (n + 1) ('\n' :: ' ' :: ' ' :: cs) =
      (readChildren n rest).map fun r => (t :: r.1, r.2) := by
  simp only [readChildren, h]

theorem readChildren_write : ∀ (ts : List Tag) {rest : List Char} {n : ℕ}, (∀ t ∈ ts, t.Named) →
    (∀ cs, rest ≠ '\n' :: ' ' :: ' ' :: cs) → ts.length ≤ n →
      readChildren n (writeChildren ts ++ rest) = some (ts, rest)
  | [], rest, n, _, hrest, _ => by
    rw [writeChildren, List.flatMap_nil, List.nil_append]
    unfold readChildren
    split
    · exact (hrest _ rfl).elim
    · rfl
  | t :: ts, rest, 0, _, _, hn => by simp at hn
  | t :: ts, rest, n + 1, hname, hrest, hn => by
    have htext : writeChildren (t :: ts) ++ rest = '\n' :: ' ' :: ' ' ::
        (writeTag t ++ '/' :: '>' :: (writeChildren ts ++ rest)) := by
      simp [writeChildren]
    have ih := readChildren_write ts (fun u hu => hname u (List.mem_cons_of_mem _ hu)) hrest
      (Nat.le_of_succ_le_succ hn)
    rw [htext, readChildren_cons n (readTag_write (hname t List.mem_cons_self) (by simp)), ih]
    rfl

theorem length_le_writeChildren : ∀ ts : List Tag, ts.length ≤ (writeChildren ts).length
  | [] => Nat.zero_le _
  | t :: ts => by
    have ih := length_le_writeChildren ts
    simp only [writeChildren, List.flatMap_cons, List.length_append, List.length_cons] at ih ⊢
    omega

/-- What was written is read back. -/
theorem read_write {root : Tag} {ts : List Tag} (hroot : root.Named) (hts : ∀ t ∈ ts, t.Named) :
    read (write root ts) = some (root, ts) := by
  have hheader (cs : List Char) : header.isPrefixOf (header ++ cs) = true :=
    List.isPrefixOf_iff_prefix.2 (List.prefix_append _ _)
  unfold read write
  rw [if_pos (hheader _), List.drop_left]
  by_cases hne : ts = []
  · rw [if_pos hne, readTag_write hroot (by simp), hne]
    rfl
  · have hchildren (tail : List Char) (htail : ∀ cs, tail ≠ '\n' :: ' ' :: ' ' :: cs) :
        readChildren (writeChildren ts ++ tail).length (writeChildren ts ++ tail) = some (ts, tail) :=
      readChildren_write ts hts htail
        ((length_le_writeChildren ts).trans (List.sublist_append_left _ _).length_le)
    rw [if_neg hne, readTag_write hroot (by simp)]
    simp only [hchildren ('\n' :: '<' :: '/' :: (root.name ++ ['>', '\n'])) (by simp), if_true]

/-! ### Null characters -/

theorem nul_not_mem_escape {cs : List Char} (h : '\x00' ∉ cs) : '\x00' ∉ escape cs := by
  intro hmem
  obtain ⟨c, hc, hmem⟩ := List.mem_flatMap.1 hmem
  have hne : c ≠ '\x00' := fun heq => h (heq ▸ hc)
  unfold escapeChar entity at hmem
  split_ifs at hmem <;> simp [hne.symm] at hmem

theorem nul_not_mem_name {name : List Char} (h : ∀ c ∈ name, isName c = true) : '\x00' ∉ name :=
  fun hmem => absurd (h _ hmem) (by decide)

theorem nul_not_mem_writeTag {t : Tag} (ht : t.Named) (h : ∀ a ∈ t.attrs, '\x00' ∉ a.2) :
    '\x00' ∉ writeTag t := by
  have hattrs : '\x00' ∉ writeAttrs t.attrs := by
    intro hmem
    obtain ⟨a, ha, hmem⟩ := List.mem_flatMap.1 hmem
    simp [nul_not_mem_name (ht.attrs a ha), nul_not_mem_escape (h a ha)] at hmem
  simp [writeTag, nul_not_mem_name ht.name, hattrs]

theorem nul_not_mem_write {root : Tag} {ts : List Tag} (hname : ∀ t ∈ root :: ts, t.Named)
    (h : ∀ t ∈ root :: ts, ∀ a ∈ t.attrs, '\x00' ∉ a.2) : '\x00' ∉ write root ts := by
  have htag (t : Tag) (ht : t ∈ root :: ts) := nul_not_mem_writeTag (hname t ht) (h t ht)
  have hheader : '\x00' ∉ header := by decide
  have hroot := htag root List.mem_cons_self
  have hclose := nul_not_mem_name (hname root List.mem_cons_self).name
  have hchildren : '\x00' ∉ writeChildren ts := by
    intro hmem
    obtain ⟨t, ht, hmem⟩ := List.mem_flatMap.1 hmem
    simp [htag t (List.mem_cons_of_mem _ ht)] at hmem
  unfold write
  split_ifs <;> simp [hheader, hroot, hclose, hchildren]

end Markup
