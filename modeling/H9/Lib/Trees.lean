import H9.Lib.Markup

/-!
# Elements in elements as text

A forest is what stands in an element: elements that carry a text and elements that carry others.
It is written with an element a line, each two blanks further in than the one around it, and read
back from these lines.
-/

namespace Markup

/-- Elements beside each other, in each a text, which may be empty, or more of them. -/
inductive Forest
  | nil
  | leaf (tag : Tag) (text : List Char) (rest : Forest)
  | branch (tag : Tag) (children rest : Forest)

namespace Forest

/-- The end of a line and the blanks at the start of the next one. -/
def newline (depth : ℕ) : List Char := '\n' :: List.replicate (2 * depth) ' '

def closing (t : Tag) : List Char := '<' :: '/' :: (t.name ++ ['>'])

def writeText (t : Tag) (text : List Char) : List Char :=
  if text = [] then ['/', '>'] else '>' :: (escape text ++ closing t)

def write (depth : ℕ) : Forest → List Char
  | nil => []
  | leaf t text rest => newline depth ++ (writeTag t ++ (writeText t text ++ write depth rest))
  | branch t children rest =>
    newline depth ++ (writeTag t ++ '>' :: (write (depth + 1) children ++
      (newline depth ++ (closing t ++ write depth rest))))

/-- What follows `start` in the text. -/
def strip (start cs : List Char) : Option (List Char) :=
  if start.isPrefixOf cs then some (cs.drop start.length) else none

/-- The elements at the start of the text, no more than `n`, and what follows them. -/
def read : ℕ → ℕ → List Char → Option (Forest × List Char)
  | 0, _, cs => some (nil, cs)
  | n + 1, depth, cs =>
    match (strip (newline depth) cs).bind readTag with
    | some (t, '/' :: '>' :: rest) => (read n depth rest).map fun r => (leaf t [] r.1, r.2)
    | some (t, '>' :: body) =>
      match strip (closing t) (body.dropWhile (· ≠ '<')) with
      | some rest => (read n depth rest).map fun r =>
        (leaf t (unescape none (body.takeWhile (· ≠ '<'))) r.1, r.2)
      | none =>
        (read n (depth + 1) body).bind fun c =>
          (strip (newline depth ++ closing t) c.2).bind fun rest =>
            (read n depth rest).map fun r => (branch t c.1 r.1, r.2)
    | _ => some (nil, cs)

/-- The elements have names, and a branch has elements in it. -/
inductive Proper : Forest → Prop
  | nil : Proper nil
  | leaf {t : Tag} {text : List Char} {rest : Forest} :
    t.Named → t.name ≠ [] → Proper rest → Proper (leaf t text rest)
  | branch {t : Tag} {children rest : Forest} :
    t.Named → t.name ≠ [] → children ≠ Forest.nil → Proper children → Proper rest →
      Proper (branch t children rest)

/-- How many elements there are. -/
def size : Forest → ℕ
  | nil => 0
  | leaf _ _ rest => rest.size + 1
  | branch _ children rest => children.size + rest.size + 1

theorem strip_append (start cs : List Char) : strip start (start ++ cs) = some cs := by
  have hstart : start.isPrefixOf (start ++ cs) = true :=
    List.isPrefixOf_iff_prefix.2 (List.prefix_append _ _)
  rw [strip, if_pos hstart, List.drop_left]

theorem strip_eq_some {start cs rest : List Char} (h : strip start cs = some rest) :
    cs = start ++ rest := by
  unfold strip at h
  split_ifs at h with hstart
  obtain ⟨tail, rfl⟩ := List.isPrefixOf_iff_prefix.1 hstart
  rw [List.drop_left] at h
  rw [Option.some.inj h]

theorem size_le_write : ∀ (f : Forest) (depth : ℕ), f.size ≤ (f.write depth).length
  | nil, _ => Nat.zero_le _
  | leaf t text rest, depth => by
    have ih := size_le_write rest depth
    simp only [size, write, newline, List.length_append, List.length_cons]
    omega
  | branch t children rest, depth => by
    have ih := size_le_write children (depth + 1)
    have ih' := size_le_write rest depth
    simp only [size, write, newline, List.length_append, List.length_cons]
    omega

/-- A text ends at the first tag. -/
theorem ne_lt_of_mem_escape {c : Char} {cs : List Char} (h : c ∈ escape cs) : c ≠ '<' := by
  rintro rfl
  obtain ⟨b, -, hb⟩ := List.mem_flatMap.1 h
  unfold escapeChar entity at hb
  split_ifs at hb <;> simp at hb
  case _ h₁ h₂ h₃ h₄ h₅ h₆ h₇ => exact h₃ hb.symm

/-- What follows the elements at `depth` begins none. -/
def Outer (depth : ℕ) (rest : List Char) : Prop := (strip (newline depth) rest).bind readTag = none

theorem read_outer {depth : ℕ} {rest : List Char} (h : Outer depth rest) :
    ∀ n, read n depth rest = some (nil, rest)
  | 0 => rfl
  | n + 1 => by
    rw [read, h]

theorem outer_closing (t : Tag) (depth : ℕ) (rest : List Char) :
    Outer (depth + 1) (newline depth ++ (closing t ++ rest)) := by
  have hnone : strip (newline (depth + 1)) (newline depth ++ (closing t ++ rest)) = none := by
    rcases h : strip (newline (depth + 1)) (newline depth ++ (closing t ++ rest)) with _ | tail
    · rfl
    · have heq := strip_eq_some h
      have hblank : List.replicate (2 * (depth + 1)) ' ' = List.replicate (2 * depth) ' ' ++ [' ', ' '] := by
        rw [Nat.mul_add, List.replicate_add]
        rfl
      simp only [newline, hblank, List.cons_append, List.append_assoc, List.cons.injEq, true_and,
        List.append_cancel_left_eq, closing] at heq
      cases heq.1
  rw [Outer, hnone]
  rfl

theorem read_tag {t : Tag} (ht : t.Named) (depth : ℕ) {rest : List Char}
    (hrest : ∀ c ∈ rest.head?, c = '/' ∨ c = '>') :
    (strip (newline depth) (newline depth ++ (writeTag t ++ rest))).bind readTag = some (t, rest) := by
  rw [strip_append, Option.bind_some, readTag_write ht hrest]

theorem dropWhile_escape (text : List Char) (t : Tag) (rest : List Char) :
    (escape text ++ (closing t ++ rest)).dropWhile (fun c => decide (c ≠ '<')) = closing t ++ rest :=
  dropWhile_append_of_stop (fun _ hc => decide_eq_true (ne_lt_of_mem_escape hc)) (by simp [closing])

theorem takeWhile_escape (text : List Char) (t : Tag) (rest : List Char) :
    (escape text ++ (closing t ++ rest)).takeWhile (fun c => decide (c ≠ '<')) = escape text :=
  takeWhile_append_of_stop (fun _ hc => decide_eq_true (ne_lt_of_mem_escape hc)) (by simp [closing])

theorem read_leaf {t : Tag} (ht : t.Named) (text : List Char) (n depth : ℕ) (rest : List Char) :
    read (n + 1) depth (newline depth ++ (writeTag t ++ (writeText t text ++ rest))) =
      (read n depth rest).map fun r => (leaf t text r.1, r.2) := by
  unfold writeText
  split_ifs with hempty
  · rw [read, read_tag ht depth (by simp), hempty]
    rfl
  · rw [read, read_tag ht depth (by simp)]
    simp only [List.cons_append, List.append_assoc, dropWhile_escape, takeWhile_escape, strip_append,
      unescape_escape]

/-- The first tag in a branch is not the end of it. -/
theorem strip_closing_write {f : Forest} (hf : f.Proper) (hne : f ≠ nil) (t : Tag) (depth : ℕ)
    (rest : List Char) :
    strip (closing t) ((f.write depth ++ rest).dropWhile (fun c => decide (c ≠ '<'))) = none := by
  have hdrop (u : Tag) (tail : List Char) : (newline depth ++ (writeTag u ++ tail)).dropWhile
      (fun c => decide (c ≠ '<')) = writeTag u ++ tail := by
    refine dropWhile_append_of_stop (fun c hc => decide_eq_true ?_) (by simp [writeTag])
    rintro rfl
    simp [newline] at hc
  have hstrip (u : Tag) (hu : u.Named) (hname : u.name ≠ []) (tail : List Char) :
      strip (closing t) (writeTag u ++ tail) = none := by
    rcases h : strip (closing t) (writeTag u ++ tail) with _ | tail'
    · rfl
    · obtain ⟨c, name, hc⟩ := List.exists_cons_of_ne_nil hname
      have heq := strip_eq_some h
      simp only [writeTag, closing, hc, List.cons_append, List.cons.injEq] at heq
      have hslash := hu.name c (by rw [hc]; exact List.mem_cons_self)
      rw [heq.2.1] at hslash
      cases hslash
  cases hf with
  | nil => exact absurd rfl hne
  | leaf hu hname _ => rw [write, List.append_assoc, List.append_assoc, hdrop, hstrip _ hu hname]
  | branch hu hname _ _ _ => rw [write, List.append_assoc, List.append_assoc, hdrop, hstrip _ hu hname]

/-- The elements that were written are read back. -/
theorem read_write {f : Forest} (hf : f.Proper) : ∀ {n depth : ℕ} {rest : List Char}, f.size ≤ n →
    Outer depth rest → read n depth (f.write depth ++ rest) = some (f, rest) := by
  induction hf with
  | nil =>
    intro n depth rest _ hrest
    exact read_outer hrest n
  | @leaf t text next ht hname hnext ih =>
    intro n depth rest hn hrest
    obtain ⟨n, rfl⟩ : ∃ m, n = m + 1 := ⟨n - 1, by simp only [size] at hn; omega⟩
    simp only [write, List.append_assoc]
    rw [read_leaf ht, ih (by simp only [size] at hn; omega) hrest]
    rfl
  | @branch t children next ht hname hne hchildren hnext ihc ih =>
    intro n depth rest hn hrest
    obtain ⟨n, rfl⟩ : ∃ m, n = m + 1 := ⟨n - 1, by simp only [size] at hn; omega⟩
    have hinner : read n (depth + 1) (children.write (depth + 1) ++
        (newline depth ++ (closing t ++ (next.write depth ++ rest)))) =
          some (children, newline depth ++ (closing t ++ (next.write depth ++ rest))) :=
      ihc (by simp only [size] at hn; omega) (outer_closing t depth (next.write depth ++ rest))
    have hend : strip (newline depth ++ closing t)
        (newline depth ++ (closing t ++ (next.write depth ++ rest))) =
          some (next.write depth ++ rest) := by
      rw [← List.append_assoc, strip_append]
    simp only [write, List.append_assoc, List.cons_append]
    rw [read, read_tag ht depth (by simp)]
    simp only [strip_closing_write hchildren hne, hinner, Option.bind_some, hend]
    rw [ih (by simp only [size] at hn; omega) hrest]
    rfl

/-! ### Null characters -/

/-- The texts and the values of the attributes. -/
def texts : Forest → List (List Char)
  | nil => []
  | leaf t text rest => text :: (t.attrs.map Prod.snd ++ rest.texts)
  | branch t children rest => t.attrs.map Prod.snd ++ (children.texts ++ rest.texts)

theorem nul_not_mem_newline (depth : ℕ) : '\x00' ∉ newline depth := by
  simp [newline]

theorem nul_not_mem_closing {t : Tag} (ht : t.Named) : '\x00' ∉ closing t := by
  simp [closing, nul_not_mem_name ht.name]

theorem nul_not_mem_write {f : Forest} (hf : f.Proper) (h : ∀ text ∈ f.texts, '\x00' ∉ text) :
    ∀ depth, '\x00' ∉ f.write depth := by
  induction hf with
  | nil => simp [write]
  | @leaf t text next ht _ _ ih =>
    intro depth
    have htag : '\x00' ∉ writeTag t := nul_not_mem_writeTag ht fun a ha =>
      h a.2 (by simp only [texts, List.mem_cons, List.mem_append]; exact .inr (.inl (List.mem_map_of_mem ha)))
    have htext : '\x00' ∉ writeText t text := by
      unfold writeText
      split_ifs
      · simp
      · simp [nul_not_mem_closing ht, nul_not_mem_escape (h text List.mem_cons_self)]
    have hnext := ih (fun s hs => h s (by simp [texts, hs])) depth
    simp [write, nul_not_mem_newline, htag, htext, hnext]
  | @branch t children next ht _ _ _ _ ihc ih =>
    intro depth
    have htag : '\x00' ∉ writeTag t := nul_not_mem_writeTag ht fun a ha =>
      h a.2 (by simp only [texts, List.mem_append]; exact .inl (List.mem_map_of_mem ha))
    have hchildren := ihc (fun s hs => h s (by simp [texts, hs])) (depth + 1)
    have hnext := ih (fun s hs => h s (by simp [texts, hs])) depth
    simp [write, nul_not_mem_newline, nul_not_mem_closing ht, htag, hchildren, hnext]

end Forest

/-! ### Documents -/

def declaration : List Char := "<?xml version=\"1.0\"?>".toList

/-- The document with `f` in it, a line behind the declaration. -/
def writeDoc (f : Forest) : List Char := declaration ++ (f.write 0 ++ ['\n'])

def readDoc (cs : List Char) : Option Forest :=
  ((Forest.strip declaration cs).bind fun rest => Forest.read rest.length 0 rest).bind fun r =>
    if r.2 = ['\n'] then some r.1 else none

theorem readDoc_writeDoc {f : Forest} (hf : f.Proper) : readDoc (writeDoc f) = some f := by
  have hlen := Forest.size_le_write f 0
  have houter : Forest.Outer 0 ['\n'] := rfl
  have hread : Forest.read (f.write 0 ++ ['\n']).length 0 (f.write 0 ++ ['\n']) = some (f, ['\n']) :=
    Forest.read_write hf (by rw [List.length_append]; omega) houter
  simp only [readDoc, writeDoc, Forest.strip_append, Option.bind_some, hread, if_true]

theorem nul_not_mem_writeDoc {f : Forest} (hf : f.Proper) (h : ∀ text ∈ f.texts, '\x00' ∉ text) :
    '\x00' ∉ writeDoc f := by
  have hdeclaration : '\x00' ∉ declaration := by decide
  simp [writeDoc, hdeclaration, Forest.nul_not_mem_write hf h]

end Markup
