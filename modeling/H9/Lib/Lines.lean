import Mathlib

/-!
# Lines

A line is a text up to an element that ends it, and has no such element before its last. A stream
is a number of lines and what follows the last of them, in one way only.
-/

namespace Lines

variable {α : Type*} (ends : α → Bool)

/-- What one more element makes of the lines so far and of the rest behind them. -/
def next (s : List (List α) × List α) (a : α) : List (List α) × List α :=
  if ends a then (s.1 ++ [s.2 ++ [a]], []) else (s.1, s.2 ++ [a])

/-- The lines of a stream, each with the element that ends it, and what follows the last. -/
def split (as : List α) : List (List α) × List α := as.foldl (next ends) ([], [])

/-- The lines of a stream. -/
def lines (as : List α) : List (List α) := (split ends as).1

/-- What follows the last line. -/
def rest (as : List α) : List α := (split ends as).2

/-- One line, with its end. -/
def IsLine (l : List α) : Prop := ∃ as a, l = as ++ [a] ∧ ends a = true ∧ ∀ b ∈ as, ends b = false

variable {ends}

@[simp] theorem lines_nil : lines ends [] = [] := rfl

@[simp] theorem rest_nil : rest ends [] = [] := rfl

theorem split_append_singleton (as : List α) (a : α) :
    split ends (as ++ [a]) = next ends (split ends as) a := by
  rw [split, List.foldl_append]
  rfl

theorem lines_append_end (as : List α) {a : α} (h : ends a = true) :
    lines ends (as ++ [a]) = lines ends as ++ [rest ends as ++ [a]] := by
  rw [lines, split_append_singleton, next, if_pos h]
  rfl

theorem rest_append_end (as : List α) {a : α} (h : ends a = true) : rest ends (as ++ [a]) = [] := by
  rw [rest, split_append_singleton, next, if_pos h]

theorem lines_append_inside (as : List α) {a : α} (h : ends a = false) :
    lines ends (as ++ [a]) = lines ends as := by
  rw [lines, split_append_singleton, next, if_neg (by simp [h])]
  rfl

theorem rest_append_inside (as : List α) {a : α} (h : ends a = false) :
    rest ends (as ++ [a]) = rest ends as ++ [a] := by
  rw [rest, split_append_singleton, next, if_neg (by simp [h])]
  rfl

theorem lines_prefix (as : List α) : ∀ bs : List α, lines ends as <+: lines ends (as ++ bs)
  | [] => by simp
  | b :: bs => by
    rw [List.append_cons]
    refine List.IsPrefix.trans ?_ ( lines_prefix (as ++ [b]) bs)
    cases h : ends b with
    | true => exact lines_append_end as h ▸ List.prefix_append _ _
    | false => exact lines_append_inside as h ▸ List.prefix_rfl

theorem rest_inside : ∀ as : List α, ∀ b ∈ rest ends as, ends b = false := by
  intro as
  induction as using List.reverseRecOn with
  | nil => simp
  | append_singleton as a ih =>
    cases h : ends a with
    | true => simp [rest_append_end as h]
    | false =>
      rw [rest_append_inside as h, List.forall_mem_append, List.forall_mem_singleton]
      exact ⟨ih, h⟩

theorem isLine_of_mem : ∀ {as : List α}, ∀ l ∈ lines ends as, IsLine ends l := by
  intro as
  induction as using List.reverseRecOn with
  | nil => simp
  | append_singleton as a ih =>
    cases h : ends a with
    | true =>
      rw [lines_append_end as h, List.forall_mem_append, List.forall_mem_singleton]
      exact ⟨ih, rest ends as, a, rfl, h, rest_inside as⟩
    | false => rwa [lines_append_inside as h]

/-- A line behind a stream that stopped between two lines. -/
theorem split_append_line {as l : List α} (has : rest ends as = []) (hl : IsLine ends l) :
    lines ends (as ++ l) = lines ends as ++ [l] ∧ rest ends (as ++ l) = [] := by
  obtain ⟨bs, a, rfl, ha, hbs⟩ := hl
  have hinside : lines ends (as ++ bs) = lines ends as ∧ rest ends (as ++ bs) = bs := by
    induction bs using List.reverseRecOn with
    | nil => simpa using has
    | append_singleton bs b ih =>
      rw [List.forall_mem_append, List.forall_mem_singleton] at hbs
      obtain ⟨hlines, hrest⟩ := ih hbs.1
      rw [← List.append_assoc, lines_append_inside _ hbs.2, rest_append_inside _ hbs.2, hlines, hrest]
      exact ⟨rfl, rfl⟩
  rw [← List.append_assoc, lines_append_end _ ha, rest_append_end _ ha, hinside.1, hinside.2]
  exact ⟨rfl, rfl⟩

/-- A line in front of a stream. -/
theorem split_line_append {l : List α} (hl : IsLine ends l) (as : List α) :
    lines ends (l ++ as) = l :: lines ends as ∧ rest ends (l ++ as) = rest ends as := by
  induction as using List.reverseRecOn with
  | nil =>
    have hnil : rest ends ([] : List α) = [] := rfl
    rw [List.append_nil]
    exact split_append_line hnil hl
  | append_singleton as a ih =>
    rw [← List.append_assoc]
    cases h : ends a with
    | true =>
      rw [lines_append_end _ h, lines_append_end _ h, rest_append_end _ h, rest_append_end _ h, ih.1, ih.2]
      exact ⟨rfl, rfl⟩
    | false =>
      rw [lines_append_inside _ h, lines_append_inside _ h, rest_append_inside _ h,
        rest_append_inside _ h, ih.1, ih.2]
      exact ⟨rfl, rfl⟩

/-- A text without an end is what follows no line. -/
theorem split_of_inside {as : List α} (h : ∀ b ∈ as, ends b = false) :
    lines ends as = [] ∧ rest ends as = as := by
  induction as using List.reverseRecOn with
  | nil => exact ⟨rfl, rfl⟩
  | append_singleton as b ih =>
    rw [List.forall_mem_append, List.forall_mem_singleton] at h
    rw [lines_append_inside _ h.2, rest_append_inside _ h.2, (ih h.1).1, (ih h.1).2]
    exact ⟨rfl, rfl⟩

/-- The lines of lines one after another are these lines. -/
theorem lines_flatten {ls : List (List α)} (h : ∀ l ∈ ls, IsLine ends l) :
    lines ends ls.flatten = ls ∧ rest ends ls.flatten = [] := by
  induction ls using List.reverseRecOn with
  | nil => exact ⟨rfl, rfl⟩
  | append_singleton ls l ih =>
    rw [List.forall_mem_append, List.forall_mem_singleton] at h
    obtain ⟨hlines, hrest⟩ := ih h.1
    rw [List.flatten_append, List.flatten_singleton, (split_append_line hrest h.2).1,
      (split_append_line hrest h.2).2, hlines]
    exact ⟨rfl, rfl⟩

end Lines
