import Mathlib.Data.List.Basic

/-!
# The text of a list of named strings and booleans

`JSON.stringify` of nested arrays whose leaves are printable ASCII strings and
booleans. No text is a proper prefix of another of its kind, so the text of a
message determines the message.
-/

set_option autoImplicit false

namespace Lib.JsonText

/-- A leaf of a message. -/
inductive Cell where
  | text (s : List Char)
  | flag (b : Bool)
  deriving DecidableEq

abbrev Row := List Char × Cell

/-- One character inside a JSON string. -/
def escape (c : Char) : List Char := if c = '"' ∨ c = '\\' then ['\\', c] else [c]

def quote (s : List Char) : List Char := '"' :: (s.flatMap escape ++ ['"'])

def cell : Cell → List Char
  | .text s => quote s
  | .flag true => ['t', 'r', 'u', 'e']
  | .flag false => ['f', 'a', 'l', 's', 'e']

def row (r : Row) : List Char := '[' :: (quote r.1 ++ ',' :: (cell r.2 ++ [']']))

/-- The items after the first one, and the closing bracket. -/
def tail : List Row → List Char
  | [] => [']']
  | r :: rs => ',' :: (row r ++ tail rs)

def rows : List Row → List Char
  | [] => ['[', ']']
  | r :: rs => '[' :: (row r ++ tail rs)

/-! ## No text is a prefix of another -/

theorem escape_append (c d : Char) (x y : List Char) (h : escape c ++ x = escape d ++ y) :
    c = d ∧ x = y := by
  unfold escape at h
  split at h <;> split at h
  · simpa using h
  · rename_i hd
    simp only [List.cons_append, List.nil_append, List.cons.injEq] at h
    exact absurd (Or.inr h.1.symm) hd
  · rename_i hc hd
    simp only [List.cons_append, List.nil_append, List.cons.injEq] at h
    exact absurd (Or.inr h.1) hc
  · simpa using h

theorem escape_append_ne_quote (c : Char) (x y : List Char) : escape c ++ x ≠ '"' :: y := by
  unfold escape
  split
  · simp
  · rename_i h
    intro heq
    simp only [List.cons_append, List.nil_append, List.cons.injEq] at heq
    exact h (Or.inl heq.1)

theorem body_append (s t x y : List Char)
    (h : s.flatMap escape ++ '"' :: x = t.flatMap escape ++ '"' :: y) : s = t ∧ x = y := by
  induction s generalizing t with
  | nil =>
    cases t with
    | nil => simpa using h
    | cons d t =>
      rw [List.flatMap_cons, List.append_assoc] at h
      exact absurd h.symm (escape_append_ne_quote d _ _)
  | cons c s ih =>
    cases t with
    | nil =>
      rw [List.flatMap_cons, List.append_assoc] at h
      exact absurd h (escape_append_ne_quote c _ _)
    | cons d t =>
      rw [List.flatMap_cons, List.flatMap_cons, List.append_assoc, List.append_assoc] at h
      obtain ⟨rfl, hrest⟩ := escape_append c d _ _ h
      obtain ⟨rfl, rfl⟩ := ih t hrest
      exact ⟨rfl, rfl⟩

theorem quote_append (s t x y : List Char) (h : quote s ++ x = quote t ++ y) : s = t ∧ x = y := by
  simp only [quote, List.cons_append, List.append_assoc, List.cons.injEq, true_and] at h
  exact body_append s t x y h

theorem cell_append (a b : Cell) (x y : List Char) (h : cell a ++ x = cell b ++ y) :
    a = b ∧ x = y := by
  cases a with
  | text s =>
    cases b with
    | text t =>
      obtain ⟨rfl, rfl⟩ := quote_append s t x y h
      exact ⟨rfl, rfl⟩
    | flag b => cases b <;> simp [cell, quote] at h
  | flag a =>
    cases b with
    | text t => cases a <;> simp [cell, quote] at h
    | flag b => cases a <;> cases b <;> simp_all [cell]

theorem row_append (a b : Row) (x y : List Char) (h : row a ++ x = row b ++ y) : a = b ∧ x = y := by
  simp only [row, List.cons_append, List.append_assoc, List.cons.injEq, true_and] at h
  obtain ⟨hname, hrest⟩ := quote_append _ _ _ _ h
  rw [List.cons.injEq] at hrest
  obtain ⟨hcell, hclose⟩ := cell_append _ _ _ _ hrest.2
  simp only [List.nil_append, List.cons.injEq, true_and] at hclose
  exact ⟨Prod.ext hname hcell, hclose⟩

theorem tail_append (as bs : List Row) (x y : List Char) (h : tail as ++ x = tail bs ++ y) :
    as = bs ∧ x = y := by
  induction as generalizing bs with
  | nil =>
    cases bs with
    | nil => simpa [tail] using h
    | cons b bs => simp [tail] at h
  | cons a as ih =>
    cases bs with
    | nil => simp [tail] at h
    | cons b bs =>
      simp only [tail, List.cons_append, List.append_assoc, List.cons.injEq, true_and] at h
      obtain ⟨rfl, hrest⟩ := row_append a b _ _ h
      obtain ⟨rfl, rfl⟩ := ih bs hrest
      exact ⟨rfl, rfl⟩

theorem rows_append (as bs : List Row) (x y : List Char) (h : rows as ++ x = rows bs ++ y) :
    as = bs ∧ x = y := by
  cases as with
  | nil =>
    cases bs with
    | nil => simpa [rows] using h
    | cons b bs => simp [rows, row] at h
  | cons a as =>
    cases bs with
    | nil => simp [rows, row] at h
    | cons b bs =>
      simp only [rows, List.cons_append, List.append_assoc, List.cons.injEq, true_and] at h
      obtain ⟨rfl, hrest⟩ := row_append a b _ _ h
      obtain ⟨rfl, rfl⟩ := tail_append as bs x y hrest
      exact ⟨rfl, rfl⟩

end Lib.JsonText
