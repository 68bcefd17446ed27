import Mathlib.Data.List.Count
import Mathlib.Data.List.Basic

/-!
# Permits

What a counter has handed out, and to whom. Whoever holds a permit may give it back more than once;
only the first time counts.
-/

set_option autoImplicit false

namespace Lib.Permits

variable {α : Type*}

structure Permit (α : Type*) where
  holder : α
  released : Bool := false
  deriving DecidableEq, Repr

/-- The permits in the order in which they were handed out. -/
abbrev Ledger (α : Type*) := List (Permit α)

def issue (l : Ledger α) (a : α) : Ledger α := l ++ [{ holder := a }]

/-- The holder of a permit that has not been given back. -/
def outstanding (l : Ledger α) (k : ℕ) : Option α :=
  l[k]?.bind fun p => if p.released then none else some p.holder

def giveBack (l : Ledger α) (k : ℕ) : Ledger α := l.modify k fun p => { p with released := true }

/-- How many permits are out with the holders that `P` describes. -/
def held (P : α → Bool) (l : Ledger α) : ℕ := l.countP fun p => !p.released && P p.holder

variable {P Q : α → Bool} {l : Ledger α} {a : α} {k : ℕ}

@[simp] theorem held_nil : held P [] = 0 := rfl

theorem held_issue : held P (issue l a) = held P l + if P a then 1 else 0 := by
  unfold held issue
  rw [List.countP_append, List.countP_singleton]
  rfl

theorem held_mono (h : ∀ a, P a = true → Q a = true) : held P l ≤ held Q l := by
  unfold held
  apply List.countP_mono_left
  intro p _ hp
  rw [Bool.and_eq_true] at hp ⊢
  exact ⟨hp.1, h p.holder hp.2⟩

theorem held_giveBack (h : outstanding l k = some a) :
    held P l = held P (giveBack l k) + if P a then 1 else 0 := by
  unfold outstanding at h
  obtain ⟨p, hp, hholder⟩ := Option.bind_eq_some_iff.mp h
  split at hholder
  · cases hholder
  rename_i hout
  cases hholder
  obtain ⟨hk, rfl⟩ := List.getElem?_eq_some_iff.mp hp
  unfold held giveBack
  rw [List.modify_eq_take_cons_drop hk]
  conv_lhs => rw [← List.take_append_drop k l, List.drop_eq_getElem_cons hk]
  rw [List.countP_append, List.countP_append, List.countP_cons, List.countP_cons]
  simp only [Bool.not_eq_true] at hout
  simp only [hout, Bool.not_false, Bool.true_and, Bool.not_true, Bool.false_and, Bool.false_eq_true,
    if_false]
  omega

theorem held_giveBack_le (h : outstanding l k = some a) : held P (giveBack l k) ≤ held P l := by
  rw [held_giveBack h]
  exact Nat.le_add_right _ _

end Lib.Permits
