import Mathlib.Order.Lex
import Mathlib.Order.RelClasses
import Mathlib.Data.Prod.Lex
import Mathlib.Algebra.Order.Field.Rat

/-!
# The head of a sorted list

A merge sort whose comparison agrees with a linear order of keys starts with an
element of least key. The keys here are a rate, a size and an age: a greater
rate first, then a greater size, then a smaller age.
-/

set_option autoImplicit false

namespace Lib.Sort

section Head

variable {α β : Type*} [LinearOrder β] {key : α → β} {le : α → α → Bool} {l : List α} {b : α}

theorem head?_mergeSort_le (hle : ∀ a ∈ l, ∀ c ∈ l, le a c = decide (key a ≤ key c))
    (h : (l.mergeSort le).head? = some b) : b ∈ l ∧ ∀ a ∈ l, key b ≤ key a := by
  have hmem : b ∈ l := List.mem_mergeSort.mp (List.mem_of_mem_head? h)
  refine ⟨hmem, ?_⟩
  have hkeys : (l.map key).mergeSort (fun x y => decide (x ≤ y)) = (l.mergeSort le).map key :=
    (List.map_mergeSort hle).symm
  have hsorted : ((l.mergeSort le).map key).Pairwise fun x y => decide (x ≤ y) = true := by
    rw [← hkeys]
    apply List.pairwise_mergeSort
    · simp only [decide_eq_true_eq]
      intro x y z
      exact le_trans
    · intro x y
      simp only [Bool.or_eq_true, decide_eq_true_eq]
      exact le_total x y
  intro a ha
  obtain ⟨rest, hrest⟩ := List.head?_eq_some_iff.mp h
  rw [hrest, List.map_cons, List.pairwise_cons] at hsorted
  have hmem : a ∈ l.mergeSort le := List.mem_mergeSort.mpr ha
  rw [hrest, List.mem_cons] at hmem
  rcases hmem with rfl | ha
  · exact le_rfl
  · exact of_decide_eq_true (hsorted.1 _ (List.mem_map_of_mem ha))

theorem head?_mergeSort_eq_none (h : (l.mergeSort le).head? = none) : l = [] := by
  rw [List.head?_eq_none_iff] at h
  have hlen : (l.mergeSort le).length = l.length := List.length_mergeSort l
  rw [h] at hlen
  exact List.length_eq_zero_iff.mp hlen.symm

end Head

/-! ## Offers -/

/-- So much is given for so much, since then. -/
structure Offer where
  gives : ℕ
  asks : ℕ
  since : ℕ

namespace Offer

def Positive (o : Offer) : Prop := 0 < o.gives ∧ 0 < o.asks

/-- The better rate by cross multiplication, then the greater size, then the older. -/
def Better (a b : Offer) : Prop :=
  b.gives * a.asks < a.gives * b.asks ∨
    (a.gives * b.asks = b.gives * a.asks ∧
      (b.gives < a.gives ∨ (a.gives = b.gives ∧ a.since < b.since)))

instance (a b : Offer) : Decidable (Better a b) := by
  unfold Better
  infer_instance

def key (o : Offer) : ℚᵒᵈ ×ₗ ℕᵒᵈ ×ₗ ℕ :=
  toLex (OrderDual.toDual ((o.gives : ℚ) / o.asks), toLex (OrderDual.toDual o.gives, o.since))

variable {a b : Offer}

theorem rate_lt (ha : a.Positive) (hb : b.Positive) :
    (b.gives : ℚ) / b.asks < a.gives / a.asks ↔ b.gives * a.asks < a.gives * b.asks := by
  have hasks : (0 : ℚ) < a.asks := Nat.cast_pos.mpr ha.2
  have hbsks : (0 : ℚ) < b.asks := Nat.cast_pos.mpr hb.2
  rw [div_lt_div_iff₀ hbsks hasks]
  exact_mod_cast Iff.rfl

theorem rate_eq (ha : a.Positive) (hb : b.Positive) :
    (a.gives : ℚ) / a.asks = b.gives / b.asks ↔ a.gives * b.asks = b.gives * a.asks := by
  have hasks : (a.asks : ℚ) ≠ 0 := Nat.cast_ne_zero.mpr ha.2.ne'
  have hbsks : (b.asks : ℚ) ≠ 0 := Nat.cast_ne_zero.mpr hb.2.ne'
  rw [div_eq_div_iff hasks hbsks]
  exact_mod_cast Iff.rfl

theorem better_iff (ha : a.Positive) (hb : b.Positive) : Better a b ↔ key a < key b := by
  unfold Better key
  rw [Prod.Lex.toLex_lt_toLex, Prod.Lex.toLex_lt_toLex]
  simp only [OrderDual.toDual_lt_toDual, OrderDual.toDual_inj, rate_lt ha hb, rate_eq ha hb]

theorem better_isStrictWeakOrder :
    IsStrictWeakOrder {o : Offer // o.Positive} fun a b => Better a.val b.val where
  irrefl a h := lt_irrefl _ ((better_iff a.property a.property).mp h)
  trans a b c hab hbc := by
    rw [better_iff a.property b.property] at hab
    rw [better_iff b.property c.property] at hbc
    rw [better_iff a.property c.property]
    exact lt_trans hab hbc
  incomp_trans a b c hab hbc := by
    rw [better_iff a.property b.property, better_iff b.property a.property, not_lt, not_lt] at hab
    rw [better_iff b.property c.property, better_iff c.property b.property, not_lt, not_lt] at hbc
    rw [better_iff a.property c.property, better_iff c.property a.property, not_lt, not_lt]
    exact ⟨le_trans hbc.1 hab.1, le_trans hab.2 hbc.2⟩

end Offer

end Lib.Sort
