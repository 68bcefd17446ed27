import Mathlib.Algebra.Order.BigOperators.Group.Finset
import Mathlib.Data.Fintype.BigOperators

/-!
# Totals over a finite set of keys

How `∑ k, f k` moves when the function changes at one key.
-/

set_option autoImplicit false

namespace Lib.Totals

open Function

variable {K : Type*} [Fintype K] [DecidableEq K]

theorem sum_update (f : K → Nat) (k : K) (v : Nat) :
    ∑ x, update f k v x + f k = ∑ x, f x + v := by
  rw [Finset.sum_update_of_mem (Finset.mem_univ k), ← Finset.erase_eq]
  have := Finset.sum_erase_add Finset.univ f (Finset.mem_univ k)
  omega

theorem sum_update_of_eq (f : K → Nat) (k : K) (v d : Nat) (h : v = f k + d) :
    ∑ x, update f k v x = ∑ x, f x + d := by
  have := sum_update f k v
  omega

theorem sum_comp_update {V : Type*} (m : V → Nat) (f : K → V) (k : K) (v : V) :
    ∑ x, m (update f k v x) + m (f k) = ∑ x, m (f x) + m v := by
  have h : (fun x => m (update f k v x)) = update (fun x => m (f x)) k (m v) := by
    funext x
    by_cases hx : x = k
    · subst hx; simp
    · simp [update_of_ne hx]
  calc ∑ x, m (update f k v x) + m (f k)
      = ∑ x, update (fun x => m (f x)) k (m v) x + m (f k) := by rw [h]
    _ = ∑ x, m (f x) + m v := sum_update _ k (m v)

end Lib.Totals
