import Mathlib.Data.Int.Log
import Mathlib.Data.Rat.Floor
import Mathlib.Tactic.Ring

/-!
# Doubles by their values

A finite double stands for the rational that it is; `round` is rounding to the nearest double, to
the even one of two. What is a double keeps its value, and what is too big becomes infinite.
-/

set_option autoImplicit false

namespace Lib

inductive Double
  | nan
  | infinite (negative : Bool)
  | finite (q : ℚ)
  deriving DecidableEq

namespace Double

/-- The exponent of the last place of a double near `q`. -/
def lastPlace (q : ℚ) : ℤ := max (Int.log 2 |q| - 52) (-1074)

def halfEven (x : ℚ) : ℤ :=
  let rest := x - ⌊x⌋
  if rest < 1 / 2 then ⌊x⌋
  else if 1 / 2 < rest then ⌊x⌋ + 1
  else if ⌊x⌋ % 2 = 0 then ⌊x⌋
  else ⌊x⌋ + 1

/-- The least power of two that is no double. -/
def limit : ℚ := 2 ^ (1024 : ℤ)

def nearest (q : ℚ) : ℚ := halfEven (q / 2 ^ lastPlace q) * 2 ^ lastPlace q

def round (q : ℚ) : Double :=
  if limit ≤ |nearest q| then infinite (q < 0) else finite (nearest q)

theorem halfEven_intCast (n : ℤ) : halfEven n = n := by
  unfold halfEven
  rw [Int.floor_intCast, sub_self]
  exact if_pos one_half_pos

theorem floor_le_halfEven (x : ℚ) : ⌊x⌋ ≤ halfEven x := by
  unfold halfEven
  dsimp only
  split_ifs <;> omega

/-- Every double is a whole number of last places. -/
theorem nearest_exact {m e : ℤ} (hm : |m| < 2 ^ 53) (he : -1074 ≤ e) :
    nearest ((m : ℚ) * 2 ^ e) = (m : ℚ) * 2 ^ e := by
  have htwo : (2 : ℚ) ≠ 0 := two_ne_zero
  by_cases hzero : m = 0
  · subst hzero
    have hhalf : halfEven 0 = 0 := by simpa using halfEven_intCast 0
    unfold nearest
    rw [Int.cast_zero, zero_mul, zero_div, hhalf, Int.cast_zero, zero_mul]
  have hplace : lastPlace ((m : ℚ) * 2 ^ e) ≤ e := by
    have hpos : 0 < |(m : ℚ) * 2 ^ e| :=
      abs_pos.mpr (mul_ne_zero (Int.cast_ne_zero.mpr hzero) (zpow_ne_zero _ htwo))
    have hm' : |(m : ℚ)| < 2 ^ (53 : ℤ) := by
      rw [← Int.cast_abs]
      exact_mod_cast hm
    have hlt : |(m : ℚ) * 2 ^ e| < ((2 : ℕ) : ℚ) ^ (53 + e) := by
      rw [abs_mul, abs_of_pos (zpow_pos two_pos e : (0 : ℚ) < 2 ^ e), Nat.cast_ofNat,
        zpow_add₀ htwo]
      exact mul_lt_mul_of_pos_right hm' (zpow_pos two_pos e)
    have hlog := (Int.lt_zpow_iff_log_lt Nat.one_lt_two hpos).mp hlt
    unfold lastPlace
    omega
  obtain ⟨k, hk⟩ := Int.le.dest hplace
  have hdiv : (m : ℚ) * 2 ^ e / 2 ^ lastPlace ((m : ℚ) * 2 ^ e) = ((m * 2 ^ k : ℤ) : ℚ) := by
    rw [div_eq_iff (zpow_ne_zero _ htwo)]
    push_cast
    rw [mul_assoc, ← zpow_natCast, ← zpow_add₀ htwo, add_comm, hk]
  unfold nearest
  rw [hdiv, halfEven_intCast, ← hdiv, div_mul_cancel₀ _ (zpow_ne_zero _ htwo)]

theorem round_exact {m e : ℤ} (hm : |m| < 2 ^ 53) (he : -1074 ≤ e)
    (hlimit : |(m : ℚ) * 2 ^ e| < limit) : round ((m : ℚ) * 2 ^ e) = finite ((m : ℚ) * 2 ^ e) := by
  unfold round
  rw [nearest_exact hm he, if_neg (not_le.mpr hlimit)]

theorem round_big {q : ℚ} (h : limit ≤ q) : round q = infinite false := by
  have htwo : (2 : ℚ) ≠ 0 := two_ne_zero
  have hpos : 0 < q := lt_of_lt_of_le (zpow_pos two_pos _) h
  have hlog : 1024 ≤ Int.log 2 q := by
    rw [← Int.zpow_le_iff_le_log Nat.one_lt_two hpos, Nat.cast_ofNat]
    exact h
  have hplace : lastPlace q = Int.log 2 q - 52 := by
    unfold lastPlace
    rw [abs_of_pos hpos]
    omega
  have hself : (2 : ℚ) ^ Int.log 2 q ≤ q := by
    simpa only [Nat.cast_ofNat] using Int.zpow_log_le_self (R := ℚ) Nat.one_lt_two hpos
  have hmul : ((2 ^ 52 : ℤ) : ℚ) * 2 ^ lastPlace q = 2 ^ Int.log 2 q := by
    rw [hplace, Int.cast_pow, Int.cast_ofNat, ← zpow_natCast, ← zpow_add₀ htwo]
    congr 1
    omega
  have hquot : ((2 ^ 52 : ℤ) : ℚ) ≤ q / 2 ^ lastPlace q := by
    rw [le_div_iff₀ (zpow_pos two_pos _), hmul]
    exact hself
  have hhalf : ((2 ^ 52 : ℤ) : ℚ) ≤ halfEven (q / 2 ^ lastPlace q) := by
    exact_mod_cast le_trans (Int.le_floor.mpr hquot) (floor_le_halfEven _)
  have hnear : limit ≤ nearest q := by
    unfold nearest
    calc limit ≤ 2 ^ Int.log 2 q := zpow_le_zpow_right₀ one_le_two hlog
      _ = ((2 ^ 52 : ℤ) : ℚ) * 2 ^ lastPlace q := hmul.symm
      _ ≤ _ := mul_le_mul_of_nonneg_right hhalf (le_of_lt (zpow_pos two_pos _))
  unfold round
  rw [if_pos (le_trans hnear (le_abs_self _)), decide_eq_false (not_lt.mpr (le_of_lt hpos))]

end Double

end Lib
