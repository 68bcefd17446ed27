import Mathlib.Algebra.Group.Int.Defs
import Mathlib.Algebra.Group.Nat.Defs
import Mathlib.Data.Int.Basic
import Mathlib.Data.List.Basic

/-!
# JSON values as a program reads them

A `Num` is a JavaScript number as far as integer checks can tell one from
another. An object is the list of its own properties. `JSON.stringify` drops a
property whose value is `undefined`, and so does `object`.
-/

set_option autoImplicit false

namespace Lib.Js

/-- `other` is a number that is no integer: a fraction or an infinity. -/
inductive Num where
  | int (z : Int)
  | negZero
  | other
  deriving DecidableEq, Repr

inductive Json where
  | null
  | bool (b : Bool)
  | num (n : Num)
  | str (s : String)
  | arr (items : List Json)
  | obj (fields : List (String × Json))

/-- A JavaScript object: `Record<string, unknown>`. -/
abbrev Record := List (String × Json)

/-- `record[key]`, `none` for `undefined`. -/
def Record.get (r : Record) (key : String) : Option Json := r.lookup key

/-- `Object.keys(record)` -/
def Record.keys (r : Record) : List String := r.map Prod.fst

/-- The object whose properties are the defined ones among `fields`. -/
def object (fields : List (String × Option Json)) : Record :=
  fields.filterMap fun (key, value) => value.map fun v => (key, v)

section Object

variable {fields : List (String × Option Json)} {key : String} {value : Option Json}

@[simp] theorem object_nil : object [] = [] := rfl

@[simp] theorem object_cons_some (v : Json) :
    object ((key, some v) :: fields) = (key, v) :: object fields := rfl

@[simp] theorem object_cons_none : object ((key, none) :: fields) = object fields := rfl

theorem get_object_of_notMem (h : key ∉ fields.map Prod.fst) :
    Record.get (object fields) key = none := by
  induction fields with
  | nil => rfl
  | cons field fields ih =>
    obtain ⟨k, v⟩ := field
    simp only [List.map_cons, List.mem_cons, not_or] at h
    cases v with
    | none => exact ih h.2
    | some v =>
      have hk : (key == k) = false := by simpa using h.1
      simp only [Record.get, object_cons_some, List.lookup_cons, hk]
      exact ih h.2

theorem get_object (h : (fields.map Prod.fst).Nodup) :
    Record.get (object fields) key = (fields.lookup key).join := by
  induction fields with
  | nil => rfl
  | cons field fields ih =>
    obtain ⟨k, v⟩ := field
    obtain ⟨hnot, hnodup⟩ : k ∉ fields.map Prod.fst ∧ (fields.map Prod.fst).Nodup :=
      List.nodup_cons.mp h
    by_cases hk : key = k
    · subst hk
      cases v with
      | none =>
        rw [object_cons_none, get_object_of_notMem hnot, List.lookup_cons_self]
        rfl
      | some v => simp [Record.get]
    · have hbeq : (key == k) = false := by simpa using hk
      cases v with
      | none => simpa only [object_cons_none, List.lookup_cons, hbeq] using ih hnodup
      | some v =>
        have := ih hnodup
        simpa only [Record.get, object_cons_some, List.lookup_cons, hbeq] using this

end Object

/-! ## Integers -/

/-- `Number.MAX_SAFE_INTEGER` -/
def maxSafeInteger : Nat := 9007199254740991

/-- `Number.isSafeInteger(n) && n >= 0` -/
abbrev SafeInt := {n : Nat // n ≤ maxSafeInteger}

theorem one_safe : 1 ≤ maxSafeInteger := by decide
theorem two_safe : 2 ≤ maxSafeInteger := by decide

instance maxEqOr_nat : Std.MaxEqOr Nat := inferInstance

/-- The integer a number is, when `Number.isInteger` holds of it. -/
def Num.toInt? : Num → Option Int
  | .int z => some z
  | .negZero => some 0
  | .other => none

/-- The non-negative safe integer a number is. -/
def Num.toSafe? : Num → Option SafeInt
  | .int z => if h : 0 ≤ z ∧ z.toNat ≤ maxSafeInteger then some ⟨z.toNat, h.2⟩ else none
  | .negZero => some ⟨0, by decide⟩
  | .other => none

/-- The number that the integer `n` is. -/
def Num.ofNat (n : Nat) : Num := .int n

@[simp] theorem toSafe?_ofNat (n : SafeInt) : (Num.ofNat n.val).toSafe? = some n := by
  have h : (0 : Int) ≤ n.val ∧ (n.val : Int).toNat ≤ maxSafeInteger :=
    ⟨Int.natCast_nonneg _, by simpa using n.property⟩
  rw [Num.ofNat, Num.toSafe?, dif_pos h]
  simp

theorem toSafe?_int (z : Int) (h : 0 ≤ z) (hz : z.toNat ≤ maxSafeInteger) :
    (Num.int z).toSafe? = some ⟨z.toNat, hz⟩ := by
  simp [Num.toSafe?, h, hz]

/-- The double nearest to an integer, ties to even: what a difference of two
integer doubles evaluates to. -/
def roundDouble (z : Int) : Int :=
  let m := z.natAbs
  let e := m.log2 - 52
  let unit := 2 ^ e
  let q := m / unit
  let r := m % unit
  let q' := if unit < 2 * r ∨ (unit = 2 * r ∧ q % 2 = 1) then q + 1 else q
  z.sign * (q' * unit : Nat)

theorem roundDouble_of_lt {z : Int} (hz : 0 ≤ z) (hlt : z < 2 ^ 53) : roundDouble z = z := by
  have hlog : z.natAbs.log2 - 52 = 0 := by
    rcases Nat.eq_zero_or_pos z.natAbs with hzero | hpos
    · rw [hzero]
      rfl
    · have := (Nat.log2_lt (Nat.pos_iff_ne_zero.mp hpos)).mpr (show z.natAbs < 2 ^ 53 by omega)
      omega
  unfold roundDouble
  simp only [hlog, Nat.pow_zero, Nat.div_one, Nat.mod_one, Nat.mul_one]
  rw [if_neg (by omega)]
  exact Int.sign_mul_natAbs z

theorem le_roundDouble {z : Int} (hz : 2 ^ 53 ≤ z) : 2 ^ 53 ≤ roundDouble z := by
  have hpos : z.natAbs ≠ 0 := by omega
  have hlog : 53 ≤ z.natAbs.log2 := (Nat.le_log2 hpos).mpr (by omega)
  have hsign : z.sign = 1 := Int.sign_eq_one_of_pos (by omega)
  have hquot : 2 ^ 52 ≤ z.natAbs / 2 ^ (z.natAbs.log2 - 52) := by
    rw [Nat.le_div_iff_mul_le (Nat.two_pow_pos _), ← Nat.pow_add,
      show 52 + (z.natAbs.log2 - 52) = z.natAbs.log2 by omega]
    exact (Nat.le_log2 hpos).mp (Nat.le_refl _)
  have hunit : 2 ≤ 2 ^ (z.natAbs.log2 - 52) :=
    calc 2 = 2 ^ 1 := rfl
      _ ≤ 2 ^ (z.natAbs.log2 - 52) := Nat.pow_le_pow_right (by decide) (by omega)
  have hprod (q : Nat) (hq : 2 ^ 52 ≤ q) :
    (2 ^ 53 : Int) ≤ ((q * 2 ^ (z.natAbs.log2 - 52) : Nat) : Int) := by
    have := Nat.mul_le_mul hq hunit
    omega
  unfold roundDouble
  simp only [hsign, Int.one_mul]
  split
  · exact hprod _ (Nat.le_succ_of_le hquot)
  · exact hprod _ hquot

theorem roundDouble_nonpos {z : Int} (hz : z ≤ 0) : roundDouble z ≤ 0 := by
  unfold roundDouble
  exact Int.mul_nonpos_of_nonpos_of_nonneg (Int.sign_nonpos_iff.mpr hz) (Int.natCast_nonneg _)

example : roundDouble (2 ^ 53 + 1) = 2 ^ 53 := by decide

end Lib.Js
