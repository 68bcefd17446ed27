import Mathlib.Data.List.Basic
import Mathlib.Data.List.Induction
import Mathlib.Data.Nat.Basic
import QuantaSwap.Lib.Text

/-!
# Numbers in hexadecimal

Digits of either case spell a number. Lowercase digits of a fixed width and the
numbers below a power of sixteen are the same thing.
-/

set_option autoImplicit false

namespace Lib.Hex

open Lib.Text

/-- What one hex digit is worth, in either case. -/
def digitValue (c : Char) : Nat := if isDigit c then c.toNat - 48 else c.toLower.toNat - 87

/-- The number that `0x` and the digits spell. -/
def value (digits : List Char) : Nat := digits.foldl (fun n c => 16 * n + digitValue c) 0

/-- `n.toString(16).padStart(k, "0")` -/
def padded (k n : Nat) : List Char := (Nat.toDigits 16 n).leftpad k '0'

/-- `toLowerCase()` of digits. -/
def lower (digits : List Char) : List Char := digits.map Char.toLower

section Digit

theorem isLowerHex_iff {c : Char} : isLowerHex c = true ↔ ∃ d < 16, c = Nat.digitChar d := by
  constructor
  · intro h
    have hc : (48 ≤ c.toNat ∧ c.toNat ≤ 57) ∨ (97 ≤ c.toNat ∧ c.toNat ≤ 102) := by
      simpa [isLowerHex, isDigit, Char.le_def, UInt32.le_iff_toNat_le] using h
    have hcode : ∀ k, k < 128 → (48 ≤ k ∧ k ≤ 57) ∨ (97 ≤ k ∧ k ≤ 102) →
      ∃ d < 16, Char.ofNat k = Nat.digitChar d := by
      decide
    have := hcode c.toNat (by omega) hc
    rwa [Char.ofNat_toNat] at this
  · rintro ⟨d, hd, rfl⟩
    have hall : ∀ d, d < 16 → isLowerHex (Nat.digitChar d) = true := by decide
    exact hall d hd

theorem digitValue_digitChar {d : Nat} (h : d < 16) : digitValue (Nat.digitChar d) = d := by
  have hall : ∀ d, d < 16 → digitValue (Nat.digitChar d) = d := by decide
  exact hall d h

theorem digitValue_lt {c : Char} (h : isLowerHex c = true) : digitValue c < 16 := by
  obtain ⟨d, hd, rfl⟩ := isLowerHex_iff.mp h
  rwa [digitValue_digitChar hd]

theorem eq_of_digitValue_eq {c c' : Char} (h : isLowerHex c = true) (h' : isLowerHex c' = true)
    (heq : digitValue c = digitValue c') : c = c' := by
  obtain ⟨d, hd, rfl⟩ := isLowerHex_iff.mp h
  obtain ⟨d', hd', rfl⟩ := isLowerHex_iff.mp h'
  rw [digitValue_digitChar hd, digitValue_digitChar hd'] at heq
  rw [heq]

theorem isHex_iff_toLower {c : Char} : isHex c = true ↔ isLowerHex c.toLower = true := by
  have hupper : ∀ k, k < 128 → 65 ≤ k ∧ k ≤ 70 → isLowerHex (Char.ofNat k).toLower = true := by
    decide
  have hcode : ∀ k, k < 128 → 65 ≤ k ∧ k ≤ 90 → isLowerHex (Char.ofNat k).toLower = true → k ≤ 70 :=
    by decide
  constructor
  · intro h
    rw [isHex, Bool.or_eq_true] at h
    rcases h with h | h
    · rwa [toLower_of_isLowerHex h]
    · have hc : 65 ≤ c.toNat ∧ c.toNat ≤ 70 :=
        by simpa [Char.le_def, UInt32.le_iff_toNat_le] using h
      have := hupper c.toNat (by omega) hc
      rwa [Char.ofNat_toNat] at this
  · intro h
    by_cases hc : 65 ≤ c.toNat ∧ c.toNat ≤ 90
    · have hle := hcode c.toNat (by omega) hc (by rwa [Char.ofNat_toNat])
      rw [isHex, Bool.or_eq_true]
      right
      have := hc.1
      simpa [Char.le_def, UInt32.le_iff_toNat_le] using And.intro this hle
    · have hsame : c.toLower = c := by
        unfold Char.toLower
        rw [dif_neg]
        intro hup
        apply hc
        simpa [UInt32.le_iff_toNat_le] using hup
      rw [hsame] at h
      exact isHex_of_isLowerHex c h

theorem digitValue_toLower {c : Char} (h : isHex c = true) :
    digitValue c.toLower = digitValue c := by
  have hcode : ∀ k, k < 128 → 65 ≤ k ∧ k ≤ 70 →
    digitValue (Char.ofNat k).toLower = digitValue (Char.ofNat k) := by decide
  rw [isHex, Bool.or_eq_true] at h
  rcases h with h | h
  · rw [toLower_of_isLowerHex h]
  · have hc : 65 ≤ c.toNat ∧ c.toNat ≤ 70 := by simpa [Char.le_def, UInt32.le_iff_toNat_le] using h
    have := hcode c.toNat (by omega) hc
    rwa [Char.ofNat_toNat] at this

end Digit

section Value

variable {digits digits' : List Char} {k n : Nat}

theorem value_concat (digits : List Char) (c : Char) :
    value (digits ++ [c]) = 16 * value digits + digitValue c := by
  simp [value]

theorem value_replicate_zero_append (k : Nat) (digits : List Char) :
    value (List.replicate k '0' ++ digits) = value digits := by
  have hzero : (List.replicate k '0').foldl (fun n c => 16 * n + digitValue c) 0 = 0 := by
    induction k with
    | zero => rfl
    | succ k ih =>
      rw [List.replicate_succ', List.foldl_append, ih]
      rfl
  rw [value, List.foldl_append, hzero]
  rfl

theorem value_lower (h : ∀ c ∈ digits, isHex c = true) : value (lower digits) = value digits := by
  induction digits using List.reverseRecOn with
  | nil => rfl
  | append_singleton digits c ih =>
    have hc : isHex c = true := h c (by simp)
    rw [lower, List.map_append, List.map_singleton, value_concat, value_concat, ← lower,
      ih fun c' hc' => h c' (List.mem_append_left _ hc'), digitValue_toLower hc]

theorem value_lt (h : ∀ c ∈ digits, isLowerHex c = true) : value digits < 16 ^ digits.length := by
  induction digits using List.reverseRecOn with
  | nil => decide
  | append_singleton digits c ih =>
    have hlt := ih fun c' hc' => h c' (List.mem_append_left _ hc')
    have hc := digitValue_lt (h c (by simp))
    rw [value_concat, List.length_append, List.length_singleton, Nat.pow_succ]
    omega

theorem value_injective (hlength : digits.length = digits'.length)
    (h : ∀ c ∈ digits, isLowerHex c = true)
    (h' : ∀ c ∈ digits', isLowerHex c = true) (heq : value digits = value digits') :
    digits = digits' := by
  induction digits using List.reverseRecOn generalizing digits' with
  | nil => exact (List.length_eq_zero_iff.mp hlength.symm).symm
  | append_singleton digits c ih =>
    rcases List.eq_nil_or_concat digits' with rfl | ⟨digits', c', rfl⟩
    · simp at hlength
    · rw [List.concat_eq_append] at *
      have hc := h c (by simp)
      have hc' := h' c' (by simp)
      have hlt := digitValue_lt hc
      have hlt' := digitValue_lt hc'
      rw [value_concat, value_concat] at heq
      have hdigits : digits = digits' := by
        refine ih ?_ (fun d hd => h d (List.mem_append_left _ hd))
          (fun d hd => h' d (List.mem_append_left _ hd)) (by omega)
        simpa using hlength
      rw [hdigits, eq_of_digitValue_eq hc hc' (by omega)]

theorem toDigits_spec (n : Nat) :
    value (Nat.toDigits 16 n) = n ∧ ∀ c ∈ Nat.toDigits 16 n, isLowerHex c = true := by
  induction n using Nat.strongRecOn with
  | ind n ih =>
    rcases Nat.lt_or_ge n 16 with hlt | hge
    · rw [Nat.toDigits_of_lt_base hlt]
      refine ⟨?_, ?_⟩
      · simp [value, digitValue_digitChar hlt]
      · intro c hc
        rw [List.mem_singleton.mp hc]
        exact isLowerHex_iff.mpr ⟨n, hlt, rfl⟩
    · obtain ⟨hvalue, hlower⟩ := ih (n / 16) (by omega)
      have hmod : n % 16 < 16 := Nat.mod_lt _ (by decide)
      rw [Nat.toDigits_of_base_le (by decide) hge]
      refine ⟨?_, ?_⟩
      · rw [value_concat, hvalue, digitValue_digitChar hmod]
        omega
      · intro c hc
        rcases List.mem_append.mp hc with hc | hc
        · exact hlower c hc
        · rw [List.mem_singleton.mp hc]
          exact isLowerHex_iff.mpr ⟨n % 16, hmod, rfl⟩

theorem value_padded (k n : Nat) : value (padded k n) = n := by
  rw [padded, List.leftpad, value_replicate_zero_append, (toDigits_spec n).1]

theorem padded_lower (k n : Nat) : ∀ c ∈ padded k n, isLowerHex c = true := by
  intro c hc
  rw [padded, List.leftpad] at hc
  rcases List.mem_append.mp hc with hc | hc
  · rw [(List.mem_replicate.mp hc).2]
    rfl
  · exact (toDigits_spec n).2 c hc

theorem length_padded (hk : 0 < k) (h : n < 16 ^ k) : (padded k n).length = k := by
  have := (Nat.length_toDigits_le_iff (by decide : 1 < 16) hk).mpr h
  rw [padded, List.leftpad, List.length_append, List.length_replicate]
  omega

theorem padded_add {j : Nat} (hk : 0 < k) (h : n < 16 ^ k) :
    padded (j + k) n = List.replicate j '0' ++ padded k n := by
  have := (Nat.length_toDigits_le_iff (by decide : 1 < 16) hk).mpr h
  unfold padded List.leftpad
  rw [← List.append_assoc, List.replicate_append_replicate]
  congr 2
  omega

theorem padded_value (hk : 0 < k) (hlength : digits.length = k)
    (h : ∀ c ∈ digits, isLowerHex c = true) :
    padded k (value digits) = digits := by
  have hlt : value digits < 16 ^ k := hlength ▸ value_lt h
  exact value_injective ((length_padded hk hlt).trans hlength.symm)
    (padded_lower k _) h (value_padded k _)

end Value

end Lib.Hex
