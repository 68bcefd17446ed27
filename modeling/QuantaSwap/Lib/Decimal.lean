import Mathlib.Data.List.Induction
import Mathlib.Data.Nat.Basic
import QuantaSwap.Lib.Text

/-!
# Canonical decimal numbers

A digit string with no leading zero is the decimal of its value, so a number
that is read and written again rebuilds the string it was read from.
-/

set_option autoImplicit false

namespace Lib.Decimal

open Lib.Text

/-- `^(?:0|[1-9][0-9]*)$` -/
def canonical : List Char → Bool
  | [] => false
  | c :: cs => (c == '0' && cs.isEmpty) || (c != '0' && isDigit c && cs.all isDigit)

/-- `BigInt(s)` of a digit string. -/
def value (s : String) : Nat := Nat.ofDigitChars 10 s.toList 0

theorem isDigit_iff (c : Char) : isDigit c = true ↔ c.isDigit = true := by
  simp [isDigit, Char.isDigit, Char.le_def]

theorem digitChar_of_isDigit (c : Char) (h : isDigit c = true) :
    c.toNat - 48 < 10 ∧ Nat.digitChar (c.toNat - 48) = c := by
  have hc : 48 ≤ c.toNat ∧ c.toNat ≤ 57 := by
    simpa [isDigit, Char.le_def, UInt32.le_iff_toNat_le] using h
  have hlt : c.toNat - 48 < 10 := by omega
  refine ⟨hlt, ?_⟩
  have hcases : ∀ d, d < 10 → Nat.digitChar d = Char.ofNat (d + 48) := by decide
  rw [hcases _ hlt, Nat.sub_add_cancel hc.1, Char.ofNat_toNat]

theorem ofDigitChars_pos (c : Char) (cs : List Char) (hc : isDigit c = true) (h0 : c ≠ '0') :
    0 < Nat.ofDigitChars 10 (c :: cs) 0 := by
  have hval : 0 < c.toNat - 48 := by
    by_contra hz
    have hzero : c.toNat - 48 = 0 := by omega
    have := (digitChar_of_isDigit c hc).2
    rw [hzero] at this
    exact h0 this.symm
  rw [Nat.ofDigitChars_cons, Nat.ofDigitChars_eq_ofDigitChars_zero]
  have hpow : 0 < 10 ^ cs.length := Nat.pow_pos (by omega)
  have hmul : 0 < 10 ^ cs.length * (10 * 0 + (c.toNat - '0'.toNat)) :=
    Nat.mul_pos hpow (by simpa using hval)
  omega

theorem toDigits_ofDigitChars (cs : List Char) (h : canonical cs = true) :
    Nat.toDigits 10 (Nat.ofDigitChars 10 cs 0) = cs := by
  induction cs using List.reverseRecOn with
  | nil => cases h
  | append_singleton cs d ih =>
    rw [Nat.ofDigitChars_append, Nat.ofDigitChars_cons, Nat.ofDigitChars_nil,
      show '0'.toNat = 48 from rfl]
    cases cs with
    | nil =>
      have hd : isDigit d = true := by
        simp only [canonical, List.nil_append, List.isEmpty_nil, List.all_nil, Bool.and_true,
          Bool.or_eq_true, Bool.and_eq_true, beq_iff_eq, bne_iff_ne] at h
        rcases h with rfl | h
        · rfl
        · exact h.2
      obtain ⟨hlt, hchar⟩ := digitChar_of_isDigit d hd
      rw [Nat.ofDigitChars_nil, Nat.mul_zero, Nat.zero_add, Nat.toDigits_of_lt_base hlt]
      simpa using hchar
    | cons c cs =>
      have h' : (c ≠ '0' ∧ isDigit c = true) ∧ (∀ x ∈ cs, isDigit x = true) ∧ isDigit d = true := by
        simpa [canonical, or_imp, forall_and] using h
      obtain ⟨⟨h0, hc⟩, hcs, hd⟩ := h'
      obtain ⟨hlt, hchar⟩ := digitChar_of_isDigit d hd
      have hcanon : canonical (c :: cs) = true := by simpa [canonical] using Or.inr ⟨⟨h0, hc⟩, hcs⟩
      have hpos := ofDigitChars_pos c cs hc h0
      have happ := Nat.toDigits_append_toDigits (by omega : 1 < 10) hpos hlt
      rw [Nat.toDigits_of_lt_base hlt, hchar, ih hcanon] at happ
      exact happ.symm

theorem repr_value (s : String) (h : canonical s.toList = true) : (value s).repr = s := by
  apply String.toList_inj.mp
  rw [Nat.toList_repr, value, toDigits_ofDigitChars _ h]

@[simp] theorem value_repr (n : Nat) : value n.repr = n := by simp [value]

theorem repr_injective {m n : Nat} (h : m.repr = n.repr) : m = n := by
  rw [← value_repr m, h, value_repr]

theorem canonical_digits (cs : List Char) (h : canonical cs = true) :
    ∀ c ∈ cs, isDigit c = true := by
  cases cs with
  | nil => cases h
  | cons c cs =>
    rcases (by simpa [canonical] using h :
      (c = '0' ∧ cs = []) ∨ ((¬c = '0' ∧ isDigit c = true) ∧ ∀ x ∈ cs, isDigit x = true)) with ⟨rfl,
        rfl⟩ | ⟨hc, hcs⟩
    · intro x hx
      rw [List.mem_singleton.mp hx]
      rfl
    · intro x hx
      rcases List.mem_cons.mp hx with rfl | hx
      · exact hc.2
      · exact hcs x hx

theorem canonical_repr (n : Nat) : canonical n.repr.toList = true := by
  rw [Nat.toList_repr]
  induction n using Nat.strongRecOn with
  | ind n ih =>
    rcases Nat.lt_or_ge n 10 with hlt | hge
    · rw [Nat.toDigits_of_lt_base hlt]
      have hall : ∀ d, d < 10 → canonical [Nat.digitChar d] = true := by decide
      exact hall n hlt
    · have hdiv : 0 < n / 10 := Nat.div_pos hge (by omega)
      have hmod : n % 10 < 10 := Nat.mod_lt _ (by omega)
      have hsplit := Nat.toDigits_append_toDigits (by omega : 1 < 10) hdiv hmod
      rw [Nat.div_add_mod, Nat.toDigits_of_lt_base hmod] at hsplit
      rw [← hsplit]
      have hdigit : isDigit (Nat.digitChar (n % 10)) = true := by
        have hall : ∀ d, d < 10 → isDigit (Nat.digitChar d) = true := by decide
        exact hall _ hmod
      have hrest := ih (n / 10) (by omega)
      have hne : Nat.toDigits 10 (n / 10) ≠ ['0'] := by
        intro heq
        have hval : Nat.ofDigitChars 10 (Nat.toDigits 10 (n / 10)) 0 = n / 10 := by simp
        rw [heq, Nat.ofDigitChars_cons, Nat.ofDigitChars_nil] at hval
        rw [← hval] at hdiv
        exact absurd hdiv (by decide)
      revert hrest hne
      cases Nat.toDigits 10 (n / 10) with
      | nil => intro h; cases h
      | cons c cs =>
        intro hrest hne
        simp only [canonical, Bool.or_eq_true, Bool.and_eq_true, beq_iff_eq, bne_iff_ne,
          List.isEmpty_iff] at hrest
        simp only [List.cons_append, canonical, List.all_append, List.all_cons,
          List.all_nil, hdigit]
        rcases hrest with ⟨rfl, rfl⟩ | ⟨⟨h0, hc⟩, hcs⟩
        · exact absurd rfl hne
        · simp [h0, hc, hcs]
theorem run_repr (n k : Nat) (hk : 0 < k) (h : n < 10 ^ k) :
    Text.run 1 k isDigit n.repr = true := by
  have hpos : 1 ≤ n.repr.toList.length := by
    rw [Nat.toList_repr]
    exact Nat.length_toDigits_pos
  have hle : n.repr.toList.length ≤ k := by
    rw [Nat.toList_repr]
    exact (Nat.length_toDigits_le_iff (by omega) hk).mpr h
  have hall : n.repr.toList.all isDigit = true := by
    rw [List.all_eq_true]
    intro c hc
    rw [Nat.toList_repr] at hc
    exact (isDigit_iff c).mpr (Nat.isDigit_of_mem_toDigits (by omega) (by omega) hc)
  rw [Text.run, hall, decide_eq_true hpos, decide_eq_true hle]
  rfl

theorem ofDigitChars_lt (cs : List Char) (h : ∀ c ∈ cs, isDigit c = true) :
    Nat.ofDigitChars 10 cs 0 < 10 ^ cs.length := by
  induction cs using List.reverseRecOn with
  | nil => simp
  | append_singleton cs d ih =>
    have hlt := ih fun c hc => h c (List.mem_append_left _ hc)
    obtain ⟨hd, -⟩ := digitChar_of_isDigit d (h d (by simp))
    rw [Nat.ofDigitChars_append, Nat.ofDigitChars_cons, Nat.ofDigitChars_nil,
      show '0'.toNat = 48 from rfl, List.length_append, List.length_singleton, Nat.pow_succ]
    omega

theorem value_lt {s : String} {k : Nat} (h : Text.run 1 k isDigit s = true) : value s < 10 ^ k := by
  simp only [Text.run, Bool.and_eq_true, decide_eq_true_eq, List.all_eq_true] at h
  exact Nat.lt_of_lt_of_le (ofDigitChars_lt _ h.2) (Nat.pow_le_pow_right (by omega) h.1.2)

end Lib.Decimal
