import Mathlib.Algebra.Group.Int.Defs
import Mathlib.Algebra.Group.Nat.Defs
import Mathlib.Data.Char
import Mathlib.Data.List.Basic
import Mathlib.Data.List.Lex

/-!
# Strings of a fixed shape

`fixed lead n digit` is the pattern `^lead[digit]{n}$`. `Matching re` is the type
of the strings a pattern accepts, so a value of it needs no second check.
-/

set_option autoImplicit false

namespace Lib.Text

def isDigit (c : Char) : Bool := '0' ≤ c && c ≤ '9'

def isLowerHex (c : Char) : Bool := isDigit c || ('a' ≤ c && c ≤ 'f')

def isHex (c : Char) : Bool := isLowerHex c || ('A' ≤ c && c ≤ 'F')

theorem isHex_of_isLowerHex (c : Char) (h : isLowerHex c = true) : isHex c = true := by
  simp [isHex, h]

/-- `^lead[digit]{n}$` -/
def fixed (lead : List Char) (n : Nat) (digit : Char → Bool) (s : String) : Bool :=
  lead.isPrefixOf s.toList && (s.toList.drop lead.length).length == n &&
    (s.toList.drop lead.length).all digit

/-- `^[digit]{lo,hi}$` -/
def run (lo hi : Nat) (digit : Char → Bool) (s : String) : Bool :=
  lo ≤ s.toList.length && s.toList.length ≤ hi && s.toList.all digit

section Fixed

variable {lead : List Char} {n : Nat} {digit : Char → Bool} {s : String}

theorem fixed_iff :
    fixed lead n digit s = true ↔
      ∃ body, s.toList = lead ++ body ∧ body.length = n ∧ ∀ c ∈ body, digit c = true := by
  simp only [fixed, Bool.and_eq_true, List.isPrefixOf_iff_prefix, beq_iff_eq, List.all_eq_true]
  constructor
  · rintro ⟨⟨⟨body, hbody⟩, hlen⟩, hall⟩
    rw [← hbody, List.drop_left] at hlen hall
    exact ⟨body, hbody.symm, hlen, hall⟩
  · rintro ⟨body, hbody, hlen, hall⟩
    rw [hbody, List.drop_left]
    exact ⟨⟨List.prefix_append _ _, hlen⟩, hall⟩

theorem fixed_mono {digit' : Char → Bool} (hd : ∀ c, digit c = true → digit' c = true)
    (h : fixed lead n digit s = true) : fixed lead n digit' s = true := by
  obtain ⟨body, hs, hlen, hall⟩ := fixed_iff.mp h
  exact fixed_iff.mpr ⟨body, hs, hlen, fun c hc => hd c (hall c hc)⟩

theorem fixed_append {t : String} (h : fixed [] n digit t = true) :
    fixed lead n digit (String.ofList lead ++ t) = true := by
  obtain ⟨body, ht, hlen, hall⟩ := fixed_iff.mp h
  exact fixed_iff.mpr ⟨body, by simpa using ht, hlen, hall⟩

/-- `slice(lead.length)` -/
def dropLead (lead : List Char) (s : String) : String := String.ofList (s.toList.drop lead.length)

theorem fixed_dropLead (h : fixed lead n digit s = true) :
    fixed [] n digit (dropLead lead s) = true := by
  obtain ⟨body, hs, hlen, hall⟩ := fixed_iff.mp h
  exact fixed_iff.mpr ⟨body, by simp [dropLead, hs], hlen, hall⟩

theorem append_dropLead (h : fixed lead n digit s = true) :
    String.ofList lead ++ dropLead lead s = s := by
  obtain ⟨body, hs, -, -⟩ := fixed_iff.mp h
  apply String.toList_inj.mp
  simp [dropLead, hs]

@[simp] theorem dropLead_append (t : String) : dropLead lead (String.ofList lead ++ t) = t := by
  apply String.toList_inj.mp
  simp [dropLead]

end Fixed

/-- The strings that the pattern `re` accepts. -/
abbrev Matching (re : String → Bool) := {s : String // re s = true}

/-- `re.test(s)`, keeping the answer in the type. -/
def matching (re : String → Bool) (s : String) : Option (Matching re) :=
  if h : re s = true then some ⟨s, h⟩ else none

@[simp] theorem matching_val {re : String → Bool} (m : Matching re) :
    matching re m.val = some m := by
  simp [matching, m.property]

theorem matching_eq_some {re : String → Bool} {s : String} {m : Matching re} :
    matching re s = some m ↔ m.val = s := by
  unfold matching
  split
  · rename_i h
    rw [Option.some.injEq]
    constructor
    · rintro rfl; rfl
    · intro hm; exact Subtype.ext hm.symm
  · rename_i h
    constructor
    · intro hm; cases hm
    · rintro rfl; exact absurd m.property h

/-- ASCII `toLowerCase()`. -/
def toLowerCase (s : String) : String := String.ofList (s.toList.map Char.toLower)

theorem toLower_of_isLowerHex {c : Char} (h : isLowerHex c = true) : c.toLower = c := by
  have hc : ¬(c.val ≥ 'A'.val ∧ c.val ≤ 'Z'.val) := by
    simp only [isLowerHex, isDigit, Bool.or_eq_true, Bool.and_eq_true, decide_eq_true_eq,
      Char.le_def,
      UInt32.le_iff_toNat_le] at h
    simp only [UInt32.le_iff_toNat_le, ge_iff_le]
    intro hup
    have h0 : ('0' : Char).val.toNat = 48 := rfl
    have h9 : ('9' : Char).val.toNat = 57 := rfl
    have ha : ('a' : Char).val.toNat = 97 := rfl
    have hf : ('f' : Char).val.toNat = 102 := rfl
    have hA : ('A' : Char).val.toNat = 65 := rfl
    have hZ : ('Z' : Char).val.toNat = 90 := rfl
    omega
  exact dif_neg hc

theorem toLowerCase_injective {lead : List Char} {n : Nat} {s t : String}
    (hs : fixed lead n isLowerHex s = true)
    (ht : fixed lead n isLowerHex t = true) (h : toLowerCase s = toLowerCase t) : s = t := by
  obtain ⟨a, ha, -, hall⟩ := fixed_iff.mp hs
  obtain ⟨b, hb, -, hall'⟩ := fixed_iff.mp ht
  have hlower : ∀ l : List Char, (∀ c ∈ l, isLowerHex c = true) → l.map Char.toLower = l := by
    intro l hl
    conv_rhs => rw [← List.map_id l]
    exact List.map_congr_left fun c hc => toLower_of_isLowerHex (hl c hc)
  have hlists := congrArg String.toList h
  simp only [toLowerCase, String.toList_ofList, ha, hb, List.map_append, List.append_cancel_left_eq,
    hlower a hall, hlower b hall'] at hlists
  apply String.toList_inj.mp
  rw [ha, hb, hlists]

end Lib.Text
