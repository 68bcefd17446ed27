import Mathlib.Data.List.Basic
import Mathlib.Logic.Relation

/-!
# Runs of a step function

A system here is a function from a state and an input to the next state. A run
is a list of inputs. `Along` says that every step of a run meets a condition.
-/

set_option autoImplicit false

namespace Lib.Run

/-! Examples number their accounts in small types, whose numerals need these. -/

instance neZero_three : @NeZero Nat Zero.ofOfNat0 3 := ⟨Nat.succ_ne_zero 2⟩
instance neZero_four : @NeZero Nat Zero.ofOfNat0 4 := ⟨Nat.succ_ne_zero 3⟩
instance neZero_sixteen : @NeZero Nat Zero.ofOfNat0 16 := ⟨Nat.succ_ne_zero 15⟩

variable {σ ι : Type*}

/-- The state after the inputs `is`, in order. -/
def run (step : σ → ι → σ) (s : σ) (is : List ι) : σ := is.foldl step s

/-- Each input of the run meets `P` in the state it is taken in. -/
def Along (step : σ → ι → σ) (P : σ → ι → Prop) : σ → List ι → Prop
  | _, [] => True
  | s, i :: is => P s i ∧ Along step P (step s i) is

instance decidableAlong {σ κ : Type*} {step : σ → κ → σ} {P : σ → κ → Prop}
    [∀ s i, Decidable (P s i)] : ∀ (s : σ) (is : List κ), Decidable (Along step P s is)
  | _, [] => isTrue trivial
  | s, i :: is =>
    have := @decidableAlong σ κ step P _ (step s i) is
    inferInstanceAs (Decidable (P s i ∧ Along step P (step s i) is))

section Basic

variable (step : σ → ι → σ) (s : σ)

@[simp] theorem run_nil : run step s [] = s := rfl

@[simp] theorem run_cons (i : ι) (is : List ι) : run step s (i :: is) = run step (step s i) is :=
  rfl

theorem run_append (is js : List ι) : run step s (is ++ js) = run step (run step s is) js :=
  List.foldl_append

theorem run_snoc (is : List ι) (i : ι) : run step s (is ++ [i]) = step (run step s is) i := by
  rw [run_append]; rfl

variable {P : σ → ι → Prop}

@[simp] theorem along_nil : Along step P s [] := trivial

@[simp] theorem along_cons (i : ι) (is : List ι) :
    Along step P s (i :: is) ↔ P s i ∧ Along step P (step s i) is := Iff.rfl

theorem along_append (is js : List ι) :
    Along step P s (is ++ js) ↔ Along step P s is ∧ Along step P (run step s is) js := by
  induction is generalizing s with
  | nil => simp
  | cons i is ih => simp only [List.cons_append, along_cons, ih, run_cons, and_assoc]

theorem along_of_forall (h : ∀ s i, P s i) (is : List ι) : Along step P s is := by
  induction is generalizing s with
  | nil => trivial
  | cons i is ih => exact ⟨h s i, ih _⟩

end Basic

variable {step : σ → ι → σ} {s : σ} {P : σ → ι → Prop}

theorem along_and {Q : σ → ι → Prop} {is : List ι} (hP : Along step P s is)
    (hQ : Along step Q s is) : Along step (fun s i => P s i ∧ Q s i) s is := by
  induction is generalizing s with
  | nil => trivial
  | cons i is ih => exact ⟨⟨hP.1, hQ.1⟩, ih hP.2 hQ.2⟩

/-- What every step keeps, the whole run keeps. -/
theorem invariant_of_along {I : σ → Prop} (hstep : ∀ s i, I s → P s i → I (step s i))
    {is : List ι} (h : Along step P s is) (h0 : I s) : I (run step s is) := by
  induction is generalizing s with
  | nil => exact h0
  | cons i is ih => exact ih h.2 (hstep _ _ h0 h.1)

/-- Two conditions that agree where an invariant holds, which one of them keeps, hold along the same
runs. -/
theorem along_iff {I : σ → Prop} {Q : σ → ι → Prop} (hiff : ∀ s i, I s → (P s i ↔ Q s i))
    (hstep : ∀ s i, I s → Q s i → I (step s i)) (h0 : I s) (is : List ι) :
    Along step P s is ↔ Along step Q s is := by
  induction is generalizing s with
  | nil => rfl
  | cons i is ih =>
    rw [along_cons, along_cons, hiff s i h0]
    refine and_congr_right fun hQ => ih ?_
    exact hstep s i h0 hQ

theorem invariant {I : σ → Prop} (hstep : ∀ s i, I s → I (step s i)) (h0 : I s) (is : List ι) :
    I (run step s is) :=
  invariant_of_along (P := fun _ _ => True) (fun s i h _ => hstep s i h)
    (along_of_forall step s (fun _ _ => trivial) is) h0

/-- A preorder that holds across every step holds across the run. -/
theorem related {R : σ → σ → Prop} (hrefl : ∀ s, R s s) (htrans : ∀ a b c, R a b → R b c → R a c)
    {I : σ → Prop} (hI : ∀ s i, I s → I (step s i)) (hstep : ∀ s i, I s → R s (step s i))
    (h0 : I s) (is : List ι) : R s (run step s is) := by
  induction is generalizing s with
  | nil => exact hrefl s
  | cons i is ih => exact htrans _ _ _ (hstep s i h0) (ih (hI s i h0))

end Lib.Run
