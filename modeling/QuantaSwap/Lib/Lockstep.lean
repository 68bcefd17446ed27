/-!
# Two computations in step

Two fallible computations are in step when both fail, or both succeed with related results.
-/

set_option autoImplicit false

namespace Lib.Lockstep

variable {ε ε' α α' β β' : Type}

/-- Both fail, or both succeed and `R` relates what they return. -/
def InStep (R : α → α' → Prop) : Except ε α → Except ε' α' → Prop
  | .ok a, .ok a' => R a a'
  | .error _, .error _ => True
  | _, _ => False

variable {R : α → α' → Prop} {S : β → β' → Prop}

@[simp] theorem inStep_ok {a : α} {a' : α'} :
    InStep R (.ok a : Except ε α) (.ok a' : Except ε' α') ↔ R a a' := Iff.rfl

@[simp] theorem inStep_error (e : ε) (e' : ε') : InStep R (.error e) (.error e') := trivial

theorem InStep.refl (x : Except ε α) : InStep Eq x x := by
  cases x with
  | error e => trivial
  | ok a => rfl

theorem InStep.bind {x : Except ε α} {x' : Except ε' α'} {f : α → Except ε β}
    {f' : α' → Except ε' β'} (h : InStep R x x') (hf : ∀ a a', R a a' → InStep S (f a) (f' a')) :
    InStep S (x >>= f) (x' >>= f') := by
  cases x with
  | error e =>
    cases x' with
    | error e' => trivial
    | ok a' => exact h.elim
  | ok a =>
    cases x' with
    | error e' => exact h.elim
    | ok a' => exact hf a a' h

theorem InStep.mono {R' : α → α' → Prop} {x : Except ε α} {x' : Except ε' α'} (h : InStep R x x')
    (hR : ∀ a a', R a a' → R' a a') : InStep R' x x' := by
  cases x with
  | error e =>
    cases x' with
    | error e' => trivial
    | ok a' => exact h.elim
  | ok a =>
    cases x' with
    | error e' => exact h.elim
    | ok a' => exact hR a a' h

theorem InStep.guard {p q : Prop} [Decidable p] [Decidable q] (hpq : p ↔ q) {e : ε} {e' : ε'}
    {x : Except ε α} {x' : Except ε' α'} (h : ¬ p → ¬ q → InStep R x x') :
    InStep R (if p then .error e else x) (if q then .error e' else x') := by
  by_cases hp : p
  · rw [if_pos hp, if_pos (hpq.mp hp)]; trivial
  · have hq : ¬ q := fun hq => hp (hpq.mpr hq)
    rw [if_neg hp, if_neg hq]
    exact h hp hq

theorem InStep.isOk {x : Except ε α} {x' : Except ε' α'} (h : InStep R x x') :
    (∃ a, x = .ok a) ↔ ∃ a', x' = .ok a' := by
  cases x with
  | error e =>
    cases x' with
    | error e' => simp
    | ok a' => exact h.elim
  | ok a =>
    cases x' with
    | error e' => exact h.elim
    | ok a' => simp

end Lib.Lockstep
