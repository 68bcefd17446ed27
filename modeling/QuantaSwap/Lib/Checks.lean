import Mathlib.Order.Basic
import Mathlib.Order.Defs.Unbundled

/-!
# Checks that throw, and actions that keep their state when they throw

A check is an `Except`. An action is an `EStateM`: when it throws, what it wrote
before stays written. `Keeps v m` says that `m` leaves the view `v` of the state
as it was, thrown or not.
-/

set_option autoImplicit false

namespace Lib.Checks

universe u

variable {ε σ α β : Type u}

/-- `if (c) throw e` -/
def refuse (c : Prop) [Decidable c] (e : ε) : Except ε PUnit.{u+1} := if c then .error e else .ok ⟨⟩

/-- `if (value === undefined) throw e`, with the value for what follows. -/
def orThrow (value : Option α) (e : ε) : Except ε α :=
  match value with
  | some a => .ok a
  | none => .error e

section Except

variable {e : ε} {a : α} {b : β}

@[simp] theorem refuse_eq_ok {c : Prop} [Decidable c] {x : PUnit} : refuse c e = .ok x ↔ ¬c := by
  unfold refuse
  split <;> simp_all

@[simp] theorem orThrow_eq_ok {value : Option α} : orThrow value e = .ok a ↔ value = some a := by
  cases value <;> simp [orThrow]

theorem bind_eq_ok {x : Except ε α} {f : α → Except ε β} :
    (x >>= f) = .ok b ↔ ∃ a, x = .ok a ∧ f a = .ok b := by
  cases x with
  | error e => simp [Bind.bind, Except.bind]
  | ok a => simp [Bind.bind, Except.bind]

@[simp] theorem pure_eq_ok {x : α} : (pure x : Except ε α) = .ok a ↔ x = a := by
  simp [Pure.pure, Except.pure]

@[simp] theorem throw_ne_ok : (throw e : Except ε α) ≠ .ok a := by
  simp [throw, throwThe, MonadExceptOf.throw]

theorem refuse_eq_error {c : Prop} [Decidable c] {e' : ε} :
    refuse c e = .error e' ↔ c ∧ e = e' := by
  unfold refuse
  split <;> simp_all

theorem orThrow_eq_error {value : Option α} {e' : ε} :
    orThrow value e = .error e' ↔ value = none ∧ e = e' := by
  cases value <;> simp [orThrow]

theorem bind_eq_error {x : Except ε α} {f : α → Except ε β} :
    (x >>= f) = .error e ↔ x = .error e ∨ ∃ a, x = .ok a ∧ f a = .error e := by
  cases x with
  | error e' => simp [Bind.bind, Except.bind]
  | ok a => simp [Bind.bind, Except.bind]

theorem mapM_eq_ok {f : α → Except ε β} {l : List α} {bs : List β} :
    l.mapM f = .ok bs ↔ l.map f = bs.map Except.ok := by
  induction l generalizing bs with
  | nil => cases bs <;> simp [List.mapM_nil]
  | cons a l ih =>
    rw [List.mapM_cons]
    simp only [bind_eq_ok, pure_eq_ok]
    constructor
    · rintro ⟨b, hb, bs, hbs, rfl⟩
      rw [List.map_cons, List.map_cons, hb, ih.mp hbs]
    · intro h
      cases bs with
      | nil => cases h
      | cons b bs =>
        rw [List.map_cons, List.map_cons, List.cons.injEq] at h
        exact ⟨b, h.1, bs, ih.mpr h.2, rfl⟩

theorem mem_of_mapM {f : α → Except ε β} {l : List α} {bs : List β} (h : l.mapM f = .ok bs)
    (hb : b ∈ bs) : ∃ a ∈ l, f a = .ok b := by
  have hmem : Except.ok b ∈ l.map f := mapM_eq_ok.mp h ▸ List.mem_map_of_mem hb
  exact List.mem_map.mp hmem

theorem forM_eq_ok {f : α → Except ε PUnit.{u+1}} {l : List α} {x : PUnit} :
    l.forM f = .ok x ↔ ∀ a ∈ l, f a = .ok ⟨⟩ := by
  induction l with
  | nil => simp [pure_eq_ok]
  | cons a l ih =>
    show (f a >>= fun _ => l.forM f) = .ok x ↔ _
    rw [bind_eq_ok, List.forall_mem_cons]
    constructor
    · rintro ⟨y, ha, hl⟩
      exact ⟨ha, ih.mp hl⟩
    · rintro ⟨ha, hl⟩
      exact ⟨⟨⟩, ha, ih.mpr hl⟩

theorem eq_ok_of_isOk {x : Except ε α} (h : x.isOk = true) : ∃ a, x = .ok a := by
  cases x with
  | error e => cases h
  | ok a => exact ⟨a, rfl⟩

theorem ok_bind (f : α → Except ε β) : ((Except.ok a : Except ε α) >>= f) = f a := rfl

/-- The check throws nothing but what `P` allows. -/
def ThrowsOnly (P : ε → Prop) (x : Except ε α) : Prop := ∀ e, x = .error e → P e

variable {P : ε → Prop}

theorem throwsOnly_of_ok {x : Except ε α} (h : x = .ok a) : ThrowsOnly P x := by
  intro e he
  rw [h] at he
  cases he

theorem throwsOnly_refuse {c : Prop} [Decidable c] (h : c → P e) : ThrowsOnly P (refuse c e) := by
  intro e' he
  unfold refuse at he
  split at he
  · rename_i hc
    cases he
    exact h hc
  · cases he

theorem ThrowsOnly.bind {x : Except ε α} {f : α → Except ε β} (hx : ThrowsOnly P x)
    (hf : ∀ a, x = .ok a → ThrowsOnly P (f a)) : ThrowsOnly P (x >>= f) := by
  cases x with
  | error e =>
    intro e' he
    cases he
    exact hx e rfl
  | ok a => exact hf a rfl

end Except

/-- An action on a state `σ` that may throw. -/
abbrev Act (ε σ α : Type u) := EStateM ε σ α

/-- Run a check inside an action. -/
def check (x : Except ε α) : Act ε σ α := fun s =>
  match x with
  | .ok a => .ok a s
  | .error e => .error e s

/-- The state a result leaves. -/
def stateOf : EStateM.Result ε σ α → σ
  | .ok _ s => s
  | .error _ s => s

section Act

variable {s s' : σ} {a : α} {b : β} {e : ε}

@[simp] theorem stateOf_ok : stateOf (.ok a s : EStateM.Result ε σ α) = s := rfl

@[simp] theorem stateOf_error : stateOf (.error e s : EStateM.Result ε σ α) = s := rfl

theorem bind_run (x : Act ε σ α) (f : α → Act ε σ β) :
    (x >>= f) s = match x s with
      | .ok a s₁ => f a s₁
      | .error e s₁ => .error e s₁ := rfl

theorem run_bind_ok {x : Act ε σ α} {f : α → Act ε σ β} :
    (x >>= f) s = .ok b s' ↔ ∃ a s₁, x s = .ok a s₁ ∧ f a s₁ = .ok b s' := by
  rw [bind_run]
  cases x s with
  | ok a s₁ =>
    constructor
    · intro h; exact ⟨a, s₁, rfl, h⟩
    · rintro ⟨_, _, h₁, h⟩
      cases h₁
      exact h
  | error e s₁ => simp

@[simp] theorem pure_run : (pure a : Act ε σ α) s = .ok a s := rfl

@[simp] theorem get_run : (get : Act ε σ σ) s = .ok s s := rfl

@[simp] theorem set_run : (set s' : Act ε σ PUnit) s = .ok ⟨⟩ s' := rfl

@[simp] theorem modify_run (f : σ → σ) : (modify f : Act ε σ PUnit) s = .ok ⟨⟩ (f s) := rfl

@[simp] theorem throw_run : (throw e : Act ε σ α) s = .error e s := rfl

@[simp] theorem check_ok : (check (.ok a) : Act ε σ α) s = .ok a s := rfl

@[simp] theorem check_error : (check (.error e) : Act ε σ α) s = .error e s := rfl

theorem check_run_ok {x : Except ε α} : check x s = .ok a s' ↔ x = .ok a ∧ s' = s := by
  cases x <;> simp [check, eq_comm]

theorem run_bind_error {x : Act ε σ α} {f : α → Act ε σ β} :
    (x >>= f) s = .error e s' ↔ x s = .error e s' ∨ ∃ a s₁, x s = .ok a s₁ ∧
    f a s₁ = .error e s' := by
  rw [bind_run]
  cases x s with
  | ok a s₁ =>
    constructor
    · intro h
      exact .inr ⟨a, s₁, rfl, h⟩
    · rintro (h | ⟨_, _, h₁, h⟩)
      · cases h
      · cases h₁
        exact h
  | error e₁ s₁ => simp

theorem check_run_error {x : Except ε α} : check x s = .error e s' ↔ x = .error e ∧ s' = s := by
  cases x <;> simp [check, eq_comm]

theorem check_bind {x : Except ε α} {f : α → Except ε β} :
    (check (x >>= f) : Act ε σ β) = check x >>= fun a => check (f a) := by
  funext s
  cases x <;> rfl

end Act

/-! ## Views of the state that an action leaves alone -/

variable {γ : Type*}

/-- Thrown or not, `m` does not change the view `v`. -/
def Keeps (v : σ → γ) (m : Act ε σ α) : Prop := ∀ s, v (stateOf (m s)) = v s

section Keeps

variable {v : σ → γ} {x : Act ε σ α} {f : α → Act ε σ β}

theorem keeps_check (c : Except ε α) : Keeps v (check c : Act ε σ α) := by
  intro s
  cases c <;> rfl

theorem keeps_get : Keeps v (get : Act ε σ σ) := fun _ => rfl

theorem keeps_pure (a : α) : Keeps v (pure a : Act ε σ α) := fun _ => rfl

theorem keeps_throw (e : ε) : Keeps v (throw e : Act ε σ α) := fun _ => rfl

theorem Keeps.bind (hx : Keeps v x) (hf : ∀ a, Keeps v (f a)) : Keeps v (x >>= f) := by
  intro s
  have h := hx s
  rw [bind_run]
  cases hr : x s with
  | ok a s₁ =>
    rw [hr] at h
    exact (hf a s₁).trans h
  | error e s₁ =>
    rw [hr] at h
    exact h

end Keeps

/-! ## Where an action ends -/

/-- `Q` holds of the state that `m` leaves, answered or thrown. -/
def Ends (m : Act ε σ α) (s : σ) (Q : σ → Prop) : Prop := Q (stateOf (m s))

section Ends

variable {s : σ} {Q : σ → Prop} {f : α → Act ε σ β}

theorem ends_pure {a : α} (h : Q s) : Ends (pure a : Act ε σ α) s Q := h

theorem ends_check_bind {x : Except ε α} (h : Q s) (hf : ∀ a, x = .ok a → Ends (f a) s Q) :
    Ends (check x >>= f) s Q := by
  cases x with
  | error e => exact h
  | ok a => exact hf a rfl

theorem ends_get_bind {f : σ → Act ε σ β} (h : Ends (f s) s Q) : Ends (get >>= f) s Q := h

theorem ends_modify_bind {g : σ → σ} {f : PUnit → Act ε σ β} (h : Ends (f ⟨⟩) (g s) Q) :
    Ends (modify g >>= f) s Q := h

theorem ends_bind {m : Act ε σ α} (hm : Ends m s Q) (hf : ∀ a s', m s = .ok a s' → Q s' →
    Ends (f a) s' Q) :
    Ends (m >>= f) s Q := by
  unfold Ends at hm ⊢
  rw [bind_run]
  cases hr : m s with
  | ok a s' =>
    rw [hr] at hm
    exact hf a s' hr hm
  | error e s' =>
    rw [hr] at hm
    exact hm

/-- After an action that keeps `v`, what follows starts from the same view. -/
theorem ends_keeps_bind {γ : Type*} {v : σ → γ} {P : γ → Prop} {m : Act ε σ α} (hm : Keeps v m)
    (h : P (v s))
    (hf : ∀ a t, v t = v s → Ends (f a) t fun s' => P (v s')) :
    Ends (m >>= f) s fun s' => P (v s') := by
  have hv := hm s
  unfold Ends
  rw [bind_run]
  cases hr : m s with
  | ok a t =>
    rw [hr] at hv
    exact hf a t hv
  | error e t =>
    rw [hr] at hv
    change P (v t)
    rwa [show v t = v s from hv]

end Ends

/-! ## How far an action moves the state -/

/-- Answered or thrown, `m` leads to a state that `R` relates to the one before. -/
def Moves (R : σ → σ → Prop) (m : Act ε σ α) : Prop := ∀ s, R s (stateOf (m s))

section Moves

variable {R : σ → σ → Prop} [IsPreorder σ R] {x : Act ε σ α} {f : α → Act ε σ β}

theorem moves_pure (a : α) : Moves R (pure a : Act ε σ α) := fun s => refl_of R s

theorem moves_get : Moves R (get : Act ε σ σ) := fun s => refl_of R s

theorem moves_check (c : Except ε α) : Moves R (check c : Act ε σ α) := by
  intro s
  cases c <;> exact refl_of R s

omit [IsPreorder σ R] in
theorem moves_modify {g : σ → σ} (h : ∀ s, R s (g s)) : Moves R (modify g : Act ε σ PUnit) := h

theorem Moves.bind (hx : Moves R x) (hf : ∀ a, Moves R (f a)) : Moves R (x >>= f) := by
  intro s
  have h := hx s
  rw [bind_run]
  cases hr : x s with
  | ok a s₁ =>
    rw [hr] at h
    exact trans_of R h (hf a s₁)
  | error e s₁ =>
    rw [hr] at h
    exact h

end Moves

/-- When `m` throws, the state it leaves is one that `R` relates to the state before. -/
def ThrowMoves (R : σ → σ → Prop) (m : Act ε σ α) : Prop := ∀ s e s', m s = .error e s' → R s s'

section ThrowMoves

variable {R : σ → σ → Prop} {x : Act ε σ α} {f : α → Act ε σ β}

theorem throwMoves_of_never (h : ∀ s, ∃ a s', x s = .ok a s') : ThrowMoves R x := by
  intro s e s' hr
  obtain ⟨a, s₁, hok⟩ := h s
  rw [hok] at hr
  cases hr

theorem Moves.bind_throwMoves [IsPreorder σ R] (hx : Moves R x) (hf : ∀ a, ThrowMoves R (f a)) :
    ThrowMoves R (x >>= f) := by
  intro s e s' hr
  have h := hx s
  rcases run_bind_error.mp hr with hxs | ⟨a, s₁, hxs, hfs⟩
  · rwa [hxs] at h
  · rw [hxs] at h
    exact trans_of R h (hf a s₁ e s' hfs)

theorem ThrowMoves.bind_never (hx : ThrowMoves R x) (hf : ∀ a s, ∃ b s', f a s = .ok b s') :
    ThrowMoves R (x >>= f) := by
  intro s e s' hr
  rcases run_bind_error.mp hr with hxs | ⟨a, s₁, hxs, hfs⟩
  · exact hx s e s' hxs
  · obtain ⟨b, s₂, hok⟩ := hf a s₁
    rw [hok] at hfs
    cases hfs

end ThrowMoves

end Lib.Checks
