import Mathlib.Logic.Relation

/-!
# Programs that ask their surroundings

A program is a tree: it ends with a value, or makes a request and goes on with the answer. What a
request does to the surroundings, and which answers it may get, is a relation; so a program has as
many runs as there are answers. `Safe` says that in every run it makes allowed requests only.
-/

set_option autoImplicit false

namespace Lib

/-- `Req β` are the requests that are answered with a `β`. -/
inductive Program (Req : Type → Type) (α : Type) : Type 1
  | ret (a : α)
  | ask {β : Type} (r : Req β) (k : β → Program Req α)

namespace Program

variable {Req : Type → Type} {α β γ : Type}

def bind (p : Program Req α) (f : α → Program Req β) : Program Req β :=
  match p with
  | .ret a => f a
  | .ask r k => .ask r fun b => (k b).bind f

/-- A single request. -/
def request (r : Req β) : Program Req β := .ask r .ret

instance : Monad (Program Req) where
  pure := .ret
  bind := bind

@[simp] theorem pure_eq (a : α) : (pure a : Program Req α) = .ret a := rfl

@[simp] theorem ret_bind (a : α) (f : α → Program Req β) : (Program.ret a >>= f) = f a := rfl

@[simp] theorem ask_bind (r : Req γ) (k : γ → Program Req α) (f : α → Program Req β) :
    (Program.ask r k >>= f) = .ask r fun b => k b >>= f := rfl

theorem bind_ret (p : Program Req α) : (p >>= Program.ret) = p := by
  induction p with
  | ret a => rfl
  | ask r k ih =>
    rw [ask_bind]
    congr 1
    funext b
    exact ih b

theorem bind_assoc (p : Program Req α) (f : α → Program Req β) (g : β → Program Req γ) :
    (p >>= f >>= g) = p >>= fun a => f a >>= g := by
  induction p with
  | ret a => rfl
  | ask r k ih =>
    simp only [ask_bind]
    congr 1
    funext b
    exact ih b

instance : LawfulMonad (Program Req) := LawfulMonad.mk'
  _ bind_ret (fun _ _ => rfl) bind_assoc

/-! ## Steps -/

section Steps

variable {Req : Type → Type} {σ α β : Type}

/-- What requests do: from a state, with an answer, to a state. -/
abbrev Effects (Req : Type → Type) (σ : Type) := σ → ∀ {β : Type}, Req β → β → σ → Prop

/-- Every request is made where `G` allows it, however the surroundings have moved before it, and at
the end `Q` holds of the value and the state. -/
def Safe (env : σ → σ → Prop) (op : Effects Req σ) (G : σ → ∀ {β : Type}, Req β → Prop)
    (Q : α → σ → Prop) : Program Req α → σ → Prop
  | .ret a, s => Q a s
  | .ask r k, s => ∀ t, Relation.ReflTransGen env s t →
      G t r ∧ ∀ b s', op t r b s' → Safe env op G Q (k b) s'

variable {env : σ → σ → Prop} {op : Effects Req σ} {G : σ → ∀ {β : Type}, Req β → Prop}
  {Q Q' : α → σ → Prop} {s s' : σ} {p p' : Program Req α}

@[simp] theorem safe_ret (a : α) : Safe env op G Q (.ret a) s ↔ Q a s := Iff.rfl

theorem safe_ask {r : Req β} {k : β → Program Req α} :
    Safe env op G Q (.ask r k) s ↔ ∀ t, Relation.ReflTransGen env s t →
      G t r ∧ ∀ b s', op t r b s' → Safe env op G Q (k b) s' := Iff.rfl

theorem Safe.mono (h : Safe env op G Q p s) (hQ : ∀ a s, Q a s → Q' a s) :
    Safe env op G Q' p s := by
  induction p generalizing s with
  | ret a => exact hQ a s h
  | ask r k ih =>
    intro t ht
    obtain ⟨hg, hk⟩ := h t ht
    exact ⟨hg, fun b s' hr => ih b (hk b s' hr)⟩

theorem safe_bind {p : Program Req β} {f : β → Program Req α} :
    Safe env op G Q (p >>= f) s ↔ Safe env op G (fun b s => Safe env op G Q (f b) s) p s := by
  induction p generalizing s with
  | ret b => exact Iff.rfl
  | ask r k ih =>
    constructor
    · intro h t ht
      obtain ⟨hg, hk⟩ := h t ht
      exact ⟨hg, fun b s' hr => (ih b).mp (hk b s' hr)⟩
    · intro h t ht
      obtain ⟨hg, hk⟩ := h t ht
      exact ⟨hg, fun b s' hr => (ih b).mpr (hk b s' hr)⟩

end Steps

/-! ## Programs that fail -/

section Failing

variable {Req : Type → Type} {σ α β ε : Type} {env : σ → σ → Prop} {op : Effects Req σ}
  {G : σ → ∀ {β : Type}, Req β → Prop} {s : σ}

/-- `Safe` of a program that may fail: `Q` holds of the value, `X` of the failure. -/
def SafeX (env : σ → σ → Prop) (op : Effects Req σ) (G : σ → ∀ {β : Type}, Req β → Prop)
    (Q : α → σ → Prop) (X : ε → σ → Prop) (p : ExceptT ε (Program Req) α) (s : σ) : Prop :=
  Safe env op G
    (fun r s =>
      match r with
      | .ok a => Q a s
      | .error e => X e s) p.run s

variable {Q Q' : α → σ → Prop} {X X' : ε → σ → Prop}

@[simp] theorem safeX_pure (a : α) :
    SafeX env op G Q X (pure a : ExceptT ε (Program Req) α) s ↔ Q a s := Iff.rfl

@[simp] theorem safeX_throw (e : ε) :
    SafeX env op G Q X (throw e : ExceptT ε (Program Req) α) s ↔ X e s := Iff.rfl

theorem SafeX.mono {p : ExceptT ε (Program Req) α} (h : SafeX env op G Q X p s)
    (hQ : ∀ a s, Q a s → Q' a s) (hX : ∀ e s, X e s → X' e s) : SafeX env op G Q' X' p s := by
  refine Safe.mono h fun r s hr => ?_
  cases r with
  | ok a => exact hQ a s hr
  | error e => exact hX e s hr

theorem safeX_bind {p : ExceptT ε (Program Req) β} {f : β → ExceptT ε (Program Req) α} :
    SafeX env op G Q X (p >>= f) s ↔
      SafeX env op G (fun b s => SafeX env op G Q X (f b) s) X p s := by
  unfold SafeX
  change Safe env op G _ (p.run >>= fun r => _) s ↔ _
  rw [safe_bind]
  constructor
  · intro h
    refine h.mono fun r s hr => ?_
    cases r <;> exact hr
  · intro h
    refine h.mono fun r s hr => ?_
    cases r <;> exact hr

theorem safeX_tryCatch {p : ExceptT ε (Program Req) α} {handle : ε → ExceptT ε (Program Req) α} :
    SafeX env op G Q X (tryCatch p handle) s ↔
      SafeX env op G Q (fun e s => SafeX env op G Q X (handle e) s) p s := by
  unfold SafeX
  change Safe env op G _ (p.run >>= fun r => _) s ↔ _
  rw [safe_bind]
  constructor
  · intro h
    refine h.mono fun r s hr => ?_
    cases r <;> exact hr
  · intro h
    refine h.mono fun r s hr => ?_
    cases r <;> exact hr

/-- A request that cannot fail. -/
def demand (r : Req β) : ExceptT ε (Program Req) β := ExceptT.lift (request r)

/-- A request that may be answered with a failure. -/
def attempt (r : Req (Except ε β)) : ExceptT ε (Program Req) β := ExceptT.mk (request r)

theorem safeX_demand {r : Req α} :
    SafeX env op G Q X (demand r) s ↔ ∀ t, Relation.ReflTransGen env s t →
      G t r ∧ ∀ b s', op t r b s' → Q b s' := Iff.rfl

theorem safeX_attempt {r : Req (Except ε α)} :
    SafeX env op G Q X (attempt r) s ↔ ∀ t, Relation.ReflTransGen env s t →
      G t r ∧ ∀ b s', op t r b s' →
        match b with
        | .ok a => Q a s'
        | .error e => X e s' := Iff.rfl

end Failing

/-! ## A process -/

section Process

variable {Req : Type → Type} {σ : Type} (env crash : σ → σ → Prop) (op : Effects Req σ)

/-- A process that runs `main` again and again, in surroundings that move at any time, and that may
crash at any time. -/
inductive Turn (main : Program Req Unit) :
    Option (Program Req Unit) × σ → Option (Program Req Unit) × σ → Prop
  | start {s : σ} : Turn main (none, s) (some main, s)
  | answer {s s' : σ} {β : Type} {r : Req β} {k : β → Program Req Unit} {b : β}
    (h : op s r b s') : Turn main (some (.ask r k), s) (some (k b), s')
  | done {s : σ} : Turn main (some (.ret ()), s) (none, s)
  | env {p : Option (Program Req Unit)} {s s' : σ} (h : env s s') : Turn main (p, s) (p, s')
  | crash {p : Option (Program Req Unit)} {s s' : σ} (h : crash s s') : Turn main (p, s) (none, s')

variable {env crash op} {G : σ → ∀ {β : Type}, Req β → Prop} {I T : σ → Prop}

theorem Safe.moved {p : Program Req Unit} {s s' : σ} (h : Safe env op G (fun _ => T) p s)
    (hm : env s s') (hT : ∀ s s', env s s' → T s → T s') : Safe env op G (fun _ => T) p s' := by
  cases p with
  | ret _ => exact hT _ _ hm h
  | ask r k => exact fun t ht => h t (.head hm ht)

theorem Safe.of_kept {α : Type} {Q : α → σ → Prop} {p : Program Req α} {s : σ}
    (hop : ∀ s s' {β : Type} (r : Req β) (b : β), I s → G s r → op s r b s' → I s')
    (henv : ∀ s s', I s → env s s' → I s') (hi : I s)
    (h : Safe (fun s s' => env s s' ∧ I s ∧ I s') (fun s _ r b s' => op s r b s' ∧ I s ∧ I s') G Q
      p s) : Safe env op G Q p s := by
  induction p generalizing s with
  | ret a => exact h
  | ask r k ih =>
    intro t ht
    have hmoved : I t ∧ Relation.ReflTransGen (fun s s' => env s s' ∧ I s ∧ I s') s t := by
      induction ht with
      | refl => exact ⟨hi, .refl⟩
      | tail _ hstep iht =>
        obtain ⟨hit, hrun⟩ := iht
        have hi' := henv _ _ hit hstep
        exact ⟨hi', hrun.tail ⟨hstep, hit, hi'⟩⟩
    obtain ⟨hit, hrun⟩ := hmoved
    obtain ⟨hg, hk⟩ := h t hrun
    refine ⟨hg, fun b s' hr => ?_⟩
    have hi' := hop _ _ _ _ hit hg hr
    exact ih b hi' (hk b s' ⟨hr, hit, hi'⟩)

/-- The states that a process reaches, if every run of `main` that begins where `I` and `T` hold
makes allowed requests only and ends where `T` holds, and if allowed requests, the surroundings and
a crash keep `I`. -/
theorem process_safe {main : Program Req Unit} {s₀ : σ}
    (hmain : ∀ s, I s → T s → Safe env op G (fun _ => T) main s)
    (hop : ∀ s s' {β : Type} (r : Req β) (b : β), I s → G s r → op s r b s' → I s')
    (henv : ∀ s s', I s → env s s' → I s') (henvT : ∀ s s', env s s' → T s → T s')
    (hcrash : ∀ s s', I s → crash s s' → I s' ∧ T s') (h₀ : I s₀) (hT₀ : T s₀)
    {c : Option (Program Req Unit) × σ}
    (hc : Relation.ReflTransGen (Turn env crash op main) (none, s₀) c) :
    I c.2 ∧ (c.1 = none → T c.2) ∧ ∀ p, c.1 = some p → Safe env op G (fun _ => T) p c.2 := by
  induction hc with
  | refl => exact ⟨h₀, fun _ => hT₀, (fun _ h => by cases h)⟩
  | tail _ hturn ih =>
    obtain ⟨hi, ht, hp⟩ := ih
    cases hturn with
    | start =>
      refine ⟨hi, (fun h => by cases h), fun p h => ?_⟩
      cases h
      exact hmain _ hi (ht rfl)
    | answer hr =>
      obtain ⟨hg, hk⟩ := hp _ rfl _ .refl
      refine ⟨hop _ _ _ _ hi hg hr, (fun h => by cases h), fun p h => ?_⟩
      cases h
      exact hk _ _ hr
    | done => exact ⟨hi, fun _ => hp _ rfl, (fun _ h => by cases h)⟩
    | env h =>
      exact ⟨henv _ _ hi h, fun hnone => henvT _ _ h (ht hnone),
        fun p heq => (hp p heq).moved h henvT⟩
    | crash h =>
      obtain ⟨hi', ht'⟩ := hcrash _ _ hi h
      exact ⟨hi', fun _ => ht', (fun _ h => by cases h)⟩

/-- What the allowed requests keep on top of `I` holds in every state that the process reaches. -/
theorem process_invariant {main : Program Req Unit} {s₀ : σ} {J : σ → Prop}
    (hguard : ∀ {β : Type} {r : Req β} {k : β → Program Req Unit} {s : σ},
      Relation.ReflTransGen (Turn env crash op main) (none, s₀) (some (.ask r k), s) → I s ∧ G s r)
    (hop : ∀ s s' {β : Type} (r : Req β) (b : β), I s → J s → G s r → op s r b s' → J s')
    (henv : ∀ s s', env s s' → J s → J s') (hcrash : ∀ s s', crash s s' → J s → J s') (h₀ : J s₀)
    {c : Option (Program Req Unit) × σ}
    (hc : Relation.ReflTransGen (Turn env crash op main) (none, s₀) c) : J c.2 := by
  induction hc with
  | refl => exact h₀
  | tail hrun hturn ih =>
    cases hturn with
    | start => exact ih
    | answer hr =>
      obtain ⟨hi, hg⟩ := hguard hrun
      exact hop _ _ _ _ hi ih hg hr
    | done => exact ih
    | env h => exact henv _ _ h ih
    | crash h => exact hcrash _ _ h ih

end Process

/-! ## Playing a program -/

section Play

variable {Req : Type → Type} {σ α : Type}

/-- One way in which the surroundings may answer, where they have an answer at all. -/
abbrev Oracle (Req : Type → Type) (σ : Type) := σ → ∀ {β : Type}, Req β → Option (β × σ)

/-- The first `n` requests of a program, answered by the oracle. -/
def play (answer : Oracle Req σ) : Nat → Program Req α → σ → Option (Program Req α × σ)
  | 0, p, s => some (p, s)
  | _ + 1, .ret a, s => some (.ret a, s)
  | n + 1, .ask r k, s => (answer s r).bind fun x => play answer n (k x.1) x.2

/-- The program to its end. -/
def playOut (answer : Oracle Req σ) (n : Nat) (p : Program Req α) (s : σ) : Option σ :=
  match play answer n p s with
  | some (.ret _, s') => some s'
  | _ => none

variable {env crash : σ → σ → Prop} {op : Effects Req σ} {answer : Oracle Req σ}
  {main p p' : Program Req Unit} {s s' : σ} {n : Nat}

theorem play_turns (hanswer : ∀ s s' {β : Type} (r : Req β) (b : β), answer s r = some (b, s') →
    op s r b s') (h : play answer n p s = some (p', s')) :
    Relation.ReflTransGen (Turn env crash op main) (some p, s) (some p', s') := by
  induction n generalizing p s with
  | zero =>
    cases h
    exact .refl
  | succ n ih =>
    cases p with
    | ret a =>
      cases h
      exact .refl
    | ask r k =>
      unfold play at h
      obtain ⟨⟨b, t⟩, ht, h⟩ := Option.bind_eq_some_iff.mp h
      exact .head (.answer (hanswer _ _ _ _ ht)) (ih h)

theorem playOut_turns (hanswer : ∀ s s' {β : Type} (r : Req β) (b : β),
    answer s r = some (b, s') → op s r b s') (h : playOut answer n main s = some s') :
    Relation.ReflTransGen (Turn env crash op main) (none, s) (none, s') := by
  unfold playOut at h
  split at h
  · rename_i t hplay
    cases h
    exact .head .start ((play_turns hanswer hplay).tail .done)
  · cases h

end Play

end Program

end Lib
