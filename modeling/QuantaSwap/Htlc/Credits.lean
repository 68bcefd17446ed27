import QuantaSwap.Htlc.System
import QuantaSwap.Lib.Totals

/-!
# The credit ledger

A settlement writes a credit, its owner or a push to its owner removes it, and nothing else
touches it.
-/

set_option autoImplicit false
set_option linter.unusedSectionVars false

open Lib.Evm Lib.Totals Function

namespace QuantaSwap.Htlc.V3

variable {Addr Bytes32 : Type} [DecidableEq Addr] [DecidableEq Bytes32] [Zero Addr] [Zero Bytes32]

/-- Each total is the sum of the credits it stands for. -/
def Balanced [Fintype Addr] (s : Storage Addr Bytes32) : Prop :=
  ∀ t, s.outstanding t = ∑ a, s.credits t a

/-- The credit of `account` paid `amount` to `dst`: the ledger is debited and the value is gone. -/
structure Spent (d : Deployment Addr Bytes32) (s : Script Addr) (token account dst : Addr)
    (amount : Nat) (w w' : W Addr Bytes32) : Prop where
  credit : amount ≤ w.storage.credits token account
  storage : w'.storage = (setCredit token account (w.storage.credits token account - amount)
    (w.storage.outstanding token - amount) w).storage
  paid : Delivery d.toChain s token dst amount w w'

/-- The calls that pay out a credit. -/
def Call.spends : Call Addr Bytes32 → Bool
  | .withdraw .. | .withdrawAll .. | .pushCredit .. => true
  | _ => false

variable {d : Deployment Addr Bytes32} {x : Ctx Addr Bytes32} {s : Script Addr}
  {w w' : W Addr Bytes32}
  {call : Call Addr Bytes32}

theorem Settles.not_spends {sender : Addr} {now : Nat} {h : Bytes32} {s s' : Swap Addr Bytes32}
    {payee : Addr} {ev : Event Addr Bytes32} (hs : Settles d sender now h s call s' payee ev) :
    Call.spends call = false := by
  cases hs <;> rfl

/-- An effect leaves the credits alone, adds the amount it could not deliver, or spends one. -/
theorem Effect.credits (he : Effect d x s w call w') :
    (w'.storage.credits = w.storage.credits ∧ w'.storage.outstanding = w.storage.outstanding) ∨
    (∃ token payee amount,
      w'.storage.credits = update w.storage.credits token
        (update (w.storage.credits token) payee (w.storage.credits token payee + amount)) ∧
      w'.storage.outstanding =
        update w.storage.outstanding token (w.storage.outstanding token + amount)) ∨
    (∃ token account dst amount,
      Withdraws x.sender w.storage.credits token call account dst amount ∧
      Spent d s token account dst amount w w' ∧ amount ≤ w.storage.outstanding token) := by
  cases he with
  | view => exact .inl ⟨rfl, rfl⟩
  | lock _ _ _ _ _ _ _ storage => exact .inl ⟨by rw [storage]; rfl, by rw [storage]; rfl⟩
  | assign => exact .inl ⟨rfl, rfl⟩
  | @settle _ h s' payee ev _ _ _ paid =>
    cases paid with
    | delivered storage => exact .inl ⟨by rw [storage]; rfl, by rw [storage]; rfl⟩
    | credited _ _ eq => exact .inr (.inl ⟨_, _, _, by rw [eq]; rfl, by rw [eq]; rfl⟩)
  | withdraw spends _ credit total storage paid _ =>
    exact .inr (.inr ⟨_, _, _, _, spends, ⟨credit, storage, paid⟩, total⟩)

/-! ## The sum -/

theorem Effect.balanced [Fintype Addr] (he : Effect d x s w call w') (hw : Balanced w.storage) :
    Balanced w'.storage := by
  intro t
  obtain ⟨hc, ho⟩ | ⟨token, payee, amount, hc, ho⟩ |
    ⟨token, account, dst, amount, -, hspent, htotal⟩ := he.credits
  · rw [hc, ho]; exact hw t
  · rw [hc, ho]
    by_cases ht : t = token
    · subst ht
      rw [update_self, update_self, hw t]
      exact (sum_update_of_eq _ payee _ amount rfl).symm
    · rw [update_of_ne ht, update_of_ne ht]; exact hw t
  · rw [hspent.storage, setCredit_outstanding, setCredit_credits]
    by_cases ht : t = token
    · subst ht
      have hsum := sum_update (w.storage.credits t) account (w.storage.credits t account - amount)
      have := hspent.credit
      have := hw t
      rw [update_self, update_self]
      omega
    · rw [update_of_ne ht, update_of_ne ht]; exact hw t

theorem genesis_balanced [Fintype Addr] (native : Addr → Nat) (tokens : Addr → Addr → Nat)
    (deployed : Addr → Bool) :
    Balanced (genesis native tokens deployed : W Addr Bytes32).storage := fun t => by
  simp [genesis, initial]

theorem reachable_balanced [Fintype Addr] (h : Reachable d w) : Balanced w.storage :=
  reachable_keeps (fun native tokens deployed => genesis_balanced native tokens deployed)
    (fun _ _ hu hw => by rw [hu.storage]; exact hw) (fun _ _ _ _ _ _ he hw => he.balanced hw) h

/-! ## Who spends -/

theorem Effect.spent_of_lt {token account : Addr} (he : Effect d x s w call w')
    (hlt : w'.storage.credits token account < w.storage.credits token account) :
    ∃ dst amount, Withdraws x.sender w.storage.credits token call account dst amount ∧
      Spent d s token account dst amount w w' ∧
      w'.storage.credits token account + amount = w.storage.credits token account := by
  obtain ⟨hc, -⟩ | ⟨t, payee, amount, hc, -⟩ | ⟨t, a, dst, amount, hwd, hspent, -⟩ := he.credits
  · rw [hc] at hlt; omega
  · rw [hc] at hlt
    by_cases ht : token = t
    · subst ht
      rw [update_self] at hlt
      by_cases ha : account = payee
      · subst ha; rw [update_self] at hlt; omega
      · rw [update_of_ne ha] at hlt; omega
    · rw [update_of_ne ht] at hlt; omega
  · have hc : w'.storage.credits = update w.storage.credits t
        (update (w.storage.credits t) a (w.storage.credits t a - amount)) := by
      rw [hspent.storage, setCredit_credits]
    rw [hc] at hlt
    by_cases ht : token = t
    · subst ht
      rw [update_self] at hlt
      by_cases ha : account = a
      · subst ha
        refine ⟨dst, amount, hwd, hspent, ?_⟩
        have := hspent.credit
        rw [hc, update_self, update_self]
        omega
      · rw [update_of_ne ha] at hlt; omega
    · rw [update_of_ne ht] at hlt; omega

theorem Effect.spent (he : Effect d x s w call w') (hcall : Call.spends call = true) :
    w' = w ∨ ∃ token account dst amount,
      Withdraws x.sender w.storage.credits token call account dst amount ∧
        Spent d s token account dst amount w w' := by
  cases he with
  | view => exact .inl rfl
  | lock args => cases call <;> simp [lockArgs, Call.spends] at args hcall
  | assign => cases hcall
  | settle _ guards => rw [guards.not_spends] at hcall; cases hcall
  | withdraw spends _ credit _ storage paid _ =>
    exact .inr ⟨_, _, _, _, spends, credit, storage, paid⟩

/-- **The credit ledger.** After every run the totals are the sums of the credits. Whatever input
comes next, a credit that goes down was spent by its owner or pushed to its owner, and the value
went where the call says. A call that asks for a payout and does not get it changes nothing. -/
theorem credit_ledger [Fintype Addr] (d : Deployment Addr Bytes32) (native : Addr → Nat)
    (tokens : Addr → Addr → Nat) (deployed : Addr → Bool)
    (is : List (Input d.toChain (Call Addr Bytes32))) :
    let w := Lib.Run.run (step d) (genesis native tokens deployed) is
    Balanced w.storage ∧
    (∀ i token account,
      (step d w i).storage.credits token account < w.storage.credits token account →
      ∃ t m pre post dst amount, i = .call t m pre post ∧
        Withdraws m.sender.1 w.storage.credits token m.call account dst amount ∧
        Spent d (script d m pre post) token account dst amount w (step d w i) ∧
        (step d w i).storage.credits token account + amount = w.storage.credits token account) ∧
    (∀ t m pre post, Call.spends m.call = true →
      step d w (.call t m pre post) = w ∨
      ∃ token account dst amount,
        Withdraws m.sender.1 w.storage.credits token m.call account dst amount ∧
        Spent d (script d m pre post) token account dst amount w
          (step d w (.call t m pre post))) := by
  refine ⟨reachable_balanced ⟨native, tokens, deployed, is, rfl⟩, ?_, ?_⟩
  · intro i token account hlt
    cases i with
    | outside o =>
      have hst := (outside_untouched (c := d.toChain)
        (Lib.Run.run (step d) (genesis native tokens deployed) is) o).storage
      exact absurd hlt (by rw [show (step d _ (.outside o)).storage = _ from hst]; omega)
    | call t m pre post =>
      obtain heq | he :=
        step_call (Lib.Run.run (step d) (genesis native tokens deployed) is) t m pre post
      · rw [heq] at hlt; omega
      · obtain ⟨dst, amount, hwd, hspent, hsum⟩ := he.spent_of_lt hlt
        exact ⟨t, m, pre, post, dst, amount, rfl, hwd, hspent, hsum⟩
  · intro t m pre post hcall
    obtain heq | he :=
      step_call (Lib.Run.run (step d) (genesis native tokens deployed) is) t m pre post
    · exact .inl heq
    · exact he.spent hcall

end QuantaSwap.Htlc.V3
