import QuantaSwap.Htlc.System
import QuantaSwap.Lib.Totals

/-!
# Solvency

What the contract holds covers the open swaps and the credits, in the native coin and in every
well-behaved token.
-/

set_option autoImplicit false

set_option linter.unusedSectionVars false

open Lib.Evm Lib.Totals Function

namespace QuantaSwap.Htlc.V3

variable {Addr Bytes32 : Type} [DecidableEq Addr] [DecidableEq Bytes32] [Zero Addr] [Zero Bytes32]

/-- What one swap ties up of a token. -/
def held (token : Addr) (s : Swap Addr Bytes32) : Nat :=
  if s.status = .Open ∧ s.token = token then s.amount else 0

section Sums

variable [Fintype Bytes32]

/-- The amounts of the open swaps of a token, added up. -/
def openSum (s : Storage Addr Bytes32) (token : Addr) : Nat := ∑ h, held token (s.swaps h)

/-- What the contract owes in a token. -/
def liabilities (s : Storage Addr Bytes32) (token : Addr) : Nat :=
  openSum s token + s.outstanding token

/-- The contract can pay what it owes. -/
structure Solvent (d : Deployment Addr Bytes32) (w : W Addr Bytes32) : Prop where
  native : openSum w.storage 0 + w.storage.outstanding 0 ≤ w.native d.self
  tokens : ∀ t, t ≠ 0 → d.honest t = true →
    openSum w.storage t + w.storage.outstanding t ≤ w.tokens t d.self

end Sums

@[simp] theorem held_of_not_open {token : Addr} {s : Swap Addr Bytes32} (h : s.status ≠ .Open) :
    held token s = 0 := by
  simp [held, h]

theorem held_of_open {token : Addr} {s : Swap Addr Bytes32} (h : s.status = .Open) :
    held token s = if s.token = token then s.amount else 0 := by
  simp [held, h]

variable {d : Deployment Addr Bytes32} {x : Ctx Addr Bytes32} {s : Script Addr}
  {w w' : W Addr Bytes32}
  {call : Call Addr Bytes32}

theorem Settles.not_open {sender : Addr} {now : Nat} {h : Bytes32} {s s' : Swap Addr Bytes32}
    {payee : Addr} {ev : Event Addr Bytes32} (hs : Settles d sender now h s call s' payee ev) :
    s'.status ≠ .Open := by
  cases hs <;> simp

variable [Fintype Bytes32]

theorem openSum_setSwap (h : Bytes32) (s : Swap Addr Bytes32) (w : W Addr Bytes32) (t : Addr) :
    openSum (setSwap h s w).storage t + held t (w.storage.swaps h) =
      openSum w.storage t + held t s :=
  sum_comp_update (held t) w.storage.swaps h s

/-- An effect changes what is owed by what came in or went out. -/
theorem Effect.liabilities (he : Effect d x s w call w') :
    ∃ token amount,
      (Inflow d.toChain token amount w w' ∧ ∀ t,
        liabilities w'.storage t = liabilities w.storage t + if token = t then amount else 0) ∨
      (Outflow d.toChain token amount w w' ∧ ∀ t,
        liabilities w'.storage t + (if token = t then amount else 0) =
          liabilities w.storage t) := by
  cases he with
  | view =>
    exact ⟨0, 0, .inr ⟨⟨by simp, fun _ _ _ => by simp⟩, fun _ => by simp⟩⟩
  | @lock _ h r token amount timeout isOpen _ _ fresh _ _ _ _ _ storage balances =>
    refine ⟨token, amount, .inl ⟨balances, fun t => ?_⟩⟩
    have hsum : openSum w'.storage t + held t (w.storage.swaps h) =
        openSum w.storage t + if token = t then amount else 0 := by
      rw [storage, openSum_setSwap, held_of_open rfl]
    rw [held_of_not_open (by rw [fresh]; simp)] at hsum
    have hcredit : w'.storage.outstanding = w.storage.outstanding := by rw [storage]; rfl
    rw [V3.liabilities, V3.liabilities, hcredit]
    omega
  | @assign h r isOpen =>
    refine ⟨0, 0, .inr ⟨⟨by simp, fun _ _ _ => by simp⟩, fun t => ?_⟩⟩
    have hsum : ∀ s, held t s = held t (w.storage.swaps h) →
        openSum (setSwap h s w).storage t = openSum w.storage t := fun s hs => by
      have := openSum_setSwap h s w t
      omega
    -- The recipient does not count.
    simp only [V3.liabilities, emit_storage, setSwap_outstanding, ite_self]
    rw [hsum { w.storage.swaps h with recipient := r } rfl, Nat.add_zero]
  | @settle _ h s' payee ev _ isOpen guards paid =>
    have hsum : ∀ t, openSum (setSwap h s' w).storage t +
        (if (w.storage.swaps h).token = t then (w.storage.swaps h).amount else 0) =
        openSum w.storage t := fun t => by
      have := openSum_setSwap h s' w t
      rwa [held_of_open isOpen, held_of_not_open guards.not_open, Nat.add_zero] at this
    cases paid with
    | delivered storage paid _ =>
      have hpaid : Delivery d.toChain s _ _ _ w w' := paid.congr ⟨rfl, rfl⟩ ⟨rfl, rfl⟩
      refine ⟨_, _, .inr ⟨hpaid.outflow, fun t => ?_⟩⟩
      have := hsum t
      rw [V3.liabilities, V3.liabilities, storage]
      simp only [emit_storage, setSwap_outstanding]
      omega
    | credited _ _ eq =>
      refine ⟨0, 0, .inr ⟨⟨by simp [eq], fun _ _ _ => by simp [eq]⟩, fun t => ?_⟩⟩
      have := hsum t
      -- The amount moves from the open swaps to the credits.
      have hopen : openSum w'.storage t = openSum (setSwap h s' w).storage t := by rw [eq]; rfl
      rw [V3.liabilities, V3.liabilities, hopen, eq]
      by_cases ht : (w.storage.swaps h).token = t
      · subst ht
        simp only [emit_storage, setCredit_outstanding, setSwap_outstanding, update_self,
          if_true] at this ⊢
        split_ifs <;> omega
      · simp only [emit_storage, setCredit_outstanding, setSwap_outstanding,
          update_of_ne (Ne.symm ht), ht, if_false] at this ⊢
        split_ifs <;> omega
  | @withdraw _ token account dst amount _ _ _ _ total storage paid _ =>
    refine ⟨token, amount, .inr ⟨paid.outflow, fun t => ?_⟩⟩
    have hopen : openSum w'.storage t = openSum w.storage t := by
      simp only [openSum, storage, setCredit_swaps]
    rw [V3.liabilities, V3.liabilities, hopen, storage]
    by_cases ht : token = t
    · subst ht
      simp only [setCredit_outstanding, update_self, if_true]
      omega
    · simp [update_of_ne (Ne.symm ht), ht]

theorem Effect.solvent (he : Effect d x s w call w') (hw : Solvent d w) : Solvent d w' := by
  obtain ⟨token, amount, ⟨hin, hl⟩ | ⟨hout, hl⟩⟩ := he.liabilities
  · refine ⟨?_, fun t ht hh => ?_⟩
    · have h0 := hl 0
      have := hw.native
      have := hin.native
      unfold V3.liabilities at h0
      omega
    · have h0 := hl t
      have := hw.tokens t ht hh
      have := hin.tokens t ht hh
      unfold V3.liabilities at h0
      omega
  · refine ⟨?_, fun t ht hh => ?_⟩
    · have h0 := hl 0
      have := hw.native
      have := hout.native
      unfold V3.liabilities at h0
      omega
    · have h0 := hl t
      have := hw.tokens t ht hh
      have := hout.tokens t ht hh
      unfold V3.liabilities at h0
      omega

theorem Solvent.untouched (hu : Untouched d.toChain w w') (hw : Solvent d w) : Solvent d w' := by
  refine ⟨?_, fun t ht hh => ?_⟩
  · rw [hu.storage]; exact hw.native.trans hu.native
  · rw [hu.storage]; exact (hw.tokens t ht hh).trans (hu.tokens t hh)

theorem genesis_solvent (d : Deployment Addr Bytes32) (native : Addr → Nat)
    (tokens : Addr → Addr → Nat) (deployed : Addr → Bool) :
    Solvent d (genesis native tokens deployed) := by
  have hzero : ∀ t, openSum (initial : Storage Addr Bytes32) t = 0 := fun t => by
    simp [openSum, initial, held, Swap.empty]
  refine ⟨?_, fun t _ _ => ?_⟩
  · simp only [genesis, hzero]; exact Nat.zero_le _
  · simp only [genesis, hzero]; exact Nat.zero_le _

/-- **The contract is solvent at every point between calls**, whatever the tokens and the payees
do. -/
theorem run_solvent (d : Deployment Addr Bytes32) (native : Addr → Nat)
    (tokens : Addr → Addr → Nat) (deployed : Addr → Bool)
    (is : List (Input d.toChain (Call Addr Bytes32))) :
    Solvent d (Lib.Run.run (step d) (genesis native tokens deployed) is) :=
  Lib.Run.invariant
    (step_keeps (fun _ _ hu h => h.untouched hu) (fun _ _ _ _ _ _ he h => he.solvent h))
    (genesis_solvent d native tokens deployed) is

end QuantaSwap.Htlc.V3
