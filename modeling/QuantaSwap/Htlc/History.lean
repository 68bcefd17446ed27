import Mathlib.Data.List.Induction
import QuantaSwap.Htlc.TwoLeg

/-!
# The history of one chain

A chain as the list of everything that happened on it since the deployment. Reorganisations
replace one list by another, so what is known of a chain is what its list says.
-/

set_option autoImplicit false
set_option linter.unusedSectionVars false

open Lib.Evm Function

namespace QuantaSwap.Htlc.V3

variable {Addr Bytes32 : Type} [DecidableEq Addr] [DecidableEq Bytes32] [Zero Addr] [Zero Bytes32]

/-- What the ledgers hold when the contract is deployed. -/
structure Origin (Addr : Type) where
  native : Addr → Nat
  tokens : Addr → Addr → Nat
  deployed : Addr → Bool

abbrev Blocks (d : Deployment Addr Bytes32) := List (Input d.toChain (Call Addr Bytes32))

/-- The world after a history. -/
def worldAfter (d : Deployment Addr Bytes32) (o : Origin Addr) (bs : Blocks d) : W Addr Bytes32 :=
  Lib.Run.run (step d) (genesis o.native o.tokens o.deployed) bs

/-- The record of a hashlock after a history. -/
def recordAfter (d : Deployment Addr Bytes32) (o : Origin Addr) (h : Bytes32) (bs : Blocks d) :
    Swap Addr Bytes32 :=
  (worldAfter d o bs).storage.swaps h

/-- The time of a block, if the input carries one. -/
def timeOf {d : Deployment Addr Bytes32} : Input d.toChain (Call Addr Bytes32) → Option Nat
  | .call t .. => some t
  | .outside _ => none

def times {d : Deployment Addr Bytes32} (bs : Blocks d) : List Nat := bs.filterMap timeOf

/-- Somebody claims the hashlock with a preimage of it. -/
def Reveals (d : Deployment Addr Bytes32) (h : Bytes32)
    (i : Input d.toChain (Call Addr Bytes32)) : Prop :=
  ∃ t m pre post q, i = .call t m pre post ∧ m.call = .claim h q ∧ d.sha256 q = h

variable {d : Deployment Addr Bytes32} {o : Origin Addr} {h : Bytes32}

theorem worldAfter_reachable (bs : Blocks d) : Reachable d (worldAfter d o bs) :=
  ⟨o.native, o.tokens, o.deployed, bs, rfl⟩

theorem worldAfter_append (bs cs : Blocks d) :
    worldAfter d o (bs ++ cs) = Lib.Run.run (step d) (worldAfter d o bs) cs :=
  Lib.Run.run_append _ _ _ _

theorem worldAfter_snoc (bs : Blocks d) (i : Input d.toChain (Call Addr Bytes32)) :
    worldAfter d o (bs ++ [i]) = step d (worldAfter d o bs) i :=
  Lib.Run.run_snoc _ _ _ _

theorem recordAfter_extends (bs cs : Blocks d) :
    Extends (recordAfter d o h bs) (recordAfter d o h (bs ++ cs)) := by
  unfold recordAfter
  rw [worldAfter_append]
  exact run_extends h _ cs

theorem recordAfter_take_extends (n : Nat) (bs : Blocks d) :
    Extends (recordAfter d o h (bs.take n)) (recordAfter d o h bs) := by
  have := recordAfter_extends (o := o) (h := h) (bs.take n) (bs.drop n)
  rwa [List.take_append_drop] at this

@[simp] theorem times_append (bs cs : Blocks d) : times (bs ++ cs) = times bs ++ times cs :=
  List.filterMap_append

theorem recordAfter_snoc (bs : Blocks d) (i : Input d.toChain (Call Addr Bytes32)) :
    recordAfter d o h (bs ++ [i]) = recordAfter d o h bs ∨
      ∃ t m pre post, i = .call t m pre post ∧
        Transition d m.sender t h (recordAfter d o h bs) (recordAfter d o h (bs ++ [i])) := by
  unfold recordAfter
  rw [worldAfter_snoc]
  cases i with
  | outside u =>
    left
    rw [step_outside_storage]
  | call t m pre post =>
    obtain heq | ht := step_record h (worldAfter d o bs) m pre post
    · exact .inl heq
    · exact .inr ⟨t, m, pre, post, rfl, ht⟩

theorem timeout_le_of_refunded {now : Nat} (bs : Blocks d) (hnow : ∀ t ∈ times bs, t ≤ now)
    (hs : (recordAfter d o h bs).status = .Refunded)
    (hr : (recordAfter d o h bs).recipient ≠ 0) : (recordAfter d o h bs).timeout ≤ now := by
  have ht : Timely d now h (recordAfter d o h bs) := by
    induction bs using List.reverseRecOn with
    | nil => cases hs
    | append_singleton bs i ih =>
      have hold : ∀ t ∈ times bs, t ≤ now := fun t hm => hnow t (by simp [hm])
      obtain heq | ⟨t, m, pre, post, rfl, htr⟩ := recordAfter_snoc (o := o) (h := h) bs i
      · rw [heq] at hs hr ⊢
        exact ih hold hs hr
      · exact htr.timely.later (hnow t (by simp [times, timeOf]))
  exact ht.refunded hs hr

/-! ## What is claimed was revealed -/

theorem Effect.reveals {x : Ctx Addr Bytes32} {s : Script Addr} {w w' : W Addr Bytes32}
    {call : Call Addr Bytes32} (he : Effect d x s w call w')
    (hold : (w.storage.swaps h).status ≠ .Claimed)
    (hnew : (w'.storage.swaps h).status = .Claimed) :
    ∃ q, call = .claim h q ∧ d.sha256 q = h := by
  cases he with
  | view => exact absurd hnew hold
  | @lock _ k _ _ _ _ _ _ _ _ _ _ _ _ _ storage =>
    rw [storage, setSwap_swaps] at hnew
    by_cases hk : h = k
    · subst hk; rw [update_self] at hnew; cases hnew
    · rw [update_of_ne hk] at hnew; exact absurd hnew hold
  | @assign k r isOpen =>
    rw [emit_storage, setSwap_swaps] at hnew
    by_cases hk : h = k
    · subst hk
      rw [update_self] at hnew
      exact absurd hnew hold
    · rw [update_of_ne hk] at hnew; exact absurd hnew hold
  | @settle _ k s' _ ev _ isOpen guards paid =>
    rw [paid.swaps_eq, emit_storage, setSwap_swaps] at hnew
    by_cases hk : h = k
    · subst hk
      rw [update_self] at hnew
      cases guards with
      | release | refund => cases hnew
      | claim q _ _ hq => exact ⟨q, rfl, hq⟩
    · rw [update_of_ne hk] at hnew; exact absurd hnew hold
  | withdraw _ _ _ _ storage =>
    rw [storage] at hnew
    exact absurd hnew hold

theorem exists_reveals (bs : Blocks d) (hs : (recordAfter d o h bs).status = .Claimed) :
    ∃ i ∈ bs, Reveals d h i := by
  induction bs using List.reverseRecOn with
  | nil => cases hs
  | append_singleton bs i ih =>
    by_cases hold : (recordAfter d o h bs).status = .Claimed
    · obtain ⟨j, hj, hr⟩ := ih hold
      exact ⟨j, by simp [hj], hr⟩
    · refine ⟨i, by simp, ?_⟩
      unfold recordAfter at hs hold
      rw [worldAfter_snoc] at hs
      cases i with
      | outside u =>
        rw [step_outside_storage] at hs
        exact absurd hs hold
      | call t m pre post =>
        obtain heq | he := step_call (worldAfter d o bs) t m pre post
        · rw [heq] at hs
          exact absurd hs hold
        · obtain ⟨q, hq, hh⟩ := he.reveals hold hs
          exact ⟨t, m, pre, post, q, rfl, hq, hh⟩

/-! ## A claim that was mined -/

theorem _settle_error {x : Ctx Addr Bytes32} {token payee : Addr} {amount : Nat}
    {u : W Addr Bytes32} {e : Revert} (he : _settle d x h token payee amount u = .error e) :
    e = .Panic := by
  unfold _settle at he
  split at he
  · cases he
  · unfold checkedAdd at he
    split_ifs at he
    · cases he
    · exact (Except.error.inj he).symm
    · exact (Except.error.inj he).symm
    · exact (Except.error.inj he).symm

theorem claimed_of_code {x : Ctx Addr Bytes32} {s : Script Addr} {w : W Addr Bytes32} {p : Bytes32}
    (he : w.storage.entered = 1) (hk : Follows d.toChain Entered x s) (hvalue : x.value = 0)
    (isOpen : (w.storage.swaps h).status = .Open) (hr : (w.storage.swaps h).recipient ≠ 0)
    (ht : x.timestamp < (w.storage.swaps h).timeout) (hp : d.sha256 p = h)
    (hroom : code d x (.claim h p) w ≠ .error .Panic) :
    ∃ w', code d x (.claim h p) w = .ok w' ∧ (w'.storage.swaps h).status = .Claimed := by
  have hcode := code_of_settles he hvalue isOpen (.claim p hr ht hp)
  cases hv : _settle d x h (w.storage.swaps h).token (w.storage.swaps h).recipient
      (w.storage.swaps h).amount
      ((setSwap h { w.storage.swaps h with status := .Claimed, preimage := p }
        (setEntered 2 w)).emit (.Claimed h p x.sender)) with
  | error e =>
    rw [hv, _settle_error hv] at hcode
    exact absurd hcode hroom
  | ok v =>
    rw [hv] at hcode
    refine ⟨setEntered 1 v, hcode, ?_⟩
    have hl : Entered ((setSwap h { w.storage.swaps h with status := .Claimed, preimage := p }
        (setEntered 2 w)).emit (.Claimed h p x.sender)).storage := rfl
    rw [((_settle_spec hk hl hv).unlock he).swaps_eq]
    simp

theorem open_of_claim {x : Ctx Addr Bytes32} {w w' : W Addr Bytes32} {p : Bytes32}
    (hok : code d x (.claim h p) w = .ok w') (he : w.storage.entered = 1) (hv : x.value = 0) :
    (w.storage.swaps h).status = .Open ∧ x.timestamp < (w.storage.swaps h).timeout := by
  have hcode : code d x (.claim h p) w = claim d x h p w := by
    simp [code, receive, Payable, dispatch, hv, bind, Except.bind]
  rw [hcode, claim, nonReentrant_of_free he] at hok
  by_cases hs : (w.storage.swaps h).status = .Open
  · refine ⟨hs, ?_⟩
    by_contra hlt
    by_cases hr : (w.storage.swaps h).recipient = 0
    · simp [hs, hr, Except.map] at hok
    · simp [hs, hr, not_lt.mp hlt, Except.map] at hok
  · simp [hs, Except.map] at hok

/-- A claim mined in time on an open, assigned swap: the record ends claimed. -/
theorem claimed_of_mined (bs : Blocks d) {n k t : Nat} {m : Msg d.self (Call Addr Bytes32)}
    {pre post : List (Action d.self (Call Addr Bytes32))} {p : Bytes32} (hnk : n ≤ k)
    (hsorted : (times bs).Pairwise (· ≤ ·)) (hblock : bs[k]? = some (.call t m pre post))
    (hcall : m.call = .claim h p) (hvalue : m.value = 0) (hp : d.sha256 p = h)
    (isOpen : (recordAfter d o h (bs.take n)).status = .Open)
    (assigned : (recordAfter d o h (bs.take n)).recipient ≠ 0)
    (ht : t < (recordAfter d o h (bs.take n)).timeout)
    (hroom : code d (frame d t m pre post) m.call (worldAfter d o (bs.take k)) ≠ .error .Panic) :
    (recordAfter d o h bs).status = .Claimed := by
  have hlt : k < bs.length := (List.getElem?_eq_some_iff.mp hblock).1
  have hnth : bs[k] = .call t m pre post := (List.getElem?_eq_some_iff.mp hblock).2
  have hext : Extends (recordAfter d o h (bs.take n)) (recordAfter d o h (bs.take k)) := by
    have := recordAfter_take_extends (o := o) (h := h) n (bs.take k)
    rwa [List.take_take, Nat.min_eq_left hnk] at this
  obtain ⟨-, -, -, htimeout⟩ := hext.terms (by simp [isOpen])
  have hrecip := hext.recipient (by simp [isOpen]) assigned
  -- The claim comes in the next block, whose time is not before any earlier one.
  have hbefore : ∀ u ∈ times (bs.take k), u ≤ t := by
    intro u hu
    have hsplit : bs = bs.take k ++ bs[k] :: bs.drop (k + 1) := by
      rw [← List.drop_eq_getElem_cons hlt, List.take_append_drop]
    rw [hsplit, times_append, hnth] at hsorted
    exact (List.pairwise_append.mp hsorted).2.2 u hu t (by simp [times, timeOf])
  have hnext : recordAfter d o h (bs.take (k + 1)) =
      (step d (worldAfter d o (bs.take k)) (.call t m pre post)).storage.swaps h := by
    unfold recordAfter
    rw [List.take_add_one, hblock, Option.toList_some, worldAfter_snoc]
  have hfinal := recordAfter_take_extends (o := o) (h := h) (k + 1) bs
  have hclaimed : (recordAfter d o h (bs.take (k + 1))).status = .Claimed := by
    have hsteps := step_extends h (worldAfter d o (bs.take k)) (.call t m pre post)
    cases hst : (recordAfter d o h (bs.take k)).status with
    | None => exact absurd hst (hext.fromOpen isOpen)
    | Open =>
      have hreach := worldAfter_reachable (d := d) (o := o) (bs.take k)
      obtain ⟨w', hw', hcl⟩ := claimed_of_code (x := frame d t m pre post) (p := p)
        (reachable_entered hreach) (frame_follows t m pre post) hvalue hst
        (by rw [recordAfter] at hrecip; rw [hrecip]; exact assigned)
        (by rw [recordAfter] at htimeout; rw [htimeout]; exact ht) hp (by rw [← hcall]; exact hroom)
      rw [hnext]
      have : step d (worldAfter d o (bs.take k)) (.call t m pre post) = w' := by
        simp only [step, Lib.Evm.step, perform]
        rw [hcall]
        simp only [hw']
      rw [this]
      exact hcl
    | Claimed =>
      rw [hnext, hsteps.terminal (by rw [recordAfter] at hst; simp [hst, Status.terminal])]
      exact hst
    | Refunded =>
      have := timeout_le_of_refunded (o := o) (h := h) (bs.take k) hbefore hst
        (by rw [hrecip]; exact assigned)
      omega
  rw [hfinal.terminal (by simp [hclaimed, Status.terminal])]
  exact hclaimed

end QuantaSwap.Htlc.V3
