import QuantaSwap.Htlc.Lifecycle

/-!
# Settlement cannot be blocked

A claim, a refund or a release whose guards hold goes through, whatever the payee or the token
does: the value is delivered, or the amount is credited.
-/

set_option autoImplicit false
set_option linter.unusedSectionVars false

open Lib.Evm Function

namespace QuantaSwap.Htlc.V3

variable {Addr Bytes32 : Type} [DecidableEq Addr] [DecidableEq Bytes32] [Zero Addr] [Zero Bytes32]

/-! ## The counters cannot overflow -/

/-- How many swaps were settled. -/
def settlements : List (Event Addr Bytes32) → Nat
  | [] => 0
  | .Delivered .. :: es | .PayoutCredited .. :: es => settlements es + 1
  | _ :: es => settlements es

theorem settlements_append (es fs : List (Event Addr Bytes32)) :
    settlements (es ++ fs) = settlements es + settlements fs := by
  induction es with
  | nil => simp [settlements]
  | cons e es ih =>
    cases e with
    | Delivered | PayoutCredited => simp only [List.cons_append, settlements, ih]; omega
    | _ => simp only [List.cons_append, settlements, ih]

/-- No swap is larger than the cap, and no counter larger than the settlements allow. -/
structure Bounded (w : W Addr Bytes32) : Prop where
  amounts : ∀ h, (w.storage.swaps h).amount ≤ maxUint128
  credits : ∀ t a, w.storage.credits t a ≤ settlements w.log * maxUint128
  outstanding : ∀ t, w.storage.outstanding t ≤ settlements w.log * maxUint128

variable {d : Deployment Addr Bytes32} {x : Ctx Addr Bytes32} {s : Script Addr}
  {w w' : W Addr Bytes32}
  {call : Call Addr Bytes32}

theorem Effect.amounts (he : Effect d x s w call w') (k : Bytes32) :
    (w'.storage.swaps k).amount = (w.storage.swaps k).amount ∨
      (w'.storage.swaps k).amount ≤ maxUint128 := by
  have hset : ∀ (h : Bytes32) (s : Swap Addr Bytes32) (v : W Addr Bytes32),
      v.storage.swaps = update w.storage.swaps h s →
      s.amount = (w.storage.swaps h).amount ∨ s.amount ≤ maxUint128 →
      (v.storage.swaps k).amount = (w.storage.swaps k).amount ∨
        (v.storage.swaps k).amount ≤ maxUint128 := fun h s v hv hs => by
    by_cases hk : k = h
    · subst hk; rw [hv, update_self]; exact hs
    · rw [hv, update_of_ne hk]; exact .inl rfl
  cases he with
  | view => exact .inl rfl
  | lock _ _ _ _ cap _ _ storage => exact hset _ _ _ (by rw [storage]; rfl) (.inr cap)
  | @assign h r => exact hset h { w.storage.swaps h with recipient := r } _ rfl (.inl rfl)
  | settle _ guards paid =>
    exact hset _ _ _ (by rw [paid.swaps_eq]; rfl) (.inl (by cases guards <;> rfl))
  | withdraw _ _ _ _ storage => exact .inl (by rw [storage]; rfl)

theorem Effect.counters (he : Effect d x s w call w')
    (ha : ∀ h, (w.storage.swaps h).amount ≤ maxUint128)
    (t a : Addr) :
    w'.storage.credits t a + settlements w.log * maxUint128 ≤
        w.storage.credits t a + settlements w'.log * maxUint128 ∧
      w'.storage.outstanding t + settlements w.log * maxUint128 ≤
        w.storage.outstanding t + settlements w'.log * maxUint128 := by
  cases he with
  | view => exact ⟨le_refl _, le_refl _⟩
  | lock _ _ _ _ _ _ _ storage _ log =>
    have hlog : settlements w'.log = settlements w.log := by
      rw [log, settlements_append]; simp [settlements]
    rw [hlog, storage]
    exact ⟨le_refl _, le_refl _⟩
  | assign =>
    rw [emit_log, settlements_append]
    simp [settlements]
  | @settle _ h s' payee ev _ _ guards paid =>
    have hev : settlements [ev] = 0 := by cases guards <;> rfl
    have hcap := ha h
    cases paid with
    | delivered storage _ log =>
      have hlog : settlements w'.log = settlements w.log + 1 := by
        rw [log, settlements_append, emit_log, settlements_append, hev]; rfl
      rw [hlog, storage]
      simp only [emit_storage, setSwap_credits, setSwap_outstanding, Nat.add_mul, Nat.one_mul]
      exact ⟨by omega, by omega⟩
    -- A payout that fails adds its amount to one credit, and is counted as a settlement.
    | credited _ _ eq =>
      have hlog : settlements w'.log = settlements w.log + 1 := by
        rw [eq, emit_log, settlements_append, setCredit_log, emit_log, settlements_append, hev]; rfl
      rw [hlog, eq]
      simp only [emit_storage, setCredit_credits, setCredit_outstanding, setSwap_credits,
        setSwap_outstanding, Nat.add_mul, Nat.one_mul]
      constructor
      · by_cases ht : t = (w.storage.swaps h).token
        · subst ht
          by_cases hp : a = payee
          · subst hp; rw [update_self, update_self]; omega
          · rw [update_self, update_of_ne hp]; omega
        · rw [update_of_ne ht]; omega
      · by_cases ht : t = (w.storage.swaps h).token
        · subst ht; rw [update_self]; omega
        · rw [update_of_ne ht]; omega
  | @withdraw _ token account _ amount _ _ _ _ _ storage _ log =>
    have hlog : settlements w'.log = settlements w.log := by
      rw [log, settlements_append]; simp [settlements]
    rw [hlog, storage]
    simp only [setCredit_credits, setCredit_outstanding]
    constructor
    · by_cases ht : t = token
      · subst ht
        by_cases hp : a = account
        · subst hp; rw [update_self, update_self]; omega
        · rw [update_self, update_of_ne hp]
      · rw [update_of_ne ht]
    · by_cases ht : t = token
      · subst ht; rw [update_self]; omega
      · rw [update_of_ne ht]

theorem Effect.bounded (he : Effect d x s w call w') (hb : Bounded w) : Bounded w' := by
  refine ⟨fun h => ?_, fun t a => ?_, fun t => ?_⟩
  · have := hb.amounts h
    obtain heq | hle := he.amounts h <;> omega
  · have := (he.counters hb.amounts t a).1
    have := hb.credits t a
    omega
  · have := (he.counters hb.amounts t t).2
    have := hb.outstanding t
    omega

theorem reachable_bounded (hw : Reachable d w) : Bounded w := by
  refine reachable_keeps (I := Bounded) (fun _ _ _ => ?_) (fun _ _ hu hb => ?_)
    (fun _ _ _ _ _ _ he hb => he.bounded hb) hw
  · exact ⟨fun _ => Nat.zero_le _, fun _ _ => Nat.zero_le _, fun _ => Nat.zero_le _⟩
  · exact ⟨by rw [hu.storage]; exact hb.amounts, by rw [hu.storage, hu.log]; exact hb.credits,
      by rw [hu.storage, hu.log]; exact hb.outstanding⟩

theorem room (n credit amount : Nat) (hn : n < 2 ^ 128) (hc : credit ≤ n * maxUint128)
    (ha : amount ≤ maxUint128) : credit + amount ≤ maxUint256 := by
  have hle : n * maxUint128 ≤ (2 ^ 128 - 1) * maxUint128 := Nat.mul_le_mul_right _ (by omega)
  simp only [maxUint128, maxUint256] at *
  omega

/-! ## The call goes through -/

theorem checkedAdd_of_le {a b : Nat} (h : a + b ≤ maxUint256) : checkedAdd a b = .ok (a + b) := by
  simp [checkedAdd, h]

theorem _settle_total {h : Bytes32} {token payee : Addr} {amount : Nat} {u : W Addr Bytes32}
    (hc : u.storage.credits token payee + amount ≤ maxUint256)
    (ho : u.storage.outstanding token + amount ≤ maxUint256) :
    ∃ v, _settle d x h token payee amount u = .ok v := by
  unfold _settle
  split
  · exact ⟨_, rfl⟩
  · rw [checkedAdd_of_le hc, checkedAdd_of_le ho]
    exact ⟨_, rfl⟩

theorem _strictPayout_refused {token dst : Addr} {amount : Nat} {u : W Addr Bytes32}
    (hno : x.callee.answer.ok = false) : ∃ e, _strictPayout d x token dst amount u = .error e := by
  unfold _strictPayout
  split
  · exact ⟨.TransferFailed, by simp [callNative, hno]⟩
  · cases _selfBalance d token x.readBefore u with
    | error e => exact ⟨e, rfl⟩
    | ok n => exact ⟨.TransferFailed, by simp [_tokenCall, callToken, hno, bind, Except.bind]⟩

theorem _settle_refused {h : Bytes32} {token payee : Addr} {amount : Nat} {u : W Addr Bytes32}
    (hno : x.callee.answer.ok = false) :
    _settle d x h token payee amount u = (do
      let credit ← checkedAdd (u.storage.credits token payee) amount
      let outstanding ← checkedAdd (u.storage.outstanding token) amount
      return (setCredit token payee credit outstanding u).emit
        (.PayoutCredited token payee h amount)) := by
  obtain ⟨e, he⟩ : ∃ e, _strictPayout d x token payee amount u = .error e :=
    _strictPayout_refused hno
  have hsd : ∃ e, selfDeliver d x d.self (deliveryBudget x.gasLeft) token payee amount u =
    .error e := by
    unfold selfDeliver
    split_ifs
    · exact ⟨_, rfl⟩
    · exact ⟨_, rfl⟩
    · exact ⟨e, he⟩
  obtain ⟨e', he'⟩ := hsd
  simp only [_settle, he']

theorem nonReentrant_of_free {body : W Addr Bytes32 → Except Revert (W Addr Bytes32)}
    (he : w.storage.entered = 1) :
    nonReentrant body w = (body (setEntered 2 w)).map (setEntered 1) := by
  simp only [nonReentrant, he, ne_eq, not_true_eq_false, if_false]
  cases body (setEntered 2 w) <;> rfl

theorem code_of_settles {h : Bytes32} {s' : Swap Addr Bytes32} {payee : Addr}
    {ev : Event Addr Bytes32} (he : w.storage.entered = 1)
    (hvalue : x.value = 0) (isOpen : (w.storage.swaps h).status = .Open)
    (guards : Settles d x.sender x.timestamp h (w.storage.swaps h) call s' payee ev) :
    code d x call w =
      (_settle d x h (w.storage.swaps h).token payee (w.storage.swaps h).amount
        ((setSwap h s' (setEntered 2 w)).emit ev)).map (setEntered 1) := by
  have hcode : Payable call = false → code d x call w = dispatch d x call w := fun hp => by
    simp [code, receive, hp, hvalue, bind, Except.bind]
  cases guards with
  | release hr hi =>
    simp only [hcode rfl, dispatch, release]
    rw [nonReentrant_of_free he, if_neg (by simp [isOpen]), if_neg (by simp [hi]),
      if_neg (by simp [hr])]
    rfl
  | claim p hr ht hp =>
    simp only [hcode rfl, dispatch, claim]
    rw [nonReentrant_of_free he, if_neg (by simp [isOpen]), if_neg (by simpa using hr),
      if_neg (by simpa using ht), if_neg (by simp [hp])]
    rfl
  | refund ht =>
    simp only [hcode rfl, dispatch, refund]
    rw [nonReentrant_of_free he, if_neg (by simp [isOpen]), if_neg (by simpa using ht)]
    rfl

/-- A settling call whose guards hold goes through, from any bounded world. -/
theorem Bounded.settles {h : Bytes32} {s' : Swap Addr Bytes32} {payee : Addr}
    {ev : Event Addr Bytes32} (hb : Bounded w) (few : settlements w.log < 2 ^ 128)
    (he : w.storage.entered = 1) (hk : Follows d.toChain Entered x s) (hvalue : x.value = 0)
    (isOpen : (w.storage.swaps h).status = .Open)
    (guards : Settles d x.sender x.timestamp h (w.storage.swaps h) call s' payee ev) :
    ∃ w', code d x call w = .ok w' ∧ w'.storage.swaps = update w.storage.swaps h s' ∧
      PaidOut d.toChain s (w.storage.swaps h).token payee (w.storage.swaps h).amount w w' := by
  obtain ⟨v, hv⟩ : ∃ v, _settle d x h (w.storage.swaps h).token payee (w.storage.swaps h).amount
      ((setSwap h s' (setEntered 2 w)).emit ev) = .ok v :=
    _settle_total (room _ _ _ few (hb.credits (w.storage.swaps h).token payee) (hb.amounts h))
      (room _ _ _ few (hb.outstanding (w.storage.swaps h).token) (hb.amounts h))
  have hl : Entered ((setSwap h s' (setEntered 2 w)).emit ev).storage := rfl
  have hpaid := (_settle_spec hk hl hv).unlock he
  refine ⟨setEntered 1 v, ?_, ?_, hpaid.paidOut⟩
  · rw [code_of_settles he hvalue isOpen guards, hv]
    rfl
  · rw [hpaid.swaps_eq]
    rfl

/-- **No payee can roll a settlement back.** In every reachable world with fewer than `2 ^ 128`
settlements, a claim, refund or release of an open swap whose guards hold goes through for every
script of the code it reaches, leaves the terminal record and pays out or credits the amount. -/
theorem settlement_succeeds (d : Deployment Addr Bytes32) (w : W Addr Bytes32)
    (hw : Reachable d w) (few : settlements w.log < 2 ^ 128) (h : Bytes32)
    (isOpen : (w.storage.swaps h).status = .Open) (t : Nat) (m : Msg d.self (Call Addr Bytes32))
    (hvalue : m.value = 0) (s' : Swap Addr Bytes32) (payee : Addr) (ev : Event Addr Bytes32)
    (guards : Settles d m.sender t h (w.storage.swaps h) m.call s' payee ev)
    (pre post : List (Action d.self (Call Addr Bytes32))) :
    ∃ w', code d (frame d t m pre post) m.call w = .ok w' ∧
      w'.storage.swaps = update w.storage.swaps h s' ∧
      PaidOut d.toChain (script d m pre post)
      (w.storage.swaps h).token payee (w.storage.swaps h).amount w w' :=
  (reachable_bounded hw).settles few (reachable_entered hw)
    (frame_follows t m pre post) hvalue isOpen
    guards

/-- The claim of account 2's swap, by account 1. -/
def claimOf (ok : Bool) : Msg small.self (Call (Fin 4) (Fin 4)) :=
  Msg.of 1 (.claim 3 2) 0 ⟨ok, .empty⟩

/-- The claim goes through, and account 2 gets its 7. -/
def ClaimPays (m : Msg small.self (Call (Fin 4) (Fin 4))) : Prop :=
  ∃ w', code small (frame small 5 m [] []) m.call smallLocked = .ok w' ∧
    w'.storage.swaps = update smallLocked.storage.swaps 3
      { smallLocked.storage.swaps 3 with status := .Claimed, preimage := 2 } ∧
    PaidOut small.toChain (script small m [] []) 0 2 7 smallLocked w'

/-- A native payee that takes the coin, and one that refuses it. -/
theorem settlement_succeeds_small : ClaimPays (claimOf true) ∧ ClaimPays (claimOf false) :=
  ⟨settlement_succeeds small smallLocked smallLocked_reachable (by decide) 3 rfl 5
    (claimOf true) rfl
      _ 2 _ (.claim 2 (by decide) (by decide) rfl) [] [],
    settlement_succeeds small smallLocked smallLocked_reachable (by decide) 3 rfl 5
      (claimOf false) rfl
      _ 2 _ (.claim 2 (by decide) (by decide) rfl) [] []⟩

end QuantaSwap.Htlc.V3
