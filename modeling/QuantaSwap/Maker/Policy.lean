import QuantaSwap.Htlc.Types

/-!
# The market maker's decision

`decide` of `marketmaker/src/policy.ts`: the single next action for one order, from the book's view
of it, the chain state of both legs and what was already sent. The initiator leg is the one the
maker funds. An address is the account it names, so `sameAddr` is equality. `null` is `none`.
-/

set_option autoImplicit false

open QuantaSwap.Htlc

namespace QuantaSwap.Maker

/-- What `getSwap` hands back. -/
abbrev LegState := Swap

inductive BookStatus
  | open
  | accepted
  | locking
  | cancelled
  | gone
  deriving DecidableEq, Repr

inductive Decision
  | wait
  | announce
  | lock
  | claim
  | sponsor
  | refund
  | withdraw
  | push
  | finish
  | abort
  deriving DecidableEq, Repr

/-- The part of the portable protocol state that the decision reads. -/
structure ManagedProtocolV1 where
  /-- True only after an exact fill response of the book has authenticated. -/
  fillAcknowledged : Bool
  /-- Sticky authenticated release observation. -/
  releaseObserved : Bool
  deriving DecidableEq, Repr

structure ManagedOrder (Bytes32 : Type) where
  protocol : Option ManagedProtocolV1
  preimage : Option Bytes32
  hashlock : Option Bytes32
  initiatorTimeout : Option Int
  responderTimeout : Option Int
  announcedAt : Option Int
  lockSentAt : Option Int
  claimSentAt : Option Int
  sponsorSentAt : Option Int
  refundSentAt : Option Int
  withdrawSentAt : Option Int
  pushSentAt : Option Int
  withdrawAttempts : Option Nat
  pushAttempts : Option Nat
  withdrawFirstRejectedAt : Option Int
  pushFirstRejectedAt : Option Int
  deriving DecidableEq, Repr

/-- `A₁` are the accounts of the initiator leg, `A₂` those of the responder leg. -/
structure DecideInput (A₁ A₂ Bytes32 : Type) where
  bookStatus : BookStatus
  released : Bool
  managed : ManagedOrder Bytes32
  /-- Latest state of our leg, latest state of the taker's, and the taker's at depth. -/
  iState : Option (LegState A₁ Bytes32)
  rState : Option (LegState A₂ Bytes32)
  rConfirmed : Option (LegState A₂ Bytes32)
  expectedRecipient : A₂
  expectedAmountWei : Nat
  expectedToken : A₂
  nowS : Int
  resendAfterS : Int
  claimSafetyS : Int
  lockGraceS : Int
  sponsorClaims : Bool
  ourInitiator : A₁
  takerOnInitiatorLeg : Option A₁
  sponsorMarginS : Int
  ourResponderCredit : Option Nat
  ourInitiatorCredit : Option Nat
  takerCredit : Option Nat
  deriving DecidableEq, Repr

def retryOk (sentAt : Option Int) (nowS resendAfterS : Int) : Bool :=
  match sentAt with
  | none => true
  | some sentAt => nowS - sentAt > resendAfterS

/-! ## Credits that are given up -/

def MAX_CREDIT_ATTEMPTS : Nat := 5

def CREDIT_PARK_AFTER_S : Int := 24 * 60 * 60

def CREDIT_RETRY_CAP_S : Int := 60 * 60

def creditRetryAfterS (rejections : Nat) (resendAfterS : Int) : Int :=
  min (resendAfterS * 2 ^ rejections) CREDIT_RETRY_CAP_S

def parked (rejections : Option Nat) (firstRejectedAt : Option Int) (nowS : Int) : Bool :=
  MAX_CREDIT_ATTEMPTS ≤ rejections.getD 0 &&
    match firstRejectedAt with
    | none => false
    | some t => CREDIT_PARK_AFTER_S ≤ nowS - t

section

variable {A₁ A₂ A Bytes32 : Type} [DecidableEq A₁] [DecidableEq A₂]

def withdrawParked (managed : ManagedOrder Bytes32) (nowS : Int) : Bool :=
  parked managed.withdrawAttempts managed.withdrawFirstRejectedAt nowS

def pushParked (managed : ManagedOrder Bytes32) (nowS : Int) : Bool :=
  parked managed.pushAttempts managed.pushFirstRejectedAt nowS

/-! ## The guards of each action -/

def terminal (s : LegState A Bytes32) : Bool := s.status == .Claimed || s.status == .Refunded

def chainExposed : Option (LegState A Bytes32) → Bool
  | none => false
  | some s => s.status != .None

def canContinueWithoutBook (managed : ManagedOrder Bytes32) (iState : Option (LegState A Bytes32)) :
    Bool :=
  (managed.protocol.any fun p => p.fillAcknowledged) || managed.lockSentAt.isSome ||
    chainExposed iState

variable (x : DecideInput A₁ A₂ Bytes32)

def DecideInput.isReleased : Bool :=
  x.released || x.managed.protocol.any fun p => p.releaseObserved

def DecideInput.exposureExcluded : Bool :=
  x.managed.lockSentAt.isNone &&
    (x.managed.hashlock.isNone || x.iState.any fun s => s.status == .None)

/-- The lock the taker placed is the one agreed on. -/
def DecideInput.agreed (rConfirmed : LegState A₂ Bytes32) : Bool :=
  rConfirmed.token = x.expectedToken && rConfirmed.recipient = x.expectedRecipient &&
    rConfirmed.amount = x.expectedAmountWei

/-- The responder leg may be claimed: it is open now and at depth, as agreed, and both deadlines
are further away than the safety margin. -/
def DecideInput.claimable (t2 : Int) : Bool :=
  (x.rState.any fun r => r.status == .Open) &&
    x.rConfirmed.any fun r =>
      r.status == .Open && x.agreed r && decide (x.nowS < r.timeout - x.claimSafetyS) &&
        decide (x.nowS < t2 - x.claimSafetyS)

/-- The lock on our leg is the one we funded for this taker. -/
def DecideInput.oursForTaker (iState : LegState A₁ Bytes32) : Bool :=
  iState.initiator = x.ourInitiator && x.takerOnInitiatorLeg.any fun a => iState.recipient = a

def DecideInput.pushableTakerCredit (iState : LegState A₁ Bytes32) : Bool :=
  x.sponsorClaims && iState.status == .Claimed && x.oursForTaker iState

def DecideInput.rSettled (t2 : Int) : Bool :=
  x.rState.any fun r => terminal r || (r.status == .None && decide (t2 ≤ x.nowS))

def DecideInput.creditsSettled (iState : LegState A₁ Bytes32) : Bool :=
  (withdrawParked x.managed x.nowS ||
    (x.ourResponderCredit == some 0 && x.ourInitiatorCredit == some 0)) &&
  (!x.pushableTakerCredit iState || pushParked x.managed x.nowS || x.takerCredit == some 0)

/-- The chain governs: the book reports the order locking, or forgot it. -/
def DecideInput.decideOnChain (t1 t2 : Int) (iState : LegState A₁ Bytes32) : Decision :=
  if iState.status = .Open ∧ x.claimable t2 ∧
      retryOk x.managed.claimSentAt x.nowS x.resendAfterS then .claim
  else if x.sponsorClaims ∧ iState.status = .Open ∧ x.oursForTaker iState ∧
      (x.rConfirmed.any fun r => r.status == .Claimed) ∧
      x.nowS < iState.timeout - x.sponsorMarginS ∧
      retryOk x.managed.sponsorSentAt x.nowS x.resendAfterS then .sponsor
  else if iState.status = .None ∧ x.bookStatus = .locking ∧ ¬ x.isReleased ∧
      (x.managed.protocol.all fun p => p.fillAcknowledged) ∧
      x.lockGraceS ≤ x.nowS - x.managed.announcedAt.getD 0 ∧ x.nowS < t2 - x.claimSafetyS ∧
      retryOk x.managed.lockSentAt x.nowS x.resendAfterS then .lock
  else if iState.status = .Open ∧ t1 ≤ x.nowS ∧
      retryOk x.managed.refundSentAt x.nowS x.resendAfterS then .refund
  else if (0 < x.ourResponderCredit.getD 0 ∨ 0 < x.ourInitiatorCredit.getD 0) ∧
      ¬ withdrawParked x.managed x.nowS ∧
      retryOk x.managed.withdrawSentAt x.nowS
        (creditRetryAfterS (x.managed.withdrawAttempts.getD 0) x.resendAfterS) then .withdraw
  else if x.pushableTakerCredit iState ∧ 0 < x.takerCredit.getD 0 ∧
      ¬ pushParked x.managed x.nowS ∧
      retryOk x.managed.pushSentAt x.nowS
        (creditRetryAfterS (x.managed.pushAttempts.getD 0) x.resendAfterS) then .push
  else if terminal iState ∧ x.rSettled t2 ∧ x.creditsSettled iState then .finish
  else if iState.status = .None ∧ t2 ≤ x.nowS ∧ x.managed.lockSentAt = none then .abort
  else .wait

def DecideInput.decide : Decision :=
  -- The order vanished, or the taker walked away, before any funds moved.
  if (x.bookStatus = .gone ∨ x.bookStatus = .cancelled) ∧ x.exposureExcluded then .abort
  else if x.isReleased ∧ x.exposureExcluded then .abort
  else if x.bookStatus = .open then .wait
  else if x.bookStatus = .accepted then .announce
  else
    match x.managed.preimage, x.managed.hashlock, x.managed.initiatorTimeout,
      x.managed.responderTimeout, x.iState with
    | some _, some _, some t1, some t2, some iState => x.decideOnChain t1 t2 iState
    -- An inconsistent snapshot, or no answer from the chain of our leg.
    | _, _, _, _, _ => .wait

/-! ## What an action rests on -/

variable {x}

theorem decideOnChain_claim {t1 t2 : Int} {iState : LegState A₁ Bytes32}
    (h : x.decideOnChain t1 t2 iState = .claim) :
    iState.status = .Open ∧ x.claimable t2 = true ∧
      retryOk x.managed.claimSentAt x.nowS x.resendAfterS = true := by
  unfold DecideInput.decideOnChain at h
  split at h
  · assumption
  · split_ifs at h

theorem decideOnChain_sponsor {t1 t2 : Int} {iState : LegState A₁ Bytes32}
    (h : x.decideOnChain t1 t2 iState = .sponsor) :
    iState.status = .Open ∧ (x.rConfirmed.any fun r => r.status == .Claimed) = true := by
  unfold DecideInput.decideOnChain at h
  split at h
  · cases h
  · split at h
    · rename_i hs
      exact ⟨hs.2.1, hs.2.2.2.1⟩
    · split_ifs at h

theorem decideOnChain_lock {t1 t2 : Int} {iState : LegState A₁ Bytes32}
    (h : x.decideOnChain t1 t2 iState = .lock) :
    (x.managed.protocol.all fun p => p.fillAcknowledged) = true := by
  unfold DecideInput.decideOnChain at h
  split at h
  · cases h
  · split at h
    · cases h
    · split at h
      · rename_i hl
        exact hl.2.2.2.1
      · split_ifs at h

theorem decideOnChain_refund {t1 t2 : Int} {iState : LegState A₁ Bytes32}
    (h : x.decideOnChain t1 t2 iState = .refund) : iState.status = .Open := by
  unfold DecideInput.decideOnChain at h
  split at h
  · cases h
  · split at h
    · cases h
    · split at h
      · cases h
      · split at h
        · rename_i hr
          exact hr.1
        · split_ifs at h

theorem decideOnChain_finish {t1 t2 : Int} {iState : LegState A₁ Bytes32}
    (h : x.decideOnChain t1 t2 iState = .finish) :
    terminal iState = true ∧ x.rSettled t2 = true ∧ x.creditsSettled iState = true := by
  unfold DecideInput.decideOnChain at h
  split_ifs at h with h1 h2 h3 h4 h5 h6 h7
  exact h7

theorem decideOnChain_abort {t1 t2 : Int} {iState : LegState A₁ Bytes32}
    (h : x.decideOnChain t1 t2 iState = .abort) :
    iState.status = .None ∧ x.managed.lockSentAt = none := by
  unfold DecideInput.decideOnChain at h
  split_ifs at h with h1 h2 h3 h4 h5 h6 h7 h8
  exact ⟨h8.1, h8.2.2⟩

theorem decide_onChain (h : x.decide ≠ .wait) (ha : x.decide ≠ .announce)
    (hb : x.decide ≠ .abort) :
    ∃ p k t1 t2 iState, x.managed.preimage = some p ∧ x.managed.hashlock = some k ∧
      x.managed.initiatorTimeout = some t1 ∧ x.managed.responderTimeout = some t2 ∧
      x.iState = some iState ∧ x.decide = x.decideOnChain t1 t2 iState := by
  unfold DecideInput.decide at h ha hb ⊢
  split_ifs at h ha hb ⊢ with h1 h2 h3 h4
  · exact absurd rfl hb
  · exact absurd rfl hb
  · exact absurd rfl h
  · exact absurd rfl ha
  · split at h
    · rename_i p k t1 t2 iState hp hk ht1 ht2 hi
      exact ⟨p, k, t1, t2, iState, hp, hk, ht1, ht2, hi, rfl⟩
    · exact absurd rfl h

theorem decide_claim (h : x.decide = .claim) :
    ∃ t2 iState, x.managed.responderTimeout = some t2 ∧ x.iState = some iState ∧
      iState.status = .Open ∧ x.claimable t2 = true := by
  obtain ⟨_, _, t1, t2, iState, -, -, -, ht2, hi, hd⟩ :=
    decide_onChain (x := x) (by simp [h]) (by simp [h]) (by simp [h])
  obtain ⟨ho, hc, -⟩ := decideOnChain_claim (hd.symm.trans h)
  exact ⟨t2, iState, ht2, hi, ho, hc⟩

theorem decide_sponsor (h : x.decide = .sponsor) :
    (x.rConfirmed.any fun r => r.status == .Claimed) = true := by
  obtain ⟨_, _, t1, t2, iState, -, -, -, -, -, hd⟩ :=
    decide_onChain (x := x) (by simp [h]) (by simp [h]) (by simp [h])
  exact (decideOnChain_sponsor (hd.symm.trans h)).2

theorem decide_sponsor_open (h : x.decide = .sponsor) :
    ∃ iState, x.iState = some iState ∧ iState.status = .Open := by
  obtain ⟨_, _, t1, t2, iState, -, -, -, -, hi, hd⟩ :=
    decide_onChain (x := x) (by simp [h]) (by simp [h]) (by simp [h])
  exact ⟨iState, hi, (decideOnChain_sponsor (hd.symm.trans h)).1⟩

theorem decide_lock (h : x.decide = .lock) :
    (x.managed.protocol.all fun p => p.fillAcknowledged) = true := by
  obtain ⟨_, _, t1, t2, iState, -, -, -, -, -, hd⟩ :=
    decide_onChain (x := x) (by simp [h]) (by simp [h]) (by simp [h])
  exact decideOnChain_lock (hd.symm.trans h)

theorem decide_refund (h : x.decide = .refund) :
    ∃ iState, x.iState = some iState ∧ iState.status = .Open := by
  obtain ⟨_, _, t1, t2, iState, -, -, -, -, hi, hd⟩ :=
    decide_onChain (x := x) (by simp [h]) (by simp [h]) (by simp [h])
  exact ⟨iState, hi, decideOnChain_refund (hd.symm.trans h)⟩

theorem decide_finish (h : x.decide = .finish) :
    ∃ k t2 iState, x.managed.hashlock = some k ∧ x.iState = some iState ∧
      terminal iState = true ∧ x.rSettled t2 = true ∧ x.creditsSettled iState = true := by
  obtain ⟨_, k, t1, t2, iState, -, hk, -, -, hi, hd⟩ :=
    decide_onChain (x := x) (by simp [h]) (by simp [h]) (by simp [h])
  exact ⟨k, t2, iState, hk, hi, decideOnChain_finish (hd.symm.trans h)⟩

/-- An order is given up only while nothing of it can be on the chain of our leg. -/
theorem decide_abort (h : x.decide = .abort) :
    x.managed.lockSentAt = none ∧ (x.managed.hashlock = none ∨
      ∃ iState, x.iState = some iState ∧ iState.status = .None) := by
  have hexcluded : x.exposureExcluded = true → x.managed.lockSentAt = none ∧
      (x.managed.hashlock = none ∨ ∃ iState, x.iState = some iState ∧ iState.status = .None) := by
    intro he
    unfold DecideInput.exposureExcluded at he
    simpa [Option.any_eq_true] using he
  unfold DecideInput.decide at h
  split at h
  · rename_i h1
    exact hexcluded h1.2
  · split at h
    · rename_i h2
      exact hexcluded h2.2
    · split at h
      · cases h
      · split at h
        · cases h
        · split at h
          · rename_i p k t1 t2 iState hp hk ht1 ht2 hi
            obtain ⟨hnone, hlock⟩ := decideOnChain_abort h
            exact ⟨hlock, .inr ⟨iState, hi, hnone⟩⟩
          · cases h

/-! ## Claiming again -/

/-- The preimage is public, and the taker's lock can still be collected. -/
structure Collectable (x : DecideInput A₁ A₂ Bytes32) : Prop where
  secret : x.managed.preimage.isSome = true ∧ x.managed.hashlock.isSome = true
  planned : x.managed.initiatorTimeout.isSome = true
  revealed : x.managed.claimSentAt.isSome = true ∨
    (x.iState.any fun s => s.status == .Claimed) = true
  collectable : (x.managed.responderTimeout.any fun t2 => x.claimable t2) = true

/-- While our own leg is open, a maker whose preimage is public claims on every tick, but for the
spacing of retries. While our leg cannot be read it does nothing that cannot be undone. -/
theorem decide_of_collectable (x : DecideInput A₁ A₂ Bytes32) (h : Collectable x) :
    ((x.iState.any fun s => s.status == .Open) = true → x.bookStatus ≠ .open →
      x.bookStatus ≠ .accepted →
      x.decide = .claim ∨ retryOk x.managed.claimSentAt x.nowS x.resendAfterS = false) ∧
    (x.iState = none → x.decide = .wait ∨ x.decide = .announce) := by
  obtain ⟨p, hp⟩ := Option.isSome_iff_exists.mp h.secret.1
  obtain ⟨k, hk⟩ := Option.isSome_iff_exists.mp h.secret.2
  obtain ⟨t1, ht1⟩ := Option.isSome_iff_exists.mp h.planned
  obtain ⟨t2, ht2, hc⟩ : ∃ t2, x.managed.responderTimeout = some t2 ∧ x.claimable t2 = true := by
    simpa [Option.any_eq_true] using h.collectable
  constructor
  · intro ho hopen hacc
    cases hi : x.iState with
    | none => rw [hi] at ho; cases ho
    | some iState =>
      have host : iState.status = .Open := by simpa [hi] using ho
      have hexp : x.exposureExcluded = false := by
        simp [DecideInput.exposureExcluded, hk, hi, host]
      have hd : x.decide = x.decideOnChain t1 t2 iState := by
        simp [DecideInput.decide, hexp, hopen, hacc, hp, hk, ht1, ht2, hi]
      cases hr : retryOk x.managed.claimSentAt x.nowS x.resendAfterS with
      | false => exact .inr rfl
      | true => exact .inl (by rw [hd, DecideInput.decideOnChain, if_pos ⟨host, hc, hr⟩])
  · intro hi
    have hexp : x.exposureExcluded = false := by simp [DecideInput.exposureExcluded, hk, hi]
    unfold DecideInput.decide
    rw [hexp, hi]
    split_ifs <;> simp_all

end

/-- A claim was sent a while ago, and the taker's lock can still be collected. -/
def revealed : DecideInput Nat Nat Nat where
  bookStatus := .locking
  released := false
  managed :=
    { protocol := none, preimage := some 5, hashlock := some 6, initiatorTimeout := some 20000,
      responderTimeout := some 10000, announcedAt := some 0, lockSentAt := some 60,
      claimSentAt := some 200, sponsorSentAt := none, refundSentAt := none, withdrawSentAt := none,
      pushSentAt := none, withdrawAttempts := none, pushAttempts := none,
      withdrawFirstRejectedAt := none, pushFirstRejectedAt := none }
  iState := some ⟨1, 2, 0, 50, 20000, .Open, 0⟩
  rState := some ⟨2, 1, 0, 70, 10000, .Open, 0⟩
  rConfirmed := some ⟨2, 1, 0, 70, 10000, .Open, 0⟩
  expectedRecipient := 1
  expectedAmountWei := 70
  expectedToken := 0
  nowS := 1000
  resendAfterS := 300
  claimSafetyS := 600
  lockGraceS := 30
  sponsorClaims := true
  ourInitiator := 1
  takerOnInitiatorLeg := some 2
  sponsorMarginS := 240
  ourResponderCredit := some 0
  ourInitiatorCredit := some 0
  takerCredit := some 0

theorem revealed_collectable : Collectable revealed :=
  ⟨by decide, by decide, by decide, by decide⟩

theorem decide_of_collectable_revealed :
    Collectable revealed ∧ (revealed.decide = .claim ∨
      retryOk revealed.managed.claimSentAt revealed.nowS revealed.resendAfterS = false) :=
  ⟨revealed_collectable, (decide_of_collectable revealed revealed_collectable).1 (by decide)
    (by decide) (by decide)⟩

/-- The same, but no answer from the chain of our leg; and the same after the taker claimed it. -/
theorem revealed_not_claimed :
    (Collectable { revealed with iState := none } ∧
      DecideInput.decide { revealed with iState := none } = .wait) ∧
    (Collectable { revealed with iState := some ⟨1, 2, 0, 50, 20000, .Claimed, 5⟩ } ∧
      DecideInput.decide { revealed with iState := some ⟨1, 2, 0, 50, 20000, .Claimed, 5⟩ } =
        .wait) ∧
    retryOk revealed.managed.claimSentAt revealed.nowS revealed.resendAfterS = true :=
  ⟨⟨⟨by decide, by decide, by decide, by decide⟩, by decide⟩,
    ⟨⟨by decide, by decide, by decide, by decide⟩, by decide⟩, by decide⟩

end QuantaSwap.Maker
