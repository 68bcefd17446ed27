import QuantaSwap.Maker.Record

/-!
# The scripted taker's decision

`decideTaker` of `marketmaker/src/taker-policy.ts`: the single next action for one take, from the
book's view of it, the chain state of both legs and what was already sent. The initiator leg is the
maker's, which pays us; the responder leg is ours. An address is the account it names, `0` for the
native sentinel of either leg, so `sameAddr` is equality. `null` is `none`.
-/

set_option autoImplicit false

open QuantaSwap.Htlc QuantaSwap.Maker

namespace QuantaSwap.Taker

inductive TakerDecision
  | wait
  | propose
  | lock
  | claim
  | refund
  | withdraw
  | release
  | finish
  | abort
  deriving DecidableEq, Repr

/-- The registry's entry for the asset on the Ethereum leg; no address for the native coin. -/
structure AssetInfo (A : Type) where
  symbol : String
  tokenAddress : Option A
  decimals : Nat
  deriving DecidableEq, Repr

/-- One leg's agreed terms. -/
structure TakerLegPlan (A : Type) where
  leg : LegKey
  recipient : A
  amount : Nat
  expectedToken : A
  timeout : Nat
  asset : String
  decimals : Nat
  deriving DecidableEq, Repr

structure TakerPlanInput (A : Type) where
  direction : Direction
  asset : AssetInfo A
  fromAmount : Nat
  toAmount : Nat
  makerEthAccount : A
  makerQrlAccount : A
  takerEthAccount : A
  takerQrlAccount : A
  initiatorTimeout : Nat
  responderTimeout : Nat
  deriving DecidableEq, Repr

structure TakerPlans (A : Type) where
  initiator : TakerLegPlan A
  responder : TakerLegPlan A
  deriving DecidableEq, Repr

inductive MakerLockCheck
  | absent
  | awaitingAssign
  | ok
  | mismatch (issue : String)
  | settled
  deriving DecidableEq, Repr

inductive OwnLockCheck
  | absent
  | ours
  | oursMismatched (issue : String)
  | foreign (issue : String)
  | settled
  deriving DecidableEq, Repr

/-- What was sent and stored, as the decision reads it. -/
structure TakerDecisionRecord where
  fillAcknowledged : Bool
  intentSubmittedAt : Option Int
  lockSentAt : Option Int
  claimSentAt : Option Int
  refundSentAt : Option Int
  withdrawSentAt : Option Int
  releaseSentAt : Option Int
  deriving DecidableEq, Repr

/-- Terms from the authenticated fill. -/
structure FillTerms (Bytes32 : Type) where
  hashlock : Bytes32
  initiatorTimeout : Nat
  responderTimeout : Nat
  respondBy : Nat
  deriving DecidableEq, Repr

structure TakerDecideInput (A Bytes32 : Type) where
  record : TakerDecisionRecord
  bookStatus : BookStatus
  released : Bool
  cancelled : Bool
  prelocked : Bool
  fill : Option (FillTerms Bytes32)
  plans : TakerPlans A
  iState : Option (LegState A Bytes32)
  iConfirmed : Option (LegState A Bytes32)
  rState : Option (LegState A Bytes32)
  ourResponderAddress : A
  /-- When our pending proposal expires. -/
  intentPending : Option Int
  abandonRequested : Bool
  nowS : Int
  resendAfterS : Int
  claimSafetyS : Int
  lockRunwayS : Int
  claimSubmitMarginS : Int
  initiatorCredit : Option Nat
  responderCredit : Option Nat
  deriving DecidableEq, Repr

structure TakerVerdict (Bytes32 : Type) where
  decision : TakerDecision
  reason : String
  makerLock : MakerLockCheck
  ownLock : OwnLockCheck
  revealedPreimage : Option Bytes32
  creditLeg : Option LegKey
  deriving DecidableEq, Repr

/-! ## The configuration -/

/-- The settings that the decision is made with. -/
structure TakerReadConfig where
  txTimeoutMs : Nat
  resendAfterS : Nat
  claimSafetyS : Nat
  lockRunwayS : Nat
  deriving DecidableEq, Repr

/-- `Math.ceil(cfg.txTimeoutMs / 1000) + 60` -/
def claimSubmitMarginS (cfg : TakerReadConfig) : Nat := (cfg.txTimeoutMs + 999) / 1000 + 60

def assertClaimWindowIsUsable (cfg : TakerReadConfig) : Except String Unit :=
  if cfg.claimSafetyS ≤ claimSubmitMarginS cfg then
    .error (s!"TAKER_CLAIM_SAFETY_S ({cfg.claimSafetyS}s) must exceed the transaction submission " ++
      s!"margin of {claimSubmitMarginS cfg}s (TAKER_TX_TIMEOUT_MS / 1000 plus 60), or a verified " ++
      "escrow leaves no window this client could claim in. Raise TAKER_CLAIM_SAFETY_S or lower " ++
      "TAKER_TX_TIMEOUT_MS")
  else .ok ()

section

variable {A Bytes32 : Type} [DecidableEq A] [DecidableEq Bytes32] [Zero A] [Zero Bytes32]

/-! ## The plans of the two legs -/

def expectedToken (leg : LegKey) (asset : AssetInfo A) : A :=
  match leg with
  | .qrl => 0
  | .eth => asset.tokenAddress.getD 0

def legAsset (leg : LegKey) (asset : AssetInfo A) : String × Nat :=
  match leg with
  | .qrl => ("QRL", 18)
  | .eth => (asset.symbol, asset.decimals)

def takerLegPlans (input : TakerPlanInput A) : TakerPlans A where
  initiator :=
    { leg := initiatorLeg input.direction
      recipient :=
        if initiatorLeg input.direction = .eth then input.takerEthAccount
        else input.takerQrlAccount
      amount := input.fromAmount
      expectedToken := expectedToken (initiatorLeg input.direction) input.asset
      timeout := input.initiatorTimeout
      asset := (legAsset (initiatorLeg input.direction) input.asset).1
      decimals := (legAsset (initiatorLeg input.direction) input.asset).2 }
  responder :=
    { leg := responderLeg input.direction
      recipient :=
        if responderLeg input.direction = .eth then input.makerEthAccount
        else input.makerQrlAccount
      amount := input.toAmount
      expectedToken := expectedToken (responderLeg input.direction) input.asset
      timeout := input.responderTimeout
      asset := (legAsset (responderLeg input.direction) input.asset).1
      decimals := (legAsset (responderLeg input.direction) input.asset).2 }

/-! ## The two locks -/

def checkMakerLock (confirmed : Option (LegState A Bytes32)) (plan : TakerLegPlan A)
    (responderTimeout claimMarginS : Int) (prelocked : Bool) : MakerLockCheck :=
  match confirmed with
  | none => .absent
  | some s =>
    if s.status = .None then .absent
    else if s.status ≠ .Open then .settled
    else if s.recipient = 0 then
      if prelocked then .awaitingAssign else .mismatch "its recipient is unset"
    else if s.token ≠ plan.expectedToken then .mismatch "it escrows the wrong asset"
    else if s.recipient ≠ plan.recipient then .mismatch "its recipient is not our account"
    else if s.amount ≠ plan.amount then
      .mismatch s!"it escrows {s.amount} base units; the agreed amount is {plan.amount}"
    else if (s.timeout : Int) < responderTimeout + claimMarginS then
      .mismatch "its timeout leaves too little claim window after ours closes"
    else .ok

def checkOwnLock (state : Option (LegState A Bytes32)) (plan : TakerLegPlan A) (ourAddress : A) :
    OwnLockCheck :=
  match state with
  | none => .absent
  | some s =>
    if s.status = .None then .absent
    else if s.initiator ≠ ourAddress then
      .foreign "another account already used this hashlock on our leg"
    else if s.status ≠ .Open then .settled
    else if s.token ≠ plan.expectedToken ∨ s.recipient ≠ plan.recipient ∨
        s.amount ≠ plan.amount then
      .oursMismatched "our own escrow does not carry the agreed terms"
    else .ours

def settledState (s : Option (LegState A Bytes32)) : Bool := s.any Maker.terminal

namespace TakerDecideInput

variable (x : TakerDecideInput A Bytes32)

def makerLock : MakerLockCheck :=
  checkMakerLock x.iConfirmed x.plans.initiator
    ((x.fill.map fun f => (f.responderTimeout : Int)).getD 0) x.claimSafetyS x.prelocked

def ownLock : OwnLockCheck := checkOwnLock x.rState x.plans.responder x.ourResponderAddress

def revealedPreimage : Option Bytes32 :=
  (x.rState.filter fun r => decide (r.preimage ≠ 0)).map (·.preimage)

def creditLeg : Option LegKey :=
  if 0 < x.initiatorCredit.getD 0 then some x.plans.initiator.leg
  else if 0 < x.responderCredit.getD 0 then some x.plans.responder.leg
  else none

def creditsSettled : Bool := x.initiatorCredit = some 0 ∧ x.responderCredit = some 0

/-- Something of ours may be on chain. -/
def exposed : Bool :=
  x.record.lockSentAt.isSome ||
    match x.ownLock with
    | .ours | .oursMismatched _ | .settled => true
    | .absent | .foreign _ => false

/-! ## The decision -/

/-- What ends a take that nothing of ours is exposed in. -/
def walkAway : Option (TakerDecision × String) :=
  if x.abandonRequested then
    if x.record.releaseSentAt = none ∧ x.record.intentSubmittedAt ≠ none then
      some (.release, "operator abandoned this take before funding")
    else some (.abort, "operator abandoned this take before funding")
  else if x.cancelled ∨ x.bookStatus = .cancelled then
    some (.abort, "the maker cancelled this order")
  else if x.bookStatus = .gone then some (.abort, "the order is no longer on the book")
  else if x.released then some (.abort, "this proposal was released")
  else none

def withoutFill : TakerDecision × String :=
  if x.exposed then (.wait, "waiting for terms that match our escrow")
  else if x.bookStatus = .locking then
    (.abort, "the maker filled a different proposal on this order")
  else if x.intentPending.any fun expiresAt => decide (x.nowS < expiresAt) then
    (.wait, "waiting for the maker to publish FillV2")
  else (.propose, "no live proposal for this order")

/-- Our leg carries no lock yet: fund it, or say why not. -/
def fund (t2 : Int) : TakerDecision × String :=
  if settledState x.iState then
    (if x.exposed then .wait else .abort, "the maker escrow settled without us")
  else if ¬ x.record.fillAcknowledged then
    (.wait, "waiting for a durable authenticated FillV2 before funding")
  else if x.released ∨ x.cancelled then (.wait, "funding stopped: this take was released")
  else if t2 ≤ x.nowS + x.lockRunwayS then
    (if x.exposed then .wait else .abort,
      "refusing to fund: our own deadline leaves too little runway")
  else
    match x.makerLock with
    | .absent => (.wait, "waiting for the maker to escrow their leg")
    | .awaitingAssign => (.wait, "waiting for the maker to assign their pre-funded escrow")
    | .settled =>
      (if x.exposed then .wait else .abort, "the maker escrow settled without us")
    | .mismatch issue =>
      (if x.exposed then .wait else .abort,
        s!"refusing to fund: the maker escrow is wrong, {issue}")
    | .ok =>
      if ¬ retryOk x.record.lockSentAt x.nowS x.resendAfterS then
        (.wait, "waiting for our escrow to appear on chain")
      else (.lock, "the maker escrow verified at depth")

/-- What our own leg asks for, once nothing is claimed, collected or finished. -/
def ownLeg (t2 : Int) (rState : LegState A Bytes32) : TakerDecision × String :=
  match x.ownLock with
  | .foreign issue => (.abort, issue)
  | .oursMismatched issue =>
    if rState.timeout ≤ x.nowS ∧ retryOk x.record.refundSentAt x.nowS x.resendAfterS then
      (.refund, "our escrow passed its timeout unclaimed")
    else (.wait, s!"{issue}; waiting for its timeout to refund")
  | .ours =>
    if rState.timeout ≤ x.nowS ∧ retryOk x.record.refundSentAt x.nowS x.resendAfterS then
      (.refund, "our escrow passed its timeout unclaimed")
    else (.wait, "waiting for the maker to claim and reveal")
  | .absent => x.fund t2
  | .settled =>
    if ¬ x.exposed ∧ t2 ≤ x.nowS then
      (.abort, "the responder window closed without a swap")
    else if x.iState.isNone then (.wait, "chain state unavailable; nothing decided")
    else (.wait, "nothing to do")

/-- The secret is out and the maker's escrow still open. -/
def payable : Bool := x.revealedPreimage.isSome && x.iState.any fun i => i.status == .Open

/-- The maker's escrow is inside the submit margin of its own timeout. -/
def windowClosed : Bool :=
  x.iState.any fun i => decide ((i.timeout : Int) - x.claimSubmitMarginS ≤ x.nowS)

def onChain (t2 : Int) (rState : LegState A Bytes32) : TakerDecision × String :=
  if x.payable ∧ ¬ x.windowClosed ∧ retryOk x.record.claimSentAt x.nowS x.resendAfterS then
    (.claim, "the preimage is public; claiming our payout")
  else if x.payable ∧ x.windowClosed then
    (.wait, "the claim window on the maker escrow closed before a claim could be submitted")
  else if x.creditLeg.isSome ∧ retryOk x.record.withdrawSentAt x.nowS x.resendAfterS then
    (.withdraw, "a settlement could not deliver and credited us; collecting it")
  else if settledState x.iState ∧ Maker.terminal rState then
    if x.creditsSettled then (.finish, "both legs settled")
    else (.wait, "waiting to collect a deferred payout on this take")
  else if Maker.terminal rState ∧
      (x.iState.any fun i => i.status == .Open && decide ((i.timeout : Int) ≤ x.nowS)) then
    if x.creditsSettled then (.finish, "our leg settled and the maker escrow expired")
    else (.wait, "waiting to collect a deferred payout on this take")
  else x.ownLeg t2 rState

def decideStep : TakerDecision × String :=
  match if x.exposed then none else x.walkAway with
  | some verdict => verdict
  | none =>
    match x.fill, x.rState with
    | none, _ => x.withoutFill
    | some _, none => (.wait, "our leg state is unavailable; nothing decided")
    | some fill, some rState => x.onChain fill.responderTimeout rState

def decideTaker : TakerVerdict Bytes32 where
  decision := x.decideStep.1
  reason := x.decideStep.2
  makerLock := x.makerLock
  ownLock := x.ownLock
  revealedPreimage := x.revealedPreimage
  creditLeg := x.creditLeg

end TakerDecideInput

end

end QuantaSwap.Taker
