import QuantaSwap.Maker.Policy

/-!
# The market maker's order records

`ManagedOrder` of `marketmaker/src/policy.ts` with its signed statements, as the state file keeps
it. Digests, nonces and secrets are words of `B`; keys and signatures are hex strings.
-/

set_option autoImplicit false

namespace QuantaSwap.Maker

inductive LegKey
  | qrl
  | eth
  deriving DecidableEq, Repr

inductive Direction
  | ethToQrl
  | qrlToEth
  deriving DecidableEq, Repr

inductive AssetSymbol
  | ETH
  | USDC
  | tUSDT
  deriving DecidableEq, Repr

def initiatorLeg : Direction → LegKey
  | .ethToQrl => .eth
  | .qrlToEth => .qrl

def responderLeg : Direction → LegKey
  | .ethToQrl => .qrl
  | .qrlToEth => .eth

namespace Daemon

/-! ## Signed statements -/

structure ProtocolAuthV1 (B : Type) where
  scheme : String
  issuedAt : Int
  expiresAt : Int
  nonce : B
  signature : String
  publicKey : String
  descriptor : String
  deriving DecidableEq, Repr

structure MakerOrderAuthV1 (B : Type) extends ProtocolAuthV1 B where
  makerTokenCommitment : B
  shareTokenCommitment : B
  deriving DecidableEq, Repr

structure Prelock (B : Type) where
  hashlock : B
  initiatorTimeout : Int
  deriving DecidableEq, Repr

inductive Visibility
  | pub
  | priv
  deriving DecidableEq, Repr

structure CanonicalOrderV1Body (A B : Type) where
  direction : Direction
  asset : AssetSymbol
  fromAmount : Nat
  toAmount : Nat
  makerEthAccount : A
  makerQrlAccount : A
  visibility : Visibility
  allowedTakerEth : Option A
  allowedTakerQrl : Option A
  prelock : Option (Prelock B)
  deriving DecidableEq, Repr

structure SignedOrderV1 (A B : Type) where
  order : CanonicalOrderV1Body A B
  auth : MakerOrderAuthV1 B
  deriving DecidableEq, Repr

structure FillIntentV1Body (A B : Type) where
  orderDigest : B
  takerEthAccount : A
  takerQrlAccount : A
  releaseCommitment : B
  deriving DecidableEq, Repr

structure SelectedFillIntentV1 (A B : Type) where
  intentDigest : B
  intent : FillIntentV1Body A B
  auth : ProtocolAuthV1 B
  receivedAt : Int
  deriving DecidableEq, Repr

structure FillV1Body (A B : Type) where
  orderDigest : B
  intentDigest : B
  takerEthAccount : A
  takerQrlAccount : A
  releaseCommitment : B
  hashlock : B
  initiatorTimeout : Int
  responderTimeout : Int
  deriving DecidableEq, Repr

structure SignedFillV1 (A B : Type) where
  fill : FillV1Body A B
  auth : ProtocolAuthV1 B
  deriving DecidableEq, Repr

structure CancelV1Body (B : Type) where
  orderDigest : B
  reasonCode : Nat
  deriving DecidableEq, Repr

structure SignedCancelV1 (B : Type) where
  cancel : CancelV1Body B
  auth : ProtocolAuthV1 B
  deriving DecidableEq, Repr

/-! ## The record of one order -/

structure ManagedProtocolV1 (A B : Type) where
  orderDigest : B
  order : CanonicalOrderV1Body A B
  orderAuth : MakerOrderAuthV1 B
  fillAcknowledged : Bool
  releaseObserved : Bool
  selectedIntent : Option (SelectedFillIntentV1 A B)
  fillProof : Option (SignedFillV1 A B)
  cancelProof : Option (SignedCancelV1 B)
  deriving DecidableEq, Repr

def ManagedProtocolV1.signedOrder {A B : Type} (p : ManagedProtocolV1 A B) : SignedOrderV1 A B :=
  ⟨p.order, p.orderAuth⟩

structure ManagedOrder (A B : Type) where
  id : String
  token : Option String
  /-- Absent on legacy unsigned rows. -/
  protocol : Option (ManagedProtocolV1 A B)
  direction : Direction
  asset : AssetSymbol
  level : Nat
  quotedMidMilli : Option Nat
  fromAmount : Nat
  toAmount : Nat
  preimage : Option B
  hashlock : Option B
  initiatorTimeout : Option Int
  responderTimeout : Option Int
  announcedAt : Option Int
  takerEthAccount : Option A
  takerQrlAccount : Option A
  lockSentAt : Option Int
  claimSentAt : Option Int
  sponsorSentAt : Option Int
  refundSentAt : Option Int
  withdrawSentAt : Option Int
  pushSentAt : Option Int
  withdrawAttempts : Option Nat
  pushAttempts : Option Nat
  withdrawFirstRejectedAt : Option Int
  pushFirstRejectedAt : Option Int
  createdAt : Int
  deriving DecidableEq, Repr

namespace ManagedOrder

variable {A B : Type} (m : ManagedOrder A B)

/-- What the decision reads of the record. -/
def decision : Maker.ManagedOrder B where
  protocol := m.protocol.map fun p => ⟨p.fillAcknowledged, p.releaseObserved⟩
  preimage := m.preimage
  hashlock := m.hashlock
  initiatorTimeout := m.initiatorTimeout
  responderTimeout := m.responderTimeout
  announcedAt := m.announcedAt
  lockSentAt := m.lockSentAt
  claimSentAt := m.claimSentAt
  sponsorSentAt := m.sponsorSentAt
  refundSentAt := m.refundSentAt
  withdrawSentAt := m.withdrawSentAt
  pushSentAt := m.pushSentAt
  withdrawAttempts := m.withdrawAttempts
  pushAttempts := m.pushAttempts
  withdrawFirstRejectedAt := m.withdrawFirstRejectedAt
  pushFirstRejectedAt := m.pushFirstRejectedAt

def selectedIntent : Option (SelectedFillIntentV1 A B) := m.protocol.bind (·.selectedIntent)

def fillProof : Option (SignedFillV1 A B) := m.protocol.bind (·.fillProof)

def cancelProof : Option (SignedCancelV1 B) := m.protocol.bind (·.cancelProof)

def takerOn : LegKey → Option A
  | .eth => m.takerEthAccount
  | .qrl => m.takerQrlAccount

/-- A pure unfunded quote is dropped at its own signed deadline. -/
def canRetireExpiredUnfundedQuote (now : Int) : Bool :=
  (m.protocol.any fun p =>
    decide (p.orderAuth.expiresAt ≤ now) && p.selectedIntent.isNone && p.fillProof.isNone &&
      p.cancelProof.isNone && !p.fillAcknowledged && !p.releaseObserved &&
        p.order.prelock.isNone) &&
    m.preimage.isNone && m.hashlock.isNone && m.initiatorTimeout.isNone &&
    m.responderTimeout.isNone && m.announcedAt.isNone && m.takerEthAccount.isNone &&
    m.takerQrlAccount.isNone && m.lockSentAt.isNone && m.claimSentAt.isNone &&
    m.refundSentAt.isNone

def withSelected (s : Option (SelectedFillIntentV1 A B)) : ManagedOrder A B :=
  { m with protocol := m.protocol.map fun p => { p with selectedIntent := s } }

def withFill (f : SignedFillV1 A B) : ManagedOrder A B :=
  { m with protocol := m.protocol.map fun p => { p with fillProof := some f } }

def withCancel (c : SignedCancelV1 B) : ManagedOrder A B :=
  { m with protocol := m.protocol.map fun p => { p with cancelProof := some c } }

/-- The book has shown the exact fill, and perhaps a release of it. -/
def acknowledged (released : Bool) : ManagedOrder A B :=
  { m with
    protocol := m.protocol.map fun p =>
      { p with fillAcknowledged := true, releaseObserved := p.releaseObserved || released } }

end ManagedOrder

/-- A credit that the maker stopped trying to move; it is kept under its leg, token and account. -/
structure StrandedCredit (A B : Type) where
  orderId : String
  leg : LegKey
  token : A
  account : A
  hashlock : Option B
  amount : Nat
  parkedAt : Int
  /-- The maker's own, or a counterparty's. -/
  own : Bool
  deriving DecidableEq, Repr

def StrandedCredit.key {A B : Type} (e : StrandedCredit A B) : LegKey × A × A :=
  (e.leg, e.token, e.account)

end Daemon

end QuantaSwap.Maker
