import QuantaSwap.Maker.Tick

/-!
# What the daemon may ask for

`Guard` says of each request of the daemon when it may be made: which changes of a record may be
written, when a record may be dropped, which statements may be posted and which transactions sent.
Everything about the daemon's runs is read off it; that the daemon keeps to it is shown once.
-/

set_option autoImplicit false
set_option linter.unusedSectionVars false

open Lib Lib.Program QuantaSwap.Htlc QuantaSwap.Htlc.V3

namespace QuantaSwap.Maker.Daemon

section

variable {A B : Type} [DecidableEq A] [DecidableEq B] [Zero A] [Zero B] (cfg : Config A B)

/-! ## Changes of a record -/

/-- A cancellation as the signer made it for this order. -/
def SignedCancelFor (w : World A B) (p : ManagedProtocolV1 A B) (proof : SignedCancelV1 B) : Prop :=
  ∃ issuedAt nonce signature, Relation.ReflTransGen cfg.ticks p.orderAuth.issuedAt issuedAt ∧
    Relation.ReflTransGen cfg.ticks issuedAt w.clock ∧
    signCancelV1 cfg.key ⟨p.orderDigest,
      CANCEL_REASON_OPERATOR⟩ issuedAt p.orderAuth.expiresAt nonce
      signature = .ok proof ∧
    cfg.codec.verifyCancel cfg.key.address proof.cancel p.orderAuth proof.auth = true

/-- A fill as the signer made it for this order and this proposal. -/
def SignedFillFor (w : World A B) (m : ManagedOrder A B) (p : ManagedProtocolV1 A B)
    (selected : SelectedFillIntentV1 A B) (proof : SignedFillV1 A B) : Prop :=
  ∃ hashlock t1 t2 issuedAt respondBy nonce signature,
    m.hashlock = some hashlock ∧ m.initiatorTimeout = some t1 ∧ m.responderTimeout = some t2 ∧
    (∃ t, Relation.ReflTransGen cfg.ticks t issuedAt ∧ selected.auth.issuedAt ≤ t) ∧
    Relation.ReflTransGen cfg.ticks issuedAt w.clock ∧
    signFillV1 cfg.codec cfg.key
      (fillBody p selected hashlock t1 t2) p.signedOrder selected issuedAt
      respondBy nonce signature = .ok proof ∧
    cfg.codec.verifyFill cfg.key.address proof.fill p.orderAuth proof.auth = true

/-- A proposal as it was taken. -/
def TakenFor (w : World A B) (p : ManagedProtocolV1 A B) (selected : SelectedFillIntentV1 A B)
    (selectedAt : Int) : Prop :=
  .proposal selected ∈ w.heard ∧ ∃ now, Relation.ReflTransGen cfg.ticks now selectedAt ∧
    Relation.ReflTransGen cfg.ticks selectedAt w.clock ∧
    selected.auth.issuedAt ≤ now ∧
    verifyFillIntentV1 cfg.codec selected.intent selected.auth p.orderDigest now
      p.orderAuth.issuedAt p.orderAuth.expiresAt = true

/-- Every way in which a record that is on disk is changed. -/
inductive Change (w : World A B) (m : ManagedOrder A B) : ManagedOrder A B → Prop
  | again : Change w m m
  | acknowledged (released : Bool) (hf : m.fillProof.isSome = true) :
    Change w m (m.acknowledged released)
  | cancelled {p : ManagedProtocolV1 A B} {proof : SignedCancelV1 B} (hp : m.protocol = some p)
    (hf : m.fillProof = none) (hc : m.cancelProof = none) (hm : .cancelled m ∈ w.heard)
    (hs : SignedCancelFor cfg w p proof) :
    Change w m (m.withCancel proof)
  | unselected {s : SelectedFillIntentV1 A B} (hs : m.selectedIntent = some s)
    (hf : m.fillProof = none) (hc : m.cancelProof = none) : Change w m m.unselected
  | selecting {p : ManagedProtocolV1 A B} {s : SelectedFillIntentV1 A B} {secret : B}
    {selectedAt : Int} (hp : m.protocol = some p) (hs : m.selectedIntent = none)
    (hf : m.fillProof = none) (hc : m.cancelProof = none) (hsecret : (m.id, secret) ∈ w.secrets)
    (ht : TakenFor cfg w p s selectedAt) : Change w m (m.selecting cfg s secret selectedAt)
  | filled {p : ManagedProtocolV1 A B} {s : SelectedFillIntentV1 A B} {proof : SignedFillV1 A B}
    (hp : m.protocol = some p) (hs : m.selectedIntent = some s) (hf : m.fillProof = none)
    (hc : m.cancelProof = none) (ht : SignedFillFor cfg w m p s proof) :
    Change w m (m.withFill proof)
  | secret {secret : B} (hp : m.protocol = none) (hk : m.hashlock = none)
    (hsecret : (m.id, secret) ∈ w.secrets) :
    Change w m { m with preimage := some secret, hashlock := some (cfg.sha256 secret) }
  | announced (hp : m.protocol = none) (takerEth takerQrl : Option A) (t1 t2 announcedAt : Int)
    (h1 : Relation.ReflTransGen cfg.ticks (t1 - cfg.initiatorWindowS) w.clock)
    (h2 : Relation.ReflTransGen cfg.ticks (t2 - cfg.responderWindowS) w.clock)
    (ha : Relation.ReflTransGen cfg.ticks announcedAt w.clock) :
    Change w m { m with
      takerEthAccount := takerEth
      takerQrlAccount := takerQrl
      initiatorTimeout := some t1
      responderTimeout := some t2
      announcedAt := some announcedAt }
  | lockSent (hk : m.hashlock.isSome = true)
    (hf : m.protocol.isSome = true → m.fillProof.isSome = true) :
    Change w m { m with lockSentAt := some w.clock }
  | claimSent : Change w m { m with claimSentAt := some w.clock }
  | sponsorSent : Change w m { m with sponsorSentAt := some w.clock }
  | refundSent : Change w m { m with refundSentAt := some w.clock }
  | withdrawSent : Change w m { m with withdrawSentAt := some w.clock }
  | pushSent : Change w m { m with pushSentAt := some w.clock }
  | withdrawRejected (ht : ∀ t, w.tried m.id = some t → t.current = true) : Change w m { m with
      withdrawAttempts := some (m.withdrawAttempts.getD 0 + 1)
      withdrawFirstRejectedAt := m.withdrawFirstRejectedAt <|> some w.clock }
  | pushRejected : Change w m { m with
      pushAttempts := some (m.pushAttempts.getD 0 + 1)
      pushFirstRejectedAt := m.pushFirstRejectedAt <|> some w.clock }

/-- A listing that was signed just now, under an id that no order has had. -/
structure New (w : World A B) (m : ManagedOrder A B) : Prop where
  absent : w.disk.get m.id = none
  unused : ∀ p, (m.id, p) ∉ w.secrets
  unposted : ∀ st, (m.id, st) ∉ w.posted
  pending : ∃ asset direction q issuedAt createdAt nonce signature signed, .quote q ∈ w.heard ∧
    Relation.ReflTransGen cfg.ticks issuedAt w.clock ∧
    Relation.ReflTransGen cfg.ticks createdAt w.clock ∧
    signOrderV1 cfg.codec cfg.key (listing cfg asset direction q) q.makerToken issuedAt
      (issuedAt + cfg.orderLifetimeS) nonce signature = .ok signed ∧
    cfg.codec.verifyOrder signed.order.makerQrlAccount signed.order signed.auth = true ∧
    m = pendingOrder cfg q signed createdAt
  issued : m.id ∈ w.issued

/-! ## Dropping a record -/

/-- The secret of the record's hashlock has not left the process. -/
def Secret (w : World A B) (m : ManagedOrder A B) : Prop :=
  ∀ k p, m.hashlock = some k → cfg.sha256 p = k → (m.id, p) ∈ w.secrets → p ∉ w.published

inductive Retires (w : World A B) (m : ManagedOrder A B) : Retire → Prop
  | quoteExpired {now : Int} (h : m.canRetireExpiredUnfundedQuote now = true) :
    Retires w m .quoteExpired
  | expired {p : ManagedProtocolV1 A B} (hp : m.protocol = some p) (hf : m.fillProof = none)
    (hc : m.cancelProof = none) (hl : m.lockSentAt = none) : Retires w m .expired
  | cancelled (hc : m.cancelProof.isSome = true) : Retires w m .cancelled
  | drained (hf : m.fillProof = none) : Retires w m .drained
  | repriced (hf : m.fillProof = none) : Retires w m .repriced
  | nearExpiry (hf : m.fillProof = none) : Retires w m .nearExpiry
  | finish {k : B} (hk : m.hashlock = some k)
    (hi : terminal (w.swap (initiatorLeg m.direction) k) = true)
    (hr : terminal (w.swap (responderLeg m.direction) k) = true ∨ Secret cfg w m)
    (hcredits : withdrawParked m.decision w.clock = true ∨ w.shown m.id = (0, 0)) :
    Retires w m .finish
  | abort (hl : m.lockSentAt = none) (hs : Secret cfg w m)
    (hcredits : m.hashlock.isSome = true → w.shown m.id = (0, 0)) : Retires w m .abort

/-! ## Statements and transactions -/

/-- The statement is the one that the record holds, with the secret that it needs. -/
def ManagedOrder.Holds (m : ManagedOrder A B) : Statement A B → Prop
  | .fill proof intent intentAuth => m.fillProof = some proof ∧
    (∃ s, m.selectedIntent = some s ∧ s.intent = intent ∧ s.auth = intentAuth ∧
      s.intentDigest = proof.fill.intentDigest) ∧
    ∃ p, m.preimage = some p ∧ cfg.sha256 p = proof.fill.hashlock
  | .cancel proof => m.cancelProof = some proof

/-- The record has all that a transaction needs, and says that it was sent. -/
structure MaySend (w : World A B) (m : ManagedOrder A B) (l : LegKey) (tx : Tx A B) (value : Nat) :
    Prop where
  hashlock : ∀ k, tx.hashlock = some k → m.hashlock = some k ∧
    (m.protocol.isSome = true → m.fillProof.isSome = true)
  preimage : ∀ p, tx.preimage = some p → m.preimage = some p ∧
    ∀ k l', tx.hashlock = some k → (w.swap l' k).status ≠ .None
  lock : ∀ call args, tx = .htlc call → lockArgs value call = some args →
    m.lockSentAt.isSome = true ∧ l = initiatorLeg m.direction ∧ m.hashlock = some args.1

/-- An attempt to withdraw that may have parked the credit has been followed up. -/
def FollowedUp (w : World A B) : Prop :=
  (∀ s t, cfg.ticks s t → s ≤ t) → ∀ id t, w.tried id = some t → t.current = true →
    ∀ m, w.disk.get id = some m → withdrawParked m.decision t.sentAt = true →
      w.OnRecord (t.leg, cfg.legToken t.leg m.asset, cfg.myAddress t.leg)

def Guard (w : World A B) : ∀ {β : Type}, Req A B β → Prop
  | _, .newSecret id => id ∈ w.issued
  | _, .all => FollowedUp cfg w
  | _, .get _ => FollowedUp cfg w
  | _, .upsert m' => New cfg w m' ∨ ∃ m, w.disk.get m'.id = some m ∧ Change cfg w m m'
  | _, .delete id why => ∃ m, w.disk.get id = some m ∧ Retires cfg w m why
  | _, .post id statement =>
    ∃ m, w.disk.get id = some m ∧ m.protocol.isSome = true ∧ m.Holds cfg statement
  | _, .recordStrandedCredit e => e.parkedAt = w.clock
  | _, .clearStrandedCredit key => key ∈ w.emptied
  | _, .announceHashlock id _ hashlock _ _ =>
    ∃ m, w.disk.get id = some m ∧ m.protocol = none ∧ m.hashlock = some hashlock
  | _, .send id l tx value => ∃ m, w.disk.get id = some m ∧ MaySend w m l tx value
  | _, _ => True

end

end QuantaSwap.Maker.Daemon
