import QuantaSwap.Maker.Record
import QuantaSwap.Lib.Checks
import QuantaSwap.Lib.Text

/-!
# The maker's signatures

`marketmaker/src/protocol-signing.ts`: what is checked before a statement is signed, and of a
proposal before it is taken. The digests, the hash of a capability and the check of a signature are
parameters.
-/

set_option autoImplicit false
set_option linter.unusedSectionVars false

open Lib.Checks Lib.Text

namespace QuantaSwap.Maker.Daemon

def MAX_SAFE_INTEGER : Int := 2 ^ 53 - 1

def MIN_ORDER_LIFETIME_S : Int := 60

def ORDER_LIFETIME_S : Int := 48 * 3600

def MIN_FILL_RESPONSE_S : Int := 60

def MAX_FILL_RESPONSE_S : Int := 15 * 60

def MAX_FILL_INTENT_LIFETIME_S : Int := 120

def MAX_CLOCK_SKEW_S : Int := 5 * 60

def MIN_PRELOCK_LISTING_WINDOW_S : Int := 3 * 60 * 60

def MAX_PRELOCK_LISTING_WINDOW_S : Int := 72 * 60 * 60

def MAX_RESPONDER_WINDOW_S : Int := 2 * 60 * 60

def MAX_INITIATOR_WINDOW_S : Int := 4 * 60 * 60

def MIN_RESPONDER_RUNWAY_AFTER_RESPONSE_S : Int := 600

def SCHEME : String := "qrl-sign-message-v2"

def OFFICIAL_DESCRIPTOR : String := "0x010000"

/-- `AMOUNT_RE`: thirty digits at most. -/
def AMOUNT_LIMIT : Nat := 10 ^ 30

def CAPABILITY_RE : String → Bool := fixed [] 64 isLowerHex

def safeUint (n : Int) : Bool := decide (0 ≤ n) && decide (n ≤ MAX_SAFE_INTEGER)

structure Codec (A B : Type) where
  deriveOrderV1Id : A → B → String
  capabilityCommitment : String → B
  computeOrderDigest : CanonicalOrderV1Body A B → MakerOrderAuthV1 B → B
  computeFillIntentDigest : FillIntentV1Body A B → ProtocolAuthV1 B → B
  computeFillDigest : FillV1Body A B → MakerOrderAuthV1 B → ProtocolAuthV1 B → B
  computeCancelDigest : CancelV1Body B → MakerOrderAuthV1 B → ProtocolAuthV1 B → B
  /-- `verifyOfficialV1Proof` of each payload; a signer is named by its QRL account. -/
  verifyOrder : A → CanonicalOrderV1Body A B → MakerOrderAuthV1 B → Bool
  verifyIntent : FillIntentV1Body A B → ProtocolAuthV1 B → Bool
  verifyFill : A → FillV1Body A B → MakerOrderAuthV1 B → ProtocolAuthV1 B → Bool
  verifyCancel : A → CancelV1Body B → MakerOrderAuthV1 B → ProtocolAuthV1 B → Bool

/-- The signing key. -/
structure Signer (A : Type) where
  address : A
  publicKey : String

section

variable {A B : Type} [DecidableEq A] [DecidableEq B] (codec : Codec A B)

def protocolAuthIsCanonical (auth : ProtocolAuthV1 B) (now : Int) : Bool :=
  decide (auth.scheme = SCHEME) && safeUint auth.issuedAt && safeUint auth.expiresAt &&
    decide (auth.issuedAt < auth.expiresAt) &&
    decide (auth.expiresAt - auth.issuedAt ≤ MAX_FILL_INTENT_LIFETIME_S) &&
    decide (auth.issuedAt ≤ now + MAX_CLOCK_SKEW_S) && decide (now < auth.expiresAt)

def verifyFillIntentV1 (body : FillIntentV1Body A B) (auth : ProtocolAuthV1 B)
    (expectedOrderDigest : B) (now orderIssuedAt orderExpiresAt : Int) : Bool :=
  decide (0 ≤ now) && decide (now ≤ MAX_SAFE_INTEGER - MAX_CLOCK_SKEW_S) &&
    protocolAuthIsCanonical auth now && decide (body.orderDigest = expectedOrderDigest) &&
    safeUint orderIssuedAt && decide (orderIssuedAt ≤ auth.issuedAt) && safeUint orderExpiresAt &&
    decide (auth.expiresAt ≤ orderExpiresAt) && decide (orderIssuedAt < orderExpiresAt) &&
    codec.verifyIntent body auth

def normalizeOrderBody (body : CanonicalOrderV1Body A B) :
    Except String (CanonicalOrderV1Body A B) := do
  refuse (body.visibility = .pub ∧ (body.allowedTakerEth.isSome ∨ body.allowedTakerQrl.isSome))
    "public orders cannot restrict the taker"
  refuse (AMOUNT_LIMIT ≤ body.fromAmount) "order.fromAmount must be a canonical base-unit amount"
  refuse (AMOUNT_LIMIT ≤ body.toAmount) "order.toAmount must be a canonical base-unit amount"
  refuse (body.prelock.any fun prelock => !safeUint prelock.initiatorTimeout)
    "order.prelock.initiatorTimeout must be a non-negative safe integer"
  return body

variable [Zero B] (key : Signer A)

/-- The nonce and the signature are what the randomness and the key make of them. -/
def signOrderV1 (order : CanonicalOrderV1Body A B) (makerToken : String) (issuedAt expiresAt : Int)
    (nonce : B) (signature : String) : Except String (SignedOrderV1 A B) := do
  let order ← normalizeOrderBody order
  refuse (order.visibility ≠ .pub) "headless market maker supports public signed orders only"
  refuse (order.makerQrlAccount ≠ key.address)
    "order maker QRL account does not match the signing seed"
  refuse (¬ safeUint issuedAt) "auth.issuedAt must be a non-negative safe integer"
  refuse (¬ safeUint expiresAt) "auth.expiresAt must be a non-negative safe integer"
  refuse (expiresAt - issuedAt < MIN_ORDER_LIFETIME_S)
    "order expiry must provide at least 60 seconds of runway"
  refuse (ORDER_LIFETIME_S < expiresAt - issuedAt) "order lifetime exceeds 48 hours"
  refuse (order.prelock.any fun prelock => prelock.initiatorTimeout < expiresAt)
    "prelocked order proof cannot outlive its initiator lock"
  refuse (order.prelock.any fun prelock =>
      prelock.initiatorTimeout - issuedAt < MIN_PRELOCK_LISTING_WINDOW_S ∨
        MAX_PRELOCK_LISTING_WINDOW_S < prelock.initiatorTimeout - issuedAt)
    "prelocked order timeout is outside the listing window"
  refuse (¬ CAPABILITY_RE makerToken) "maker token must be 32 raw bytes as lowercase hex"
  return {
    order
    auth := {
      scheme := SCHEME
      issuedAt, expiresAt, nonce, signature
      publicKey := key.publicKey
      descriptor := OFFICIAL_DESCRIPTOR
      makerTokenCommitment := codec.capabilityCommitment makerToken
      shareTokenCommitment := 0 } }

def signFillV1 (fill : FillV1Body A B) (order : SignedOrderV1 A B)
    (selected : SelectedFillIntentV1 A B) (issuedAt respondBy : Int) (nonce : B)
    (signature : String) : Except String (SignedFillV1 A B) := do
  refuse (¬ safeUint fill.initiatorTimeout)
    "fill.initiatorTimeout must be a non-negative safe integer"
  refuse (¬ safeUint fill.responderTimeout)
    "fill.responderTimeout must be a non-negative safe integer"
  let _ ← normalizeOrderBody order.order
  refuse (¬ safeUint issuedAt) "auth.issuedAt must be a non-negative safe integer"
  refuse (¬ safeUint respondBy) "auth.expiresAt must be a non-negative safe integer"
  refuse (respondBy - issuedAt < MIN_FILL_RESPONSE_S ∨ MAX_FILL_RESPONSE_S < respondBy - issuedAt)
    "fill response window must be between 60 and 900 seconds"
  refuse (order.order.visibility ≠ .pub) "headless market maker supports public signed orders only"
  refuse (order.order.makerQrlAccount ≠ key.address ∨ order.auth.scheme ≠ SCHEME ∨
      order.auth.publicKey ≠ key.publicKey ∨ order.auth.descriptor ≠ OFFICIAL_DESCRIPTOR ∨
      ¬ codec.verifyOrder order.order.makerQrlAccount order.order order.auth)
    "fill order context is not authenticated by this maker"
  let expectedOrderDigest := codec.computeOrderDigest order.order order.auth
  refuse (fill.orderDigest ≠ expectedOrderDigest ∨
      selected.intentDigest ≠ codec.computeFillIntentDigest selected.intent selected.auth ∨
      fill.intentDigest ≠ selected.intentDigest ∨
      fill.takerEthAccount ≠ selected.intent.takerEthAccount ∨
      fill.takerQrlAccount ≠ selected.intent.takerQrlAccount ∨
      fill.releaseCommitment ≠ selected.intent.releaseCommitment ∨
      ¬ verifyFillIntentV1 codec selected.intent selected.auth expectedOrderDigest issuedAt
        order.auth.issuedAt order.auth.expiresAt)
    "fill does not authenticate the selected live intent"
  refuse (selected.auth.expiresAt ≤ issuedAt ∨ order.auth.expiresAt < respondBy)
    "fill authorization is outside its order or intent window"
  refuse (fill.hashlock = 0) "fill hashlock cannot be zero"
  let initiatorWindow := fill.initiatorTimeout - issuedAt
  let responderWindow := fill.responderTimeout - issuedAt
  refuse (responderWindow ≤ 0 ∨ initiatorWindow < responderWindow ∨
      initiatorWindow / 2 < responderWindow)
    "fill timeout windows are invalid"
  refuse (MAX_RESPONDER_WINDOW_S < responderWindow)
    "fill responder timeout exceeds the maximum window"
  refuse (order.order.prelock.isNone ∧ MAX_INITIATOR_WINDOW_S < initiatorWindow)
    "fill initiator timeout exceeds the maximum window"
  refuse (order.order.prelock.any fun prelock =>
      fill.hashlock ≠ prelock.hashlock ∨ fill.initiatorTimeout ≠ prelock.initiatorTimeout)
    "fill does not exactly match the signed prelock"
  refuse (fill.responderTimeout - respondBy ≤ MIN_RESPONDER_RUNWAY_AFTER_RESPONSE_S)
    "fill responder timeout has insufficient post-response runway"
  return {
    fill
    auth := {
      scheme := SCHEME
      issuedAt
      expiresAt := respondBy
      nonce, signature
      publicKey := key.publicKey
      descriptor := OFFICIAL_DESCRIPTOR } }

def signCancelV1 (cancel : CancelV1Body B) (issuedAt expiresAt : Int) (nonce : B)
    (signature : String) : Except String (SignedCancelV1 B) := do
  refuse (255 < cancel.reasonCode) "cancel.reasonCode must fit uint8"
  refuse (¬ safeUint issuedAt) "auth.issuedAt must be a non-negative safe integer"
  refuse (¬ safeUint expiresAt) "auth.expiresAt must be a non-negative safe integer"
  refuse (expiresAt ≤ issuedAt) "cancel authorization expiry must follow issuance"
  return {
    cancel
    auth := {
      scheme := SCHEME
      issuedAt, expiresAt, nonce, signature
      publicKey := key.publicKey
      descriptor := OFFICIAL_DESCRIPTOR } }

end

/-! ## What a signed statement says -/

section

variable {A B : Type} [DecidableEq A] [DecidableEq B] [Zero B] {codec : Codec A B} {key : Signer A}
  {issuedAt expiresAt : Int} {nonce : B} {signature : String}

/-- What the signer puts its name to, whatever is signed. -/
structure AuthSigned (key : Signer A) (issuedAt expiresAt : Int) (auth : ProtocolAuthV1 B) :
    Prop where
  scheme : auth.scheme = SCHEME
  publicKey : auth.publicKey = key.publicKey
  descriptor : auth.descriptor = OFFICIAL_DESCRIPTOR
  issued : auth.issuedAt = issuedAt
  expires : auth.expiresAt = expiresAt
  safe : safeUint issuedAt = true ∧ safeUint expiresAt = true

/-- What a body must be like to be signed or digested at all. -/
structure Normal (body : CanonicalOrderV1Body A B) : Prop where
  taker : body.visibility = .pub → body.allowedTakerEth = none ∧ body.allowedTakerQrl = none
  amounts : body.fromAmount < AMOUNT_LIMIT ∧ body.toAmount < AMOUNT_LIMIT
  prelock : ∀ prelock, body.prelock = some prelock → safeUint prelock.initiatorTimeout = true

theorem normalizeOrderBody_eq_ok {body body' : CanonicalOrderV1Body A B} :
    normalizeOrderBody body = .ok body' ↔ Normal body ∧ body' = body := by
  unfold normalizeOrderBody
  simp only [bind_eq_ok, pure_eq_ok, refuse_eq_ok, exists_and_left, exists_const, not_and, not_or,
    Bool.not_eq_true, Option.isSome_eq_false_iff, Option.isNone_iff_eq_none, not_le,
    Option.any_eq_false]
  constructor
  · rintro ⟨htaker, hfrom, hto, hprelock, rfl⟩
    exact ⟨⟨htaker, ⟨hfrom, hto⟩, by simpa using hprelock⟩, rfl⟩
  · rintro ⟨h, rfl⟩
    exact ⟨h.taker, h.amounts.1, h.amounts.2, by simpa using h.prelock, rfl⟩

structure OrderSigned (codec : Codec A B) (key : Signer A) (order : CanonicalOrderV1Body A B)
    (makerToken : String) (issuedAt expiresAt : Int) (proof : SignedOrderV1 A B) : Prop
    extends AuthSigned key issuedAt expiresAt proof.auth.toProtocolAuthV1 where
  body : proof.order = order
  visibility : order.visibility = .pub
  account : order.makerQrlAccount = key.address
  token : proof.auth.makerTokenCommitment = codec.capabilityCommitment makerToken
  share : proof.auth.shareTokenCommitment = 0
  lifetime : MIN_ORDER_LIFETIME_S ≤ expiresAt - issuedAt ∧ expiresAt - issuedAt ≤ ORDER_LIFETIME_S
  normal : Normal order
  capability : CAPABILITY_RE makerToken = true

theorem signOrderV1_signed {order : CanonicalOrderV1Body A B} {makerToken : String}
    {proof : SignedOrderV1 A B}
    (h : signOrderV1 codec key order makerToken issuedAt expiresAt nonce signature = .ok proof) :
    OrderSigned codec key order makerToken issuedAt expiresAt proof := by
  unfold signOrderV1 at h
  simp only [bind_eq_ok, pure_eq_ok, refuse_eq_ok, normalizeOrderBody_eq_ok, exists_and_left,
    exists_const, not_not] at h
  obtain ⟨_, ⟨hnormal, rfl⟩, hpub, haccount, hissued, hexpires, hmin, hmax, -, -, htoken, rfl⟩ := h
  exact ⟨⟨rfl, rfl, rfl, rfl, rfl, hissued, hexpires⟩, rfl, hpub, haccount, rfl, rfl,
    ⟨by omega, by omega⟩, hnormal, htoken⟩

structure FillSigned (codec : Codec A B) (key : Signer A) (fill : FillV1Body A B)
    (order : SignedOrderV1 A B) (selected : SelectedFillIntentV1 A B) (issuedAt respondBy : Int)
    (proof : SignedFillV1 A B) : Prop extends AuthSigned key issuedAt respondBy proof.auth where
  body : proof.fill = fill
  timeouts : safeUint fill.initiatorTimeout = true ∧ safeUint fill.responderTimeout = true
  response : MIN_FILL_RESPONSE_S ≤ respondBy - issuedAt ∧ respondBy - issuedAt ≤ MAX_FILL_RESPONSE_S
  selects : selected.intentDigest = codec.computeFillIntentDigest selected.intent selected.auth
  intent : fill.intentDigest = selected.intentDigest ∧
    fill.takerEthAccount = selected.intent.takerEthAccount ∧
    fill.takerQrlAccount = selected.intent.takerQrlAccount ∧
    fill.releaseCommitment = selected.intent.releaseCommitment
  digest : fill.orderDigest = codec.computeOrderDigest order.order order.auth
  verified : verifyFillIntentV1 codec selected.intent selected.auth
    (codec.computeOrderDigest order.order order.auth) issuedAt order.auth.issuedAt
    order.auth.expiresAt = true
  live : issuedAt < selected.auth.expiresAt ∧ respondBy ≤ order.auth.expiresAt
  nonzero : fill.hashlock ≠ 0
  windows : 0 < fill.responderTimeout - issuedAt ∧
    fill.responderTimeout - issuedAt ≤ fill.initiatorTimeout - issuedAt ∧
    fill.responderTimeout - issuedAt ≤ (fill.initiatorTimeout - issuedAt) / 2 ∧
    fill.responderTimeout - issuedAt ≤ MAX_RESPONDER_WINDOW_S
  listed : order.order.prelock = none →
    fill.initiatorTimeout - issuedAt ≤ MAX_INITIATOR_WINDOW_S
  prelocked : ∀ prelock, order.order.prelock = some prelock →
    fill.hashlock = prelock.hashlock ∧ fill.initiatorTimeout = prelock.initiatorTimeout
  runway : MIN_RESPONDER_RUNWAY_AFTER_RESPONSE_S < fill.responderTimeout - respondBy

theorem signFillV1_signed {fill : FillV1Body A B} {order : SignedOrderV1 A B}
    {selected : SelectedFillIntentV1 A B} {respondBy : Int} {proof : SignedFillV1 A B}
    (h : signFillV1 codec key fill order selected issuedAt respondBy nonce signature = .ok proof) :
    FillSigned codec key fill order selected issuedAt respondBy proof := by
  unfold signFillV1 at h
  simp only [bind_eq_ok, pure_eq_ok, refuse_eq_ok, normalizeOrderBody_eq_ok, exists_and_left,
    exists_const, not_not, not_or, not_lt, not_le, ne_eq] at h
  obtain ⟨h1, h2, _, ⟨-, -⟩, hissued, hexpires, hresponse, -, -,
    ⟨hdigest, hselects, hi, he, hq, hr, hv⟩, hlive,
    hzero, hwindows, hmax, hlisted, hprelock, hrunway, rfl⟩ := h
  refine ⟨⟨rfl, rfl, rfl, rfl, rfl, hissued, hexpires⟩, rfl, ⟨h1, h2⟩, hresponse, hselects,
    ⟨hi, he, hq, hr⟩, hdigest, hv, hlive, hzero, ⟨hwindows.1, hwindows.2.1, hwindows.2.2, hmax⟩, ?_,
    ?_, hrunway⟩
  · intro hp
    simpa [hp] using hlisted
  · intro prelock hp
    simpa [hp] using hprelock

end

end QuantaSwap.Maker.Daemon
