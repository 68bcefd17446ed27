import QuantaSwap.Book.Wire

/-!
# Portable signed statements

Orders, fill intents, fills and cancels: their canonical bodies, the statement
each one signs, and the four verifiers. A body or an authorization that has
been parsed carries the shape of its fields in its type.
-/

set_option autoImplicit false

namespace QuantaSwap.Book

open Lib.Js Lib.Text Lib.Checks

namespace Signing

def ethAddrRe : String → Bool := fixed ['0', 'x'] 40 isLowerHex
def qrlAddrRe : String → Bool := fixed ['Q'] 128 isLowerHex
def amountRe (s : String) : Bool := Lib.Decimal.canonical s.toList && s.toList.length ≤ 30
def signatureRe : String → Bool := fixed ['0', 'x'] (4627 * 2) isLowerHex
def publicKeyRe : String → Bool := fixed ['0', 'x'] (2592 * 2) isLowerHex
def descriptorRe : String → Bool := fixed ['0', 'x'] 6 isLowerHex

end Signing

abbrev EthAccount := Matching Signing.ethAddrRe
abbrev QrlAccount := Matching Signing.qrlAddrRe
abbrev SignedAmount := Matching Signing.amountRe

def zeroBytes32 : Bytes32 :=
  ⟨String.ofList ('0' :: 'x' :: List.replicate 64 '0'), by decide +kernel⟩

/-- `EMPTY_HASHLOCK` -/
def emptyHashlock : Hashlock := zeroBytes32

def maxOrderLifetimeS : Nat := 48 * 3600
def maxFillIntentLifetimeS : Nat := 120
def minFillResponseS : Nat := 60
def maxFillResponseS : Nat := 900
def minResponderRunwayAfterResponseS : Nat := 600
def minPrelockRunwayS : Nat := 9000
def maxResponderWindowS : Nat := 2 * 60 * 60
def maxInitiatorWindowS : Nat := 4 * 60 * 60
def minPrelockListingWindowS : Nat := 3 * 60 * 60
def maxPrelockListingWindowS : Nat := 72 * 60 * 60
def maxClockSkewS : Nat := 5 * 60
def minRemainingLifetimeS : Nat := 60

/-! ## Bodies and authorizations -/

inductive Direction where
  | ethToQrl
  | qrlToEth
  deriving DecidableEq, Repr

def Direction.name : Direction → String
  | .ethToQrl => "eth->qrl"
  | .qrlToEth => "qrl->eth"

def Direction.ofJson? : Option Json → Option Direction
  | some (.str "eth->qrl") => some .ethToQrl
  | some (.str "qrl->eth") => some .qrlToEth
  | _ => none

inductive Visibility where
  | pub
  | priv
  deriving DecidableEq, Repr

def Visibility.name : Visibility → String
  | .pub => "public"
  | .priv => "private"

def Visibility.ofJson? : Option Json → Option Visibility
  | some (.str "public") => some .pub
  | some (.str "private") => some .priv
  | _ => none

/-- `version` and `scheme` have one admissible value each. -/
structure ProtocolAuthV1 where
  issuedAt : SafeInt
  expiresAt : SafeInt
  nonce : Bytes32
  signature : Matching Signing.signatureRe
  publicKey : Matching Signing.publicKeyRe
  descriptor : Matching Signing.descriptorRe
  deriving DecidableEq

structure MakerOrderAuthV1 extends ProtocolAuthV1 where
  makerTokenCommitment : Bytes32
  shareTokenCommitment : Bytes32
  deriving DecidableEq

structure Prelock where
  hashlock : Hashlock
  initiatorTimeout : SafeInt
  deriving DecidableEq

/-- The canonical signed order body. -/
structure OrderV1Body where
  direction : Direction
  asset : AssetSymbol
  fromAmount : SignedAmount
  toAmount : SignedAmount
  makerEthAccount : EthAccount
  makerQrlAccount : QrlAccount
  visibility : Visibility
  allowedTakerEth : Option EthAccount
  allowedTakerQrl : Option QrlAccount
  prelock : Option Prelock
  deriving DecidableEq

structure FillIntentV1Body where
  orderDigest : Bytes32
  takerEthAccount : EthAccount
  takerQrlAccount : QrlAccount
  releaseCommitment : Bytes32
  deriving DecidableEq

structure FillV1Body where
  orderDigest : Bytes32
  intentDigest : Bytes32
  takerEthAccount : EthAccount
  takerQrlAccount : QrlAccount
  releaseCommitment : Bytes32
  hashlock : Hashlock
  initiatorTimeout : SafeInt
  responderTimeout : SafeInt
  hashlock_ne : hashlock ≠ emptyHashlock
  deriving DecidableEq

structure CancelV1Body where
  orderDigest : Bytes32
  reasonCode : Fin 256
  deriving DecidableEq

structure VerifiedOrderV1 where
  orderId : TokenHash
  orderDigest : Bytes32
  order : OrderV1Body
  auth : MakerOrderAuthV1
  deriving DecidableEq

structure VerifiedFillIntentV1 where
  intentDigest : Bytes32
  intent : FillIntentV1Body
  auth : ProtocolAuthV1
  deriving DecidableEq

structure VerifiedFillV1 where
  fillDigest : Bytes32
  fill : FillV1Body
  auth : ProtocolAuthV1
  deriving DecidableEq

structure VerifiedCancelV1 where
  cancelDigest : Bytes32
  cancel : CancelV1Body
  auth : ProtocolAuthV1
  deriving DecidableEq

/-! ## As JSON -/

def safeJson (n : SafeInt) : Json := .num (.ofNat n.val)

def ProtocolAuthV1.fields (a : ProtocolAuthV1) : Record :=
  [("version", .str "2"), ("scheme", .str "qrl-sign-message-v2"), ("issuedAt", safeJson a.issuedAt),
    ("expiresAt", safeJson a.expiresAt), ("nonce", .str a.nonce.val),
      ("signature", .str a.signature.val),
    ("publicKey", .str a.publicKey.val), ("descriptor", .str a.descriptor.val)]

def ProtocolAuthV1.toJson (a : ProtocolAuthV1) : Json := .obj a.fields

def MakerOrderAuthV1.toJson (a : MakerOrderAuthV1) : Json :=
  .obj (a.toProtocolAuthV1.fields ++
    [("makerTokenCommitment", .str a.makerTokenCommitment.val),
      ("shareTokenCommitment", .str a.shareTokenCommitment.val)])

def Prelock.toJson (p : Prelock) : Json :=
  .obj [("hashlock", .str p.hashlock.val), ("initiatorTimeout", safeJson p.initiatorTimeout)]

/-- `body` of `canonicalOrderBody`. -/
def OrderV1Body.record (b : OrderV1Body) : Record :=
  object [("direction", some (.str b.direction.name)), ("asset", some (.str b.asset.name)),
    ("fromAmount", some (.str b.fromAmount.val)), ("toAmount", some (.str b.toAmount.val)),
    ("makerEthAccount", some (.str b.makerEthAccount.val)),
    ("makerQrlAccount", some (.str b.makerQrlAccount.val)),
    ("visibility", some (.str b.visibility.name)),
    ("allowedTakerEth", b.allowedTakerEth.map fun a => .str a.val),
    ("allowedTakerQrl", b.allowedTakerQrl.map fun a => .str a.val),
    ("prelock", b.prelock.map Prelock.toJson)]

def FillIntentV1Body.toJson (b : FillIntentV1Body) : Json :=
  .obj [("orderDigest", .str b.orderDigest.val), ("takerEthAccount", .str b.takerEthAccount.val),
    ("takerQrlAccount", .str b.takerQrlAccount.val),
      ("releaseCommitment", .str b.releaseCommitment.val)]

def FillV1Body.toJson (b : FillV1Body) : Json :=
  .obj [("orderDigest", .str b.orderDigest.val), ("intentDigest", .str b.intentDigest.val),
    ("takerEthAccount", .str b.takerEthAccount.val),
      ("takerQrlAccount", .str b.takerQrlAccount.val),
    ("releaseCommitment", .str b.releaseCommitment.val), ("hashlock", .str b.hashlock.val),
    ("initiatorTimeout", safeJson b.initiatorTimeout),
      ("responderTimeout", safeJson b.responderTimeout)]

def CancelV1Body.toJson (b : CancelV1Body) : Json :=
  .obj [("orderDigest", .str b.orderDigest.val), ("reasonCode", .num (.ofNat b.reasonCode.val))]

/-! ## Parsing -/

def invalid (message : String) : Thrown := apiError 400 message

/-- `isRecord` -/
def asRecord : Option Json → Option Record
  | some (.obj r) => some r
  | _ => none

def asString : Option Json → Option String
  | some (.str s) => some s
  | _ => none

def objectValue (raw : Option Json) (field : String) : Except Thrown Record :=
  orThrow (asRecord raw) (invalid (field ++ " must be an object"))

/-- The first key that is not among the allowed ones is refused by its name. -/
def refuseUnknown (object : Record) (field : String) (keys : List String) : Except Thrown Unit :=
  match object.keys.find? fun key => key ∉ keys with
  | some key => .error (invalid (field ++ "." ++ key ++ " is not supported"))
  | none => .ok ⟨⟩

def requireKeys (object : Record) (field : String) (keys : List String) : Except Thrown Unit :=
  match keys.find? fun key => key ∉ object.keys with
  | some key => .error (invalid (field ++ "." ++ key ++ " is required"))
  | none => .ok ⟨⟩

def exactObject (raw : Option Json) (field : String) (keys : List String) :
    Except Thrown Record := do
  let object ← objectValue raw field
  refuseUnknown object field keys
  requireKeys object field keys
  pure object

def allowedObject (raw : Option Json) (field : String) (keys : List String) :
    Except Thrown Record := do
  let object ← objectValue raw field
  refuseUnknown object field keys
  pure object

def exactString (raw : Option Json) (field : String) (re : String → Bool) :
    Except Thrown (Matching re) :=
  orThrow ((asString raw).bind (matching re)) (invalid (field ++ " is invalid"))

/-- A non-negative safe integer other than `-0`. -/
def exactInteger (raw : Option Json) (field : String) : Except Thrown SafeInt :=
  let refused := invalid (field ++ " must be a non-negative safe integer")
  match raw with
  | some (.num .negZero) => .error refused
  | some (.num n) => orThrow n.toSafe? refused
  | _ => .error refused

def exactUint8 (raw : Option Json) (field : String) : Except Thrown (Fin 256) := do
  let value ← exactInteger raw field
  if h : value.val < 256 then pure ⟨value.val, h⟩ else .error (invalid (field ++ " must fit uint8"))

/-- An absent field stays absent; a present one must match. -/
def optionalString (raw : Option Json) (field : String) (re : String → Bool) :
    Except Thrown (Option (Matching re)) :=
  match raw with
  | none => .ok none
  | some value => do
    let s ← exactString (some value) field re
    pure (some s)

def parsePrelock (raw : Option Json) : Except Thrown (Option Prelock) :=
  match raw with
  | none => .ok none
  | some value => do
    let prelock ← exactObject (some value) "order.prelock" ["hashlock", "initiatorTimeout"]
    let hashlock ← exactString (prelock.get "hashlock") "order.prelock.hashlock" bytes32Re
    let timeout ← exactInteger (prelock.get "initiatorTimeout") "order.prelock.initiatorTimeout"
    pure (some ⟨hashlock, timeout⟩)

def orderBodyKeys : List String :=
  ["direction", "asset", "fromAmount", "toAmount", "makerEthAccount", "makerQrlAccount",
    "visibility",
    "allowedTakerEth", "allowedTakerQrl", "prelock"]

def canonicalOrderBody (raw : Option Json) : Except Thrown OrderV1Body := do
  let input ← allowedObject raw "order" orderBodyKeys
  let direction ← orThrow (Direction.ofJson? (input.get "direction"))
    (invalid "order.direction is invalid")
  let asset ← orThrow ((asString (input.get "asset")).bind knownAsset)
    (invalid "order.asset is invalid")
  let fromAmount ← exactString (input.get "fromAmount") "order.fromAmount" Signing.amountRe
  let toAmount ← exactString (input.get "toAmount") "order.toAmount" Signing.amountRe
  let makerEthAccount ← exactString
    (input.get "makerEthAccount") "order.makerEthAccount" Signing.ethAddrRe
  let makerQrlAccount ← exactString
    (input.get "makerQrlAccount") "order.makerQrlAccount" Signing.qrlAddrRe
  let visibility ←
    orThrow (Visibility.ofJson? (input.get "visibility")) (invalid "order.visibility is invalid")
  refuse (visibility = .pub ∧
      ((input.get "allowedTakerEth").isSome ∨ (input.get "allowedTakerQrl").isSome))
    (invalid "public signed orders cannot restrict the taker")
  let allowedTakerEth ← optionalString
    (input.get "allowedTakerEth") "order.allowedTakerEth" Signing.ethAddrRe
  let allowedTakerQrl ← optionalString
    (input.get "allowedTakerQrl") "order.allowedTakerQrl" Signing.qrlAddrRe
  let prelock ← parsePrelock (input.get "prelock")
  pure ⟨direction, asset, fromAmount, toAmount, makerEthAccount, makerQrlAccount, visibility,
    allowedTakerEth, allowedTakerQrl, prelock⟩

def authKeys : List String :=
  ["version", "scheme", "issuedAt", "expiresAt", "nonce", "signature", "publicKey", "descriptor"]

def makerOrderAuthKeys : List String := authKeys ++ ["makerTokenCommitment", "shareTokenCommitment"]

/-- The fields of `parseAuth`, from an object that has been checked already. -/
def authFields (auth : Record) : Except Thrown ProtocolAuthV1 := do
  refuse (asString (auth.get "version") ≠ some "2") (invalid "auth.version must be 2")
  refuse (asString (auth.get "scheme") ≠ some "qrl-sign-message-v2")
    (invalid "auth.scheme is unsupported")
  let descriptor ← exactString (auth.get "descriptor") "auth.descriptor" Signing.descriptorRe
  let issuedAt ← exactInteger (auth.get "issuedAt") "auth.issuedAt"
  let expiresAt ← exactInteger (auth.get "expiresAt") "auth.expiresAt"
  let nonce ← exactString (auth.get "nonce") "auth.nonce" bytes32Re
  let signature ← exactString (auth.get "signature") "auth.signature" Signing.signatureRe
  let publicKey ← exactString (auth.get "publicKey") "auth.publicKey" Signing.publicKeyRe
  pure ⟨issuedAt, expiresAt, nonce, signature, publicKey, descriptor⟩

/-- `parseAuth(raw, "auth", true)` -/
def parseAuth (raw : Option Json) : Except Thrown ProtocolAuthV1 := do
  let auth ← exactObject raw "auth" authKeys
  authFields auth

def parseMakerOrderAuth (raw : Option Json) : Except Thrown MakerOrderAuthV1 := do
  let exact ← exactObject raw "auth" makerOrderAuthKeys
  let auth ← authFields exact
  let makerTokenCommitment ←
    exactString (exact.get "makerTokenCommitment") "auth.makerTokenCommitment" bytes32Re
  let shareTokenCommitment ←
    exactString (exact.get "shareTokenCommitment") "auth.shareTokenCommitment" bytes32Re
  pure ⟨auth, makerTokenCommitment, shareTokenCommitment⟩

def canonicalFillIntentBody (raw : Option Json) : Except Thrown FillIntentV1Body := do
  let body ← exactObject raw "intent"
    ["orderDigest", "takerEthAccount", "takerQrlAccount", "releaseCommitment"]
  let orderDigest ← exactString (body.get "orderDigest") "intent.orderDigest" bytes32Re
  let takerEthAccount ← exactString
    (body.get "takerEthAccount") "intent.takerEthAccount" Signing.ethAddrRe
  let takerQrlAccount ← exactString
    (body.get "takerQrlAccount") "intent.takerQrlAccount" Signing.qrlAddrRe
  let releaseCommitment ← exactString
    (body.get "releaseCommitment") "intent.releaseCommitment" bytes32Re
  pure ⟨orderDigest, takerEthAccount, takerQrlAccount, releaseCommitment⟩

def canonicalFillBody (raw : Option Json) : Except Thrown FillV1Body := do
  let body ← exactObject raw "fill"
    ["orderDigest", "intentDigest", "takerEthAccount", "takerQrlAccount", "releaseCommitment",
      "hashlock",
      "initiatorTimeout", "responderTimeout"]
  let hashlock ← exactString (body.get "hashlock") "fill.hashlock" bytes32Re
  if hzero : hashlock = emptyHashlock then
    .error (invalid "fill.hashlock cannot be zero")
  else do
    let orderDigest ← exactString (body.get "orderDigest") "fill.orderDigest" bytes32Re
    let intentDigest ← exactString (body.get "intentDigest") "fill.intentDigest" bytes32Re
    let takerEthAccount ← exactString
      (body.get "takerEthAccount") "fill.takerEthAccount" Signing.ethAddrRe
    let takerQrlAccount ← exactString
      (body.get "takerQrlAccount") "fill.takerQrlAccount" Signing.qrlAddrRe
    let releaseCommitment ← exactString
      (body.get "releaseCommitment") "fill.releaseCommitment" bytes32Re
    let initiatorTimeout ← exactInteger (body.get "initiatorTimeout") "fill.initiatorTimeout"
    let responderTimeout ← exactInteger (body.get "responderTimeout") "fill.responderTimeout"
    pure ⟨orderDigest, intentDigest, takerEthAccount, takerQrlAccount, releaseCommitment, hashlock,
      initiatorTimeout, responderTimeout, hzero⟩

def canonicalCancelBody (raw : Option Json) : Except Thrown CancelV1Body := do
  let body ← exactObject raw "cancel" ["orderDigest", "reasonCode"]
  let orderDigest ← exactString (body.get "orderDigest") "cancel.orderDigest" bytes32Re
  let reasonCode ← exactUint8 (body.get "reasonCode") "cancel.reasonCode"
  pure ⟨orderDigest, reasonCode⟩

/-! ## Statements -/

/-- A `uint64` field: the decimal of a safe integer. -/
def uintJson (n : SafeInt) : Json := .str n.val.repr

def caipEthAccount (account : EthAccount) : String := "eip155:" ++ ethChainId ++ ":" ++ account.val

def buildPayload (primaryType : PrimaryType) (terms : Record) : Payload :=
  ⟨primaryType, primaryType.fields, orderV2Domain.map fun (key, value) => (key, .str value), terms⟩

/-- `SignedOrderTerms` -/
def orderTerms (body : OrderV1Body) (auth : MakerOrderAuthV1) : Record :=
  [("direction", .str body.direction.name), ("asset", .str body.asset.name),
    ("fromAmount", .str body.fromAmount.val), ("toAmount", .str body.toAmount.val),
    ("makerEthAccount", .str (caipEthAccount body.makerEthAccount)),
    ("makerQrlAccount", .str body.makerQrlAccount.val), ("visibility", .str body.visibility.name),
    ("allowedTakerEth", .str ((body.allowedTakerEth.map caipEthAccount).getD "")),
    ("allowedTakerQrl", .str ((body.allowedTakerQrl.map Subtype.val).getD "")),
    ("prelocked", .bool body.prelock.isSome),
    ("hashlock", .str ((body.prelock.map Prelock.hashlock).getD emptyHashlock).val),
    ("initiatorTimeout",
      .str ((body.prelock.map fun p : Prelock => p.initiatorTimeout.val).getD 0).repr),
    ("issuedAt", uintJson auth.issuedAt), ("expiresAt", uintJson auth.expiresAt),
    ("nonce", .str auth.nonce.val), ("makerTokenCommitment", .str auth.makerTokenCommitment.val),
    ("shareTokenCommitment", .str auth.shareTokenCommitment.val)] ++ orderV2Deployment

def intentTerms (intent : FillIntentV1Body) (auth : ProtocolAuthV1) : Record :=
  [("orderDigest", .str intent.orderDigest.val), ("requestNonce", .str auth.nonce.val),
    ("takerEthAccount", .str (caipEthAccount intent.takerEthAccount)),
    ("takerQrlAccount", .str intent.takerQrlAccount.val),
    ("releaseCommitment", .str intent.releaseCommitment.val), ("issuedAt", uintJson auth.issuedAt),
    ("expiresAt", uintJson auth.expiresAt)] ++ orderV2Deployment

def fillTerms (fill : FillV1Body) (auth : ProtocolAuthV1) (order : VerifiedOrderV1) : Record :=
  [("orderDigest", .str fill.orderDigest.val), ("orderNonce", .str order.auth.nonce.val),
    ("intentDigest", .str fill.intentDigest.val), ("fillNonce", .str auth.nonce.val),
    ("takerEthAccount", .str (caipEthAccount fill.takerEthAccount)),
    ("takerQrlAccount", .str fill.takerQrlAccount.val),
    ("releaseCommitment", .str fill.releaseCommitment.val), ("hashlock", .str fill.hashlock.val),
    ("initiatorTimeout", uintJson fill.initiatorTimeout),
    ("responderTimeout", uintJson fill.responderTimeout), ("issuedAt", uintJson auth.issuedAt),
    ("respondBy", uintJson auth.expiresAt)] ++ orderV2Deployment

def cancelTerms (cancel : CancelV1Body) (auth : ProtocolAuthV1) (order : VerifiedOrderV1) :
    Record :=
  [("orderDigest", .str cancel.orderDigest.val), ("orderNonce", .str order.auth.nonce.val),
    ("cancelNonce", .str auth.nonce.val), ("issuedAt", uintJson auth.issuedAt),
    ("reasonCode", .num (.ofNat cancel.reasonCode.val))] ++ orderV2Deployment

section Verify

variable (E : Crypto)

def semanticDigest (payload : Payload) : Except Thrown Bytes32 := do
  let bytes ← protocolMessageBytes payload
  pure (prefixed (E.sha256 bytes))

def orderIdPrefix : String := "QuantaSwap OrderV2 id\x00"

def deriveOrderV1Id (makerQrlAccount : QrlAccount) (nonce : Bytes32) : TokenHash :=
  E.sha256 (utf8 orderIdPrefix ++ hexBytes (dropLead ['Q'] makerQrlAccount.val).toList ++
    getBytes nonce)

def capabilityCommitment (rawToken : TokenHash) (lead : String) : Bytes32 :=
  prefixed (E.sha256 (utf8 lead ++ hexBytes rawToken.val.toList))

def computeMakerTokenCommitment (rawToken : TokenHash) : Bytes32 :=
  capabilityCommitment E rawToken "QuantaSwap Maker capability V2\x00"

def computeShareTokenCommitment (rawToken : TokenHash) : Bytes32 :=
  capabilityCommitment E rawToken "QuantaSwap Share capability V2\x00"

def releasePrefix : String := "QuantaSwap ReleaseV2\x00"

def computeReleaseCommitment (orderDigest requestNonce releaseSecret : Bytes32) : Bytes32 :=
  prefixed (E.sha256
    (utf8 releasePrefix ++ getBytes orderDigest ++ getBytes requestNonce ++ getBytes releaseSecret))

def verifyProof (signer : String) (auth : ProtocolAuthV1) (payload : Payload) :
    Except Thrown Bool := do
  assertV2Deployment
  let messageBytes ← protocolMessageBytes payload
  pure (E.verifyMessageForSigner signer auth.descriptor.val auth.signature.val auth.publicKey.val
    messageBytes)

/-- `verifyProof` or a 401 that names the signer. -/
def requireProof (who : String) (signer : String) (auth : ProtocolAuthV1) (payload : Payload) :
    Except Thrown Unit := do
  let valid ← verifyProof E signer auth payload
  refuse (valid = false) (apiError 401 (who ++ " signature is invalid"))

variable (now : SafeInt) (allowExpired : Bool)

/-- `verifyOrderV1` after its two arguments are parsed. -/
def checkOrderV1 (body : OrderV1Body) (auth : MakerOrderAuthV1) :
    Except Thrown VerifiedOrderV1 := do
  refuse (auth.expiresAt.val ≤ auth.issuedAt.val)
    (invalid "signed order expiry must follow issuance")
  refuse (auth.issuedAt.val + maxOrderLifetimeS < auth.expiresAt.val)
    (invalid "signed order lifetime exceeds 48 hours")
  refuse (now.val + maxClockSkewS < auth.issuedAt.val)
    (invalid "signed order issuance is in the future")
  refuse (allowExpired = false ∧ auth.expiresAt.val < now.val + minRemainingLifetimeS)
    (invalid "signed order is expired or too close to expiry")
  refuse (∃ p ∈ body.prelock, (p : Prelock).initiatorTimeout.val < auth.expiresAt.val)
    (invalid "signed order expiry exceeds the prelock timeout")
  refuse (∃ p ∈ body.prelock,
      (p : Prelock).initiatorTimeout.val < auth.issuedAt.val + minPrelockListingWindowS ∨
      auth.issuedAt.val + maxPrelockListingWindowS < p.initiatorTimeout.val)
    (invalid "signed prelock timeout is outside the listing window")
  refuse (auth.makerTokenCommitment = zeroBytes32)
    (invalid "auth.makerTokenCommitment cannot be zero")
  refuse ((body.visibility = .pub ∧ auth.shareTokenCommitment ≠ zeroBytes32) ∨
      (body.visibility = .priv ∧ auth.shareTokenCommitment = zeroBytes32))
    (invalid "auth.shareTokenCommitment does not match order visibility")
  let payload := buildPayload .OrderV2 (orderTerms body auth)
  requireProof E "maker" body.makerQrlAccount.val auth.toProtocolAuthV1 payload
  let orderDigest ← semanticDigest E payload
  pure ⟨deriveOrderV1Id E body.makerQrlAccount auth.nonce, orderDigest, body, auth⟩

def verifyOrderV1 (rawOrder rawAuth : Option Json) : Except Thrown VerifiedOrderV1 := do
  let body ← canonicalOrderBody rawOrder
  let auth ← parseMakerOrderAuth rawAuth
  checkOrderV1 E now allowExpired body auth

def assertInitialAcceptance (auth : ProtocolAuthV1) (artifact : String) : Except Thrown Unit := do
  refuse (now.val + maxClockSkewS < auth.issuedAt.val)
    (invalid (artifact ++ " issuance is in the future"))
  refuse (allowExpired = false ∧ auth.expiresAt.val ≤ now.val) (invalid (artifact ++ " is expired"))

def assertOrderValidity (order : VerifiedOrderV1) (artifactIssuedAt : SafeInt) :
    Except Thrown Unit := do
  refuse (allowExpired = false ∧ order.auth.expiresAt.val ≤ now.val)
    (invalid "referenced order is expired")
  refuse (artifactIssuedAt.val < order.auth.issuedAt.val ∨
    order.auth.expiresAt.val ≤ artifactIssuedAt.val)
    (invalid "artifact issuance falls outside the order validity window")

def assertOrderReference (order : VerifiedOrderV1) (digest : Bytes32) : Except Thrown Unit :=
  refuse (digest ≠ order.orderDigest) (invalid "orderDigest does not match the signed order")

def assertAllowedTaker (order : VerifiedOrderV1) (eth : EthAccount) (qrl : QrlAccount) :
    Except Thrown Unit := do
  refuse (∃ a ∈ order.order.allowedTakerEth, a ≠ eth)
    (invalid "taker ETH account is not allowed by the signed order")
  refuse (∃ a ∈ order.order.allowedTakerQrl, a ≠ qrl)
    (invalid "taker QRL account is not allowed by the signed order")

def checkFillIntentV1 (intent : FillIntentV1Body) (auth : ProtocolAuthV1)
    (order : VerifiedOrderV1) :
    Except Thrown VerifiedFillIntentV1 := do
  assertOrderReference order intent.orderDigest
  assertOrderValidity now allowExpired order auth.issuedAt
  refuse (auth.expiresAt.val ≤ auth.issuedAt.val)
    (invalid "fill intent expiry must follow issuance")
  refuse (auth.issuedAt.val + maxFillIntentLifetimeS < auth.expiresAt.val)
    (invalid "fill intent lifetime exceeds 120 seconds")
  refuse (order.auth.expiresAt.val < auth.expiresAt.val)
    (invalid "fill intent expiry exceeds the order validity window")
  assertInitialAcceptance now allowExpired auth "fill intent"
  assertAllowedTaker order intent.takerEthAccount intent.takerQrlAccount
  let payload := buildPayload .FillIntentV2 (intentTerms intent auth)
  requireProof E "taker" intent.takerQrlAccount.val auth payload
  let intentDigest ← semanticDigest E payload
  pure ⟨intentDigest, intent, auth⟩

def verifyFillIntentV1 (rawIntent rawAuth : Option Json) (order : VerifiedOrderV1) :
    Except Thrown VerifiedFillIntentV1 := do
  let intent ← canonicalFillIntentBody rawIntent
  let auth ← parseAuth rawAuth
  checkFillIntentV1 E now allowExpired intent auth order

/-- What a fill must repeat from the signed prelock of its order. -/
def assertPrelock (fill : FillV1Body) (auth : ProtocolAuthV1) (prelock : Prelock) :
    Except Thrown Unit := do
  refuse (fill.hashlock ≠ prelock.hashlock ∨ fill.initiatorTimeout ≠ prelock.initiatorTimeout)
    (invalid "fill hashlock and initiator timeout must match the signed prelock")
  refuse (fill.initiatorTimeout.val < auth.issuedAt.val + minPrelockRunwayS)
    (invalid "signed prelock must provide at least 9000 seconds of runway")
  refuse (allowExpired = false ∧ fill.initiatorTimeout.val < now.val + minPrelockRunwayS)
    (invalid "signed prelock must retain at least 9000 seconds of runway")

def checkFillV1 (fill : FillV1Body) (auth : ProtocolAuthV1) (order : VerifiedOrderV1)
    (intent : VerifiedFillIntentV1) : Except Thrown VerifiedFillV1 := do
  assertOrderReference order fill.orderDigest
  assertOrderValidity now allowExpired order auth.issuedAt
  refuse (fill.intentDigest ≠ intent.intentDigest)
    (invalid "intentDigest does not match the signed fill intent")
  refuse (intent.intent.orderDigest ≠ fill.orderDigest)
    (invalid "fill intent references a different signed order")
  refuse (fill.takerEthAccount ≠ intent.intent.takerEthAccount ∨
      fill.takerQrlAccount ≠ intent.intent.takerQrlAccount ∨
      fill.releaseCommitment ≠ intent.intent.releaseCommitment)
    (invalid "fill taker terms do not match the signed fill intent")
  refuse (auth.issuedAt.val < intent.auth.issuedAt.val ∨
    intent.auth.expiresAt.val ≤ auth.issuedAt.val)
    (invalid "fill issuance falls outside the fill intent validity window")
  refuse (auth.expiresAt.val < auth.issuedAt.val + minFillResponseS ∨
      auth.issuedAt.val + maxFillResponseS < auth.expiresAt.val)
    (invalid "fill respondBy must be 60 to 900 seconds after issuance")
  refuse (order.auth.expiresAt.val < auth.expiresAt.val)
    (invalid "fill respondBy exceeds the order validity window")
  assertInitialAcceptance now allowExpired auth "fill"
  refuse (fill.responderTimeout.val ≤ auth.expiresAt.val + minResponderRunwayAfterResponseS)
    (invalid "responder timeout must be more than 600 seconds after respondBy")
  refuse (fill.responderTimeout.val ≤ auth.issuedAt.val ∨
      fill.initiatorTimeout.val < fill.responderTimeout.val)
    (invalid "fill timeouts must follow issuance")
  refuse (auth.issuedAt.val + maxResponderWindowS < fill.responderTimeout.val)
    (invalid "fill responder timeout exceeds the maximum window")
  refuse (order.order.prelock = none ∧
    auth.issuedAt.val + maxInitiatorWindowS < fill.initiatorTimeout.val)
    (invalid "fill initiator timeout exceeds the maximum window")
  refuse ((fill.initiatorTimeout.val - auth.issuedAt.val) / 2 <
    fill.responderTimeout.val - auth.issuedAt.val)
    (invalid "initiator timeout window must be at least twice the responder window")
  order.order.prelock.elim (.ok ⟨⟩) (assertPrelock now allowExpired fill auth)
  let payload := buildPayload .FillV2 (fillTerms fill auth order)
  requireProof E "maker" order.order.makerQrlAccount.val auth payload
  let fillDigest ← semanticDigest E payload
  pure ⟨fillDigest, fill, auth⟩

def verifyFillV1 (rawFill rawAuth : Option Json) (order : VerifiedOrderV1)
    (intent : VerifiedFillIntentV1) :
    Except Thrown VerifiedFillV1 := do
  let fill ← canonicalFillBody rawFill
  let auth ← parseAuth rawAuth
  checkFillV1 E now allowExpired fill auth order intent

def checkCancelV1 (cancel : CancelV1Body) (auth : ProtocolAuthV1) (order : VerifiedOrderV1) :
    Except Thrown VerifiedCancelV1 := do
  assertOrderReference order cancel.orderDigest
  assertOrderValidity now allowExpired order auth.issuedAt
  refuse (auth.expiresAt ≠ order.auth.expiresAt)
    (invalid "cancel auth expiry must equal the signed order expiry")
  assertInitialAcceptance now allowExpired auth "cancel"
  let payload := buildPayload .CancelV2 (cancelTerms cancel auth order)
  requireProof E "maker" order.order.makerQrlAccount.val auth payload
  let cancelDigest ← semanticDigest E payload
  pure ⟨cancelDigest, cancel, auth⟩

def verifyCancelV1 (rawCancel rawAuth : Option Json) (order : VerifiedOrderV1) :
    Except Thrown VerifiedCancelV1 := do
  let cancel ← canonicalCancelBody rawCancel
  let auth ← parseAuth rawAuth
  checkCancelV1 E now allowExpired cancel auth order

end Verify

end QuantaSwap.Book
