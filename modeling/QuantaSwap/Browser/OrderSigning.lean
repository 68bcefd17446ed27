import QuantaSwap.Book.Signing

/-!
# A signed order in the browser

A row of the book as the browser holds it, with the strings and numbers a mirror sent, and
`verifyOrderV1Auth` and `orderDigest` of `frontend/src/lib/orderSigning.ts`. The message bytes are
those of the encoder that the book and the browser share.
-/

set_option autoImplicit false

namespace QuantaSwap.Browser

open Lib.Js Lib.Text

/-- `ownKeys` is `Object.keys` of the authorization. -/
structure MakerOrderAuthV1 where
  ownKeys : List String
  version : String
  scheme : String
  issuedAt : Lib.Js.Num
  expiresAt : Lib.Js.Num
  nonce : String
  makerTokenCommitment : String
  shareTokenCommitment : String
  signature : String
  publicKey : String
  descriptor : String
  deriving DecidableEq, Repr

/-- `some none` is a `makerAuth` that is not an object. -/
structure OrderView where
  id : String
  direction : String
  asset : Option String
  fromAmount : String
  toAmount : String
  makerEthAccount : String
  makerQrlAccount : String
  status : String
  hashlock : Option String
  initiatorTimeout : Option Lib.Js.Num
  visibility : Option String
  allowedTakerEth : Option String
  allowedTakerQrl : Option String
  prelocked : Bool
  createdAt : Int
  makerAuth : Option (Option MakerOrderAuthV1)
  orderDigest : Option String
  bookId : Option String
  sources : Option (List String)
  deriving DecidableEq, Repr

structure PrelockAnchor where
  hashlock : String
  initiatorTimeout : Lib.Js.Num
  deriving DecidableEq, Repr

structure CreateOrderBody where
  direction : String
  asset : String
  fromAmount : String
  toAmount : String
  makerEthAccount : String
  makerQrlAccount : String
  visibility : Option String
  allowedTakerEth : Option String
  allowedTakerQrl : Option String
  prelock : Option PrelockAnchor
  deriving DecidableEq, Repr

def ORDER_LIFETIME_S : Int := 48 * 3600
def MIN_ORDER_PRELOCK_RUNWAY_S : Int := 3 * 3600
def MAX_ORDER_PRELOCK_RUNWAY_S : Int := 72 * 3600
def MAX_CLOCK_SKEW_S : Int := 5 * 60

/-- `ZERO_HASHLOCK` and `EMPTY_CAPABILITY_COMMITMENT` -/
def zeroHashlock : String := Book.zeroBytes32.val

/-- The integer that a number is, when `Number.isSafeInteger` holds of it. -/
def safeInteger? (n : Lib.Js.Num) : Option Int := n.toInt?.filter fun z => z.natAbs ≤ maxSafeInteger

/-- `String(n)`; the digits of a number that is no integer are in no `uint64`. -/
def numText : Lib.Js.Num → String
  | .int z => toString z
  | .negZero => "0"
  | .other => "NaN"

def isDirection (s : String) : Bool := s = "eth->qrl" || s = "qrl->eth"
def isAsset (s : String) : Bool := s = "ETH" || s = "USDC" || s = "tUSDT"
def isVisibility (s : String) : Bool := s = "public" || s = "private"
def isSafeUint (n : Lib.Js.Num) : Bool := (safeInteger? n).any (0 ≤ ·)

/-- `isCreateOrderBody`, of a body whose fields have their types. -/
def isCreateOrderBody (order : CreateOrderBody) : Bool :=
  isDirection order.direction && isAsset order.asset && order.visibility.all isVisibility &&
    order.prelock.all fun p => isSafeUint p.initiatorTimeout

/-! ## Statements -/

def ethCaip (account : String) : String := "eip155:" ++ Book.ethChainId ++ ":" ++ account

def signedOrderTerms (order : CreateOrderBody) (auth : MakerOrderAuthV1) : Record :=
  [("direction", .str order.direction), ("asset", .str order.asset),
    ("fromAmount", .str order.fromAmount), ("toAmount", .str order.toAmount),
    ("makerEthAccount", .str (ethCaip order.makerEthAccount)),
    ("makerQrlAccount", .str order.makerQrlAccount),
    ("visibility", .str (order.visibility.getD "public")),
    ("allowedTakerEth", .str ((order.allowedTakerEth.map ethCaip).getD "")),
    ("allowedTakerQrl", .str (order.allowedTakerQrl.getD "")),
    ("prelocked", .bool order.prelock.isSome),
    ("hashlock", .str ((order.prelock.map PrelockAnchor.hashlock).getD zeroHashlock)),
    ("initiatorTimeout",
      .str (numText ((order.prelock.map PrelockAnchor.initiatorTimeout).getD (.int 0)))),
    ("issuedAt", .str (numText auth.issuedAt)), ("expiresAt", .str (numText auth.expiresAt)),
    ("nonce", .str auth.nonce), ("makerTokenCommitment", .str auth.makerTokenCommitment),
    ("shareTokenCommitment", .str auth.shareTokenCommitment)] ++ Book.orderV2Deployment

/-- `buildOrderV1Payload`, `none` when it throws. -/
def buildOrderV1Payload (order : CreateOrderBody) (auth : MakerOrderAuthV1) :
    Option Book.Payload := do
  guard (isCreateOrderBody order)
  guard (auth.scheme = "qrl-sign-message-v2")
  return Book.buildPayload .OrderV2 (signedOrderTerms order auth)

section

variable (E : Book.Crypto)

/-- `orderDigest`, `none` when it throws. -/
def orderDigest (order : CreateOrderBody) (auth : MakerOrderAuthV1) : Option String := do
  guard (isCreateOrderBody order)
  let payload := Book.buildPayload .OrderV2 (signedOrderTerms order auth)
  let digest ← (Book.semanticDigest E payload).toOption
  return digest.val

/-- `deriveOrderV1Id`, `none` when it throws. -/
def deriveOrderV1Id (makerQrlAccount nonce : String) : Option Book.TokenHash := do
  let account ← matching Book.Signing.qrlAddrRe makerQrlAccount
  let nonce ← matching Book.bytes32Re nonce
  return Book.deriveOrderV1Id E account nonce

/-- `protocolProofIsValid`, `none` when it throws. -/
def protocolProofIsValid (signer : String) (auth : MakerOrderAuthV1) (payload : Book.Payload) :
    Option Bool := do
  Book.assertV2Deployment.toOption
  if payload.primaryType ≠ .OrderV2 ∨ payload.fields ≠ Book.PrimaryType.OrderV2.fields then
    return false
  if auth.version ≠ "2" ∨ auth.scheme ≠ "qrl-sign-message-v2" then return false
  let messageBytes ← (Book.protocolMessageBytes payload).toOption
  return E.verifyMessageForSigner signer auth.descriptor auth.signature auth.publicKey messageBytes

/-! ## The verifier -/

def hasExactKeys (actual keys : List String) : Bool :=
  actual.length = keys.length && keys.all fun key => actual.contains key

def makerAuthKeys : List String :=
  ["version", "scheme", "issuedAt", "expiresAt", "nonce", "makerTokenCommitment",
    "shareTokenCommitment", "signature", "publicKey", "descriptor"]

/-- The two times of an authorization. -/
def authTimesAreValid (auth : MakerOrderAuthV1) (now : Int) (allowExpired : Bool) : Bool :=
  match safeInteger? auth.issuedAt, safeInteger? auth.expiresAt with
  | some issuedAt, some expiresAt =>
    auth.issuedAt ≠ .negZero && auth.expiresAt ≠ .negZero && 0 ≤ issuedAt && issuedAt < expiresAt &&
      expiresAt - issuedAt ≤ ORDER_LIFETIME_S && issuedAt ≤ now + MAX_CLOCK_SKEW_S &&
      (allowExpired || now < expiresAt)
  | _, _ => false

def authIsCanonical (auth : MakerOrderAuthV1) (now : Int) (allowExpired : Bool) : Bool :=
  hasExactKeys auth.ownKeys makerAuthKeys && auth.version = "2" &&
    auth.scheme = "qrl-sign-message-v2" && authTimesAreValid auth now allowExpired &&
    Book.bytes32Re auth.nonce && Book.bytes32Re auth.makerTokenCommitment &&
    auth.makerTokenCommitment ≠ zeroHashlock && Book.bytes32Re auth.shareTokenCommitment &&
    Book.Signing.signatureRe auth.signature && Book.Signing.publicKeyRe auth.publicKey &&
    Book.Signing.descriptorRe auth.descriptor

def orderIsCanonical (order : OrderView) : Bool :=
  isDirection order.direction && order.asset.any isAsset &&
    Book.Signing.amountRe order.fromAmount &&
    Book.Signing.amountRe order.toAmount && Book.Signing.ethAddrRe order.makerEthAccount &&
    Book.Signing.qrlAddrRe order.makerQrlAccount && order.visibility.any isVisibility

/-- A private order has a share token, a public one restricts no taker. -/
def audienceIsValid (order : OrderView) (auth : MakerOrderAuthV1) : Bool :=
  (decide (order.visibility = some "private") == decide (auth.shareTokenCommitment ≠
    zeroHashlock)) &&
    order.allowedTakerEth.all Book.Signing.ethAddrRe &&
    order.allowedTakerQrl.all Book.Signing.qrlAddrRe &&
    !(order.visibility = some "public" &&
      (order.allowedTakerEth.isSome || order.allowedTakerQrl.isSome))

/-- The prelock that the signed body of a row names, `none` when the proof is refused for it. -/
def verifiedPrelock (order : OrderView) (auth : MakerOrderAuthV1) : Option (Option PrelockAnchor) :=
  if order.prelocked then do
    let hashlock ← order.hashlock
    let timeout ← order.initiatorTimeout
    let initiatorTimeout ← safeInteger? timeout
    let issuedAt ← safeInteger? auth.issuedAt
    let expiresAt ← safeInteger? auth.expiresAt
    guard (Book.bytes32Re hashlock)
    guard (MIN_ORDER_PRELOCK_RUNWAY_S ≤ initiatorTimeout - issuedAt)
    guard (initiatorTimeout - issuedAt ≤ MAX_ORDER_PRELOCK_RUNWAY_S)
    guard (expiresAt ≤ initiatorTimeout)
    return some ⟨hashlock, timeout⟩
  else some none

/-- The signature of a row over its own terms, `none` when the check throws. -/
def signatureIsValid (order : OrderView) (auth : MakerOrderAuthV1) : Option Bool := do
  let asset ← order.asset
  let prelock ← verifiedPrelock order auth
  let body : CreateOrderBody :=
    ⟨order.direction, asset, order.fromAmount, order.toAmount, order.makerEthAccount,
      order.makerQrlAccount, order.visibility, order.allowedTakerEth,
        order.allowedTakerQrl, prelock⟩
  let payload ← buildOrderV1Payload body auth
  protocolProofIsValid E order.makerQrlAccount auth payload

def verifyOrderV1Auth (order : OrderView) (now : Int) (allowExpired : Bool) : Bool :=
  match order.makerAuth with
  | some (some auth) =>
    authIsCanonical auth now allowExpired &&
      (deriveOrderV1Id E order.makerQrlAccount auth.nonce).any (fun id => order.id = id.val) &&
      orderIsCanonical order && audienceIsValid order auth &&
        (signatureIsValid E order auth).getD false
  | _ => false

/-! ## What a portable row is signed over -/

/-- `signedOrderBody`, `none` when it throws. -/
def signedOrderBody (order : OrderView) : Option CreateOrderBody := do
  let asset ← order.asset
  let prelock ←
    if order.prelocked then do
      let hashlock ← order.hashlock
      let initiatorTimeout ← order.initiatorTimeout
      pure (some (PrelockAnchor.mk hashlock initiatorTimeout))
    else pure none
  return ⟨order.direction, asset, order.fromAmount, order.toAmount, order.makerEthAccount,
    order.makerQrlAccount, some (order.visibility.getD "public"), order.allowedTakerEth,
    order.allowedTakerQrl, prelock⟩

/-- `portableOrderDigest`, `none` when it throws. -/
def portableOrderDigest (order : OrderView) : Option String := do
  let auth ← order.makerAuth.join
  let body ← signedOrderBody order
  orderDigest E body auth

variable {E} {order : OrderView} {now : Int} {allowExpired : Bool}

end

end QuantaSwap.Browser
