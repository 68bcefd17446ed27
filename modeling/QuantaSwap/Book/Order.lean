import QuantaSwap.Book.SigningFacts

/-!
# The order record

An `Order` of store.ts, what the store serializes of it, and its public view.
Fields that the store always writes together are one field here: a recorded fill
with its selected intent, a recorded cancel, the two halves of an intent's release.
-/

set_option autoImplicit false

namespace QuantaSwap.Book

open Lib.Js Lib.Text Lib.Checks

def ethAddrRe : String → Bool := fixed ['0', 'x'] 40 isHex
def qrlAddrRe : String → Bool := fixed ['Q'] 128 isHex
def orderIdRe (s : String) : Bool := fixed [] 16 isLowerHex s || fixed [] 64 isLowerHex s
def amountRe : String → Bool := Lib.Text.run 1 30 isDigit

abbrev EthAddress := Matching ethAddrRe
abbrev QrlAddress := Matching qrlAddrRe
abbrev OrderId := Matching orderIdRe
abbrev Amount := Matching amountRe

def EthAccount.address (a : EthAccount) : EthAddress :=
  ⟨a.val, fixed_mono isHex_of_isLowerHex a.property⟩

def QrlAccount.address (a : QrlAccount) : QrlAddress :=
  ⟨a.val, fixed_mono isHex_of_isLowerHex a.property⟩

/-- A signed order is stored under its derived id. -/
def signedOrderId (h : TokenHash) : OrderId :=
  ⟨h.val, by
    have := h.property
    unfold tokenHashRe at this
    simp [orderIdRe, this]⟩

/-- `BigInt(amount)` -/
def Amount.units (a : Amount) : Nat := Lib.Decimal.value a.val

inductive OrderStatus where
  | open
  | accepted
  | locking
  | cancelled
  deriving DecidableEq, Repr

def OrderStatus.name : OrderStatus → String
  | .open => "open"
  | .accepted => "accepted"
  | .locking => "locking"
  | .cancelled => "cancelled"

def OrderStatus.ofJson? : Option Json → Option OrderStatus
  | some (.str "open") => some .open
  | some (.str "accepted") => some .accepted
  | some (.str "locking") => some .locking
  | some (.str "cancelled") => some .cancelled
  | _ => none

@[simp] theorem status_ofJson?_name (s : OrderStatus) :
    OrderStatus.ofJson? (some (.str s.name)) = some s := by
  cases s <;> rfl

/-- `releasedAt` and `releaseSecret` of a fill intent. -/
structure IntentRelease where
  releasedAt : SafeInt
  releaseSecret : Bytes32
  deriving DecidableEq

structure StoredFillIntentV1 where
  intentDigest : Bytes32
  intent : FillIntentV1Body
  auth : ProtocolAuthV1
  receivedAt : SafeInt
  acceptorIpHash : TokenHash
  release : Option IntentRelease := none
  deriving DecidableEq

structure PublicFillIntentV1 where
  intentDigest : Bytes32
  intent : FillIntentV1Body
  auth : ProtocolAuthV1
  receivedAt : SafeInt
  deriving DecidableEq

inductive TerminalConflictEvidence where
  | fill (digest : Bytes32) (body : FillV1Body) (auth : ProtocolAuthV1) (intent : FillIntentV1Body)
      (intentAuth : ProtocolAuthV1)
  | cancel (digest : Bytes32) (body : CancelV1Body) (auth : ProtocolAuthV1)
  deriving DecidableEq

def TerminalConflictEvidence.digest : TerminalConflictEvidence → Bytes32
  | .fill digest .. => digest
  | .cancel digest .. => digest

structure OrderConflictEvidence where
  orderDigest : Bytes32
  order : OrderV1Body
  auth : MakerOrderAuthV1
  deriving DecidableEq

/-- `fill`, `fillAuth`, `fillDigest` and `selectedIntent`. -/
structure RecordedFill where
  fill : FillV1Body
  auth : ProtocolAuthV1
  digest : Bytes32
  selectedIntent : PublicFillIntentV1
  deriving DecidableEq

/-- `cancelProof`, `cancelAuth` and `cancelDigest`. -/
structure RecordedCancel where
  proof : CancelV1Body
  auth : ProtocolAuthV1
  digest : Bytes32
  deriving DecidableEq

structure Order where
  id : OrderId
  direction : Direction
  asset : AssetSymbol
  fromAmount : Amount
  toAmount : Amount
  makerEthAccount : EthAddress
  makerQrlAccount : QrlAddress
  status : OrderStatus
  takerEthAccount : Option EthAddress := none
  takerQrlAccount : Option QrlAddress := none
  hashlock : Option Hashlock := none
  initiatorTimeout : Option Int := none
  responderTimeout : Option Int := none
  prelocked : Bool := false
  createdAt : SafeInt
  updatedAt : SafeInt
  visibility : Visibility
  shareTokenHash : Option TokenHash := none
  allowedTakerEth : Option EthAddress := none
  allowedTakerQrl : Option QrlAddress := none
  makerTokenHash : TokenHash
  takerTokenHash : Option TokenHash := none
  acceptorIpHash : Option TokenHash := none
  creatorIpHash : Option TokenHash := none
  federationSourceHash : Option TokenHash := none
  makerAuth : Option MakerOrderAuthV1 := none
  orderDigest : Option Bytes32 := none
  fillIntents : Option (List StoredFillIntentV1) := none
  fill : Option RecordedFill := none
  cancel : Option RecordedCancel := none
  equivocated : Bool := false
  conflicts : List TerminalConflictEvidence := []
  orderConflicts : List OrderConflictEvidence := []
  acceptedAt : Option SafeInt := none
  releasedAt : Option SafeInt := none
  releaseSecret : Option Bytes32 := none
  deriving DecidableEq

/-- `order.fillIntents ?? []` -/
def Order.intents (o : Order) : List StoredFillIntentV1 := o.fillIntents.getD []

def Order.fillDigest (o : Order) : Option Bytes32 := o.fill.map RecordedFill.digest

def Order.cancelDigest (o : Order) : Option Bytes32 := o.cancel.map RecordedCancel.digest

def StoredFillIntentV1.publicIntent (i : StoredFillIntentV1) : PublicFillIntentV1 :=
  ⟨i.intentDigest, i.intent, i.auth, i.receivedAt⟩

def StoredFillIntentV1.verified (i : StoredFillIntentV1) : VerifiedFillIntentV1 :=
  ⟨i.intentDigest, i.intent, i.auth⟩

def PublicFillIntentV1.verified (i : PublicFillIntentV1) : VerifiedFillIntentV1 :=
  ⟨i.intentDigest, i.intent, i.auth⟩

def RecordedFill.verified (f : RecordedFill) : VerifiedFillV1 := ⟨f.digest, f.fill, f.auth⟩

def RecordedCancel.verified (c : RecordedCancel) : VerifiedCancelV1 := ⟨c.digest, c.proof, c.auth⟩

/-! ## Limits and lifetimes -/

def maxOpenOrders : Nat := 200
def maxOpenOrdersPerMaker : Nat := 40
def maxOpenOrdersPerIp : Nat := 50
def maxRetainedOrders : Nat := 256
def maxRetainedOrdersPerMaker : Nat := 64
def maxRetainedOrdersPerIp : Nat := 64
def maxRetainedFederatedOrders : Nat := 128
def maxPublicPortableOrders : Nat := 64
def maxFederatedPublicPortableOrders : Nat := 48
def maxPublicPortableOrdersPerFederationPeer : Nat := 16
def openTtlS : Nat := 48 * 3600
def acceptedTtlS : Nat := 3600
def cancelledTtlS : Nat := 3600
def lockingLingerS : Nat := 24 * 3600
def defaultPresenceTtlS : Nat := 90
def maxConcurrentTakesPerIp : Nat := 4
def maxTakesPerIpPerDay : Nat := 24
def takeWindowS : Nat := 24 * 3600
def maxFillIntentsPerOrder : Nat := 8
def maxIntentFutureSkewS : Nat := 30
def admissionPruneIntervalS : Nat := 60
def maxAdmissionSources : Nat := 10000
def maxConflictProofs : Nat := 2
def signedTerminalGraceS : Nat := 5 * 60
def signedIntentRetentionS : Nat := maxFillResponseS + signedTerminalGraceS
def lockingSlotHorizonS : Nat := 2 * 3600
def prelockMinT1S : Nat := 3 * 3600
def prelockMaxT1S : Nat := 72 * 3600
def minTakeableRunwayS : Nat := 2 * 3600 + 1800

/-! ## Signed terms of a stored order -/

def intJson (z : Int) : Json := .num (.int z)

/-- `prelock` of a prelocked row. -/
def prelockJson (order : Order) : Option Json :=
  match order.prelocked, order.hashlock, order.initiatorTimeout with
  | true, some hashlock, some timeout =>
    some (.obj [("hashlock", .str hashlock.val), ("initiatorTimeout", intJson timeout)])
  | _, _, _ => none

def signedOrderBody (order : Order) : Record :=
  object [("direction", some (.str order.direction.name)), ("asset", some (.str order.asset.name)),
    ("fromAmount", some (.str order.fromAmount.val)), ("toAmount", some (.str order.toAmount.val)),
    ("makerEthAccount", some (.str order.makerEthAccount.val)),
    ("makerQrlAccount", some (.str order.makerQrlAccount.val)),
    ("visibility", some (.str order.visibility.name)),
    ("allowedTakerEth", order.allowedTakerEth.map fun a => .str a.val),
    ("allowedTakerQrl", order.allowedTakerQrl.map fun a => .str a.val),
    ("prelock", prelockJson order)]

/-- Signed rows created without the terminal protocol remain origin-local. -/
def usesPortableTerminalProtocol (order : Order) : Bool :=
  order.makerAuth.isSome && order.fillIntents.isSome

def isPublicPortable (order : Order) : Bool :=
  decide (order.visibility = .pub) && usesPortableTerminalProtocol order

section Variants

variable (E : Crypto) (now : SafeInt)

def verifiedSignedOrder (order : Order) : Except Thrown VerifiedOrderV1 := do
  let makerAuth ← orThrow order.makerAuth (apiError 409 "order is not portable")
  verifyOrderV1 E now true (some (.obj (signedOrderBody order))) (some makerAuth.toJson)

/-- The conflicting variant with this digest, if it is one of this order. -/
def verifiedVariant (order : Order) (digest : Bytes32) : Except Thrown VerifiedOrderV1 :=
  let unavailable :=
    apiError 409 "referenced signed order variant is unavailable" (some .federationDependency)
  match order.orderConflicts.find? fun conflict => conflict.orderDigest = digest with
  | none => .error unavailable
  | some conflict => do
    let candidate ← verifyOrderV1 E now true (some (.obj conflict.order.record))
      (some conflict.auth.toJson)
    refuse (signedOrderId candidate.orderId ≠ order.id ∨ candidate.orderDigest ≠ digest) unavailable
    pure candidate

def referencedSignedOrderVariant (order : Order) (rawTerminal : Option Json) :
    Except Thrown VerifiedOrderV1 := do
  let terminal ← orThrow (asRecord rawTerminal) (apiError 400 "terminal proof must be an object")
  let digest ← orThrow ((asString (terminal.get "orderDigest")).bind (matching bytes32Re))
    (apiError 400 "terminal proof has an invalid orderDigest")
  let primary ← verifiedSignedOrder E now order
  if primary.orderDigest = digest then pure primary else verifiedVariant E now order digest

end Variants

/-! ## The persisted row -/

def StoredFillIntentV1.fields (i : StoredFillIntentV1) : List (String × Option Json) :=
  [("intentDigest", some (.str i.intentDigest.val)), ("intent", some i.intent.toJson),
    ("auth", some i.auth.toJson), ("receivedAt", some (safeJson i.receivedAt)),
    ("acceptorIpHash", some (.str i.acceptorIpHash.val)),
    ("releasedAt", i.release.map fun r => safeJson r.releasedAt),
    ("releaseSecret", i.release.map fun r => .str r.releaseSecret.val)]

def StoredFillIntentV1.toJson (i : StoredFillIntentV1) : Json := .obj (object i.fields)

def PublicFillIntentV1.toJson (i : PublicFillIntentV1) : Json :=
  .obj [("intentDigest", .str i.intentDigest.val), ("intent", i.intent.toJson),
    ("auth", i.auth.toJson),
    ("receivedAt", safeJson i.receivedAt)]

def TerminalConflictEvidence.toJson : TerminalConflictEvidence → Json
  | .fill digest body auth intent intentAuth =>
    .obj [("kind", .str "fill-v2"), ("digest", .str digest.val), ("body", body.toJson),
      ("auth", auth.toJson),
      ("intent", intent.toJson), ("intentAuth", intentAuth.toJson)]
  | .cancel digest body auth =>
    .obj [("kind", .str "cancel-v2"), ("digest", .str digest.val), ("body", body.toJson),
      ("auth", auth.toJson)]

def OrderConflictEvidence.toJson (c : OrderConflictEvidence) : Json :=
  .obj [("orderDigest", .str c.orderDigest.val), ("order", .obj c.order.record),
    ("auth", c.auth.toJson)]

/-- A list that the store leaves `undefined` while it is empty. -/
def listJson {α : Type} (f : α → Json) (l : List α) : Option Json :=
  if l.isEmpty then none else some (.arr (l.map f))

def strJson {re : String → Bool} (s : Matching re) : Json := .str s.val

/-- A field that is `null` until it is set. -/
def nullJson {α : Type} (f : α → Json) (o : Option α) : Json := (o.map f).getD .null

def Order.fields (o : Order) : List (String × Option Json) :=
  [("id", some (strJson o.id)), ("direction", some (.str o.direction.name)),
    ("asset", some (.str o.asset.name)), ("fromAmount", some (strJson o.fromAmount)),
    ("toAmount", some (strJson o.toAmount)), ("makerEthAccount", some (strJson o.makerEthAccount)),
    ("makerQrlAccount", some (strJson o.makerQrlAccount)), ("status", some (.str o.status.name)),
    ("takerEthAccount", some (nullJson strJson o.takerEthAccount)),
    ("takerQrlAccount", some (nullJson strJson o.takerQrlAccount)),
    ("hashlock", some (nullJson strJson o.hashlock)),
    ("initiatorTimeout", some (nullJson intJson o.initiatorTimeout)),
    ("responderTimeout", some (nullJson intJson o.responderTimeout)),
    ("prelocked", if o.prelocked then some (.bool true) else none),
    ("createdAt", some (safeJson o.createdAt)), ("updatedAt", some (safeJson o.updatedAt)),
    ("visibility", some (.str o.visibility.name)), ("shareTokenHash", o.shareTokenHash.map strJson),
    ("allowedTakerEth", o.allowedTakerEth.map strJson),
      ("allowedTakerQrl", o.allowedTakerQrl.map strJson),
    ("makerTokenHash", some (strJson o.makerTokenHash)),
      ("takerTokenHash", o.takerTokenHash.map strJson),
    ("acceptorIpHash", o.acceptorIpHash.map strJson),
      ("creatorIpHash", o.creatorIpHash.map strJson),
    ("federationSourceHash", o.federationSourceHash.map strJson),
    ("makerAuth", o.makerAuth.map MakerOrderAuthV1.toJson),
      ("orderDigest", o.orderDigest.map strJson),
    ("fillIntents", o.fillIntents.map fun l => .arr (l.map StoredFillIntentV1.toJson)),
    ("fill", o.fill.map fun f => f.fill.toJson), ("fillAuth", o.fill.map fun f => f.auth.toJson),
    ("fillDigest", o.fill.map fun f => strJson f.digest),
    ("selectedIntent", o.fill.map fun f => f.selectedIntent.toJson),
    ("cancelProof", o.cancel.map fun c => c.proof.toJson),
    ("cancelAuth", o.cancel.map fun c => c.auth.toJson),
    ("cancelDigest", o.cancel.map fun c => strJson c.digest),
    ("equivocated", if o.equivocated then some (.bool true) else none),
    ("conflicts", listJson TerminalConflictEvidence.toJson o.conflicts),
    ("orderConflicts", listJson OrderConflictEvidence.toJson o.orderConflicts),
    ("acceptedAt", o.acceptedAt.map safeJson), ("releasedAt", o.releasedAt.map safeJson),
    ("releaseSecret", o.releaseSecret.map strJson)]

/-- `JSON.stringify(order)`, read back by `JSON.parse`. -/
def Order.toJson (o : Order) : Json := .obj (object o.fields)

end QuantaSwap.Book
