import QuantaSwap.Book.Order

/-!
# Reading persisted rows

`hydratePersistedOrder` checks a row of the orders file field by field, verifies
every proof it carries again, and rebuilds the order.
-/

set_option autoImplicit false

namespace QuantaSwap.Book

open Lib.Js Lib.Text Lib.Checks

def invalidPersisted (index : Nat) (field : String) : Thrown :=
  .error ("persisted order " ++ index.repr ++ " has an invalid " ++ field)

section Fields

variable (row : Record) (index : Nat) (field : String)

def matchingString (re : String → Bool) : Except Thrown (Matching re) :=
  orThrow ((asString (row.get field)).bind (matching re)) (invalidPersisted index field)

def optionalMatchingString (re : String → Bool) : Except Thrown (Option (Matching re)) :=
  match row.get field with
  | none => .ok none
  | some value => do
    let s ← orThrow ((asString (some value)).bind (matching re)) (invalidPersisted index field)
    pure (some s)

def nullableMatchingString (re : String → Bool) : Except Thrown (Option (Matching re)) :=
  match row.get field with
  | some .null => .ok none
  | value => do
    let s ← orThrow ((asString value).bind (matching re)) (invalidPersisted index field)
    pure (some s)

/-- A number that is a safe integer, `-0` included. -/
def asSafe : Option Json → Option SafeInt
  | some (.num n) => n.toSafe?
  | _ => none

def safeInteger : Except Thrown SafeInt :=
  orThrow (asSafe (row.get field)) (invalidPersisted index field)

def optionalSafeInteger : Except Thrown (Option SafeInt) :=
  match row.get field with
  | none => .ok none
  | some value => do
    let n ← orThrow (asSafe (some value)) (invalidPersisted index field)
    pure (some n)

def nullableSafeInteger : Except Thrown (Option Int) :=
  match row.get field with
  | some .null => .ok none
  | value => do
    let n ← orThrow (asSafe value) (invalidPersisted index field)
    pure (some (n.val : Int))

end Fields

def persistedObject (raw : Option Json) (index : Nat) (field : String) : Except Thrown Record :=
  orThrow (asRecord raw) (invalidPersisted index field)

def isStr (raw : Option Json) (s : String) : Bool := decide (asString raw = some s)

section Rows

variable (E : Crypto) (now : SafeInt)

/-- The release proof of an intent row: both halves or none. -/
def hydrateRelease (row : Record) (index : Nat) (field : String) (order : VerifiedOrderV1)
    (verified : VerifiedFillIntentV1) : Except Thrown (Option IntentRelease) := do
  let releasedAt ← match row.get "releasedAt" with
    | none => .ok none
    | some value =>
      (orThrow (asSafe (some value)) (invalidPersisted index (field ++ " release time"))).map some
  let releaseSecret ← match row.get "releaseSecret" with
    | none => .ok none
    | some value =>
      (orThrow ((asString (some value)).bind (matching bytes32Re))
        (invalidPersisted index (field ++ " release secret"))).map some
  match releasedAt, releaseSecret with
  | none, none => .ok none
  | some releasedAt, some secret => do
    refuse (computeReleaseCommitment E order.orderDigest verified.auth.nonce secret ≠
        verified.intent.releaseCommitment)
      (invalidPersisted index (field ++ " release commitment"))
    pure (some ⟨releasedAt, secret⟩)
  | _, _ => .error (invalidPersisted index (field ++ " incomplete release proof"))

/-- `hydrateIntentProof`; `includeIp` is set for the retained intents only. -/
def hydrateIntentProof (raw : Option Json) (index : Nat) (field : String) (order : VerifiedOrderV1)
    (includeIp : Bool) : Except Thrown StoredFillIntentV1 := do
  let row ← persistedObject raw index field
  let verified ← verifyFillIntentV1 E now true (row.get "intent") (row.get "auth") order
  refuse (isStr (row.get "intentDigest") verified.intentDigest.val = false)
    (invalidPersisted index (field ++ " digest"))
  let receivedAt ← orThrow (asSafe (row.get "receivedAt"))
    (invalidPersisted index (field ++ " receive time"))
  let rawIpHash := (asString (row.get "acceptorIpHash")).bind (matching tokenHashRe)
  let acceptorIpHash ←
    if includeIp then orThrow rawIpHash (invalidPersisted index (field ++ " source hash"))
    else pure (sha256Hex E "federated-intent")
  let release ← hydrateRelease E row index field order verified
  pure ⟨verified.intentDigest, verified.intent, verified.auth, receivedAt, acceptorIpHash, release⟩

/-- The fields that need no maker proof. -/
def hydrateBase (row : Record) (index : Nat) : Except Thrown Order := do
  let direction ← orThrow (Direction.ofJson? (row.get "direction"))
    (invalidPersisted index "direction")
  let status ← orThrow (OrderStatus.ofJson? (row.get "status")) (invalidPersisted index "status")
  let asset ← match row.get "asset" with
    | none | some .null => .ok AssetSymbol.ETH
    | value => orThrow ((asString value).bind knownAsset) (invalidPersisted index "asset")
  let shareTokenHash ← optionalMatchingString row index "shareTokenHash" tokenHashRe
  let rawVisibility ← match row.get "visibility" with
    | none => .ok Visibility.pub
    | value => orThrow (Visibility.ofJson? value) (invalidPersisted index "visibility")
  let visibility :=
    if rawVisibility = .priv ∨ shareTokenHash.isSome then Visibility.priv else Visibility.pub
  let hashlock ← nullableMatchingString row index "hashlock" bytes32Re
  let initiatorTimeout ← nullableSafeInteger row index "initiatorTimeout"
  let responderTimeout ← nullableSafeInteger row index "responderTimeout"
  let prelocked := match row.get "prelocked" with
    | some (.bool true) => hashlock.isSome && initiatorTimeout.isSome
    | _ => false
  let allowedTakerEth ← optionalMatchingString row index "allowedTakerEth" ethAddrRe
  let allowedTakerQrl ← optionalMatchingString row index "allowedTakerQrl" qrlAddrRe
  let takerTokenHash ← optionalMatchingString row index "takerTokenHash" tokenHashRe
  let acceptorIpHash ← optionalMatchingString row index "acceptorIpHash" tokenHashRe
  let creatorIpHash ← optionalMatchingString row index "creatorIpHash" tokenHashRe
  let federationSourceHash ← optionalMatchingString row index "federationSourceHash" tokenHashRe
  let acceptedAt ← optionalSafeInteger row index "acceptedAt"
  let releasedAt ← optionalSafeInteger row index "releasedAt"
  let releaseSecret ← optionalMatchingString row index "releaseSecret" bytes32Re
  let id ← matchingString row index "id" orderIdRe
  let fromAmount ← matchingString row index "fromAmount" amountRe
  let toAmount ← matchingString row index "toAmount" amountRe
  let makerEthAccount ← matchingString row index "makerEthAccount" ethAddrRe
  let makerQrlAccount ← matchingString row index "makerQrlAccount" qrlAddrRe
  let takerEthAccount ← nullableMatchingString row index "takerEthAccount" ethAddrRe
  let takerQrlAccount ← nullableMatchingString row index "takerQrlAccount" qrlAddrRe
  let createdAt ← safeInteger row index "createdAt"
  let updatedAt ← safeInteger row index "updatedAt"
  let makerTokenHash ← matchingString row index "makerTokenHash" tokenHashRe
  pure {
    id, direction, asset, fromAmount, toAmount, makerEthAccount, makerQrlAccount, status,
      takerEthAccount
    takerQrlAccount, hashlock, initiatorTimeout, responderTimeout, prelocked, createdAt, updatedAt
    visibility, shareTokenHash, allowedTakerEth, allowedTakerQrl, makerTokenHash, takerTokenHash
    acceptorIpHash, creatorIpHash, federationSourceHash, acceptedAt, releasedAt, releaseSecret }

/-- The maker proof of a row, checked against the rest of the row. -/
def hydrateMakerProof (row : Record) (index : Nat) (order : Order) :
    Except Thrown VerifiedOrderV1 := do
  let verified ← verifyOrderV1 E now true (some (.obj (signedOrderBody order)))
    (row.get "makerAuth")
  refuse (signedOrderId verified.orderId ≠ order.id) (invalidPersisted index "signed order id")
  refuse ((row.get "orderDigest").isSome ∧
    isStr (row.get "orderDigest") verified.orderDigest.val = false)
    (invalidPersisted index "signed order digest")
  pure verified

/-- Public rows of the first federation rollout carry no source hash. -/
def legacyFederationSource (order : Order) : Option TokenHash :=
  if order.visibility = .pub ∧ order.federationSourceHash = none ∧
      order.creatorIpHash = some (sha256Hex E "federation") then
    some (sha256Hex E "legacy-federation-source")
  else order.federationSourceHash

def protocolKeys : List String :=
  ["orderDigest", "fillIntents", "selectedIntent", "fill", "fillAuth", "cancelProof", "cancelAuth",
    "cancelDigest", "conflicts", "orderConflicts", "equivocated", "releaseSecret"]

def hasProtocolState (row : Record) : Bool := protocolKeys.any fun key => (row.get key).isSome

/-- The elements of an array row, checked one by one with their position. -/
def hydrateList {α : Type} (f : Nat → Json → Except Thrown α) :
    Nat → List Json → Except Thrown (List α)
  | _, [] => .ok []
  | k, item :: rest => do
    let a ← f k item
    let as ← hydrateList f (k + 1) rest
    pure (a :: as)

def asArray : Json → Option (List Json)
  | .arr items => some items
  | _ => none

/-- A present list row is an array of at most `cap` items. -/
def hydrateOptionalList {α : Type} (raw : Option Json) (cap : Nat) (refused : Thrown)
    (f : Nat → Json → Except Thrown α) : Except Thrown (Option (List α)) :=
  match raw with
  | none => .ok none
  | some value => do
    let items ← orThrow (asArray value) refused
    refuse (cap < items.length) refused
    let list ← hydrateList f 0 items
    pure (some list)

def hydrateFillIntents (row : Record) (index : Nat) (order : VerifiedOrderV1) :
    Except Thrown (Option (List StoredFillIntentV1)) := do
  let intents ← hydrateOptionalList (row.get "fillIntents") maxFillIntentsPerOrder
    (invalidPersisted index "fill intents") fun k item =>
      hydrateIntentProof E now (some item) index ("fill intent " ++ k.repr) order true
  refuse (¬((intents.getD []).map StoredFillIntentV1.intentDigest).Nodup)
    (invalidPersisted index "duplicate fill intents")
  pure intents

def hydrateSelected (row : Record) (index : Nat) (order : VerifiedOrderV1) :
    Except Thrown (Option StoredFillIntentV1) :=
  match row.get "selectedIntent" with
  | none => .ok none
  | some value =>
    (hydrateIntentProof E now (some value) index "selected intent" order false).map some

def hydrateFill (row : Record) (index : Nat) (base : Order) (order : VerifiedOrderV1)
    (selected : Option StoredFillIntentV1) : Except Thrown (Option RecordedFill) :=
  if (row.get "fill").isSome ∨ (row.get "fillAuth").isSome ∨ (row.get "fillDigest").isSome then do
    refuse ((row.get "fill").isNone ∨ (row.get "fillAuth").isNone ∨ (row.get "fillDigest").isNone)
      (invalidPersisted index "fill proof")
    let selected ← orThrow selected (invalidPersisted index "fill proof")
    let fill ← verifyFillV1 E now true (row.get "fill") (row.get "fillAuth") order selected.verified
    refuse (isStr (row.get "fillDigest") fill.fillDigest.val = false)
      (invalidPersisted index "fill digest")
    refuse (base.hashlock ≠ some fill.fill.hashlock ∨
        base.initiatorTimeout ≠ some (fill.fill.initiatorTimeout.val : Int) ∨
        base.responderTimeout ≠ some (fill.fill.responderTimeout.val : Int) ∨
        base.takerEthAccount ≠ some (EthAccount.address fill.fill.takerEthAccount) ∨
        base.takerQrlAccount ≠ some (QrlAccount.address fill.fill.takerQrlAccount))
      (invalidPersisted index "fill projection")
    pure (some ⟨fill.fill, fill.auth, fill.fillDigest, selected.publicIntent⟩)
  else .ok none

def hydrateCancel (row : Record) (index : Nat) (order : VerifiedOrderV1) :
    Except Thrown (Option RecordedCancel) :=
  if (row.get "cancelProof").isSome ∨ (row.get "cancelAuth").isSome ∨
    (row.get "cancelDigest").isSome then do
    refuse ((row.get "cancelProof").isNone ∨ (row.get "cancelAuth").isNone ∨
      (row.get "cancelDigest").isNone)
      (invalidPersisted index "cancel proof")
    let cancel ← verifyCancelV1 E now true (row.get "cancelProof") (row.get "cancelAuth") order
    refuse (isStr (row.get "cancelDigest") cancel.cancelDigest.val = false)
      (invalidPersisted index "cancel digest")
    pure (some ⟨cancel.cancel, cancel.auth, cancel.cancelDigest⟩)
  else .ok none

def hydrateConflict (index : Nat) (order : VerifiedOrderV1) (k : Nat) (raw : Json) :
    Except Thrown TerminalConflictEvidence := do
  let label := "terminal conflict " ++ k.repr
  let conflict ← persistedObject (some raw) index label
  match asString (conflict.get "kind") with
  | some "fill-v2" => do
    let intent ← verifyFillIntentV1 E now true (conflict.get "intent")
      (conflict.get "intentAuth") order
    let fill ← verifyFillV1 E now true (conflict.get "body") (conflict.get "auth") order intent
    refuse (isStr (conflict.get "digest") fill.fillDigest.val = false)
      (invalidPersisted index (label ++ " digest"))
    pure (.fill fill.fillDigest fill.fill fill.auth intent.intent intent.auth)
  | some "cancel-v2" => do
    let cancel ← verifyCancelV1 E now true (conflict.get "body") (conflict.get "auth") order
    refuse (isStr (conflict.get "digest") cancel.cancelDigest.val = false)
      (invalidPersisted index (label ++ " digest"))
    pure (.cancel cancel.cancelDigest cancel.cancel cancel.auth)
  | _ => .error (invalidPersisted index (label ++ " kind"))

def hydrateConflicts (row : Record) (index : Nat) (order : VerifiedOrderV1)
    (fill : Option RecordedFill)
    (cancel : Option RecordedCancel) : Except Thrown (List TerminalConflictEvidence) := do
  let conflicts ← hydrateOptionalList (row.get "conflicts") maxConflictProofs
    (invalidPersisted index "terminal conflicts") (hydrateConflict E now index order)
  let conflicts := conflicts.getD []
  let digests := conflicts.map TerminalConflictEvidence.digest
  refuse (¬digests.Nodup ∨ (∃ f ∈ fill, f.digest ∈ digests) ∨ ∃ c ∈ cancel, c.digest ∈ digests)
    (invalidPersisted index "duplicate terminal conflicts")
  pure conflicts

def hydrateOrderConflict (index : Nat) (base : Order) (k : Nat) (raw : Json) :
    Except Thrown OrderConflictEvidence := do
  let label := "order conflict " ++ k.repr
  let conflict ← persistedObject (some raw) index label
  let verified ← verifyOrderV1 E now true (conflict.get "order") (conflict.get "auth")
  refuse (signedOrderId verified.orderId ≠ base.id ∨
      isStr (conflict.get "orderDigest") verified.orderDigest.val = false)
    (invalidPersisted index (label ++ " reference"))
  pure ⟨verified.orderDigest, verified.order, verified.auth⟩

def hydrateOrderConflicts (row : Record) (index : Nat) (base : Order) (order : VerifiedOrderV1) :
    Except Thrown (List OrderConflictEvidence) := do
  let conflicts ← hydrateOptionalList (row.get "orderConflicts") maxConflictProofs
    (invalidPersisted index "order conflicts") (hydrateOrderConflict E now index base)
  let conflicts := conflicts.getD []
  let digests := conflicts.map OrderConflictEvidence.orderDigest
  refuse (¬digests.Nodup ∨ order.orderDigest ∈ digests)
    (invalidPersisted index "duplicate order conflicts")
  pure conflicts

/-- The rules between the parts of a portable row. -/
def checkPortableRow (index : Nat) (base : Order) (order : VerifiedOrderV1)
    (selected : Option StoredFillIntentV1) (fill : Option RecordedFill)
      (cancel : Option RecordedCancel) :
    Except Thrown Unit := do
  refuse (selected.isSome ∧ fill.isNone) (invalidPersisted index "selected intent without fill")
  refuse (fill.isSome ∧ base.status ≠ .locking) (invalidPersisted index "fill status")
  refuse (cancel.isSome ∧ fill.isNone ∧ base.status ≠ .cancelled)
    (invalidPersisted index "cancel status")
  match base.releaseSecret with
  | some secret =>
    match base.releasedAt, fill with
    | some _, some f =>
      refuse (computeReleaseCommitment E order.orderDigest f.selectedIntent.auth.nonce secret ≠
          f.fill.releaseCommitment)
        (invalidPersisted index "release proof")
    | _, _ => .error (invalidPersisted index "release proof")
  | none =>
    refuse (fill.isSome ∧ base.releasedAt.isSome) (invalidPersisted index "missing release proof")

/-- Everything a maker proof brings with it. -/
def hydratePortable (row : Record) (index : Nat) (base : Order) (order : VerifiedOrderV1) :
    Except Thrown Order := do
  let fillIntents ← hydrateFillIntents E now row index order
  let selected ← hydrateSelected E now row index order
  let fill ← hydrateFill E now row index base order selected
  let cancel ← hydrateCancel E now row index order
  let conflicts ← hydrateConflicts E now row index order fill cancel
  let orderConflicts ← hydrateOrderConflicts E now row index base order
  checkPortableRow E index base order selected fill cancel
  let flagged := match row.get "equivocated" with
    | some (.bool b) => b
    | _ => false
  pure {
    base with
    federationSourceHash := legacyFederationSource E base
    makerAuth := some order.auth
    orderDigest := some order.orderDigest
    fillIntents, fill, cancel, conflicts, orderConflicts
    equivocated :=
      flagged || !conflicts.isEmpty || !orderConflicts.isEmpty || (fill.isSome && cancel.isSome) }

def hydratePersistedOrder (raw : Json) (index : Nat) : Except Thrown Order := do
  let row ← persistedObject (some raw) index "record"
  let base ← hydrateBase row index
  if (row.get "makerAuth").isSome then do
    let order ← hydrateMakerProof E now row index base
    hydratePortable E now row index base order
  else do
    refuse (base.federationSourceHash.isSome)
      (invalidPersisted index "federation source without maker proof")
    refuse (hasProtocolState row = true)
      (invalidPersisted index "portable protocol state without maker proof")
    pure base

end Rows

end QuantaSwap.Book
