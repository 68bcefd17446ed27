import QuantaSwap.Book.Hydrate

/-!
# The order store: state, sweep, creation

The store's memory, the expiry sweep, the public view, and the paths that create
an order: the legacy create, the signed create and the federated import. One call
reads the clock once.
-/

set_option autoImplicit false

namespace QuantaSwap.Book

open Lib.Js Lib.Text Lib.Checks

inductive FederationEventKind where
  | orderV2
  | fillIntentV2
  | fillV2
  | cancelV2
  | releaseV2
  deriving DecidableEq, Repr

structure FederationEvent where
  kind : FederationEventKind
  payload : Record

/-- `OrderStore`, less its file handles, listeners and commit waiters. -/
structure Store where
  /-- The values of `orders`, in insertion order. -/
  orders : List Order := []
  /-- Last heartbeat of an order, 0 for none. -/
  seenAt : OrderId → Nat := fun _ => 0
  intentAdmissions : List (TokenHash × List SafeInt) := []
  admissionsPrunedAt : Nat := 0
  presenceTtlS : Nat := defaultPresenceTtlS
  dirty : Bool := false
  pendingFederationEvents : List FederationEvent := []

abbrev StoreM := Act Thrown Store

namespace Store

/-- `this.orders.get(id)` -/
def order? (s : Store) (id : String) : Option Order := s.orders.find? fun o => o.id.val = id

/-- Assign to the fields of a stored order. -/
def update (s : Store) (id : OrderId) (f : Order → Order) : Store :=
  { s with orders := s.orders.map fun o => if o.id = id then f o else o }

def insert (s : Store) (o : Order) : Store := { s with orders := s.orders ++ [o] }

def see (s : Store) (id : OrderId) (now : SafeInt) : Store :=
  { s with seenAt := fun x => if x = id then now.val else s.seenAt x }

def persist (s : Store) : Store := { s with dirty := true }

def publish (s : Store) (event : FederationEvent) : Store :=
  { s with pendingFederationEvents := s.pendingFederationEvents ++ [event] }

/-- Publish the event when the order is public. -/
def publishFor (s : Store) (visibility : Visibility) (event : FederationEvent) : Store :=
  if visibility = .pub then s.publish event else s

end Store

/-! ## Admissions -/

def recentAdmissions (now : SafeInt) (times : List SafeInt) : List SafeInt :=
  times.filter fun t => now.val < t.val + takeWindowS

/-- `recentIntentAdmissions`, what it leaves in the map. -/
def pruneSource (now : SafeInt) (ipHash : TokenHash)
    (admissions : List (TokenHash × List SafeInt)) :
    List (TokenHash × List SafeInt) :=
  admissions.filterMap fun entry =>
    if entry.1 = ipHash then
      match recentAdmissions now entry.2 with
      | [] => none
      | recent => some (ipHash, recent)
    else some entry

def pruneAll (now : SafeInt) (admissions : List (TokenHash × List SafeInt)) :
    List (TokenHash × List SafeInt) :=
  admissions.filterMap fun entry =>
    match recentAdmissions now entry.2 with
    | [] => none
    | recent => some (entry.1, recent)

namespace Store

def admissionsOf (s : Store) (ipHash : TokenHash) : List SafeInt :=
  (s.intentAdmissions.lookup ipHash).getD []

def pruneIntentAdmissions (s : Store) (now : SafeInt) : Store :=
  if now.val < s.admissionsPrunedAt + admissionPruneIntervalS then s
  else { s with
    admissionsPrunedAt := now.val
    intentAdmissions := pruneAll now s.intentAdmissions }

def recordIntentAdmission (s : Store) (ipHash : TokenHash) (receivedAt : SafeInt) : Store :=
  if (s.intentAdmissions.lookup ipHash).isSome then
    { s with
      intentAdmissions := s.intentAdmissions.map fun entry =>
        if entry.1 = ipHash then (ipHash, entry.2 ++ [receivedAt]) else entry }
  else
    let pruned :=
      if maxAdmissionSources ≤ s.intentAdmissions.length then
        { s with
          admissionsPrunedAt := receivedAt.val
          intentAdmissions := pruneAll receivedAt s.intentAdmissions }
      else s
    -- Past the bound the oldest-tracked source is dropped.
    let kept :=
      if maxAdmissionSources ≤ pruned.intentAdmissions.length then pruned.intentAdmissions.drop 1
      else pruned.intentAdmissions
    { pruned with intentAdmissions := kept ++ [(ipHash, [receivedAt])] }

end Store

/-! ## Sweep -/

def retainedIntents (now : SafeInt) (intents : List StoredFillIntentV1) : List StoredFillIntentV1 :=
  intents.filter fun i => now.val < i.auth.expiresAt.val + signedIntentRetentionS

def dropStaleIntents (now : SafeInt) (o : Order) : Order :=
  { o with fillIntents := o.fillIntents.map (retainedIntents now) }

/-- Open too long or past the signed expiry, or accepted and never locked. -/
def expires (now : SafeInt) (o : Order) : Bool :=
  decide ((o.status = .open ∧
      (openTtlS < now.val - o.updatedAt.val ∨
        ∃ a ∈ o.makerAuth, (a : MakerOrderAuthV1).expiresAt.val ≤ now.val)) ∨
    (o.status = .accepted ∧ acceptedTtlS < now.val - o.updatedAt.val))

/-- Cancelled and past its retention, or locking and past the linger after T1. -/
def removable (now : SafeInt) (o : Order) : Bool :=
  let age := now.val - o.updatedAt.val
  match o.status with
  | .cancelled =>
    match o.makerAuth with
    | none => decide (cancelledTtlS < age)
    | some a => decide (a.expiresAt.val + signedTerminalGraceS < now.val ∧
      signedTerminalGraceS < age)
  | .locking =>
    match o.initiatorTimeout with
    | some t1 => decide (t1 + lockingLingerS < now.val)
    | none => false
  | _ => false

/-- What the sweep makes of one order, `none` when it deletes it. -/
def sweepOrder (now : SafeInt) (o : Order) : Option Order :=
  let o := dropStaleIntents now o
  if expires now o then some { o with status := .cancelled, updatedAt := now }
  else if removable now o then none
  else some o

def Store.swept (s : Store) (now : SafeInt) : Store :=
  let pruned := s.pruneIntentAdmissions now
  let orders := s.orders.filterMap (sweepOrder now)
  { pruned with
    orders
    seenAt := fun id => if s.orders.any fun o => o.id = id && (sweepOrder now o).isNone then 0 else
      s.seenAt id
    dirty := s.dirty || decide (orders ≠ s.orders) }

def sweep (now : SafeInt) : StoreM Unit := modify fun s => s.swept now

/-! ## The public view -/

structure PublicOrder where
  id : OrderId
  direction : Direction
  asset : AssetSymbol
  fromAmount : Amount
  toAmount : Amount
  makerEthAccount : EthAddress
  makerQrlAccount : QrlAddress
  status : OrderStatus
  takerEthAccount : Option EthAddress
  takerQrlAccount : Option QrlAddress
  hashlock : Option Hashlock
  initiatorTimeout : Option Int
  responderTimeout : Option Int
  prelocked : Bool
  createdAt : SafeInt
  updatedAt : SafeInt
  visibility : Visibility
  allowedTakerEth : Option EthAddress
  allowedTakerQrl : Option QrlAddress
  makerAuth : Option MakerOrderAuthV1
  orderDigest : Option Bytes32
  fill : Option RecordedFill
  cancel : Option RecordedCancel
  equivocated : Bool
  released : Bool
  makerSeen : Bool
  conflictDigests : List Bytes32
  deriving DecidableEq

def Store.isSeen (s : Store) (o : Order) (now : SafeInt) : Bool :=
  decide (now.val < s.seenAt o.id + s.presenceTtlS)

def publicOrder (o : Order) (makerSeen : Bool) : PublicOrder where
  id := o.id
  direction := o.direction
  asset := o.asset
  fromAmount := o.fromAmount
  toAmount := o.toAmount
  makerEthAccount := o.makerEthAccount
  makerQrlAccount := o.makerQrlAccount
  status := o.status
  takerEthAccount := o.takerEthAccount
  takerQrlAccount := o.takerQrlAccount
  hashlock := o.hashlock
  initiatorTimeout := o.initiatorTimeout
  responderTimeout := o.responderTimeout
  prelocked := o.prelocked
  createdAt := o.createdAt
  updatedAt := o.updatedAt
  visibility := o.visibility
  allowedTakerEth := o.allowedTakerEth
  allowedTakerQrl := o.allowedTakerQrl
  makerAuth := if usesPortableTerminalProtocol o then o.makerAuth else none
  orderDigest := if usesPortableTerminalProtocol o then o.orderDigest else none
  fill := o.fill
  cancel := o.cancel
  equivocated := o.equivocated
  released := o.releasedAt.isSome
  makerSeen
  conflictDigests := o.orderConflicts.map OrderConflictEvidence.orderDigest ++
    o.conflicts.map TerminalConflictEvidence.digest

def Store.pub (s : Store) (now : SafeInt) (o : Order) : PublicOrder :=
  publicOrder o (s.isSeen o now)

/-- A prelocked listing is takeable only while enough of its fixed T1 remains. -/
def hasRunway (o : Order) (now : SafeInt) : Bool :=
  !o.prelocked || match o.initiatorTimeout with
    | none => true
    | some t1 => decide (minTakeableRunwayS ≤ t1 - now.val)

/-- A number that `Number.isInteger` accepts. -/
def asInteger : Option Json → Option Int
  | some (.num n) => n.toInt?
  | _ => none

/-! ## Capabilities -/

section Capabilities

variable (E : Crypto)

def capabilityMatches (stored : TokenHash) (raw : Option Json) (compute : TokenHash → Bytes32) :
    Bool :=
  match (asString raw).bind (matching tokenHashRe) with
  | some token => decide (stored = hexOf (compute token))
  | none => false

def legacyTokenMatches (stored : TokenHash) (raw : Option Json) : Bool :=
  match asString raw with
  | some token => decide (stored = sha256Hex E token)
  | none => false

def shareAuthorized (o : Order) (shareToken : Option Json) : Bool :=
  match o.shareTokenHash with
  | none => false
  | some stored =>
    if o.makerAuth.isNone then legacyTokenMatches E stored shareToken
    else capabilityMatches stored shareToken (computeShareTokenCommitment E)

def makerAuthorized (o : Order) (token : Option Json) : Bool :=
  if o.makerAuth.isNone then legacyTokenMatches E o.makerTokenHash token
  else capabilityMatches o.makerTokenHash token (computeMakerTokenCommitment E)

def authorized (o : Order) (token : Option Json) : Except Thrown Unit :=
  refuse (makerAuthorized E o token = false) (apiError 403 "invalid maker token")

structure Capabilities where
  makerToken : TokenHash
  shareToken : Option TokenHash

def exactRawToken (raw : Option Json) (field : String) : Except Thrown TokenHash :=
  orThrow ((asString raw).bind (matching tokenHashRe))
    (apiError 400 (field ++ " must be 32 bytes of lowercase hex"))

def signedCreateCapabilities (verified : VerifiedOrderV1)
    (rawMakerToken rawShareToken : Option Json) :
    Except Thrown Capabilities := do
  let makerToken ← exactRawToken rawMakerToken "makerToken"
  refuse (hexOf verified.auth.makerTokenCommitment ≠
    hexOf (computeMakerTokenCommitment E makerToken))
    (apiError 401 "makerToken does not match the signed commitment")
  match verified.order.visibility with
  | .pub => do
    refuse (rawShareToken.isSome) (apiError 400 "public signed orders cannot carry a shareToken")
    pure ⟨makerToken, none⟩
  | .priv => do
    let shareToken ← exactRawToken rawShareToken "shareToken"
    refuse (hexOf verified.auth.shareTokenCommitment ≠
      hexOf (computeShareTokenCommitment E shareToken))
      (apiError 401 "shareToken does not match the signed commitment")
    pure ⟨makerToken, some shareToken⟩

end Capabilities

/-! ## Creation -/

/-- What `randomBytes` returned during a call. -/
structure Random where
  id : Matching (fixed [] 16 isLowerHex)
  makerToken : TokenHash
  shareToken : TokenHash
  takerToken : TokenHash

def Random.orderId (r : Random) : OrderId :=
  ⟨r.id.val, by
    have := r.id.property
    simp [orderIdRe, this]⟩

def requireDirection (raw : Option Json) : Except Thrown Direction :=
  orThrow (Direction.ofJson? raw) (apiError 400 "direction must be eth->qrl or qrl->eth")

def requireAmount (raw : Option Json) (field : String) (bounds : AmountBounds) :
    Except Thrown Amount := do
  let amount ← orThrow ((asString raw).bind (matching amountRe))
    (apiError 400 (field ++ " must be a decimal base-unit string"))
  let units := Lib.Decimal.value amount.val
  refuse (units < bounds.minBaseUnits)
    (apiError 400 (field ++ " is below the " ++ bounds.minLabel ++ " minimum"))
  refuse (bounds.maxBaseUnits < units) (apiError 400 (field ++ " exceeds the maximum"))
  pure ⟨units.repr,
    Lib.Decimal.run_repr units 30 (by decide) (Lib.Decimal.value_lt amount.property)⟩

def requireAddress (raw : Option Json) (field : String) (re : String → Bool) :
    Except Thrown (Matching re) :=
  orThrow ((asString raw).bind (matching re)) (apiError 400 (field ++ " is not a valid address"))

def optionalAddress (raw : Option Json) (field : String) (re : String → Bool) :
    Except Thrown (Option (Matching re)) :=
  match raw with
  | none => .ok none
  | some value => (requireAddress (some value) field re).map some

/-- Who asks for the new order. -/
inductive Origin where
  | legacy
  | signed (verified : VerifiedOrderV1) (capabilities : Capabilities)
  | federated (verified : VerifiedOrderV1) (source : String)

namespace Origin

def verified : Origin → Option VerifiedOrderV1
  | .legacy => none
  | .signed v _ => some v
  | .federated v _ => some v

def isFederated : Origin → Bool
  | .federated .. => true
  | _ => false

/-- The share token a private order is created with. -/
def shareToken (random : Random) : Origin → Option TokenHash
  | .legacy => some random.shareToken
  | .signed _ capabilities => capabilities.shareToken
  | .federated .. => none

end Origin

structure CreateTerms where
  direction : Direction
  asset : AssetSymbol
  fromAmount : Amount
  toAmount : Amount
  makerEthAccount : EthAddress
  makerQrlAccount : QrlAddress

structure Listing where
  visibility : Visibility
  allowedTakerEth : Option EthAddress
  allowedTakerQrl : Option QrlAddress

structure PrelockTerms where
  hashlock : Hashlock
  initiatorTimeout : Int

def transient (status : Nat) (message : String) : Thrown :=
  apiError status message (some .transientCapacity)

/-- Same maker, up to the case of the addresses. -/
def sameMaker (eth : EthAddress) (qrl : QrlAddress) (o : Order) : Bool :=
  decide (toLowerCase o.makerEthAccount.val = toLowerCase eth.val ∧
    toLowerCase o.makerQrlAccount.val = toLowerCase qrl.val)

section Create

variable (E : Crypto)

def createTerms (body : Record) : Except Thrown CreateTerms := do
  let direction ← requireDirection (body.get "direction")
  let asset ← requireAsset (body.get "asset")
  let bounds : AmountBounds × AmountBounds := match direction with
    | .ethToQrl => (asset.toAmountBounds, qrlBounds)
    | .qrlToEth => (qrlBounds, asset.toAmountBounds)
  let fromAmount ← requireAmount (body.get "fromAmount") "fromAmount" bounds.1
  let toAmount ← requireAmount (body.get "toAmount") "toAmount" bounds.2
  let makerEthAccount ← requireAddress (body.get "makerEthAccount") "makerEthAccount" ethAddrRe
  let makerQrlAccount ← requireAddress (body.get "makerQrlAccount") "makerQrlAccount" qrlAddrRe
  pure ⟨direction, asset.symbol, fromAmount, toAmount, makerEthAccount, makerQrlAccount⟩

def openOrders (orders : List Order) : List Order := orders.filter fun o => o.status = .open

def assertBookCapacity (orders : List Order) : Except Thrown Unit := do
  refuse (maxRetainedOrders ≤ orders.length)
    (transient 503 "order book retained-state capacity is full")
  refuse (maxOpenOrders ≤ (openOrders orders).length) (transient 503 "order book is full")

def assertMakerCapacity (orders : List Order) (eth : EthAddress) (qrl : QrlAddress) :
    Except Thrown Unit := do
  refuse (maxOpenOrdersPerMaker ≤ ((openOrders orders).filter (sameMaker eth qrl)).length)
    (transient 429 "maker already has too many open orders")
  refuse (maxRetainedOrdersPerMaker ≤ (orders.filter (sameMaker eth qrl)).length)
    (transient 429 "maker already has too many retained order artifacts")

def assertSourceCapacity (orders : List Order) (creatorIpHash : TokenHash) (federated : Bool) :
    Except Thrown Unit := do
  refuse (federated = false ∧ maxOpenOrdersPerIp ≤
      ((openOrders orders).filter fun o => o.creatorIpHash = some creatorIpHash).length)
    (transient 429 "source already has too many open orders")
  refuse ((if federated then maxRetainedFederatedOrders else maxRetainedOrdersPerIp) ≤
      (orders.filter fun o => o.creatorIpHash = some creatorIpHash).length)
    (transient 429 "source already has too many retained order artifacts")

def parseVisibility (body : Record) : Except Thrown Visibility :=
  match body.get "visibility" with
  | none => .ok .pub
  | value => orThrow (Visibility.ofJson? value)
    (apiError 400 "visibility must be public or private")

def federationSourceHash (source : String) : TokenHash := sha256Hex E ("federation:" ++ source)

def assertPortableCapacity (orders : List Order) (visibility : Visibility) (origin : Origin) :
    Except Thrown Unit := do
  refuse (origin.verified.isSome ∧ visibility = .pub ∧
      maxPublicPortableOrders ≤ (orders.filter isPublicPortable).length)
    (transient 503 "portable public-order capacity is full")
  match visibility, origin with
  | .pub, .federated _ source => do
    let federated := orders.filter fun o => isPublicPortable o && o.federationSourceHash.isSome
    refuse (maxFederatedPublicPortableOrders ≤ federated.length)
      (transient 503 "federated portable public-order capacity is full")
    refuse (maxPublicPortableOrdersPerFederationPeer ≤
        (federated.filter fun o => o.federationSourceHash =
          some (federationSourceHash E source)).length)
      (transient 429 "federation source already has too many portable public orders")
  | _, _ => .ok ⟨⟩

/-- The taker restriction of a private order, and its share token. -/
def createListing (body : Record) (visibility : Visibility) (origin : Origin) (random : Random) :
    Except Thrown Listing :=
  match visibility with
  | .priv => do
    refuse ((origin.shareToken random).isNone ∧ origin.isFederated = false)
      (apiError 400 "private signed order shareToken is missing")
    let allowedTakerEth ← optionalAddress (body.get "allowedTakerEth") "allowedTakerEth" ethAddrRe
    let allowedTakerQrl ← optionalAddress (body.get "allowedTakerQrl") "allowedTakerQrl" qrlAddrRe
    pure ⟨.priv, allowedTakerEth, allowedTakerQrl⟩
  | .pub => do
    refuse ((body.get "allowedTakerEth").isSome ∨ (body.get "allowedTakerQrl").isSome)
      (apiError 400 "taker restrictions require a private order")
    pure ⟨.pub, none, none⟩

/-- A prelocked listing: the shape and window of its lock, and one live row per hashlock. -/
def createPrelock (orders : List Order) (body : Record) (federated : Bool) (now : SafeInt) :
    Except Thrown (Option PrelockTerms) :=
  match body.get "prelock" with
  | none => .ok none
  | some raw => do
    let p ← orThrow (asRecord (some raw)) (apiError 400 "prelock must be an object")
    let hashlock ← orThrow ((asString (p.get "hashlock")).bind (matching bytes32Re))
      (apiError 400 "prelock.hashlock must be 32 bytes of lowercase hex")
    let initiatorTimeout ← orThrow (asInteger (p.get "initiatorTimeout"))
      (apiError 400 "prelock.initiatorTimeout must be a unix-second integer")
    refuse (federated = false ∧ initiatorTimeout < now.val + prelockMinT1S)
      (apiError 400 "prelock.initiatorTimeout is too soon for a takeable listing")
    refuse (federated = false ∧ now.val + prelockMaxT1S < initiatorTimeout)
      (apiError 400 "prelock.initiatorTimeout is too far out")
    refuse (∃ other ∈ orders, (other : Order).hashlock = some hashlock ∧ other.status ≠ .cancelled)
      (apiError 409 "an order with this hashlock already exists")
    pure (some ⟨hashlock, initiatorTimeout⟩)

/-- Two local signed orders never share a capability. -/
def assertFreshCapabilities (orders : List Order) (id : OrderId) : Origin → Except Thrown Unit
  | .signed verified _ =>
    refuse (∃ candidate ∈ orders, (candidate : Order).id ≠ id ∧
        (candidate.makerTokenHash = hexOf verified.auth.makerTokenCommitment ∨
          candidate.shareTokenHash = some (hexOf verified.auth.shareTokenCommitment)))
      (apiError 409 "signed order capability commitment is already in use")
  | _ => .ok ⟨⟩

def newOrderId (origin : Origin) (random : Random) : OrderId :=
  match origin.verified with
  | some verified => signedOrderId verified.orderId
  | none => random.orderId

/-- The record `createInternal` builds. -/
def newOrder (origin : Origin) (random : Random) (now : SafeInt) (terms : CreateTerms)
    (listing : Listing)
    (prelock : Option PrelockTerms) (creatorIpHash : TokenHash) : Order where
  id := newOrderId origin random
  direction := terms.direction
  asset := terms.asset
  visibility := listing.visibility
  shareTokenHash :=
    match listing.visibility, origin.verified with
    | .pub, _ => none
    | .priv, some verified => some (hexOf verified.auth.shareTokenCommitment)
    | .priv, none => some (sha256Hex E random.shareToken.val)
  allowedTakerEth := listing.allowedTakerEth
  allowedTakerQrl := listing.allowedTakerQrl
  fromAmount := terms.fromAmount
  toAmount := terms.toAmount
  makerEthAccount := terms.makerEthAccount
  makerQrlAccount := terms.makerQrlAccount
  status := .open
  hashlock := prelock.map PrelockTerms.hashlock
  initiatorTimeout := prelock.map PrelockTerms.initiatorTimeout
  prelocked := prelock.isSome
  createdAt := now
  updatedAt := now
  makerTokenHash :=
    match origin.verified with
    | none => sha256Hex E random.makerToken.val
    | some verified => hexOf verified.auth.makerTokenCommitment
  creatorIpHash := some creatorIpHash
  federationSourceHash :=
    match origin with
    | .federated _ source => some (federationSourceHash E source)
    | _ => none
  makerAuth := origin.verified.map VerifiedOrderV1.auth
  orderDigest := origin.verified.map VerifiedOrderV1.orderDigest
  fillIntents := origin.verified.map fun _ => []

/-- The checks of `createInternal` on a swept book that does not hold the order yet. -/
def draftOrder (orders : List Order) (now : SafeInt) (body : Record) (makerIp : String)
    (origin : Origin)
    (random : Random) : Except Thrown Order := do
  assertBookCapacity orders
  let terms ← createTerms body
  assertMakerCapacity orders terms.makerEthAccount terms.makerQrlAccount
  let creatorIpHash := sha256Hex E makerIp
  assertSourceCapacity orders creatorIpHash origin.isFederated
  let visibility ← parseVisibility body
  assertPortableCapacity E orders visibility origin
  let listing ← createListing body visibility origin random
  let prelock ← createPrelock orders body origin.isFederated now
  let order := newOrder E origin random now terms listing prelock creatorIpHash
  refuse (∃ other ∈ orders, (other : Order).id = order.id) (apiError 409 "order already exists")
  assertFreshCapabilities orders order.id origin
  pure order

structure Created where
  order : PublicOrder
  makerToken : String
  shareToken : Option TokenHash

/-- The stored order that a signed create names again. -/
def resubmit (now : SafeInt) (existing : Order) : Origin → StoreM Created
  | .signed verified capabilities => do
    check (refuse (existing.orderDigest ≠ some verified.orderDigest)
      (apiError 409 "order id conflicts with another signed order"))
    check (refuse (existing.makerTokenHash ≠ hexOf verified.auth.makerTokenCommitment ∨
        (existing.visibility = .priv ∧
          existing.shareTokenHash ≠ some (hexOf verified.auth.shareTokenCommitment)))
      (apiError 409 "stored order capabilities do not match the signed proof"))
    modify fun s => s.see existing.id now
    let s ← get
    pure ⟨s.pub now existing, capabilities.makerToken.val, capabilities.shareToken⟩
  | origin => do
    check (refuse (existing.orderDigest ≠ origin.verified.map VerifiedOrderV1.orderDigest)
      (apiError 409 "order id conflicts with another signed order"))
    let s ← get
    pure ⟨s.pub now existing, "", none⟩

def orderEvent (order : Record) (auth : MakerOrderAuthV1) : FederationEvent :=
  ⟨.orderV2, [("order", .obj order), ("auth", auth.toJson)]⟩

def insertNew (now : SafeInt) (order : Order) (origin : Origin) (s : Store) : Store :=
  let s := s.insert order
  let s := if origin.isFederated then s else s.see order.id now
  let s := s.persist
  match origin.verified with
  | some verified => s.publishFor order.visibility (orderEvent verified.order.record verified.auth)
  | none => s

def createInternal (now : SafeInt) (body : Record) (makerIp : String) (origin : Origin)
    (random : Random) :
    StoreM Created := do
  sweep now
  let s ← get
  match origin.verified.bind fun v => s.order? v.orderId.val with
  | some existing => resubmit now existing origin
  | none => do
    let order ← check (draftOrder E s.orders now body makerIp origin random)
    modify (insertNew now order origin)
    let s ← get
    pure {
      order := s.pub now order
      makerToken := match origin with
        | .legacy => random.makerToken.val
        | .signed _ capabilities => capabilities.makerToken.val
        | .federated .. => ""
      shareToken := if order.visibility = .priv then origin.shareToken random else none }

/-- The checksum of a mixed-case account: a nibble of the hash raises a letter. -/
def checksummedHex (lowerHex : List Char) : List Char :=
  let hash := E.shake256 (utf8 (String.ofList lowerHex))
  lowerHex.mapIdx fun i c =>
    if 'a' ≤ c ∧ c ≤ 'f' then
      let byte := hash.getD (i / 2) 0
      let nibble := if i % 2 = 0 then byte.toNat / 16 else byte.toNat % 16
      if 8 ≤ nibble then c.toUpper else c
    else c

def isQip55QrlAddress (value : Option Json) : Bool :=
  match asString value with
  | none => false
  | some s =>
    qrlAddrRe s &&
      (let body := (dropLead ['Q'] s).toList
       let lower := body.map Char.toLower
       body == lower || body == body.map Char.toUpper || body == checksummedHex E lower)

def assertLegacyOrderProtocolInput (account : Option Json) : Except Thrown Unit :=
  refuse (isQip55QrlAddress E account = false)
    (apiError 409 "The v3 order book requires a QIP-55 64-byte QRL account")

def create (now : SafeInt) (body : Record) (makerIp : String) (random : Random) :
    StoreM Created := do
  check (assertLegacyOrderProtocolInput E (body.get "makerQrlAccount"))
  createInternal E now body makerIp .legacy random

def createVerified (now : SafeInt) (verified : VerifiedOrderV1)
    (rawMakerToken rawShareToken : Option Json)
    (makerIp : String) (random : Random) : StoreM Created := do
  let capabilities ← check (signedCreateCapabilities E verified rawMakerToken rawShareToken)
  createInternal E now verified.order.record makerIp (.signed verified capabilities) random

/-- `push`, then `shift` while more than `MAX_CONFLICT_PROOFS` are held. -/
def pushCapped {α : Type} (l : List α) (a : α) : List α :=
  (l ++ [a]).drop ((l ++ [a]).length - maxConflictProofs)

/-- Another signed order under the same id quarantines the stored one. -/
def addOrderConflict (verified : VerifiedOrderV1) (now : SafeInt) (o : Order) : Order :=
  { o with
    orderConflicts :=
      pushCapped o.orderConflicts ⟨verified.orderDigest, verified.order, verified.auth⟩
    equivocated := true
    status := if o.status = .open ∨ o.status = .accepted then .cancelled else o.status
    updatedAt := now }

/-- `/^[a-z0-9][a-z0-9-]*$/`, at most 64 characters. -/
def federationSourceRe (source : String) : Bool :=
  let head (c : Char) : Bool := ('a' ≤ c && c ≤ 'z') || isDigit c
  match source.toList with
  | [] => false
  | c :: rest => head c && rest.all (fun c => head c || c == '-') && rest.length < 64

def importVerifiedOrder (now : SafeInt) (verified : VerifiedOrderV1) (source : String)
    (random : Random) :
    StoreM PublicOrder := do
  sweep now
  check (refuse (verified.order.visibility ≠
    .pub) (apiError 400 "private signed orders are origin-only"))
  let s ← get
  match s.order? verified.orderId.val with
  | some existing =>
    if existing.orderDigest = some verified.orderDigest ∨
        verified.orderDigest ∈ existing.orderConflicts.map OrderConflictEvidence.orderDigest then
      pure (s.pub now existing)
    else do
      modify fun s =>
        ((s.update existing.id (addOrderConflict verified now)).persist).publishFor
          existing.visibility
          (orderEvent verified.order.record verified.auth)
      let s ← get
      pure (s.pub now (addOrderConflict verified now existing))
  | none => do
    check (refuse (federationSourceRe source =
      false) (apiError 400 "federation source id is invalid"))
    let created ← createInternal E now verified.order.record ("federation:" ++ source)
      (.federated verified source) random
    pure created.order

end Create

end QuantaSwap.Book
