import QuantaSwap.Book.Store

/-!
# The order store: proposals, fills, cancels, takes, releases

Every operation sweeps first, then checks, then writes. A check that fails after
the sweep leaves the swept book.
-/

set_option autoImplicit false

namespace QuantaSwap.Book

open Lib.Js Lib.Text Lib.Checks

def dependency (status : Nat) (message : String) : Thrown :=
  apiError status message (some .federationDependency)

def isLiveIntent (now : SafeInt) (i : StoredFillIntentV1) : Bool :=
  decide (now.val < i.auth.expiresAt.val)

def liveIntentCount (now : SafeInt) (intents : List StoredFillIntentV1) : Nat :=
  (intents.filter (isLiveIntent now)).length

/-- Live proposals this source holds across the whole book. -/
def sourceLiveIntentCount (orders : List Order) (ipHash : TokenHash) (now : SafeInt) : Nat :=
  ((orders.flatMap Order.intents).filter fun i => i.acceptorIpHash =
    ipHash && isLiveIntent now i).length

/-- Unreleased before released, then earliest expiry first. -/
def evictsBefore (left right : StoredFillIntentV1) : Bool :=
  let rank (i : StoredFillIntentV1) : Nat := if i.release.isSome then 1 else 0
  decide (rank left < rank right ∨
    (rank left = rank right ∧ left.auth.expiresAt.val < right.auth.expiresAt.val))

/-- The first element that no other one precedes: `sort(evictionOrder)[0]`. -/
def firstToEvict : List StoredFillIntentV1 → Option StoredFillIntentV1
  | [] => none
  | i :: rest =>
    match firstToEvict rest with
    | none => some i
    | some best => some (if evictsBefore best i then best else i)

def fillIntentEvent (order : Order) (verified : VerifiedFillIntentV1) : FederationEvent :=
  ⟨.fillIntentV2,
    [("orderId", strJson order.id), ("intent", verified.intent.toJson),
      ("auth", verified.auth.toJson)]⟩

def fillEvent (order : Order) (fill : VerifiedFillV1) (intent : VerifiedFillIntentV1) :
    FederationEvent :=
  ⟨.fillV2,
    [("orderId", strJson order.id), ("fill", fill.fill.toJson), ("auth", fill.auth.toJson),
      ("intent", intent.intent.toJson), ("intentAuth", intent.auth.toJson)]⟩

def cancelEvent (order : Order) (cancel : VerifiedCancelV1) : FederationEvent :=
  ⟨.cancelV2,
    [("orderId", strJson order.id), ("cancel", cancel.cancel.toJson), ("auth", cancel.auth.toJson)]⟩

def releaseEvent (order : Order) (key : String) (digest releaseSecret : Bytes32) :
    FederationEvent :=
  ⟨.releaseV2,
    [("orderId", strJson order.id), (key, strJson digest),
      ("releaseSecret", strJson releaseSecret)]⟩

section Operations

variable (E : Crypto) (now : SafeInt)

/-- Read the store. -/
def listOpen : StoreM (List PublicOrder) := do
  sweep now
  let s ← get
  let listed := s.orders.filter fun o =>
    decide (o.status = .open) && decide (o.visibility = .pub) && hasRunway o now && !o.equivocated
  pure ((listed.mergeSort fun a b => b.createdAt.val ≤ a.createdAt.val).map (s.pub now))

def orderNotFound : Thrown := apiError 404 "order not found"

def getOrder (id : String) (shareToken : Option Json) : StoreM PublicOrder := do
  sweep now
  let s ← get
  let order ← check (orThrow (s.order? id) orderNotFound)
  check (refuse (order.visibility = .priv ∧
    shareAuthorized E order shareToken = false) orderNotFound)
  pure (s.pub now order)

/-! ## Fill intents -/

/-- `recentIntentAdmissions`: it prunes the source's entry and answers what is left. -/
def recentIntentAdmissions (ipHash : TokenHash) : StoreM (List SafeInt) := do
  modify fun s => { s with intentAdmissions := pruneSource now ipHash s.intentAdmissions }
  let s ← get
  pure (s.admissionsOf ipHash)

def noLongerOpen : String := "order is no longer open"
def tooLittleRunway : String := "this pre-funded order has too little time left to swap safely"
def tooManyPending : String := "this order already has too many pending fill intents"
def requestsInProgress : String :=
  "you already have fill requests in progress; finish or let them expire"
def dailyLimit : String := "daily fill intent limit reached; leave some liquidity for others"

/-- The refusals that need no signature check. -/
def shedFillIntent (order : Order) (rawAuth : Option Json) (takerIp : String) : StoreM Unit := do
  let claimedNonce := (asRecord rawAuth).bind fun r => asString (r.get "nonce")
  if order.intents.any fun i => claimedNonce = some i.auth.nonce.val then
    pure ⟨⟩
  else do
    check (refuse (order.status ≠ .open ∨ order.equivocated = true) (shedError 409 noLongerOpen))
    check (refuse (hasRunway order now = false) (shedError 409 tooLittleRunway))
    check (refuse (maxFillIntentsPerOrder ≤ liveIntentCount now order.intents)
      (shedError 429 tooManyPending (some .transientCapacity)))
    let s ← get
    let ipHash := sha256Hex E takerIp
    check (refuse (maxConcurrentTakesPerIp ≤ sourceLiveIntentCount s.orders ipHash now)
      (shedError 429 requestsInProgress))
    let recent ← recentIntentAdmissions now ipHash
    check (refuse (maxTakesPerIpPerDay ≤ recent.length) (shedError 429 dailyLimit))

/-- The limits on a proposal that a taker sends to this book, not on one of a peer. -/
def assertDirectLimits (order : Order) (verified : VerifiedFillIntentV1) (ipHash : TokenHash)
    (federated : Bool) : StoreM Unit :=
  if federated then pure ⟨⟩
  else do
    check (refuse (∃ i ∈ order.intents, (i : StoredFillIntentV1).release = none ∧
      isLiveIntent now i = true ∧
        i.intent.takerQrlAccount = verified.intent.takerQrlAccount)
      (apiError 409
        "you already have a pending fill request for this order; wait for it to expire or release it"))
    let s ← get
    check (refuse (maxConcurrentTakesPerIp ≤ sourceLiveIntentCount s.orders ipHash now)
      (apiError 429 requestsInProgress))
    let recent ← recentIntentAdmissions now ipHash
    check (refuse (maxTakesPerIpPerDay ≤ recent.length) (apiError 429 dailyLimit))

/-- Room for one more proposal: the retained ones, less one expired proposal when they fill the
order. -/
def makeRoom (intents : List StoredFillIntentV1) (verified : VerifiedFillIntentV1) :
    Except Thrown (List StoredFillIntentV1) :=
  if intents.length < maxFillIntentsPerOrder then .ok intents
  else do
    let incomingLive := decide (now.val < verified.auth.expiresAt.val)
    let candidate ← orThrow (firstToEvict (intents.filter fun i =>
        !isLiveIntent now i &&
          (incomingLive || decide (i.auth.expiresAt.val < verified.auth.expiresAt.val))))
      (transient 429 "this order already has too many retained fill intents")
    pure (intents.erase candidate)

/-- Retain one more proposal. -/
def addFillIntent (kept : List StoredFillIntentV1) (verified : VerifiedFillIntentV1)
    (ipHash : TokenHash)
    (o : Order) : Order :=
  { o with
    fillIntents :=
      some (kept ++ [⟨verified.intentDigest, verified.intent, verified.auth, now, ipHash, none⟩])
    updatedAt := now }

def findIntent (order : Order) (digest : Bytes32) : Option StoredFillIntentV1 :=
  order.intents.find? fun i => i.intentDigest = digest

def storeFillIntent (order : Order) (verified : VerifiedFillIntentV1) (takerIp : String)
    (federated : Bool) :
    StoreM PublicFillIntentV1 := do
  check (refuse (∃ i ∈ order.intents, (i : StoredFillIntentV1).auth.nonce = verified.auth.nonce)
    (apiError 409 "fill intent nonce conflicts with another signed intent"))
  check (refuse (now.val < verified.auth.expiresAt.val ∧
      maxFillIntentsPerOrder ≤ liveIntentCount now order.intents)
    (transient 429 tooManyPending))
  let ipHash := sha256Hex E takerIp
  assertDirectLimits now order verified ipHash federated
  let kept ← check (makeRoom now order.intents verified)
  modify fun s =>
    let s := s.update order.id (addFillIntent now kept verified ipHash)
    let s := if federated then s else s.recordIntentAdmission ipHash now
    s.persist.publishFor order.visibility (fillIntentEvent order verified)
  pure ⟨verified.intentDigest, verified.intent, verified.auth, now⟩

def submitFillIntent (id : String) (rawIntent rawAuth : Option Json) (takerIp : String)
    (shareToken : Option Json) : StoreM PublicFillIntentV1 := do
  sweep now
  let s ← get
  let order ← check (orThrow (s.order? id) (shedError 404 "order not found"))
  check (refuse (order.visibility = .priv ∧ shareAuthorized E order shareToken = false)
    (shedError 404 "order not found"))
  check (refuse (usesPortableTerminalProtocol order = false)
    (shedError 409 "legacy orders use the accept endpoint"))
  shedFillIntent E now order rawAuth takerIp
  let verifiedOrder ← check (verifiedSignedOrder E now order)
  let verified ← check (verifyFillIntentV1 E now false rawIntent rawAuth verifiedOrder)
  match findIntent order verified.intentDigest with
  | some replay => pure replay.publicIntent
  | none => do
    check (refuse (order.status ≠ .open ∨ order.equivocated = true) (apiError 409 noLongerOpen))
    check (refuse (now.val + maxIntentFutureSkewS < verified.auth.issuedAt.val)
      (apiError 400 "fill request is dated in the future; check your device clock"))
    check (refuse (hasRunway order now = false) (apiError 409 tooLittleRunway))
    storeFillIntent E now order verified takerIp false

/-- A public portable order that a federation event refers to. -/
def referencedPublicOrder (s : Store) (id : String) : Except Thrown Order :=
  orThrow ((s.order? id).filter isPublicPortable)
    (dependency 409 "referenced public order is unavailable")

def importFillIntent (id : String) (rawIntent rawAuth : Option Json) :
    StoreM PublicFillIntentV1 := do
  sweep now
  let s ← get
  let order ← check (referencedPublicOrder s id)
  let verifiedOrder ← check (verifiedSignedOrder E now order)
  let verified ← check (verifyFillIntentV1 E now true rawIntent rawAuth verifiedOrder)
  match findIntent order verified.intentDigest with
  | some replay => pure replay.publicIntent
  | none => do
    check (refuse ((order.status ≠ .open ∧ ¬(order.status = .cancelled ∧ order.cancel = none)) ∨
        order.equivocated = true)
      (apiError 409 noLongerOpen))
    storeFillIntent E now order verified "federation" true

def intentPriority (i : PublicFillIntentV1) : Nat := max i.auth.issuedAt.val i.receivedAt.val

/-- Maker-facing order: priority, then signed issuance, then digest. -/
def intentBefore (left right : PublicFillIntentV1) : Bool :=
  let l := (intentPriority left, left.auth.issuedAt.val)
  let r := (intentPriority right, right.auth.issuedAt.val)
  decide (l.1 < r.1 ∨ (l.1 = r.1 ∧ (l.2 < r.2 ∨
    (l.2 = r.2 ∧ left.intentDigest.val.toList ≤ right.intentDigest.val.toList))))

def listFillIntents (id : String) (makerToken : Option Json) :
    StoreM (List PublicFillIntentV1) := do
  sweep now
  let s ← get
  let order ← check (orThrow (s.order? id) orderNotFound)
  check (refuse (usesPortableTerminalProtocol order = false) (apiError 409 "order is not portable"))
  check (if order.visibility = .priv then authorized E order makerToken else .ok ⟨⟩)
  if order.status ≠ .open ∨ order.equivocated = true then pure []
  else
    let live := order.intents.filter fun i =>
      i.release.isNone && decide (i.auth.issuedAt.val ≤ now.val) && isLiveIntent now i
    pure ((live.map StoredFillIntentV1.publicIntent).mergeSort intentBefore)

/-! ## Terminal proofs -/

/-- A terminal with this digest is recorded or remembered already. -/
def knowsTerminal (o : Order) (digest : Bytes32) : Bool :=
  decide (o.fillDigest = some digest ∨ o.cancelDigest = some digest ∨
    digest ∈ o.conflicts.map TerminalConflictEvidence.digest)

def addConflict (evidence : TerminalConflictEvidence) (o : Order) : Order :=
  { o with
    conflicts := pushCapped o.conflicts evidence
    equivocated := true
    updatedAt := now }

/-- `rememberTerminalConflict` with the publication that follows it. -/
def rememberTerminalConflict (order : Order) (evidence : TerminalConflictEvidence)
    (event : FederationEvent) :
    StoreM PublicOrder := do
  if knowsTerminal order evidence.digest then do
    let s ← get
    pure (s.pub now order)
  else do
    modify fun s =>
      ((s.update order.id (addConflict now evidence)).persist).publishFor order.visibility event
    let s ← get
    pure (s.pub now (addConflict now evidence order))

/-- The order that a terminal proof names, and the right to present it. -/
def terminalOrder (s : Store) (id : String) (federated : Bool) (makerToken : Option Json)
    (legacy : String) :
    Except Thrown Order := do
  let order ← orThrow (s.order? id)
    (if federated then dependency 409 "order not found" else orderNotFound)
  refuse (federated = true ∧ order.visibility ≠ .pub)
    (apiError 409 "private signed orders are origin-only")
  if federated = false ∧ order.visibility = .priv then authorized E order makerToken else .ok ⟨⟩
  refuse (usesPortableTerminalProtocol order = false) (apiError 409 legacy)
  pure order

/-- The intent a fill selects, as retained by this book or as the fill brings it. -/
def selectedSource (order : Order) (intent : VerifiedFillIntentV1) : StoredFillIntentV1 :=
  (findIntent order intent.intentDigest).getD
    ⟨intent.intentDigest, intent.intent, intent.auth, now, sha256Hex E "federated-intent", none⟩

def recordFill (fill : VerifiedFillV1) (selected : StoredFillIntentV1) (o : Order) : Order :=
  { o with
    fill := some ⟨fill.fill, fill.auth, fill.fillDigest, selected.publicIntent⟩
    takerEthAccount := some (EthAccount.address fill.fill.takerEthAccount)
    takerQrlAccount := some (QrlAccount.address fill.fill.takerQrlAccount)
    hashlock := some fill.fill.hashlock
    initiatorTimeout := some fill.fill.initiatorTimeout.val
    responderTimeout := some fill.fill.responderTimeout.val
    status := .locking
    acceptorIpHash := some selected.acceptorIpHash
    acceptedAt := some fill.auth.issuedAt
    updatedAt := now
    takerTokenHash := none
    releasedAt := selected.release.map IntentRelease.releasedAt
    releaseSecret := selected.release.map IntentRelease.releaseSecret }

def applyFill (id : String) (rawFill rawAuth rawIntent rawIntentAuth : Option Json)
    (federated : Bool)
    (makerToken : Option Json) : StoreM PublicOrder := do
  sweep now
  let s ← get
  let order ← check
    (terminalOrder E s id federated makerToken "legacy orders use the hashlock endpoint")
  let verifiedOrder ← check (referencedSignedOrderVariant E now order rawFill)
  let intent ← check (verifyFillIntentV1 E now true rawIntent rawIntentAuth verifiedOrder)
  let fill ← check (verifyFillV1 E now federated rawFill rawAuth verifiedOrder intent)
  let event := fillEvent order fill intent
  if order.fillDigest.isSome ∨ order.cancelDigest.isSome then
    rememberTerminalConflict now order
      (.fill fill.fillDigest fill.fill fill.auth intent.intent intent.auth) event
  else do
    check (refuse (order.status ≠ .open ∧
        ¬(federated = true ∧ order.status = .cancelled ∧ order.cancel = none))
      (apiError 409 noLongerOpen))
    let selected := selectedSource E now order intent
    modify fun s => ((s.update order.id (recordFill now fill selected)).persist).publishFor
      order.visibility event
    let s ← get
    pure (s.pub now (recordFill now fill selected order))

def recordCancel (cancel : VerifiedCancelV1) (o : Order) : Order :=
  { o with
    cancel := some ⟨cancel.cancel, cancel.auth, cancel.cancelDigest⟩
    status := .cancelled
    updatedAt := now }

def applySignedCancel (id : String) (rawCancel rawAuth : Option Json) (federated : Bool)
    (makerToken : Option Json) : StoreM PublicOrder := do
  sweep now
  let s ← get
  let order ← check (terminalOrder E s id federated makerToken "order is not portable")
  let verifiedOrder ← check (referencedSignedOrderVariant E now order rawCancel)
  let cancel ← check (verifyCancelV1 E now federated rawCancel rawAuth verifiedOrder)
  let event := cancelEvent order cancel
  if order.fillDigest.isSome ∨ order.cancelDigest.isSome then
    rememberTerminalConflict now order (.cancel cancel.cancelDigest cancel.cancel cancel.auth) event
  else do
    modify fun s =>
      ((s.update order.id (recordCancel now cancel)).persist).publishFor order.visibility event
    let s ← get
    pure (s.pub now (recordCancel now cancel order))

/-! ## Legacy takes -/

structure Taken where
  order : PublicOrder
  takerToken : TokenHash

/-- A locking-phase take holds a slot until T1 or the swap horizon. -/
def lockingSlotActive (o : Order) : Bool :=
  decide (o.status = .locking ∧ (∀ t1 ∈ o.initiatorTimeout, (now.val : Int) ≤ t1) ∧
    now.val ≤ (o.acceptedAt.getD now).val + lockingSlotHorizonS)

def takeSlotActive (o : Order) : Bool :=
  o.releasedAt.isNone && (decide (o.status = .accepted) || lockingSlotActive now o)

def acceptOrder (eth : EthAddress) (qrl : QrlAddress) (tokenHash ipHash : TokenHash) (o : Order) :
    Order :=
  { o with
    takerEthAccount := some eth
    takerQrlAccount := some qrl
    status := .accepted
    takerTokenHash := some tokenHash
    acceptorIpHash := some ipHash
    acceptedAt := some now
    updatedAt := now
    releasedAt := none }

def commitTake (order : Order) (body : Record) (takerIp : String) (random : Random) :
    StoreM Taken := do
  let s ← get
  let ipHash := sha256Hex E takerIp
  let mine := s.orders.filter fun o => o.acceptorIpHash = some ipHash
  check (refuse (maxConcurrentTakesPerIp ≤ (mine.filter (takeSlotActive now)).length)
    (apiError 429 "you already have swaps in progress; finish or let them expire"))
  check (refuse (maxTakesPerIpPerDay ≤
      (mine.filter fun o => now.val < ((o.acceptedAt.map Subtype.val).getD 0) + takeWindowS).length)
    (apiError 429 "daily take limit reached; leave some liquidity for others"))
  let takerEthAccount ← check
    (requireAddress (body.get "takerEthAccount") "takerEthAccount" ethAddrRe)
  let takerQrlAccount ← check
    (requireAddress (body.get "takerQrlAccount") "takerQrlAccount" qrlAddrRe)
  check (refuse
    ((∃ a ∈ order.allowedTakerEth, toLowerCase (a : EthAddress).val ≠
      toLowerCase takerEthAccount.val) ∨
      ∃ a ∈ order.allowedTakerQrl, toLowerCase (a : QrlAddress).val ≠
        toLowerCase takerQrlAccount.val)
    (apiError 403 "this order is reserved for a specific taker"))
  let take := acceptOrder now takerEthAccount takerQrlAccount
    (sha256Hex E random.takerToken.val) ipHash
  modify fun s => (s.update order.id take).persist
  let s ← get
  pure ⟨s.pub now (take order), random.takerToken⟩

def accept (id : String) (body : Record) (takerIp : String) (random : Random) : StoreM Taken := do
  check (assertLegacyOrderProtocolInput E (body.get "takerQrlAccount"))
  sweep now
  let s ← get
  let order ← check (orThrow (s.order? id) orderNotFound)
  check (refuse (order.visibility = .priv ∧ shareAuthorized E order (body.get "shareToken") = false)
    orderNotFound)
  check (refuse (usesPortableTerminalProtocol order = true)
    (apiError 409 "signed orders require a FillIntentV1 request"))
  check (refuse (order.status ≠ .open) (apiError 409 noLongerOpen))
  check (refuse (hasRunway order now = false) (apiError 409 tooLittleRunway))
  commitTake E now order body takerIp random

def takeEligible (s : Store) (direction : Direction) (asset : AssetSymbol) (maxPay minReceive : Nat)
    (o : Order) : Bool :=
  decide (o.status = .open) && !usesPortableTerminalProtocol o && decide (o.visibility = .pub) &&
    decide (o.direction = direction) && decide (o.asset = asset) &&
    decide (Amount.units o.toAmount ≤ maxPay) && decide (minReceive ≤ Amount.units o.fromAmount) &&
    s.isSeen o now && hasRunway o now

/-- Better rate for the taker, then the larger fill, then first in. -/
def takeBefore (a b : Order) : Bool :=
  let crossA := Amount.units a.fromAmount * Amount.units b.toAmount
  let crossB := Amount.units b.fromAmount * Amount.units a.toAmount
  if crossA ≠ crossB then decide (crossB < crossA)
  else if Amount.units a.fromAmount ≠ Amount.units b.fromAmount then
    decide (Amount.units b.fromAmount < Amount.units a.fromAmount)
  else decide (a.createdAt.val ≤ b.createdAt.val)

def take (body : Record) (takerIp : String) (random : Random) : StoreM Taken := do
  check (assertLegacyOrderProtocolInput E (body.get "takerQrlAccount"))
  sweep now
  let direction ← check (requireDirection (body.get "direction"))
  let asset ← check (requireAsset (body.get "asset"))
  let bounds : AmountBounds × AmountBounds := match direction with
    | .ethToQrl => (qrlBounds, asset.toAmountBounds)
    | .qrlToEth => (asset.toAmountBounds, qrlBounds)
  let maxPay ← check (requireAmount (body.get "maxPay") "maxPay" bounds.1)
  let minReceive ← check (requireAmount (body.get "minReceive") "minReceive" bounds.2)
  let s ← get
  let candidates := s.orders.filter
    (takeEligible now s direction asset.symbol (Amount.units maxPay) (Amount.units minReceive))
  let best ← check (orThrow (candidates.mergeSort takeBefore).head?
    (apiError 409 "no open order matches those terms; the book may have moved"))
  commitTake E now best body takerIp random

def heartbeat (id : String) (body : Record) : StoreM PublicOrder := do
  let s ← get
  let order ← check (orThrow (s.order? id) orderNotFound)
  check (authorized E order (body.get "token"))
  modify fun s => s.see order.id now
  let s ← get
  pure (s.pub now order)

/-! ## Announcements and releases -/

def announce (hashlock : Hashlock) (initiatorTimeout responderTimeout : Int) (o : Order) : Order :=
  { o with
    hashlock := some hashlock
    initiatorTimeout := some initiatorTimeout
    responderTimeout := some responderTimeout
    status := .locking
    updatedAt := now }

/-- The hashlock and timeouts of an announcement; the two differences are doubles. -/
def announcedTerms (order : Order) (body : Record) : Except Thrown (Hashlock × Int × Int) := do
  let hashlock ← orThrow ((asString (body.get "hashlock")).bind (matching bytes32Re))
    (apiError 400 "hashlock must be 32 bytes of lowercase hex")
  let timeouts := apiError 400 "timeouts must be unix-second integers"
  let initiatorTimeout ← orThrow (asInteger (body.get "initiatorTimeout")) timeouts
  let responderTimeout ← orThrow (asInteger (body.get "responderTimeout")) timeouts
  refuse (order.prelocked = true ∧ order.hashlock ≠ some hashlock)
    (apiError 400 "hashlock does not match the pre-funded escrow")
  refuse (order.prelocked = true ∧ order.initiatorTimeout ≠ some initiatorTimeout)
    (apiError 400 "initiatorTimeout does not match the pre-funded escrow")
  refuse (responderTimeout ≤ now.val + 600) (apiError 400 "responder timeout is too soon")
  refuse (roundDouble (initiatorTimeout - now.val) < 2 * roundDouble (responderTimeout - now.val))
    (apiError 400 "initiator timeout must be at least 2x the responder timeout")
  pure (hashlock, initiatorTimeout, responderTimeout)

def announceHashlock (id : String) (body : Record) : StoreM PublicOrder := do
  sweep now
  let s ← get
  let order ← check (orThrow (s.order? id) orderNotFound)
  check (authorized E order (body.get "token"))
  check (refuse (usesPortableTerminalProtocol order = true)
    (apiError 409 "signed orders require a FillV1 proof"))
  check (refuse (order.status ≠ .accepted) (apiError 409 "order is not awaiting a hashlock"))
  let terms ← check (announcedTerms now order body)
  let write := announce now terms.1 terms.2.1 terms.2.2
  modify fun s => (s.update order.id write).persist
  let s ← get
  pure (s.pub now (write order))

/-- Nothing announced, nothing locked: back to the book. -/
def relist (o : Order) : Order :=
  { o with
    status := .open
    takerEthAccount := none
    takerQrlAccount := none
    takerTokenHash := none
    acceptorIpHash := none
    acceptedAt := none
    releasedAt := none
    updatedAt := now }

def releaseLocking (o : Order) : Order := { o with releasedAt := some now, updatedAt := now }

/-- `exactPayload`: the object has exactly these keys. -/
def exactPayload (raw : Record) (fields : List String) (label : String) : Except Thrown Unit :=
  refuse (raw.keys.isPerm fields = false) (apiError 400 (label ++ " has unexpected fields"))

def releaseFill (secret : Bytes32) (o : Order) : Order :=
  { o with releaseSecret := some secret, releasedAt := some now, updatedAt := now }

/-- The release of one proposal, and of the order when its fill selected it. -/
def releaseIntent (digest secret : Bytes32) (o : Order) : Order :=
  let selected := o.fill.any fun f => f.selectedIntent.intentDigest = digest
  { o with
    fillIntents := o.fillIntents.map fun l => l.map fun i =>
      if i.intentDigest = digest then { i with release := some ⟨now, secret⟩ } else i
    releaseSecret := if selected then some secret else o.releaseSecret
    releasedAt := if selected then some now else o.releasedAt
    updatedAt := now }

def digestOf (raw : Option Json) : Option Bytes32 := (asString raw).bind (matching bytes32Re)

/-- A release that names the recorded fill. -/
def releasePortableFill (order : Order) (orderDigest : Bytes32) (rawDigest : Option Json)
    (secret : Bytes32) :
    StoreM PublicOrder := do
  let fill ← check (orThrow (order.fill.filter fun f => digestOf rawDigest = some f.digest)
    (dependency 409 "referenced fill is unavailable"))
  check (refuse (computeReleaseCommitment E orderDigest fill.selectedIntent.auth.nonce secret ≠
      fill.fill.releaseCommitment)
    (apiError 403 "release secret does not match the signed fill"))
  if order.releaseSecret = some secret ∧ order.releasedAt.isSome then do
    let s ← get
    pure (s.pub now order)
  else do
    modify fun s =>
      ((s.update order.id (releaseFill now secret)).persist).publishFor order.visibility
        (releaseEvent order "fillDigest" fill.digest secret)
    let s ← get
    pure (s.pub now (releaseFill now secret order))

/-- A release that names a retained or selected fill intent. -/
def releasePortableIntent (order : Order) (orderDigest : Bytes32) (rawDigest : Option Json)
    (secret : Bytes32) : StoreM PublicOrder := do
  let digest ← check (orThrow (digestOf rawDigest)
    (apiError 400 "intentDigest must be 32 bytes of lowercase hex"))
  let stored := findIntent order digest
  let selected :=
    (order.fill.map RecordedFill.selectedIntent).filter fun i => i.intentDigest = digest
  let intent ← check (orThrow ((stored.map StoredFillIntentV1.publicIntent).or selected)
    (dependency 409 "referenced fill intent is unavailable"))
  check (refuse (computeReleaseCommitment E orderDigest intent.auth.nonce secret ≠
      intent.intent.releaseCommitment)
    (apiError 403 "release secret does not match the fill intent"))
  if (∃ i ∈ stored, ∃ r ∈ (i : StoredFillIntentV1).release,
    (r : IntentRelease).releaseSecret = secret) ∨
      (selected.isSome ∧ order.releaseSecret = some secret ∧ order.releasedAt.isSome) then do
    let s ← get
    pure (s.pub now order)
  else do
    modify fun s =>
      ((s.update order.id (releaseIntent now digest secret)).persist).publishFor order.visibility
        (releaseEvent order "intentDigest" digest secret)
    let s ← get
    pure (s.pub now (releaseIntent now digest secret order))

def releasePortable (order : Order) (body : Record) (federated : Bool) : StoreM PublicOrder := do
  check (refuse (federated = true ∧ order.visibility ≠ .pub)
    (apiError 409 "private signed orders are origin-only"))
  check (refuse (federated = false ∧ order.visibility = .priv ∧
      shareAuthorized E order (body.get "shareToken") = false) orderNotFound)
  let hasFillDigest := (body.get "fillDigest").isSome
  check (refuse (hasFillDigest = (body.get "intentDigest").isSome)
    (apiError 400 "release must identify exactly one fill or fill intent"))
  check (exactPayload body
    ([if hasFillDigest then "fillDigest" else "intentDigest", "releaseSecret"] ++
      if order.visibility = .priv ∧ federated = false then ["shareToken"] else []) "release")
  let secret ← check (orThrow (digestOf (body.get "releaseSecret"))
    (apiError 400 "releaseSecret must be 32 bytes of lowercase hex"))
  let orderDigest ← check (orThrow order.orderDigest (apiError 409 "order is not portable"))
  if hasFillDigest then releasePortableFill E now order orderDigest (body.get "fillDigest") secret
  else releasePortableIntent E now order orderDigest (body.get "intentDigest") secret

def release (id : String) (body : Record) : StoreM PublicOrder := do
  sweep now
  let s ← get
  let order ← check (orThrow (s.order? id) orderNotFound)
  if usesPortableTerminalProtocol order then releasePortable E now order body false
  else do
    check (refuse (order.takerTokenHash.isNone ∨
        (asString (body.get "token")).map (sha256Hex E) ≠ order.takerTokenHash)
      (apiError 403 "invalid taker token"))
    match order.status, order.releasedAt with
    | .accepted, _ => do
      modify fun s => (s.update order.id (relist now)).persist
      let s ← get
      pure (s.pub now (relist now order))
    | .locking, none => do
      modify fun s => (s.update order.id (releaseLocking now)).persist
      let s ← get
      pure (s.pub now (releaseLocking now order))
    | _, _ => pure (s.pub now order)

def importRelease (id : String) (body : Record) : StoreM PublicOrder := do
  sweep now
  let s ← get
  let order ← check (referencedPublicOrder s id)
  releasePortable E now order body true

def withdraw (o : Order) : Order := { o with status := .cancelled, updatedAt := now }

def cancel (id : String) (body : Record) : StoreM PublicOrder := do
  sweep now
  let s ← get
  let order ← check (orThrow (s.order? id) orderNotFound)
  check (authorized E order (body.get "token"))
  check (refuse (usesPortableTerminalProtocol order = true)
    (apiError 409 "signed orders require a CancelV1 proof"))
  if order.status = .cancelled then pure (s.pub now order)
  else do
    modify fun s => (s.update order.id (withdraw now)).persist
    let s ← get
    pure (s.pub now (withdraw now order))

end Operations

end QuantaSwap.Book
