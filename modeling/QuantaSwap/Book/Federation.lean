import QuantaSwap.Book.Operations

/-!
# Federation events, persistence, and the store as a system

`federationSnapshot` and `applyFederationEvent`, `writeSnapshot` and `load`, and
the calls that reach a running store.
-/

set_option autoImplicit false

namespace QuantaSwap.Book

open Lib.Js Lib.Text Lib.Checks

/-! ## The snapshot for a joining mirror -/

def intentEvents (now : SafeInt) (o : Order) (i : StoredFillIntentV1) : List FederationEvent :=
  if i.auth.expiresAt.val + signedIntentRetentionS ≤ now.val then []
  else fillIntentEvent o i.verified ::
    (i.release.map fun r => releaseEvent o "intentDigest" i.intentDigest r.releaseSecret).toList

def terminalEvent (o : Order) : List FederationEvent :=
  match o.fill, o.cancel with
  | some f, _ => [fillEvent o f.verified f.selectedIntent.verified]
  | none, some c => [cancelEvent o c.verified]
  | none, none => []

def conflictEvent (o : Order) : TerminalConflictEvidence → FederationEvent
  | .fill digest body auth intent intentAuth =>
    fillEvent o ⟨digest, body, auth⟩ ⟨body.intentDigest, intent, intentAuth⟩
  | .cancel digest body auth => cancelEvent o ⟨digest, body, auth⟩

def orderReleaseEvent (o : Order) : List FederationEvent :=
  match o.releaseSecret, o.fill, o.releasedAt with
  | some secret, some f, some _ => [releaseEvent o "fillDigest" f.digest secret]
  | _, _, _ => []

/-- The events of one order: the signed order, its conflicting variants, its
proposals with their releases, its terminal, the terminal's conflicts, its release. -/
def snapshotOrder (now : SafeInt) (o : Order) : List FederationEvent :=
  match o.makerAuth with
  | none => []
  | some makerAuth =>
    orderEvent (signedOrderBody o) makerAuth ::
      (o.orderConflicts.map (fun c => orderEvent c.order.record c.auth) ++
        o.intents.flatMap (intentEvents now o) ++ terminalEvent o ++
        o.conflicts.map (conflictEvent o) ++ orderReleaseEvent o)

/-- The public portable orders, by id. -/
def snapshotOrders (orders : List Order) : List Order :=
  (orders.filter isPublicPortable).mergeSort fun a b => a.id.val.toList ≤ b.id.val.toList

/-- `sweeps` is `opts.sweep`, set unless a read path clears it. -/
def federationSnapshot (now : SafeInt) (sweeps : Bool := true) : StoreM (List FederationEvent) := do
  if sweeps then sweep now else pure ⟨⟩
  let s ← get
  pure ((snapshotOrders s.orders).flatMap (snapshotOrder now))

/-! ## Applying one event -/

section Apply

variable (E : Crypto) (now : SafeInt)

def releaseKey (payload : Record) : String :=
  if (payload.get "fillDigest").isSome then "fillDigest" else "intentDigest"

def applyFederationEvent (event : FederationEvent) (federationSource : String) (random : Random) :
    StoreM Unit := do
  let payload := event.payload
  if event.kind = .orderV2 then do
    check (exactPayload payload ["order", "auth"] "federated order event")
    let verified ← check (verifyOrderV1 E now true (payload.get "order") (payload.get "auth"))
    let _ ← importVerifiedOrder E now verified federationSource random
    pure ⟨⟩
  else do
    let orderId ← check (orThrow ((asString (payload.get "orderId")).bind (matching orderIdRe))
      (apiError 400 "federation event has an invalid order id"))
    match event.kind with
    | .orderV2 => pure ⟨⟩
    | .fillIntentV2 => do
      check (exactPayload payload ["orderId", "intent", "auth"] "federated fill intent event")
      let _ ← importFillIntent E now orderId.val (payload.get "intent") (payload.get "auth")
      pure ⟨⟩
    | .fillV2 => do
      check (exactPayload payload ["orderId", "fill", "auth", "intent",
        "intentAuth"] "federated fill event")
      let _ ← applyFill E now orderId.val (payload.get "fill") (payload.get "auth")
        (payload.get "intent")
        (payload.get "intentAuth") true none
      pure ⟨⟩
    | .cancelV2 => do
      check (exactPayload payload ["orderId", "cancel", "auth"] "federated cancel event")
      let _ ← applySignedCancel E now orderId.val (payload.get "cancel")
        (payload.get "auth") true none
      pure ⟨⟩
    | .releaseV2 => do
      check (exactPayload payload ["orderId", releaseKey payload,
        "releaseSecret"] "federated release event")
      let _ ← importRelease E now orderId.val
        (object [(releaseKey payload, payload.get (releaseKey payload)),
          ("releaseSecret", payload.get "releaseSecret")])
      pure ⟨⟩

/-! ## The orders file -/

/-- The text of the orders file, as the value that `JSON.parse` reads from it. -/
def writeSnapshot (s : Store) : Json := .arr (s.orders.map Order.toJson)

/-- The limits that `load` puts on the rows read so far, with the new row. -/
def assertLoadable (loaded : List Order) (order : Order) : Except Thrown Unit := do
  refuse (∃ existing ∈ loaded, (existing : Order).id = order.id)
    (.error ("order data file contains duplicate id " ++ order.id.val))
  refuse (order.hashlock ≠ none ∧ order.status ≠ .cancelled ∧
      ∃ existing ∈ loaded, (existing : Order).status ≠ .cancelled ∧
        existing.hashlock = order.hashlock)
    (.error ("order data file contains duplicate live hashlock " ++
      order.hashlock.elim "null" Subtype.val))
  if isPublicPortable order then do
    let rows := loaded ++ [order]
    refuse (maxPublicPortableOrders < (rows.filter isPublicPortable).length)
      (.error "order data file contains more than 64 portable public orders")
    if order.federationSourceHash.isSome then do
      let federated := rows.filter fun o => isPublicPortable o && o.federationSourceHash.isSome
      refuse (maxFederatedPublicPortableOrders < federated.length)
        (.error "order data file contains more than 48 federated portable public orders")
      refuse (maxPublicPortableOrdersPerFederationPeer <
          (federated.filter fun o => o.federationSourceHash = order.federationSourceHash).length)
        (.error "order data file contains more than 16 portable public orders from one federation source")
    else .ok ⟨⟩
  else .ok ⟨⟩

/-- Hydrate the rows one by one, after the ones that are loaded already. -/
def loadRows (loaded : List Order) : List Json → Except Thrown (List Order)
  | [] => .ok loaded
  | row :: rows => do
    let order ← hydratePersistedOrder E now row loaded.length
    assertLoadable loaded order
    loadRows (loaded ++ [order]) rows

/-- Loaded listings get one presence window. -/
def load (file : Json) : Except Thrown Store := do
  let rows ← orThrow (asArray file) (.error "order data file must contain an array")
  let orders ← loadRows E now [] rows
  pure { orders, seenAt := fun id => if orders.any fun o => o.id = id && o.status = .open then now.val else 0 }

end Apply

/-! ## The running store -/

/-- A call that reaches the store: a request of the HTTP layer or a peer's event. -/
inductive Call where
  | listOpen
  | get (id : String) (shareToken : Option Json)
  | create (body : Record) (makerIp : String)
  | createSigned (body : Record) (makerIp : String)
  | heartbeat (id : String) (body : Record)
  | submitFillIntent (id : String) (intent auth : Option Json) (takerIp : String)
    (shareToken : Option Json)
  | listFillIntents (id : String) (makerToken : Option Json)
  | fillOrder (id : String) (fill auth intent intentAuth makerToken : Option Json)
  | cancelSigned (id : String) (cancel auth makerToken : Option Json)
  | accept (id : String) (body : Record) (takerIp : String)
  | take (body : Record) (takerIp : String)
  | announceHashlock (id : String) (body : Record)
  | release (id : String) (body : Record)
  | cancel (id : String) (body : Record)
  | federationSnapshot (sweeps : Bool)
  | applyFederationEvent (event : FederationEvent) (federationSource : String)

/-- A call, the clock at which it runs, and the bytes it draws. -/
structure Step where
  now : SafeInt
  random : Random
  call : Call

section System

variable (E : Crypto)

def signedCreateKeys (visibility : Visibility) : List String :=
  if visibility = .priv then ["auth", "makerToken", "order", "shareToken"] else
    ["auth", "makerToken", "order"]

/-- `POST /api/orders/signed` -/
def createSigned (now : SafeInt) (body : Record) (makerIp : String) (random : Random) :
    StoreM Created := do
  let verified ← check (verifyOrderV1 E now false (body.get "order") (body.get "auth"))
  check (refuse (body.keys.isPerm (signedCreateKeys verified.order.visibility) = false)
    (apiError 400 "signed create request has unexpected fields"))
  createVerified E now verified (body.get "makerToken") (body.get "shareToken") makerIp random

/-- The state after an action, answered or thrown. -/
def after {α : Type} (m : StoreM α) (s : Store) : Store := stateOf (m s)

def call (now : SafeInt) (random : Random) : Call → Store → Store
  | .listOpen => after (listOpen now)
  | .get id shareToken => after (getOrder E now id shareToken)
  | .create body makerIp => after (create E now body makerIp random)
  | .createSigned body makerIp => after (createSigned E now body makerIp random)
  | .heartbeat id body => after (heartbeat E now id body)
  | .submitFillIntent id intent auth takerIp shareToken =>
    after (submitFillIntent E now id intent auth takerIp shareToken)
  | .listFillIntents id makerToken => after (listFillIntents E now id makerToken)
  | .fillOrder id fill auth intent intentAuth makerToken =>
    after (applyFill E now id fill auth intent intentAuth false makerToken)
  | .cancelSigned id cancel auth makerToken =>
    after (applySignedCancel E now id cancel auth false makerToken)
  | .accept id body takerIp => after (accept E now id body takerIp random)
  | .take body takerIp => after (take E now body takerIp random)
  | .announceHashlock id body => after (announceHashlock E now id body)
  | .release id body => after (release E now id body)
  | .cancel id body => after (cancel E now id body)
  | .federationSnapshot sweeps => after (federationSnapshot now sweeps)
  | .applyFederationEvent event source => after (applyFederationEvent E now event source random)

def step (s : Store) (i : Step) : Store := call E i.now i.random i.call s

end System

end QuantaSwap.Book
