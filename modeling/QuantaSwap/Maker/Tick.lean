import QuantaSwap.Maker.Advance

/-!
# The maker's daemon

`tick` of `marketmaker/src/index.ts`: one pass over each order that the state file holds at its
start, then new listings, then the parked credits. A daemon is this again and again, with crashes at
any time, after which the state file is read back.
-/

set_option autoImplicit false
set_option linter.unusedSectionVars false

open Lib Lib.Program QuantaSwap.Htlc QuantaSwap.Htlc.V3

namespace QuantaSwap.Maker.Daemon

def LOCAL_RETAINED_ORDER_BUDGET : Nat := 60

section

variable {A B : Type} [DecidableEq A] [DecidableEq B] [Zero A] [Zero B] (cfg : Config A B)

/-- An order whose pass fails is left to the next tick, unless no write can land any more. -/
def advanceAll : List (ManagedOrder A B) → Act A B Unit
  | [] => pure ()
  | m :: ms => do
    tryCatch (do
      let _ ← advance cfg m
      pure ()) fun e => if e = .poisoned ∨ e = .leaseLost then throw e else pure ()
    advanceAll ms

def listing (asset : AssetSymbol) (direction : Direction) (q : Quote) :
    CanonicalOrderV1Body A B where
  direction := direction
  asset := asset
  fromAmount := q.fromAmount
  toAmount := q.toAmount
  makerEthAccount := cfg.myAddress .eth
  makerQrlAccount := cfg.myAddress .qrl
  visibility := .pub
  allowedTakerEth := none
  allowedTakerQrl := none
  prelock := none

def pendingOrder (q : Quote) (signed : SignedOrderV1 A B) (createdAt : Int) : ManagedOrder A B where
  id := cfg.codec.deriveOrderV1Id signed.order.makerQrlAccount signed.auth.nonce
  token := some q.makerToken
  protocol := some
    { orderDigest := cfg.codec.computeOrderDigest signed.order signed.auth
      order := signed.order
      orderAuth := signed.auth
      fillAcknowledged := false
      releaseObserved := false
      selectedIntent := none
      fillProof := none
      cancelProof := none }
  direction := signed.order.direction
  asset := signed.order.asset
  level := q.level
  quotedMidMilli := some q.mid
  fromAmount := q.fromAmount
  toAmount := q.toAmount
  preimage := none
  hashlock := none
  initiatorTimeout := none
  responderTimeout := none
  announcedAt := none
  takerEthAccount := none
  takerQrlAccount := none
  lockSentAt := none
  claimSentAt := none
  sponsorSentAt := none
  refundSentAt := none
  withdrawSentAt := none
  pushSentAt := none
  withdrawAttempts := some 0
  pushAttempts := some 0
  withdrawFirstRejectedAt := none
  pushFirstRejectedAt := none
  createdAt := createdAt

/-- Post the next listing of a pair; `false` ends the refill. -/
def refillPair (asset : AssetSymbol) (direction : Direction) : Act A B Bool := do
  match ← demand (.quote asset direction) with
  | none => return true
  | some q =>
    let retained ← attempt .retainedAdmissionCount
    if LOCAL_RETAINED_ORDER_BUDGET ≤ retained then return false
    else
      let issuedAt ← nowS
      let signed ← attempt (.signOrder (listing cfg asset direction q) q.makerToken issuedAt
        (issuedAt + cfg.orderLifetimeS))
      let createdAt ← nowS
      attempt (.upsert (pendingOrder cfg q signed createdAt))
      let order ← publishSignedOrder cfg (pendingOrder cfg q signed createdAt)
      return order.isSome

def refillPairs : List (AssetSymbol × Direction) → Act A B Unit
  | [] => pure ()
  | (asset, direction) :: pairs => do
    if ← refillPair cfg asset direction then refillPairs pairs else pure ()

def refill : Act A B Unit := do
  if cfg.drain then pure ()
  else if ← demand .canAttempt then
    let _ ← attempt .all
    refillPairs cfg (cfg.assets.flatMap fun asset => [(asset, .ethToQrl), (asset, .qrlToEth)])
  else pure ()

def recheckStranded : List (StrandedCredit A B) → Act A B Unit
  | [] => pure ()
  | entry :: entries => do
    let balance ← demand (.creditOf entry.leg entry.token entry.account)
    if balance = some 0 then
      tryCatch (attempt (.clearStrandedCredit entry.key)) fun _ => pure ()
    else pure ()
    recheckStranded entries

def recheckStrandedCredits : Act A B Unit := do
  let parked ← attempt .strandedCredits
  recheckStranded parked

def tickOrders : Act A B Unit := do
  let orders ← attempt .all
  advanceAll cfg orders
  refill cfg
  recheckStrandedCredits

def tick : Program (Req A B) Unit := do
  let _ ← (tickOrders cfg).run
  return ()

/-- The orders of a file that a maker may start from: none, or unsigned ones of which nothing has
been published or sent. -/
structure Start (w : World A B) : Prop where
  memory : w.memory = w.disk.hydrate w.clock
  poisoned : w.poisoned = false
  legs : Legs.Reachable cfg.toTwoChains w.legs
  ids : (w.disk.orders.map (·.id)).Nodup
  issued : w.issued = w.disk.orders.map (·.id)
  untouched : ∀ m ∈ w.disk.orders, m.protocol = none ∧ m.preimage = none ∧ m.hashlock = none ∧
    m.lockSentAt = none ∧ m.claimSentAt = none
  nothing : w.secrets = [] ∧ w.disclosed = [] ∧ w.published = [] ∧ w.posted = [] ∧ w.sent = []
  fresh : w.tried = fun _ => none
  emptied : w.emptied = []

/-- What the daemon reaches from `w₀`: the rest of the tick that is running, if one is, and the
world. -/
def Reaches (w₀ : World A B) (p : Option (Program (Req A B) Unit)) (w : World A B) : Prop :=
  Relation.ReflTransGen (Turn (Env cfg) (Crash cfg) (operate cfg) (tick cfg)) (none, w₀) (p, w)

end

end QuantaSwap.Maker.Daemon
