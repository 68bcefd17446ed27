import Mathlib.Data.List.Sort
import QuantaSwap.Maker.Signer

/-!
# The maker's view of the order book

`OrderBookClient` of `marketmaker/src/orderbook.ts`: what of an answer of the book the maker goes
by. A row that is not of the expected shape at all is an error of the request; what is left is
compared with the maker's own statements.
-/

set_option autoImplicit false

namespace QuantaSwap.Maker.Daemon

/-- What a call ends with when it does not end well. -/
inductive Err
  | gone
  | unavailable
  | conflict
  | error (message : String)
  | poisoned
  | leaseLost
  deriving DecidableEq, Repr

inductive OrderStatus
  | open
  | accepted
  | locking
  | cancelled
  deriving DecidableEq, Repr

def OrderStatus.book : OrderStatus → BookStatus
  | .open => .open
  | .accepted => .accepted
  | .locking => .locking
  | .cancelled => .cancelled

structure OrderView (A B : Type) where
  id : String
  direction : Direction
  asset : AssetSymbol
  fromAmount : Nat
  toAmount : Nat
  makerEthAccount : A
  makerQrlAccount : A
  status : OrderStatus
  takerEthAccount : Option A
  takerQrlAccount : Option A
  hashlock : Option B
  initiatorTimeout : Option Int
  responderTimeout : Option Int
  released : Bool
  visibility : Visibility
  allowedTakerEth : Option A
  allowedTakerQrl : Option A
  prelocked : Bool
  makerAuth : Option (MakerOrderAuthV1 B)
  orderDigest : Option B
  fill : Option (FillV1Body A B)
  fillAuth : Option (ProtocolAuthV1 B)
  fillDigest : Option B
  selectedIntent : Option (SelectedFillIntentV1 A B)
  cancelProof : Option (CancelV1Body B)
  cancelAuth : Option (ProtocolAuthV1 B)
  cancelDigest : Option B
  equivocated : Bool
  conflictDigests : List B
  deriving DecidableEq, Repr

/-- The statement that ends an order, as far as the maker has signed one. -/
inductive Terminal (A B : Type)
  | fill (proof : SignedFillV1 A B) (intent : SelectedFillIntentV1 A B)
  | cancel (proof : SignedCancelV1 B)
  deriving DecidableEq, Repr

section

variable {A B : Type} [DecidableEq A] [DecidableEq B] (codec : Codec A B)

def parsePortableBase (row : OrderView A B) (expected : SignedOrderV1 A B) :
    Except Err (OrderView A B) :=
  if row.id ≠ codec.deriveOrderV1Id expected.order.makerQrlAccount expected.auth.nonce ∨
      row.direction ≠ expected.order.direction ∨ row.asset ≠ expected.order.asset ∨
      row.fromAmount ≠ expected.order.fromAmount ∨ row.toAmount ≠ expected.order.toAmount ∨
      row.makerEthAccount ≠ expected.order.makerEthAccount ∨
      row.makerQrlAccount ≠ expected.order.makerQrlAccount ∨
      row.visibility ≠ expected.order.visibility ∨
      row.allowedTakerEth ≠ expected.order.allowedTakerEth ∨
      row.allowedTakerQrl ≠ expected.order.allowedTakerQrl ∨
      row.makerAuth ≠ some expected.auth ∨
      row.orderDigest ≠ some (codec.computeOrderDigest expected.order expected.auth) then
    .error (.error "order response does not authenticate the expected OrderV1")
  else
    match expected.order.prelock with
    | none =>
      if row.prelocked then .error (.error "order response changed the signed prelock") else .ok row
    | some prelock =>
      if ¬ row.prelocked ∨ row.hashlock ≠ some prelock.hashlock ∨
          row.initiatorTimeout ≠ some prelock.initiatorTimeout then
        .error (.error "order response changed the signed prelock")
      else .ok row

def assertUnconflicted (row : OrderView A B) : Except Err Unit :=
  if row.equivocated ∨ (row.fill.isSome ∧ row.cancelProof.isSome) ∨ row.conflictDigests ≠ [] then
    .error (.error "order response contains terminal conflict evidence")
  else .ok ()

def authenticateOpenView (row : OrderView A B) (expected : SignedOrderV1 A B) :
    Except Err (OrderView A B) := do
  let view ← parsePortableBase codec row expected
  assertUnconflicted row
  if view.status ≠ .open ∨ view.takerEthAccount.isSome ∨ view.takerQrlAccount.isSome ∨
      (expected.order.prelock.isNone ∧ (view.hashlock.isSome ∨ view.initiatorTimeout.isSome)) ∨
      view.responderTimeout.isSome ∨ view.released ∨ row.fill.isSome ∨ row.fillAuth.isSome ∨
      row.fillDigest.isSome ∨ row.selectedIntent.isSome ∨ row.cancelProof.isSome ∨
      row.cancelAuth.isSome ∨ row.cancelDigest.isSome then
    throw (.error "order response is not the expected open OrderV1")
  return view

def authenticateFillView (row : OrderView A B) (expectedOrder : SignedOrderV1 A B)
    (expectedFill : SignedFillV1 A B) (expectedIntent : SelectedFillIntentV1 A B) :
    Except Err (OrderView A B) := do
  let view ← parsePortableBase codec row expectedOrder
  assertUnconflicted row
  let fillDigest := codec.computeFillDigest expectedFill.fill expectedOrder.auth expectedFill.auth
  if view.status ≠ .locking ∨ row.fill ≠ some expectedFill.fill ∨
      row.fillAuth ≠ some expectedFill.auth ∨ row.fillDigest ≠ some fillDigest ∨
      row.selectedIntent.map (·.intentDigest) ≠ some expectedIntent.intentDigest ∨
      row.selectedIntent.map (·.intent) ≠ some expectedIntent.intent ∨
      row.selectedIntent.map (·.auth) ≠ some expectedIntent.auth ∨
      view.takerEthAccount ≠ some expectedFill.fill.takerEthAccount ∨
      view.takerQrlAccount ≠ some expectedFill.fill.takerQrlAccount ∨
      view.hashlock ≠ some expectedFill.fill.hashlock ∨
      view.initiatorTimeout ≠ some expectedFill.fill.initiatorTimeout ∨
      view.responderTimeout ≠ some expectedFill.fill.responderTimeout ∨
      row.cancelProof.isSome ∨ row.cancelAuth.isSome ∨ row.cancelDigest.isSome then
    throw (.error "order response does not authenticate the expected FillV1")
  return view

def authenticateCancelView (row : OrderView A B) (expectedOrder : SignedOrderV1 A B)
    (expectedCancel : SignedCancelV1 B) : Except Err (OrderView A B) := do
  let view ← parsePortableBase codec row expectedOrder
  assertUnconflicted row
  let cancelDigest :=
    codec.computeCancelDigest expectedCancel.cancel expectedOrder.auth expectedCancel.auth
  if view.status ≠ .cancelled ∨ view.released ∨ row.cancelProof ≠ some expectedCancel.cancel ∨
      row.cancelAuth ≠ some expectedCancel.auth ∨ row.cancelDigest ≠ some cancelDigest ∨
      row.fill.isSome ∨ row.fillAuth.isSome ∨ row.fillDigest.isSome ∨ row.selectedIntent.isSome then
    throw (.error "order response does not authenticate the expected CancelV1")
  return view

/-- `getSigned`: a row that says it is open is taken for the open order, and any other only for the
statement at hand. -/
def authenticateSigned (row : OrderView A B) (order : SignedOrderV1 A B)
    (terminal : Option (Terminal A B)) : Except Err (OrderView A B) :=
  if row.status = .open then authenticateOpenView codec row order
  else
    match terminal with
    | some (.fill proof intent) => authenticateFillView codec row order proof intent
    | some (.cancel proof) => authenticateCancelView codec row order proof
    | none => authenticateOpenView codec row order

end

/-! ## Which proposal is taken -/

section

variable {A B : Type} [DecidableEq B]

/-- First-come priority: the signed issuance, clamped to when the book received it. -/
def intentPriority (intent : SelectedFillIntentV1 A B) : Int :=
  max intent.auth.issuedAt intent.receivedAt

/-- The order of the sort, which is stable; `le` is `localeCompare` of two digests. -/
def intentLE (le : B → B → Bool) (a b : SelectedFillIntentV1 A B) : Bool :=
  decide (intentPriority a < intentPriority b) ||
    (decide (intentPriority a = intentPriority b) &&
      (decide (a.auth.issuedAt < b.auth.issuedAt) ||
        (decide (a.auth.issuedAt = b.auth.issuedAt) && le a.intentDigest b.intentDigest)))

def earliestValidFillIntent (le : B → B → Bool) (intents : List (SelectedFillIntentV1 A B))
    (orderDigest : B) (now : Int) (verify : SelectedFillIntentV1 A B → Bool) :
    Option (SelectedFillIntentV1 A B) :=
  let valid := intents.filter fun candidate =>
    decide (candidate.intent.orderDigest = orderDigest) &&
      decide (candidate.auth.issuedAt ≤ now) && decide (now < candidate.auth.expiresAt) &&
      verify candidate
  (valid.insertionSort fun a b => intentLE le a b = true).head?

end

end QuantaSwap.Maker.Daemon
