import Mathlib.Data.List.Dedup
import QuantaSwap.Lib.Keyed
import QuantaSwap.Browser.OrderSigning
import QuantaSwap.Feed.Event

/-!
# The combined book of several mirrors

`aggregateMirrorOrders` of `frontend/src/lib/mirrorBook.ts`. Every mirror may be hostile: what it
sends is checked row by row, a snapshot with a bad row is dropped as a whole, and an order that its
maker has signed twice is shown in no variant.
-/

set_option autoImplicit false

namespace QuantaSwap.Browser

open Lib Lib.Js

def PRIMARY_ORDERBOOK_ID : String := "primary"

/-- `none` is a row that is not an object. -/
abbrev Row := Option OrderView

structure MirrorSnapshot where
  bookId : String
  orders : List Row
  deriving DecidableEq, Repr

structure MirrorAggregationOptions where
  now : Int
  verifyOrder : OrderView → Int → Bool
  /-- `none` when it throws. -/
  digestOrder : OrderView → Option String

/-- The options of a caller who gives none. -/
def MirrorAggregationOptions.standard (E : Book.Crypto) (now : Int) : MirrorAggregationOptions where
  now
  verifyOrder order now := verifyOrderV1Auth E order now false
  digestOrder := portableOrderDigest E

structure MirrorAggregationScan where
  orders : List OrderView
  quarantinedIds : List String
  invalidBookIds : List String
  deriving DecidableEq, Repr

/-- `digest` is what `verifiedDigests` holds for `order`. -/
structure SignedCandidate where
  order : OrderView
  digest : String
  bookId : String
  deriving DecidableEq, Repr

def localOrder (order : OrderView) (digest : Option String) (sources : List String) : OrderView :=
  { order with
    orderDigest := digest
    bookId := some (sources.head?.getD PRIMARY_ORDERBOOK_ID)
    sources := some sources }

def isLapsedSignedOrder (order : OrderView) (now : Int) : Bool :=
  match order.makerAuth with
  | some (some auth) => (safeInteger? auth.expiresAt).any (· ≤ now)
  | _ => false

/-! ## One snapshot -/

inductive RowCheck where
  | refused
  | passed
  | verified (digest : String)
  deriving DecidableEq, Repr

section

variable (options : MirrorAggregationOptions)

/-- One turn of the loop over the rows of a snapshot. -/
def checkRow (bookId : String) : Row → RowCheck
  | none => .refused
  | some order =>
    if order.status ≠ "open" ∨ order.visibility = some "private" then .refused
    else if order.makerAuth = none then
      if bookId ≠ PRIMARY_ORDERBOOK_ID then .refused else .passed
    else if isLapsedSignedOrder order options.now then .passed
    else if options.verifyOrder order options.now then
      match options.digestOrder order with
      | none => .refused
      | some digest => .verified digest
    else .refused

def isValidSnapshot (s : MirrorSnapshot) : Bool :=
  s.orders.all fun row => checkRow options s.bookId row ≠ .refused

def candidate (bookId : String) (row : Row) : Option SignedCandidate :=
  match row, checkRow options bookId row with
  | some order, .verified digest => some ⟨order, digest, bookId⟩
  | _, _ => none

/-- The signed rows of the valid snapshots, as the second loop meets them. -/
def candidates (validSnapshots : List MirrorSnapshot) : List SignedCandidate :=
  validSnapshots.flatMap fun s => s.orders.filterMap (candidate options s.bookId)

end

/-! ## Variants -/

/-- The candidates of one id by digest. -/
abbrev Variants := Keyed String (List SignedCandidate)

def Variants.add (variants : Variants) (c : SignedCandidate) : Variants :=
  variants.set c.digest ((variants.get c.digest).getD [] ++ [c])

/-- `signed`: the candidates by id and digest. -/
def signed : List SignedCandidate → Keyed String Variants :=
  Keyed.gather (fun c => c.order.id) fun variants c => Variants.add (variants.getD .empty) c

def quarantined (cs : List SignedCandidate) : List String :=
  ((signed cs).entries.filter fun e => e.2.entries.length ≠ 1).map Prod.fst

/-- The row of an id with one variant. -/
def signedRow (variants : Variants) : Option OrderView :=
  match variants.entries with
  | [(digest, representative :: rest)] =>
    some (localOrder representative.order (some digest)
      ((representative :: rest).map SignedCandidate.bookId).eraseDups)
  | _ => none

def signedRows (cs : List SignedCandidate) : List OrderView :=
  (signed cs).entries.filterMap fun e => signedRow e.2

/-- The row of an unsigned order of the primary book. -/
def unsignedRow (cs : List SignedCandidate) (row : Row) : Option OrderView :=
  match row with
  | none => none
  | some order =>
    if order.makerAuth ≠ none ∨ order.visibility = some "private" ∨
        (cs.any fun c => c.order.id = order.id) ∨ order.id ∈ quarantined cs then none
    else some (localOrder order none [PRIMARY_ORDERBOOK_ID])

def unsignedRows (cs : List SignedCandidate) (validSnapshots : List MirrorSnapshot) :
    List OrderView :=
  match validSnapshots.find? fun s => s.bookId = PRIMARY_ORDERBOOK_ID with
  | none => []
  | some primary => primary.orders.filterMap (unsignedRow cs)

/-- `sort()` -/
def sortIds (ids : List String) : List String :=
  ids.insertionSort fun a b => Feed.codeUnits a ≤ Feed.codeUnits b

section

variable (localeCompare : String → String → Int)

/-- The order of the rows on the page. -/
def comesFirst (left right : OrderView) : Bool :=
  let byAge := left.createdAt - right.createdAt
  let byId := localeCompare left.id right.id
  let byDigest := localeCompare (left.orderDigest.getD "") (right.orderDigest.getD "")
  decide ((if byAge ≠ 0 then byAge else if byId ≠ 0 then byId else byDigest) ≤ 0)

def aggregateMirrorOrders (snapshots : List MirrorSnapshot) (options : MirrorAggregationOptions) :
    MirrorAggregationScan :=
  let validSnapshots := snapshots.filter (isValidSnapshot options)
  let invalid := snapshots.filter fun s => !isValidSnapshot options s
  let cs := candidates options validSnapshots
  let combined := signedRows cs ++ unsignedRows cs validSnapshots
  { orders := combined.insertionSort fun left right => comesFirst localeCompare left right = true
    quarantinedIds := sortIds (quarantined cs)
    invalidBookIds := sortIds (invalid.map MirrorSnapshot.bookId).dedup }

end

end QuantaSwap.Browser
