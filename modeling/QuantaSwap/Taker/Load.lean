import QuantaSwap.Lib.Keyed
import QuantaSwap.Maker.Load

/-!
# Reading the taker's state file

`parseTakerSwapRecord` and the constructor of `TakerStateFile` in `marketmaker/src/taker-state.ts`,
with what they use of `taker-proofs.ts`. A session that only reports may leave bad records out; here
a record that is refused stops the start.
-/

set_option autoImplicit false

namespace QuantaSwap.Taker

open Lib Lib.Checks Lib.Text Maker Maker.Daemon

def MAX_RETAINED_INTENTS : Nat := 8

def MAX_HISTORY_ENTRIES : Nat := 50

namespace Persisted

def ETH_ADDRESS_RE : String → Bool := fixed ['0', 'x'] 40 isLowerHex

def QRL_ADDRESS_RE : String → Bool := fixed ['Q'] 128 isLowerHex

def ORDER_ID_RE : String → Bool := fixed [] 64 isLowerHex

/-- `/^0x[0-9a-f]{1,256}$/` -/
def isHash (s : String) : Bool := HEX_RE s && decide (s.toList.length ≤ 258)

def MIN_PRELOCK_RUNWAY_S : Int := 9000

inductive TakerOutcome
  | claimed
  | refunded
  | aborted
  | released
  | uneven
  deriving DecidableEq, Repr

structure TakerIntentRecord (B : Type) where
  intentDigest : B
  intent : FillIntentV1Body String B
  auth : ProtocolAuthV1 B
  /-- The walk-away secret that the proposal commits to. -/
  releaseSecret : B
  submittedAt : Option Int
  releasedAt : Option Int
  deriving DecidableEq

/-- A settled take, kept for the operator. -/
structure TakerHistoryEntry (B : Type) where
  orderId : String
  direction : Direction
  asset : AssetSymbol
  paid : Nat
  received : Nat
  outcome : TakerOutcome
  hashlock : Option B
  lockTx : Option String
  claimTx : Option String
  refundTx : Option String
  startedAt : Int
  settledAt : Int
  deriving DecidableEq

structure TakerSwapRecord (D B : Type) where
  orderId : String
  deployment : D
  orderDigest : B
  order : CanonicalOrderV1Body String B
  orderAuth : MakerOrderAuthV1 B
  asset : AssetSymbol
  direction : Direction
  takerEthAccount : String
  takerQrlAccount : String
  /-- Oldest first. -/
  intents : List (TakerIntentRecord B)
  selectedIntentDigest : Option B
  fill : Option (SignedFillV1 String B)
  fillDigest : Option B
  fillAcknowledged : Bool
  releaseObserved : Bool
  approveSentAt : Option Int
  lockSentAt : Option Int
  claimSentAt : Option Int
  refundSentAt : Option Int
  withdrawSentAt : Option Int
  lockTx : Option String
  claimTx : Option String
  refundTx : Option String
  withdrawTx : Option String
  outcome : Option TakerOutcome
  createdAt : Int
  updatedAt : Int
  deriving DecidableEq

/-- What the parser hashes and verifies with. -/
structure TakerCodec (B : Type) extends Codec String B where
  computeReleaseCommitment : B → B → B → B

section

variable {D B : Type} [DecidableEq B] [Zero B] (codec : TakerCodec B)

/-! ## The signed parts -/

def uint (n : Int) (field : String) : Except String Unit :=
  refuse (¬ safeUint n) (field ++ " is malformed")

def nullableUint (n : Option Int) (field : String) : Except String Unit :=
  refuse (¬ n.all safeUint) (field ++ " is malformed")

/-- A transaction hash is reporting data, so its width is chain specific. -/
def nullableHash (hash : Option String) (field : String) : Except String Unit :=
  refuse (¬ hash.all isHash) (field ++ " is malformed")

def parseProtocolAuth (auth : ProtocolAuthV1 B) (field : String) : Except String Unit := do
  refuse (auth.scheme ≠ SCHEME) (field ++ ".scheme is malformed")
  uint auth.issuedAt (field ++ ".issuedAt")
  uint auth.expiresAt (field ++ ".expiresAt")
  refuse (¬ HEX_RE auth.signature) (field ++ ".signature is malformed")
  refuse (¬ HEX_RE auth.publicKey) (field ++ ".publicKey is malformed")
  refuse (¬ DESCRIPTOR_RE auth.descriptor) (field ++ ".descriptor is malformed")

def parseMakerOrderAuth (auth : MakerOrderAuthV1 B) (field : String) : Except String Unit :=
  parseProtocolAuth auth.toProtocolAuthV1 field

def parseAccounts (eth qrl ethField qrlField : String) : Except String Unit := do
  refuse (¬ ETH_ADDRESS_RE eth) (ethField ++ " is malformed")
  refuse (¬ QRL_ADDRESS_RE qrl) (qrlField ++ " is malformed")

def parseFillIntentBody (body : FillIntentV1Body String B) (field : String) : Except String Unit :=
  parseAccounts body.takerEthAccount body.takerQrlAccount (field ++ ".takerEthAccount")
    (field ++ ".takerQrlAccount")

def parseFillBody (body : FillV1Body String B) (field : String) : Except String Unit := do
  parseAccounts body.takerEthAccount body.takerQrlAccount (field ++ ".takerEthAccount")
    (field ++ ".takerQrlAccount")
  uint body.initiatorTimeout (field ++ ".initiatorTimeout")
  uint body.responderTimeout (field ++ ".responderTimeout")

def parseCanonicalOrder (body : CanonicalOrderV1Body String B) (field : String) :
    Except String Unit := do
  refuse (body.visibility ≠ .pub) (field ++ ".visibility must be public for a headless taker")
  parseHeld body.prelock fun prelock =>
    uint prelock.initiatorTimeout (field ++ ".prelock.initiatorTimeout")
  refuse (body.allowedTakerEth.isSome ∨ body.allowedTakerQrl.isSome)
    (field ++ " has unsupported fields")
  refuse (AMOUNT_LIMIT ≤ body.fromAmount) (field ++ ".fromAmount is malformed")
  refuse (AMOUNT_LIMIT ≤ body.toAmount) (field ++ ".toAmount is malformed")
  parseAccounts body.makerEthAccount body.makerQrlAccount (field ++ ".makerEthAccount")
    (field ++ ".makerQrlAccount")

def parseIntentRecord (record : TakerIntentRecord B) (field : String) : Except String Unit := do
  parseFillIntentBody record.intent (field ++ ".intent")
  parseProtocolAuth record.auth (field ++ ".auth")
  -- thrown by the payload that the digest is of
  refuse (record.auth.expiresAt ≤ record.auth.issuedAt) "intent expiry must follow issuance"
  refuse (record.intentDigest ≠ codec.computeFillIntentDigest record.intent record.auth)
    (field ++ ".intentDigest does not follow from its proposal")
  nullableUint record.submittedAt (field ++ ".submittedAt")
  nullableUint record.releasedAt (field ++ ".releasedAt")

/-- A proposal of this taker's own; one that a maker selected may have expired. -/
def verifyOwnIntent (intent : FillIntentV1Body String B) (auth : ProtocolAuthV1 B) (orderDigest : B)
    (orderAuth : MakerOrderAuthV1 B) (now : Int) (allowExpired : Bool) : Bool :=
  decide (intent.orderDigest = orderDigest) && decide (auth.issuedAt < auth.expiresAt) &&
    decide (auth.expiresAt - auth.issuedAt ≤ MAX_FILL_INTENT_LIFETIME_S) &&
    decide (auth.issuedAt ≤ now + MAX_CLOCK_SKEW_S) &&
    (allowExpired || decide (now < auth.expiresAt)) &&
    decide (orderAuth.issuedAt ≤ auth.issuedAt) && decide (auth.expiresAt ≤ orderAuth.expiresAt) &&
    codec.verifyIntent intent auth

def fillBindingIsValid (proof : SignedFillV1 String B) (orderAuth : MakerOrderAuthV1 B)
    (orderDigest : B) (selected : TakerIntentRecord B) (prelock : Option (Prelock B)) : Bool :=
  let fill := proof.fill
  let auth := proof.auth
  let responseWindow := auth.expiresAt - auth.issuedAt
  let initiatorWindow := fill.initiatorTimeout - auth.issuedAt
  let responderWindow := fill.responderTimeout - auth.issuedAt
  decide (fill.hashlock ≠ 0) && decide (fill.orderDigest = orderDigest) &&
    decide (fill.intentDigest = selected.intentDigest) &&
    decide (fill.takerEthAccount = selected.intent.takerEthAccount) &&
    decide (fill.takerQrlAccount = selected.intent.takerQrlAccount) &&
    decide (fill.releaseCommitment = selected.intent.releaseCommitment) &&
    decide (MIN_FILL_RESPONSE_S ≤ responseWindow) &&
    decide (responseWindow ≤ MAX_FILL_RESPONSE_S) &&
    decide (auth.expiresAt ≤ orderAuth.expiresAt) &&
    decide (selected.auth.issuedAt ≤ auth.issuedAt) &&
    decide (auth.issuedAt < selected.auth.expiresAt) && decide (0 < responderWindow) &&
    decide (responderWindow ≤ MAX_RESPONDER_WINDOW_S) &&
    decide (MIN_RESPONDER_RUNWAY_AFTER_RESPONSE_S < fill.responderTimeout - auth.expiresAt) &&
    decide (responderWindow ≤ initiatorWindow) && decide (responderWindow ≤ initiatorWindow / 2) &&
    (prelock.isSome || decide (initiatorWindow ≤ MAX_INITIATOR_WINDOW_S)) &&
    prelock.all fun prelock =>
      decide (fill.hashlock = prelock.hashlock) &&
        decide (fill.initiatorTimeout = prelock.initiatorTimeout) &&
        decide (MIN_PRELOCK_RUNWAY_S ≤ initiatorWindow)

/-! ## The record of one take -/

variable (record : TakerSwapRecord D B)

/-- `verifyMakerOrder` of the row that the record was made from, at its own issue and expired or
not. -/
def verifyMakerOrder : Bool :=
  let order := record.order
  let auth := record.orderAuth
  decide (auth.issuedAt < auth.expiresAt) &&
    decide (auth.expiresAt - auth.issuedAt ≤ ORDER_LIFETIME_S) &&
    decide (auth.makerTokenCommitment ≠ 0) && decide (order.visibility = .pub) &&
    decide (auth.shareTokenCommitment = 0) &&
    decide (record.orderId = codec.deriveOrderV1Id order.makerQrlAccount auth.nonce) &&
    (order.prelock.all fun prelock =>
      decide (MIN_PRELOCK_LISTING_WINDOW_S ≤ prelock.initiatorTimeout - auth.issuedAt) &&
        decide (prelock.initiatorTimeout - auth.issuedAt ≤ MAX_PRELOCK_LISTING_WINDOW_S) &&
        decide (auth.expiresAt ≤ prelock.initiatorTimeout)) &&
    decide (record.orderDigest = codec.computeOrderDigest order auth) &&
    codec.verifyOrder order.makerQrlAccount order auth &&
    decide (order.fromAmount ≠ 0) && decide (order.toAmount ≠ 0)

/-- The proposals one after the other, each under its place in the record. -/
def parseIntents (field : String) : Except String Unit :=
  record.intents.zipIdx.forM fun (entry, index) =>
    parseIntentRecord codec entry (field ++ ".intents[" ++ toString index ++ "]")

def parseFill (field : String) (proof : SignedFillV1 String B) : Except String Unit := do
  let selected ← orThrow
    (record.intents.find? fun entry => some entry.intentDigest = record.selectedIntentDigest)
    (field ++ ".fill names no retained proposal")
  refuse (¬ fillBindingIsValid proof record.orderAuth record.orderDigest selected
        record.order.prelock ∨
      ¬ codec.verifyFill record.order.makerQrlAccount proof.fill record.orderAuth proof.auth)
    (field ++ ".fill does not authenticate the selected proposal")
  refuse (record.fillDigest.any fun digest =>
      digest ≠ codec.computeFillDigest proof.fill record.orderAuth proof.auth)
    (field ++ ".fillDigest does not follow from its fill")

/-- Parse and cryptographically re-verify one persisted take. -/
def parseTakerSwapRecord (field : String) : Except String Unit := do
  parseCanonicalOrder record.order (field ++ ".order")
  parseMakerOrderAuth record.orderAuth (field ++ ".orderAuth")
  refuse (record.orderDigest ≠ codec.computeOrderDigest record.order record.orderAuth)
    (field ++ ".orderDigest does not follow from its order")
  refuse (¬ ORDER_ID_RE record.orderId) (field ++ ".orderId is malformed")
  refuse (record.orderId ≠
      codec.deriveOrderV1Id record.order.makerQrlAccount record.orderAuth.nonce)
    (field ++ ".orderId does not follow from its order")
  refuse (MAX_RETAINED_INTENTS < record.intents.length) (field ++ ".intents is malformed")
  parseIntents codec record field
  refuse (record.intents.any fun entry => codec.computeReleaseCommitment record.orderDigest
      entry.auth.nonce entry.releaseSecret ≠ entry.intent.releaseCommitment)
    (field ++ ".intents holds a release secret that does not open its own commitment")
  refuse (record.intents.any fun entry => ¬ verifyOwnIntent codec entry.intent entry.auth
      record.orderDigest record.orderAuth entry.auth.issuedAt true)
    (field ++ ".intents holds a proposal that does not verify")
  refuse (record.selectedIntentDigest.any fun digest =>
      ¬ record.intents.any fun entry => entry.intentDigest = digest)
    (field ++ ".selectedIntentDigest names no retained proposal")
  parseHeld record.fill fun proof => do
    parseFillBody proof.fill (field ++ ".fill.fill")
    parseProtocolAuth proof.auth (field ++ ".fill.auth")
    refuse (proof.fill.orderDigest ≠ record.orderDigest) (field ++ ".fill belongs to another order")
    refuse record.selectedIntentDigest.isNone (field ++ ".fill has no selected proposal")
  parseAccounts record.takerEthAccount record.takerQrlAccount (field ++ ".takerEthAccount")
    (field ++ ".takerQrlAccount")
  refuse (record.intents.any fun entry => entry.intent.takerEthAccount ≠ record.takerEthAccount ∨
      entry.intent.takerQrlAccount ≠ record.takerQrlAccount)
    (field ++ ".intents holds a proposal for other accounts")
  refuse (record.fillAcknowledged ∧ record.fill.isNone)
    (field ++ ".fillAcknowledged has no FillV2 behind it")
  parseHeld record.fill (parseFill codec record field)
  refuse (record.asset ≠ record.order.asset) (field ++ ".asset is malformed")
  refuse (record.direction ≠ record.order.direction) (field ++ ".direction is malformed")
  nullableUint record.approveSentAt (field ++ ".approveSentAt")
  nullableUint record.lockSentAt (field ++ ".lockSentAt")
  nullableUint record.claimSentAt (field ++ ".claimSentAt")
  nullableUint record.refundSentAt (field ++ ".refundSentAt")
  nullableUint record.withdrawSentAt (field ++ ".withdrawSentAt")
  nullableHash record.lockTx (field ++ ".lockTx")
  nullableHash record.claimTx (field ++ ".claimTx")
  nullableHash record.refundTx (field ++ ".refundTx")
  nullableHash record.withdrawTx (field ++ ".withdrawTx")
  uint record.createdAt (field ++ ".createdAt")
  uint record.updatedAt (field ++ ".updatedAt")

/-- An entry of the history that is kept; one that cannot be read is dropped. -/
def parseHistoryEntry (entry : TakerHistoryEntry B) : Bool :=
  ORDER_ID_RE entry.orderId && decide (entry.paid < AMOUNT_LIMIT) &&
    decide (entry.received < AMOUNT_LIMIT) && entry.lockTx.all isHash && entry.claimTx.all isHash &&
    entry.refundTx.all isHash && safeUint entry.startedAt && safeUint entry.settledAt

/-! ## The file -/

/-- The accounts a state file's records must belong to. -/
structure TakerIdentity where
  ethAccount : String
  qrlAccount : String

/-- What the instance was made with. -/
structure TakerFileOptions (D B : Type) extends TakerCodec B where
  deployment : D
  sameDeployment : D → D → Bool
  identity : Option TakerIdentity

variable (o : TakerFileOptions D B)

def TakerFileOptions.assertIdentity : Bool :=
  match o.identity with
  | none => true
  | some identity =>
    record.takerEthAccount == Text.toLowerCase identity.ethAccount &&
      record.takerQrlAccount == identity.qrlAccount

structure TakerStateFile (D B : Type) where
  swaps : Keyed String (TakerSwapRecord D B)
  settled : List (TakerHistoryEntry B)

structure TakerStateEnvelope (D B : Type) where
  swaps : List (TakerSwapRecord D B)
  history : List (TakerHistoryEntry B)

namespace TakerStateFile

def fresh : TakerStateFile D B := ⟨.empty, []⟩

/-- The last entries of the history that are kept. -/
def recent {E : Type} (entries : List E) : List E :=
  entries.drop (entries.length - MAX_HISTORY_ENTRIES)

/-- What `persist` writes. -/
def envelope (f : TakerStateFile D B) : TakerStateEnvelope D B :=
  ⟨f.swaps.entries.map Prod.snd, f.settled⟩

end TakerStateFile

/-- A record that a session which can write starts on. -/
def parseSwap (index : Nat) : Except String Unit := do
  parseTakerSwapRecord o.toTakerCodec record ("swap " ++ toString index)
  refuse (¬ o.sameDeployment record.deployment o.deployment)
    ("swap " ++ record.orderId ++ " belongs to another deployment")
  refuse (¬ verifyMakerOrder o.toTakerCodec record)
    ("swap " ++ record.orderId ++ " holds an order proof that no longer verifies")
  refuse (¬ o.assertIdentity record)
    ("swap " ++ record.orderId ++ " belongs to other taker accounts, so the keys this process " ++
      "loaded must not drive it")

/-- The constructor on a file. -/
def TakerStateEnvelope.parse (rows : TakerStateEnvelope D B) :
    Except String (TakerStateFile D B) := do
  rows.swaps.zipIdx.forM fun (record, index) => parseSwap record o index
  return ⟨rows.swaps.foldl (fun swaps record => swaps.set record.orderId record) .empty,
    TakerStateFile.recent (rows.history.filter parseHistoryEntry)⟩

end

/-! ## What is read -/

section

variable {D B : Type} [DecidableEq B] [Zero B] {o : TakerFileOptions D B}
  {record : TakerSwapRecord D B}

/-- The constructor reads the record. -/
def SwapRead (o : TakerFileOptions D B) (record : TakerSwapRecord D B) : Prop :=
  parseSwap record o 0 = .ok ()

theorem parseSwap_index (index : Nat) : parseSwap record o index = .ok () ↔ SwapRead o record := by
  unfold SwapRead
  simp only [parseSwap, parseTakerSwapRecord, parseIntents, parseFill, parseIntentRecord,
    parseCanonicalOrder, parseMakerOrderAuth, parseProtocolAuth, parseFillIntentBody, parseFillBody,
    parseAccounts, uint, nullableUint, nullableHash, bind_eq_ok, refuse_eq_ok, parseHeld_eq_ok,
    orThrow_eq_ok, forM_eq_ok]

end

end Persisted

end QuantaSwap.Taker
