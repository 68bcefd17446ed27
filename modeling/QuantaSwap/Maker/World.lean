import QuantaSwap.Maker.State
import QuantaSwap.Maker.BookClient
import QuantaSwap.Lib.Program
import QuantaSwap.Taker.Collect

/-!
# What the maker's daemon asks its surroundings

The requests of `marketmaker/src/index.ts`: the clock and randomness, the signer, the state file,
the order book, and the two chains. The book answers what it likes. The chains are the two HTLCv3
contracts, called by anyone; a read of them may fail, and otherwise tells the truth.
-/

set_option autoImplicit false
set_option linter.unusedSectionVars false

open Lib Lib.Program QuantaSwap.Htlc QuantaSwap.Htlc.V3

namespace QuantaSwap.Maker.Daemon

/-! ## Configuration -/

structure Config (A B : Type) extends TwoChains A A B where
  codec : Codec A B
  key : Signer A
  /-- `localeCompare` of two digests. -/
  le : B → B → Bool
  myAddress : LegKey → A
  tokenAddress : AssetSymbol → Option A
  approvalRace : AssetSymbol → Bool
  ethHtlc : A
  drain : Bool
  sponsorClaims : Bool
  initiatorWindowS : Int
  responderWindowS : Int
  orderLifetimeS : Int
  resendAfterS : Int
  claimSafetyS : Int
  lockGraceS : Int
  txTimeoutMs : Int
  repriceThresholdBps : Nat
  assets : List AssetSymbol
  /-- What the system clock may go to. -/
  ticks : Int → Int → Prop

namespace Config

variable {A B : Type} (cfg : Config A B)

/-- The address that a leg escrows for this asset; the QRL leg is native. -/
def legToken [Zero A] (leg : LegKey) (asset : AssetSymbol) : A :=
  match leg with
  | .eth => (cfg.tokenAddress asset).getD 0
  | .qrl => 0

/-- `Math.ceil(txTimeoutMs / 1000) + 60` -/
def sponsorMarginS : Int := (cfg.txTimeoutMs + 999) / 1000 + 60

end Config

/-! ## Requests -/

/-- Why an order is dropped. -/
inductive Retire
  | quoteExpired
  | expired
  | cancelled
  | drained
  | repriced
  | nearExpiry
  | finish
  | abort
  deriving DecidableEq, Repr

/-- A transaction of the maker's. -/
inductive Tx (A B : Type)
  | htlc (call : Call A B)
  | approve (token spender : A) (amount : Nat)
  deriving DecidableEq, Repr

structure SendError where
  /-- `isContractRejection` -/
  rejected : Bool
  message : String
  deriving DecidableEq, Repr

/-- The reads of one pass. -/
structure Query (A B : Type) where
  hashlock : B
  iLeg : LegKey
  rLeg : LegKey
  iToken : A
  rToken : A
  iAccount : A
  rAccount : A
  takerOnInitiatorLeg : Option A
  deriving DecidableEq, Repr

structure Reads (A B : Type) where
  iState : Option (LegState A B)
  rState : Option (LegState A B)
  rConfirmed : Option (LegState A B)
  ourResponderCredit : Option Nat
  ourInitiatorCredit : Option Nat
  takerCredit : Option Nat
  deriving DecidableEq, Repr

/-- A statement that ends an order, on its way to a book. -/
inductive Statement (A B : Type)
  | fill (proof : SignedFillV1 A B) (intent : FillIntentV1Body A B) (intentAuth : ProtocolAuthV1 B)
  | cancel (proof : SignedCancelV1 B)
  deriving DecidableEq, Repr

/-- A rung of the price ladder that is to be posted, under a new capability. -/
structure Quote where
  level : Nat
  mid : Nat
  fromAmount : Nat
  toAmount : Nat
  makerToken : String
  deriving DecidableEq, Repr

inductive Req (A B : Type) : Type → Type
  | now : Req A B Int
  | mid (asset : AssetSymbol) : Req A B (Option Nat)
  | canAttempt : Req A B Bool
  | newSecret (id : String) : Req A B B
  -- the signer
  | signOrder (order : CanonicalOrderV1Body A B) (makerToken : String) (issuedAt expiresAt : Int) :
    Req A B (Except Err (SignedOrderV1 A B))
  | signFill (fill : FillV1Body A B) (order : SignedOrderV1 A B)
    (selected : SelectedFillIntentV1 A B) (issuedAt respondBy : Int) :
    Req A B (Except Err (SignedFillV1 A B))
  | signCancel (id : String) (cancel : CancelV1Body B) (order : MakerOrderAuthV1 B)
    (expiresAt : Int) : Req A B (Except Err (SignedCancelV1 B))
  -- the state file
  | all : Req A B (Except Err (List (ManagedOrder A B)))
  | upsert (m : ManagedOrder A B) : Req A B (Except Err Unit)
  | delete (id : String) (why : Retire) : Req A B (Except Err Unit)
  | strandedCredits : Req A B (Except Err (List (StrandedCredit A B)))
  | recordStrandedCredit (e : StrandedCredit A B) : Req A B (Except Err Unit)
  | clearStrandedCredit (key : LegKey × A × A) : Req A B (Except Err Unit)
  | retainedAdmissionCount : Req A B (Except Err Nat)
  -- the order book
  | get (id : String) : Req A B (Except Err (OrderView A B))
  | createSigned (order : SignedOrderV1 A B) (makerToken : String) :
    Req A B (Except Err (OrderView A B × String))
  | intents (id : String) : Req A B (Except Err (List (SelectedFillIntentV1 A B)))
  | post (id : String) (statement : Statement A B) : Req A B (Except Err (OrderView A B))
  | announceHashlock (id token : String) (hashlock : B) (initiatorTimeout responderTimeout : Int) :
    Req A B (Except Err (OrderView A B))
  | cancel (id token : String) : Req A B (Except Err (OrderView A B))
  | heartbeat (id token : String) : Req A B Unit
  -- the chains
  | observe (id : String) (query : Query A B) : Req A B (Reads A B)
  | allowance (token : A) : Req A B (Except Err Nat)
  | creditOf (leg : LegKey) (token account : A) : Req A B (Option Nat)
  | preflight (leg : LegKey) (call : Call A B) (hashlock : B) (marginS : Int) :
    Req A B (Except Err Unit)
  | send (id : String) (leg : LegKey) (tx : Tx A B) (value : Nat) : Req A B (Except SendError Unit)
  /-- What to post for a pair, if anything, as prices, inventory and counts have it. -/
  | quote (asset : AssetSymbol) (direction : Direction) : Req A B (Option Quote)

/-! ## The surroundings -/

/-- The last attempt to withdraw a credit, where it failed. One whose pass was cut short is not
there: by the end of the process, by a write that failed, or by an entry for the ledger that a
failed write had left in memory only. -/
structure Withdrawal where
  leg : LegKey
  sentAt : Int
  /-- The pass that made it may still be running. -/
  current : Bool
  deriving DecidableEq, Repr

/-- What records are made of: a rung to post, a proposal that the book offered, and the record that
a cancellation was signed for. -/
inductive Heard (A B : Type)
  | quote (q : Quote)
  | proposal (s : SelectedFillIntentV1 A B)
  | cancelled (m : ManagedOrder A B)

/-- The state file in memory and on disk, and the chains. What follows `legs` is history. -/
structure World (A B : Type) where
  clock : Int
  memory : StateFile A B
  disk : StateFile A B
  poisoned : Bool
  legs : Legs A A B
  /-- The ids of all orders there have been. -/
  issued : List String
  secrets : List (String × B)
  /-- Hashlocks and preimages that have left the process. -/
  disclosed : List B
  published : List B
  posted : List (String × Statement A B)
  sent : List (String × LegKey × Tx A B × Nat)
  /-- The credits of the responder and the initiator leg as of the last read of an order. -/
  shown : String → Nat × Nat
  tried : String → Option Withdrawal
  /-- The ledgers that a read has found empty since a credit of theirs was last put on record. -/
  emptied : List (LegKey × A × A)
  heard : List (Heard A B)

section

variable {A B : Type} [DecidableEq A] [DecidableEq B] [Zero A] [Zero B]

namespace World

variable (w : World A B)

def leg (l : LegKey) : W A B :=
  match l with
  | .eth => w.legs.leg1
  | .qrl => w.legs.leg2

def swap (l : LegKey) (hashlock : B) : LegState A B := (w.leg l).storage.swaps hashlock

/-- A pass begins: the attempts of earlier passes are over. -/
def settled : World A B :=
  { w with tried := fun id => (w.tried id).map fun t => { t with current := false } }

/-- What the pass at hand attempted is not followed up. -/
def interrupted : World A B := { w with tried := fun id => (w.tried id).filter fun t => !t.current }

def hear (heard : List (Heard A B)) : World A B := { w with heard := heard ++ w.heard }

/-- The file on disk holds a credit of the ledger, or a read has found the ledger empty since it
did. -/
def OnRecord (key : LegKey × A × A) : Prop :=
  key ∈ w.disk.stranded.map StrandedCredit.key ∨ key ∈ w.emptied

/-- A credit of the ledger has been put on record. -/
def noted (key : LegKey × A × A) : World A B :=
  { w with emptied := w.emptied.filter fun k => k ≠ key }

def balanceRead (key : LegKey × A × A) (balance : Option Nat) : World A B :=
  if balance = some 0 then { w with emptied := key :: w.emptied } else w

end World

/-- The hashlock that a transaction of the maker's names. -/
def Tx.hashlock : Tx A B → Option B
  | .htlc (.lockNative h _ _) | .htlc (.lockToken h _ _ _ _) | .htlc (.claim h _)
  | .htlc (.refund h) => some h
  | _ => none

def Tx.preimage : Tx A B → Option B
  | .htlc (.claim _ p) => some p
  | _ => none

def Tx.withdraws : Tx A B → Bool
  | .htlc (.withdrawAll _ _) => true
  | _ => false

def Statement.hashlock : Statement A B → Option B
  | .fill proof _ _ => some proof.fill.hashlock
  | .cancel _ => none

variable (cfg : Config A B)

/-- What anyone may send to a contract: only the maker sends from its account, and nobody knows a
secret of the maker's, or its hashlock, before it has left the process. -/
structure Outsider (w : World A B) (l : LegKey) (sender : A) (call : Call A B) (value : Nat) :
    Prop where
  own : sender = cfg.myAddress l → ∃ id, (id, l, .htlc call, value) ∈ w.sent
  locks : ∀ args, lockArgs value call = some args →
    (∃ id p, (id, p) ∈ w.secrets ∧ cfg.sha256 p = args.1) → args.1 ∈ w.disclosed
  claims : ∀ k p, call = .claim k p → cfg.sha256 p = k →
    ∀ id p', (id, p') ∈ w.secrets → cfg.sha256 p' = k → p' ∈ w.published

def Admissible (w : World A B) : LegInput cfg.toTwoChains → Prop
  | .call1 m _ _ => Outsider cfg w .eth m.sender m.call m.value
  | .call2 m _ _ => Outsider cfg w .qrl m.sender m.call m.value
  | _ => True

/-- Time passes on the chains, or somebody calls a contract. -/
def Env (w w' : World A B) : Prop :=
  ∃ i, Admissible cfg w i ∧ w' = { w with legs := Legs.step cfg.toTwoChains w.legs i }

/-- `v` is a state on the way from `w` to `w'`. -/
def Between (w v w' : World A B) : Prop :=
  Relation.ReflTransGen (Env cfg) w v ∧ Relation.ReflTransGen (Env cfg) v w'

/-- Reads that are made at the same time, each somewhere between `w` and `w'`. A failed read is
`none`. -/
structure Observed (q : Query A B) (w w' : World A B) (shown : Nat × Nat) (r : Reads A B) :
    Prop where
  iState : ∀ s, r.iState = some s → ∃ v, Between cfg w v w' ∧ s = v.swap q.iLeg q.hashlock
  rState : ∀ s, r.rState = some s → ∃ v, Between cfg w v w' ∧ s = v.swap q.rLeg q.hashlock
  /-- A read at depth shows an earlier state of the chain. -/
  rConfirmed : ∀ s, r.rConfirmed = some s → ∃ v old is, Between cfg w v w' ∧
    Legs.Reachable cfg.toTwoChains old ∧ Lib.Run.run (Legs.step cfg.toTwoChains) old is = v.legs ∧
    s = World.swap { v with legs := old } q.rLeg q.hashlock
  ourResponderCredit : ∃ v, Between cfg w v w' ∧
    shown.1 = Taker.creditOf q.rToken q.rAccount q.hashlock (v.leg q.rLeg)
  ourInitiatorCredit : ∃ v, Between cfg w v w' ∧
    shown.2 = Taker.creditOf q.iToken q.iAccount q.hashlock (v.leg q.iLeg)
  truthful : (∀ n, r.ourResponderCredit = some n → n = shown.1) ∧
    ∀ n, r.ourInitiatorCredit = some n → n = shown.2
  takerCredit : ∀ n, r.takerCredit = some n → ∃ v a, Between cfg w v w' ∧
    q.takerOnInitiatorLeg = some a ∧ n = Taker.creditOf q.iToken a q.hashlock (v.leg q.iLeg)

/-! ## What a request does -/

/-- A write fails before anything is renamed. -/
def Err.ofWrite (e : Err) : Prop := e = .leaseLost ∨ ∃ message, e = .error message

def Err.ofBook (e : Err) : Prop :=
  e = .gone ∨ e = .unavailable ∨ e = .conflict ∨ ∃ message, e = .error message

/-- `persist`, of the maps `f`; a write that fails leaves `undone` in memory. After the rename the
new file is in place, but until the directory is synced a crash may bring back the old one. -/
inductive Persisted (w : World A B) (f undone : StateFile A B) : Except Err Unit → World A B → Prop
  | written : Persisted w f undone (.ok ())
      { w with memory := f, disk := f.envelope w.clock }
  | failed {e : Err} (he : e.ofWrite) :
    Persisted w f undone (.error e) { w.interrupted with memory := undone }
  | unsynced : Persisted w f undone (.error .poisoned)
      { w.interrupted with memory := f, poisoned := true }
  | landed : Persisted w f undone (.error .poisoned)
      { w.interrupted with memory := f, disk := f.envelope w.clock, poisoned := true }

/-- A write, unless an earlier one has poisoned the file. -/
inductive Write (w : World A B) (f undone : StateFile A B) : Except Err Unit → World A B → Prop
  | refused (h : w.poisoned = true) : Write w f undone (.error .poisoned) w.interrupted
  | persisted {r : Except Err Unit} {w' : World A B} (h : w.poisoned = false)
    (hp : Persisted w f undone r w') : Write w f undone r w'

/-- A reading of the state file that is in memory. -/
inductive ReadMemory {β : Type} (w : World A B) (value : β) : Except Err β → Prop
  | refused (h : w.poisoned = true) : ReadMemory w value (.error .poisoned)
  | read (h : w.poisoned = false) : ReadMemory w value (.ok value)

/-- What a call of the book answers. -/
def BookAnswer {β : Type} (r : Except Err β) : Prop := ∀ e, r = .error e → e.ofBook

/-- What the signer answers: a refusal, or a signature that verifies. -/
inductive Signs {β : Type} (sign : B → String → Except String β) (verifies : β → Prop) :
    Except Err β → Prop
  | signed {nonce : B} {signature : String} {proof : β} (h : sign nonce signature = .ok proof)
    (hv : verifies proof) : Signs sign verifies (.ok proof)
  | refused (message : String) : Signs sign verifies (.error (.error message))

/-- The world after a transaction has been handed to a node, whatever the node answers. -/
def World.afterSend (w : World A B) (id : String) (l : LegKey) (tx : Tx A B) (value : Nat)
    (failed : Bool) : World A B :=
  { w with
    sent := (id, l, tx, value) :: w.sent
    disclosed := tx.hashlock.toList ++ w.disclosed
    published := tx.preimage.toList ++ w.published
    tried := fun id' =>
      if id' = id ∧ tx.withdraws then if failed then some ⟨l, w.clock, true⟩ else none
      else w.tried id' }

def operate : Effects (Req A B) (World A B)
  | w, _, .now, t, w' => cfg.ticks w.clock t ∧ w' = { w with clock := t }
  | w, _, .mid _, _, w' => w' = w
  | w, _, .canAttempt, _, w' => w' = w
  | w, _, .newSecret id, p, w' =>
    -- Thirty-two random bytes: their hash is nowhere yet.
    (∀ id' p', (id', p') ∈ w.secrets → cfg.sha256 p' ≠ cfg.sha256 p) ∧
      cfg.sha256 p ∉ w.disclosed ∧ (∀ l, (w.swap l (cfg.sha256 p)).status = .None) ∧
      w' = { w with secrets := (id, p) :: w.secrets }
  | w, _, .signOrder order makerToken issuedAt expiresAt, r, w' =>
    Signs (signOrderV1 cfg.codec cfg.key order makerToken issuedAt expiresAt)
        (fun proof => cfg.codec.verifyOrder proof.order.makerQrlAccount proof.order proof.auth ∧
          cfg.codec.deriveOrderV1Id proof.order.makerQrlAccount proof.auth.nonce ∉ w.issued) r ∧
      w' = { w with
        issued := (match r with
          | .ok proof =>
            [cfg.codec.deriveOrderV1Id proof.order.makerQrlAccount proof.auth.nonce]
          | .error _ => []) ++ w.issued }
  | w, _, .signFill fill order selected issuedAt respondBy, r, w' =>
    Signs (signFillV1 cfg.codec cfg.key fill order selected issuedAt respondBy)
        (fun proof => cfg.codec.verifyFill cfg.key.address proof.fill order.auth proof.auth) r ∧
      w' = w
  | w, _, .signCancel id cancel order expiresAt, r, w' =>
    Signs (signCancelV1 cfg.key cancel w.clock expiresAt)
        (fun proof => cfg.codec.verifyCancel cfg.key.address proof.cancel order proof.auth) r ∧
      w' = w.hear ((w.disk.get id).toList.map .cancelled)
  | w, _, .all, r, w' => ReadMemory w w.memory.orders r ∧ w' = w.settled
  | w, _, .upsert m, r, w' =>
    Write w (w.memory.upsert m w.clock) (w.memory.upsertFailed m w.clock) r w'
  | w, _, .delete id _, r, w' => Write w (w.memory.delete id) (w.memory.deleteFailed id) r w'
  | w, _, .strandedCredits, r, w' => ReadMemory w w.memory.stranded r ∧ w' = w
  | w, _, .recordStrandedCredit e, r, w' =>
    -- An entry that is in memory already is not written again.
    if w.memory.stranded.any fun s => s.key = e.key then
      ReadMemory w () r ∧ w' = if w.poisoned = false ∧
        e.key ∈ w.disk.stranded.map StrandedCredit.key then
        w.noted e.key else w.interrupted
    else ∃ v, Write w (w.memory.recordStrandedCredit e) (w.memory.recordStrandedCredit e) r v ∧
      w' = if r matches .ok _ then v.noted e.key else v
  | w, _, .clearStrandedCredit key, r, w' =>
    if w.memory.stranded.any fun s => s.key = key then
      Write w (w.memory.clearStrandedCredit key) (w.memory.clearStrandedCredit key) r w'
    else ReadMemory w () r ∧ w' = w
  | w, _, .retainedAdmissionCount, r, w' =>
    ReadMemory w (w.memory.retainedAdmissionCount w.clock) r ∧ w' = w
  | w, _, .get _, r, w' => BookAnswer r ∧ w' = w.settled
  | w, _, .createSigned _ _, r, w' => BookAnswer r ∧ w' = w
  | w, _, .intents _, r, w' => BookAnswer r ∧ w' = w.hear ((r.toOption.getD []).map .proposal)
  | w, _, .post id statement, r, w' =>
    BookAnswer r ∧ w' = { w with
      posted := (id, statement) :: w.posted
      disclosed := statement.hashlock.toList ++ w.disclosed }
  | w, _, .announceHashlock _ _ hashlock _ _, r, w' =>
    BookAnswer r ∧ w' = { w with disclosed := hashlock :: w.disclosed }
  | w, _, .cancel _ _, r, w' => BookAnswer r ∧ w' = w
  | w, _, .heartbeat _ _, _, w' => w' = w
  | w, _, .observe id q, r, w' =>
    ∃ v shown, Relation.ReflTransGen (Env cfg) w v ∧ Observed cfg q w v shown r ∧
      w' = { v with shown := fun id' => if id' = id then shown else v.shown id' }
  | w, _, .allowance _, r, w' => BookAnswer r ∧ w' = w
  | w, _, .creditOf l token account, r, w' =>
    (∀ n, r = some n → n = V3.creditOf token account (w.leg l)) ∧
      w' = w.balanceRead (l, token, account) r
  | w, _, .preflight _ _ _ _, r, w' => (∀ e, r = .error e → ∃ message, e = .error message) ∧ w' = w
  | w, _, .send id l tx value, r, w' => w' = w.afterSend id l tx value (r matches .error _)
  | w, _, .quote _ _, q, w' => w' = w.hear (q.toList.map .quote)

/-- The process ends, and a new one reads the file that is on disk. -/
def Crash (w w' : World A B) : Prop :=
  ∃ t, cfg.ticks w.clock t ∧
    w' = { w.interrupted with clock := t, memory := w.disk.hydrate t, poisoned := false }

end

end QuantaSwap.Maker.Daemon
