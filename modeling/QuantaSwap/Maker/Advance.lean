import QuantaSwap.Maker.World

/-!
# One pass of the maker over one order

`advance` of `marketmaker/src/index.ts`. A record that the source changes in place is passed on
here, so an assignment that is not followed by a write is seen by the rest of the pass only.
-/

set_option autoImplicit false
set_option linter.unusedSectionVars false

open Lib Lib.Program QuantaSwap.Htlc QuantaSwap.Htlc.V3

namespace QuantaSwap.Maker.Daemon

def CANCEL_REASON_OPERATOR : Nat := 1

def FILL_RESPONSE_TARGET_S : Int := 5 * 60

abbrev Act (A B α : Type) : Type 1 := ExceptT Err (Program (Req A B)) α

section

variable {A B : Type} [DecidableEq A] [DecidableEq B] [Zero A] [Zero B] (cfg : Config A B)

def nowS : Act A B Int := demand .now

def ofExcept {α : Type} (r : Except Err α) : Act A B α := ExceptT.mk (.ret r)

/-- A transaction whose failure ends the pass. -/
def sendTx (id : String) (leg : LegKey) (tx : Tx A B) (value : Nat) : Act A B Unit := do
  match ← demand (.send id leg tx value) with
  | .ok _ => pure ()
  | .error e => throw (.error e.message)

def requireMakerToken (m : ManagedOrder A B) : Act A B String :=
  match m.token with
  | some token => pure token
  | none => throw (.error "legacy order has no maker token")

/-! ## Terminal statements -/

/-- The persisted cancellation, or a new one that is persisted before anyone sees it. -/
def signedCancel (m : ManagedOrder A B) (p : ManagedProtocolV1 A B) : Act A B (SignedCancelV1 B) :=
  match p.cancelProof with
  | some proof => pure proof
  | none => do
    let proof ← attempt (.signCancel m.id ⟨p.orderDigest, CANCEL_REASON_OPERATOR⟩ p.orderAuth
      p.orderAuth.expiresAt)
    attempt (.upsert (m.withCancel proof))
    return proof

def cancelSigned (m : ManagedOrder A B) (p : ManagedProtocolV1 A B) (proof : SignedCancelV1 B) :
    Act A B (OrderView A B) := do
  let row ← attempt (.post m.id (.cancel proof))
  ofExcept (authenticateCancelView cfg.codec row p.signedOrder proof)

def cancelManaged (m : ManagedOrder A B) : Act A B (OrderView A B) :=
  match m.protocol with
  | none => do
    let token ← requireMakerToken m
    attempt (.cancel m.id token)
  | some p =>
    if p.fillProof.isSome then throw (.error "order already has a signed fill")
    else do
      let proof ← signedCancel m p
      cancelSigned cfg m p proof

/-- The acknowledgment counts only once it is on disk. -/
def persistAuthenticatedFillObservation (m : ManagedOrder A B) (view : OrderView A B) :
    Act A B (ManagedOrder A B) :=
  match m.protocol with
  | none => pure m
  | some p =>
    if p.fillProof.isNone ∨ view.status ≠ .locking ∨ view.fillDigest.isNone ∨
        (p.fillAcknowledged = true ∧ p.releaseObserved = (p.releaseObserved || view.released)) then
      pure m
    else do
      attempt (.upsert (m.acknowledged view.released))
      return m.acknowledged view.released

def publishFill (m : ManagedOrder A B) : Act A B (OrderView A B) :=
  match m.protocol, m.selectedIntent, m.fillProof with
  | some p, some selected, some proof => do
    let row ← attempt (.post m.id (.fill proof selected.intent selected.auth))
    let filled ← ofExcept (authenticateFillView cfg.codec row p.signedOrder proof selected)
    let _ ← persistAuthenticatedFillObservation m filled
    return filled
  | _, _, _ => throw (.error "order has incomplete signed fill state")

/-! ## The listing -/

def createSigned (proof : SignedOrderV1 A B) (makerToken : String) : Act A B (OrderView A B) :=
  if proof.order.visibility ≠ .pub then
    throw (.error "headless market maker supports public signed orders only")
  else do
    let created ← attempt (.createSigned proof makerToken)
    if created.2 ≠ makerToken then
      throw (.error "signed create response changed the committed maker capability")
    else ofExcept (authenticateOpenView cfg.codec created.1 proof)

def publishSignedOrder (m : ManagedOrder A B) : Act A B (Option (OrderView A B)) :=
  match m.protocol, m.token with
  | none, _ => throw (.error "portable order state is missing")
  | _, none => throw (.error "portable order maker capability is missing")
  | some p, some token => do
    if ← demand .canAttempt then
      let created ← tryCatch (some <$> createSigned cfg p.signedOrder token) fun e =>
        if e = .unavailable then pure none else throw e
      match created with
      | none => return none
      | some view =>
        if view.id ≠ m.id then
          throw (.error "signed order book response changed the deterministic order id")
        else
          attempt (.upsert m)
          return some view
    else return none

/-! ## Reading the book and the chains -/

/-- The statement that the record holds; a fill comes first. -/
def ManagedOrder.terminal (m : ManagedOrder A B) : Option (Terminal A B) :=
  match m.fillProof, m.selectedIntent with
  | some proof, some selected => some (.fill proof selected)
  | _, _ => m.cancelProof.map .cancel

def getView (m : ManagedOrder A B) : Act A B (OrderView A B) := do
  let row ← attempt (.get m.id)
  match m.protocol with
  | none => return row
  | some p => ofExcept (authenticateSigned cfg.codec row p.signedOrder m.terminal)

def fetchBook (m : ManagedOrder A B) : Act A B (BookStatus × Option (OrderView A B)) :=
  tryCatch (do
    let view ← getView cfg m
    return (view.status.book, some view)) fun e =>
      if e = .gone then pure (.gone, none) else throw e

/-- What a pass has read before it does anything. -/
structure Pass (A B : Type) where
  bookStatus : BookStatus
  view : Option (OrderView A B)
  bookDown : Bool
  reads : Reads A B

/-- Only a book that is down is forgiven here. -/
def readBook (m : ManagedOrder A B) : Act A B (BookStatus × Option (OrderView A B) × Bool) :=
  tryCatch (do
    let (bookStatus, view) ← fetchBook cfg m
    return (bookStatus, view, false)) fun e =>
      if e = .unavailable then pure (.locking, none, true) else throw e

def observeView (m : ManagedOrder A B) (view : Option (OrderView A B)) :
    Act A B (ManagedOrder A B) :=
  match view with
  | none => pure m
  | some view => persistAuthenticatedFillObservation m view

def ManagedOrder.query (m : ManagedOrder A B) (hashlock : B) : Query A B where
  hashlock := hashlock
  iLeg := initiatorLeg m.direction
  rLeg := responderLeg m.direction
  iToken := cfg.legToken (initiatorLeg m.direction) m.asset
  rToken := cfg.legToken (responderLeg m.direction) m.asset
  iAccount := cfg.myAddress (initiatorLeg m.direction)
  rAccount := cfg.myAddress (responderLeg m.direction)
  takerOnInitiatorLeg := m.takerOn (initiatorLeg m.direction)

def readChains (m : ManagedOrder A B) : Act A B (Reads A B) :=
  match m.hashlock with
  | none => pure ⟨none, none, none, none, none, none⟩
  | some hashlock => demand (.observe m.id (m.query cfg hashlock))

/-! ## The actions -/

/-- The reset of an expired selection. -/
def ManagedOrder.unselected (m : ManagedOrder A B) : ManagedOrder A B :=
  { m.withSelected none with
    preimage := none
    hashlock := none
    initiatorTimeout := none
    responderTimeout := none
    announcedAt := none
    takerEthAccount := none
    takerQrlAccount := none }

def ManagedOrder.selecting (m : ManagedOrder A B) (s : SelectedFillIntentV1 A B) (secret : B)
    (selectedAt : Int) : ManagedOrder A B :=
  { m.withSelected (some s) with
    preimage := some secret
    hashlock := some (cfg.sha256 secret)
    initiatorTimeout := some (selectedAt + cfg.initiatorWindowS)
    responderTimeout := some (selectedAt + cfg.responderWindowS)
    announcedAt := some selectedAt
    takerEthAccount := some s.intent.takerEthAccount
    takerQrlAccount := some s.intent.takerQrlAccount }

def dropExpiredSelection (m : ManagedOrder A B) : Act A B (ManagedOrder A B) :=
  match m.selectedIntent with
  | none => pure m
  | some selected => do
    let now ← nowS
    if selected.auth.expiresAt ≤ now then
      attempt (.upsert m.unselected)
      return m.unselected
    else return m

/-- The secret and the chosen proposal reach disk first. -/
def selectIntent (m : ManagedOrder A B) (p : ManagedProtocolV1 A B) :
    Act A B (Option (ManagedOrder A B × SelectedFillIntentV1 A B)) :=
  match m.selectedIntent with
  | some selected => pure (some (m, selected))
  | none => do
    let candidates ← attempt (.intents m.id)
    let now ← nowS
    match earliestValidFillIntent cfg.le candidates p.orderDigest now (fun candidate =>
        verifyFillIntentV1 cfg.codec candidate.intent candidate.auth p.orderDigest now
          p.orderAuth.issuedAt p.orderAuth.expiresAt) with
    | none => return none
    | some selected => do
      let secret ← demand (.newSecret m.id)
      let selectedAt ← nowS
      attempt (.upsert (m.selecting cfg selected secret selectedAt))
      return some (m.selecting cfg selected secret selectedAt, selected)

def fillBody (p : ManagedProtocolV1 A B) (selected : SelectedFillIntentV1 A B) (hashlock : B)
    (initiatorTimeout responderTimeout : Int) : FillV1Body A B where
  orderDigest := p.orderDigest
  intentDigest := selected.intentDigest
  takerEthAccount := selected.intent.takerEthAccount
  takerQrlAccount := selected.intent.takerQrlAccount
  releaseCommitment := selected.intent.releaseCommitment
  hashlock := hashlock
  initiatorTimeout := initiatorTimeout
  responderTimeout := responderTimeout

def signFill (m : ManagedOrder A B) (p : ManagedProtocolV1 A B)
    (selected : SelectedFillIntentV1 A B) (view : Option (OrderView A B)) :
    Act A B (Option (OrderView A B)) := do
  let issuedAt ← nowS
  let responseWindowS := min FILL_RESPONSE_TARGET_S (cfg.responderWindowS - 601)
  let respondBy := min (issuedAt + responseWindowS) p.orderAuth.expiresAt
  if selected.auth.expiresAt ≤ issuedAt then return view
  else if responseWindowS < 60 then
    throw (.error "responder window is too short for a portable fill")
  else if respondBy - issuedAt < 60 then
    let cancelled ← cancelManaged cfg m
    attempt (.delete m.id .nearExpiry)
    return some cancelled
  else
    match m.hashlock, m.initiatorTimeout, m.responderTimeout with
    | some hashlock, some t1, some t2 =>
      let proof ← attempt (.signFill (fillBody p selected hashlock t1 t2) p.signedOrder selected
        issuedAt respondBy)
      attempt (.upsert (m.withFill proof))
      let filled ← publishFill cfg (m.withFill proof)
      return some filled
    | _, _, _ => throw (.error "order lost its persisted fill terms")

def selectFill (m : ManagedOrder A B) (p : ManagedProtocolV1 A B) (view : Option (OrderView A B)) :
    Act A B (Option (OrderView A B)) := do
  let m ← dropExpiredSelection m
  match ← selectIntent cfg m p with
  | none => return view
  | some (m, selected) => signFill cfg m p selected view

def persistSecret (m : ManagedOrder A B) : Act A B (ManagedOrder A B × B) :=
  match m.preimage, m.hashlock with
  | some _, some hashlock => pure (m, hashlock)
  | _, _ => do
    let secret ← demand (.newSecret m.id)
    let m := { m with preimage := some secret, hashlock := some (cfg.sha256 secret) }
    attempt (.upsert m)
    return (m, cfg.sha256 secret)

def announce (m : ManagedOrder A B) (view : Option (OrderView A B)) : Act A B Unit :=
  match m.protocol, view with
  | some _, _ => throw (.error "portable order entered the legacy accepted state")
  | none, none => pure ()
  | none, some view => do
    let (m, hashlock) ← persistSecret cfg m
    let t1 ← nowS
    let t2 ← nowS
    let token ← requireMakerToken m
    let announced ← attempt (.announceHashlock m.id token hashlock (t1 + cfg.initiatorWindowS)
      (t2 + cfg.responderWindowS))
    let announcedAt ← nowS
    attempt (.upsert { m with
      takerEthAccount := announced.takerEthAccount <|> view.takerEthAccount
      takerQrlAccount := announced.takerQrlAccount <|> view.takerQrlAccount
      initiatorTimeout := some (t1 + cfg.initiatorWindowS)
      responderTimeout := some (t2 + cfg.responderWindowS)
      announcedAt := some announcedAt })

/-- The book is asked again before a lock. -/
def refetch (m : ManagedOrder A B) (iState : Option (LegState A B)) :
    Act A B (Option (BookStatus × Option (OrderView A B))) :=
  tryCatch (some <$> fetchBook cfg m) fun e =>
    if e = .unavailable ∧ canContinueWithoutBook m.decision iState then pure none else throw e

/-- The response window closed, or the taker released. -/
def ManagedOrder.walkedAway (m : ManagedOrder A B)
    (fresh : Option (BookStatus × Option (OrderView A B))) (now : Int) : Bool :=
  (m.fillProof.any fun fill => decide (fill.auth.expiresAt ≤ now)) ||
    (m.protocol.any fun p => p.releaseObserved) ||
    (fresh.any fun f => f.2.any fun view => view.released) ||
    (m.fillProof.isSome && m.lockSentAt.isNone && fresh.any fun f => decide (f.1 ≠ .locking)) ||
    (m.protocol.isNone && fresh.any fun f => decide (f.1 = .gone ∨ f.1 = .cancelled))

def approve (m : ManagedOrder A B) (token : A) (allowance : Nat) : Act A B Unit :=
  if allowance = m.fromAmount then pure ()
  else if allowance ≠ 0 ∧ cfg.approvalRace m.asset then do
    sendTx m.id .eth (.approve token cfg.ethHtlc 0) 0
    sendTx m.id .eth (.approve token cfg.ethHtlc m.fromAmount) 0
  else sendTx m.id .eth (.approve token cfg.ethHtlc m.fromAmount) 0

def sendLock (m : ManagedOrder A B) (recipient : A) (hashlock : B) (initiatorTimeout : Int) :
    Act A B Unit := do
  let iLeg := initiatorLeg m.direction
  match if iLeg = .eth then cfg.tokenAddress m.asset else none with
  | some token =>
    let allowance ← attempt (.allowance token)
    let now ← nowS
    attempt (.upsert { m with lockSentAt := some now })
    approve cfg m token allowance
    sendTx m.id .eth
      (.htlc (.lockToken hashlock recipient token m.fromAmount initiatorTimeout.toNat)) 0
  | none =>
    let now ← nowS
    attempt (.upsert { m with lockSentAt := some now })
    sendTx m.id iLeg (.htlc (.lockNative hashlock recipient initiatorTimeout.toNat)) m.fromAmount

def lock (m : ManagedOrder A B) (iState : Option (LegState A B)) (newLockBlockedByBook : Bool) :
    Act A B Unit :=
  if newLockBlockedByBook then pure ()
  else
    match m.takerOn (initiatorLeg m.direction), m.hashlock, m.initiatorTimeout with
    | some recipient, some hashlock, some t1 => do
      let fresh ← refetch cfg m iState
      let m ← observeView m (fresh.bind (·.2))
      let now ← nowS
      if m.walkedAway fresh now then pure () else sendLock cfg m recipient hashlock t1
    | _, _, _ => pure ()

/-- An error of the node may show the secret, so it is not passed on. -/
def submitClaim (p : Act A B Unit) : Act A B Unit :=
  tryCatch p fun _ => throw (.error "claim submission failed; reconcile chain state before retry")

def claim (m : ManagedOrder A B) : Act A B Unit :=
  match m.hashlock, m.preimage with
  | some hashlock, some preimage => do
    let rLeg := responderLeg m.direction
    attempt (.preflight rLeg (.claim hashlock preimage) hashlock cfg.claimSafetyS)
    submitClaim do
      let now ← nowS
      attempt (.upsert { m with claimSentAt := some now })
      sendTx m.id rLeg (.htlc (.claim hashlock preimage)) 0
  | _, _ => pure ()

def sponsor (m : ManagedOrder A B) : Act A B Unit :=
  match m.hashlock, m.preimage with
  | some hashlock, some preimage => do
    let iLeg := initiatorLeg m.direction
    let now ← nowS
    attempt (.upsert { m with sponsorSentAt := some now })
    tryCatch (do
      attempt (.preflight iLeg (.claim hashlock preimage) hashlock cfg.sponsorMarginS)
      submitClaim (sendTx m.id iLeg (.htlc (.claim hashlock preimage)) 0)) fun _ => pure ()
  | _, _ => pure ()

def refund (m : ManagedOrder A B) : Act A B Unit :=
  match m.hashlock with
  | some hashlock => do
    let now ← nowS
    attempt (.upsert { m with refundSentAt := some now })
    sendTx m.id (initiatorLeg m.direction) (.htlc (.refund hashlock)) 0
  | none => pure ()

def countWithdrawal (m : ManagedOrder A B) (e : SendError) : Act A B (ManagedOrder A B) :=
  if e.rejected then do
    let now ← nowS
    let m := { m with
      withdrawAttempts := some (m.withdrawAttempts.getD 0 + 1)
      withdrawFirstRejectedAt := m.withdrawFirstRejectedAt <|> some now }
    attempt (.upsert m)
    return m
  else return m

def withdraw (m : ManagedOrder A B) (reads : Reads A B) : Act A B Unit := do
  let iLeg := initiatorLeg m.direction
  let rLeg := responderLeg m.direction
  let leg := if 0 < reads.ourResponderCredit.getD 0 then rLeg else iLeg
  let amount :=
    ((if leg = rLeg then reads.ourResponderCredit else reads.ourInitiatorCredit).getD 0)
  let token := cfg.legToken leg m.asset
  let now ← nowS
  let m := { m with withdrawSentAt := some now }
  attempt (.upsert m)
  match ← demand (.send m.id leg (.htlc (.withdrawAll token (cfg.myAddress leg))) 0) with
  | .ok _ => pure ()
  | .error e =>
    let m ← countWithdrawal m e
    let now ← nowS
    if withdrawParked m.decision now then
      let parkedAt ← nowS
      attempt (.recordStrandedCredit
        { orderId := m.id, leg, token, account := cfg.myAddress leg, hashlock := m.hashlock, amount,
          parkedAt, own := true })
    else pure ()

def countPush (m : ManagedOrder A B) (e : SendError) : Act A B (ManagedOrder A B) :=
  if e.rejected then do
    let now ← nowS
    let m := { m with
      pushAttempts := some (m.pushAttempts.getD 0 + 1)
      pushFirstRejectedAt := m.pushFirstRejectedAt <|> some now }
    attempt (.upsert m)
    return m
  else return m

def push (m : ManagedOrder A B) (reads : Reads A B) : Act A B Unit :=
  let iLeg := initiatorLeg m.direction
  match m.takerOn iLeg with
  | none => pure ()
  | some taker => do
    let now ← nowS
    let m := { m with pushSentAt := some now }
    attempt (.upsert m)
    let token := cfg.legToken iLeg m.asset
    match ← demand (.send m.id iLeg (.htlc (.pushCredit token taker)) 0) with
    | .ok _ => pure ()
    | .error e =>
      let m ← countPush m e
      let now ← nowS
      if pushParked m.decision now then
        let parkedAt ← nowS
        attempt (.recordStrandedCredit
          { orderId := m.id, leg := iLeg, token, account := taker, hashlock := m.hashlock,
            amount := reads.takerCredit.getD 0, parkedAt, own := false })
      else pure ()

/-- A listing that the book has dropped counts as cancelled; any other failure keeps the record. -/
def cancelListing (m : ManagedOrder A B) : Act A B Bool :=
  tryCatch (do
    let _ ← cancelManaged cfg m
    return true) fun e => pure (e = .gone)

def abort (m : ManagedOrder A B) (bookStatus : BookStatus) : Act A B Unit := do
  let cancelled ←
    if bookStatus ≠ .gone ∧ bookStatus ≠ .cancelled ∧ m.fillProof.isNone then cancelListing cfg m
    else pure true
  if cancelled then attempt (.delete m.id .abort) else pure ()

/-! ## The pass -/

/-- `decide`'s input; a signed fill is locking whatever the book says. -/
def ManagedOrder.decideInput (m : ManagedOrder A B) (x : Pass A B) (fillResponseExpired : Bool)
    (now : Int) : DecideInput A A B where
  bookStatus := if m.fillProof.isSome then .locking else x.bookStatus
  released := (x.view.any fun view => view.released) || fillResponseExpired
  managed := m.decision
  iState := x.reads.iState
  rState := x.reads.rState
  rConfirmed := x.reads.rConfirmed
  expectedRecipient := cfg.myAddress (responderLeg m.direction)
  expectedAmountWei := m.toAmount
  expectedToken := cfg.legToken (responderLeg m.direction) m.asset
  nowS := now
  resendAfterS := cfg.resendAfterS
  claimSafetyS := cfg.claimSafetyS
  lockGraceS := cfg.lockGraceS
  sponsorClaims := cfg.sponsorClaims
  ourInitiator := cfg.myAddress (initiatorLeg m.direction)
  takerOnInitiatorLeg := m.takerOn (initiatorLeg m.direction)
  sponsorMarginS := cfg.sponsorMarginS
  ourResponderCredit := x.reads.ourResponderCredit
  ourInitiatorCredit := x.reads.ourInitiatorCredit
  takerCredit := x.reads.takerCredit

def act (m : ManagedOrder A B) (x : Pass A B) (newLockBlockedByBook : Bool) :
    Decision → Act A B Unit
  | .wait => pure ()
  | .announce => announce cfg m x.view
  | .lock => lock cfg m x.reads.iState newLockBlockedByBook
  | .claim => claim cfg m
  | .sponsor => sponsor cfg m
  | .refund => refund m
  | .withdraw => withdraw cfg m x.reads
  | .push => push cfg m x.reads
  | .finish => attempt (.delete m.id .finish)
  | .abort => abort cfg m x.bookStatus

/-- The chains and the local proof take over. -/
def settle (m : ManagedOrder A B) (x : Pass A B) (newLockBlockedByBook : Bool) :
    Act A B (Option (OrderView A B)) := do
  let respondAt ← nowS
  let fillResponseExpired := m.fillProof.any fun fill => decide (fill.auth.expiresAt ≤ respondAt)
  let now ← nowS
  act cfg m x newLockBlockedByBook (m.decideInput cfg x fillResponseExpired now).decide
  return x.view

def needsReprice (quotedMilli currentMilli thresholdBps : Nat) : Bool :=
  let diff := if currentMilli < quotedMilli then quotedMilli - currentMilli
    else currentMilli - quotedMilli
  decide (currentMilli * thresholdBps < diff * 10000)

def ManagedOrder.drifted (m : ManagedOrder A B) (mid : Option Nat) : Bool :=
  mid.any fun mid =>
    match m.quotedMidMilli with
    | none => true
    | some quoted => needsReprice quoted mid cfg.repriceThresholdBps

def heartbeat (m : ManagedOrder A B) : Act A B Unit :=
  match m.token with
  | some token => demand (.heartbeat m.id token)
  | none => pure ()

/-- An order that is open on the book and not filled by us. -/
def advanceOpen (m : ManagedOrder A B) (x : Pass A B) : Act A B (Option (OrderView A B)) := do
  let mid ← demand (.mid m.asset)
  if m.drifted cfg mid then
    if ← cancelListing cfg m then
      attempt (.delete m.id .repriced)
      return x.view
    else return x.view
  else
    heartbeat m
    match m.protocol with
    | some p => selectFill cfg m p x.view
    | none => settle cfg m x false

/-- `cancelOpenListing`, and the deletion after it: whatever fails is tried again later. -/
def drainOrder (m : ManagedOrder A B) (bookStatus : BookStatus) : Act A B Bool :=
  if bookStatus ≠ .open then pure false
  else
    tryCatch (do
      tryCatch (do
        let _ ← cancelManaged cfg m
        pure ()) fun e => if e = .gone then pure () else throw e
      attempt (.delete m.id .drained)
      return true) fun _ => pure true

/-- Below the terminal statements: drain, the open listing, and settlement. -/
def advanceListed (m : ManagedOrder A B) (x : Pass A B) (newLockBlockedByBook : Bool) :
    Act A B (Option (OrderView A B)) :=
  if m.fillProof.isSome then settle cfg m x newLockBlockedByBook
  else do
    let drained ← if cfg.drain then drainOrder cfg m x.bookStatus else pure false
    if drained then return x.view
    else if x.bookStatus = .open then advanceOpen cfg m x
    else settle cfg m x newLockBlockedByBook

/-- A signed cancellation is published until the book shows it. -/
def publishCancel (m : ManagedOrder A B) (p : ManagedProtocolV1 A B) (proof : SignedCancelV1 B)
    (x : Pass A B) : Act A B (Option (OrderView A B)) :=
  match x.bookStatus with
  | .cancelled => do
    attempt (.delete m.id .cancelled)
    return x.view
  | .gone => return x.view
  | .open => do
    let _ ← cancelSigned cfg m p proof
    attempt (.delete m.id .cancelled)
    return x.view
  | _ => throw (.error "order conflicts with its signed cancellation")

/-- A signed fill that the book does not show is published again. -/
def retryFill (m : ManagedOrder A B) (x : Pass A B) : Act A B (Option (OrderView A B)) := do
  let filled ← tryCatch (some <$> publishFill cfg m) fun e =>
    if e = .unavailable ∧ canContinueWithoutBook m.decision x.reads.iState then pure none
    else throw e
  match filled with
  | some filled => return some filled
  | none => advanceListed cfg m x true

/-- The create request of a missing listing never landed: the same order is sent again. -/
def recoverListing (m : ManagedOrder A B) (p : ManagedProtocolV1 A B) :
    Act A B (Option (OrderView A B)) := do
  let now ← nowS
  if p.orderAuth.expiresAt ≤ now then
    attempt (.delete m.id .expired)
    return none
  else publishSignedOrder cfg m

def advanceSigned (m : ManagedOrder A B) (p : ManagedProtocolV1 A B) (x : Pass A B) :
    Act A B (Option (OrderView A B)) := do
  let now ← nowS
  if p.orderAuth.expiresAt ≤ now ∧ p.fillProof.isNone ∧ p.cancelProof.isNone ∧
      ¬ canContinueWithoutBook m.decision x.reads.iState then
    attempt (.delete m.id .expired)
    return x.view
  else if x.bookStatus = .gone ∧ p.selectedIntent.isNone ∧ p.fillProof.isNone ∧
      p.cancelProof.isNone then
    recoverListing cfg m p
  else
    match p.cancelProof with
    | some proof => publishCancel cfg m p proof x
    | none =>
      if p.fillProof.isSome ∧ x.bookStatus = .open then retryFill cfg m x
      else advanceListed cfg m x false

def advanceRead (m : ManagedOrder A B) (x : Pass A B) : Act A B (Option (OrderView A B)) :=
  if x.bookDown ∧ ¬ canContinueWithoutBook m.decision x.reads.iState then throw .unavailable
  else
    match m.protocol with
    | some p => advanceSigned cfg m p x
    | none => advanceListed cfg m x false

def advance (m : ManagedOrder A B) : Act A B (Option (OrderView A B)) := do
  let now ← nowS
  if m.canRetireExpiredUnfundedQuote now then
    attempt (.delete m.id .quoteExpired)
    return none
  else
    let (bookStatus, view, bookDown) ← readBook cfg m
    let m ← observeView m view
    let reads ← readChains cfg m
    advanceRead cfg m ⟨bookStatus, view, bookDown, reads⟩

end

end QuantaSwap.Maker.Daemon
