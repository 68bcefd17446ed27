import Mathlib.Data.Finset.Basic
import QuantaSwap.Feed.Peer
import QuantaSwap.Lib.Keyed
import QuantaSwap.Lib.Run

/-!
# The sync of all peers

`FederationPeerSync` of `peer-sync.ts`: two workers take the peers in turn, and an event that the
callback defers waits for its retry. A step runs from one await to the next at most, so that a run
is any order in which the responses and the answers of the callback come in.
-/

set_option autoImplicit false

namespace QuantaSwap.Feed.PeerSync

open Lib Lib.Js QuantaSwap.Book

def maxDeferredEvents : Nat := 4096
def maxDeferredEventsPerPeer : Nat := 512
def maxDeferredPasses : Nat := 8
def maxDeferredAgeMs : Nat := 60 * 60 * 1000
def maxDeferredAttempts : Nat := 512
def maxDeferredBackoffMs : Nat := 60 * 1000
def maxRejectedEventsPerSync : Nat := 8
def maxConcurrentPeerSyncs : Nat := 2
def maxConfiguredPeers : Nat := 16

/-- `FederationApplyResult` -/
inductive ApplyResult where
  | applied
  | deferred
  | rejected
deriving DecidableEq

/-- How a call of the callback ends. A callback that returns nothing has applied the event. -/
inductive Answer where
  | result (result : ApplyResult)
  | thrown
deriving DecidableEq

/-- The peers that the constructor accepts. -/
structure Peers (P : Type*) where
  urls : List P
  distinct : urls.Nodup
  few : urls.length ≤ maxConfiguredPeers

/-- An entry of `deferred`. -/
structure Deferred (P : Type*) where
  event : FederationEvent
  peer : P
  sources : List P
  firstSeenAt : Nat
  nextAttemptAt : Nat
  attempts : Nat
  /-- Which object it is: how many were created before it. -/
  serial : Nat

/-- `EventApplication`, under the event that it is for. -/
structure EventApplication (P : Type*) where
  peer : P
  eventId : EventId
  result : Option Answer

/-- The variables of `syncPeer` while it goes through the records of a page. -/
structure Locals where
  requestedCursor : Option String
  pageNumber : Nat
  seenEventIds : List EventId
  page : FederationPage

/-- Where `applyRecord` stands: it has returned, or waits for an application that is in
`applications`, or for a call of its own, made with the entry of that serial at hand. -/
inductive Applying where
  | returned (result : ApplyResult)
  | awaiting (application : Nat)
  | asking (serial : Nat)

/-- Where the sync of a peer stands. -/
inductive Pc where
  | idle
  | fetching (pageNumber : Nat) (cursor : Option String) (seenEventIds : List EventId)
  | records (l : Locals) (rest : List FederationRecord)
  | applying (l : Locals) (record : FederationRecord) (rest : List FederationRecord)
    (at_ : Applying)
  | finishing (l : Locals)

def Pc.active : Pc → Bool
  | .idle => false
  | _ => true

/-- Where `syncAll` stands. `retryDeferred` has the ids of its pass that are left. -/
inductive Phase where
  | idle
  | syncing
  | retrying (pass applied : Nat) (rest : List EventId)

/-- A call of the callback. -/
structure Call (P : Type*) where
  eventId : EventId
  event : FederationEvent
  peer : P

/-- What happened so far. No step reads it. -/
structure History (P : Type*) where
  /-- The events that the callback has applied or rejected. -/
  settled : List EventId := []
  /-- The records of the pages that a peer sent and that passed the checks. -/
  served : P → List FederationRecord := fun _ => []
  calls : List (Call P) := []
  /-- How many calls in the name of a peer the callback has rejected in this `syncAll`. -/
  rejections : P → Nat := fun _ => 0
  /-- The pages under the cursor of a peer, from the last reset on. -/
  ledger : P → List FederationPage := fun _ => []

/-- `FederationPeerSync`, with the maps of the running `syncAll`. -/
structure Sync (P : Type*) where
  cursors : Keyed P String := ⟨[], List.nodup_nil⟩
  deferred : Keyed EventId (Deferred P) := ⟨[], List.nodup_nil⟩
  /-- How many entries of `deferred` were created. -/
  created : Nat := 0
  forceResetPeers : Finset P := ∅
  phase : Phase := .idle
  nextPeerIndex : Nat := 0
  applications : Keyed EventId Nat := ⟨[], List.nodup_nil⟩
  promises : List (EventApplication P) := []
  rejectedThisSync : Keyed P Nat := ⟨[], List.nodup_nil⟩
  pc : P → Pc := fun _ => .idle
  history : History P := {}

variable {P : Type*} [DecidableEq P]

def History.received (h : History P) (peer : P) (records : List FederationRecord) : History P :=
  { h with served := Function.update h.served peer (records ++ h.served peer) }

/-- The cursor of a peer is kept, behind a page. -/
def History.committed (h : History P) (peer : P) (page : FederationPage) : History P :=
  { h with ledger := Function.update h.ledger peer (if page.reset then [page] else h.ledger peer ++ [page]) }

def History.called (h : History P) (call : Call P) : History P :=
  { h with calls := call :: h.calls }

def History.answered (h : History P) (eventId : EventId) (peer : P) : Answer → History P
  | .result .applied => { h with settled := eventId :: h.settled }
  | .result .rejected =>
    { h with
      settled := eventId :: h.settled
      rejections := Function.update h.rejections peer (h.rejections peer + 1) }
  | .result .deferred | .thrown => h

/-! ## Deferred events -/

/-- `deferred.sources.add(peer)` -/
def Deferred.addSource (d : Deferred P) (peer : P) : Deferred P :=
  { d with sources := if peer ∈ d.sources then d.sources else d.sources ++ [peer] }

/-- What the loop of `resetDeferredPeer` leaves of an entry. -/
def Deferred.without (peer : P) (d : Deferred P) : Option (Deferred P) :=
  match d.sources.filter (· ≠ peer) with
  | [] => none
  | source :: sources =>
    some { d with sources := source :: sources, peer := if d.peer = peer then source else d.peer }

/-- `sources[(sources.indexOf(peer) + 1) % sources.length] ?? peer` -/
def nextSource (sources : List P) (peer : P) : P :=
  let index := if peer ∈ sources then (sources.idxOf peer + 1) % sources.length else 0
  sources[index]?.getD peer

namespace Sync

variable (s : Sync P)

def deferredCountForPeer (peer : P) : Nat :=
  (s.deferred.entries.filter fun e => peer ∈ e.2.sources).length

def resetDeferredPeer (peer : P) : Sync P :=
  { s with
    deferred := s.deferred.filterMap (Deferred.without peer)
    forceResetPeers := insert peer s.forceResetPeers
    cursors := s.cursors.erase peer }

def deferRecord (record : FederationRecord) (peer : P) (now : Nat) : Sync P :=
  match s.deferred.get record.eventId with
  | some existing =>
    if peer ∉ existing.sources ∧ maxDeferredEventsPerPeer ≤ s.deferredCountForPeer peer then
      s.resetDeferredPeer peer
    else { s with deferred := s.deferred.set record.eventId (existing.addSource peer) }
  | none =>
    if maxDeferredEventsPerPeer ≤ s.deferredCountForPeer peer then s.resetDeferredPeer peer
    else if maxDeferredEvents ≤ s.deferred.entries.length then s.resetDeferredPeer peer
    else
      let entry : Deferred P :=
        { event := record.event, peer, sources := [peer], firstSeenAt := now, nextAttemptAt := now, attempts := 0
          serial := s.created }
      { s with deferred := s.deferred.set record.eventId entry, created := s.created + 1 }

/-! ## The callback -/

/-- `this.options.apply` is called. -/
def called (eventId : EventId) (event : FederationEvent) (peer : P) : Sync P :=
  { s with history := s.history.called ⟨eventId, event, peer⟩ }

/-- The callback has answered a call. -/
def answered (eventId : EventId) (peer : P) (answer : Answer) : Sync P :=
  { s with history := s.history.answered eventId peer answer }

/-- A new entry of `applications`. -/
def application (record : FederationRecord) (peer : P) : Sync P :=
  { s.called record.eventId record.event peer with
    applications := s.applications.set record.eventId s.promises.length
    promises := s.promises ++ [{ peer, eventId := record.eventId, result := none }] }

/-- `applyRecord`, up to its first await. -/
def applyRecord (record : FederationRecord) (peer : P) (now : Nat) : Sync P × Applying :=
  if peer ∈ s.forceResetPeers then (s, .returned .deferred)
  else
    match s.deferred.get record.eventId with
    | some deferred =>
      if peer ∈ deferred.sources then (s, .returned .deferred)
      else ((s.deferRecord record peer now).called record.eventId record.event peer,
        .asking deferred.serial)
    | none =>
      match s.applications.get record.eventId with
      | some application => (s, .awaiting application)
      | none => (s.application record peer, .awaiting s.promises.length)

/-- The callback deferred a call that was made with the entry of this serial at hand: the entry, if
it is still there, goes on with its next source. -/
def rotate (eventId : EventId) (serial : Nat) (peer : P) : Sync P :=
  { s with
    deferred := match s.deferred.get eventId with
      | some d =>
        if d.serial = serial then
          s.deferred.set eventId { d with peer := nextSource d.sources peer }
        else s.deferred
      | none => s.deferred }

/-! ## The steps -/

def goto (peer : P) (pc : Pc) : Sync P := { s with pc := Function.update s.pc peer pc }

/-- `syncAll` -/
def syncAll : Sync P :=
  match s.phase with
  | .idle =>
    { s with
      phase := .syncing
      nextPeerIndex := 0
      applications := Keyed.empty
      promises := []
      rejectedThisSync := Keyed.empty
      history := { s.history with rejections := fun _ => 0 } }
  | _ => s

/-- A worker takes the next peer. Its sync starts if the peer is due. -/
def begin (peers : Peers P) (due : Bool) : Sync P :=
  match s.phase, peers.urls[s.nextPeerIndex]? with
  | .syncing, some peer =>
    if maxConcurrentPeerSyncs ≤ peers.urls.countP (fun p => (s.pc p).active) then s
    else
      let taken := { s with nextPeerIndex := s.nextPeerIndex + 1 }
      if due then taken.goto peer (.fetching 0 (s.cursors.get peer) []) else taken
  | _, _ => s

/-- A response is read. There is no body if the request failed or was late. -/
def respond (E : Crypto) (peer : P) (body : Option Json) : Sync P :=
  match s.pc peer with
  | .fetching pageNumber cursor seen =>
    match body.bind (parseFederationPage E) with
    | none => s.goto peer .idle
    | some page =>
      if !validateFederationPageProgress cursor page then s.goto peer .idle
      else if page.reset ∧ pageNumber > 0 then s.goto peer .idle
      else if repeats seen (pageIds page) then s.goto peer .idle
      else
        let seenEventIds := (pageIds page).foldl FederationFeed.addId seen
        { s with history := s.history.received peer (pageRecords page) }.goto peer
          (.records { requestedCursor := cursor, pageNumber, seenEventIds, page }
            (pageRecords page))
  | _ => s

/-- The head of the loop over the records of a page. -/
def record (peer : P) (late : Bool) (now : Nat) : Sync P :=
  match s.pc peer with
  | .records l [] => s.goto peer (.finishing l)
  | .records l (record :: rest) =>
    if late then s.goto peer .idle
    else
      let (next, at_) := s.applyRecord record peer now
      next.goto peer (.applying l record rest at_)
  | _ => s

/-- The callback answers an application. -/
def resolve (application : Nat) (answer : Answer) : Sync P :=
  match s.promises[application]? with
  | some ⟨peer, eventId, none⟩ =>
    { s with promises := s.promises.set application ⟨peer, eventId, some answer⟩ }.answered eventId
      peer answer
  | _ => s

/-- `applications.delete(record.eventId)`, if the application is still there. -/
def forget (eventId : EventId) (application : Nat) : Sync P :=
  { s with
    applications :=
      if s.applications.get eventId = some application then s.applications.erase eventId
      else s.applications }

/-- `applyRecord` goes on behind an application. -/
def resume (peer : P) (now : Nat) : Sync P :=
  match s.pc peer with
  | .applying l record rest (.awaiting application) =>
    match s.promises[application]? with
    | some ⟨_, _, some .thrown⟩ => s.goto peer .idle
    | some ⟨applier, _, some (.result .deferred)⟩ =>
      let kept := (s.forget record.eventId application).deferRecord record applier now
      if applier = peer then kept.goto peer (.applying l record rest (.returned .deferred))
      else
        let (next, at_) := kept.applyRecord record peer now
        next.goto peer (.applying l record rest at_)
    | some ⟨_, _, some (.result result)⟩ => s.goto peer (.applying l record rest (.returned result))
    | _ => s
  | _ => s

/-- The callback answers the call that `applyRecord` made itself. -/
def reply (peer : P) (answer : Answer) : Sync P :=
  match s.pc peer with
  | .applying l record rest (.asking serial) =>
    match answer with
    | .thrown => s.goto peer .idle
    | .result .deferred =>
      (s.rotate record.eventId serial peer).goto peer
        (.applying l record rest (.returned .deferred))
    | .result result =>
      ({ s with deferred := s.deferred.erase record.eventId }.answered record.eventId peer
        answer).goto peer
        (.applying l record rest (.returned result))
  | _ => s

/-- `rejectedThisSync` counts one more for a peer. -/
def reject (peer : P) : Sync P :=
  { s with
    rejectedThisSync := s.rejectedThisSync.set peer
      (min ((s.rejectedThisSync.get peer).getD 0 + 1) (maxRejectedEventsPerSync + 1)) }

def underQuota (peer : P) : Bool := (s.rejectedThisSync.get peer).getD 0 < maxRejectedEventsPerSync

/-- The loop over the records goes on behind `applyRecord`. -/
def proceed (peer : P) (late : Bool) : Sync P :=
  match s.pc peer with
  | .applying l _ rest (.returned result) =>
    let counted := if result = .rejected then s.reject peer else s
    if result = .rejected ∧ !counted.underQuota peer then counted.goto peer .idle
    else if late then counted.goto peer .idle
    else if peer ∈ counted.forceResetPeers then counted.goto peer (.finishing l)
    else counted.goto peer (.records l rest)
  | _ => s

/-- The end of a page. -/
def finish (peer : P) (late : Bool) : Sync P :=
  match s.pc peer with
  | .finishing l =>
    if peer ∈ s.forceResetPeers then
      { s with forceResetPeers := s.forceResetPeers.erase peer, cursors := s.cursors.erase peer }.goto peer .idle
    else if late then s.goto peer .idle
    else
      { s with
        cursors := s.cursors.set peer l.page.cursor
        history := s.history.committed peer l.page }.goto peer
          (if l.page.hasMore ∧ l.pageNumber + 1 < maxPagesPerSync then
            .fetching (l.pageNumber + 1) (some l.page.cursor) l.seenEventIds
          else .idle)
  | _ => s

/-- `Promise.all` of the workers is done and `retryDeferred` starts. -/
def gather (peers : Peers P) : Sync P :=
  match s.phase with
  | .syncing =>
    if peers.urls.length ≤ s.nextPeerIndex ∧ ∀ p ∈ peers.urls, (s.pc p).active = false then
      { s with phase := .retrying 0 0 s.deferred.keys }
    else s
  | _ => s

/-- The backoff of an event that was deferred again. -/
def deferredBackoffMs (attempts : Nat) : Nat := min maxDeferredBackoffMs (250 * 2 ^ min attempts 8)

/-- The call of `retryDeferred` for an entry, with the sources that are under their quota. -/
def retryEntry (eventId : EventId) (d : Deferred P) (first : P) (eligible : List P) (now : Nat)
    (answer : Answer) :
    Sync P × Nat :=
  let peer := if d.peer ∈ eligible then d.peer else first
  let attempts := d.attempts + 1
  let asked := (s.called eventId d.event peer).answered eventId peer answer
  let keep (entry : Deferred P) : Sync P := { asked with deferred := s.deferred.set eventId entry }
  match answer with
  | .thrown => (keep { d with peer, attempts, nextAttemptAt := now + maxDeferredBackoffMs }, 0)
  | .result .deferred =>
    (keep { d with peer := nextSource eligible peer, attempts, nextAttemptAt := now + deferredBackoffMs attempts }, 0)
  | .result .rejected =>
    (d.sources.foldl reject { asked with deferred := s.deferred.erase eventId }, 0)
  | .result .applied => ({ asked with deferred := s.deferred.erase eventId }, 1)

/-- `retryDeferred`, one entry or the end of a pass. -/
def retry (now : Nat) (answer : Answer) : Sync P :=
  match s.phase with
  | .retrying pass applied [] =>
    if applied = 0 ∨ maxDeferredPasses ≤ pass + 1 then { s with phase := .idle }
    else { s with phase := .retrying (pass + 1) 0 s.deferred.keys }
  | .retrying pass applied (eventId :: rest) =>
    match s.deferred.get eventId with
    | none => { s with phase := .retrying pass applied rest }
    | some d =>
      if maxDeferredAgeMs ≤ now - d.firstSeenAt ∨ maxDeferredAttempts ≤ d.attempts then
        { s with
          deferred := s.deferred.erase eventId
          cursors := d.sources.foldl Keyed.erase s.cursors
          phase := .retrying pass applied rest }
      else if now < d.nextAttemptAt then { s with phase := .retrying pass applied rest }
      else
        match d.sources.filter s.underQuota with
        | [] => { s with phase := .retrying pass applied rest }
        | first :: others =>
          let (next, count) := s.retryEntry eventId d first (first :: others) now answer
          { next with phase := .retrying pass (applied + count) rest }
  | _ => s

end Sync

/-- What can happen next. -/
inductive Input (P : Type*) where
  | syncAll
  | begin (due : Bool)
  | respond (peer : P) (body : Option Json)
  | record (peer : P) (late : Bool) (now : Nat)
  | resolve (application : Nat) (answer : Answer)
  | resume (peer : P) (now : Nat)
  | reply (peer : P) (answer : Answer)
  | proceed (peer : P) (late : Bool)
  | finish (peer : P) (late : Bool)
  | gather
  | retry (now : Nat) (answer : Answer)

/-- The sync as a system. What is not possible in a state leaves it as it is. -/
def Sync.step (E : Crypto) (peers : Peers P) (s : Sync P) : Input P → Sync P
  | .syncAll => s.syncAll
  | .begin due => s.begin peers due
  | .respond peer body => s.respond E peer body
  | .record peer late now => s.record peer late now
  | .resolve application answer => s.resolve application answer
  | .resume peer now => s.resume peer now
  | .reply peer answer => s.reply peer answer
  | .proceed peer late => s.proceed peer late
  | .finish peer late => s.finish peer late
  | .gather => s.gather peers
  | .retry now answer => s.retry now answer

end QuantaSwap.Feed.PeerSync
