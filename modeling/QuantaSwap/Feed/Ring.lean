import QuantaSwap.Feed.Event

/-!
# The retained ring

`FederationFeed` in memory: what an append stages and how it is undone, which
cursors need a reset, and the pages that peers read.
-/

set_option autoImplicit false

namespace QuantaSwap.Feed

open Lib.Js Lib.Text Lib.Utf8 QuantaSwap.Book

def maxFederationIncrementalBytes : Nat := 4 * 1024 * 1024
def resetCacheTtlMs : Nat := 5000

structure FederationPage where
  reset : Bool
  cursor : String
  hasMore : Bool
  events : List FederationRecord
  snapshot : Option (List FederationRecord) := none

structure CachedResetPage where
  expiresAt : Nat
  page : FederationPage

/-- `FederationFeed`, less its file. The bound of the ring is a parameter of what it does. -/
structure FederationFeed where
  feedId : FeedId
  nextSeq : Nat := 1
  events : List PersistedFederationRecord := []
  eventIds : List EventId := []
  snapshotDigest : Option EventId := none
  cachedResetPage : Option CachedResetPage := none
  /-- Event and digest lines in the log file. -/
  logLines : Option Nat := none
  /-- The process wrote or read the log file at its path. -/
  logIdentity : Bool := false

/-- A line of the log behind its header. -/
inductive Line where
  | event (record : PersistedFederationRecord)
  | digest (snapshotDigest : Option EventId)

/-! ## Cursors -/

/-- `${feedId}:${sequence}` -/
def cursorOf (feedId : FeedId) (sequence : Nat) : String :=
  String.ofList (feedId.val.toList ++ ':' :: Nat.toDigits 10 sequence)

/-- `FEDERATION_CURSOR_RE.exec(cursor)`: the feed id and the sequence. -/
def parseCursor (cursor : String) : Option (FeedId × Nat) := do
  let feedId ← matching feedIdRe (String.ofList (cursor.toList.take 32))
  match cursor.toList.drop 32 with
  | ':' :: digits =>
    if Lib.Decimal.canonical digits ∧ digits.length ≤ 16 then
      some (feedId, Lib.Decimal.value (String.ofList digits))
    else none
  | _ => none

namespace FederationFeed

/-- The sequence of a cursor that the ring can continue. -/
def continues (f : FederationFeed) (cursor : Option String) : Option Nat := do
  let cursor ← cursor
  if 64 < cursor.length then none
  else
    let (feedId, after) ← parseCursor cursor
    if feedId ≠ f.feedId ∨ maxSafeInteger < after then none
    else
      let oldest := (f.events.head?.map (·.seq)).getD f.nextSeq
      let highWater := f.nextSeq - 1
      if after < oldest - 1 ∨ highWater < after then none else some after

def requiresReset (f : FederationFeed) (cursor : Option String) : Bool :=
  (f.continues cursor).isNone

/-! ## Appends -/

/-- What the undo of an append puts back. -/
structure Undo where
  previousNextSeq : Nat
  previousSnapshotDigest : Option EventId
  /-- The record that the append made, and whether it was pushed. -/
  record : PersistedFederationRecord
  pushed : Bool
  removed : List PersistedFederationRecord

structure StagedAppend where
  lines : List Line
  record : FederationRecord
  undo : Option Undo

/-- `eventIds.add` -/
def addId (ids : List EventId) (eventId : EventId) : List EventId :=
  if eventId ∈ ids then ids else ids ++ [eventId]

/-- `eventIds.delete` -/
def deleteId (ids : List EventId) (eventId : EventId) : List EventId := ids.filter (· ≠ eventId)

/-- The ring with its oldest records shifted out, down to `maxEvents`. -/
def trim (maxEvents : Nat) (f : FederationFeed) : FederationFeed :=
  let surplus := f.events.length - maxEvents
  { f with
    events := f.events.drop surplus
    eventIds := (f.events.take surplus).foldl
      (fun ids entry => deleteId ids entry.eventId) f.eventIds }

/-- The cached reset page after an append, in the ring `f` that has the append. -/
def keptResetPage (f : FederationFeed) (replayed digestChanged : Bool) : Option CachedResetPage :=
  f.cachedResetPage.filter fun cached =>
    !(replayed || digestChanged || f.requiresReset (some cached.page.cursor))

/-- The digest that the feed stores with an append. Without a snapshot it is unknown until the
next checkpoint. -/
def nextSnapshotDigest (E : Crypto) : Option (List FederationEvent) → Option (Option EventId)
  | none => some none
  | some events => (federationSnapshotDigest E events).map some

/-- The rest of `stageAppend`, for an event that is new or a snapshot that changed. -/
def stageRecord (maxEvents : Nat) (record : PersistedFederationRecord)
    (existing : Option PersistedFederationRecord)
    (nextDigest : Option EventId) (f : FederationFeed) : FederationFeed × StagedAppend :=
  let replayed := existing.isSome
  let pushed := if replayed then f else
    { f with
      nextSeq := f.nextSeq + 1
      events := f.events ++ [record]
      eventIds := addId f.eventIds record.eventId }
  let digestChanged := decide (nextDigest ≠ f.snapshotDigest)
  let lines := (if replayed then [] else [Line.event record]) ++
    (if digestChanged then [Line.digest nextDigest] else [])
  let removed := pushed.events.take (pushed.events.length - maxEvents)
  let trimmed := trim maxEvents { pushed with snapshotDigest := nextDigest }
  ({ trimmed with cachedResetPage := trimmed.keptResetPage replayed digestChanged },
    { lines, record := (existing.getD record).toFederationRecord
      undo := some ⟨f.nextSeq, f.snapshotDigest, record, !replayed, removed⟩ })

/-- `stageAppend`, `none` when it throws. -/
def stageAppend (E : Crypto) (maxEvents : Nat) (raw : FederationEvent) (receivedAt : Lib.Js.Num)
    (snapshot : Option (List FederationEvent)) (f : FederationFeed) :
      Option (FederationFeed × StagedAppend) := do
  let (event, eventId) ← identify E raw
  let existing := f.events.find? fun entry => entry.eventId = eventId
  let nextDigest ← nextSnapshotDigest E snapshot
  match existing, decide (nextDigest = f.snapshotDigest) with
  | some entry, true =>
    return (if snapshot.isNone then { f with cachedResetPage := none } else f,
      { lines := [], record := entry.toFederationRecord, undo := none })
  | _, _ =>
    let receivedAt ← receivedAt.toSafe?
    return f.stageRecord maxEvents { seq := f.nextSeq, eventId, event, receivedAt } existing
      nextDigest

/-- The ring without its last record of this sequence. -/
def removeLast (seq : Nat) (events : List PersistedFederationRecord) :
    List PersistedFederationRecord :=
  (events.reverse.eraseP (·.seq == seq)).reverse

/-- A record that was shifted out comes back to the front. -/
def unshift (record : PersistedFederationRecord) (f : FederationFeed)
    (entry : PersistedFederationRecord) :
    FederationFeed :=
  if entry.seq = record.seq then f
  else { f with events := entry :: f.events, eventIds := addId f.eventIds entry.eventId }

/-- `rollback` -/
def rollback (staged : StagedAppend) (f : FederationFeed) : FederationFeed :=
  match staged.undo with
  | none => f
  | some u =>
    let restored : FederationFeed :=
      { f with nextSeq := u.previousNextSeq, snapshotDigest := u.previousSnapshotDigest }
    let popped : FederationFeed := if u.pushed then
      { restored with
        events := removeLast u.record.seq restored.events
        eventIds := deleteId restored.eventIds u.record.eventId }
      else restored
    { u.removed.reverse.foldl (unshift u.record) popped with cachedResetPage := none }

/-- Every event of a batch staged, in order. When one throws, what was staged is kept for
the rollback. -/
def stageAll (E : Crypto) (maxEvents : Nat) (receivedAt : Lib.Js.Num) :
    List FederationEvent → FederationFeed → FederationFeed × List StagedAppend × Bool
  | [], f => (f, [], true)
  | raw :: raws, f =>
    match stageAppend E maxEvents raw receivedAt none f with
    | none => (f, [], false)
    | some (f, staged) =>
      let (f, rest, ok) := stageAll E maxEvents receivedAt raws f
      (f, staged :: rest, ok)

/-- The rollbacks of a batch, the last one first. -/
def rollbackAll (staged : List StagedAppend) (f : FederationFeed) : FederationFeed :=
  staged.foldr rollback f

/-! ## Pages -/

def recordJson (r : FederationRecord) : Json :=
  .obj [("seq", .num (.ofNat r.seq)), ("eventId", .str r.eventId.val), ("event", eventJson r.event)]

/-- The records of one incremental page: at most `limit`, and no more bytes than a page may
hold, but one record at least. -/
def select (limit selectedBytes : Nat) (first : Bool) :
    List PersistedFederationRecord → List PersistedFederationRecord
  | [] => []
  | entry :: available =>
    let recordBytes := byteLength (stringify (recordJson entry.toFederationRecord)) + 1
    if limit = 0 then []
    else if !first && decide (maxFederationIncrementalBytes < selectedBytes + recordBytes) then []
    else entry :: select (limit - 1) (selectedBytes + recordBytes) false available

/-- The records of a reset snapshot, all at the sequence it was taken at. -/
def snapshotRecords (E : Crypto) (highWater : Nat) (snapshot : List FederationEvent) :
    Option (List FederationRecord) :=
  snapshot.mapM fun event => (identify E event).map fun found =>
    { seq := highWater, eventId := found.2, event := found.1 }

/-- The page behind a cursor that the ring continues. -/
def incrementalPage (f : FederationFeed) (after limit : Nat) : FederationPage :=
  let available := f.events.filter fun entry => after < entry.seq
  let selected := select limit 256 true available
  { reset := false
    cursor := cursorOf f.feedId ((selected.getLast?.map (·.seq)).getD after)
    hasMore := decide (selected.length < available.length)
    events := selected.map (·.toFederationRecord) }

/-- `page`, `none` when it throws. -/
def page (E : Crypto) (cursor : Option String) (limit : Nat) (snapshot : List FederationEvent)
    (now : Lib.Js.Num)
    (f : FederationFeed) : Option (FederationPage × FederationFeed) :=
  if limit < 1 ∨ 256 < limit then none
  else match f.continues cursor with
    | some after => some (f.incrementalPage after limit, f)
    | none => do
      let now ← now.toSafe?
      match f.cachedResetPage.filter fun c => decide (now.val < c.expiresAt) &&
        !f.requiresReset (some c.page.cursor) with
      | some cached => return (cached.page, f)
      | none =>
        let records ← snapshotRecords E (f.nextSeq - 1) snapshot
        let page : FederationPage :=
          { reset := true, cursor := cursorOf f.feedId (f.nextSeq - 1), hasMore := false, events := []
            snapshot := some records }
        return (page, { f with cachedResetPage := some ⟨now.val + resetCacheTtlMs, page⟩ })

end FederationFeed

end QuantaSwap.Feed
