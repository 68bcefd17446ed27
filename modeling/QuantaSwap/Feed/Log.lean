import QuantaSwap.Feed.Ring

/-!
# The log file of the feed

`append`, `appendBatch`, `checkpoint`, `reconcileSnapshot` and `compact` write it,
`load` and `parseLog` read it. A write either happens, or is refused before the
file is touched, or fails and is undone. No other process writes the file.
-/

set_option autoImplicit false

namespace QuantaSwap.Feed

open Lib.Js Lib.Text Lib.Utf8 QuantaSwap.Book

inductive WriteResult where
  | done
  /-- `assertOwned` threw. -/
  | refused
  /-- The write failed and left the file as it was. -/
  | failed
  deriving DecidableEq

/-- How the writes of one operation come out. -/
structure Io where
  write : WriteResult := .done
  compaction : WriteResult := .done

/-- A feed and the file at its path. -/
structure LoggedFeed where
  feed : FederationFeed
  file : Option Bytes

inductive LogFileStatus where
  | unwritten
  | owned
  | missing
  deriving DecidableEq

/-! ## The text -/

def digestJson : Option EventId → Json
  | none => .null
  | some digest => .str digest.val

def headerJson (feedId : FeedId) (nextSeq : Nat) (snapshotDigest : Option EventId) : Json :=
  .obj [("type", .str "header"), ("version", .num (.ofNat 3)), ("feedId", .str feedId.val),
    ("nextSeq", .num (.ofNat nextSeq)), ("snapshotDigest", digestJson snapshotDigest)]

def Line.json : Line → Json
  | .event record => .obj (("type", .str "event") :: record.fields)
  | .digest snapshotDigest => .obj [("type", .str "digest"),
    ("snapshotDigest", digestJson snapshotDigest)]

def Line.text (line : Line) : List Char := stringify line.json

/-- The bytes of lines, each with its end. -/
def lineBytes (lines : List Line) : Bytes := encode (unlines (lines.map Line.text))

/-- A header and the lines behind it. -/
def logBytes (feedId : FeedId) (nextSeq : Nat) (snapshotDigest : Option EventId)
    (lines : List Line) : Bytes :=
  encode (unlines (stringify (headerJson feedId nextSeq snapshotDigest) :: lines.map Line.text))

namespace LoggedFeed

/-! ## Writing -/

def logFileStatus (s : LoggedFeed) : LogFileStatus :=
  if !s.feed.logIdentity then .unwritten
  else match s.file with
    | some _ => .owned
    | none => .missing

/-- `compact`, and whether it returned. -/
def compact (result : WriteResult) (s : LoggedFeed) : LoggedFeed × Bool :=
  match result with
  | .refused => (s, false)
  | .failed => ({ s with feed := { s.feed with logLines := none } }, false)
  | .done =>
    ({ feed := { s.feed with logLines := some s.feed.events.length, logIdentity := true }
       file := some (logBytes s.feed.feedId s.feed.nextSeq s.feed.snapshotDigest
         (s.feed.events.map .event)) },
      true)

/-- `appendLines`, and whether it returned. -/
def appendLines (maxEvents : Nat) (io : Io) (lines : List Line) (s : LoggedFeed) :
    LoggedFeed × Bool :=
  if lines.isEmpty then (s, true)
  else if io.write = .refused then (s, false)
  else match s.logFileStatus, s.feed.logLines with
    | .missing, _ | _, none => s.compact io.compaction
    | _, some linesBefore =>
      if io.write = .failed then ({ s with feed := { s.feed with logLines := none } }, false)
      else
        let written : LoggedFeed :=
          { feed := { s.feed with logLines := some (linesBefore + lines.length) }
            file := some (s.file.getD [] ++ lineBytes lines) }
        -- A failed compaction leaves the append durable.
        if maxEvents + (maxEvents + 3) / 4 < linesBefore + lines.length then
          ((written.compact io.compaction).1, true)
        else (written, true)

section Operations

variable (E : Crypto) (maxEvents : Nat)

/-- `append`, with what it returned. -/
def append (raw : FederationEvent) (receivedAt : Lib.Js.Num)
    (snapshot : Option (List FederationEvent)) (io : Io)
    (s : LoggedFeed) : LoggedFeed × Option FederationRecord :=
  match s.feed.stageAppend E maxEvents raw receivedAt snapshot with
  | none => (s, none)
  | some (feed, staged) =>
    if staged.lines.isEmpty then ({ s with feed }, some staged.record)
    else match appendLines maxEvents io staged.lines { s with feed } with
      | (s, true) => (s, some staged.record)
      | (s, false) => ({ s with feed := FederationFeed.rollback staged s.feed }, none)

/-- The lines of a batch. -/
def batchLines (staged : List FederationFeed.StagedAppend) : List Line := staged.flatMap (·.lines)

/-- `appendBatch`, with what it returned. -/
def appendBatch (raws : List FederationEvent) (receivedAt : Lib.Js.Num) (io : Io) (s : LoggedFeed) :
    LoggedFeed × Option (List FederationRecord) :=
  match FederationFeed.stageAll E maxEvents receivedAt raws s.feed with
  | (feed, staged, false) => ({ s with feed := FederationFeed.rollbackAll staged feed }, none)
  | (feed, staged, true) =>
    match appendLines maxEvents io (batchLines staged) { s with feed } with
    | (s, true) => (s, some (staged.map (·.record)))
    | (s, false) => ({ s with feed := FederationFeed.rollbackAll staged s.feed }, none)

/-- `checkpoint` -/
def checkpoint (rawEvents : List FederationEvent) (io : Io) (s : LoggedFeed) : LoggedFeed :=
  match federationSnapshotDigest E rawEvents with
  | none => s
  | some digest =>
    if some digest = s.feed.snapshotDigest ∨ s.logFileStatus ≠ .owned then s
    else match appendLines maxEvents io [.digest (some digest)]
        { s with feed := { s.feed with snapshotDigest := some digest } } with
      | (s', true) => s'
      | (s', false) => { s' with feed := { s'.feed with snapshotDigest := s.feed.snapshotDigest } }

/-- `reconcileSnapshot`, with the feed id that `randomBytes` gives and what it returned. -/
def reconcileSnapshot (rawEvents : List FederationEvent) (fresh : FeedId) (io : Io)
    (s : LoggedFeed) :
    LoggedFeed × Option Bool :=
  match federationSnapshotDigest E rawEvents with
  | none => (s, none)
  | some digest =>
    if some digest = s.feed.snapshotDigest then (s, some false)
    else
      let rotated : FederationFeed :=
        { s.feed with feedId := fresh, snapshotDigest := some digest, cachedResetPage := none }
      match compact io.compaction { s with feed := rotated } with
      | (s', true) => (s', some true)
      | (s', false) =>
        ({ s' with feed := { s'.feed with feedId := s.feed.feedId, snapshotDigest := s.feed.snapshotDigest } }, none)

end Operations

end LoggedFeed

/-! ## Reading -/

/-- `parseLine`, `none` when it throws. -/
def parseLine (line : List Char) : Option Record :=
  match parse line with
  | some (.obj row) => some row
  | _ => none

/-- `parseDigest` -/
def parseDigest : Option Json → Option (Option EventId)
  | none => some none
  | some .null => some none
  | some (.str s) => (matching tokenHashRe s).map some
  | some _ => none

/-- What `parseLog` has read so far. -/
structure Replay where
  snapshotDigest : Option EventId
  events : List PersistedFederationRecord := []
  ids : List EventId := []
  lastSeq : Nat := 0

section Read

variable (E : Crypto) (maxEvents : Nat)

/-- One record of the log enters the ring. -/
def Replay.push (st : Replay) (record : PersistedFederationRecord) : Replay :=
  -- An event trimmed from the ring may be appended again later.
  let kept := if record.eventId ∈ st.ids then
    st.events.eraseP fun e => e.eventId = record.eventId else st.events
  let events := kept ++ [record]
  let surplus := events.length - maxEvents
  { st with
    events := events.drop surplus
    ids := (events.take surplus).foldl (fun ids entry => FederationFeed.deleteId ids entry.eventId)
      (FederationFeed.addId st.ids record.eventId)
    lastSeq := record.seq }

/-- One line behind the header. -/
def Replay.line (st : Replay) (text : List Char) : Option Replay := do
  let row ← parseLine text
  match row.get "type" with
  | some (.str "digest") => do
    let snapshotDigest ← parseDigest (row.get "snapshotDigest")
    return { st with snapshotDigest }
  | some (.str "event") => do
    let record ← parseRecord E (row.filter fun field => field.1 ≠ "type")
    if record.seq ≤ st.lastSeq then none else some (st.push maxEvents record)
  | _ => none

def parseFeedId : Option Json → Option FeedId
  | some (.str s) => matching feedIdRe s
  | _ => none

def parseNextSeq (value : Option Json) : Option Nat := do
  let nextSeq ← asSafe value
  if nextSeq.val < 1 then none else some nextSeq.val

/-- `(events[i - 1]?.seq ?? 0) < (events[i]?.seq ?? 0)` all along. -/
def increasing (events : List PersistedFederationRecord) : Bool :=
  (events.zip events.tail).all fun pair => decide (pair.1.seq < pair.2.seq)

/-- `loadLegacyEnvelope` -/
def loadLegacyEnvelope (envelope : Record) : Option FederationFeed := do
  let feedId ← parseFeedId (envelope.get "feedId")
  let nextSeq ← parseNextSeq (envelope.get "nextSeq")
  match envelope.get "events" with
  | some (.arr rawEvents) =>
    if maxEvents < rawEvents.length then none
    else
      let snapshotDigest ← parseDigest (envelope.get "snapshotDigest")
      let events ← rawEvents.mapM fun raw => match raw with
        | .obj row => parseRecord E row
        | _ => none
      let eventIds := events.map (·.eventId)
      if !increasing events then none
      else if nextSeq ≤ (events.getLast?.map (·.seq)).getD 0 then none
      else if ¬eventIds.Nodup then none
      else return { feedId, nextSeq, events, eventIds, snapshotDigest }
  | _ => none

/-- The version of a header or an envelope. -/
def hasVersion (row : Record) (version : Nat) : Bool :=
  match row.get "version" with
  | some (.num n) => n == .ofNat version
  | _ => false

/-- `parseLog` on a feed that was just made: what it loaded, and whether the file must be
rewritten. `none` when it throws. -/
def parseLog (fresh : FeedId) (raw : List Char) : Option (FederationFeed × Bool) :=
  if raw.isEmpty then some ({ feedId := fresh }, true)
  else if '\n' ∉ raw then do
    let envelope ← parseLine raw
    if hasVersion envelope 2 then
      let feed ← loadLegacyEnvelope E maxEvents envelope
      return (feed, true)
    else none
  else do
    let pieces := raw.splitOn '\n'
    -- A crash can leave one last line without an end.
    let tornTail := pieces.getLast? != some []
    let lines := pieces.dropLast
    let header ← parseLine (lines.head?.getD [])
    match header.get "type", hasVersion header 3 with
    | some (.str "header"), true =>
      let feedId ← parseFeedId (header.get "feedId")
      let nextSeq ← parseNextSeq (header.get "nextSeq")
      let snapshotDigest ← parseDigest (header.get "snapshotDigest")
      let read ← lines.tail.foldlM (fun st text => st.line E maxEvents text)
        { snapshotDigest : Replay }
      return ({
        feedId
        nextSeq := max nextSeq (read.lastSeq + 1)
        events := read.events
        eventIds := read.ids
        snapshotDigest := read.snapshotDigest
        logLines := some (lines.length - 1) }, tornTail)
    | _, _ => none

/-- `load`, with the feed id that `randomBytes` gives. `none` when the constructor throws. -/
def load (fresh : FeedId) (io : Io) (file : Option Bytes) : Option LoggedFeed :=
  match file with
  | none => some { feed := { feedId := fresh }, file := none }
  | some bytes =>
    match parseLog E maxEvents fresh (decode bytes) with
    | none =>
      -- `quarantine`: the log is moved aside and a fresh feed starts.
      if io.write = .done then some { feed := { feedId := fresh }, file := none } else none
    | some (feed, true) =>
      match LoggedFeed.compact io.compaction { feed, file } with
      | (s, true) => some s
      | (_, false) => none
    | some (feed, false) => some { feed := { feed with logIdentity := true }, file }

end Read

end QuantaSwap.Feed
