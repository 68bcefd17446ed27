import Mathlib.Data.List.Sort
import QuantaSwap.Lib.Stringify
import QuantaSwap.Lib.Utf8
import QuantaSwap.Book.Store

/-!
# Events of the feed

Their canonical text and its digest, and the records that the log keeps of them.
-/

set_option autoImplicit false

namespace QuantaSwap.Book.FederationEventKind

/-- The wire name of a kind. -/
def text : FederationEventKind → String
  | orderV2 => "order-v2"
  | fillIntentV2 => "fill-intent-v2"
  | fillV2 => "fill-v2"
  | cancelV2 => "cancel-v2"
  | releaseV2 => "release-v2"

end QuantaSwap.Book.FederationEventKind

namespace QuantaSwap.Feed

open Lib.Js Lib.Text Lib.Utf8 QuantaSwap.Book

def feedIdRe (s : String) : Bool := fixed [] 32 isLowerHex s

abbrev FeedId := Matching feedIdRe
abbrev EventId := TokenHash

def maxEventBytes : Nat := 64 * 1024
def maxSnapshotEvents : Nat := 8192

/-- `isEventKind` -/
def isEventKind (s : String) : Option FederationEventKind :=
  [.orderV2, .fillIntentV2, .fillV2, .cancelV2, .releaseV2].find? fun kind => kind.text == s

@[simp] theorem isEventKind_text (kind : FederationEventKind) :
    isEventKind kind.text = some kind := by
  cases kind <;> rfl

def eventJson (e : FederationEvent) : Json :=
  .obj [("kind", .str e.kind.text), ("payload", .obj e.payload)]

/-! ## Canonical text -/

/-- The UTF-16 code units that `sort()` compares by. -/
def codeUnits (s : String) : List Nat :=
  s.toList.flatMap fun c =>
    if c.toNat < 0x10000 then [c.toNat]
    else [0xD800 + (c.toNat - 0x10000) / 0x400, 0xDC00 + (c.toNat - 0x10000) % 0x400]

def sortKeys (fields : List (String × List Char)) : List (String × List Char) :=
  fields.insertionSort fun a b => codeUnits a.1 ≤ codeUnits b.1

def joined (texts : List (List Char)) : List Char := List.intercalate [','] texts

mutual

/-- `canonicalValue`, `none` when it throws. -/
def canonicalValue : Json → Option (List Char)
  | .null => some (stringify .null)
  | .bool b => some (stringify (.bool b))
  | .str s => some (quoted s)
  | .num (.int z) => if z.natAbs ≤ maxSafeInteger then some (integer z) else none
  | .num .negZero => some ['0']
  | .num .other => none
  | .arr vs => (canonicalElements vs).map fun texts => '[' :: (joined texts ++ [']'])
  | .obj fields => (canonicalMembers fields).map fun texts =>
      '{' :: (joined ((sortKeys texts).map fun t => quoted t.1 ++ ':' :: t.2) ++ ['}'])

def canonicalElements : List Json → Option (List (List Char))
  | [] => some []
  | v :: vs => (canonicalValue v).bind fun t => (canonicalElements vs).map (t :: ·)

def canonicalMembers : List (String × Json) → Option (List (String × List Char))
  | [] => some []
  | (key, v) :: fields => (canonicalValue v).bind fun t =>
    (canonicalMembers fields).map ((key, t) :: ·)

end

def canonicalFederationJson (e : FederationEvent) : Option (List Char) :=
  canonicalValue (eventJson e)

/-- `parseFederationEvent` of a value whose shape is known. -/
def checkEvent (e : FederationEvent) : Option FederationEvent := do
  let text ← canonicalFederationJson e
  if maxEventBytes < byteLength text then none else some e

/-- `hasExactKeys` -/
def hasExactKeys (value : Record) (expected : List String) : Bool :=
  value.keys.length == expected.length && expected.all fun key => value.keys.contains key

/-- `parseFederationEvent` -/
def parseFederationEvent (raw : Json) : Option FederationEvent :=
  match raw with
  | .obj row =>
    if hasExactKeys row ["kind", "payload"] then
      match Record.get row "kind", Record.get row "payload" with
      | some (.str kind), some (.obj payload) => do
        let kind ← isEventKind kind
        checkEvent ⟨kind, payload⟩
      | _, _ => none
    else none
  | _ => none

/-- `federationEventId` -/
def federationEventId (E : Crypto) (e : FederationEvent) : Option EventId :=
  (canonicalFederationJson e).map fun text => E.sha256 (encode text)

/-- The event a caller passes, checked, with its id. -/
def identify (E : Crypto) (raw : FederationEvent) : Option (FederationEvent × EventId) := do
  let event ← checkEvent raw
  let eventId ← federationEventId E event
  return (event, eventId)

/-- `federationSnapshotDigest` -/
def federationSnapshotDigest (E : Crypto) (rawEvents : List FederationEvent) : Option EventId :=
  if maxSnapshotEvents < rawEvents.length then none
  else do
    let found ← rawEvents.mapM (identify E)
    let eventIds :=
      (found.map fun f => f.2.val).dedup.insertionSort fun a b => codeUnits a ≤ codeUnits b
    return E.sha256
      (encode ("QuantaSwap Federation snapshot V1\x00".toList ++ eventIds.flatMap String.toList))

/-! ## Records -/

/-- `FederationRecord` -/
structure FederationRecord where
  seq : Nat
  eventId : EventId
  event : FederationEvent

structure PersistedFederationRecord extends FederationRecord where
  receivedAt : SafeInt

/-- The properties of a record in its line of the log. -/
def PersistedFederationRecord.fields (r : PersistedFederationRecord) : Record :=
  [("seq", .num (.ofNat r.seq)), ("eventId", .str r.eventId.val), ("event", eventJson r.event),
    ("receivedAt", .num (.ofNat r.receivedAt.val))]

def asSafe : Option Json → Option SafeInt
  | some (.num n) => n.toSafe?
  | _ => none

/-- `parseRecord` -/
def parseRecord (E : Crypto) (row : Record) : Option PersistedFederationRecord := do
  let seq ← asSafe (row.get "seq")
  if seq.val < 1 then none
  else
    let eventId ← (asString (row.get "eventId")).bind (matching tokenHashRe)
    let receivedAt ← asSafe (row.get "receivedAt")
    let event ← (row.get "event").bind parseFederationEvent
    let actual ← federationEventId E event
    if actual ≠ eventId then none
    else return { seq := seq.val, eventId, event, receivedAt }

/-! ## What a log line keeps of an event -/

mutual

/-- No object names a property twice: what every JavaScript object is like. -/
def Distinct : Json → Prop
  | .null => True
  | .bool _ => True
  | .str _ => True
  | .num _ => True
  | .arr vs => DistinctElements vs
  | .obj fields => (fields.map Prod.fst).Nodup ∧ DistinctMembers fields

def DistinctElements : List Json → Prop
  | [] => True
  | v :: vs => Distinct v ∧ DistinctElements vs

def DistinctMembers : List (String × Json) → Prop
  | [] => True
  | (_, v) :: fields => Distinct v ∧ DistinctMembers fields

end

/-- An event that is made of JavaScript objects. -/
abbrev JsEvent := {e : FederationEvent // Distinct (.obj e.payload)}

mutual

theorem canonicalValue_settle : ∀ v : Json, canonicalValue (settle v) = canonicalValue v
  | .null => by rw [settle]
  | .bool _ => by rw [settle]
  | .str _ => by rw [settle]
  | .num (.int _) => by rw [settle]
  | .num .negZero => by rw [settle]; rfl
  | .num .other => by rw [settle]
  | .arr vs => by rw [settle, canonicalValue, canonicalValue, canonicalElements_settle vs]
  | .obj fields => by rw [settle, canonicalValue, canonicalValue, canonicalMembers_settle fields]

theorem canonicalElements_settle : ∀ vs :
    List Json, canonicalElements (settleElements vs) = canonicalElements vs
  | [] => by rw [settleElements]
  | v :: vs => by
    rw [settleElements, canonicalElements, canonicalElements, canonicalValue_settle v,
      canonicalElements_settle vs]

theorem canonicalMembers_settle : ∀ fields : List (String × Json),
    canonicalMembers (settleMembers fields) = canonicalMembers fields
  | [] => by rw [settleMembers]
  | (key, v) :: fields => by
    rw [settleMembers, canonicalMembers, canonicalMembers, canonicalValue_settle v,
      canonicalMembers_settle fields]

end

mutual

theorem distinct_settle : ∀ v : Json, Distinct v → Distinct (settle v)
  | .null, _ | .bool _, _ | .str _, _ | .num (.int _), _ | .num .negZero, _ | .num .other, _ => by
    rw [settle]; simp only [Distinct]
  | .arr vs, h => by
    rw [Distinct] at h
    rw [settle, Distinct]
    exact distinctElements_settle vs h
  | .obj fields, h => by
    rw [Distinct] at h
    rw [settle, Distinct, names_settleMembers]
    exact ⟨h.1, distinctMembers_settle fields h.2⟩

theorem distinctElements_settle : ∀ vs :
    List Json, DistinctElements vs → DistinctElements (settleElements vs)
  | [], _ => by rw [settleElements, DistinctElements]; trivial
  | v :: vs, h => by
    rw [DistinctElements] at h
    rw [settleElements, DistinctElements]
    exact ⟨distinct_settle v h.1, distinctElements_settle vs h.2⟩

theorem distinctMembers_settle : ∀ fields : List (String × Json),
    DistinctMembers fields → DistinctMembers (settleMembers fields)
  | [], _ => by rw [settleMembers, DistinctMembers]; trivial
  | (key, v) :: fields, h => by
    rw [DistinctMembers] at h
    rw [settleMembers, DistinctMembers]
    exact ⟨distinct_settle v h.1, distinctMembers_settle fields h.2⟩

end

mutual

theorem plain_settle : ∀ v : Json, Distinct v → (canonicalValue v).isSome → Plain (settle v)
  | .null, _, _ | .bool _, _, _ | .str _, _, _ => by rw [settle, Plain]; trivial
  | .num (.int z), _, h => by
    rw [canonicalValue] at h
    rw [settle, Plain]
    split at h
    · rename_i hsafe
      exact Nat.le_trans hsafe (by decide)
    · cases h
  | .num .negZero, _, _ => by rw [settle, Plain]; decide
  | .num .other, _, h => by rw [canonicalValue] at h; cases h
  | .arr vs, hd, h => by
    rw [Distinct] at hd
    rw [canonicalValue, Option.isSome_map] at h
    rw [settle, Plain]
    exact plainElements_settle vs hd h
  | .obj fields, hd, h => by
    rw [Distinct] at hd
    rw [canonicalValue, Option.isSome_map] at h
    rw [settle, Plain, names_settleMembers]
    exact ⟨hd.1, plainMembers_settle fields hd.2 h⟩

theorem plainElements_settle : ∀ vs : List Json,
    DistinctElements vs → (canonicalElements vs).isSome → PlainElements (settleElements vs)
  | [], _, _ => by rw [settleElements, PlainElements]; trivial
  | v :: vs, hd, h => by
    rw [DistinctElements] at hd
    rw [canonicalElements, Option.isSome_bind] at h
    rw [settleElements, PlainElements]
    cases hv : canonicalValue v with
    | none => rw [hv] at h; cases h
    | some t =>
      rw [hv] at h
      exact ⟨plain_settle v hd.1 (by rw [hv]; rfl), plainElements_settle vs hd.2 (by simpa using h)⟩

theorem plainMembers_settle : ∀ fields : List (String × Json),
    DistinctMembers fields → (canonicalMembers fields).isSome → PlainMembers (settleMembers fields)
  | [], _, _ => by rw [settleMembers, PlainMembers]; trivial
  | (key, v) :: fields, hd, h => by
    rw [DistinctMembers] at hd
    rw [canonicalMembers, Option.isSome_bind] at h
    rw [settleMembers, PlainMembers]
    cases hv : canonicalValue v with
    | none => rw [hv] at h; cases h
    | some t =>
      rw [hv] at h
      exact ⟨plain_settle v hd.1 (by rw [hv]; rfl),
        plainMembers_settle fields hd.2 (by simpa using h)⟩

end

/-- The event that a line keeps. -/
def settleEvent (e : FederationEvent) : FederationEvent :=
  { e with payload := settleMembers e.payload }

def PersistedFederationRecord.settle (r : PersistedFederationRecord) : PersistedFederationRecord :=
  { r with event := settleEvent r.event }

section Settle

variable {E : Crypto} {e : FederationEvent}

theorem eventJson_settleEvent (e : FederationEvent) :
    eventJson (settleEvent e) = settle (eventJson e) := by
  simp only [eventJson, settleEvent, settle, settleMembers]

@[simp] theorem canonicalFederationJson_settleEvent (e : FederationEvent) :
    canonicalFederationJson (settleEvent e) = canonicalFederationJson e := by
  rw [canonicalFederationJson, eventJson_settleEvent, canonicalValue_settle]
  rfl

@[simp] theorem federationEventId_settleEvent (e : FederationEvent) :
    federationEventId E (settleEvent e) = federationEventId E e := by
  simp only [federationEventId, canonicalFederationJson_settleEvent]

theorem checkEvent_eq_some {e' : FederationEvent} :
    checkEvent e = some e' ↔
      e = e' ∧ ∃ text, canonicalFederationJson e = some text ∧ byteLength text ≤ maxEventBytes := by
  unfold checkEvent
  cases canonicalFederationJson e with
  | none => simp
  | some text =>
    simp only [Option.bind_eq_bind, Option.bind_some, Option.some.injEq, exists_eq_left']
    split
    · simp only [reduceCtorEq, false_iff, not_and, Nat.not_le]
      exact fun _ => ‹_›
    · simp only [Option.some.injEq, iff_self_and]
      exact fun _ => Nat.le_of_not_lt ‹_›

theorem checkEvent_settleEvent (h : checkEvent e = some e) :
    checkEvent (settleEvent e) = some (settleEvent e) := by
  rw [checkEvent_eq_some] at h ⊢
  rw [canonicalFederationJson_settleEvent]
  exact ⟨rfl, h.2⟩

theorem parseFederationEvent_eventJson (h : checkEvent e = some e) :
    parseFederationEvent (eventJson e) = some e := by
  simp only [parseFederationEvent, eventJson, hasExactKeys, Record.keys, Record.get, List.map_cons,
    List.map_nil,
    List.lookup_cons, String.reduceBEq, BEq.rfl, isEventKind_text, Option.bind_eq_bind,
      Option.bind_some]
  exact h

theorem identify_eq_some {raw : FederationEvent} {found : FederationEvent × EventId}
    (h : identify E raw = some found) :
    found.1 = raw ∧ checkEvent raw = some raw ∧ federationEventId E raw = some found.2 := by
  simp only [identify, Option.bind_eq_bind, Option.bind_eq_some_iff, Option.pure_def,
    Option.some.injEq] at h
  obtain ⟨event, hcheck, eventId, hid, rfl⟩ := h
  obtain ⟨rfl, htext⟩ := checkEvent_eq_some.mp hcheck
  exact ⟨rfl, hcheck, hid⟩

end Settle

/-! ## Records in the log -/

/-- A record as `stageAppend` makes it. -/
structure PersistedFederationRecord.Sealed (E : Crypto) (r : PersistedFederationRecord) : Prop where
  checked : checkEvent r.event = some r.event
  digest : federationEventId E r.event = some r.eventId
  distinct : Distinct (.obj r.event.payload)
  positive : 1 ≤ r.seq

section Records

variable {E : Crypto} {r : PersistedFederationRecord}

theorem PersistedFederationRecord.Sealed.settle (h : r.Sealed E) : r.settle.Sealed E where
  checked := checkEvent_settleEvent h.checked
  digest := (federationEventId_settleEvent r.event).trans h.digest
  distinct := by
    have := distinct_settle _ h.distinct
    rwa [Lib.Js.settle] at this
  positive := h.positive

theorem fields_settle (r : PersistedFederationRecord) :
    r.settle.fields = settleMembers r.fields := by
  simp only [PersistedFederationRecord.fields, PersistedFederationRecord.settle,
    settleMembers, settle,
    eventJson_settleEvent, Num.ofNat]

theorem distinct_eventJson {e : FederationEvent} (h : Distinct (.obj e.payload)) :
    Distinct (eventJson e) := by
  simp only [eventJson, Distinct, DistinctMembers, List.map_cons, List.map_nil, and_true, true_and]
  exact ⟨by decide, by rwa [Distinct] at h⟩

theorem parseRecord_fields (h : r.Sealed E) (hseq : r.seq ≤ maxSafeInteger) :
    parseRecord E r.fields = some r := by
  have hseq' : asSafe (some (.num (.ofNat r.seq))) = some ⟨r.seq, hseq⟩ :=
    toSafe?_ofNat ⟨r.seq, hseq⟩
  have hreceived : asSafe (some (.num (.ofNat r.receivedAt.val))) = some r.receivedAt :=
    toSafe?_ofNat _
  simp only [parseRecord, PersistedFederationRecord.fields, Record.get, List.lookup_cons,
    String.reduceBEq, BEq.rfl,
    hseq', hreceived, Option.bind_eq_bind, Option.bind_some, asString, matching_val,
    parseFederationEvent_eventJson h.checked, h.digest, ne_eq, not_true_eq_false, if_false,
      Option.pure_def]
  exact if_neg (Nat.not_lt.mpr h.positive)

end Records

end QuantaSwap.Feed
