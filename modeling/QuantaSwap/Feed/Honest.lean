import QuantaSwap.Feed.Peer

/-!
# The pages of a feed at its peers

Any page that a feed makes is one that its peers read and go on from, so a pass over
a feed is only stopped by a reset, a repeated event or what its records lead to.
-/

set_option autoImplicit false

namespace QuantaSwap.Feed

open Lib.Js Lib.Text Lib.Run QuantaSwap.Book

/-- The record that its JSON text keeps. -/
def FederationRecord.settle (r : FederationRecord) : FederationRecord :=
  { r with event := settleEvent r.event }

/-- The page that its JSON text keeps. -/
def FederationPage.settle (p : FederationPage) : FederationPage :=
  { p with
    events := p.events.map FederationRecord.settle
    snapshot := p.snapshot.map fun records => records.map FederationRecord.settle }

namespace PeerSync

/-- A record that a peer reads back from its text. -/
structure Sendable (E : Crypto) (r : FederationRecord) : Prop where
  checked : checkEvent r.event = some r.event
  digest : federationEventId E r.event = some r.eventId
  distinct : Distinct (.obj r.event.payload)
  safe : r.seq ≤ maxSafeInteger

section Text

variable {E : Crypto} {r : FederationRecord} {records : List FederationRecord} {p : FederationPage}

theorem Sendable.settle (h : Sendable E r) : Sendable E r.settle where
  checked := checkEvent_settleEvent h.checked
  digest := by
    rw [FederationRecord.settle, federationEventId_settleEvent]
    exact h.digest
  distinct := by
    have := distinct_settle _ h.distinct
    rw [Lib.Js.settle] at this
    exact this
  safe := h.safe

theorem settle_recordJson (r : FederationRecord) :
    Lib.Js.settle (FederationFeed.recordJson r) = FederationFeed.recordJson r.settle := by
  simp only [FederationFeed.recordJson, Lib.Js.settle, settleMembers, Num.ofNat,
    FederationRecord.settle,
    eventJson_settleEvent]

theorem settleElements_records (records : List FederationRecord) :
    settleElements (records.map FederationFeed.recordJson) =
      (records.map FederationRecord.settle).map FederationFeed.recordJson := by
  induction records with
  | nil => rw [List.map_nil, settleElements, List.map_nil, List.map_nil]
  | cons r records ih =>
    rw [List.map_cons, settleElements, ih, settle_recordJson, List.map_cons, List.map_cons]

theorem settle_pageJson (p : FederationPage) : Lib.Js.settle (pageJson p) = pageJson p.settle := by
  cases hsnapshot : p.snapshot with
  | none =>
    simp only [pageJson, FederationPage.settle, hsnapshot, Option.map_none, Option.toList_none,
      List.append_nil,
      Lib.Js.settle, settleMembers, settleElements_records]
  | some records =>
    simp only [pageJson, FederationPage.settle, hsnapshot, Option.map_some, Option.toList_some,
      List.cons_append,
      List.nil_append, Lib.Js.settle, settleMembers, settleElements_records]

theorem plain_recordJson (h : Sendable E r) : Plain (FederationFeed.recordJson r.settle) := by
  have hevent : Plain (eventJson (settleEvent r.event)) := by
    obtain ⟨-, text, htext, -⟩ := checkEvent_eq_some.mp h.checked
    rw [eventJson_settleEvent]
    refine plain_settle _ (distinct_eventJson h.distinct) ?_
    rw [show canonicalValue (eventJson r.event) = some text from htext]
    rfl
  have hsafe : r.seq ≤ 2 ^ 53 := h.safe.trans (by decide)
  simp only [FederationFeed.recordJson, FederationRecord.settle, Plain, PlainMembers, Num.ofNat,
    Int.natAbs_natCast,
    List.map_cons, List.map_nil, and_true, true_and]
  exact ⟨by decide, hsafe, hevent⟩

theorem plainElements_records (h : ∀ r ∈ records, Sendable E r) :
    PlainElements ((records.map FederationRecord.settle).map FederationFeed.recordJson) := by
  induction records with
  | nil => rw [List.map_nil, List.map_nil, PlainElements]; trivial
  | cons r records ih =>
    rw [List.map_cons, List.map_cons, PlainElements]
    exact ⟨plain_recordJson (h r List.mem_cons_self),
      ih fun x hx => h x (List.mem_cons_of_mem _ hx)⟩

theorem parse_pageJson (h : ∀ r ∈ p.events ++ p.snapshot.getD [], Sendable E r) :
    parse (stringify (pageJson p)) = some (pageJson p.settle) := by
  have hevents := plainElements_records fun r hr => h r (List.mem_append_left _ hr)
  have hplain : Plain (pageJson p.settle) := by
    cases hsnapshot : p.snapshot with
    | none =>
      simp only [pageJson, FederationPage.settle, hsnapshot, Option.map_none, Option.toList_none,
        List.append_nil,
        Plain, PlainMembers, List.map_cons, List.map_nil, and_true, true_and]
      exact ⟨by decide, hevents⟩
    | some records =>
      have hrecords : ∀ r ∈ records, Sendable E r := fun r hr =>
        h r (List.mem_append_right _ (by rw [hsnapshot]; exact hr))
      simp only [pageJson, FederationPage.settle, hsnapshot, Option.map_some, Option.toList_some,
        List.cons_append,
        List.nil_append, Plain, PlainMembers, List.map_cons, List.map_nil, and_true, true_and]
      exact ⟨by decide, hevents, plainElements_records hrecords⟩
  rw [← stringify_settle, settle_pageJson, parse_stringify hplain]

end Text

/-! ## Reading it -/

/-- A page at the record `n` of the feed `id` that passes every check of its reader. -/
structure Readable (E : Crypto) (id : FeedId) (n : Nat) (p : FederationPage) : Prop where
  cursor : p.cursor = cursorOf id n
  safe : n ≤ maxSafeInteger
  records : ∀ r ∈ p.events ++ p.snapshot.getD [], Sendable E r
  positive : ∀ r ∈ p.events, 1 ≤ r.seq
  alone : p.reset = true → p.hasMore = false ∧ p.events = []
  snapshot : p.snapshot.isSome = p.reset
  batch : p.events.length ≤ 256
  few : (p.snapshot.getD []).length ≤ maxSnapshotEvents
  more : p.hasMore = true → p.events ≠ []
  eventIds : (p.events.map (·.eventId)).Nodup
  snapshotIds : ((p.snapshot.getD []).map (·.eventId)).Nodup
  inStep : inStep n p = true

section Read

variable {E : Crypto} {id : FeedId} {n k : Nat} {p : FederationPage} {seen : List EventId}

@[simp] theorem eventId_settle (r : FederationRecord) : r.settle.eventId = r.eventId := rfl
@[simp] theorem seq_settle (r : FederationRecord) : r.settle.seq = r.seq := rfl

theorem contiguous_settle (records : List FederationRecord) :
    contiguous (records.map FederationRecord.settle) = contiguous records := by
  induction records with
  | nil => rfl
  | cons a records ih =>
    cases records with
    | nil => rfl
    | cons b records =>
      rw [List.map_cons, List.map_cons, contiguous, contiguous, ← List.map_cons, ih]
      rfl

theorem inStep_settle : inStep n p.settle = inStep n p := by
  unfold inStep
  rw [show p.settle.reset = p.reset from rfl]
  split
  · cases hsnapshot : p.snapshot with
    | none => simp only [FederationPage.settle, hsnapshot, Option.map_none]
    | some records =>
      simp only [FederationPage.settle, hsnapshot, Option.map_some, Option.any_some, List.any_map]
      rfl
  · rw [FederationPage.settle, contiguous_settle, List.getLast?_map, Option.any_map]
    rfl

theorem Readable.settle (h : Readable E id n p) : Readable E id n p.settle where
  cursor := h.cursor
  safe := h.safe
  records r hr := by
    rw [List.mem_append] at hr
    rcases hr with hr | hr
    · obtain ⟨x, hx, rfl⟩ := List.mem_map.mp hr
      exact (h.records x (List.mem_append_left _ hx)).settle
    · cases hsnapshot : p.snapshot with
      | none =>
        rw [FederationPage.settle, hsnapshot] at hr
        cases hr
      | some records =>
        rw [FederationPage.settle, hsnapshot, Option.map_some, Option.getD_some] at hr
        obtain ⟨x, hx, rfl⟩ := List.mem_map.mp hr
        refine (h.records x (List.mem_append_right _ ?_)).settle
        rw [hsnapshot]
        exact hx
  positive r hr := by
    obtain ⟨x, hx, rfl⟩ := List.mem_map.mp hr
    exact h.positive x hx
  alone hreset := by
    obtain ⟨hmore, hevents⟩ := h.alone hreset
    exact ⟨hmore, by rw [FederationPage.settle, hevents, List.map_nil]⟩
  snapshot := by
    rw [FederationPage.settle, Option.isSome_map]
    exact h.snapshot
  batch := by
    rw [FederationPage.settle, List.length_map]
    exact h.batch
  few := by
    have hfew := h.few
    cases hsnapshot : p.snapshot with
    | none => simp [FederationPage.settle, hsnapshot]
    | some records => simpa [FederationPage.settle, hsnapshot] using hfew
  more hmore := by
    rw [FederationPage.settle, ne_eq, List.map_eq_nil_iff]
    exact h.more hmore
  eventIds := by
    rw [FederationPage.settle, List.map_map]
    exact h.eventIds
  snapshotIds := by
    have hids := h.snapshotIds
    cases hsnapshot : p.snapshot with
    | none => simp [FederationPage.settle, hsnapshot]
    | some records =>
      rw [hsnapshot] at hids
      rw [FederationPage.settle, hsnapshot, Option.map_some, Option.getD_some, List.map_map]
      exact hids
  inStep := inStep_settle.trans h.inStep

theorem parseRecord_recordJson {r : FederationRecord} (h : Sendable E r) (hk : k ≤ r.seq)
    (hnew : r.eventId ∉ seen) :
    parseRecord E seen k (FederationFeed.recordJson r) = some r := by
  have hseq : asSafe (some (.num (.ofNat r.seq))) = some ⟨r.seq, h.safe⟩ :=
    toSafe?_ofNat ⟨r.seq, h.safe⟩
  have hkeys : hasExactKeys [("seq", .num (.ofNat r.seq)), ("eventId", .str r.eventId.val),
    ("event", eventJson r.event)]
      ["seq", "eventId", "event"] = true := rfl
  simp only [parseRecord, FederationFeed.recordJson, hkeys, if_true, Record.get, List.lookup_cons,
    String.reduceBEq, BEq.rfl,
    hseq, Option.bind_eq_bind, Option.bind_some, asString, matching_val,
      parseFederationEvent_eventJson h.checked,
    h.digest, ne_eq, not_true_eq_false, if_false, if_neg hnew, if_neg (Nat.not_lt.mpr hk)]

theorem parseRecords_records {records : List FederationRecord} (h : ∀ r ∈ records, Sendable E r)
    (hk : ∀ r ∈ records, k ≤ r.seq) (hids : (records.map (·.eventId)).Nodup)
    (hnew : ∀ r ∈ records, r.eventId ∉ seen) :
    parseRecords E k seen (records.map FederationFeed.recordJson) = some records := by
  induction records generalizing seen with
  | nil => rfl
  | cons r records ih =>
    obtain ⟨hr, hids⟩ := List.nodup_cons.mp hids
    have hrest := ih (fun x hx => h x (List.mem_cons_of_mem _ hx))
      (fun x hx => hk x (List.mem_cons_of_mem _ hx)) hids fun x hx hmem => by
        rcases mem_addId.mp hmem with hmem | heq
        · exact hnew x (List.mem_cons_of_mem _ hx) hmem
        · exact hr (List.mem_map.mpr ⟨x, hx, heq⟩)
    rw [List.map_cons, parseRecords,
      parseRecord_recordJson (h r List.mem_cons_self) (hk r List.mem_cons_self)
        (hnew r List.mem_cons_self)]
    simp only [Option.bind_eq_bind, Option.bind_some, hrest, Option.pure_def]

theorem parseCursor_cursorOf (hn : n ≤ maxSafeInteger) :
    parseCursor (cursorOf id n) = some (id, n) := by
  have hlength : id.val.toList.length = 32 := by
    obtain ⟨body, hbody, hlength, -⟩ := fixed_iff.mp id.property
    rw [hbody, List.nil_append, hlength]
  have hcanonical : Lib.Decimal.canonical (Nat.toDigits 10 n) = true := by
    rw [← Nat.toList_repr]
    exact Lib.Decimal.canonical_repr n
  have hdigits : (Nat.toDigits 10 n).length ≤ 16 :=
    (Nat.length_toDigits_le_iff (by decide) (by decide)).mpr (Nat.lt_of_le_of_lt hn (by decide))
  have hparse : Feed.parseCursor (cursorOf id n) = some (id, n) := by
    unfold Feed.parseCursor cursorOf
    rw [String.toList_ofList, List.take_left' hlength, List.drop_left' hlength,
      String.ofList_toList, matching_val]
    simp only [Option.bind_eq_bind, Option.bind_some, hcanonical, hdigits, and_self, if_true,
      Lib.Decimal.value,
      String.toList_ofList, Nat.ofDigitChars_ten_toDigits]
  rw [parseCursor, hparse]
  exact Option.filter_eq_some_iff.mpr ⟨rfl, decide_eq_true hn⟩

/-- The properties of a page. -/
def pageFields (p : FederationPage) : Record :=
  [("reset", .bool p.reset), ("cursor", .str p.cursor), ("hasMore", .bool p.hasMore),
    ("events", .arr (p.events.map FederationFeed.recordJson))] ++
    (p.snapshot.map fun records =>
      ("snapshot", Json.arr (records.map FederationFeed.recordJson))).toList

theorem get_pageFields (p : FederationPage) :
    Record.get (pageFields p) "reset" = some (.bool p.reset) ∧
    Record.get (pageFields p) "cursor" = some (.str p.cursor) ∧
      Record.get (pageFields p) "hasMore" = some (.bool p.hasMore) ∧
      Record.get (pageFields p) "events" = some (.arr (p.events.map FederationFeed.recordJson)) ∧
      Record.get (pageFields p) "snapshot" =
        p.snapshot.map fun records => .arr (records.map FederationFeed.recordJson) := by
  refine ⟨rfl, rfl, rfl, rfl, ?_⟩
  cases hsnapshot : p.snapshot <;> rw [pageFields, hsnapshot] <;> rfl

theorem hasExactKeys_pageFields (h : p.snapshot.isSome = p.reset) :
    hasExactKeys (pageFields p) (pageKeys p.reset) = true := by
  cases hsnapshot : p.snapshot with
  | none =>
    rw [hsnapshot, Option.isSome_none] at h
    rw [pageFields, hsnapshot, ← h]
    rfl
  | some records =>
    rw [hsnapshot, Option.isSome_some] at h
    rw [pageFields, hsnapshot, ← h]
    rfl

theorem parseFederationPage_pageJson (h : Readable E id n p) :
    parseFederationPage E (pageJson p) = some p := by
  have hcursor : parseCursor p.cursor = some (id, n) := h.cursor ▸ parseCursor_cursorOf h.safe
  have hevents : parseRecords E 1 [] (p.events.map FederationFeed.recordJson) = some p.events :=
    parseRecords_records (fun r hr => h.records r (List.mem_append_left _ hr)) h.positive h.eventIds
      fun _ _ => List.not_mem_nil
  have hsnapshot :
    parseSnapshot E (p.snapshot.map fun records => .arr (records.map FederationFeed.recordJson)) =
      some p.snapshot := by
    cases hsnapshot : p.snapshot with
    | none => rfl
    | some records =>
      have hfew := h.few
      have hids := h.snapshotIds
      have hrecords : ∀ r ∈ records, Sendable E r := fun r hr =>
        h.records r (List.mem_append_right _ (by rw [hsnapshot]; exact hr))
      rw [hsnapshot, Option.getD_some] at hfew hids
      simp only [Option.map_some, parseSnapshot, asArray, Option.bind_eq_bind, Option.bind_some,
        List.length_map,
        if_neg (Nat.not_lt.mpr hfew),
        parseRecords_records hrecords (fun _ _ => Nat.zero_le _) hids fun _ _ => List.not_mem_nil]
  obtain ⟨hreset, htext, hmore, hentries, hfound⟩ := get_pageFields p
  have hkeys := hasExactKeys_pageFields h.snapshot
  have hsingle : ¬(p.reset = true ∧ p.hasMore = true) := by
    rintro ⟨hreset, hmore⟩
    rw [(h.alone hreset).1] at hmore
    cases hmore
  have hbare : ¬(p.reset = true ∧ p.events.length > 0) := by
    rintro ⟨hreset, hpos⟩
    rw [(h.alone hreset).2] at hpos
    exact absurd hpos (Nat.lt_irrefl 0)
  have hempty : ¬((!p.reset) = true ∧ p.hasMore = true ∧ p.events.length = 0) := by
    rintro ⟨-, hmore, hzero⟩
    exact h.more hmore (List.length_eq_zero_iff.mp hzero)
  have hbatch : ¬256 < p.events.length := Nat.not_lt.mpr h.batch
  rw [show pageJson p = .obj (pageFields p) from rfl]
  simp only [parseFederationPage, hreset, asBoolean, Option.bind_eq_bind, Option.bind_some, hfound,
    Option.isSome_map,
    h.snapshot, ne_eq, not_true_eq_false, if_false, hkeys, Bool.not_true, Bool.false_eq_true, htext,
      asString, hcursor,
    hmore, hentries, asArray, List.length_map, if_neg hbatch, if_neg hsingle, if_neg hbare,
      if_neg hempty, hevents,
    hsnapshot]
  exact if_pos h.inStep

end Read

/-! ## Pages behind a cursor -/

section Incremental

variable {E : Crypto} {maxEvents lo limit after : Nat} {history : List FederationRecord}
  {f : FederationFeed}
  {cursor : Option String} {p : FederationPage}

theorem contiguous_of_seqs {records : List FederationRecord} {a : Nat}
    (h : records.map (·.seq) = List.range' a records.length) : contiguous records = true := by
  induction records generalizing a with
  | nil => rfl
  | cons r records ih =>
    cases records with
    | nil => rfl
    | cons x records =>
      rw [List.map_cons, List.length_cons, List.range'_succ, List.cons.injEq] at h
      obtain ⟨hr, h⟩ := h
      have hx := h
      rw [List.map_cons, List.length_cons, List.range'_succ, List.cons.injEq] at hx
      rw [contiguous, ih h, hx.1, hr, decide_eq_true rfl]
      rfl

theorem length_select_le (limit bytes : Nat) (first : Bool)
    (available : List PersistedFederationRecord) :
    (FederationFeed.select limit bytes first available).length ≤ limit := by
  induction available generalizing limit bytes first with
  | nil => exact Nat.zero_le _
  | cons entry available ih =>
    rw [FederationFeed.select]
    split
    · exact Nat.zero_le _
    · split
      · exact Nat.zero_le _
      · rename_i hlimit _
        have := ih (limit - 1) (bytes + (Lib.Utf8.byteLength (stringify
          (FederationFeed.recordJson entry.toFederationRecord)) + 1)) false
        rw [List.length_cons]
        omega

theorem sendable_of_sealed {r : PersistedFederationRecord} (h : r.Sealed E)
    (hsafe : r.seq ≤ maxSafeInteger) :
    Sendable E r.toFederationRecord := ⟨h.checked, h.digest, h.distinct, hsafe⟩

theorem readable_incrementalPage (hring : Ring E maxEvents f.image) (hw : Window lo history f)
    (hsafe : f.nextSeq ≤ maxSafeInteger + 1) (hlow : 1 ≤ limit) (hhigh : limit ≤ 256)
    (hcursor : f.continues cursor = some after) :
    (∃ m, Readable E f.feedId m (f.incrementalPage after limit)) ∧
      validateFederationPageProgress cursor (f.incrementalPage after limit) = true := by
  obtain ⟨m, hpage⟩ := hw.incrementalPage hlow hcursor
  obtain ⟨htext, -, hafter⟩ := FederationFeed.continues_eq_some hcursor
  obtain ⟨k, hk, hselect, -⟩ := FederationFeed.select_eq_take limit 256 true
    (f.events.filter fun entry => after < entry.seq)
  have hevents : (f.incrementalPage after limit).events =
      ((f.events.filter fun entry => after < entry.seq).take k).map (·.toFederationRecord) := by
    rw [← hselect]
    rfl
  have hnext := hw.nextSeq
  have hknown := hpage.known
  have hm : m ≤ maxSafeInteger := by omega
  have hn : after ≤ maxSafeInteger := by omega
  have hseqs := seq_stretch hw.numbered hpage.start hpage.le hpage.known
  rw [← hpage.events] at hseqs
  have hlength := congrArg List.length hseqs
  rw [List.length_map, List.length_range'] at hlength
  have hrecords : ∀ r ∈ (f.incrementalPage after limit).events, Sendable E r ∧ 1 ≤ r.seq := by
    intro r hr
    rw [hevents] at hr
    obtain ⟨entry, hentry, rfl⟩ := List.mem_map.mp hr
    have hmem := (List.mem_filter.mp (List.mem_of_mem_take hentry)).1
    have hlast := (hw.seq_mem (hw.ring.subset (List.mem_map_of_mem hmem))).2
    have hsealed := hring.valid entry hmem
    refine ⟨sendable_of_sealed hsealed ?_, hsealed.positive⟩
    show entry.seq ≤ maxSafeInteger
    have hlast' : entry.seq < f.nextSeq := hlast
    omega
  have hids : ((f.incrementalPage after limit).events.map (·.eventId)).Nodup := by
    rw [hevents, List.map_map]
    have hsub : ((f.events.filter fun entry => after < entry.seq).take k).Sublist f.events :=
      (List.take_sublist _ _).trans List.filter_sublist
    exact hring.distinct.sublist (hsub.map (·.eventId))
  have hfew : (f.incrementalPage after limit).events.length ≤ 256 := by
    show ((FederationFeed.select limit 256 true _).map _).length ≤ 256
    rw [List.length_map]
    exact (length_select_le _ _ _ _).trans hhigh
  have hmore : (f.incrementalPage after limit).hasMore = true →
    (f.incrementalPage after limit).events ≠ [] := by
    intro hmore hnil
    have hlt := hpage.advances hmore
    rw [hnil, List.length_nil] at hlength
    omega
  -- The cursor of the page is the number of its last record.
  have hstep : inStep m (f.incrementalPage after limit) = true := by
    have hlast := FederationFeed.getLast?_stretch hw.numbered hpage.start hpage.le hpage.known
    rw [← hpage.events] at hlast
    rw [inStep, hpage.reset, if_neg Bool.false_ne_true, contiguous_of_seqs (hlength ▸ hseqs),
      Bool.true_and]
    cases hlast? : (f.incrementalPage after limit).events.getLast? with
    | none => rfl
    | some r =>
      rw [hlast?, Option.map_some, Option.getD_some] at hlast
      simp [hlast]
  refine ⟨⟨m, hpage.cursor, hm, fun r hr => ?_, fun r hr => (hrecords r hr).2, fun hreset => ?_,
    rfl, hfew,
    Nat.zero_le _, hmore, hids, List.nodup_nil, hstep⟩, ?_⟩
  · rw [List.mem_append] at hr
    rcases hr with hr | hr
    · exact (hrecords r hr).1
    · cases hr
  · rw [hpage.reset] at hreset
    cases hreset
  · rw [validateFederationPageProgress, hpage.reset, Bool.false_or, htext, Option.bind_some,
      parseCursor_cursorOf hn,
      hpage.cursor, parseCursor_cursorOf hm]
    dsimp only
    rw [decide_eq_true rfl, Bool.true_and]
    -- A page without records must stay at the cursor, and say that there is no more.
    cases hhead : (f.incrementalPage after limit).events.head? with
    | none =>
      have hnil := List.head?_eq_none_iff.mp hhead
      dsimp only
      rw [hnil, List.length_nil] at hlength
      have hle := hpage.le
      rw [Bool.eq_false_iff.mpr fun h => hmore h hnil, decide_eq_true (by omega : m = after)]
      rfl
    | some r =>
      have hfirst := hpage.head?_seq hw.numbered hhead
      have hpos : 0 < (f.incrementalPage after limit).events.length :=
        List.length_pos_of_mem (List.mem_of_mem_head? hhead)
      dsimp only
      rw [decide_eq_true (by omega : after ≠ maxSafeInteger), decide_eq_true hfirst,
        decide_eq_true (by omega : after < m)]
      rfl

theorem validate_settle :
    validateFederationPageProgress cursor p.settle = validateFederationPageProgress cursor p := by
  unfold validateFederationPageProgress
  simp only [FederationPage.settle, List.head?_map]
  cases p.events.head? <;> rfl

end Incremental

/-! ## Reset pages -/

/-- A snapshot that peers can read: no more events than they take, each once, of JavaScript
objects. -/
structure Presentable (E : Crypto) (snapshot : List FederationEvent) : Prop where
  few : snapshot.length ≤ maxSnapshotEvents
  once : (snapshot.map (federationEventId E)).Nodup
  objects : ∀ e ∈ snapshot, Distinct (.obj e.payload)

/-- A reset page has nothing but its snapshot, also when it is kept for the next reset. -/
def Alone (f : FederationFeed) : Prop :=
  ∀ cached, f.cachedResetPage = some cached → cached.page.hasMore = false ∧ cached.page.events = []

section Reset

variable {E : Crypto} {maxEvents lo limit n : Nat} {base : List FederationRecord}
  {snapshot : List FederationEvent}
  {records : List FederationRecord} {f f' : FederationFeed} {cursor : Option String}
    {p : FederationPage}
  {s : Served} {now cacheNow : Lib.Js.Num} {key : List Char}

theorem snapshotRecords_eq_some (h : FederationFeed.snapshotRecords E n snapshot = some records) :
    records.length = snapshot.length ∧
      (records.map (·.eventId)).map some = snapshot.map (federationEventId E) ∧
      ∀ r ∈ records, r.seq = n ∧ r.event ∈ snapshot ∧ checkEvent r.event = some r.event ∧
        federationEventId E r.event = some r.eventId := by
  unfold FederationFeed.snapshotRecords at h
  induction snapshot generalizing records with
  | nil =>
    rw [List.mapM_nil, Option.pure_def, Option.some.injEq] at h
    subst h
    exact ⟨rfl, rfl, nofun⟩
  | cons event snapshot ih =>
    rw [List.mapM_cons] at h
    obtain ⟨r, hr, h⟩ := Option.bind_eq_some_iff.mp h
    obtain ⟨rs, hrs, h⟩ := Option.bind_eq_some_iff.mp h
    rw [Option.pure_def, Option.some.injEq] at h
    subst h
    obtain ⟨found, hfound, rfl⟩ := Option.map_eq_some_iff.mp hr
    obtain ⟨heq, hcheck, hid⟩ := identify_eq_some hfound
    obtain ⟨hlength, hids, hrecords⟩ := ih hrs
    refine ⟨congrArg Nat.succ hlength, ?_, fun x hx => ?_⟩
    · rw [List.map_cons, List.map_cons, List.map_cons, hids, hid]
    · rcases List.mem_cons.mp hx with rfl | hx
      · refine ⟨rfl, ?_, ?_, ?_⟩
        · rw [heq]
          exact List.mem_cons_self
        · rw [heq]
          exact hcheck
        · rw [heq]
          exact hid
      · obtain ⟨hseq, hmem, hrest⟩ := hrecords x hx
        exact ⟨hseq, List.mem_cons_of_mem _ hmem, hrest⟩

theorem readable_reset {id : FeedId} (hpresentable : Presentable E snapshot)
    (hn : n ≤ maxSafeInteger)
    (hrecords : FederationFeed.snapshotRecords E n snapshot = some records)
    (hreset : p.reset = true)
    (hcursor : p.cursor = cursorOf id n) (hsnapshot : p.snapshot = some records)
    (hmore : p.hasMore = false)
    (hevents : p.events = []) : Readable E id n p := by
  obtain ⟨hlength, hids, hall⟩ := snapshotRecords_eq_some hrecords
  refine ⟨hcursor, hn, fun r hr => ?_, fun r hr => ?_, fun _ => ⟨hmore, hevents⟩, ?_, ?_, ?_,
    fun h => ?_, ?_, ?_, ?_⟩
  · rw [hevents, hsnapshot, List.nil_append, Option.getD_some] at hr
    obtain ⟨hseq, hmem, hcheck, hid⟩ := hall r hr
    exact ⟨hcheck, hid, hpresentable.objects r.event hmem, hseq ▸ hn⟩
  · rw [hevents] at hr
    cases hr
  · rw [hsnapshot, hreset, Option.isSome_some]
  · rw [hevents]
    exact Nat.zero_le _
  · rw [hsnapshot, Option.getD_some, hlength]
    exact hpresentable.few
  · rw [hmore] at h
    cases h
  · rw [hevents]
    exact List.nodup_nil
  · rw [hsnapshot, Option.getD_some]
    exact List.Nodup.of_map some (hids ▸ hpresentable.once)
  · rw [inStep, hreset, if_pos rfl, hsnapshot, Option.any_some, Bool.not_eq_true',
      List.any_eq_false]
    intro r hr
    simp [(hall r hr).1]

theorem Alone.kept (h : Alone f) (hkept : CacheKept f f') : Alone f' := by
  intro cached hcached
  rcases hkept with heq | hnone
  · exact h cached (heq ▸ hcached)
  · rw [hnone] at hcached
    cases hcached

theorem alone_of_paged (h : Alone f) (hpaged : Paged E cursor limit snapshot f f' p) :
    Alone f' ∧ (p.reset = true → p.hasMore = false ∧ p.events = []) := by
  cases hpaged with
  | incremental after hcursor hlimit hpage hfeed =>
    subst hfeed hpage
    exact ⟨h, nofun⟩
  | cached hcursor entry hentry hpage hfeed =>
    subst hfeed hpage
    exact ⟨h, fun _ => h entry hentry⟩
  | fresh hcursor records expiresAt hrecords hpage hfeed =>
    have hp : p.hasMore = false ∧ p.events = [] := hpage ▸ ⟨rfl, rfl⟩
    refine ⟨fun cached hcached => ?_, fun _ => hp⟩
    rw [hfeed, Option.some.injEq] at hcached
    rw [← hcached]
    exact hp

theorem alone_respond (h : Alone f) {responses : FederationResponseCache} :
    Alone (respond E key cursor limit snapshot now cacheNow f responses).2.1 := by
  rcases (FederationResponseCache.looked_getOrCreate key
    (createPage E cursor limit snapshot now) cacheNow responses
    f).feed with hsame | ⟨r, hcreate⟩
  · rw [show (respond E key cursor limit snapshot now cacheNow f responses).2.1 = f from hsame]
    exact h
  · rcases createPage_cases hcreate with ⟨-, hsame⟩ | ⟨p, hpaged, -⟩
    · rw [show (respond E key cursor limit snapshot now cacheNow f responses).2.1 = f from hsame]
      exact h
    · exact (alone_of_paged h hpaged).1

theorem alone_serve (hmax : 1 ≤ maxEvents) (hs : ServedOk E lo base s maxEvents)
    (h : Alone s.logged.feed) (act : Act) :
    Alone (serve E maxEvents s act).logged.feed := by
  cases act with
  | append raw receivedAt snapshot io =>
    exact h.kept (grown_append hmax hs.logged hs.window raw receivedAt snapshot io).cache
  | appendBatch raws receivedAt io =>
    exact h.kept (grown_appendBatch hmax hs.logged hs.window raws receivedAt io).cache
  | checkpoint rawEvents io => exact h.kept (grown_checkpoint hs.window rawEvents io).cache
  | reconcileSnapshot rawEvents fresh io =>
    exact h.kept (grown_reconcileSnapshot hs.window rawEvents fresh io).cache
  | compact result => exact h.kept (grown_compact hs.window result).cache
  | join cursor => exact h
  | page client limit snapshot now =>
    unfold serve
    dsimp only
    split
    · split
      · rename_i page feed _ hpage
        exact (alone_of_paged h (paged hpage)).1
      · exact h
    · exact h
  | request client limit snapshot now cacheNow =>
    unfold serve
    dsimp only
    split
    · split
      · exact h
      · split
        · exact h
        · exact alone_respond h
    · exact h
  | resume client snapshot now cacheNow =>
    unfold serve
    dsimp only
    split
    · split
      · exact alone_respond h
      · exact h
    · exact h

theorem alone_run (hmax : 1 ≤ maxEvents) {start : LoggedFeed} (hstart : Opened E maxEvents start)
    (acts : List Act) :
    Alone (run (serve E maxEvents) { logged := start } acts).logged.feed := by
  have hstart' : Alone start.feed := fun cached hcached => by
    rw [hstart.cached] at hcached
    cases hcached
  exact (invariant (I := fun s => ServedOk E start.first start.feed.records s maxEvents ∧
    Alone s.logged.feed)
    (fun _ act hs => ⟨servedOk_serve hmax hs.1 act, alone_serve hmax hs.1 hs.2 act⟩)
    ⟨servedOk_start hstart, hstart'⟩ acts).2

/-- Any page that a served feed makes passes both checks against the cursor it was asked for
with. -/
theorem readable_page (hs : ServedOk E lo base s maxEvents) (halone : Alone s.logged.feed)
    (hsafe : s.logged.feed.nextSeq ≤ maxSafeInteger + 1)
    (hsnapshots : ∀ taken ∈ s.snapshots ++ [(snapshot, s.published.length)], Presentable E taken.1)
    (h : s.logged.feed.page E cursor limit snapshot now = some (p, f')) :
    (∃ id n, Readable E id n p) ∧ validateFederationPageProgress cursor p = true := by
  have hpaged := paged h
  have hlimit : limit ≤ 256 := by
    unfold FederationFeed.page at h
    split at h
    · cases h
    · omega
  by_cases hcursor : s.logged.feed.requiresReset cursor = true
  · obtain ⟨id, after, records, hreset⟩ := reset_complete hs hcursor h
    obtain ⟨taken, k, hmem, -, hrecords, -, -⟩ := hreset.taken
    obtain ⟨hmore, hevents⟩ := (alone_of_paged halone hpaged).2 hreset.reset
    have hnext := hs.window.nextSeq
    have hknown := hreset.known
    have hhistory : ((s.seen f' snapshot).history base).length = (s.history base).length := rfl
    refine ⟨⟨id, after, readable_reset (hsnapshots _ hmem) (by omega) hrecords hreset.reset
      hreset.cursor hreset.snapshot hmore hevents⟩, ?_⟩
    rw [validateFederationPageProgress, hreset.reset, Bool.true_or]
  · cases hpaged with
    | incremental after hcontinues hlow hpage hfeed =>
      subst hpage
      obtain ⟨⟨m, hm⟩, hprogress⟩ :=
        readable_incrementalPage hs.logged.good.ring hs.window hsafe hlow hlimit hcontinues
      exact ⟨⟨_, m, hm⟩, hprogress⟩
    | cached hcontinues entry hentry hpage hfeed =>
      rw [FederationFeed.requiresReset, hcontinues] at hcursor
      exact absurd rfl hcursor
    | fresh hcontinues records expiresAt hrecords hpage hfeed =>
      rw [FederationFeed.requiresReset, hcontinues] at hcursor
      exact absurd rfl hcursor

end Reset

/-! ## A peer and its feed -/

section Claim

variable {E : Crypto}

theorem Accepted.of_nil {cursor last : Option String} (h : Accepted E cursor [] last) :
    last = cursor := by
  generalize hpages : ([] : List FederationPage) = pages at h
  cases h with
  | start => rfl
  | page h raw p hparse hprogress =>
    exact absurd hpages.symm (List.append_ne_nil_of_right_ne_nil _ (by simp))

theorem Accepted.of_cons {cursor last : Option String} {pages rest : List FederationPage}
    {first : FederationPage}
    (h : Accepted E cursor pages last) (hpages : pages = first :: rest) :
    (∃ raw, parseFederationPage E raw = some first) ∧
    validateFederationPageProgress cursor first = true ∧
      Accepted E (some first.cursor) rest last := by
  induction h generalizing rest with
  | start => cases hpages
  | page h raw p hparse hprogress ih =>
    rename_i before requested
    cases before with
    | nil =>
      rw [List.nil_append, List.cons.injEq] at hpages
      obtain ⟨rfl, rfl⟩ := hpages
      rw [h.of_nil] at hprogress
      exact ⟨⟨raw, hparse⟩, hprogress, .start⟩
    | cons q qs =>
      rw [List.cons_append, List.cons.injEq] at hpages
      obtain ⟨rfl, rfl⟩ := hpages
      obtain ⟨hfirst, hvalid, hrest⟩ := ih rfl
      exact ⟨hfirst, hvalid, hrest.page raw p hparse hprogress⟩

theorem Paging.records {cursor : Option String} {pass : Pass} (h : Paging E cursor pass)
    {last : Option String}
    (hlast : Accepted E cursor pass.applied last) (hne : pass.applied ≠ []) :
    ∃ id n m, n ≤ m ∧ last = some (cursorOf id m) ∧
      (pass.applied.flatMap (·.events)).map (·.seq) = List.range' (n + 1) (m - n) ∧
      (cursor = some (cursorOf id n) ∨
        ∃ first, pass.applied.head? = some first ∧ first.reset = true ∧
        first.cursor = cursorOf id n) := by
  obtain ⟨first, rest, happlied⟩ := List.exists_cons_of_ne_nil hne
  have hrest : ∀ p ∈ rest, p.reset = false := by
    have := h.incremental
    rw [happlied] at this
    exact this
  obtain ⟨⟨raw, hparse⟩, hprogress, hafter⟩ := hlast.of_cons happlied
  have hparsed := parseFederationPage_eq_some hparse
  cases hreset : first.reset with
  | true =>
    obtain ⟨⟨id, n⟩, hcursor, -⟩ := hparsed.cursor
    have htext := (parseCursor_eq_some hcursor).1
    rw [htext] at hafter
    obtain ⟨m, hle, hend, hseqs⟩ := hafter.follows hrest
    refine ⟨id, n, m, hle, hend, ?_,
      Or.inr ⟨first, by rw [happlied, List.head?_cons], hreset, htext⟩⟩
    rw [happlied, List.flatMap_cons, (hparsed.alone hreset).2, List.nil_append]
    exact hseqs
  | false =>
    obtain ⟨id, n, -, rfl, -⟩ := follows_of_accepted hparsed hprogress hreset
    have hall : ∀ p ∈ pass.applied, p.reset = false := by
      intro p hp
      rw [happlied] at hp
      rcases List.mem_cons.mp hp with rfl | hp
      · exact hreset
      · exact hrest p hp
    obtain ⟨m, hle, hend, hseqs⟩ := hlast.follows hall
    exact ⟨id, n, m, hle, hend, hseqs, Or.inl rfl⟩

/-- Whatever page a served feed makes, of snapshots that peers can read, its text passes both checks
of a peer against the cursor it was asked for with. Pages that pass them go on from cursor to
cursor, and a pass of the paging loop reads 16 pages at most, with consecutive records and no event
twice. -/
theorem honest_pages_progress {maxEvents : Nat} (hmax : 1 ≤ maxEvents) {start : LoggedFeed}
    (hstart : Opened E maxEvents start) (acts : List Act)
    (hsnapshots : ∀ taken ∈ (run (serve E maxEvents) { logged := start } acts).snapshots,
      Presentable E taken.1)
    (hsafe : (run (serve E maxEvents) { logged := start } acts).logged.feed.nextSeq ≤
      maxSafeInteger + 1) :
    let feed := (run (serve E maxEvents) { logged := start } acts).logged.feed
    (∀ cursor limit snapshot now p feed', Presentable E snapshot →
      feed.page E cursor limit snapshot now = some (p, feed') →
      (parse (stringify (pageJson p))).bind (parseFederationPage E) = some p.settle ∧
        validateFederationPageProgress cursor p.settle = true) ∧
    (∀ requested raw p, parseFederationPage E raw = some p →
      validateFederationPageProgress requested p = true →
      (pageIds p).Nodup ∧ (p.reset = false → ∃ id n m, requested = some (cursorOf id n) ∧
        Follows id n p m ∧
        (p.events ≠ [] → n < m))) ∧
    (∀ id n pages last, Accepted E (some (cursorOf id n)) pages last →
      (∀ p ∈ pages, p.reset = false) →
      ∃ m, n ≤ m ∧ last = some (cursorOf id m) ∧
        (pages.flatMap (·.events)).map (·.seq) = List.range' (n + 1) (m - n)) ∧
    ∀ peer cursor pass outcome, syncPeer E peer cursor = (pass, outcome) →
      pass.applied.length ≤ maxPagesPerSync ∧ (pass.applied.flatMap pageIds).Nodup ∧
      (∀ p ∈ pass.applied.tail, p.reset = false) ∧ (∀ p ∈ pass.applied.dropLast, p.hasMore = true) ∧
      (outcome = .complete → ∃ p, pass.applied.getLast? = some p ∧ p.hasMore = false) ∧
      ∃ last, Accepted E cursor pass.applied last ∧ (pass.cursor = last ∨ pass.cursor = none) ∧
        (pass.applied ≠ [] → ∃ id n m, n ≤ m ∧ last = some (cursorOf id m) ∧
          (pass.applied.flatMap (·.events)).map (·.seq) = List.range' (n + 1) (m - n) ∧
          (cursor = some (cursorOf id n) ∨
            ∃ first, pass.applied.head? = some first ∧ first.reset = true ∧
            first.cursor = cursorOf id n)) := by
  intro feed
  refine ⟨fun cursor limit snapshot now p feed' hpresentable hpage => ?_,
    fun requested raw p hparse hprogress => ?_,
    fun id n pages last h hreset => h.follows hreset, fun peer cursor pass outcome hsync => ?_⟩
  · have hsnapshots' : ∀ taken ∈ (run (serve E maxEvents) { logged := start } acts).snapshots ++
        [(snapshot, (run (serve E maxEvents) { logged := start } acts).published.length)],
          Presentable E taken.1 := by
      intro taken htaken
      rcases List.mem_append.mp htaken with htaken | htaken
      · exact hsnapshots taken htaken
      · rw [List.mem_singleton] at htaken
        rw [htaken]
        exact hpresentable
    obtain ⟨⟨id, n, hreadable⟩, hprogress⟩ :=
      readable_page (servedOk_run hmax hstart acts) (alone_run hmax hstart acts)
      hsafe hsnapshots' hpage
    rw [parse_pageJson hreadable.records, Option.bind_some, validate_settle]
    exact ⟨parseFederationPage_pageJson hreadable.settle, hprogress⟩
  · have hparsed := parseFederationPage_eq_some hparse
    refine ⟨hparsed.once, fun hreset => ?_⟩
    obtain ⟨id, n, m, hrequested, hfollows⟩ := follows_of_accepted hparsed hprogress hreset
    exact ⟨id, n, m, hrequested, hfollows, hfollows.advances⟩
  · have hstart : Going E cursor 0 { cursor } :=
      { accepted := ⟨cursor, .start, Or.inl rfl⟩, incremental := nofun, more := nofun, seen := fun _ => Iff.rfl
        once := List.nodup_nil, kept := .start, count := rfl, unfinished := nofun }
    obtain ⟨hpaging, hlength, hcomplete⟩ := paging_syncPages peer maxPagesPerSync hstart hsync
    obtain ⟨last, haccepted, hcursor⟩ := hpaging.accepted
    rw [Nat.zero_add] at hlength
    exact ⟨hlength, hpaging.once, hpaging.incremental, hpaging.more, hcomplete, last,
      haccepted, hcursor,
      hpaging.records haccepted⟩

/-- A feed of one cancel, after a reset of it with an empty book. -/
def oneCancelActs : List Act :=
  [.appendBatch [emptyCancel] (.int 0) {}, .join none, .page 0 256 [] (.int 0)]

theorem presentable_nil (E : Crypto) : Presentable E [] := ⟨Nat.zero_le _, List.nodup_nil, nofun⟩

theorem run_oneCancelActs :
    (run (serve twoDigests 4096) { logged := .start someFeedId } oneCancelActs).snapshots =
      [([], 1)] ∧
      (run (serve twoDigests 4096) { logged := .start someFeedId }
        oneCancelActs).logged.feed.nextSeq = 2 ∧
      ((run (serve twoDigests 4096) { logged := .start someFeedId } oneCancelActs).logged.feed.page
        twoDigests
        (some (cursorOf someFeedId 0)) 256 [] (.int 0)).map (fun r => r.1.events.map (·.eventId)) =
          some [emptyCancelId] :=
  ⟨rfl, by decide +kernel, by decide +kernel⟩

theorem honest_pages_progress_sample :
    ∃ p feed', (run (serve twoDigests 4096) { logged := .start someFeedId }
      oneCancelActs).logged.feed.page twoDigests
        (some (cursorOf someFeedId 0)) 256 [] (.int 0) = some (p, feed') ∧
        p.events.map (·.eventId) = [emptyCancelId] ∧
      (parse (stringify (pageJson p))).bind (parseFederationPage twoDigests) = some p.settle ∧
      validateFederationPageProgress (some (cursorOf someFeedId 0)) p.settle = true := by
  obtain ⟨hsnapshots, hnext, hpage⟩ := run_oneCancelActs
  obtain ⟨⟨p, feed'⟩, hp, hevents⟩ := Option.map_eq_some_iff.mp hpage
  have hopened : Opened twoDigests 4096 (.start someFeedId) := opened_start someFeedId
  have hpresentable :
    ∀ taken ∈ (run (serve twoDigests 4096) { logged := .start someFeedId } oneCancelActs).snapshots,
      Presentable twoDigests taken.1 := by
    intro taken htaken
    rw [hsnapshots, List.mem_singleton] at htaken
    rw [htaken]
    exact presentable_nil twoDigests
  obtain ⟨hread, hprogress⟩ := (honest_pages_progress (by decide) hopened oneCancelActs hpresentable
    (by rw [hnext]; decide)).1 _ 256 [] (.int 0) p feed' (presentable_nil twoDigests) hp
  exact ⟨p, feed', hp, hevents, hread, hprogress⟩

/-- Two pages with the same event, asked for one after the other. -/
def repeatedPage (n : Nat) (hasMore : Bool) : FederationPage where
  reset := false
  cursor := cursorOf someFeedId n
  hasMore := hasMore
  events := [⟨n, emptyCancelId, emptyCancel.val⟩]

theorem readable_repeatedPage {n : Nat} (hpos : 1 ≤ n) (hn : n ≤ maxSafeInteger) (hasMore : Bool) :
    Readable twoDigests someFeedId n (repeatedPage n hasMore) := by
  obtain ⟨-, hcheck, hid⟩ := identify_eq_some identify_emptyCancel
  have hsendable : Sendable twoDigests ⟨n, emptyCancelId, emptyCancel.val⟩ :=
    ⟨hcheck, hid, emptyCancel.property, hn⟩
  refine ⟨rfl, hn, fun r hr => ?_, fun r hr => ?_, nofun, rfl, (show 1 ≤ 256 by decide),
    Nat.zero_le _, fun _ => List.cons_ne_nil _ _,
    List.nodup_singleton _, List.nodup_nil, ?_⟩
  · rw [List.mem_append] at hr
    rcases hr with hr | hr
    · rw [List.mem_singleton.mp hr]
      exact hsendable
    · cases hr
  · rw [List.mem_singleton.mp hr]
    exact hpos
  · simp [inStep, repeatedPage, contiguous]

/-- Pages that both functions accept may repeat an event, or keep the cursor where it is, and a page
of a snapshot that repeats an event is refused. -/
theorem accepted_pages_repeat :
    (∃ last, Accepted twoDigests (some (cursorOf someFeedId 0))
        [repeatedPage 1 true, repeatedPage 2 false] last ∧
      ¬([repeatedPage 1 true, repeatedPage 2 false].flatMap pageIds).Nodup) ∧
    (∃ raw p, parseFederationPage twoDigests raw = some p ∧
      validateFederationPageProgress (some p.cursor) p = true) ∧
    ∃ p feed', (LoggedFeed.start someFeedId).feed.page twoDigests none 256 [emptyCancel.val,
      emptyCancel.val] (.int 0) =
      some (p, feed') ∧ parseFederationPage twoDigests (pageJson p) = none := by
  refine ⟨⟨_, .page
    (.page .start _ _ (parseFederationPage_pageJson
      (readable_repeatedPage (le_refl 1) (by decide) true))
    (by decide +kernel)) _ (repeatedPage 2 false) (parseFederationPage_pageJson
      (readable_repeatedPage (by decide) (by decide) false)) (by
        decide +kernel), by decide +kernel⟩, ?_, ?_⟩
  · have hread : Readable twoDigests someFeedId 0
        { reset := false, cursor := cursorOf someFeedId 0, hasMore := false, events := [] } :=
      ⟨rfl, Nat.zero_le _, nofun, nofun, nofun, rfl, Nat.zero_le _, Nat.zero_le _, nofun,
        List.nodup_nil,
        List.nodup_nil, rfl⟩
    exact ⟨_, _, parseFederationPage_pageJson hread, by decide +kernel⟩
  · have hpage : ((LoggedFeed.start someFeedId).feed.page twoDigests none 256
        [emptyCancel.val, emptyCancel.val] (.int 0)).map
          (fun r => (parseFederationPage twoDigests (pageJson r.1)).isNone) = some true := by
      decide +kernel
    obtain ⟨⟨p, feed'⟩, hp, hnone⟩ := Option.map_eq_some_iff.mp hpage
    exact ⟨p, feed', hp, Option.isNone_iff_eq_none.mp hnone⟩

end Claim

end PeerSync

end QuantaSwap.Feed
