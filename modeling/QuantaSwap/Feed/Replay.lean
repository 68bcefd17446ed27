import QuantaSwap.Feed.Image
import QuantaSwap.Feed.Log

/-!
# The log rebuilds the feed

`parseLog` reads the lines of a log in the order they were written and ends with
the image that they describe. A cut in the last lines costs the lines behind it
and no other.
-/

set_option autoImplicit false

namespace QuantaSwap.Feed

open Lib.Js Lib.Text Lib.Utf8 Lib.Run QuantaSwap.Book

/-! ## One line -/

theorem newline_notMem_text (line : Line) : '\n' ∉ line.text := newline_notMem_stringify _

/-- The line as it reads back. -/
def Line.settle : Line → Line
  | .event r => .event r.settle
  | .digest d => .digest d

theorem text_settle (line : Line) : line.settle.text = line.text := by
  cases line with
  | digest d => rfl
  | event r =>
    have hsettle : Lib.Js.settle (Line.event r).json = (Line.event r.settle).json := by
      simp only [Line.json, Lib.Js.settle, settleMembers, fields_settle]
    show stringify (Line.event r.settle).json = stringify (Line.event r).json
    rw [← hsettle, stringify_settle]

theorem parseDigest_digestJson (d : Option EventId) :
    parseDigest (some (digestJson d)) = some d := by
  cases d with
  | none => rfl
  | some d => simp only [digestJson, parseDigest, matching_val, Option.map_some]

theorem plain_digestJson (d : Option EventId) : Plain (digestJson d) := by
  cases d <;> simp only [digestJson, Plain]

theorem parseLine_header {feedId : FeedId} {nextSeq : Nat} {d : Option EventId}
    (h : nextSeq ≤ 2 ^ 53) :
    parseLine (stringify (headerJson feedId nextSeq d)) =
      some [("type", .str "header"), ("version", .num (.ofNat 3)), ("feedId", .str feedId.val),
        ("nextSeq", .num (.ofNat nextSeq)), ("snapshotDigest", digestJson d)] := by
  have hplain : Plain (headerJson feedId nextSeq d) := by
    simp only [headerJson, Plain, PlainMembers, Num.ofNat, Int.natAbs_natCast, List.map_cons,
      List.map_nil,
      and_true, true_and]
    exact ⟨by decide, by decide, h, plain_digestJson d⟩
  rw [parseLine, parse_stringify hplain, headerJson]

theorem parseLine_digest (d : Option EventId) :
    parseLine (Line.digest d).text =
      some [("type", .str "digest"), ("snapshotDigest", digestJson d)] := by
  have hplain : Plain (Line.digest d).json := by
    simp only [Line.json, Plain, PlainMembers, List.map_cons, List.map_nil, and_true, true_and]
    exact ⟨by decide, plain_digestJson d⟩
  rw [Line.text, parseLine, parse_stringify hplain, Line.json]

theorem parseLine_event {E : Crypto} {r : PersistedFederationRecord} (h : r.Sealed E)
    (hseq : r.seq ≤ maxSafeInteger) :
    parseLine (Line.event r).text = some (("type", .str "event") :: r.settle.fields) := by
  have hvalue : (canonicalValue (eventJson r.event)).isSome := by
    obtain ⟨-, text, htext, -⟩ := checkEvent_eq_some.mp h.checked
    rw [canonicalFederationJson] at htext
    rw [htext]
    rfl
  have hevent : Plain (eventJson (settleEvent r.event)) := by
    rw [eventJson_settleEvent]
    exact plain_settle _ (distinct_eventJson h.distinct) hvalue
  have hplain : Plain (Line.event r.settle).json := by
    simp only [Line.json, PersistedFederationRecord.fields, PersistedFederationRecord.settle, Plain,
      PlainMembers,
      Num.ofNat, Int.natAbs_natCast, List.map_cons, List.map_nil, and_true, true_and]
    exact ⟨by decide, Nat.le_trans hseq (by decide), hevent,
      Nat.le_trans r.receivedAt.property (by decide)⟩
  rw [← text_settle, Line.settle, Line.text, parseLine, parse_stringify hplain, Line.json]

/-- A line that a parser of safe integers can read. -/
def Line.Safe : Line → Prop
  | .event r => r.seq ≤ maxSafeInteger
  | .digest _ => True

/-- What was read so far describes the image `i`, from a header with `nextSeq`. -/
structure Reads (nextSeq : Nat) (i : Image) (st : Replay) : Prop where
  events : st.events = i.events.map (·.settle)
  ids : ∀ id, id ∈ st.ids ↔ id ∈ i.events.map (·.eventId)
  distinct : (i.events.map (·.eventId)).Nodup
  lastSeq : st.lastSeq = (i.events.getLast?.map (·.seq)).getD 0
  nextSeq : i.nextSeq = max nextSeq (st.lastSeq + 1)
  digest : st.snapshotDigest = i.snapshotDigest

section Read

variable {E : Crypto} {maxEvents nextSeq : Nat} {i : Image} {st : Replay}

theorem map_settle_ids (events : List PersistedFederationRecord) :
    (events.map (·.settle)).map (·.eventId) = events.map (·.eventId) := by
  rw [List.map_map]
  rfl

theorem reads_push (hmax : 1 ≤ maxEvents) (h : Reads nextSeq i st) {r : PersistedFederationRecord}
    (hnew : ∀ x ∈ i.events, x.seq < r.seq ∧ x.eventId ≠ r.eventId) :
    Reads nextSeq (i.apply maxEvents (.event r)) (st.push maxEvents r.settle) := by
  have hid : r.settle.eventId ∉ st.ids := by
    intro hmem
    obtain ⟨x, hx, heq⟩ := List.mem_map.mp ((h.ids _).mp hmem)
    exact (hnew x hx).2 heq
  have hnotin : r.eventId ∉ i.events.map (·.eventId) := by
    intro hmem
    obtain ⟨x, hx, heq⟩ := List.mem_map.mp hmem
    exact (hnew x hx).2 heq
  have hdistinct : ((i.events ++ [r]).map (·.eventId)).Nodup := by
    rw [List.map_append, List.map_singleton, List.nodup_append]
    refine ⟨h.distinct, by simp, ?_⟩
    rintro a ha b hb rfl
    rw [List.mem_singleton] at hb
    exact hnotin (hb ▸ ha)
  have hevents : st.events ++ [r.settle] = (i.events ++ [r]).map (·.settle) := by
    rw [h.events, List.map_append, List.map_singleton]
  have hlen : (st.events ++ [r.settle]).length = (i.events ++ [r]).length := by
    rw [hevents, List.length_map]
  constructor
  · simp only [Replay.push, if_neg hid, hevents, List.length_map, Image.apply, newest,
      List.map_drop]
  · intro id
    simp only [Replay.push, if_neg hid, FederationFeed.mem_foldl_deleteId,
      FederationFeed.mem_addId, h.ids id,
      hevents, List.length_map, ← List.map_take, map_settle_ids, Image.apply, newest,
      FederationFeed.mem_drop_iff hdistinct]
    simp [PersistedFederationRecord.settle]
  · exact List.Nodup.sublist ((newest_sublist _).map _) hdistinct
  · have hlast : (newest maxEvents (i.events ++ [r])).getLast? = some r := by
      rw [newest, List.getLast?_drop, if_neg]
      · simp
      · simp only [List.length_append, List.length_singleton]
        omega
    simp only [Replay.push, Image.apply, hlast, Option.map_some, Option.getD_some]
    rfl
  · have hlater : st.lastSeq < r.seq ∨ i.events = [] := by
      rw [h.lastSeq]
      cases hlast : i.events.getLast? with
      | none => exact Or.inr (List.getLast?_eq_none_iff.mp hlast)
      | some x => exact Or.inl (hnew x (List.mem_of_getLast? hlast)).1
    have hzero : i.events = [] → st.lastSeq = 0 := by
      intro hnil
      rw [h.lastSeq, hnil]
      rfl
    show max i.nextSeq (r.seq + 1) = max nextSeq (r.seq + 1)
    rw [h.nextSeq]
    rcases hlater with hlt | hnil
    · omega
    · rw [hzero hnil]
      omega
  · exact h.digest

theorem line_text (hmax : 1 ≤ maxEvents) (h : Reads nextSeq i st) {line : Line}
    (hfits : Fits E i line)
    (hsafe : line.Safe) :
    ∃ st', st.line E maxEvents line.text = some st' ∧
    Reads nextSeq (i.apply maxEvents line) st' := by
  cases line with
  | digest d =>
    refine ⟨{ st with snapshotDigest := d }, ?_, h.events, h.ids, h.distinct, h.lastSeq,
      h.nextSeq, rfl⟩
    simp only [Replay.line, parseLine_digest, Option.bind_eq_bind, Option.bind_some, Record.get,
      List.lookup_cons,
      String.reduceBEq, BEq.rfl, parseDigest_digestJson, Option.pure_def]
  | event r =>
    obtain ⟨hsealed, hnew⟩ := hfits
    refine ⟨st.push maxEvents r.settle, ?_, reads_push hmax h hnew⟩
    have hrest : (("type", Json.str "event") :: r.settle.fields).filter
      (fun field => field.1 ≠ "type") =
        r.settle.fields := by
      simp [PersistedFederationRecord.fields]
    have hlast : ¬r.settle.seq ≤ st.lastSeq := by
      rw [h.lastSeq]
      cases hlast : i.events.getLast? with
      | none => exact Nat.not_le.mpr hsealed.positive
      | some x => exact Nat.not_le.mpr (hnew x (List.mem_of_getLast? hlast)).1
    have hget : Record.get (("type", Json.str "event") :: r.settle.fields) "type" =
      some (.str "event") := rfl
    simp only [Replay.line, parseLine_event hsealed hsafe, Option.bind_eq_bind, Option.bind_some,
      hget, hrest,
      parseRecord_fields hsealed.settle hsafe, if_neg hlast]

theorem lines_text (hmax : 1 ≤ maxEvents) (h : Reads nextSeq i st) {lines : List Line}
    (hfits : Along (Image.apply maxEvents) (Fits E) i lines) (hsafe : ∀ line ∈ lines, line.Safe) :
    ∃ st', (lines.map Line.text).foldlM (fun st text => st.line E maxEvents text) st = some st' ∧
      Reads nextSeq (run (Image.apply maxEvents) i lines) st' := by
  induction lines generalizing i st with
  | nil => exact ⟨st, rfl, h⟩
  | cons line lines ih =>
    obtain ⟨st', hread, h'⟩ := line_text hmax h hfits.1 (hsafe line List.mem_cons_self)
    obtain ⟨st'', hreads, h''⟩ := ih h' hfits.2 fun l hl => hsafe l (List.mem_cons_of_mem _ hl)
    refine ⟨st'', ?_, h''⟩
    rw [List.map_cons, List.foldlM_cons, hread]
    exact hreads

end Read

/-! ## The whole text -/

/-- `g` is the feed that the image describes, as its log keeps it. -/
structure Loaded (i : Image) (g : FederationFeed) : Prop where
  feedId : g.feedId = i.feedId
  nextSeq : g.nextSeq = i.nextSeq
  events : g.events = i.events.map (·.settle)
  eventIds : ∀ id, id ∈ g.eventIds ↔ id ∈ i.events.map (·.eventId)
  snapshotDigest : g.snapshotDigest = i.snapshotDigest

section Image

variable {maxEvents : Nat} {i : Image}

theorem nextSeq_le_apply (line : Line) : i.nextSeq ≤ (i.apply maxEvents line).nextSeq := by
  cases line with
  | event r => exact Nat.le_max_left _ _
  | digest d => exact Nat.le_refl _

theorem seq_lt_run (lines : List Line) :
    i.nextSeq ≤ (run (Image.apply maxEvents) i lines).nextSeq ∧
      ∀ r, Line.event r ∈ lines → r.seq < (run (Image.apply maxEvents) i lines).nextSeq := by
  induction lines generalizing i with
  | nil => exact ⟨Nat.le_refl _, fun r hr => absurd hr List.not_mem_nil⟩
  | cons line lines ih =>
    obtain ⟨hle, hlt⟩ := ih (i := i.apply maxEvents line)
    refine ⟨Nat.le_trans (nextSeq_le_apply line) hle, fun r hr => ?_⟩
    rcases List.mem_cons.mp hr with rfl | hr
    · exact Nat.lt_of_lt_of_le (Nat.le_max_right _ _) hle
    · exact hlt r hr

theorem safe_of_nextSeq {lines : List Line}
    (h : (run (Image.apply maxEvents) i lines).nextSeq ≤ maxSafeInteger) :
    i.nextSeq ≤ maxSafeInteger ∧ ∀ line ∈ lines, line.Safe := by
  obtain ⟨hle, hlt⟩ := @seq_lt_run maxEvents i lines
  refine ⟨Nat.le_trans hle h, fun line hline => ?_⟩
  cases line with
  | event r => exact Nat.le_of_lt (Nat.lt_of_lt_of_le (hlt r hline) h)
  | digest d => trivial

end Image

/-- A log as the feed writes it: a header, and lines that fit one after the other. -/
structure LogOf (E : Crypto) (maxEvents : Nat) (start : Image) (lines : List Line) : Prop where
  empty : start.events = []
  positive : 1 ≤ start.nextSeq
  fits : Along (Image.apply maxEvents) (Fits E) start lines

/-- Its text, with the rest of a line that was cut. -/
def logText (start : Image) (lines : List Line) (tail : List Char) : List Char :=
  unlines (stringify (headerJson start.feedId start.nextSeq start.snapshotDigest) ::
    lines.map Line.text) ++ tail

section Parse

variable {E : Crypto} {maxEvents : Nat} {start : Image} {lines : List Line}

theorem splitOn_logText (start : Image) (lines : List Line) {tail : List Char}
    (htail : '\n' ∉ tail) :
    (logText start lines tail).splitOn '\n' =
      stringify (headerJson start.feedId start.nextSeq start.snapshotDigest) ::
        lines.map Line.text ++ [tail] := by
  apply splitOn_unlines_append _ htail
  intro l hl
  rcases List.mem_cons.mp hl with rfl | hl
  · exact newline_notMem_stringify _
  · obtain ⟨line, -, rfl⟩ := List.mem_map.mp hl
    exact newline_notMem_text line

theorem newline_mem_logText (start : Image) (lines : List Line) (tail : List Char) :
    '\n' ∈ logText start lines tail := by
  simp [logText]

theorem parseLog_logText (hmax : 1 ≤ maxEvents) (h : LogOf E maxEvents start lines)
    (hsafe : (run (Image.apply maxEvents) start lines).nextSeq ≤ maxSafeInteger) {tail : List Char}
    (htail : '\n' ∉ tail) (fresh : FeedId) :
    ∃ g, parseLog E maxEvents fresh (logText start lines tail) = some (g, !tail.isEmpty) ∧
      Loaded (run (Image.apply maxEvents) start lines) g ∧ g.logLines = some lines.length ∧
      g.cachedResetPage = none := by
  obtain ⟨hheader, hlines⟩ := safe_of_nextSeq hsafe
  -- The induction is over the lines behind the header, from the empty image.
  have hstart : Reads start.nextSeq start { snapshotDigest := start.snapshotDigest } := by
    refine ⟨by rw [h.empty]; rfl, fun id => by simp [h.empty],
      by rw [h.empty]; exact List.nodup_nil, by rw [h.empty]; rfl,
      ?_, rfl⟩
    have := h.positive
    show start.nextSeq = max start.nextSeq (0 + 1)
    omega
  obtain ⟨st, hread, hreads⟩ := lines_text hmax hstart h.fits hlines
  have hsplit := splitOn_logText start lines htail
  have hne : (logText start lines tail).isEmpty = false := by
    rw [List.isEmpty_eq_false_iff_exists_mem]
    exact ⟨_, newline_mem_logText start lines tail⟩
  have hlast : (stringify (headerJson start.feedId start.nextSeq start.snapshotDigest) ::
    lines.map Line.text ++
      [tail]).getLast? = some tail := List.getLast?_concat
  have hinit : (stringify (headerJson start.feedId start.nextSeq start.snapshotDigest) ::
    lines.map Line.text ++
      [tail]).dropLast = stringify (headerJson start.feedId start.nextSeq start.snapshotDigest) ::
        lines.map Line.text := by
    rw [List.dropLast_concat]
  -- The split ends in the torn tail, which the loop leaves out.
  have htorn : (some tail != some []) = !tail.isEmpty := by cases tail <;> rfl
  have hnext : parseNextSeq (some (.num (.ofNat start.nextSeq))) = some start.nextSeq := by
    have hsafe' : asSafe (some (.num (.ofNat start.nextSeq))) = some ⟨start.nextSeq, hheader⟩ :=
      toSafe?_ofNat ⟨start.nextSeq, hheader⟩
    have := h.positive
    simp only [parseNextSeq, hsafe', Option.bind_eq_bind, Option.bind_some]
    exact if_neg (by omega)
  have hversion : hasVersion [("type", Json.str "header"), ("version", .num (.ofNat 3)),
      ("feedId", .str start.feedId.val), ("nextSeq", .num (.ofNat start.nextSeq)),
      ("snapshotDigest", digestJson start.snapshotDigest)] 3 = true := by
    simp [hasVersion, Record.get, List.lookup_cons]
  let read : FederationFeed :=
    { feedId := start.feedId
      nextSeq := max start.nextSeq (st.lastSeq + 1)
      events := st.events
      eventIds := st.ids
      snapshotDigest := st.snapshotDigest
      logLines := some lines.length }
  refine ⟨read, ?_, ?_, rfl, rfl⟩
  · rw [parseLog, hne, if_neg (by simp),
      if_neg (by simpa using newline_mem_logText start lines tail), hsplit]
    dsimp only
    rw [hlast, hinit, htorn]
    simp only [List.head?_cons, Option.getD_some,
      parseLine_header (Nat.le_trans hheader (by decide)), Option.bind_eq_bind, Option.bind_some,
      hversion, Record.get, List.lookup_cons, String.reduceBEq, BEq.rfl, parseFeedId,
        matching_val, hnext,
      parseDigest_digestJson, List.tail_cons, hread, Option.pure_def, List.length_cons,
        List.length_map,
      Nat.add_sub_cancel]
    rfl
  · have hid : (run (Image.apply maxEvents) start lines).feedId = start.feedId := by
      apply invariant_of_along (I := fun i => i.feedId = start.feedId) _ h.fits rfl
      intro i line hi _
      cases line <;> exact hi
    exact ⟨hid.symm, hreads.nextSeq.symm, hreads.events, hreads.ids, hreads.digest⟩

end Parse

/-! ## The file that a feed keeps -/

/-- The file is a log that describes the image, and `logLines` counts its lines. -/
def Describes (E : Crypto) (maxEvents : Nat) (i : Image) (logLines : Option Nat) (bytes : Bytes) :
    Prop :=
  ∃ start lines, LogOf E maxEvents start lines ∧ bytes = encode (logText start lines []) ∧
    run (Image.apply maxEvents) start lines = i ∧ ∀ n ∈ logLines, n = lines.length

section Describes

variable {E : Crypto} {maxEvents : Nat} {i : Image} {bytes : Bytes}

theorem Describes.forget {n : Option Nat} (h : Describes E maxEvents i n bytes) :
    Describes E maxEvents i none bytes := by
  obtain ⟨start, lines, hlog, hbytes, hrun, -⟩ := h
  exact ⟨start, lines, hlog, hbytes, hrun, by simp⟩

theorem Describes.append {n : Nat} (h : Describes E maxEvents i (some n) bytes) {lines : List Line}
    (hfits : Along (Image.apply maxEvents) (Fits E) i lines) :
    Describes E maxEvents (run (Image.apply maxEvents) i lines) (some (n + lines.length))
    (bytes ++ lineBytes lines) := by
  obtain ⟨start, before, hlog, rfl, rfl, hn⟩ := h
  refine ⟨start, before ++ lines, ⟨hlog.empty, hlog.positive, ?_⟩, ?_, ?_, ?_⟩
  · exact (along_append _ _ _ _).mpr ⟨hlog.fits, hfits⟩
  · simp [logText, lineBytes, unlines_cons, encode_append]
  · exact run_append _ _ _ _
  · rintro m ⟨⟩
    rw [List.length_append, hn n rfl]

theorem run_ring (h : Ring E maxEvents i) {done rest : List PersistedFederationRecord}
    (hsplit : done ++ rest = i.events) :
    run (Image.apply maxEvents) { i with events := done } (rest.map .event) = i ∧
      Along (Image.apply maxEvents) (Fits E) { i with events := done } (rest.map .event) := by
  induction rest generalizing done with
  | nil =>
    rw [List.append_nil] at hsplit
    subst hsplit
    exact ⟨rfl, trivial⟩
  | cons r rest ih =>
    have hr : r ∈ i.events := hsplit ▸ List.mem_append_right _ List.mem_cons_self
    have hbelow := (h.seq_mem hr).2
    have hstep : Image.apply maxEvents { i with events := done } (.event r) =
      { i with events := done ++ [r] } := by
      have hlen : (done ++ [r]).length ≤ maxEvents := by
        have := h.bounded
        rw [← hsplit] at this
        simp only [List.length_append, List.length_cons, List.length_nil] at this ⊢
        omega
      simp only [Image.apply, newest_of_le hlen, Image.mk.injEq, true_and, and_true]
      omega
    obtain ⟨hrun, halong⟩ := @ih (done ++ [r]) (by rw [List.append_assoc]; exact hsplit)
    have hpair := h.increasing
    have hnodup := h.distinct
    rw [← hsplit] at hpair hnodup
    rw [List.map_append] at hnodup
    have hfits : Fits E { i with events := done } (.event r) := by
      refine ⟨h.valid r hr, fun x hx => ⟨?_, ?_⟩⟩
      · exact (List.pairwise_append.mp hpair).2.2 x hx r List.mem_cons_self
      · exact (List.nodup_append.mp hnodup).2.2 _ (List.mem_map_of_mem hx)
          _ (List.mem_map_of_mem List.mem_cons_self)
    rw [List.map_cons, run_cons, along_cons, hstep]
    exact ⟨hrun, hfits, halong⟩

theorem describes_compact (h : Ring E maxEvents i) :
    Describes E maxEvents i (some i.events.length)
      (logBytes i.feedId i.nextSeq i.snapshotDigest (i.events.map .event)) := by
  obtain ⟨hrun, halong⟩ := run_ring h (List.nil_append i.events)
  refine ⟨{ i with events := [] }, i.events.map .event,
    ⟨rfl, Nat.lt_of_le_of_lt (Nat.zero_le _) h.below, halong⟩,
    ?_, hrun, ?_⟩
  · simp [logBytes, logText]
  · rintro n ⟨⟩
    simp

theorem Describes.load {n : Option Nat} (hmax : 1 ≤ maxEvents) (h : Describes E maxEvents i n bytes)
    (hsafe : i.nextSeq ≤ maxSafeInteger) (fresh : FeedId) (io : Io) :
    ∃ g, Feed.load E maxEvents fresh io (some bytes) = some { feed := g, file := some bytes } ∧
    Loaded i g ∧
      g.logIdentity = true ∧ Describes E maxEvents i g.logLines bytes := by
  obtain ⟨start, lines, hlog, rfl, rfl, -⟩ := h
  obtain ⟨g, hparse, hloaded, hlines, -⟩ := parseLog_logText hmax hlog hsafe List.not_mem_nil fresh
  refine ⟨{ g with logIdentity := true }, ?_,
    ⟨hloaded.feedId, hloaded.nextSeq, hloaded.events, hloaded.eventIds,
    hloaded.snapshotDigest⟩, rfl, start, lines, hlog, rfl, rfl, ?_⟩
  · rw [Feed.load, decode_encode, hparse]
    rfl
  · rw [hlines]
    rintro m ⟨⟩
    rfl

/-- What a described file loads when a crash cut the lines behind it: the complete ones, and no part
of the next. -/
theorem Describes.load_cut {n : Option Nat} (hmax : 1 ≤ maxEvents)
    (h : Describes E maxEvents i n bytes)
    {lines : List Line} (hfits : Along (Image.apply maxEvents) (Fits E) i lines)
    (hsafe : (run (Image.apply maxEvents) i lines).nextSeq ≤ maxSafeInteger) {cut : Bytes}
    (hcut : cut <+: lineBytes lines) (fresh : FeedId) :
    ∃ k tail g file, k ≤ lines.length ∧ cut = lineBytes (lines.take k) ++ tail ∧ 10 ∉ tail ∧
      Feed.load E maxEvents fresh {} (some (bytes ++ cut)) = some { feed := g, file := some file } ∧
      Loaded (run (Image.apply maxEvents) i (lines.take k)) g := by
  obtain ⟨start, before, hlog, rfl, rfl, -⟩ := h
  -- No line holds a line feed, so a cut falls behind whole lines and into one.
  obtain ⟨k, tail, hk, rfl, htail⟩ := exists_of_prefix_unlines (fun l hl => by
    obtain ⟨line, -, rfl⟩ := List.mem_map.mp hl
    exact newline_notMem_text line) hcut
  rw [List.length_map] at hk
  have hlines : encode (unlines ((lines.map Line.text).take k)) ++ tail =
    lineBytes (lines.take k) ++ tail := by
    rw [lineBytes, List.map_take]
  rw [← List.take_append_drop k lines, along_append] at hfits
  have hlog' : LogOf E maxEvents start (before ++ lines.take k) :=
    ⟨hlog.empty, hlog.positive, (along_append _ _ _ _).mpr ⟨hlog.fits, hfits.1⟩⟩
  have hsafe' :
    (run (Image.apply maxEvents) start (before ++ lines.take k)).nextSeq ≤ maxSafeInteger := by
    rw [← List.take_append_drop k lines, run_append] at hsafe
    rw [run_append]
    exact Nat.le_trans (seq_lt_run _).1 hsafe
  have htext : decode (encode (logText start before []) ++
    (encode (unlines ((lines.map Line.text).take k)) ++ tail)) =
      logText start (before ++ lines.take k) (decode tail) := by
    rw [decode_encode_append, decode_encode_append]
    simp [logText, List.map_take]
  obtain ⟨g, hparse, hloaded, -, -⟩ :=
    parseLog_logText hmax hlog' hsafe' (not_mem_decode htail) fresh
  rw [run_append] at hloaded
  -- With a torn tail the file is rewritten to what was read.
  cases hrewrite : !(decode tail).isEmpty with
  | false =>
    refine ⟨k, tail, { g with logIdentity := true },
      encode (logText start before []) ++ (encode (unlines ((lines.map Line.text).take k)) ++ tail),
        hk, hlines, htail, ?_,
      hloaded.feedId, hloaded.nextSeq, hloaded.events, hloaded.eventIds, hloaded.snapshotDigest⟩
    rw [Feed.load, htext, hparse, hrewrite]
  | true =>
    refine ⟨k, tail, { g with logLines := some g.events.length, logIdentity := true },
      logBytes g.feedId g.nextSeq g.snapshotDigest (g.events.map .event), hk, hlines, htail, ?_,
      hloaded.feedId, hloaded.nextSeq, hloaded.events, hloaded.eventIds, hloaded.snapshotDigest⟩
    rw [Feed.load, htext, hparse, hrewrite]
    rfl

end Describes

/-! ## What the log keeps -/

/-- The image with its events as the log keeps them. -/
def Image.settle (i : Image) : Image := { i with events := i.events.map (·.settle) }

section Settle

variable {E : Crypto} {maxEvents : Nat} {i : Image}

theorem apply_settle (i : Image) (line : Line) :
    i.settle.apply maxEvents line.settle = (i.apply maxEvents line).settle := by
  cases line with
  | digest d => rfl
  | event r =>
    simp only [Line.settle, Image.apply, Image.settle, Image.mk.injEq, true_and, and_true]
    refine ⟨rfl, ?_⟩
    rw [newest, newest, List.map_drop, List.map_append, List.map_singleton]
    simp

theorem fits_settle {line : Line} (h : Fits E i line) : Fits E i.settle line.settle := by
  cases line with
  | digest d => trivial
  | event r =>
    refine ⟨h.1.settle, fun x hx => ?_⟩
    obtain ⟨y, hy, rfl⟩ := List.mem_map.mp hx
    exact h.2 y hy

theorem run_settle {lines : List Line} (h : Along (Image.apply maxEvents) (Fits E) i lines) :
    run (Image.apply maxEvents) i.settle (lines.map Line.settle) =
      (run (Image.apply maxEvents) i lines).settle ∧
      Along (Image.apply maxEvents) (Fits E) i.settle (lines.map Line.settle) := by
  induction lines generalizing i with
  | nil => exact ⟨rfl, trivial⟩
  | cons line lines ih =>
    obtain ⟨hrun, halong⟩ := ih h.2
    rw [List.map_cons, run_cons, along_cons, apply_settle]
    exact ⟨hrun, fits_settle h.1, halong⟩

theorem Ring.settle (h : Ring E maxEvents i) : Ring E maxEvents i.settle := by
  have hlen : i.settle.events.length = i.events.length := List.length_map _
  constructor
  · intro r hr
    obtain ⟨x, hx, rfl⟩ := List.mem_map.mp hr
    exact (h.valid x hx).settle
  · show ((i.events.map (·.settle)).map (·.eventId)).Nodup
    rw [map_settle_ids]
    exact h.distinct
  · rw [hlen]
    show (i.events.map (·.settle)).map (·.seq) = _
    rw [List.map_map]
    exact h.contiguous
  · rw [hlen]
    exact h.below
  · rw [hlen]
    exact h.bounded

theorem Describes.settle {n : Option Nat} {bytes : Bytes} (h : Describes E maxEvents i n bytes) :
    Describes E maxEvents i.settle n bytes := by
  obtain ⟨start, lines, hlog, rfl, rfl, hn⟩ := h
  obtain ⟨hrun, halong⟩ := run_settle hlog.fits
  have htexts : (lines.map Line.settle).map Line.text = lines.map Line.text := by
    rw [List.map_map]
    exact List.map_congr_left fun line _ => text_settle line
  refine ⟨start.settle, lines.map Line.settle, ⟨?_, hlog.positive, halong⟩, ?_, hrun, ?_⟩
  · show start.events.map (·.settle) = []
    rw [hlog.empty]
    rfl
  · rw [logText, logText, htexts]
    rfl
  · intro m hm
    rw [List.length_map]
    exact hn m hm

end Settle

end QuantaSwap.Feed
