import QuantaSwap.Feed.Pages
import QuantaSwap.Feed.Runs

/-!
# Peers that follow a feed

Clients of one process read its pages, from the feed itself or through the events
endpoint, between any operations of the feed.
-/

set_option autoImplicit false

namespace QuantaSwap.Feed

open Lib.Js Lib.Run QuantaSwap.Book

/-- What a client has read since the cursor it came with, or since its last reset. -/
structure Segment where
  after : Nat
  snapshot : Option (List FederationRecord)
  delivered : List FederationRecord

structure Client where
  /-- The cursor that the client came with. -/
  joined : Option String
  cursor : Option String := joined
  segment : Option Segment := none
  /-- A request whose reset waits for the pending commit: its key and its limit. -/
  asked : Option (List Char × Nat) := none

/-- A page from the sequence `n` to `m` that starts at the next record, or is empty. -/
def FederationPage.advances (p : FederationPage) (n m : Nat) : Bool :=
  match p.events.head? with
  | none => decide (m = n) && !p.hasMore
  | some r => decide (r.seq = n + 1) && decide (n < m)

/-- `validateFederationPageProgress`: the sequence that an incremental page goes on from. -/
def progressFrom (requestedCursor : Option String) (p : FederationPage) : Option Nat := do
  let (feedId, n) ← requestedCursor.bind parseCursor
  let (returned, m) ← parseCursor p.cursor
  if feedId = returned ∧ p.advances n m = true then some n else none

theorem Continuation.advances_eq {lo : Nat} {history : List FederationRecord} {id : FeedId}
    {n n' latest m : Nat}
    {p : FederationPage} (hp : Continuation lo history id n latest p m)
    (hnumbered : history.map (·.seq) = List.range' lo history.length) (h : p.advances n' m = true) :
    n' = n := by
  unfold FederationPage.advances at h
  cases hhead : p.events.head? with
  | none =>
    rw [hhead] at h
    simp only [Bool.and_eq_true, decide_eq_true_eq] at h
    have hlen := length_stretch hp.start hp.known
    rw [← hp.events, List.head?_eq_none_iff.mp hhead, List.length_nil] at hlen
    have := hp.le
    omega
  | some r =>
    rw [hhead] at h
    simp only [Bool.and_eq_true, decide_eq_true_eq] at h
    have := hp.head?_seq hnumbered hhead
    omega

/-- A client after an answer. A page that does not go on from its cursor is dropped. -/
def Client.receive (c : Client) (p : FederationPage) : Client :=
  if p.reset then
    match parseCursor p.cursor with
    | none => { c with asked := none }
    | some (_, after) =>
      { joined := c.joined, cursor := some p.cursor, segment := some ⟨after, p.snapshot, []⟩ }
  else
    match progressFrom c.cursor p with
    | none => { c with asked := none }
    | some n =>
      let g := c.segment.getD ⟨n, none, []⟩
      { joined := c.joined, cursor := some p.cursor, segment := some { g with delivered := g.delivered ++ p.events } }

/-- A process that serves its feed. -/
structure Served where
  logged : LoggedFeed
  responses : FederationResponseCache := {}
  clients : List Client := []
  /-- The records that `append` and `appendBatch` returned so far, replays included. -/
  published : List FederationRecord := []
  /-- The snapshots of the book at the requests so far, with how many records were published. -/
  snapshots : List (List FederationEvent × Nat) := []

inductive Act where
  | append (raw : JsEvent) (receivedAt : Lib.Js.Num)
    (snapshot : Option (List FederationEvent)) (io : Io)
  | appendBatch (raws : List JsEvent) (receivedAt : Lib.Js.Num) (io : Io)
  | checkpoint (rawEvents : List FederationEvent) (io : Io)
  | reconcileSnapshot (rawEvents : List FederationEvent) (fresh : FeedId) (io : Io)
  | compact (result : WriteResult)
  | join (cursor : Option String)
  /-- A client calls `page`. -/
  | page (client limit : Nat) (snapshot : List FederationEvent) (now : Lib.Js.Num)
  /-- A client's request comes to the endpoint. A reset waits there. -/
  | request (client limit : Nat) (snapshot : List FederationEvent) (now cacheNow : Lib.Js.Num)
  /-- The reset that a client waits for goes on. -/
  | resume (client : Nat) (snapshot : List FederationEvent) (now cacheNow : Lib.Js.Num)

section Serve

variable (E : Crypto) (maxEvents : Nat)

/-- The answer of the endpoint under a key. -/
def Served.answer (s : Served) (client : Nat) (c : Client) (key : List Char) (limit : Nat)
    (snapshot : List FederationEvent) (now cacheNow : Lib.Js.Num) : Served :=
  match respond E key c.cursor limit snapshot now cacheNow s.logged.feed s.responses with
  | (answer, feed, responses) =>
    { s with
      logged := { s.logged with feed }
      responses
      clients := s.clients.set client ((answer.map c.receive).getD { c with asked := none })
      snapshots := s.snapshots ++ [(snapshot, s.published.length)] }

def serve (s : Served) : Act → Served
  | .append raw receivedAt snapshot io =>
    match s.logged.append E maxEvents raw.val receivedAt snapshot io with
    | (logged, record) => { s with logged, published := s.published ++ record.toList }
  | .appendBatch raws receivedAt io =>
    match s.logged.appendBatch E maxEvents (raws.map (·.val)) receivedAt io with
    | (logged, records) => { s with logged, published := s.published ++ records.getD [] }
  | .checkpoint rawEvents io => { s with logged := s.logged.checkpoint E maxEvents rawEvents io }
  | .reconcileSnapshot rawEvents fresh io =>
    { s with logged := (s.logged.reconcileSnapshot E rawEvents fresh io).1 }
  | .compact result => { s with logged := (s.logged.compact result).1 }
  | .join cursor => { s with clients := s.clients ++ [{ joined := cursor }] }
  | .page client limit snapshot now =>
    match s.clients[client]? with
    | some c =>
      match c.asked, s.logged.feed.page E c.cursor limit snapshot now with
      | none, some (page, feed) =>
        { s with
          logged := { s.logged with feed }
          clients := s.clients.set client (c.receive page)
          snapshots := s.snapshots ++ [(snapshot, s.published.length)] }
      | _, _ => s
    | none => s
  | .request client limit snapshot now cacheNow =>
    match s.clients[client]? with
    | some c =>
      if c.asked.isSome ∨ limit < 1 ∨ 256 < limit then s
      else if s.logged.feed.requiresReset c.cursor then
        { s with
            clients := s.clients.set client
              { c with asked := some (s.logged.feed.responseKey c.cursor limit, limit) } }
      else s.answer E client c
        (s.logged.feed.responseKey c.cursor limit) limit snapshot now cacheNow
    | none => s
  | .resume client snapshot now cacheNow =>
    match s.clients[client]? with
    | some c =>
      match c.asked with
      | some (key, limit) => s.answer E client c key limit snapshot now cacheNow
      | none => s
    | none => s

end Serve

/-! ## The history of the feed -/

/-- What an append records: an event that the ring holds, or a new one. -/
inductive Recorded (maxEvents : Nat) (f f' : FederationFeed) (r : FederationRecord) : Prop
  | held (entry : PersistedFederationRecord) (hentry : entry ∈ f.events)
    (hrecord : r = entry.toFederationRecord)
      (hevents : f'.events = f.events) (hnext : f'.nextSeq = f.nextSeq)
  | pushed (record : PersistedFederationRecord) (hrecord : r = record.toFederationRecord)
      (hseq : record.seq = f.nextSeq)
        (hevents : f'.events = newest maxEvents (f.events ++ [record]))
      (hnext : f'.nextSeq = f.nextSeq + 1)

section Record

variable {E : Crypto} {maxEvents : Nat} {f f' : FederationFeed} {raw : FederationEvent}
  {receivedAt : Lib.Js.Num}
  {snapshot : Option (List FederationEvent)} {staged : FederationFeed.StagedAppend}

theorem recorded_stageAppend (hbound : f.events.length ≤ maxEvents)
    (h : f.stageAppend E maxEvents raw receivedAt snapshot = some (f', staged)) :
    Recorded maxEvents f f' staged.record := by
  have hzero : f.events.length - maxEvents = 0 := by omega
  simp only [FederationFeed.stageAppend, Option.bind_eq_bind, Option.bind_eq_some_iff] at h
  obtain ⟨⟨event, eventId⟩, -, d, -, h⟩ := h
  dsimp only at h
  split at h
  · rename_i entry hexisting hsame
    simp only [Option.pure_def, Option.some.injEq, Prod.mk.injEq] at h
    obtain ⟨rfl, rfl⟩ := h
    apply Recorded.held entry (List.mem_of_find?_eq_some hexisting) rfl
    · split <;> rfl
    · split <;> rfl
  · simp only [Option.bind_eq_some_iff, Option.pure_def, Option.some.injEq] at h
    obtain ⟨received, -, h⟩ := h
    cases hfind : f.events.find? fun entry => entry.eventId = eventId with
    | some entry =>
      rw [hfind, Prod.mk.injEq] at h
      obtain ⟨rfl, rfl⟩ := h
      apply Recorded.held entry (List.mem_of_find?_eq_some hfind) rfl
      · simp [FederationFeed.stageRecord, FederationFeed.trim, hzero]
      · simp [FederationFeed.stageRecord, FederationFeed.trim]
    | none =>
      rw [hfind, Prod.mk.injEq] at h
      obtain ⟨rfl, rfl⟩ := h
      exact Recorded.pushed ⟨⟨f.nextSeq, eventId, event⟩, received⟩ rfl rfl rfl rfl

variable {lo : Nat} {history : List FederationRecord}

theorem Window.of_image {g : FederationFeed} (h : Window lo history f)
    (hevents : g.events = f.events)
    (hnext : g.nextSeq = f.nextSeq) : Window lo history g where
  positive := h.positive
  nextSeq := hnext.trans h.nextSeq
  numbered := h.numbered
  ring := by rw [FederationFeed.records, hevents]; exact h.ring
  started hnil := h.started (hevents ▸ hnil)

theorem Window.recorded (hmax : 1 ≤ maxEvents) (h : Window lo history f) {r : FederationRecord}
    (hr : Recorded maxEvents f f' r) : Window lo (note history r) f' := by
  cases hr with
  | held entry hentry hrecord hevents hnext =>
    have hmem : r ∈ history := h.ring.subset (hrecord ▸ List.mem_map_of_mem hentry)
    rw [note, if_pos (List.mem_map_of_mem hmem)]
    exact h.of_image hevents hnext
  | pushed record hrecord hseq hevents hnext =>
    have hr : r.seq = lo + history.length := by rw [hrecord, ← h.nextSeq]; exact hseq
    have hnew : r.seq ∉ history.map (·.seq) := by
      rw [h.numbered, List.mem_range'_1]
      omega
    rw [note, if_neg hnew]
    refine ⟨h.positive, ?_, ?_, ?_, ?_⟩
    · rw [hnext, h.nextSeq, List.length_append, List.length_singleton]
      rfl
    · rw [List.map_append, h.numbered, List.map_singleton, hr, List.length_append,
        List.length_singleton,
        ← List.range'_append_1]
      rfl
    · obtain ⟨older, hsplit⟩ := h.ring
      have hall : older ++ (f.events ++ [record]).map (·.toFederationRecord) = history ++ [r] := by
        rw [List.map_append, List.map_singleton, ← hrecord, ← List.append_assoc, ← hsplit]
        rfl
      rw [FederationFeed.records, hevents, newest, List.map_drop, ← hall]
      exact (List.drop_suffix _ _).trans (List.suffix_append older _)
    · intro hnil
      have hlen := length_newest maxEvents (f.events ++ [record])
      rw [← hevents, hnil, List.length_append, List.length_singleton, List.length_nil] at hlen
      omega

end Record

/-! ## Operations of the feed -/

/-- The cached reset page is the one before, or it is dropped. -/
def CacheKept (f g : FederationFeed) : Prop :=
  g.cachedResetPage = f.cachedResetPage ∨ g.cachedResetPage = none

theorem CacheKept.refl (f : FederationFeed) : CacheKept f f := Or.inl rfl

theorem CacheKept.trans {f g h : FederationFeed} (hfg : CacheKept f g) (hgh : CacheKept g h) :
    CacheKept f h := by
  rcases hgh with heq | hnone
  · rcases hfg with heq' | hnone
    · exact Or.inl (heq.trans heq')
    · exact Or.inr (heq.trans hnone)
  · exact Or.inr hnone

theorem feed_compact (result : WriteResult) (s : LoggedFeed) :
    ∃ n b, (s.compact result).1.feed = { s.feed with logLines := n, logIdentity := b } := by
  cases result with
  | refused => exact ⟨_, _, rfl⟩
  | failed => exact ⟨none, s.feed.logIdentity, rfl⟩
  | done => exact ⟨some s.feed.events.length, true, rfl⟩

theorem feed_appendLines (maxEvents : Nat) (io : Io) (lines : List Line) (s : LoggedFeed) :
    ∃ n b, (LoggedFeed.appendLines maxEvents io lines s).1.feed =
      { s.feed with logLines := n, logIdentity := b } := by
  unfold LoggedFeed.appendLines
  split
  · exact ⟨_, _, rfl⟩
  · split
    · exact ⟨_, _, rfl⟩
    · split
      · exact feed_compact io.compaction s
      · exact feed_compact io.compaction s
      · rename_i n hlines hstatus
        split
        · exact ⟨none, s.feed.logIdentity, rfl⟩
        · dsimp only
          split
          · exact feed_compact io.compaction _
          · exact ⟨some (n + lines.length), s.feed.logIdentity, rfl⟩

/-- What an operation that publishes these records makes of the history. -/
structure Grown (lo : Nat) (history : List FederationRecord) (f f' : FederationFeed)
    (records : List FederationRecord) :
    Prop where
  window : Window lo (records.foldl note history) f'
  cache : CacheKept f f'
  recorded : ∀ r ∈ records, r ∈ records.foldl note history

theorem prefix_foldl_note (records history : List FederationRecord) :
    history <+: records.foldl note history := by
  induction records generalizing history with
  | nil => exact List.prefix_rfl
  | cons r records ih =>
    refine List.IsPrefix.trans ?_ (ih (note history r))
    unfold note
    split
    · exact List.prefix_rfl
    · exact List.prefix_append _ _

section Feed

variable {E : Crypto} {maxEvents lo : Nat} {history : List FederationRecord} {s : LoggedFeed}

theorem Grown.none {f f' : FederationFeed} (hw : Window lo history f)
    (hevents : f'.events = f.events)
    (hnext : f'.nextSeq = f.nextSeq) (hcache : CacheKept f f') : Grown lo history f f' [] :=
  ⟨hw.of_image hevents hnext, hcache, fun _ hr => absurd hr List.not_mem_nil⟩

theorem Recorded.mem_note {f f' : FederationFeed} {r : FederationRecord} (hw : Window lo history f)
    (hr : Recorded maxEvents f f' r) : r ∈ note history r := by
  unfold note
  cases hr with
  | held entry hentry hrecord hevents hnext =>
    have hmem : r ∈ history := hw.ring.subset (hrecord ▸ List.mem_map_of_mem hentry)
    rw [if_pos (List.mem_map_of_mem hmem)]
    exact hmem
  | pushed record hrecord hseq hevents hnext =>
    have hr : r.seq = lo + history.length := by rw [hrecord, ← hw.nextSeq]; exact hseq
    rw [if_neg (by rw [hw.numbered, List.mem_range'_1]; omega)]
    simp

theorem cacheKept_stageAppend {f f' : FederationFeed} {raw : FederationEvent}
    {receivedAt : Lib.Js.Num}
    {snapshot : Option (List FederationEvent)} {staged : FederationFeed.StagedAppend}
    (hbound : f.events.length ≤ maxEvents)
    (h : f.stageAppend E maxEvents raw receivedAt snapshot = some (f', staged)) :
    CacheKept f f' := by
  cases (FederationFeed.stageAppend_cases hbound h).1 with
  | known entry hentry hid hlines hundo himage hids hcache => exact hcache
  | replayed entry record hentry hid d hd hlines hundo himage hids hcache => exact Or.inr hcache
  | pushed record hevent hchecked hid hseq hnew d hlines hundo himage hids hcache =>
    exact hcache.symm

theorem grown_append (hmax : 1 ≤ maxEvents) (hs : Logged E maxEvents s)
    (hw : Window lo history s.feed) (raw : JsEvent)
    (receivedAt : Lib.Js.Num) (snapshot : Option (List FederationEvent)) (io : Io) :
    Grown lo history s.feed (s.append E maxEvents raw.val receivedAt snapshot io).1.feed
      (s.append E maxEvents raw.val receivedAt snapshot io).2.toList := by
  unfold LoggedFeed.append
  cases hstage : s.feed.stageAppend E maxEvents raw.val receivedAt snapshot with
  | none => exact Grown.none hw rfl rfl (CacheKept.refl _)
  | some r =>
    obtain ⟨feed, staged⟩ := r
    have hgood := FederationFeed.good_stageAppend hs.good raw.property hstage
    have hrecorded := recorded_stageAppend hs.good.ring.bounded hstage
    have hcache := cacheKept_stageAppend hs.good.ring.bounded hstage
    have hgrown : Grown lo history s.feed feed [staged.record] := by
      refine ⟨hw.recorded hmax hrecorded, hcache, fun r hr => ?_⟩
      rw [List.mem_singleton] at hr
      rw [hr]
      exact hrecorded.mem_note hw
    dsimp only
    split
    · exact hgrown
    · obtain ⟨n, b, hfeed⟩ := feed_appendLines maxEvents io staged.lines { s with feed }
      split
      · rename_i s' heq
        rw [heq] at hfeed
        dsimp only at hfeed ⊢
        rw [hfeed]
        exact ⟨hgrown.window.of_image rfl rfl, hgrown.cache, hgrown.recorded⟩
      · rename_i s' heq
        have hrefused : Refused { s with feed } s' := by
          have := refused_appendLines io maxEvents staged.lines { s with feed }
          rw [heq] at this
          exact this rfl
        have hback := FederationFeed.rollback_stageAppend hmax hs.good hstage hrefused.image
          (indexed_of_refused hgood hrefused)
        have hs' : CacheKept s.feed s'.feed := by
          rw [heq] at hfeed
          rw [hfeed]
          exact hcache
        exact Grown.none hw (congrArg Image.events hback.image) (congrArg Image.nextSeq hback.image)
          (hs'.trans hback.cache)

theorem grown_stageAll (hmax : 1 ≤ maxEvents) {raws : List FederationEvent}
    {receivedAt : Lib.Js.Num}
    (hraws : ∀ raw ∈ raws, Distinct (.obj raw.payload)) {f : FederationFeed}
    (hf : Good E maxEvents f)
    (hw : Window lo history f) :
    Grown lo history f (FederationFeed.stageAll E maxEvents receivedAt raws f).1
      ((FederationFeed.stageAll E maxEvents receivedAt raws f).2.1.map (·.record)) := by
  induction raws generalizing f history with
  | nil => exact Grown.none hw rfl rfl (CacheKept.refl _)
  | cons raw raws ih =>
    rw [FederationFeed.stageAll]
    cases hstage : f.stageAppend E maxEvents raw receivedAt none with
    | none => exact Grown.none hw rfl rfl (CacheKept.refl _)
    | some r =>
      obtain ⟨f₁, staged⟩ := r
      have hgood := FederationFeed.good_stageAppend hf (hraws raw List.mem_cons_self) hstage
      have hrecorded := recorded_stageAppend hf.ring.bounded hstage
      have hrest :=
        ih (fun r hr => hraws r (List.mem_cons_of_mem _ hr)) hgood (hw.recorded hmax hrecorded)
      refine ⟨hrest.window, (cacheKept_stageAppend hf.ring.bounded hstage).trans hrest.cache,
        fun r hr => ?_⟩
      rcases List.mem_cons.mp hr with rfl | hr
      · exact (prefix_foldl_note
          ((FederationFeed.stageAll E maxEvents receivedAt raws f₁).2.1.map (·.record))
          (note history staged.record)).subset (hrecorded.mem_note hw)
      · exact hrest.recorded r hr

theorem grown_appendBatch (hmax : 1 ≤ maxEvents) (hs : Logged E maxEvents s)
    (hw : Window lo history s.feed)
    (raws : List JsEvent) (receivedAt : Lib.Js.Num) (io : Io) :
    Grown lo history s.feed (s.appendBatch E maxEvents (raws.map (·.val)) receivedAt io).1.feed
      ((s.appendBatch E maxEvents (raws.map (·.val)) receivedAt io).2.getD []) := by
  have hraws : ∀ raw ∈ raws.map (·.val), Distinct (.obj raw.payload) := by
    intro raw hraw
    obtain ⟨r, -, rfl⟩ := List.mem_map.mp hraw
    exact r.property
  have heffect := @FederationFeed.stageAll_effect E maxEvents s.feed receivedAt hmax _ hraws hs.good
  have hgrown := @grown_stageAll E maxEvents lo history hmax _ receivedAt hraws _ hs.good hw
  unfold LoggedFeed.appendBatch
  rcases hstage : FederationFeed.stageAll E maxEvents receivedAt (raws.map (·.val)) s.feed with
    ⟨feed, staged, ok⟩
  rw [hstage] at heffect hgrown
  rw [hstage]
  -- A batch that cannot be staged as a whole is rolled back, as is one that is not written.
  cases ok with
  | false =>
    have hback := heffect.undone feed rfl heffect.good.indexed
    exact Grown.none hw (congrArg Image.events hback.image) (congrArg Image.nextSeq hback.image)
      (hgrown.cache.trans hback.cache)
  | true =>
    obtain ⟨n, b, hfeed⟩ :=
      feed_appendLines maxEvents io (LoggedFeed.batchLines staged) { s with feed }
    dsimp only
    split
    · rename_i s' heq
      rw [heq] at hfeed
      dsimp only at hfeed ⊢
      rw [hfeed]
      exact ⟨hgrown.window.of_image rfl rfl, hgrown.cache, hgrown.recorded⟩
    · rename_i s' heq
      have hrefused : Refused { s with feed } s' := by
        have := refused_appendLines io maxEvents (LoggedFeed.batchLines staged) { s with feed }
        rw [heq] at this
        exact this rfl
      have hback := heffect.undone _ hrefused.image (indexed_of_refused heffect.good hrefused)
      have hs' : CacheKept s.feed s'.feed := by
        rw [heq] at hfeed
        rw [hfeed]
        exact hgrown.cache
      exact Grown.none hw (congrArg Image.events hback.image) (congrArg Image.nextSeq hback.image)
        (hs'.trans hback.cache)

theorem grown_checkpoint (hw : Window lo history s.feed) (rawEvents : List FederationEvent)
    (io : Io) :
    Grown lo history s.feed (s.checkpoint E maxEvents rawEvents io).feed [] := by
  unfold LoggedFeed.checkpoint
  split
  · exact Grown.none hw rfl rfl (CacheKept.refl _)
  · rename_i digest hdigest
    split
    · exact Grown.none hw rfl rfl (CacheKept.refl _)
    · obtain ⟨n, b, hfeed⟩ := feed_appendLines maxEvents io [.digest (some digest)]
        { s with feed := { s.feed with snapshotDigest := some digest } }
      split
      · rename_i s' heq
        rw [heq] at hfeed
        dsimp only at hfeed ⊢
        rw [hfeed]
        exact Grown.none hw rfl rfl (Or.inl rfl)
      · rename_i s' heq
        rw [heq] at hfeed
        dsimp only at hfeed ⊢
        rw [hfeed]
        exact Grown.none hw rfl rfl (Or.inl rfl)

theorem grown_reconcileSnapshot (hw : Window lo history s.feed) (rawEvents : List FederationEvent)
    (fresh : FeedId)
    (io : Io) : Grown lo history s.feed (s.reconcileSnapshot E rawEvents fresh io).1.feed [] := by
  unfold LoggedFeed.reconcileSnapshot
  split
  · exact Grown.none hw rfl rfl (CacheKept.refl _)
  · rename_i digest hdigest
    split
    · exact Grown.none hw rfl rfl (CacheKept.refl _)
    · obtain ⟨n, b, hfeed⟩ := feed_compact io.compaction { s with
        feed := { s.feed with feedId := fresh, snapshotDigest := some digest, cachedResetPage := none } }
      dsimp only
      split
      · rename_i s' heq
        rw [heq] at hfeed
        dsimp only at hfeed ⊢
        rw [hfeed]
        exact Grown.none hw rfl rfl (Or.inr rfl)
      · rename_i s' heq
        rw [heq] at hfeed
        dsimp only at hfeed ⊢
        rw [hfeed]
        exact Grown.none hw rfl rfl (Or.inr rfl)

theorem grown_compact (hw : Window lo history s.feed) (result : WriteResult) :
    Grown lo history s.feed (s.compact result).1.feed [] := by
  obtain ⟨n, b, hfeed⟩ := feed_compact result s
  rw [hfeed]
  exact Grown.none hw rfl rfl (Or.inl rfl)

end Feed

/-! ## What is served -/

/-- These are the records of a snapshot of the book, taken when `after` was the last sequence. What
was published since is past `after`, or a replay of an event from before. -/
def TakenAt (E : Crypto) (base : List FederationRecord) (s : Served) (after : Nat)
    (records : List FederationRecord) :
    Prop :=
  ∃ snapshot k, (snapshot, k) ∈ s.snapshots ∧ k ≤ s.published.length ∧
    FederationFeed.snapshotRecords E after snapshot = some records ∧
    (∀ r ∈ base ++ s.published.take k, r.seq ≤ after) ∧
    ∀ r ∈ s.published.drop k, after < r.seq ∨ r ∈ base ++ s.published.take k

def Served.history (base : List FederationRecord) (s : Served) : List FederationRecord :=
  historyOf base s.published

section Serving

variable (E : Crypto) (lo : Nat) (base : List FederationRecord) (s : Served)

/-- A reset page. -/
structure ResetPage (p : FederationPage) (id : FeedId) (after : Nat)
    (records : List FederationRecord) : Prop where
  reset : p.reset = true
  cursor : p.cursor = cursorOf id after
  snapshot : p.snapshot = some records
  start : lo ≤ after + 1
  known : after < lo + (s.history base).length
  taken : TakenAt E base s after records

def AnswerOk (p : FederationPage) : Prop :=
  (∃ id after records, ResetPage E lo base s p id after records) ∨
    ∃ id n latest m, Continuation lo (s.history base) id n latest p m

def IsResetKey (key : List Char) : Prop :=
  ∃ cursor limit oldest latest, key = federationResponseCacheKey true cursor limit oldest latest

/-- A response under the key of a reset is some answer; one under the key of an incremental page
goes on from the cursor in the key. -/
def EntryOk (key : List Char) (p : FederationPage) : Prop :=
  (IsResetKey key ∧ AnswerOk E lo base s p) ∨
    ∃ id n limit oldest latest m,
      key = federationResponseCacheKey false (some (cursorOf id n)) limit oldest latest ∧
      Continuation lo (s.history base) id n (latest.getD 0) p m

/-- The segment of a client is the stretch of the history from where it starts to the cursor. -/
structure SegmentOk (c : Client) (g : Segment) (id : FeedId) (n : Nat) : Prop where
  cursor : c.cursor.bind parseCursor = some (id, n)
  start : lo ≤ g.after + 1
  le : g.after ≤ n
  known : n < lo + (s.history base).length
  delivered : g.delivered = stretch lo (s.history base) g.after n
  taken : ∀ records, g.snapshot = some records → TakenAt E base s g.after records
  joined : g.snapshot = none → ∃ id, c.joined.bind parseCursor = some (id, g.after)

structure ClientOk (c : Client) : Prop where
  asked : ∀ key limit, c.asked = some (key, limit) → IsResetKey key ∧ 1 ≤ limit
  fresh : c.segment = none → c.cursor = c.joined
  segment : ∀ g, c.segment = some g → ∃ id n, SegmentOk E lo base s c g id n

/-- Everything that the process keeps for its clients agrees with the history. -/
structure ServedOk (maxEvents : Nat) : Prop where
  logged : Logged E maxEvents s.logged
  window : Window lo (s.history base) s.logged.feed
  recorded : ∀ r ∈ s.published, r ∈ s.history base
  cached : ∀ cached, s.logged.feed.cachedResetPage = some cached →
    ∃ id after records, ResetPage E lo base s cached.page id after records
  entries : ∀ e ∈ s.responses.entries, EntryOk E lo base s e.1 e.2.body
  clients : ∀ c ∈ s.clients, ClientOk E lo base s c

end Serving

/-! ## A later state -/

/-- A state with more published records and more requests. -/
structure Later (base : List FederationRecord) (s s' : Served) (more : List FederationRecord) :
    Prop where
  published : s'.published = s.published ++ more
  snapshots : s.snapshots ⊆ s'.snapshots
  recorded : ∀ r ∈ more, r ∈ s'.history base

section Later

variable {E : Crypto} {lo : Nat} {base more records : List FederationRecord} {s s' : Served}

theorem Later.prefix (h : Later base s s' more) : s.history base <+: s'.history base := by
  rw [Served.history, Served.history, h.published, historyOf_append]
  exact prefix_foldl_note _ _

theorem mem_of_prefix {history history' : List FederationRecord} (hpre : history <+: history')
    (hnumbered : history'.map (·.seq) = List.range' lo history'.length) {r : FederationRecord}
    (hr : r ∈ history')
    (hseq : r.seq < lo + history.length) : r ∈ history := by
  obtain ⟨i, hi⟩ := List.mem_iff_getElem?.mp hr
  have hri := seq_getElem? hnumbered hi
  obtain ⟨rest, rfl⟩ := hpre
  rw [List.getElem?_append_left (by omega)] at hi
  exact List.mem_of_getElem? hi

theorem TakenAt.later (h : Later base s s' more)
    (hnumbered : (s'.history base).map (·.seq) = List.range' lo (s'.history base).length)
    {after : Nat}
    (hknown : after < lo + (s.history base).length) (ht : TakenAt E base s after records) :
    TakenAt E base s' after records := by
  obtain ⟨snapshot, k, hmem, hk, hrecords, hbefore, hsince⟩ := ht
  have htake : s'.published.take k = s.published.take k := by
    rw [h.published, List.take_append_of_le_length hk]
  refine ⟨snapshot, k, h.snapshots hmem, ?_, hrecords, ?_, fun r hr => ?_⟩
  · rw [h.published, List.length_append]
    omega
  · rw [htake]
    exact hbefore
  · rw [htake]
    rw [h.published, List.drop_append_of_le_length hk, List.mem_append] at hr
    rcases hr with hr | hr
    · exact hsince r hr
    · by_cases hafter : after < r.seq
      · exact Or.inl hafter
      · have hmem' := mem_of_prefix h.prefix hnumbered (h.recorded r hr) (by omega)
        have := mem_historyOf hmem'
        rw [List.mem_append] at this
        rcases this with hbase | hpub
        · exact Or.inr (List.mem_append_left _ hbase)
        · rw [← List.take_append_drop k s.published, List.mem_append] at hpub
          rcases hpub with hpub | hpub
          · exact Or.inr (List.mem_append_right _ hpub)
          · exact hsince r hpub

section Mono

variable (h : Later base s s' more)
  (hnumbered : (s'.history base).map (·.seq) = List.range' lo (s'.history base).length)
include h hnumbered

theorem ResetPage.later {p : FederationPage} {id : FeedId} {after : Nat}
    (hp : ResetPage E lo base s p id after records) :
    ResetPage E lo base s' p id after records where
  reset := hp.reset
  cursor := hp.cursor
  snapshot := hp.snapshot
  start := hp.start
  known := Nat.lt_of_lt_of_le hp.known (Nat.add_le_add_left h.prefix.length_le lo)
  taken := hp.taken.later h hnumbered hp.known

theorem AnswerOk.later {p : FederationPage} (hp : AnswerOk E lo base s p) :
    AnswerOk E lo base s' p := by
  rcases hp with ⟨id, after, records, hp⟩ | ⟨id, n, latest, m, hp⟩
  · exact Or.inl ⟨id, after, records, hp.later h hnumbered⟩
  · exact Or.inr ⟨id, n, latest, m, hp.mono h.prefix⟩

theorem EntryOk.later {key : List Char} {p : FederationPage} (hp : EntryOk E lo base s key p) :
    EntryOk E lo base s' key p := by
  rcases hp with ⟨hkey, hp⟩ | ⟨id, n, limit, oldest, latest, m, hkey, hp⟩
  · exact Or.inl ⟨hkey, hp.later h hnumbered⟩
  · exact Or.inr ⟨id, n, limit, oldest, latest, m, hkey, hp.mono h.prefix⟩

theorem ClientOk.later {c : Client} (hc : ClientOk E lo base s c) : ClientOk E lo base s' c := by
  refine ⟨hc.asked, hc.fresh, fun g hg => ?_⟩
  obtain ⟨id, n, hok⟩ := hc.segment g hg
  have hafter : g.after < lo + (s.history base).length := Nat.lt_of_le_of_lt hok.le hok.known
  refine ⟨id, n, hok.cursor, hok.start, hok.le, ?_, ?_, fun records hrecords => ?_, hok.joined⟩
  · exact Nat.lt_of_lt_of_le hok.known (Nat.add_le_add_left h.prefix.length_le lo)
  · rw [hok.delivered, stretch_of_prefix h.prefix hok.start hok.known]
  · exact (hok.taken records hrecords).later h hnumbered hafter

end Mono

end Later

end QuantaSwap.Feed
