import Mathlib.Data.List.Forall2
import QuantaSwap.Feed.Replay

/-!
# Runs of a feed with its log

Every operation keeps the ring in order and the file a log of it, whether its
writes happen or not, and a start of the process loads the same feed again.
-/

set_option autoImplicit false

namespace QuantaSwap.Feed

open Lib.Js Lib.Text Lib.Utf8 Lib.Run QuantaSwap.Book

/-- What happens to a feed and its file. -/
inductive Op where
  | append (raw : JsEvent) (receivedAt : Lib.Js.Num)
    (snapshot : Option (List FederationEvent)) (io : Io)
  | appendBatch (raws : List JsEvent) (receivedAt : Lib.Js.Num) (io : Io)
  | checkpoint (rawEvents : List FederationEvent) (io : Io)
  | reconcileSnapshot (rawEvents : List FederationEvent) (fresh : FeedId) (io : Io)
  | compact (result : WriteResult)
  /-- The file is removed under the process. -/
  | unlink
  /-- The process starts again. A start that throws leaves what there was. -/
  | restart (fresh : FeedId) (io : Io)

/-- A feed that finds no file. -/
def LoggedFeed.start (fresh : FeedId) : LoggedFeed := { feed := { feedId := fresh }, file := none }

section Step

variable (E : Crypto) (maxEvents : Nat)

def step (s : LoggedFeed) : Op → LoggedFeed
  | .append raw receivedAt snapshot io => (s.append E maxEvents raw.val receivedAt snapshot io).1
  | .appendBatch raws receivedAt io =>
    (s.appendBatch E maxEvents (raws.map (·.val)) receivedAt io).1
  | .checkpoint rawEvents io => s.checkpoint E maxEvents rawEvents io
  | .reconcileSnapshot rawEvents fresh io => (s.reconcileSnapshot E rawEvents fresh io).1
  | .compact result => (s.compact result).1
  | .unlink => { s with file := none }
  | .restart fresh io => (load E maxEvents fresh io s.file).getD s

/-- The lines that an append writes. -/
def Op.lines (s : LoggedFeed) : Op → List Line
  | .append raw receivedAt snapshot _ =>
    ((s.feed.stageAppend E maxEvents raw.val receivedAt snapshot).map fun r => r.2.lines).getD []
  | .appendBatch raws receivedAt _ =>
    match FederationFeed.stageAll E maxEvents receivedAt (raws.map (·.val)) s.feed with
    | (_, staged, true) => LoggedFeed.batchLines staged
    | (_, _, false) => []
  | .checkpoint rawEvents _ =>
    match federationSnapshotDigest E rawEvents with
    | none => []
    | some digest =>
      if some digest = s.feed.snapshotDigest ∨ s.logFileStatus ≠ .owned then [] else
        [.digest (some digest)]
  | _ => []

/-- The next sequence is a number that the loader takes. -/
def SafeSeq (s : LoggedFeed) : Prop := s.feed.nextSeq ≤ maxSafeInteger

end Step

/-- The ring is in order, and the file is a log of it. -/
structure Logged (E : Crypto) (maxEvents : Nat) (s : LoggedFeed) : Prop where
  good : Good E maxEvents s.feed
  file : ∀ bytes ∈ s.file, Describes E maxEvents s.feed.image s.feed.logLines bytes
  unread : s.feed.logIdentity = false → s.feed.logLines = none

section Writes

variable {E : Crypto} {maxEvents : Nat} {s : LoggedFeed}

theorem logged_start (fresh : FeedId) : Logged E maxEvents (.start fresh) where
  good := by
    refine ⟨⟨?_, ?_, ?_, ?_, ?_⟩, fun id => Iff.rfl⟩
    · exact fun r hr => absurd hr List.not_mem_nil
    · exact List.nodup_nil
    · rfl
    · exact Nat.zero_lt_one
    · exact Nat.zero_le _
  file := by rintro bytes ⟨⟩
  unread _ := rfl

/-- What an operation that failed leaves behind. -/
structure Refused (s s' : LoggedFeed) : Prop where
  file : s'.file = s.file
  image : s'.feed.image = s.feed.image
  eventIds : s'.feed.eventIds = s.feed.eventIds
  identity : s'.feed.logIdentity = s.feed.logIdentity
  logLines : s'.feed.logLines = s.feed.logLines ∨ s'.feed.logLines = none

theorem compact_refused (result : WriteResult) (h : (s.compact result).2 = false) :
    Refused s (s.compact result).1 := by
  cases result with
  | refused => exact ⟨rfl, rfl, rfl, rfl, Or.inl rfl⟩
  | failed => exact ⟨rfl, rfl, rfl, rfl, Or.inr rfl⟩
  | done => cases h

theorem logged_compact_done (hgood : Good E maxEvents s.feed) (result : WriteResult)
    (h : (s.compact result).2 = true) :
    Logged E maxEvents (s.compact result).1 := by
  cases result with
  | refused => cases h
  | failed => cases h
  | done =>
    refine ⟨⟨hgood.ring, hgood.indexed⟩, ?_, nofun⟩
    rintro bytes ⟨⟩
    exact describes_compact hgood.ring

theorem logged_compact (hs : Logged E maxEvents s) (result : WriteResult) :
    Logged E maxEvents (s.compact result).1 := by
  cases result with
  | refused => exact hs
  | failed =>
    exact ⟨⟨hs.good.ring, hs.good.indexed⟩, fun bytes hbytes => (hs.file bytes hbytes).forget,
      fun _ => rfl⟩
  | done => exact logged_compact_done hs.good .done rfl

theorem exists_file (hs : Logged E maxEvents s) {n : Nat} (hn : s.feed.logLines = some n)
    (hstatus : s.logFileStatus ≠ .missing) : ∃ bytes, s.file = some bytes := by
  have hid : s.feed.logIdentity = true := by
    cases hid : s.feed.logIdentity with
    | true => rfl
    | false =>
      rw [hs.unread hid] at hn
      cases hn
  cases hfile : s.file with
  | some bytes => exact ⟨bytes, rfl⟩
  | none =>
    unfold LoggedFeed.logFileStatus at hstatus
    rw [hid, hfile] at hstatus
    exact absurd rfl hstatus

variable {feed : FederationFeed} {lines : List Line} (io : Io)

/-- Lines that lead from the logged ring to the ring in memory are written, and then the file is
a log of that one. -/
theorem logged_appendLines (hs : Logged E maxEvents s) (hgood : Good E maxEvents feed)
    (hlog : SameLog s.feed feed)
    (hfits : Along (Image.apply maxEvents) (Fits E) s.feed.image lines)
    (hrun : run (Image.apply maxEvents) s.feed.image lines = feed.image)
    (h : (LoggedFeed.appendLines maxEvents io lines { s with feed }).2 = true) :
    Logged E maxEvents (LoggedFeed.appendLines maxEvents io lines { s with feed }).1 := by
  unfold LoggedFeed.appendLines at h ⊢
  split
  · rename_i hempty
    rw [List.isEmpty_iff] at hempty
    subst hempty
    refine ⟨hgood, fun bytes hbytes => ?_, fun hno => ?_⟩
    · show Describes E maxEvents feed.image feed.logLines bytes
      rw [← hrun, hlog.logLines]
      exact hs.file bytes hbytes
    · rw [hlog.logLines]
      exact hs.unread (hlog.logIdentity ▸ hno)
  · rename_i hne
    rw [if_neg hne] at h
    split at h
    · cases h
    · rename_i howned
      rw [if_neg howned]
      split at h
      · exact logged_compact_done hgood io.compaction h
      · exact logged_compact_done hgood io.compaction h
      · rename_i n hlines hstatus
        split at h
        · cases h
        · rename_i hwrite
          rw [if_neg hwrite]
          have hn : s.feed.logLines = some n := hlog.logLines ▸ hlines
          have hpresent : s.logFileStatus ≠ .missing := by
            intro hmissing
            apply hstatus
            unfold LoggedFeed.logFileStatus at hmissing ⊢
            rw [hlog.logIdentity]
            exact hmissing
          -- The file is the log that the feed counts; the lines go behind it.
          obtain ⟨bytes, hbytes⟩ := exists_file hs hn hpresent
          have hdescribes := hs.file bytes hbytes
          rw [hn] at hdescribes
          have hwritten := hdescribes.append hfits
          rw [hrun] at hwritten
          have hlogged : Logged E maxEvents
              { feed := { feed with logLines := some (n + lines.length) }
                file := some (s.file.getD [] ++ lineBytes lines) } := by
            refine ⟨⟨hgood.ring, hgood.indexed⟩, ?_, fun hno => ?_⟩
            · rintro b ⟨⟩
              rw [hbytes]
              exact hwritten
            · rw [hs.unread (hlog.logIdentity ▸ hno)] at hn
              cases hn
          split
          · exact logged_compact hlogged io.compaction
          · exact hlogged

theorem refused_appendLines (maxEvents : Nat) (lines : List Line) (s : LoggedFeed)
    (h : (LoggedFeed.appendLines maxEvents io lines s).2 = false) :
    Refused s (LoggedFeed.appendLines maxEvents io lines s).1 := by
  unfold LoggedFeed.appendLines at h ⊢
  split
  · rename_i hempty
    rw [if_pos hempty] at h
    cases h
  · rename_i hne
    rw [if_neg hne] at h
    split
    · exact ⟨rfl, rfl, rfl, rfl, Or.inl rfl⟩
    · rename_i howned
      rw [if_neg howned] at h
      split at h
      · exact compact_refused io.compaction h
      · exact compact_refused io.compaction h
      · split at h
        · rename_i hwrite
          rw [if_pos hwrite]
          exact ⟨rfl, rfl, rfl, rfl, Or.inr rfl⟩
        · split at h <;> cases h

theorem logged_rolledBack {s' : LoggedFeed} (hs : Logged E maxEvents s) (hlog : SameLog s.feed feed)
    (hrefused : Refused { s with feed } s') {back : FederationFeed}
    (hback : FederationFeed.RolledBack s.feed s'.feed back) :
    Logged E maxEvents { s' with feed := back } := by
  have hlines : back.logLines = s.feed.logLines ∨ back.logLines = none := by
    rw [hback.log.logLines]
    rcases hrefused.logLines with h | h
    · exact Or.inl (h.trans hlog.logLines)
    · exact Or.inr h
  refine ⟨⟨hback.image ▸ hs.good.ring, hback.indexed⟩, fun bytes hbytes => ?_, fun hno => ?_⟩
  · have hdescribes := hs.file bytes (hrefused.file ▸ hbytes)
    show Describes E maxEvents back.image back.logLines bytes
    rw [hback.image]
    rcases hlines with h | h
    · rw [h]
      exact hdescribes
    · rw [h]
      exact hdescribes.forget
  · have hno' : back.logIdentity = false := hno
    rw [hback.log.logIdentity, hrefused.identity] at hno'
    rcases hlines with h | h
    · exact h.trans (hs.unread (hlog.logIdentity ▸ hno'))
    · exact h

end Writes

/-! ## The operations -/

section Operations

variable {E : Crypto} {maxEvents : Nat} {s : LoggedFeed}

theorem indexed_of_refused {feed : FederationFeed} {s' : LoggedFeed} (hgood : Good E maxEvents feed)
    (h : Refused { s with feed } s') : Indexed s'.feed := by
  intro id
  rw [h.eventIds, show s'.feed.events = feed.events from congrArg Image.events h.image]
  exact hgood.indexed id

theorem logged_append (hmax : 1 ≤ maxEvents) (hs : Logged E maxEvents s) (raw : JsEvent)
    (receivedAt : Lib.Js.Num)
    (snapshot : Option (List FederationEvent)) (io : Io) :
    Logged E maxEvents (s.append E maxEvents raw.val receivedAt snapshot io).1 := by
  unfold LoggedFeed.append
  cases hstage : s.feed.stageAppend E maxEvents raw.val receivedAt snapshot with
  | none => exact hs
  | some r =>
    obtain ⟨feed, staged⟩ := r
    have hgood := FederationFeed.good_stageAppend hs.good raw.property hstage
    have hlog := (FederationFeed.stageAppend_cases hs.good.ring.bounded hstage).2
    have hfits := FederationFeed.along_stageAppend hs.good raw.property hstage
    have hrun := FederationFeed.run_stageAppend hs.good hstage
    have hwritten := logged_appendLines io hs hgood hlog hfits hrun
    dsimp only
    split
    · rename_i hempty
      rw [LoggedFeed.appendLines, if_pos hempty] at hwritten
      exact hwritten rfl
    · split
      · rename_i s' heq
        rw [heq] at hwritten
        exact hwritten rfl
      · rename_i s' heq
        have hrefused : Refused { s with feed } s' := by
          have := refused_appendLines io maxEvents staged.lines { s with feed }
          rw [heq] at this
          exact this rfl
        exact logged_rolledBack hs hlog hrefused
          (FederationFeed.rollback_stageAppend hmax hs.good hstage hrefused.image
            (indexed_of_refused hgood hrefused))

theorem logged_appendBatch (hmax : 1 ≤ maxEvents) (hs : Logged E maxEvents s) (raws : List JsEvent)
    (receivedAt : Lib.Js.Num) (io : Io) :
    Logged E maxEvents (s.appendBatch E maxEvents (raws.map (·.val)) receivedAt io).1 := by
  have hraws : ∀ raw ∈ raws.map (·.val), Distinct (.obj raw.payload) := by
    intro raw hraw
    obtain ⟨r, -, rfl⟩ := List.mem_map.mp hraw
    exact r.property
  have heffect := @FederationFeed.stageAll_effect E maxEvents s.feed receivedAt hmax _ hraws hs.good
  unfold LoggedFeed.appendBatch
  rcases hstage : FederationFeed.stageAll E maxEvents receivedAt (raws.map (·.val)) s.feed with
    ⟨feed, staged, ok⟩
  rw [hstage] at heffect
  rw [hstage]
  cases ok with
  | false =>
    have hself : Refused { s with feed } { s with feed } := ⟨rfl, rfl, rfl, rfl, Or.inl rfl⟩
    exact logged_rolledBack hs heffect.log hself (heffect.undone feed rfl heffect.good.indexed)
  | true =>
    have hwritten := logged_appendLines io hs heffect.good heffect.log heffect.fits heffect.lines
    dsimp only
    split
    · rename_i s' heq
      have : LoggedFeed.appendLines maxEvents io (staged.flatMap (·.lines)) { s with feed } =
        (s', true) := heq
      rw [this] at hwritten
      exact hwritten rfl
    · rename_i s' heq
      have hrefused : Refused { s with feed } s' := by
        have := refused_appendLines io maxEvents (LoggedFeed.batchLines staged) { s with feed }
        rw [heq] at this
        exact this rfl
      exact logged_rolledBack hs heffect.log hrefused
        (heffect.undone _ hrefused.image (indexed_of_refused heffect.good hrefused))

theorem logged_checkpoint (hs : Logged E maxEvents s) (rawEvents : List FederationEvent) (io : Io) :
    Logged E maxEvents (s.checkpoint E maxEvents rawEvents io) := by
  unfold LoggedFeed.checkpoint
  split
  · exact hs
  · rename_i digest hdigest
    split
    · exact hs
    · have hgood : Good E maxEvents { s.feed with snapshotDigest := some digest } :=
        ⟨hs.good.ring.digest _, hs.good.indexed⟩
      have hfits : Along (Image.apply maxEvents) (Fits E) s.feed.image [.digest (some digest)] :=
        ⟨trivial, trivial⟩
      have hwritten := logged_appendLines io hs hgood ⟨rfl, rfl⟩ hfits rfl
      split
      · rename_i s' heq
        rw [heq] at hwritten
        exact hwritten rfl
      · rename_i s' heq
        have hrefused :
          Refused { s with feed := { s.feed with snapshotDigest := some digest } } s' := by
          have := refused_appendLines io maxEvents [.digest (some digest)]
            { s with feed := { s.feed with snapshotDigest := some digest } }
          rw [heq] at this
          exact this rfl
        have hindexed := indexed_of_refused hgood hrefused
        have hlog : SameLog s.feed { s.feed with snapshotDigest := some digest } := ⟨rfl, rfl⟩
        refine logged_rolledBack hs hlog hrefused ⟨?_, hindexed, ⟨rfl, rfl⟩, Or.inl rfl⟩
        show ({ s'.feed.image with snapshotDigest := s.feed.snapshotDigest } : Image) = s.feed.image
        rw [hrefused.image]
        rfl

theorem logged_reconcileSnapshot (hs : Logged E maxEvents s) (rawEvents : List FederationEvent)
    (fresh : FeedId)
    (io : Io) : Logged E maxEvents (s.reconcileSnapshot E rawEvents fresh io).1 := by
  unfold LoggedFeed.reconcileSnapshot
  split
  · exact hs
  · rename_i digest hdigest
    split
    · exact hs
    · have hring := hs.good.ring
      have hgood : Good E maxEvents
          { s.feed with feedId := fresh, snapshotDigest := some digest, cachedResetPage := none } :=
        ⟨⟨hring.valid, hring.distinct, hring.contiguous, hring.below, hring.bounded⟩,
          hs.good.indexed⟩
      dsimp only
      split
      · rename_i s' heq
        have := logged_compact_done (s := { s with
          feed := { s.feed with
            feedId := fresh
            snapshotDigest := some digest
            cachedResetPage := none } }) hgood io.compaction
        rw [heq] at this
        exact this rfl
      · rename_i s' heq
        have hrefused := compact_refused (s := { s with
          feed := { s.feed with
            feedId := fresh
            snapshotDigest := some digest
            cachedResetPage := none } }) io.compaction
        rw [heq] at hrefused
        have hrefused := hrefused rfl
        have hindexed := indexed_of_refused hgood hrefused
        have hlog : SameLog s.feed { s.feed with
            feedId := fresh
            snapshotDigest := some digest
            cachedResetPage := none } := ⟨rfl, rfl⟩
        refine logged_rolledBack hs hlog hrefused ⟨?_, hindexed, ⟨rfl, rfl⟩, Or.inl rfl⟩
        show ({ s'.feed.image with
          feedId := s.feed.feedId
          snapshotDigest := s.feed.snapshotDigest } : Image) = _
        rw [hrefused.image]
        rfl

end Operations

/-! ## Starts -/

section Restart

variable {E : Crypto} {maxEvents : Nat} {s : LoggedFeed}

theorem image_of_loaded {i : Image} {g : FederationFeed} (h : Loaded i g) : g.image = i.settle := by
  rw [FederationFeed.image, h.feedId, h.nextSeq, h.events, h.snapshotDigest]
  rfl

theorem logged_restart (hmax : 1 ≤ maxEvents) (hs : Logged E maxEvents s) (hsafe : SafeSeq s)
    (fresh : FeedId) (io : Io) :
    Logged E maxEvents ((load E maxEvents fresh io s.file).getD s) := by
  cases hfile : s.file with
  | none => exact logged_start fresh
  | some bytes =>
    obtain ⟨g, hload, hloaded, hidentity, hdescribes⟩ :=
      (hs.file bytes hfile).load hmax hsafe fresh io
    rw [hload, Option.getD_some]
    have himage := image_of_loaded hloaded
    refine ⟨⟨himage ▸ hs.good.ring.settle, fun id => ?_⟩, ?_, fun hno => ?_⟩
    · rw [hloaded.eventIds id, hloaded.events, map_settle_ids]
    · rintro b ⟨⟩
      show Describes E maxEvents g.image g.logLines bytes
      rw [himage]
      exact hdescribes.settle
    · rw [hidentity] at hno
      cases hno

theorem logged_step (hmax : 1 ≤ maxEvents) (hs : Logged E maxEvents s) (hsafe : SafeSeq s)
    (op : Op) :
    Logged E maxEvents (step E maxEvents s op) := by
  cases op with
  | append raw receivedAt snapshot io => exact logged_append hmax hs raw receivedAt snapshot io
  | appendBatch raws receivedAt io => exact logged_appendBatch hmax hs raws receivedAt io
  | checkpoint rawEvents io => exact logged_checkpoint hs rawEvents io
  | reconcileSnapshot rawEvents fresh io => exact logged_reconcileSnapshot hs rawEvents fresh io
  | compact result => exact logged_compact hs result
  | unlink => exact ⟨hs.good, nofun, hs.unread⟩
  | restart fresh io => exact logged_restart hmax hs hsafe fresh io

theorem logged_run (hmax : 1 ≤ maxEvents) (fresh : FeedId) {ops : List Op}
    (hsafe : Along (step E maxEvents) (fun s _ => SafeSeq s) (.start fresh) ops) :
    Logged E maxEvents (run (step E maxEvents) (.start fresh) ops) :=
  invariant_of_along (I := Logged E maxEvents)
    (fun _ op hs hsafe => logged_step hmax hs hsafe op) hsafe
    (logged_start fresh)

end Restart

/-! ## What a start rebuilds -/

/-- The same record, with an event of the same text. -/
structure SameRecord (r r' : PersistedFederationRecord) : Prop where
  seq : r'.seq = r.seq
  eventId : r'.eventId = r.eventId
  receivedAt : r'.receivedAt = r.receivedAt
  event : stringify (eventJson r'.event) = stringify (eventJson r.event)

/-- The same feed: its id, its next sequence, its records in order, their ids and its digest. -/
structure Rebuilds (i : Image) (g : FederationFeed) : Prop where
  feedId : g.feedId = i.feedId
  nextSeq : g.nextSeq = i.nextSeq
  events : List.Forall₂ SameRecord i.events g.events
  eventIds : ∀ id, id ∈ g.eventIds ↔ id ∈ i.events.map (·.eventId)
  snapshotDigest : g.snapshotDigest = i.snapshotDigest

theorem sameRecord_settle (r : PersistedFederationRecord) : SameRecord r r.settle where
  seq := rfl
  eventId := rfl
  receivedAt := rfl
  event := by
    show stringify (eventJson (settleEvent r.event)) = _
    rw [eventJson_settleEvent, stringify_settle]

theorem rebuilds_of_loaded {i : Image} {g : FederationFeed} (h : Loaded i g) : Rebuilds i g where
  feedId := h.feedId
  nextSeq := h.nextSeq
  events := by
    rw [h.events, List.forall₂_map_right_iff]
    exact List.forall₂_same.mpr fun r _ => sameRecord_settle r
  eventIds := h.eventIds
  snapshotDigest := h.snapshotDigest

section Claim

variable {E : Crypto} {maxEvents : Nat} {s : LoggedFeed}

theorem fits_lines (hmax : 1 ≤ maxEvents) (hs : Logged E maxEvents s) (op : Op) :
    Along (Image.apply maxEvents) (Fits E) s.feed.image (op.lines E maxEvents s) := by
  cases op with
  | append raw receivedAt snapshot io =>
    rw [Op.lines]
    cases hstage : s.feed.stageAppend E maxEvents raw.val receivedAt snapshot with
    | none => trivial
    | some r =>
      obtain ⟨feed, staged⟩ := r
      exact FederationFeed.along_stageAppend hs.good raw.property hstage
  | appendBatch raws receivedAt io =>
    have hraws : ∀ raw ∈ raws.map (·.val), Distinct (.obj raw.payload) := by
      intro raw hraw
      obtain ⟨r, -, rfl⟩ := List.mem_map.mp hraw
      exact r.property
    have heffect :=
      @FederationFeed.stageAll_effect E maxEvents s.feed receivedAt hmax _ hraws hs.good
    rw [Op.lines]
    rcases hstage : FederationFeed.stageAll E maxEvents receivedAt (raws.map (·.val)) s.feed with
      ⟨feed, staged, ok⟩
    rw [hstage] at heffect
    rw [hstage]
    cases ok with
    | false => trivial
    | true => exact heffect.fits
  | checkpoint rawEvents io =>
    rw [Op.lines]
    split
    · trivial
    · split
      · trivial
      · exact ⟨trivial, trivial⟩
  | reconcileSnapshot rawEvents fresh io => trivial
  | compact result => trivial
  | unlink => trivial
  | restart fresh io => trivial

end Claim

/-! ## Fixed events -/

/-- A cancel and a fill with nothing in them. -/
def emptyCancel : JsEvent := ⟨⟨.cancelV2, []⟩, by simp [Distinct, DistinctMembers]⟩
def emptyFill : JsEvent := ⟨⟨.fillV2, []⟩, by simp [Distinct, DistinctMembers]⟩

def emptyCancelText : List Char := "\x7b\"kind\":\"cancel-v2\",\"payload\":\x7b\x7d\x7d".toList
def emptyFillText : List Char := "\x7b\"kind\":\"fill-v2\",\"payload\":\x7b\x7d\x7d".toList

def emptyCancelId : EventId :=
  ⟨"c68535fa98d9e2dbdb6c06c27a71d543632bc773ae6b6d35d96f0295d8af029e", by decide +kernel⟩
def emptyFillId : EventId :=
  ⟨"0e212bd42d99379deef4044289151ae32caa2d5747ac1e81599e85a06ab17b38", by decide +kernel⟩

/-- SHA-256 as far as these two events go. -/
def twoDigests : Crypto where
  sha256 bytes := if bytes = encode emptyFillText then emptyFillId else emptyCancelId
  shake256 _ := []
  verifyMessageForSigner _ _ _ _ _ := false

def someFeedId : FeedId := ⟨"00000000000000000000000000000000", by decide +kernel⟩

theorem identify_emptyCancel :
    identify twoDigests emptyCancel.val = some (emptyCancel.val, emptyCancelId) := by
  have htext : canonicalFederationJson emptyCancel.val = some emptyCancelText := by decide +kernel
  have hcheck : checkEvent emptyCancel.val = some emptyCancel.val :=
    checkEvent_eq_some.mpr ⟨rfl, _, htext, by decide +kernel⟩
  have hne : encode emptyCancelText ≠ encode emptyFillText := by decide +kernel
  simp only [identify, hcheck, federationEventId, htext, Option.bind_eq_bind, Option.bind_some,
    Option.map_some,
    Option.pure_def, twoDigests, if_neg hne]

theorem identify_emptyFill :
    identify twoDigests emptyFill.val = some (emptyFill.val, emptyFillId) := by
  have htext : canonicalFederationJson emptyFill.val = some emptyFillText := by decide +kernel
  have hcheck : checkEvent emptyFill.val = some emptyFill.val :=
    checkEvent_eq_some.mpr ⟨rfl, _, htext, by decide +kernel⟩
  simp only [identify, hcheck, federationEventId, htext, Option.bind_eq_bind, Option.bind_some,
    Option.map_some,
    Option.pure_def, twoDigests, if_true]

/-- A ring of one event that takes the two events in turns. -/
def turn (n : Nat) : JsEvent := if n % 2 = 0 then emptyCancel else emptyFill
def turnId (n : Nat) : EventId := if n % 2 = 0 then emptyCancelId else emptyFillId

def turns (n : Nat) : List Op := (List.range n).map fun k => .append (turn k) (.int 0) none {}

theorem identify_turn (n : Nat) :
    identify twoDigests (turn n).val = some ((turn n).val, turnId n) := by
  unfold turn turnId
  split
  · exact identify_emptyCancel
  · exact identify_emptyFill

theorem turnId_succ (n : Nat) : turnId (n + 1) ≠ turnId n := by
  have hne : emptyCancelId ≠ emptyFillId := by decide +kernel
  unfold turnId
  split <;> split
  · omega
  · exact hne
  · exact hne.symm
  · omega

/-- Where the feed is after `n` turns. -/
structure AfterTurns (n : Nat) (s : LoggedFeed) : Prop where
  logged : Logged twoDigests 1 s
  nextSeq : s.feed.nextSeq = n + 1
  last : ∀ r ∈ s.feed.events, ∃ k, n = k + 1 ∧ r.eventId = turnId k
  digest : s.feed.snapshotDigest = none

theorem appendLines_done {s : LoggedFeed} (maxEvents : Nat) (lines : List Line) :
    (LoggedFeed.appendLines maxEvents {} lines s).2 = true ∧
      (LoggedFeed.appendLines maxEvents {} lines s).1.feed.image = s.feed.image := by
  unfold LoggedFeed.appendLines
  split
  · exact ⟨rfl, rfl⟩
  · rw [if_neg (by decide)]
    split
    · exact ⟨rfl, rfl⟩
    · exact ⟨rfl, rfl⟩
    · rw [if_neg (by decide)]
      dsimp only
      split <;> exact ⟨rfl, rfl⟩

theorem append_done {E : Crypto} {maxEvents : Nat} {s : LoggedFeed} {raw : FederationEvent}
    {receivedAt : Lib.Js.Num}
    {snapshot : Option (List FederationEvent)} {r : FederationFeed × FederationFeed.StagedAppend}
    (h : s.feed.stageAppend E maxEvents raw receivedAt snapshot = some r) :
    (s.append E maxEvents raw receivedAt snapshot {}).1.feed.image = r.1.image := by
  obtain ⟨hdone, himage⟩ := appendLines_done (s := { s with feed := r.1 }) maxEvents r.2.lines
  unfold LoggedFeed.append
  rw [h]
  dsimp only
  split
  · rfl
  · split
    · rename_i s' heq
      rw [heq] at himage
      exact himage
    · rename_i s' heq
      rw [heq] at hdone
      cases hdone

theorem afterTurns_succ {n : Nat} {s : LoggedFeed} (h : AfterTurns n s) :
    AfterTurns (n + 1) (step twoDigests 1 s (.append (turn n) (.int 0) none {})) := by
  have hid := identify_eq_some (identify_turn n)
  have hnew : turnId n ∉ s.feed.events.map (·.eventId) := by
    intro hmem
    obtain ⟨r, hr, heq⟩ := List.mem_map.mp hmem
    obtain ⟨k, rfl, hk⟩ := h.last r hr
    exact turnId_succ k (heq.symm.trans hk)
  have hfind : s.feed.events.find? (fun entry => entry.eventId = turnId n) = none := by
    rw [List.find?_eq_none]
    intro r hr
    simpa using fun heq => hnew (List.mem_map.mpr ⟨r, hr, heq⟩)
  have hlogged := logged_append (le_refl 1) h.logged (turn n) (.int 0) none {}
  have hstage : s.feed.stageAppend twoDigests 1 (turn n).val (.int 0) none =
      some (s.feed.stageRecord 1 ⟨⟨s.feed.nextSeq, turnId n, (turn n).val⟩,
        ⟨0, by decide⟩⟩ none none) := by
    have hzero : (Num.int 0).toSafe? = some ⟨0, by decide⟩ := rfl
    simp only [FederationFeed.stageAppend, identify_turn, Option.bind_eq_bind,
      Option.bind_some, hfind,
      FederationFeed.nextSnapshotDigest, hzero, Option.pure_def]
  have himage := (append_done hstage).trans (FederationFeed.image_stageRecord_none _ rfl none)
  refine ⟨hlogged, ?_, fun r hr => ?_, congrArg Image.snapshotDigest himage⟩
  · show (s.append twoDigests 1 (turn n).val (.int 0) none {}).1.feed.image.nextSeq = n + 1 + 1
    rw [himage]
    show max s.feed.nextSeq (s.feed.nextSeq + 1) = n + 1 + 1
    rw [h.nextSeq]
    omega
  · have hevents : (s.append twoDigests 1 (turn n).val (.int 0) none {}).1.feed.events =
        newest 1 (s.feed.events ++ [⟨⟨s.feed.nextSeq, turnId n, (turn n).val⟩, ⟨0, by decide⟩⟩]) :=
      congrArg Image.events himage
    have hr' : r ∈ (s.append twoDigests 1 (turn n).val (.int 0) none {}).1.feed.events := hr
    rw [hevents, newest, List.length_append, List.length_singleton, Nat.add_sub_cancel,
      List.drop_left,
      List.mem_singleton] at hr'
    exact ⟨n, rfl, hr' ▸ rfl⟩

theorem afterTurns (n : Nat) :
    AfterTurns n (run (step twoDigests 1) (.start someFeedId) (turns n)) := by
  induction n with
  | zero => exact ⟨logged_start _, rfl, fun r hr => absurd hr List.not_mem_nil, rfl⟩
  | succ n ih =>
    rw [turns, List.range_succ, List.map_append, List.map_singleton, run_append]
    exact afterTurns_succ ih

theorem load_unsafe {E : Crypto} {maxEvents : Nat} (fresh : FeedId) (feedId : FeedId)
    (d : Option EventId)
    (lines : List Line) :
    load E maxEvents fresh {} (some (logBytes feedId (2 ^ 53) d lines)) =
      some { feed := { feedId := fresh }, file := none } := by
  have htext : decode (logBytes feedId (2 ^ 53) d lines) =
    logText ⟨feedId, 2 ^ 53, [], d⟩ lines [] := by
    rw [logBytes, decode_encode, logText, List.append_nil]
  have hsplit := @splitOn_logText ⟨feedId, 2 ^ 53, [], d⟩ lines [] List.not_mem_nil
  have hne : (logText ⟨feedId, 2 ^ 53, [], d⟩ lines []).isEmpty = false := by
    rw [List.isEmpty_eq_false_iff_exists_mem]
    exact ⟨_, newline_mem_logText _ lines []⟩
  have hnext : parseNextSeq (some (.num (.ofNat (2 ^ 53)))) = none := by decide +kernel
  have hparse : parseLog E maxEvents fresh (logText ⟨feedId, 2 ^ 53, [], d⟩ lines []) = none := by
    rw [parseLog, hne, if_neg (by simp),
      if_neg (by simpa using newline_mem_logText _ lines []), hsplit]
    dsimp only
    rw [List.dropLast_concat]
    simp only [List.head?_cons, Option.getD_some, parseLine_header (le_refl (2 ^ 53)),
      Option.bind_eq_bind, Option.bind_some,
      Record.get, List.lookup_cons, String.reduceBEq, BEq.rfl, parseFeedId, matching_val, hnext,
        Option.bind_none]
    split <;> rfl
  rw [load, htext, hparse]
  rfl

/-- After 2⁵³ - 1 events and a compaction the feed's own log is not loaded any more. -/
theorem unsafe_log_lost :
    ¬∀ (E : Crypto) (maxEvents : Nat) (fresh other : FeedId) (ops : List Op) (bytes : Bytes),
      1 ≤ maxEvents →
      (run (step E maxEvents) (.start fresh) ops).file = some bytes →
      ∃ g, load E maxEvents other {} (some bytes) = some { feed := g, file := some bytes } ∧
        Rebuilds (run (step E maxEvents) (.start fresh) ops).feed.image g := by
  intro h
  obtain ⟨n, hn⟩ : ∃ n, n + 1 = 2 ^ 53 := ⟨2 ^ 53 - 1, by decide⟩
  have hstate := afterTurns n
  have hrun := run_snoc (step twoDigests 1) (.start someFeedId) (turns n) (.compact .done)
  generalize run (step twoDigests 1) (.start someFeedId) (turns n) = s at hstate hrun
  obtain ⟨g, hload, -⟩ :=
    h twoDigests 1 someFeedId someFeedId (turns n ++ [.compact .done]) _ (le_refl 1)
    (congrArg LoggedFeed.file hrun)
  rw [hstate.nextSeq, hn, load_unsafe] at hload
  cases hload

/-- A log rebuilds the feed that wrote it. When a crash cuts the lines of the next append, it
rebuilds the feed with those of them that are complete. -/
theorem log_rebuilds_feed {E : Crypto} {maxEvents : Nat} (hmax : 1 ≤ maxEvents)
    (fresh other : FeedId) {ops : List Op}
    (hsafe : Along (step E maxEvents) (fun s _ => SafeSeq s) (.start fresh) ops) {bytes : Bytes}
    (hfile : (run (step E maxEvents) (.start fresh) ops).file = some bytes) :
    let s := run (step E maxEvents) (.start fresh) ops
    (SafeSeq s → ∀ io, ∃ g, load E maxEvents other io (some bytes) =
      some { feed := g, file := some bytes } ∧
      Rebuilds s.feed.image g ∧ ∀ id, id ∈ g.eventIds ↔ id ∈ s.feed.eventIds) ∧
    ∀ (op : Op) (cut : Bytes),
      (run (Image.apply maxEvents) s.feed.image (op.lines E maxEvents s)).nextSeq ≤ maxSafeInteger →
      cut <+: lineBytes (op.lines E maxEvents s) →
      ∃ k tail g file, k ≤ (op.lines E maxEvents s).length ∧
        cut = lineBytes ((op.lines E maxEvents s).take k) ++ tail ∧ 10 ∉ tail ∧
        load E maxEvents other {} (some (bytes ++ cut)) = some { feed := g, file := some file } ∧
        Rebuilds (run (Image.apply maxEvents) s.feed.image
          ((op.lines E maxEvents s).take k)) g := by
  intro s
  have hs : Logged E maxEvents s := logged_run hmax fresh hsafe
  have hdescribes := hs.file bytes hfile
  constructor
  · intro hseq io
    obtain ⟨g, hload, hloaded, -, -⟩ := hdescribes.load hmax hseq other io
    refine ⟨g, hload, rebuilds_of_loaded hloaded, fun id => ?_⟩
    rw [hloaded.eventIds id, hs.good.indexed id]
    rfl
  · intro op cut hseq hcut
    obtain ⟨k, tail, g, file, hk, hcomplete, htail, hload, hloaded⟩ :=
      hdescribes.load_cut hmax (fits_lines hmax hs op) hseq hcut other
    exact ⟨k, tail, g, file, hk, hcomplete, htail, hload, rebuilds_of_loaded hloaded⟩

/-- A log of one event, and the same log with the line of the next one but for its end. -/
theorem log_rebuilds_feed_turn :
    let s := run (step twoDigests 4) (.start someFeedId) (turns 1)
    let lines := (Op.append (turn 1) (.int 0) none {}).lines twoDigests 4 s
    ∃ bytes g g' file, s.file = some bytes ∧ lines.length = 1 ∧
      load twoDigests 4 someFeedId {} (some bytes) = some { feed := g, file := some bytes } ∧
      Rebuilds s.feed.image g ∧
      load twoDigests 4 someFeedId {} (some (bytes ++ (lineBytes lines).dropLast)) =
        some { feed := g', file := some file } ∧ Rebuilds s.feed.image g' := by
  intro s lines
  have hsafe : Along (step twoDigests 4) (fun s _ => SafeSeq s) (.start someFeedId) (turns 1) :=
    ⟨by unfold SafeSeq; decide, trivial⟩
  have hlines : lines.length = 1 := by decide +kernel
  cases hfile : s.file with
  | none => exact absurd hfile (by decide +kernel)
  | some bytes =>
    have hrebuilds := log_rebuilds_feed (by decide) someFeedId someFeedId hsafe hfile
    obtain ⟨g, hload, hwhole, -⟩ := hrebuilds.1 (by unfold SafeSeq; decide +kernel) {}
    obtain ⟨k, tail, g', file, hk, hcomplete, -, hload', hcut⟩ :=
      hrebuilds.2 (.append (turn 1) (.int 0) none {})
      (lineBytes lines).dropLast (by decide +kernel) (List.dropLast_prefix _)
    have hzero : k = 0 := by
      have hlong : 0 < (lineBytes lines).length := by decide +kernel
      by_contra hne
      have htake : (Op.lines twoDigests 4 s (.append (turn 1) (.int 0) none {})).take k = lines :=
        List.take_of_length_le (by change lines.length ≤ k; omega)
      have hlength := congrArg List.length hcomplete
      rw [htake, List.length_dropLast, List.length_append] at hlength
      omega
    rw [hzero] at hcut
    exact ⟨bytes, g, g', file, rfl, hlines, hload, hwhole, hload', hcut⟩

end QuantaSwap.Feed
