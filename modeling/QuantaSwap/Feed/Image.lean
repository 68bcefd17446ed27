import QuantaSwap.Lib.Run
import QuantaSwap.Feed.Ring

/-!
# What an append does to the ring

`Image` is the part of a feed that its log rebuilds. An append changes it line by
line, and a rollback puts it back.
-/

set_option autoImplicit false

namespace QuantaSwap.Feed

open Lib.Js Lib.Run QuantaSwap.Book

/-- The part of a feed that the log keeps. -/
structure Image where
  feedId : FeedId
  nextSeq : Nat
  events : List PersistedFederationRecord
  snapshotDigest : Option EventId

def FederationFeed.image (f : FederationFeed) : Image :=
  ⟨f.feedId, f.nextSeq, f.events, f.snapshotDigest⟩

/-- The last `maxEvents` of a list. -/
def newest {α : Type} (maxEvents : Nat) (events : List α) : List α :=
  events.drop (events.length - maxEvents)

/-- A line of the log, applied. -/
def Image.apply (maxEvents : Nat) (i : Image) : Line → Image
  | .event r =>
    { i with nextSeq := max i.nextSeq (r.seq + 1), events := newest maxEvents (i.events ++ [r]) }
  | .digest snapshotDigest => { i with snapshotDigest }

/-- A ring of consecutive sequence numbers, up to the next one. -/
structure Ring (E : Crypto) (maxEvents : Nat) (i : Image) : Prop where
  valid : ∀ r ∈ i.events, r.Sealed E
  distinct : (i.events.map (·.eventId)).Nodup
  contiguous : i.events.map (·.seq) = List.range' (i.nextSeq - i.events.length) i.events.length
  below : i.events.length < i.nextSeq
  bounded : i.events.length ≤ maxEvents

/-- A line that a log may go on with: a digest, or a record of an event that the ring does not
have, at a later sequence. -/
def Fits (E : Crypto) (i : Image) : Line → Prop
  | .event r => r.Sealed E ∧ ∀ x ∈ i.events, x.seq < r.seq ∧ x.eventId ≠ r.eventId
  | .digest _ => True

/-- The id index holds the ids of the ring. -/
def Indexed (f : FederationFeed) : Prop := ∀ id, id ∈ f.eventIds ↔ id ∈ f.events.map (·.eventId)

section Newest

variable {α : Type} {maxEvents : Nat} {l : List α}

theorem newest_of_le (h : l.length ≤ maxEvents) : newest maxEvents l = l := by
  rw [newest, Nat.sub_eq_zero_of_le h, List.drop_zero]

theorem length_newest (maxEvents : Nat) (l : List α) :
    (newest maxEvents l).length = min l.length maxEvents := by
  rw [newest, List.length_drop]
  omega

theorem newest_sublist (l : List α) : (newest maxEvents l).Sublist l := List.drop_sublist _ _

end Newest

namespace Ring

variable {E : Crypto} {maxEvents : Nat} {i : Image} {r : PersistedFederationRecord}

theorem seq_mem (h : Ring E maxEvents i) (hr : r ∈ i.events) :
    i.nextSeq - i.events.length ≤ r.seq ∧ r.seq < i.nextSeq := by
  have hmem : r.seq ∈ i.events.map (·.seq) := List.mem_map_of_mem hr
  rw [h.contiguous, List.mem_range'_1] at hmem
  have := h.below
  omega

theorem head?_seq (h : Ring E maxEvents i) :
    ((i.events.head?.map (·.seq)).getD i.nextSeq) = i.nextSeq - i.events.length := by
  have hseqs := h.contiguous
  cases hevents : i.events with
  | nil => rfl
  | cons e es =>
    rw [hevents, List.map_cons, List.length_cons, List.range'_succ, List.cons.injEq] at hseqs
    simpa using hseqs.1

theorem increasing (h : Ring E maxEvents i) : i.events.Pairwise fun a b => a.seq < b.seq := by
  have hrange : (List.range' (i.nextSeq - i.events.length) i.events.length).Pairwise (· < ·) :=
    List.pairwise_lt_range'
  rw [← h.contiguous, List.pairwise_map] at hrange
  exact hrange

theorem push (h : Ring E maxEvents i) (hr : r.Sealed E) (hseq : r.seq = i.nextSeq)
    (hnew : r.eventId ∉ i.events.map (·.eventId)) :
    Ring E maxEvents (i.apply maxEvents (.event r)) := by
  have hlen := length_newest maxEvents (i.events ++ [r])
  rw [List.length_append, List.length_singleton] at hlen
  have hbelow := h.below
  have hseqs : (i.events ++ [r]).map (·.seq) = List.range' (i.nextSeq - i.events.length)
    (i.events.length + 1) := by
    rw [List.map_append, h.contiguous, List.map_singleton, hseq, List.range'_concat]
    congr 2
    omega
  constructor
  · intro x hx
    have := (newest_sublist _).subset hx
    rw [List.mem_append, List.mem_singleton] at this
    rcases this with hx | rfl
    · exact h.valid x hx
    · exact hr
  · refine List.Nodup.sublist ((newest_sublist _).map _) ?_
    rw [List.map_append, List.map_singleton, List.nodup_append]
    refine ⟨h.distinct, by simp, ?_⟩
    intro a ha b hb heq
    rw [List.mem_singleton] at hb
    exact hnew (hb ▸ heq ▸ ha)
  · show (newest maxEvents (i.events ++ [r])).map (·.seq) = _
    rw [newest, List.map_drop, hseqs, List.drop_range', Nat.mul_one]
    simp only [Image.apply, hlen, hseq, List.length_append, List.length_singleton]
    congr 1 <;> omega
  · simp only [Image.apply, hlen, hseq]
    omega
  · simp only [Image.apply, hlen]
    omega

theorem digest (h : Ring E maxEvents i) (d : Option EventId) :
    Ring E maxEvents { i with snapshotDigest := d } :=
  ⟨h.valid, h.distinct, h.contiguous, h.below, h.bounded⟩

end Ring

/-! ## One append -/

/-- A feed whose ring and index are in order. -/
structure Good (E : Crypto) (maxEvents : Nat) (f : FederationFeed) : Prop where
  ring : Ring E maxEvents f.image
  indexed : Indexed f

/-- Nothing of the log but the ring differs. -/
structure SameLog (f g : FederationFeed) : Prop where
  logLines : g.logLines = f.logLines
  logIdentity : g.logIdentity = f.logIdentity

namespace FederationFeed

variable {E : Crypto} {maxEvents : Nat} {f f' : FederationFeed} {raw : FederationEvent}
  {receivedAt : Lib.Js.Num}
  {snapshot : Option (List FederationEvent)} {staged : StagedAppend}

/-- The id index after an append of a new record. -/
def pushedIds (maxEvents : Nat) (f : FederationFeed) (record : PersistedFederationRecord) :
    List EventId :=
  ((f.events ++ [record]).take ((f.events ++ [record]).length - maxEvents)).foldl
    (fun ids entry => deleteId ids entry.eventId) (addId f.eventIds record.eventId)

/-- What an append does: it finds its event in the ring, with the digest that the feed has or
with another one, or it pushes a new record. -/
inductive StageEffect (E : Crypto) (maxEvents : Nat) (raw : FederationEvent) (f f' : FederationFeed)
    (staged : StagedAppend) : Prop
  | known (entry : PersistedFederationRecord) (hentry : entry ∈ f.events)
      (hid : federationEventId E raw = some entry.eventId) (hlines : staged.lines = [])
        (hundo : staged.undo = none)
      (himage : f'.image = f.image) (hids : f'.eventIds = f.eventIds)
      (hcache : f'.cachedResetPage = f.cachedResetPage ∨ f'.cachedResetPage = none)
  | replayed (entry record : PersistedFederationRecord) (hentry : entry ∈ f.events)
      (hid : federationEventId E raw = some entry.eventId) (d : Option EventId)
        (hd : d ≠ f.snapshotDigest)
      (hlines : staged.lines = [.digest d])
      (hundo : staged.undo = some ⟨f.nextSeq, f.snapshotDigest, record, false, []⟩)
      (himage : f'.image = { f.image with snapshotDigest := d }) (hids : f'.eventIds = f.eventIds)
      (hcache : f'.cachedResetPage = none)
  | pushed (record : PersistedFederationRecord) (hevent : record.event = raw)
      (hchecked : checkEvent raw = some raw) (hid : federationEventId E raw = some record.eventId)
      (hseq : record.seq = f.nextSeq) (hnew : record.eventId ∉ f.events.map (·.eventId))
        (d : Option EventId)
      (hlines : staged.lines = .event record :: if d ≠ f.snapshotDigest then [.digest d] else [])
      (hundo : staged.undo = some ⟨f.nextSeq, f.snapshotDigest, record, true,
        (f.events ++ [record]).take ((f.events ++ [record]).length - maxEvents)⟩)
      (himage : f'.image = { f.image.apply maxEvents (.event record) with snapshotDigest := d })
      (hids : f'.eventIds = f.pushedIds maxEvents record)
      (hcache : f'.cachedResetPage = none ∨ f'.cachedResetPage = f.cachedResetPage)

theorem keptResetPage_eq {g : FederationFeed} (replayed digestChanged : Bool) :
    g.keptResetPage replayed digestChanged = none ∨
    g.keptResetPage replayed digestChanged = g.cachedResetPage := by
  unfold keptResetPage
  cases g.cachedResetPage with
  | none => exact Or.inl rfl
  | some cached =>
    rw [Option.filter_some]
    split
    · exact Or.inr rfl
    · exact Or.inl rfl

theorem keptResetPage_replayed {g : FederationFeed} (digestChanged : Bool) :
    g.keptResetPage true digestChanged = none := by
  unfold keptResetPage
  cases g.cachedResetPage <;> rfl

theorem image_stageRecord_none (record : PersistedFederationRecord) (hseq : record.seq = f.nextSeq)
    (d : Option EventId) : (f.stageRecord maxEvents record none d).1.image =
      { f.image.apply maxEvents (.event record) with snapshotDigest := d } := by
  simp [stageRecord, image, trim, Image.apply, newest, hseq]

theorem stageRecord_none (record : PersistedFederationRecord) (hevent : record.event = raw)
    (hchecked : checkEvent raw = some raw) (hid : federationEventId E raw = some record.eventId)
    (hseq : record.seq = f.nextSeq) (hnew : record.eventId ∉ f.events.map (·.eventId))
    (d : Option EventId) :
    StageEffect E maxEvents raw f (f.stageRecord maxEvents record none d).1
      (f.stageRecord maxEvents record none d).2 := by
  apply StageEffect.pushed record hevent hchecked hid hseq hnew d
  · by_cases hdig : d = f.snapshotDigest <;> simp [stageRecord, hdig]
  · rfl
  · exact image_stageRecord_none record hseq d
  · rfl
  · exact keptResetPage_eq _ _

theorem stageRecord_some (hbound : f.events.length ≤ maxEvents) (record : PersistedFederationRecord)
    {entry : PersistedFederationRecord} (hentry : entry ∈ f.events)
    (hid : federationEventId E raw = some entry.eventId) {d : Option EventId}
    (hd : d ≠ f.snapshotDigest) :
    StageEffect E maxEvents raw f (f.stageRecord maxEvents record (some entry) d).1
      (f.stageRecord maxEvents record (some entry) d).2 := by
  have hzero : f.events.length - maxEvents = 0 := by omega
  apply StageEffect.replayed entry record hentry hid d hd
  · simp [stageRecord, hd]
  · simp [stageRecord, hzero]
  · simp [stageRecord, image, trim, hzero]
  · simp [stageRecord, trim, hzero]
  · exact keptResetPage_replayed _

theorem sameLog_stageRecord (record : PersistedFederationRecord)
    (existing : Option PersistedFederationRecord)
    (d : Option EventId) : SameLog f (f.stageRecord maxEvents record existing d).1 := by
  cases existing <;> exact ⟨rfl, rfl⟩

theorem stageAppend_cases (hbound : f.events.length ≤ maxEvents)
    (h : f.stageAppend E maxEvents raw receivedAt snapshot = some (f', staged)) :
    StageEffect E maxEvents raw f f' staged ∧ SameLog f f' := by
  simp only [stageAppend, Option.bind_eq_bind, Option.bind_eq_some_iff] at h
  obtain ⟨⟨event, eventId⟩, hfound, d, hd, h⟩ := h
  obtain ⟨rfl, hchecked, hid⟩ := identify_eq_some hfound
  dsimp only at h hchecked hid
  split at h
  · rename_i entry hexisting hsame
    simp only [Option.pure_def, Option.some.injEq, Prod.mk.injEq] at h
    obtain ⟨rfl, rfl⟩ := h
    have hmem : entry ∈ f.events := List.mem_of_find?_eq_some hexisting
    have hentry : entry.eventId = eventId := by simpa using List.find?_some hexisting
    constructor
    · apply StageEffect.known entry hmem (hentry ▸ hid) rfl rfl
      · split <;> rfl
      · split <;> rfl
      · split
        · exact Or.inr rfl
        · exact Or.inl rfl
    · split <;> exact ⟨rfl, rfl⟩
  · rename_i hexisting
    simp only [Option.bind_eq_some_iff, Option.pure_def, Option.some.injEq] at h
    obtain ⟨received, -, h⟩ := h
    -- A known event is staged again when the snapshot digest changed; a new one is pushed.
    cases hfind : f.events.find? fun entry => entry.eventId = eventId with
    | some entry =>
      rw [hfind] at h
      have hmem : entry ∈ f.events := List.mem_of_find?_eq_some hfind
      have hentry : entry.eventId = eventId := by simpa using List.find?_some hfind
      have hchanged : d ≠ f.snapshotDigest := by
        intro heq
        exact hexisting entry hfind (by simpa using heq)
      have heffect :=
        stageRecord_some hbound ⟨⟨f.nextSeq, eventId, event⟩, received⟩ hmem (hentry ▸ hid) hchanged
      have hlog : SameLog f (f.stageRecord maxEvents ⟨⟨f.nextSeq, eventId, event⟩,
        received⟩ (some entry) d).1 :=
        sameLog_stageRecord _ _ _
      rw [h] at heffect hlog
      exact ⟨heffect, hlog⟩
    | none =>
      rw [hfind] at h
      have hnew : eventId ∉ f.events.map (·.eventId) := by
        intro hmem
        obtain ⟨entry, hentry, heq⟩ := List.mem_map.mp hmem
        exact List.find?_eq_none.mp hfind entry hentry (by simpa using heq)
      have heffect : StageEffect E maxEvents event f
          (f.stageRecord maxEvents ⟨⟨f.nextSeq, eventId, event⟩, received⟩ none d).1
          (f.stageRecord maxEvents ⟨⟨f.nextSeq, eventId, event⟩, received⟩ none d).2 :=
        stageRecord_none ⟨⟨f.nextSeq, eventId, event⟩, received⟩ rfl hchecked hid rfl hnew d
      have hlog : SameLog f (f.stageRecord maxEvents ⟨⟨f.nextSeq, eventId, event⟩,
        received⟩ none d).1 :=
        sameLog_stageRecord _ _ _
      rw [h] at heffect hlog
      exact ⟨heffect, hlog⟩

theorem mem_addId {ids : List EventId} {a b : EventId} : b ∈ addId ids a ↔ b ∈ ids ∨ b = a := by
  unfold addId
  split
  · constructor
    · exact Or.inl
    · rintro (h | rfl)
      · exact h
      · assumption
  · simp

theorem mem_deleteId {ids : List EventId} {a b : EventId} :
    b ∈ deleteId ids a ↔ b ∈ ids ∧ b ≠ a := by
  simp [deleteId]

theorem mem_foldl_deleteId (gone : List PersistedFederationRecord) (ids : List EventId)
    (b : EventId) :
    b ∈ gone.foldl (fun ids entry => deleteId ids entry.eventId) ids ↔ b ∈ ids ∧
    b ∉ gone.map (·.eventId) := by
  induction gone generalizing ids with
  | nil => simp
  | cons e gone ih =>
    rw [List.foldl_cons, ih, mem_deleteId, List.map_cons, List.mem_cons, not_or, and_assoc]

theorem mem_drop_iff {events : List PersistedFederationRecord}
    (h : (events.map (·.eventId)).Nodup) (n : Nat)
    (b : EventId) :
    b ∈ (events.drop n).map (·.eventId) ↔ b ∈ events.map (·.eventId) ∧
    b ∉ (events.take n).map (·.eventId) := by
  rw [← List.take_append_drop n events, List.map_append] at h
  have hdisjoint := (List.nodup_append.mp h).2.2
  conv_rhs => rw [← List.take_append_drop n events, List.map_append, List.mem_append]
  constructor
  · intro hb
    refine ⟨Or.inr hb, fun hgone => hdisjoint b ?_ b hb rfl⟩
    simpa using hgone
  · rintro ⟨hb | hb, hgone⟩
    · exact absurd (by simpa using hb) hgone
    · exact hb

theorem nodup_push {record : PersistedFederationRecord} (h : (f.events.map (·.eventId)).Nodup)
    (hnew : record.eventId ∉ f.events.map (·.eventId)) :
    ((f.events ++ [record]).map (·.eventId)).Nodup := by
  rw [List.map_append, List.map_singleton, List.nodup_append]
  refine ⟨h, by simp, ?_⟩
  intro a ha b hb heq
  rw [List.mem_singleton] at hb
  exact hnew (hb ▸ heq ▸ ha)

theorem mem_pushedIds (hf : Good E maxEvents f) {record : PersistedFederationRecord}
    (hnew : record.eventId ∉ f.events.map (·.eventId)) (b : EventId) :
    b ∈ f.pushedIds maxEvents record ↔
    b ∈ (newest maxEvents (f.events ++ [record])).map (·.eventId) := by
  rw [pushedIds, mem_foldl_deleteId, mem_addId, newest,
    mem_drop_iff (nodup_push hf.ring.distinct hnew), hf.indexed b]
  simp

theorem sealed_pushed (hf : Good E maxEvents f) (hraw : Distinct (.obj raw.payload))
    {record : PersistedFederationRecord} (hevent : record.event = raw)
    (hchecked : checkEvent raw = some raw)
    (hid : federationEventId E raw = some record.eventId) (hseq : record.seq = f.nextSeq) :
    record.Sealed E := by
  subst hevent
  refine ⟨hchecked, hid, hraw, ?_⟩
  rw [hseq]
  exact Nat.lt_of_le_of_lt (Nat.zero_le _) hf.ring.below

section Stage

variable (hf : Good E maxEvents f) (hraw : Distinct (.obj raw.payload))
  (h : f.stageAppend E maxEvents raw receivedAt snapshot = some (f', staged))
include hf hraw h

theorem good_stageAppend : Good E maxEvents f' := by
  cases (stageAppend_cases hf.ring.bounded h).1 with
  | known entry hentry hid hlines hundo himage hids hcache =>
    refine ⟨himage ▸ hf.ring, fun id => ?_⟩
    rw [hids, show f'.events = f.events from congrArg Image.events himage]
    exact hf.indexed id
  | replayed entry record hentry hid d hd hlines hundo himage hids hcache =>
    refine ⟨himage ▸ hf.ring.digest d, fun id => ?_⟩
    rw [hids, show f'.events = f.events from congrArg Image.events himage]
    exact hf.indexed id
  | pushed record hevent hchecked hid hseq hnew d hlines hundo himage hids hcache =>
    have hsealed := sealed_pushed hf hraw hevent hchecked hid hseq
    refine ⟨himage ▸ (hf.ring.push hsealed hseq hnew).digest d, fun id => ?_⟩
    rw [hids, mem_pushedIds hf hnew, show f'.events = newest maxEvents (f.events ++ [record]) from
      congrArg Image.events himage]

theorem along_stageAppend : Along (Image.apply maxEvents) (Fits E) f.image staged.lines := by
  cases (stageAppend_cases hf.ring.bounded h).1 with
  | known entry hentry hid hlines hundo himage hids hcache => rw [hlines]; trivial
  | replayed entry record hentry hid d hd hlines hundo himage hids hcache =>
    rw [hlines]
    exact ⟨trivial, trivial⟩
  | pushed record hevent hchecked hid hseq hnew d hlines hundo himage hids hcache =>
    rw [hlines]
    refine ⟨⟨sealed_pushed hf hraw hevent hchecked hid hseq, fun x hx => ⟨?_, fun heq => ?_⟩⟩, ?_⟩
    · rw [hseq]
      exact (hf.ring.seq_mem hx).2
    · exact hnew (heq ▸ List.mem_map_of_mem hx)
    · split
      · exact ⟨trivial, trivial⟩
      · trivial

omit hraw in
theorem run_stageAppend : run (Image.apply maxEvents) f.image staged.lines = f'.image := by
  cases (stageAppend_cases hf.ring.bounded h).1 with
  | known entry hentry hid hlines hundo himage hids hcache => rw [hlines, run_nil, himage]
  | replayed entry record hentry hid d hd hlines hundo himage hids hcache =>
    rw [hlines, run_cons, run_nil, himage]
    rfl
  | pushed record hevent hchecked hid hseq hnew d hlines hundo himage hids hcache =>
    rw [hlines, run_cons, himage]
    split
    · rfl
    · rename_i hsame
      rw [ne_eq, not_not] at hsame
      rw [run_nil, hsame]
      rfl

end Stage

/-! ## Rollbacks -/

/-- What a rollback leaves: the image and the log fields it should. -/
structure RolledBack (f g r : FederationFeed) : Prop where
  image : r.image = f.image
  indexed : Indexed r
  log : SameLog g r
  cache : r.cachedResetPage = g.cachedResetPage ∨ r.cachedResetPage = none

theorem unshift_foldr (record : PersistedFederationRecord) {gone : List PersistedFederationRecord}
    (hgone : ∀ e ∈ gone, e.seq ≠ record.seq) (g : FederationFeed) (hg : Indexed g) :
    (gone.foldr (fun e g => unshift record g e) g).image =
      { g.image with events := gone ++ g.events } ∧
      Indexed (gone.foldr (fun e g => unshift record g e) g) ∧
      SameLog g (gone.foldr (fun e g => unshift record g e) g) := by
  induction gone with
  | nil => exact ⟨rfl, hg, rfl, rfl⟩
  | cons e gone ih =>
    obtain ⟨himage, hindexed, hlog⟩ := ih fun x hx => hgone x (List.mem_cons_of_mem _ hx)
    rw [List.foldr_cons]
    generalize gone.foldr (fun e g => unshift record g e) g = rest at himage hindexed hlog
    have hevents : rest.events = gone ++ g.events := congrArg Image.events himage
    rw [unshift, if_neg (hgone e List.mem_cons_self)]
    refine ⟨?_, fun id => ?_, hlog.logLines, hlog.logIdentity⟩
    · show ({ rest.image with events := e :: rest.events } : Image) = _
      rw [himage, hevents, List.cons_append]
    · show id ∈ addId rest.eventIds e.eventId ↔ id ∈ (e :: rest.events).map (·.eventId)
      rw [mem_addId, hindexed id, List.map_cons, List.mem_cons, or_comm]

theorem removeLast_concat (events : List PersistedFederationRecord)
    (record : PersistedFederationRecord) :
    removeLast record.seq (events ++ [record]) = events := by
  simp [removeLast]

section Rollback

variable (hmax : 1 ≤ maxEvents) (hf : Good E maxEvents f)
  (h : f.stageAppend E maxEvents raw receivedAt snapshot = some (f', staged))
  {g : FederationFeed} (himage : g.image = f'.image) (hg : Indexed g)
include hmax hf h himage hg

theorem rollback_stageAppend : RolledBack f g (rollback staged g) := by
  cases (stageAppend_cases hf.ring.bounded h).1 with
  | known entry hentry hid hlines hundo himage' hids hcache =>
    rw [rollback, hundo]
    exact ⟨himage.trans himage', hg, ⟨rfl, rfl⟩, Or.inl rfl⟩
  | replayed entry record hentry hid d hd hlines hundo himage' hids hcache =>
    rw [rollback, hundo]
    have heq := himage.trans himage'
    refine ⟨?_, hg, ⟨rfl, rfl⟩, Or.inr rfl⟩
    show (⟨g.feedId, f.nextSeq, g.events, f.snapshotDigest⟩ : Image) = f.image
    rw [show g.feedId = f.feedId from congrArg Image.feedId heq,
      show g.events = f.events from congrArg Image.events heq]
    rfl
  | pushed record hevent hchecked hid hseq hnew d hlines hundo himage' hids hcache =>
    have heq := himage.trans himage'
    have hbound : f.events.length ≤ maxEvents := hf.ring.bounded
    have hlen : (f.events ++ [record]).length - maxEvents ≤ f.events.length := by
      simp only [List.length_append, List.length_singleton]
      omega
    generalize hs : (f.events ++ [record]).length - maxEvents = surplus at hlen hundo
    have hevents : g.events = f.events.drop surplus ++ [record] := by
      rw [show g.events = newest maxEvents (f.events ++ [record]) from congrArg Image.events heq,
        newest, hs,
        List.drop_append_of_le_length hlen]
    have htake : (f.events ++ [record]).take surplus = f.events.take surplus :=
      List.take_append_of_le_length hlen
    have hpopped : Indexed { g with
        nextSeq := f.nextSeq, snapshotDigest := f.snapshotDigest, events := f.events.drop surplus
        eventIds := deleteId g.eventIds record.eventId } := by
      intro id
      show id ∈ deleteId g.eventIds record.eventId ↔ id ∈ (f.events.drop surplus).map (·.eventId)
      rw [mem_deleteId, hg id, hevents]
      have hsub : id ∈ (f.events.drop surplus).map (·.eventId) → id ≠ record.eventId := by
        rintro hmem rfl
        exact hnew (((List.drop_sublist _ _).map _).subset hmem)
      simp only [List.map_append, List.map_singleton, List.mem_append, List.mem_singleton]
      constructor
      · rintro ⟨hmem | heq, hne⟩
        · exact hmem
        · exact absurd heq hne
      · exact fun hmem => ⟨Or.inl hmem, hsub hmem⟩
    -- What the ring evicted comes back in front, in its old order.
    have hgone : ∀ e ∈ f.events.take surplus, e.seq ≠ record.seq := by
      intro e he
      have := (hf.ring.seq_mem (List.mem_of_mem_take he)).2
      rw [hseq]
      exact Nat.ne_of_lt this
    obtain ⟨hback, hindexed, hlog⟩ := unshift_foldr record hgone _ hpopped
    simp only [rollback, hundo, if_true, htake, List.foldl_reverse]
    rw [hevents, removeLast_concat]
    refine ⟨?_, hindexed, ⟨hlog.logLines, hlog.logIdentity⟩, Or.inr rfl⟩
    refine Eq.trans hback ?_
    show (⟨g.feedId, f.nextSeq, f.events.take surplus ++ f.events.drop surplus,
      f.snapshotDigest⟩ : Image) = f.image
    rw [List.take_append_drop, show g.feedId = f.feedId from congrArg Image.feedId heq]
    rfl

end Rollback

/-! ## Batches -/

theorem RolledBack.trans {f f₁ g g₁ r : FederationFeed} (h : RolledBack f g₁ r)
    (h₁ : RolledBack f₁ g g₁) :
    RolledBack f g r where
  image := h.image
  indexed := h.indexed
  log := ⟨h.log.logLines.trans h₁.log.logLines, h.log.logIdentity.trans h₁.log.logIdentity⟩
  cache := by
    rcases h.cache with hc | hc
    · rw [hc]
      exact h₁.cache
    · exact Or.inr hc

/-- What staging a list of events comes to, all of them or those before the one that throws. -/
structure BatchEffect (E : Crypto) (maxEvents : Nat) (f f' : FederationFeed)
    (staged : List StagedAppend) : Prop where
  good : Good E maxEvents f'
  lines : run (Image.apply maxEvents) f.image (staged.flatMap (·.lines)) = f'.image
  fits : Along (Image.apply maxEvents) (Fits E) f.image (staged.flatMap (·.lines))
  log : SameLog f f'
  undone : ∀ g :
    FederationFeed, g.image = f'.image → Indexed g → RolledBack f g (rollbackAll staged g)

theorem stageAll_effect (hmax : 1 ≤ maxEvents) {raws : List FederationEvent}
    (hraws : ∀ raw ∈ raws, Distinct (.obj raw.payload)) (hf : Good E maxEvents f) :
    BatchEffect E maxEvents f (stageAll E maxEvents receivedAt raws f).1
      (stageAll E maxEvents receivedAt raws f).2.1 := by
  have hnil : BatchEffect E maxEvents f f [] :=
    ⟨hf, rfl, trivial, ⟨rfl, rfl⟩, fun g himage hg => ⟨himage, hg, ⟨rfl, rfl⟩, Or.inl rfl⟩⟩
  induction raws generalizing f with
  | nil => exact hnil
  | cons raw raws ih =>
    rw [stageAll]
    cases hstage : f.stageAppend E maxEvents raw receivedAt none with
    | none => exact hnil
    | some r =>
      obtain ⟨f₁, staged⟩ := r
      have hraw := hraws raw List.mem_cons_self
      have hgood := good_stageAppend hf hraw hstage
      have hlog := (stageAppend_cases hf.ring.bounded hstage).2
      have hrest := ih (fun r hr => hraws r (List.mem_cons_of_mem _ hr)) hgood
        ⟨hgood, rfl, trivial, ⟨rfl, rfl⟩, fun g himage hg => ⟨himage, hg, ⟨rfl, rfl⟩, Or.inl rfl⟩⟩
      refine ⟨hrest.good, ?_, ?_, ?_, ?_⟩
      · rw [List.flatMap_cons, run_append, run_stageAppend hf hstage, hrest.lines]
      · rw [List.flatMap_cons, along_append, run_stageAppend hf hstage]
        exact ⟨along_stageAppend hf hraw hstage, hrest.fits⟩
      · exact ⟨hrest.log.logLines.trans hlog.logLines, hrest.log.logIdentity.trans hlog.logIdentity⟩
      · intro g himage hg
        have hback := hrest.undone g himage hg
        exact (rollback_stageAppend hmax hf hstage hback.image hback.indexed).trans hback

end FederationFeed

end QuantaSwap.Feed
