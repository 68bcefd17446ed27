import QuantaSwap.Feed.Follow

/-!
# Serving keeps what clients read in step with the feed

Each answer is a reset page or goes on from a cursor, whatever cache it comes from.
-/

set_option autoImplicit false

namespace QuantaSwap.Feed

open Lib.Js Lib.Run QuantaSwap.Book

/-! ## An answer at a client -/

theorem progressFrom_eq_some {requestedCursor : Option String} {p : FederationPage} {n : Nat}
    (h : progressFrom requestedCursor p = some n) :
    ∃ id m, requestedCursor.bind parseCursor = some (id, n) ∧ parseCursor p.cursor = some (id, m) ∧
      p.advances n m = true := by
  rw [progressFrom, Option.bind_eq_bind, Option.bind_eq_some_iff] at h
  obtain ⟨⟨requested, n₁⟩, hrequested, h⟩ := h
  dsimp only at h
  rw [Option.bind_eq_some_iff] at h
  obtain ⟨⟨returned, m⟩, hreturned, h⟩ := h
  dsimp only at h
  split at h
  · rename_i hadvances
    rw [Option.some.injEq] at h
    obtain ⟨rfl, hadvances⟩ := hadvances
    exact ⟨requested, m, h ▸ hrequested, hreturned, h ▸ hadvances⟩
  · cases h

section Receive

variable {E : Crypto} {lo : Nat} {base : List FederationRecord} {s : Served} {c : Client}
  {p : FederationPage}

theorem clientOk_waiting (hc : ClientOk E lo base s c) :
    ClientOk E lo base s { c with asked := none } :=
  ⟨nofun, hc.fresh, fun g hg => by
    obtain ⟨id, n, h⟩ := hc.segment g hg
    exact ⟨id, n, h.cursor, h.start, h.le, h.known, h.delivered, h.taken, h.joined⟩⟩

theorem clientOk_reset (hp : ∃ id after records, ResetPage E lo base s p id after records)
    (hc : ClientOk E lo base s c) : ClientOk E lo base s (c.receive p) := by
  obtain ⟨id, after, records, hp⟩ := hp
  unfold Client.receive
  rw [if_pos hp.reset]
  cases hparse : parseCursor p.cursor with
  | none => exact clientOk_waiting hc
  | some found =>
    obtain ⟨id', after'⟩ := found
    dsimp only
    have heq : cursorOf id after = cursorOf id' after' :=
      hp.cursor.symm.trans (parseCursor_eq_some hparse)
    have hafter : after' = after := (cursorOf_injective heq).2.symm
    subst hafter
    refine ⟨nofun, nofun, ?_⟩
    rintro g ⟨⟩
    have hcursor : (some p.cursor).bind parseCursor = some (id', after') :=
      by rw [Option.bind_some, hparse]
    refine ⟨id', after', hcursor, hp.start, le_refl _, hp.known, ?_, fun rs hrs => ?_,
      fun hnone => ?_⟩
    · rw [stretch, Nat.sub_self, List.take_zero]
    · rw [hp.snapshot, Option.some.injEq] at hrs
      subst hrs
      exact hp.taken
    · rw [hp.snapshot] at hnone
      cases hnone

theorem clientOk_incremental (hnumbered : (s.history base).map (·.seq) =
    List.range' lo (s.history base).length)
    {id : FeedId} {n latest m : Nat} (hp : Continuation lo (s.history base) id n latest p m)
    (hc : ClientOk E lo base s c) :
    ClientOk E lo base s (c.receive p) := by
  unfold Client.receive
  rw [hp.reset, if_neg Bool.false_ne_true]
  cases hfrom : progressFrom c.cursor p with
  | none => exact clientOk_waiting hc
  | some n' =>
    obtain ⟨requested, m', hrequested, hreturned, hadvances⟩ := progressFrom_eq_some hfrom
    have hm : m' = m :=
      (cursorOf_injective (hp.cursor.symm.trans (parseCursor_eq_some hreturned))).2.symm
    subst hm
    have hcursor : (some p.cursor).bind parseCursor = some (requested, m') :=
      by rw [Option.bind_some, hreturned]
    -- The page starts where the client is.
    have hn : n' = n := hp.advances_eq hnumbered hadvances
    subst hn
    refine ⟨nofun, nofun, ?_⟩
    rintro g ⟨⟩
    cases hsegment : c.segment with
    | none =>
      refine ⟨requested, m', hcursor, hp.start, hp.le, hp.known, ?_, nofun,
        fun _ => ⟨requested, ?_⟩⟩
      · rw [Option.getD_none, List.nil_append, hp.events]
      · rw [← hc.fresh hsegment]
        exact hrequested
    | some g =>
      obtain ⟨id₀, n₀, hok⟩ := hc.segment g hsegment
      have hpos : n₀ = n' := by
        have := hok.cursor
        rw [hrequested, Option.some.injEq, Prod.mk.injEq] at this
        exact this.2.symm
      subst hpos
      refine ⟨requested, m', hcursor, hok.start, hok.le.trans hp.le, hp.known, ?_, hok.taken,
        hok.joined⟩
      rw [Option.getD_some, hp.events, hok.delivered]
      exact stretch_append hok.start hok.le hp.le

theorem clientOk_receive (hnumbered : (s.history base).map (·.seq) =
    List.range' lo (s.history base).length)
    (hp : AnswerOk E lo base s p) (hc : ClientOk E lo base s c) :
    ClientOk E lo base s (c.receive p) := by
  rcases hp with hp | ⟨id, n, latest, m, hp⟩
  · exact clientOk_reset hp hc
  · exact clientOk_incremental hnumbered hp hc

end Receive

/-! ## Where an answer comes from -/

namespace FederationResponseCache

theorem evict_suffix (bytes : Nat) (entries : List (List Char × CachedResponse)) :
    evict bytes entries <:+ entries := by
  induction entries with
  | nil => exact List.suffix_rfl
  | cons e entries ih =>
    rw [evict]
    split
    · exact ih.trans (List.suffix_cons e entries)
    · exact List.suffix_rfl

theorem mem_prune {now : Nat} {c : FederationResponseCache} {e : List Char × CachedResponse}
    (h : e ∈ (c.prune now).entries) : e ∈ c.entries := by
  have h' := List.mem_of_mem_filter h
  split at h'
  · cases h'
  · exact h'

theorem mem_insert {key : List Char} {now : Nat} {p : FederationPage} {c : FederationResponseCache}
    {e : List Char × CachedResponse} (h : e ∈ (c.insert key now p).entries) :
    e ∈ c.entries ∨ e.1 = key ∧ e.2.body = p := by
  unfold insert at h
  split at h
  · exact Or.inl h
  · rw [List.mem_append, List.mem_singleton] at h
    rcases h with h | rfl
    · exact Or.inl ((evict_suffix _ _).subset h)
    · exact Or.inr ⟨rfl, rfl⟩

/-- A response was in the cache under its key, or it is created. -/
structure Looked (key : List Char) (create : FederationFeed →
    Option FederationPage × FederationFeed)
    (c : FederationResponseCache) (f : FederationFeed) (answer : Option FederationPage)
      (f' : FederationFeed)
    (c' : FederationResponseCache) : Prop where
  entries : ∀ e ∈ c'.entries, e ∈ c.entries ∨ e.1 = key ∧ create f = (some e.2.body, f')
  answer : ∀ p, answer = some p → (∃ e ∈ c.entries, e.1 = key ∧ e.2.body = p ∧ f' = f) ∨
    create f = (some p, f')
  feed : f' = f ∨ ∃ r, create f = (r, f')

theorem looked_getOrCreate (key : List Char) (create : FederationFeed →
    Option FederationPage × FederationFeed)
    (now : Lib.Js.Num) (c : FederationResponseCache) (f : FederationFeed) :
    Looked key create c f (c.getOrCreate key create now f).1 (c.getOrCreate key create now f).2.1
      (c.getOrCreate key create now f).2.2 := by
  have hsame : Looked key create c f none f c := ⟨fun e he => Or.inl he, nofun, Or.inl rfl⟩
  unfold getOrCreate
  split
  · exact hsame
  · cases now.toSafe? with
    | none => exact hsame
    | some now =>
      dsimp only
      cases hfind : (c.prune now.val).entries.find? fun e => e.1 = key with
      | some found =>
        obtain ⟨key', cached⟩ := found
        have hmem := mem_prune (List.mem_of_find?_eq_some hfind)
        have hkey : key' = key := by simpa using List.find?_some hfind
        refine ⟨fun e he => ?_, ?_, Or.inl rfl⟩
        · rw [List.mem_append, List.mem_singleton] at he
          rcases he with he | rfl
          · exact Or.inl (mem_prune (List.mem_of_mem_filter he))
          · exact Or.inl (hkey ▸ hmem)
        · rintro p ⟨⟩
          exact Or.inl ⟨_, hmem, hkey, rfl, rfl⟩
      | none =>
        dsimp only
        rcases hcreate : create f with ⟨_ | page, f'⟩
        · exact ⟨fun e he => Or.inl (mem_prune he), nofun, Or.inr ⟨none, hcreate⟩⟩
        · refine ⟨fun e he => ?_, ?_, Or.inr ⟨some page, hcreate⟩⟩
          · dsimp only at he
            rcases mem_insert he with he | ⟨hkey, rfl⟩
            · exact Or.inl (mem_prune he)
            · exact Or.inr ⟨hkey, hcreate⟩
          · rintro p ⟨⟩
            exact Or.inr hcreate

end FederationResponseCache

/-- What `page` returns: a page behind its cursor, the cached reset page, or a new one. -/
inductive Paged (E : Crypto) (cursor : Option String) (limit : Nat)
    (snapshot : List FederationEvent)
    (f f' : FederationFeed) (p : FederationPage) : Prop
  | incremental (after : Nat) (hcursor : f.continues cursor = some after) (hlimit : 1 ≤ limit)
      (hpage : p = f.incrementalPage after limit) (hfeed : f' = f)
  | cached (hcursor : f.continues cursor = none) (entry : CachedResetPage)
    (hentry : f.cachedResetPage = some entry)
      (hpage : p = entry.page) (hfeed : f' = f)
  | fresh (hcursor : f.continues cursor = none) (records : List FederationRecord) (expiresAt : Nat)
      (hrecords : FederationFeed.snapshotRecords E (f.nextSeq - 1) snapshot = some records)
      (hpage : p = { reset := true, cursor := cursorOf f.feedId (f.nextSeq - 1), hasMore := false, events := []
                     snapshot := some records })
      (hfeed : f' = { f with cachedResetPage := some ⟨expiresAt, p⟩ })

theorem paged {E : Crypto} {cursor : Option String} {limit : Nat} {snapshot : List FederationEvent}
    {now : Lib.Js.Num}
    {f f' : FederationFeed} {p : FederationPage}
    (h : f.page E cursor limit snapshot now = some (p, f')) :
    Paged E cursor limit snapshot f f' p := by
  unfold FederationFeed.page at h
  split at h
  · cases h
  · rename_i hlimit
    split at h
    · rename_i after hcursor
      rw [Option.some.injEq, Prod.mk.injEq] at h
      obtain ⟨rfl, rfl⟩ := h
      exact Paged.incremental after hcursor (by omega) rfl rfl
    · rename_i hcursor
      rw [Option.bind_eq_bind, Option.bind_eq_some_iff] at h
      obtain ⟨at_, -, h⟩ := h
      split at h
      · rename_i entry hentry
        rw [Option.pure_def, Option.some.injEq, Prod.mk.injEq] at h
        obtain ⟨rfl, rfl⟩ := h
        exact Paged.cached hcursor entry (Option.filter_eq_some_iff.mp hentry).1 rfl rfl
      · rw [Option.bind_eq_bind, Option.bind_eq_some_iff] at h
        obtain ⟨records, hrecords, h⟩ := h
        rw [Option.pure_def, Option.some.injEq, Prod.mk.injEq] at h
        obtain ⟨rfl, rfl⟩ := h
        exact Paged.fresh hcursor records (at_.val + resetCacheTtlMs) hrecords rfl rfl

/-! ## Serving -/

/-- The process after a page was made of its feed. -/
def Served.seen (s : Served) (feed : FederationFeed) (snapshot : List FederationEvent) : Served :=
  { s with logged := { s.logged with feed }, snapshots := s.snapshots ++ [(snapshot, s.published.length)] }

/-- A key under which a request looks up its answer. -/
def KeyOk (s : Served) (cursor : Option String) (limit : Nat) (key : List Char) : Prop :=
  IsResetKey key ∨ ∃ after, s.logged.feed.continues cursor = some after ∧
    key = s.logged.feed.responseKey cursor limit

section Serving

variable {E : Crypto} {maxEvents lo : Nat} {base : List FederationRecord} {s : Served}
  {cursor : Option String}
  {limit : Nat} {snapshot : List FederationEvent} {now cacheNow : Lib.Js.Num} {f' : FederationFeed}
    {p : FederationPage}

theorem ServedOk.numbered (hs : ServedOk E lo base s maxEvents) :
    (s.history base).map (·.seq) = List.range' lo (s.history base).length := hs.window.numbered

theorem later_seen (s : Served) (base : List FederationRecord) (feed : FederationFeed)
    (snapshot : List FederationEvent) :
    Later base s (s.seen feed snapshot) [] :=
  ⟨(List.append_nil _).symm, List.subset_append_left _ _, fun _ hr => absurd hr List.not_mem_nil⟩

theorem later_refl {s s' : Served} (hpublished : s'.published = s.published)
    (hsnapshots : s.snapshots ⊆ s'.snapshots) :
    Later base s s' [] :=
  ⟨hpublished.trans (List.append_nil _).symm, hsnapshots, fun _ hr => absurd hr List.not_mem_nil⟩

theorem ServedOk.replace {s' : Served} (hs : ServedOk E lo base s maxEvents)
    (hlogged : s'.logged = s.logged)
    (hpublished : s'.published = s.published) (hsnapshots : s.snapshots ⊆ s'.snapshots)
    (hentries : ∀ e ∈ s'.responses.entries, EntryOk E lo base s' e.1 e.2.body)
    (hclients : ∀ c ∈ s'.clients, ClientOk E lo base s' c) : ServedOk E lo base s' maxEvents := by
  have hhistory : s'.history base = s.history base :=
    by rw [Served.history, hpublished, Served.history]
  refine ⟨hlogged ▸ hs.logged, ?_, ?_, fun cached hc => ?_, hentries, hclients⟩
  · rw [hlogged, hhistory]
    exact hs.window
  · rw [hpublished, hhistory]
    exact hs.recorded
  · obtain ⟨id, after, records, hp⟩ := hs.cached cached (hlogged ▸ hc)
    exact ⟨id, after, records, hp.later (later_refl hpublished hsnapshots) (hhistory ▸ hs.numbered)⟩

theorem takenAt_seen (hs : ServedOk E lo base s maxEvents) {records : List FederationRecord}
    (hrecords : FederationFeed.snapshotRecords E (s.logged.feed.nextSeq - 1) snapshot =
      some records) :
    TakenAt E base (s.seen f' snapshot) (s.logged.feed.nextSeq - 1) records := by
  refine ⟨snapshot, s.published.length, List.mem_append_right _ List.mem_cons_self, le_refl _,
    hrecords, ?_, ?_⟩
  · intro r hr
    have hmem : r ∈ s.history base := by
      rw [show (s.seen f' snapshot).published = s.published from rfl, List.take_length,
        List.mem_append] at hr
      rcases hr with hr | hr
      · exact (prefix_foldl_note s.published base).subset hr
      · exact hs.recorded r hr
    have := (hs.window.seq_mem hmem).2
    omega
  · intro r hr
    rw [show (s.seen f' snapshot).published = s.published from rfl, List.drop_length] at hr
    exact absurd hr List.not_mem_nil

theorem servedOk_seen (hs : ServedOk E lo base s maxEvents)
    (hpaged : Paged E cursor limit snapshot s.logged.feed f' p) :
    ServedOk E lo base (s.seen f' snapshot) maxEvents ∧
    AnswerOk E lo base (s.seen f' snapshot) p := by
  have hlater := later_seen s base f' snapshot
  have hnumbered := hs.numbered
  have hclients : ∀ c ∈ s.clients, ClientOk E lo base (s.seen f' snapshot) c :=
    fun c hc => (hs.clients c hc).later hlater hnumbered
  have hentries : ∀ e ∈ s.responses.entries, EntryOk E lo base (s.seen f' snapshot) e.1 e.2.body :=
    fun e he => (hs.entries e he).later hlater hnumbered
  have hcached : ∀ cached, s.logged.feed.cachedResetPage = some cached →
      ∃ id after records,
        ResetPage E lo base (s.seen f' snapshot) cached.page id after records := by
    intro cached hc
    obtain ⟨id, after, records, hp⟩ := hs.cached cached hc
    exact ⟨id, after, records, hp.later hlater hnumbered⟩
  cases hpaged with
  | incremental after hcursor hlimit hpage hfeed =>
    subst hfeed hpage
    refine ⟨⟨hs.logged, hs.window, hs.recorded, hcached, hentries, hclients⟩, Or.inr ?_⟩
    obtain ⟨m, hm⟩ := hs.window.incrementalPage hlimit hcursor
    exact ⟨_, after, _, m, hm⟩
  | cached hcursor entry hentry hpage hfeed =>
    subst hfeed hpage
    exact ⟨⟨hs.logged, hs.window, hs.recorded, hcached, hentries, hclients⟩,
      Or.inl (hcached entry hentry)⟩
  | fresh hcursor records expiresAt hrecords hpage hfeed =>
    have hnext := hs.window.nextSeq
    have hpositive := hs.window.positive
    have hreset :
      ResetPage E lo base (s.seen f' snapshot) p s.logged.feed.feedId
        (s.logged.feed.nextSeq - 1) records := by
      subst hpage
      refine ⟨rfl, rfl, rfl, by omega, ?_, takenAt_seen hs hrecords⟩
      show s.logged.feed.nextSeq - 1 < lo + (s.history base).length
      omega
    have hlogged : Logged E maxEvents (s.seen f' snapshot).logged := by
      subst hfeed
      exact ⟨⟨hs.logged.good.ring, hs.logged.good.indexed⟩, hs.logged.file, hs.logged.unread⟩
    refine ⟨⟨hlogged, ?_, hs.recorded, fun cached hc => ?_, hentries, hclients⟩,
      Or.inl ⟨_, _, records, hreset⟩⟩
    · subst hfeed
      exact hs.window.of_image rfl rfl
    · have hc' : f'.cachedResetPage = some cached := hc
      rw [hfeed, Option.some.injEq] at hc'
      subst hc'
      exact ⟨_, _, records, hreset⟩

theorem createPage_cases {f : FederationFeed} {r : Option FederationPage}
    (h : createPage E cursor limit snapshot now f = (r, f')) :
    r = none ∧ f' = f ∨ ∃ p, Paged E cursor limit snapshot f f' p ∧ (r = none ∨ r = some p) := by
  unfold createPage at h
  split at h
  · rw [Prod.mk.injEq] at h
    exact Or.inl ⟨h.1.symm, h.2.symm⟩
  · rename_i page feed hpage
    rw [Prod.mk.injEq] at h
    obtain ⟨rfl, rfl⟩ := h
    refine Or.inr ⟨page, paged hpage, ?_⟩
    unfold federationPageBody
    split
    · exact Or.inl rfl
    · exact Or.inr rfl

theorem responseKey_of_continues {f : FederationFeed} {after : Nat}
    (h : f.continues cursor = some after) :
    f.responseKey cursor limit =
      federationResponseCacheKey false (some (cursorOf f.feedId after)) limit
      (f.events.head?.map (·.seq)) (f.events.getLast?.map (·.seq)) := by
  rw [FederationFeed.responseKey, FederationFeed.requiresReset, h,
    ← (FederationFeed.continues_eq_some h).1]
  rfl

theorem servedOk_looked (hs : ServedOk E lo base s maxEvents) {key : List Char}
    {answer : Option FederationPage}
    {responses : FederationResponseCache}
    (hlooked : FederationResponseCache.Looked key
      (createPage E cursor limit snapshot now) s.responses s.logged.feed answer
      f' responses) : ServedOk E lo base (s.seen f' snapshot) maxEvents := by
  have hsame : ServedOk E lo base (s.seen s.logged.feed snapshot) maxEvents := by
    have hlater := later_seen s base s.logged.feed snapshot
    refine ⟨hs.logged, hs.window, hs.recorded, fun cached hc => ?_, fun e he => ?_, fun c hc => ?_⟩
    · obtain ⟨id, after, records, hp⟩ := hs.cached cached hc
      exact ⟨id, after, records, hp.later hlater hs.numbered⟩
    · exact (hs.entries e he).later hlater hs.numbered
    · exact (hs.clients c hc).later hlater hs.numbered
  rcases hlooked.feed with rfl | ⟨r, hcreate⟩
  · exact hsame
  · rcases createPage_cases hcreate with ⟨-, rfl⟩ | ⟨p, hpaged, -⟩
    · exact hsame
    · exact (servedOk_seen hs hpaged).1

theorem entryOk_created (hs : ServedOk E lo base s maxEvents) {key : List Char}
    (hkey : KeyOk s cursor limit key)
    (hcreate : createPage E cursor limit snapshot now s.logged.feed = (some p, f')) :
    EntryOk E lo base (s.seen f' snapshot) key p := by
  rcases createPage_cases hcreate with ⟨hnone, -⟩ | ⟨page, hpaged, hnone | hsome⟩
  · cases hnone
  · cases hnone
  · rw [Option.some.injEq] at hsome
    subst hsome
    rcases hkey with hreset | ⟨after, hcursor, rfl⟩
    · exact Or.inl ⟨hreset, (servedOk_seen hs hpaged).2⟩
    · cases hpaged with
      | incremental after' hcursor' hlimit hpage hfeed =>
        rw [hcursor, Option.some.injEq] at hcursor'
        subst hcursor' hpage
        obtain ⟨m, hm⟩ := hs.window.incrementalPage hlimit hcursor
        exact Or.inr ⟨_, after, limit, _, _, m, responseKey_of_continues hcursor,
          hm.weaken hs.window.latest_le⟩
      | cached hcursor' entry hentry hpage hfeed =>
        rw [hcursor] at hcursor'
        cases hcursor'
      | fresh hcursor' records expiresAt hrecords hpage hfeed =>
        rw [hcursor] at hcursor'
        cases hcursor'

theorem answerOk_of_entryOk {key : List Char} (h : EntryOk E lo base s key p) :
    AnswerOk E lo base s p := by
  rcases h with ⟨-, h⟩ | ⟨id, n, limit, oldest, latest, m, -, h⟩
  · exact h
  · exact Or.inr ⟨id, n, _, m, h⟩

theorem entryOk_seen (hs : ServedOk E lo base s maxEvents) (feed : FederationFeed)
    {e : List Char × CachedResponse}
    (he : e ∈ s.responses.entries) : EntryOk E lo base (s.seen feed snapshot) e.1 e.2.body :=
  (hs.entries e he).later (later_seen s base feed snapshot) hs.numbered

theorem servedOk_respond (hs : ServedOk E lo base s maxEvents) {key : List Char}
    (hkey : KeyOk s cursor limit key)
    {answer : Option FederationPage} {responses : FederationResponseCache}
    (h : respond E key cursor limit snapshot now cacheNow s.logged.feed s.responses =
      (answer, f', responses)) :
    ServedOk E lo base { s.seen f' snapshot with responses } maxEvents ∧
      ∀ p, answer = some p → EntryOk E lo base (s.seen f' snapshot) key p := by
  have hlooked :=
    FederationResponseCache.looked_getOrCreate key (createPage E cursor limit snapshot now) cacheNow
    s.responses s.logged.feed
  rw [show s.responses.getOrCreate key
    (createPage E cursor limit snapshot now) cacheNow s.logged.feed =
    (answer, f', responses) from h] at hlooked
  have hseen : ServedOk E lo base (s.seen f' snapshot) maxEvents := servedOk_looked hs hlooked
  have hlater : Later base (s.seen f' snapshot) { s.seen f' snapshot with responses } [] :=
    later_refl rfl (List.Subset.refl _)
  constructor
  · refine hseen.replace rfl rfl (List.Subset.refl _)
      (fun e he => ?_) fun c hc => (hseen.clients c hc).later hlater hseen.numbered
    refine EntryOk.later hlater hseen.numbered ?_
    rcases hlooked.entries e he with hold | ⟨rfl, hcreate⟩
    · exact entryOk_seen hs f' hold
    · exact entryOk_created hs hkey hcreate
  · intro p hp
    rcases hlooked.answer p hp with ⟨e, he, rfl, rfl, -⟩ | hcreate
    · exact entryOk_seen hs f' he
    · exact entryOk_created hs hkey hcreate

theorem continuation_of_entryOk (hs : ServedOk E lo base s maxEvents) {after : Nat}
    (hcursor : s.logged.feed.continues cursor = some after)
    (h : EntryOk E lo base (s.seen f' snapshot) (s.logged.feed.responseKey cursor limit) p) :
    ∃ m, Continuation lo (s.history base) s.logged.feed.feedId after
      (s.logged.feed.nextSeq - 1) p m := by
  rw [responseKey_of_continues hcursor] at h
  rcases h with ⟨⟨cursor', limit', oldest', latest', hkey⟩, -⟩ | ⟨id, n, limit', oldest', latest',
    m, hkey, hp⟩
  · exact absurd hkey.symm responseCacheKey_ne
  · obtain ⟨hid, rfl⟩ := cursorOf_injective (responseCacheKey_incremental hkey).1
    have hlatest := (responseCacheKey_bounds hkey).2
    subst hid
    refine ⟨m, { hp with complete := fun hmore => ?_ }⟩
    by_cases hne : s.history base = []
    · have hnext := hs.window.nextSeq
      have hstart := hp.start
      have hle := hp.le
      rw [hne, List.length_nil] at hnext
      omega
    · rw [← hs.window.latest hne, hlatest]
      exact hp.complete hmore

/-! ## Steps -/

theorem servedOk_grown (hs : ServedOk E lo base s maxEvents) {logged : LoggedFeed}
    {records : List FederationRecord}
    (hlogged : Logged E maxEvents logged)
    (hgrown : Grown lo (s.history base) s.logged.feed logged.feed records) :
    ServedOk E lo base { s with logged, published := s.published ++ records } maxEvents := by
  have hhistory : ({ s with logged, published := s.published ++ records } : Served).history base =
      records.foldl note (s.history base) := historyOf_append records
  have hlater : Later base s { s with logged, published := s.published ++ records } records :=
    ⟨rfl, fun _ h => h, fun r hr => hhistory ▸ hgrown.recorded r hr⟩
  have hwindow :
    Window lo (({ s with logged, published := s.published ++ records } : Served).history base)
      logged.feed :=
    hhistory ▸ hgrown.window
  have hnumbered := hwindow.numbered
  refine ⟨hlogged, hwindow, fun r hr => ?_, fun cached hc => ?_, fun e he => ?_, fun c hc => ?_⟩
  · rcases List.mem_append.mp hr with hr | hr
    · exact hlater.prefix.subset (hs.recorded r hr)
    · exact hlater.recorded r hr
  · rcases hgrown.cache with heq | hnone
    · obtain ⟨id, after, rs, hp⟩ := hs.cached cached (heq ▸ hc)
      exact ⟨id, after, rs, hp.later hlater hnumbered⟩
    · have hc' : logged.feed.cachedResetPage = some cached := hc
      rw [hnone] at hc'
      cases hc'
  · exact (hs.entries e he).later hlater hnumbered
  · exact (hs.clients c hc).later hlater hnumbered

theorem servedOk_setClient (hs : ServedOk E lo base s maxEvents) (client : Nat) {c : Client}
    (hc : ClientOk E lo base s c) :
    ServedOk E lo base { s with clients := s.clients.set client c } maxEvents := by
  have hlater : Later base s { s with clients := s.clients.set client c } [] :=
    later_refl rfl (List.Subset.refl _)
  refine hs.replace rfl rfl (List.Subset.refl _)
    (fun e he => (hs.entries e he).later hlater hs.numbered) fun c' hc' => ?_
  rcases List.mem_or_eq_of_mem_set hc' with hmem | rfl
  · exact (hs.clients c' hmem).later hlater hs.numbered
  · exact hc.later hlater hs.numbered

theorem servedOk_answer (hs : ServedOk E lo base s maxEvents) (client : Nat) {c : Client}
    (hc : ClientOk E lo base s c)
    {key : List Char} (hkey : KeyOk s c.cursor limit key) :
    ServedOk E lo base (s.answer E client c key limit snapshot now cacheNow) maxEvents := by
  unfold Served.answer
  rcases hrespond :
    respond E key c.cursor limit snapshot now cacheNow s.logged.feed s.responses with
    ⟨answer, feed, responses⟩
  obtain ⟨hs', hanswer⟩ := servedOk_respond hs hkey hrespond
  have hlater : Later base s { s.seen feed snapshot with responses } [] :=
    later_refl rfl (List.subset_append_left _ _)
  have hc' := hc.later hlater hs.numbered
  have hset := fun c' (h : ClientOk E lo base { s.seen feed snapshot with responses } c') =>
    servedOk_setClient hs' client h
  cases answer with
  | none => exact hset _ (clientOk_waiting hc')
  | some p =>
    have hsame : Later base (s.seen feed snapshot) { s.seen feed snapshot with responses } [] :=
      later_refl rfl (List.Subset.refl _)
    have hp := (answerOk_of_entryOk (hanswer p rfl)).later hsame hs.numbered
    exact hset (c.receive p) (clientOk_receive hs'.numbered hp hc')

end Serving

/-! ## Runs -/

section Runs

variable {E : Crypto} {maxEvents lo : Nat} {base : List FederationRecord} {s : Served}

theorem servedOk_serve (hmax : 1 ≤ maxEvents) (hs : ServedOk E lo base s maxEvents) (act : Act) :
    ServedOk E lo base (serve E maxEvents s act) maxEvents := by
  -- Three operations publish nothing.
  have hquiet : ∀ logged : LoggedFeed, Logged E maxEvents logged →
      Grown lo (s.history base) s.logged.feed logged.feed [] →
        ServedOk E lo base { s with logged } maxEvents := by
    intro logged hlogged hgrown
    have := servedOk_grown hs hlogged hgrown
    rw [List.append_nil] at this
    exact this
  cases act with
  | append raw receivedAt snapshot io =>
    exact servedOk_grown hs (logged_append hmax hs.logged raw receivedAt snapshot io)
      (grown_append hmax hs.logged hs.window raw receivedAt snapshot io)
  | appendBatch raws receivedAt io =>
    exact servedOk_grown hs (logged_appendBatch hmax hs.logged raws receivedAt io)
      (grown_appendBatch hmax hs.logged hs.window raws receivedAt io)
  | checkpoint rawEvents io =>
    exact hquiet _ (logged_checkpoint hs.logged rawEvents io)
      (grown_checkpoint hs.window rawEvents io)
  | reconcileSnapshot rawEvents fresh io =>
    exact hquiet _ (logged_reconcileSnapshot hs.logged rawEvents fresh io)
      (grown_reconcileSnapshot hs.window rawEvents fresh io)
  | compact result =>
    exact hquiet _ (logged_compact hs.logged result) (grown_compact hs.window result)
  | join cursor =>
    have hlater : Later base s { s with clients := s.clients ++ [{ joined := cursor }] } [] :=
      later_refl rfl (List.Subset.refl _)
    refine hs.replace rfl rfl (List.Subset.refl _)
      (fun e he => (hs.entries e he).later hlater hs.numbered) fun c hc => ?_
    rcases List.mem_append.mp hc with hc | hc
    · exact (hs.clients c hc).later hlater hs.numbered
    · rw [List.mem_singleton] at hc
      subst hc
      exact ⟨nofun, fun _ => rfl, nofun⟩
  | page client limit snapshot now =>
    unfold serve
    dsimp only
    split
    · rename_i c hclient
      split
      · rename_i page feed hasked hpage
        obtain ⟨hs', hp⟩ := servedOk_seen hs (paged hpage)
        have hc := (hs.clients c (List.mem_of_getElem? hclient)).later
          (later_seen s base feed snapshot) hs.numbered
        exact servedOk_setClient hs' client (clientOk_receive hs'.numbered hp hc)
      · exact hs
    · exact hs
  | request client limit snapshot now cacheNow =>
    unfold serve
    dsimp only
    split
    · rename_i c hclient
      have hc := hs.clients c (List.mem_of_getElem? hclient)
      split
      · exact hs
      · rename_i hlimit
        split
        -- The snapshot is taken behind a turn of the loop; until then the client waits at the key.
        · rename_i hreset
          refine servedOk_setClient hs client ⟨?_, hc.fresh, fun g hg => ?_⟩
          · rintro key limit' ⟨⟩
            refine ⟨⟨c.cursor, limit, s.logged.feed.events.head?.map (·.seq),
              s.logged.feed.events.getLast?.map (·.seq), ?_⟩,
              by omega⟩
            rw [FederationFeed.responseKey, hreset]
          · obtain ⟨id, n, h⟩ := hc.segment g hg
            exact ⟨id, n, h.cursor, h.start, h.le, h.known, h.delivered, h.taken, h.joined⟩
        · rename_i hreset
          rw [FederationFeed.requiresReset, Bool.not_eq_true, Option.isNone_eq_false_iff,
            Option.isSome_iff_exists] at hreset
          obtain ⟨after, hafter⟩ := hreset
          exact servedOk_answer hs client hc (Or.inr ⟨after, hafter, rfl⟩)
    · exact hs
  | resume client snapshot now cacheNow =>
    unfold serve
    dsimp only
    split
    · rename_i c hclient
      have hc := hs.clients c (List.mem_of_getElem? hclient)
      split
      · rename_i key limit hasked
        exact servedOk_answer hs client hc (Or.inl (hc.asked key limit hasked).1)
      · exact hs
    · exact hs

/-- A feed as the process starts with it: its file is a log of it, and no page is cached. -/
structure Opened (E : Crypto) (maxEvents : Nat) (start : LoggedFeed) : Prop where
  logged : Logged E maxEvents start
  cached : start.feed.cachedResetPage = none

theorem opened_start (fresh : FeedId) : Opened E maxEvents (.start fresh) :=
  ⟨logged_start fresh, rfl⟩

/-- The first sequence that the ring holds at the start. -/
def LoggedFeed.first (start : LoggedFeed) : Nat := start.feed.nextSeq - start.feed.events.length

theorem servedOk_start {start : LoggedFeed} (hstart : Opened E maxEvents start) :
    ServedOk E start.first start.feed.records { logged := start } maxEvents := by
  have hring := hstart.logged.good.ring
  have hbelow : start.feed.events.length < start.feed.nextSeq := hring.below
  have hlength : start.feed.records.length = start.feed.events.length := List.length_map _
  have hfirst : start.first = start.feed.nextSeq - start.feed.events.length := rfl
  have hwindow : Window start.first start.feed.records start.feed := by
    refine ⟨by omega, by omega, ?_, List.suffix_rfl, fun hnil => ?_⟩
    · rw [hlength, FederationFeed.records, List.map_map]
      exact hring.contiguous
    · rw [FederationFeed.records, hnil]
      rfl
  refine ⟨hstart.logged, hwindow, by simp, fun cached hc => ?_, by simp, by simp⟩
  have hc' : start.feed.cachedResetPage = some cached := hc
  rw [hstart.cached] at hc'
  cases hc'

theorem servedOk_run (hmax : 1 ≤ maxEvents) {start : LoggedFeed} (hstart : Opened E maxEvents start)
    (acts : List Act) :
    ServedOk E start.first start.feed.records
      (run (serve E maxEvents) { logged := start } acts) maxEvents :=
  invariant (I := fun s => ServedOk E start.first start.feed.records s maxEvents)
    (fun _ act hs => servedOk_serve hmax hs act) (servedOk_start hstart) acts

end Runs

/-! ## What clients read -/

/-- A page that the process may answer for a cursor, from the feed or through the endpoint. -/
def Served.Answers (E : Crypto) (s : Served) (cursor : Option String) (limit : Nat)
    (p : FederationPage) : Prop :=
  (∃ snapshot now f, s.logged.feed.page E cursor limit snapshot now = some (p, f)) ∨
    ∃ snapshot now cacheNow,
      (respond E (s.logged.feed.responseKey cursor limit) cursor limit snapshot now cacheNow
      s.logged.feed s.responses).1 = some p

section Claim

variable {E : Crypto} {maxEvents lo : Nat} {base : List FederationRecord} {s : Served}

/-- What a client has read is the stretch of the history between its start and its cursor. After a
reset it has all that was published since the snapshot, up to its cursor, but for replays. -/
theorem segment_complete (hs : ServedOk E lo base s maxEvents) {c : Client} (hc : c ∈ s.clients)
    {g : Segment}
    (hg : c.segment = some g) : ∃ id n, c.cursor.bind parseCursor = some (id, n) ∧
      (g.snapshot = none → ∃ id, c.joined.bind parseCursor = some (id, g.after)) ∧
      g.delivered.map (·.seq) = List.range' (g.after + 1) (n - g.after) ∧
      (∀ r, r ∈ g.delivered ↔ r ∈ s.history base ∧ g.after < r.seq ∧ r.seq ≤ n) ∧
      ∀ records, g.snapshot = some records → ∃ snapshot k, (snapshot, k) ∈ s.snapshots ∧
        FederationFeed.snapshotRecords E g.after snapshot = some records ∧
        (∀ r ∈ base ++ s.published.take k, r.seq ≤ g.after) ∧
        ∀ r ∈ s.published.drop k, r.seq ≤ n → r ∈ g.delivered ∨ r ∈ base ++ s.published.take k := by
  obtain ⟨id, n, hok⟩ := (hs.clients c hc).segment g hg
  have hmem : ∀ r, r ∈ g.delivered ↔ r ∈ s.history base ∧ g.after < r.seq ∧ r.seq ≤ n := by
    intro r
    rw [hok.delivered]
    exact mem_stretch hs.numbered hok.start r
  refine ⟨id, n, hok.cursor, hok.joined, ?_, hmem, fun records hrecords => ?_⟩
  · rw [hok.delivered]
    exact seq_stretch hs.numbered hok.start hok.le hok.known
  · obtain ⟨snapshot, k, hsnapshot, -, hfound, hbefore, hsince⟩ := hok.taken records hrecords
    refine ⟨snapshot, k, hsnapshot, hfound, hbefore, fun r hr hn => ?_⟩
    rcases hsince r hr with hafter | hreplay
    · exact Or.inl ((hmem r).mpr ⟨hs.recorded r (List.mem_of_mem_drop hr), hafter, hn⟩)
    · exact Or.inr hreplay

theorem answer_complete (hs : ServedOk E lo base s maxEvents) {cursor : Option String}
    {limit after : Nat}
    {p : FederationPage} (hcursor : s.logged.feed.continues cursor = some after)
    (h : s.Answers E cursor limit p) :
    ∃ m, Continuation lo (s.history base) s.logged.feed.feedId after
      (s.logged.feed.nextSeq - 1) p m := by
  rcases h with ⟨snapshot, now, f, hpage⟩ | ⟨snapshot, now, cacheNow, hanswer⟩
  · cases paged hpage with
    | incremental after' hcursor' hlimit hp hfeed =>
      rw [hcursor, Option.some.injEq] at hcursor'
      subst hcursor' hp
      exact hs.window.incrementalPage hlimit hcursor
    | cached hcursor' entry hentry hp hfeed =>
      rw [hcursor] at hcursor'
      cases hcursor'
    | fresh hcursor' records expiresAt hrecords hp hfeed =>
      rw [hcursor] at hcursor'
      cases hcursor'
  · rcases hrespond :
      respond E (s.logged.feed.responseKey cursor limit) cursor limit snapshot now cacheNow
        s.logged.feed
      s.responses with ⟨answer, feed, responses⟩
    rw [hrespond] at hanswer
    exact continuation_of_entryOk hs hcursor
      ((servedOk_respond hs (Or.inr ⟨after, hcursor, rfl⟩) hrespond).2 p hanswer)

theorem reset_complete (hs : ServedOk E lo base s maxEvents) {cursor : Option String} {limit : Nat}
    {snapshot : List FederationEvent} {now : Lib.Js.Num} {p : FederationPage} {f : FederationFeed}
    (hcursor : s.logged.feed.requiresReset cursor = true)
    (h : s.logged.feed.page E cursor limit snapshot now = some (p, f)) :
    ∃ id after records, ResetPage E lo base (s.seen f snapshot) p id after records := by
  have hpaged := paged h
  rcases (servedOk_seen hs hpaged).2 with hreset | ⟨id, n, latest, m, hp⟩
  · exact hreset
  · rw [FederationFeed.requiresReset, Option.isNone_iff_eq_none] at hcursor
    have hreset : p.reset = true := by
      cases hpaged with
      | incremental after hcursor' hlimit hpage hfeed =>
        rw [hcursor] at hcursor'
        cases hcursor'
      | cached hcursor' entry hentry hpage hfeed =>
        obtain ⟨id', after, records, hr⟩ := hs.cached entry hentry
        exact hpage ▸ hr.reset
      | fresh hcursor' records expiresAt hrecords hpage hfeed => exact hpage ▸ rfl
    rw [hp.reset] at hreset
    cases hreset

/-- Whatever happens to the feed, clients that follow its pages, from any cursor and through any
cache, read every record of the feed behind their cursor, once and in order. A reset starts from a
snapshot of the book, and the pages behind it have every event published since, but for replays of
earlier ones. -/
theorem pages_complete (hmax : 1 ≤ maxEvents) {start : LoggedFeed}
    (hstart : Opened E maxEvents start) (acts : List Act) :
    let base := start.feed.records
    let s := run (serve E maxEvents) { logged := start } acts
    let history := s.history base
    (∀ c ∈ s.clients, ∀ g, c.segment = some g → ∃ id n, c.cursor.bind parseCursor = some (id, n) ∧
      (g.snapshot = none → ∃ id, c.joined.bind parseCursor = some (id, g.after)) ∧
      g.delivered.map (·.seq) = List.range' (g.after + 1) (n - g.after) ∧
      (∀ r, r ∈ g.delivered ↔ r ∈ history ∧ g.after < r.seq ∧ r.seq ≤ n) ∧
      ∀ records, g.snapshot = some records → ∃ snapshot k, (snapshot, k) ∈ s.snapshots ∧
        FederationFeed.snapshotRecords E g.after snapshot = some records ∧
        (∀ r ∈ base ++ s.published.take k, r.seq ≤ g.after) ∧
        ∀ r ∈ s.published.drop k, r.seq ≤ n → r ∈ g.delivered ∨ r ∈ base ++ s.published.take k) ∧
    (∀ cursor limit after p, s.logged.feed.continues cursor = some after →
      s.Answers E cursor limit p →
      p.reset = false ∧ ∃ m, p.cursor = cursorOf s.logged.feed.feedId m ∧
        p.events.map (·.seq) = List.range' (after + 1) (m - after) ∧
        (∀ r, r ∈ p.events ↔ r ∈ history ∧ after < r.seq ∧ r.seq ≤ m) ∧
        (p.hasMore = false → ∀ r ∈ history, r.seq ≤ m) ∧ (p.hasMore = true → after < m)) ∧
    ∀ cursor limit snapshot now p f, s.logged.feed.requiresReset cursor = true →
      s.logged.feed.page E cursor limit snapshot now = some (p, f) →
      p.reset = true ∧ ∃ id after records, p.cursor = cursorOf id after ∧
      p.snapshot = some records ∧
        ∃ taken k, (taken, k) ∈ s.snapshots ++ [(snapshot, s.published.length)] ∧
          FederationFeed.snapshotRecords E after taken = some records ∧
          (∀ r ∈ base ++ s.published.take k, r.seq ≤ after) ∧
          ∀ r ∈ s.published.drop k, after < r.seq ∨ r ∈ base ++ s.published.take k := by
  intro base s history
  have hs : ServedOk E start.first base s maxEvents := servedOk_run hmax hstart acts
  refine ⟨fun c hc g hg => segment_complete hs hc hg, fun cursor limit after p hcursor hp => ?_, ?_⟩
  · obtain ⟨m, hm⟩ := answer_complete hs hcursor hp
    refine ⟨hm.reset, m, hm.cursor, ?_, fun r => ?_, fun hmore r hr => ?_, hm.advances⟩
    · rw [hm.events]
      exact seq_stretch hs.numbered hm.start hm.le hm.known
    · rw [hm.events]
      exact mem_stretch hs.numbered hm.start r
    · have hlast := hm.complete hmore
      have hseq := (hs.window.seq_mem hr).2
      omega
  · intro cursor limit snapshot now p f hcursor hp
    obtain ⟨id, after, records, hreset⟩ := reset_complete hs hcursor hp
    obtain ⟨taken, k, hmem, -, hrecords, hbefore, hsince⟩ := hreset.taken
    exact ⟨hreset.reset, id, after, records, hreset.cursor, hreset.snapshot, taken, k, hmem,
      hrecords, hbefore, hsince⟩

/-- One client reads from the start, and another one resets and reads on. -/
def readActs : List Act :=
  [.appendBatch [emptyCancel] (.int 0) {}, .join (some (cursorOf someFeedId 0)), .join none,
    .page 0 256 [] (.int 0), .page 1 256 [emptyCancel.val] (.int 0),
    .appendBatch [emptyFill] (.int 0) {}, .page 0 256 [] (.int 0), .page 1 256 [] (.int 0)]

theorem run_readActs :
    (run (serve twoDigests 4096) { logged := .start someFeedId } readActs).clients.map
        (fun c => c.cursor.bind parseCursor) = [some (someFeedId, 2), some (someFeedId, 2)] ∧
      (run (serve twoDigests 4096) { logged := .start someFeedId } readActs).clients.map
        (fun c => c.segment.map fun g => (g.snapshot.map List.length, g.delivered.map (·.seq))) =
          [some (none, [1, 2]), some (some 1, [2])] :=
  ⟨by decide +kernel, by decide +kernel⟩

theorem pages_complete_read :
    let s := run (serve twoDigests 4096) { logged := .start someFeedId } readActs
    ∃ c c', s.clients = [c, c'] ∧
      (∃ g, c.segment = some g ∧ g.snapshot = none ∧ g.delivered.map (·.seq) = [1, 2] ∧
        ∀ r, r ∈ g.delivered ↔ r ∈ s.history [] ∧ g.after < r.seq ∧ r.seq ≤ 2) ∧
      ∃ g records, c'.segment = some g ∧ g.snapshot = some records ∧
        g.delivered.map (·.seq) = [2] ∧
        ∀ r, r ∈ g.delivered ↔ r ∈ s.history [] ∧ g.after < r.seq ∧ r.seq ≤ 2 := by
  intro s
  obtain ⟨hcursors, hsegments⟩ := run_readActs
  obtain ⟨c, rest, hclients, hcursor, hrest⟩ := List.map_eq_cons_iff.mp hcursors
  obtain ⟨c', others, rfl, hcursor', hnil⟩ := List.map_eq_cons_iff.mp hrest
  obtain rfl := List.map_eq_nil_iff.mp hnil
  rw [hclients, List.map_cons, List.map_cons, List.map_nil, List.cons.injEq, List.cons.injEq]
    at hsegments
  obtain ⟨hsegment, hsegment', -⟩ := hsegments
  have hread : ∀ d ∈ s.clients, d.cursor.bind parseCursor = some (someFeedId, 2) → ∀ g,
      d.segment = some g →
      ∀ r, r ∈ g.delivered ↔ r ∈ s.history [] ∧ g.after < r.seq ∧ r.seq ≤ 2 := by
    intro d hd hat g hg
    obtain ⟨id, n, hn, -, -, hdelivered, -⟩ :=
      (pages_complete (by decide : 1 ≤ 4096) (opened_start (E := twoDigests) someFeedId)
        readActs).1 d hd g hg
    rw [hat, Option.some.injEq, Prod.mk.injEq] at hn
    exact hn.2 ▸ hdelivered
  obtain ⟨g, hg, hshape⟩ := Option.map_eq_some_iff.mp hsegment
  obtain ⟨g', hg', hshape'⟩ := Option.map_eq_some_iff.mp hsegment'
  rw [Prod.mk.injEq] at hshape hshape'
  obtain ⟨records, hrecords, -⟩ := Option.map_eq_some_iff.mp hshape'.1
  refine ⟨c, c', hclients, ⟨g, hg, Option.map_eq_none_iff.mp hshape.1, hshape.2, ?_⟩,
    g', records, hg', hrecords, hshape'.2, ?_⟩
  · exact hread c (hclients ▸ List.mem_cons_self) hcursor g hg
  · exact hread c' (hclients ▸ List.mem_cons_of_mem _ List.mem_cons_self) hcursor' g' hg'

/-- A client resets while the book has dropped an event, and the book publishes it again. -/
def replayActs : List Act :=
  [.appendBatch [emptyCancel] (.int 0) {}, .join none, .page 0 256 [] (.int 0),
    .appendBatch [emptyCancel] (.int 0) {},
    .page 0 256 [emptyCancel.val] (.int 0)]

theorem run_replayActs :
    (run (serve twoDigests 4096) { logged := .start someFeedId } replayActs).clients =
        [{ joined := none, cursor := some (cursorOf someFeedId 1), segment := some ⟨1, some [], []⟩ }] ∧
      (run (serve twoDigests 4096) { logged := .start someFeedId } replayActs).snapshots =
        [([], 1), ([emptyCancel.val], 2)] ∧
      (run (serve twoDigests 4096) { logged := .start someFeedId } replayActs).logged.feed.nextSeq =
        2 ∧
      (run (serve twoDigests 4096) { logged := .start someFeedId } replayActs).published.map
        (·.seq) = [1, 1] :=
  ⟨rfl, rfl, by decide +kernel, by decide +kernel⟩

/-- A peer that took its snapshot between the two misses the event. -/
theorem replay_lost :
    ¬∀ (E : Crypto) (maxEvents : Nat) (start : LoggedFeed) (acts : List Act), 1 ≤ maxEvents →
    Opened E maxEvents start →
      ∀ c ∈ (run (serve E maxEvents) { logged := start } acts).clients, ∀ g records id n,
        c.segment = some g → g.snapshot = some records → c.cursor.bind parseCursor = some (id, n) →
        n + 1 = (run (serve E maxEvents) { logged := start } acts).logged.feed.nextSeq →
        ∃ snapshot k, (snapshot, k) ∈ (run (serve E maxEvents) { logged := start } acts).snapshots ∧
          FederationFeed.snapshotRecords E g.after snapshot = some records ∧
          ∀ r ∈ (run (serve E maxEvents) { logged := start } acts).published.drop k,
            r ∈ g.delivered ∨ r.eventId ∈ records.map (·.eventId) := by
  intro h
  obtain ⟨hclients, hsnapshots, hnext, hpublished⟩ := run_replayActs
  have hlen := congrArg List.length hpublished
  rw [List.length_map] at hlen
  obtain ⟨snapshot, k, hmem, hrecords, hall⟩ :=
    h twoDigests 4096 (.start someFeedId) replayActs (by decide)
    (opened_start someFeedId) _ (hclients ▸ List.mem_cons_self) ⟨1, some [],
      []⟩ [] someFeedId 1 rfl rfl
    (by decide +kernel) hnext.symm
  rw [hsnapshots, List.mem_cons, List.mem_singleton, Prod.mk.injEq, Prod.mk.injEq] at hmem
  rcases hmem with ⟨rfl, rfl⟩ | ⟨rfl, rfl⟩
  · obtain ⟨r, hr⟩ :=
      List.exists_mem_of_length_pos
        (l := (run (serve twoDigests 4096) { logged := .start someFeedId }
      replayActs).published.drop 1) (by rw [List.length_drop, hlen]; decide)
    rcases hall r hr with hd | hd
    · cases hd
    · cases hd
  · simp [FederationFeed.snapshotRecords, identify_emptyCancel] at hrecords

end Claim

end QuantaSwap.Feed
