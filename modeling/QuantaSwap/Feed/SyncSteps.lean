import QuantaSwap.Feed.Sync

/-!
# What a step of the sync does

Each function once, by what it can come to. The invariants go by these cases.
-/

set_option autoImplicit false

namespace QuantaSwap.Feed.PeerSync

open Lib Lib.Js QuantaSwap.Book

variable {P : Type*} [DecidableEq P]

namespace Sync

/-! ## `deferRecord` and `applyRecord` -/

/-- What `deferRecord` can come to. -/
inductive Deferring (s : Sync P) (r : FederationRecord) (peer : P) : Sync P → Prop
  | reset : Deferring s r peer (s.resetDeferredPeer peer)
  | source (d : Deferred P) (hget : s.deferred.get r.eventId = some d)
      (hroom : peer ∈ d.sources ∨ s.deferredCountForPeer peer < maxDeferredEventsPerPeer) :
      Deferring s r peer { s with deferred := s.deferred.set r.eventId (d.addSource peer) }
  | entry (d : Deferred P) (hget : s.deferred.get r.eventId = none)
      (hroom : s.deferredCountForPeer peer < maxDeferredEventsPerPeer)
      (hsize : s.deferred.entries.length < maxDeferredEvents) (hevent : d.event = r.event)
        (hpeer : d.peer = peer)
      (hsources : d.sources = [peer]) (hattempts : d.attempts = 0) :
      Deferring s r peer { s with deferred := s.deferred.set r.eventId d, created := s.created + 1 }

theorem deferring (s : Sync P) (r : FederationRecord) (peer : P) (now : Nat) :
    Deferring s r peer (s.deferRecord r peer now) := by
  unfold deferRecord
  split
  · rename_i d hget
    split
    · exact .reset
    · rename_i hroom
      refine .source d hget ?_
      by_cases hmem : peer ∈ d.sources
      · exact Or.inl hmem
      · exact Or.inr (Nat.lt_of_not_le fun hle => hroom ⟨hmem, hle⟩)
  · rename_i hget
    split
    · exact .reset
    · rename_i hroom
      split
      · exact .reset
      · rename_i hsize
        exact .entry _ hget (Nat.lt_of_not_le hroom) (Nat.lt_of_not_le hsize) rfl rfl rfl rfl

/-- What `deferRecord` leaves alone. -/
structure Frame (s s' : Sync P) : Prop where
  pc : s'.pc = s.pc
  phase : s'.phase = s.phase
  nextPeerIndex : s'.nextPeerIndex = s.nextPeerIndex
  applications : s'.applications = s.applications
  promises : s'.promises = s.promises
  rejectedThisSync : s'.rejectedThisSync = s.rejectedThisSync
  history : s'.history = s.history

theorem Deferring.frame {s s' : Sync P} {r : FederationRecord} {peer : P}
    (h : Deferring s r peer s') :
    Frame s s' := by
  cases h <;> exact ⟨rfl, rfl, rfl, rfl, rfl, rfl, rfl⟩

/-- What `applyRecord` can come to at its first await. -/
inductive Applied (s : Sync P) (r : FederationRecord) (peer : P) : Sync P → Applying → Prop
  | forced (h : peer ∈ s.forceResetPeers) : Applied s r peer s (.returned .deferred)
  | known (d : Deferred P) (hget : s.deferred.get r.eventId = some d) (hmem : peer ∈ d.sources) :
      Applied s r peer s (.returned .deferred)
  | asked (d : Deferred P) (s' : Sync P) (hget : s.deferred.get r.eventId = some d)
    (hnew : peer ∉ d.sources)
      (hdefer : Deferring s r peer s') :
      Applied s r peer (s'.called r.eventId r.event peer) (.asking d.serial)
  | joined (k : Nat) (hget : s.applications.get r.eventId = some k) :
    Applied s r peer s (.awaiting k)
  | applied (hget : s.applications.get r.eventId = none) :
      Applied s r peer (s.application r peer) (.awaiting s.promises.length)

theorem applied (s : Sync P) (r : FederationRecord) (peer : P) (now : Nat) :
    Applied s r peer (s.applyRecord r peer now).1 (s.applyRecord r peer now).2 := by
  unfold applyRecord
  split
  · rename_i hforced
    exact .forced hforced
  · split
    · rename_i d hget
      split
      · rename_i hmem
        exact .known d hget hmem
      · rename_i hmem
        exact .asked d _ hget hmem (deferring s r peer now)
    · split
      · rename_i k hk
        exact .joined k hk
      · rename_i hk
        exact .applied hk

/-! ## The retries -/

theorem nextSource_mem {sources : List P} {peer : P} (h : sources ≠ []) :
    nextSource sources peer ∈ sources := by
  have hpos : 0 < sources.length := List.length_pos_iff.mpr h
  have hindex : (if peer ∈ sources then (sources.idxOf peer + 1) % sources.length else 0) <
    sources.length := by
    split
    · exact Nat.mod_lt _ hpos
    · exact hpos
  unfold nextSource
  dsimp only
  rw [List.getElem?_eq_getElem hindex, Option.getD_some]
  exact List.getElem_mem hindex

/-- What the retry of an entry in the name of `peer` can come to. -/
inductive Retrying (s : Sync P) (id : EventId) (d : Deferred P) (peer : P) : Sync P → Prop
  | kept (d' : Deferred P) (hevent : d'.event = d.event) (hsources : d'.sources = d.sources)
    (hpeer : d'.peer ∈ d.sources)
      (hattempts : d'.attempts = d.attempts + 1) :
      Retrying s id d peer { s.called id d.event peer with deferred := s.deferred.set id d' }
  | applied :
      Retrying s id d peer
        { (s.called id d.event peer).answered id peer (.result .applied) with deferred := s.deferred.erase id }
  | rejected :
      Retrying s id d peer
        { (s.called id d.event peer).answered id peer (.result .rejected) with
          deferred := s.deferred.erase id
          rejectedThisSync := (d.sources.foldl reject s).rejectedThisSync }

theorem foldl_reject (sources : List P) (s s' : Sync P)
    (h : s.rejectedThisSync = s'.rejectedThisSync) :
    sources.foldl reject s =
      { s with rejectedThisSync := (sources.foldl reject s').rejectedThisSync } := by
  induction sources generalizing s s' with
  | nil => rw [List.foldl_nil, List.foldl_nil, ← h]
  | cons source sources ih =>
    rw [List.foldl_cons, List.foldl_cons,
      ih (s.reject source) (s'.reject source) (by unfold reject; rw [h])]
    rfl

theorem retrying {s : Sync P} {d : Deferred P} {first : P} {others : List P}
    (heligible : d.sources.filter s.underQuota = first :: others) (id : EventId) (now : Nat)
    (answer : Answer) :
    ∃ peer ∈ d.sources, s.underQuota peer = true ∧
      Retrying s id d peer (s.retryEntry id d first (first :: others) now answer).1 := by
  have hsub : ∀ p ∈ first :: others, p ∈ d.sources ∧ s.underQuota p = true := by
    intro p hp
    rw [← heligible] at hp
    exact List.mem_filter.mp hp
  have hchosen : (if d.peer ∈ first :: others then d.peer else first) ∈ first :: others := by
    split
    · assumption
    · exact List.mem_cons_self
  unfold retryEntry
  dsimp only
  generalize (if d.peer ∈ first :: others then d.peer else first) = peer at hchosen ⊢
  obtain ⟨hmem, hquota⟩ := hsub peer hchosen
  refine ⟨peer, hmem, hquota, ?_⟩
  cases answer with
  | thrown => exact .kept _ rfl rfl hmem rfl
  | result result =>
    cases result with
    | applied => exact .applied
    | deferred =>
      exact .kept _ rfl rfl (hsub _ (nextSource_mem (List.cons_ne_nil first others))).1 rfl
    | rejected =>
      dsimp only
      rw [foldl_reject d.sources _ s (by rfl)]
      exact .rejected

/-! ## The steps -/

/-- The sync of a peer may throw: it is under way, `applyRecord` has nothing to return to it, and an
application that it waits for has thrown. -/
structure Leaves (s : Sync P) (peer : P) : Prop where
  active : (s.pc peer).active = true
  returned : ∀ l r rest result, s.pc peer ≠ .applying l r rest (.returned result)
  awaiting : ∀ l r rest k, s.pc peer = .applying l r rest (.awaiting k) →
    ∃ promise, s.promises[k]? = some promise ∧ promise.result = some .thrown

/-- What a step can come to. -/
inductive Moved (E : Crypto) (peers : Peers P) (s : Sync P) : Sync P → Prop
  | stay : Moved E peers s s
  | started (hphase : s.phase = .idle) : Moved E peers s s.syncAll
  | skipped (peer : P) (hphase : s.phase = .syncing)
    (hurl : peers.urls[s.nextPeerIndex]? = some peer) :
      Moved E peers s { s with nextPeerIndex := s.nextPeerIndex + 1 }
  | begun (peer : P) (hphase : s.phase = .syncing)
    (hurl : peers.urls[s.nextPeerIndex]? = some peer) :
      Moved E peers s
        ({ s with nextPeerIndex := s.nextPeerIndex + 1 }.goto peer
          (.fetching 0 (s.cursors.get peer) []))
  | failed (peer : P) (hleaves : s.Leaves peer) : Moved E peers s (s.goto peer .idle)
  | received (peer : P) (l : Locals) (seen : List EventId)
      (hpc : s.pc peer = .fetching l.pageNumber l.requestedCursor seen) (raw : Json)
      (hparse : parseFederationPage E raw = some l.page)
      (hprogress : validateFederationPageProgress l.requestedCursor l.page = true)
      (hnew : repeats seen (pageIds l.page) = false) :
      Moved E peers s
        ({ s with history := s.history.received peer (pageRecords l.page) }.goto peer
          (.records l (pageRecords l.page)))
  | emptied (peer : P) (l : Locals) (hpc : s.pc peer = .records l []) :
    Moved E peers s (s.goto peer (.finishing l))
  | applies (peer : P) (l : Locals) (r : FederationRecord) (rest : List FederationRecord)
    (next : Sync P)
      (at_ : Applying) (hpc : s.pc peer = .records l (r :: rest))
        (happlied : Applied s r peer next at_) :
      Moved E peers s (next.goto peer (.applying l r rest at_))
  | resolved (k : Nat) (peer : P) (eventId : EventId) (answer : Answer)
      (hpromise : s.promises[k]? = some ⟨peer, eventId, none⟩) :
      Moved E peers s
        ({ s with promises := s.promises.set k ⟨peer, eventId, some answer⟩ }.answered eventId
          peer answer)
  | returned (peer : P) (l : Locals) (r : FederationRecord) (rest : List FederationRecord) (k : Nat)
      (promise : EventApplication P) (result : ApplyResult)
        (hpc : s.pc peer = .applying l r rest (.awaiting k))
      (hpromise : s.promises[k]? = some promise) (hresult : promise.result = some (.result result))
      (hne : result ≠ .deferred) :
        Moved E peers s (s.goto peer (.applying l r rest (.returned result)))
  | deferredOwn (peer : P) (l : Locals) (r : FederationRecord)
    (rest : List FederationRecord) (k : Nat)
      (promise : EventApplication P) (hpc : s.pc peer = .applying l r rest (.awaiting k))
      (hpromise : s.promises[k]? = some promise)
        (hresult : promise.result = some (.result .deferred))
      (happlier : promise.peer = peer) (kept : Sync P)
        (hdefer : Deferring (s.forget r.eventId k) r peer kept) :
      Moved E peers s (kept.goto peer (.applying l r rest (.returned .deferred)))
  | deferredOther (peer : P) (l : Locals) (r : FederationRecord)
    (rest : List FederationRecord) (k : Nat)
      (promise : EventApplication P) (hpc : s.pc peer = .applying l r rest (.awaiting k))
      (hpromise : s.promises[k]? = some promise)
        (hresult : promise.result = some (.result .deferred))
      (happlier : promise.peer ≠ peer) (kept : Sync P)
      (hdefer : Deferring (s.forget r.eventId k) r promise.peer kept) (next : Sync P)
        (at_ : Applying)
      (happlied : Applied kept r peer next at_) :
        Moved E peers s (next.goto peer (.applying l r rest at_))
  | rotated (peer : P) (l : Locals) (r : FederationRecord) (rest : List FederationRecord)
    (serial : Nat)
      (hpc : s.pc peer = .applying l r rest (.asking serial)) :
      Moved E peers s
        ((s.rotate r.eventId serial peer).goto peer (.applying l r rest (.returned .deferred)))
  | replied (peer : P) (l : Locals) (r : FederationRecord) (rest : List FederationRecord)
    (serial : Nat)
      (result : ApplyResult) (hpc : s.pc peer = .applying l r rest (.asking serial))
        (hne : result ≠ .deferred) :
      Moved E peers s
        (({ s with deferred := s.deferred.erase r.eventId }.answered r.eventId peer
          (.result result)).goto peer
          (.applying l r rest (.returned result)))
  | proceeded (peer : P) (l : Locals) (r : FederationRecord) (rest : List FederationRecord)
    (result : ApplyResult)
      (hpc : s.pc peer = .applying l r rest (.returned result)) (counted : Sync P)
      (hcounted : counted = if result = .rejected then s.reject peer else s) (pc : Pc)
      (hquota : result = .rejected → counted.underQuota peer = false → pc = .idle)
      (hnext : pc = .idle ∨ peer ∈ s.forceResetPeers ∧ pc = .finishing l ∨ pc = .records l rest) :
      Moved E peers s (counted.goto peer pc)
  | forcedReset (peer : P) (l : Locals) (hpc : s.pc peer = .finishing l)
    (hforced : peer ∈ s.forceResetPeers) :
      Moved E peers s
        ({ s with forceResetPeers := s.forceResetPeers.erase peer, cursors := s.cursors.erase peer }.goto peer .idle)
  | committed (peer : P) (l : Locals) (hpc : s.pc peer = .finishing l)
    (hfree : peer ∉ s.forceResetPeers)
      (pc : Pc) (hnext : pc = .idle ∨
        pc = .fetching (l.pageNumber + 1) (some l.page.cursor) l.seenEventIds) :
      Moved E peers s
        ({ s with
            cursors := s.cursors.set peer l.page.cursor
            history := s.history.committed peer l.page }.goto peer pc)
  | gathered (hphase : s.phase = .syncing) (hdone : ∀ p ∈ peers.urls, (s.pc p).active = false) :
      Moved E peers s { s with phase := .retrying 0 0 s.deferred.keys }
  | passed (phase : Phase) (hphase : s.phase ≠ .syncing) (hnext : phase ≠ .syncing) :
      Moved E peers s { s with phase := phase }
  | expired (eventId : EventId) (d : Deferred P) (phase : Phase) (hphase : s.phase ≠ .syncing)
    (hnext : phase ≠ .syncing)
      (hget : s.deferred.get eventId = some d) :
      Moved E peers s
        { s with
          deferred := s.deferred.erase eventId
          cursors := d.sources.foldl Keyed.erase s.cursors
          phase := phase }
  | retried (eventId : EventId) (d : Deferred P) (phase : Phase) (hphase : s.phase ≠ .syncing)
    (hnext : phase ≠ .syncing)
      (hget : s.deferred.get eventId = some d) (hattempts : d.attempts < maxDeferredAttempts)
        (peer : P)
      (hpeer : peer ∈ d.sources) (hquota : s.underQuota peer = true) (next : Sync P)
      (hretry : Retrying s eventId d peer next) : Moved E peers s { next with phase := phase }

variable {E : Crypto} {peers : Peers P} {s : Sync P}

theorem moved_begin (due : Bool) : Moved E peers s (s.begin peers due) := by
  unfold begin
  split
  · rename_i peer hphase hurl
    split
    · exact .stay
    · dsimp only
      split
      · exact .begun peer hphase hurl
      · exact .skipped peer hphase hurl
  · exact .stay

theorem moved_respond (peer : P) (body : Option Json) :
    Moved E peers s (s.respond E peer body) := by
  unfold respond
  split
  · rename_i pageNumber cursor seen hpc
    have hfailed : Moved E peers s (s.goto peer .idle) :=
      .failed peer ⟨by rw [hpc]; rfl, by simp [hpc], by simp [hpc]⟩
    split
    · exact hfailed
    · rename_i page hpage
      obtain ⟨raw, -, hparse⟩ := Option.bind_eq_some_iff.mp hpage
      split
      · exact hfailed
      · rename_i hprogress
        split
        · exact hfailed
        · split
          · exact hfailed
          · rename_i hnew
            exact .received peer ⟨cursor, pageNumber, _,
              page⟩ seen hpc raw hparse (by simpa using hprogress)
              (Bool.eq_false_iff.mpr hnew)
  · exact .stay

theorem moved_record (peer : P) (late : Bool) (now : Nat) :
    Moved E peers s (s.record peer late now) := by
  unfold record
  split
  · rename_i l hpc
    exact .emptied peer l hpc
  · rename_i l r rest hpc
    split
    · exact .failed peer ⟨by rw [hpc]; rfl, by simp [hpc], by simp [hpc]⟩
    · exact .applies peer l r rest _ _ hpc (applied s r peer now)
  · exact .stay

theorem moved_resolve (k : Nat) (answer : Answer) : Moved E peers s (s.resolve k answer) := by
  unfold resolve
  split
  · rename_i peer eventId hpromise
    exact .resolved k peer eventId answer hpromise
  · exact .stay

theorem moved_resume (peer : P) (now : Nat) : Moved E peers s (s.resume peer now) := by
  unfold resume
  split
  · rename_i l r rest k hpc
    split
    · rename_i applier eventId hpromise
      refine .failed peer ⟨by rw [hpc]; rfl, by simp [hpc], fun _ _ _ _ h => ?_⟩
      rw [hpc] at h
      cases h
      exact ⟨_, hpromise, rfl⟩
    · rename_i applier eventId hpromise
      have hdefer := deferring (s.forget r.eventId k) r applier now
      dsimp only
      split
      · rename_i happlier
        rw [happlier] at hdefer ⊢
        exact .deferredOwn peer l r rest k _ hpc hpromise rfl happlier _ hdefer
      · rename_i happlier
        exact .deferredOther peer l r rest k _ hpc hpromise rfl happlier _ hdefer
          _ _ (applied _ r peer now)
    · rename_i applier eventId result hne hpromise
      exact .returned peer l r rest k _ result hpc hpromise rfl fun h => hne (by rw [h])
    · exact .stay
  · exact .stay

theorem moved_reply (peer : P) (answer : Answer) : Moved E peers s (s.reply peer answer) := by
  unfold reply
  split
  · rename_i l r rest serial hpc
    split
    · exact .failed peer ⟨by rw [hpc]; rfl, by simp [hpc], by simp [hpc]⟩
    · exact .rotated peer l r rest serial hpc
    · rename_i result hne
      exact .replied peer l r rest serial result hpc fun h => hne (by rw [h])
  · exact .stay

theorem moved_proceed (peer : P) (late : Bool) : Moved E peers s (s.proceed peer late) := by
  unfold proceed
  split
  · rename_i l r rest result hpc
    dsimp only
    have hforced :
      (if result = .rejected then s.reject peer else s).forceResetPeers = s.forceResetPeers := by
      split <;> rfl
    generalize hcounted : (if result = .rejected then s.reject peer else s) = counted at hforced ⊢
    by_cases hquota : result = .rejected ∧ (!counted.underQuota peer) = true
    · rw [if_pos hquota]
      exact .proceeded peer l r rest result hpc counted hcounted.symm _ (fun _ _ => rfl)
        (Or.inl rfl)
    · rw [if_neg hquota]
      have hunder : ∀ pc : Pc, result = .rejected → counted.underQuota peer = false → pc = .idle :=
        fun pc hresult hunder => absurd ⟨hresult, by rw [hunder]; rfl⟩ hquota
      split
      · exact .proceeded peer l r rest result hpc counted hcounted.symm _ (fun _ _ => rfl)
          (Or.inl rfl)
      · split
        · rename_i hmem
          rw [hforced] at hmem
          exact .proceeded peer l r rest result hpc counted hcounted.symm _ (hunder _)
            (Or.inr (Or.inl ⟨hmem, rfl⟩))
        · exact .proceeded peer l r rest result hpc counted hcounted.symm _ (hunder _)
            (Or.inr (Or.inr rfl))
  · exact .stay

theorem moved_finish (peer : P) (late : Bool) : Moved E peers s (s.finish peer late) := by
  unfold finish
  split
  · rename_i l hpc
    split
    · rename_i hforced
      exact .forcedReset peer l hpc hforced
    · rename_i hfree
      split
      · exact .failed peer ⟨by rw [hpc]; rfl, by simp [hpc], by simp [hpc]⟩
      · refine .committed peer l hpc hfree _ ?_
        split
        · exact Or.inr rfl
        · exact Or.inl rfl
  · exact .stay

theorem moved_gather : Moved E peers s (s.gather peers) := by
  unfold gather
  split
  · rename_i hphase
    split
    · rename_i hdone
      exact .gathered hphase hdone.2
    · exact .stay
  · exact .stay

theorem moved_retry (now : Nat) (answer : Answer) : Moved E peers s (s.retry now answer) := by
  unfold retry
  split
  · rename_i hphase
    have hne : s.phase ≠ .syncing := by simp [hphase]
    split
    · exact .passed _ hne (by simp)
    · exact .passed _ hne (by simp)
  · rename_i pass count eventId rest hphase
    have hne : s.phase ≠ .syncing := by simp [hphase]
    split
    · exact .passed _ hne (by simp)
    · rename_i d hget
      split
      · exact .expired eventId d _ hne (by simp) hget
      · rename_i hlive
        split
        · exact .passed _ hne (by simp)
        · split
          · exact .passed _ hne (by simp)
          · rename_i first others heligible
            obtain ⟨peer, hpeer, hquota, hretry⟩ := retrying heligible eventId now answer
            exact .retried eventId d _ hne (by simp) hget (Nat.lt_of_not_le fun hle =>
              hlive (Or.inr hle)) peer hpeer
              hquota _ hretry
  · exact .stay

theorem moved (E : Crypto) (peers : Peers P) (s : Sync P) (i : Input P) :
    Moved E peers s (s.step E peers i) := by
  cases i with
  | syncAll =>
    show Moved E peers s s.syncAll
    cases hphase : s.phase with
    | idle => exact .started hphase
    | syncing =>
      rw [syncAll, hphase]
      exact .stay
    | retrying pass applied rest =>
      rw [syncAll, hphase]
      exact .stay
  | begin due => exact moved_begin due
  | respond peer body => exact moved_respond peer body
  | record peer late now => exact moved_record peer late now
  | resolve application answer => exact moved_resolve application answer
  | resume peer now => exact moved_resume peer now
  | reply peer answer => exact moved_reply peer answer
  | proceed peer late => exact moved_proceed peer late
  | finish peer late => exact moved_finish peer late
  | gather => exact moved_gather
  | retry now answer => exact moved_retry now answer

end Sync

end QuantaSwap.Feed.PeerSync
