import QuantaSwap.Feed.Deferral

/-!
# Whose events the callback gets

The callback is only ever asked in the name of a peer that has itself sent the event, so that a
rejection never falls on a peer for what another one sent alone.
-/

set_option autoImplicit false

namespace QuantaSwap.Feed.PeerSync

open Lib Lib.Js Lib.Run QuantaSwap.Book

variable {P : Type*}

/-! ## Applications and who waits for them -/

/-- There is an application of this number, and it is for this event. -/
def Open (promises : List (EventApplication P)) (k : Nat) (id : EventId) : Prop :=
  ∃ promise, promises[k]? = some promise ∧ promise.eventId = id

theorem Open.append {promises : List (EventApplication P)} {k : Nat} {id : EventId}
    (h : Open promises k id)
    (promise : EventApplication P) : Open (promises ++ [promise]) k id := by
  obtain ⟨found, hfound, hid⟩ := h
  have hlt : k < promises.length := (List.getElem?_eq_some_iff.mp hfound).1
  exact ⟨found, by rw [List.getElem?_append_left hlt, hfound], hid⟩

theorem Open.set {promises : List (EventApplication P)} {j k : Nat} {id id' : EventId} {peer : P}
    {answer answer' : Option Answer} (h : Open promises j id')
    (hk : promises[k]? = some ⟨peer, id, answer⟩) :
    Open (promises.set k ⟨peer, id, answer'⟩) j id' := by
  obtain ⟨found, hfound, hid⟩ := h
  have hlt : k < promises.length := (List.getElem?_eq_some_iff.mp hk).1
  by_cases heq : k = j
  · subst heq
    rw [hk] at hfound
    cases hfound
    exact ⟨⟨peer, id, answer'⟩, List.getElem?_set_self hlt, hid⟩
  · exact ⟨found, by rw [List.getElem?_set_ne heq, hfound], hid⟩

/-- How the parts of the state refer to each other. -/
structure Linked (peers : Peers P) (phase : Phase) (pc : P → Pc) (applications : Keyed EventId Nat)
    (promises : List (EventApplication P)) : Prop where
  quiet : phase = .syncing ∨ ∀ p, pc p = .idle
  listed : ∀ p, pc p ≠ .idle → p ∈ peers.urls
  applications : ∀ id k, applications.get id = some k → Open promises k id
  awaiting : ∀ p l r rest k, pc p = .applying l r rest (.awaiting k) → Open promises k r.eventId

variable {peers : Peers P}

/-- The links of a state. -/
abbrev Sync.Linked (peers : Peers P) (s : Sync P) : Prop :=
  PeerSync.Linked peers s.phase s.pc s.applications s.promises

namespace Linked

variable {phase : Phase} {pc : P → Pc} {applications : Keyed EventId Nat}
  {promises : List (EventApplication P)}
  {peer : P}

theorem under_way (h : Linked peers phase pc applications promises)
    (hactive : (pc peer).active = true) :
    phase = .syncing ∧ peer ∈ peers.urls := by
  have hne : pc peer ≠ .idle := by
    intro hidle
    rw [hidle] at hactive
    cases hactive
  exact ⟨h.quiet.resolve_right fun hidle => hne (hidle peer), h.listed peer hne⟩

variable [DecidableEq P]

theorem goto (h : Linked peers phase pc applications promises) (hphase : phase = .syncing)
    (hlisted : peer ∈ peers.urls)
    {next : Pc} (hnext : ∀ l r rest k, next = .applying l r rest (.awaiting k) →
      Open promises k r.eventId) :
    Linked peers phase (Function.update pc peer next) applications promises where
  quiet := Or.inl hphase
  listed p hp := by
    by_cases heq : p = peer
    · rw [heq]
      exact hlisted
    · rw [Function.update_of_ne heq] at hp
      exact h.listed p hp
  applications := h.applications
  awaiting p l r rest k hp := by
    by_cases heq : p = peer
    · subst heq
      rw [Function.update_self] at hp
      exact hnext l r rest k hp
    · rw [Function.update_of_ne heq] at hp
      exact h.awaiting p l r rest k hp

theorem onward (h : Linked peers phase pc applications promises) (hactive : (pc peer).active = true)
    {next : Pc}
    (hnext : ∀ l r rest k, next ≠ .applying l r rest (.awaiting k)) :
    Linked peers phase (Function.update pc peer next) applications promises := by
  obtain ⟨hphase, hlisted⟩ := h.under_way hactive
  exact h.goto hphase hlisted fun l r rest k heq => absurd heq (hnext l r rest k)

variable {s s' : Sync P}

omit [DecidableEq P] in
theorem frame (h : s.Linked peers) (hframe : Sync.Frame s s') : s'.Linked peers := by
  unfold Sync.Linked
  rw [hframe.phase, hframe.pc, hframe.applications, hframe.promises]
  exact h

omit [DecidableEq P] in
theorem forget (h : s.Linked peers) (id : EventId) (k : Nat) : (s.forget id k).Linked peers where
  quiet := h.quiet
  listed := h.listed
  applications id' k' hget := by
    unfold Sync.forget at hget
    dsimp only at hget
    split at hget
    · rw [Keyed.get_erase] at hget
      split at hget
      · cases hget
      · exact h.applications id' k' hget
    · exact h.applications id' k' hget
  awaiting := h.awaiting

theorem applied (h : s.Linked peers) {r : FederationRecord} {at_ : Applying}
    (happlied : Sync.Applied s r peer s' at_) :
    s'.Linked peers ∧ s'.pc = s.pc ∧ ∀ k, at_ = .awaiting k → Open s'.promises k r.eventId := by
  cases happlied with
  | forced => exact ⟨h, rfl, fun _ hk => by cases hk⟩
  | known => exact ⟨h, rfl, fun _ hk => by cases hk⟩
  | asked d next hget hnew hdefer => exact ⟨(h.frame hdefer.frame :), hdefer.frame.pc,
    fun _ hk => by cases hk⟩
  | joined k hget =>
    refine ⟨h, rfl, fun j hj => ?_⟩
    cases hj
    exact h.applications _ _ hget
  | applied hget =>
    have hlast : Open (s.promises ++ [⟨peer, r.eventId, none⟩]) s.promises.length r.eventId :=
      ⟨⟨peer, r.eventId, none⟩, by simp, rfl⟩
    refine ⟨⟨h.quiet, h.listed, fun id k hk => ?_, fun p l r' rest k hp => ?_⟩, rfl, fun k hk => ?_⟩
    · rw [show (s.application r peer).applications.get id = _ from Keyed.get_set] at hk
      split at hk
      · rename_i heq
        cases hk
        rw [heq]
        exact hlast
      · exact (h.applications id k hk).append _
    · exact (h.awaiting p l r' rest k hp).append _
    · cases hk
      exact hlast

theorem applied_goto (h : s.Linked peers) (hactive : (s.pc peer).active = true) {l : Locals}
    {r : FederationRecord}
    {rest : List FederationRecord} {at_ : Applying} (happlied : Sync.Applied s r peer s' at_) :
    (s'.goto peer (.applying l r rest at_)).Linked peers := by
  obtain ⟨hlinked, hpc, hat⟩ := h.applied happlied
  obtain ⟨hphase, hlisted⟩ :=
    hlinked.under_way (show (s'.pc peer).active = true by rw [hpc]; exact hactive)
  refine hlinked.goto hphase hlisted fun _ _ _ k heq => ?_
  cases heq
  exact hat k rfl

theorem moved {E : Crypto} (h : s.Linked peers) (hmoved : Sync.Moved E peers s s') :
    s'.Linked peers := by
  have hactive : ∀ {p : P} {at_ : Pc}, s.pc p = at_ → at_.active = true →
    (s.pc p).active = true := by
    intro p at_ hpc hat
    rw [hpc]
    exact hat
  cases hmoved with
  | stay => exact h
  | started hphase =>
    have hidle : ∀ p, s.pc p = .idle := by
      refine h.quiet.resolve_left fun hsyncing => ?_
      rw [hsyncing] at hphase
      cases hphase
    unfold Sync.syncAll
    rw [hphase]
    refine ⟨Or.inl rfl, h.listed, fun id k hk => (by cases hk), fun p l r rest k hp => ?_⟩
    rw [show s.pc p = .idle from hidle p] at hp
    cases hp
  | skipped peer hphase hurl => exact h
  | begun peer hphase hurl => exact h.goto hphase (List.mem_of_getElem? hurl) (by simp)
  | failed peer hleaves => exact h.onward hleaves.active (by simp)
  | received peer l seen hpc raw hparse hprogress hnew => exact h.onward (hactive hpc rfl) (by simp)
  | emptied peer l hpc => exact h.onward (hactive hpc rfl) (by simp)
  | applies peer l r rest next at_ hpc happlied => exact h.applied_goto (hactive hpc rfl) happlied
  | resolved k peer id answer hpromise =>
    exact ⟨h.quiet, h.listed, fun id' j hj => (h.applications id' j hj).set hpromise,
      fun p l r rest j hj => (h.awaiting p l r rest j hj).set hpromise⟩
  | returned peer l r rest k promise result hpc hpromise hresult hne =>
    exact h.onward (hactive hpc rfl) (by simp)
  | deferredOwn peer l r rest k promise hpc hpromise hresult happlier kept hdefer =>
    have hkept := (h.forget r.eventId k).frame hdefer.frame
    exact hkept.onward (by rw [hdefer.frame.pc]; exact hactive hpc rfl) (by simp)
  | deferredOther peer l r rest k promise hpc hpromise hresult happlier kept hdefer next at_
    happlied =>
    have hkept := (h.forget r.eventId k).frame hdefer.frame
    exact hkept.applied_goto (by rw [hdefer.frame.pc]; exact hactive hpc rfl) happlied
  | rotated peer l r rest serial hpc => exact h.onward (hactive hpc rfl) (by simp)
  | replied peer l r rest serial result hpc hne => exact h.onward (hactive hpc rfl) (by simp)
  | proceeded peer l r rest result hpc counted hcounted pc hquota hnext =>
    have hpc' : ∀ l' r' rest' k, pc ≠ .applying l' r' rest' (.awaiting k) := by
      intro l' r' rest' k
      rcases hnext with rfl | ⟨-, rfl⟩ | rfl <;> simp
    rw [hcounted]
    split
    · exact h.onward (hactive hpc rfl) hpc'
    · exact h.onward (hactive hpc rfl) hpc'
  | forcedReset peer l hpc hforced => exact h.onward (hactive hpc rfl) (by simp)
  | committed peer l hpc hfree pc hnext =>
    refine h.onward (hactive hpc rfl) fun l' r' rest' k => ?_
    rcases hnext with rfl | rfl <;> simp
  -- Only listed peers have workers, and all of them are done.
  | gathered hphase hdone =>
    refine ⟨Or.inr fun p => ?_, h.listed, h.applications, h.awaiting⟩
    by_contra hne
    have hidle := hdone p (h.listed p hne)
    unfold Pc.active at hidle
    split at hidle
    · exact hne (by assumption)
    · cases hidle
  | passed phase hphase hnext => exact ⟨Or.inr (h.quiet.resolve_left hphase), h.listed,
    h.applications, h.awaiting⟩
  | expired id d phase hphase hnext hget =>
    exact ⟨Or.inr (h.quiet.resolve_left hphase), h.listed, h.applications, h.awaiting⟩
  | retried id d phase hphase hnext hget hattempts peer hpeer hquota next hretry =>
    have hidle := h.quiet.resolve_left hphase
    cases hretry <;> exact ⟨Or.inr hidle, h.listed, h.applications, h.awaiting⟩

end Linked

/-! ## The records of a page -/

section Page

variable {E : Crypto} {raw : Json} {page : FederationPage}

theorem parseRecords_hashed {k : Nat} {seen : List EventId} {entries : List Json}
    {records : List FederationRecord}
    (h : parseRecords E k seen entries = some records) :
    ∀ r ∈ records, federationEventId E r.event = some r.eventId := by
  induction entries generalizing seen records with
  | nil =>
    rw [parseRecords, Option.some.injEq] at h
    subst h
    intro r hr
    cases hr
  | cons entry entries ih =>
    rw [parseRecords] at h
    obtain ⟨r, hr, h⟩ := Option.bind_eq_some_iff.mp h
    obtain ⟨rs, hrs, h⟩ := Option.bind_eq_some_iff.mp h
    rw [Option.pure_def, Option.some.injEq] at h
    subst h
    intro x hx
    rcases List.mem_cons.mp hx with rfl | hx
    · exact (parseRecord_eq_some hr).2.2
    · exact ih hrs x hx

theorem parseSnapshot_hashed {found : Option Json} {snapshot : Option (List FederationRecord)}
    (h : parseSnapshot E found = some snapshot) :
    ∀ r ∈ snapshot.getD [], federationEventId E r.event = some r.eventId := by
  unfold parseSnapshot at h
  split at h
  · cases h
    intro r hr
    cases hr
  · obtain ⟨entries, -, h⟩ := Option.bind_eq_some_iff.mp h
    split at h
    · cases h
    · obtain ⟨records, hrecords, rfl⟩ := Option.map_eq_some_iff.mp h
      exact parseRecords_hashed hrecords

theorem parseFederationPage_hashed (h : parseFederationPage E raw = some page) :
    ∀ r ∈ pageRecords page, federationEventId E r.event = some r.eventId := by
  unfold parseFederationPage at h
  split at h
  · obtain ⟨reset, -, h⟩ := Option.bind_eq_some_iff.mp h
    simp only [Option.ite_none_left_eq_some] at h
    obtain ⟨-, -, h⟩ := h
    obtain ⟨cursor, -, h⟩ := Option.bind_eq_some_iff.mp h
    obtain ⟨parsed, -, h⟩ := Option.bind_eq_some_iff.mp h
    obtain ⟨hasMore, -, h⟩ := Option.bind_eq_some_iff.mp h
    obtain ⟨entries, -, h⟩ := Option.bind_eq_some_iff.mp h
    simp only [Option.ite_none_left_eq_some] at h
    obtain ⟨-, -, -, -, h⟩ := h
    obtain ⟨events, hevents, h⟩ := Option.bind_eq_some_iff.mp h
    obtain ⟨snapshot, hsnapshot, h⟩ := Option.bind_eq_some_iff.mp h
    simp only [Option.ite_none_right_eq_some, Option.some.injEq] at h
    obtain ⟨-, rfl⟩ := h
    unfold pageRecords
    split
    · exact parseSnapshot_hashed hsnapshot
    · exact parseRecords_hashed hevents
  · cases h

end Page

/-! ## What a peer has sent -/

/-- The records that the sync of a peer still has to go through. -/
def Pc.pending : Pc → List FederationRecord
  | .records _ rest => rest
  | .applying _ record rest _ => record :: rest
  | _ => []

/-- A peer has sent an event of this id. -/
def Sent (served : P → List FederationRecord) (peer : P) (id : EventId) : Prop :=
  ∃ r ∈ served peer, r.eventId = id

/-- Everything that is done in the name of a peer is about an event that it has sent. -/
structure Attributed (E : Crypto) (h : History P) (deferred : Keyed EventId (Deferred P))
    (promises : List (EventApplication P)) (pc : P → Pc) : Prop where
  served : ∀ p, ∀ r ∈ h.served p, federationEventId E r.event = some r.eventId
  entries : ∀ id d, deferred.get id = some d →
    federationEventId E d.event = some id ∧ ∀ p ∈ d.sources, Sent h.served p id
  promises : ∀ promise ∈ promises, Sent h.served promise.peer promise.eventId
  calls : ∀ call ∈ h.calls, federationEventId E call.event = some call.eventId ∧
    Sent h.served call.peer call.eventId
  pending : ∀ p, ∀ r ∈ (pc p).pending, r ∈ h.served p

abbrev Sync.Attributed (E : Crypto) (s : Sync P) : Prop :=
  PeerSync.Attributed E s.history s.deferred s.promises s.pc

namespace Attributed

variable [DecidableEq P] {E : Crypto} {h : History P} {deferred : Keyed EventId (Deferred P)}
  {promises : List (EventApplication P)} {pc : P → Pc} {peer : P} {s s' : Sync P}
    {r : FederationRecord}

@[simp] theorem served_answered (id : EventId) (answer : Answer) :
    (h.answered id peer answer).served = h.served := by
  unfold History.answered
  split <;> rfl

@[simp] theorem calls_answered (id : EventId) (answer : Answer) :
    (h.answered id peer answer).calls = h.calls := by
  unfold History.answered
  split <;> rfl

theorem answered (ha : Attributed E h deferred promises pc) (id : EventId) (peer : P)
    (answer : Answer) :
    Attributed E (h.answered id peer answer) deferred promises pc := by
  refine ⟨?_, ?_, ?_, ?_, ?_⟩
  · simpa using ha.served
  · simpa using ha.entries
  · simpa using ha.promises
  · simpa using ha.calls
  · simpa using ha.pending

omit [DecidableEq P] in
theorem called (ha : Attributed E h deferred promises pc) (call : Call P)
    (hcall : federationEventId E call.event = some call.eventId ∧
      Sent h.served call.peer call.eventId) :
    Attributed E (h.called call) deferred promises pc where
  served := ha.served
  entries := ha.entries
  promises := ha.promises
  calls c hc := by
    rcases List.mem_cons.mp hc with rfl | hc
    · exact hcall
    · exact ha.calls c hc
  pending := ha.pending

theorem received (ha : Attributed E h deferred promises pc) {records : List FederationRecord}
    (hhash : ∀ r ∈ records, federationEventId E r.event = some r.eventId) :
    Attributed E (h.received peer records) deferred promises pc := by
  have hmem : ∀ p r, r ∈ (h.received peer records).served p ↔ p = peer ∧ r ∈ records ∨
    r ∈ h.served p := by
    intro p r
    unfold History.received
    dsimp only
    by_cases heq : p = peer
    · subst heq
      simp
    · simp [heq]
  have hsent : ∀ p id, Sent h.served p id → Sent (h.received peer records).served p id := by
    rintro p id ⟨r, hr, hid⟩
    exact ⟨r, (hmem p r).mpr (Or.inr hr), hid⟩
  refine ⟨fun p r hr => ?_, fun id d hd => ?_, fun promise hpromise => ?_, fun call hcall => ?_,
    fun p r hr => ?_⟩
  · rcases (hmem p r).mp hr with ⟨-, hr⟩ | hr
    · exact hhash r hr
    · exact ha.served p r hr
  · obtain ⟨hd, hsources⟩ := ha.entries id d hd
    exact ⟨hd, fun p hp => hsent p id (hsources p hp)⟩
  · exact hsent _ _ (ha.promises promise hpromise)
  · obtain ⟨hcall, hsources⟩ := ha.calls call hcall
    exact ⟨hcall, hsent _ _ hsources⟩
  · exact (hmem p r).mpr (Or.inr (ha.pending p r hr))

theorem committed (ha : Attributed E h deferred promises pc) (peer : P) (page : FederationPage) :
    Attributed E (h.committed peer page) deferred promises pc :=
  ⟨ha.served, ha.entries, ha.promises, ha.calls, ha.pending⟩

theorem goto (ha : Attributed E h deferred promises pc) {next : Pc}
    (hnext : ∀ r ∈ next.pending, r ∈ h.served peer) :
    Attributed E h deferred promises (Function.update pc peer next) where
  served := ha.served
  entries := ha.entries
  promises := ha.promises
  calls := ha.calls
  pending p r hr := by
    by_cases heq : p = peer
    · subst heq
      rw [Function.update_self] at hr
      exact hnext r hr
    · rw [Function.update_of_ne heq] at hr
      exact ha.pending p r hr

omit [DecidableEq P] in
theorem erase (ha : Attributed E h deferred promises pc) (id : EventId) :
    Attributed E h (deferred.erase id) promises pc where
  served := ha.served
  entries id' d hd := by
    rw [Keyed.get_erase] at hd
    split at hd
    · cases hd
    · exact ha.entries id' d hd
  promises := ha.promises
  calls := ha.calls
  pending := ha.pending

omit [DecidableEq P] in
theorem set (ha : Attributed E h deferred promises pc) {id : EventId} {d : Deferred P}
    (hd : federationEventId E d.event = some id ∧ ∀ p ∈ d.sources, Sent h.served p id) :
    Attributed E h (deferred.set id d) promises pc where
  served := ha.served
  entries id' d' hget := by
    rw [Keyed.get_set] at hget
    split at hget
    · rename_i heq
      cases hget
      rw [heq]
      exact hd
    · exact ha.entries id' d' hget
  promises := ha.promises
  calls := ha.calls
  pending := ha.pending

theorem without (ha : Attributed E h deferred promises pc) (peer : P) :
    Attributed E h (deferred.filterMap (Deferred.without peer)) promises pc where
  served := ha.served
  entries id d hget := by
    rw [Keyed.get_filterMap, Option.bind_eq_some_iff] at hget
    obtain ⟨d', hd', hwithout⟩ := hget
    obtain ⟨hsources, -, hevent, -⟩ := without_eq_some hwithout
    obtain ⟨hhash, hsent⟩ := ha.entries id d' hd'
    refine ⟨by rw [hevent]; exact hhash, fun p hp => hsent p ?_⟩
    rw [hsources] at hp
    exact List.mem_of_mem_filter hp
  promises := ha.promises
  calls := ha.calls
  pending := ha.pending

theorem deferring (ha : s.Attributed E) (hhash : federationEventId E r.event = some r.eventId)
    (hsent : Sent s.history.served peer r.eventId) (hdefer : Sync.Deferring s r peer s') :
    s'.Attributed E := by
  cases hdefer with
  | reset => exact ha.without peer
  | source d hget hroom =>
    obtain ⟨hd, hsources⟩ := ha.entries _ d hget
    refine ha.set ⟨hd, fun p hp => ?_⟩
    rcases mem_addSource.mp hp with hp | rfl
    · exact hsources p hp
    · exact hsent
  | entry d hget hroom hsize hevent hpeer hsources hattempts =>
    refine ha.set ⟨by rw [hevent]; exact hhash, fun p hp => ?_⟩
    rw [hsources, List.mem_singleton] at hp
    rw [hp]
    exact hsent

theorem applied (ha : s.Attributed E) (hr : r ∈ s.history.served peer) {at_ : Applying}
    (happlied : Sync.Applied s r peer s' at_) : s'.Attributed E := by
  have hhash := ha.served peer r hr
  have hsent : Sent s.history.served peer r.eventId := ⟨r, hr, rfl⟩
  cases happlied with
  | forced => exact ha
  | known => exact ha
  | asked d next hget hnew hdefer =>
    refine (ha.deferring hhash hsent hdefer).called ⟨r.eventId, r.event, peer⟩ ⟨hhash, ?_⟩
    rw [hdefer.frame.history]
    exact hsent
  | joined => exact ha
  | applied hget =>
    have hcalled := ha.called ⟨r.eventId, r.event, peer⟩ ⟨hhash, hsent⟩
    refine ⟨hcalled.served, hcalled.entries, fun promise hpromise => ?_, hcalled.calls,
      hcalled.pending⟩
    rcases List.mem_append.mp hpromise with hmem | hmem
    · exact hcalled.promises promise hmem
    · rw [List.mem_singleton.mp hmem]
      exact hsent

theorem Applied_history {at_ : Applying} (happlied : Sync.Applied s r peer s' at_) :
    s'.history.served = s.history.served := by
  cases happlied with
  | asked d next hget hnew hdefer =>
    show next.history.served = _
    rw [hdefer.frame.history]
  | _ => rfl

theorem moved (ha : s.Attributed E) (hl : s.Linked peers) (hmoved : Sync.Moved E peers s s') :
    s'.Attributed E := by
  have hpending :
    ∀ {p : P} {at_ : Pc}, s.pc p = at_ → ∀ r ∈ at_.pending, r ∈ s.history.served p := by
    rintro p at_ rfl
    exact ha.pending p
  cases hmoved with
  | stay => exact ha
  | started hphase =>
    unfold Sync.syncAll
    rw [hphase]
    exact ⟨ha.served, ha.entries, fun promise hpromise => (by cases hpromise), ha.calls, ha.pending⟩
  | skipped peer hphase hurl => exact ha
  | begun peer hphase hurl => exact ha.goto fun r hr => by cases hr
  | failed peer hleaves => exact ha.goto fun r hr => by cases hr
  | received peer l seen hpc raw hparse hprogress hnew =>
    refine (ha.received (parseFederationPage_hashed hparse)).goto fun r hr => ?_
    unfold History.received
    dsimp only
    rw [Function.update_self]
    exact List.mem_append_left _ hr
  | emptied peer l hpc => exact ha.goto fun r hr => by cases hr
  | applies peer l r rest next at_ hpc happlied =>
    have hr : r ∈ s.history.served peer := hpending hpc r List.mem_cons_self
    refine (ha.applied hr happlied).goto fun r' hr' => ?_
    rw [Applied_history happlied]
    exact hpending hpc r' hr'
  | resolved k peer id answer hpromise =>
    refine Attributed.answered ⟨ha.served, ha.entries, fun promise hmem => ?_, ha.calls,
      ha.pending⟩ id peer answer
    rcases List.mem_or_eq_of_mem_set hmem with hmem | rfl
    · exact ha.promises promise hmem
    · exact ha.promises ⟨peer, id, none⟩ (List.mem_of_getElem? hpromise)
  | returned peer l r rest k promise result hpc hpromise hresult hne =>
    exact ha.goto fun r' hr' => hpending hpc r' hr'
  | deferredOwn peer l r rest k promise hpc hpromise hresult happlier kept hdefer =>
    have hr : r ∈ s.history.served peer := hpending hpc r List.mem_cons_self
    have hkept :=
      Attributed.deferring (s := s.forget r.eventId k) ha (ha.served peer r hr) ⟨r, hr, rfl⟩ hdefer
    refine hkept.goto fun r' hr' => ?_
    rw [hdefer.frame.history]
    exact hpending hpc r' hr'
  | deferredOther peer l r rest k promise hpc hpromise hresult happlier kept hdefer next at_
    happlied =>
    have hr : r ∈ s.history.served peer := hpending hpc r List.mem_cons_self
    obtain ⟨promise', hpromise', hid⟩ := hl.awaiting peer l r rest k hpc
    rw [hpromise] at hpromise'
    cases hpromise'
    have hsent : Sent s.history.served promise.peer r.eventId := by
      rw [← hid]
      exact ha.promises promise (List.mem_of_getElem? hpromise)
    have hkept :=
      Attributed.deferring (s := s.forget r.eventId k) ha (ha.served peer r hr) hsent hdefer
    have hserved : kept.history.served = s.history.served := by rw [hdefer.frame.history]; rfl
    refine (hkept.applied (by rw [hserved]; exact hr) happlied).goto fun r' hr' => ?_
    rw [Applied_history happlied, hserved]
    exact hpending hpc r' hr'
  | rotated peer l r rest serial hpc =>
    refine Attributed.goto (?_ : Attributed E _ (s.rotate r.eventId serial peer).deferred _ _)
      fun r' hr' => hpending hpc r' hr'
    unfold Sync.rotate
    dsimp only
    split
    · rename_i d hget
      split
      · exact ha.set (ha.entries _ d hget)
      · exact ha
    · exact ha
  | replied peer l r rest serial result hpc hne =>
    refine ((ha.erase r.eventId).answered r.eventId peer (.result result)).goto fun r' hr' => ?_
    rw [served_answered]
    exact hpending hpc r' hr'
  | proceeded peer l r rest result hpc counted hcounted pc hquota hnext =>
    have hnext' : ∀ r' ∈ pc.pending, r' ∈ s.history.served peer := by
      intro r' hr'
      rcases hnext with rfl | ⟨-, rfl⟩ | rfl
      · cases hr'
      · cases hr'
      · exact hpending hpc r' (List.mem_cons_of_mem _ hr')
    rw [hcounted]
    split
    · exact ha.goto hnext'
    · exact ha.goto hnext'
  | forcedReset peer l hpc hforced => exact ha.goto fun r hr => by cases hr
  | committed peer l hpc hfree pc hnext =>
    refine (ha.committed peer l.page).goto fun r hr => ?_
    rcases hnext with rfl | rfl <;> cases hr
  | gathered hphase hdone => exact ha
  | passed phase hphase hnext => exact ha
  | expired id d phase hphase hnext hget => exact ha.erase id
  | retried id d phase hphase hnext hget hattempts peer hpeer hquota next hretry =>
    obtain ⟨hhash, hsources⟩ := ha.entries id d hget
    have hcalled := ha.called ⟨id, d.event, peer⟩ ⟨hhash, hsources peer hpeer⟩
    cases hretry with
    | kept d' hevent hsources' hpeer' hattempts' =>
      refine hcalled.set ⟨by rw [hevent]; exact hhash, fun p hp => ?_⟩
      rw [hsources'] at hp
      exact hsources p hp
    | applied => exact (hcalled.answered id peer (.result .applied)).erase id
    | rejected => exact (hcalled.answered id peer (.result .rejected)).erase id

end Attributed

/-! ## Runs -/

variable [DecidableEq P]

omit [DecidableEq P] in
theorem linked_start (peers : Peers P) : ({} : Sync P).Linked peers where
  quiet := Or.inr fun _ => rfl
  listed p hp := absurd rfl hp
  applications id k hk := by cases hk
  awaiting p l r rest k hp := by cases hp

omit [DecidableEq P] in
theorem attributed_start (E : Crypto) : ({} : Sync P).Attributed E where
  served p r hr := by cases hr
  entries id d hd := by cases hd
  promises promise hpromise := by cases hpromise
  calls call hcall := by cases hcall
  pending p r hr := by cases hr

/-- What every step keeps while the calls in flight are linked, every run keeps. -/
theorem run_of_moved (E : Crypto) (peers : Peers P) {I : Sync P → Prop} (hstart : I {})
    (hmoved : ∀ s s' : Sync P, s.Linked peers → I s → s.Moved E peers s' → I s')
    (is : List (Input P)) :
    I (run (Sync.step E peers) {} is) := by
  have hkept : Sync.Linked peers (run (Sync.step E peers) {} is) ∧
    I (run (Sync.step E peers) {} is) :=
    invariant (I := fun s => Sync.Linked peers s ∧ I s)
      (fun s i h =>
        have hstep := Sync.moved E peers s i
        ⟨h.1.moved hstep, hmoved s _ h.1 h.2 hstep⟩)
      ⟨linked_start peers, hstart⟩ is
  exact hkept.2

/-- Every call of the callback is for the event that the id stands for, and in the name of a peer
that has sent this event itself. So are the sources of an event that waits. -/
theorem run_attributed (E : Crypto) (peers : Peers P) (is : List (Input P)) :
    (∀ call ∈ (run (Sync.step E peers) {} is).history.calls, federationEventId E call.event =
      some call.eventId ∧
      ∃ r ∈ (run (Sync.step E peers) {} is).history.served call.peer, r.eventId = call.eventId) ∧
    ∀ id d, (run (Sync.step E peers) {} is).deferred.get id = some d →
    federationEventId E d.event = some id ∧
      ∀ peer ∈ d.sources, ∃ r ∈ (run (Sync.step E peers) {} is).history.served peer,
        r.eventId = id := by
  have h : (run (Sync.step E peers) {} is).Attributed E :=
    run_of_moved E peers (attributed_start E) (fun _ _ hl ha hmoved => ha.moved hl hmoved) is
  exact ⟨h.calls, h.entries⟩

end QuantaSwap.Feed.PeerSync
