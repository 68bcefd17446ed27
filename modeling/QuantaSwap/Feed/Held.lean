import QuantaSwap.Feed.Honest
import QuantaSwap.Feed.Supplied

/-!
# No event of a peer is lost

A cursor says up to where the node has a peer's feed. Every event before it, from the snapshot of
the last reset on, has been applied or rejected by the callback or waits for its retry with this
peer among its sources. A peer whose events could not be held loses its cursor instead.
-/

set_option autoImplicit false

namespace QuantaSwap.Feed.PeerSync

open Lib Lib.Js Lib.Run QuantaSwap.Book

variable {P : Type*} {E : Crypto}

/-- The callback has settled the event, or it waits with the peer among its sources. -/
def Held (settled : List EventId) (deferred : Keyed EventId (Deferred P)) (peer : P)
    (id : EventId) : Prop :=
  id ∈ settled ∨ ∃ d, deferred.get id = some d ∧ peer ∈ d.sources

abbrev Sync.Held (s : Sync P) : P → EventId → Prop := PeerSync.Held s.history.settled s.deferred

/-- The pages from a reset on, each going on from the one before, up to the cursor. -/
structure Covers (E : Crypto) (pages : List FederationPage) (cursor : String) : Prop where
  accepted : Accepted E none pages (some cursor)
  reset : ∃ first rest, pages = first :: rest ∧ first.reset = true ∧ ∀ q ∈ rest, q.reset = false

/-- A page that the peer's sync goes through, behind the cursor that is kept. -/
structure Underway (E : Crypto) (cursor : Option String) (l : Locals) : Prop where
  cursor : cursor = l.requestedCursor
  parsed : ∃ raw, parseFederationPage E raw = some l.page
  progress : validateFederationPageProgress l.requestedCursor l.page = true

theorem Underway.covers {cursor : Option String} {l : Locals} (h : Underway E cursor l)
    {pages : List FederationPage}
    (hpages : ∀ c, cursor = some c → Covers E pages c) :
    Covers E (if l.page.reset then [l.page] else pages ++ [l.page]) l.page.cursor := by
  obtain ⟨raw, hparse⟩ := h.parsed
  cases hreset : l.page.reset with
  | true =>
    refine ⟨Accepted.page .start raw l.page hparse ?_,
      ⟨l.page, [], rfl, hreset, fun q hq => by cases hq⟩⟩
    rw [validateFederationPageProgress, hreset, Bool.true_or]
  | false =>
    obtain ⟨id, n, m, hrequested, -⟩ :=
      follows_of_accepted (parseFederationPage_eq_some hparse) h.progress hreset
    rw [← h.cursor] at hrequested
    have hcovers := hpages _ hrequested
    obtain ⟨first, rest, rfl, hfirst, hrest⟩ := hcovers.reset
    refine ⟨Accepted.page (hrequested ▸ hcovers.accepted) raw l.page hparse ?_,
      ⟨first, rest ++ [l.page], rfl, hfirst, fun q hq => ?_⟩⟩
    · rw [h.cursor]
      exact h.progress
    · rcases List.mem_append.mp hq with hq | hq
      · exact hrest q hq
      · rw [List.mem_singleton.mp hq]
        exact hreset

/-- Where the sync of a peer that need not start over stands. -/
def Progress (E : Crypto) (cursor : Option String) (held : EventId → Prop) : Pc → Prop
  | .idle => True
  | .fetching _ requested _ => cursor = requested
  | .records l rest => Underway E cursor l ∧ ∃ done, done ++ rest = pageRecords l.page ∧
    ∀ r ∈ done, held r.eventId
  | .applying l record rest at_ =>
    Underway E cursor l ∧
      (∃ done, done ++ record :: rest = pageRecords l.page ∧ ∀ r ∈ done, held r.eventId) ∧
      ((∃ k, at_ = .awaiting k) ∨ held record.eventId)
  | .finishing l => Underway E cursor l ∧ ∀ r ∈ pageRecords l.page, held r.eventId

theorem Progress.mono {cursor : Option String} {held held' : EventId → Prop}
    (hle : ∀ id, held id → held' id) {pc : Pc}
    (h : Progress E cursor held pc) : Progress E cursor held' pc := by
  cases pc with
  | idle => trivial
  | fetching => exact h
  | records l rest =>
    obtain ⟨hunder, done, hdone, hheld⟩ := h
    exact ⟨hunder, done, hdone, fun r hr => hle _ (hheld r hr)⟩
  | applying l record rest at_ =>
    obtain ⟨hunder, ⟨done, hdone, hheld⟩, hat⟩ := h
    exact ⟨hunder, ⟨done, hdone, fun r hr => hle _ (hheld r hr)⟩, hat.imp (fun h => h) (hle _)⟩
  | finishing l => exact ⟨h.1, fun r hr => hle _ (h.2 r hr)⟩

/-! ## What the workers do between the pages -/

variable [DecidableEq P]

/-- A step that loses nothing, except for peers that have to start over. -/
structure Keeps (s s' : Sync P) : Prop where
  ledger : s'.history.ledger = s.history.ledger
  pc : s'.pc = s.pc
  settled : ∀ id ∈ s.history.settled, id ∈ s'.history.settled
  promises : ∀ promise ∈ s'.promises, promise ∈ s.promises ∨ promise.result = none
  forced : ∀ p ∈ s.forceResetPeers, p ∈ s'.forceResetPeers
  flagged : ∀ p ∈ s'.forceResetPeers, p ∈ s.forceResetPeers ∨ s'.cursors.get p = none
  cursors : ∀ p, s'.cursors.get p = s.cursors.get p ∨ p ∈ s'.forceResetPeers ∧
    s'.cursors.get p = none
  held : ∀ p id, p ∉ s'.forceResetPeers → s.Held p id → s'.Held p id

namespace Keeps

variable {s s' s'' : Sync P} {peer : P} {r : FederationRecord}

theorem refl (s : Sync P) : Keeps s s :=
  ⟨rfl, rfl, fun _ h => h, fun _ h => Or.inl h, fun _ h => h, fun _ h => Or.inl h,
    fun _ => Or.inl rfl, fun _ _ _ h => h⟩

theorem trans (h : Keeps s s') (h' : Keeps s' s'') : Keeps s s'' where
  ledger := h'.ledger.trans h.ledger
  pc := h'.pc.trans h.pc
  settled id hid := h'.settled id (h.settled id hid)
  promises promise hpromise := by
    rcases h'.promises promise hpromise with hold | hnew
    · exact h.promises promise hold
    · exact Or.inr hnew
  forced p hp := h'.forced p (h.forced p hp)
  flagged p hp := by
    rcases h'.flagged p hp with hp' | hnone
    · rcases h.flagged p hp' with hold | hnone
      · exact Or.inl hold
      · rcases h'.cursors p with heq | ⟨-, hnone'⟩
        · exact Or.inr (heq.trans hnone)
        · exact Or.inr hnone'
    · exact Or.inr hnone
  cursors p := by
    rcases h'.cursors p with heq' | hnone'
    · rcases h.cursors p with heq | ⟨hforced, hnone⟩
      · exact Or.inl (heq'.trans heq)
      · exact Or.inr ⟨h'.forced p hforced, heq'.trans hnone⟩
    · exact Or.inr hnone'
  held p id hp hheld :=
    h'.held p id hp (h.held p id (fun hforced => hp (h'.forced p hforced)) hheld)

theorem history (h : History P) (hledger : h.ledger = s.history.ledger)
    (hsettled : ∀ id ∈ s.history.settled, id ∈ h.settled) : Keeps s { s with history := h } where
  ledger := hledger
  pc := rfl
  settled := hsettled
  promises _ hp := Or.inl hp
  forced _ hp := hp
  flagged _ hp := Or.inl hp
  cursors _ := Or.inl rfl
  held _ id _ hheld := hheld.imp (hsettled id) fun h => h

theorem answered (s : Sync P) (id : EventId) (peer : P) (answer : Answer) :
    Keeps s (s.answered id peer answer) := by
  refine history _ ?_ fun id' hid => ?_
  · unfold History.answered
    split <;> rfl
  · unfold History.answered
    split
    · exact List.mem_cons_of_mem _ hid
    · exact List.mem_cons_of_mem _ hid
    · exact hid
    · exact hid

theorem deferred {m : Keyed EventId (Deferred P)} {n : Nat}
    (hheld : ∀ p id, s.Held p id → PeerSync.Held s.history.settled m p id) :
    Keeps s { s with deferred := m, created := n } where
  ledger := rfl
  pc := rfl
  settled _ h := h
  promises _ hp := Or.inl hp
  forced _ hp := hp
  flagged _ hp := Or.inl hp
  cursors _ := Or.inl rfl
  held p id _ := hheld p id

omit [DecidableEq P] in
theorem held_set {settled : List EventId} {m : Keyed EventId (Deferred P)} {id : EventId}
    {d' : Deferred P}
    (hsources : ∀ d, m.get id = some d → ∀ p ∈ d.sources, p ∈ d'.sources) {p : P} {id' : EventId}
    (h : PeerSync.Held settled m p id') : PeerSync.Held settled (m.set id d') p id' := by
  refine h.imp (fun h => h) ?_
  rintro ⟨d, hd, hp⟩
  by_cases heq : id' = id
  · subst heq
    exact ⟨d', by rw [Keyed.get_set, if_pos rfl], hsources d hd p hp⟩
  · exact ⟨d, by rw [Keyed.get_set, if_neg heq, hd], hp⟩

omit [DecidableEq P] in
theorem held_erase {settled : List EventId} {m : Keyed EventId (Deferred P)} {id : EventId}
    (hsettled : id ∈ settled)
    {p : P} {id' : EventId} (h : PeerSync.Held settled m p id') :
    PeerSync.Held settled (m.erase id) p id' := by
  by_cases heq : id' = id
  · rw [heq]
    exact Or.inl hsettled
  · refine h.imp (fun h => h) ?_
    rintro ⟨d, hd, hp⟩
    exact ⟨d, by rw [Keyed.get_erase, if_neg heq, hd], hp⟩

theorem reset (s : Sync P) (peer : P) : Keeps s (s.resetDeferredPeer peer) where
  ledger := rfl
  pc := rfl
  settled _ h := h
  promises _ hp := Or.inl hp
  forced p hp := Finset.mem_insert_of_mem hp
  flagged p hp := by
    rcases Finset.mem_insert.mp hp with rfl | hp
    · exact Or.inr (by simp [Sync.resetDeferredPeer])
    · exact Or.inl hp
  cursors p := by
    by_cases heq : p = peer
    · subst heq
      exact Or.inr ⟨Finset.mem_insert_self _ _, by simp [Sync.resetDeferredPeer]⟩
    · exact Or.inl (by simp [Sync.resetDeferredPeer, heq])
  held p id hp hheld := by
    have hne : p ≠ peer := by
      rintro rfl
      exact hp (Finset.mem_insert_self _ _)
    refine hheld.imp (fun h => h) ?_
    rintro ⟨d, hd, hmem⟩
    obtain ⟨d', hd', hmem'⟩ := without_isSome hmem hne
    exact ⟨d', by simp [Sync.resetDeferredPeer, hd, hd'], hmem'⟩

theorem deferring (h : Sync.Deferring s r peer s') : Keeps s s' := by
  cases h with
  | reset => exact reset s peer
  | source d hget hroom =>
    refine deferred fun p id => held_set fun d' hd' p hp => ?_
    rw [hget] at hd'
    cases hd'
    exact mem_addSource.mpr (Or.inl hp)
  | entry d hget hroom hsize hevent hpeer hsources hattempts =>
    refine deferred fun p id => held_set fun d' hd' => ?_
    rw [hget] at hd'
    cases hd'

theorem deferring_held (h : Sync.Deferring s r peer s') (hfree : peer ∉ s'.forceResetPeers) :
    s'.Held peer r.eventId := by
  cases h with
  | reset => exact absurd (Finset.mem_insert_self _ _) hfree
  | source d hget hroom => exact Or.inr ⟨_, by rw [Keyed.get_set, if_pos rfl],
    mem_addSource.mpr (Or.inr rfl)⟩
  | entry d hget hroom hsize hevent hpeer hsources hattempts =>
    exact Or.inr ⟨d, by rw [Keyed.get_set, if_pos rfl],
      by rw [hsources]; exact List.mem_singleton_self _⟩

theorem applied {at_ : Applying} (h : Sync.Applied s r peer s' at_) : Keeps s s' := by
  cases h with
  | forced => exact refl s
  | known => exact refl s
  | asked d next hget hnew hdefer => exact (deferring hdefer).trans (history _ rfl fun _ h => h)
  | joined => exact refl s
  | applied hget =>
    exact
      { ledger := rfl
        pc := rfl
        settled := fun _ h => h
        promises := fun promise hp => by
          rcases List.mem_append.mp hp with hp | hp
          · exact Or.inl hp
          · rw [List.mem_singleton.mp hp]
            exact Or.inr rfl
        forced := fun _ hp => hp
        flagged := fun _ hp => Or.inl hp
        cursors := fun _ => Or.inl rfl
        held := fun _ _ _ h => h }

theorem applied_held {at_ : Applying} (h : Sync.Applied s r peer s' at_)
    (hfree : peer ∉ s'.forceResetPeers) :
    (∃ k, at_ = .awaiting k) ∨ s'.Held peer r.eventId := by
  cases h with
  | forced hforced => exact absurd hforced hfree
  | known d hget hmem => exact Or.inr (Or.inr ⟨d, hget, hmem⟩)
  | asked d next hget hnew hdefer =>
    exact Or.inr (show next.Held peer r.eventId from deferring_held hdefer hfree)
  | joined k => exact Or.inl ⟨k, rfl⟩
  | applied => exact Or.inl ⟨_, rfl⟩

theorem rotate (s : Sync P) (id : EventId) (serial : Nat) (peer : P) :
    Keeps s (s.rotate id serial peer) := by
  refine deferred (n := s.created) fun p id' hheld => ?_
  split
  · rename_i d hget
    split
    · refine held_set (fun d' hd' p hp => ?_) hheld
      rw [hget] at hd'
      cases hd'
      exact hp
    · exact hheld
  · exact hheld

end Keeps

/-! ## The invariant -/

theorem get_foldl_erase (sources : List P) (m : Keyed P String) (p : P) :
    (sources.foldl Keyed.erase m).get p = if p ∈ sources then none else m.get p := by
  induction sources generalizing m with
  | nil => simp
  | cons source sources ih =>
    rw [List.foldl_cons, ih, Keyed.get_erase]
    by_cases hp : p = source
    · simp [hp]
    · simp [hp]

structure Caught (E : Crypto) (s : Sync P) : Prop where
  stored : ∀ p c, s.cursors.get p = some c → Covers E (s.history.ledger p) c ∧
    ∀ q ∈ s.history.ledger p, ∀ r ∈ pageRecords q, s.Held p r.eventId
  flagged : ∀ p ∈ s.forceResetPeers, s.cursors.get p = none
  answered : ∀ promise ∈ s.promises, ∀ result, promise.result = some (.result result) →
    result ≠ .deferred →
    promise.eventId ∈ s.history.settled
  progress : ∀ p, p ∉ s.forceResetPeers → Progress E (s.cursors.get p) (s.Held p) (s.pc p)

namespace Caught

variable {s s' : Sync P} {peer : P} {peers : Peers P} {l : Locals} {r : FederationRecord}
  {rest : List FederationRecord}

theorem keeps (h : Caught E s) (hk : Keeps s s') : Caught E s' where
  stored p c hc := by
    have hfree : p ∉ s'.forceResetPeers := by
      intro hforced
      rcases hk.flagged p hforced with hold | hnone
      · rcases hk.cursors p with heq | ⟨-, hnone⟩
        · rw [heq, h.flagged p hold] at hc
          cases hc
        · rw [hnone] at hc
          cases hc
      · rw [hnone] at hc
        cases hc
    have hold : s.cursors.get p = some c := by
      rcases hk.cursors p with heq | ⟨hforced, -⟩
      · rw [← heq, hc]
      · exact absurd hforced hfree
    rw [hk.ledger]
    obtain ⟨hcovers, hheld⟩ := h.stored p c hold
    exact ⟨hcovers, fun q hq r hr => hk.held p _ hfree (hheld q hq r hr)⟩
  flagged p hp := by
    rcases hk.flagged p hp with hold | hnone
    · rcases hk.cursors p with heq | ⟨-, hnone⟩
      · rw [heq]
        exact h.flagged p hold
      · exact hnone
    · exact hnone
  answered promise hpromise result hresult hne := by
    rcases hk.promises promise hpromise with hold | hnew
    · exact hk.settled _ (h.answered promise hold result hresult hne)
    · rw [hnew] at hresult
      cases hresult
  progress p hp := by
    have hbefore := h.progress p fun hforced => hp (hk.forced p hforced)
    have hcursor : s'.cursors.get p = s.cursors.get p := by
      rcases hk.cursors p with heq | ⟨hforced, -⟩
      · exact heq
      · exact absurd hforced hp
    rw [hk.pc, hcursor]
    exact hbefore.mono fun id => hk.held p id hp

theorem goto (h : Caught E s) {pc : Pc}
    (hpc : peer ∉ s.forceResetPeers → Progress E (s.cursors.get peer) (s.Held peer) pc) :
    Caught E (s.goto peer pc) where
  stored := h.stored
  flagged := h.flagged
  answered := h.answered
  progress p hp := by
    show Progress E _ _ (Function.update s.pc peer pc p)
    by_cases heq : p = peer
    · subst heq
      rw [Function.update_self]
      exact hpc hp
    · rw [Function.update_of_ne heq]
      exact h.progress p hp

theorem applied (h : Caught E s) {at_ : Applying} (happlied : Sync.Applied s r peer s' at_)
    (hrest : peer ∉ s.forceResetPeers → Underway E (s.cursors.get peer) l ∧
      ∃ done, done ++ r :: rest = pageRecords l.page ∧ ∀ r ∈ done, s.Held peer r.eventId) :
    Caught E (s'.goto peer (.applying l r rest at_)) := by
  have hk := Keeps.applied happlied
  refine (h.keeps hk).goto fun hfree => ?_
  have hfree' : peer ∉ s.forceResetPeers := fun hforced => hfree (hk.forced peer hforced)
  obtain ⟨hunder, done, hdone, hheld⟩ := hrest hfree'
  refine ⟨?_, ⟨done, hdone, fun r hr => hk.held peer _ hfree (hheld r hr)⟩,
    Keeps.applied_held happlied hfree⟩
  rcases hk.cursors peer with heq | ⟨hforced, -⟩
  · rw [heq]
    exact hunder
  · exact absurd hforced hfree

theorem returns (h : Caught E s) {at_ : Applying} (hpc : s.pc peer = .applying l r rest at_)
    (hk : Keeps s s')
    (hr : peer ∉ s'.forceResetPeers → s'.Held peer r.eventId) (result : ApplyResult) :
    Caught E (s'.goto peer (.applying l r rest (.returned result))) := by
  have hkept := h.keeps hk
  refine hkept.goto fun hfree => ?_
  have hprogress := hkept.progress peer hfree
  rw [hk.pc, hpc] at hprogress
  obtain ⟨hunder, hdone, -⟩ := hprogress
  exact ⟨hunder, hdone, Or.inr (hr hfree)⟩

theorem forcedReset (h : Caught E s) :
    Caught E ({ s with
        forceResetPeers := s.forceResetPeers.erase peer
        cursors := s.cursors.erase peer }.goto peer .idle) := by
  have hself : (s.cursors.erase peer).get peer = none := by rw [Keyed.get_erase, if_pos rfl]
  have hother : ∀ p, p ≠ peer → (s.cursors.erase peer).get p = s.cursors.get p := by
    intro p hne
    rw [Keyed.get_erase, if_neg hne]
  have hreset : Caught E
      { s with
        forceResetPeers := s.forceResetPeers.erase peer
        cursors := s.cursors.erase peer
        pc := Function.update s.pc peer .idle } := by
    refine ⟨fun p c hc => ?_, fun p hp => ?_, h.answered, fun p hp => ?_⟩
    · by_cases heq : p = peer
      · rw [heq, hself] at hc
        cases hc
      · rw [hother p heq] at hc
        exact h.stored p c hc
    · obtain ⟨hne, hmem⟩ := Finset.mem_erase.mp hp
      rw [hother p hne]
      exact h.flagged p hmem
    · dsimp only at hp ⊢
      by_cases heq : p = peer
      · rw [heq, Function.update_self]
        trivial
      · rw [Function.update_of_ne heq, hother p heq]
        exact h.progress p fun hmem => hp (Finset.mem_erase.mpr ⟨heq, hmem⟩)
  exact hreset

/-- The cursor moves behind a page whose events are all held. -/
theorem committed (h : Caught E s) (hpc : s.pc peer = .finishing l)
    (hfree : peer ∉ s.forceResetPeers) {pc : Pc}
    (hnext : pc = .idle ∨ pc = .fetching (l.pageNumber + 1) (some l.page.cursor) l.seenEventIds) :
    Caught E ({ s with
        cursors := s.cursors.set peer l.page.cursor
        history := s.history.committed peer l.page }.goto peer pc) := by
  have hprogress := h.progress peer hfree
  rw [hpc] at hprogress
  obtain ⟨hunder, hheld⟩ := hprogress
  have hself : (s.cursors.set peer l.page.cursor).get peer = some l.page.cursor :=
    by rw [Keyed.get_set, if_pos rfl]
  have hother : ∀ p, p ≠ peer → (s.cursors.set peer l.page.cursor).get p = s.cursors.get p := by
    intro p hne
    rw [Keyed.get_set, if_neg hne]
  have hcommitted : Caught E
      { s with
        cursors := s.cursors.set peer l.page.cursor
        history := s.history.committed peer l.page
        pc := Function.update s.pc peer pc } := by
    refine ⟨fun p c hc => ?_, fun p hp => ?_, h.answered, fun p hp => ?_⟩
    · unfold History.committed
      dsimp only at hc ⊢
      by_cases heq : p = peer
      · rw [heq, hself] at hc
        cases hc
        rw [heq, Function.update_self]
        refine ⟨hunder.covers fun c hc => (h.stored peer c hc).1, fun q hq => ?_⟩
        -- A reset page starts the ledger anew; any other goes behind the stored cursor.
        split at hq
        · rw [List.mem_singleton.mp hq]
          exact hheld
        · rename_i hreset
          rcases List.mem_append.mp hq with hq | hq
          · obtain ⟨raw, hparse⟩ := hunder.parsed
            obtain ⟨id, n, m, hrequested, -⟩ :=
              follows_of_accepted (parseFederationPage_eq_some hparse) hunder.progress
                (Bool.eq_false_iff.mpr hreset)
            exact (h.stored peer _ (hunder.cursor.trans hrequested)).2 q hq
          · rw [List.mem_singleton.mp hq]
            exact hheld
      · rw [hother p heq] at hc
        rw [Function.update_of_ne heq]
        exact h.stored p c hc
    · have hne : p ≠ peer := fun heq => hfree (heq ▸ hp)
      rw [hother p hne]
      exact h.flagged p hp
    · dsimp only
      by_cases heq : p = peer
      · rw [heq, Function.update_self, hself]
        rcases hnext with rfl | rfl
        · trivial
        · rfl
      · rw [Function.update_of_ne heq, hother p heq]
        exact h.progress p hp
  exact hcommitted

theorem drops (h : Caught E s) (hidle : ∀ p, s.pc p = .idle) {m : Keyed EventId (Deferred P)}
    {cursors : Keyed P String}
    {history : History P} {rejected : Keyed P Nat} {phase : Phase}
    (hledger : history.ledger = s.history.ledger)
    (hsettled : ∀ id ∈ s.history.settled, id ∈ history.settled)
    (hcursors : ∀ p, cursors.get p = none ∨
      cursors.get p = s.cursors.get p ∧ ∀ id, s.Held p id → PeerSync.Held history.settled m p id) :
    Caught E { s with deferred := m, cursors, history, rejectedThisSync := rejected, phase } := by
  refine ⟨fun p c hc => ?_, fun p hp => ?_, fun promise hmem result hresult hne => ?_,
    fun p hp => ?_⟩
  · dsimp only at hc ⊢
    rcases hcursors p with hnone | ⟨hsame, hheld⟩
    · rw [hnone] at hc
      cases hc
    · rw [hsame] at hc
      rw [hledger]
      obtain ⟨hcovers, hall⟩ := h.stored p c hc
      exact ⟨hcovers, fun q hq r hr => hheld _ (hall q hq r hr)⟩
  · dsimp only
    rcases hcursors p with hnone | ⟨hsame, -⟩
    · exact hnone
    · rw [hsame]
      exact h.flagged p hp
  · exact hsettled _ (h.answered promise hmem result hresult hne)
  · dsimp only
    rw [hidle p]
    trivial

theorem moved (h : Caught E s) (hl : s.Linked peers) (hmoved : Sync.Moved E peers s s') :
    Caught E s' := by
  have hat : ∀ {p : P} {pc : Pc}, s.pc p = pc → p ∉ s.forceResetPeers →
    Progress E (s.cursors.get p) (s.Held p) pc := by
    rintro p pc rfl
    exact h.progress p
  cases hmoved with
  | stay => exact h
  | started hphase =>
    unfold Sync.syncAll
    rw [hphase]
    exact ⟨h.stored, h.flagged, fun promise hpromise => (by cases hpromise), h.progress⟩
  | skipped peer hphase hurl => exact ⟨h.stored, h.flagged, h.answered, h.progress⟩
  | begun peer hphase hurl =>
    have hnext : Caught E { s with nextPeerIndex := s.nextPeerIndex + 1 } :=
      ⟨h.stored, h.flagged, h.answered, h.progress⟩
    exact hnext.goto fun _ => rfl
  | failed peer hleaves => exact h.goto fun _ => trivial
  -- Nothing of the new page is held yet.
  | received peer l seen hpc raw hparse hprogress hnew =>
    have hk : Keeps s { s with history := s.history.received peer (pageRecords l.page) } :=
      Keeps.history _ rfl fun _ h => h
    refine (h.keeps hk).goto fun hfree => ?_
    exact ⟨⟨hat hpc hfree, ⟨raw, hparse⟩, hprogress⟩, [], List.nil_append _,
      fun r hr => by cases hr⟩
  | emptied peer l hpc =>
    refine h.goto fun hfree => ?_
    obtain ⟨hunder, done, hdone, hheld⟩ := hat hpc hfree
    rw [List.append_nil] at hdone
    exact ⟨hunder, hdone ▸ hheld⟩
  | applies peer l r rest next at_ hpc happlied => exact h.applied happlied (hat hpc)
  | resolved k peer id answer hpromise =>
    have hk := Keeps.answered s id peer answer
    have hsettled := h.keeps hk
    refine ⟨hsettled.stored, hsettled.flagged, fun promise hmem result hresult hne => ?_,
      hsettled.progress⟩
    rcases List.mem_or_eq_of_mem_set hmem with hmem | rfl
    · exact hsettled.answered promise hmem result hresult hne
    · cases hresult
      cases result with
      | applied => exact List.mem_cons_self
      | deferred => exact absurd rfl hne
      | rejected => exact List.mem_cons_self
  | returned peer l r rest k promise result hpc hpromise hresult hne =>
    obtain ⟨promise', hpromise', hid⟩ := hl.awaiting peer l r rest k hpc
    rw [hpromise] at hpromise'
    cases hpromise'
    have hsettled := h.answered promise (List.mem_of_getElem? hpromise) result hresult hne
    exact h.returns hpc (Keeps.refl s) (fun _ => Or.inl (hid ▸ hsettled)) result
  | deferredOwn peer l r rest k promise hpc hpromise hresult happlier kept hdefer =>
    have hforget : Keeps s (s.forget r.eventId k) := { Keeps.refl s with }
    exact h.returns hpc (hforget.trans (Keeps.deferring hdefer))
      (Keeps.deferring_held hdefer) .deferred
  -- The worker waited for another one's call: it defers the event for itself and asks again.
  | deferredOther peer l r rest k promise hpc hpromise hresult happlier kept hdefer next at_
    happlied =>
    have hforget : Keeps s (s.forget r.eventId k) := { Keeps.refl s with }
    have hk := hforget.trans (Keeps.deferring hdefer)
    have hkept := h.keeps hk
    refine hkept.applied happlied fun hfree => ?_
    have hprogress := hkept.progress peer hfree
    rw [hk.pc, hpc] at hprogress
    exact ⟨hprogress.1, hprogress.2.1⟩
  | rotated peer l r rest serial hpc =>
    have hk := Keeps.rotate s r.eventId serial peer
    refine h.returns hpc hk (fun hfree => ?_) .deferred
    obtain ⟨-, -, hheld⟩ := hat hpc hfree
    exact hk.held peer _ hfree (hheld.resolve_left fun hk => by obtain ⟨k, hk⟩ := hk; cases hk)
  | replied peer l r rest serial result hpc hne =>
    have hk := Keeps.answered s r.eventId peer (.result result)
    have hsettled : r.eventId ∈ (s.answered r.eventId peer (.result result)).history.settled := by
      cases result with
      | applied => exact List.mem_cons_self
      | deferred => exact absurd rfl hne
      | rejected => exact List.mem_cons_self
    have herase : Keeps (s.answered r.eventId peer (.result result))
        { s.answered r.eventId peer (.result result) with deferred := s.deferred.erase r.eventId } :=
      Keeps.deferred fun p id => Keeps.held_erase hsettled
    exact h.returns hpc (hk.trans herase) (fun _ => Or.inl hsettled) result
  | proceeded peer l r rest result hpc counted hcounted pc hquota hnext =>
    have hk : Keeps s counted := by
      rw [hcounted]
      split
      · exact { Keeps.refl s with }
      · exact Keeps.refl s
    refine (h.keeps hk).goto fun hfree => ?_
    have hprogress := (h.keeps hk).progress peer hfree
    rw [hk.pc, hpc] at hprogress
    obtain ⟨hunder, ⟨done, hdone, hheld⟩, hr⟩ := hprogress
    rcases hnext with rfl | ⟨hforced, -⟩ | rfl
    · trivial
    · exact absurd (hk.forced peer hforced) hfree
    · refine ⟨hunder, done ++ [r], by rw [← hdone]; simp, fun x hx => ?_⟩
      rcases List.mem_append.mp hx with hx | hx
      · exact hheld x hx
      · rw [List.mem_singleton.mp hx]
        exact hr.resolve_left fun hk => by obtain ⟨k, hk⟩ := hk; cases hk
  | forcedReset peer l hpc hforced => exact h.forcedReset
  | committed peer l hpc hfree pc hnext => exact h.committed hpc hfree hnext
  | gathered hphase hdone => exact ⟨h.stored, h.flagged, h.answered, h.progress⟩
  | passed phase hphase hnext => exact ⟨h.stored, h.flagged, h.answered, h.progress⟩
  -- The sources of the dropped event are flagged, and lose their cursor; the others never held it.
  | expired id d phase hphase hnext hget =>
    refine h.drops (hl.quiet.resolve_left hphase) rfl (fun _ h => h) fun p => ?_
    rw [get_foldl_erase]
    split
    · exact Or.inl rfl
    · rename_i hnot
      refine Or.inr ⟨rfl, fun id' => Or.imp (fun h => h) ?_⟩
      rintro ⟨d', hd', hp⟩
      have hne : id' ≠ id := by
        rintro rfl
        rw [hget] at hd'
        cases hd'
        exact hnot hp
      exact ⟨d', by rw [Keyed.get_erase, if_neg hne, hd'], hp⟩
  | retried id d phase hphase hnext hget hattempts peer hpeer hquota next hretry =>
    have hidle := hl.quiet.resolve_left hphase
    cases hretry with
    | kept d' hevent hsources hpeer' hattempts' =>
      refine h.drops hidle rfl (fun _ h => h) fun p => Or.inr ⟨rfl,
        fun id' => Keeps.held_set fun d'' hd'' p hp => ?_⟩
      rw [hget] at hd''
      cases hd''
      rw [hsources]
      exact hp
    | applied =>
      refine h.drops hidle rfl (fun _ h => List.mem_cons_of_mem _ h) fun p => Or.inr ⟨rfl,
        fun id' hheld => ?_⟩
      exact Keeps.held_erase List.mem_cons_self (hheld.imp (List.mem_cons_of_mem _) fun h => h)
    | rejected =>
      refine h.drops hidle rfl (fun _ h => List.mem_cons_of_mem _ h) fun p => Or.inr ⟨rfl,
        fun id' hheld => ?_⟩
      exact Keeps.held_erase List.mem_cons_self (hheld.imp (List.mem_cons_of_mem _) fun h => h)

end Caught

/-! ## Runs -/

theorem caught_start (E : Crypto) : Caught E ({} : Sync P) where
  stored p c hc := by cases hc
  flagged p hp := absurd hp (Finset.notMem_empty p)
  answered promise hpromise := by cases hpromise
  progress p _ := trivial

/-- The cursor that is kept for a peer stands behind the snapshot of its last reset and all events
from there on, in order and without a gap. The callback has settled each of these events, or it
waits with this peer among its sources. -/
theorem run_caught_up (E : Crypto) (peers : Peers P) (is : List (Input P)) (peer : P)
    (cursor : String)
    (hcursor : (run (Sync.step E peers) {} is).cursors.get peer = some cursor) :
    ∃ first rest id n₀ n, (run (Sync.step E peers) {} is).history.ledger peer = first :: rest ∧
      first.reset = true ∧ (∀ q ∈ rest, q.reset = false) ∧ first.cursor = cursorOf id n₀ ∧
      cursor = cursorOf id n ∧
      n₀ ≤ n ∧ (rest.flatMap (·.events)).map (·.seq) = List.range' (n₀ + 1) (n - n₀) ∧
      ∀ r ∈ first.snapshot.getD [] ++ rest.flatMap (·.events),
        r.eventId ∈ (run (Sync.step E peers) {} is).history.settled ∨
          ∃ d, (run (Sync.step E peers) {} is).deferred.get r.eventId = some d ∧
          peer ∈ d.sources := by
  have h : Caught E (run (Sync.step E peers) {} is) :=
    run_of_moved E peers (caught_start E) (fun _ _ hl hc hmoved => hc.moved hl hmoved) is
  obtain ⟨⟨haccepted, first, rest, hledger, hfirst, hrest⟩, hheld⟩ := h.stored peer cursor hcursor
  obtain ⟨⟨raw, hparse⟩, -, hafter⟩ := haccepted.of_cons hledger
  obtain ⟨⟨id, n₀⟩, hparsed, -⟩ := (parseFederationPage_eq_some hparse).cursor
  have htext := (parseCursor_eq_some hparsed).1
  rw [htext] at hafter
  obtain ⟨n, hle, hlast, hseqs⟩ := hafter.follows hrest
  refine ⟨first, rest, id, n₀, n, hledger, hfirst, hrest, htext, Option.some.inj hlast, hle, hseqs,
    fun r hr => ?_⟩
  rw [hledger] at hheld
  rcases List.mem_append.mp hr with hr | hr
  · refine hheld first List.mem_cons_self r ?_
    rw [pageRecords, if_pos hfirst]
    exact hr
  · obtain ⟨q, hq, hr⟩ := List.mem_flatMap.mp hr
    refine hheld q (List.mem_cons_of_mem _ hq) r ?_
    rw [pageRecords, if_neg (by rw [hrest q hq]; exact Bool.false_ne_true)]
    exact hr

/-! One of two peers sends a reset and then an event that the callback defers. -/

theorem twoPeers_distinct : [false, true].Nodup := by decide

def twoPeers : Peers Bool := ⟨[false, true], twoPeers_distinct, Nat.le_add_right 2 14⟩

def emptyReset : FederationPage where
  reset := true
  cursor := cursorOf someFeedId 0
  hasMore := false
  events := []
  snapshot := some []

def deferringRun : List (Input Bool) :=
  [.syncAll, .begin true, .respond false (some (pageJson emptyReset)), .record false false 0,
    .finish false false,
    .begin false, .gather, .retry 0 .thrown, .syncAll, .begin true,
    .respond false (some (pageJson (repeatedPage 1 false))), .record false false 0,
      .resolve 0 (.result .deferred),
    .resume false 0, .proceed false false, .record false false 0, .finish false false]

theorem cursor_deferringRun :
    (run (Sync.step twoDigests twoPeers) {} deferringRun).cursors.get false =
      some (cursorOf someFeedId 1) := by
  decide +kernel

theorem run_caught_up_deferring :
    ∃ first rest id n₀ n,
      (run (Sync.step twoDigests twoPeers) {} deferringRun).history.ledger false = first :: rest ∧
      first.reset = true ∧ (∀ q ∈ rest, q.reset = false) ∧ first.cursor = cursorOf id n₀ ∧
      cursorOf someFeedId 1 = cursorOf id n ∧ n₀ ≤ n ∧
      (rest.flatMap (·.events)).map (·.seq) = List.range' (n₀ + 1) (n - n₀) ∧
      ∀ r ∈ first.snapshot.getD [] ++ rest.flatMap (·.events),
        r.eventId ∈ (run (Sync.step twoDigests twoPeers) {} deferringRun).history.settled ∨
          ∃ d, (run (Sync.step twoDigests twoPeers) {} deferringRun).deferred.get r.eventId =
            some d ∧
            false ∈ d.sources :=
  run_caught_up twoDigests twoPeers deferringRun false _ cursor_deferringRun

end QuantaSwap.Feed.PeerSync
