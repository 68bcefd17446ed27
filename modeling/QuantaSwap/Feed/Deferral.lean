import QuantaSwap.Feed.SyncSteps

/-!
# The bounds of the deferred events

Whatever the peers send and however the callback answers, the entries that wait for a retry stay
within the bound of each peer and within the global one.
-/

set_option autoImplicit false

namespace QuantaSwap.Feed.PeerSync

open Lib Lib.Js Lib.Run QuantaSwap.Book

variable {P : Type*} [DecidableEq P]

/-! ## Sources -/

section Sources

variable {sources : List P} {peer p : P} {d d' : Deferred P}

theorem mem_addSource : p ∈ (d.addSource peer).sources ↔ p ∈ d.sources ∨ p = peer := by
  unfold Deferred.addSource
  dsimp only
  split
  · rename_i hmem
    exact ⟨Or.inl, fun h => h.elim (fun h => h) fun h => h ▸ hmem⟩
  · rw [List.mem_append, List.mem_singleton]

theorem without_eq_some (h : d.without peer = some d') :
    d'.sources = d.sources.filter (· ≠ peer) ∧ d'.sources ≠ [] ∧ d'.event = d.event ∧
    d'.attempts = d.attempts ∧
      (d'.peer = d.peer ∧ d.peer ≠ peer ∨ d'.peer ∈ d'.sources) := by
  unfold Deferred.without at h
  split at h
  · cases h
  · rename_i source rest hsources
    cases h
    refine ⟨hsources.symm, List.cons_ne_nil _ _, rfl, rfl, ?_⟩
    dsimp only
    split
    · exact Or.inr List.mem_cons_self
    · rename_i hne
      exact Or.inl ⟨rfl, hne⟩

theorem without_isSome (hp : p ∈ d.sources) (hne : p ≠ peer) :
    ∃ d', d.without peer = some d' ∧ p ∈ d'.sources := by
  have hmem : p ∈ d.sources.filter (· ≠ peer) := by simp [hp, hne]
  unfold Deferred.without
  split
  · rename_i hnil
    rw [hnil] at hmem
    cases hmem
  · rename_i source rest hsources
    rw [hsources] at hmem
    exact ⟨_, rfl, hmem⟩

end Sources

/-! ## Valid entries -/

structure Deferred.Valid (d : Deferred P) : Prop where
  nodup : d.sources.Nodup
  peer : d.peer ∈ d.sources
  attempts : d.attempts ≤ maxDeferredAttempts

namespace Deferred.Valid

variable {d d' : Deferred P} {peer : P}

theorem addSource (h : d.Valid) : (d.addSource peer).Valid where
  nodup := by
    unfold Deferred.addSource
    dsimp only
    split
    · exact h.nodup
    · rename_i hnew
      rw [List.nodup_append]
      refine ⟨h.nodup, List.nodup_singleton _, fun a ha b hb heq => ?_⟩
      rw [List.mem_singleton.mp hb] at heq
      exact hnew (heq ▸ ha)
  peer := mem_addSource.mpr (Or.inl h.peer)
  attempts := h.attempts

theorem without (h : d.Valid) (hd : d.without peer = some d') : d'.Valid := by
  obtain ⟨hsources, -, -, hattempts, hpeer⟩ := without_eq_some hd
  refine ⟨?_, ?_, ?_⟩
  · rw [hsources]
    exact h.nodup.filter _
  · rcases hpeer with ⟨hsame, hne⟩ | hmem
    · rw [hsame, hsources]
      simpa using ⟨h.peer, hne⟩
    · exact hmem
  · rw [hattempts]
    exact h.attempts

end Deferred.Valid

/-! ## The bounds -/

/-- Whether an entry counts for a peer. -/
def counts (peer : P) (d : Deferred P) : Nat := if peer ∈ d.sources then 1 else 0

omit [DecidableEq P] in
theorem size_eq_total (m : Keyed EventId (Deferred P)) : m.entries.length = m.total fun _ => 1 := by
  simp [Keyed.total]

theorem deferredCountForPeer_eq_total (s : Sync P) (peer : P) :
    s.deferredCountForPeer peer = s.deferred.total (counts peer) := by
  unfold Sync.deferredCountForPeer Keyed.total
  induction s.deferred.entries with
  | nil => rfl
  | cons e entries ih =>
    rw [List.filter_cons, List.map_cons, List.sum_cons, ← ih, counts]
    by_cases hmem : peer ∈ e.2.sources
    · simp [hmem, Nat.add_comm]
    · simp [hmem]

structure Bounded (m : Keyed EventId (Deferred P)) : Prop where
  valid : ∀ id d, m.get id = some d → d.Valid
  perPeer : ∀ peer, m.total (counts peer) ≤ maxDeferredEventsPerPeer
  size : m.total (fun _ => 1) ≤ maxDeferredEvents

namespace Bounded

variable {m : Keyed EventId (Deferred P)} {id : EventId} {d d' : Deferred P} {peer : P}

theorem erase (h : Bounded m) (id : EventId) : Bounded (m.erase id) where
  valid id' d hd := by
    rw [Keyed.get_erase] at hd
    split at hd
    · cases hd
    · exact h.valid id' d hd
  perPeer peer := Keyed.total_erase_le.trans (h.perPeer peer)
  size := Keyed.total_erase_le.trans h.size

theorem without (h : Bounded m) (peer : P) : Bounded (m.filterMap (Deferred.without peer)) where
  valid id d hd := by
    rw [Keyed.get_filterMap, Option.bind_eq_some_iff] at hd
    obtain ⟨d', hd', hwithout⟩ := hd
    exact (h.valid id d' hd').without hwithout
  perPeer p := by
    refine (Keyed.total_filterMap_le fun d d' hd => ?_).trans (h.perPeer p)
    obtain ⟨hsources, -⟩ := without_eq_some hd
    unfold counts
    rw [hsources]
    by_cases hmem : p ∈ d.sources
    · rw [if_pos hmem]
      split
      · exact le_refl 1
      · exact Nat.zero_le 1
    · rw [if_neg hmem, if_neg fun h => hmem (List.mem_of_mem_filter h)]
  size := (Keyed.total_filterMap_le fun _ _ _ => le_refl 1).trans h.size

theorem update (h : Bounded m) (hget : m.get id = some d) (hvalid : d'.Valid)
    (hsources : d'.sources = d.sources) :
    Bounded (m.set id d') where
  valid id' d'' hd := by
    rw [Keyed.get_set] at hd
    split at hd
    · cases hd
      exact hvalid
    · exact h.valid id' d'' hd
  perPeer p := by
    have htotal := Keyed.total_set_of_get_eq_some (counts p) hget d'
    have hcounts : counts p d' = counts p d := by rw [counts, counts, hsources]
    have hbound := h.perPeer p
    omega
  size := by
    have htotal := Keyed.total_set_of_get_eq_some (fun _ => 1) hget d'
    have hbound := h.size
    omega

theorem addSource (h : Bounded m) (hget : m.get id = some d)
    (hroom : peer ∈ d.sources ∨ m.total (counts peer) < maxDeferredEventsPerPeer) :
    Bounded (m.set id (d.addSource peer)) where
  valid id' d' hd := by
    rw [Keyed.get_set] at hd
    split at hd
    · cases hd
      exact (h.valid id d hget).addSource
    · exact h.valid id' d' hd
  perPeer p := by
    have htotal := Keyed.total_set_of_get_eq_some (counts p) hget (d.addSource peer)
    have hbound := h.perPeer p
    by_cases hp : p = peer
    · subst hp
      have hadded : counts p (d.addSource p) = 1 := if_pos (mem_addSource.mpr (Or.inr rfl))
      rcases hroom with hmem | hroom
      · have hbefore : counts p d = 1 := if_pos hmem
        omega
      · omega
    · have hsame : counts p (d.addSource peer) = counts p d := by
        unfold counts
        simp only [mem_addSource, hp, or_false]
      omega
  size := by
    have htotal := Keyed.total_set_of_get_eq_some (fun _ => 1) hget (d.addSource peer)
    have hbound := h.size
    omega

theorem insert (h : Bounded m) (hget : m.get id = none)
    (hroom : m.total (counts peer) < maxDeferredEventsPerPeer)
    (hsize : m.total (fun _ => 1) < maxDeferredEvents) (hvalid : d.Valid)
    (hsources : d.sources = [peer]) :
    Bounded (m.set id d) where
  valid id' d' hd := by
    rw [Keyed.get_set] at hd
    split at hd
    · cases hd
      exact hvalid
    · exact h.valid id' d' hd
  perPeer p := by
    rw [Keyed.total_set_of_get_eq_none hget]
    have hbound := h.perPeer p
    by_cases hp : p = peer
    · subst hp
      have hone : counts p d = 1 := if_pos (by simp [hsources])
      omega
    · have hzero : counts p d = 0 := if_neg (by simp [hsources, hp])
      omega
  size := by
    rw [Keyed.total_set_of_get_eq_none hget]
    exact hsize

theorem deferring {s s' : Sync P} {r : FederationRecord} (h : Bounded s.deferred)
    (hdefer : Sync.Deferring s r peer s') : Bounded s'.deferred := by
  cases hdefer with
  | reset => exact h.without peer
  | source d hget hroom =>
    rw [deferredCountForPeer_eq_total] at hroom
    exact h.addSource hget hroom
  | entry d hget hroom hsize hevent hpeer hsources hattempts =>
    rw [deferredCountForPeer_eq_total] at hroom
    rw [size_eq_total] at hsize
    refine h.insert hget hroom hsize ⟨?_, ?_, ?_⟩ hsources
    · rw [hsources]
      exact List.nodup_singleton _
    · rw [hsources, hpeer]
      exact List.mem_singleton_self _
    · rw [hattempts]
      exact Nat.zero_le _

theorem applied {s s' : Sync P} {r : FederationRecord} {at_ : Applying} (h : Bounded s.deferred)
    (happlied : Sync.Applied s r peer s' at_) : Bounded s'.deferred := by
  cases happlied with
  | asked d next hget hnew hdefer =>
    show Bounded next.deferred
    exact h.deferring hdefer
  | forced => exact h
  | known => exact h
  | joined => exact h
  | applied => exact h

theorem rotate {s : Sync P} (h : Bounded s.deferred) (id : EventId) (serial : Nat) (peer : P) :
    Bounded (s.rotate id serial peer).deferred := by
  unfold Sync.rotate
  dsimp only
  split
  · rename_i d hget
    split
    · have hvalid := h.valid id d hget
      exact h.update hget
        ⟨hvalid.nodup, Sync.nextSource_mem (List.ne_nil_of_mem hvalid.peer), hvalid.attempts⟩ rfl
    · exact h
  · exact h

end Bounded

/-! ## Runs -/

theorem Bounded.retrying {s s' : Sync P} (h : Bounded s.deferred) {id : EventId} {d : Deferred P}
    {peer : P}
    (hget : s.deferred.get id = some d) (hattempts : d.attempts < maxDeferredAttempts)
    (hretry : Sync.Retrying s id d peer s') : Bounded s'.deferred := by
  have hvalid := h.valid id d hget
  cases hretry with
  | kept d' hevent hsources hpeer hattempts' =>
    refine h.update hget ⟨?_, ?_, ?_⟩ hsources
    · rw [hsources]
      exact hvalid.nodup
    · rw [hsources]
      exact hpeer
    · omega
  | applied => exact h.erase id
  | rejected => exact h.erase id

theorem Bounded.moved {E : Crypto} {peers : Peers P} {s s' : Sync P} (h : Bounded s.deferred)
    (hmoved : Sync.Moved E peers s s') : Bounded s'.deferred := by
  cases hmoved with
  | started hphase =>
    unfold Sync.syncAll
    rw [hphase]
    exact h
  | applies peer l r rest next at_ hpc happlied =>
    show Bounded next.deferred
    exact h.applied happlied
  | deferredOwn peer l r rest k promise hpc hpromise hresult happlier kept hdefer =>
    show Bounded kept.deferred
    exact Bounded.deferring (s := s.forget r.eventId k) h hdefer
  | deferredOther peer l r rest k promise hpc hpromise hresult happlier kept hdefer next at_
    happlied =>
    show Bounded next.deferred
    exact (Bounded.deferring (s := s.forget r.eventId k) h hdefer).applied happlied
  | rotated peer l r rest serial hpc => exact h.rotate r.eventId serial peer
  | replied peer l r rest serial result hpc hne => exact h.erase r.eventId
  | proceeded peer l r rest result hpc counted hcounted pc hquota hnext =>
    show Bounded counted.deferred
    rw [hcounted]
    split
    · exact h
    · exact h
  | expired id d phase hphase hnext hget => exact h.erase id
  | retried id d phase hphase hnext hget hattempts peer hpeer hquota next hretry =>
    show Bounded next.deferred
    exact h.retrying hget hattempts hretry
  | _ => exact h

theorem bounded_start : Bounded ({} : Sync P).deferred where
  valid _ _ h := by cases h
  perPeer _ := Nat.zero_le _
  size := Nat.zero_le _

/-- The events that wait stay within both bounds, and each of them waits in the name of a peer that
it has come from. -/
theorem run_deferred_bounded (E : Crypto) (peers : Peers P) (is : List (Input P)) :
    (run (Sync.step E peers) {} is).deferred.entries.length ≤ maxDeferredEvents ∧
      (∀ peer, (run (Sync.step E peers) {} is).deferredCountForPeer peer ≤
        maxDeferredEventsPerPeer) ∧
      ∀ id d, (run (Sync.step E peers) {} is).deferred.get id = some d →
        d.sources.Nodup ∧ d.peer ∈ d.sources ∧ d.attempts ≤ maxDeferredAttempts := by
  have h : Bounded (run (Sync.step E peers) {} is).deferred :=
    invariant (I := fun s => Bounded s.deferred)
      (fun s i h => h.moved (Sync.moved E peers s i)) bounded_start is
  refine ⟨?_, fun peer => ?_, fun id d hd => ?_⟩
  · rw [size_eq_total]
    exact h.size
  · rw [deferredCountForPeer_eq_total]
    exact h.perPeer peer
  · have hvalid := h.valid id d hd
    exact ⟨hvalid.nodup, hvalid.peer, hvalid.attempts⟩

end QuantaSwap.Feed.PeerSync
