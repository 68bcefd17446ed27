import QuantaSwap.Feed.Supplied

/-!
# The rejections of a sync

A callback that rejects costs a signature check. Whatever a peer sends, the callback rejects at most
eight calls in its name before the next `syncAll`.
-/

set_option autoImplicit false

namespace QuantaSwap.Feed.PeerSync

open Lib Lib.Js Lib.Run QuantaSwap.Book

variable {P : Type*} [DecidableEq P]

/-- What `rejectedThisSync` has for a peer. -/
def countOf (rejected : Keyed P Nat) (peer : P) : Nat := (rejected.get peer).getD 0

/-- A rejection that the sync of the peer has not counted yet. -/
def pendingRejection (promises : List (EventApplication P)) (peer : P) : Pc → Nat
  | .applying _ _ _ (.returned .rejected) => 1
  | .applying _ _ _ (.awaiting k) =>
    match promises[k]? with
    | some ⟨applier, _, some (.result .rejected)⟩ => if applier = peer then 1 else 0
    | _ => 0
  | _ => 0

theorem countOf_reject (s : Sync P) (peer p : P) :
    countOf (s.reject peer).rejectedThisSync p =
      if p = peer then min (countOf s.rejectedThisSync peer + 1) (maxRejectedEventsPerSync + 1)
      else countOf s.rejectedThisSync p := by
  unfold countOf Sync.reject
  dsimp only
  rw [Keyed.get_set]
  split
  · rfl
  · rfl

theorem countOf_foldl_reject (sources : List P) (s : Sync P) (p : P)
    (hle : countOf s.rejectedThisSync p ≤ maxRejectedEventsPerSync + 1) :
    countOf s.rejectedThisSync p ≤ countOf (sources.foldl Sync.reject s).rejectedThisSync p ∧
      countOf (sources.foldl Sync.reject s).rejectedThisSync p ≤ maxRejectedEventsPerSync + 1 ∧
      (p ∈ sources → countOf s.rejectedThisSync p ≤ maxRejectedEventsPerSync →
        countOf s.rejectedThisSync p + 1 ≤
          countOf (sources.foldl Sync.reject s).rejectedThisSync p) := by
  induction sources generalizing s with
  | nil => exact ⟨le_refl _, hle, fun h => by cases h⟩
  | cons source sources ih =>
    rw [List.foldl_cons]
    have hstep := countOf_reject s source p
    by_cases hp : p = source
    · subst hp
      rw [if_pos rfl] at hstep
      obtain ⟨h1, h2, -⟩ := ih (s.reject p) (by omega)
      exact ⟨by omega, h2, fun _ _ => by omega⟩
    · rw [if_neg hp] at hstep
      obtain ⟨h1, h2, h3⟩ := ih (s.reject source) (by omega)
      refine ⟨by omega, h2, fun hmem hquota => ?_⟩
      have hmem' := (List.mem_cons.mp hmem).resolve_left hp
      have := h3 hmem' (by omega)
      omega

theorem rejections_answered (h : History P) (id : EventId) (peer p : P) (answer : Answer) :
    (h.answered id peer answer).rejections p =
      if p = peer ∧ answer = .result .rejected then h.rejections p + 1 else h.rejections p := by
  unfold History.answered
  split
  · simp
  · by_cases heq : p = peer
    · subst heq
      simp
    · simp [heq]
  · simp
  · simp

/-- The rejections and their counters. -/
structure Metered (peers : Peers P) (rejections : P → Nat) (rejected : Keyed P Nat)
    (promises : List (EventApplication P)) (pc : P → Pc) (phase : Phase) (nextPeerIndex : Nat) :
      Prop where
  counted : ∀ p, rejections p ≤ countOf rejected p + pendingRejection promises p (pc p)
  bound : ∀ p, rejections p ≤ maxRejectedEventsPerSync
  capped : ∀ p, countOf rejected p ≤ maxRejectedEventsPerSync + 1
  active : phase = .syncing → ∀ p, pc p ≠ .idle → countOf rejected p < maxRejectedEventsPerSync
  waits : ∀ (k : Nat) (p : P) (id : EventId), promises[k]? = some ⟨p, id, none⟩ →
    ∃ l r rest, pc p = .applying l r rest (.awaiting k)
  fresh : phase = .syncing → ∀ (i : Nat) (p : P), nextPeerIndex ≤ i → peers.urls[i]? = some p →
    countOf rejected p = 0 ∧ pc p = .idle

abbrev Sync.Metered (peers : Peers P) (s : Sync P) : Prop :=
  PeerSync.Metered peers s.history.rejections s.rejectedThisSync s.promises s.pc s.phase
    s.nextPeerIndex

namespace Metered

section Fields

variable {peers : Peers P} {rejections : P → Nat} {rejected : Keyed P Nat}
  {promises : List (EventApplication P)}
  {pc : P → Pc} {phase : Phase} {nextPeerIndex : Nat} {peer : P} {next : Pc}

theorem goto (h : Metered peers rejections rejected promises pc phase nextPeerIndex)
    (hold : pc peer ≠ .idle)
    (hcounted : rejections peer ≤ countOf rejected peer + pendingRejection promises peer next)
    (hwaits : ∀ (k : Nat) (id : EventId), promises[k]? = some ⟨peer, id, none⟩ →
      ∃ l r rest, next = .applying l r rest (.awaiting k)) :
    Metered peers rejections rejected promises
      (Function.update pc peer next) phase nextPeerIndex where
  counted p := by
    by_cases heq : p = peer
    · rw [heq, Function.update_self]
      exact hcounted
    · rw [Function.update_of_ne heq]
      exact h.counted p
  bound := h.bound
  capped := h.capped
  active hphase p hp := by
    by_cases heq : p = peer
    · rw [heq]
      exact h.active hphase peer hold
    · rw [Function.update_of_ne heq] at hp
      exact h.active hphase p hp
  waits k p id hk := by
    by_cases heq : p = peer
    · rw [heq, Function.update_self]
      rw [heq] at hk
      exact hwaits k id hk
    · rw [Function.update_of_ne heq]
      exact h.waits k p id hk
  fresh hphase i p hi hp := by
    obtain ⟨hzero, hidle⟩ := h.fresh hphase i p hi hp
    have hne : p ≠ peer := by
      rintro rfl
      exact hold hidle
    rw [Function.update_of_ne hne]
    exact ⟨hzero, hidle⟩

theorem not_open (h : Metered peers rejections rejected promises pc phase nextPeerIndex)
    (hpc : ∀ l r rest k, pc peer = .applying l r rest (.awaiting k) →
      ∃ promise, promises[k]? = some promise ∧ promise.result ≠ none) (k : Nat) (id : EventId) :
    promises[k]? ≠ some ⟨peer, id, none⟩ := by
  intro hk
  obtain ⟨l, r, rest, hat⟩ := h.waits k peer id hk
  obtain ⟨promise, hpromise, hresult⟩ := hpc l r rest k hat
  rw [hk] at hpromise
  cases hpromise
  exact hresult rfl

theorem onward (h : Metered peers rejections rejected promises pc phase nextPeerIndex)
    (hold : pc peer ≠ .idle)
    (hpc : ∀ l r rest k, pc peer = .applying l r rest (.awaiting k) →
      ∃ promise, promises[k]? = some promise ∧ promise.result ≠ none)
    (hle : pendingRejection promises peer (pc peer) ≤ pendingRejection promises peer next) :
    Metered peers rejections rejected promises (Function.update pc peer next) phase nextPeerIndex :=
  h.goto hold ((h.counted peer).trans (Nat.add_le_add_left hle _)) fun k id hk =>
    absurd hk (h.not_open hpc k id)

theorem opened (h : Metered peers rejections rejected promises pc phase nextPeerIndex)
    (hold : pc peer ≠ .idle)
    (hpc : ∀ l r rest k, pc peer = .applying l r rest (.awaiting k) →
      ∃ promise, promises[k]? = some promise ∧ promise.result ≠ none)
    (hnone : pendingRejection promises peer (pc peer) = 0) (l : Locals) (r : FederationRecord)
    (rest : List FederationRecord) (id : EventId)
    (hlinked : ∀ p l r rest k, pc p = .applying l r rest (.awaiting k) → k < promises.length) :
    Metered peers rejections rejected (promises ++ [⟨peer, id, none⟩])
      (Function.update pc peer (.applying l r rest (.awaiting promises.length))) phase
        nextPeerIndex := by
  have hbefore : ∀ p, pendingRejection (promises ++ [⟨peer, id, none⟩]) p (pc p) =
    pendingRejection promises p (pc p) := by
    intro p
    unfold pendingRejection
    split
    · rfl
    · rename_i l r rest k hat
      rw [List.getElem?_append_left (hlinked p l r rest k hat)]
    · rfl
  have hcounted := h.counted peer
  rw [hnone, Nat.add_zero] at hcounted
  refine ⟨fun p => ?_, h.bound, h.capped, fun hphase p hp => ?_, fun k p id' hk => ?_,
    fun hphase i p hi hp => ?_⟩
  · by_cases heq : p = peer
    · rw [heq]
      exact hcounted.trans (Nat.le_add_right _ _)
    · rw [Function.update_of_ne heq, hbefore p]
      exact h.counted p
  · by_cases heq : p = peer
    · rw [heq]
      exact h.active hphase peer hold
    · rw [Function.update_of_ne heq] at hp
      exact h.active hphase p hp
  · by_cases hlt : k < promises.length
    · rw [List.getElem?_append_left hlt] at hk
      have hne : p ≠ peer := by
        rintro rfl
        exact h.not_open hpc k id' hk
      rw [Function.update_of_ne hne]
      exact h.waits k p id' hk
    · obtain ⟨hlt', hget⟩ := List.getElem?_eq_some_iff.mp hk
      have hkeq : k = promises.length := by
        rw [List.length_append, List.length_singleton] at hlt'
        omega
      subst hkeq
      simp only [List.getElem_concat_length] at hget
      cases hget
      rw [Function.update_self]
      exact ⟨l, r, rest, rfl⟩
  · obtain ⟨hzero, hidle⟩ := h.fresh hphase i p hi hp
    have hne : p ≠ peer := by
      rintro rfl
      exact hold hidle
    rw [Function.update_of_ne hne]
    exact ⟨hzero, hidle⟩

/-- Only the peer in whose name the call was made is charged. -/
theorem charged (h : Metered peers rejections rejected promises pc phase nextPeerIndex) (peer : P)
    {rejections' : P → Nat}
    (hother : ∀ p, p ≠ peer → rejections' p = rejections p)
    (hcounted : rejections' peer ≤ countOf rejected peer + pendingRejection promises peer (pc peer))
    (hbound : rejections' peer ≤ maxRejectedEventsPerSync) :
    Metered peers rejections' rejected promises pc phase nextPeerIndex := by
  refine ⟨fun p => ?_, fun p => ?_, h.capped, h.active, h.waits, h.fresh⟩
  · by_cases heq : p = peer
    · rw [heq]
      exact hcounted
    · rw [hother p heq]
      exact h.counted p
  · by_cases heq : p = peer
    · rw [heq]
      exact hbound
    · rw [hother p heq]
      exact h.bound p

theorem resolved (h : Metered peers rejections rejected promises pc phase nextPeerIndex) {k : Nat}
    {id : EventId}
    (hpromise : promises[k]? = some ⟨peer, id, none⟩) (hphase : phase = .syncing) (answer : Answer)
    (hist : History P)
    (hhist : hist.rejections = rejections) :
    Metered peers (hist.answered id peer answer).rejections rejected
      (promises.set k ⟨peer, id, some answer⟩) pc phase nextPeerIndex := by
  obtain ⟨l, r, rest, hat⟩ := h.waits k peer id hpromise
  have hlt : k < promises.length := (List.getElem?_eq_some_iff.mp hpromise).1
  have hactive := h.active hphase peer (by rw [hat]; simp)
  have hzero : pendingRejection promises peer (pc peer) = 0 := by
    rw [hat, pendingRejection, hpromise]
  have hcounted := h.counted peer
  rw [hzero, Nat.add_zero] at hcounted
  -- Other workers may wait for the same call, but its rejection is not theirs.
  have hother : ∀ p, p ≠ peer →
      pendingRejection (promises.set k ⟨peer, id, some answer⟩) p (pc p) =
        pendingRejection promises p (pc p) := by
    intro p hne
    unfold pendingRejection
    split
    · rfl
    · rename_i l' r' rest' j hj
      by_cases heq : k = j
      · subst heq
        rw [List.getElem?_set_self hlt, hpromise]
        split
        · rename_i heq'
          cases heq'
          exact if_neg (Ne.symm hne)
        · rfl
      · rw [List.getElem?_set_ne heq]
    · rfl
  have hrejections := fun p => hhist ▸ rejections_answered hist id peer p answer
  refine ⟨fun p => ?_, fun p => ?_, h.capped, h.active, fun j p id' hj => ?_, h.fresh⟩
  · rw [hrejections p]
    by_cases heq : p = peer
    · subst heq
      split
      · rename_i hrejected
        rw [hat, pendingRejection, List.getElem?_set_self hlt, hrejected.2]
        dsimp only
        rw [if_pos rfl]
        omega
      · exact hcounted.trans (Nat.le_add_right _ _)
    · rw [hother p heq, if_neg fun h => heq h.1]
      exact h.counted p
  · rw [hrejections p]
    split
    · rename_i hrejected
      rw [hrejected.1]
      omega
    · exact h.bound p
  · by_cases heq : k = j
    · subst heq
      rw [List.getElem?_set_self hlt] at hj
      cases hj
    · rw [List.getElem?_set_ne heq] at hj
      exact h.waits j p id' hj

theorem replied (h : Metered peers rejections rejected promises pc phase nextPeerIndex) {l : Locals}
    {r : FederationRecord} {rest : List FederationRecord} {serial : Nat} (hphase : phase = .syncing)
    (hpc : pc peer = .applying l r rest (.asking serial)) (id : EventId) (result : ApplyResult)
    (hist : History P)
    (hhist : hist.rejections = rejections) :
    Metered peers (hist.answered id peer (.result result)).rejections rejected promises
      (Function.update pc peer (.applying l r rest (.returned result))) phase nextPeerIndex := by
  have hold : pc peer ≠ .idle := by rw [hpc]; simp
  have hcounted := h.counted peer
  rw [hpc] at hcounted
  have hcounted : rejections peer ≤ countOf rejected peer := hcounted
  have hactive := h.active hphase peer hold
  have hgoes : Metered peers rejections rejected promises
      (Function.update pc peer (.applying l r rest (.returned result))) phase nextPeerIndex :=
    h.onward hold (by simp [hpc]) (by rw [hpc]; exact Nat.zero_le _)
  have hrejections := fun p => hhist ▸ rejections_answered hist id peer p (.result result)
  refine hgoes.charged peer (fun p hne => ?_) ?_ ?_
  · rw [hrejections, if_neg fun h => hne h.1]
  · rw [hrejections, Function.update_self]
    split
    · rename_i hrejected
      cases hrejected.2
      exact Nat.add_le_add_right hcounted 1
    · exact hcounted.trans (Nat.le_add_right _ _)
  · rw [hrejections]
    split
    · omega
    · exact h.bound peer

theorem tallied {s : Sync P}
    (h : Metered peers rejections s.rejectedThisSync promises pc phase nextPeerIndex)
    (hphase : phase = .syncing) {l : Locals}
    {r : FederationRecord} {rest : List FederationRecord}
    (hpc : pc peer = .applying l r rest (.returned .rejected))
    (hquota : next ≠ .idle →
      countOf (s.reject peer).rejectedThisSync peer < maxRejectedEventsPerSync) :
    Metered peers rejections (s.reject peer).rejectedThisSync promises
      (Function.update pc peer next) phase
      nextPeerIndex := by
  have hold : pc peer ≠ .idle := by rw [hpc]; simp
  have hactive := h.active hphase peer hold
  have hcounted := h.counted peer
  rw [hpc] at hcounted
  have hcounted : rejections peer ≤ countOf s.rejectedThisSync peer + 1 := hcounted
  have hself : countOf (s.reject peer).rejectedThisSync peer =
    countOf s.rejectedThisSync peer + 1 := by
    rw [countOf_reject, if_pos rfl]
    omega
  have hother :
    ∀ p, p ≠ peer → countOf (s.reject peer).rejectedThisSync p = countOf s.rejectedThisSync p := by
    intro p hne
    rw [countOf_reject, if_neg hne]
  -- The worker's own call has returned, so none of its calls is open.
  have hclosed : ∀ (k : Nat) (id : EventId), promises[k]? ≠ some ⟨peer, id, none⟩ :=
    h.not_open (by simp [hpc])
  refine ⟨fun p => ?_, h.bound, fun p => ?_, fun hphase p hp => ?_, fun k p id hk => ?_,
    fun hphase i p hi hp => ?_⟩
  · by_cases heq : p = peer
    · rw [heq, hself]
      exact hcounted.trans (Nat.le_add_right _ _)
    · rw [Function.update_of_ne heq, hother p heq]
      exact h.counted p
  · by_cases heq : p = peer
    · rw [heq, hself]
      omega
    · rw [hother p heq]
      exact h.capped p
  · by_cases heq : p = peer
    · rw [heq, Function.update_self] at hp
      rw [heq]
      exact hquota hp
    · rw [Function.update_of_ne heq] at hp
      rw [hother p heq]
      exact h.active hphase p hp
  · have hne : p ≠ peer := by
      rintro rfl
      exact hclosed k id hk
    rw [Function.update_of_ne hne]
    exact h.waits k p id hk
  · obtain ⟨hzero, hidle⟩ := h.fresh hphase i p hi hp
    have hne : p ≠ peer := by
      rintro rfl
      exact hold hidle
    rw [hother p hne, Function.update_of_ne hne]
    exact ⟨hzero, hidle⟩

theorem resting (h : Metered peers rejections rejected promises pc phase nextPeerIndex)
    (hidle : ∀ p, pc p = .idle)
    {rejections' : P → Nat} {rejected' : Keyed P Nat} {phase' : Phase} (hphase : phase' ≠ .syncing)
    (hcounted : ∀ p, rejections' p ≤ countOf rejected' p)
    (hbound : ∀ p, rejections' p ≤ maxRejectedEventsPerSync)
    (hcapped : ∀ p, countOf rejected' p ≤ maxRejectedEventsPerSync + 1) :
    Metered peers rejections' rejected' promises pc phase' nextPeerIndex where
  counted p := (hcounted p).trans (Nat.le_add_right _ _)
  bound := hbound
  capped := hcapped
  active hsyncing := absurd hsyncing hphase
  waits k p id hk := by
    obtain ⟨l, r, rest, hat⟩ := h.waits k p id hk
    rw [hidle p] at hat
    cases hat
  fresh hsyncing := absurd hsyncing hphase

theorem counted_idle (h : Metered peers rejections rejected promises pc phase nextPeerIndex)
    (hidle : ∀ p, pc p = .idle)
    (p : P) : rejections p ≤ countOf rejected p := by
  have hcounted := h.counted p
  rw [hidle p] at hcounted
  exact hcounted

theorem refused {s : Sync P}
    (h : Metered peers rejections s.rejectedThisSync promises pc phase nextPeerIndex)
    (hidle : ∀ p, pc p = .idle) {phase' : Phase} (hphase : phase' ≠ .syncing) {sources : List P}
    (hpeer : peer ∈ sources)
    (hroom : countOf s.rejectedThisSync peer < maxRejectedEventsPerSync) (id : EventId)
    (hist : History P)
    (hhist : hist.rejections = rejections) :
    Metered peers (hist.answered id peer (.result .rejected)).rejections
      (sources.foldl Sync.reject s).rejectedThisSync
      promises pc phase' nextPeerIndex := by
  have hcount := fun p => countOf_foldl_reject sources s p (h.capped p)
  have hself := (hcount peer).2.2 hpeer hroom.le
  have hbefore := h.counted_idle hidle
  have hrejections := fun p => hhist ▸ rejections_answered hist id peer p (.result .rejected)
  refine h.resting hidle hphase (fun p => ?_) (fun p => ?_) fun p => (hcount p).2.1
  · rw [hrejections]
    split
    · rename_i heq
      rw [heq.1]
      exact (Nat.add_le_add_right (hbefore peer) 1).trans hself
    · exact (hbefore p).trans (hcount p).1
  · rw [hrejections]
    split
    · rename_i heq
      rw [heq.1]
      exact Nat.succ_le_of_lt ((hbefore peer).trans_lt hroom)
    · exact h.bound p

end Fields

variable {E : Crypto} {peers : Peers P} {s s' : Sync P} {peer : P}

theorem frame (h : s.Metered peers) (hframe : Sync.Frame s s') : s'.Metered peers := by
  unfold Sync.Metered
  rw [hframe.history, hframe.rejectedThisSync, hframe.promises, hframe.pc, hframe.phase,
    hframe.nextPeerIndex]
  exact h

omit [DecidableEq P] in
theorem awaiting_lt (hl : s.Linked peers) (p : P) (l : Locals) (r : FederationRecord)
    (rest : List FederationRecord)
    (k : Nat) (hpc : s.pc p = .applying l r rest (.awaiting k)) : k < s.promises.length := by
  obtain ⟨promise, hpromise, -⟩ := hl.awaiting p l r rest k hpc
  exact (List.getElem?_eq_some_iff.mp hpromise).1

theorem applied (h : s.Metered peers) (hl : s.Linked peers) (hold : s.pc peer ≠ .idle)
    (hpc : ∀ l r rest k, s.pc peer = .applying l r rest (.awaiting k) →
      ∃ promise, s.promises[k]? = some promise ∧ promise.result ≠ none)
    (hnone : pendingRejection s.promises peer (s.pc peer) = 0) {l : Locals} {r : FederationRecord}
    {rest : List FederationRecord} {at_ : Applying} (happlied : Sync.Applied s r peer s' at_) :
    (s'.goto peer (.applying l r rest at_)).Metered peers := by
  have honward :
    ∀ at_, s.Metered peers → Metered peers s.history.rejections s.rejectedThisSync s.promises
      (Function.update s.pc peer (.applying l r rest at_)) s.phase s.nextPeerIndex := by
    intro at_ h
    exact h.onward hold hpc (by rw [hnone]; exact Nat.zero_le _)
  cases happlied with
  | forced => exact honward _ h
  | known => exact honward _ h
  | asked d next hget hnew hdefer =>
    have hframe := hdefer.frame
    have hasked := honward (.asking d.serial) h
    show Metered peers next.history.rejections next.rejectedThisSync next.promises
      (Function.update next.pc peer (.applying l r rest (.asking d.serial))) next.phase
        next.nextPeerIndex
    rw [hframe.history, hframe.rejectedThisSync, hframe.promises, hframe.pc, hframe.phase,
      hframe.nextPeerIndex]
    exact hasked
  | joined k hget => exact honward _ h
  | applied hget => exact h.opened hold hpc hnone l r rest r.eventId (awaiting_lt hl)

theorem moved (h : s.Metered peers) (hl : s.Linked peers) (hmoved : Sync.Moved E peers s s') :
    s'.Metered peers := by
  have hactive : ∀ {p : P} {pc : Pc}, s.pc p = pc → pc.active = true → s.pc p ≠ .idle := by
    rintro p pc rfl hat hidle
    rw [hidle] at hat
    cases hat
  cases hmoved with
  | stay => exact h
  -- A new pass starts with no worker under way, and clears the counts.
  | started hphase =>
    have hidle : ∀ p, s.pc p = .idle := by
      refine hl.quiet.resolve_left fun hsyncing => ?_
      rw [hsyncing] at hphase
      cases hphase
    unfold Sync.syncAll
    rw [hphase]
    exact ⟨fun p => Nat.zero_le _, fun p => Nat.zero_le _, fun p => Nat.zero_le _,
      fun _ p hp => absurd (hidle p) hp,
      fun k p id hk => (by cases hk), fun _ i p hi hp => ⟨rfl, hidle p⟩⟩
  | skipped peer hphase hurl =>
    exact ⟨h.counted, h.bound, h.capped, h.active, h.waits, fun hphase i p hi hp =>
      h.fresh hphase i p (Nat.le_of_succ_le hi) hp⟩
  -- The worker's peer was not taken up before in this pass, so its count stands at zero.
  | begun peer hphase hurl =>
    obtain ⟨hzero, hidle⟩ := h.fresh hphase _ peer (le_refl _) hurl
    refine ⟨fun p => ?_, h.bound, h.capped, fun _ p hp => ?_, fun k p id hk => ?_,
      fun _ i p hi hp => ?_⟩
    · show _ ≤ _ + pendingRejection s.promises p (Function.update s.pc peer _ p)
      by_cases heq : p = peer
      · subst heq
        have hcounted := h.counted p
        rw [hidle] at hcounted
        rw [Function.update_self]
        exact hcounted
      · rw [Function.update_of_ne heq]
        exact h.counted p
    · by_cases heq : p = peer
      · show countOf s.rejectedThisSync p < _
        rw [heq, hzero]
        decide
      · refine h.active hphase p fun hidle' => hp ?_
        exact (Function.update_of_ne heq _ _).trans hidle'
    · obtain ⟨l, r, rest, hat⟩ := h.waits k p id hk
      have hne : p ≠ peer := by
        rintro rfl
        rw [hidle] at hat
        cases hat
      exact ⟨l, r, rest, (Function.update_of_ne hne _ _).trans hat⟩
    -- The peers behind the next index are others, since no peer is configured twice.
    · have hlt : s.nextPeerIndex < i := hi
      obtain ⟨hzero', hidle'⟩ := h.fresh hphase i p hlt.le hp
      have hne : p ≠ peer := by
        rintro rfl
        have hindex :=
          (List.getElem?_inj (List.getElem?_eq_some_iff.mp hurl).1 peers.distinct).mp
            (hurl.trans hp.symm)
        omega
      exact ⟨hzero', (Function.update_of_ne hne _ _).trans hidle'⟩
  | failed peer hleaves =>
    refine h.onward (hactive rfl hleaves.active) (fun l r rest k hpc => ?_) ?_
    · obtain ⟨promise, hpromise, hresult⟩ := hleaves.awaiting l r rest k hpc
      exact ⟨promise, hpromise, by rw [hresult]; simp⟩
    · unfold pendingRejection
      split
      · rename_i hpc
        exact absurd hpc (hleaves.returned _ _ _ _)
      · rename_i l r rest k hpc
        obtain ⟨promise, hpromise, hresult⟩ := hleaves.awaiting l r rest k hpc
        split
        · rename_i heq
          rw [hpromise] at heq
          cases heq
          cases hresult
        · exact Nat.zero_le _
      · exact Nat.zero_le _
  | received peer l seen hpc raw hparse hprogress hnew =>
    exact h.onward (hactive hpc rfl) (by simp [hpc]) (by rw [hpc]; exact Nat.zero_le _)
  | emptied peer l hpc =>
    exact h.onward (hactive hpc rfl) (by simp [hpc]) (by rw [hpc]; exact Nat.zero_le _)
  | applies peer l r rest next at_ hpc happlied =>
    exact h.applied hl (hactive hpc rfl) (by simp [hpc]) (by rw [hpc]; rfl) happlied
  | resolved k peer id answer hpromise =>
    obtain ⟨l, r, rest, hat⟩ := h.waits k peer id hpromise
    exact h.resolved hpromise (hl.under_way (by rw [hat]; rfl)).1 answer s.history rfl
  | returned peer l r rest k promise result hpc hpromise hresult hne =>
    refine h.onward (hactive hpc rfl) (fun _ _ _ _ hat => ?_) ?_
    · rw [hpc] at hat
      cases hat
      exact ⟨promise, hpromise, by rw [hresult]; simp⟩
    · rw [hpc, pendingRejection, hpromise]
      obtain ⟨applier, id, answer⟩ := promise
      cases hresult
      cases result with
      | rejected =>
        dsimp only [pendingRejection]
        split
        · exact le_refl 1
        · exact Nat.zero_le 1
      | applied => exact Nat.zero_le _
      | deferred => exact Nat.zero_le _
  | deferredOwn peer l r rest k promise hpc hpromise hresult happlier kept hdefer =>
    have hkept : kept.Metered peers := Metered.frame (s := s.forget r.eventId k) h hdefer.frame
    have hpc' : kept.pc peer = .applying l r rest (.awaiting k) :=
      by rw [hdefer.frame.pc]; exact hpc
    have hpromise' : kept.promises[k]? = some promise :=
      by rw [hdefer.frame.promises]; exact hpromise
    refine hkept.onward (by rw [hpc']; simp) (fun _ _ _ _ hat => ?_) ?_
    · rw [hpc'] at hat
      cases hat
      exact ⟨promise, hpromise', by rw [hresult]; simp⟩
    · rw [hpc', pendingRejection, hpromise']
      obtain ⟨applier, id, answer⟩ := promise
      cases hresult
      exact Nat.zero_le _
  | deferredOther peer l r rest k promise hpc hpromise hresult happlier kept hdefer next at_
    happlied =>
    have hkept : kept.Metered peers := Metered.frame (s := s.forget r.eventId k) h hdefer.frame
    have hlinked := (hl.forget r.eventId k).frame hdefer.frame
    have hpc' : kept.pc peer = .applying l r rest (.awaiting k) :=
      by rw [hdefer.frame.pc]; exact hpc
    have hpromise' : kept.promises[k]? = some promise :=
      by rw [hdefer.frame.promises]; exact hpromise
    refine hkept.applied hlinked (by rw [hpc']; simp) (fun _ _ _ _ hat => ?_) ?_ happlied
    · rw [hpc'] at hat
      cases hat
      exact ⟨promise, hpromise', by rw [hresult]; simp⟩
    · rw [hpc', pendingRejection, hpromise']
      obtain ⟨applier, id, answer⟩ := promise
      cases hresult
      rfl
  | rotated peer l r rest serial hpc =>
    exact h.onward (hactive hpc rfl) (by simp [hpc]) (by rw [hpc]; exact Nat.zero_le _)
  | replied peer l r rest serial result hpc hne =>
    exact h.replied (hl.under_way (by rw [hpc]; rfl)).1 hpc r.eventId result s.history rfl
  -- Only a rejection counts, and it lets the worker go on only below the quota.
  | proceeded peer l r rest result hpc counted hcounted pc hquota hnext =>
    by_cases hresult : result = .rejected
    · subst hresult
      rw [if_pos rfl] at hcounted
      subst hcounted
      refine h.tallied (hl.under_way (by rw [hpc]; rfl)).1 hpc fun hne => ?_
      by_contra hover
      exact hne (hquota rfl (decide_eq_false hover))
    · rw [if_neg hresult] at hcounted
      subst hcounted
      refine h.onward (hactive hpc rfl) (by simp [hpc]) ?_
      rw [hpc]
      cases result with
      | rejected => exact absurd rfl hresult
      | applied => exact Nat.zero_le _
      | deferred => exact Nat.zero_le _
  | forcedReset peer l hpc hforced =>
    exact h.onward (hactive hpc rfl) (by simp [hpc]) (by rw [hpc]; exact Nat.zero_le _)
  | committed peer l hpc hfree pc hnext =>
    exact h.onward (hactive hpc rfl) (by simp [hpc]) (by rw [hpc]; exact Nat.zero_le _)
  | gathered hphase hdone =>
    have hidle :=
      (hl.moved (Sync.Moved.gathered (E := E) hphase hdone)).quiet.resolve_left (by simp)
    exact h.resting hidle (by simp) (h.counted_idle hidle) h.bound h.capped
  | passed phase hphase hnext =>
    have hidle := hl.quiet.resolve_left hphase
    exact h.resting hidle hnext (h.counted_idle hidle) h.bound h.capped
  | expired id d phase hphase hnext hget =>
    have hidle := hl.quiet.resolve_left hphase
    exact h.resting hidle hnext (h.counted_idle hidle) h.bound h.capped
  -- Retries come behind all workers; they read the quota before they call.
  | retried id d phase hphase hnext hget hattempts peer hpeer hquota next hretry =>
    have hidle := hl.quiet.resolve_left hphase
    have hcounted := h.counted_idle hidle
    cases hretry with
    | kept d' hevent hsources hpeer' hattempts' =>
      exact h.resting hidle hnext hcounted h.bound h.capped
    | applied => exact h.resting hidle hnext hcounted h.bound h.capped
    | rejected =>
      exact h.refused hidle hnext hpeer (of_decide_eq_true hquota) id
        (s.history.called ⟨id, d.event, peer⟩) rfl

end Metered

/-! ## Runs -/

theorem metered_start (peers : Peers P) : ({} : Sync P).Metered peers where
  counted p := Nat.zero_le _
  bound p := Nat.zero_le _
  capped p := Nat.zero_le _
  active _ p hp := absurd rfl hp
  waits k p id hk := by cases hk
  fresh hphase := by cases hphase

/-- In one `syncAll` the callback rejects at most eight calls in the name of a peer, those of the
retries included. -/
theorem run_rejections_bounded (E : Crypto) (peers : Peers P) (is : List (Input P)) (peer : P) :
    (run (Sync.step E peers) {} is).history.rejections peer ≤ maxRejectedEventsPerSync := by
  have h : Sync.Metered peers (run (Sync.step E peers) {} is) :=
    run_of_moved E peers (metered_start peers) (fun _ _ hl hm hmoved => hm.moved hl hmoved) is
  exact h.bound peer

end QuantaSwap.Feed.PeerSync
