import Mathlib.Algebra.Group.Nat.Defs
import Mathlib.Data.List.Nodup
import QuantaSwap.Lib.Run

/-!
# What the browser observes of a mirror

The entries that `FederatedOrderBook` of `frontend/src/lib/mirrorBook.ts` keeps for one mirror.
Lists are asked for by `refreshClients` and answered at any later time, streams bring rows by
themselves, and a subscription that ends takes its stream along. The generation tells what was
observed since.
-/

set_option autoImplicit false

namespace QuantaSwap.Browser

open Lib.Run

def MIRROR_RETRY_BASE_MS : ℕ := 10000

def MIRROR_RETRY_MAX_MS : ℕ := 5 * 60 * 1000

inductive MirrorAvailability where
  | checking
  | available
  | unavailable
  deriving DecidableEq, Repr

inductive MirrorStreamState where
  | connecting
  | open
  | closed
  deriving DecidableEq, Repr

structure MirrorRetryState where
  failures : ℕ := 0
  nextAttemptAt : ℕ := 0
  deriving DecidableEq, Repr

/-- `answered` is behind `then` or `catch`, `finished` behind `finally`. -/
inductive ListPhase where
  | asked
  | answered
  | finished
  deriving DecidableEq, Repr

/-- A `list()` and the generation it was asked in. -/
structure ListRequest where
  generation : ℕ
  phase : ListPhase
  deriving DecidableEq, Repr

/-- `broughtBy` is the generation of the observation that the entries are from. -/
structure MirrorEntries (O : Type*) where
  snapshot : Option O := none
  availability : MirrorAvailability := .checking
  stream : MirrorStreamState := .closed
  lastSuccessAt : Option ℕ := none
  generation : ℕ := 0
  retry : MirrorRetryState := {}
  requests : List ListRequest := []
  inFlight : Option ℕ := none
  subscriptions : List Bool := []
  broughtBy : ℕ := 0

namespace MirrorEntries

variable {O : Type*} (m : MirrorEntries O)

def markAvailable (successfulAt : ℕ) : MirrorEntries O :=
  { m with retry := {}, availability := .available, lastSuccessAt := some successfulAt }

def markUnavailable (now : ℕ) : MirrorEntries O :=
  let failures := min (m.retry.failures + 1) 31
  let delay := min (MIRROR_RETRY_BASE_MS * 2 ^ (failures - 1)) MIRROR_RETRY_MAX_MS
  { m with
    snapshot := none
    availability := .unavailable
    retry := { failures, nextAttemptAt := now + delay } }

def nextGeneration : MirrorEntries O := { m with generation := m.generation + 1 }

/-- The rows of an observation, `none` when it failed or `acceptsSnapshot` refuses them. -/
def observe (rows : Option O) (now : ℕ) : MirrorEntries O :=
  let m := { m with broughtBy := m.generation }
  match rows with
  | some orders => { m with snapshot := some orders }.markAvailable now
  | none => m.markUnavailable now

def refresh : MirrorEntries O :=
  match m.inFlight with
  | some _ => m
  | none =>
    let m := m.nextGeneration
    { m with
      requests := m.requests ++ [⟨m.generation, .asked⟩]
      inFlight := some m.requests.length }

def disconnected (now : ℕ) : Bool :=
  if m.availability = .unavailable ∧ now < m.retry.nextAttemptAt then false
  else m.stream ≠ .open || m.availability ≠ .available

/-- An answer counts when nothing was observed since it was asked for. -/
def answer (k : ℕ) (rows : Option O) (now : ℕ) : MirrorEntries O :=
  match m.requests[k]? with
  | some ⟨generation, .asked⟩ =>
    let after := { m with requests := m.requests.set k ⟨generation, .answered⟩ }
    if m.generation = generation then after.observe rows now else after
  | _ => m

def finish (k : ℕ) : MirrorEntries O :=
  match m.requests[k]? with
  | some ⟨generation, .answered⟩ =>
    { m with
      requests := m.requests.set k ⟨generation, .finished⟩
      inFlight := if m.inFlight = some k then none else m.inFlight }
  | _ => m

/-- The status while a stream is opened. -/
def connect : MirrorEntries O :=
  { m with
    stream := .connecting
    availability := if m.availability = .unavailable then .checking else m.availability }

/-- Only the primary mirror has a stream; `opens` when it can be opened. -/
def subscribe (primary opens : Bool) (now : ℕ) : MirrorEntries O :=
  let m := { m with subscriptions := m.subscriptions ++ [true] }
  if primary then
    if opens then m.connect else
      { m.connect.nextGeneration.observe none now with stream := .closed }
  else m

def active (k : ℕ) : Bool := m.subscriptions[k]? = some true

def streamRows (k : ℕ) (rows : Option O) (now : ℕ) : MirrorEntries O :=
  if m.active k then
    { m.nextGeneration.observe rows now with stream := if rows.isSome then .open else .closed }
  else m

def streamOpen (k : ℕ) : MirrorEntries O := if m.active k then { m with stream := .open } else m

def streamClose (k : ℕ) (now : ℕ) : MirrorEntries O :=
  if m.active k then { m.nextGeneration.observe none now with stream := .closed } else m

def unsubscribe (k : ℕ) (now : ℕ) : MirrorEntries O :=
  if m.active k then
    let m : MirrorEntries O :=
      { m with subscriptions := m.subscriptions.set k false, inFlight := none }
    { m.nextGeneration.observe none now with stream := .closed }
  else m

/-- `current` no longer accepts the rows that it shows. -/
def invalidate (now : ℕ) : MirrorEntries O :=
  if m.availability = .available ∧ m.snapshot.isSome then m.markUnavailable now else m

end MirrorEntries

inductive MirrorEvent (O : Type*) where
  | refresh
  | refreshDisconnected (now : ℕ)
  | answer (k : ℕ) (rows : Option O) (now : ℕ)
  | finish (k : ℕ)
  | subscribe (primary opens : Bool) (now : ℕ)
  | streamRows (k : ℕ) (rows : Option O) (now : ℕ)
  | streamOpen (k : ℕ)
  | streamClose (k now : ℕ)
  | unsubscribe (k now : ℕ)
  | invalidate (now : ℕ)

namespace MirrorEntries

variable {O : Type*}

def step (m : MirrorEntries O) : MirrorEvent O → MirrorEntries O
  | .refresh => m.refresh
  | .refreshDisconnected now => if m.disconnected now then m.refresh else m
  | .answer k rows now => m.answer k rows now
  | .finish k => m.finish k
  | .subscribe primary opens now => m.subscribe primary opens now
  | .streamRows k rows now => m.streamRows k rows now
  | .streamOpen k => m.streamOpen k
  | .streamClose k now => m.streamClose k now
  | .unsubscribe k now => m.unsubscribe k now
  | .invalidate now => m.invalidate now

/-- The requests of a mirror against its generations. -/
structure Ordered (requests : List ListRequest) (generation broughtBy : ℕ) : Prop where
  brought : broughtBy ≤ generation
  asked : ∀ r ∈ requests, r.generation ≤ generation
  waiting : ∀ r ∈ requests, r.phase = .asked → r.generation = generation → broughtBy < generation
  distinct : (requests.map ListRequest.generation).Nodup

/-- A request that can still be answered keeps its place, or the place is free. -/
def Free (requests : List ListRequest) (inFlight : Option ℕ) : Prop :=
  ∀ k, inFlight = some k → ∃ r, requests[k]? = some r ∧ r.phase ≠ .finished

structure Sound (m : MirrorEntries O) : Prop where
  shown : m.availability = .available ↔ m.snapshot.isSome = true
  ordered : Ordered m.requests m.generation m.broughtBy
  free : Free m.requests m.inFlight

/-- Rows that come are those of a later observation. -/
structure Later (m m' : MirrorEntries O) : Prop where
  brought : m.broughtBy ≤ m'.broughtBy
  rows : m'.snapshot = m.snapshot ∨ m'.snapshot = none ∨ m.broughtBy < m'.broughtBy

/-- One step keeps the books and goes forward. -/
structure Goes (m m' : MirrorEntries O) : Prop where
  sound : m'.Sound
  later : Later m m'

namespace Ordered

variable {requests : List ListRequest} {generation broughtBy k : ℕ}

theorem next (h : Ordered requests generation broughtBy) :
    Ordered requests (generation + 1) broughtBy where
  brought := Nat.le_succ_of_le h.brought
  asked r hr := Nat.le_succ_of_le (h.asked r hr)
  waiting r hr _ heq := by
    have := h.asked r hr
    omega
  distinct := h.distinct

theorem observed (h : Ordered requests generation broughtBy) :
    Ordered requests (generation + 1) (generation + 1) where
  brought := Nat.le_refl _
  asked r hr := Nat.le_succ_of_le (h.asked r hr)
  waiting r hr _ heq := by
    have := h.asked r hr
    omega
  distinct := h.distinct

theorem added (h : Ordered requests generation broughtBy) (phase : ListPhase) :
    Ordered (requests ++ [⟨generation + 1, phase⟩]) (generation + 1) broughtBy where
  brought := Nat.le_succ_of_le h.brought
  asked r hr := by
    rcases List.mem_append.mp hr with hr | hr
    · exact Nat.le_succ_of_le (h.asked r hr)
    · exact (List.mem_singleton.mp hr) ▸ Nat.le_refl _
  waiting r hr _ heq := Nat.lt_succ_of_le h.brought
  distinct := by
    rw [List.map_append, List.map_cons, List.map_nil]
    refine List.nodup_append.mpr ⟨h.distinct, List.nodup_singleton _, fun g hg g' hg' heq => ?_⟩
    obtain ⟨r, hr, hrg⟩ := List.mem_map.mp hg
    have hle := h.asked r hr
    have hnew : g' = generation + 1 := List.mem_singleton.mp hg'
    omega

theorem generations_set {r : ListRequest} (hr : requests[k]? = some r) (phase : ListPhase) :
    (requests.set k ⟨r.generation, phase⟩).map ListRequest.generation =
      requests.map ListRequest.generation := by
  obtain ⟨hk, rfl⟩ := List.getElem?_eq_some_iff.mp hr
  calc (requests.set k ⟨requests[k].generation, phase⟩).map ListRequest.generation
    _ = (requests.set k requests[k]).map ListRequest.generation :=
      by rw [List.map_set, List.map_set]
    _ = requests.map ListRequest.generation := by rw [List.set_getElem_self]

theorem moved (h : Ordered requests generation broughtBy) {r : ListRequest}
    (hr : requests[k]? = some r)
    {phase : ListPhase} (hphase : phase ≠ .asked) :
    Ordered (requests.set k ⟨r.generation, phase⟩) generation broughtBy where
  brought := h.brought
  asked q hq := by
    rcases List.mem_or_eq_of_mem_set hq with hq | rfl
    · exact h.asked q hq
    · exact h.asked r (List.mem_of_getElem? hr)
  waiting q hq hwaits heq := by
    rcases List.mem_or_eq_of_mem_set hq with hq | rfl
    · exact h.waiting q hq hwaits heq
    · exact absurd hwaits hphase
  distinct := by
    rw [generations_set hr]
    exact h.distinct

theorem answered (h : Ordered requests generation broughtBy)
    (hr : requests[k]? = some ⟨generation, .asked⟩) :
    Ordered (requests.set k ⟨generation, .answered⟩) generation generation where
  brought := Nat.le_refl _
  asked := (h.moved hr (by decide)).asked
  waiting q hq hwaits heq := by
    obtain ⟨j, hj⟩ := List.mem_iff_getElem?.mp hq
    rw [List.getElem?_set] at hj
    split at hj
    · split at hj
      · cases hj
        cases hwaits
      · cases hj
    · rename_i hne
      have hsame : (requests.map ListRequest.generation)[k]? =
        (requests.map ListRequest.generation)[j]? := by
        rw [List.getElem?_map, List.getElem?_map, hr, hj, Option.map_some, Option.map_some, heq]
      have hk : k < (requests.map ListRequest.generation).length := by
        rw [List.length_map]
        exact (List.getElem?_eq_some_iff.mp hr).1
      exact absurd ((List.getElem?_inj hk h.distinct).mp hsame) hne
  distinct := (h.moved hr (by decide)).distinct

end Ordered

theorem free_set {requests : List ListRequest} {inFlight : Option ℕ} {k : ℕ} {r r' : ListRequest}
    (h : Free requests inFlight) (hr : requests[k]? = some r)
    (hphase : r'.phase ≠ .finished ∨ inFlight ≠ some k) : Free (requests.set k r') inFlight := by
  intro j hj
  obtain ⟨q, hq, hopen⟩ := h j hj
  by_cases hkj : k = j
  · subst hkj
    refine ⟨r', ?_, hphase.resolve_right fun hne => hne hj⟩
    rw [List.getElem?_set, if_pos rfl, if_pos (List.getElem?_eq_some_iff.mp hr).1]
  · refine ⟨q, ?_, hopen⟩
    rw [List.getElem?_set, if_neg hkj]
    exact hq

variable {m : MirrorEntries O}

theorem asked_open : ListPhase.asked ≠ .finished := by decide

theorem answered_open : ListPhase.answered ≠ .finished := by decide

theorem Later.refl (m : MirrorEntries O) : Later m m := ⟨Nat.le_refl _, .inl rfl⟩

theorem shown_observe (m : MirrorEntries O) (rows : Option O) (now : ℕ) :
    (m.observe rows now).availability = .available ↔
    (m.observe rows now).snapshot.isSome = true := by
  unfold observe
  cases rows with
  | none => simp [markUnavailable]
  | some orders => simp [markAvailable]

theorem observe_books (m : MirrorEntries O) (rows : Option O) (now : ℕ) :
    (m.observe rows now).requests = m.requests ∧ (m.observe rows now).generation = m.generation ∧
      (m.observe rows now).broughtBy = m.generation ∧
      (m.observe rows now).inFlight = m.inFlight := by
  unfold observe
  cases rows with
  | none => exact ⟨rfl, rfl, rfl, rfl⟩
  | some orders => exact ⟨rfl, rfl, rfl, rfl⟩

namespace Sound

theorem observes (m n : MirrorEntries O) (hordered : Ordered n.requests n.generation n.broughtBy)
    (hfree : Free n.requests n.inFlight) (hbrought : m.broughtBy = n.broughtBy)
    (rows : Option O) (now : ℕ)
    (stream : MirrorStreamState) : Goes m { n.nextGeneration.observe rows now with stream } := by
  obtain ⟨hrequests, hgeneration, hfrom, hflight⟩ := observe_books n.nextGeneration rows now
  refine ⟨⟨shown_observe _ rows now, ?_, ?_⟩, ?_⟩
  · dsimp only
    rw [hrequests, hgeneration, hfrom]
    exact hordered.observed
  · dsimp only
    rw [hrequests, hflight]
    exact hfree
  · have hlater : m.broughtBy < n.nextGeneration.generation :=
      hbrought ▸ Nat.lt_succ_of_le hordered.brought
    refine ⟨?_, .inr (.inr ?_)⟩
    · dsimp only
      rw [hfrom]
      exact Nat.le_of_lt hlater
    · dsimp only
      rw [hfrom]
      exact hlater

theorem refresh (h : m.Sound) : Goes m m.refresh := by
  unfold MirrorEntries.refresh
  split
  · exact ⟨h, Later.refl m⟩
  · refine ⟨⟨h.shown, h.ordered.added .asked, ?_⟩, Nat.le_refl _, .inl rfl⟩
    intro k hk
    cases hk
    exact ⟨⟨m.generation + 1, .asked⟩, List.getElem?_concat_length, asked_open⟩

theorem answer (h : m.Sound) (k : ℕ) (rows : Option O) (now : ℕ) :
    Goes m (m.answer k rows now) := by
  unfold MirrorEntries.answer
  split
  · rename_i generation hr
    have hfree : Free (m.requests.set k ⟨generation, .answered⟩) m.inFlight :=
      free_set h.free hr (.inl answered_open)
    dsimp only
    split
    · rename_i hintime
      subst hintime
      obtain ⟨hrequests, hgeneration, hfrom, hflight⟩ :=
        observe_books { m with requests := m.requests.set k ⟨m.generation, .answered⟩ } rows now
      have hlater := h.ordered.waiting _ (List.mem_of_getElem? hr) rfl rfl
      refine ⟨⟨shown_observe _ rows now, ?_, ?_⟩, ?_, .inr (.inr ?_)⟩
      · rw [hrequests, hgeneration, hfrom]
        exact h.ordered.answered hr
      · rw [hrequests, hflight]
        exact hfree
      · rw [hfrom]
        exact h.ordered.brought
      · rw [hfrom]
        exact hlater
    · exact ⟨⟨h.shown, h.ordered.moved hr (by decide), hfree⟩, Nat.le_refl _, .inl rfl⟩
  · exact ⟨h, Later.refl m⟩

theorem finish (h : m.Sound) (k : ℕ) : Goes m (m.finish k) := by
  unfold MirrorEntries.finish
  split
  · rename_i generation hr
    refine ⟨⟨h.shown, h.ordered.moved hr (by decide), ?_⟩, Nat.le_refl _, .inl rfl⟩
    dsimp only
    split
    · intro j hj
      cases hj
    · rename_i hother
      exact free_set h.free hr (.inr hother)
  · exact ⟨h, Later.refl m⟩

theorem subscribe (h : m.Sound) (primary opens : Bool) (now : ℕ) :
    Goes m (m.subscribe primary opens now) := by
  unfold MirrorEntries.subscribe
  dsimp only
  split
  · split
    · refine ⟨⟨?_, h.ordered, h.free⟩, Nat.le_refl _, .inl rfl⟩
      unfold connect
      dsimp only
      split
      · rename_i hunavailable
        have hshown := h.shown
        rw [hunavailable] at hshown
        simpa using hshown
      · exact h.shown
    · exact observes m
        (connect { m with subscriptions := m.subscriptions ++ [true] }) h.ordered h.free rfl
        none now .closed
  · exact ⟨⟨h.shown, h.ordered, h.free⟩, Nat.le_refl _, .inl rfl⟩

theorem streamRows (h : m.Sound) (k : ℕ) (rows : Option O) (now : ℕ) :
    Goes m (m.streamRows k rows now) := by
  unfold MirrorEntries.streamRows
  split
  · exact observes m m h.ordered h.free rfl rows now _
  · exact ⟨h, Later.refl m⟩

theorem streamOpen (h : m.Sound) (k : ℕ) : Goes m (m.streamOpen k) := by
  unfold MirrorEntries.streamOpen
  split
  · exact ⟨⟨h.shown, h.ordered, h.free⟩, Nat.le_refl _, .inl rfl⟩
  · exact ⟨h, Later.refl m⟩

theorem streamClose (h : m.Sound) (k now : ℕ) : Goes m (m.streamClose k now) := by
  unfold MirrorEntries.streamClose
  split
  · exact observes m m h.ordered h.free rfl none now .closed
  · exact ⟨h, Later.refl m⟩

theorem unsubscribe (h : m.Sound) (k now : ℕ) : Goes m (m.unsubscribe k now) := by
  unfold MirrorEntries.unsubscribe
  split
  · refine observes m { m with subscriptions := m.subscriptions.set k false, inFlight := none }
      h.ordered ?_ rfl
      none now .closed
    intro j hj
    cases hj
  · exact ⟨h, Later.refl m⟩

theorem invalidate (h : m.Sound) (now : ℕ) : Goes m (m.invalidate now) := by
  unfold MirrorEntries.invalidate
  split
  · exact ⟨⟨by simp [markUnavailable], h.ordered, h.free⟩, Nat.le_refl _, .inr (.inl rfl)⟩
  · exact ⟨h, Later.refl m⟩

theorem step (h : m.Sound) (event : MirrorEvent O) : Goes m (m.step event) := by
  cases event with
  | refresh => exact h.refresh
  | refreshDisconnected now =>
    unfold MirrorEntries.step
    dsimp only
    split
    · exact h.refresh
    · exact ⟨h, Later.refl m⟩
  | answer k rows now => exact h.answer k rows now
  | finish k => exact h.finish k
  | subscribe primary opens now => exact h.subscribe primary opens now
  | streamRows k rows now => exact h.streamRows k rows now
  | streamOpen k => exact h.streamOpen k
  | streamClose k now => exact h.streamClose k now
  | unsubscribe k now => exact h.unsubscribe k now
  | invalidate now => exact h.invalidate now

theorem start : Sound ({} : MirrorEntries O) where
  shown := by simp
  ordered := ⟨Nat.le_refl _, fun r hr => (by cases hr), fun r hr => (by cases hr), List.nodup_nil⟩
  free k hk := by cases hk

end Sound

theorem answer_superseded {k : ℕ} {r : ListRequest} (hr : m.requests[k]? = some r)
    (hsuperseded : r.generation ≠ m.generation) (rows : Option O) (now : ℕ) :
    m.answer k rows now = m ∨ m.answer k rows now =
      { m with requests := m.requests.set k ⟨r.generation, .answered⟩ } := by
  unfold answer
  split
  · rename_i generation hasked
    rw [hr] at hasked
    cases hasked
    dsimp only
    rw [if_neg (Ne.symm hsuperseded)]
    exact .inr rfl
  · exact .inl rfl

/-- Whatever is asked, answered, streamed and ended in whatever order: rows are there when the
mirror is available and only then, rows that come are from a later observation than those that they
replace, an answer that was superseded leaves at most its own mark, and a finished request keeps
nobody from asking again. -/
theorem run_observed (before : List (MirrorEvent O)) (event : MirrorEvent O) :
    (run step {} before).Sound ∧ Later (run step {} before) ((run step {} before).step event) ∧
      ∀ (k : ℕ) (r : ListRequest), (run step {} before).requests[k]? = some r →
        r.generation ≠ (run step {} before).generation → ∀ (rows : Option O) (now : ℕ),
          (run step {} before).answer k rows now = run step {} before ∨
            (run step {} before).answer k rows now = { run step {} before with
              requests := (run step {} before).requests.set k ⟨r.generation, .answered⟩ } := by
  have h : (run step {} before).Sound :=
    invariant (fun _ e h => (h.step e).sound) Sound.start before
  exact ⟨h, (h.step event).later,
    fun k r hr hsuperseded rows now => answer_superseded hr hsuperseded rows now⟩

/-- A list is asked for, the stream is faster. -/
example : (run step ({} : MirrorEntries ℕ)
    [.subscribe true true 0, .refresh, .streamRows 0 (some 7) 1, .answer 0 (some 5) 2]).snapshot =
      some 7 := by
  decide

end MirrorEntries

end QuantaSwap.Browser
