import QuantaSwap.Lib.Run
import QuantaSwap.Book.Published

/-!
# Group commits

`persist`, `flush`, `runCommits` and `failCommit`, around the store. A commit runs
from the snapshot to its waiters without a pause, so the only calls that meet a
running commit are those of its own listeners.
-/

set_option autoImplicit false

namespace QuantaSwap.Book

open Lib.Run

/-- What `writeSnapshot` came to. An unsynced file was replaced before the write failed. -/
inductive SaveResult where
  | saved
  | refused
  | unsynced
  deriving DecidableEq

/-- Where `runCommits` stands. -/
inductive Phase where
  | idle
  | scheduled
  /-- The file is written and the feed's listener has the batch. -/
  | feeding (events : List FederationEvent)
  /-- `notify`, after the feed took the batch. -/
  | notifying
  /-- `onPersistenceFailure`, at the end of `failCommit`. -/
  | failing

/-- The store with its commit loop. A flush is known by its number. -/
structure Committer where
  store : Store
  /-- The rows of the orders file. -/
  file : List Order
  phase : Phase := .idle
  commitFailure : Bool := false
  runningCommitWaiters : List Nat := []
  nextCommitWaiters : List Nat := []
  flushes : Nat := 0
  resolved : List Nat := []
  rejected : List Nat := []
  /-- Every event that a call published, in the order of the calls. -/
  recorded : List FederationEvent := []
  /-- Every event that the feed took. -/
  published : List FederationEvent := []

/-- What happens to the store, inside a listener or out of it. -/
inductive CommitInput where
  | call (i : Step)
  | flush
  /-- The `setImmediate` callback, with the result of the write it starts with. -/
  | turn (result : SaveResult)
  /-- The feed's listener returned, or it threw. -/
  | fed (ok : Bool)
  /-- The observers returned; the result is that of the next write, if there is one. -/
  | notified (result : SaveResult)
  /-- `onPersistenceFailure` returned. -/
  | stopped

namespace Committer

/-- A store that `load` read, before its first commit. -/
def start (orders : List Order) (seenAt : OrderId → Nat) : Committer where
  store := { orders, seenAt }
  file := orders

def committing (c : Committer) : Bool :=
  match c.phase with
  | .idle => false
  | _ => true

def startCommitLoop (c : Committer) : Committer := { c with phase := .scheduled }

section Steps

variable (E : Crypto)

/-- `persist`, for a store that is dirty already. -/
def persist (c : Committer) : Committer :=
  if c.store.dirty && !c.committing && !c.commitFailure then c.startCommitLoop else c

/-- A call of the store, and the commit that it schedules. -/
def call (i : Step) (c : Committer) : Committer :=
  let store := Book.step E c.store i
  let events := store.pendingFederationEvents.drop c.store.pendingFederationEvents.length
  persist { c with store, recorded := c.recorded ++ events }

def flush (c : Committer) : Committer :=
  let waiter := c.flushes
  let c := { c with flushes := waiter + 1 }
  if c.commitFailure then { c with rejected := c.rejected ++ [waiter] }
  else if c.store.dirty then
    let c := if c.committing then c else c.startCommitLoop
    { c with nextCommitWaiters := c.nextCommitWaiters ++ [waiter] }
  else if c.committing then { c with runningCommitWaiters := c.runningCommitWaiters ++ [waiter] }
  else { c with resolved := c.resolved ++ [waiter] }

def failCommit (c : Committer) : Committer :=
  { c with
    commitFailure := true
    rejected := c.rejected ++ (c.runningCommitWaiters ++ c.nextCommitWaiters)
    runningCommitWaiters := []
    nextCommitWaiters := []
    store := { c.store with pendingFederationEvents := [] }
    phase := .failing }

/-- The batch is taken over: what comes now belongs to the next commit. -/
def takeBatch (c : Committer) : Committer :=
  { c with
    store := { c.store with dirty := false, pendingFederationEvents := [] }
    runningCommitWaiters := c.nextCommitWaiters
    nextCommitWaiters := [] }

/-- `writeSnapshot`, up to the listener of the feed. -/
def save (result : SaveResult) (events : List FederationEvent) (c : Committer) : Committer :=
  match result with
  | .saved => { c with file := c.store.orders, phase := if events.isEmpty then .notifying else .feeding events }
  | .refused => c.failCommit
  | .unsynced => failCommit { c with file := c.store.orders }

/-- The head of the `while` loop. -/
def runCommits (result : SaveResult) (c : Committer) : Committer :=
  if c.store.dirty && !c.commitFailure then c.takeBatch.save result c.store.pendingFederationEvents
  else { c with phase := .idle }

def settle (c : Committer) : Committer :=
  { c with resolved := c.resolved ++ c.runningCommitWaiters, runningCommitWaiters := [] }

def step (c : Committer) : CommitInput → Committer
  | .call i => c.call E i
  | .flush => c.flush
  | .turn result =>
    match c.phase with
    | .scheduled => c.runCommits result
    | _ => c
  | .fed ok =>
    match c.phase with
    | .feeding events =>
      if ok then { c with published := c.published ++ events, phase := .notifying } else
        c.failCommit
    | _ => c
  | .notified result =>
    match c.phase with
    | .notifying => c.settle.runCommits result
    | _ => c
  | .stopped =>
    match c.phase with
    | .failing => { c with phase := .idle }
    | _ => c

end Steps

/-! ## What holds in every state -/

/-- The events of the running batch that the feed has yet to take. -/
def batch (c : Committer) : List FederationEvent :=
  match c.phase with
  | .feeding events => events
  | _ => []

/-- Every flush so far, settled or waiting. -/
def waiters (c : Committer) : List Nat :=
  c.resolved ++ (c.rejected ++ (c.runningCommitWaiters ++ c.nextCommitWaiters))

structure Sound (c : Committer) : Prop where
  /-- Without a failure every recorded event is with the feed, in the batch, or pending. -/
  handed : c.commitFailure = false →
    c.recorded = c.published ++ c.batch ++ c.store.pendingFederationEvents
  published : c.published <+: c.recorded
  clean : c.commitFailure = false → c.store.dirty = false →
    c.file = c.store.orders ∧ c.store.pendingFederationEvents = []
  idle : c.commitFailure = false → c.phase = .idle → c.store.dirty = false
  scheduled : c.phase = .scheduled → c.commitFailure = false ∧ c.store.dirty = true
  failed : c.commitFailure = true →
    (c.phase = .idle ∨ c.phase = .failing) ∧ c.runningCommitWaiters = [] ∧ c.nextCommitWaiters = []
  failing : c.phase = .failing → c.commitFailure = true
  running : c.phase = .idle ∨ c.phase = .scheduled → c.runningCommitWaiters = []
  next : c.nextCommitWaiters ≠ [] → c.store.dirty = true
  numbered : c.waiters.Perm (List.range c.flushes)

section Sound

variable {E : Crypto} {c : Committer}

theorem committing_eq_false : c.committing = false ↔ c.phase = .idle := by
  unfold committing
  cases c.phase <;> simp

theorem sound_start (orders : List Order) (seenAt : OrderId → Nat) :
    (start orders seenAt).Sound where
  handed _ := rfl
  published := List.prefix_rfl
  clean _ _ := ⟨rfl, rfl⟩
  idle _ _ := rfl
  scheduled h := by cases h
  failed h := by cases h
  failing h := by cases h
  running _ := rfl
  next h := absurd rfl h
  numbered := List.Perm.refl _

theorem call_pending (E : Crypto) (i : Step) (s : Store) :
    (Book.step E s i).pendingFederationEvents = s.pendingFederationEvents ++
      (Book.step E s i).pendingFederationEvents.drop s.pendingFederationEvents.length := by
  obtain ⟨events, hevents⟩ := (step_marked E s i).pending
  rw [← hevents, List.drop_left]

theorem Sound.call (h : c.Sound) (i : Step) : (c.call E i).Sound := by
  have hmark := step_marked E c.store i
  have hpending := call_pending E i c.store
  have hdirty : c.nextCommitWaiters ≠ [] → (Book.step E c.store i).dirty = true :=
    fun hne => hmark.dirty (h.next hne)
  -- A call that leaves the store clean has changed nothing.
  have hclean : c.commitFailure = false → (Book.step E c.store i).dirty = false →
      c.file = (Book.step E c.store i).orders ∧
        (Book.step E c.store i).pendingFederationEvents = [] := by
    intro hfail hclean
    obtain ⟨horders, hsame⟩ := hmark.clean hclean
    have hbefore : c.store.dirty = false := by
      rw [← Bool.not_eq_true]
      intro hd
      rw [hmark.dirty hd] at hclean
      cases hclean
    rw [horders, hsame]
    exact h.clean hfail hbefore
  have hhanded : c.commitFailure = false → c.recorded ++
      (Book.step E c.store i).pendingFederationEvents.drop c.store.pendingFederationEvents.length =
        c.published ++ c.batch ++ (Book.step E c.store i).pendingFederationEvents := by
    intro hfail
    rw [h.handed hfail, List.append_assoc, ← hpending]
  unfold Committer.call Committer.persist
  dsimp only
  split
  · rename_i hcond
    simp only [Bool.and_eq_true, Bool.not_eq_true'] at hcond
    obtain ⟨⟨hdirty', hidle⟩, hfail⟩ := hcond
    have hphase : c.phase = .idle := committing_eq_false.mp hidle
    have hbatch : c.batch = [] := by rw [batch, hphase]
    exact {
      handed := fun _ => by
        have := hhanded hfail
        rw [hbatch] at this
        exact this
      published := h.published.trans (List.prefix_append _ _)
      clean := hclean
      idle := fun _ hp => by cases hp
      scheduled := fun _ => ⟨hfail, hdirty'⟩
      failed := fun hf => by rw [show c.commitFailure = true from hf] at hfail; cases hfail
      failing := fun hp => by cases hp
      running := fun _ => h.running (.inl hphase)
      next := hdirty
      numbered := h.numbered }
  · rename_i hcond
    exact {
      handed := hhanded
      published := h.published.trans (List.prefix_append _ _)
      clean := hclean
      idle := fun hf hp => by
        simp only [Bool.and_eq_true, Bool.not_eq_true', not_and, Bool.not_eq_false] at hcond
        rw [← Bool.not_eq_true]
        intro hd
        have := hcond ⟨hd, committing_eq_false.mpr hp⟩
        rw [show c.commitFailure = false from hf] at this
        cases this
      scheduled := fun hp => ⟨(h.scheduled hp).1, hmark.dirty (h.scheduled hp).2⟩
      failed := h.failed
      failing := h.failing
      running := h.running
      next := hdirty
      numbered := h.numbered }

theorem perm_range_succ {l l' : List Nat} {n : Nat} (h : l'.Perm (List.range n))
    (hnew : l.Perm (n :: l')) :
    l.Perm (List.range (n + 1)) := by
  rw [List.range_succ]
  exact hnew.trans ((h.cons n).trans (List.perm_append_singleton n _).symm)

theorem Sound.flush (h : c.Sound) : c.flush.Sound := by
  -- Wherever the new flush is put, the waiters stay a permutation of the flushes counted.
  have hcount (l : List Nat) (hl : ∀ w, l.count w = c.waiters.count w + [c.flushes].count w) :
      l.Perm (List.range (c.flushes + 1)) := by
    refine perm_range_succ h.numbered ?_
    rw [List.perm_iff_count]
    intro w
    simp only [hl, List.count_cons, List.count_nil]
    omega
  unfold Committer.flush
  dsimp only
  split
  · refine { h with numbered := hcount _ fun w => ?_ }
    simp only [waiters, List.count_append]
    omega
  · rename_i hfail
    split
    · rename_i hdirty
      split
      · refine { h with
          next := fun _ => hdirty
          failed := fun hf => absurd hf hfail
          numbered := hcount _ fun w => ?_ }
        simp only [waiters, List.count_append]
        omega
      · -- An idle store without a failure is not dirty.
        rename_i hidle
        rw [Bool.not_eq_true, committing_eq_false] at hidle
        have hclean := h.idle (by simpa using hfail) hidle
        rw [hclean] at hdirty
        cases hdirty
    · rename_i hclean
      split
      · rename_i hbusy
        have hphase : ¬(c.phase = .idle ∨ c.phase = .scheduled) := by
          rintro (hp | hp)
          · rw [← committing_eq_false] at hp
            rw [show c.committing = true from hbusy] at hp
            cases hp
          · exact hclean (h.scheduled hp).2
        refine { h with
          running := fun hp => absurd hp hphase
          failed := fun hf => absurd hf hfail
          numbered := hcount _ fun w => ?_ }
        simp only [waiters, List.count_append]
        omega
      · refine { h with numbered := hcount _ fun w => ?_ }
        simp only [waiters, List.count_append]
        omega

theorem sound_failCommit (hpublished : c.published <+: c.recorded)
    (hnumbered : c.waiters.Perm (List.range c.flushes)) :
    c.failCommit.Sound where
  handed h := by cases h
  published := hpublished
  clean h := by cases h
  idle h := by cases h
  scheduled h := by cases h
  failed _ := ⟨.inr rfl, rfl, rfl⟩
  failing _ := rfl
  running _ := rfl
  next h := absurd rfl h
  numbered := by
    refine List.Perm.trans ?_ hnumbered
    simp [failCommit, waiters]

theorem Sound.settle (h : c.Sound) (hphase : c.phase = .notifying) : c.settle.Sound := by
  refine { h with
    failed := fun hf => ?_
    running := fun _ => rfl
    numbered := h.numbered.symm.trans ?_ |>.symm }
  · rcases (h.failed hf).1 with hp | hp <;> rw [hphase] at hp <;> cases hp
  · simp only [waiters, Committer.settle, List.perm_iff_count, List.count_append, List.count_nil]
    intro w
    omega

/-- One round of the loop keeps the invariant. -/
theorem Sound.runCommits (h : c.Sound) (result : SaveResult) (hfail : c.commitFailure = false)
    (hphase : c.phase = .scheduled ∨ c.phase = .notifying)
    (hrunning : c.runningCommitWaiters = []) :
    (c.runCommits result).Sound := by
  have hbatch : c.batch = [] := by rcases hphase with hp | hp <;> rw [batch, hp]
  have hrecorded : c.recorded = c.published ++ c.store.pendingFederationEvents := by
    have := h.handed hfail
    rwa [hbatch, List.append_nil] at this
  have hnumbered : c.takeBatch.waiters.Perm (List.range c.flushes) := by
    have := h.numbered
    rw [waiters, hrunning] at this
    simpa [waiters, takeBatch] using this
  unfold Committer.runCommits
  split
  · rename_i hdirty
    cases result with
    | saved =>
      exact {
        handed := fun _ => by
          change c.recorded = c.published ++ batch _ ++ []
          unfold batch save
          dsimp only
          cases hevents : c.store.pendingFederationEvents with
          | nil => simpa [hevents] using hrecorded
          | cons e es => simpa [hevents] using hrecorded
        published := h.published
        clean := fun _ _ => ⟨rfl, rfl⟩
        idle := fun _ _ => rfl
        scheduled := fun hp => by
          simp only [save] at hp
          split at hp <;> cases hp
        failed := fun hf => by rw [show c.commitFailure = true from hf] at hfail; cases hfail
        failing := fun hp => by
          simp only [save] at hp
          split at hp <;> cases hp
        running := fun hp => by
          simp only [save] at hp
          split at hp <;> rcases hp with hp | hp <;> cases hp
        next := fun hne => absurd rfl hne
        numbered := hnumbered }
    | refused => exact sound_failCommit h.published hnumbered
    | unsynced => exact sound_failCommit h.published hnumbered
  · rename_i hclean
    have hclean : c.store.dirty = false := by simpa [hfail] using hclean
    have hnext : c.nextCommitWaiters = [] := by
      by_contra hne
      rw [h.next hne] at hclean
      cases hclean
    exact { h with
      handed := fun _ => by
        change c.recorded = c.published ++ [] ++ _
        rw [List.append_nil]
        exact hrecorded
      idle := fun _ _ => hclean
      scheduled := fun hp => by cases hp
      failed := fun hf => by rw [show c.commitFailure = true from hf] at hfail; cases hfail
      failing := fun hp => by cases hp
      running := fun _ => hrunning }

theorem Sound.step (h : c.Sound) (i : CommitInput) : (c.step E i).Sound := by
  cases i with
  | call i => exact h.call i
  | flush => exact h.flush
  | turn result =>
    unfold Committer.step
    dsimp only
    split
    · rename_i hphase
      exact h.runCommits result (h.scheduled hphase).1 (.inl hphase) (h.running (.inr hphase))
    · exact h
  | fed ok =>
    unfold Committer.step
    dsimp only
    split
    · rename_i events hphase
      have hbatch : c.batch = events := by rw [batch, hphase]
      -- Behind a failure the phase is idle or failing, not this one.
      have hfail : c.commitFailure = false := by
        rw [← Bool.not_eq_true]
        intro hf
        rcases (h.failed hf).1 with hp | hp <;> rw [hphase] at hp <;> cases hp
      split
      · have hrecorded := h.handed hfail
        rw [hbatch] at hrecorded
        exact { h with
          handed := fun _ => by
            change c.recorded = c.published ++ events ++ [] ++ _
            rw [List.append_nil]
            exact hrecorded
          published := ⟨c.store.pendingFederationEvents, hrecorded.symm⟩
          idle := fun _ hp => by cases hp
          scheduled := fun hp => by cases hp
          failed := fun hf => by rw [show c.commitFailure = true from hf] at hfail; cases hfail
          failing := fun hp => by cases hp
          running := fun hp => by rcases hp with hp | hp <;> cases hp }
      · exact sound_failCommit h.published h.numbered
    · exact h
  | notified result =>
    unfold Committer.step
    dsimp only
    split
    · rename_i hphase
      have hfail : c.commitFailure = false := by
        rw [← Bool.not_eq_true]
        intro hf
        rcases (h.failed hf).1 with hp | hp <;> rw [hphase] at hp <;> cases hp
      exact (h.settle hphase).runCommits result hfail (.inr hphase) rfl
    · exact h
  | stopped =>
    unfold Committer.step
    dsimp only
    split
    · rename_i hphase
      have hfail := h.failing hphase
      have hnone : c.commitFailure = false → False := fun hf => by rw [hfail] at hf; cases hf
      exact { h with
        handed := fun hf => (hnone hf).elim
        idle := fun hf => (hnone hf).elim
        scheduled := fun hp => by cases hp
        failed := fun _ => ⟨.inl rfl, (h.failed hfail).2⟩
        failing := fun hp => by cases hp
        running := fun _ => (h.failed hfail).2.1 }
    · exact h

end Sound

/-! ## One flush -/

/-- `K` holds of every orders map since flush `w`, which found the events `R` recorded. -/
structure Covered (K : List Order → Prop) (R : List FederationEvent) (w : Nat) (c : Committer) :
    Prop where
  counted : w < c.flushes
  now : K c.store.orders
  recorded : R <+: c.recorded
  resolved : w ∈ c.resolved → K c.file ∧ R <+: c.published
  running : w ∈ c.runningCommitWaiters → K c.file ∧ R <+: c.published ++ c.batch

section Covered

variable {E : Crypto} {c : Committer} {K K' : List Order → Prop}
  {R : List FederationEvent} {w : Nat}

theorem Covered.mono (h : Covered K R w c) (hmono : ∀ l, K l → K' l) : Covered K' R w c where
  counted := h.counted
  now := hmono _ h.now
  recorded := h.recorded
  resolved hw := ⟨hmono _ (h.resolved hw).1, (h.resolved hw).2⟩
  running hw := ⟨hmono _ (h.running hw).1, (h.running hw).2⟩

/-- The flush itself: what it finds is saved, or its waiter is in a list. -/
theorem Sound.covered (h : c.Sound) :
    Covered (· = c.store.orders) c.recorded c.flushes c.flush := by
  have hfresh : c.flushes ∉ c.waiters := by
    rw [h.numbered.mem_iff, List.mem_range]
    exact Nat.lt_irrefl _
  simp only [waiters, List.mem_append, not_or] at hfresh
  obtain ⟨hresolved, -, hrunning, -⟩ := hfresh
  unfold Committer.flush
  dsimp only
  split
  · exact ⟨Nat.lt_succ_self _, rfl, List.prefix_rfl, fun hw => absurd hw hresolved,
      fun hw => absurd hw hrunning⟩
  · rename_i hfail
    rw [Bool.not_eq_true] at hfail
    split
    · split
      · exact ⟨Nat.lt_succ_self _, rfl, List.prefix_rfl, fun hw => absurd hw hresolved,
          fun hw => absurd hw hrunning⟩
      · exact ⟨Nat.lt_succ_self _, rfl, List.prefix_rfl, fun hw => absurd hw hresolved,
          fun hw => absurd hw hrunning⟩
    · rename_i hclean
      rw [Bool.not_eq_true] at hclean
      obtain ⟨hfile, hpending⟩ := h.clean hfail hclean
      have hrecorded := h.handed hfail
      rw [hpending, List.append_nil] at hrecorded
      split
      · refine ⟨Nat.lt_succ_self _, rfl, List.prefix_rfl, fun hw => absurd hw hresolved,
          fun _ => ⟨hfile, ?_⟩⟩
        exact hrecorded ▸ List.prefix_rfl
      · rename_i hidle
        rw [Bool.not_eq_true, committing_eq_false] at hidle
        have hbatch : c.batch = [] := by rw [batch, hidle]
        rw [hbatch, List.append_nil] at hrecorded
        refine ⟨Nat.lt_succ_self _, rfl, List.prefix_rfl, fun _ => ⟨hfile, ?_⟩,
          fun hw => absurd hw hrunning⟩
        exact hrecorded ▸ List.prefix_rfl

theorem covered_failCommit (h : Covered K R w c) : Covered K R w c.failCommit where
  counted := h.counted
  now := h.now
  recorded := h.recorded
  resolved := h.resolved
  running hw := absurd hw List.not_mem_nil

theorem Covered.settle (h : Covered K R w c) (hphase : c.phase = .notifying) :
    Covered K R w c.settle := by
  refine { h with resolved := fun hw => ?_, running := fun hw => absurd hw List.not_mem_nil }
  rcases List.mem_append.mp hw with hw | hw
  · exact h.resolved hw
  · have hrunning := h.running hw
    rw [batch, hphase, List.append_nil] at hrunning
    exact hrunning

theorem Covered.runCommits (h : Covered K R w c) (hsound : c.Sound) (result : SaveResult)
    (hfail : c.commitFailure = false) (hphase : c.phase = .scheduled ∨ c.phase = .notifying)
    (hrunning : c.runningCommitWaiters = []) : Covered K R w (c.runCommits result) := by
  have hbatch : c.batch = [] := by rcases hphase with hp | hp <;> rw [batch, hp]
  have hrecorded : R <+: c.published ++ c.store.pendingFederationEvents := by
    have := hsound.handed hfail
    rw [hbatch, List.append_nil] at this
    exact this ▸ h.recorded
  unfold Committer.runCommits
  split
  · cases result with
    | saved =>
      refine ⟨h.counted, h.now, h.recorded, fun hw => ⟨h.now, (h.resolved hw).2⟩,
        fun _ => ⟨h.now, ?_⟩⟩
      unfold batch save
      dsimp only
      cases hevents : c.store.pendingFederationEvents with
      | nil => simpa [hevents, takeBatch] using hrecorded
      | cons e es => simpa [hevents, takeBatch] using hrecorded
    | refused => exact ⟨h.counted, h.now, h.recorded, h.resolved,
      fun hw => absurd hw List.not_mem_nil⟩
    | unsynced =>
      exact ⟨h.counted, h.now, h.recorded, fun hw => ⟨h.now, (h.resolved hw).2⟩,
        fun hw => absurd hw List.not_mem_nil⟩
  · refine { h with running := fun hw => ?_ }
    rw [show ({ c with phase := .idle } : Committer).runningCommitWaiters = [] from hrunning] at hw
    cases hw

theorem Covered.step (h : Covered K R w c) (hsound : c.Sound) (i : CommitInput)
    (hK : K (c.step E i).store.orders) :
    Covered K R w (c.step E i) := by
  cases i with
  | call i =>
    have hrecorded := h.recorded.trans (List.prefix_append c.recorded
      ((Book.step E c.store i).pendingFederationEvents.drop c.store.pendingFederationEvents.length))
    unfold Committer.step Committer.call Committer.persist at hK ⊢
    dsimp only at hK ⊢
    split
    · rename_i hcond
      rw [if_pos hcond] at hK
      simp only [Bool.and_eq_true, Bool.not_eq_true'] at hcond
      -- A turn is scheduled only out of the idle phase, where no flush is being served.
      have hnone := hsound.running (.inl (committing_eq_false.mp hcond.1.2))
      refine ⟨h.counted, hK, hrecorded, h.resolved, fun hw => ?_⟩
      have hmem : w ∈ c.runningCommitWaiters := hw
      rw [hnone] at hmem
      cases hmem
    · rename_i hcond
      rw [if_neg hcond] at hK
      exact ⟨h.counted, hK, hrecorded, h.resolved, h.running⟩
  | flush =>
    have hne : w ≠ c.flushes := Nat.ne_of_lt h.counted
    have hcounted : w < c.flushes + 1 := Nat.lt_succ_of_lt h.counted
    unfold Committer.step Committer.flush
    dsimp only
    split
    · exact { h with counted := hcounted }
    · split
      · split
        · exact { h with counted := hcounted }
        · rename_i hidle
          rw [Bool.not_eq_true, committing_eq_false] at hidle
          have hnone := hsound.running (.inl hidle)
          refine { h with counted := hcounted, running := fun hw => ?_ }
          have hmem : w ∈ c.runningCommitWaiters := hw
          rw [hnone] at hmem
          cases hmem
      · split
        · refine { h with counted := hcounted, running := fun hw => ?_ }
          rw [List.mem_append, List.mem_singleton] at hw
          exact h.running (hw.resolve_right hne)
        -- The flush that is new resolves at once; `w` is an older one.
        · refine { h with counted := hcounted, resolved := fun hw => ?_ }
          rw [List.mem_append, List.mem_singleton] at hw
          exact h.resolved (hw.resolve_right hne)
  | turn result =>
    unfold Committer.step
    dsimp only
    split
    · rename_i hphase
      exact h.runCommits hsound result (hsound.scheduled hphase).1 (.inl hphase)
        (hsound.running (.inr hphase))
    · exact h
  | fed ok =>
    unfold Committer.step
    dsimp only
    split
    · rename_i events hphase
      have hbatch : c.batch = events := by rw [batch, hphase]
      split
      · refine { h with
          resolved := fun hw =>
            ⟨(h.resolved hw).1, (h.resolved hw).2.trans (List.prefix_append _ _)⟩
          running := fun hw => ?_ }
        have hrunning := h.running hw
        rw [hbatch] at hrunning
        refine ⟨hrunning.1, ?_⟩
        change R <+: c.published ++ events ++ []
        rw [List.append_nil]
        exact hrunning.2
      · exact covered_failCommit h
    · exact h
  | notified result =>
    unfold Committer.step
    dsimp only
    split
    · rename_i hphase
      have hfail : c.commitFailure = false := by
        rw [← Bool.not_eq_true]
        intro hf
        rcases (hsound.failed hf).1 with hp | hp <;> rw [hphase] at hp <;> cases hp
      exact (h.settle hphase).runCommits (hsound.settle hphase) result hfail (.inr hphase) rfl
    · exact h
  | stopped =>
    unfold Committer.step
    dsimp only
    split
    · rename_i hphase
      refine { h with running := fun hw => ?_ }
      rw [show ({ c with phase := .idle } : Committer).runningCommitWaiters = [] from
        (hsound.failed (hsound.failing hphase)).2.1] at hw
      cases hw
    · exact h

end Covered

/-! ## After a failed commit -/

theorem Sound.settled {c : Committer} (h : c.Sound) (hfail : c.commitFailure = true) {w : Nat}
    (hw : w < c.flushes) :
    (w ∈ c.resolved ∧ w ∉ c.rejected) ∨ (w ∈ c.rejected ∧ w ∉ c.resolved) := by
  obtain ⟨-, hrunning, hnext⟩ := h.failed hfail
  have hnumbered := h.numbered
  have hmem : w ∈ c.waiters := by
    rw [hnumbered.mem_iff, List.mem_range]
    exact hw
  have hnodup : c.waiters.Nodup := hnumbered.nodup_iff.mpr List.nodup_range
  simp only [waiters, hrunning, hnext, List.append_nil] at hmem hnodup
  have hapart := (List.nodup_append.mp hnodup).2.2
  rcases List.mem_append.mp hmem with hres | hrej
  · exact .inl ⟨hres, fun hrej => hapart w hres w hrej rfl⟩
  · exact .inr ⟨hrej, fun hres => hapart w hres w hrej rfl⟩

/-! ## Whole runs -/

/-- The store after the inputs, from the orders that it loaded. -/
def after (E : Crypto) (orders : List Order) (seenAt : OrderId → Nat) (is : List CommitInput) :
    Committer :=
  run (Committer.step E) (start orders seenAt) is

section Runs

variable (E : Crypto) (orders : List Order) (seenAt : OrderId → Nat)

end Runs

end Committer

end QuantaSwap.Book
