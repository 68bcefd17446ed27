import QuantaSwap.Feed.Event
import QuantaSwap.Lib.Keyed
import QuantaSwap.Lib.Permits
import QuantaSwap.Lib.Run

/-!
# The books of the response cache

`FederationResponseCache` of `server/src/federation-reset.ts` with its byte counter, which pruning,
eviction, reinsertion and the reset on a backward clock each move on their own.
-/

set_option autoImplicit false

namespace QuantaSwap.Serve

open Lib Lib.Js

/-- `positiveInteger`, `none` when it throws. -/
def positiveInteger (value : Lib.Js.Num) : Option SafeInt := value.toSafe?.filter fun n => 1 ≤ n.val

structure CachedResponse where
  body : String
  expiresAt : ℕ
  deriving DecidableEq, Repr

def CachedResponse.byteLength (r : CachedResponse) : ℕ := r.body.utf8ByteSize

structure ResponseCache where
  maxEntries : SafeInt
  maxBytes : SafeInt
  ttlMs : SafeInt
  entries : Keyed String CachedResponse := .empty
  retainedBytes : Int := 0
  lastNow : Int := -1

namespace ResponseCache

/-- The constructor, `none` when it throws. -/
def new (maxEntries maxBytes ttlMs : Option Lib.Js.Num) : Option ResponseCache := do
  let maxEntries ← positiveInteger (maxEntries.getD (.int 128))
  let maxBytes ← positiveInteger (maxBytes.getD (.int (64 * 1024 * 1024)))
  let ttlMs ← positiveInteger (ttlMs.getD (.int 5000))
  return { maxEntries, maxBytes, ttlMs }

variable (c : ResponseCache)

def remove (key : String) : ResponseCache :=
  match c.entries.get key with
  | none => c
  | some entry =>
    { c with
      retainedBytes := c.retainedBytes - entry.byteLength
      entries := c.entries.erase key }

def clear : ResponseCache := { c with entries := .empty, retainedBytes := 0 }

def prune (now : ℕ) : ResponseCache :=
  c.entries.entries.foldl (fun c e => if e.2.expiresAt ≤ now then c.remove e.1 else c) c

/-- The cache at the start of a lookup. -/
def turn (now : ℕ) : ResponseCache :=
  let c := if (now : Int) < c.lastNow then c.clear else c
  { c with lastNow := max c.lastNow now }.prune now

/-- The eviction loop with so many turns left, `none` when they do not suffice. -/
def evict (bytes : ℕ) : ℕ → ResponseCache → Option ResponseCache
  | 0, _ => none
  | turns + 1, c =>
    if c.maxEntries.val ≤ c.entries.entries.length ∨
      (c.maxBytes.val : Int) < c.retainedBytes + bytes then
      match c.entries.entries with
      | [] => some c
      | (oldestKey, _) :: _ => evict bytes turns (c.remove oldestKey)
    else some c

inductive Answer where
  | thrown
  | hangs
  | hit (body : String)
  | created (body : String)
  deriving DecidableEq, Repr

/-- `create` is what a call of it would return, `none` when it would throw. -/
def getOrCreate (key : String) (create : Option String) (now : Lib.Js.Num) :
    Answer × ResponseCache :=
  let units := (Feed.codeUnits key).length
  if units < 1 ∨ 512 < units then (.thrown, c)
  else
    match now.toSafe? with
    | none => (.thrown, c)
    | some now =>
      let c := c.turn now.val
      match c.entries.get key with
      | some cached => (.hit cached.body,
        { c with entries := (c.entries.erase key).set key cached })
      | none =>
        match create with
        | none => (.thrown, c)
        | some body =>
          if c.maxBytes.val < body.utf8ByteSize then (.created body, c)
          else
            match c.evict body.utf8ByteSize (c.entries.entries.length + 1) with
            | none => (.hangs, c)
            | some c =>
              (.created body,
                { c with
                  entries := c.entries.set key ⟨body, now.val + c.ttlMs.val⟩
                  retainedBytes := c.retainedBytes + body.utf8ByteSize })

end ResponseCache

/-! ## Runs of calls -/

structure CacheCall where
  key : String
  create : Option String
  now : Lib.Js.Num

/-- A body that `create` produced. -/
structure Production where
  key : String
  body : String
  now : ℕ
  deriving DecidableEq, Repr

/-- A cache and what was created for it so far. -/
structure CacheRun where
  cache : ResponseCache
  created : List Production := []

namespace CacheRun

def answer (r : CacheRun) (call : CacheCall) : ResponseCache.Answer :=
  (r.cache.getOrCreate call.key call.create call.now).1

def step (r : CacheRun) (call : CacheCall) : CacheRun :=
  { cache := (r.cache.getOrCreate call.key call.create call.now).2
    created :=
      match r.answer call, call.now.toSafe? with
      | .created body, some now => r.created ++ [⟨call.key, body, now.val⟩]
      | _, _ => r.created }

end CacheRun

/-! ## What every part of a call keeps -/

namespace ResponseCache

/-- The counter is the sum of the sizes. -/
def Counted (c : ResponseCache) : Prop :=
  c.retainedBytes = c.entries.total CachedResponse.byteLength

def Capped (c : ResponseCache) : Prop :=
  c.entries.entries.length ≤ c.maxEntries.val ∧ c.retainedBytes ≤ c.maxBytes.val

/-- `c'` holds entries of `c` only, under the same limits. -/
structure Shrinks (c c' : ResponseCache) : Prop where
  maxEntries : c'.maxEntries = c.maxEntries
  maxBytes : c'.maxBytes = c.maxBytes
  ttlMs : c'.ttlMs = c.ttlMs
  counted : c.Counted → c'.Counted
  entries : ∀ {key entry}, c'.entries.get key = some entry → c.entries.get key = some entry
  length : c'.entries.entries.length ≤ c.entries.entries.length
  bytes : c.Counted → c'.retainedBytes ≤ c.retainedBytes

variable {c c' c'' : ResponseCache} {key : String} {now : ℕ}

theorem Shrinks.refl (c : ResponseCache) : c.Shrinks c :=
  ⟨rfl, rfl, rfl, id, id, le_rfl, fun _ => le_rfl⟩

theorem Shrinks.trans (h : c.Shrinks c') (h' : c'.Shrinks c'') : c.Shrinks c'' where
  maxEntries := h'.maxEntries.trans h.maxEntries
  maxBytes := h'.maxBytes.trans h.maxBytes
  ttlMs := h'.ttlMs.trans h.ttlMs
  counted hc := h'.counted (h.counted hc)
  entries hget := h.entries (h'.entries hget)
  length := h'.length.trans h.length
  bytes hc := (h'.bytes (h.counted hc)).trans (h.bytes hc)

theorem Shrinks.capped (h : c.Shrinks c') (hcounted : c.Counted) (hcapped : c.Capped) :
    c'.Capped := by
  constructor
  · rw [h.maxEntries]
    exact h.length.trans hcapped.1
  · rw [h.maxBytes]
    exact (h.bytes hcounted).trans hcapped.2

theorem length_erase {m : Keyed String CachedResponse} {entry : CachedResponse}
    (h : m.get key = some entry) : (m.erase key).entries.length < m.entries.length := by
  have hmem := Keyed.mem_entries.mpr h
  unfold Keyed.erase Keyed.rearrange
  apply List.length_filter_lt_length_iff_exists.mpr
  exact ⟨_, hmem, by simp⟩

theorem shrinks_remove (c : ResponseCache) (key : String) : c.Shrinks (c.remove key) := by
  unfold remove
  split
  · exact Shrinks.refl c
  rename_i entry hget
  have htotal := @Keyed.total_erase _ _ _ c.entries key entry CachedResponse.byteLength hget
  refine ⟨rfl, rfl, rfl, ?_, ?_, (length_erase hget).le, ?_⟩
  · intro hc
    unfold Counted at hc ⊢
    dsimp only
    rw [hc, htotal]
    omega
  · intro key' entry' hget'
    dsimp only at hget'
    rw [Keyed.get_erase] at hget'
    split at hget'
    · cases hget'
    · exact hget'
  · intro _
    dsimp only
    omega

theorem get_remove (c : ResponseCache) : (c.remove key).entries.get key = none := by
  unfold remove
  split
  · assumption
  · rw [Keyed.get_erase, if_pos rfl]

theorem lastNow_remove (c : ResponseCache) : (c.remove key).lastNow = c.lastNow := by
  unfold remove
  split <;> rfl

/-! ## Pruning -/

section Prune

/-- Removing what a list of entries says is expired. -/
def pruneOf (now : ℕ) (l : List (String × CachedResponse)) (c : ResponseCache) : ResponseCache :=
  l.foldl (fun c e => if e.2.expiresAt ≤ now then c.remove e.1 else c) c

variable {l : List (String × CachedResponse)}

theorem shrinks_pruneOf : c.Shrinks (pruneOf now l c) := by
  induction l generalizing c with
  | nil => exact Shrinks.refl c
  | cons e l ih =>
    unfold pruneOf at ih ⊢
    rw [List.foldl_cons]
    split
    · exact (shrinks_remove c e.1).trans ih
    · exact ih

theorem lastNow_pruneOf : (pruneOf now l c).lastNow = c.lastNow := by
  induction l generalizing c with
  | nil => rfl
  | cons e l ih =>
    unfold pruneOf at ih ⊢
    rw [List.foldl_cons, ih]
    split
    · exact lastNow_remove c
    · rfl

theorem expiresAt_pruneOf {entry : CachedResponse} (hmem : (key, entry) ∈ l)
    (hget : (pruneOf now l c).entries.get key = some entry) : now < entry.expiresAt := by
  induction l generalizing c with
  | nil => cases hmem
  | cons e l ih =>
    unfold pruneOf at ih hget
    rw [List.foldl_cons] at hget
    rcases List.mem_cons.mp hmem with rfl | hmem
    · by_contra hexpired
      rw [not_lt] at hexpired
      rw [if_pos hexpired] at hget
      have hbefore := (shrinks_pruneOf (l := l)).entries hget
      rw [get_remove] at hbefore
      cases hbefore
    · exact ih hmem hget

end Prune

theorem shrinks_turn (c : ResponseCache) (now : ℕ) : c.Shrinks (c.turn now) := by
  have hclear : c.Shrinks c.clear :=
    ⟨rfl, rfl, rfl, fun _ => rfl, fun hget => (by cases hget), Nat.zero_le _, fun hc => by
      unfold Counted at hc
      unfold clear
      dsimp only
      omega⟩
  have hstart : c.Shrinks (if (now : Int) < c.lastNow then c.clear else c) := by
    split
    · exact hclear
    · exact Shrinks.refl c
  have hlast : ∀ c' : ResponseCache, c'.Shrinks { c' with lastNow := max c'.lastNow now } :=
    fun c' =>
    ⟨rfl, rfl, rfl, id, id, le_rfl, fun _ => le_rfl⟩
  exact (hstart.trans (hlast _)).trans shrinks_pruneOf

theorem lastNow_turn (c : ResponseCache) (now : ℕ) : (c.turn now).lastNow = max c.lastNow now := by
  unfold turn prune
  dsimp only
  refine lastNow_pruneOf.trans ?_
  dsimp only
  split <;> rfl

theorem live_of_turn {entry : CachedResponse} (h : (c.turn now).entries.get key = some entry) :
    c.lastNow ≤ now ∧ now < entry.expiresAt := by
  have hback : ¬(now : Int) < c.lastNow := by
    intro hlt
    unfold turn prune at h
    simp only [if_pos hlt] at h
    cases (shrinks_pruneOf (l := []) ).entries h
  refine ⟨not_lt.mp hback, ?_⟩
  unfold turn prune at h
  have hbefore := shrinks_pruneOf.entries h
  exact expiresAt_pruneOf (Keyed.mem_entries.mpr hbefore) h

/-! ## Eviction -/

theorem exists_evict {bytes turns : ℕ} (h : c.entries.entries.length < turns) :
    ∃ c', c.evict bytes turns = some c' ∧ c.Shrinks c' ∧ c'.lastNow = c.lastNow ∧
      (c'.entries.entries = [] ∨
        (c'.entries.entries.length < c.maxEntries.val ∧
          c'.retainedBytes + bytes ≤ c.maxBytes.val)) := by
  induction turns generalizing c with
  | zero => exact absurd h (Nat.not_lt_zero _)
  | succ turns ih =>
    unfold evict
    by_cases hfull : c.maxEntries.val ≤ c.entries.entries.length ∨
        (c.maxBytes.val : Int) < c.retainedBytes + bytes
    · rw [if_pos hfull]
      split
      · rename_i hnil
        exact ⟨c, rfl, Shrinks.refl c, rfl, .inl hnil⟩
      · rename_i key entry rest hentries
        have hget : c.entries.get key = some entry := by
          apply Keyed.mem_entries.mp
          rw [hentries]
          exact List.mem_cons_self
        have hremove := shrinks_remove c key
        have hlen : (c.remove key).entries.entries.length < c.entries.entries.length := by
          unfold remove
          rw [hget]
          exact length_erase hget
        obtain ⟨c', hevict, hshrinks, hlast, hroom⟩ := ih (c := c.remove key) (by omega)
        refine ⟨c', hevict, hremove.trans hshrinks, hlast.trans (lastNow_remove c), ?_⟩
        rw [hremove.maxEntries, hremove.maxBytes] at hroom
        exact hroom
    · rw [if_neg hfull]
      rw [not_or] at hfull
      exact ⟨c, rfl, Shrinks.refl c, rfl, .inr ⟨by omega, by omega⟩⟩

/-! ## One call -/

/-- What a call does, in each of its cases; it never hangs. -/
inductive Outcome (c : ResponseCache) (key : String) (create : Option String)
    (now : Option SafeInt) :
    Answer → ResponseCache → Prop
  | refused : Outcome c key create now .thrown c
  | failed (t : SafeInt) (ht : now = some t) : Outcome c key create now .thrown (c.turn t.val)
  | hit (t : SafeInt) (ht : now = some t) (cached : CachedResponse)
      (hget : (c.turn t.val).entries.get key = some cached) :
      Outcome c key create now (.hit cached.body)
        { c.turn t.val with entries := ((c.turn t.val).entries.erase key).set key cached }
  | large (t : SafeInt) (ht : now = some t) (body : String) (hcreate : create = some body) :
      Outcome c key create now (.created body) (c.turn t.val)
  | stored (t : SafeInt) (ht : now = some t) (body : String) (hcreate : create = some body)
      (hfits : body.utf8ByteSize ≤ c.maxBytes.val) (hnone : (c.turn t.val).entries.get key = none)
      (c' : ResponseCache) (hshrinks : (c.turn t.val).Shrinks c')
      (hlast : c'.lastNow = (c.turn t.val).lastNow)
      (hroom : c'.entries.entries = [] ∨
        (c'.entries.entries.length < c.maxEntries.val ∧
          c'.retainedBytes + body.utf8ByteSize ≤ c.maxBytes.val)) :
      Outcome c key create now (.created body)
        { c' with
          entries := c'.entries.set key ⟨body, t.val + c'.ttlMs.val⟩
          retainedBytes := c'.retainedBytes + body.utf8ByteSize }

theorem getOrCreate_outcome (c : ResponseCache) (key : String) (create : Option String)
    (now : Lib.Js.Num) :
    Outcome c key create now.toSafe? (c.getOrCreate key create now).1
      (c.getOrCreate key create now).2 := by
  unfold getOrCreate
  dsimp only
  split
  · exact .refused
  split
  · exact .refused
  rename_i t ht
  have hturn := shrinks_turn c t.val
  split
  · rename_i cached hget
    rw [ht]
    exact .hit t rfl cached hget
  rename_i hnone
  cases create with
  | none =>
    rw [ht]
    exact .failed t rfl
  | some body =>
    dsimp only
    split
    · rw [ht]
      exact .large t rfl body rfl
    rename_i hfits
    obtain ⟨c', hevict, hshrinks, hlast, hroom⟩ :=
      exists_evict (c := c.turn t.val) (Nat.lt_succ_self _)
    rw [hevict, ht]
    rw [hturn.maxEntries, hturn.maxBytes] at hroom
    rw [hturn.maxBytes, not_lt] at hfits
    exact .stored t rfl body rfl hfits hnone c' hshrinks hlast hroom

end ResponseCache

namespace CacheRun

open ResponseCache

/-- What holds between the calls on a cache that began as `start`. -/
structure Kept (start : ResponseCache) (r : CacheRun) : Prop where
  maxEntries : r.cache.maxEntries = start.maxEntries
  maxBytes : r.cache.maxBytes = start.maxBytes
  ttlMs : r.cache.ttlMs = start.ttlMs
  counted : r.cache.Counted
  capped : r.cache.Capped
  produced : ∀ key entry, r.cache.entries.get key = some entry →
    ∃ p ∈ r.created, p.key = key ∧ p.body = entry.body ∧
      entry.expiresAt = p.now + start.ttlMs.val ∧ (p.now : Int) ≤ r.cache.lastNow

/-- A body that is returned was created for its key, less than the lifetime ago. -/
def Fresh (start : ResponseCache) (call : CacheCall) (created : List Production) (body : String) :
    Prop :=
  ∃ now, call.now.toSafe? = some now ∧ ∃ p ∈ created, p.key = call.key ∧ p.body = body ∧
    p.now ≤ now.val ∧ now.val < p.now + start.ttlMs.val

variable {start : ResponseCache} {r : CacheRun}

theorem Kept.shrinks (h : r.Kept start) {c : ResponseCache} {created : List Production}
    (hshrinks : r.cache.Shrinks c) (hlast : r.cache.lastNow ≤ c.lastNow)
    (hcreated : r.created ⊆ created) : Kept start ⟨c, created⟩ where
  maxEntries := hshrinks.maxEntries.trans h.maxEntries
  maxBytes := hshrinks.maxBytes.trans h.maxBytes
  ttlMs := hshrinks.ttlMs.trans h.ttlMs
  counted := hshrinks.counted h.counted
  capped := hshrinks.capped h.counted h.capped
  produced key entry hget := by
    obtain ⟨p, hp, hkey, hbody, hexpires, hnow⟩ := h.produced key entry (hshrinks.entries hget)
    exact ⟨p, hcreated hp, hkey, hbody, hexpires, hnow.trans hlast⟩

theorem le_lastNow_turn (c : ResponseCache) (now : ℕ) : c.lastNow ≤ (c.turn now).lastNow := by
  rw [lastNow_turn]
  exact le_max_left _ _

theorem Kept.reinsert {c : ResponseCache} {created : List Production} (h : Kept start ⟨c, created⟩)
    {key : String} {cached : CachedResponse} (hget : c.entries.get key = some cached) :
    Kept start ⟨{ c with entries := (c.entries.erase key).set key cached }, created⟩ := by
  have hnone : (c.entries.erase key).get key = none := by rw [Keyed.get_erase, if_pos rfl]
  have hsame : ∀ k, ((c.entries.erase key).set key cached).get k = c.entries.get k := by
    intro k
    rw [Keyed.get_set]
    split
    · rename_i hk
      rw [hk, hget]
    · rename_i hk
      rw [Keyed.get_erase, if_neg hk]
  refine ⟨h.maxEntries, h.maxBytes, h.ttlMs, ?_, ⟨?_, h.capped.2⟩, ?_⟩
  · have hcounted := h.counted
    unfold Counted at hcounted ⊢
    dsimp only at hcounted ⊢
    rw [hcounted, Keyed.total_erase hget, Keyed.total_set_of_get_eq_none hnone]
  · have hlen := length_erase hget
    have hcap := h.capped.1
    dsimp only at hcap ⊢
    rw [Keyed.entries_set_of_get_eq_none hnone, List.length_append, List.length_singleton]
    omega
  · intro k entry hk
    dsimp only at hk
    rw [hsame] at hk
    exact h.produced k entry hk

theorem Kept.store {c : ResponseCache} {created : List Production} (h : Kept start ⟨c, created⟩)
    {key body : String} {now : ℕ} (hnone : c.entries.get key = none)
    (hnow : (now : Int) ≤ c.lastNow)
    (hentries : c.entries.entries.length < c.maxEntries.val)
    (hbytes : c.retainedBytes + body.utf8ByteSize ≤ c.maxBytes.val) :
    Kept start
      ⟨{ c with
          entries := c.entries.set key ⟨body, now + c.ttlMs.val⟩
          retainedBytes := c.retainedBytes + body.utf8ByteSize },
        created ++ [⟨key, body, now⟩]⟩ := by
  refine ⟨h.maxEntries, h.maxBytes, h.ttlMs, ?_, ⟨?_, hbytes⟩, ?_⟩
  · have hcounted := h.counted
    unfold Counted at hcounted ⊢
    dsimp only at hcounted ⊢
    rw [Keyed.total_set_of_get_eq_none hnone, hcounted]
    rfl
  · dsimp only
    rw [Keyed.entries_set_of_get_eq_none hnone, List.length_append, List.length_singleton]
    omega
  · intro k entry hk
    dsimp only at hk
    rw [Keyed.get_set] at hk
    split at hk
    · rename_i heq
      cases hk
      refine ⟨⟨key, body, now⟩, List.mem_append_right _ (List.mem_singleton_self _), heq.symm,
        rfl, ?_, hnow⟩
      rw [h.ttlMs]
    · obtain ⟨p, hp, hrest⟩ := h.produced k entry hk
      exact ⟨p, List.mem_append_left _ hp, hrest⟩

theorem Kept.step (h : r.Kept start) (hpositive : 1 ≤ start.maxEntries.val)
    (hlife : 1 ≤ start.ttlMs.val)
    (call : CacheCall) :
    (r.step call).Kept start ∧ r.answer call ≠ .hangs ∧
      ∀ body, r.answer call = .hit body ∨ r.answer call = .created body →
        Fresh start call (r.step call).created body := by
  have houtcome := getOrCreate_outcome r.cache call.key call.create call.now
  have hturn : ∀ t, Kept start ⟨r.cache.turn t, r.created⟩ := fun t =>
    h.shrinks (shrinks_turn r.cache t) (le_lastNow_turn r.cache t) (List.Subset.refl _)
  unfold CacheRun.step CacheRun.answer
  generalize hresult : r.cache.getOrCreate call.key call.create call.now = result at houtcome
  obtain ⟨answer, c⟩ := result
  generalize hsafe : call.now.toSafe? = safe at houtcome
  dsimp only at houtcome ⊢
  cases houtcome with
  | refused => exact ⟨h, nofun, nofun⟩
  | failed t ht => exact ⟨hturn t.val, nofun, nofun⟩
  | hit t ht cached hget =>
    refine ⟨(hturn t.val).reinsert hget, nofun, ?_⟩
    intro body hbody
    have heq : cached.body = body := by
      rcases hbody with hbody | hbody
      · cases hbody
        rfl
      · cases hbody
    subst heq
    obtain ⟨hback, hexpires⟩ := live_of_turn hget
    obtain ⟨p, hp, hkey, hbody, htime, hnow⟩ :=
      (h.produced call.key cached) ((shrinks_turn r.cache t.val).entries hget)
    exact ⟨t, hsafe.trans ht, p, hp, hkey, hbody, by omega, by omega⟩
  | large t ht body hcreate =>
    subst ht
    have hmine : Production.mk call.key body t.val ∈ r.created ++ [⟨call.key, body, t.val⟩] :=
      List.mem_append_right _ (List.mem_singleton_self _)
    refine ⟨h.shrinks (shrinks_turn r.cache t.val) (le_lastNow_turn r.cache t.val)
      (List.subset_append_left _ _), nofun, ?_⟩
    intro body' hbody
    obtain rfl : body = body' := by
      rcases hbody with hbody | hbody
      · cases hbody
      · cases hbody
        rfl
    exact ⟨t, hsafe, _, hmine, rfl, rfl, le_rfl, Nat.lt_add_of_pos_right hlife⟩
  | stored t ht body hcreate hfits hnone c' hshrinks hlast hroom =>
    subst ht
    have hmine : Production.mk call.key body t.val ∈ r.created ++ [⟨call.key, body, t.val⟩] :=
      List.mem_append_right _ (List.mem_singleton_self _)
    have hkept : Kept start ⟨c', r.created⟩ :=
      (hturn t.val).shrinks hshrinks hlast.ge (List.Subset.refl _)
    have hnone' : c'.entries.get call.key = none := by
      by_contra hsome
      obtain ⟨entry, hentry⟩ := Option.ne_none_iff_exists'.mp hsome
      rw [hshrinks.entries hentry] at hnone
      cases hnone
    have hnow : (t.val : Int) ≤ c'.lastNow := by
      rw [hlast, lastNow_turn]
      exact le_max_right _ _
    have hcap : c'.entries.entries.length < c'.maxEntries.val ∧
        c'.retainedBytes + body.utf8ByteSize ≤ c'.maxBytes.val := by
      rw [hkept.maxEntries, hkept.maxBytes]
      rcases hroom with hempty | hroom
      · -- an empty cache has room for any body that is let in
        have hcounted := hkept.counted
        unfold Counted Keyed.total at hcounted
        dsimp only at hcounted
        rw [hempty] at hcounted ⊢
        rw [h.maxBytes] at hfits
        simp only [List.map_nil, List.sum_nil] at hcounted
        rw [hcounted]
        exact ⟨hpositive, by omega⟩
      · rw [h.maxEntries, h.maxBytes] at hroom
        exact hroom
    refine ⟨hkept.store hnone' hnow hcap.1 hcap.2, nofun, ?_⟩
    intro body' hbody
    obtain rfl : body = body' := by
      rcases hbody with hbody | hbody
      · cases hbody
      · cases hbody
        rfl
    exact ⟨t, hsafe, _, hmine, rfl, rfl, le_rfl, Nat.lt_add_of_pos_right hlife⟩

theorem Kept.run (h : r.Kept start) (hpositive : 1 ≤ start.maxEntries.val)
    (hlife : 1 ≤ start.ttlMs.val)
    (calls : List CacheCall) : (Lib.Run.run CacheRun.step r calls).Kept start := by
  induction calls generalizing r with
  | nil => exact h
  | cons call calls ih => exact ih (h.step hpositive hlife call).1

end CacheRun

/-! ## A new cache -/

namespace ResponseCache

variable {maxEntries maxBytes ttlMs : Option Lib.Js.Num} {c : ResponseCache}

end ResponseCache

end QuantaSwap.Serve
