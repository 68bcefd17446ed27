import QuantaSwap.Feed.Image

/-!
# Federation responses

The events endpoint answers from `FederationResponseCache`, or from a page of the
feed. The key of a response is taken before a reset waits for the pending commit.
-/

set_option autoImplicit false

namespace QuantaSwap.Feed

open Lib.Js Lib.Text Lib.Utf8 QuantaSwap.Book

def maxFederationResponseBytes : Nat := 32 * 1024 * 1024
def responseCacheEntries : Nat := 128
def responseCacheBytes : Nat := maxFederationResponseBytes * 2
def responseCacheTtlMs : Nat := 5000

/-- `federationResponseCacheKey` -/
def federationResponseCacheKey (reset : Bool) (cursor : Option String) (limit : Nat)
    (oldestSequence latestSequence : Option Nat) : List Char :=
  (if reset then "reset:all".toList
    else "incremental:".toList ++ (cursor.getD "initial").toList ++ ':' :: Nat.toDigits 10 limit) ++
  ':' :: Nat.toDigits 10 (oldestSequence.getD 0) ++ ':' :: Nat.toDigits 10 (latestSequence.getD 0)

def pageJson (p : FederationPage) : Json :=
  .obj ([("reset", .bool p.reset), ("cursor", .str p.cursor), ("hasMore", .bool p.hasMore),
    ("events", .arr (p.events.map FederationFeed.recordJson))] ++
    (p.snapshot.map fun records =>
      ("snapshot", Json.arr (records.map FederationFeed.recordJson))).toList)

/-- The bytes of a page as a response. -/
def pageBytes (p : FederationPage) : Nat := byteLength (stringify (pageJson p))

/-- A response, by the page whose text it is. -/
structure CachedResponse where
  body : FederationPage
  byteLength : Nat
  expiresAt : Nat

/-- `FederationResponseCache`: its entries, the oldest first. -/
structure FederationResponseCache where
  entries : List (List Char × CachedResponse) := []
  lastNow : Option Nat := none

namespace FederationResponseCache

def retainedBytes (entries : List (List Char × CachedResponse)) : Nat :=
  (entries.map (·.2.byteLength)).sum

/-- The entries from the oldest one on that leave room for a new body. -/
def evict (bytes : Nat) : List (List Char × CachedResponse) → List (List Char × CachedResponse)
  | [] => []
  | e :: entries =>
    if responseCacheEntries ≤ (e :: entries).length ∨
      responseCacheBytes < retainedBytes (e :: entries) + bytes then
      evict bytes entries
    else e :: entries

/-- The cache at the start of a lookup: emptied when the clock ran back, and pruned. -/
def prune (now : Nat) (c : FederationResponseCache) : FederationResponseCache :=
  let kept := if c.lastNow.any fun last => decide (now < last) then [] else c.entries
  { entries := kept.filter fun e => decide (now < e.2.expiresAt)
    lastNow := some (max now (c.lastNow.getD 0)) }

/-- A body that was created enters the cache. -/
def insert (key : List Char) (now : Nat) (page : FederationPage) (c : FederationResponseCache) :
    FederationResponseCache :=
  if responseCacheBytes < pageBytes page then c
  else { c with
    entries := evict (pageBytes page) c.entries ++
      [(key, ⟨page, pageBytes page, now + responseCacheTtlMs⟩)] }

/-- `getOrCreate`, over the feed that a created page may change. -/
def getOrCreate (key : List Char) (create : FederationFeed → Option FederationPage × FederationFeed)
    (now : Lib.Js.Num)
    (c : FederationResponseCache) (f : FederationFeed) :
    Option FederationPage × FederationFeed × FederationResponseCache :=
  if key.length < 1 ∨ 512 < key.length then (none, f, c)
  else match now.toSafe? with
    | none => (none, f, c)
    | some now =>
      let c := c.prune now.val
      match c.entries.find? fun e => e.1 = key with
      | some (_, cached) =>
        (some cached.body, f,
          { c with entries := c.entries.filter (fun e => e.1 ≠ key) ++ [(key, cached)] })
      | none =>
        match create f with
        | (none, f) => (none, f, c)
        | (some page, f) => (some page, f, c.insert key now.val page)

end FederationResponseCache

/-- The text of a page, when it is no larger than a response may be. -/
def federationPageBody (p : FederationPage) : Option FederationPage :=
  if maxFederationResponseBytes < pageBytes p then none else some p

section Endpoint

variable (E : Crypto)

/-- The page that the endpoint creates, and the feed after it. -/
def createPage (cursor : Option String) (limit : Nat) (snapshot : List FederationEvent)
    (now : Lib.Js.Num)
    (f : FederationFeed) : Option FederationPage × FederationFeed :=
  match f.page E cursor limit snapshot now with
  | none => (none, f)
  | some (page, f) => (federationPageBody page, f)

/-- The key under which the endpoint looks up an answer. -/
def FederationFeed.responseKey (f : FederationFeed) (cursor : Option String) (limit : Nat) :
    List Char :=
  federationResponseCacheKey (f.requiresReset cursor) cursor limit (f.events.head?.map (·.seq))
    (f.events.getLast?.map (·.seq))

/-- The rest of the endpoint, from the lookup on. -/
def respond (key : List Char) (cursor : Option String) (limit : Nat)
    (snapshot : List FederationEvent)
    (now cacheNow : Lib.Js.Num) (f : FederationFeed) (c : FederationResponseCache) :
    Option FederationPage × FederationFeed × FederationResponseCache :=
  c.getOrCreate key (createPage E cursor limit snapshot now) cacheNow f

end Endpoint

/-! ## Cursors and keys -/

theorem toDigits_injective {m n : Nat} (h : Nat.toDigits 10 m = Nat.toDigits 10 n) : m = n := by
  rw [← Nat.ofDigitChars_ten_toDigits (n := m), h, Nat.ofDigitChars_ten_toDigits]

theorem colon_notMem_toDigits (n : Nat) : ':' ∉ Nat.toDigits 10 n := by
  intro h
  have := Nat.isDigit_of_mem_toDigits (by decide) (by decide) h
  revert this
  decide

theorem append_colon_inj {a b x y : List Char} (hx : ':' ∉ x) (hy : ':' ∉ y)
    (h : a ++ ':' :: x = b ++ ':' :: y) : a = b ∧ x = y := by
  rcases List.append_eq_append_iff.mp h with ⟨c, rfl, hc⟩ | ⟨c, rfl, hc⟩
  · cases c with
    | nil => simpa using hc
    | cons d ds =>
      rw [List.cons_append, List.cons.injEq] at hc
      exact absurd (hc.2 ▸ List.mem_append_right ds List.mem_cons_self) hx
  · cases c with
    | nil => simpa using hc.symm
    | cons d ds =>
      rw [List.cons_append, List.cons.injEq] at hc
      exact absurd (hc.2 ▸ List.mem_append_right ds List.mem_cons_self) hy

theorem cursorOf_injective {feedId feedId' : FeedId} {m n : Nat}
    (h : cursorOf feedId m = cursorOf feedId' n) :
    feedId = feedId' ∧ m = n := by
  unfold cursorOf at h
  obtain ⟨hid, hdigits⟩ := append_colon_inj (colon_notMem_toDigits _) (colon_notMem_toDigits _)
    (String.ofList_injective h)
  exact ⟨Subtype.ext (String.toList_inj.mp hid), toDigits_injective hdigits⟩

theorem parseCursor_eq_some {cursor : String} {feedId : FeedId} {n : Nat}
    (h : parseCursor cursor = some (feedId, n)) : cursor = cursorOf feedId n := by
  simp only [parseCursor, Option.bind_eq_bind, Option.bind_eq_some_iff] at h
  obtain ⟨id, hid, h⟩ := h
  split at h
  · rename_i digits hdrop
    split at h
    · rename_i hdigits
      rw [Option.some.injEq, Prod.mk.injEq] at h
      obtain ⟨rfl, rfl⟩ := h
      rw [matching_eq_some] at hid
      apply String.toList_inj.mp
      rw [cursorOf, hid, Lib.Decimal.value, String.toList_ofList, String.toList_ofList,
        String.toList_ofList,
        Lib.Decimal.toDigits_ofDigitChars digits hdigits.1, ← hdrop, List.take_append_drop]
    · cases h
  · cases h

theorem FederationFeed.continues_eq_some {f : FederationFeed} {cursor : Option String} {after : Nat}
    (h : f.continues cursor = some after) :
    cursor = some (cursorOf f.feedId after) ∧
      (f.events.head?.map (·.seq)).getD f.nextSeq - 1 ≤ after ∧ after ≤ f.nextSeq - 1 := by
  simp only [continues, Option.bind_eq_bind, Option.bind_eq_some_iff] at h
  obtain ⟨text, htext, h⟩ := h
  split at h
  · cases h
  · simp only [Option.bind_eq_some_iff] at h
    obtain ⟨⟨id, n⟩, hparse, h⟩ := h
    dsimp only at h
    split at h
    · cases h
    · rename_i hid
      split at h
      · cases h
      · rename_i hrange
        rw [Option.some.injEq] at h
        subst h
        rw [not_or, ne_eq, not_not] at hid
        refine ⟨?_, by omega, by omega⟩
        rw [htext, parseCursor_eq_some hparse, hid.1]

section Keys

variable {reset reset' : Bool} {cursor cursor' : Option String} {limit limit' : Nat}
  {oldest oldest' latest latest' : Option Nat}

theorem responseCacheKey_bounds
    (h : federationResponseCacheKey reset cursor limit oldest latest =
      federationResponseCacheKey reset' cursor' limit' oldest' latest') :
    oldest.getD 0 = oldest'.getD 0 ∧ latest.getD 0 = latest'.getD 0 := by
  unfold federationResponseCacheKey at h
  obtain ⟨h, hlatest⟩ := append_colon_inj (colon_notMem_toDigits _) (colon_notMem_toDigits _) h
  obtain ⟨-, holdest⟩ := append_colon_inj (colon_notMem_toDigits _) (colon_notMem_toDigits _) h
  exact ⟨toDigits_injective holdest, toDigits_injective hlatest⟩

theorem responseCacheKey_incremental {text text' : String}
    (h : federationResponseCacheKey false (some text) limit oldest latest =
      federationResponseCacheKey false (some text') limit' oldest' latest') : text = text' ∧
        limit = limit' := by
  unfold federationResponseCacheKey at h
  obtain ⟨h, -⟩ := append_colon_inj (colon_notMem_toDigits _) (colon_notMem_toDigits _) h
  obtain ⟨h, -⟩ := append_colon_inj (colon_notMem_toDigits _) (colon_notMem_toDigits _) h
  simp only [Bool.false_eq_true, if_false, Option.getD_some] at h
  obtain ⟨h, hlimit⟩ := append_colon_inj (colon_notMem_toDigits _) (colon_notMem_toDigits _) h
  exact ⟨String.toList_inj.mp (List.append_cancel_left h), toDigits_injective hlimit⟩

theorem responseCacheKey_ne : federationResponseCacheKey true cursor limit oldest latest ≠
    federationResponseCacheKey false cursor' limit' oldest' latest' := by
  intro h
  have := congrArg List.head? h
  simp [federationResponseCacheKey] at this

end Keys

end QuantaSwap.Feed
