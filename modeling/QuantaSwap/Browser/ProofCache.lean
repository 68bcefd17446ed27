import QuantaSwap.Browser.Disputes
import QuantaSwap.Book.Strangers

/-!
# The cache of verified proofs

`FederatedOrderBook.aggregate` of `frontend/src/lib/mirrorBook.ts`. A proof that was verified is not
verified again while it lives. The cache knows a row by its id, its signed body and its
authorization, and in that body a row that states no visibility is a public one.
-/

set_option autoImplicit false

namespace QuantaSwap.Browser

open Lib Lib.Js

def MAX_VERIFIED_PROOFS : Nat := 1024

/-- The number as `JSON.stringify` writes it: without the sign of zero. -/
def writtenNum : Lib.Js.Num → Lib.Js.Num
  | .negZero => .int 0
  | n => n

def CreateOrderBody.written (body : CreateOrderBody) : CreateOrderBody :=
  { body with prelock := body.prelock.map fun p => { p with initiatorTimeout := writtenNum p.initiatorTimeout } }

def MakerOrderAuthV1.written (auth : MakerOrderAuthV1) : MakerOrderAuthV1 :=
  { auth with issuedAt := writtenNum auth.issuedAt, expiresAt := writtenNum auth.expiresAt }

/-- The text of `[order.id, signedOrderBody(order), order.makerAuth]`, as what it tells apart. -/
structure ProofKey where
  id : String
  body : CreateOrderBody
  makerAuth : Option MakerOrderAuthV1
  deriving DecidableEq

/-- `signedProofCacheKey`, `none` when it throws. -/
def signedProofCacheKey (order : OrderView) : Option ProofKey := do
  let makerAuth ← order.makerAuth
  let body ← signedOrderBody order
  return ⟨order.id, body.written, makerAuth.map MakerOrderAuthV1.written⟩

structure VerifiedProofCacheEntry where
  digest : String
  expiresAt : Int
  verifiedAt : Int
  deriving DecidableEq

/-- `verifiedProofs` -/
abbrev ProofCache := Keyed ProofKey VerifiedProofCacheEntry

namespace ProofCache

/-- What has lapsed, or was verified after `now`, is forgotten. -/
def sweep (cache : ProofCache) (now : Int) : ProofCache :=
  cache.rearrange (cache.entries.filter fun e => !(e.2.expiresAt ≤ now || now < e.2.verifiedAt))
    List.filter_sublist.subperm

/-- A full cache makes room by its oldest key. -/
def remember (cache : ProofCache) (key : ProofKey) (entry : VerifiedProofCacheEntry) : ProofCache :=
  let room := if MAX_VERIFIED_PROOFS ≤ cache.entries.length then
      match cache.entries with
      | [] => cache
      | (oldest, _) :: _ => cache.erase oldest
    else cache
  room.set key entry

end ProofCache

section

variable (E : Book.Crypto) (now : Int)

/-- `order.makerAuth?.expiresAt ?? observedNow`; a proof that was accepted has an integer there. -/
def proofExpiry (order : OrderView) : Int :=
  (order.makerAuth.join.bind fun auth => safeInteger? auth.expiresAt).getD now

/-- The `verifyOrder` that `aggregate` passes. -/
def verifyCached (order : OrderView) (cache : ProofCache) : Bool × ProofCache :=
  match signedProofCacheKey order with
  | none => (false, cache)
  | some key =>
    if (cache.get key).any fun cached => cached.verifiedAt ≤ now && now < cached.expiresAt then
      (true, cache)
    else if verifyOrderV1Auth E order now false then
      match portableOrderDigest E order with
      | none => (false, cache)
      | some digest => (true, cache.remember key ⟨digest, proofExpiry now order, now⟩)
    else (false, cache)

/-- The `digestOrder` that `aggregate` passes, `none` when it throws. -/
def digestCached (order : OrderView) (cache : ProofCache) : Option String := do
  let key ← signedProofCacheKey order
  match cache.get key with
  | some cached => some cached.digest
  | none => portableOrderDigest E order

/-- One turn of the loop over the rows of a snapshot. -/
def checkRowCached (bookId : String) (row : Row) (cache : ProofCache) : RowCheck × ProofCache :=
  match row with
  | none => (.refused, cache)
  | some order =>
    if order.status ≠ "open" ∨ order.visibility = some "private" then (.refused, cache)
    else if order.makerAuth = none then
      (if bookId ≠ PRIMARY_ORDERBOOK_ID then .refused else .passed, cache)
    else if isLapsedSignedOrder order now then (.passed, cache)
    else
      match verifyCached E now order cache with
      | (false, cache) => (.refused, cache)
      | (true, cache) =>
        match digestCached E order cache with
        | none => (.refused, cache)
        | some digest => (.verified digest, cache)

/-- The loop over the rows of a snapshot: its signed rows, `none` once a row is refused. -/
def scanRows (bookId : String) : List Row → ProofCache → Option (List SignedCandidate) × ProofCache
  | [], cache => (some [], cache)
  | row :: rows, cache =>
    match row, checkRowCached E now bookId row cache with
    | _, (.refused, cache) => (none, cache)
    | some order, (.verified digest, cache) =>
      let (rest, cache) := scanRows bookId rows cache
      (rest.map (⟨order, digest, bookId⟩ :: ·), cache)
    | _, (_, cache) => scanRows bookId rows cache

def scanSnapshots : List MirrorSnapshot → ProofCache →
    List (MirrorSnapshot × Option (List SignedCandidate)) × ProofCache
  | [], cache => ([], cache)
  | s :: snapshots, cache =>
    let (scan, cache) := scanRows E now s.bookId s.orders cache
    let (scans, cache) := scanSnapshots snapshots cache
    ((s, scan) :: scans, cache)

/-- `FederatedOrderBook.aggregate` -/
def aggregate (localeCompare : String → String → Int) (snapshots : List MirrorSnapshot)
    (cache : ProofCache) :
    MirrorAggregationScan × ProofCache :=
  let (scans, cache) := scanSnapshots E now snapshots (cache.sweep now)
  let validSnapshots := (scans.filter fun s => s.2.isSome).map Prod.fst
  let invalid := (scans.filter fun s => s.2.isNone).map Prod.fst
  let cs := scans.flatMap fun s => s.2.getD []
  let combined := signedRows cs ++ unsignedRows cs validSnapshots
  ({ orders := combined.insertionSort fun left right => comesFirst localeCompare left right = true
     quarantinedIds := sortIds (quarantined cs)
     invalidBookIds := sortIds (invalid.map MirrorSnapshot.bookId).dedup }, cache)

end

/-- The answers of one book, a list of snapshots and a clock at a time. -/
def aggregateAll (E : Book.Crypto) (localeCompare : String → String → Int) :
    List (List MirrorSnapshot × Int) → ProofCache → List MirrorAggregationScan
  | [], _ => []
  | (snapshots, now) :: rest, cache =>
    let (scan, cache) := aggregate E now localeCompare snapshots cache
    scan :: aggregateAll E localeCompare rest cache

/-! ## What a proof is about -/

section Signed

variable {E : Book.Crypto} {order order' : OrderView} {now now' : Int} {key : ProofKey}
  {auth : MakerOrderAuthV1}

/-- Two rows with one proof over one order. -/
structure SameSigned (order order' : OrderView) : Prop where
  id : order.id = order'.id
  direction : order.direction = order'.direction
  asset : order.asset = order'.asset
  fromAmount : order.fromAmount = order'.fromAmount
  toAmount : order.toAmount = order'.toAmount
  makerEthAccount : order.makerEthAccount = order'.makerEthAccount
  makerQrlAccount : order.makerQrlAccount = order'.makerQrlAccount
  visibility : order.visibility = order'.visibility
  allowedTakerEth : order.allowedTakerEth = order'.allowedTakerEth
  allowedTakerQrl : order.allowedTakerQrl = order'.allowedTakerQrl
  prelocked : order.prelocked = order'.prelocked
  lock : order.prelocked = true → order.hashlock = order'.hashlock ∧
    order.initiatorTimeout = order'.initiatorTimeout
  makerAuth : order.makerAuth = order'.makerAuth

/-- A row that says everything its maker has signed: its visibility, and a zero as a zero. -/
def Explicit (order : OrderView) : Prop :=
  ∀ auth, order.makerAuth = some (some auth) → order.visibility ≠ none ∧ auth.issuedAt ≠ .negZero

theorem SameSigned.verifiedPrelock (h : SameSigned order order') :
    verifiedPrelock order auth = verifiedPrelock order' auth := by
  unfold Browser.verifiedPrelock
  rw [← h.prelocked]
  split
  · rename_i hprelocked
    obtain ⟨hhashlock, htimeout⟩ := h.lock hprelocked
    rw [hhashlock, htimeout]
  · rfl

theorem SameSigned.verify (h : SameSigned order order') (allowExpired : Bool) :
    verifyOrderV1Auth E order now allowExpired = verifyOrderV1Auth E order' now allowExpired := by
  unfold verifyOrderV1Auth
  rw [h.makerAuth]
  split
  · unfold orderIsCanonical audienceIsValid signatureIsValid
    rw [h.verifiedPrelock, h.id, h.direction, h.asset, h.fromAmount, h.toAmount, h.makerEthAccount,
      h.makerQrlAccount,
      h.visibility, h.allowedTakerEth, h.allowedTakerQrl]
  · rfl

/-- The prelock that a row states, `none` when it is incomplete. -/
def statedPrelock (order : OrderView) : Option (Option PrelockAnchor) :=
  if order.prelocked then do
    let hashlock ← order.hashlock
    let initiatorTimeout ← order.initiatorTimeout
    return some ⟨hashlock, initiatorTimeout⟩
  else some none

theorem signedOrderBody_eq : signedOrderBody order = order.asset.bind fun asset =>
    (statedPrelock order).map fun prelock => ⟨order.direction, asset, order.fromAmount,
      order.toAmount,
      order.makerEthAccount, order.makerQrlAccount, some (order.visibility.getD "public"),
        order.allowedTakerEth,
      order.allowedTakerQrl, prelock⟩ := by
  unfold signedOrderBody statedPrelock
  cases hp : order.prelocked with
  | true => cases order.asset <;> cases order.hashlock <;> cases order.initiatorTimeout <;> rfl
  | false => cases order.asset <;> rfl

theorem SameSigned.statedPrelock (h : SameSigned order order') :
    statedPrelock order = statedPrelock order' := by
  unfold Browser.statedPrelock
  rw [← h.prelocked]
  split
  · rename_i hprelocked
    obtain ⟨hhashlock, htimeout⟩ := h.lock hprelocked
    rw [hhashlock, htimeout]
  · rfl

theorem SameSigned.signedOrderBody (h : SameSigned order order') :
    signedOrderBody order = signedOrderBody order' := by
  rw [signedOrderBody_eq, signedOrderBody_eq, h.statedPrelock, h.direction, h.asset, h.fromAmount,
    h.toAmount,
    h.makerEthAccount, h.makerQrlAccount, h.visibility, h.allowedTakerEth, h.allowedTakerQrl]

theorem SameSigned.digest (h : SameSigned order order') :
    portableOrderDigest E order = portableOrderDigest E order' := by
  unfold portableOrderDigest
  rw [h.makerAuth, h.signedOrderBody]

/-- What an accepted proof says of its row. -/
structure Accepted (order : OrderView) (auth : MakerOrderAuthV1) (now : Int) : Prop where
  makerAuth : order.makerAuth = some (some auth)
  times : authTimesAreValid auth now false = true
  visibility : order.visibility ≠ none
  prelock : ∃ prelock, verifiedPrelock order auth = some prelock

theorem accepted_of_verify (h : verifyOrderV1Auth E order now false = true) :
    ∃ auth, Accepted order auth now := by
  unfold verifyOrderV1Auth at h
  split at h
  · rename_i auth hauth
    simp only [Bool.and_eq_true] at h
    obtain ⟨⟨⟨⟨hcanonical, -⟩, horder⟩, -⟩, hsigned⟩ := h
    refine ⟨auth, hauth, times_of_canonical hcanonical, ?_, ?_⟩
    · intro hnone
      simp [orderIsCanonical, hnone] at horder
    · unfold signatureIsValid at hsigned
      cases hasset : order.asset with
      | none => simp [hasset] at hsigned
      | some asset =>
        cases hprelock : verifiedPrelock order auth with
        | none => simp [hasset, hprelock] at hsigned
        | some prelock => exact ⟨prelock, rfl⟩
  · cases h

theorem times_spec (h : authTimesAreValid auth now false = true) : ∃ issuedAt expiresAt : Int,
    safeInteger? auth.issuedAt = some issuedAt ∧ safeInteger? auth.expiresAt = some expiresAt ∧
    auth.issuedAt ≠ .negZero ∧
      0 ≤ issuedAt ∧ issuedAt < expiresAt ∧ now < expiresAt ∧
      issuedAt ≤ now + MAX_CLOCK_SKEW_S := by
  unfold authTimesAreValid at h
  split at h
  · rename_i issuedAt expiresAt hissued hexpires
    simp only [Bool.and_eq_true, Bool.false_or, decide_eq_true_eq] at h
    obtain ⟨⟨⟨⟨⟨⟨hzero, -⟩, hnonneg⟩, hlt⟩, -⟩, hskew⟩, hlive⟩ := h
    exact ⟨issuedAt, expiresAt, hissued, hexpires, hzero, hnonneg, hlt, hlive, hskew⟩
  · cases h

theorem times_later {expiresAt : Int} (h : authTimesAreValid auth now false = true)
    (hnow : now ≤ now')
    (hexpires : safeInteger? auth.expiresAt = some expiresAt) (hlive : now' < expiresAt) :
    authTimesAreValid auth now' false = true := by
  unfold authTimesAreValid at h ⊢
  rw [hexpires] at h ⊢
  cases hissued : safeInteger? auth.issuedAt with
  | none =>
    rw [hissued] at h
    cases h
  | some issuedAt =>
    rw [hissued] at h
    simp only [Bool.and_eq_true, Bool.false_or, decide_eq_true_eq] at h ⊢
    obtain ⟨⟨htimes, hskew⟩, -⟩ := h
    exact ⟨⟨htimes, by omega⟩, hlive⟩

theorem canonical_later (h : authIsCanonical auth now false = true)
    (htimes : authTimesAreValid auth now' false = true) :
    authIsCanonical auth now' false = true := by
  have hbefore := times_of_canonical h
  unfold authIsCanonical at h ⊢
  rw [hbefore] at h
  rw [htimes]
  exact h

theorem verify_later {expiresAt : Int} (h : verifyOrderV1Auth E order now false = true)
    (hnow : now ≤ now')
    (hauth : order.makerAuth = some (some auth))
    (hexpires : safeInteger? auth.expiresAt = some expiresAt)
    (hlive : now' < expiresAt) : verifyOrderV1Auth E order now' false = true := by
  unfold verifyOrderV1Auth at h ⊢
  rw [hauth] at h ⊢
  simp only [Bool.and_eq_true] at h ⊢
  obtain ⟨⟨⟨⟨hcanonical, hid⟩, horder⟩, haudience⟩, hsigned⟩ := h
  have htimes := times_later (times_of_canonical hcanonical) hnow hexpires hlive
  exact ⟨⟨⟨⟨canonical_later hcanonical htimes, hid⟩, horder⟩, haudience⟩, hsigned⟩

/-! ## What the key of a row tells -/

theorem writtenNum_of_ne {n n' : Lib.Js.Num} (hn : n ≠ .negZero) (hn' : n' ≠ .negZero)
    (h : writtenNum n = writtenNum n') :
    n = n' := by
  cases n <;> cases n' <;> simp_all [writtenNum]

theorem writtenNum_of_pos {n n' : Lib.Js.Num} {z : Int} (hn : safeInteger? n = some z) (hz : 0 < z)
    (h : writtenNum n = writtenNum n') : n = n' := by
  have hint : n = .int z := by
    unfold safeInteger? at hn
    rw [Option.filter_eq_some_iff] at hn
    cases n with
    | int y => exact congrArg Lib.Js.Num.int (Option.some.inj hn.1)
    | negZero =>
      have := Option.some.inj hn.1
      omega
    | other => cases hn.1
  subst hint
  cases n' with
  | int y => exact h
  | negZero =>
    have := Lib.Js.Num.int.inj h
    omega
  | other => cases h

theorem signedProofCacheKey_eq_some :
    signedProofCacheKey order = some key ↔ ∃ makerAuth asset prelock,
    order.makerAuth = some makerAuth ∧ order.asset = some asset ∧
    statedPrelock order = some prelock ∧
      key = ⟨order.id, CreateOrderBody.written ⟨order.direction, asset, order.fromAmount,
        order.toAmount,
        order.makerEthAccount, order.makerQrlAccount, some (order.visibility.getD "public"),
          order.allowedTakerEth,
        order.allowedTakerQrl, prelock⟩, makerAuth.map MakerOrderAuthV1.written⟩ := by
  unfold signedProofCacheKey
  rw [signedOrderBody_eq]
  cases order.makerAuth with
  | none => simp
  | some makerAuth =>
    cases order.asset with
    | none => simp
    | some asset =>
      cases statedPrelock order with
      | none => simp
      | some prelock => simp [eq_comm]

theorem statedPrelock_eq_some {prelock : Option PrelockAnchor} :
    statedPrelock order = some prelock ↔
    (order.prelocked = true ∧ ∃ hashlock timeout, order.hashlock = some hashlock ∧
      order.initiatorTimeout = some timeout ∧ prelock = some ⟨hashlock, timeout⟩) ∨
    (order.prelocked = false ∧ prelock = none) := by
  unfold statedPrelock
  cases order.prelocked with
  | false => simp [eq_comm]
  | true => cases order.hashlock <;> cases order.initiatorTimeout <;> simp [eq_comm]

theorem timeout_spec {prelock : Option PrelockAnchor}
    (htimes : authTimesAreValid auth now false = true)
    (h : verifiedPrelock order auth = some prelock) (hprelocked : order.prelocked = true) :
    ∃ timeout z, order.initiatorTimeout = some timeout ∧ safeInteger? timeout = some z ∧ 0 < z := by
  obtain ⟨issuedAt, _, hissued, _, -, hnonneg, -⟩ := times_spec htimes
  unfold verifiedPrelock at h
  rw [if_pos hprelocked] at h
  simp only [Option.bind_eq_bind, Option.bind_eq_some_iff] at h
  obtain ⟨hashlock, -, timeout, htimeout, z, hz, i, hi, e, -, _, -, _, hguard, -⟩ := h
  rw [hissued] at hi
  cases hi
  have hrunway : MIN_ORDER_PRELOCK_RUNWAY_S ≤ z - issuedAt := by
    by_contra hshort
    simp [guard, hshort] at hguard
  unfold MIN_ORDER_PRELOCK_RUNWAY_S at hrunway
  exact ⟨timeout, z, htimeout, hz, by omega⟩

theorem auth_of_written {auth' : MakerOrderAuthV1} {expiresAt : Int}
    (h : auth.written = auth'.written)
    (hissued : auth.issuedAt ≠ .negZero) (hissued' : auth'.issuedAt ≠ .negZero)
    (hexpires : safeInteger? auth.expiresAt = some expiresAt) (hpos : 0 < expiresAt) :
    auth = auth' := by
  have hsameIssued := writtenNum_of_ne hissued hissued' (congrArg MakerOrderAuthV1.issuedAt h)
  have hsameExpires := writtenNum_of_pos hexpires hpos (congrArg MakerOrderAuthV1.expiresAt h)
  obtain ⟨keys, version, scheme, issuedAt, expires, nonce, makerToken, shareToken, signature,
    publicKey, descriptor⟩ := auth
  cases hsameIssued
  cases hsameExpires
  simp only [MakerOrderAuthV1.written, MakerOrderAuthV1.mk.injEq, true_and] at h
  obtain ⟨rfl, rfl, rfl, rfl, rfl, rfl, rfl, rfl, rfl⟩ := h
  rfl

theorem sameSigned_of_key (h : verifyOrderV1Auth E order now false = true)
    (hexplicit : Explicit order')
    (hkey : signedProofCacheKey order = some key) (hkey' : signedProofCacheKey order' = some key) :
    SameSigned order order' := by
  obtain ⟨auth, haccepted⟩ := accepted_of_verify h
  obtain ⟨issuedAt, expiresAt, hissued, hexpires, hzero, hnonneg, hlt, -⟩ :=
    times_spec haccepted.times
  obtain ⟨verified, hverified⟩ := haccepted.prelock
  obtain ⟨makerAuth, asset, prelock, hauth, hasset, hprelock, rfl⟩ :=
    signedProofCacheKey_eq_some.mp hkey
  obtain ⟨makerAuth', asset', prelock', hauth', hasset', hprelock', heq⟩ :=
    signedProofCacheKey_eq_some.mp hkey'
  rw [haccepted.makerAuth, Option.some.injEq] at hauth
  subst hauth
  simp only [ProofKey.mk.injEq, CreateOrderBody.written, CreateOrderBody.mk.injEq, Option.map_some,
    Option.some.injEq]
    at heq
  obtain ⟨hid, ⟨hdirection, rfl, hfrom, hto, heth, hqrl, hvisibility, htakerEth, htakerQrl, hlock⟩,
    hwritten⟩ := heq
  obtain ⟨auth', rfl, hsame⟩ := Option.map_eq_some_iff.mp hwritten.symm
  obtain ⟨hvisible, hissuedZero⟩ := hexplicit auth' hauth'
  have hsameAuth : auth = auth' := auth_of_written hsame.symm hzero hissuedZero hexpires (by omega)
  have hsameLock : order.prelocked = order'.prelocked ∧
      (order.prelocked = true → order.hashlock = order'.hashlock ∧
        order.initiatorTimeout = order'.initiatorTimeout) := by
    rcases statedPrelock_eq_some.mp hprelock with ⟨hp, hashlock, timeout, hh, ht, rfl⟩ | ⟨hp, rfl⟩
    · rcases statedPrelock_eq_some.mp hprelock' with ⟨hp', hashlock', timeout', hh', ht',
        rfl⟩ | ⟨hp', rfl⟩
      · obtain ⟨timeout₀, z, htimeout, hz, hpos⟩ := timeout_spec haccepted.times hverified hp
        rw [ht] at htimeout
        cases htimeout
        simp only [Option.map_some, Option.some.injEq, PrelockAnchor.mk.injEq] at hlock
        obtain ⟨rfl, hlock⟩ := hlock
        have := writtenNum_of_pos hz hpos hlock
        exact ⟨hp.trans hp'.symm, fun _ => ⟨hh.trans hh'.symm, by rw [ht, ht', this]⟩⟩
      · cases hlock
    · rcases statedPrelock_eq_some.mp hprelock' with ⟨hp', hashlock', timeout', hh', ht',
        rfl⟩ | ⟨hp', rfl⟩
      · cases hlock
      · exact ⟨hp.trans hp'.symm, fun htrue => absurd htrue (by rw [hp]; decide)⟩
  have hsameVisibility : order.visibility = order'.visibility := by
    obtain ⟨v, hv⟩ := Option.ne_none_iff_exists'.mp haccepted.visibility
    obtain ⟨v', hv'⟩ := Option.ne_none_iff_exists'.mp hvisible
    rw [hv, hv'] at hvisibility ⊢
    exact congrArg some hvisibility
  exact ⟨hid, hdirection, hasset.trans hasset'.symm, hfrom, hto, heth, hqrl, hsameVisibility,
    htakerEth, htakerQrl,
    hsameLock.1, hsameLock.2, by rw [haccepted.makerAuth, hauth', hsameAuth]⟩

end Signed

/-! ## A cache of accepted proofs -/

section Sound

variable {E : Book.Crypto} {Sent : OrderView → Int → Prop} {cache : ProofCache} {order : OrderView}
  {now : Int} {key : ProofKey}

/-- Every entry stands for a row that was sent and accepted when it was put there. -/
def ProofCache.Sound (E : Book.Crypto) (Sent : OrderView → Int → Prop) (cache : ProofCache) :
    Prop :=
  ∀ key entry, cache.get key = some entry → ∃ order auth, Sent order entry.verifiedAt ∧
    signedProofCacheKey order = some key ∧ verifyOrderV1Auth E order entry.verifiedAt false = true ∧
    portableOrderDigest E order = some entry.digest ∧ order.makerAuth = some (some auth) ∧
      safeInteger? auth.expiresAt = some entry.expiresAt

/-- The row says everything its maker has signed, or no accepted row that was sent has its key. -/
def Told (E : Book.Crypto) (Sent : OrderView → Int → Prop) (order : OrderView) : Prop :=
  Explicit order ∨ ∀ accepted now, Sent accepted now →
    signedProofCacheKey accepted = signedProofCacheKey order →
    verifyOrderV1Auth E accepted now false = false

theorem sound_empty : ProofCache.Sound E Sent .empty := by
  intro key entry hget
  rw [Keyed.get_empty] at hget
  cases hget

theorem ProofCache.Sound.rearrange (h : cache.Sound E Sent)
    {l : List (ProofKey × VerifiedProofCacheEntry)}
    (hsub : l.Subperm cache.entries) : ProofCache.Sound E Sent (cache.rearrange l hsub) := by
  intro key entry hget
  rw [Keyed.get_rearrange] at hget
  exact h key entry (Keyed.mem_entries.mp (hsub.subset hget))

theorem ProofCache.Sound.set (h : cache.Sound E Sent) {entry : VerifiedProofCacheEntry}
    {auth : MakerOrderAuthV1}
    (hsent : Sent order entry.verifiedAt) (hkey : signedProofCacheKey order = some key)
    (hverify : verifyOrderV1Auth E order entry.verifiedAt false = true)
    (hdigest : portableOrderDigest E order = some entry.digest)
    (hauth : order.makerAuth = some (some auth))
    (hexpires : safeInteger? auth.expiresAt = some entry.expiresAt) :
    ProofCache.Sound E Sent (Keyed.set cache key entry) := by
  intro key' entry' hget
  rw [Keyed.get_set] at hget
  split at hget
  · rename_i heq
    cases hget
    exact ⟨order, auth, hsent, heq ▸ hkey, hverify, hdigest, hauth, hexpires⟩
  · exact h key' entry' hget

theorem remember_eq (cache : ProofCache) (key : ProofKey) (entry : VerifiedProofCacheEntry) :
    ∃ room : ProofCache, cache.remember key entry = Keyed.set room key entry ∧
    (cache.Sound E Sent → room.Sound E Sent) := by
  unfold ProofCache.remember
  split
  · split
    · exact ⟨cache, rfl, id⟩
    · exact ⟨_, rfl, fun h => h.rearrange _⟩
  · exact ⟨cache, rfl, id⟩

theorem digest_of_key_none (h : signedProofCacheKey order = none) :
    portableOrderDigest E order = none := by
  unfold portableOrderDigest
  unfold signedProofCacheKey at h
  cases hauth : order.makerAuth with
  | none => rfl
  | some auth =>
    cases hbody : signedOrderBody order with
    | none => cases auth <;> rfl
    | some body => simp [hauth, hbody] at h

/-- The cached verifier answers as the verifier does, and its digest is the row's. -/
theorem verifyCached_spec (hsound : cache.Sound E Sent) (hsent : Sent order now)
    (htold : Told E Sent order) :
    ∃ cache', cache'.Sound E Sent ∧
      ((verifyCached E now order cache = (true, cache') ∧
        verifyOrderV1Auth E order now false = true ∧
        ∃ digest, portableOrderDigest E order = some digest ∧
        digestCached E order cache' = some digest) ∨
      (verifyCached E now order cache = (false, cache') ∧
        (verifyOrderV1Auth E order now false = false ∨ portableOrderDigest E order = none))) := by
  unfold verifyCached
  cases hkey : signedProofCacheKey order with
  | none => exact ⟨cache, hsound, .inr ⟨rfl, .inr (digest_of_key_none hkey)⟩⟩
  | some key =>
    dsimp only
    split
    · rename_i hhit
      obtain ⟨entry, hget, hlive⟩ := (Option.any_eq_true _ _).mp hhit
      rw [Bool.and_eq_true, decide_eq_true_eq, decide_eq_true_eq] at hlive
      obtain ⟨order₀, auth, hsent₀, hkey₀, hverify₀, hdigest₀, hauth₀, hexpires₀⟩ :=
        hsound key entry hget
      -- An order with this key was accepted before, so this one states its visibility.
      have hexplicit : Explicit order := by
        rcases htold with hexplicit | hnone
        · exact hexplicit
        · have hrefused := hnone order₀ _ hsent₀ (hkey₀.trans hkey.symm)
          rw [hverify₀] at hrefused
          cases hrefused
      have hsame := sameSigned_of_key hverify₀ hexplicit hkey₀ hkey
      refine ⟨cache, hsound, .inl ⟨rfl, ?_, entry.digest, ?_, ?_⟩⟩
      · rw [← hsame.verify]
        exact verify_later hverify₀ hlive.1 hauth₀ hexpires₀ hlive.2
      · rw [← hsame.digest]
        exact hdigest₀
      · simp only [digestCached, hkey, Option.bind_eq_bind, Option.bind_some, hget]
    · split
      · rename_i hverify
        obtain ⟨auth, haccepted⟩ := accepted_of_verify hverify
        obtain ⟨_, expiresAt, _, hexpires, -⟩ := times_spec haccepted.times
        cases hdigest : portableOrderDigest E order with
        | none => exact ⟨cache, hsound, .inr ⟨rfl, .inr rfl⟩⟩
        | some digest =>
          obtain ⟨room, hroom, hroomSound⟩ :=
            remember_eq cache key ⟨digest, proofExpiry now order, now⟩
          have hexpiry : safeInteger? auth.expiresAt = some (proofExpiry now order) := by
            simp [proofExpiry, haccepted.makerAuth, hexpires]
          refine ⟨_, ?_, .inl ⟨rfl, hverify, digest, rfl, ?_⟩⟩
          · rw [hroom]
            exact (hroomSound hsound).set hsent hkey hverify hdigest haccepted.makerAuth hexpiry
          · simp only [digestCached, hkey, Option.bind_eq_bind, Option.bind_some, hroom,
              Keyed.get_set, if_true]
      · rename_i hverify
        exact ⟨cache, hsound, .inr ⟨rfl, .inl (Bool.not_eq_true _ ▸ hverify)⟩⟩

/-! ## One book with a cache -/

variable {rows : List Row} {snapshots : List MirrorSnapshot}

/-- The rows that were sent, with the clock they were sent at. -/
def sentIn (calls : List (List MirrorSnapshot × Int)) (order : OrderView) (now : Int) : Prop :=
  ∃ call ∈ calls, call.2 = now ∧ ∃ s ∈ call.1, some order ∈ s.orders

theorem checkRow_standard (bookId : String) (order : OrderView) :
    checkRow (.standard E now) bookId (some order) =
    if order.status ≠ "open" ∨ order.visibility = some "private" then .refused
    else if order.makerAuth = none then if bookId ≠ PRIMARY_ORDERBOOK_ID then .refused else .passed
    else if isLapsedSignedOrder order now then .passed
    else if verifyOrderV1Auth E order now false then
      match portableOrderDigest E order with
      | none => .refused
      | some digest => .verified digest
    else .refused := rfl

theorem checkRowCached_spec (hsound : cache.Sound E Sent) (bookId : String) {row : Row}
    (htold : ∀ order, row = some order → Sent order now ∧ Told E Sent order) :
    ∃ cache', cache'.Sound E Sent ∧
    checkRowCached E now bookId row cache = (checkRow (.standard E now) bookId row, cache') := by
  cases row with
  | none => exact ⟨cache, hsound, rfl⟩
  | some order =>
    rw [checkRow_standard]
    unfold checkRowCached
    dsimp only
    split
    · exact ⟨cache, hsound, rfl⟩
    · split
      · exact ⟨cache, hsound, rfl⟩
      · split
        · exact ⟨cache, hsound, rfl⟩
        · obtain ⟨cache', hsound',
            ⟨hcached, hverify, digest, hdigest, hstored⟩ | ⟨hcached, hfail⟩⟩ :=
            verifyCached_spec hsound (htold order rfl).1 (htold order rfl).2
          · refine ⟨cache', hsound', ?_⟩
            rw [hcached, if_pos hverify, hdigest]
            dsimp only
            rw [hstored]
          · refine ⟨cache', hsound', ?_⟩
            rw [hcached]
            rcases hfail with hverify | hdigest
            · rw [hverify]
              rfl
            · rw [hdigest]
              cases verifyOrderV1Auth E order now false <;> rfl

/-- What the loop over the rows of a snapshot gives. -/
def scanOf (E : Book.Crypto) (now : Int) (bookId : String) (rows : List Row) :
    Option (List SignedCandidate) :=
  if rows.all fun row => checkRow (.standard E now) bookId row ≠ .refused then
    some (rows.filterMap (candidate (.standard E now) bookId))
  else none

theorem scanRows_spec (hsound : cache.Sound E Sent) (bookId : String)
    (htold : ∀ order, some order ∈ rows → Sent order now ∧ Told E Sent order) :
    ∃ cache', cache'.Sound E Sent ∧
    scanRows E now bookId rows cache = (scanOf E now bookId rows, cache') := by
  induction rows generalizing cache with
  | nil => exact ⟨cache, hsound, rfl⟩
  | cons row rows ih =>
    obtain ⟨cache', hsound', hrow⟩ :=
      checkRowCached_spec hsound bookId fun order horder =>
        htold order (horder ▸ List.mem_cons_self)
    obtain ⟨cache'', hsound'', hrest⟩ :=
      ih hsound' fun order horder => htold order (List.mem_cons_of_mem _ horder)
    unfold scanRows
    rw [hrow]
    unfold scanOf at hrest ⊢
    rw [List.all_cons, List.filterMap_cons]
    cases hcheck : checkRow (.standard E now) bookId row with
    | refused => exact ⟨cache', hsound', by simp⟩
    | passed =>
      refine ⟨cache'', hsound'', ?_⟩
      have hnone : candidate (.standard E now) bookId row = none := by
        unfold candidate
        rw [hcheck]
        cases row <;> rfl
      rw [hnone]
      cases row <;> simpa using hrest
    | verified digest =>
      refine ⟨cache'', hsound'', ?_⟩
      cases row with
      | none => cases hcheck
      | some order =>
        have hsome : candidate (.standard E now) bookId (some order) =
          some ⟨order, digest, bookId⟩ := by
          unfold candidate
          rw [hcheck]
        rw [hsome]
        dsimp only
        rw [hrest]
        simp only [ne_eq, reduceCtorEq, not_false_eq_true, decide_true, Bool.true_and]
        split <;> rfl

theorem scanSnapshots_spec (hsound : cache.Sound E Sent)
    (htold : ∀ s ∈ snapshots, ∀ order, some order ∈ s.orders → Sent order now ∧ Told E Sent order) :
    ∃ cache', cache'.Sound E Sent ∧ scanSnapshots E now snapshots cache =
      (snapshots.map fun s => (s, scanOf E now s.bookId s.orders), cache') := by
  induction snapshots generalizing cache with
  | nil => exact ⟨cache, hsound, rfl⟩
  | cons s snapshots ih =>
    obtain ⟨cache', hsound', hscan⟩ := scanRows_spec hsound s.bookId (htold s List.mem_cons_self)
    obtain ⟨cache'', hsound'', hrest⟩ :=
      ih hsound' fun s' hs' => htold s' (List.mem_cons_of_mem _ hs')
    refine ⟨cache'', hsound'', ?_⟩
    unfold scanSnapshots
    rw [hscan]
    dsimp only
    rw [hrest, List.map_cons]

theorem aggregate_spec (hsound : cache.Sound E Sent) (localeCompare : String → String → Int)
    (htold : ∀ s ∈ snapshots, ∀ order, some order ∈ s.orders → Sent order now ∧ Told E Sent order) :
    ∃ cache', cache'.Sound E Sent ∧ aggregate E now localeCompare snapshots cache =
      (aggregateMirrorOrders localeCompare snapshots (.standard E now), cache') := by
  obtain ⟨cache', hsound', hscan⟩ := scanSnapshots_spec (hsound.rearrange _) htold
  refine ⟨cache', hsound', ?_⟩
  have hsome (s : MirrorSnapshot) :
    (scanOf E now s.bookId s.orders).isSome = isValidSnapshot (.standard E now) s := by
    unfold scanOf isValidSnapshot
    split
    · rename_i hall
      exact hall.symm
    · rename_i hall
      rw [Bool.not_eq_true] at hall
      exact hall.symm
  have hvalid :
    ((snapshots.map fun s => (s, scanOf E now s.bookId s.orders)).filter fun s =>
      s.2.isSome).map Prod.fst =
      snapshots.filter (isValidSnapshot (.standard E now)) := by
    simp [List.filter_map, Function.comp_def, hsome]
  have hinvalid :
    ((snapshots.map fun s => (s, scanOf E now s.bookId s.orders)).filter fun s =>
      s.2.isNone).map Prod.fst =
      snapshots.filter fun s => !isValidSnapshot (.standard E now) s := by
    simp [List.filter_map, Function.comp_def, ← hsome]
  have hcandidates :
    (snapshots.map fun s => (s, scanOf E now s.bookId s.orders)).flatMap (fun s => s.2.getD []) =
      candidates (.standard E now) (snapshots.filter (isValidSnapshot (.standard E now))) := by
    unfold candidates
    rw [List.flatMap_map]
    clear hscan hvalid hinvalid htold
    induction snapshots with
    | nil => rfl
    | cons s snapshots ih =>
      rw [List.flatMap_cons, ih, List.filter_cons, ← hsome]
      unfold scanOf
      split
      · rfl
      · rfl
  unfold aggregate aggregateMirrorOrders ProofCache.sweep
  rw [hscan]
  dsimp only
  rw [hvalid, hinvalid, hcandidates]

/-- As long as a row that leaves out its visibility, or writes a zero with a sign, is no second copy
of an accepted one, the cache changes no answer. -/
theorem cached_book_transparent (E : Book.Crypto) (localeCompare : String → String → Int)
    (calls : List (List MirrorSnapshot × Int))
    (h : ∀ call ∈ calls, ∀ s ∈ call.1, ∀ order, some order ∈ s.orders →
      Told E (sentIn calls) order) :
    aggregateAll E localeCompare calls .empty =
      calls.map fun call => aggregateMirrorOrders localeCompare call.1 (.standard E call.2) := by
  have hrun (rest : List (List MirrorSnapshot × Int)) (hrest : rest ⊆ calls) (cache : ProofCache)
      (hsound : cache.Sound E (sentIn calls)) : aggregateAll E localeCompare rest cache =
        rest.map fun call => aggregateMirrorOrders localeCompare call.1 (.standard E call.2) := by
    induction rest generalizing cache with
    | nil => rfl
    | cons call rest ih =>
      obtain ⟨snapshots, now⟩ := call
      have hcall : (snapshots, now) ∈ calls := hrest List.mem_cons_self
      obtain ⟨cache', hsound', hscan⟩ :=
        aggregate_spec hsound localeCompare fun s hs order horder =>
        ⟨⟨_, hcall, rfl, s, hs, horder⟩, h _ hcall s hs order horder⟩
      unfold aggregateAll
      rw [hscan]
      dsimp only
      rw [ih (fun c hc => hrest (List.mem_cons_of_mem _ hc)) cache' hsound', List.map_cons]
  exact hrun calls (fun _ hc => hc) .empty sound_empty

/-! ## A row that states no visibility -/

theorem verifyCached_hit {entry : VerifiedProofCacheEntry}
    (hkey : signedProofCacheKey order = some key)
    (hget : cache.get key = some entry) (hbefore : entry.verifiedAt ≤ now)
    (hlive : now < entry.expiresAt) :
    verifyCached E now order cache = (true, cache) ∧
    digestCached E order cache = some entry.digest := by
  have hany : ((cache.get key).any fun cached => cached.verifiedAt ≤ now && now <
    cached.expiresAt) = true := by
    rw [hget]
    simp [hbefore, hlive]
  unfold verifyCached digestCached
  rw [hkey]
  dsimp only [Option.bind_eq_bind, Option.bind_some]
  rw [if_pos hany, hget]
  exact ⟨rfl, rfl⟩

/-- The row as a book from before visibility sends it. -/
def withoutVisibility (order : OrderView) : OrderView := { order with visibility := none }

theorem key_withoutVisibility (h : order.visibility = some "public") :
    signedProofCacheKey (withoutVisibility order) = signedProofCacheKey order := by
  unfold signedProofCacheKey
  rw [signedOrderBody_eq, signedOrderBody_eq, h]
  rfl

theorem verify_withoutVisibility :
    verifyOrderV1Auth E (withoutVisibility order) now false = false := by
  by_contra h
  obtain ⟨auth, haccepted⟩ := accepted_of_verify (Bool.not_eq_false _ ▸ h)
  exact haccepted.visibility rfl

theorem get_sweep {entry : VerifiedProofCacheEntry} (hget : cache.get key = some entry)
    (hbefore : entry.verifiedAt ≤ now)
    (hlive : now < entry.expiresAt) : (cache.sweep now).get key = some entry := by
  unfold ProofCache.sweep
  rw [Keyed.get_rearrange, List.mem_filter, Keyed.mem_entries]
  refine ⟨hget, ?_⟩
  simp only [Bool.not_eq_true', Bool.or_eq_false_iff, decide_eq_false_iff_not]
  omega

theorem checkRowCached_verified {bookId digest : String} {cache' : ProofCache}
    (hopen : order.status = "open")
    (hpublic : order.visibility ≠ some "private") (hauth : order.makerAuth ≠ none)
    (hlive : isLapsedSignedOrder order now = false)
    (hverify : verifyCached E now order cache = (true, cache'))
    (hdigest : digestCached E order cache' = some digest) :
    checkRowCached E now bookId (some order) cache = (.verified digest, cache') := by
  have hlisted : ¬(order.status ≠ "open" ∨ order.visibility = some "private") := by
    rw [not_or, not_not]
    exact ⟨hopen, hpublic⟩
  unfold checkRowCached
  dsimp only
  rw [if_neg hlisted, if_neg hauth, hlive, hverify]
  dsimp only
  rw [if_neg (by decide), hdigest]

theorem withoutVisibility_taken (bookId : String) (hopen : order.status = "open")
    (hpublic : order.visibility = some "public")
    (hverify : verifyOrderV1Auth E order now false = true) {digest : String}
    (hdigest : portableOrderDigest E order = some digest) :
    ∃ cache', checkRowCached E now bookId (some order) .empty = (.verified digest, cache') ∧
      checkRowCached E now bookId (some (withoutVisibility order)) (cache'.sweep now) =
        (.verified digest, cache'.sweep now) ∧
      checkRow (.standard E now) bookId (some (withoutVisibility order)) = .refused := by
  obtain ⟨auth, haccepted⟩ := accepted_of_verify hverify
  obtain ⟨_, expiresAt, _, hexpires, _, _, _, hlt, -⟩ := times_spec haccepted.times
  have hexpiry : proofExpiry now order = expiresAt :=
    by simp [proofExpiry, haccepted.makerAuth, hexpires]
  have hauth : order.makerAuth ≠ none := by
    rw [haccepted.makerAuth]
    exact Option.some_ne_none _
  have hlapsed := live_of_verifyOrderV1Auth hverify
  cases hkey : signedProofCacheKey order with
  | none =>
    rw [digest_of_key_none hkey] at hdigest
    cases hdigest
  | some key =>
    obtain ⟨room, hroom, -⟩ :=
      @remember_eq E (fun _ _ => True) .empty key ⟨digest, proofExpiry now order, now⟩
    have hget : (Keyed.set room key ⟨digest, proofExpiry now order, now⟩).get key =
        some ⟨digest, proofExpiry now order, now⟩ := by rw [Keyed.get_set, if_pos rfl]
    have hmiss : verifyCached E now order .empty =
      (true, Keyed.set room key ⟨digest, proofExpiry now order, now⟩) := by
      unfold verifyCached
      rw [hkey]
      dsimp only
      rw [Keyed.get_empty, if_neg (by simp), if_pos hverify, hdigest, ← hroom]
    have hswept := get_sweep hget (Int.le_refl _) (by rw [hexpiry]; exact hlt)
    have hkey' := (key_withoutVisibility hpublic).trans hkey
    -- The key does not see the missing visibility: the second row hits the entry of the first.
    obtain ⟨hhit, hstored⟩ :=
      verifyCached_hit (E := E) hkey' hswept (Int.le_refl _) (by rw [hexpiry]; exact hlt)
    have hdigest' : digestCached E order (Keyed.set room key ⟨digest, proofExpiry now order, now⟩) =
      some digest := by
      simp only [digestCached, hkey, Option.bind_eq_bind, Option.bind_some, hget]
    refine ⟨_, checkRowCached_verified hopen ?_ hauth hlapsed hmiss hdigest', ?_, ?_⟩
    · rw [hpublic]
      decide
    · exact checkRowCached_verified hopen (by simp [withoutVisibility]) hauth hlapsed hhit hstored
    · have hlisted : ¬((withoutVisibility order).status ≠ "open" ∨
        (withoutVisibility order).visibility = some "private") := by
        rw [not_or, not_not]
        exact ⟨hopen, by simp [withoutVisibility]⟩
      have hauth' : (withoutVisibility order).makerAuth ≠ none := hauth
      have hlapsed' : isLapsedSignedOrder (withoutVisibility order) now = false := hlapsed
      rw [checkRow_standard, if_neg hlisted, if_neg hauth', hlapsed', verify_withoutVisibility]
      rfl

theorem aggregate_verified {bookId digest : String} {cache' : ProofCache} (localeCompare : String →
    String → Int)
    (h : checkRowCached E now bookId (some order) (cache.sweep now) = (.verified digest, cache')) :
    (aggregate E now localeCompare [⟨bookId, [some order]⟩] cache).1.invalidBookIds = [] ∧
      (aggregate E now localeCompare [⟨bookId, [some order]⟩] cache).2 = cache' := by
  have hrows : scanRows E now bookId [some order] (cache.sweep now) =
    (some [⟨order, digest, bookId⟩], cache') := by
    unfold scanRows
    rw [h]
    rfl
  unfold aggregate scanSnapshots
  rw [hrows]
  exact ⟨rfl, rfl⟩

theorem invalid_of_refused {bookId : String} (localeCompare : String → String → Int)
    (h : checkRow (.standard E now) bookId (some order) = .refused) :
    (aggregateMirrorOrders localeCompare [⟨bookId, [some order]⟩]
      (.standard E now)).invalidBookIds = [bookId] := by
  have hvalid : isValidSnapshot (.standard E now) ⟨bookId, [some order]⟩ = false := by
    unfold isValidSnapshot
    rw [List.all_cons, h]
    rfl
  unfold aggregateMirrorOrders
  dsimp only
  rw [List.filter_cons, hvalid]
  rfl

theorem aggregateAll_cons (localeCompare : String → String → Int) (snapshots : List MirrorSnapshot)
    (rest : List (List MirrorSnapshot × Int)) :
    aggregateAll E localeCompare ((snapshots, now) :: rest) cache =
      (aggregate E now localeCompare snapshots cache).1 ::
        aggregateAll E localeCompare rest (aggregate E now localeCompare snapshots cache).2 := rfl

/-- A mirror sends an order, then the same order without its visibility. -/
def stripped (bookId : String) (order : OrderView) (now : Int) : List (List MirrorSnapshot × Int) :=
  [([⟨bookId, [some order]⟩], now), ([⟨bookId, [some (withoutVisibility order)]⟩], now)]

theorem mirror_kept (bookId : String) (localeCompare : String → String → Int)
    (hopen : order.status = "open")
    (hpublic : order.visibility = some "public")
    (hverify : verifyOrderV1Auth E order now false = true) {digest : String}
    (hdigest : portableOrderDigest E order = some digest) :
    aggregateAll E localeCompare (stripped bookId order now) .empty ≠
      (stripped bookId order now).map fun call =>
      aggregateMirrorOrders localeCompare call.1 (.standard E call.2) := by
  obtain ⟨cache', hfirst, hsecond, hrefused⟩ :=
    withoutVisibility_taken bookId hopen hpublic hverify hdigest
  have hone := @aggregate_verified E .empty _ _ _ _ _ localeCompare hfirst
  have htwo := aggregate_verified localeCompare hsecond
  intro h
  unfold stripped at h
  rw [aggregateAll_cons, aggregateAll_cons, hone.2, List.map_cons, List.map_cons] at h
  have hinvalid :=
    congrArg MirrorAggregationScan.invalidBookIds (List.cons.inj (List.cons.inj h).2).1
  rw [htwo.1, invalid_of_refused localeCompare hrefused] at hinvalid
  cases hinvalid

end Sound

section Sample

/-- The body that a maker signs, as the browser holds it. -/
def wireBody (b : Book.OrderV1Body) : CreateOrderBody where
  direction := b.direction.name
  asset := b.asset.name
  fromAmount := b.fromAmount.val
  toAmount := b.toAmount.val
  makerEthAccount := b.makerEthAccount.val
  makerQrlAccount := b.makerQrlAccount.val
  visibility := some b.visibility.name
  allowedTakerEth := b.allowedTakerEth.map Subtype.val
  allowedTakerQrl := b.allowedTakerQrl.map Subtype.val
  prelock := b.prelock.map fun p => ⟨p.hashlock.val, .ofNat p.initiatorTimeout.val⟩

def wireAuth (a : Book.MakerOrderAuthV1) : MakerOrderAuthV1 where
  ownKeys := makerAuthKeys
  version := "2"
  scheme := "qrl-sign-message-v2"
  issuedAt := .ofNat a.issuedAt.val
  expiresAt := .ofNat a.expiresAt.val
  nonce := a.nonce.val
  makerTokenCommitment := a.makerTokenCommitment.val
  shareTokenCommitment := a.shareTokenCommitment.val
  signature := a.signature.val
  publicKey := a.publicKey.val
  descriptor := a.descriptor.val

theorem signedOrderTerms_wire (b : Book.OrderV1Body) (a : Book.MakerOrderAuthV1) :
    signedOrderTerms (wireBody b) (wireAuth a) = Book.orderTerms b a := by
  obtain ⟨direction, asset, fromAmount, toAmount, eth, qrl, visibility, takerEth, takerQrl,
    prelock⟩ := b
  cases takerEth <;> cases takerQrl <;> cases prelock <;> rfl

/-- The row of a public order without a prelock. -/
def publicRow (E : Book.Crypto) (b : Book.OrderV1Body) (a : Book.MakerOrderAuthV1) : OrderView where
  id := (Book.deriveOrderV1Id E b.makerQrlAccount a.nonce).val
  direction := b.direction.name
  asset := some b.asset.name
  fromAmount := b.fromAmount.val
  toAmount := b.toAmount.val
  makerEthAccount := b.makerEthAccount.val
  makerQrlAccount := b.makerQrlAccount.val
  status := "open"
  hashlock := none
  initiatorTimeout := none
  visibility := some "public"
  allowedTakerEth := none
  allowedTakerQrl := none
  prelocked := false
  createdAt := 1000000
  makerAuth := some (some (wireAuth a))
  orderDigest := none
  bookId := none
  sources := none

/-- What the browser asks of such an order beside its signature. -/
structure PublicRules (b : Book.OrderV1Body) (a : Book.MakerOrderAuthV1) (now : Int) : Prop where
  plain : b.prelock = none ∧ b.allowedTakerEth = none ∧ b.allowedTakerQrl = none ∧
    b.visibility = .pub
  makerToken : a.makerTokenCommitment.val ≠ zeroHashlock
  shareToken : a.shareTokenCommitment.val = zeroHashlock
  follows : a.issuedAt.val < a.expiresAt.val
  lifetime : a.expiresAt.val ≤ a.issuedAt.val + 48 * 3600
  skew : (a.issuedAt.val : Int) ≤ now + MAX_CLOCK_SKEW_S
  live : now < a.expiresAt.val

section

variable {E : Book.Crypto} {b : Book.OrderV1Body} {a : Book.MakerOrderAuthV1} {now : Int}

theorem safeInteger_ofNat (n : SafeInt) : safeInteger? (.ofNat n.val) = some (n.val : Int) := by
  have hn := n.property
  unfold safeInteger? Lib.Js.Num.ofNat
  simp only [Lib.Js.Num.toInt?, Option.filter_some, Int.natAbs_natCast]
  rw [if_pos (decide_eq_true hn)]

theorem wireAuth_canonical (h : PublicRules b a now) :
    authIsCanonical (wireAuth a) now false = true := by
  have hkeys : hasExactKeys makerAuthKeys makerAuthKeys = true := by decide
  have htimes : authTimesAreValid (wireAuth a) now false = true := by
    have hfollows := h.follows
    have hlifetime := h.lifetime
    unfold authTimesAreValid wireAuth
    dsimp only
    rw [safeInteger_ofNat, safeInteger_ofNat]
    simp only [Lib.Js.Num.ofNat, ne_eq, reduceCtorEq, not_false_eq_true, decide_true, Bool.true_and,
      Bool.false_or,
      Bool.and_eq_true, decide_eq_true_eq, ORDER_LIFETIME_S]
    exact ⟨⟨⟨⟨by omega, by omega⟩, decide_eq_true (by omega)⟩, h.skew⟩, h.live⟩
  unfold authIsCanonical
  rw [htimes]
  simp only [wireAuth, hkeys, a.nonce.property, a.makerTokenCommitment.property,
    a.shareTokenCommitment.property,
    a.signature.property, a.publicKey.property, a.descriptor.property, Bool.and_eq_true,
      decide_eq_true_eq, and_true,
    true_and]
  exact decide_eq_true h.makerToken

theorem publicRow_canonical : orderIsCanonical (publicRow E b a) = true := by
  have hdirection : isDirection b.direction.name = true := by cases b.direction <;> decide
  have hasset : isAsset b.asset.name = true := by cases b.asset <;> decide
  unfold orderIsCanonical publicRow
  simp only [hdirection, Option.any_some, hasset, b.fromAmount.property, b.toAmount.property,
    b.makerEthAccount.property,
    b.makerQrlAccount.property, Bool.true_and]
  decide

theorem publicRow_body (h : PublicRules b a now) :
    signedOrderBody (publicRow E b a) = some (wireBody b) := by
  obtain ⟨hprelock, heth, hqrl, hpublic⟩ := h.plain
  unfold wireBody
  rw [hprelock, heth, hqrl, hpublic]
  rfl

theorem wireBody_ok (h : PublicRules b a now) : isCreateOrderBody (wireBody b) = true := by
  obtain ⟨hprelock, -, -, hpublic⟩ := h.plain
  have hdirection : isDirection b.direction.name = true := by cases b.direction <;> decide
  have hasset : isAsset b.asset.name = true := by cases b.asset <;> decide
  unfold isCreateOrderBody wireBody
  rw [hprelock, hpublic]
  simp only [hdirection, hasset, Bool.true_and]
  rfl

theorem publicRow_digest (h : PublicRules b a now) : portableOrderDigest E (publicRow E b a) =
    some (Book.digestOfMessage E (Book.orderMessage b a)).val := by
  have hencodes := Book.orderTerms_encodes b a
  unfold portableOrderDigest
  rw [publicRow_body h]
  simp only [publicRow, Option.join_some, Option.bind_eq_bind, Option.bind_some, orderDigest,
    wireBody_ok h, guard, if_true,
    signedOrderTerms_wire, Book.semanticDigest_eq_ok hencodes]
  rfl

theorem publicRow_signature (h : PublicRules b a now)
    (hsigned : Book.SignedBy E b.makerQrlAccount.val a.toProtocolAuthV1 (Book.orderMessage b a)) :
    signatureIsValid E (publicRow E b a) (wireAuth a) = some true := by
  have hpayload : buildOrderV1Payload (wireBody b) (wireAuth a) =
      some (Book.buildPayload .OrderV2 (Book.orderTerms b a)) := by
    unfold buildOrderV1Payload
    rw [wireBody_ok h, signedOrderTerms_wire]
    rfl
  have hproof : protocolProofIsValid E b.makerQrlAccount.val (wireAuth a)
      (Book.buildPayload .OrderV2 (Book.orderTerms b a)) = some true := by
    unfold protocolProofIsValid
    rw [Book.assertV2Deployment_ok, Book.protocolMessageBytes_eq (Book.orderTerms_encodes b a)]
    exact congrArg some hsigned
  obtain ⟨hprelock, heth, hqrl, hpublic⟩ := h.plain
  have hwire : (⟨b.direction.name, b.asset.name, b.fromAmount.val, b.toAmount.val,
    b.makerEthAccount.val,
      b.makerQrlAccount.val, some "public", none, none, none⟩ : CreateOrderBody) = wireBody b := by
    unfold wireBody
    rw [hprelock, heth, hqrl, hpublic]
    rfl
  show (buildOrderV1Payload ⟨b.direction.name, b.asset.name, b.fromAmount.val, b.toAmount.val,
    b.makerEthAccount.val,
    b.makerQrlAccount.val, some "public", none, none, none⟩ (wireAuth a)).bind
      (protocolProofIsValid E b.makerQrlAccount.val (wireAuth a)) = some true
  rw [hwire, hpayload, Option.bind_some, hproof]

theorem publicRow_verified (h : PublicRules b a now)
    (hsigned : Book.SignedBy E b.makerQrlAccount.val a.toProtocolAuthV1 (Book.orderMessage b a)) :
    verifyOrderV1Auth E (publicRow E b a) now false = true := by
  have hid : (deriveOrderV1Id E (publicRow E b a).makerQrlAccount (wireAuth a).nonce).any
      (fun id => (publicRow E b a).id = id.val) = true := by
    have hderived : deriveOrderV1Id E (publicRow E b a).makerQrlAccount (wireAuth a).nonce =
        some (Book.deriveOrderV1Id E b.makerQrlAccount a.nonce) := by
      unfold deriveOrderV1Id publicRow wireAuth
      dsimp only
      rw [Lib.Text.matching_val, Option.bind_eq_bind, Option.bind_some, Lib.Text.matching_val]
      rfl
    rw [hderived]
    exact decide_eq_true rfl
  have haudience : audienceIsValid (publicRow E b a) (wireAuth a) = true := by
    unfold audienceIsValid wireAuth publicRow
    dsimp only
    rw [h.shareToken]
    simp
  have hauth : (publicRow E b a).makerAuth = some (some (wireAuth a)) := rfl
  unfold verifyOrderV1Auth
  rw [hauth]
  dsimp only
  rw [wireAuth_canonical h, hid, publicRow_canonical, haudience, publicRow_signature h hsigned]
  rfl

end

/-- The sample order without its prelock. -/
def plainRow : OrderView :=
  publicRow Book.vouchingCrypto { Book.sampleOrder with prelock := none } Book.sampleAuth

theorem plain_rules :
    PublicRules { Book.sampleOrder with prelock := none } Book.sampleAuth 1000000 where
  plain := ⟨rfl, rfl, rfl, rfl⟩
  makerToken := by decide +kernel
  shareToken := rfl
  follows := by decide
  lifetime := by decide
  skew := by decide
  live := by decide

theorem plainRow_explicit : Explicit plainRow := by
  rintro auth hauth
  cases hauth
  exact ⟨nofun, nofun⟩

/-- A mirror sends the sample row, another one the same row and one that is no object. -/
def plainCalls : List (List MirrorSnapshot × Int) :=
  [([⟨"north", [some plainRow]⟩], 1000000), ([⟨"south", [some plainRow, none]⟩], 1000001)]

theorem cached_book_transparent_sample :
    aggregateAll Book.vouchingCrypto compareText plainCalls .empty =
    plainCalls.map fun call =>
      aggregateMirrorOrders compareText call.1 (.standard Book.vouchingCrypto call.2) := by
  apply cached_book_transparent Book.vouchingCrypto compareText
  intro call hcall s hs order horder
  have hrow : some order ∈ [some plainRow, none] := by
    unfold plainCalls at hcall
    simp only [List.mem_cons, List.not_mem_nil, or_false] at hcall
    rcases hcall with rfl | rfl
    · rw [List.mem_singleton.mp hs] at horder
      exact List.mem_cons.mpr (.inl (List.mem_singleton.mp horder))
    · rw [List.mem_singleton.mp hs] at horder
      exact horder
  simp only [List.mem_cons, List.not_mem_nil, or_false, Option.some.injEq, reduceCtorEq] at hrow
  rw [hrow]
  exact .inl plainRow_explicit

theorem cached_book_keeps_mirror :
    aggregateAll Book.vouchingCrypto compareText (stripped "north" plainRow 1000000) .empty ≠
      (stripped "north" plainRow 1000000).map fun call =>
        aggregateMirrorOrders compareText call.1 (.standard Book.vouchingCrypto call.2) :=
  mirror_kept "north" compareText rfl rfl (publicRow_verified plain_rules rfl)
    (publicRow_digest plain_rules)

end Sample

end QuantaSwap.Browser
