import QuantaSwap.Lib.Double
import QuantaSwap.Lib.Run
import QuantaSwap.Maker.Record

/-!
# The price feed

`PriceFeed` of `marketmaker/src/price.ts`. A refresh waits for one source after the other; the
answers come when they come, and other refreshes may run meanwhile.
-/

set_option autoImplicit false

namespace QuantaSwap.Maker.Price

open Lib Lib.Run

structure UsdQuote where
  usd : Double
  atS : Option ℚ

structure UsdQuotes where
  qrl : UsdQuote
  assets : AssetSymbol → Option UsdQuote

structure PriceSource where
  name : String
  minIntervalS : Nat

structure PriceFeedOptions where
  sources : List PriceSource
  refreshS : Nat
  maxAgeS : Nat
  staticMilli : Option Nat

structure Cached where
  milli : Nat
  atS : ℚ

structure PriceFeed where
  mids : AssetSymbol → Option Cached
  lastAttemptAtS : String → Option ℚ
  lastFetchAtS : ℚ

/-- The assets that some source can price. -/
def FEED_SYMBOLS : List AssetSymbol := [.ETH, .USDC]

/-! ## One quote -/

/-- `BigInt` throws on what is not finite. -/
inductive Conversion
  | null
  | mid (milli : Nat)
  | rangeError
  deriving DecidableEq

/-- `(baseUsd / qrlUsd) * 1000` -/
def scaled (baseUsd qrlUsd : ℚ) : Double :=
  match Double.round (baseUsd / qrlUsd) with
  | .finite x => Double.round (x * 1000)
  | infinite => infinite

def midMilliFromUsd (baseUsd qrlUsd : Double) : Conversion :=
  match baseUsd, qrlUsd with
  | .finite b, .finite q =>
    if b ≤ 0 ∨ q ≤ 0 then .null
    else
      match scaled b q with
      | .finite x =>
        let milli := ⌊x + 1 / 2⌋
        if 0 < milli then .mid milli.toNat else .null
      | .infinite false => .rangeError
      | _ => .null
  | _, _ => .null

inductive Offer
  | skipped
  | rangeError
  | priced (mid : Cached)

variable (o : PriceFeedOptions)

/-- The age runs from the older timestamp of the two legs. -/
def olderOf (nowS : ℚ) (qrl quote : UsdQuote) : ℚ :=
  min nowS (min (qrl.atS.getD nowS) (quote.atS.getD nowS))

/-- What the loop makes of one asset: its own quote, that of QRL and its own cache. -/
def offer (nowS : ℚ) (cached : Option Cached) (qrl : UsdQuote) (quote : Option UsdQuote) : Offer :=
  match quote with
  | none => .skipped
  | some quote =>
    match midMilliFromUsd quote.usd qrl.usd with
    | .rangeError => .rangeError
    | .null => .skipped
    | .mid milli =>
      let atS := olderOf nowS qrl quote
      if o.maxAgeS < nowS - atS then .skipped
      else if cached.any fun prev => atS < prev.atS then .skipped
      else .priced ⟨milli, atS⟩

/-! ## One answer -/

def PriceFeed.setMid (f : PriceFeed) (symbol : AssetSymbol) (mid : Cached) : PriceFeed :=
  { f with mids := fun s => if s = symbol then some mid else f.mids s }

structure Applied where
  feed : PriceFeed
  priced : List AssetSymbol
  threw : Bool

/-- Assets are cached one by one; an exception ends the loop with what is cached so far. -/
def apply (nowS : ℚ) (quotes : UsdQuotes) : PriceFeed → List AssetSymbol → Applied
  | f, [] => ⟨f, [], false⟩
  | f, symbol :: pending =>
    match offer o nowS (f.mids symbol) quotes.qrl (quotes.assets symbol) with
    | .skipped => apply nowS quotes f pending
    | .rangeError => ⟨f, [], true⟩
    | .priced mid =>
      let rest := apply nowS quotes (f.setMid symbol mid) pending
      { rest with priced := symbol :: rest.priced }

/-! ## A refresh -/

/-- A refresh that waits for the answer of `source`. -/
structure Refresh where
  nowS : ℚ
  pending : List AssetSymbol
  source : PriceSource
  rest : List PriceSource

def PriceFeed.tooSoon (f : PriceFeed) (nowS : ℚ) (source : PriceSource) : Bool :=
  (f.lastAttemptAtS source.name).any fun last => nowS - last < source.minIntervalS

def PriceFeed.attempt (f : PriceFeed) (nowS : ℚ) (source : PriceSource) : PriceFeed :=
  { f with lastAttemptAtS := fun n => if n = source.name then some nowS else f.lastAttemptAtS n }

/-- The loop over the sources, up to the next one that is asked. -/
def PriceFeed.advance (f : PriceFeed) (nowS : ℚ) (pending : List AssetSymbol) :
    List PriceSource → PriceFeed × Option Refresh
  | [] => (f, none)
  | source :: rest =>
    if pending = [] then (f, none)
    else if f.tooSoon nowS source then f.advance nowS pending rest
    else (f.attempt nowS source, some ⟨nowS, pending, source, rest⟩)

def PriceFeed.maybeRefresh (f : PriceFeed) (nowS : ℚ) : PriceFeed × Option Refresh :=
  if o.staticMilli.isSome then (f, none)
  else if nowS - f.lastFetchAtS < o.refreshS then (f, none)
  else { f with lastFetchAtS := nowS }.advance nowS FEED_SYMBOLS o.sources

/-- `none` is a source that fails. Where `apply` throws no asset leaves `pending`. -/
def PriceFeed.answer (f : PriceFeed) (r : Refresh) (result : Option UsdQuotes) :
    PriceFeed × Option Refresh :=
  match result with
  | none => f.advance r.nowS r.pending r.rest
  | some quotes =>
    let applied := apply o r.nowS quotes f r.pending
    let pending :=
      if applied.threw then r.pending else r.pending.filter fun s => s ∉ applied.priced
    applied.feed.advance r.nowS pending r.rest

def PriceFeed.current (f : PriceFeed) (nowS : ℚ) (asset : AssetSymbol) : Option Nat :=
  match o.staticMilli with
  | some milli => if asset = .ETH then some milli else none
  | none =>
    match f.mids asset with
    | none => none
    | some cached => if o.maxAgeS < nowS - cached.atS then none else some cached.milli

/-! ## Runs -/

/-- The feed with the refreshes under way. The attempts and the answers so far are only recorded. -/
structure FeedWorld where
  feed : PriceFeed
  waiting : List Refresh
  attempts : List (PriceSource × ℚ)
  answers : List (ℚ × UsdQuotes)

inductive FeedInput
  | refresh (nowS : ℚ)
  | answer (k : Nat) (result : Option UsdQuotes)

def FeedWorld.start : FeedWorld := ⟨⟨fun _ => none, fun _ => none, 0⟩, [], [], []⟩

/-- The refresh that a loop came to waits, and its source has been asked. -/
def FeedWorld.wait (w : FeedWorld) (outcome : PriceFeed × Option Refresh) : FeedWorld :=
  { w with
    feed := outcome.1
    waiting := w.waiting ++ outcome.2.toList
    attempts := w.attempts ++ (outcome.2.map fun r => (r.source, r.nowS)).toList }

def FeedWorld.step (w : FeedWorld) : FeedInput → FeedWorld
  | .refresh nowS => w.wait (w.feed.maybeRefresh o nowS)
  | .answer k result =>
    match w.waiting[k]? with
    | none => w
    | some r =>
      { w with
        waiting := w.waiting.eraseIdx k
        answers := w.answers ++ (result.map fun quotes => (r.nowS, quotes)).toList }.wait
          (w.feed.answer o r result)

/-! ## What an answer does -/

section

variable {o : PriceFeedOptions} {nowS : ℚ} {quotes : UsdQuotes}

theorem offer_priced {cached : Option Cached} {qrl : UsdQuote} {quote : Option UsdQuote}
    {mid : Cached} (h : offer o nowS cached qrl quote = .priced mid) :
    (∃ q, quote = some q ∧ midMilliFromUsd q.usd qrl.usd = .mid mid.milli ∧
        mid.atS = olderOf nowS qrl q) ∧
      ∀ prev, cached = some prev → prev.atS ≤ mid.atS := by
  unfold offer at h
  split at h
  · cases h
  · rename_i q
    split at h
    · cases h
    · cases h
    · rename_i milli hmilli
      dsimp only at h
      split at h
      · cases h
      · split at h
        · cases h
        · rename_i hnewer
          cases h
          refine ⟨⟨q, rfl, hmilli, rfl⟩, ?_⟩
          rintro prev rfl
          simpa using hnewer

theorem apply_mids {f : PriceFeed} {pending : List AssetSymbol} {s : AssetSymbol} {mid : Cached}
    (h : (apply o nowS quotes f pending).feed.mids s = some mid) :
    f.mids s = some mid ∨
      ∃ cached, offer o nowS cached quotes.qrl (quotes.assets s) = .priced mid := by
  induction pending generalizing f with
  | nil => exact Or.inl h
  | cons symbol pending ih =>
    rw [apply] at h
    split at h
    · exact ih h
    · exact Or.inl h
    · rename_i priced hpriced
      rcases ih h with hset | hnew
      · unfold PriceFeed.setMid at hset
        dsimp only at hset
        split at hset
        · rename_i hs
          subst hs
          cases hset
          exact Or.inr ⟨_, hpriced⟩
        · exact Or.inl hset
      · exact Or.inr hnew

/-- No cached timestamp has gone back. -/
def PriceFeed.Later (f f' : PriceFeed) : Prop :=
  ∀ s mid, f.mids s = some mid → ∃ mid', f'.mids s = some mid' ∧ mid.atS ≤ mid'.atS

theorem later_refl (f : PriceFeed) : f.Later f := fun _ mid h => ⟨mid, h, le_refl _⟩

theorem later_trans {f g h : PriceFeed} (hfg : f.Later g) (hgh : g.Later h) : f.Later h := by
  intro s mid hmid
  obtain ⟨mid', hmid', hle⟩ := hfg s mid hmid
  obtain ⟨mid'', hmid'', hle'⟩ := hgh s mid' hmid'
  exact ⟨mid'', hmid'', le_trans hle hle'⟩

theorem later_setMid {f : PriceFeed} {symbol : AssetSymbol} {mid : Cached}
    (h : ∀ prev, f.mids symbol = some prev → prev.atS ≤ mid.atS) :
    f.Later (f.setMid symbol mid) := by
  intro s prev hprev
  unfold PriceFeed.setMid
  dsimp only
  by_cases hs : s = symbol
  · subst hs
    exact ⟨mid, if_pos rfl, h prev hprev⟩
  · exact ⟨prev, by rw [if_neg hs]; exact hprev, le_refl _⟩

theorem later_apply (f : PriceFeed) (pending : List AssetSymbol) :
    f.Later (apply o nowS quotes f pending).feed := by
  induction pending generalizing f with
  | nil => exact later_refl f
  | cons symbol pending ih =>
    rw [apply]
    split
    · exact ih f
    · exact later_refl f
    · rename_i mid hmid
      exact later_trans (later_setMid (offer_priced hmid).2) (ih _)

/-- What the loop would make of an asset in the feed as it is. -/
def PriceFeed.offerFor (f : PriceFeed) (o : PriceFeedOptions) (nowS : ℚ) (quotes : UsdQuotes)
    (s : AssetSymbol) : Offer :=
  offer o nowS (f.mids s) quotes.qrl (quotes.assets s)

theorem offerFor_setMid {f : PriceFeed} {symbol s : AssetSymbol} {mid : Cached} (h : s ≠ symbol) :
    (f.setMid symbol mid).offerFor o nowS quotes s = f.offerFor o nowS quotes s := by
  unfold PriceFeed.offerFor PriceFeed.setMid
  dsimp only
  rw [if_neg h]

theorem mem_priced_iff {f : PriceFeed} {pending : List AssetSymbol} (hnodup : pending.Nodup)
    {s : AssetSymbol} :
    s ∈ (apply o nowS quotes f pending).priced ↔
      s ∈ pending ∧ (∃ mid, f.offerFor o nowS quotes s = .priced mid) ∧
        ∀ s' ∈ pending.takeWhile (· ≠ s), f.offerFor o nowS quotes s' ≠ .rangeError := by
  induction pending generalizing f with
  | nil => exact ⟨fun h => absurd h List.not_mem_nil, fun h => h.1⟩
  | cons symbol pending ih =>
    rw [List.nodup_cons] at hnodup
    have hoffer : offer o nowS (f.mids symbol) quotes.qrl (quotes.assets symbol) =
        f.offerFor o nowS quotes symbol := rfl
    rw [apply, hoffer]
    by_cases hs : s = symbol
    · subst hs
      have htake : (s :: pending).takeWhile (· ≠ s) = [] := by simp
      rw [htake]
      cases hfirst : f.offerFor o nowS quotes s with
      | skipped =>
        dsimp only
        rw [ih hnodup.2]
        refine ⟨fun h => absurd h.1 hnodup.1, ?_⟩
        rintro ⟨-, ⟨mid, hmid⟩, -⟩
        cases hmid
      | rangeError =>
        refine ⟨fun h => absurd h List.not_mem_nil, ?_⟩
        rintro ⟨-, ⟨mid, hmid⟩, -⟩
        cases hmid
      | priced mid =>
        exact ⟨fun _ => ⟨List.mem_cons_self, ⟨mid, rfl⟩, nofun⟩, fun _ => List.mem_cons_self⟩
    · have htake : (symbol :: pending).takeWhile (· ≠ s) =
          symbol :: pending.takeWhile (· ≠ s) := by
        rw [List.takeWhile_cons_of_pos (by simpa using Ne.symm hs)]
      have hmem : s ∈ symbol :: pending ↔ s ∈ pending := by
        rw [List.mem_cons, or_iff_right hs]
      rw [htake, hmem]
      cases hfirst : f.offerFor o nowS quotes symbol with
      | skipped =>
        dsimp only
        rw [ih hnodup.2, List.forall_mem_cons, hfirst]
        exact ⟨fun h => ⟨h.1, h.2.1, nofun, h.2.2⟩, fun h => ⟨h.1, h.2.1, h.2.2.2⟩⟩
      | rangeError =>
        rw [List.forall_mem_cons]
        exact ⟨fun h => absurd h List.not_mem_nil, fun h => absurd hfirst h.2.2.1⟩
      | priced mid =>
        -- the feed that the loop goes on from differs only in the first asset
        have hsame : ∀ s' ∈ pending, (f.setMid symbol mid).offerFor o nowS quotes s' =
            f.offerFor o nowS quotes s' := by
          intro s' hs'
          refine offerFor_setMid ?_
          rintro rfl
          exact hnodup.1 hs'
        dsimp only
        rw [List.mem_cons, or_iff_right hs, ih hnodup.2, List.forall_mem_cons, hfirst]
        constructor
        · rintro ⟨hs', hpriced, hbefore⟩
          rw [hsame s hs'] at hpriced
          refine ⟨hs', hpriced, nofun, ?_⟩
          intro t ht
          rw [← hsame t (List.takeWhile_sublist _ |>.subset ht)]
          exact hbefore t ht
        · rintro ⟨hs', hpriced, -, hbefore⟩
          rw [← hsame s hs'] at hpriced
          refine ⟨hs', hpriced, ?_⟩
          intro t ht
          rw [hsame t (List.takeWhile_sublist _ |>.subset ht)]
          exact hbefore t ht

end

/-! ## What holds of a run -/

/-- The conversion of a quote throws: the quotient of two good prices is too big for a double. -/
def Overflows (quote : Option UsdQuote) (qrl : UsdQuote) : Prop :=
  ∃ q b p, quote = some q ∧ q.usd = .finite b ∧ qrl.usd = .finite p ∧ 0 < b ∧ 0 < p ∧
    scaled b p = .infinite false

theorem midMilliFromUsd_rangeError {base qrl : Double} :
    midMilliFromUsd base qrl = .rangeError ↔
      ∃ b p, base = .finite b ∧ qrl = .finite p ∧ 0 < b ∧ 0 < p ∧ scaled b p = .infinite false := by
  constructor
  · intro h
    unfold midMilliFromUsd at h
    split at h
    · rename_i b p
      split at h
      · cases h
      · rename_i hpos
        rw [not_or, not_le, not_le] at hpos
        split at h
        · dsimp only at h
          split at h <;> cases h
        · rename_i hbig
          exact ⟨b, p, rfl, rfl, hpos.1, hpos.2, hbig⟩
        · cases h
    · cases h
  · rintro ⟨b, p, rfl, rfl, hb, hp, hbig⟩
    unfold midMilliFromUsd
    dsimp only
    rw [if_neg (by rw [not_or, not_le, not_le]; exact ⟨hb, hp⟩), hbig]

theorem offer_rangeError {o : PriceFeedOptions} {nowS : ℚ} {cached : Option Cached} {qrl : UsdQuote}
    {quote : Option UsdQuote} :
    offer o nowS cached qrl quote = .rangeError ↔ Overflows quote qrl := by
  cases quote with
  | none =>
    refine ⟨(fun h => by cases h), ?_⟩
    rintro ⟨q, b, p, hq, -⟩
    cases hq
  | some q =>
    have hiff : offer o nowS cached qrl (some q) = .rangeError ↔
        midMilliFromUsd q.usd qrl.usd = .rangeError := by
      unfold offer
      dsimp only
      split
      · rename_i h
        exact ⟨fun _ => h, fun _ => rfl⟩
      · rename_i h
        rw [h]
        exact ⟨(fun heq => by cases heq), (fun heq => by cases heq)⟩
      · rename_i h
        rw [h]
        refine ⟨?_, (fun heq => by cases heq)⟩
        intro heq
        split_ifs at heq
    rw [hiff, midMilliFromUsd_rangeError]
    constructor
    · rintro ⟨b, p, h⟩
      exact ⟨q, b, p, rfl, h⟩
    · rintro ⟨_, b, p, ⟨⟩, h⟩
      exact ⟨b, p, h⟩

/-- Whether each asset is priced by this answer is a matter of its own quotes and its own cache. -/
def FeedInput.Independent (o : PriceFeedOptions) (w : FeedWorld) : FeedInput → Prop
  | .answer k (some quotes) =>
    ∀ r, w.waiting[k]? = some r → ∀ s ∈ r.pending,
      (s ∈ (apply o r.nowS quotes w.feed r.pending).priced ↔
        ∃ mid, offer o r.nowS (w.feed.mids s) quotes.qrl (quotes.assets s) = .priced mid)
  | _ => True

/-- No quote that overflows stands before one that prices its asset. -/
def FeedInput.Clear (o : PriceFeedOptions) (w : FeedWorld) : FeedInput → Prop
  | .answer k (some quotes) =>
    ∀ r, w.waiting[k]? = some r → ∀ s ∈ r.pending,
      (∃ mid, offer o r.nowS (w.feed.mids s) quotes.qrl (quotes.assets s) = .priced mid) →
        ∀ s' ∈ r.pending.takeWhile (· ≠ s), ¬ Overflows (quotes.assets s') quotes.qrl
  | _ => True

/-- The mid of an asset comes from the quotes of one answer, and is as old as the older of them. -/
def FeedWorld.Derived (w : FeedWorld) : Prop :=
  ∀ s mid, w.feed.mids s = some mid → ∃ t quotes quote, (t, quotes) ∈ w.answers ∧
    quotes.assets s = some quote ∧
    midMilliFromUsd quote.usd quotes.qrl.usd = .mid mid.milli ∧
    mid.atS = olderOf t quotes.qrl quote

/-- Two attempts at one source are its spacing apart. -/
def Spaced (attempts : List (PriceSource × ℚ)) : Prop :=
  attempts.Pairwise fun earlier later =>
    earlier.1.name = later.1.name → earlier.2 + (later.1.minIntervalS : ℚ) ≤ later.2

/-- The recorded attempt of a source is its last one. -/
def FeedWorld.Timed (w : FeedWorld) : Prop :=
  Spaced w.attempts ∧
    ∀ a ∈ w.attempts, ∃ last, w.feed.lastAttemptAtS a.1.name = some last ∧ a.2 ≤ last

def FeedWorld.Sound (w : FeedWorld) : Prop :=
  w.Derived ∧ w.Timed ∧ ∀ r ∈ w.waiting, r.pending.Nodup

section

variable {o : PriceFeedOptions}

theorem advance_cases (f : PriceFeed) (nowS : ℚ) (pending : List AssetSymbol)
    (sources : List PriceSource) :
    f.advance nowS pending sources = (f, none) ∨
      ∃ source rest, f.tooSoon nowS source = false ∧
        f.advance nowS pending sources =
          (f.attempt nowS source, some ⟨nowS, pending, source, rest⟩) := by
  induction sources with
  | nil => exact Or.inl rfl
  | cons source rest ih =>
    rw [PriceFeed.advance]
    split
    · exact Or.inl rfl
    · split
      · exact ih
      · rename_i hsoon
        exact Or.inr ⟨source, rest, Bool.eq_false_iff.mpr hsoon, rfl⟩

theorem apply_lastAttemptAtS {nowS : ℚ} {quotes : UsdQuotes} (f : PriceFeed)
    (pending : List AssetSymbol) :
    (apply o nowS quotes f pending).feed.lastAttemptAtS = f.lastAttemptAtS := by
  induction pending generalizing f with
  | nil => rfl
  | cons symbol pending ih =>
    rw [apply]
    split
    · exact ih f
    · rfl
    · exact ih _

theorem wait_sound {w : FeedWorld} {f : PriceFeed} {nowS : ℚ} {pending : List AssetSymbol}
    {sources : List PriceSource} (hsound : FeedWorld.Sound { w with feed := f })
    (hpending : pending.Nodup) : (w.wait (f.advance nowS pending sources)).Sound := by
  obtain ⟨hderived, ⟨hspaced, hlast⟩, hnodup⟩ := hsound
  rcases advance_cases f nowS pending sources with hstop | ⟨source, rest, hsoon, hask⟩
  · rw [hstop]
    have hwait : w.wait (f, none) = { w with feed := f } := by
      unfold FeedWorld.wait
      simp
    rw [hwait]
    exact ⟨hderived, ⟨hspaced, hlast⟩, hnodup⟩
  · rw [hask]
    have hwait : w.wait (f.attempt nowS source, some ⟨nowS, pending, source, rest⟩) =
        { w with
          feed := f.attempt nowS source
          waiting := w.waiting ++ [⟨nowS, pending, source, rest⟩]
          attempts := w.attempts ++ [(source, nowS)] } := rfl
    rw [hwait]
    refine ⟨hderived, ⟨?_, ?_⟩, ?_⟩
    · unfold Spaced
      rw [List.pairwise_append]
      refine ⟨hspaced, List.pairwise_singleton _ _, ?_⟩
      intro a ha b hb hname
      rw [List.mem_singleton.mp hb] at hname ⊢
      obtain ⟨last, hrecord, hle⟩ := hlast a ha
      unfold PriceFeed.tooSoon at hsoon
      rw [← hname, hrecord, Option.any_some, decide_eq_false_iff_not, not_lt] at hsoon
      dsimp only
      linarith
    · intro a ha
      unfold PriceFeed.attempt
      dsimp only
      rcases List.mem_append.mp ha with ha | ha
      · obtain ⟨last, hrecord, hle⟩ := hlast a ha
        by_cases hname : a.1.name = source.name
        · refine ⟨nowS, if_pos hname, ?_⟩
          unfold PriceFeed.tooSoon at hsoon
          rw [← hname, hrecord, Option.any_some, decide_eq_false_iff_not, not_lt] at hsoon
          have hmin : (0 : ℚ) ≤ (source.minIntervalS : ℚ) := Nat.cast_nonneg _
          linarith
        · exact ⟨last, by rw [if_neg hname]; exact hrecord, hle⟩
      · rw [List.mem_singleton.mp ha]
        exact ⟨nowS, if_pos rfl, le_refl _⟩
    · intro r hr
      rcases List.mem_append.mp hr with hr | hr
      · exact hnodup r hr
      · rw [List.mem_singleton.mp hr]
        exact hpending

theorem start_sound : FeedWorld.start.Sound :=
  ⟨nofun, ⟨List.Pairwise.nil, nofun⟩, nofun⟩

theorem step_sound {w : FeedWorld} (h : w.Sound) (i : FeedInput) : (w.step o i).Sound := by
  cases i with
  | refresh nowS =>
    show (w.wait (w.feed.maybeRefresh o nowS)).Sound
    unfold PriceFeed.maybeRefresh
    have hidle : (w.wait (w.feed, none)).Sound := by
      have hwait : w.wait (w.feed, none) = w := by
        unfold FeedWorld.wait
        simp
      rw [hwait]
      exact h
    split
    · exact hidle
    · split
      · exact hidle
      · exact wait_sound (f := { w.feed with lastFetchAtS := nowS }) h (by decide)
  -- An answer prices what is pending, and the refresh asks again for the rest.
  | answer k result =>
    unfold FeedWorld.step
    dsimp only
    split
    · exact h
    · rename_i r hr
      have hmem : r ∈ w.waiting := List.mem_of_getElem? hr
      have hwaiting : ∀ r' ∈ w.waiting.eraseIdx k, r'.pending.Nodup :=
        fun r' hr' => h.2.2 r' (List.mem_of_mem_eraseIdx hr')
      cases result with
      | none =>
        unfold PriceFeed.answer
        dsimp only
        refine wait_sound ⟨?_, h.2.1, hwaiting⟩ (h.2.2 r hmem)
        simpa [FeedWorld.Derived] using h.1
      | some quotes =>
        unfold PriceFeed.answer
        dsimp only
        have hpending : (if (apply o r.nowS quotes w.feed r.pending).threw then r.pending
            else r.pending.filter
              fun s => s ∉ (apply o r.nowS quotes w.feed r.pending).priced).Nodup := by
          split
          · exact h.2.2 r hmem
          · exact (h.2.2 r hmem).filter _
        refine wait_sound ⟨?_, ⟨h.2.1.1, ?_⟩, hwaiting⟩ hpending
        · intro s mid hmid
          rcases apply_mids hmid with hold | ⟨cached, hnew⟩
          · obtain ⟨t, qs, quote, hans, hrest⟩ := h.1 s mid hold
            exact ⟨t, qs, quote, List.mem_append_left _ hans, hrest⟩
          · obtain ⟨⟨quote, hquote, hmilli, hat⟩, -⟩ := offer_priced hnew
            exact ⟨r.nowS, quotes, quote, List.mem_append_right _ (List.mem_singleton_self _),
              hquote, hmilli, hat⟩
        · intro a ha
          dsimp only
          rw [apply_lastAttemptAtS]
          exact h.2.1.2 a ha

theorem advance_mids (f : PriceFeed) (nowS : ℚ) (pending : List AssetSymbol)
    (sources : List PriceSource) : (f.advance nowS pending sources).1.mids = f.mids := by
  rcases advance_cases f nowS pending sources with hstop | ⟨source, rest, -, hask⟩
  · rw [hstop]
  · rw [hask]
    rfl

theorem later_of_mids {f g : PriceFeed} (h : g.mids = f.mids) : f.Later g := by
  intro s mid hmid
  exact ⟨mid, by rw [h]; exact hmid, le_refl _⟩

theorem step_later (w : FeedWorld) (i : FeedInput) : w.feed.Later (w.step o i).feed := by
  cases i with
  | refresh nowS =>
    show w.feed.Later (w.feed.maybeRefresh o nowS).1
    unfold PriceFeed.maybeRefresh
    split
    · exact later_refl _
    · split
      · exact later_refl _
      · exact later_of_mids (advance_mids _ _ _ _)
  | answer k result =>
    unfold FeedWorld.step
    dsimp only
    split
    · exact later_refl _
    · rename_i r hr
      cases result with
      | none => exact later_of_mids (advance_mids _ _ _ _)
      | some quotes =>
        exact later_trans (later_apply w.feed r.pending) (later_of_mids (advance_mids _ _ _ _))

theorem independent_iff {w : FeedWorld} (h : w.Sound) (i : FeedInput) :
    i.Independent o w ↔ i.Clear o w := by
  match i with
  | .refresh nowS => exact Iff.rfl
  | .answer k none => exact Iff.rfl
  | .answer k (some quotes) =>
    refine forall_congr' fun r => forall_congr' fun hr => forall_congr' fun s =>
      forall_congr' fun hs => ?_
    have hnodup := h.2.2 r (List.mem_of_getElem? hr)
    rw [mem_priced_iff hnodup]
    constructor
    · intro hiff hpriced s' hs' hover
      exact (hiff.mpr hpriced).2.2 s' hs' (offer_rangeError.mpr hover)
    · intro hclear
      refine ⟨fun h => h.2.1, fun hpriced => ⟨hs, hpriced, ?_⟩⟩
      intro s' hs' herror
      exact hclear hpriced s' hs' (offer_rangeError.mp herror)

/-- In every run a mid that is quoted is the operator's fixed one, or comes from the quotes of one
answer and is not too old; cached timestamps do not go back; attempts at a source keep its spacing.
Each answer prices every asset on its own quotes exactly when none that overflows stands before one
that prices its asset. -/
theorem price_feed_never_blind (o : PriceFeedOptions) (is : List FeedInput) :
    (∀ nowS asset milli, (run (FeedWorld.step o) .start is).feed.current o nowS asset = some milli →
      (o.staticMilli = some milli ∧ asset = .ETH) ∨
        ∃ t quotes quote, (t, quotes) ∈ (run (FeedWorld.step o) .start is).answers ∧
          quotes.assets asset = some quote ∧
          midMilliFromUsd quote.usd quotes.qrl.usd = .mid milli ∧
          nowS - olderOf t quotes.qrl quote ≤ o.maxAgeS) ∧
      (∀ js, (run (FeedWorld.step o) .start is).feed.Later
        (run (FeedWorld.step o) (run (FeedWorld.step o) .start is) js).feed) ∧
      Spaced (run (FeedWorld.step o) .start is).attempts ∧
      (Along (FeedWorld.step o) (fun w i => i.Independent o w) .start is ↔
        Along (FeedWorld.step o) (fun w i => i.Clear o w) .start is) := by
  have hsound : (run (FeedWorld.step o) .start is).Sound :=
    invariant (I := FeedWorld.Sound) (fun _ i h => step_sound h i) start_sound is
  refine ⟨?_, ?_, hsound.2.1.1, ?_⟩
  · intro nowS asset milli hcurrent
    unfold PriceFeed.current at hcurrent
    split at hcurrent
    · rename_i hstatic
      split at hcurrent
      · rename_i heth
        cases hcurrent
        exact Or.inl ⟨hstatic, heth⟩
      · cases hcurrent
    · right
      split at hcurrent
      · cases hcurrent
      · rename_i mid hmid
        split at hcurrent
        · cases hcurrent
        -- The cached price is the one derived from an answer, and young enough.
        · rename_i hage
          cases hcurrent
          obtain ⟨t, quotes, quote, hanswer, hquote, hmilli, hat⟩ := hsound.1 asset mid hmid
          refine ⟨t, quotes, quote, hanswer, hquote, hmilli, ?_⟩
          rw [← hat]
          exact not_lt.mp hage
  · intro js
    exact related (I := fun _ => True) (R := fun w w' => w.feed.Later w'.feed)
      (fun w => later_refl w.feed) (fun _ _ _ => later_trans) (fun _ _ _ => trivial)
      (fun w i _ => step_later w i) trivial js
  · exact along_iff (I := FeedWorld.Sound) (fun w i h => independent_iff h i)
      (fun w i h _ => step_sound h i) start_sound is

end

/-! ## A quotient that is too big -/

def oneSource : PriceFeedOptions := ⟨[⟨"coingecko", 0⟩], 300, 1800, none⟩

/-- A price of ETH that no double can divide by the price of QRL, and a good one of USDC. -/
def hugeEth : UsdQuotes where
  qrl := ⟨.finite (2 ^ (-60 : ℤ)), none⟩
  assets
    | .ETH => some ⟨.finite (2 ^ (1000 : ℤ)), none⟩
    | .USDC => some ⟨.finite 1, none⟩
    | .tUSDT => none

theorem scaled_huge : scaled (2 ^ (1000 : ℤ)) (2 ^ (-60 : ℤ)) = .infinite false := by
  have hbig : Double.limit ≤ (2 : ℚ) ^ (1000 : ℤ) / 2 ^ (-60 : ℤ) := by
    rw [← zpow_sub₀ two_ne_zero]
    exact zpow_le_zpow_right₀ one_le_two (by decide)
  unfold scaled
  rw [Double.round_big hbig]

theorem scaled_one : scaled 1 (2 ^ (-60 : ℤ)) = .finite (1000 * 2 ^ (60 : ℤ)) := by
  have hquot : (1 : ℚ) / 2 ^ (-60 : ℤ) = ((1 : ℤ) : ℚ) * 2 ^ (60 : ℤ) := by
    rw [zpow_neg, one_div, inv_inv, Int.cast_one, one_mul]
  have hsmall : ∀ m : ℤ, |m| < 2 ^ 10 → |(m : ℚ) * 2 ^ (60 : ℤ)| < Double.limit := by
    intro m hm
    have hpos : (0 : ℚ) < 2 ^ (60 : ℤ) := zpow_pos two_pos _
    have hm' : |(m : ℚ)| < 2 ^ (10 : ℤ) := by
      rw [← Int.cast_abs]
      exact_mod_cast hm
    rw [abs_mul, abs_of_pos hpos]
    calc |(m : ℚ)| * 2 ^ (60 : ℤ) < 2 ^ (10 : ℤ) * 2 ^ (60 : ℤ) :=
          mul_lt_mul_of_pos_right hm' hpos
      _ = 2 ^ (70 : ℤ) := (zpow_add₀ two_ne_zero 10 60).symm
      _ ≤ Double.limit := zpow_le_zpow_right₀ one_le_two (by decide)
  have hone := Double.round_exact (m := 1) (e := 60) (by decide) (by decide) (hsmall 1 (by decide))
  have hthousand := Double.round_exact (m := 1000) (e := 60) (by decide) (by decide)
    (hsmall 1000 (by decide))
  unfold scaled
  rw [hquot, hone]
  dsimp only
  rw [Int.cast_one, one_mul, mul_comm]
  exact_mod_cast hthousand

theorem usdc_priced :
    ∃ mid, offer oneSource 1000 none hugeEth.qrl (hugeEth.assets .USDC) = .priced mid := by
  have hpow : (0 : ℚ) < 2 ^ (-60 : ℤ) := zpow_pos two_pos _
  have hmid : ∃ milli, midMilliFromUsd (.finite 1) (.finite (2 ^ (-60 : ℤ))) = .mid milli := by
    have hfloor : 0 < ⌊(1000 : ℚ) * 2 ^ (60 : ℤ) + 1 / 2⌋ := by
      rw [Int.floor_pos]
      have hone : (1 : ℚ) ≤ 2 ^ (60 : ℤ) := one_le_zpow₀ one_le_two (by decide)
      linarith
    refine ⟨⌊(1000 : ℚ) * 2 ^ (60 : ℤ) + 1 / 2⌋.toNat, ?_⟩
    unfold midMilliFromUsd
    dsimp only
    rw [if_neg (by rw [not_or, not_le, not_le]; exact ⟨one_pos, hpow⟩), scaled_one]
    exact if_pos hfloor
  obtain ⟨milli, hmilli⟩ := hmid
  have hold : olderOf 1000 hugeEth.qrl ⟨.finite 1, none⟩ = 1000 := by
    show min (1000 : ℚ) (min 1000 1000) = 1000
    rw [min_self, min_self]
  refine ⟨⟨milli, 1000⟩, ?_⟩
  show offer oneSource 1000 none ⟨.finite (2 ^ (-60 : ℤ)), none⟩ (some ⟨.finite 1, none⟩) = _
  unfold offer
  dsimp only
  rw [hmilli]
  dsimp only
  have hold' : olderOf 1000 ⟨.finite (2 ^ (-60 : ℤ)), none⟩ ⟨.finite 1, none⟩ = 1000 := hold
  have hage : ¬ ((oneSource.maxAgeS : ℚ) < 1000 - 1000) := by
    rw [sub_self, not_lt]
    exact Nat.cast_nonneg _
  rw [hold', if_neg hage]
  rfl

theorem answer_threw {o : PriceFeedOptions} {f : PriceFeed} {r : Refresh} {quotes : UsdQuotes}
    (happly : apply o r.nowS quotes f r.pending = ⟨f, [], true⟩) (hrest : r.rest = []) :
    (f.answer o r (some quotes)).1 = f := by
  unfold PriceFeed.answer
  dsimp only
  rw [happly, hrest]
  rfl

theorem step_answer_feed {o : PriceFeedOptions} {w : FeedWorld} {k : Nat} {r : Refresh}
    {quotes : UsdQuotes} (hr : w.waiting[k]? = some r) :
    (w.step o (.answer k (some quotes))).feed = (w.feed.answer o r (some quotes)).1 := by
  unfold FeedWorld.step
  dsimp only
  rw [hr]
  rfl

/-- The conversion of the first asset throws, so the second is left without a price that its own
quotes give it. -/
theorem huge_quote_unpriced :
    let is : List FeedInput := [.refresh 1000, .answer 0 (some hugeEth)]
    (run (FeedWorld.step oneSource) .start is).feed.current oneSource 1000 .USDC = none ∧
      (∃ mid, offer oneSource 1000 none hugeEth.qrl (hugeEth.assets .USDC) = .priced mid) ∧
      ¬ Along (FeedWorld.step oneSource) (fun w i => i.Independent oneSource w) .start is := by
  have hthrows : ∀ nowS cached,
      offer oneSource nowS cached hugeEth.qrl (hugeEth.assets .ETH) = .rangeError := by
    intro nowS cached
    exact offer_rangeError.mpr ⟨_, _, _, rfl, rfl, rfl, zpow_pos two_pos _, zpow_pos two_pos _,
      scaled_huge⟩
  have happly : ∀ f : PriceFeed, apply oneSource 1000 hugeEth f FEED_SYMBOLS = ⟨f, [], true⟩ := by
    intro f
    rw [FEED_SYMBOLS, apply, hthrows]
  let asked : FeedWorld :=
    ⟨⟨fun _ => none, fun n => if n = "coingecko" then some 1000 else none, 1000⟩,
      [⟨1000, FEED_SYMBOLS, ⟨"coingecko", 0⟩, []⟩], [(⟨"coingecko", 0⟩, 1000)], []⟩
  have hasked : FeedWorld.start.step oneSource (.refresh 1000) = asked := by
    have hdue : ¬ ((1000 : ℚ) - 0 < (300 : Nat)) := by
      rw [sub_zero, not_lt]
      exact_mod_cast (by decide : 300 ≤ 1000)
    show FeedWorld.start.wait (FeedWorld.start.feed.maybeRefresh oneSource 1000) = asked
    unfold PriceFeed.maybeRefresh
    rw [if_neg (by decide)]
    exact congrArg _ (if_neg hdue)
  have hanswer : (asked.step oneSource (.answer 0 (some hugeEth))).feed = asked.feed := by
    rw [step_answer_feed (r := ⟨1000, FEED_SYMBOLS, ⟨"coingecko", 0⟩, []⟩) rfl]
    exact answer_threw (happly _) rfl
  refine ⟨?_, usdc_priced, ?_⟩
  · rw [run_cons, run_cons, run_nil, hasked, hanswer]
    rfl
  · rintro ⟨-, hindependent, -⟩
    rw [hasked] at hindependent
    have hboth := hindependent _ rfl .USDC (by decide)
    rw [happly] at hboth
    exact absurd (hboth.mpr usdc_priced) List.not_mem_nil

end QuantaSwap.Maker.Price
