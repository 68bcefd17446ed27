import QuantaSwap.Lib.Sort
import QuantaSwap.Book.Released

/-!
# The best match

`take` fills from the best eligible order: the best exact rate for the taker, then
the largest, then the oldest. Amounts in the book are positive, so cross
multiplication orders them.
-/

set_option autoImplicit false

namespace QuantaSwap.Book

open Lib.Js Lib.Text Lib.Checks Lib.Run Lib.Sort

/-- What a taker asks for. -/
structure TakeRequest where
  direction : Direction
  asset : AssetSymbol
  maxPay : Nat
  minReceive : Nat

/-- The request that `take` reads from a body: the taker pays on the maker's asking side. -/
def takeRequest (body : Record) : Except Thrown TakeRequest := do
  let direction ← requireDirection (body.get "direction")
  let asset ← requireAsset (body.get "asset")
  let bounds : AmountBounds × AmountBounds := match direction with
    | .ethToQrl => (qrlBounds, asset.toAmountBounds)
    | .qrlToEth => (asset.toAmountBounds, qrlBounds)
  let maxPay ← requireAmount (body.get "maxPay") "maxPay" bounds.1
  let minReceive ← requireAmount (body.get "minReceive") "minReceive" bounds.2
  pure ⟨direction, asset.symbol, Amount.units maxPay, Amount.units minReceive⟩

/-- An order that may fill the request. -/
structure Eligible (s : Store) (now : SafeInt) (r : TakeRequest) (o : Order) : Prop where
  isOpen : o.status = .open
  isPublic : o.visibility = .pub
  legacy : usesPortableTerminalProtocol o = false
  seen : s.isSeen o now = true
  direction : o.direction = r.direction
  asset : o.asset = r.asset
  pays : Amount.units o.toAmount ≤ r.maxPay
  receives : r.minReceive ≤ Amount.units o.fromAmount
  runway : hasRunway o now = true

/-- What the maker gives and asks for, and since when. -/
def Order.offer (o : Order) : Offer :=
  ⟨Amount.units o.fromAmount, Amount.units o.toAmount, o.createdAt.val⟩

section Comparison

variable {s : Store} {now : SafeInt} {r : TakeRequest} {a b o : Order} {l : List Order}

theorem takeEligible_iff :
    takeEligible now s r.direction r.asset r.maxPay r.minReceive o = true ↔ Eligible s now r o := by
  unfold takeEligible
  simp only [Bool.and_eq_true, decide_eq_true_eq, Bool.not_eq_true']
  constructor
  · rintro ⟨⟨⟨⟨⟨⟨⟨⟨hopen, hlegacy⟩, hpublic⟩, hdirection⟩, hasset⟩, hpays⟩, hreceives⟩,
      hseen⟩, hrunway⟩
    exact ⟨hopen, hpublic, hlegacy, hseen, hdirection, hasset, hpays, hreceives, hrunway⟩
  · intro h
    exact ⟨⟨⟨⟨⟨⟨⟨⟨h.isOpen, h.legacy⟩, h.isPublic⟩, h.direction⟩, h.asset⟩, h.pays⟩, h.receives⟩,
      h.seen⟩, h.runway⟩

theorem takeBefore_iff : takeBefore a b = true ↔ ¬b.offer.Better a.offer := by
  unfold takeBefore Offer.Better Order.offer
  dsimp only
  split_ifs with hcross hsize
  · rw [decide_eq_true_iff]
    omega
  · rw [decide_eq_true_iff]
    omega
  · rw [decide_eq_true_iff]
    omega

/-- A row of the book offers something for something. -/
def Priced (o : Order) : Prop := o.offer.Positive

theorem takeBefore_key (ha : Priced a) (hb : Priced b) :
    takeBefore a b = decide (a.offer.key ≤ b.offer.key) := by
  rw [Bool.eq_iff_iff, takeBefore_iff, decide_eq_true_iff, Offer.better_iff hb ha, not_lt]

theorem best_of_sorted (hpriced : ∀ o ∈ l, Priced o) (h : (l.mergeSort takeBefore).head? = some b) :
    b ∈ l ∧ ∀ o ∈ l, ¬o.offer.Better b.offer := by
  have hkeys : ∀ a ∈ l, ∀ c ∈ l, takeBefore a c = decide (a.offer.key ≤ c.offer.key) :=
    fun a ha c hc => takeBefore_key (hpriced a ha) (hpriced c hc)
  obtain ⟨hmem, hleast⟩ := head?_mergeSort_le hkeys h
  refine ⟨hmem, ?_⟩
  intro o ho hbetter
  rw [Offer.better_iff (hpriced o ho) (hpriced b hmem)] at hbetter
  exact absurd (hleast o ho) (not_le.mpr hbetter)

end Comparison

/-! ## Amounts are positive -/

section Priced

variable {E : Crypto} {i : Step} {o o' : Order} {l : List Order}

theorem requireAmount_bounds {raw : Option Json} {field : String} {bounds : AmountBounds}
    {amount : Amount}
    (h : requireAmount raw field bounds = .ok amount) :
    bounds.minBaseUnits ≤ Amount.units amount ∧ Amount.units amount ≤ bounds.maxBaseUnits := by
  simp only [requireAmount, bind_eq_ok, orThrow_eq_ok, refuse_eq_ok, pure_eq_ok, exists_const] at h
  obtain ⟨m, -, hmin, hmax, rfl⟩ := h
  unfold Amount.units
  rw [Lib.Decimal.value_repr]
  omega

theorem minBaseUnits_pos (a : AssetSymbol) : 0 < a.asset.minBaseUnits := by
  cases a <;> decide

theorem createTerms_positive {body : Record} {terms : CreateTerms}
    (h : createTerms body = .ok terms) :
    0 < Amount.units terms.fromAmount ∧ 0 < Amount.units terms.toAmount := by
  simp only [createTerms, bind_eq_ok, pure_eq_ok] at h
  obtain ⟨direction, -, asset, hasset, fromAmount, hfrom, toAmount, hto, _, -, _, -, rfl⟩ := h
  obtain ⟨a, rfl⟩ := requireAsset_eq_ok hasset
  have hqrl : 0 < qrlBounds.minBaseUnits := by decide
  have hpos := minBaseUnits_pos a
  have hfrom := (requireAmount_bounds hfrom).1
  have hto := (requireAmount_bounds hto).1
  cases direction with
  | ethToQrl => exact ⟨lt_of_lt_of_le hpos hfrom, lt_of_lt_of_le hqrl hto⟩
  | qrlToEth => exact ⟨lt_of_lt_of_le hqrl hfrom, lt_of_lt_of_le hpos hto⟩

theorem Priced.sweep {now : SafeInt} (h : Priced o) (hsweep : sweepOrder now o = some o') :
    Priced o' := by
  rcases sweepOrder_cases hsweep with ⟨rfl, -⟩ | rfl
  · exact h
  · exact h

theorem Priced.change (h : Priced o) (hchange : Change E i o o') : Priced o' := by
  cases hchange with
  | orderConflict => exact h
  | portable _ hchange => cases hchange <;> exact h
  | legacy _ hchange => cases hchange <;> exact h

theorem draftOrder_priced {body : Record} {makerIp : String} {origin : Origin} {random : Random}
    {now : SafeInt}
    (h : draftOrder E l now body makerIp origin random = .ok o) : Priced o := by
  obtain ⟨terms, listing, prelock, hterms, -, -, rfl⟩ := draftOrder_new h
  exact createTerms_positive hterms

theorem run_priced (E : Crypto) (is : List Step) :
    ∀ o ∈ (run (World.step E) World.start is).store.orders, Priced o := by
  have hstep : ∀ (w : World) (i : Step), ((w.store.orders.map Order.id).Nodup ∧
    ∀ o ∈ w.store.orders, Priced o) →
      ((w.step E i).store.orders.map Order.id).Nodup ∧ ∀ o ∈ (w.step E i).store.orders,
        Priced o := by
    rintro w i ⟨hids, hpriced⟩
    have heffects := w.step_effects E i
    refine ⟨heffects.ids hids, ?_⟩
    exact heffects.forall_mem hids (fun o o' ho hsweep => ho.sweep hsweep) (fun o ho => ho)
      (fun l body makerIp origin o hasked hdraft => draftOrder_priced hdraft)
      (fun o o' ho hchange => ho.change hchange) hpriced
  exact (invariant (s := World.start) hstep
    ⟨List.nodup_nil, fun o ho => absurd ho List.not_mem_nil⟩ is).2

end Priced

/-! ## The take -/

section Take

variable {E : Crypto} {now : SafeInt} {s s' : Store} {body : Record} {takerIp : String}
  {random : Random}

def noMatch : Thrown := apiError 409 "no open order matches those terms; the book may have moved"

/-- The candidates of a request, and the take of the first of them. -/
def takeBest (E : Crypto) (now : SafeInt) (r : TakeRequest) (body : Record) (takerIp : String)
    (random : Random) :
    StoreM Taken := do
  let s ← get
  let candidates := s.orders.filter (takeEligible now s r.direction r.asset r.maxPay r.minReceive)
  let best ← check (orThrow (candidates.mergeSort takeBefore).head? noMatch)
  commitTake E now best body takerIp random

theorem take_eq : take E now body takerIp random = (do
    check (assertLegacyOrderProtocolInput E (body.get "takerQrlAccount"))
    sweep now
    let r ← check (takeRequest body)
    takeBest E now r body takerIp random) := by
  unfold take takeRequest
  simp only [check_bind, bind_assoc]
  rfl

theorem commitTake_id {o : Order} {taken : Taken}
    (h : commitTake E now o body takerIp random s = .ok taken s') :
    taken.order.id = o.id := by
  simp only [commitTake, run_bind_ok, check_run_ok, get_run, modify_run, pure_run,
    EStateM.Result.ok.injEq] at h
  obtain ⟨_, _, ⟨rfl, rfl⟩, _, _, ⟨-, rfl⟩, _, _, ⟨-, rfl⟩, eth, _, ⟨-, rfl⟩, qrl, _, ⟨-, rfl⟩, _,
    _, ⟨-, rfl⟩, _, _,
    ⟨-, rfl⟩, _, _, ⟨rfl, rfl⟩, rfl, -⟩ := h
  rfl

theorem commitTake_ne_noMatch {o : Order} :
    commitTake E now o body takerIp random s ≠ .error noMatch s' := by
  intro h
  simp only [commitTake, noMatch, apiError, requireAddress, run_bind_error, check_run_error,
    refuse_eq_error, orThrow_eq_error, get_run, modify_run,
    pure_run, Thrown.api.injEq, ApiError.mk.injEq] at h
  simp at h

theorem requireAmount_ne_noMatch {raw : Option Json} {field : String} {bounds : AmountBounds} :
    requireAmount raw field bounds ≠ .error noMatch := by
  intro h
  simp [requireAmount, noMatch, apiError, bind_eq_error, refuse_eq_error, orThrow_eq_error, pure,
    Except.pure] at h

theorem takeRequest_ne_noMatch : takeRequest body ≠ .error noMatch := by
  intro h
  simp only [takeRequest, bind_eq_error, requireAmount_ne_noMatch, false_or] at h
  rcases h with h | ⟨direction, -, h | ⟨asset, -, maxPay, -, minReceive, -, h⟩⟩
  · simp [requireDirection, noMatch, apiError, orThrow_eq_error] at h
  · unfold requireAsset at h
    split at h <;> (try split at h) <;> simp [noMatch, apiError] at h
  · cases h

/-- The chosen order is eligible, and no eligible order is better. -/
def BestMatch (s : Store) (now : SafeInt) (r : TakeRequest) (best : Order) : Prop :=
  best ∈ s.orders ∧ Eligible s now r best ∧ ∀ o ∈ s.orders, Eligible s now r o →
    ¬o.offer.Better best.offer

theorem takeBest_eq_ok {r : TakeRequest} {taken : Taken} (hpriced : ∀ o ∈ s.orders, Priced o)
    (h : takeBest E now r body takerIp random s = .ok taken s') :
    ∃ best, BestMatch s now r best ∧ taken.order.id = best.id := by
  have hcandidates :
    ∀ o ∈ s.orders.filter (takeEligible now s r.direction r.asset r.maxPay r.minReceive),
      Priced o :=
    fun o ho => hpriced o (List.mem_filter.mp ho).1
  simp only [takeBest, get_bind_run, run_bind_ok, check_run_ok, orThrow_eq_ok] at h
  obtain ⟨best, _, ⟨hbest, rfl⟩, h⟩ := h
  obtain ⟨hmem, hleast⟩ := best_of_sorted hcandidates hbest
  rw [List.mem_filter] at hmem
  refine ⟨best, ⟨hmem.1, takeEligible_iff.mp hmem.2, ?_⟩, commitTake_id h⟩
  intro o ho heligible
  exact hleast o (List.mem_filter.mpr ⟨ho, takeEligible_iff.mpr heligible⟩)

theorem takeBest_noMatch {r : TakeRequest}
    (h : takeBest E now r body takerIp random s = .error noMatch s') :
    ∀ o ∈ s.orders, ¬Eligible s now r o := by
  simp only [takeBest, get_bind_run, run_bind_error, check_run_error, orThrow_eq_error] at h
  rcases h with ⟨⟨hnone, -⟩, -⟩ | ⟨best, t, -, h⟩
  · have hempty := head?_mergeSort_eq_none hnone
    intro o ho heligible
    have hmem := List.mem_filter.mpr ⟨ho, takeEligible_iff.mpr heligible⟩
    rw [hempty] at hmem
    exact absurd hmem List.not_mem_nil
  · exact absurd h commitTake_ne_noMatch

theorem head?_mergeSort_pair {a b : Order} (h : takeBefore a b = false) :
    ([a, b].mergeSort takeBefore).head? = some b := by
  simp [List.mergeSort, List.MergeSort.Internal.splitInTwo, h]

theorem take_of_pair {r : TakeRequest} {a b : Order} {taken : Taken}
    (hprotocol : assertLegacyOrderProtocolInput E (body.get "takerQrlAccount") = .ok ())
    (hrequest : takeRequest body = .ok r) (horders : (s.swept now).orders = [a, b])
    (ha : takeEligible now (s.swept now) r.direction r.asset r.maxPay r.minReceive a = true)
    (hb : takeEligible now (s.swept now) r.direction r.asset r.maxPay r.minReceive b = true)
    (hbefore : takeBefore a b = false)
    (h : commitTake E now b body takerIp random (s.swept now) = .ok taken s') :
    take E now body takerIp random s = .ok taken s' := by
  have hcandidates : ((s.swept now).orders.filter (takeEligible now (s.swept now) r.direction
      r.asset r.maxPay r.minReceive)) = [a, b] := by
    rw [horders, List.filter_cons_of_pos ha, List.filter_cons_of_pos hb, List.filter_nil]
  rw [take_eq]
  simp only [sweep_bind_run, run_bind_ok, check_run_ok]
  refine ⟨(), s, ⟨hprotocol, rfl⟩, r, s.swept now, ⟨hrequest, rfl⟩, ?_⟩
  simp only [takeBest, get_bind_run, run_bind_ok, check_run_ok, orThrow_eq_ok]
  refine ⟨b, s.swept now, ⟨?_, rfl⟩, h⟩
  rw [hcandidates]
  exact head?_mergeSort_pair hbefore

end Take

/-- In every book that calls lead to, `take` fills from a best match, and finds no match only when
no order is eligible. On positive amounts the comparison is a strict weak order. -/
theorem run_take_best (E : Crypto) (is : List Step) (now : SafeInt) (body : Record)
    (takerIp : String)
    (random : Random) :
    let s := (run (World.step E) World.start is).store
    (∀ taken s', take E now body takerIp random s = .ok taken s' → ∃ r, takeRequest body = .ok r ∧
      ∃ best, BestMatch (s.swept now) now r best ∧ taken.order.id = best.id) ∧
    (∀ s', take E now body takerIp random s = .error noMatch s' → ∃ r, takeRequest body = .ok r ∧
      ∀ o ∈ (s.swept now).orders, ¬Eligible (s.swept now) now r o) ∧
    IsStrictWeakOrder {o : Offer // o.Positive} fun a b => a.val.Better b.val := by
  intro s
  have hpriced : ∀ o ∈ (s.swept now).orders, Priced o := by
    intro o ho
    obtain ⟨x, hx, hsweep⟩ := mem_sweepAll.mp ho
    exact (run_priced E is x hx).sweep hsweep
  refine ⟨?_, ?_, Offer.better_isStrictWeakOrder⟩
  · intro taken s' h
    rw [take_eq] at h
    simp only [sweep_bind_run, run_bind_ok, check_run_ok] at h
    obtain ⟨_, _, ⟨-, rfl⟩, r, _, ⟨hrequest, rfl⟩, h⟩ := h
    exact ⟨r, hrequest, takeBest_eq_ok hpriced h⟩
  · intro s' h
    rw [take_eq] at h
    simp only [sweep_bind_run, run_bind_error, check_run_error, check_run_ok,
      takeRequest_ne_noMatch] at h
    rcases h with ⟨h, -⟩ | ⟨_, _, ⟨-, rfl⟩, h⟩
    · simp [assertLegacyOrderProtocolInput, noMatch, apiError, refuse_eq_error] at h
    · rcases h with ⟨⟨⟩, -⟩ | ⟨r, _, ⟨hrequest, rfl⟩, h⟩
      exact ⟨r, hrequest, takeBest_noMatch h⟩

section Sample

def sampleTake : Record :=
  [("direction", .str "eth->qrl"), ("maxPay", .str "2000000000000000000"),
    ("minReceive", .str "500000000000000000"), ("takerEthAccount", .str sampleEth),
    ("takerQrlAccount", .str sampleQrl)]

/-- The same listing for a tenth less. -/
def cheaperListing : Record :=
  [("direction", .str "eth->qrl"), ("fromAmount", .str "1000000000000000000"),
    ("toAmount", .str "900000000000000000"), ("makerEthAccount", .str sampleEth),
    ("makerQrlAccount", .str sampleQrl)]

/-- Two listings that the take may fill from. -/
def sampleBook : List Step :=
  [sampleStep 'a' lowerHex_a (.create (sampleListing []) "maker"),
    sampleStep 'b' lowerHex_b (.create cheaperListing "other")]

/-- Whether the book holds two orders that the sample take may fill from, of which it takes
the second. -/
def takesSecond (s : Store) : Bool :=
  match assertLegacyOrderProtocolInput flatCrypto (sampleTake.get "takerQrlAccount"),
    takeRequest sampleTake, (s.swept sampleClock).orders with
  | .ok (), .ok r, [a, b] =>
    takeEligible sampleClock (s.swept sampleClock) r.direction r.asset r.maxPay r.minReceive a &&
      takeEligible sampleClock (s.swept sampleClock) r.direction r.asset r.maxPay r.minReceive b &&
      !takeBefore a b &&
      (match commitTake flatCrypto sampleClock b sampleTake "taker" (sampleRandom '2' lowerHex_two)
          (s.swept sampleClock) with
        | .ok taken _ => decide (taken.order.toAmount.val = "900000000000000000")
        | .error _ _ => false)
  | _, _, _ => false

set_option maxRecDepth 10000 in
theorem sampleBook_takesSecond :
    takesSecond (run (World.step flatCrypto) World.start sampleBook).store = true := by
  decide +kernel

theorem sampleTake_taken {s : Store} (h : takesSecond s = true) : ∃ taken s',
    take flatCrypto sampleClock sampleTake "taker" (sampleRandom '2' lowerHex_two) s =
      .ok taken s' ∧
    taken.order.toAmount.val = "900000000000000000" := by
  unfold takesSecond at h
  split at h
  · rename_i r a b hprotocol hrequest horders
    simp only [Bool.and_eq_true, Bool.not_eq_true'] at h
    obtain ⟨⟨⟨ha, hb⟩, hbefore⟩, h⟩ := h
    split at h
    · rename_i taken s' hcommit
      exact ⟨taken, s', take_of_pair hprotocol hrequest horders ha hb hbefore hcommit,
        of_decide_eq_true h⟩
    · cases h
  · cases h

/-- Of two listings the cheaper one is taken. -/
theorem run_take_best_listing : ∃ taken s',
    take flatCrypto sampleClock sampleTake "taker" (sampleRandom '2' lowerHex_two)
      (run (World.step flatCrypto) World.start sampleBook).store = .ok taken s' ∧
    taken.order.toAmount.val = "900000000000000000" ∧
    ∃ r, takeRequest sampleTake = .ok r ∧
      ∃ best, BestMatch
        ((run (World.step flatCrypto) World.start sampleBook).store.swept sampleClock)
          sampleClock r best ∧
        taken.order.id = best.id := by
  obtain ⟨taken, s', h, hcheaper⟩ := sampleTake_taken sampleBook_takesSecond
  exact ⟨taken, s', h, hcheaper,
    (run_take_best flatCrypto sampleBook sampleClock sampleTake "taker"
      (sampleRandom '2' lowerHex_two)).1 taken s' h⟩

end Sample

end QuantaSwap.Book
