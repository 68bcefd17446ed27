import QuantaSwap.Book.Released

/-!
# A filled order that comes back

The sweep forgets a filled row a day after the initiator timeout of its fill. A signed
order that is still valid then is a new one to the book.
-/

set_option autoImplicit false

namespace QuantaSwap.Book

open Lib.Js Lib.Text Lib.Checks Lib.Run

section Lists

variable {E : Crypto} {now : SafeInt} {source : String} {random : Random} {s : Store}
  {v variant : VerifiedOrderV1}
  {o : Order}

theorem sweepOrder_forgets {t1 : Int} (hstatus : o.status = .locking)
    (htimeout : o.initiatorTimeout = some t1)
    (hlate : t1 + lockingLingerS < now.val) : sweepOrder now o = none := by
  have hexpires : expires now o = false := by
    unfold expires
    rw [hstatus]
    simp
  have hremovable : removable now o = true := by
    unfold removable
    rw [hstatus, htimeout]
    exact decide_eq_true hlate
  rw [sweepOrder_eq, hexpires, hremovable]
  rfl

theorem import_lists (hproof : OrderProof E now v) (hopen : v.order.Unrestricted)
    (hpublic : v.order.visibility = .pub)
    (hprelock : v.order.prelock = none) (hlive : now.val < v.auth.expiresAt.val)
    (hsource : federationSourceRe source = true)
    (hnone : ∀ x ∈ sweepAll now s.orders, x.id ≠ signedOrderId v.orderId)
    (hdraft : draftOrder E (sweepAll now s.orders) now v.order.record ("federation:" ++ source)
      (.federated v source) random = .ok o) :
    ∃ page s', listOpen now
      (after (applyFederationEvent E now (orderEvent v.order.record v.auth) source random) s) =
      .ok page s' ∧ ∃ p ∈ page, p.orderDigest = some v.orderDigest := by
  have horders := import_new hproof hopen hpublic hsource hnone hdraft
  have hrow := (draftOrder_signed (v := v) rfl hproof hopen hdraft).portable
  obtain ⟨terms, listing, prelock, -, -, -, ho⟩ := draftOrder_new hdraft
  have hstatus : o.status = .open := by rw [ho]; rfl
  have hconflicts : o.equivocated = false := by rw [ho]; rfl
  have hfresh : sweepOrder now o = some o := by
    refine sweepOrder_listed (.inl hstatus) (by rw [ho]; rfl) (by rw [ho]; rintro _ ⟨⟩) ?_
    intro a ha
    rw [hrow.auth] at ha
    cases ha
    exact hlive
  generalize after _ s = s' at horders ⊢
  have hmem : o ∈ sweepAll now s'.orders :=
    mem_sweepAll.mpr ⟨o, horders ▸ List.mem_append_right _ (List.mem_singleton_self o), hfresh⟩
  refine ⟨_, _, rfl, (s'.swept now).pub now o, ?_, ?_⟩
  · apply List.mem_map_of_mem
    rw [List.mem_mergeSort, List.mem_filter]
    refine ⟨hmem, ?_⟩
    simp [hstatus, hconflicts, hrow.visibility, hpublic, hasRunway, hrow.prelocked, hprelock]
  · exact (if_pos hrow.uses).trans hrow.digest

end Lists

/-! ## A filled order that stays -/

section Filled

/-- Some time later the order is still valid. -/
def soonClock : SafeInt := ⟨1005000, sampleResponder_safe⟩

theorem swap_timely {now : SafeInt} {l : List Order} (hfrom : sampleClock.val ≤ now.val)
    (hlive : now.val < swapAuth.expiresAt.val) :
    TimelyOrder swapCrypto now l
      (.applyFederationEvent (orderEvent sampleOrder.record swapAuth) "peer") := by
  intro payload source v hcall hverify
  cases hcall
  have hproof :
    verifyOrderV1 swapCrypto now true ((orderEvent sampleOrder.record swapAuth).payload.get "order")
      ((orderEvent sampleOrder.record swapAuth).payload.get "auth") = .ok swapSigned :=
    (swap_orderProof hfrom).verify fun _ => ⟨rfl, rfl⟩
  obtain rfl : swapSigned = v := Except.ok.inj (hproof.symm.trans hverify)
  exact .inl hlive

theorem keepsTombstones_idle {E : Crypto} {w : World} {i : Step} (hfill : i.call.fill? = none)
    (horder : ∀ payload source, i.call ≠ .applyFederationEvent ⟨.orderV2, payload⟩ source) :
    KeepsTombstones E w i := by
  refine ⟨?_, fun payload source v hcall => absurd hcall (horder payload source)⟩
  intro id fill hcall
  rw [hfill] at hcall
  cases hcall

theorem keepsTombstones_order {w : World} {now : SafeInt} (hclock : w.clock.val ≤ now.val)
    (hfrom : sampleClock.val ≤ now.val) (hlive : now.val < swapAuth.expiresAt.val) :
    KeepsTombstones swapCrypto w (arrival now (orderEvent sampleOrder.record swapAuth)) := by
  refine ⟨fun id fill hcall => (by cases hcall), ?_⟩
  rw [timed_arrival hclock]
  exact swap_timely hfrom hlive

theorem keepsTombstones_fill {o : Order} {s : Store} (hs : EndsIn sampleClock [] o s)
    (h : Standing swapCrypto sampleClock swapSigned o) : KeepsTombstones swapCrypto ⟨s, sampleClock⟩
      (arrival sampleClock (fillEvent o swapVerifiedFill (swapProposal 1))) := by
  refine ⟨?_, fun payload source v hcall => (by cases hcall)⟩
  intro id fill hcall x hx _ a ha
  have hbrings := fillEvent_fill? o swapVerifiedFill (swapProposal 1) "peer"
  rw [show (arrival sampleClock (fillEvent o swapVerifiedFill (swapProposal 1))).call.fill? =
    _ from hbrings,
    Option.some.injEq, Prod.mk.injEq] at hcall
  obtain ⟨-, rfl⟩ := hcall
  rw [hs.orders, List.nil_append, List.mem_singleton] at hx
  subst hx
  rw [h.portable.auth] at ha
  cases ha
  decide

/-- An order is filled, and its order event arrives once more while the order is valid: the book
lists it no more. -/
theorem run_terminals_final_filled :
    ∃ is, ∃ o ∈ (run (World.step swapCrypto) World.start is).store.orders,
    o.makerAuth.isSome = true ∧ o.fill.isSome = true ∧ Projected o ∧
    ∃ digest, o.orderDigest = some digest ∧
      OffTheBook swapCrypto (run (World.step swapCrypto) World.start
        (is ++ [arrival soonClock (orderEvent sampleOrder.record swapAuth)])) digest := by
  obtain ⟨o₀, hdraft⟩ := swap_draft
  obtain ⟨s₀, hstep₀, hs₀, ho₀, -⟩ :=
    swap_listed (w := World.start) (l := []) (by decide) List.nodup_nil rfl hdraft
  obtain ⟨s₁, o₁, hstep₁, hs₁, ho₁, -⟩ := swap_proposed (k := 1) hs₀ ho₀ (by decide)
    (fun _ h => absurd h List.not_mem_nil) (by decide)
  obtain ⟨s₂, hstep₂, hs₂⟩ := swap_filled hs₁ ho₁.toStanding (swap_retained ho₁.intents)
  have hrow : (recordFill sampleClock swapVerifiedFill
    (selectedSource swapCrypto sampleClock o₁ (swapProposal 1))
      o₁).makerAuth.isSome = true ∧ (recordFill sampleClock swapVerifiedFill
      (selectedSource swapCrypto sampleClock o₁ (swapProposal 1)) o₁).fill.isSome = true :=
    ⟨congrArg Option.isSome ho₁.portable.auth, rfl⟩
  set listing := arrival sampleClock (orderEvent sampleOrder.record swapAuth)
  set request := arrival sampleClock (fillIntentEvent o₀ (swapProposal 1))
  set fill := arrival sampleClock (fillEvent o₁ swapVerifiedFill (swapProposal 1))
  set again := arrival soonClock (orderEvent sampleOrder.record swapAuth)
  -- No step removes the row: its timeout lies ahead of both clocks.
  have hkeeps : Along (World.step swapCrypto) (KeepsTombstones swapCrypto) World.start
      ([listing, request, fill] ++ [again]) := by
    refine ⟨keepsTombstones_order (by decide) (by decide) (by decide),
      keepsTombstones_idle rfl fun _ _ h => (by cases h), ?_, ?_, trivial⟩
    · rw [hstep₀, hstep₁]
      exact keepsTombstones_fill hs₁ ho₁.toStanding
    · rw [hstep₀, hstep₁, hstep₂]
      exact keepsTombstones_order (show sampleClock.val ≤ soonClock.val by decide) (by decide)
        (by decide)
  have hrun : run (World.step swapCrypto) World.start [listing, request, fill] =
    ⟨s₂, sampleClock⟩ := by
    rw [run_cons, hstep₀, run_cons, hstep₁, run_cons, hstep₂, run_nil]
  have hfinal := (run_terminals_final swapCrypto swapCrypto_collisionFree _ _ hkeeps).1
  rw [hrun] at hfinal
  generalize recordFill sampleClock swapVerifiedFill _ o₁ = o₂ at hs₂ hrow
  have hmem : o₂ ∈ s₂.orders := hs₂.orders ▸ List.mem_append_right _ (List.mem_singleton_self _)
  obtain ⟨hprojected, digest, hdigest, hsettled⟩ := hfinal o₂ hmem hrow.1
  exact ⟨[listing, request, fill], o₂, by rw [hrun]; exact hmem, hrow.1, hrow.2, hprojected,
    digest, hdigest,
    (hsettled (.inl hrow.2)).1⟩

end Filled

section Sample

/-- The sample order without a prelock, valid for two days. -/
def plainOrder : OrderV1Body := { sampleOrder with prelock := none }

def plainAuth : MakerOrderAuthV1 := { sampleAuth with expiresAt := ⟨1172800, by decide⟩ }

def plainSigned : VerifiedOrderV1 := signedOrder vouchingCrypto plainOrder plainAuth

def plainIntent : FillIntentV1Body := { sampleIntent with orderDigest := plainSigned.orderDigest }

def plainVerifiedIntent : VerifiedFillIntentV1 :=
  signedIntent vouchingCrypto plainIntent sampleIntentAuth

theorem plainTimeout_safe : 1012000 ≤ maxSafeInteger := by decide

def plainFill : FillV1Body :=
  { sampleFill with
    orderDigest := plainSigned.orderDigest
    intentDigest := plainVerifiedIntent.intentDigest
    initiatorTimeout := ⟨1012000, plainTimeout_safe⟩ }

def plainVerifiedFill : VerifiedFillV1 :=
  signedFill vouchingCrypto plainFill sampleFillAuth plainSigned

/-- More than a day after the initiator timeout of the fill. -/
def lateClock : SafeInt := ⟨1110000, by decide⟩

theorem plain_orderProof {now : SafeInt} (hfrom : sampleClock.val ≤ now.val) :
    OrderProof vouchingCrypto now plainSigned := by
  have hrules : OrderRules now true plainOrder plainAuth := by
    refine ⟨by decide, by decide, ?_, (fun h => by cases h), (fun p hp => by cases hp),
      by decide +kernel,
      iff_of_true rfl rfl⟩
    exact le_trans hfrom (Nat.le_add_right _ _)
  exact checkOrderV1_eq_ok.mpr ⟨hrules, rfl, rfl⟩

theorem plain_intentProof :
    IntentProof vouchingCrypto sampleClock plainSigned plainVerifiedIntent :=
  checkFillIntentV1_eq_ok.mpr ⟨⟨rfl, by simp, by decide, by decide, by decide, by decide, by decide,
    by simp, (fun _ h => by cases h), (fun _ h => by cases h)⟩, rfl, rfl⟩

theorem plain_fillProof :
    FillProof vouchingCrypto sampleClock plainSigned plainVerifiedIntent plainVerifiedFill := by
  refine checkFillV1_eq_ok.mpr ⟨⟨rfl, by simp, by decide, rfl, rfl, rfl, rfl, rfl, by decide,
    by decide, by decide, by decide, by simp, by decide, by decide, by decide, fun _ => by
      decide, by decide,
    (fun p hp => by cases hp), fun h => by cases h⟩, rfl, rfl⟩

set_option maxRecDepth 10000 in
theorem plain_draft (late : Bool) :
    ∃ o, draftOrder vouchingCrypto [] (if late then lateClock else sampleClock)
    plainOrder.record ("federation:" ++ "peer") (.federated plainSigned "peer")
      (sampleRandom 'a' (by decide)) = .ok o := by
  have h : (match draftOrder vouchingCrypto [] (if late then lateClock else sampleClock)
    plainOrder.record ("federation:" ++ "peer") (.federated plainSigned "peer")
      (sampleRandom 'a' (by decide)) with
    | .ok _ => true
    | .error _ => false) = true := by
    revert late
    decide +kernel
  cases hr : draftOrder vouchingCrypto [] (if late then lateClock else sampleClock)
    plainOrder.record ("federation:" ++ "peer") (.federated plainSigned "peer")
      (sampleRandom 'a' (by decide)) with
  | ok o => exact ⟨o, rfl⟩
  | error e => rw [hr] at h; cases h

/-- The order arrives from a peer, and so does its fill. -/
def filledRun (o : Order) : List Step :=
  [arrival sampleClock (orderEvent plainSigned.order.record plainSigned.auth),
    arrival sampleClock (fillEvent o plainVerifiedFill plainVerifiedIntent)]

/-- The order arrives once more when the sweep has taken its row. -/
def againRun : List Step :=
  [arrival lateClock (orderEvent plainSigned.order.record plainSigned.auth)]

/-- A filled order is listed again. -/
theorem filled_relists :
    ∃ is, ∃ o ∈ (run (World.step vouchingCrypto) World.start is).store.orders, ∃ digest,
    o.makerAuth.isSome = true ∧ o.fill.isSome = true ∧ o.orderDigest = some digest ∧
      ∃ page s', listOpen lateClock
        (run (World.step vouchingCrypto) World.start (is ++ againRun)).store = .ok page s' ∧
        ∃ p ∈ page, p.orderDigest = some digest := by
  obtain ⟨o, hdraft⟩ := plain_draft false
  obtain ⟨again, hagain⟩ := plain_draft true
  have hopen : plainOrder.Unrestricted := fun _ => ⟨rfl, rfl⟩
  have hrow := draftOrder_signed (v := plainSigned) rfl (plain_orderProof le_rfl) hopen hdraft
  obtain ⟨terms, listing, prelock, -, -, -, ho⟩ := draftOrder_new hdraft
  have hnofill : o.fill = none := by rw [ho]; rfl
  -- The order becomes a row.
  have h₁ := import_new (s := World.start.store) (plain_orderProof le_rfl) hopen rfl
    (by decide : federationSourceRe "peer" = true) (fun _ h => by cases h) hdraft
  have hswept : sweepAll sampleClock [o] = [o] := by
    have hfresh : sweepOrder sampleClock o = some o := by
      refine sweepOrder_listed (.inl (by rw [ho]; rfl)) (by rw [ho]; rfl)
        (by rw [ho]; rintro _ ⟨⟩) ?_
      intro a ha
      rw [hrow.portable.auth] at ha
      cases ha
      decide
    unfold sweepAll
    rw [List.filterMap_cons, hfresh]
    rfl
  rw [show sweepAll sampleClock World.start.store.orders ++ [o] = [o] from rfl] at h₁
  generalize hs₁ : after _ _ = s₁ at h₁
  -- Its fill is recorded.
  have h₂ := import_fill "peer" (sampleRandom 'a' (by decide)) (s := s₁) (o := o)
    (h₁ ▸ List.nodup_singleton _)
    (by rw [h₁, hswept]; exact List.mem_singleton_self o) hrow.portable.visibility
      hrow.portable.uses
    (referenced_primary hrow.portable hnofill rfl) plain_intentProof plain_fillProof
      (.inl (by rw [ho]; rfl)) hnofill
    (by rw [ho]; rfl)
  rw [h₁, hswept, List.map_singleton, if_pos rfl] at h₂
  generalize hfilled : recordFill _ _ _ o = filled at h₂
  generalize hs₂ : after _ s₁ = s₂ at h₂
  have hrun : run (World.step vouchingCrypto) World.start (filledRun o) = ⟨s₂, sampleClock⟩ := by
    unfold filledRun
    rw [run_cons, step_arrival (by decide), run_cons, step_arrival (Nat.le_refl _), run_nil]
    dsimp only
    rw [hs₁, hs₂]
  -- Its row is gone when the order arrives again.
  have hgone : sweepAll lateClock s₂.orders = [] := by
    have htimeout : filled.initiatorTimeout = some 1012000 := by rw [← hfilled]; rfl
    have hforgotten : sweepOrder lateClock filled = none :=
      sweepOrder_forgets (by rw [← hfilled]; rfl) htimeout (by decide)
    unfold sweepAll
    rw [h₂, List.filterMap_cons, hforgotten]
    rfl
  have hproof := plain_orderProof (show sampleClock.val ≤ lateClock.val by decide)
  have hlisted := import_lists (s := s₂) hproof hopen rfl rfl (by decide)
    (by decide : federationSourceRe "peer" = true) (by rw [hgone]; exact fun _ h => by cases h)
      (hgone ▸ hagain)
  refine ⟨filledRun o, filled, ?_, plainSigned.orderDigest, ?_, ?_, ?_, ?_⟩
  · rw [hrun, h₂]
    exact List.mem_singleton_self _
  · rw [← hfilled, ho]
    rfl
  · rw [← hfilled]
    rfl
  · rw [← hfilled]
    exact hrow.portable.digest
  · rw [run_append, hrun]
    unfold againRun
    rw [run_cons, step_arrival (show sampleClock.val ≤ lateClock.val by decide), run_nil]
    dsimp only
    exact hlisted

end Sample

end QuantaSwap.Book
