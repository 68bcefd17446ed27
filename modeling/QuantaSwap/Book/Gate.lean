import QuantaSwap.Book.Message
import QuantaSwap.Book.Reload
import QuantaSwap.Book.Atomic

/-!
# The gate in front of the verification of a proposal

`shedFillIntent` refuses before any signature is checked. What it refuses is refused
without it, so the proposals a book admits are the same.
-/

set_option autoImplicit false

namespace QuantaSwap.Book

open Lib.Js Lib.Text Lib.Checks Lib.Run

section Pruned

variable {E : Crypto} {now : SafeInt} {ipHash : TokenHash} {s s' : Store}

theorem pruneOne_twice (recent : List SafeInt → List SafeInt) {times : List SafeInt}
    (hidem : recent (recent times) = recent times) :
    ((match recent times with
      | [] => none
      | kept => some (ipHash, kept)).bind fun entry : TokenHash × List SafeInt =>
        if entry.1 = ipHash then
          match recent entry.2 with
          | [] => none
          | kept => some (ipHash, kept)
        else some entry) =
      match recent times with
      | [] => none
      | kept => some (ipHash, kept) := by
  cases hrecent : recent times with
  | nil => rfl
  | cons t kept =>
    rw [hrecent] at hidem
    dsimp only [Option.bind_some]
    rw [if_pos rfl, hidem]

theorem pruneSource_idem (l : List (TokenHash × List SafeInt)) :
    pruneSource now ipHash (pruneSource now ipHash l) = pruneSource now ipHash l := by
  unfold pruneSource
  rw [List.filterMap_filterMap]
  congr
  funext entry
  split_ifs with hsource
  · subst hsource
    exact pruneOne_twice _ (recentAdmissions_idem entry.2)
  · exact if_neg hsource

variable (now ipHash s) in
/-- The store after `recentIntentAdmissions`. -/
def prunedStore : Store := { s with intentAdmissions := pruneSource now ipHash s.intentAdmissions }

theorem prunedStore_idem :
    prunedStore now ipHash (prunedStore now ipHash s) = prunedStore now ipHash s := by
  unfold prunedStore
  rw [pruneSource_idem]

theorem recentIntentAdmissions_eq_ok {recent : List SafeInt} :
    recentIntentAdmissions now ipHash s = .ok recent s' ↔
      recent = (prunedStore now ipHash s).admissionsOf ipHash ∧ s' = prunedStore now ipHash s := by
  change EStateM.Result.ok _ _ = _ ↔ _
  rw [EStateM.Result.ok.injEq]
  exact and_congr eq_comm eq_comm

theorem assertDirectLimits_eq_ok {o : Order} {verified : VerifiedFillIntentV1} {u : Unit} :
    assertDirectLimits now o verified ipHash false s = .ok u s' ↔
      (¬∃ i ∈ o.intents, (i : StoredFillIntentV1).release = none ∧ isLiveIntent now i = true ∧
        i.intent.takerQrlAccount = verified.intent.takerQrlAccount) ∧
      sourceLiveIntentCount s.orders ipHash now < maxConcurrentTakesPerIp ∧
      ((prunedStore now ipHash s).admissionsOf ipHash).length < maxTakesPerIpPerDay ∧
      s' = prunedStore now ipHash s := by
  unfold assertDirectLimits
  simp only [Bool.false_eq_true, if_false, run_bind_ok, check_run_ok, get_run, refuse_eq_ok, not_le,
    recentIntentAdmissions_eq_ok, EStateM.Result.ok.injEq]
  constructor
  · rintro ⟨_, _, ⟨hpending, rfl⟩, _, _, ⟨rfl, rfl⟩, _, _, ⟨hsource, rfl⟩, recent, _, ⟨rfl, rfl⟩,
      hdaily, rfl⟩
    exact ⟨hpending, hsource, hdaily, rfl⟩
  · rintro ⟨hpending, hsource, hdaily, rfl⟩
    exact ⟨⟨⟩, _, ⟨hpending, rfl⟩, _, _, ⟨rfl, rfl⟩, ⟨⟩, _, ⟨hsource, rfl⟩, _, _, ⟨rfl, rfl⟩,
      hdaily, rfl⟩

end Pruned

/-! ## The gate and the full path -/

section Gate

variable {E : Crypto} {now : SafeInt} {s s' : Store} {o : Order}
  {rawIntent rawAuth shareToken : Option Json}
  {takerIp : String} {p : PublicFillIntentV1}

/-- The nonce that a request claims belongs to a proposal the order retains. -/
def ClaimsRetained (o : Order) (rawAuth : Option Json) : Prop :=
  ∃ i ∈ o.intents, (asRecord rawAuth).bind (fun r => asString (r.get "nonce")) =
    some (i : StoredFillIntentV1).auth.nonce.val

theorem shedFillIntent_eq_ok {u : Unit} : shedFillIntent E now o rawAuth takerIp s = .ok u s' ↔
    (ClaimsRetained o rawAuth ∧ s' = s) ∨
    (¬ClaimsRetained o rawAuth ∧ o.status = .open ∧ o.equivocated = false ∧ hasRunway o now = true ∧
      liveIntentCount now o.intents < maxFillIntentsPerOrder ∧
      sourceLiveIntentCount s.orders (sha256Hex E takerIp) now < maxConcurrentTakesPerIp ∧
      ((prunedStore now (sha256Hex E takerIp) s).admissionsOf (sha256Hex E takerIp)).length <
        maxTakesPerIpPerDay ∧
      s' = prunedStore now (sha256Hex E takerIp) s) := by
  have hclaims : (o.intents.any fun i =>
      (asRecord rawAuth).bind (fun r => asString (r.get "nonce")) = some i.auth.nonce.val) = true ↔
        ClaimsRetained o rawAuth := by
    rw [List.any_eq_true]
    simp only [ClaimsRetained, decide_eq_true_eq]
  unfold shedFillIntent
  dsimp only
  split
  · rename_i hclaim
    simp only [hclaims.mp hclaim, pure_run, EStateM.Result.ok.injEq, true_and, not_true_eq_false,
      false_and, or_false]
    exact eq_comm
  · rename_i hclaim
    rw [hclaims] at hclaim
    simp only [hclaim, run_bind_ok, check_run_ok, get_run, refuse_eq_ok,
      recentIntentAdmissions_eq_ok,
      EStateM.Result.ok.injEq, false_and, false_or, not_false_eq_true, true_and, not_or,
        not_le, not_not,
      Bool.not_eq_true, Bool.not_eq_false]
    constructor
    · rintro ⟨_, _, ⟨⟨hopen, hclean⟩, rfl⟩, _, _, ⟨hrunway, rfl⟩, _, _, ⟨hlive, rfl⟩, _, _,
        ⟨rfl, rfl⟩, _, _,
        ⟨hsource, rfl⟩, recent, _, ⟨rfl, rfl⟩, hdaily, rfl⟩
      exact ⟨hopen, hclean, hrunway, hlive, hsource, hdaily, rfl⟩
    · rintro ⟨hopen, hclean, hrunway, hlive, hsource, hdaily, rfl⟩
      exact ⟨⟨⟩, _, ⟨⟨hopen, hclean⟩, rfl⟩, ⟨⟩, _, ⟨hrunway, rfl⟩, ⟨⟩, _, ⟨hlive, rfl⟩, _, _,
        ⟨rfl, rfl⟩, ⟨⟩, _,
        ⟨hsource, rfl⟩, _, _, ⟨rfl, rfl⟩, hdaily, rfl⟩

/-- `submitFillIntent` after the gate. -/
def admitFillIntent (E : Crypto) (now : SafeInt) (order : Order) (rawIntent rawAuth : Option Json)
    (takerIp : String) :
    StoreM PublicFillIntentV1 := do
  let verifiedOrder ← check (verifiedSignedOrder E now order)
  let verified ← check (verifyFillIntentV1 E now false rawIntent rawAuth verifiedOrder)
  match findIntent order verified.intentDigest with
  | some replay => pure replay.publicIntent
  | none => do
    check (refuse (order.status ≠ .open ∨ order.equivocated = true) (apiError 409 noLongerOpen))
    check (refuse (now.val + maxIntentFutureSkewS < verified.auth.issuedAt.val)
      (apiError 400 "fill request is dated in the future; check your device clock"))
    check (refuse (hasRunway order now = false) (apiError 409 tooLittleRunway))
    storeFillIntent E now order verified takerIp false

/-- `submitFillIntent` with the gate or without it. -/
def submitFillIntentGated (gated : Bool) (E : Crypto) (now : SafeInt) (id : String)
    (rawIntent rawAuth : Option Json)
    (takerIp : String) (shareToken : Option Json) : StoreM PublicFillIntentV1 := do
  sweep now
  let s ← get
  let order ← check (orThrow (s.order? id) (shedError 404 "order not found"))
  check (refuse (order.visibility = .priv ∧ shareAuthorized E order shareToken = false)
    (shedError 404 "order not found"))
  check (refuse (usesPortableTerminalProtocol order = false)
    (shedError 409 "legacy orders use the accept endpoint"))
  if gated then shedFillIntent E now order rawAuth takerIp else pure ⟨⟩
  admitFillIntent E now order rawIntent rawAuth takerIp

theorem submitFillIntentGated_true {id : String} :
    submitFillIntentGated true E now id rawIntent rawAuth takerIp shareToken =
    submitFillIntent E now id rawIntent rawAuth takerIp shareToken := rfl

theorem storeFillIntent_pruned {verified : VerifiedFillIntentV1} :
    storeFillIntent E now o verified takerIp false (prunedStore now (sha256Hex E takerIp) s) =
      .ok p s' ↔
      storeFillIntent E now o verified takerIp false s = .ok p s' := by
  simp only [storeFillIntent, run_bind_ok, check_run_ok, assertDirectLimits_eq_ok]
  constructor
  · rintro ⟨_, _, ⟨hnonce, rfl⟩, _, _, ⟨hlive, rfl⟩, _, _, ⟨hpending, hsource, hdaily, rfl⟩, hrest⟩
    rw [prunedStore_idem] at hdaily hrest
    exact ⟨⟨⟩, _, ⟨hnonce, rfl⟩, ⟨⟩, _, ⟨hlive, rfl⟩, ⟨⟩, _,
      ⟨hpending, hsource, hdaily, rfl⟩, hrest⟩
  · rintro ⟨_, _, ⟨hnonce, rfl⟩, _, _, ⟨hlive, rfl⟩, _, _, ⟨hpending, hsource, hdaily, rfl⟩, hrest⟩
    rw [← prunedStore_idem] at hdaily hrest
    exact ⟨⟨⟩, _, ⟨hnonce, rfl⟩, ⟨⟩, _, ⟨hlive, rfl⟩, ⟨⟩, _,
      ⟨hpending, hsource, hdaily, rfl⟩, hrest⟩

theorem claimedNonce_of_parsed {auth : ProtocolAuthV1} (h : parseAuth rawAuth = .ok auth) :
    (asRecord rawAuth).bind (fun r => asString (r.get "nonce")) = some auth.nonce.val := by
  simp only [parseAuth, authFields, exactObject, objectValue, exactString, bind_eq_ok,
    orThrow_eq_ok, pure_eq_ok,
    Option.bind_eq_some_iff] at h
  obtain ⟨r, ⟨r', hr, _, -, _, -, rfl⟩, _, -, _, -, _, -, _, -, _, -, nonce, ⟨text, htext, hnonce⟩,
    _, -, _, -, rfl⟩ := h
  rw [hr, Option.bind_some, htext, matching_eq_some.mp hnonce]

theorem live_of_verified {verifiedOrder : VerifiedOrderV1} {verified : VerifiedFillIntentV1}
    (h : verifyFillIntentV1 E now false rawIntent rawAuth verifiedOrder = .ok verified) :
    now.val < verified.auth.expiresAt.val := by
  simp only [verifyFillIntentV1, bind_eq_ok] at h
  obtain ⟨intent, -, auth, -, hcheck⟩ := h
  obtain ⟨hrules, -, rfl⟩ := checkFillIntentV1_eq_ok.mp hcheck
  exact hrules.fresh rfl

/-- What the order retains was verified, at some time and against some order. -/
def RetainsProofs (E : Crypto) (o : Order) : Prop :=
  ∀ j ∈ o.intents, ∃ at' v, IntentProof E at' v j.verified

theorem claims_of_replay (hcol : CollisionFree E) (hproofs : RetainsProofs E o)
    {verifiedOrder : VerifiedOrderV1}
    {verified : VerifiedFillIntentV1} {replay : StoredFillIntentV1}
    (hverified : verifyFillIntentV1 E now false rawIntent rawAuth verifiedOrder = .ok verified)
    (hreplay : findIntent o verified.intentDigest = some replay) : ClaimsRetained o rawAuth := by
  have hmem := List.mem_of_find?_eq_some hreplay
  have hdigest : replay.intentDigest = verified.intentDigest :=
    by simpa using List.find?_some hreplay
  obtain ⟨at', v, hproof⟩ := hproofs replay hmem
  have hnonce := (hproof.eq_of_digest hcol (verifyFillIntentV1_proof hverified) hdigest).2.2.2
  refine ⟨replay, hmem, ?_⟩
  rw [claimedNonce_of_parsed (verifyFillIntentV1_parsed hverified).2, ← hnonce]
  rfl

/-- The full path admits through the gate what it admits without it, and leaves the same store. -/
theorem admit_gated (hcol : CollisionFree E) (hproofs : RetainsProofs E o) :
    (∃ t, shedFillIntent E now o rawAuth takerIp s = .ok ⟨⟩ t ∧
      admitFillIntent E now o rawIntent rawAuth takerIp t = .ok p s') ↔
    admitFillIntent E now o rawIntent rawAuth takerIp s = .ok p s' := by
  simp only [shedFillIntent_eq_ok]
  -- A retry of a retained proposal passes the gate unseen.
  by_cases hclaims : ClaimsRetained o rawAuth
  · simp [hclaims]
  have hnew : ∀ t, admitFillIntent E now o rawIntent rawAuth takerIp t = .ok p s' ↔
      ∃ verifiedOrder verified, verifiedSignedOrder E now o = .ok verifiedOrder ∧
        verifyFillIntentV1 E now false rawIntent rawAuth verifiedOrder = .ok verified ∧
        o.status = .open ∧ o.equivocated = false ∧
        verified.auth.issuedAt.val ≤ now.val + maxIntentFutureSkewS ∧ hasRunway o now = true ∧
        storeFillIntent E now o verified takerIp false t = .ok p s' := by
    intro t
    simp only [admitFillIntent, run_bind_ok, check_run_ok]
    constructor
    · rintro ⟨verifiedOrder, _, ⟨horder, rfl⟩, verified, _, ⟨hverified, rfl⟩, h⟩
      cases hfind : findIntent o verified.intentDigest with
      | some replay => exact absurd (claims_of_replay hcol hproofs hverified hfind) hclaims
      | none =>
        rw [hfind] at h
        simp only [run_bind_ok, check_run_ok, refuse_eq_ok, not_or, not_not, not_lt,
          Bool.not_eq_true,
          Bool.not_eq_false] at h
        obtain ⟨_, _, ⟨⟨hopen, hclean⟩, rfl⟩, _, _, ⟨hskew, rfl⟩, _, _, ⟨hrunway, rfl⟩, hstore⟩ := h
        exact ⟨verifiedOrder, verified, horder, hverified, hopen, hclean, hskew, hrunway, hstore⟩
    · rintro ⟨verifiedOrder, verified, horder, hverified, hopen, hclean, hskew, hrunway, hstore⟩
      refine ⟨verifiedOrder, _, ⟨horder, rfl⟩, verified, _, ⟨hverified, rfl⟩, ?_⟩
      cases hfind : findIntent o verified.intentDigest with
      | some replay => exact absurd (claims_of_replay hcol hproofs hverified hfind) hclaims
      | none =>
        simp only [run_bind_ok, check_run_ok, refuse_eq_ok, not_or, not_not, not_lt,
          Bool.not_eq_true,
          Bool.not_eq_false]
        exact ⟨⟨⟩, _, ⟨⟨hopen, hclean⟩, rfl⟩, ⟨⟩, _, ⟨hskew, rfl⟩, ⟨⟩, _, ⟨hrunway, rfl⟩, hstore⟩
  simp only [hclaims, false_and, false_or, not_false_eq_true, true_and]
  constructor
  · rintro ⟨t, ⟨-, -, -, -, -, -, rfl⟩, h⟩
    obtain ⟨verifiedOrder, verified, horder, hverified, hopen, hclean, hskew, hrunway, hstore⟩ :=
      (hnew _).mp h
    exact (hnew _).mpr ⟨verifiedOrder, verified, horder, hverified, hopen, hclean, hskew, hrunway,
      storeFillIntent_pruned.mp hstore⟩
  · intro h
    obtain ⟨verifiedOrder, verified, horder, hverified, hopen, hclean, hskew, hrunway, hstore⟩ :=
      (hnew _).mp h
    -- The full path checks all that the gate does, only later.
    have hlimits := hstore
    simp only [storeFillIntent, run_bind_ok, check_run_ok, assertDirectLimits_eq_ok, refuse_eq_ok,
      not_and, not_le]
      at hlimits
    obtain ⟨_, _, ⟨-, rfl⟩, _, _, ⟨hlive, rfl⟩, _, _, ⟨-, hsource, hdaily, -⟩, -⟩ := hlimits
    refine ⟨_, ⟨hopen, hclean, hrunway, hlive (live_of_verified hverified), hsource, hdaily, rfl⟩,
      ?_⟩
    exact (hnew _).mpr ⟨verifiedOrder, verified, horder, hverified, hopen, hclean, hskew, hrunway,
      storeFillIntent_pruned.mpr hstore⟩

theorem submitFillIntentGated_alike {id : String} (hcol : CollisionFree E)
    (hproofs : ∀ o ∈ (s.swept now).orders, RetainsProofs E o) :
    submitFillIntent E now id rawIntent rawAuth takerIp shareToken s = .ok p s' ↔
      submitFillIntentGated false E now id rawIntent rawAuth takerIp shareToken s = .ok p s' := by
  rw [← submitFillIntentGated_true]
  simp only [submitFillIntentGated, sweep_bind_run, get_bind_run, run_bind_ok, check_run_ok,
    Bool.false_eq_true, if_true,
    if_false]
  constructor
  · rintro ⟨o, _, ⟨horder, rfl⟩, _, _, ⟨hshare, rfl⟩, _, _, ⟨huses, rfl⟩, _, t, hshed, hadmit⟩
    have hmem := (Store.order?_eq_some (orThrow_eq_ok.mp horder)).1
    exact ⟨o, _, ⟨horder, rfl⟩, ⟨⟩, _, ⟨hshare, rfl⟩, ⟨⟩, _, ⟨huses, rfl⟩,
      (admit_gated hcol (hproofs o hmem)).mp ⟨t, hshed, hadmit⟩⟩
  · rintro ⟨o, _, ⟨horder, rfl⟩, _, _, ⟨hshare, rfl⟩, _, _, ⟨huses, rfl⟩, hadmit⟩
    have hmem := (Store.order?_eq_some (orThrow_eq_ok.mp horder)).1
    obtain ⟨t, hshed, hadmit⟩ := (admit_gated hcol (hproofs o hmem)).mpr hadmit
    exact ⟨o, _, ⟨horder, rfl⟩, ⟨⟩, _, ⟨hshare, rfl⟩, ⟨⟩, _, ⟨huses, rfl⟩, ⟨⟩, t, hshed, hadmit⟩

theorem submitFillIntentGated_new {verifiedOrder : VerifiedOrderV1}
    {verified : VerifiedFillIntentV1} {t : Store}
    (hfound : (s.swept now).order? o.id.val = some o) (hpublic : o.visibility = .pub)
    (huses : usesPortableTerminalProtocol o = true)
    (hpass : shedFillIntent E now o rawAuth takerIp (s.swept now) = .ok ⟨⟩ t)
    (horder : verifiedSignedOrder E now o = .ok verifiedOrder)
    (hverified : verifyFillIntentV1 E now false rawIntent rawAuth verifiedOrder = .ok verified)
    (hnew : findIntent o verified.intentDigest = none) (hopen : o.status = .open)
    (hclean : o.equivocated = false)
    (hskew : verified.auth.issuedAt.val ≤ now.val + maxIntentFutureSkewS)
    (hrunway : hasRunway o now = true)
    (hstored : storeFillIntent E now o verified takerIp false t = .ok p s') :
    submitFillIntentGated true E now o.id.val rawIntent rawAuth takerIp shareToken s =
      .ok p s' := by
  have hshared : ¬(o.visibility = .priv ∧ shareAuthorized E o shareToken = false) := by
    rintro ⟨hpriv, -⟩
    rw [hpublic] at hpriv
    cases hpriv
  have hlisted : ¬(o.status ≠ .open ∨ o.equivocated = true) := by
    rw [hopen, hclean]
    decide
  unfold submitFillIntentGated admitFillIntent
  rw [sweep_bind_run, get_bind_run, hfound]
  simp [orThrow, bind_run, refuse, if_neg hshared, huses, hpass, horder, hverified, hnew, hlisted,
    hrunway, hstored,
    not_lt.mpr hskew]

theorem submitFillIntent_shed {id : String} {e : Thrown} {t : Store}
    (horder : (s.swept now).order? id = some o)
    (hshed : shedFillIntent E now o rawAuth takerIp (s.swept now) = .error e t) :
    submitFillIntent E now id rawIntent rawAuth takerIp shareToken s ≠ .ok p s' := by
  intro h
  rw [← submitFillIntentGated_true] at h
  simp only [submitFillIntentGated, sweep_bind_run, get_bind_run, run_bind_ok, check_run_ok,
    if_true] at h
  obtain ⟨o', _, ⟨horder', rfl⟩, _, _, ⟨-, rfl⟩, _, _, ⟨-, rfl⟩, _, t, hpass, -⟩ := h
  rw [orThrow_eq_ok, horder] at horder'
  cases horder'
  rw [hshed] at hpass
  cases hpass

theorem RetainsProofs.of_row {now' : SafeInt} (h : Row E now' o) : RetainsProofs E o := by
  intro j hj
  rcases h.kind with hlegacy | ⟨v, hsigned⟩
  · unfold Order.intents at hj
    rw [hlegacy.fillIntents] at hj
    exact absurd hj List.not_mem_nil
  · exact ⟨now', v, hsigned.retained.proofs j hj⟩

theorem RetainsProofs.sweep {o' : Order} (h : RetainsProofs E o)
    (hsweep : sweepOrder now o = some o') :
    RetainsProofs E o' := by
  have hsub : (dropStaleIntents now o).intents.Sublist o.intents := by
    rw [dropStaleIntents_intents]
    exact List.filter_sublist
  rcases sweepOrder_cases hsweep with ⟨rfl, -⟩ | rfl
  · exact fun j hj => h j (hsub.mem hj)
  · exact fun j hj => h j (hsub.mem hj)

end Gate

/-- In every book that calls lead to, and at every clock, the gate changes nothing about what is
admitted, and a request that it refuses is refused without it. -/
theorem run_gate_admits {E : Crypto} (hcol : CollisionFree E) (is : List Step) (now : SafeInt)
    (id : String)
    (rawIntent rawAuth : Option Json) (takerIp : String) (shareToken : Option Json) :
    let s := (run (World.step E) World.start is).store
    (∀ p s', submitFillIntent E now id rawIntent rawAuth takerIp shareToken s = .ok p s' ↔
      submitFillIntentGated false E now id rawIntent rawAuth takerIp shareToken s = .ok p s') ∧
    ∀ o e t, (s.swept now).order? id = some o →
    shedFillIntent E now o rawAuth takerIp (s.swept now) = .error e t →
      ∃ e' t', submitFillIntentGated false E now id rawIntent rawAuth takerIp shareToken s =
        .error e' t' := by
  intro s
  have hproofs : ∀ o ∈ (s.swept now).orders, RetainsProofs E o := by
    intro o ho
    obtain ⟨x, hx, hsweep⟩ := mem_sweepAll.mp ho
    exact (RetainsProofs.of_row (run_rows E is x hx)).sweep hsweep
  refine ⟨fun p s' => submitFillIntentGated_alike hcol hproofs, ?_⟩
  intro o e t horder hshed
  cases h : submitFillIntentGated false E now id rawIntent rawAuth takerIp shareToken s with
  | ok p s' =>
    exact absurd ((submitFillIntentGated_alike hcol hproofs).mpr h)
      (submitFillIntent_shed horder hshed)
  | error e' t' => exact ⟨e', t', rfl⟩

/-! ## One request through the gate and one before it -/

section Sample

/-- The swap has less than its minimum of runway left, and its order is still valid. -/
def lateRunway : SafeInt := ⟨1011500, by decide⟩

/-- The third taker asks the book for the order `id`. -/
def thirdRequest (gated : Bool) (now : SafeInt) (id : OrderId) : StoreM PublicFillIntentV1 :=
  submitFillIntentGated gated swapCrypto now id.val (some (proposal 3).toJson)
    (some (proposalAuth 3).toJson) "taker" none

variable {o : Order} {s : Store}

theorem third_unclaimed (h : Gathers swapCrypto sampleClock swapSigned swapProposal o [1, 2]) :
    ∀ j ∈ o.intents, j.auth.nonce ≠ (proposalAuth 3).nonce := by
  refine h.far ?_
  simp only [List.forall_mem_cons]
  exact ⟨fun heq => absurd (digitNonce_injective heq) (by decide),
    fun heq => absurd (digitNonce_injective heq) (by decide),
    fun _ hk => absurd hk List.not_mem_nil⟩

theorem third_nonce :
    (asRecord (some (proposalAuth 3).toJson)).bind (fun r => asString (r.get "nonce")) =
    some (proposalAuth 3).nonce.val := claimedNonce_of_parsed (parseAuth_toJson _)

theorem swap_runway (h : Standing swapCrypto sampleClock swapSigned o) (now : SafeInt) :
    hasRunway o now = decide ((minTakeableRunwayS : Int) ≤ 1020000 - now.val) := by
  unfold hasRunway
  rw [h.portable.prelocked, (h.portable.lock h.nofill).2]
  rfl

theorem third_stored (hs : EndsIn sampleClock [] o s)
    (h : Gathers swapCrypto sampleClock swapSigned swapProposal o [1, 2])
    (hunasked : s.intentAdmissions = []) :
    ∃ p s', storeFillIntent swapCrypto sampleClock o (swapProposal 3) "taker" false
      (prunedStore sampleClock (sha256Hex swapCrypto "taker") (s.swept sampleClock)) =
        .ok p s' := by
  have hlength : o.intents.length = 2 := congrArg List.length h.intents
  have hnonce :
    ¬∃ j ∈ o.intents, (j : StoredFillIntentV1).auth.nonce = (swapProposal 3).auth.nonce :=
    fun ⟨j, hj, heq⟩ => third_unclaimed h j hj heq
  have hroom : ¬(sampleClock.val < (swapProposal 3).auth.expiresAt.val ∧
      maxFillIntentsPerOrder ≤ liveIntentCount sampleClock o.intents) := by
    have hlive : liveIntentCount sampleClock o.intents ≤ 2 :=
      (List.length_filter_le _ _).trans_eq hlength
    rintro ⟨-, hfull⟩
    exact absurd (hfull.trans hlive) (by decide)
  -- The limits by source: two live proposals, by other takers, and none asked for yet.
  have hdirect :
    assertDirectLimits sampleClock o (swapProposal 3) (sha256Hex swapCrypto "taker") false
      (prunedStore sampleClock (sha256Hex swapCrypto "taker") (s.swept sampleClock)) = .ok ⟨⟩
        (prunedStore sampleClock (sha256Hex swapCrypto "taker")
          (prunedStore sampleClock (sha256Hex swapCrypto "taker") (s.swept sampleClock))) := by
    refine assertDirectLimits_eq_ok.mpr ⟨?_, ?_, ?_, rfl⟩
    · rintro ⟨j, hj, -, -, hsame⟩
      refine absurd hsame (h.far (P := fun j => j.intent.takerQrlAccount ≠
        (swapProposal 3).intent.takerQrlAccount) ?_ j hj)
      simp only [List.forall_mem_cons]
      exact ⟨by decide +kernel, by decide +kernel, fun _ hk => absurd hk List.not_mem_nil⟩
    · have horders : (s.swept sampleClock).orders = [o] := hs.sweepAll_eq
      have hcount : sourceLiveIntentCount [o] (sha256Hex swapCrypto "taker") sampleClock ≤ 2 := by
        unfold sourceLiveIntentCount
        rw [List.flatMap_singleton]
        exact (List.length_filter_le _ _).trans_eq hlength
      change sourceLiveIntentCount (s.swept sampleClock).orders _ _ < _
      rw [horders]
      exact hcount.trans_lt (by decide)
    · rw [prunedStore_idem]
      unfold prunedStore Store.admissionsOf
      dsimp only
      rw [Store.swept_unasked hunasked]
      decide
  have hkept : makeRoom sampleClock o.intents (swapProposal 3) = .ok o.intents := by
    unfold makeRoom
    rw [if_pos]
    rw [hlength]
    decide
  unfold storeFillIntent
  rw [refuse, if_neg hnonce, refuse, if_neg hroom]
  simp only [bind_run, check_ok, hdirect, hkept, modify_run, pure_run]
  exact ⟨_, _, rfl⟩

theorem third_verified : verifyFillIntentV1 swapCrypto sampleClock false (some (proposal 3).toJson)
      (some (proposalAuth 3).toJson) swapSigned = .ok (swapProposal 3) := by
  rw [verifyFillIntentV1, canonicalFillIntentBody_toJson, ok_bind, parseAuth_toJson, ok_bind]
  exact swap_intentProof (k := 3) (by decide)

theorem third_unknown (h : Gathers swapCrypto sampleClock swapSigned swapProposal o [1, 2]) :
    findIntent o (swapProposal 3).intentDigest = none := by
  rw [findIntent_eq_none, digest_swapProposal (by decide), List.mem_map]
  rintro ⟨j, hj, hsame⟩
  refine h.far (P := fun j => j.intentDigest ≠ digitNonce 3) ?_ j hj hsame
  simp only [List.forall_mem_cons]
  refine ⟨?_, ?_, fun _ hk => absurd hk List.not_mem_nil⟩
  · exact fun heq =>
      absurd (digitNonce_injective ((digest_swapProposal (by decide)).symm.trans heq)) (by decide)
  · exact fun heq =>
      absurd (digitNonce_injective ((digest_swapProposal (by decide)).symm.trans heq)) (by decide)

theorem third_admitted (hs : EndsIn sampleClock [] o s)
    (h : Gathers swapCrypto sampleClock swapSigned swapProposal o [1, 2])
    (hunasked : s.intentAdmissions = []) :
    ∃ p s', thirdRequest true sampleClock o.id s = .ok p s' := by
  have hfound : (s.swept sampleClock).order? o.id.val = some o :=
    order?_of_mem (s := s.swept sampleClock)
      ((sweepAll_ids sampleClock s.orders).nodup hs.ids) hs.mem
  obtain ⟨p, s', hstored⟩ := third_stored hs h hunasked
  have hpass : shedFillIntent swapCrypto sampleClock o (some (proposalAuth 3).toJson) "taker"
    (s.swept sampleClock) =
      .ok ⟨⟩ (prunedStore sampleClock (sha256Hex swapCrypto "taker") (s.swept sampleClock)) := by
    have hlimits := hstored
    simp only [storeFillIntent, run_bind_ok, check_run_ok, assertDirectLimits_eq_ok, refuse_eq_ok,
      not_and, not_le]
      at hlimits
    obtain ⟨_, _, ⟨-, rfl⟩, _, _, ⟨hlive, rfl⟩, _, _, ⟨-, hsource, hdaily, -⟩, -⟩ := hlimits
    rw [prunedStore_idem] at hdaily
    refine shedFillIntent_eq_ok.mpr (.inr ⟨?_, h.isOpen, h.clean, ?_, hlive (by decide), hsource,
      hdaily, rfl⟩)
    · rintro ⟨j, hj, hclaimed⟩
      rw [third_nonce, Option.some.injEq] at hclaimed
      exact third_unclaimed h j hj (Subtype.ext hclaimed.symm)
    · rw [swap_runway h.toStanding]
      decide
  have hrunway : hasRunway o sampleClock = true := by
    rw [swap_runway h.toStanding]
    decide
  exact ⟨p, s',
    submitFillIntentGated_new hfound h.portable.visibility h.portable.uses hpass
      h.toStanding.variant
    third_verified (third_unknown h) h.isOpen h.clean (by decide) hrunway hstored⟩

theorem third_shed (hs : EndsIn sampleClock [] o s)
    (h : Gathers swapCrypto sampleClock swapSigned swapProposal o [1, 2]) :
    ∃ o' e t, (s.swept lateRunway).order? o.id.val = some o' ∧
      shedFillIntent swapCrypto lateRunway o' (some (proposalAuth 3).toJson) "taker"
        (s.swept lateRunway) =
        .error e t := by
  have hmem : o ∈ s.orders := hs.orders ▸ List.mem_append_right _ (List.mem_singleton_self o)
  have hlate : sweepOrder lateRunway o = some (dropStaleIntents lateRunway o) := by
    have hexpires : expires lateRunway o = false := by
      unfold expires
      rw [decide_eq_false_iff_not, h.updated, h.isOpen, h.portable.auth]
      decide
    have hremovable : removable lateRunway o = false := by
      unfold removable
      rw [h.isOpen]
    rw [sweepOrder_eq, hexpires, hremovable]
    rfl
  refine ⟨dropStaleIntents lateRunway o, shedError 409 tooLittleRunway, s.swept lateRunway, ?_, ?_⟩
  · exact order?_of_mem (s := s.swept lateRunway) ((sweepAll_ids lateRunway s.orders).nodup hs.ids)
      (mem_sweepAll.mpr ⟨o, hmem, hlate⟩)
  -- No retained proposal has this nonce, so the gate does check the runway.
  · have hunclaimed : ¬((dropStaleIntents lateRunway o).intents.any fun j =>
        some (proposalAuth 3).nonce.val = some j.auth.nonce.val) = true := by
      rw [List.any_eq_true]
      rintro ⟨j, hj, hclaimed⟩
      rw [dropStaleIntents_intents] at hj
      exact third_unclaimed h j (List.mem_of_mem_filter hj)
        (Subtype.ext (Option.some.inj (of_decide_eq_true hclaimed)).symm)
    have hlisted : ¬((dropStaleIntents lateRunway o).status ≠ .open ∨
      (dropStaleIntents lateRunway o).equivocated = true) :=
      not_or.mpr ⟨not_not.mpr h.isOpen,
        by rw [show (dropStaleIntents lateRunway o).equivocated = false from h.clean]; decide⟩
    have hrunway : hasRunway (dropStaleIntents lateRunway o) lateRunway = false :=
      (swap_runway h.toStanding lateRunway).trans (by decide)
    unfold shedFillIntent
    rw [third_nonce]
    dsimp only
    rw [if_neg hunclaimed, bind_run, refuse, if_neg hlisted, check_ok]
    dsimp only
    rw [bind_run, refuse, if_pos hrunway]
    rfl

/-- A book with two proposals for an order admits a third, and sheds it when too little runway is
left. -/
theorem run_gate_admits_swap :
    ∃ is id, (∃ o ∈ (run (World.step swapCrypto) World.start is).store.orders,
      o.id = id ∧ o.intents.length = 2) ∧
    (∃ p s', thirdRequest false sampleClock id (run (World.step swapCrypto) World.start is).store =
      .ok p s') ∧
    ∃ e s', thirdRequest false lateRunway id (run (World.step swapCrypto) World.start is).store =
      .error e s' := by
  obtain ⟨o₀, hdraft⟩ := swap_draft
  obtain ⟨s₀, hstep₀, hs₀, ho₀, hunasked₀⟩ :=
    swap_listed (w := World.start) (l := []) (by decide) List.nodup_nil rfl hdraft
  obtain ⟨s₁, o₁, hstep₁, hs₁, ho₁, hunasked₁⟩ := swap_proposed (k := 1) hs₀ ho₀ (by decide)
    (fun _ h => absurd h List.not_mem_nil) (by decide)
  obtain ⟨s₂, o₂, hstep₂, hs₂, ho₂, hunasked₂⟩ :=
    swap_proposed (k := 2) hs₁ ho₁ (by decide) (by decide) (by decide)
  set listing := arrival sampleClock (orderEvent sampleOrder.record swapAuth)
  set first := arrival sampleClock (fillIntentEvent o₀ (swapProposal 1))
  set second := arrival sampleClock (fillIntentEvent o₁ (swapProposal 2))
  have hrun : run (World.step swapCrypto) World.start [listing, first, second] =
    ⟨s₂, sampleClock⟩ := by
    rw [run_cons, hstep₀, run_cons, hstep₁, run_cons, hstep₂, run_nil]
  obtain ⟨p, s₃, hadmitted⟩ := third_admitted hs₂ ho₂ (hunasked₂ (hunasked₁ (hunasked₀ rfl)))
  obtain ⟨o', e, t, horder, hshed⟩ := third_shed hs₂ ho₂
  have hgate :=
    fun now => run_gate_admits swapCrypto_collisionFree [listing, first, second] now o₂.id.val
    (some (proposal 3).toJson) (some (proposalAuth 3).toJson) "taker" none
  rw [hrun] at hgate
  refine ⟨[listing, first, second], o₂.id, ?_, ?_, ?_⟩
  · rw [hrun]
    exact ⟨o₂, hs₂.orders ▸ List.mem_append_right _ (List.mem_singleton_self _), rfl,
      congrArg List.length ho₂.intents⟩
  · rw [hrun]
    exact ⟨p, s₃, ((hgate sampleClock).1 p s₃).mp hadmitted⟩
  · rw [hrun]
    exact (hgate lateRunway).2 o' e t horder hshed

end Sample

end QuantaSwap.Book
