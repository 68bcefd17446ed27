import QuantaSwap.Book.Retained

/-!
# Terminals that verify against the stored order

As long as every terminal that reaches the book names the order a row was created
from, and not a conflicting variant, all that the row records verifies against it.
-/

set_option autoImplicit false

namespace QuantaSwap.Book

open Lib.Js Lib.Text Lib.Checks Lib.Run

/-- The order a signed terminal is presented for, and the order digest it names. -/
def Call.terminal? (c : Call) : Option (String × Bytes32) :=
  (c.fill?.map fun (id, body) => (id, body.orderDigest)).or
    (c.cancel?.map fun (id, body) => (id, body.orderDigest))

/-- A presented terminal does not name a conflicting variant of the order. -/
def PrimaryTerminal (l : List Order) (c : Call) : Prop :=
  ∀ id digest, c.terminal? = some (id, digest) → ∀ o ∈ l, o.id.val = id →
    digest ∉ o.orderConflicts.map OrderConflictEvidence.orderDigest

section Proven

variable (E : Crypto) (now : SafeInt) (v : VerifiedOrderV1)

def EvidenceProof : TerminalConflictEvidence → Prop
  | .fill digest body auth intent intentAuth =>
    IntentProof E now v ⟨body.intentDigest, intent, intentAuth⟩ ∧
      FillProof E now v ⟨body.intentDigest, intent, intentAuth⟩ ⟨digest, body, auth⟩
  | .cancel digest body auth => CancelProof E now v ⟨digest, body, auth⟩

/-- The secret opens the commitment of the recorded fill. -/
def OpensFill (f : RecordedFill) (secret : Bytes32) : Prop :=
  computeReleaseCommitment E v.orderDigest f.selectedIntent.auth.nonce secret =
    f.fill.releaseCommitment

/-- Every terminal that the row records verifies against `v`. -/
structure Proven (o : Order) : Prop where
  intent : ∀ f ∈ o.fill, IntentProof E now v f.selectedIntent.verified
  fill : ∀ f ∈ o.fill, FillProof E now v f.selectedIntent.verified f.verified
  selected : ∀ f ∈ o.fill, ∀ j ∈ o.intents, j.intentDigest = f.selectedIntent.intentDigest →
    j.publicIntent = f.selectedIntent ∧ (j.release.isSome = true → o.releaseSecret.isSome = true)
  cancel : ∀ c ∈ o.cancel, CancelProof E now v c.verified
  conflicts : ∀ e ∈ o.conflicts, EvidenceProof E now v e
  release : ∀ secret ∈ o.releaseSecret, ∃ f ∈ o.fill, OpensFill E v f secret

end Proven

section Proven

variable {E : Crypto} {now now' : SafeInt} {v : VerifiedOrderV1} {i : Step} {o o' : Order}

theorem EvidenceProof.later {e : TerminalConflictEvidence} (h : EvidenceProof E now v e)
    (hnow : now.val ≤ now'.val) : EvidenceProof E now' v e := by
  cases e with
  | fill digest body auth intent intentAuth => exact ⟨h.1.later hnow, h.2.later hnow⟩
  | cancel digest body auth => exact CancelProof.later h hnow

theorem Proven.later (h : Proven E now v o) (hnow : now.val ≤ now'.val) : Proven E now' v o :=
  { h with
    intent := fun f hf => (h.intent f hf).later hnow
    fill := fun f hf => (h.fill f hf).later hnow
    cancel := fun c hc => (h.cancel c hc).later hnow
    conflicts := fun e he => (h.conflicts e he).later hnow }

/-! ### What a fill repeats -/

theorem FillProof.terms {j : VerifiedFillIntentV1} {f : VerifiedFillV1}
    (h : FillProof E now v j f) :
    f.fill.orderDigest = v.orderDigest ∧ f.fill.intentDigest = j.intentDigest ∧
      f.fill.releaseCommitment = j.intent.releaseCommitment ∧
      ∀ p ∈ v.order.prelock, f.fill.hashlock = p.hashlock ∧
      f.fill.initiatorTimeout = p.initiatorTimeout := by
  simp only [FillProof, checkFillV1, assertOrderReference, bind_eq_ok, refuse_eq_ok,
    exists_const, not_or,
    Decidable.not_not] at h
  obtain ⟨horder, _, -, hintent, -, ⟨-, -, hcommitment⟩, -, -, -, _, -, -, -, -, -, -, _,
    hprelock, -⟩ := h
  refine ⟨horder, hintent, hcommitment, ?_⟩
  intro p hp
  rw [Option.mem_def.mp hp] at hprelock
  simp only [Option.elim_some, assertPrelock, bind_eq_ok, refuse_eq_ok, exists_const, not_or,
    Decidable.not_not] at hprelock
  exact hprelock.1

theorem CancelProof.orderDigest_eq {c : VerifiedCancelV1} (h : CancelProof E now v c) :
    c.cancel.orderDigest = v.orderDigest := by
  simp only [CancelProof, checkCancelV1, assertOrderReference, bind_eq_ok, refuse_eq_ok,
    exists_const,
    Decidable.not_not] at h
  exact h.1

theorem Proven.holdsPrelock (h : Proven E now v o) (hrow : SignedRow E now v o) :
    HoldsPrelock v o := by
  cases hfill : o.fill with
  | none => exact hrow.portable.holdsPrelock hfill
  | some f =>
    intro p hp
    obtain ⟨hlock, htimeout, -⟩ := hrow.outcome.projection f hfill
    obtain ⟨-, -, -, hprelock⟩ := (h.fill f hfill).terms
    obtain ⟨hhash, ht1⟩ := hprelock p hp
    rw [hlock, htimeout]
    exact ⟨congrArg some hhash, congrArg (fun t : SafeInt => some (t.val : Int)) ht1⟩

theorem Proven.verifiedSignedOrder_eq (h : Proven E now v o) (hrow : SignedRow E now v o) :
    verifiedSignedOrder E now o = .ok v :=
      hrow.portable.verifiedSignedOrder_eq (h.holdsPrelock hrow)

theorem Proven.variant_eq (h : Proven E now v o) (hrow : SignedRow E now v o) {raw : Option Json}
    {w : VerifiedOrderV1} (hw : referencedSignedOrderVariant E now o raw = .ok w)
    (hprimary : w.orderDigest ∉ o.orderConflicts.map OrderConflictEvidence.orderDigest) : w = v :=
  (referencedSignedOrderVariant_eq_ok (h.verifiedSignedOrder_eq hrow) hw).resolve_right hprimary

theorem fill?_terminal {c : Call} {id : String} {fill : FillV1Body}
    (h : c.fill? = some (id, fill)) :
    c.terminal? = some (id, fill.orderDigest) := by
  rw [Call.terminal?, h]
  rfl

theorem cancel?_terminal {c : Call} {id : String} {cancel : CancelV1Body}
    (h : c.cancel? = some (id, cancel)) :
    c.terminal? = some (id, cancel.orderDigest) := by
  have hnofill : c.fill? = none := by
    unfold Call.cancel? at h
    split at h
    · rfl
    · rfl
    · cases h
  rw [Call.terminal?, hnofill, h]
  rfl

theorem Presented.proof {e : TerminalConflictEvidence} (h : Presented E i o e)
    (hproven : Proven E i.now v o)
    (hrow : SignedRow E i.now v o)
    (hprimary : ∀ digest, i.call.terminal? = some (o.id.val, digest) →
      digest ∉ o.orderConflicts.map OrderConflictEvidence.orderDigest) : EvidenceProof E
        i.now v e := by
  cases h with
  | fill raw variant intent fill hvariant hintent hfill hcall =>
    obtain ⟨horder, hdigest, -⟩ := hfill.terms
    have hw := hproven.variant_eq hrow hvariant (horder ▸ hprimary _ (fill?_terminal hcall))
    subst hw
    have hsame : (⟨fill.fill.intentDigest, intent.intent, intent.auth⟩ : VerifiedFillIntentV1) =
      intent := by
      rw [hdigest]
    change IntentProof E i.now variant ⟨fill.fill.intentDigest, intent.intent, intent.auth⟩ ∧
      FillProof E i.now variant ⟨fill.fill.intentDigest, intent.intent, intent.auth⟩ fill
    rw [hsame]
    exact ⟨hintent, hfill⟩
  | cancel raw variant cancel hvariant hcancel hcall =>
    have horder := hcancel.orderDigest_eq
    have hw := hproven.variant_eq hrow hvariant (horder ▸ hprimary _ (cancel?_terminal hcall))
    subst hw
    exact hcancel

theorem Proven.sweep (h : Proven E now v o) (hsweep : sweepOrder now o = some o') :
    Proven E now v o' := by
  have hsub : ∀ j ∈ (dropStaleIntents now o).intents, j ∈ o.intents := by
    intro j hj
    rw [dropStaleIntents_intents] at hj
    exact (List.mem_filter.mp hj).1
  rcases sweepOrder_cases hsweep with ⟨rfl, -⟩ | rfl
  · exact { h with selected := fun f hf j hj => h.selected f hf j (hsub j hj) }
  · exact { h with selected := fun f hf j hj => h.selected f hf j (hsub j hj) }

theorem selectedSource_proof (hcol : CollisionFree E) (hrow : SignedRow E i.now v o)
    {intent : VerifiedFillIntentV1} {fill : VerifiedFillV1} (hintent : IntentProof E i.now v intent)
    (hfill : FillProof E i.now v intent fill) :
    IntentProof E i.now v (selectedSource E i.now o intent).verified ∧
      FillProof E i.now v (selectedSource E i.now o intent).verified fill ∧
      ReleaseProof E v (selectedSource E i.now o intent) ∧
      ∀ j ∈ o.intents, j.intentDigest = (selectedSource E i.now o intent).intentDigest →
        j = selectedSource E i.now o intent := by
  unfold selectedSource
  cases hfind : findIntent o intent.intentDigest with
  | none =>
    rw [Option.getD_none]
    have hunreleased : ReleaseProof E v
        ⟨intent.intentDigest, intent.intent, intent.auth, i.now, sha256Hex E "federated-intent",
          none⟩ := by
      intro r hr
      cases hr
    refine ⟨hintent, hfill, hunreleased, ?_⟩
    intro j hj hdigest
    rw [findIntent_eq_none] at hfind
    exact absurd (List.mem_map.mpr ⟨j, hj, hdigest⟩) hfind
  | some k =>
    rw [Option.getD_some]
    have hk := List.mem_of_find?_eq_some hfind
    have hdigest : k.intentDigest = intent.intentDigest := by simpa using List.find?_some hfind
    have hproof := hrow.retained.proofs k hk
    obtain ⟨hbody, hissued, hexpires, -⟩ := hintent.eq_of_digest hcol hproof hdigest.symm
    refine ⟨hproof, hfill.congr hdigest.symm hbody hissued hexpires,
      hrow.retained.releases k hk, ?_⟩
    intro j hj hj'
    exact List.inj_on_of_nodup_map hrow.retained.digests hj hk hj'

theorem Proven.fill_change (hcol : CollisionFree E) (h : Proven E i.now v o)
    (hrow : SignedRow E i.now v o)
    {intent : VerifiedFillIntentV1} {fill : VerifiedFillV1} (hintent : IntentProof E i.now v intent)
    (hfill : FillProof E i.now v intent fill) :
    Proven E i.now v (recordFill i.now fill (selectedSource E i.now o intent) o) := by
  obtain ⟨hproof, hfillProof, hrelease, hsame⟩ := selectedSource_proof hcol hrow hintent hfill
  constructor
  · intro f hf
    cases hf
    exact hproof
  · intro f hf
    cases hf
    exact hfillProof
  · intro f hf j hj hdigest
    cases hf
    obtain rfl := hsame j hj hdigest
    refine ⟨rfl, ?_⟩
    intro hreleased
    change (Option.map IntentRelease.releaseSecret _).isSome = true
    rw [Option.isSome_map]
    exact hreleased
  · intro c hc
    exact h.cancel c hc
  · exact h.conflicts
  · intro secret hsecret
    refine ⟨_, rfl, ?_⟩
    obtain ⟨r, hr, rfl⟩ := Option.map_eq_some_iff.mp (Option.mem_def.mp hsecret)
    have hopens := hrelease r hr
    obtain ⟨-, -, hcommitment, -⟩ := hfillProof.terms
    exact hopens.trans hcommitment.symm

theorem Proven.release_change (h : Proven E i.now v o) {digest secret : Bytes32}
    {intent : PublicFillIntentV1}
    (hintent : ((findIntent o digest).map StoredFillIntentV1.publicIntent).or
      ((o.fill.map RecordedFill.selectedIntent).filter fun s => s.intentDigest = digest) =
        some intent)
    (hsecret : computeReleaseCommitment E v.orderDigest intent.auth.nonce secret =
      intent.intent.releaseCommitment) :
    Proven E i.now v (releaseIntent i.now digest secret o) := by
  -- The released proposal is the selected one when a fill selects its digest.
  have hselected : ∀ f ∈ o.fill, f.selectedIntent.intentDigest = digest →
    intent = f.selectedIntent := by
    intro f hf hdigest
    cases hfind : findIntent o digest with
    | none =>
      rw [hfind, Option.mem_def.mp hf] at hintent
      simp only [Option.map_none, Option.none_or, Option.map_some,
        Option.filter_eq_some_iff] at hintent
      exact (Option.some.inj hintent.1).symm
    | some j =>
      rw [hfind] at hintent
      have hj := List.mem_of_find?_eq_some hfind
      have hjd : j.intentDigest = digest := by simpa using List.find?_some hfind
      rw [← (h.selected f hf j hj (hjd.trans hdigest.symm)).1]
      exact (Option.some.inj hintent).symm
  refine { h with selected := ?_, release := ?_ }
  · intro f hf j hj hdigest
    rw [releaseIntent_intents, List.mem_map] at hj
    obtain ⟨k, hk, rfl⟩ := hj
    have hkd : (withRelease digest ⟨i.now, secret⟩ k).intentDigest = k.intentDigest :=
      congrArg PublicFillIntentV1.intentDigest (withRelease_publicIntent digest ⟨i.now, secret⟩ k)
    rw [hkd] at hdigest
    obtain ⟨hpublic, hreleased⟩ := h.selected f hf k hk hdigest
    refine ⟨(withRelease_publicIntent _ _ k).trans hpublic, ?_⟩
    simp only [releaseIntent]
    split
    · exact fun _ => rfl
    · rename_i hany
      unfold withRelease
      split
      · rename_i hkdigest
        refine absurd ?_ hany
        rw [show o.fill = some f from hf]
        simpa [hkdigest] using hdigest.symm
      · exact hreleased
  · intro s hs
    simp only [releaseIntent, Option.mem_def] at hs
    split at hs
    · rename_i hany
      obtain rfl := Option.some.inj hs
      rw [Option.any_eq_true] at hany
      obtain ⟨f, hf, hdigest⟩ := hany
      refine ⟨f, hf, ?_⟩
      have heq := hselected f hf (by simpa using hdigest)
      obtain ⟨-, -, hcommitment, -⟩ := (h.fill f hf).terms
      rw [heq] at hsecret
      exact hsecret.trans hcommitment.symm
    · exact h.release s hs

theorem Proven.change (hcol : CollisionFree E) (h : Proven E i.now v o)
    (hrow : SignedRow E i.now v o)
    (hprimary : ∀ digest, i.call.terminal? = some (o.id.val, digest) →
      digest ∉ o.orderConflicts.map OrderConflictEvidence.orderDigest)
    (hchange : Change E i o o') : Proven E i.now v o' := by
  cases hchange with
  | orderConflict verified => exact { h with }
  | legacy hlegacy => exact absurd hlegacy (by simp [hrow.portable.uses])
  | portable hportable hchange =>
    cases hchange with
    | fillIntent variant verified kept ipHash hvariant hproof hnew hopen =>
      have hnofill : o.fill = none := by
        rw [← Option.not_isSome_iff_eq_none, ← hrow.outcome.locking]
        rcases hopen with hopen | ⟨hopen, -⟩ <;> simp [hopen]
      refine { h with selected := fun f hf => ?_ }
      rw [show (addFillIntent i.now kept verified ipHash o).fill = o.fill from rfl, hnofill] at hf
      cases hf
    | terminalConflict evidence hpresented =>
      refine { h with conflicts := fun e he => ?_ }
      rcases mem_pushCapped he with he | rfl
      · exact h.conflicts e he
      · exact hpresented.proof h hrow hprimary
    | fill raw variant intent fill hvariant hintent hfill hcall hopen hnofill hnocancel =>
      obtain ⟨horder, -⟩ := hfill.terms
      have hw := h.variant_eq hrow hvariant (horder ▸ hprimary _ (fill?_terminal hcall))
      subst hw
      exact h.fill_change hcol hrow hintent hfill
    | cancel raw variant cancel hvariant hcancel hcall hnofill hnocancel =>
      have hw := h.variant_eq hrow hvariant
        (hcancel.orderDigest_eq ▸ hprimary _ (cancel?_terminal hcall))
      subst hw
      refine { h with cancel := fun c hc => ?_ }
      cases hc
      exact hcancel
    | releaseFill digest secret f hdigest hfill hsecret =>
      rw [hrow.portable.digest, Option.some.injEq] at hdigest
      refine { h with selected := fun g hg j hj hd => ?_, release := fun s hs => ?_ }
      · exact ⟨(h.selected g hg j hj hd).1, fun _ => rfl⟩
      · cases hs
        subst hdigest
        exact ⟨f, hfill, hsecret⟩
    | releaseIntent digest secret intentDigest intent hdigest hintent hsecret =>
      rw [hrow.portable.digest, Option.some.injEq] at hdigest
      exact h.release_change hintent (hdigest ▸ hsecret)

theorem Proven.of_empty (hfill : o.fill = none) (hcancel : o.cancel = none)
    (hconflicts : o.conflicts = [])
    (hrelease : o.releaseSecret = none) : Proven E now v o := by
  constructor <;> simp [hfill, hcancel, hconflicts, hrelease]

end Proven

end QuantaSwap.Book
