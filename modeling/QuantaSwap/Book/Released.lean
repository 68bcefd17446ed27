import Mathlib.Data.Prod.Lex
import QuantaSwap.Book.Arrivals
import QuantaSwap.Book.Reload

/-!
# Releases

A release of a proposal lives on the retained proposal until a fill selects it, and on the
order from then on. It is lost in between only when a new proposal takes its place; and a
release is checked against the terms the order was created with, so a fill on other terms
cannot be released.
-/

set_option autoImplicit false

namespace QuantaSwap.Book

open Lib.Js Lib.Text Lib.Checks Lib.Run

/-! ## The proposal that makes room -/

section Evict

variable {l : List StoredFillIntentV1} {a b c best : StoredFillIntentV1} {now : SafeInt}

/-- Unreleased before released, then by expiry. -/
def evictionKey (i : StoredFillIntentV1) : ℕ ×ₗ ℕ :=
  toLex (if i.release.isSome then 1 else 0, i.auth.expiresAt.val)

theorem evictsBefore_iff : evictsBefore a b = true ↔ evictionKey a < evictionKey b := by
  unfold evictsBefore evictionKey
  rw [decide_eq_true_eq, Prod.Lex.toLex_lt_toLex]

theorem firstToEvict_first (h : firstToEvict l = some best) :
    ∀ j ∈ l, evictionKey best ≤ evictionKey j := by
  induction l generalizing best with
  | nil => cases h
  | cons i rest ih =>
    unfold firstToEvict at h
    cases hrest : firstToEvict rest with
    | none =>
      rw [hrest] at h
      cases h
      cases rest with
      | nil =>
        intro j hj
        obtain rfl := List.mem_singleton.mp hj
        exact le_refl _
      | cons k rest =>
        unfold firstToEvict at hrest
        split at hrest <;> cases hrest
    | some first =>
      rw [hrest, Option.some.injEq] at h
      have hfirst := ih hrest
      intro j hj
      split at h
      · rename_i hbefore
        subst h
        rcases List.mem_cons.mp hj with rfl | hj
        · exact le_of_lt (evictsBefore_iff.mp hbefore)
        · exact hfirst j hj
      · rename_i hafter
        subst h
        rcases List.mem_cons.mp hj with rfl | hj
        · exact le_refl _
        · exact (not_lt.mp (mt evictsBefore_iff.mpr hafter)).trans (hfirst j hj)

/-- A proposal that the incoming one may take the place of. -/
def Displaceable (now : SafeInt) (incoming : ProtocolAuthV1) (j : StoredFillIntentV1) : Prop :=
  j.auth.expiresAt.val ≤ now.val ∧
    (now.val < incoming.expiresAt.val ∨ j.auth.expiresAt.val < incoming.expiresAt.val)

theorem makeRoom_displaces {verified : VerifiedFillIntentV1} {kept : List StoredFillIntentV1}
    (h : makeRoom now l verified = .ok kept) :
    kept = l ∨ (maxFillIntentsPerOrder ≤ l.length ∧ ∃ j ∈ l, Displaceable now verified.auth j ∧
      kept = l.erase j ∧
      ∀ k ∈ l, Displaceable now verified.auth k → evictsBefore k j = false) := by
  unfold makeRoom at h
  split at h
  · left
    cases h
    rfl
  · rename_i hfull
    right
    simp only [bind_eq_ok, orThrow_eq_ok, pure_eq_ok] at h
    obtain ⟨j, hj, rfl⟩ := h
    have hfirst := firstToEvict_first hj
    have hmem := mem_of_firstToEvict hj
    simp only [List.mem_filter, isLiveIntent, Bool.and_eq_true, Bool.or_eq_true, Bool.not_eq_true',
      decide_eq_false_iff_not, decide_eq_true_eq, not_lt] at hmem hfirst
    refine ⟨Nat.le_of_not_lt hfull, j, hmem.1, hmem.2, rfl, ?_⟩
    intro k hk hdisplaceable
    rw [← Bool.not_eq_true, evictsBefore_iff, not_lt]
    exact hfirst k ⟨hk, hdisplaceable⟩

end Evict

/-! ## What a row remembers -/

section Remembers

variable (E : Crypto)

/-- The retained proposal is past the time at which a fill can select it in time. -/
def Lapsed (x : Bytes32) (now : SafeInt) : Prop :=
  ∃ order j, IntentProof E now order j ∧ j.intentDigest = x ∧
    j.auth.expiresAt.val + signedIntentRetentionS ≤ now.val

/-- The order shows the release of `x` once its fill selects `x`, and holds it until then. -/
structure Remembers (x : Bytes32) (now : SafeInt) (o : Order) : Prop where
  signed : o.orderDigest.isSome = true
  shown : ∀ f ∈ o.fill, f.selectedIntent.intentDigest = x → o.releasedAt.isSome = true
  held : o.fill = none → (∃ j ∈ o.intents, j.intentDigest = x ∧ j.release.isSome = true) ∨
    Lapsed E x now

/-- A release of the proposal that the fill selected is a release of the order. -/
def Echoed (o : Order) : Prop :=
  ∀ f ∈ o.fill, ∀ j ∈ o.intents, j.intentDigest = f.selectedIntent.intentDigest →
    j.release.isSome = true →
    o.releasedAt.isSome = true

/-- The fill repeats the terms that the order was created with. -/
def OnPrimary (o : Order) : Prop := ∀ f ∈ o.fill, o.orderDigest = some f.fill.orderDigest

variable {E} {i : Step} {now now' : SafeInt} {v : VerifiedOrderV1} {o o' : Order} {x : Bytes32}

theorem Lapsed.later (h : Lapsed E x now) (hnow : now.val ≤ now'.val) : Lapsed E x now' := by
  obtain ⟨order, j, hproof, hdigest, hlapsed⟩ := h
  exact ⟨order, j, hproof.later hnow, hdigest, by omega⟩

theorem Remembers.later (h : Remembers E x now o) (hnow : now.val ≤ now'.val) :
    Remembers E x now' o :=
  { h with held := fun hfill => (h.held hfill).imp_right fun hlapsed => hlapsed.later hnow }

/-! ### The sweep -/

theorem sweepOrder_kept (hsweep : sweepOrder now o = some o') :
    o'.fill = o.fill ∧ o'.releasedAt = o.releasedAt ∧
    o'.intents = (dropStaleIntents now o).intents := by
  rcases sweepOrder_cases hsweep with ⟨rfl, -⟩ | rfl
  · exact ⟨rfl, rfl, rfl⟩
  · exact ⟨rfl, rfl, rfl⟩

theorem Echoed.sweep (h : Echoed o) (hsweep : sweepOrder now o = some o') : Echoed o' := by
  obtain ⟨hfill, hreleased, hintents⟩ := sweepOrder_kept hsweep
  intro f hf j hj hdigest hrelease
  rw [hfill] at hf
  rw [hintents, dropStaleIntents_intents] at hj
  rw [hreleased]
  exact h f hf j (List.mem_of_mem_filter hj) hdigest hrelease

theorem OnPrimary.sweep (h : OnPrimary o) (hsweep : sweepOrder now o = some o') : OnPrimary o' := by
  obtain ⟨hfill, -, -⟩ := sweepOrder_kept hsweep
  intro f hf
  rw [(sweepOrder_sameOrigin hsweep).orderDigest]
  exact h f (hfill ▸ hf)

theorem Remembers.sweep (h : Remembers E x now o) (hrow : SignedRow E now v o)
    (hsweep : sweepOrder now o = some o') : Remembers E x now o' := by
  obtain ⟨hfill, hreleased, hintents⟩ := sweepOrder_kept hsweep
  refine ⟨(sweepOrder_sameOrigin hsweep).orderDigest ▸ h.signed, ?_, ?_⟩
  · rw [hfill, hreleased]
    exact h.shown
  · rw [hfill, hintents, dropStaleIntents_intents]
    intro hnone
    rcases h.held hnone with ⟨j, hj, hdigest, hrelease⟩ | hlapsed
    · by_cases hstale : now.val < j.auth.expiresAt.val + signedIntentRetentionS
      · exact .inl ⟨j, List.mem_filter.mpr ⟨hj, by simpa using hstale⟩, hdigest, hrelease⟩
      · exact .inr ⟨v, j.verified, hrow.retained.proofs j hj, hdigest, Nat.le_of_not_lt hstale⟩
    · exact .inr hlapsed

/-! ### One write -/

theorem FillProof.window {j : VerifiedFillIntentV1} {f : VerifiedFillV1}
    (h : FillProof E now v j f) :
    f.auth.issuedAt.val < j.auth.expiresAt.val ∧
    f.auth.expiresAt.val ≤ f.auth.issuedAt.val + maxFillResponseS := by
  simp only [FillProof, checkFillV1, bind_eq_ok, refuse_eq_ok, exists_const, not_or] at h
  obtain ⟨_, -, _, -, -, -, -, ⟨-, hlive⟩, ⟨-, hwindow⟩, -⟩ := h
  omega

theorem selectedSource_intentDigest (E : Crypto) (now : SafeInt) (o : Order)
    (intent : VerifiedFillIntentV1) :
    (selectedSource E now o intent).intentDigest = intent.intentDigest := by
  unfold selectedSource
  cases hfind : findIntent o intent.intentDigest with
  | none => rfl
  | some j => simpa using List.find?_some hfind

theorem selectedSource_stored (h : Retained E now v o) {intent : VerifiedFillIntentV1}
    {j : StoredFillIntentV1}
    (hj : j ∈ o.intents) (hdigest : j.intentDigest = intent.intentDigest) :
    selectedSource E now o intent = j := by
  unfold selectedSource
  rw [← hdigest, h.findIntent_eq hj]
  rfl

theorem Echoed.portable (h : Echoed o) (hrow : SignedRow E i.now v o)
    (hchange : PortableChange E i o o') :
    Echoed o' := by
  cases hchange with
  | fillIntent variant verified kept ipHash hvariant hproof hnew hopen hclean hnonce hkept hcall =>
    intro f hf j hj hdigest hrelease
    rcases List.mem_append.mp hj with hj | hj
    · exact h f hf j ((makeRoom_eq_ok hkept hrow.retained.intents_le).1.subset hj) hdigest hrelease
    · obtain rfl := List.mem_singleton.mp hj
      cases hrelease
  | terminalConflict evidence => exact h
  | fill raw variant intent fill hvariant hintent hfill hcall hopen hnofill hnocancel =>
    intro f hf j hj hdigest hrelease
    cases hf
    change (Option.map IntentRelease.releasedAt _).isSome = true
    have hsource := selectedSource_stored hrow.retained hj
      (hdigest.trans (selectedSource_intentDigest E i.now o intent))
    rw [Option.isSome_map, hsource]
    exact hrelease
  | cancel raw variant cancel => exact h
  | releaseFill digest secret f hdigest hfill hsecret => exact fun _ _ _ _ _ _ => rfl
  | releaseIntent digest secret intentDigest intent hdigest hintent hsecret =>
    intro f hf j hj hselected hrelease
    rw [releaseIntent_intents, List.mem_map] at hj
    obtain ⟨k, hk, rfl⟩ := hj
    have hkd : (withRelease intentDigest ⟨i.now, secret⟩ k).intentDigest = k.intentDigest :=
      congrArg PublicFillIntentV1.intentDigest
        (withRelease_publicIntent intentDigest ⟨i.now, secret⟩ k)
    rw [hkd] at hselected
    have hf : o.fill = some f := hf
    simp only [releaseIntent, hf, Option.any_some, decide_eq_true_eq]
    split
    · rfl
    · rename_i hother
      unfold withRelease at hrelease
      rw [if_neg fun hd => hother (hselected ▸ hd)] at hrelease
      exact h f hf k hk hselected hrelease

theorem OnPrimary.portable (h : OnPrimary o)
    (hprimary : ∀ fill, i.call.fill? = some (o.id.val, fill) →
      o.orderDigest = some fill.orderDigest)
    (hchange : PortableChange E i o o') : OnPrimary o' := by
  cases hchange with
  | fillIntent => exact h
  | terminalConflict => exact h
  | fill raw variant intent fill hvariant hintent hfill hcall =>
    intro f hf
    cases hf
    exact hprimary fill.fill hcall
  | cancel => exact h
  | releaseFill => exact h
  | releaseIntent => exact h

/-- What a proposal leaves of the released ones, in the row `o` that it is stored on. -/
def SparesReleased (i : Step) (o : Order) : Prop :=
  ∀ intent auth, i.call.intent? = some (o.id.val, intent, auth) →
    maxFillIntentsPerOrder ≤ o.intents.length →
    ∀ j ∈ o.intents, j.release.isSome = true → Displaceable i.now auth j →
      ∃ k ∈ o.intents, Displaceable i.now auth k ∧ evictsBefore k j = true

theorem Remembers.portable (hcol : CollisionFree E) (h : Remembers E x i.now o)
    (hrow : SignedRow E i.now v o)
    (hspares : SparesReleased i o)
    (htimely : o.fill = none → ∀ f ∈ o'.fill, f.selectedIntent.intentDigest = x →
      i.now.val ≤ f.auth.expiresAt.val)
    (hchange : PortableChange E i o o') : Remembers E x i.now o' := by
  cases hchange with
  | fillIntent variant verified kept ipHash hvariant hproof hnew hopen hclean hnonce hkept hcall =>
    refine ⟨h.signed, h.shown, fun hnone => ?_⟩
    rcases h.held hnone with ⟨j, hj, hdigest, hrelease⟩ | hlapsed
    · left
      refine ⟨j, List.mem_append_left _ ?_, hdigest, hrelease⟩
      rcases makeRoom_displaces hkept with rfl | ⟨hfull, evicted, hevicted, hdisplaceable,
        rfl, hfirst⟩
      · exact hj
      -- The release spares its proposal by assumption: another one comes before it.
      · by_cases hje : j = evicted
        · subst hje
          obtain ⟨k, hk, hkd, hbefore⟩ := hspares _ _ hcall hfull j hj hrelease hdisplaceable
          rw [hfirst k hk hkd] at hbefore
          cases hbefore
        · exact (List.mem_erase_of_ne hje).mpr hj
    · exact .inr hlapsed
  | terminalConflict evidence => exact ⟨h.signed, h.shown, h.held⟩
  | fill raw variant intent fill hvariant hintent hfill hcall hopen hnofill hnocancel =>
    refine ⟨h.signed, ?_, fun hnone => by cases hnone⟩
    intro f hf hselected
    have harrived := htimely hnofill f hf hselected
    cases hf
    have hx : intent.intentDigest = x :=
      (selectedSource_intentDigest E i.now o intent).symm.trans hselected
    rcases h.held hnofill with ⟨j, hj, hdigest, hrelease⟩ | ⟨order, j, hproof, hdigest, hlapsed⟩
    · change (Option.map IntentRelease.releasedAt _).isSome = true
      rw [selectedSource_stored hrow.retained hj (hdigest.trans hx.symm), Option.isSome_map]
      exact hrelease
    -- A proposal that lapsed expired an hour ago, so no fill that arrives in time can select it.
    · exfalso
      obtain ⟨-, -, hexpires, -⟩ := hproof.eq_of_digest hcol hintent (hdigest.trans hx.symm)
      obtain ⟨hissued, hresponse⟩ := hfill.window
      rw [hexpires] at hlapsed
      unfold signedIntentRetentionS at hlapsed
      change i.now.val ≤ fill.auth.expiresAt.val at harrived
      omega
  | cancel raw variant cancel => exact ⟨h.signed, h.shown, h.held⟩
  | releaseFill digest secret f hdigest hfill hsecret =>
    exact ⟨h.signed, fun _ _ _ => rfl,
      fun hnone => by rw [show o.fill = none from hnone] at hfill; cases hfill⟩
  | releaseIntent digest secret intentDigest intent hdigest hintent hsecret =>
    refine ⟨h.signed, ?_, ?_⟩
    · intro f hf hselected
      have hold := h.shown f hf hselected
      simp only [releaseIntent]
      split
      · rfl
      · exact hold
    · intro hnone
      rcases h.held hnone with ⟨j, hj, hjx, hrelease⟩ | hlapsed
      · left
        rw [releaseIntent_intents]
        refine ⟨withRelease intentDigest ⟨i.now, secret⟩ j, List.mem_map_of_mem hj, ?_, ?_⟩
        · exact (congrArg PublicFillIntentV1.intentDigest
            (withRelease_publicIntent intentDigest ⟨i.now, secret⟩ j)).trans hjx
        · unfold withRelease
          split
          · rfl
          · exact hrelease
      · exact .inr hlapsed

end Remembers

/-! ## An accepted release -/

section Accepted

variable {E : Crypto} {now : SafeInt} {s s' : Store} {order : Order} {body : Record}
  {federated : Bool}
  {p : PublicOrder} {x : Bytes32}

/-- The release names the proposal, or the fill that selected it. -/
def NamesIntent (o : Order) (body : Record) (x : Bytes32) : Prop :=
  digestOf (body.get "intentDigest") = some x ∨
    ∃ f ∈ o.fill, digestOf (body.get "fillDigest") = some f.digest ∧
      f.selectedIntent.intentDigest = x

theorem isSome_of_digestOf {raw : Option Json} {digest : Bytes32} (h : digestOf raw = some digest) :
    raw.isSome = true := by
  cases raw with
  | none => cases h
  | some j => rfl

theorem releasePortableFill_remembers {orderDigest secret : Bytes32} {raw : Option Json}
    (hsigned : order.orderDigest = some orderDigest) (hmem : order ∈ s.orders)
    (h : releasePortableFill E now order orderDigest raw secret s = .ok p s') :
    ∃ o ∈ s'.orders, o.id = order.id ∧ Remembers E x now o := by
  simp only [releasePortableFill, run_bind_ok, check_run_ok, orThrow_eq_ok, refuse_eq_ok,
    Option.filter_eq_some_iff] at h
  obtain ⟨f, _, ⟨⟨hf, -⟩, rfl⟩, _, _, ⟨-, rfl⟩, h⟩ := h
  have hnotnone : ∀ o : Order, o.fill = order.fill → o.fill ≠ none := by
    intro o ho hnone
    rw [ho, hf] at hnone
    cases hnone
  split at h
  · rename_i hreleased
    simp only [run_bind_ok, get_run, pure_run, EStateM.Result.ok.injEq] at h
    obtain ⟨_, _, ⟨rfl, rfl⟩, -, rfl⟩ := h
    exact ⟨order, hmem, rfl, by simp [hsigned], fun _ _ _ => hreleased.2,
      fun hnone => absurd hnone (hnotnone _ rfl)⟩
  · simp only [run_bind_ok, get_run, modify_run, pure_run, EStateM.Result.ok.injEq] at h
    obtain ⟨_, _, ⟨-, rfl⟩, _, _, ⟨rfl, rfl⟩, -, rfl⟩ := h
    refine ⟨releaseFill now secret order, ?_, rfl, by simp [releaseFill, hsigned], fun _ _ _ => rfl,
      fun hnone => absurd hnone (hnotnone (releaseFill now secret order) rfl)⟩
    simp only [Store.orders_publishFor, Store.orders_persist, Store.orders_update]
    exact mem_updated hmem

theorem releasePortableIntent_remembers {orderDigest secret : Bytes32} {raw : Option Json}
    (hsigned : order.orderDigest = some orderDigest) (hmem : order ∈ s.orders)
    (hechoed : Echoed order)
    (hx : digestOf raw = some x)
    (h : releasePortableIntent E now order orderDigest raw secret s = .ok p s') :
    ∃ o ∈ s'.orders, o.id = order.id ∧ Remembers E x now o := by
  simp only [releasePortableIntent, run_bind_ok, check_run_ok, orThrow_eq_ok, refuse_eq_ok, hx,
    Option.some.injEq] at h
  obtain ⟨_, _, ⟨rfl, rfl⟩, intent, _, ⟨hintent, rfl⟩, _, _, ⟨-, rfl⟩, h⟩ := h
  have hstored : ∀ j, findIntent order x = some j → j ∈ order.intents ∧ j.intentDigest = x :=
    fun j hj =>
    ⟨List.mem_of_find?_eq_some hj, by simpa using List.find?_some hj⟩
  -- The release was seen before, and nothing changes; or it is new.
  split at h
  · rename_i hreleased
    simp only [run_bind_ok, get_run, pure_run, EStateM.Result.ok.injEq] at h
    obtain ⟨_, _, ⟨rfl, rfl⟩, -, rfl⟩ := h
    refine ⟨order, hmem, rfl, by simp [hsigned], ?_, ?_⟩
    · intro f hf hselected
      rcases hreleased with ⟨j, hj, r, hr, -⟩ | ⟨-, -, hreleased⟩
      · obtain ⟨hjmem, hjd⟩ := hstored j hj
        refine hechoed f hf j hjmem (hjd.trans hselected.symm) ?_
        rw [Option.mem_def.mp hr]
        rfl
      · exact hreleased
    · intro hnone
      left
      rcases hreleased with ⟨j, hj, r, hr, -⟩ | ⟨hselected, -⟩
      · obtain ⟨hjmem, hjd⟩ := hstored j hj
        refine ⟨j, hjmem, hjd, ?_⟩
        rw [Option.mem_def.mp hr]
        rfl
      · rw [hnone] at hselected
        cases hselected
  · simp only [run_bind_ok, get_run, modify_run, pure_run, EStateM.Result.ok.injEq] at h
    obtain ⟨_, _, ⟨-, rfl⟩, _, _, ⟨rfl, rfl⟩, -, rfl⟩ := h
    refine ⟨releaseIntent now x secret order, ?_, rfl, by simp [releaseIntent, hsigned], ?_, ?_⟩
    · simp only [Store.orders_publishFor, Store.orders_persist, Store.orders_update]
      exact mem_updated hmem
    · intro f hf hselected
      have hf : order.fill = some f := hf
      simp [releaseIntent, hf, hselected]
    · intro hnone
      left
      have hnone : order.fill = none := hnone
      rw [hnone, Option.map_none, Option.filter_none, Option.or_none,
        Option.map_eq_some_iff] at hintent
      obtain ⟨j, hj, -⟩ := hintent
      obtain ⟨hjmem, hjd⟩ := hstored j hj
      rw [releaseIntent_intents]
      refine ⟨withRelease x ⟨now, secret⟩ j, List.mem_map_of_mem hjmem, ?_, ?_⟩
      · exact (congrArg PublicFillIntentV1.intentDigest
          (withRelease_publicIntent x ⟨now, secret⟩ j)).trans hjd
      · simp [withRelease, hjd]

theorem releasePortable_remembers (hmem : order ∈ s.orders) (hechoed : Echoed order)
    (hnames : NamesIntent order body x)
    (h : releasePortable E now order body federated s = .ok p s') :
    ∃ o ∈ s'.orders, o.id = order.id ∧ Remembers E x now o := by
  simp only [releasePortable, run_bind_ok, check_run_ok, orThrow_eq_ok, refuse_eq_ok] at h
  obtain ⟨_, _, ⟨-, rfl⟩, _, _, ⟨-, rfl⟩, _, _, ⟨hone, rfl⟩, _, _, ⟨-, rfl⟩, secret, _, ⟨-, rfl⟩,
    orderDigest, _,
    ⟨hsigned, rfl⟩, h⟩ := h
  split at h
  · exact releasePortableFill_remembers hsigned hmem h
  · rename_i hnofill
    rcases hnames with hx | ⟨f, -, hdigest, -⟩
    · exact releasePortableIntent_remembers hsigned hmem hechoed hx h
    · exact absurd (isSome_of_digestOf hdigest) hnofill

end Accepted

/-! ## Releases over whole runs -/

section Runs

variable {E : Crypto} {i : Step} {l l' : List Order} {o o' : Order} {now : SafeInt} {x : Bytes32}
  {w : World}

/-- The fill that a call records on the row arrived before its `respondBy`. -/
def Timely (x : Bytes32) (now : SafeInt) (o o' : Order) : Prop :=
  o.fill = none → ∀ f ∈ o'.fill, f.selectedIntent.intentDigest = x → now.val ≤ f.auth.expiresAt.val

theorem Remembers.change (hcol : CollisionFree E) (h : Remembers E x i.now o) (hrow : Row E i.now o)
    (hspares : SparesReleased i o) (htimely : Timely x i.now o o') (hchange : Change E i o o') :
    Remembers E x i.now o' := by
  rcases hrow.kind with hlegacy | ⟨v, hsigned⟩
  · have := h.signed
    rw [hlegacy.digest] at this
    cases this
  · cases hchange with
    | orderConflict verified => exact ⟨h.signed, h.shown, h.held⟩
    | portable _ hchange => exact h.portable hcol hsigned hspares htimely hchange
    | legacy hlegacy => exact absurd hlegacy (by simp [hsigned.portable.uses])

theorem sweepOrder_of_kept (hids : (l.map Order.id).Nodup) (ho : o ∈ l)
    (hkept : ∃ o' ∈ sweepAll now l, o'.id = o.id) : ∃ o', sweepOrder now o = some o' := by
  obtain ⟨o', ho', hid⟩ := hkept
  obtain ⟨o'', ho'', hsweep⟩ := mem_sweepAll.mp ho'
  obtain rfl := List.inj_on_of_nodup_map hids ho'' ho ((sweepOrder_id hsweep).symm.trans hid)
  exact ⟨o', hsweep⟩

theorem Remembers.sweepRow (h : Remembers E x now o) (hrow : Row E now o)
    (hsweep : sweepOrder now o = some o') :
    Remembers E x now o' := by
  rcases hrow.kind with hlegacy | ⟨v, hsigned⟩
  · have := h.signed
    rw [hlegacy.digest] at this
    cases this
  · exact h.sweep hsigned hsweep

theorem Effects.remembers (hcol : CollisionFree E) (h : Effects E i l l')
    (hids : (l.map Order.id).Nodup)
    (hrows : ∀ o ∈ l, Row E i.now o) (hspares : ∀ o ∈ sweepAll i.now l, SparesReleased i o)
    (ho : o ∈ l)
    (hkept : ∃ o' ∈ sweepAll i.now l, o'.id = o.id) (hrem : Remembers E x i.now o) :
    ∃ o' ∈ l', o'.id = o.id ∧ (Timely x i.now o o' → Remembers E x i.now o') := by
  induction h generalizing o with
  | kept => exact ⟨o, ho, rfl, fun _ => hrem⟩
  | @wrote l l' hwrote =>
    obtain ⟨o₁, hsweep⟩ := sweepOrder_of_kept hids ho hkept
    have hmem : o₁ ∈ sweepAll i.now l := mem_sweepAll.mpr ⟨o, ho, hsweep⟩
    have hrem₁ := hrem.sweepRow (hrows o ho) hsweep
    have hid := sweepOrder_id hsweep
    rcases hwrote with rfl | hwrite
    · exact ⟨o₁, hmem, hid, fun _ => hrem₁⟩
    · cases hwrite with
      | create body makerIp origin y => exact ⟨o₁, List.mem_append_left _ hmem, hid, fun _ => hrem₁⟩
      | change y f hy hchange =>
        by_cases hsame : o₁.id = y.id
        · obtain rfl := List.inj_on_of_nodup_map ((sweepAll_ids i.now l).nodup hids) hmem hy hsame
          refine ⟨f o₁, mem_updated hmem, hchange.id_eq.trans hid, fun htimely => ?_⟩
          refine hrem₁.change hcol ((hrows o ho).sweep hsweep) (hspares o₁ hmem) ?_ hchange
          exact fun hnone => htimely ((sweepOrder_kept hsweep).1 ▸ hnone)
        · exact ⟨o₁, List.mem_map.mpr ⟨o₁, hmem, if_neg hsame⟩, hid, fun _ => hrem₁⟩
  | @sweep l l' _ ih =>
    obtain ⟨o₁, hsweep⟩ := sweepOrder_of_kept hids ho hkept
    have hmem : o₁ ∈ sweepAll i.now l := mem_sweepAll.mpr ⟨o, ho, hsweep⟩
    have hid := sweepOrder_id hsweep
    have hrows₁ : ∀ o ∈ sweepAll i.now l, Row E i.now o := by
      intro y hy
      obtain ⟨z, hz, hzy⟩ := mem_sweepAll.mp hy
      exact (hrows z hz).sweep hzy
    obtain ⟨o', ho', hid', himp⟩ :=
      ih ((sweepAll_ids i.now l).nodup hids) hrows₁ (by rwa [sweepAll_idem]) hmem
      (by rw [sweepAll_idem]; exact ⟨o₁, hmem, rfl⟩) (hrem.sweepRow (hrows o ho) hsweep)
    refine ⟨o', ho', hid'.trans hid, fun htimely => himp ?_⟩
    exact fun hnone => htimely ((sweepOrder_kept hsweep).1 ▸ hnone)

/-- The condition on each step of the run: a proposal that finds eight retained ones takes the
place of no released one, and a fill repeats the terms that its order was created with. -/
structure KeepsReleases (w : World) (i : Step) : Prop where
  spares : ∀ o ∈ sweepAll (w.timed i).now w.store.orders, SparesReleased (w.timed i) o
  primary : ∀ o ∈ w.store.orders, ∀ fill, i.call.fill? = some (o.id.val, fill) →
    o.orderDigest = some fill.orderDigest

/-- What a row of the running book keeps about releases. -/
structure Released (E : Crypto) (now : SafeInt) (o : Order) : Prop where
  row : Row E now o
  echoed : Echoed o
  primary : OnPrimary o

/-- The invariant of a book whose steps keep the releases. -/
structure Tended (E : Crypto) (w : World) : Prop where
  ids : (w.store.orders.map Order.id).Nodup
  rows : ∀ o ∈ w.store.orders, Released E w.clock o

theorem Released.change (h : Released E i.now o)
    (hprimary : ∀ fill, i.call.fill? = some (o.id.val, fill) →
      o.orderDigest = some fill.orderDigest)
    (hchange : Change E i o o') : Released E i.now o' := by
  refine ⟨h.row.change hchange, ?_, ?_⟩
  · cases hchange with
    | orderConflict verified => exact h.echoed
    | portable hportable hchange =>
      rcases h.row.kind with hlegacy | ⟨v, hsigned⟩
      · exact absurd hportable (by simp [hlegacy.uses])
      · exact h.echoed.portable hsigned hchange
    | legacy hlegacy hchange =>
      rcases h.row.kind with hrow | ⟨v, hsigned⟩
      · intro f hf
        rw [(hrow.change hchange).fill] at hf
        cases hf
      · exact absurd hlegacy (by simp [hsigned.portable.uses])
  · cases hchange with
    | orderConflict verified => exact h.primary
    | portable hportable hchange => exact h.primary.portable hprimary hchange
    | legacy hlegacy hchange =>
      rcases h.row.kind with hrow | ⟨v, hsigned⟩
      · intro f hf
        rw [(hrow.change hchange).fill] at hf
        cases hf
      · exact absurd hlegacy (by simp [hsigned.portable.uses])

theorem Tended.step (h : Tended E w) (hkeeps : KeepsReleases w i) : Tended E (w.step E i) := by
  have heffects := w.step_effects E i
  refine ⟨heffects.ids h.ids, ?_⟩
  refine heffects.forall_mem (P := fun o => Released E (w.timed i).now o ∧
      ∀ fill, i.call.fill? = some (o.id.val, fill) → o.orderDigest = some fill.orderDigest) h.ids ?_
    (fun o ho => ho.1) ?_ (fun o o' ho hchange => ho.1.change ho.2 hchange) ?_
  · rintro o o' ⟨ho, hprimary⟩ hsweep
    refine ⟨⟨ho.row.sweep hsweep, ho.echoed.sweep hsweep, ho.primary.sweep hsweep⟩, ?_⟩
    rw [sweepOrder_id hsweep, (sweepOrder_sameOrigin hsweep).orderDigest]
    exact hprimary
  · intro l body makerIp origin o hasked hdraft
    obtain ⟨terms, listing, prelock, -, -, -, hnew⟩ := draftOrder_new hdraft
    have hnofill : o.fill = none := by rw [hnew]; rfl
    refine ⟨row_of_draft hasked hdraft, ?_, ?_⟩ <;>
    · intro f hf
      rw [hnofill] at hf
      cases hf
  · intro o ho
    have hrow := h.rows o ho
    exact ⟨⟨hrow.row.later (w.clock_le_timed i), hrow.echoed, hrow.primary⟩, hkeeps.primary o ho⟩

end Runs

/-! ## The two halves of the promise -/

section Promise

variable (E : Crypto)

/-- The book answers a release, of a taker or of a peer: the order, and the body that is checked. -/
inductive AcceptsRelease (w : World) (i : Step) : String → Record → Prop where
  | direct (id : String) (body : Record) (p : PublicOrder) (hcall : i.call = .release id body)
      (hok : release E (w.timed i).now id body w.store = .ok p (w.step E i).store) :
        AcceptsRelease w i id body
  | federated (payload : Record) (source id : String)
      (hcall : i.call = .applyFederationEvent ⟨.releaseV2, payload⟩ source)
      (hid : asString (payload.get "orderId") = some id)
      (hok : applyFederationEvent E (w.timed i).now ⟨.releaseV2, payload⟩ source i.random w.store =
        .ok ⟨⟩ (w.step E i).store) :
      AcceptsRelease w i id (object [(releaseKey payload, payload.get (releaseKey payload)),
        ("releaseSecret", payload.get "releaseSecret")])

/-- The sweep of the call does not remove the order. -/
def Held (id : String) (w : World) (i : Step) : Prop :=
  ∃ o ∈ sweepAll (w.timed i).now w.store.orders, o.id.val = id

/-- A fill that the call records on the order arrives in time. -/
def TimelyFill (id : String) (x : Bytes32) (w : World) (i : Step) : Prop :=
  ∀ o ∈ w.store.orders, ∀ o' ∈ (w.step E i).store.orders, o.id.val = id → o'.id.val = id →
    Timely x (w.timed i).now o o'

/-- The body of the release that a taker sends for the recorded fill. -/
def releaseOf (o : Order) (f : RecordedFill) (secret : Bytes32) (shareToken : Option Json) :
    Record :=
  object ([("fillDigest", some (strJson f.digest)), ("releaseSecret", some (strJson secret))] ++
    if o.visibility = .priv then [("shareToken", shareToken)] else [])

/-- A release that was accepted is shown with the fill that selects its proposal, for as long
as the book holds the order; and every recorded fill can be released with its secret. -/
structure NeverForgets (is : List Step) : Prop where
  shown : ∀ before i after id body x, is = before ++ i :: after →
    AcceptsRelease E (run (World.step E) World.start before) i id body →
    (∃ o ∈ (run (World.step E) World.start before).store.orders, o.id.val = id ∧
      usesPortableTerminalProtocol o = true ∧ NamesIntent o body x) →
    Along (World.step E) (fun w j => Held id w j ∧ TimelyFill E id x w j)
      (run (World.step E) World.start (before ++ [i])) after →
    ∀ o ∈ (run (World.step E) World.start is).store.orders, o.id.val = id →
      ∀ f ∈ o.fill, f.selectedIntent.intentDigest = x → ∀ seen, (publicOrder o seen).released = true
  opened : ∀ now, (run (World.step E) World.start is).clock.val ≤ now.val →
    ∀ o ∈ sweepAll now (run (World.step E) World.start is).store.orders, ∀ f ∈ o.fill, ∀ secret,
      computeReleaseCommitment E f.fill.orderDigest f.selectedIntent.auth.nonce secret =
        f.fill.releaseCommitment →
      ∀ shareToken, (o.visibility = .priv → shareAuthorized E o shareToken = true) →
        ∃ p s', release E now o.id.val (releaseOf o f secret shareToken)
          (run (World.step E) World.start is).store = .ok p s'

variable {E} {w : World} {i : Step} {id : String} {body : Record} {x : Bytes32} {s s' : Store}
  {now : SafeInt}
  {p : PublicOrder}

theorem release_remembers (hechoed : ∀ o ∈ sweepAll now s.orders, Echoed o)
    (hnames : ∀ o ∈ sweepAll now s.orders, o.id.val = id →
      usesPortableTerminalProtocol o = true ∧ NamesIntent o body x)
    (h : release E now id body s = .ok p s') :
    ∃ o ∈ s'.orders, o.id.val = id ∧ Remembers E x now o := by
  simp only [release, sweep_bind_run, get_bind_run, run_bind_ok, check_run_ok, orThrow_eq_ok] at h
  obtain ⟨o, _, ⟨horder, rfl⟩, h⟩ := h
  obtain ⟨hmem, hid⟩ := Store.order?_eq_some horder
  obtain ⟨huses, hx⟩ := hnames o hmem hid
  rw [if_pos huses] at h
  obtain ⟨o', ho', hid', hrem⟩ := releasePortable_remembers hmem (hechoed o hmem) hx h
  exact ⟨o', ho', hid' ▸ hid, hrem⟩

theorem importRelease_remembers (hechoed : ∀ o ∈ sweepAll now s.orders, Echoed o)
    (hnames : ∀ o ∈ sweepAll now s.orders, o.id.val = id → NamesIntent o body x)
    (h : importRelease E now id body s = .ok p s') :
    ∃ o ∈ s'.orders, o.id.val = id ∧ Remembers E x now o := by
  simp only [importRelease, sweep_bind_run, get_bind_run, run_bind_ok, check_run_ok,
    referencedPublicOrder,
    orThrow_eq_ok, Option.filter_eq_some_iff] at h
  obtain ⟨o, _, ⟨⟨horder, -⟩, rfl⟩, h⟩ := h
  obtain ⟨hmem, hid⟩ := Store.order?_eq_some horder
  obtain ⟨o', ho', hid', hrem⟩ :=
    releasePortable_remembers hmem (hechoed o hmem) (hnames o hmem hid) h
  exact ⟨o', ho', hid' ▸ hid, hrem⟩

theorem NamesIntent.sweep {o o' : Order} (h : NamesIntent o body x)
    (hsweep : sweepOrder now o = some o') :
    NamesIntent o' body x := by
  unfold NamesIntent
  rw [(sweepOrder_kept hsweep).1]
  exact h

theorem sweepOrder_uses {o o' : Order} (hsweep : sweepOrder now o = some o') :
    usesPortableTerminalProtocol o' = usesPortableTerminalProtocol o := by
  unfold usesPortableTerminalProtocol
  rcases sweepOrder_cases hsweep with ⟨rfl, -⟩ | rfl
  · simp [dropStaleIntents]
  · simp [dropStaleIntents]

theorem AcceptsRelease.remembers (h : AcceptsRelease E w i id body) (htended : Tended E w)
    (hnames : ∃ o ∈ w.store.orders, o.id.val = id ∧ usesPortableTerminalProtocol o = true ∧
      NamesIntent o body x) :
    ∃ o ∈ (w.step E i).store.orders, o.id.val = id ∧ Remembers E x (w.timed i).now o := by
  obtain ⟨o, ho, hid, huses, hx⟩ := hnames
  have hechoed : ∀ o' ∈ sweepAll (w.timed i).now w.store.orders, Echoed o' := by
    intro o' ho'
    obtain ⟨y, hy, hsweep⟩ := mem_sweepAll.mp ho'
    exact (htended.rows y hy).echoed.sweep hsweep
  have hswept : ∀ o' ∈ sweepAll (w.timed i).now w.store.orders, o'.id.val = id →
      usesPortableTerminalProtocol o' = true ∧ NamesIntent o' body x := by
    intro o' ho' hid'
    obtain ⟨y, hy, hsweep⟩ := mem_sweepAll.mp ho'
    obtain rfl := List.inj_on_of_nodup_map htended.ids hy ho
      (Subtype.ext ((congrArg (fun n : OrderId => n.val) (sweepOrder_id hsweep)).symm.trans
        (hid'.trans hid.symm)))
    exact ⟨(sweepOrder_uses hsweep).trans huses, hx.sweep hsweep⟩
  cases h with
  | direct id body p hcall hok => exact release_remembers hechoed hswept hok
  | federated payload source id hcall hpayload hok =>
    simp only [applyFederationEvent, run_bind_ok, check_run_ok, orThrow_eq_ok, hpayload,
      Option.bind_some,
      reduceCtorEq, if_false, matching_eq_some] at hok
    obtain ⟨orderId, _, ⟨horderId, rfl⟩, _, _, ⟨-, rfl⟩, q, _, himport, hend⟩ := hok
    cases hend
    rw [horderId] at himport
    exact importRelease_remembers hechoed (fun o' ho' hid' => (hswept o' ho' hid').2) himport

/-- One step after the release. -/
theorem Remembers.step (hcol : CollisionFree E) (htended : Tended E w) (hkeeps : KeepsReleases w i)
    (hheld : Held id w i) (htimely : TimelyFill E id x w i)
    (h : ∃ o ∈ w.store.orders, o.id.val = id ∧ Remembers E x w.clock o) :
    ∃ o ∈ (w.step E i).store.orders, o.id.val = id ∧ Remembers E x (w.step E i).clock o := by
  obtain ⟨o, ho, hid, hrem⟩ := h
  obtain ⟨y, hy, hyid⟩ := hheld
  obtain ⟨o', ho', hid', himp⟩ := (w.step_effects E i).remembers hcol htended.ids
    (fun y hy => (htended.rows y hy).row.later (w.clock_le_timed i)) hkeeps.spares ho
    ⟨y, hy, Subtype.ext (hyid.trans hid.symm)⟩ (hrem.later (w.clock_le_timed i))
  have hid' : o'.id.val = id := hid' ▸ hid
  exact ⟨o', ho', hid', himp (htimely o ho o' ho' hid hid')⟩

theorem releaseOf_get (o : Order) (f : RecordedFill) (secret : Bytes32) (shareToken : Option Json)
    (key : String) :
    (releaseOf o f secret shareToken).get key =
      (([("fillDigest", some (strJson f.digest)), ("releaseSecret", some (strJson secret))] ++
        if o.visibility = .priv then [("shareToken", shareToken)] else []).lookup key).join := by
  unfold releaseOf
  rw [get_object]
  cases o.visibility <;> simp

theorem releaseOf_exact {o : Order} {f : RecordedFill} {secret : Bytes32} {shareToken : Option Json}
    (hshare : o.visibility = .priv → shareToken.isSome = true) :
    exactPayload (releaseOf o f secret shareToken) (["fillDigest", "releaseSecret"] ++
      if o.visibility = .priv ∧ (false = false) then ["shareToken"] else
        []) "release" = .ok ⟨⟩ := by
  unfold releaseOf exactPayload
  cases hv : o.visibility with
  | pub => rfl
  | priv =>
    obtain ⟨token, rfl⟩ := Option.isSome_iff_exists.mp (hshare hv)
    rfl

theorem shareToken_of_authorized {o : Order} {shareToken : Option Json}
    (h : shareAuthorized E o shareToken = true) : shareToken.isSome = true := by
  cases shareToken with
  | some token => rfl
  | none =>
    unfold shareAuthorized at h
    split at h
    · cases h
    · split at h
      · cases h
      · cases h

theorem digestOf_strJson (digest : Bytes32) : digestOf (some (strJson digest)) = some digest :=
  matching_val digest

theorem release_opens {o : Order} {f : RecordedFill} {secret : Bytes32} {shareToken : Option Json}
    (hids : (s.orders.map Order.id).Nodup) (hmem : o ∈ sweepAll now s.orders)
    (huses : usesPortableTerminalProtocol o = true) (hf : o.fill = some f)
    (hprimary : o.orderDigest = some f.fill.orderDigest)
    (hsecret : computeReleaseCommitment E f.fill.orderDigest f.selectedIntent.auth.nonce secret =
      f.fill.releaseCommitment)
    (hshare : o.visibility = .priv → shareAuthorized E o shareToken = true) :
    ∃ p s', release E now o.id.val (releaseOf o f secret shareToken) s = .ok p s' := by
  have hfind : (s.swept now).order? o.id.val = some o :=
    order?_of_mem (s := s.swept now) ((sweepAll_ids now s.orders).nodup hids) hmem
  have hportable : ∃ p s',
    releasePortable E now o (releaseOf o f secret shareToken) false (s.swept now) = .ok p s' := by
    have hfillDigest :
      (releaseOf o f secret shareToken).get "fillDigest" = some (strJson f.digest) :=
      releaseOf_get o f secret shareToken "fillDigest"
    have hsecretField :
      (releaseOf o f secret shareToken).get "releaseSecret" = some (strJson secret) :=
      releaseOf_get o f secret shareToken "releaseSecret"
    have hintentDigest : (releaseOf o f secret shareToken).get "intentDigest" = none := by
      rw [releaseOf_get]
      cases o.visibility <;> rfl
    have hauthorized : ¬(false = false ∧ o.visibility = .priv ∧
        shareAuthorized E o ((releaseOf o f secret shareToken).get "shareToken") = false) := by
      rintro ⟨-, hpriv, hno⟩
      rw [releaseOf_get, if_pos hpriv] at hno
      have : (([("fillDigest", some (strJson f.digest)),
        ("releaseSecret", some (strJson secret))] ++
        [("shareToken", shareToken)]).lookup "shareToken").join = shareToken := rfl
      rw [this, hshare hpriv] at hno
      cases hno
    have hexact :=
      @releaseOf_exact o f secret shareToken fun hpriv => shareToken_of_authorized (hshare hpriv)
    have hfederated : ¬(false = true ∧ o.visibility ≠ .pub) := by simp
    have hone : ¬(true = false) := by simp
    have hfilter :
      (o.fill.filter fun g => digestOf (some (strJson f.digest)) = some g.digest) = some f := by
      rw [hf, digestOf_strJson]
      simp
    have hopens :
      ¬computeReleaseCommitment E f.fill.orderDigest f.selectedIntent.auth.nonce secret ≠
        f.fill.releaseCommitment := not_not.mpr hsecret
    unfold releasePortable
    simp only [hfillDigest, hintentDigest, hsecretField, Option.isSome_some,
      Option.isSome_none, if_true]
      at hexact hauthorized ⊢
    rw [bind_run, refuse, if_neg hfederated, check_ok]
    dsimp only
    rw [bind_run, refuse, if_neg hauthorized, check_ok]
    dsimp only
    rw [bind_run, refuse, if_neg hone, check_ok]
    dsimp only
    rw [hexact, bind_run, check_ok]
    dsimp only
    rw [digestOf_strJson, hprimary, orThrow, bind_run, check_ok]
    dsimp only
    rw [orThrow, bind_run, check_ok]
    dsimp only
    unfold releasePortableFill
    rw [hfilter, orThrow, bind_run, check_ok]
    dsimp only
    rw [bind_run, refuse, if_neg hopens, check_ok]
    dsimp only
    split
    · exact ⟨_, _, rfl⟩
    · exact ⟨_, _, rfl⟩
  obtain ⟨p, s', hok⟩ := hportable
  refine ⟨p, s', ?_⟩
  unfold release
  rw [sweep_bind_run, get_bind_run, bind_run, hfind]
  simp only [orThrow, check_ok, if_pos huses, hok]

/-- Where no proposal takes the place of a released one and every fill repeats the terms of
its order, a taker's release is never forgotten and can always be made. -/
theorem run_never_forgets (hcol : CollisionFree E) (is : List Step)
    (h : Along (World.step E) KeepsReleases World.start is) : NeverForgets E is := by
  have hstart : Tended E World.start := ⟨List.nodup_nil, fun o ho => absurd ho List.not_mem_nil⟩
  have htended : ∀ js, Along (World.step E) KeepsReleases World.start js →
    Tended E (run (World.step E) World.start js) :=
    fun js hjs => invariant_of_along (I := Tended E) (fun w i hw hi => hw.step hi) hjs hstart
  constructor
  · rintro before i after id body x rfl haccepted hnames hafter o ho hid f hf hselected seen
    rw [along_append] at h
    obtain ⟨hbefore, hi, hrest⟩ := h
    rw [run_snoc] at hafter
    have hrem := haccepted.remembers (htended before hbefore) hnames
    have hboth := along_and hrest hafter
    have hend := invariant_of_along
      (I := fun w => Tended E w ∧ ∃ o ∈ w.store.orders, o.id.val = id ∧ Remembers E x w.clock o)
      (fun w j hw hj => ⟨hw.1.step hj.1, Remembers.step hcol hw.1 hj.1 hj.2.1 hj.2.2 hw.2⟩) hboth
      ⟨(htended before hbefore).step hi, hrem⟩
    rw [run_append, run_cons] at ho
    obtain ⟨htend, o', ho', hid', hremembers⟩ := hend
    obtain rfl := List.inj_on_of_nodup_map htend.ids ho ho' (Subtype.ext (hid.trans hid'.symm))
    exact hremembers.shown f hf hselected
  · intro now hnow o ho f hf secret hsecret shareToken hshare
    have htend := htended is h
    obtain ⟨y, hy, hsweep⟩ := mem_sweepAll.mp ho
    have hreleased := htend.rows y hy
    have hprimary := hreleased.primary.sweep hsweep
    have huses : usesPortableTerminalProtocol o = true := by
      rw [sweepOrder_uses hsweep]
      rcases hreleased.row.kind with hlegacy | ⟨v, hsigned⟩
      · rw [(sweepOrder_kept hsweep).1, hlegacy.fill] at hf
        cases hf
      · exact hsigned.portable.uses
    exact release_opens htend.ids ho huses hf (hprimary f hf) hsecret hshare

end Promise

/-! ## A proposal that is released before its fill -/

section Filled

/-- The body of the release that a taker sends for its proposal. -/
def intentReleaseBody (digest secret : Bytes32) : Record :=
  object [("intentDigest", some (strJson digest)), ("releaseSecret", some (strJson secret))]

variable {E : Crypto} {now : SafeInt} {s : Store} {o : Order} {x secret orderDigest : Bytes32}
  {v : VerifiedOrderV1}
  {j : StoredFillIntentV1}

theorem release_intent (hids : (s.orders.map Order.id).Nodup) (hmem : o ∈ sweepAll now s.orders)
    (huses : usesPortableTerminalProtocol o = true) (hpublic : o.visibility = .pub)
    (hdigest : o.orderDigest = some orderDigest) (hnofill : o.fill = none)
    (hfind : findIntent o x = some j)
    (hfresh : j.release = none)
    (hopens : computeReleaseCommitment E orderDigest j.auth.nonce secret =
      j.intent.releaseCommitment) :
    ∃ p s', release E now o.id.val (intentReleaseBody x secret) s = .ok p s' ∧
      s'.orders = (sweepAll now s.orders).map fun y => if y.id = o.id then
        releaseIntent now x secret y else y := by
  have hfound : (s.swept now).order? o.id.val = some o :=
    order?_of_mem (s := s.swept now) ((sweepAll_ids now s.orders).nodup hids) hmem
  have hexact : exactPayload (intentReleaseBody x secret)
    ["intentDigest", "releaseSecret"] "release" = .ok ⟨⟩ := rfl
  have hx : digestOf ((intentReleaseBody x secret).get "intentDigest") = some x := matching_val x
  have hsecret : digestOf ((intentReleaseBody x secret).get "releaseSecret") = some secret :=
    matching_val secret
  have hnofillDigest : (intentReleaseBody x secret).get "fillDigest" = none := rfl
  have hintentDigest : ((intentReleaseBody x secret).get "intentDigest").isSome = true := rfl
  have hportable :
    ∃ p s', releasePortable E now o (intentReleaseBody x secret) false (s.swept now) = .ok p s' ∧
      s'.orders = (sweepAll now s.orders).map fun y => if y.id = o.id then
        releaseIntent now x secret y else y := by
    unfold releasePortable
    simp only [hpublic, hnofillDigest, hintentDigest, Option.isSome_none, Bool.false_eq_true,
      if_false, false_and,
      and_false, reduceCtorEq, List.append_nil, hsecret, hdigest, hexact]
    unfold releasePortableIntent
    simp [hx, hfind, hnofill, hfresh, hopens, bind_run, refuse, orThrow,
      StoredFillIntentV1.publicIntent]
    exact ⟨_, _, rfl, by simp⟩
  obtain ⟨p, s', hok, horders⟩ := hportable
  refine ⟨p, s', ?_, horders⟩
  unfold release
  rw [sweep_bind_run, get_bind_run, bind_run, hfound]
  simp only [orThrow, check_ok, if_pos huses, hok]

theorem releaseIntent_auths (j : StoredFillIntentV1)
    (hj : j ∈ (releaseIntent now x secret o).intents) :
    ∃ k ∈ o.intents, j.auth = k.auth := by
  rw [releaseIntent_intents] at hj
  obtain ⟨k, hk, rfl⟩ := List.mem_map.mp hj
  exact ⟨k, hk, congrArg PublicFillIntentV1.auth (withRelease_publicIntent x ⟨now, secret⟩ k)⟩

theorem Standing.releaseIntent (h : Standing E now v o) :
    Standing E now v (releaseIntent now x secret o) := by
  refine ⟨{ h.portable with retains := ?_ }, h.isOpen, h.clean, h.conflicts, rfl, h.nofill,
    h.nocancel⟩
  unfold Book.releaseIntent
  dsimp only
  rw [Option.isSome_map]
  exact h.portable.retains

/-- The taker of the first sample proposal releases it. -/
def swapRelease (id : OrderId) : Step :=
  ⟨sampleClock, sampleRandom 'a' lowerHex_a,
    .release id.val (intentReleaseBody (digitNonce 1) swapSecret)⟩

theorem swap_released {l : List Order} (hs : EndsIn sampleClock l o s)
    (h : Gathers swapCrypto sampleClock swapSigned swapProposal o [1]) :
    ∃ p s', release swapCrypto sampleClock o.id.val
      (intentReleaseBody (digitNonce 1) swapSecret) s = .ok p s' ∧
      World.step swapCrypto ⟨s, sampleClock⟩ (swapRelease o.id) = ⟨s', sampleClock⟩ ∧
      EndsIn sampleClock l (releaseIntent sampleClock (digitNonce 1) swapSecret o) s' := by
  have hfind : findIntent o (digitNonce 1) =
    some (received swapCrypto sampleClock (swapProposal 1)) := by
    unfold findIntent
    rw [h.intents, List.map_singleton, List.find?_cons_of_pos]
    exact decide_eq_true (digest_swapProposal (by decide))
  have hdigest : o.orderDigest = some (digitNonce 0) :=
    h.portable.digest.trans (congrArg some digest_swapSigned)
  obtain ⟨p, s', hok, horders⟩ :=
    release_intent hs.ids hs.mem h.portable.uses h.portable.visibility hdigest h.nofill
    hfind rfl (swap_commitment 1)
  refine ⟨p, s', hok, ?_, ?_⟩
  · unfold World.step Book.step
    change (⟨after
      (release swapCrypto sampleClock o.id.val (intentReleaseBody (digitNonce 1) swapSecret)) s,
      sampleClock⟩ : World) = ⟨s', sampleClock⟩
    unfold after
    rw [hok]
    rfl
  · refine hs.next (horders.trans (hs.map_last _)) rfl
      (h.toStanding.releaseIntent.swept (by decide) ?_)
    intro j hj
    obtain ⟨k, hk, hauth⟩ := releaseIntent_auths j hj
    rw [hauth]
    exact swap_retained h.intents k hk

theorem keepsReleases_idle {w : World} {i : Step} (hintent : i.call.intent? = none)
    (hfill : i.call.fill? = none) :
    KeepsReleases w i := by
  refine ⟨fun o _ intent auth hcall => ?_, fun o _ fill hcall => ?_⟩
  · rw [show (w.timed i).call.intent? = i.call.intent? from rfl, hintent] at hcall
    cases hcall
  · rw [hfill] at hcall
    cases hcall

/-- No proposal is displaced, since the row holds none. -/
theorem keepsReleases_proposal {o : Order} {s : Store} (hs : EndsIn sampleClock [] o s)
    (hempty : o.intents = []) :
    KeepsReleases ⟨s, sampleClock⟩
      (arrival sampleClock (fillIntentEvent o (swapProposal 1))) := by
  refine ⟨fun x hx _ _ _ hfull => ?_, fun _ _ _ hcall => (by cases hcall)⟩
  rw [timed_arrival (Nat.le_refl _),
    show (arrival sampleClock (fillIntentEvent o (swapProposal 1))).now = sampleClock from rfl,
    hs.sweepAll_eq, List.nil_append, List.mem_singleton] at hx
  rw [hx, hempty] at hfull
  exact absurd hfull (by decide)

/-- The fill names the digest that the row has. -/
theorem keepsReleases_fill {o : Order} {s : Store} (hs : EndsIn sampleClock [] o s)
    (hdigest : o.orderDigest = some swapVerifiedFill.fill.orderDigest) :
    KeepsReleases ⟨s, sampleClock⟩
      (arrival sampleClock (fillEvent o swapVerifiedFill (swapProposal 1))) := by
  refine ⟨fun _ _ _ _ hcall => (by cases hcall), fun x hx raw hcall => ?_⟩
  have hbrings := fillEvent_fill? o swapVerifiedFill (swapProposal 1) "peer"
  rw [show (arrival sampleClock (fillEvent o swapVerifiedFill (swapProposal 1))).call.fill? = _
    from hbrings, Option.some.injEq, Prod.mk.injEq] at hcall
  rw [show x = o by simpa [hs.orders] using hx, ← hcall.2]
  exact hdigest

/-- A peer's order, a proposal for it, the release of the proposal and the fill that selects it: the
fill is shown released. -/
theorem run_never_forgets_swap : ∃ is, NeverForgets swapCrypto is ∧
    ∃ o ∈ (run (World.step swapCrypto) World.start is).store.orders, ∃ f ∈ o.fill,
      f.selectedIntent.intentDigest = digitNonce 1 ∧
      ∀ seen, (publicOrder o seen).released = true := by
  obtain ⟨o₀, hdraft⟩ := swap_draft
  obtain ⟨s₀, hstep₀, hs₀, ho₀, -⟩ :=
    swap_listed (w := World.start) (l := []) (by decide) List.nodup_nil rfl hdraft
  obtain ⟨s₁, o₁, hstep₁, hs₁, ho₁, -⟩ := swap_proposed (k := 1) hs₀ ho₀ (by decide)
    (fun _ h => absurd h List.not_mem_nil) (by decide)
  obtain ⟨p, s₂, hrelease, hstep₂, hs₂⟩ := swap_released hs₁ ho₁
  -- The release stands with the proposal, which the sweep of the fill still keeps.
  have hretained : ∀ j ∈ (releaseIntent sampleClock (digitNonce 1) swapSecret o₁).intents,
      sampleClock.val < j.auth.expiresAt.val + signedIntentRetentionS := by
    intro j hj
    obtain ⟨k, hk, hauth⟩ := releaseIntent_auths j hj
    rw [hauth]
    exact swap_retained ho₁.intents k hk
  obtain ⟨s₃, hstep₃, hs₃⟩ := swap_filled hs₂ ho₁.toStanding.releaseIntent hretained
  generalize ho₂ : releaseIntent sampleClock (digitNonce 1) swapSecret o₁ = o₂ at hs₂ hs₃ hstep₃
  have hid₂ : o₂.id = o₁.id := by rw [← ho₂]; rfl
  generalize ho₃ : recordFill sampleClock swapVerifiedFill _ o₂ = o₃ at hs₃
  set listing := arrival sampleClock (orderEvent sampleOrder.record swapAuth)
  set request := arrival sampleClock (fillIntentEvent o₀ (swapProposal 1))
  set fill := arrival sampleClock (fillEvent o₂ swapVerifiedFill (swapProposal 1))
  have hkeeps : Along (World.step swapCrypto) KeepsReleases World.start [listing, request,
    swapRelease o₁.id, fill] := by
    refine ⟨keepsReleases_idle rfl rfl, ?_, keepsReleases_idle rfl rfl, ?_, trivial⟩
    · rw [hstep₀]
      exact keepsReleases_proposal hs₀ ho₀.intents
    · rw [hstep₀, hstep₁, hstep₂]
      refine keepsReleases_fill hs₂ ?_
      rw [← ho₂]
      exact ho₁.portable.digest.trans (congrArg some digest_swapSigned)
  have hrun₁ : run (World.step swapCrypto) World.start [listing, request] = ⟨s₁, sampleClock⟩ := by
    rw [run_cons, hstep₀, run_cons, hstep₁, run_nil]
  have hrun₂ : run (World.step swapCrypto) World.start ([listing, request] ++ [swapRelease o₁.id]) =
      ⟨s₂, sampleClock⟩ := by
    rw [run_append, hrun₁, run_cons, hstep₂, run_nil]
  have hrun₃ : run (World.step swapCrypto) World.start [listing, request, swapRelease o₁.id, fill] =
      ⟨s₃, sampleClock⟩ := by
    rw [run_cons, hstep₀, run_cons, hstep₁, run_cons, hstep₂, run_cons, hstep₃, run_nil]
  have hnever := run_never_forgets swapCrypto_collisionFree _ hkeeps
  have hlast : o₃ ∈ s₃.orders := hs₃.orders ▸ List.mem_append_right _ (List.mem_singleton_self _)
  have haccepted :
    AcceptsRelease swapCrypto (run (World.step swapCrypto) World.start [listing, request])
      (swapRelease o₁.id) o₁.id.val (intentReleaseBody (digitNonce 1) swapSecret) := by
    rw [hrun₁]
    exact .direct _ _ p rfl (by rw [hstep₂]; exact hrelease)
  have hnamed : ∃ o ∈ (run (World.step swapCrypto) World.start [listing, request]).store.orders,
    o.id.val = o₁.id.val ∧
      usesPortableTerminalProtocol o = true ∧
        NamesIntent o (intentReleaseBody (digitNonce 1) swapSecret)
        (digitNonce 1) := by
    rw [hrun₁]
    exact ⟨o₁, hs₁.orders ▸ List.mem_append_right _ (List.mem_singleton_self _), rfl,
      ho₁.portable.uses,
      .inl (digestOf_strJson (digitNonce 1))⟩
  have hheld : Along (World.step swapCrypto) (fun w i => Held o₁.id.val w i ∧
    TimelyFill swapCrypto o₁.id.val
      (digitNonce 1) w i) (run (World.step swapCrypto) World.start
        ([listing, request] ++ [swapRelease o₁.id])) [fill] := by
    rw [hrun₂]
    refine ⟨⟨⟨o₂, ?_, congrArg (fun n : OrderId => n.val) hid₂⟩, ?_⟩, trivial⟩
    · rw [timed_arrival (Nat.le_refl _)]
      exact hs₂.mem
    · intro x _ x' hx' _ _ _ f hf _
      rw [hstep₃, hs₃.orders, List.nil_append, List.mem_singleton] at hx'
      rw [hx', ← ho₃] at hf
      cases hf
      rw [timed_arrival (Nat.le_refl _)]
      exact (by decide : sampleClock.val ≤ swapFillAuth.expiresAt.val)
  have hselected : ∃ f ∈ o₃.fill, f.selectedIntent.intentDigest = digitNonce 1 := by
    rw [← ho₃]
    exact ⟨_, rfl, (selectedSource_intentDigest _ _ _ _).trans (digest_swapProposal (by decide))⟩
  obtain ⟨f, hf, hselected⟩ := hselected
  refine ⟨_, hnever, o₃, by rw [hrun₃]; exact hlast, f, hf, hselected, ?_⟩
  refine hnever.shown [listing, request] (swapRelease o₁.id)
    [fill] o₁.id.val _ (digitNonce 1) rfl haccepted hnamed hheld
    o₃ (by rw [hrun₃]; exact hlast) ?_ f hf hselected
  rw [← ho₃]
  exact congrArg (fun n : OrderId => n.val) hid₂

end Filled

/-! ## A fill on other terms -/

section Refused

variable {E : Crypto} {now : SafeInt} {s : Store} {o : Order} {f : RecordedFill}
  {secret orderDigest : Bytes32}
  {body : Record}

theorem release_refuses (hids : (s.orders.map Order.id).Nodup) (hmem : o ∈ sweepAll now s.orders)
    (huses : usesPortableTerminalProtocol o = true) (hf : o.fill = some f)
    (hintents : o.intents = [])
    (hdigest : o.orderDigest = some orderDigest)
    (hcommitment : f.selectedIntent.intent.releaseCommitment = f.fill.releaseCommitment)
    (hcloses : computeReleaseCommitment E orderDigest f.selectedIntent.auth.nonce secret ≠
      f.fill.releaseCommitment)
    (hsecret : digestOf (body.get "releaseSecret") = some secret) (p : PublicOrder) (s' : Store) :
    release E now o.id.val body s ≠ .ok p s' := by
  have hfind : (s.swept now).order? o.id.val = some o :=
    order?_of_mem (s := s.swept now) ((sweepAll_ids now s.orders).nodup hids) hmem
  intro h
  simp only [release, sweep_bind_run, get_bind_run, run_bind_ok, check_run_ok, orThrow_eq_ok, hfind,
    Option.some.injEq] at h
  obtain ⟨_, _, ⟨rfl, rfl⟩, h⟩ := h
  rw [if_pos huses] at h
  simp only [releasePortable, run_bind_ok, check_run_ok, orThrow_eq_ok, hsecret, hdigest,
    Option.some.injEq] at h
  obtain ⟨_, _, -, _, _, -, _, _, -, _, _, -, _, _, ⟨rfl, -⟩, _, _, ⟨rfl, -⟩, h⟩ := h
  split at h
  · simp only [releasePortableFill, run_bind_ok, check_run_ok, orThrow_eq_ok, refuse_eq_ok, hf,
      Option.filter_eq_some_iff, Option.some.injEq] at h
    obtain ⟨_, _, ⟨⟨rfl, -⟩, -⟩, _, _, ⟨hopens, -⟩, -⟩ := h
    exact hopens hcloses
  · have hnone : ∀ digest, findIntent o digest = none := by
      intro digest
      rw [findIntent, hintents]
      rfl
    simp only [releasePortableIntent, run_bind_ok, check_run_ok, orThrow_eq_ok, refuse_eq_ok, hnone,
      hf, Option.map_none,
      Option.none_or, Option.map_some, Option.filter_eq_some_iff, Option.some.injEq] at h
    obtain ⟨_, _, -, _, _, ⟨⟨rfl, -⟩, -⟩, _, _, ⟨hopens, -⟩, -⟩ := h
    rw [hcommitment] at hopens
    exact hopens hcloses

end Refused

section Sample

/-- `releaseSecret` and `requestNonce` of the sample proposal. -/
def sampleSecret : Bytes32 := repeated 64 '7' lowerHex_seven

def sampleNonce : Bytes32 := repeated 64 '9' (by decide)

/-- What the sample proposal commits to, on the terms with this digest. -/
def samplePreimage (orderDigest : Bytes32) : List UInt8 :=
  utf8 releasePrefix ++ getBytes orderDigest ++ getBytes sampleNonce ++ getBytes sampleSecret

/-- Statements other than the sample order hash to twos, and so does the sample
commitment on other terms; the rest hashes to ones. -/
def variantCrypto : Crypto where
  sha256 bytes :=
    let other := if bytes[11]? = some 80 then decide (bytes ≠ orderMessage sampleOrder sampleAuth)
      else decide (bytes = samplePreimage (repeated 64 '2' lowerHex_two))
    hexOf (if other then repeated 64 '2' lowerHex_two else repeated 64 '1' lowerHex_one)
  shake256 _ := []
  verifyMessageForSigner _ _ _ _ _ := true

/-- The sample order for twice the price. -/
def sampleVariant : OrderV1Body :=
  { sampleOrder with toAmount := ⟨"2000000000000000000", by decide +kernel⟩ }

theorem orderMessage_eleventh (body : OrderV1Body) (auth : MakerOrderAuthV1) :
    (orderMessage body auth)[11]? = some 80 := by
  obtain ⟨rest, hrest⟩ := messageBytes_prefix (orderTerms_encodes body auth)
  have hprefix : (utf8 messagePrefix)[11]? = some 80 := by decide +kernel
  rw [orderMessage, hrest, List.getElem?_append_left]
  · exact hprefix
  · exact (List.getElem?_eq_some_iff.mp hprefix).1

theorem orderMessage_toAmount {body body' : OrderV1Body} {auth auth' : MakerOrderAuthV1}
    (h : orderMessage body auth = orderMessage body' auth') : body.toAmount = body'.toAmount := by
  have hbytes := protocolMessageBytes_eq (orderTerms_encodes body auth)
  have hbytes' := protocolMessageBytes_eq (orderTerms_encodes body' auth')
  rw [show messageBytes (buildPayload .OrderV2 (orderTerms body auth)) =
    messageBytes (buildPayload .OrderV2 (orderTerms body' auth')) from h] at hbytes
  obtain ⟨-, rows, hrows, hrows'⟩ := protocolMessageBytes_injective hbytes hbytes'
  have hmem : ∀ {field : WireField}, field ∈ PrimaryType.fields .OrderV2 →
      field ∈ PrimaryType.fields (buildPayload .OrderV2 (orderTerms body auth)).primaryType := id
  exact Subtype.ext
    (str_of_wireRows hrows hrows' (hmem (show ("toAmount", .uint 256) ∈ _ by decide)) rfl rfl)

theorem digest_sampleOrder :
    (signedOrder variantCrypto sampleOrder sampleAuth).orderDigest =
      repeated 64 '1' (by decide) := by
  simp only [signedOrder, digestOfMessage, variantCrypto, orderMessage_eleventh, if_true, ne_eq,
    not_true_eq_false,
    decide_false, Bool.false_eq_true]
  exact prefixed_hexOf _

theorem digest_sampleVariant :
    (signedOrder variantCrypto sampleVariant sampleAuth).orderDigest =
      repeated 64 '2' (by decide) := by
  have hother : orderMessage sampleVariant sampleAuth ≠ orderMessage sampleOrder sampleAuth := by
    intro h
    have hamount := orderMessage_toAmount h
    revert hamount
    decide +kernel
  simp only [signedOrder, digestOfMessage, variantCrypto, orderMessage_eleventh, if_true,
    ne_eq, hother,
    not_false_eq_true, decide_true]
  exact prefixed_hexOf _

def sampleIntent : FillIntentV1Body where
  orderDigest := repeated 64 '2' lowerHex_two
  takerEthAccount := ⟨"0x" ++ String.ofList (List.replicate 40 '8'), by decide +kernel⟩
  takerQrlAccount := ⟨"Q" ++ String.ofList (List.replicate 128 '8'), by decide +kernel⟩
  releaseCommitment :=
    computeReleaseCommitment variantCrypto (repeated 64 '2' lowerHex_two) sampleNonce sampleSecret

theorem sampleExpiry_safe : 1000100 ≤ maxSafeInteger := by decide

def sampleIntentAuth : ProtocolAuthV1 :=
  { sampleAuth.toProtocolAuthV1 with expiresAt := ⟨1000100, sampleExpiry_safe⟩, nonce := sampleNonce }

def sampleFillAuth : ProtocolAuthV1 :=
  { sampleAuth.toProtocolAuthV1 with expiresAt := ⟨1000600, sampleFillExpiry_safe⟩ }

def sampleFill : FillV1Body where
  orderDigest := repeated 64 '2' lowerHex_two
  intentDigest := (signedIntent variantCrypto sampleIntent sampleIntentAuth).intentDigest
  takerEthAccount := sampleIntent.takerEthAccount
  takerQrlAccount := sampleIntent.takerQrlAccount
  releaseCommitment := sampleIntent.releaseCommitment
  hashlock := sampleHashlock
  initiatorTimeout := ⟨1020000, sampleTimeout_safe⟩
  responderTimeout := ⟨1005000, sampleResponder_safe⟩
  hashlock_ne := sampleHashlock_ne

theorem sample_orderProof (body : OrderV1Body) (hpub : body.visibility = .pub)
    (hprelock : body.prelock = sampleOrder.prelock) :
    OrderProof variantCrypto sampleClock (signedOrder variantCrypto body sampleAuth) := by
  have hrules : OrderRules sampleClock true body sampleAuth := by
    refine ⟨by decide, by decide, by decide, by decide, ?_, by decide +kernel, iff_of_true hpub rfl⟩
    intro p hp
    rw [hprelock] at hp
    cases hp
    decide
  exact checkOrderV1_eq_ok.mpr ⟨hrules, rfl, rfl⟩

theorem sample_intentProof : IntentProof variantCrypto sampleClock
    (signedOrder variantCrypto sampleVariant sampleAuth)
    (signedIntent variantCrypto sampleIntent sampleIntentAuth) :=
  checkFillIntentV1_eq_ok.mpr ⟨⟨digest_sampleVariant.symm, by simp, by decide, by decide, by decide,
    by decide, by decide,
    by simp, (fun _ h => by cases h), (fun _ h => by cases h)⟩, rfl, rfl⟩

theorem sample_fillProof : FillProof variantCrypto sampleClock
    (signedOrder variantCrypto sampleVariant sampleAuth)
    (signedIntent variantCrypto sampleIntent sampleIntentAuth)
    (signedFill variantCrypto sampleFill sampleFillAuth
      (signedOrder variantCrypto sampleVariant sampleAuth)) := by
  refine checkFillV1_eq_ok.mpr ⟨⟨digest_sampleVariant.symm, by simp, by decide, rfl, rfl, rfl, rfl,
    rfl, by decide,
    by decide, by decide, by decide, by simp, by decide, by decide, by
      decide, (fun h => by cases h), by decide,
    ?_, fun _ => ⟨by decide, by simp⟩⟩, rfl, rfl⟩
  intro p hp
  cases hp
  exact ⟨rfl, rfl⟩

set_option maxRecDepth 10000 in
theorem sample_draft :
    ∃ o, draftOrder variantCrypto [] sampleClock sampleOrder.record ("federation:" ++ "peer")
    (.federated (signedOrder variantCrypto sampleOrder sampleAuth) "peer")
    (sampleRandom 'a' (by decide)) = .ok o := by
  have h : (match draftOrder variantCrypto [] sampleClock sampleOrder.record
    ("federation:" ++ "peer")
    (.federated (signedOrder variantCrypto sampleOrder sampleAuth) "peer")
      (sampleRandom 'a' (by decide)) with
    | .ok _ => true
    | .error _ => false) = true := by decide +kernel
  cases hr : draftOrder variantCrypto [] sampleClock sampleOrder.record ("federation:" ++ "peer")
    (.federated (signedOrder variantCrypto sampleOrder sampleAuth) "peer")
      (sampleRandom 'a' (by decide)) with
  | ok o => exact ⟨o, rfl⟩
  | error e => rw [hr] at h; cases h

theorem sweep_sample {o : Order} (hauth : o.makerAuth = some sampleAuth)
    (hupdated : o.updatedAt = sampleClock)
    (hintents : o.fillIntents = some [])
    (hstatus : o.status = .open ∨ o.status = .cancelled ∨
      (o.status = .locking ∧ o.initiatorTimeout = some 1020000)) :
    sweepAll sampleClock [o] = [o] := by
  have hstale : dropStaleIntents sampleClock o = o := by
    unfold dropStaleIntents
    rw [hintents]
    cases o
    cases hintents
    rfl
  have hexpires : expires sampleClock o = false := by
    unfold expires
    rw [hupdated, hauth]
    rcases hstatus with h | h | ⟨h, -⟩ <;> rw [h] <;> decide
  have hremovable : removable sampleClock o = false := by
    unfold removable
    rw [hupdated, hauth]
    rcases hstatus with h | h | ⟨h, htimeout⟩
    · rw [h]
    · rw [h]
      exact (by decide : decide (sampleAuth.expiresAt.val + signedTerminalGraceS < sampleClock.val ∧
        signedTerminalGraceS < sampleClock.val - sampleClock.val) = false)
    · rw [h, htimeout]
      exact (by decide : decide ((1020000 : Int) + lockingLingerS < sampleClock.val) = false)
  unfold sweepAll
  rw [List.filterMap_cons, sweepOrder_eq, hexpires, hremovable, hstale]
  rfl

theorem sample_recorded :
    ∃ is o, (run (World.step variantCrypto) World.start is).store.orders = [o] ∧
    o.makerAuth = some sampleAuth ∧ o.updatedAt = sampleClock ∧ o.fillIntents = some [] ∧
    o.status = .locking ∧
    o.initiatorTimeout = some 1020000 ∧ o.orderDigest = some (repeated 64 '1' (by decide)) ∧
    ∃ f, o.fill = some f ∧ f.fill = sampleFill ∧ f.selectedIntent.intent = sampleIntent ∧
      f.selectedIntent.auth = sampleIntentAuth := by
  obtain ⟨o, hdraft⟩ := sample_draft
  obtain ⟨terms, listing, prelock, hterms, hvisibility, hprelock, ho⟩ := draftOrder_new hdraft
  have hopen : sampleOrder.Unrestricted ∧ sampleVariant.Unrestricted :=
    ⟨fun _ => ⟨rfl, rfl⟩, fun _ => ⟨rfl, rfl⟩⟩
  have hrow := draftOrder_signed (v := signedOrder variantCrypto sampleOrder sampleAuth) rfl
    (sample_orderProof sampleOrder rfl rfl) hopen.1 hdraft
  have hvariant := sample_orderProof sampleVariant rfl rfl
  have hid : o.id = signedOrderId (signedOrder variantCrypto sampleVariant sampleAuth).orderId :=
    by rw [ho]; rfl
  have hpublic : o.visibility = .pub := hrow.portable.visibility
  have hdigest : (signedOrder variantCrypto sampleOrder sampleAuth).orderDigest ≠
      (signedOrder variantCrypto sampleVariant sampleAuth).orderDigest := by
    rw [digest_sampleOrder, digest_sampleVariant]
    intro h
    have hval := congrArg (fun b : Bytes32 => b.val) h
    revert hval
    decide +kernel
  have hnodup : ∀ x : Order, ([x].map Order.id).Nodup := fun x => List.nodup_singleton _
  have hmap : ∀ (x : Order) (f : Order → Order), ([x].map fun y => if y.id = x.id then f y else y) =
    [f x] := by
    intro x f
    rw [List.map_singleton, if_pos rfl]
  -- The first order becomes a row.
  have h₁ := import_new (s := World.start.store) (sample_orderProof sampleOrder rfl rfl) hopen.1 rfl
    (by decide : federationSourceRe "peer" = true) (fun _ h => by cases h) hdraft
  have hswept₁ : sweepAll sampleClock [o] = [o] := by
    rw [ho]
    exact sweep_sample rfl rfl rfl (.inl rfl)
  rw [show sweepAll sampleClock World.start.store.orders ++ [o] = [o] from rfl] at h₁
  generalize hs₁ : after _ _ = s₁ at h₁
  -- The second one stays with it and closes it.
  have hother :
    o.orderDigest ≠ some (signedOrder variantCrypto sampleVariant sampleAuth).orderDigest := by
    rw [hrow.portable.digest, ne_eq, Option.some.injEq]
    exact hdigest
  have hunknown : (signedOrder variantCrypto sampleVariant sampleAuth).orderDigest ∉
      o.orderConflicts.map OrderConflictEvidence.orderDigest := by
    rw [ho]
    exact List.not_mem_nil
  have h₂ := import_conflict "peer" (sampleRandom 'a' (by decide)) (s := s₁) (o := o) hvariant
    hopen.2 rfl (h₁ ▸ hnodup o)
      (by rw [h₁, hswept₁]; exact List.mem_singleton_self o) hid hother hunknown
  rw [h₁, hswept₁, hmap] at h₂
  have hrow₂ : SignedRow variantCrypto sampleClock
    (signedOrder variantCrypto sampleOrder sampleAuth)
      (addOrderConflict (signedOrder variantCrypto sampleVariant sampleAuth) sampleClock o) :=
    ⟨hrow.portable.orderConflict _, hrow.outcome.orderConflict _,
      hrow.retained.orderConflict hvariant hopen.2 rfl hid hdigest hunknown⟩
  generalize hs₂ : after _ s₁ = s₂ at h₂
  have hswept₂ :
    sweepAll sampleClock [addOrderConflict
      (signedOrder variantCrypto sampleVariant sampleAuth) sampleClock o] =
      [addOrderConflict (signedOrder variantCrypto sampleVariant sampleAuth) sampleClock o] := by
    rw [ho]
    exact sweep_sample rfl rfl rfl (.inr (.inl rfl))
  generalize ho₂ :
    addOrderConflict (signedOrder variantCrypto sampleVariant sampleAuth) sampleClock o = o₂ at *
  -- The fill of the second one is recorded.
  have h₃ := import_fill "peer" (sampleRandom 'a' (by decide)) (s := s₂) (o := o₂)
    (h₂ ▸ hnodup o₂)
      (by rw [h₂, hswept₂]; exact List.mem_singleton_self o₂) hrow₂.portable.visibility
    hrow₂.portable.uses
    (referenced_variant hrow₂ (by rw [← ho₂, ho]; rfl) hvariant hopen.2
      (by rw [← ho₂]; exact hid.symm)
      (by rw [← ho₂, ho]; rfl) hdigest digest_sampleVariant.symm)
    sample_intentProof sample_fillProof (.inr (by rw [← ho₂, ho]; rfl)) (by rw [← ho₂, ho]; rfl)
    (by rw [← ho₂, ho]; rfl)
  rw [h₂, hswept₂, hmap] at h₃
  refine ⟨[arrival sampleClock
    (orderEvent (signedOrder variantCrypto sampleOrder sampleAuth).order.record
      (signedOrder variantCrypto sampleOrder sampleAuth).auth),
    arrival sampleClock
      (orderEvent (signedOrder variantCrypto sampleVariant sampleAuth).order.record
      (signedOrder variantCrypto sampleVariant sampleAuth).auth),
    arrival sampleClock (fillEvent o₂
      (signedFill variantCrypto sampleFill sampleFillAuth
        (signedOrder variantCrypto sampleVariant sampleAuth))
      (signedIntent variantCrypto sampleIntent sampleIntentAuth))],
    recordFill sampleClock
      (signedFill variantCrypto sampleFill sampleFillAuth
        (signedOrder variantCrypto sampleVariant sampleAuth))
      (selectedSource variantCrypto sampleClock o₂
        (signedIntent variantCrypto sampleIntent sampleIntentAuth)) o₂,
    ?_, ?_⟩
  · rw [run_cons, step_arrival (by decide), run_cons, step_arrival (Nat.le_refl _), run_cons,
      step_arrival (Nat.le_refl _), run_nil]
    dsimp only
    rw [hs₁, hs₂, h₃]
  · subst ho₂ ho
    exact ⟨rfl, rfl, rfl, rfl, rfl, digest_sampleOrder ▸ rfl, _, rfl, rfl, rfl, rfl⟩

/-- The secret that the recorded fill commits to opens nothing at this book. -/
theorem variantFill_closed :
    ∃ is, ∃ o ∈ (run (World.step variantCrypto) World.start is).store.orders, ∃ f ∈ o.fill,
    computeReleaseCommitment variantCrypto f.fill.orderDigest f.selectedIntent.auth.nonce
      sampleSecret =
        f.fill.releaseCommitment ∧
      ∀ body, digestOf (body.get "releaseSecret") = some sampleSecret → ∀ p s',
        release variantCrypto sampleClock o.id.val body
          (run (World.step variantCrypto) World.start is).store ≠
          .ok p s' := by
  obtain ⟨is, o, horders, hauth, hupdated, hintents, hstatus, htimeout, hdigest, f, hf, hfill,
    hintent, hnonce⟩ :=
    sample_recorded
  have hmem : o ∈ (run (World.step variantCrypto) World.start is).store.orders := by
    rw [horders]
    exact List.mem_singleton_self o
  have hswept :
    o ∈ sweepAll sampleClock (run (World.step variantCrypto) World.start is).store.orders := by
    rw [horders, sweep_sample hauth hupdated hintents (.inr (.inr ⟨hstatus, htimeout⟩))]
    exact List.mem_singleton_self o
  have hcloses :
    computeReleaseCommitment variantCrypto (repeated 64 '1' (by decide)) sampleNonce sampleSecret ≠
      computeReleaseCommitment variantCrypto
        (repeated 64 '2' (by decide)) sampleNonce sampleSecret := by
    intro h
    have hval := congrArg (fun b : Bytes32 => b.val) h
    revert hval
    decide +kernel
  refine ⟨is, o, hmem, f, hf, ?_, ?_⟩
  · rw [hfill, hnonce]
    rfl
  · intro body hsecret p s'
    refine release_refuses (run_ids _ is) hswept ?_ hf ?_ hdigest ?_ ?_ hsecret p s'
    · simp [usesPortableTerminalProtocol, hauth, hintents]
    · simp [Order.intents, hintents]
    · rw [hfill, hintent]
      rfl
    · rw [hfill, hnonce]
      exact hcloses

end Sample

end QuantaSwap.Book
