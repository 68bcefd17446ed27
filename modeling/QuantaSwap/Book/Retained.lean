import QuantaSwap.Book.Rows

/-!
# Proposals, conflicts, and the invariant of a row

What a signed row retains was verified against the order it was created from.
With that, every row of every run is one of the two kinds.
-/

set_option autoImplicit false

namespace QuantaSwap.Book

open Lib.Js Lib.Text Lib.Checks Lib.Run

/-! ## Retained proposals and conflicts -/

section Retained

variable (E : Crypto) (now : SafeInt) (v : VerifiedOrderV1)

/-- The evidence is a signed order under the id of the row. -/
def ConflictProof (id : OrderId) (c : OrderConflictEvidence) : Prop :=
  ∃ w : VerifiedOrderV1, OrderProof E now w ∧ w.order.Unrestricted ∧ w.order.visibility = .pub ∧
    id = signedOrderId w.orderId ∧ c = ⟨w.orderDigest, w.order, w.auth⟩

/-- The secret that a proposal was released with opens its commitment. -/
def ReleaseProof (j : StoredFillIntentV1) : Prop :=
  ∀ r ∈ j.release,
    computeReleaseCommitment E v.orderDigest j.auth.nonce r.releaseSecret =
      j.intent.releaseCommitment

/-- What a signed row retains beside its terminal. -/
structure Retained (o : Order) : Prop where
  intents_le : o.intents.length ≤ maxFillIntentsPerOrder
  digests : (o.intents.map StoredFillIntentV1.intentDigest).Nodup
  nonces : (o.intents.map fun j => j.auth.nonce).Nodup
  proofs : ∀ j ∈ o.intents, IntentProof E now v j.verified
  releases : ∀ j ∈ o.intents, ReleaseProof E v j
  conflicts_le : o.conflicts.length ≤ maxConflictProofs
  conflicts : (o.conflicts.map TerminalConflictEvidence.digest).Nodup
  terminals : (∀ f ∈ o.fill, f.digest ∉ o.conflicts.map TerminalConflictEvidence.digest) ∧
    ∀ c ∈ o.cancel, c.digest ∉ o.conflicts.map TerminalConflictEvidence.digest
  orderConflicts_le : o.orderConflicts.length ≤ maxConflictProofs
  orderConflicts : (o.orderConflicts.map OrderConflictEvidence.orderDigest).Nodup
  primary : v.orderDigest ∉ o.orderConflicts.map OrderConflictEvidence.orderDigest
  variants : ∀ c ∈ o.orderConflicts, ConflictProof E now o.id c

end Retained

section Retained

variable {E : Crypto} {now now' : SafeInt} {v : VerifiedOrderV1} {i : Step} {o o' : Order}

theorem ConflictProof.later {id : OrderId} {c : OrderConflictEvidence}
    (h : ConflictProof E now id c)
    (hnow : now.val ≤ now'.val) : ConflictProof E now' id c := by
  obtain ⟨w, hproof, hrest⟩ := h
  exact ⟨w, hproof.later hnow, hrest⟩

theorem Retained.later (h : Retained E now v o) (hnow : now.val ≤ now'.val) : Retained E now' v o :=
  { h with
    proofs := fun j hj => (h.proofs j hj).later hnow
    variants := fun c hc => (h.variants c hc).later hnow }

section Capped

variable {α : Type} {l : List α} {a : α}

theorem pushCapped_sublist : (pushCapped l a).Sublist (l ++ [a]) := List.drop_sublist _ _

theorem pushCapped_length : (pushCapped l a).length ≤ maxConflictProofs := by
  simp only [pushCapped, List.length_drop]
  omega

theorem mem_pushCapped {x : α} (h : x ∈ pushCapped l a) : x ∈ l ∨ x = a := by
  have := pushCapped_sublist.mem h
  simpa using this

theorem pushCapped_map_nodup {β : Type} {f : α → β} (h : (l.map f).Nodup) (hnew : f a ∉ l.map f) :
    ((pushCapped l a).map f).Nodup := by
  refine (pushCapped_sublist.map f).nodup ?_
  rw [List.map_append, List.nodup_append]
  refine ⟨h, List.nodup_singleton _, ?_⟩
  intro x hx y hy
  rw [List.map_singleton, List.mem_singleton] at hy
  rintro rfl
  exact hnew (hy ▸ hx)

theorem notMem_pushCapped_map {β : Type} {f : α → β} {b : β} (h : b ∉ l.map f) (hne : f a ≠ b) :
    b ∉ (pushCapped l a).map f := by
  intro hb
  obtain ⟨x, hx, rfl⟩ := List.mem_map.mp hb
  rcases mem_pushCapped hx with hx | rfl
  · exact h (List.mem_map_of_mem hx)
  · exact hne rfl

end Capped

theorem Retained.of_empty (hintents : o.intents = []) (hconflicts : o.conflicts = [])
    (horders : o.orderConflicts = []) : Retained E now v o := by
  constructor <;> simp [hintents, hconflicts, horders]

theorem Retained.of_sublist (h : Retained E now v o) (hsub : o'.intents.Sublist o.intents)
    (hfill : o'.fill = o.fill) (hcancel : o'.cancel = o.cancel) (hid : o'.id = o.id)
    (hconflicts : o'.conflicts = o.conflicts) (horders : o'.orderConflicts = o.orderConflicts) :
    Retained E now v o' where
  intents_le := hsub.length_le.trans h.intents_le
  digests := (hsub.map _).nodup h.digests
  nonces := (hsub.map _).nodup h.nonces
  proofs := fun j hj => h.proofs j (hsub.mem hj)
  releases := fun j hj => h.releases j (hsub.mem hj)
  conflicts_le := hconflicts ▸ h.conflicts_le
  conflicts := hconflicts ▸ h.conflicts
  terminals := by rw [hfill, hcancel, hconflicts]; exact h.terminals
  orderConflicts_le := horders ▸ h.orderConflicts_le
  orderConflicts := horders ▸ h.orderConflicts
  primary := horders ▸ h.primary
  variants := by rw [horders, hid]; exact h.variants

theorem dropStaleIntents_intents (now : SafeInt) (o : Order) :
    (dropStaleIntents now o).intents = retainedIntents now o.intents := by
  unfold dropStaleIntents Order.intents
  cases o.fillIntents <;> rfl

theorem Retained.sweep (h : Retained E now v o) (hsweep : sweepOrder now o = some o') :
    Retained E now v o' := by
  have hsub : (dropStaleIntents now o).intents.Sublist o.intents := by
    rw [dropStaleIntents_intents]
    exact List.filter_sublist
  rcases sweepOrder_cases hsweep with ⟨rfl, -⟩ | rfl
  · exact h.of_sublist hsub rfl rfl rfl rfl rfl
  · exact h.of_sublist hsub rfl rfl rfl rfl rfl

theorem Retained.orderConflict (h : Retained E now v o) {verified : VerifiedOrderV1}
    (hproof : OrderProof E now verified) (hopen : verified.order.Unrestricted)
    (hpublic : verified.order.visibility = .pub) (hid : o.id = signedOrderId verified.orderId)
    (hdigest : v.orderDigest ≠ verified.orderDigest)
    (hnew : verified.orderDigest ∉ o.orderConflicts.map OrderConflictEvidence.orderDigest) :
    Retained E now v (addOrderConflict verified now o) := by
  refine { h with
    orderConflicts_le := pushCapped_length
    orderConflicts := ?_
    primary := ?_
    variants := ?_ }
  · exact pushCapped_map_nodup h.orderConflicts hnew
  · exact notMem_pushCapped_map h.primary hdigest.symm
  · intro c hc
    rcases mem_pushCapped hc with hc | rfl
    · exact h.variants c hc
    · exact ⟨verified, hproof, hopen, hpublic, hid, rfl⟩

theorem mem_of_firstToEvict {l : List StoredFillIntentV1} {j : StoredFillIntentV1}
    (h : firstToEvict l = some j) :
    j ∈ l := by
  induction l generalizing j with
  | nil => cases h
  | cons k l ih =>
    unfold firstToEvict at h
    split at h
    · cases h
      exact List.mem_cons_self
    · rename_i best hbest
      cases h
      split
      · exact List.mem_cons_of_mem _ (ih hbest)
      · exact List.mem_cons_self

theorem makeRoom_eq_ok {intents kept : List StoredFillIntentV1} {verified : VerifiedFillIntentV1}
    (h : makeRoom now intents verified = .ok kept) (hle : intents.length ≤ maxFillIntentsPerOrder) :
    kept.Sublist intents ∧ kept.length < maxFillIntentsPerOrder := by
  unfold makeRoom at h
  split at h
  · cases h
    exact ⟨List.Sublist.refl _, by assumption⟩
  · simp only [bind_eq_ok, orThrow_eq_ok, pure_eq_ok] at h
    obtain ⟨candidate, hfirst, rfl⟩ := h
    have hmem : candidate ∈ intents := (List.mem_filter.mp (mem_of_firstToEvict hfirst)).1
    have hpos := List.length_pos_of_mem hmem
    rw [List.length_erase_of_mem hmem]
    exact ⟨List.erase_sublist, by omega⟩

theorem findIntent_eq_none {digest : Bytes32} :
    findIntent o digest = none ↔ digest ∉ o.intents.map StoredFillIntentV1.intentDigest := by
  rw [findIntent, List.find?_eq_none, List.mem_map]
  constructor
  · rintro h ⟨j, hj, rfl⟩
    exact h j hj (by simp)
  · intro h j hj heq
    exact h ⟨j, hj, by simpa using heq⟩

theorem Retained.fillIntent (h : Retained E now v o) {verified : VerifiedFillIntentV1}
    {kept : List StoredFillIntentV1} {ipHash : TokenHash} (hproof : IntentProof E now v verified)
    (hnew : findIntent o verified.intentDigest = none)
    (hnonce : ∀ j ∈ o.intents, j.auth.nonce ≠ verified.auth.nonce)
    (hkept : makeRoom now o.intents verified = .ok kept) :
    Retained E now v (addFillIntent now kept verified ipHash o) := by
  obtain ⟨hsub, hlt⟩ := makeRoom_eq_ok hkept h.intents_le
  rw [findIntent_eq_none] at hnew
  have hintents : (addFillIntent now kept verified ipHash o).intents =
      kept ++ [⟨verified.intentDigest, verified.intent, verified.auth, now, ipHash, none⟩] := rfl
  refine { h with intents_le := ?_, digests := ?_, nonces := ?_, proofs := ?_, releases := ?_ }
  · rw [hintents, List.length_append, List.length_singleton]
    exact hlt
  · rw [hintents, List.map_append, List.nodup_append]
    refine ⟨(hsub.map _).nodup h.digests, List.nodup_singleton _, ?_⟩
    intro d hd d' hd'
    obtain rfl := List.mem_singleton.mp hd'
    rintro rfl
    exact hnew ((hsub.map _).mem hd)
  · rw [hintents, List.map_append, List.nodup_append]
    refine ⟨(hsub.map _).nodup h.nonces, List.nodup_singleton _, ?_⟩
    intro n hn n' hn'
    obtain rfl := List.mem_singleton.mp hn'
    obtain ⟨j, hj, rfl⟩ := List.mem_map.mp hn
    exact hnonce j (hsub.mem hj)
  · intro j hj
    rw [hintents] at hj
    rcases List.mem_append.mp hj with hj | hj
    · exact h.proofs j (hsub.mem hj)
    · obtain rfl := List.mem_singleton.mp hj
      exact hproof
  · intro j hj
    rw [hintents] at hj
    rcases List.mem_append.mp hj with hj | hj
    · exact h.releases j (hsub.mem hj)
    · obtain rfl := List.mem_singleton.mp hj
      intro r hr
      cases hr

/-- The proposals after one of them was released. -/
def withRelease (digest : Bytes32) (r : IntentRelease) (j : StoredFillIntentV1) :
    StoredFillIntentV1 :=
  if j.intentDigest = digest then { j with release := some r } else j

theorem releaseIntent_intents (digest secret : Bytes32) :
    (releaseIntent now digest secret o).intents =
      o.intents.map (withRelease digest ⟨now, secret⟩) := by
  unfold releaseIntent Order.intents withRelease
  cases o.fillIntents <;> rfl

@[simp] theorem withRelease_publicIntent (digest : Bytes32) (r : IntentRelease)
    (j : StoredFillIntentV1) :
    (withRelease digest r j).publicIntent = j.publicIntent := by
  unfold withRelease
  split <;> rfl

theorem Retained.findIntent_eq (h : Retained E now v o) {j : StoredFillIntentV1}
    (hj : j ∈ o.intents) :
    findIntent o j.intentDigest = some j := by
  cases hfind : findIntent o j.intentDigest with
  | none =>
    rw [findIntent_eq_none] at hfind
    exact absurd (List.mem_map_of_mem hj) hfind
  | some k =>
    have hk := List.mem_of_find?_eq_some hfind
    have hdigest : k.intentDigest = j.intentDigest := by simpa using List.find?_some hfind
    rw [List.inj_on_of_nodup_map h.digests hk hj hdigest]

theorem Retained.releaseIntent (h : Retained E now v o) {digest secret : Bytes32}
    {intent : PublicFillIntentV1}
    (hintent : ((findIntent o digest).map StoredFillIntentV1.publicIntent).or
      ((o.fill.map RecordedFill.selectedIntent).filter fun s => s.intentDigest = digest) =
        some intent)
    (hsecret : computeReleaseCommitment E v.orderDigest intent.auth.nonce secret =
      intent.intent.releaseCommitment) :
    Retained E now v (releaseIntent now digest secret o) := by
  have hintents : (Book.releaseIntent now digest secret o).intents = _ :=
    releaseIntent_intents digest secret
  have hmap {β : Type} (f : PublicFillIntentV1 → β) :
      (o.intents.map (withRelease digest ⟨now, secret⟩)).map (fun j => f j.publicIntent) =
        o.intents.map fun j => f j.publicIntent := by
    rw [List.map_map]
    apply List.map_congr_left
    intro j _
    simp
  refine { h with intents_le := ?_, digests := ?_, nonces := ?_, proofs := ?_, releases := ?_ }
  · rw [hintents, List.length_map]
    exact h.intents_le
  · rw [hintents]
    exact (hmap PublicFillIntentV1.intentDigest).symm ▸ h.digests
  · rw [hintents]
    exact (hmap fun j => j.auth.nonce).symm ▸ h.nonces
  · intro j hj
    rw [hintents, List.mem_map] at hj
    obtain ⟨k, hk, rfl⟩ := hj
    have hsame : (withRelease digest ⟨now, secret⟩ k).verified = k.verified := by
      unfold withRelease
      split <;> rfl
    rw [hsame]
    exact h.proofs k hk
  · intro j hj
    rw [hintents, List.mem_map] at hj
    obtain ⟨k, hk, rfl⟩ := hj
    unfold withRelease
    split
    · rename_i hdigest
      intro r hr
      cases hr
      subst hdigest
      rw [h.findIntent_eq hk] at hintent
      cases hintent
      exact hsecret
    · exact h.releases k hk

theorem knowsTerminal_eq_false {digest : Bytes32} (h : knowsTerminal o digest = false) :
    o.fillDigest ≠ some digest ∧ o.cancelDigest ≠ some digest ∧
      digest ∉ o.conflicts.map TerminalConflictEvidence.digest := by
  simpa [knowsTerminal, not_or] using h

theorem Retained.terminalConflict (h : Retained E now v o) {evidence : TerminalConflictEvidence}
    (hnew : knowsTerminal o evidence.digest = false) :
    Retained E now v (addConflict now evidence o) := by
  obtain ⟨hfill, hcancel, hnew⟩ := knowsTerminal_eq_false hnew
  refine { h with conflicts_le := pushCapped_length, conflicts := ?_, terminals := ?_ }
  · exact pushCapped_map_nodup h.conflicts hnew
  · constructor
    · intro f hf
      refine notMem_pushCapped_map (h.terminals.1 f hf) fun heq => hfill ?_
      rw [heq, Order.fillDigest, show o.fill = some f from hf]
      rfl
    · intro c hc
      refine notMem_pushCapped_map (h.terminals.2 c hc) fun heq => hcancel ?_
      rw [heq, Order.cancelDigest, show o.cancel = some c from hc]
      rfl

theorem Outcome.conflicts_eq_nil (h : Outcome o) (hnofill : o.fill = none)
    (hnocancel : o.cancel = none) :
    o.conflicts = [] := by
  by_contra hne
  rcases (h.conflicts hne).2 with hfill | hcancel
  · simp [hnofill] at hfill
  · simp [hnocancel] at hcancel

theorem Retained.change (h : Retained E i.now v o) (hportable : Portable E i.now v o)
    (houtcome : Outcome o)
    (hchange : PortableChange E i o o') : Retained E i.now v o' := by
  cases hchange with
  | fillIntent variant verified kept ipHash hvariant hproof hnew hopen hclean hnonce hkept =>
    have hnofill : o.fill = none := by
      rw [← Option.not_isSome_iff_eq_none, ← houtcome.locking]
      rcases hopen with hopen | ⟨hopen, -⟩ <;> simp [hopen]
    rw [hportable.verifiedSignedOrder_eq (hportable.holdsPrelock hnofill)] at hvariant
    cases hvariant
    exact h.fillIntent hproof hnew hnonce hkept
  | terminalConflict evidence hpresented hsettled hnew => exact h.terminalConflict hnew
  | fill raw variant intent fill hvariant hintent hfill hcall hopen hnofill hnocancel =>
    have hnil := houtcome.conflicts_eq_nil hnofill hnocancel
    refine { h with terminals := ?_ }
    change (∀ f ∈ some _, _ ∉ o.conflicts.map _) ∧ ∀ c ∈ o.cancel, _ ∉ o.conflicts.map _
    simp [hnil]
  | cancel raw variant cancel hvariant hcancel hcall hnofill hnocancel =>
    have hnil := houtcome.conflicts_eq_nil hnofill hnocancel
    refine { h with terminals := ?_ }
    change (∀ f ∈ o.fill, _ ∉ o.conflicts.map _) ∧ ∀ c ∈ some _, _ ∉ o.conflicts.map _
    simp [hnil]
  | releaseFill digest secret f => exact { h with }
  | releaseIntent digest secret intentDigest intent hdigest hintent hsecret =>
    rw [hportable.digest] at hdigest
    cases hdigest
    exact h.releaseIntent hintent hsecret

end Retained

/-! ## Legacy rows -/

/-- A row without any part of the portable protocol. -/
structure Legacy (o : Order) : Prop where
  id : o.id.val.toList.length = 16
  auth : o.makerAuth = none
  digest : o.orderDigest = none
  fillIntents : o.fillIntents = none
  fill : o.fill = none
  cancel : o.cancel = none
  equivocated : o.equivocated = false
  conflicts : o.conflicts = []
  orderConflicts : o.orderConflicts = []
  releaseSecret : o.releaseSecret = none
  federationSourceHash : o.federationSourceHash = none

section Legacy

variable {E : Crypto} {i : Step} {o o' : Order}

theorem Legacy.uses (h : Legacy o) : usesPortableTerminalProtocol o = false := by
  simp [usesPortableTerminalProtocol, h.auth]

theorem Legacy.sweep {now : SafeInt} (h : Legacy o) (hsweep : sweepOrder now o = some o') :
    Legacy o' := by
  have hintents : o.fillIntents.map (retainedIntents now) = none := by rw [h.fillIntents]; rfl
  rcases sweepOrder_cases hsweep with ⟨rfl, -⟩ | rfl
  · exact { h with fillIntents := hintents }
  · exact { h with fillIntents := hintents }

theorem Legacy.id_ne (h : Legacy o) (d : TokenHash) : o.id ≠ signedOrderId d := by
  intro heq
  obtain ⟨body, hbody, hlen, -⟩ := fixed_iff.mp d.property
  have hid := h.id
  rw [heq] at hid
  change d.val.toList.length = 16 at hid
  rw [hbody] at hid
  simp only [List.nil_append] at hid
  omega

theorem Legacy.change (h : Legacy o) (hchange : LegacyChange i o o') : Legacy o' := by
  cases hchange <;> exact { h with }

end Legacy

/-! ## Every row -/

/-- What holds of the fields of any row. -/
structure Wellformed (o : Order) : Prop where
  prelocked : o.prelocked = true → o.hashlock.isSome = true ∧ o.initiatorTimeout.isSome = true
  shareTokenHash : o.shareTokenHash.isSome = true → o.visibility = .priv

/-- A row that came from the signed order `v`. -/
structure SignedRow (E : Crypto) (now : SafeInt) (v : VerifiedOrderV1) (o : Order) : Prop where
  portable : Portable E now v o
  outcome : Outcome o
  retained : Retained E now v o

/-- The invariant of a row. -/
structure Row (E : Crypto) (now : SafeInt) (o : Order) : Prop where
  wellformed : Wellformed o
  kind : Legacy o ∨ ∃ v, SignedRow E now v o

section Row

variable {E : Crypto} {now now' : SafeInt} {v : VerifiedOrderV1} {i : Step} {o o' : Order}

theorem Wellformed.sweep (h : Wellformed o) (hsweep : sweepOrder now o = some o') :
    Wellformed o' := by
  rcases sweepOrder_cases hsweep with ⟨rfl, -⟩ | rfl
  · exact { h with }
  · exact { h with }

theorem Wellformed.change (h : Wellformed o) (hchange : Change E i o o') : Wellformed o' := by
  cases hchange with
  | orderConflict verified => exact { h with }
  | portable hportable hchange =>
    cases hchange with
    | fill raw variant intent fill => exact { h with prelocked := fun _ => ⟨rfl, rfl⟩ }
    | _ => exact { h with }
  | legacy hlegacy hchange =>
    cases hchange with
    | announce body terms => exact { h with prelocked := fun _ => ⟨rfl, rfl⟩ }
    | _ => exact { h with }

theorem SignedRow.later (h : SignedRow E now v o) (hnow : now.val ≤ now'.val) :
    SignedRow E now' v o :=
  ⟨h.portable.later hnow, h.outcome, h.retained.later hnow⟩

theorem SignedRow.sweep (h : SignedRow E now v o) (hsweep : sweepOrder now o = some o') :
    SignedRow E now v o' :=
  ⟨h.portable.sweep hsweep, h.outcome.sweep hsweep, h.retained.sweep hsweep⟩

theorem SignedRow.change (h : SignedRow E i.now v o) (hchange : Change E i o o') :
    SignedRow E i.now v o' := by
  cases hchange with
  | orderConflict verified hproof hopen hpublic hid hdigest hnew =>
    rw [h.portable.digest, ne_eq, Option.some.injEq] at hdigest
    exact ⟨h.portable.orderConflict verified, h.outcome.orderConflict verified,
      h.retained.orderConflict hproof hopen hpublic hid hdigest hnew⟩
  | portable hportable hchange =>
    exact ⟨h.portable.change hchange, h.outcome.change hchange,
      h.retained.change h.portable h.outcome hchange⟩
  | legacy hlegacy => exact absurd hlegacy (by simp [h.portable.uses])

theorem Row.later (h : Row E now o) (hnow : now.val ≤ now'.val) : Row E now' o := by
  refine ⟨h.wellformed, ?_⟩
  rcases h.kind with hlegacy | ⟨v, hsigned⟩
  · exact .inl hlegacy
  · exact .inr ⟨v, hsigned.later hnow⟩

theorem Row.sweep (h : Row E now o) (hsweep : sweepOrder now o = some o') : Row E now o' := by
  refine ⟨h.wellformed.sweep hsweep, ?_⟩
  rcases h.kind with hlegacy | ⟨v, hsigned⟩
  · exact .inl (hlegacy.sweep hsweep)
  · exact .inr ⟨v, hsigned.sweep hsweep⟩

theorem Row.change (h : Row E i.now o) (hchange : Change E i o o') : Row E i.now o' := by
  refine ⟨h.wellformed.change hchange, ?_⟩
  rcases h.kind with hlegacy | ⟨v, hsigned⟩
  · left
    cases hchange with
    | orderConflict verified hproof hopen hpublic hid => exact absurd hid (hlegacy.id_ne _)
    | portable hportable => exact absurd hportable (by simp [hlegacy.uses])
    | legacy _ hchange => exact hlegacy.change hchange
  · exact .inr ⟨v, hsigned.change hchange⟩

/-! ### New rows -/

theorem optionalAddress_signed {re re' : String → Bool} {a : Option (Matching re')} {field : String}
    {b : Option (Matching re)}
    (h : optionalAddress (a.map fun a => Json.str a.val) field re = .ok b) :
    b.map Subtype.val = a.map Subtype.val := by
  cases a with
  | none =>
    cases h
    rfl
  | some a =>
    simp only [Option.map_some, optionalAddress] at h
    cases hreq : requireAddress (some (.str a.val)) field re with
    | error e => rw [hreq] at h; cases h
    | ok c =>
      rw [hreq] at h
      cases h
      rw [Option.map_some, Option.map_some, requireAddress_signed hreq]

theorem createListing_visibility {body : Record} {visibility : Visibility} {origin : Origin}
    {random : Random}
    {listing : Listing} (h : createListing body visibility origin random = .ok listing) :
    listing.visibility = visibility := by
  unfold createListing at h
  cases visibility with
  | priv =>
    simp only [bind_eq_ok, pure_eq_ok] at h
    obtain ⟨_, -, _, -, _, -, rfl⟩ := h
    rfl
  | pub =>
    simp only [bind_eq_ok, pure_eq_ok] at h
    obtain ⟨_, -, rfl⟩ := h
    rfl

theorem createListing_record {b : OrderV1Body} {origin : Origin} {random : Random}
    {listing : Listing}
    (hopen : b.Unrestricted) (h : createListing b.record b.visibility origin random = .ok listing) :
    listing = ⟨b.visibility, b.allowedTakerEth.map EthAccount.address,
      b.allowedTakerQrl.map QrlAccount.address⟩ := by
  have hval : Function.Injective (Option.map (Subtype.val : EthAddress → String)) :=
    Option.map_injective Subtype.val_injective
  have hval' : Function.Injective (Option.map (Subtype.val : QrlAddress → String)) :=
    Option.map_injective Subtype.val_injective
  unfold createListing at h
  cases hv : b.visibility with
  | pub =>
    rw [hv] at h
    simp only [bind_eq_ok, refuse_eq_ok, pure_eq_ok, exists_const] at h
    obtain ⟨-, rfl⟩ := h
    obtain ⟨heth, hqrl⟩ := hopen hv
    rw [heth, hqrl]
    rfl
  | priv =>
    rw [hv] at h
    simp only [OrderV1Body.record_get, List.lookup_cons, String.reduceBEq, BEq.rfl,
      Option.join_some, bind_eq_ok,
      refuse_eq_ok, pure_eq_ok, exists_const] at h
    obtain ⟨-, eth, heth, qrl, hqrl, rfl⟩ := h
    have heth : eth = b.allowedTakerEth.map EthAccount.address := by
      apply hval
      rw [optionalAddress_signed heth, Option.map_map]
      rfl
    have hqrl : qrl = b.allowedTakerQrl.map QrlAccount.address := by
      apply hval'
      rw [optionalAddress_signed hqrl, Option.map_map]
      rfl
    rw [heth, hqrl]

theorem parseVisibility_record (b : OrderV1Body) : parseVisibility b.record = .ok b.visibility := by
  unfold parseVisibility
  simp only [OrderV1Body.record_get, List.lookup_cons, String.reduceBEq, BEq.rfl, Option.join_some]
  rw [visibility_ofJson?_name]
  rfl

theorem createPrelock_record {l : List Order} {b : OrderV1Body} {federated : Bool}
    {prelock : Option PrelockTerms}
    (h : createPrelock l b.record federated now = .ok prelock) :
    prelock = b.prelock.map fun p : Prelock => ⟨p.hashlock, p.initiatorTimeout.val⟩ := by
  unfold createPrelock at h
  simp only [OrderV1Body.record_get, List.lookup_cons, String.reduceBEq, BEq.rfl,
    Option.join_some] at h
  cases hp : b.prelock with
  | none =>
    rw [hp] at h
    cases h
    rfl
  | some p =>
    rw [hp] at h
    simp only [Option.map_some, Prelock.toJson, asRecord, asString, asInteger, safeJson, Num.ofNat,
      Num.toInt?,
      Record.get, List.lookup_cons, String.reduceBEq, BEq.rfl, orThrow, ok_bind, Option.bind_some,
        matching_val,
      bind_eq_ok, refuse_eq_ok, pure_eq_ok, exists_const] at h
    obtain ⟨-, -, -, rfl⟩ := h
    rfl

theorem draftOrder_signed {l : List Order} {makerIp : String} {origin : Origin} {random : Random}
    (horigin : origin.verified = some v) (hproof : OrderProof E now v)
    (hopen : v.order.Unrestricted)
    (h : draftOrder E l now v.order.record makerIp origin random = .ok o) :
    SignedRow E now v o := by
  simp only [draftOrder, parseVisibility_record, ok_bind, bind_eq_ok, refuse_eq_ok, pure_eq_ok,
    exists_const] at h
  obtain ⟨_, -, terms, hterms, _, -, _, -, _, -, listing, hlisting, prelock, hprelock, -, _,
    -, rfl⟩ := h
  have hlisting := createListing_record hopen hlisting
  have hprelock := createPrelock_record hprelock
  subst hlisting hprelock
  refine ⟨?_, ?_, ?_⟩
  · exact {
      auth := by simp [newOrder, horigin]
      digest := by simp [newOrder, horigin]
      id := by simp [newOrder, newOrderId, horigin]
      proof := hproof
      unrestricted := hopen
      terms := hterms
      visibility := rfl
      allowedTakerEth := rfl
      allowedTakerQrl := rfl
      prelocked := by simp [newOrder]
      lock := fun _ => by
        simp only [newOrder, Option.map_map]
        exact ⟨rfl, rfl⟩
      retains := by simp [newOrder, horigin] }
  · exact {
      accepted := by simp [newOrder]
      locking := by simp [newOrder]
      cancelled := by simp [newOrder]
      equivocated := by simp [newOrder]
      conflicts := by simp [newOrder]
      orderConflicts := by simp [newOrder]
      evidence := by simp [newOrder]
      projection := by simp [newOrder]
      unfilled := by simp [newOrder]
      released := by simp [newOrder] }
  · refine Retained.of_empty ?_ rfl rfl
    simp [newOrder, Order.intents, horigin]

theorem draftOrder_legacy {l : List Order} {body : Record} {makerIp : String} {random : Random}
    (h : draftOrder E l now body makerIp .legacy random = .ok o) : Legacy o := by
  simp only [draftOrder, bind_eq_ok, refuse_eq_ok, pure_eq_ok, exists_const] at h
  obtain ⟨_, -, terms, -, _, -, _, -, visibility, -, _, -, listing, -, prelock, -, -, _, -, rfl⟩ :=
    h
  obtain ⟨digits, hdigits, hlen, -⟩ := fixed_iff.mp random.id.property
  refine ⟨?_, rfl, rfl, rfl, rfl, rfl, rfl, rfl, rfl, rfl, rfl⟩
  change random.id.val.toList.length = 16
  rw [hdigits]
  exact hlen

theorem draftOrder_wellformed {l : List Order} {body : Record} {makerIp : String} {origin : Origin}
    {random : Random} (h : draftOrder E l now body makerIp origin random = .ok o) :
    Wellformed o := by
  simp only [draftOrder, bind_eq_ok, refuse_eq_ok, pure_eq_ok, exists_const] at h
  obtain ⟨_, -, terms, -, _, -, _, -, visibility, -, _, -, listing, -, prelock, -, -, _, -, rfl⟩ :=
    h
  constructor
  · intro hprelocked
    simpa [newOrder] using hprelocked
  · intro hshare
    simp only [newOrder] at hshare ⊢
    split at hshare
    · cases hshare
    · assumption
    · assumption

theorem row_of_draft {l : List Order} {body : Record} {makerIp : String} {origin : Origin}
    (hasked : Asked E i body makerIp origin)
    (h : draftOrder E l i.now body makerIp origin i.random = .ok o) :
    Row E i.now o := by
  refine ⟨draftOrder_wellformed h, ?_⟩
  cases hasked with
  | legacy => exact .inl (draftOrder_legacy h)
  | signed body makerIp verified capabilities hcall hverified =>
    obtain ⟨hproof, hopen⟩ := verifyOrderV1_proof hverified
    exact .inr ⟨verified, draftOrder_signed rfl hproof hopen h⟩
  | federated payload source verified hcall hverified hpublic =>
    obtain ⟨hproof, hopen⟩ := verifyOrderV1_proof hverified
    exact .inr ⟨verified, draftOrder_signed rfl hproof hopen h⟩

end Row

/-- Every row of every run. -/
theorem run_rows (E : Crypto) (is : List Step) :
    ∀ o ∈ (run (World.step E) World.start is).store.orders,
      Row E (run (World.step E) World.start is).clock o := by
  refine (invariant (I := fun w : World => (w.store.orders.map Order.id).Nodup ∧
    ∀ o ∈ w.store.orders, Row E w.clock o) (s := World.start) ?_
      ⟨List.nodup_nil, fun o ho => absurd ho List.not_mem_nil⟩ is).2
  rintro w i ⟨hids, hrows⟩
  have heffects := w.step_effects E i
  refine ⟨heffects.ids hids, ?_⟩
  exact heffects.forall_mem (P := Row E (w.timed i).now) hids (fun o o' h hsweep => h.sweep hsweep)
    (fun o h => h) (fun l body makerIp origin o hasked hdraft => row_of_draft hasked hdraft)
    (fun o o' h hchange => h.change hchange) (fun o ho => (hrows o ho).later (w.clock_le_timed i))

end QuantaSwap.Book
