import QuantaSwap.Book.System

/-!
# What the book keeps of every row

A row is legacy, with no part of the portable protocol, or it was created from a
verified signed order and stays in step with it.
-/

set_option autoImplicit false

namespace QuantaSwap.Book

open Lib.Js Lib.Text Lib.Checks

/-! ## Terms of a signed order -/

section Terms

variable {E : Crypto} {now now' : SafeInt} {v w : VerifiedOrderV1} {o : Order}

theorem requireAmount_signed {s : SignedAmount} {field : String} {bounds : AmountBounds}
    {a : Amount}
    (h : requireAmount (some (.str s.val)) field bounds = .ok a) : a.val = s.val := by
  simp only [requireAmount, bind_eq_ok, orThrow_eq_ok, refuse_eq_ok, pure_eq_ok, exists_const] at h
  obtain ⟨amount, hamount, -, -, rfl⟩ := h
  have hval : amount.val = s.val := matching_eq_some.mp hamount
  have hcanonical : Lib.Decimal.canonical s.val.toList = true := by
    have := s.property
    unfold Signing.amountRe at this
    rw [Bool.and_eq_true] at this
    exact this.1
  change (Lib.Decimal.value amount.val).repr = s.val
  rw [hval, Lib.Decimal.repr_value _ hcanonical]

theorem requireAddress_signed {re re' : String → Bool} {s : Matching re'} {field : String}
    {a : Matching re}
    (h : requireAddress (some (.str s.val)) field re = .ok a) : a.val = s.val :=
  matching_eq_some.mp (orThrow_eq_ok.mp h)

theorem createTerms_record {b : OrderV1Body} {t : CreateTerms} (h : createTerms b.record = .ok t) :
    t.direction = b.direction ∧ t.asset = b.asset ∧ t.fromAmount.val = b.fromAmount.val ∧
      t.toAmount.val = b.toAmount.val ∧ t.makerEthAccount.val = b.makerEthAccount.val ∧
      t.makerQrlAccount.val = b.makerQrlAccount.val := by
  unfold createTerms at h
  simp only [OrderV1Body.record_get, List.lookup_cons, String.reduceBEq, BEq.rfl, Option.join_some,
    requireDirection,
    direction_ofJson?_name, requireAsset_name, orThrow, ok_bind, bind_eq_ok, pure_eq_ok] at h
  obtain ⟨fromAmount, hfrom, toAmount, hto, eth, heth, qrl, hqrl, rfl⟩ := h
  exact ⟨rfl, asset_symbol b.asset, requireAmount_signed hfrom, requireAmount_signed hto,
    requireAddress_signed heth, requireAddress_signed hqrl⟩

/-- The terms `createInternal` reads from the body of an order, as the record keeps them. -/
def Order.terms (o : Order) : CreateTerms :=
  ⟨o.direction, o.asset, o.fromAmount, o.toAmount, o.makerEthAccount, o.makerQrlAccount⟩

/-- The row carries the prelock that its maker signed. -/
def HoldsPrelock (v : VerifiedOrderV1) (o : Order) : Prop :=
  ∀ p ∈ v.order.prelock, o.hashlock = some p.hashlock ∧
    o.initiatorTimeout = some (p.initiatorTimeout.val : Int)

variable (E now v) in
/-- The row was created from the signed order `v` and still says what `v` says. -/
structure Portable (o : Order) : Prop where
  auth : o.makerAuth = some v.auth
  digest : o.orderDigest = some v.orderDigest
  id : o.id = signedOrderId v.orderId
  proof : OrderProof E now v
  unrestricted : v.order.Unrestricted
  terms : createTerms v.order.record = .ok o.terms
  visibility : o.visibility = v.order.visibility
  allowedTakerEth : o.allowedTakerEth = v.order.allowedTakerEth.map EthAccount.address
  allowedTakerQrl : o.allowedTakerQrl = v.order.allowedTakerQrl.map QrlAccount.address
  prelocked : o.prelocked = v.order.prelock.isSome
  lock : o.fill = none → o.hashlock = v.order.prelock.map Prelock.hashlock ∧
    o.initiatorTimeout = v.order.prelock.map fun p : Prelock => (p.initiatorTimeout.val : Int)
  retains : o.fillIntents.isSome = true

theorem Portable.uses (h : Portable E now v o) : usesPortableTerminalProtocol o = true := by
  simp [usesPortableTerminalProtocol, h.auth, h.retains]

theorem Portable.later (h : Portable E now v o) (hnow : now.val ≤ now'.val) : Portable E now' v o :=
  { h with proof := h.proof.later hnow }

theorem Portable.holdsPrelock (h : Portable E now v o) (hfill : o.fill = none) :
    HoldsPrelock v o := by
  intro p hp
  obtain ⟨hlock, htimeout⟩ := h.lock hfill
  rw [Option.mem_def.mp hp] at hlock htimeout
  exact ⟨hlock, htimeout⟩

theorem Portable.signedOrderBody_eq (h : Portable E now v o) (hprelock : HoldsPrelock v o) :
    signedOrderBody o = v.order.record := by
  obtain ⟨hdir, hasset, hfrom, hto, heth, hqrl⟩ := createTerms_record h.terms
  simp only [Order.terms] at hdir hasset hfrom hto heth hqrl
  have hpre : prelockJson o = v.order.prelock.map Prelock.toJson := by
    unfold prelockJson
    rw [h.prelocked]
    cases hp : v.order.prelock with
    | none => rfl
    | some p =>
      obtain ⟨hlock, htimeout⟩ := hprelock p hp
      rw [hlock, htimeout]
      rfl
  unfold signedOrderBody OrderV1Body.record
  rw [hpre, hdir, hasset, hfrom, hto, heth, hqrl, h.visibility, h.allowedTakerEth,
    h.allowedTakerQrl,
    Option.map_map, Option.map_map]
  rfl

theorem Portable.verifiedSignedOrder_eq (h : Portable E now v o) (hprelock : HoldsPrelock v o) :
    verifiedSignedOrder E now o = .ok v := by
  rw [verifiedSignedOrder, h.auth, h.signedOrderBody_eq hprelock]
  exact h.proof.verify h.unrestricted

theorem referencedSignedOrderVariant_eq_ok {raw : Option Json}
    (hv : verifiedSignedOrder E now o = .ok v)
    (h : referencedSignedOrderVariant E now o raw = .ok w) :
    w = v ∨ w.orderDigest ∈ o.orderConflicts.map OrderConflictEvidence.orderDigest := by
  simp only [referencedSignedOrderVariant, bind_eq_ok, hv] at h
  obtain ⟨_, -, digest, -, primary, hprimary, h⟩ := h
  cases hprimary
  split at h
  · cases h
    exact .inl rfl
  · right
    unfold verifiedVariant at h
    dsimp only at h
    split at h
    · cases h
    · rename_i conflict hfind
      simp only [bind_eq_ok, refuse_eq_ok, pure_eq_ok, exists_const, not_or, Decidable.not_not] at h
      obtain ⟨candidate, -, ⟨-, hdigest⟩, rfl⟩ := h
      have hmem := List.mem_of_find?_eq_some hfind
      have heq := List.find?_some hfind
      rw [hdigest]
      exact List.mem_map.mpr ⟨conflict, hmem, by simpa using heq⟩

theorem Portable.change {i : Step} {o' : Order} (h : Portable E i.now v o)
    (hchange : PortableChange E i o o') :
    Portable E i.now v o' := by
  cases hchange with
  | fillIntent variant verified kept ipHash => exact { h with retains := rfl }
  | terminalConflict evidence => exact { h with }
  | fill raw variant intent fill => exact { h with lock := fun hfill => by cases hfill }
  | cancel raw variant cancel => exact { h with }
  | releaseFill digest secret f => exact { h with }
  | releaseIntent digest secret intentDigest intent =>
    have hretains : (o.fillIntents.map fun l => l.map fun j : StoredFillIntentV1 =>
        if j.intentDigest = intentDigest then { j with release := some ⟨i.now, secret⟩ } else
          j).isSome = true := by
      rw [Option.isSome_map]
      exact h.retains
    exact { h with retains := hretains }

theorem Portable.orderConflict (h : Portable E now v o) (verified : VerifiedOrderV1) :
    Portable E now v (addOrderConflict verified now o) := { h with }

theorem sweepOrder_cases {o' : Order} (h : sweepOrder now o = some o') :
    (o' = { dropStaleIntents now o with status := .cancelled, updatedAt := now } ∧
        (o.status = .open ∨ o.status = .accepted)) ∨
      o' = dropStaleIntents now o := by
  unfold sweepOrder at h
  dsimp only at h
  split at h
  · rename_i hexpires
    cases h
    left
    refine ⟨rfl, ?_⟩
    simp only [expires, decide_eq_true_eq] at hexpires
    rcases hexpires with ⟨hopen, -⟩ | ⟨haccepted, -⟩
    · exact .inl hopen
    · exact .inr haccepted
  · split at h
    · cases h
    · cases h
      exact .inr rfl

theorem Portable.sweep {o' : Order} (h : Portable E now v o) (hsweep : sweepOrder now o = some o') :
    Portable E now v o' := by
  have hretains : (o.fillIntents.map (retainedIntents now)).isSome = true := by
    rw [Option.isSome_map]
    exact h.retains
  rcases sweepOrder_cases hsweep with ⟨rfl, -⟩ | rfl
  · exact { h with retains := hretains }
  · exact { h with retains := hretains }

end Terms

/-! ## Status and terminal -/

/-- How the status of a signed row follows from what was recorded for it. -/
structure Outcome (o : Order) : Prop where
  accepted : o.status ≠ .accepted
  locking : o.status = .locking ↔ o.fill.isSome = true
  cancelled : o.cancel.isSome = true → o.status = .cancelled
  equivocated : o.equivocated = true → o.status ≠ .open
  conflicts : o.conflicts ≠ [] → o.equivocated = true ∧
    (o.fill.isSome = true ∨ o.cancel.isSome = true)
  orderConflicts : o.orderConflicts ≠ [] → o.equivocated = true
  evidence : o.equivocated = true → o.conflicts ≠ [] ∨ o.orderConflicts ≠ []
  projection : ∀ f ∈ o.fill, o.hashlock = some f.fill.hashlock ∧
    o.initiatorTimeout = some (f.fill.initiatorTimeout.val : Int) ∧
    o.responderTimeout = some (f.fill.responderTimeout.val : Int) ∧
    o.takerEthAccount = some (EthAccount.address f.fill.takerEthAccount) ∧
    o.takerQrlAccount = some (QrlAccount.address f.fill.takerQrlAccount)
  unfilled : o.fill = none → o.releaseSecret = none
  released : o.releasedAt.isSome = o.releaseSecret.isSome

section Outcome

variable {E : Crypto} {i : Step} {o o' : Order}

theorem pushCapped_ne_nil {α : Type} (l : List α) (a : α) : pushCapped l a ≠ [] := by
  intro h
  have := congrArg List.length h
  simp only [pushCapped, List.length_drop, List.length_append, List.length_singleton,
    List.length_nil,
    maxConflictProofs] at this
  omega

theorem Outcome.sweep {now : SafeInt} (h : Outcome o) (hsweep : sweepOrder now o = some o') :
    Outcome o' := by
  rcases sweepOrder_cases hsweep with ⟨rfl, hopen⟩ | rfl
  · have hnofill : ¬o.fill.isSome = true := by
      rw [← h.locking]
      rcases hopen with hopen | hopen <;> simp [hopen]
    exact { h with
      accepted := by simp
      locking := iff_of_false (by simp) hnofill
      cancelled := fun _ => rfl
      equivocated := by simp }
  · exact { h with }

theorem Outcome.orderConflict {now : SafeInt} (h : Outcome o) (verified : VerifiedOrderV1) :
    Outcome (addOrderConflict verified now o) := by
  have hstatus : (addOrderConflict verified now o).status = if o.status = .open then .cancelled else
    o.status := by
    simp [addOrderConflict, h.accepted]
  refine { h with
    accepted := ?_, locking := ?_, cancelled := ?_, equivocated := ?_, conflicts :=
      ?_, orderConflicts := ?_
    evidence := ?_ }
  · rw [hstatus]
    split
    · simp
    · exact h.accepted
  · rw [hstatus]
    split
    · rename_i hopen
      have hnofill := h.locking
      rw [hopen] at hnofill
      simpa [addOrderConflict] using hnofill
    · exact h.locking
  · intro hcancel
    rw [hstatus, h.cancelled hcancel]
    rfl
  · intro _
    rw [hstatus]
    split
    · simp
    · assumption
  · exact fun hne => ⟨rfl, (h.conflicts hne).2⟩
  · exact fun _ => rfl
  · exact fun _ => .inr (pushCapped_ne_nil _ _)

theorem Outcome.change (h : Outcome o) (hchange : PortableChange E i o o') : Outcome o' := by
  cases hchange with
  | fillIntent variant verified kept ipHash => exact { h with }
  | terminalConflict evidence hpresented hsettled =>
    -- A conflict of terminals needs a settled row.
    have hclosed : o.status ≠ .open := by
      rcases hsettled with hfill | hcancel
      · simp [h.locking.mpr hfill]
      · simp [h.cancelled hcancel]
    exact { h with
      equivocated := fun _ => hclosed
      conflicts := fun _ => ⟨rfl, hsettled⟩
      orderConflicts := fun _ => rfl
      evidence := fun _ => .inl (pushCapped_ne_nil _ _) }
  | fill raw variant intent fill hvariant hintent hfill hcall hopen hnofill hnocancel =>
    exact { h with
      accepted := by simp [recordFill]
      locking := by simp [recordFill]
      cancelled := fun hcancel => by simp [recordFill, hnocancel] at hcancel
      equivocated := fun _ => by simp [recordFill]
      conflicts := fun hne => ⟨(h.conflicts hne).1, .inl rfl⟩
      projection := fun f hf => by
        cases hf
        exact ⟨rfl, rfl, rfl, rfl, rfl⟩
      unfilled := fun hf => by cases hf
      released := by simp [recordFill] }
  | cancel raw variant cancel hvariant hcancel hcall hnofill hnocancel =>
    exact { h with
      accepted := by simp [recordCancel]
      locking := by simp [recordCancel, hnofill]
      cancelled := fun _ => rfl
      equivocated := fun _ => by simp [recordCancel]
      conflicts := fun hne => ⟨(h.conflicts hne).1, .inr rfl⟩ }
  | releaseFill digest secret f hdigest hfill =>
    exact { h with
      unfilled := fun hf => by
        rw [show (releaseFill i.now secret o).fill = o.fill from rfl, hfill] at hf
        cases hf
      released := rfl }
  | releaseIntent digest secret intentDigest intent =>
    refine { h with unfilled := fun hf => ?_, released := ?_ }
    · have hfill : o.fill = none := hf
      simp [releaseIntent, hfill, h.unfilled hfill]
    · simp only [releaseIntent]
      split
      · rfl
      · exact h.released

end Outcome

end QuantaSwap.Book
