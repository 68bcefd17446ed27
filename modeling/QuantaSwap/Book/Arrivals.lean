import QuantaSwap.Book.Message
import QuantaSwap.Book.Strangers

/-!
# What a peer's event does to the book

For a proof that the book accepts, the row that its event leaves: a new one, one with
another signed variant of the order, or one with its fill.
-/

set_option autoImplicit false

namespace QuantaSwap.Book

open Lib.Js Lib.Text Lib.Checks Lib.Run

section Arrivals

variable {E : Crypto} {now : SafeInt} {source : String} {random : Random} {s : Store}
  {v variant : VerifiedOrderV1}
  {o : Order}

/-- What the verifiers make of a signed order. -/
def signedOrder (E : Crypto) (body : OrderV1Body) (auth : MakerOrderAuthV1) : VerifiedOrderV1 :=
  ⟨deriveOrderV1Id E body.makerQrlAccount auth.nonce, digestOfMessage E (orderMessage body auth),
    body, auth⟩

def signedIntent (E : Crypto) (intent : FillIntentV1Body) (auth : ProtocolAuthV1) :
    VerifiedFillIntentV1 :=
  ⟨digestOfMessage E (intentMessage intent auth), intent, auth⟩

def signedFill (E : Crypto) (fill : FillV1Body) (auth : ProtocolAuthV1) (order : VerifiedOrderV1) :
    VerifiedFillV1 :=
  ⟨digestOfMessage E (fillMessage fill auth order), fill, auth⟩

theorem orderEvent_exact (v : VerifiedOrderV1) :
    exactPayload (orderEvent v.order.record v.auth).payload ["order",
      "auth"] "federated order event" = .ok ⟨⟩ := by
  unfold exactPayload
  rw [refuse_eq_ok, Bool.not_eq_false]
  rfl

theorem fillEvent_exact (fill : VerifiedFillV1) (intent : VerifiedFillIntentV1) :
    exactPayload (fillEvent o fill intent).payload ["orderId", "fill", "auth", "intent",
      "intentAuth"]
      "federated fill event" = .ok ⟨⟩ := by
  unfold exactPayload
  rw [refuse_eq_ok, Bool.not_eq_false]
  rfl

theorem fillEvent_fill? (o : Order) (fill : VerifiedFillV1) (intent : VerifiedFillIntentV1)
    (source : String) :
    (Call.applyFederationEvent (fillEvent o fill intent) source).fill? =
      some (o.id.val, fill.fill) := by
  have hbody : canonicalFillBody (some fill.fill.toJson) = .ok fill.fill :=
    canonicalFillBody_toJson _
  change (canonicalFillBody (some fill.fill.toJson)).toOption.map (o.id.val, ·) =
    some (o.id.val, fill.fill)
  rw [hbody]
  rfl

theorem after_discard {α : Type} (m : StoreM α) (s : Store) :
    after (do let _ ← m; pure ⟨⟩ : StoreM Unit) s = after m s := by
  unfold after
  rw [bind_run]
  cases m s <;> rfl

theorem import_order (hproof : OrderProof E now v) (hopen : v.order.Unrestricted) :
    after (applyFederationEvent E now (orderEvent v.order.record v.auth) source random) s =
      after (importVerifiedOrder E now v source random) s := by
  have hverify : verifyOrderV1 E now true ((orderEvent v.order.record v.auth).payload.get "order")
      ((orderEvent v.order.record v.auth).payload.get "auth") = .ok v := hproof.verify hopen
  unfold after applyFederationEvent
  rw [orderEvent_exact, hverify]
  simp only [orderEvent, ↓reduceIte, bind_run, check_ok]
  cases importVerifiedOrder E now v source random s <;> rfl

theorem order?_sweep (hnone : ∀ x ∈ sweepAll now s.orders, x.id ≠ signedOrderId v.orderId) :
    (s.swept now).order? v.orderId.val = none := by
  unfold Store.order?
  rw [List.find?_eq_none]
  intro x hx hid
  exact hnone x hx (Subtype.ext (of_decide_eq_true hid))

theorem import_new_run (hproof : OrderProof E now v) (hopen : v.order.Unrestricted)
    (hpublic : v.order.visibility = .pub)
    (hsource : federationSourceRe source = true)
    (hnone : ∀ x ∈ sweepAll now s.orders, x.id ≠ signedOrderId v.orderId)
    (hdraft : draftOrder E (sweepAll now s.orders) now v.order.record ("federation:" ++ source)
      (.federated v source) random = .ok o) :
    after (applyFederationEvent E now (orderEvent v.order.record v.auth) source random) s =
      insertNew now o (.federated v source) ((s.swept now).swept now) := by
  rw [import_order hproof hopen]
  have hpub : ¬v.order.visibility ≠ .pub := not_not.mpr hpublic
  have hsource : ¬federationSourceRe source = false := by rw [hsource]; simp
  have hswept : ∀ x ∈ sweepAll now (s.swept now).orders, x.id ≠ signedOrderId v.orderId := by
    rw [Store.orders_swept, sweepAll_idem]
    exact hnone
  unfold after importVerifiedOrder
  rw [sweep_bind_run, refuse, if_neg hpub, bind_run, check_ok]
  dsimp only
  rw [get_bind_run]
  simp only [order?_sweep hnone, refuse, if_neg hsource, bind_run, check_ok]
  unfold createInternal
  rw [sweep_bind_run, get_bind_run]
  simp only [Origin.verified, Option.bind_some, order?_sweep hswept, bind_run, Store.orders_swept,
    sweepAll_idem,
    hdraft, check_ok, modify_run, get_run, pure_run, stateOf_ok]

@[simp] theorem insertNew_orders (now : SafeInt) (o : Order) (origin : Origin) (s : Store) :
    (insertNew now o origin s).orders = s.orders ++ [o] := by
  unfold insertNew
  cases origin <;> simp [Origin.isFederated, Origin.verified]

@[simp] theorem Store.admissions_publishFor (s : Store) (visibility : Visibility)
    (event : FederationEvent) :
    (s.publishFor visibility event).intentAdmissions = s.intentAdmissions := by
  unfold Store.publishFor
  split <;> rfl

@[simp] theorem insertNew_admissions (now : SafeInt) (o : Order) (origin : Origin) (s : Store) :
    (insertNew now o origin s).intentAdmissions = s.intentAdmissions := by
  unfold insertNew
  cases origin <;> simp [Origin.isFederated, Origin.verified, Store.persist, Store.see,
    Store.insert]

theorem Store.swept_unasked (h : s.intentAdmissions = []) :
    (s.swept now).intentAdmissions = [] := by
  unfold Store.swept Store.pruneIntentAdmissions
  dsimp only
  split
  · exact h
  · rw [h]
    rfl

theorem import_new (hproof : OrderProof E now v) (hopen : v.order.Unrestricted)
    (hpublic : v.order.visibility = .pub)
    (hsource : federationSourceRe source = true)
    (hnone : ∀ x ∈ sweepAll now s.orders, x.id ≠ signedOrderId v.orderId)
    (hdraft : draftOrder E (sweepAll now s.orders) now v.order.record ("federation:" ++ source)
      (.federated v source) random = .ok o) :
    (after (applyFederationEvent E now (orderEvent v.order.record v.auth) source random) s).orders =
      sweepAll now s.orders ++ [o] := by
  rw [import_new_run hproof hopen hpublic hsource hnone hdraft, insertNew_orders,
    Store.orders_swept, Store.orders_swept,
    sweepAll_idem]

variable (source random) in
theorem import_conflict (hproof : OrderProof E now v) (hopen : v.order.Unrestricted)
    (hpublic : v.order.visibility = .pub) (hids : (s.orders.map Order.id).Nodup)
    (ho : o ∈ sweepAll now s.orders)
    (hid : o.id = signedOrderId v.orderId) (hdigest : o.orderDigest ≠ some v.orderDigest)
    (hnew : v.orderDigest ∉ o.orderConflicts.map OrderConflictEvidence.orderDigest) :
    (after (applyFederationEvent E now (orderEvent v.order.record v.auth) source random) s).orders =
      (sweepAll now s.orders).map fun x => if x.id = o.id then addOrderConflict v now x else x := by
  rw [import_order hproof hopen]
  have hpub : ¬v.order.visibility ≠ .pub := not_not.mpr hpublic
  have hfind : (s.swept now).order? v.orderId.val = some o := by
    have := order?_of_mem (s := s.swept now) ((sweepAll_ids now s.orders).nodup hids) ho
    rwa [hid] at this
  have hother : ¬(o.orderDigest = some v.orderDigest ∨
      v.orderDigest ∈ o.orderConflicts.map OrderConflictEvidence.orderDigest) := by
    rintro (h | h)
    · exact hdigest h
    · exact hnew h
  unfold after importVerifiedOrder
  rw [sweep_bind_run, refuse, if_neg hpub, bind_run, check_ok]
  dsimp only
  rw [get_bind_run]
  simp only [hfind, if_neg hother, bind_run, modify_run, get_run, pure_run, stateOf_ok]
  simp

theorem import_fill_apply (fill : VerifiedFillV1) (intent : VerifiedFillIntentV1) :
    (after (applyFederationEvent E now (fillEvent o fill intent) source random) s).orders =
      (after (applyFill E now o.id.val (some fill.fill.toJson) (some fill.auth.toJson)
        (some intent.intent.toJson)
        (some intent.auth.toJson) true none) s).orders := by
  have hid : (asString ((fillEvent o fill intent).payload.get "orderId")).bind
    (matching orderIdRe) = some o.id :=
    matching_val o.id
  have hkind : ¬(fillEvent o fill intent).kind = .orderV2 := by simp [fillEvent]
  unfold after applyFederationEvent
  rw [if_neg hkind, hid, orThrow, bind_run, check_ok]
  dsimp only
  rw [show (fillEvent o fill intent).kind = .fillV2 from rfl]
  dsimp only
  rw [fillEvent_exact, bind_run, check_ok]
  exact congrArg Store.orders
    (after_discard (applyFill E now o.id.val (some fill.fill.toJson) (some fill.auth.toJson)
    (some intent.intent.toJson) (some intent.auth.toJson) true none) s)

variable (source random) in
theorem import_fill {intent : VerifiedFillIntentV1} {fill : VerifiedFillV1}
    (hids : (s.orders.map Order.id).Nodup)
    (ho : o ∈ sweepAll now s.orders) (hpublic : o.visibility = .pub)
    (huses : usesPortableTerminalProtocol o = true)
    (hvariant : referencedSignedOrderVariant E now o (some fill.fill.toJson) = .ok variant)
    (hintent : IntentProof E now variant intent) (hfill : FillProof E now variant intent fill)
    (hopen : o.status = .open ∨ o.status = .cancelled) (hnofill : o.fill = none)
    (hnocancel : o.cancel = none) :
    (after (applyFederationEvent E now (fillEvent o fill intent) source random) s).orders =
      (sweepAll now s.orders).map fun x =>
        if x.id = o.id then recordFill now fill (selectedSource E now o intent) x else x := by
  have hfind : (s.swept now).order? o.id.val = some o :=
    order?_of_mem (s := s.swept now) ((sweepAll_ids now s.orders).nodup hids) ho
  have hterminal :
    terminalOrder E (s.swept now) o.id.val true none "legacy orders use the hashlock endpoint" =
      .ok o := by
    unfold terminalOrder
    rw [hfind]
    simp [orThrow, ok_bind, refuse, hpublic, huses]
  have hunsettled : ¬(o.fillDigest.isSome = true ∨ o.cancelDigest.isSome = true) := by
    simp [Order.fillDigest, Order.cancelDigest, hnofill, hnocancel]
  -- A fill of a peer also settles a row that the sweep cancelled.
  have hallowed :
    ¬(o.status ≠ .open ∧ ¬(true = true ∧ o.status = .cancelled ∧ o.cancel = none)) := by
    rintro ⟨hclosed, hnot⟩
    rcases hopen with h | h
    · exact hclosed h
    · exact hnot ⟨rfl, h, hnocancel⟩
  rw [import_fill_apply]
  unfold after applyFill
  rw [sweep_bind_run, get_bind_run]
  rw [hterminal, bind_run, check_ok]
  dsimp only
  rw [hvariant, bind_run, check_ok]
  dsimp only
  rw [hintent.verify, bind_run, check_ok]
  dsimp only
  rw [hfill.verify, bind_run, check_ok]
  dsimp only
  rw [if_neg hunsettled, bind_run, refuse, if_neg hallowed, check_ok]
  simp only [bind_run, modify_run, get_run, pure_run, stateOf_ok]
  simp

theorem referenced_toJson (raw : FillV1Body) :
    referencedSignedOrderVariant E now o (some raw.toJson) = (do
      let primary ← verifiedSignedOrder E now o
      if primary.orderDigest = raw.orderDigest then pure primary else
        verifiedVariant E now o raw.orderDigest) := by
  have hrecord : asRecord (some raw.toJson) = some [("orderDigest", .str raw.orderDigest.val),
      ("intentDigest", .str raw.intentDigest.val),
        ("takerEthAccount", .str raw.takerEthAccount.val),
      ("takerQrlAccount", .str raw.takerQrlAccount.val),
        ("releaseCommitment", .str raw.releaseCommitment.val),
      ("hashlock", .str raw.hashlock.val), ("initiatorTimeout", safeJson raw.initiatorTimeout),
      ("responderTimeout", safeJson raw.responderTimeout)] := rfl
  unfold referencedSignedOrderVariant
  rw [hrecord, orThrow, ok_bind, Record.get, List.lookup_cons_self, asString, Option.bind_some,
    matching_val, orThrow,
    ok_bind]

theorem referenced_primary {raw : FillV1Body} (hrow : Portable E now v o) (hnofill : o.fill = none)
    (hraw : raw.orderDigest = v.orderDigest) :
    referencedSignedOrderVariant E now o (some raw.toJson) = .ok v := by
  rw [referenced_toJson, hrow.verifiedSignedOrder_eq (hrow.holdsPrelock hnofill), ok_bind, hraw,
    if_pos rfl]
  rfl

theorem referenced_variant {raw : FillV1Body} (hrow : SignedRow E now v o) (hnofill : o.fill = none)
    (hproof : OrderProof E now variant) (hopen : variant.order.Unrestricted)
    (hid : signedOrderId variant.orderId = o.id)
    (hconflict : o.orderConflicts = [⟨variant.orderDigest, variant.order, variant.auth⟩])
    (hother : v.orderDigest ≠ variant.orderDigest) (hraw : raw.orderDigest = variant.orderDigest) :
    referencedSignedOrderVariant E now o (some raw.toJson) = .ok variant := by
  have hprimary := hrow.portable.verifiedSignedOrder_eq (hrow.portable.holdsPrelock hnofill)
  have hvariant : verifiedVariant E now o variant.orderDigest = .ok variant := by
    unfold verifiedVariant
    rw [hconflict]
    simp only [List.find?_cons, decide_true]
    rw [hproof.verify hopen, ok_bind, refuse, if_neg (by simp [hid]), ok_bind]
    rfl
  rw [referenced_toJson, hprimary, ok_bind, hraw, if_neg hother]
  exact hvariant

theorem dropStaleIntents_eq (hintents : ∀ j ∈ o.intents,
    now.val < j.auth.expiresAt.val + signedIntentRetentionS) :
    dropStaleIntents now o = o := by
  have hsame : o.fillIntents.map (retainedIntents now) = o.fillIntents := by
    unfold Order.intents at hintents
    cases hfi : o.fillIntents with
    | none => rfl
    | some l =>
      rw [hfi] at hintents
      rw [Option.map_some, Option.some.injEq]
      unfold retainedIntents
      rw [List.filter_eq_self]
      exact fun j hj => decide_eq_true (hintents j hj)
  unfold dropStaleIntents
  rw [hsame]

theorem sweepOrder_listed (hstatus : o.status = .open ∨ o.status = .accepted)
    (hupdated : o.updatedAt = now)
    (hintents : ∀ j ∈ o.intents, now.val < j.auth.expiresAt.val + signedIntentRetentionS)
    (hlive : ∀ a ∈ o.makerAuth, now.val < (a : MakerOrderAuthV1).expiresAt.val) :
    sweepOrder now o = some o := by
  have hexpires : expires now o = false := by
    unfold expires
    rw [decide_eq_false_iff_not, hupdated]
    rintro (⟨-, hage | ⟨a, ha, hend⟩⟩ | ⟨-, hage⟩)
    · omega
    · have := hlive a ha
      omega
    · omega
  have hremovable : removable now o = false := by
    unfold removable
    rcases hstatus with h | h <;> rw [h]
  rw [sweepOrder_eq, hexpires, hremovable, dropStaleIntents_eq hintents]
  rfl

theorem locking_kept (hlocking : o.status = .locking) {t1 : Int}
    (ht1 : o.initiatorTimeout = some t1)
    (hfar : (now.val : Int) ≤ t1 + lockingLingerS) :
    sweepOrder now o = some (dropStaleIntents now o) := by
  have hexpires : expires now o = false := by
    unfold expires
    rw [hlocking]
    simp
  have hremovable : removable now o = false := by
    unfold removable
    rw [hlocking, ht1]
    exact decide_eq_false (by omega)
  rw [sweepOrder_eq, hexpires, hremovable]
  rfl

section Intents

variable {intent : VerifiedFillIntentV1} {kept : List StoredFillIntentV1}

theorem fillIntentEvent_exact (intent : VerifiedFillIntentV1) :
    exactPayload (fillIntentEvent o intent).payload ["orderId", "intent",
      "auth"] "federated fill intent event" =
      .ok ⟨⟩ := by
  unfold exactPayload
  rw [refuse_eq_ok, Bool.not_eq_false]
  rfl

theorem import_intent_run (hids : (s.orders.map Order.id).Nodup) (ho : o ∈ sweepAll now s.orders)
    (hpublic : isPublicPortable o = true) (hvariant : verifiedSignedOrder E now o = .ok v)
    (hproof : IntentProof E now v intent) (hnew : findIntent o intent.intentDigest = none)
    (hopen : o.status = .open)
    (hclean : o.equivocated = false) :
    importFillIntent E now o.id.val (some intent.intent.toJson) (some intent.auth.toJson) s =
      storeFillIntent E now o intent "federation" true (s.swept now) := by
  have hfind : (s.swept now).order? o.id.val = some o :=
    order?_of_mem (s := s.swept now) ((sweepAll_ids now s.orders).nodup hids) ho
  have hallowed :
    ¬((o.status ≠ .open ∧ ¬(o.status = .cancelled ∧ o.cancel = none)) ∨ o.equivocated = true) := by
    simp [hopen, hclean]
  unfold importFillIntent referencedPublicOrder
  rw [sweep_bind_run, get_bind_run, hfind, Option.filter_some, if_pos hpublic, orThrow,
    bind_run, check_ok]
  dsimp only
  rw [hvariant, bind_run, check_ok]
  dsimp only
  rw [hproof.verify, bind_run, check_ok]
  dsimp only
  rw [hnew]
  dsimp only
  rw [bind_run, refuse, if_neg hallowed, check_ok]

theorem storeFillIntent_federated (hnonce : ∀ j ∈ o.intents, j.auth.nonce ≠ intent.auth.nonce)
    (hbelow : liveIntentCount now o.intents < maxFillIntentsPerOrder) (takerIp : String) :
    storeFillIntent E now o intent takerIp true s =
      match makeRoom now o.intents intent with
      | .ok kept => .ok ⟨intent.intentDigest, intent.intent, intent.auth, now⟩
          ((s.update o.id (addFillIntent now kept intent (sha256Hex E takerIp))).persist.publishFor
            o.visibility
            (fillIntentEvent o intent))
      | .error e => .error e s := by
  have hfresh : ¬∃ j ∈ o.intents, (j : StoredFillIntentV1).auth.nonce = intent.auth.nonce :=
    fun ⟨j, hj, h⟩ => hnonce j hj h
  have hroom : ¬(now.val < intent.auth.expiresAt.val ∧
    maxFillIntentsPerOrder ≤ liveIntentCount now o.intents) :=
    fun h => absurd hbelow (not_lt.mpr h.2)
  unfold storeFillIntent assertDirectLimits
  rw [refuse, if_neg hfresh, refuse, if_neg hroom]
  simp only [if_true, bind_run, check_ok, pure_run]
  cases makeRoom now o.intents intent <;> rfl

theorem import_intent_apply (intent : VerifiedFillIntentV1) :
    after (applyFederationEvent E now (fillIntentEvent o intent) source random) s =
      after (importFillIntent E now o.id.val (some intent.intent.toJson)
        (some intent.auth.toJson)) s := by
  have hid : (asString ((fillIntentEvent o intent).payload.get "orderId")).bind
    (matching orderIdRe) = some o.id :=
    matching_val o.id
  have hkind : ¬(fillIntentEvent o intent).kind = .orderV2 := by simp [fillIntentEvent]
  unfold applyFederationEvent
  rw [if_neg hkind, hid, orThrow]
  unfold after
  rw [bind_run, check_ok]
  dsimp only
  rw [show (fillIntentEvent o intent).kind = .fillIntentV2 from rfl]
  dsimp only
  rw [fillIntentEvent_exact, bind_run, check_ok]
  exact after_discard
    (importFillIntent E now o.id.val (some intent.intent.toJson) (some intent.auth.toJson)) s

variable (source random) in
theorem import_intent_store (hids : (s.orders.map Order.id).Nodup) (ho : o ∈ sweepAll now s.orders)
    (hpublic : isPublicPortable o = true) (hvariant : verifiedSignedOrder E now o = .ok v)
    (hproof : IntentProof E now v intent) (hnew : findIntent o intent.intentDigest = none)
    (hopen : o.status = .open)
    (hclean : o.equivocated = false) (hnonce : ∀ j ∈ o.intents, j.auth.nonce ≠ intent.auth.nonce)
    (hbelow : liveIntentCount now o.intents < maxFillIntentsPerOrder)
    (hkept : makeRoom now o.intents intent = .ok kept) :
    after (applyFederationEvent E now (fillIntentEvent o intent) source random) s =
      (((s.swept now).update o.id
        (addFillIntent now kept intent (sha256Hex E "federation"))).persist.publishFor
        o.visibility (fillIntentEvent o intent)) := by
  rw [import_intent_apply]
  unfold after
  rw [import_intent_run hids ho hpublic hvariant hproof hnew hopen hclean,
    storeFillIntent_federated hnonce hbelow, hkept]
  rfl

variable (source random) in
theorem import_intent (hids : (s.orders.map Order.id).Nodup) (ho : o ∈ sweepAll now s.orders)
    (hpublic : isPublicPortable o = true) (hvariant : verifiedSignedOrder E now o = .ok v)
    (hproof : IntentProof E now v intent) (hnew : findIntent o intent.intentDigest = none)
    (hopen : o.status = .open)
    (hclean : o.equivocated = false) (hnonce : ∀ j ∈ o.intents, j.auth.nonce ≠ intent.auth.nonce)
    (hbelow : liveIntentCount now o.intents < maxFillIntentsPerOrder)
    (hkept : makeRoom now o.intents intent = .ok kept) :
    (after (applyFederationEvent E now (fillIntentEvent o intent) source random) s).orders =
      (sweepAll now s.orders).map fun x =>
        if x.id = o.id then addFillIntent now kept intent (sha256Hex E "federation") x else x := by
  rw [import_intent_store source random hids ho hpublic hvariant hproof hnew hopen hclean hnonce
    hbelow hkept]
  simp

end Intents

end Arrivals

/-! ## A listed order while proposals arrive -/

/-- The open row of a signed order, last written at `now`. -/
structure Standing (E : Crypto) (now : SafeInt) (v : VerifiedOrderV1) (o : Order) : Prop where
  portable : Portable E now v o
  isOpen : o.status = .open
  clean : o.equivocated = false
  conflicts : o.orderConflicts = []
  updated : o.updatedAt = now
  nofill : o.fill = none
  nocancel : o.cancel = none

/-- A book that the sweep leaves as it is, with the row `o` at its end. -/
structure EndsIn (now : SafeInt) (l : List Order) (o : Order) (s : Store) : Prop where
  orders : s.orders = l ++ [o]
  ids : (s.orders.map Order.id).Nodup
  swept : sweepAll now l = l
  kept : sweepOrder now o = some o

/-- The proposal as the book stores it when a peer sends it. -/
def received (E : Crypto) (now : SafeInt) (intent : VerifiedFillIntentV1) : StoredFillIntentV1 :=
  ⟨intent.intentDigest, intent.intent, intent.auth, now, sha256Hex E "federation", none⟩

/-- The row with the numbered proposals that peers sent, in order. -/
structure Gathers (E : Crypto) (now : SafeInt) (v : VerifiedOrderV1)
    (verified : Fin 16 → VerifiedFillIntentV1)
    (o : Order) (ks : List (Fin 16)) : Prop extends Standing E now v o where
  intents : o.intents = ks.map fun k => received E now (verified k)

section Standing

variable {E : Crypto} {now : SafeInt} {source : String} {random : Random} {s : Store}
  {v : VerifiedOrderV1}
  {o o' : Order} {l : List Order} {intent : VerifiedFillIntentV1} {fill : VerifiedFillV1}
  {kept : List StoredFillIntentV1}

theorem EndsIn.sweepAll_eq (h : EndsIn now l o s) : sweepAll now s.orders = l ++ [o] := by
  have hlast : sweepAll now [o] = [o] := by
    unfold sweepAll
    rw [List.filterMap_cons, h.kept]
    rfl
  rw [h.orders]
  unfold sweepAll at hlast ⊢
  rw [List.filterMap_append, hlast]
  exact congrArg (· ++ [o]) h.swept

theorem EndsIn.mem (h : EndsIn now l o s) : o ∈ sweepAll now s.orders := by
  rw [h.sweepAll_eq]
  exact List.mem_append_right _ (List.mem_singleton_self o)

theorem EndsIn.map_last (h : EndsIn now l o s) (f : Order → Order) :
    ((sweepAll now s.orders).map fun x => if x.id = o.id then f x else x) = l ++ [f o] := by
  have hids := h.ids
  rw [h.orders, List.map_append, List.nodup_append] at hids
  rw [h.sweepAll_eq, List.map_append, List.map_singleton, if_pos rfl]
  have hothers : (l.map fun x => if x.id = o.id then f x else x) = l.map id :=
    List.map_congr_left fun x hx => if_neg fun hid =>
      hids.2.2 x.id (List.mem_map_of_mem hx) o.id (List.mem_singleton_self _) hid
  rw [hothers, List.map_id]

theorem EndsIn.next {s' : Store} (h : EndsIn now l o s) (horders : s'.orders = l ++ [o'])
    (hid : o'.id = o.id)
    (hkept : sweepOrder now o' = some o') : EndsIn now l o' s' where
  orders := horders
  ids := by
    have hids := h.ids
    rw [h.orders, List.map_append, List.map_singleton] at hids
    rw [horders, List.map_append, List.map_singleton, hid]
    exact hids
  swept := h.swept
  kept := hkept

theorem Standing.public (h : Standing E now v o) (hpublic : v.order.visibility = .pub) :
    isPublicPortable o = true := by
  unfold isPublicPortable
  rw [h.portable.uses, h.portable.visibility, hpublic]
  rfl

theorem Standing.variant (h : Standing E now v o) : verifiedSignedOrder E now o = .ok v :=
  h.portable.verifiedSignedOrder_eq (h.portable.holdsPrelock h.nofill)

theorem Standing.swept (h : Standing E now v o) (hlive : now.val < v.auth.expiresAt.val)
    (hintents : ∀ j ∈ o.intents, now.val < j.auth.expiresAt.val + signedIntentRetentionS) :
    sweepOrder now o = some o := by
  refine sweepOrder_listed (.inl h.isOpen) h.updated hintents ?_
  intro a ha
  rw [h.portable.auth] at ha
  cases ha
  exact hlive

theorem standing_draft {l : List Order} {origin : Origin} {makerIp : String}
    (horigin : origin.verified = some v)
    (hproof : OrderProof E now v) (hopen : v.order.Unrestricted)
    (hdraft : draftOrder E l now v.order.record makerIp origin random = .ok o) :
    Standing E now v o ∧ o.intents = [] := by
  have hrow := draftOrder_signed horigin hproof hopen hdraft
  obtain ⟨terms, listing, prelock, -, -, -, ho⟩ := draftOrder_new hdraft
  refine ⟨⟨hrow.portable, ?_, ?_, ?_, ?_, ?_, ?_⟩, ?_⟩
  · rw [ho]; rfl
  · rw [ho]; rfl
  · rw [ho]; rfl
  · rw [ho]; rfl
  · rw [ho]; rfl
  · rw [ho]; rfl
  · rw [ho]
    simp [Order.intents, newOrder, horigin]

variable (source random) in
theorem Standing.import (h : Standing E now v o) (hs : EndsIn now l o s)
    (hpublic : v.order.visibility = .pub)
    (hproof : IntentProof E now v intent)
    (hdigest : ∀ j ∈ o.intents, j.intentDigest ≠ intent.intentDigest)
    (hnonce : ∀ j ∈ o.intents, j.auth.nonce ≠ intent.auth.nonce)
    (hbelow : liveIntentCount now o.intents < maxFillIntentsPerOrder)
    (hkept : makeRoom now o.intents intent = .ok kept) :
    (after (applyFederationEvent E now (fillIntentEvent o intent) source random) s).orders =
      l ++ [addFillIntent now kept intent (sha256Hex E "federation") o] ∧
    (s.intentAdmissions = [] →
      (after (applyFederationEvent E now (fillIntentEvent o intent) source random)
        s).intentAdmissions = []) := by
  have hnew : findIntent o intent.intentDigest = none := by
    rw [findIntent_eq_none]
    rintro hmem
    obtain ⟨j, hj, hsame⟩ := List.mem_map.mp hmem
    exact hdigest j hj hsame
  refine ⟨?_, fun hunasked => ?_⟩
  · rw [import_intent source random hs.ids hs.mem
      (h.public hpublic) h.variant hproof hnew h.isOpen h.clean hnonce hbelow
      hkept, hs.map_last]
  · rw [import_intent_store source random hs.ids hs.mem
      (h.public hpublic) h.variant hproof hnew h.isOpen h.clean hnonce
      hbelow hkept, Store.admissions_publishFor]
    exact Store.swept_unasked hunasked

theorem Standing.addFillIntent {kept : List StoredFillIntentV1} {ipHash : TokenHash}
    (h : Standing E now v o) :
    Standing E now v (addFillIntent now kept intent ipHash o) :=
  ⟨{ h.portable with retains := rfl }, h.isOpen, h.clean, h.conflicts, rfl, h.nofill, h.nocancel⟩

variable (source random) in
theorem Standing.filled (h : Standing E now v o) (hs : EndsIn now l o s)
    (hpublic : v.order.visibility = .pub)
    (hintent : IntentProof E now v intent) (hfill : FillProof E now v intent fill) :
    (after (applyFederationEvent E now (fillEvent o fill intent) source random) s).orders =
      l ++ [recordFill now fill (selectedSource E now o intent) o] := by
  have hdigest : fill.fill.orderDigest = v.orderDigest := (checkFillV1_eq_ok.mp hfill).1.orderDigest
  rw [import_fill source random hs.ids hs.mem (h.portable.visibility.trans hpublic) h.portable.uses
    (referenced_primary h.portable h.nofill hdigest) hintent hfill
      (.inl h.isOpen) h.nofill h.nocancel, hs.map_last]

section Gathers

variable {verified : Fin 16 → VerifiedFillIntentV1} {ks ls : List (Fin 16)} {k : Fin 16}

theorem Gathers.far (h : Gathers E now v verified o ks) {P : StoredFillIntentV1 → Prop}
    (hks : ∀ k ∈ ks, P (received E now (verified k))) : ∀ j ∈ o.intents, P j := by
  rw [h.intents]
  exact List.forall_mem_map.mpr hks

variable (source random) in
theorem Gathers.next (h : Gathers E now v verified o ks) (hs : EndsIn now l o s)
    (hpublic : v.order.visibility = .pub)
    (hproof : IntentProof E now v (verified k))
    (hnew : ∀ k' ∈ ks, (verified k').intentDigest ≠ (verified k).intentDigest ∧
      (verified k').auth.nonce ≠ (verified k).auth.nonce)
    (hbelow : liveIntentCount now o.intents < maxFillIntentsPerOrder)
    (hkept : makeRoom now o.intents (verified k) = .ok kept)
    (hls : kept = ls.map fun k => received E now (verified k)) :
    ∃ o', Gathers E now v verified o' (ls ++ [k]) ∧ o'.id = o.id ∧
      (after (applyFederationEvent E now (fillIntentEvent o (verified k)) source random) s).orders =
        l ++ [o'] ∧
      (s.intentAdmissions = [] →
        (after (applyFederationEvent E now (fillIntentEvent o (verified k)) source random)
          s).intentAdmissions = []) := by
  refine ⟨Book.addFillIntent now kept (verified k) (sha256Hex E "federation") o,
    ⟨h.toStanding.addFillIntent, ?_⟩, rfl,
    h.toStanding.import source random hs hpublic hproof (h.far fun k' hk' => (hnew k' hk').1)
      (h.far fun k' hk' => (hnew k' hk').2) hbelow hkept⟩
  rw [List.map_append, ← hls]
  rfl

end Gathers

end Standing

def arrival (now : SafeInt) (event : FederationEvent) : Step :=
  ⟨now, sampleRandom 'a' lowerHex_a, .applyFederationEvent event "peer"⟩

theorem timed_arrival {w : World} {now : SafeInt} (hclock : w.clock.val ≤ now.val)
    (event : FederationEvent) :
    w.timed (arrival now event) = arrival now event := by
  unfold World.timed
  rw [show max w.clock (arrival now event).now = (arrival now event).now from max_eq_right hclock]

theorem step_arrival {E : Crypto} {w : World} {now : SafeInt} (hclock : w.clock.val ≤ now.val)
    (event : FederationEvent) :
    w.step E (arrival now event) =
      ⟨after (applyFederationEvent E now event "peer" (sampleRandom 'a' (by decide))) w.store,
        now⟩ := by
  unfold World.step
  rw [timed_arrival hclock]
  rfl

/-! ## A sample swap -/

section Sample

theorem prefixed_hexOf (b : Bytes32) : prefixed (hexOf b) = b :=
  Subtype.ext (append_dropLead b.property)

theorem messages_ne {primaryType primaryType' : PrimaryType} {terms terms' : Record}
    (h : Encodes terms primaryType.fields) (h' : Encodes terms' primaryType'.fields)
    (hne : primaryType ≠ primaryType') :
    messageBytes (buildPayload primaryType terms) ≠
      messageBytes (buildPayload primaryType' terms') := by
  intro heq
  have hbytes := protocolMessageBytes_eq h
  rw [heq] at hbytes
  exact hne (primaryType_of_name
    (protocolMessageBytes_injective hbytes (protocolMessageBytes_eq h')).1)

theorem messageBytes_eleventh {primaryType : PrimaryType} {terms : Record}
    (h : Encodes terms primaryType.fields) :
    (messageBytes (buildPayload primaryType terms))[11]? = some 80 := by
  obtain ⟨rest, hrest⟩ := messageBytes_prefix h
  have hprefix : (utf8 messagePrefix)[11]? = some 80 := by decide +kernel
  rw [hrest, List.getElem?_append_left]
  · exact hprefix
  · exact (List.getElem?_eq_some_iff.mp hprefix).1

theorem intentMessage_nonce {intent intent' : FillIntentV1Body} {auth auth' : ProtocolAuthV1}
    (h : intentMessage intent auth = intentMessage intent' auth') : auth.nonce = auth'.nonce := by
  have hbytes := protocolMessageBytes_eq (intentTerms_encodes intent auth)
  have hbytes' := protocolMessageBytes_eq (intentTerms_encodes intent' auth')
  rw [show messageBytes (buildPayload .FillIntentV2 (intentTerms intent auth)) =
    messageBytes (buildPayload .FillIntentV2 (intentTerms intent' auth')) from h] at hbytes
  obtain ⟨-, rows, hrows, hrows'⟩ := protocolMessageBytes_injective hbytes hbytes'
  have hmem : ∀ {field : WireField}, field ∈ PrimaryType.fields .FillIntentV2 →
      field ∈ PrimaryType.fields
        (buildPayload .FillIntentV2 (intentTerms intent auth)).primaryType := id
  exact Subtype.ext
    (str_of_wireRows hrows hrows' (hmem (show ("requestNonce", .bytes32) ∈ _ by decide)) rfl rfl)

theorem digitChar_isLowerHex (k : Fin 16) : isLowerHex (Nat.digitChar k) = true := by
  revert k
  decide

/-- 32 bytes of one hexadecimal digit. -/
def digitNonce (k : Fin 16) : Bytes32 := repeated 64 (Nat.digitChar k) (digitChar_isLowerHex k)

theorem digitNonce_injective : Function.Injective digitNonce := by
  intro k k' h
  have hchar : Nat.digitChar k = Nat.digitChar k' := by
    have hthird := congrArg (fun b : Bytes32 => b.val.toList[2]?) h
    simpa [digitNonce, repeated] using hthird
  clear h
  revert k k'
  decide

/-- The messages on the roll are signed and hash to their numbers on it, other texts by their last
byte. -/
def rollCrypto (roll : List (List UInt8)) : Crypto where
  sha256 m := hexOf (digitNonce (Fin.ofNat 16
    (if m[11]? = some 80 then roll.idxOf m else 8 + (m.getLastD 0).toNat % 8)))
  shake256 _ := []
  verifyMessageForSigner _ _ _ _ m := decide (m ∈ roll)

section Roll

variable {roll : List (List UInt8)} {m : List UInt8}

theorem digest_roll (hm : m[11]? = some 80) :
    digestOfMessage (rollCrypto roll) m = digitNonce (Fin.ofNat 16 (roll.idxOf m)) := by
  unfold digestOfMessage rollCrypto
  dsimp only
  rw [if_pos hm]
  exact prefixed_hexOf _

theorem signed_roll {signer : String} {auth : ProtocolAuthV1} (hm : m ∈ roll) :
    SignedBy (rollCrypto roll) signer auth m := decide_eq_true hm

theorem rollCrypto_collisionFree (hlen : roll.length ≤ 16) (hroll : ∀ m ∈ roll, m[11]? = some 80) :
    CollisionFree (rollCrypto roll) := by
  rintro m m' ⟨_, _, _, _, hm⟩ ⟨_, _, _, _, hm'⟩ hhash
  have hm : m ∈ roll := of_decide_eq_true hm
  have hm' : m' ∈ roll := of_decide_eq_true hm'
  have hfirst : digestOfMessage (rollCrypto roll) m = digitNonce (Fin.ofNat 16 (roll.idxOf m)) :=
    digest_roll (hroll m hm)
  have hdigest := hfirst.symm.trans
    ((congrArg prefixed hhash).trans (digest_roll (hroll m' hm')))
  have hplace := congrArg Fin.val (digitNonce_injective hdigest)
  rw [Fin.val_ofNat, Fin.val_ofNat,
    Nat.mod_eq_of_lt ((List.idxOf_lt_length_iff.mpr hm).trans_le hlen),
    Nat.mod_eq_of_lt ((List.idxOf_lt_length_iff.mpr hm').trans_le hlen)] at hplace
  exact (List.idxOf_inj hm).mp hplace

end Roll

def swapAuth : MakerOrderAuthV1 := { sampleAuth with expiresAt := ⟨1012000, by decide⟩ }

def proposalAuth (k : Fin 16) : ProtocolAuthV1 :=
  { sampleAuth.toProtocolAuthV1 with expiresAt := ⟨1000100, by decide⟩, nonce := digitNonce k }

/-- `releaseSecret` of the proposals. -/
def swapSecret : Bytes32 := digitNonce 7

/-- The proposal of the `k`th taker. -/
def proposal (k : Fin 16) : FillIntentV1Body where
  orderDigest := digitNonce 0
  takerEthAccount := repeated 40 (Nat.digitChar k) (digitChar_isLowerHex k)
  takerQrlAccount := ⟨String.ofList ('Q' :: List.replicate 128 (Nat.digitChar k)),
    fixed_iff.mpr ⟨List.replicate 128 (Nat.digitChar k), by simp, by simp,
      by simp [digitChar_isLowerHex k]⟩⟩
  releaseCommitment :=
    computeReleaseCommitment (rollCrypto []) (digitNonce 0) (digitNonce k) swapSecret

theorem sampleResponder_safe : 1005000 ≤ maxSafeInteger := by decide

theorem sampleFillExpiry_safe : 1000600 ≤ maxSafeInteger := by decide

theorem sampleHashlock_ne : sampleHashlock ≠ emptyHashlock := by decide +kernel

/-- The fill that selects the proposal of ones. -/
def swapFill : FillV1Body where
  orderDigest := digitNonce 0
  intentDigest := digitNonce 1
  takerEthAccount := (proposal 1).takerEthAccount
  takerQrlAccount := (proposal 1).takerQrlAccount
  releaseCommitment := (proposal 1).releaseCommitment
  hashlock := sampleHashlock
  initiatorTimeout := ⟨1020000, sampleTimeout_safe⟩
  responderTimeout := ⟨1005000, sampleResponder_safe⟩
  hashlock_ne := sampleHashlock_ne

def swapFillAuth : ProtocolAuthV1 :=
  { sampleAuth.toProtocolAuthV1 with expiresAt := ⟨1000600, sampleFillExpiry_safe⟩ }

/-- The order, three proposals, and the fill of the first. -/
def swapRoll : List (List UInt8) :=
  [orderMessage sampleOrder swapAuth, intentMessage (proposal 1) (proposalAuth 1),
    intentMessage (proposal 2) (proposalAuth 2), intentMessage (proposal 3) (proposalAuth 3),
    fillMessage swapFill swapFillAuth (signedOrder (rollCrypto []) sampleOrder swapAuth)]

def swapCrypto : Crypto := rollCrypto swapRoll

def swapSigned : VerifiedOrderV1 := signedOrder swapCrypto sampleOrder swapAuth

def swapProposal (k : Fin 16) : VerifiedFillIntentV1 :=
  signedIntent swapCrypto (proposal k) (proposalAuth k)

def swapVerifiedFill : VerifiedFillV1 := signedFill swapCrypto swapFill swapFillAuth swapSigned

theorem swapRoll_eleventh : ∀ m ∈ swapRoll, m[11]? = some 80 := by
  unfold swapRoll
  simp only [List.forall_mem_cons]
  exact ⟨messageBytes_eleventh (orderTerms_encodes _ _),
    messageBytes_eleventh (intentTerms_encodes _ _),
    messageBytes_eleventh (intentTerms_encodes _ _),
      messageBytes_eleventh (intentTerms_encodes _ _),
    messageBytes_eleventh (fillTerms_encodes _ _ _), fun _ hm => absurd hm List.not_mem_nil⟩

theorem swapCrypto_collisionFree : CollisionFree swapCrypto :=
  rollCrypto_collisionFree (by decide) swapRoll_eleventh

theorem proposals_ne {k k' : Fin 16} (h : k ≠ k') :
    intentMessage (proposal k) (proposalAuth k) ≠ intentMessage (proposal k') (proposalAuth k') :=
  fun hsame => h (digitNonce_injective (intentMessage_nonce hsame))

theorem order_ne_proposal (k : Fin 16) :
    orderMessage sampleOrder swapAuth ≠ intentMessage (proposal k) (proposalAuth k) :=
  messages_ne (orderTerms_encodes _ _) (intentTerms_encodes _ _) (by decide)

theorem digest_swapSigned : swapSigned.orderDigest = digitNonce 0 := by
  have hdigest : digestOfMessage swapCrypto (orderMessage sampleOrder swapAuth) = _ :=
    digest_roll (messageBytes_eleventh (orderTerms_encodes sampleOrder swapAuth))
  have hplace : swapRoll.idxOf (orderMessage sampleOrder swapAuth) = 0 := List.idxOf_cons_self
  rw [hplace] at hdigest
  exact hdigest

theorem digest_swapProposal {k : Fin 16} (hk : k ∈ [1, 2, 3]) :
    (swapProposal k).intentDigest = digitNonce k := by
  have hplace : swapRoll.idxOf (intentMessage (proposal k) (proposalAuth k)) = k := by
    unfold swapRoll
    simp only [List.mem_cons, List.not_mem_nil, or_false] at hk
    rcases hk with rfl | rfl | rfl
    · rw [List.idxOf_cons_ne _ (order_ne_proposal 1), List.idxOf_cons_self]
      rfl
    · rw [List.idxOf_cons_ne _ (order_ne_proposal 2),
        List.idxOf_cons_ne _ (proposals_ne (by decide)),
        List.idxOf_cons_self]
      rfl
    · rw [List.idxOf_cons_ne _ (order_ne_proposal 3),
        List.idxOf_cons_ne _ (proposals_ne (by decide)),
        List.idxOf_cons_ne _ (proposals_ne (by decide)), List.idxOf_cons_self]
      rfl
  have hdigest : digestOfMessage swapCrypto (intentMessage (proposal k) (proposalAuth k)) = _ :=
    digest_roll (messageBytes_eleventh (intentTerms_encodes (proposal k) (proposalAuth k)))
  rw [hplace] at hdigest
  exact hdigest.trans (congrArg digitNonce (Fin.ofNat_val_eq_self k))

theorem swap_orderProof {now : SafeInt} (hnow : sampleClock.val ≤ now.val) :
    OrderProof swapCrypto now swapSigned := by
  have hrules : OrderRules now true sampleOrder swapAuth := by
    refine ⟨by decide, by decide, le_trans hnow (Nat.le_add_right _ _), (fun h => by cases h), ?_,
      by decide +kernel,
      iff_of_true rfl rfl⟩
    intro p hp
    cases hp
    decide
  exact checkOrderV1_eq_ok.mpr ⟨hrules, signed_roll List.mem_cons_self, rfl⟩

theorem swap_intentProof {allowExpired : Bool} {k : Fin 16} (hk : k ∈ [1, 2, 3]) :
    checkFillIntentV1 swapCrypto sampleClock allowExpired (proposal k) (proposalAuth k) swapSigned =
      .ok (swapProposal k) := by
  have hrules : IntentRules sampleClock allowExpired (proposal k) (proposalAuth k) swapSigned := by
    refine ⟨digest_swapSigned.symm, fun _ => ?_, ?_, ?_, ?_, ?_, ?_, fun _ => ?_,
      (fun _ h => by cases h),
      (fun _ h => by cases h)⟩
    all_goals
      clear hk
      revert k
      decide
  have hmem : intentMessage (proposal k) (proposalAuth k) ∈ swapRoll := by
    unfold swapRoll
    simp only [List.mem_cons, List.not_mem_nil, or_false] at hk ⊢
    rcases hk with rfl | rfl | rfl
    · exact .inr (.inl rfl)
    · exact .inr (.inr (.inl rfl))
    · exact .inr (.inr (.inr (.inl rfl)))
  exact checkFillIntentV1_eq_ok.mpr ⟨hrules, signed_roll hmem, rfl⟩

theorem swap_fillProof :
    FillProof swapCrypto sampleClock swapSigned (swapProposal 1) swapVerifiedFill := by
  have hrules : FillRules sampleClock true swapFill swapFillAuth swapSigned (swapProposal 1) := by
    refine ⟨digest_swapSigned.symm, (fun h => by cases h), by decide,
      (digest_swapProposal (by decide)).symm, rfl, rfl,
      rfl, rfl, by decide, by decide, by decide, by decide, (fun h => by cases h), by decide, by
        decide, by decide,
      (fun h => by cases h), by decide, ?_, fun _ => ⟨by decide, fun h => by cases h⟩⟩
    intro p hp
    cases hp
    exact ⟨rfl, rfl⟩
  have hmessage : fillMessage swapFill swapFillAuth swapSigned =
      fillMessage swapFill swapFillAuth (signedOrder (rollCrypto []) sampleOrder swapAuth) := by
    unfold fillMessage fillTerms
    rfl
  have hmem : fillMessage swapFill swapFillAuth swapSigned ∈ swapRoll := by
    unfold swapRoll
    simp only [List.mem_cons, List.not_mem_nil, or_false]
    exact .inr (.inr (.inr (.inr hmessage)))
  exact checkFillV1_eq_ok.mpr ⟨hrules, signed_roll hmem, rfl⟩

theorem sha256_roll {roll roll' : List (List UInt8)} {m : List UInt8} (hm : m[11]? ≠ some 80) :
    (rollCrypto roll).sha256 m = (rollCrypto roll').sha256 m := by
  unfold rollCrypto
  dsimp only
  rw [if_neg hm, if_neg hm]

theorem swap_commitment (k : Fin 16) :
    computeReleaseCommitment swapCrypto (digitNonce 0) (digitNonce k) swapSecret =
      (proposal k).releaseCommitment := by
  have hprefix : (utf8 releasePrefix)[11]? = some 82 := by decide +kernel
  unfold proposal computeReleaseCommitment
  refine congrArg prefixed (sha256_roll ?_)
  rw [List.append_assoc, List.append_assoc,
    List.getElem?_append_left (List.getElem?_eq_some_iff.mp hprefix).1, hprefix]
  decide

theorem swap_listed {w : World} {l : List Order} {o : Order}
    (hclock : w.clock.val ≤ sampleClock.val)
    (hids : (w.store.orders.map Order.id).Nodup) (hl : sweepAll sampleClock w.store.orders = l)
    (hdraft : draftOrder swapCrypto l sampleClock sampleOrder.record ("federation:" ++ "peer")
      (.federated swapSigned "peer") (sampleRandom 'a' lowerHex_a) = .ok o) :
    ∃ s, w.step swapCrypto (arrival sampleClock (orderEvent sampleOrder.record swapAuth)) =
      ⟨s, sampleClock⟩ ∧
      EndsIn sampleClock l o s ∧ Gathers swapCrypto sampleClock swapSigned swapProposal o [] ∧
      (w.store.intentAdmissions = [] → s.intentAdmissions = []) := by
  have hproof := swap_orderProof (Nat.le_refl sampleClock.val)
  have hopen : sampleOrder.Unrestricted := fun _ => ⟨rfl, rfl⟩
  obtain ⟨hstanding, hintents⟩ := standing_draft (v := swapSigned) rfl hproof hopen hdraft
  have hfresh := draftOrder_fresh hdraft
  subst hl
  have hnone : ∀ x ∈ sweepAll sampleClock w.store.orders, x.id ≠ signedOrderId swapSigned.orderId :=
    fun x hx => hstanding.portable.id ▸ hfresh x hx
  have hsource : federationSourceRe "peer" = true := by decide
  have horders := import_new (s := w.store) hproof hopen rfl hsource hnone hdraft
  refine ⟨_, step_arrival hclock _, ⟨horders, ?_, sweepAll_idem _ _, ?_⟩, ⟨hstanding, hintents⟩,
    fun hunasked => ?_⟩
  · rw [show (after
      (applyFederationEvent swapCrypto sampleClock (orderEvent sampleOrder.record swapAuth) "peer"
      (sampleRandom 'a' lowerHex_a)) w.store).orders = _ from horders, List.map_append,
        List.nodup_append]
    refine ⟨(sweepAll_ids _ _).nodup hids, List.nodup_singleton _, ?_⟩
    intro id hid id' hid'
    obtain ⟨x, hx, rfl⟩ := List.mem_map.mp hid
    obtain rfl := List.mem_singleton.mp hid'
    exact hfresh x hx
  · refine hstanding.swept (by decide) ?_
    rw [hintents]
    exact fun _ hj => absurd hj List.not_mem_nil
  · have hstore := import_new_run (s := w.store) hproof hopen rfl hsource hnone hdraft
    refine (congrArg Store.intentAdmissions hstore).trans ((insertNew_admissions _ _ _ _).trans ?_)
    exact Store.swept_unasked (Store.swept_unasked hunasked)

section Swap

variable {l : List Order} {o : Order} {s : Store} {ks : List (Fin 16)} {k : Fin 16}

theorem swap_retained (h : o.intents =
    ks.map fun k => received swapCrypto sampleClock (swapProposal k)) :
    ∀ j ∈ o.intents, sampleClock.val < j.auth.expiresAt.val + signedIntentRetentionS := by
  rw [h]
  refine List.forall_mem_map.mpr ?_
  intro k hk
  clear hk
  revert k
  decide

theorem swap_proposed (hs : EndsIn sampleClock l o s)
    (h : Gathers swapCrypto sampleClock swapSigned swapProposal o ks)
    (hk : k ∈ [1, 2, 3]) (hks : ∀ k' ∈ ks, k' ∈ [1, 2, 3] ∧ k' ≠ k)
    (hroom : ks.length < maxFillIntentsPerOrder) :
    ∃ s' o', World.step swapCrypto ⟨s,
      sampleClock⟩ (arrival sampleClock (fillIntentEvent o (swapProposal k))) =
        ⟨s', sampleClock⟩ ∧
      EndsIn sampleClock l o' s' ∧
      Gathers swapCrypto sampleClock swapSigned swapProposal o' (ks ++ [k]) ∧
      (s.intentAdmissions = [] → s'.intentAdmissions = []) := by
  have hlength : o.intents.length < maxFillIntentsPerOrder := by
    rw [h.intents, List.length_map]
    exact hroom
  have hnew : ∀ k' ∈ ks, (swapProposal k').intentDigest ≠ (swapProposal k).intentDigest ∧
      (swapProposal k').auth.nonce ≠ (swapProposal k).auth.nonce := by
    intro k' hk'
    obtain ⟨hmem, hne⟩ := hks k' hk'
    rw [digest_swapProposal hmem, digest_swapProposal hk]
    exact ⟨fun heq => hne (digitNonce_injective heq), fun heq => hne (digitNonce_injective heq)⟩
  obtain ⟨o', ho', hid, horders, hunasked⟩ :=
    h.next "peer" (sampleRandom 'a' lowerHex_a) hs rfl (swap_intentProof hk) hnew
    ((List.length_filter_le _ _).trans_lt hlength) (if_pos hlength) h.intents
  exact ⟨_, o', step_arrival (Nat.le_refl _) _,
    hs.next horders hid (ho'.swept (by decide) (swap_retained ho'.intents)),
    ho', hunasked⟩

theorem swap_filled (hs : EndsIn sampleClock l o s)
    (h : Standing swapCrypto sampleClock swapSigned o)
    (hintents : ∀ j ∈ o.intents, sampleClock.val < j.auth.expiresAt.val + signedIntentRetentionS) :
    ∃ s', World.step swapCrypto ⟨s,
      sampleClock⟩ (arrival sampleClock (fillEvent o swapVerifiedFill (swapProposal 1))) =
        ⟨s', sampleClock⟩ ∧
      EndsIn sampleClock l (recordFill sampleClock swapVerifiedFill
        (selectedSource swapCrypto sampleClock o (swapProposal 1)) o) s' := by
  have hintent : IntentProof swapCrypto sampleClock swapSigned (swapProposal 1) :=
    swap_intentProof (k := 1) (by decide)
  have horders := h.filled "peer" (sampleRandom 'a' lowerHex_a) hs rfl hintent swap_fillProof
  refine ⟨_, step_arrival (Nat.le_refl _) _, hs.next horders rfl ?_⟩
  have htimeout : (recordFill sampleClock swapVerifiedFill
      (selectedSource swapCrypto sampleClock o (swapProposal 1)) o).initiatorTimeout =
        some 1020000 := rfl
  rw [locking_kept rfl htimeout (by decide)]
  exact congrArg some (dropStaleIntents_eq hintents)

end Swap

theorem swap_draft :
    ∃ o, draftOrder swapCrypto [] sampleClock sampleOrder.record ("federation:" ++ "peer")
    (.federated swapSigned "peer") (sampleRandom 'a' lowerHex_a) = .ok o :=
  eq_ok_of_isOk (by decide +kernel)

end Sample

end QuantaSwap.Book
