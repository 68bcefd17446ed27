import QuantaSwap.Book.Federation

/-!
# What a call can do to the book

Every change of the orders map is one of the effects below, with the guards that
the code checked before it wrote. Whatever holds of the orders is proved from
this list, not from the operations.
-/

set_option autoImplicit false

namespace QuantaSwap.Book

open Lib.Js Lib.Text Lib.Checks

/-! ## What a call brings -/

/-- The order and the body of the signed fill that a call presents. -/
def Call.fill? : Call → Option (String × FillV1Body)
  | .fillOrder id rawFill .. => (canonicalFillBody rawFill).toOption.map (id, ·)
  | .applyFederationEvent ⟨.fillV2, payload⟩ _ =>
    (asString (payload.get "orderId")).bind fun id =>
      (canonicalFillBody (payload.get "fill")).toOption.map (id, ·)
  | _ => none

/-- The order and the body of the signed cancel that a call presents. -/
def Call.cancel? : Call → Option (String × CancelV1Body)
  | .cancelSigned id rawCancel .. => (canonicalCancelBody rawCancel).toOption.map (id, ·)
  | .applyFederationEvent ⟨.cancelV2, payload⟩ _ =>
    (asString (payload.get "orderId")).bind fun id =>
      (canonicalCancelBody (payload.get "cancel")).toOption.map (id, ·)
  | _ => none

/-- The order, the body and the authorization of the fill intent that a call presents. -/
def Call.intent? : Call → Option (String × FillIntentV1Body × ProtocolAuthV1)
  | .submitFillIntent id rawIntent rawAuth .. =>
    (canonicalFillIntentBody rawIntent).toOption.bind fun intent =>
      (parseAuth rawAuth).toOption.map fun auth => (id, intent, auth)
  | .applyFederationEvent ⟨.fillIntentV2, payload⟩ _ =>
    (asString (payload.get "orderId")).bind fun id =>
      (canonicalFillIntentBody (payload.get "intent")).toOption.bind fun intent =>
        (parseAuth (payload.get "auth")).toOption.map fun auth => (id, intent, auth)
  | _ => none

/-- The order and the announcement of a legacy maker. -/
def Call.announcement? : Call → Option (String × Record)
  | .announceHashlock id body => some (id, body)
  | _ => none

def sweepAll (now : SafeInt) (l : List Order) : List Order := l.filterMap (sweepOrder now)

section Effects

variable (E : Crypto) (i : Step)

/-- The call that asks for a new order, and what it was checked for. -/
inductive Asked : Record → String → Origin → Prop where
  | legacy (body : Record) (makerIp : String) (h : i.call = .create body makerIp) :
      Asked body makerIp .legacy
  | signed (body : Record) (makerIp : String) (verified : VerifiedOrderV1)
    (capabilities : Capabilities)
      (h : i.call = .createSigned body makerIp)
      (hverified : verifyOrderV1 E i.now false (body.get "order") (body.get "auth") =
        .ok verified) :
      Asked verified.order.record makerIp (.signed verified capabilities)
  | federated (payload : Record) (source : String) (verified : VerifiedOrderV1)
      (h : i.call = .applyFederationEvent ⟨.orderV2, payload⟩ source)
      (hverified : verifyOrderV1 E i.now true (payload.get "order") (payload.get "auth") =
        .ok verified)
      (hpublic : verified.order.visibility = .pub) :
      Asked verified.order.record ("federation:" ++ source) (.federated verified source)

/-- A terminal proof that was verified against a signed variant of the order. -/
inductive Presented (o : Order) : TerminalConflictEvidence → Prop where
  | fill (raw : Option Json) (variant : VerifiedOrderV1) (intent : VerifiedFillIntentV1)
    (fill : VerifiedFillV1)
      (hvariant : referencedSignedOrderVariant E i.now o raw = .ok variant)
      (hintent : IntentProof E i.now variant intent) (hfill : FillProof E i.now variant intent fill)
      (hcall : i.call.fill? = some (o.id.val, fill.fill)) :
      Presented o (.fill fill.fillDigest fill.fill fill.auth intent.intent intent.auth)
  | cancel (raw : Option Json) (variant : VerifiedOrderV1) (cancel : VerifiedCancelV1)
      (hvariant : referencedSignedOrderVariant E i.now o raw = .ok variant)
      (hcancel : CancelProof E i.now variant cancel)
        (hcall : i.call.cancel? = some (o.id.val, cancel.cancel)) :
      Presented o (.cancel cancel.cancelDigest cancel.cancel cancel.auth)

/-- A write to an order that settles by signed proofs. -/
inductive PortableChange (o : Order) : Order → Prop where
  | fillIntent (variant : VerifiedOrderV1) (verified : VerifiedFillIntentV1)
    (kept : List StoredFillIntentV1)
      (ipHash : TokenHash) (hvariant : verifiedSignedOrder E i.now o = .ok variant)
      (hproof : IntentProof E i.now variant verified)
        (hnew : findIntent o verified.intentDigest = none)
      (hopen : o.status = .open ∨ (o.status = .cancelled ∧ o.cancel = none))
        (hclean : o.equivocated = false)
      (hnonce : ∀ j ∈ o.intents, j.auth.nonce ≠ verified.auth.nonce)
      (hkept : makeRoom i.now o.intents verified = .ok kept)
      (hcall : i.call.intent? = some (o.id.val, verified.intent, verified.auth)) :
      PortableChange o (addFillIntent i.now kept verified ipHash o)
  | terminalConflict (evidence : TerminalConflictEvidence) (hpresented : Presented E i o evidence)
      (hsettled : o.fill.isSome ∨ o.cancel.isSome)
        (hnew : knowsTerminal o evidence.digest = false) :
      PortableChange o (addConflict i.now evidence o)
  | fill (raw : Option Json) (variant : VerifiedOrderV1) (intent : VerifiedFillIntentV1)
    (fill : VerifiedFillV1)
      (hvariant : referencedSignedOrderVariant E i.now o raw = .ok variant)
      (hintent : IntentProof E i.now variant intent) (hfill : FillProof E i.now variant intent fill)
      (hcall : i.call.fill? = some (o.id.val, fill.fill)) (hopen : o.status = .open ∨
        o.status = .cancelled)
      (hnofill : o.fill = none) (hnocancel : o.cancel = none) :
      PortableChange o (recordFill i.now fill (selectedSource E i.now o intent) o)
  | cancel (raw : Option Json) (variant : VerifiedOrderV1) (cancel : VerifiedCancelV1)
      (hvariant : referencedSignedOrderVariant E i.now o raw = .ok variant)
      (hcancel : CancelProof E i.now variant cancel)
        (hcall : i.call.cancel? = some (o.id.val, cancel.cancel))
      (hnofill : o.fill = none) (hnocancel : o.cancel = none) :
      PortableChange o (recordCancel i.now cancel o)
  | releaseFill (digest secret : Bytes32) (f : RecordedFill) (hdigest : o.orderDigest = some digest)
      (hfill : o.fill = some f)
      (hsecret : computeReleaseCommitment E digest f.selectedIntent.auth.nonce secret =
        f.fill.releaseCommitment) :
      PortableChange o (releaseFill i.now secret o)
  | releaseIntent (digest secret intentDigest : Bytes32) (intent : PublicFillIntentV1)
      (hdigest : o.orderDigest = some digest)
      (hintent : ((findIntent o intentDigest).map StoredFillIntentV1.publicIntent).or
        ((o.fill.map RecordedFill.selectedIntent).filter fun s => s.intentDigest = intentDigest) =
          some intent)
      (hsecret : computeReleaseCommitment E digest intent.auth.nonce secret =
        intent.intent.releaseCommitment) :
      PortableChange o (releaseIntent i.now intentDigest secret o)

/-- A write to an order that settles by tokens. -/
inductive LegacyChange (o : Order) : Order → Prop where
  | accept (eth : EthAddress) (qrl : QrlAddress) (tokenHash ipHash : TokenHash)
    (hopen : o.status = .open) :
      LegacyChange o (acceptOrder i.now eth qrl tokenHash ipHash o)
  | announce (body : Record) (terms : Hashlock × Int × Int)
      (hcall : i.call.announcement? = some (o.id.val, body))
        (hterms : announcedTerms i.now o body = .ok terms)
      (haccepted : o.status = .accepted) :
      LegacyChange o (announce i.now terms.1 terms.2.1 terms.2.2 o)
  | relist (body : Record) (haccepted : o.status = .accepted)
    (hcall : i.call = .release o.id.val body) :
      LegacyChange o (relist i.now o)
  | releaseLocking (hlocking : o.status = .locking) : LegacyChange o (releaseLocking i.now o)
  | withdraw : LegacyChange o (withdraw i.now o)

/-- One write to one stored order. -/
inductive Change (o : Order) : Order → Prop where
  | orderConflict (verified : VerifiedOrderV1) (hproof : OrderProof E i.now verified)
      (hopen : verified.order.Unrestricted) (hpublic : verified.order.visibility = .pub)
      (hid : o.id = signedOrderId verified.orderId)
        (hdigest : o.orderDigest ≠ some verified.orderDigest)
      (hnew : verified.orderDigest ∉ o.orderConflicts.map OrderConflictEvidence.orderDigest) :
      Change o (addOrderConflict verified i.now o)
  | portable {o' : Order} (hportable : usesPortableTerminalProtocol o = true)
    (h : PortableChange E i o o') :
      Change o o'
  | legacy {o' : Order} (hlegacy : usesPortableTerminalProtocol o = false)
    (h : LegacyChange i o o') :
      Change o o'

/-- One write to the orders map. -/
inductive Write : List Order → List Order → Prop where
  | create (l : List Order) (body : Record) (makerIp : String) (origin : Origin) (o : Order)
      (hasked : Asked E i body makerIp origin)
      (hdraft : draftOrder E l i.now body makerIp origin i.random = .ok o) :
      Write l (l ++ [o])
  | change (l : List Order) (o : Order) (f : Order → Order) (hmem : o ∈ l)
    (hchange : Change E i o (f o)) :
      Write l (l.map fun x => if x.id = o.id then f x else x)

/-- After the sweep a call writes at most once. -/
def Wrote (l l' : List Order) : Prop := l' = l ∨ Write E i l l'

/-- What a call does to the orders map: some sweeps, then at most one write. -/
inductive Effects : List Order → List Order → Prop where
  | kept (l : List Order) : Effects l l
  | wrote {l l' : List Order} (h : Wrote E i (sweepAll i.now l) l') : Effects l l'
  | sweep {l l' : List Order} (h : Effects (sweepAll i.now l) l') : Effects l l'

end Effects

/-! ## The operations have these effects -/

section Operations

variable {E : Crypto} {i : Step} {s : Store}

@[simp] theorem Store.orders_persist : s.persist.orders = s.orders := rfl

@[simp] theorem Store.orders_see (id : OrderId) (now : SafeInt) :
    (s.see id now).orders = s.orders := rfl

@[simp] theorem Store.orders_publishFor (v : Visibility) (e : FederationEvent) :
    (s.publishFor v e).orders = s.orders := by
  unfold Store.publishFor
  split <;> rfl

@[simp] theorem Store.orders_swept (now : SafeInt) : (s.swept now).orders = sweepAll now s.orders :=
  rfl

@[simp] theorem Store.orders_insert (o : Order) : (s.insert o).orders = s.orders ++ [o] := rfl

@[simp] theorem Store.orders_update (id : OrderId) (f : Order → Order) :
    (s.update id f).orders = s.orders.map fun o => if o.id = id then f o else o := rfl

@[simp] theorem Store.orders_recordIntentAdmission (ipHash : TokenHash) (now : SafeInt) :
    (s.recordIntentAdmission ipHash now).orders = s.orders := by
  unfold Store.recordIntentAdmission
  split
  · rfl
  · dsimp only
    split <;> rfl

theorem Store.order?_eq_some {id : String} {o : Order} (h : s.order? id = some o) :
    o ∈ s.orders ∧ o.id.val = id := by
  refine ⟨List.mem_of_find?_eq_some h, ?_⟩
  simpa using List.find?_some h

/-- The state an action leaves has the orders of `s` or one write more. -/
abbrev Writes {α : Type} (E : Crypto) (i : Step) (l : List Order) (m : StoreM α) (s : Store) :
    Prop :=
  Ends m s fun s' => Wrote E i l s'.orders

theorem ends_sweep {α : Type} {f : Unit → StoreM α}
    (h : Writes E i (s.swept i.now).orders (f ⟨⟩) (s.swept i.now)) :
    Ends (sweep i.now >>= f) s fun s' => Effects E i s.orders s'.orders := by
  apply ends_modify_bind
  exact .wrote h

theorem writes_change {α : Type} {o : Order} {f : Order → Order} {g : Store → Store} {k : StoreM α}
    (hmem : o ∈ s.orders) (hchange : Change E i o (f o))
    (hg : (g s).orders = s.orders.map fun x => if x.id = o.id then f x else x)
    (hk : ∀ t : Store, Ends k t fun t' => t'.orders = t.orders) :
    Writes E i s.orders (modify g >>= fun _ => k) s := by
  apply ends_modify_bind
  have horders : (stateOf (k (g s))).orders = (g s).orders := hk (g s)
  change Wrote E i s.orders (stateOf (k (g s))).orders
  rw [horders, hg]
  exact .inr (.change _ o f hmem hchange)

theorem terminalOrder_eq_ok {id : String} {federated : Bool} {makerToken : Option Json}
    {legacy : String}
    {o : Order} (h : terminalOrder E s id federated makerToken legacy = .ok o) :
    o ∈ s.orders ∧ o.id.val = id ∧ usesPortableTerminalProtocol o = true := by
  simp only [terminalOrder, bind_eq_ok, orThrow_eq_ok, refuse_eq_ok, exists_const] at h
  obtain ⟨o', hfind, -, h⟩ := h
  obtain ⟨hmem, hid⟩ := Store.order?_eq_some hfind
  split at h
  · simp only [bind_eq_ok, refuse_eq_ok, pure_eq_ok, exists_const] at h
    obtain ⟨_, -, hportable, rfl⟩ := h
    exact ⟨hmem, hid, by simpa using hportable⟩
  · simp only [bind_eq_ok, refuse_eq_ok, pure_eq_ok, exists_const] at h
    obtain ⟨-, hportable, rfl⟩ := h
    exact ⟨hmem, hid, by simpa using hportable⟩

theorem writes_rememberTerminalConflict {o : Order} {evidence : TerminalConflictEvidence}
    {event : FederationEvent} (hmem : o ∈ s.orders)
    (hportable : usesPortableTerminalProtocol o = true)
    (hpresented : Presented E i o evidence) (hsettled : o.fill.isSome ∨ o.cancel.isSome) :
    Writes E i s.orders (rememberTerminalConflict i.now o evidence event) s := by
  unfold rememberTerminalConflict
  split
  · exact .inl rfl
  · rename_i hnew
    exact writes_change hmem (.portable hportable
      (.terminalConflict evidence hpresented hsettled (by simpa using hnew))) (by simp) fun t => rfl

theorem settled_of_digest {o : Order} (h : o.fillDigest.isSome ∨ o.cancelDigest.isSome) :
    o.fill.isSome ∨ o.cancel.isSome := by
  simpa [Order.fillDigest, Order.cancelDigest] using h

theorem unsettled_of_digest {o : Order} (h : ¬(o.fillDigest.isSome ∨ o.cancelDigest.isSome)) :
    o.fill = none ∧ o.cancel = none := by
  simpa [Order.fillDigest, Order.cancelDigest] using h

theorem applyFill_effects {id : String}
    {rawFill rawAuth rawIntent rawIntentAuth makerToken : Option Json}
    {federated : Bool}
    (hcall : ∀ fill, canonicalFillBody rawFill = .ok fill → i.call.fill? = some (id, fill)) :
    Ends (applyFill E i.now id rawFill rawAuth rawIntent rawIntentAuth federated makerToken) s
      fun s' => Effects E i s.orders s'.orders := by
  unfold applyFill
  apply ends_sweep
  apply ends_get_bind
  refine ends_check_bind (.inl rfl) fun o horder => ?_
  refine ends_check_bind (.inl rfl) fun variant hvariant => ?_
  refine ends_check_bind (.inl rfl) fun intent hintent => ?_
  refine ends_check_bind (.inl rfl) fun fill hfill => ?_
  obtain ⟨hmem, rfl, hportable⟩ := terminalOrder_eq_ok horder
  have hproof := verifyFillIntentV1_proof hintent
  obtain ⟨hfillProof, hbody⟩ := verifyFillV1_proof hfill
  dsimp only
  split
  · rename_i hsettled
    exact writes_rememberTerminalConflict hmem hportable
      (.fill rawFill variant intent fill hvariant hproof hfillProof (hcall _ hbody))
        (settled_of_digest hsettled)
  · rename_i hunsettled
    obtain ⟨hnofill, hnocancel⟩ := unsettled_of_digest hunsettled
    refine ends_check_bind (.inl rfl) fun _ hopen => ?_
    rw [refuse_eq_ok] at hopen
    refine writes_change hmem
      (.portable hportable (.fill rawFill variant intent fill hvariant hproof hfillProof
      (hcall _ hbody) ?_ hnofill hnocancel)) (by simp) fun t => rfl
    by_cases h : o.status = .open
    · exact .inl h
    · right
      by_contra hne
      exact hopen ⟨h, fun hc => hne hc.2.1⟩

theorem applySignedCancel_effects {id : String} {rawCancel rawAuth makerToken : Option Json}
    {federated : Bool}
    (hcall : ∀ cancel, canonicalCancelBody rawCancel = .ok cancel →
      i.call.cancel? = some (id, cancel)) :
    Ends (applySignedCancel E i.now id rawCancel rawAuth federated makerToken) s
      fun s' => Effects E i s.orders s'.orders := by
  unfold applySignedCancel
  apply ends_sweep
  apply ends_get_bind
  refine ends_check_bind (.inl rfl) fun o horder => ?_
  refine ends_check_bind (.inl rfl) fun variant hvariant => ?_
  refine ends_check_bind (.inl rfl) fun cancel hcancel => ?_
  obtain ⟨hmem, rfl, hportable⟩ := terminalOrder_eq_ok horder
  obtain ⟨hproof, hbody⟩ := verifyCancelV1_proof hcancel
  dsimp only
  split
  · rename_i hsettled
    exact writes_rememberTerminalConflict hmem hportable
      (.cancel rawCancel variant cancel hvariant hproof (hcall _ hbody))
        (settled_of_digest hsettled)
  · rename_i hunsettled
    obtain ⟨hnofill, hnocancel⟩ := unsettled_of_digest hunsettled
    exact writes_change hmem (.portable hportable
      (.cancel rawCancel variant cancel hvariant hproof (hcall _ hbody) hnofill hnocancel)) (by
        simp) fun t => rfl

/-! ### Proposals -/

theorem keeps_recentIntentAdmissions (ipHash : TokenHash) :
    Keeps Store.orders (recentIntentAdmissions i.now ipHash) := fun _ => rfl

theorem keeps_shedFillIntent (o : Order) (rawAuth : Option Json) (takerIp : String) :
    Keeps Store.orders (shedFillIntent E i.now o rawAuth takerIp) := by
  unfold shedFillIntent
  dsimp only
  split
  · exact keeps_pure _
  · exact (keeps_check _).bind fun _ => (keeps_check _).bind fun _ => (keeps_check _).bind fun _ =>
      keeps_get.bind fun _ => (keeps_check _).bind fun _ =>
        (keeps_recentIntentAdmissions _).bind fun _ => keeps_check _

theorem keeps_assertDirectLimits (o : Order) (verified : VerifiedFillIntentV1) (ipHash : TokenHash)
    (federated : Bool) :
    Keeps Store.orders (assertDirectLimits i.now o verified ipHash federated) := by
  unfold assertDirectLimits
  split
  · exact keeps_pure _
  · exact (keeps_check _).bind fun _ => keeps_get.bind fun _ => (keeps_check _).bind fun _ =>
      (keeps_recentIntentAdmissions _).bind fun _ => keeps_check _

theorem writes_storeFillIntent {o : Order} {variant : VerifiedOrderV1}
    {verified : VerifiedFillIntentV1}
    {takerIp : String} {federated : Bool} (hmem : o ∈ s.orders)
    (hportable : usesPortableTerminalProtocol o = true)
    (hvariant : verifiedSignedOrder E i.now o = .ok variant)
    (hproof : IntentProof E i.now variant verified)
    (hnew : findIntent o verified.intentDigest = none)
    (hopen : o.status = .open ∨ (o.status = .cancelled ∧ o.cancel = none))
    (hclean : o.equivocated = false)
    (hcall : i.call.intent? = some (o.id.val, verified.intent, verified.auth)) :
    Writes E i s.orders (storeFillIntent E i.now o verified takerIp federated) s := by
  unfold storeFillIntent
  refine ends_check_bind (.inl rfl) fun _ hnonce => ?_
  rw [refuse_eq_ok] at hnonce
  refine ends_check_bind (.inl rfl) fun _ _ => ?_
  refine ends_keeps_bind (P := Wrote E i s.orders) (keeps_assertDirectLimits o verified _ federated)
    (.inl rfl)
    fun _ t ht => ?_
  rw [← ht] at hmem ⊢
  refine ends_check_bind (.inl rfl) fun kept hkept => ?_
  refine writes_change hmem
    (.portable hportable (.fillIntent variant verified kept (sha256Hex E takerIp)
    hvariant hproof hnew hopen hclean (fun j hj hn => hnonce ⟨j, hj, hn⟩) hkept hcall)) ?_
    fun t => rfl
  dsimp only
  split <;> simp

theorem verifyFillIntentV1_parsed {now : SafeInt} {allowExpired : Bool}
    {rawIntent rawAuth : Option Json}
    {order : VerifiedOrderV1} {verified : VerifiedFillIntentV1}
    (h : verifyFillIntentV1 E now allowExpired rawIntent rawAuth order = .ok verified) :
    canonicalFillIntentBody rawIntent = .ok verified.intent ∧
    parseAuth rawAuth = .ok verified.auth := by
  simp only [verifyFillIntentV1, bind_eq_ok] at h
  obtain ⟨intent, hintent, auth, hauth, hcheck⟩ := h
  obtain ⟨-, rfl, rfl⟩ := checkFillIntentV1_proof hcheck (Nat.le_refl _)
  exact ⟨hintent, hauth⟩

theorem submitFillIntent_effects {id : String} {rawIntent rawAuth shareToken : Option Json}
    {takerIp : String}
    (hcall : i.call = .submitFillIntent id rawIntent rawAuth takerIp shareToken) :
    Ends (submitFillIntent E i.now id rawIntent rawAuth takerIp shareToken) s
      fun s' => Effects E i s.orders s'.orders := by
  unfold submitFillIntent
  apply ends_sweep
  apply ends_get_bind
  refine ends_check_bind (.inl rfl) fun o horder => ?_
  obtain ⟨hmem, rfl⟩ := Store.order?_eq_some (orThrow_eq_ok.mp horder)
  refine ends_check_bind (.inl rfl) fun _ _ => ?_
  refine ends_check_bind (.inl rfl) fun _ hportable => ?_
  rw [refuse_eq_ok, Bool.not_eq_false] at hportable
  refine ends_keeps_bind (P := Wrote E i (s.swept i.now).orders)
    (keeps_shedFillIntent o rawAuth takerIp)
    (.inl rfl) fun _ t ht => ?_
  rw [← ht] at hmem ⊢
  refine ends_check_bind (.inl rfl) fun variant hvariant => ?_
  refine ends_check_bind (.inl rfl) fun verified hverified => ?_
  split
  · exact ends_pure (.inl rfl)
  · rename_i hnew
    refine ends_check_bind (.inl rfl) fun _ hopen => ?_
    rw [refuse_eq_ok, not_or, Decidable.not_not, Bool.not_eq_true] at hopen
    refine ends_check_bind (.inl rfl) fun _ _ => ?_
    refine ends_check_bind (.inl rfl) fun _ _ => ?_
    obtain ⟨hintent, hauth⟩ := verifyFillIntentV1_parsed hverified
    exact writes_storeFillIntent hmem hportable hvariant (verifyFillIntentV1_proof hverified) hnew
      (.inl hopen.1) hopen.2 (by rw [hcall, Call.intent?, hintent, hauth]; rfl)

theorem referencedPublicOrder_eq_ok {id : String} {o : Order}
    (h : referencedPublicOrder s id = .ok o) :
    o ∈ s.orders ∧ o.id.val = id ∧ isPublicPortable o = true := by
  rw [referencedPublicOrder, orThrow_eq_ok, Option.filter_eq_some_iff] at h
  obtain ⟨hmem, hid⟩ := Store.order?_eq_some h.1
  exact ⟨hmem, hid, h.2⟩

theorem portable_of_isPublicPortable {o : Order} (h : isPublicPortable o = true) :
    usesPortableTerminalProtocol o = true := by
  unfold isPublicPortable at h
  simp only [Bool.and_eq_true] at h
  exact h.2

theorem importFillIntent_effects {id : String} {rawIntent rawAuth : Option Json}
    (hcall : ∀ intent auth, canonicalFillIntentBody rawIntent = .ok intent →
      parseAuth rawAuth = .ok auth →
      i.call.intent? = some (id, intent, auth)) :
    Ends (importFillIntent E i.now id rawIntent rawAuth) s fun s' =>
      Effects E i s.orders s'.orders := by
  unfold importFillIntent
  apply ends_sweep
  apply ends_get_bind
  refine ends_check_bind (.inl rfl) fun o horder => ?_
  obtain ⟨hmem, rfl, hpublic⟩ := referencedPublicOrder_eq_ok horder
  refine ends_check_bind (.inl rfl) fun variant hvariant => ?_
  refine ends_check_bind (.inl rfl) fun verified hverified => ?_
  split
  · exact ends_pure (.inl rfl)
  · rename_i hnew
    refine ends_check_bind (.inl rfl) fun _ hopen => ?_
    rw [refuse_eq_ok, not_or, not_and_or, Decidable.not_not, Decidable.not_not,
      Bool.not_eq_true] at hopen
    obtain ⟨hintent, hauth⟩ := verifyFillIntentV1_parsed hverified
    exact writes_storeFillIntent hmem (portable_of_isPublicPortable hpublic) hvariant
      (verifyFillIntentV1_proof hverified) hnew hopen.1 hopen.2 (hcall _ _ hintent hauth)

/-! ### Creation -/

theorem createInternal_effects {body : Record} {makerIp : String} {origin : Origin}
    (hasked : Asked E i body makerIp origin) :
    Ends (createInternal E i.now body makerIp origin i.random) s fun s' =>
      Effects E i s.orders s'.orders := by
  unfold createInternal
  apply ends_sweep
  apply ends_get_bind
  split
  · unfold resubmit
    split
    · refine ends_check_bind (.inl rfl) fun _ _ => ?_
      refine ends_check_bind (.inl rfl) fun _ _ => ?_
      exact .inl rfl
    · refine ends_check_bind (.inl rfl) fun _ _ => ?_
      exact .inl rfl
  · refine ends_check_bind (.inl rfl) fun o hdraft => ?_
    have horders :
      (insertNew i.now o origin (s.swept i.now)).orders = (s.swept i.now).orders ++ [o] := by
      unfold insertNew
      dsimp only
      split <;> split <;> simp
    apply ends_modify_bind
    change Wrote E i (s.swept i.now).orders (insertNew i.now o origin (s.swept i.now)).orders
    rw [horders]
    exact .inr (.create _ body makerIp origin o hasked hdraft)

theorem create_effects {body : Record} {makerIp : String} (hcall : i.call = .create body makerIp) :
    Ends (create E i.now body makerIp i.random) s fun s' => Effects E i s.orders s'.orders :=
  ends_check_bind (.kept _) fun _ _ => createInternal_effects (.legacy body makerIp hcall)

theorem createSigned_effects {body : Record} {makerIp : String}
    (hcall : i.call = .createSigned body makerIp) :
    Ends (createSigned E i.now body makerIp i.random) s fun s' =>
      Effects E i s.orders s'.orders := by
  unfold createSigned createVerified
  refine ends_check_bind (.kept _) fun verified hverified => ?_
  refine ends_check_bind (.kept _) fun _ _ => ?_
  refine ends_check_bind (.kept _) fun capabilities _ => ?_
  exact createInternal_effects (.signed body makerIp verified capabilities hcall hverified)

theorem importVerifiedOrder_effects {payload : Record} {source : String}
    {verified : VerifiedOrderV1}
    (hcall : i.call = .applyFederationEvent ⟨.orderV2, payload⟩ source)
    (hverified : verifyOrderV1 E i.now true (payload.get "order") (payload.get "auth") =
      .ok verified) :
    Ends (importVerifiedOrder E i.now verified source i.random) s fun s' =>
      Effects E i s.orders s'.orders := by
  unfold importVerifiedOrder
  apply ends_modify_bind
  refine ends_check_bind (.wrote (.inl rfl)) fun _ hpublic => ?_
  rw [refuse_eq_ok, Decidable.not_not] at hpublic
  apply ends_get_bind
  split
  · rename_i o horder
    obtain ⟨hmem, hid⟩ := Store.order?_eq_some horder
    split
    · exact ends_pure (.wrote (.inl rfl))
    · rename_i hnew
      rw [not_or] at hnew
      obtain ⟨hproof, hopen⟩ := verifyOrderV1_proof hverified
      apply Effects.wrote
      exact writes_change (s := s.swept i.now) hmem
        (.orderConflict verified hproof hopen hpublic (Subtype.ext hid) hnew.1 hnew.2)
          (by simp) fun t => rfl
  · refine ends_check_bind (.wrote (.inl rfl)) fun _ _ => ?_
    have hcreate := createInternal_effects (s := s.swept i.now)
      (.federated payload source verified hcall hverified hpublic)
    refine ends_bind (Effects.sweep hcreate) fun _ _ _ h => h

/-! ### Legacy orders -/

theorem writes_commitTake {o : Order} {body : Record} {takerIp : String} (hmem : o ∈ s.orders)
    (hlegacy : usesPortableTerminalProtocol o = false) (hopen : o.status = .open) :
    Writes E i s.orders (commitTake E i.now o body takerIp i.random) s := by
  unfold commitTake
  apply ends_get_bind
  refine ends_check_bind (.inl rfl) fun _ _ => ?_
  refine ends_check_bind (.inl rfl) fun _ _ => ?_
  refine ends_check_bind (.inl rfl) fun eth _ => ?_
  refine ends_check_bind (.inl rfl) fun qrl _ => ?_
  refine ends_check_bind (.inl rfl) fun _ _ => ?_
  exact writes_change hmem
    (.legacy hlegacy
      (.accept eth qrl (sha256Hex E i.random.takerToken.val) (sha256Hex E takerIp) hopen))
    (by simp) fun t => rfl

theorem accept_effects {id : String} {body : Record} {takerIp : String} :
    Ends (accept E i.now id body takerIp i.random) s fun s' => Effects E i s.orders s'.orders := by
  unfold accept
  refine ends_check_bind (.kept _) fun _ _ => ?_
  apply ends_sweep
  apply ends_get_bind
  refine ends_check_bind (.inl rfl) fun o horder => ?_
  obtain ⟨hmem, -⟩ := Store.order?_eq_some (orThrow_eq_ok.mp horder)
  refine ends_check_bind (.inl rfl) fun _ _ => ?_
  refine ends_check_bind (.inl rfl) fun _ hlegacy => ?_
  rw [refuse_eq_ok, Bool.not_eq_true] at hlegacy
  refine ends_check_bind (.inl rfl) fun _ hopen => ?_
  rw [refuse_eq_ok, Decidable.not_not] at hopen
  refine ends_check_bind (.inl rfl) fun _ _ => ?_
  exact writes_commitTake hmem hlegacy hopen

theorem take_effects {body : Record} {takerIp : String} :
    Ends (take E i.now body takerIp i.random) s fun s' => Effects E i s.orders s'.orders := by
  unfold take
  refine ends_check_bind (.kept _) fun _ _ => ?_
  apply ends_sweep
  refine ends_check_bind (.inl rfl) fun direction _ => ?_
  refine ends_check_bind (.inl rfl) fun asset _ => ?_
  refine ends_check_bind (.inl rfl) fun maxPay _ => ?_
  refine ends_check_bind (.inl rfl) fun minReceive _ => ?_
  apply ends_get_bind
  refine ends_check_bind (.inl rfl) fun o hbest => ?_
  have hmem := List.mem_of_mem_head? (orThrow_eq_ok.mp hbest)
  rw [List.mem_mergeSort, List.mem_filter] at hmem
  obtain ⟨hmem, heligible⟩ := hmem
  simp only [takeEligible, Bool.and_eq_true, decide_eq_true_eq, Bool.not_eq_true'] at heligible
  exact writes_commitTake hmem heligible.1.1.1.1.1.1.1.2 heligible.1.1.1.1.1.1.1.1

theorem announceHashlock_effects {id : String} {body : Record}
    (hcall : i.call = .announceHashlock id body) :
    Ends (announceHashlock E i.now id body) s fun s' => Effects E i s.orders s'.orders := by
  unfold announceHashlock
  apply ends_sweep
  apply ends_get_bind
  refine ends_check_bind (.inl rfl) fun o horder => ?_
  obtain ⟨hmem, rfl⟩ := Store.order?_eq_some (orThrow_eq_ok.mp horder)
  refine ends_check_bind (.inl rfl) fun _ _ => ?_
  refine ends_check_bind (.inl rfl) fun _ hlegacy => ?_
  rw [refuse_eq_ok, Bool.not_eq_true] at hlegacy
  refine ends_check_bind (.inl rfl) fun _ haccepted => ?_
  rw [refuse_eq_ok, Decidable.not_not] at haccepted
  refine ends_check_bind (.inl rfl) fun terms hterms => ?_
  exact writes_change hmem
    (.legacy hlegacy (.announce body terms (by rw [hcall]; rfl) hterms haccepted))
    (by simp) fun t => rfl

theorem cancel_effects {id : String} {body : Record} :
    Ends (cancel E i.now id body) s fun s' => Effects E i s.orders s'.orders := by
  unfold cancel
  apply ends_sweep
  apply ends_get_bind
  refine ends_check_bind (.inl rfl) fun o horder => ?_
  obtain ⟨hmem, -⟩ := Store.order?_eq_some (orThrow_eq_ok.mp horder)
  refine ends_check_bind (.inl rfl) fun _ _ => ?_
  refine ends_check_bind (.inl rfl) fun _ hlegacy => ?_
  rw [refuse_eq_ok, Bool.not_eq_true] at hlegacy
  split
  · exact ends_pure (.inl rfl)
  · exact writes_change hmem (.legacy hlegacy .withdraw) (by simp) fun t => rfl

/-! ### Releases -/

theorem writes_releasePortable {o : Order} {body : Record} {federated : Bool} (hmem : o ∈ s.orders)
    (hportable : usesPortableTerminalProtocol o = true) :
    Writes E i s.orders (releasePortable E i.now o body federated) s := by
  unfold releasePortable
  refine ends_check_bind (.inl rfl) fun _ _ => ?_
  refine ends_check_bind (.inl rfl) fun _ _ => ?_
  refine ends_check_bind (.inl rfl) fun _ _ => ?_
  refine ends_check_bind (.inl rfl) fun _ _ => ?_
  refine ends_check_bind (.inl rfl) fun secret _ => ?_
  refine ends_check_bind (.inl rfl) fun digest hdigest => ?_
  rw [orThrow_eq_ok] at hdigest
  split
  · unfold releasePortableFill
    refine ends_check_bind (.inl rfl) fun f hf => ?_
    rw [orThrow_eq_ok, Option.filter_eq_some_iff] at hf
    refine ends_check_bind (.inl rfl) fun _ hsecret => ?_
    rw [refuse_eq_ok, Decidable.not_not] at hsecret
    split
    · exact .inl rfl
    · exact writes_change hmem
        (.portable hportable (.releaseFill digest secret f hdigest hf.1 hsecret))
        (by simp) fun t => rfl
  · unfold releasePortableIntent
    refine ends_check_bind (.inl rfl) fun intentDigest _ => ?_
    refine ends_check_bind (.inl rfl) fun intent hintent => ?_
    rw [orThrow_eq_ok] at hintent
    refine ends_check_bind (.inl rfl) fun _ hsecret => ?_
    rw [refuse_eq_ok, Decidable.not_not] at hsecret
    split
    · exact .inl rfl
    · exact writes_change hmem
        (.portable hportable
          (.releaseIntent digest secret intentDigest intent hdigest hintent hsecret))
        (by simp) fun t => rfl

theorem release_effects {id : String} {body : Record} (hcall : i.call = .release id body) :
    Ends (release E i.now id body) s fun s' => Effects E i s.orders s'.orders := by
  unfold release
  apply ends_sweep
  apply ends_get_bind
  refine ends_check_bind (.inl rfl) fun o horder => ?_
  obtain ⟨hmem, rfl⟩ := Store.order?_eq_some (orThrow_eq_ok.mp horder)
  split
  · rename_i hportable
    exact writes_releasePortable hmem hportable
  · rename_i hlegacy
    rw [Bool.not_eq_true] at hlegacy
    refine ends_check_bind (.inl rfl) fun _ _ => ?_
    split
    · rename_i haccepted
      exact writes_change hmem (.legacy hlegacy (.relist body haccepted hcall))
        (by simp) fun t => rfl
    · rename_i hlocking _
      exact writes_change hmem (.legacy hlegacy (.releaseLocking hlocking)) (by simp) fun t => rfl
    · exact ends_pure (.inl rfl)

theorem importRelease_effects {id : String} {body : Record} :
    Ends (importRelease E i.now id body) s fun s' => Effects E i s.orders s'.orders := by
  unfold importRelease
  apply ends_sweep
  apply ends_get_bind
  refine ends_check_bind (.inl rfl) fun o horder => ?_
  obtain ⟨hmem, -, hpublic⟩ := referencedPublicOrder_eq_ok horder
  exact writes_releasePortable hmem (portable_of_isPublicPortable hpublic)

/-! ### Reads, presence, and one call -/

theorem listFillIntents_effects {id : String} {makerToken : Option Json} :
    Ends (listFillIntents E i.now id makerToken) s fun s' => Effects E i s.orders s'.orders := by
  unfold listFillIntents
  apply ends_sweep
  apply ends_get_bind
  refine ends_check_bind (.inl rfl) fun o _ => ?_
  refine ends_check_bind (.inl rfl) fun _ _ => ?_
  refine ends_check_bind (.inl rfl) fun _ _ => ?_
  split <;> exact ends_pure (.inl rfl)

theorem getOrder_effects {id : String} {shareToken : Option Json} :
    Ends (getOrder E i.now id shareToken) s fun s' => Effects E i s.orders s'.orders := by
  unfold getOrder
  apply ends_sweep
  apply ends_get_bind
  refine ends_check_bind (.inl rfl) fun o _ => ?_
  refine ends_check_bind (.inl rfl) fun _ _ => ?_
  exact ends_pure (.inl rfl)

theorem heartbeat_effects {id : String} {body : Record} :
    Ends (heartbeat E i.now id body) s fun s' => Effects E i s.orders s'.orders := by
  unfold heartbeat
  apply ends_get_bind
  refine ends_check_bind (.kept _) fun o _ => ?_
  refine ends_check_bind (.kept _) fun _ _ => ?_
  exact .kept _

theorem applyFederationEvent_effects {event : FederationEvent} {source : String}
    (hcall : i.call = .applyFederationEvent event source) :
    Ends (applyFederationEvent E i.now event source i.random) s fun s' =>
      Effects E i s.orders s'.orders := by
  obtain ⟨kind, payload⟩ := event
  have hrefl : Effects E i s.orders s.orders := .kept _
  have hdone : ∀ (a : Unit) (s' : Store), Effects E i s.orders s'.orders →
      Ends (pure a : StoreM Unit) s' fun s' => Effects E i s.orders s'.orders := fun _ _ h => h
  unfold applyFederationEvent
  split
  · rename_i hkind
    obtain rfl : kind = .orderV2 := hkind
    refine ends_check_bind hrefl fun _ _ => ?_
    refine ends_check_bind hrefl fun verified hverified => ?_
    exact ends_bind (importVerifiedOrder_effects hcall hverified) fun _ s' _ h => hdone _ s' h
  · refine ends_check_bind hrefl fun id hid => ?_
    rw [orThrow_eq_ok] at hid
    have hstr : asString (payload.get "orderId") = some id.val := by
      obtain ⟨str, hstr, hmatch⟩ := Option.bind_eq_some_iff.mp hid
      rw [hstr, matching_eq_some.mp hmatch]
    split
    · exact hrefl
    · refine ends_check_bind hrefl fun _ _ => ?_
      refine ends_bind (importFillIntent_effects fun intent auth hintent hauth =>
        ?_) fun _ s' _ h => hdone _ s' h
      rw [hcall]
      simp_all [Call.intent?, Except.toOption]
    · refine ends_check_bind hrefl fun _ _ => ?_
      refine ends_bind (applyFill_effects fun fill hfill => ?_) fun _ s' _ h => hdone _ s' h
      rw [hcall]
      simp_all [Call.fill?, Except.toOption]
    · refine ends_check_bind hrefl fun _ _ => ?_
      refine ends_bind (applySignedCancel_effects fun cancel hcancel => ?_) fun _ s' _ h =>
        hdone _ s' h
      rw [hcall]
      simp_all [Call.cancel?, Except.toOption]
    · refine ends_check_bind hrefl fun _ _ => ?_
      exact ends_bind importRelease_effects fun _ s' _ h => hdone _ s' h

/-- Every call changes the orders map through the effects above only. -/
theorem step_effects (E : Crypto) (s : Store) (i : Step) :
    Effects E i s.orders (step E s i).orders := by
  unfold step
  cases hcall : i.call with
  | listOpen => exact .wrote (.inl rfl)
  | get id shareToken => exact getOrder_effects
  | create body makerIp => exact create_effects hcall
  | createSigned body makerIp => exact createSigned_effects hcall
  | heartbeat id body => exact heartbeat_effects
  | submitFillIntent id intent auth takerIp shareToken => exact submitFillIntent_effects hcall
  | listFillIntents id makerToken => exact listFillIntents_effects
  | fillOrder id rawFill rawAuth rawIntent rawIntentAuth makerToken =>
    refine applyFill_effects fun fill hfill => ?_
    rw [hcall]
    simp [Call.fill?, hfill, Except.toOption]
  | cancelSigned id rawCancel rawAuth makerToken =>
    refine applySignedCancel_effects fun cancel hcancel => ?_
    rw [hcall]
    simp [Call.cancel?, hcancel, Except.toOption]
  | accept id body takerIp => exact accept_effects
  | take body takerIp => exact take_effects
  | announceHashlock id body => exact announceHashlock_effects hcall
  | release id body => exact release_effects hcall
  | cancel id body => exact cancel_effects
  | federationSnapshot sweeps =>
    cases sweeps with
    | false => exact .kept _
    | true => exact .wrote (.inl rfl)
  | applyFederationEvent event source => exact applyFederationEvent_effects hcall

end Operations

end QuantaSwap.Book
