import QuantaSwap.Book.Hashlocks
import QuantaSwap.Book.Proven

/-!
# The orders file reads back

`load` accepts what `writeSnapshot` wrote and gives the same orders, in runs whose
legacy timeouts are safe integers, whose terminals name the primary order, and
whose hashlocks are fresh.
-/

set_option autoImplicit false

namespace QuantaSwap.Book

open Lib.Js Lib.Text Lib.Checks Lib.Run

/-! ## Reading one field -/

section Fields

variable {row : Record} {field : String} {re : String → Bool} (index : Nat)

theorem matchingString_ok {m : Matching re} (h : row.get field = some (strJson m)) :
    matchingString row index field re = .ok m := by
  simp [matchingString, h, strJson, asString, orThrow]

theorem optionalMatchingString_ok {m : Option (Matching re)} (h : row.get field = m.map strJson) :
    optionalMatchingString row index field re = .ok m := by
  unfold optionalMatchingString
  rw [h]
  cases m with
  | none => rfl
  | some m => simp [strJson, asString, orThrow]

theorem nullableMatchingString_ok {m : Option (Matching re)}
    (h : row.get field = some (nullJson strJson m)) :
    nullableMatchingString row index field re = .ok m := by
  unfold nullableMatchingString
  rw [h]
  cases m with
  | none => rfl
  | some m => simp [nullJson, strJson, asString, orThrow]

theorem asSafe_safeJson (n : SafeInt) : asSafe (some (safeJson n)) = some n := toSafe?_ofNat n

theorem safeInteger_ok {n : SafeInt} (h : row.get field = some (safeJson n)) :
    safeInteger row index field = .ok n := by
  rw [safeInteger, h, asSafe_safeJson]
  rfl

theorem optionalSafeInteger_ok {n : Option SafeInt} (h : row.get field = n.map safeJson) :
    optionalSafeInteger row index field = .ok n := by
  unfold optionalSafeInteger
  rw [h]
  cases n with
  | none => rfl
  | some n =>
    simp only [Option.map_some, asSafe_safeJson]
    rfl

/-- An integer that the persistence layer reads back. -/
def IsSafe (z : Int) : Prop := 0 ≤ z ∧ z ≤ maxSafeInteger

theorem nullableSafeInteger_ok {z : Option Int} (hsafe : ∀ x ∈ z, IsSafe x)
    (h : row.get field = some (nullJson intJson z)) :
    nullableSafeInteger row index field = .ok z := by
  unfold nullableSafeInteger
  rw [h]
  cases z with
  | none => rfl
  | some z =>
    obtain ⟨hpos, hle⟩ := hsafe z rfl
    have hle' : z.toNat ≤ maxSafeInteger := by omega
    have hread : asSafe (some (intJson z)) = some ⟨z.toNat, hle'⟩ := toSafe?_int z hpos hle'
    change (orThrow (asSafe (some (intJson z))) _ >>= fun n => pure (some (n.val : Int))) =
      Except.ok (some z)
    rw [hread]
    change Except.ok (some ((z.toNat : Nat) : Int)) = Except.ok (some z)
    rw [Int.toNat_of_nonneg hpos]

end Fields

/-! ## The properties of a written row -/

def orderKeys : List String :=
  ["id", "direction", "asset", "fromAmount", "toAmount", "makerEthAccount",
    "makerQrlAccount", "status",
    "takerEthAccount", "takerQrlAccount", "hashlock", "initiatorTimeout", "responderTimeout",
      "prelocked",
    "createdAt", "updatedAt", "visibility", "shareTokenHash", "allowedTakerEth", "allowedTakerQrl",
    "makerTokenHash", "takerTokenHash", "acceptorIpHash", "creatorIpHash", "federationSourceHash",
      "makerAuth",
    "orderDigest", "fillIntents", "fill", "fillAuth", "fillDigest", "selectedIntent", "cancelProof",
    "cancelAuth", "cancelDigest", "equivocated", "conflicts", "orderConflicts", "acceptedAt",
      "releasedAt",
    "releaseSecret"]

theorem Order.row_get (o : Order) (key : String) :
    Record.get (object o.fields) key = (o.fields.lookup key).join :=
  get_object (show orderKeys.Nodup by decide)

/-- The part of an order that `hydrateBase` reads. -/
def Order.base (o : Order) : Order where
  id := o.id
  direction := o.direction
  asset := o.asset
  fromAmount := o.fromAmount
  toAmount := o.toAmount
  makerEthAccount := o.makerEthAccount
  makerQrlAccount := o.makerQrlAccount
  status := o.status
  takerEthAccount := o.takerEthAccount
  takerQrlAccount := o.takerQrlAccount
  hashlock := o.hashlock
  initiatorTimeout := o.initiatorTimeout
  responderTimeout := o.responderTimeout
  prelocked := o.prelocked
  createdAt := o.createdAt
  updatedAt := o.updatedAt
  visibility := o.visibility
  shareTokenHash := o.shareTokenHash
  allowedTakerEth := o.allowedTakerEth
  allowedTakerQrl := o.allowedTakerQrl
  makerTokenHash := o.makerTokenHash
  takerTokenHash := o.takerTokenHash
  acceptorIpHash := o.acceptorIpHash
  creatorIpHash := o.creatorIpHash
  federationSourceHash := o.federationSourceHash
  acceptedAt := o.acceptedAt
  releasedAt := o.releasedAt
  releaseSecret := o.releaseSecret

/-- The timeouts of the row are safe integers. -/
def SafeTimeouts (o : Order) : Prop :=
  (∀ z ∈ o.initiatorTimeout, IsSafe z) ∧ ∀ z ∈ o.responderTimeout, IsSafe z

theorem hydrateBase_ok {o : Order} (hformed : Wellformed o) (hsafe : SafeTimeouts o) (index : Nat) :
    hydrateBase (object o.fields) index = .ok o.base := by
  have hget := o.row_get
  have hdirection : (object o.fields).get "direction" = some (.str o.direction.name) :=
    hget "direction"
  have hstatus : (object o.fields).get "status" = some (.str o.status.name) := hget "status"
  have hasset : (object o.fields).get "asset" = some (.str o.asset.name) := hget "asset"
  have hvisibility : (object o.fields).get "visibility" = some (.str o.visibility.name) :=
    hget "visibility"
  have hprelocked : (object o.fields).get "prelocked" = if o.prelocked then
    some (.bool true) else none :=
    hget "prelocked"
  -- A row with a share token is private, so the reader infers nothing that was not written.
  have hvis : (if o.visibility = .priv ∨ o.shareTokenHash.isSome = true then Visibility.priv
      else Visibility.pub) = o.visibility := by
    cases hv : o.visibility with
    | priv => simp
    | pub =>
      have hshare : ¬o.shareTokenHash.isSome = true := by
        intro hs
        rw [hformed.shareTokenHash hs] at hv
        cases hv
      simp [hshare]
  simp only [hydrateBase, hdirection, hstatus, hasset, hvisibility, direction_ofJson?_name,
    status_ofJson?_name,
    visibility_ofJson?_name, asString, Option.bind_some, knownAsset_name, orThrow, ok_bind,
    matchingString_ok index (hget "id"), matchingString_ok index (hget "fromAmount"),
    matchingString_ok index (hget "toAmount"), matchingString_ok index (hget "makerEthAccount"),
    matchingString_ok index (hget "makerQrlAccount"),
      matchingString_ok index (hget "makerTokenHash"),
    optionalMatchingString_ok index (hget "shareTokenHash"),
      optionalMatchingString_ok index (hget "allowedTakerEth"),
    optionalMatchingString_ok index (hget "allowedTakerQrl"),
    optionalMatchingString_ok index (hget "takerTokenHash"),
    optionalMatchingString_ok index (hget "acceptorIpHash"),
      optionalMatchingString_ok index (hget "creatorIpHash"),
    optionalMatchingString_ok index (hget "federationSourceHash"),
    optionalMatchingString_ok index (hget "releaseSecret"),
      nullableMatchingString_ok index (hget "hashlock"),
    nullableMatchingString_ok index (hget "takerEthAccount"),
    nullableMatchingString_ok index (hget "takerQrlAccount"),
    nullableSafeInteger_ok index hsafe.1 (hget "initiatorTimeout"),
    nullableSafeInteger_ok index hsafe.2 (hget "responderTimeout"),
    optionalSafeInteger_ok index (hget "acceptedAt"),
      optionalSafeInteger_ok index (hget "releasedAt"),
    safeInteger_ok index (hget "createdAt"), safeInteger_ok index (hget "updatedAt"), hvis]
  refine congrArg (fun b : Bool => Except.ok { o.base with prelocked := b }) (?_ : _ = o.prelocked)
  rw [hprelocked]
  cases hp : o.prelocked with
  | false => rfl
  | true =>
    obtain ⟨hlock, htimeout⟩ := hformed.prelocked hp
    simp [hlock, htimeout]

/-! ## Proofs verify again -/

section Proofs

variable {E : Crypto} {now : SafeInt} {v : VerifiedOrderV1} {o : Order} (index : Nat)

theorem hydrateList_ok {α : Type} {f : Nat → Json → Except Thrown α} {write : α → Json} {l : List α}
    (h : ∀ a ∈ l, ∀ k, f k (write a) = .ok a) (k : Nat) :
    hydrateList f k (l.map write) = .ok l := by
  induction l generalizing k with
  | nil => rfl
  | cons a l ih =>
    rw [List.map_cons, hydrateList, h a List.mem_cons_self, ok_bind,
      ih (fun b hb => h b (List.mem_cons_of_mem _ hb))]
    rfl

theorem isStr_strJson {re : String → Bool} (m : Matching re) :
    isStr (some (strJson m)) m.val = true := by
  simp [isStr, strJson, asString]

theorem hydrateRelease_ok {row : Record} {field : String} {j : StoredFillIntentV1}
    (hat : row.get "releasedAt" = j.release.map fun r => safeJson r.releasedAt)
    (hsecret : row.get "releaseSecret" = j.release.map fun r => .str r.releaseSecret.val)
    (hproof : ReleaseProof E v j) :
    hydrateRelease E row index field v j.verified = .ok j.release := by
  unfold hydrateRelease
  rw [hat, hsecret]
  cases hr : j.release with
  | none => rfl
  | some r =>
    have hopens : computeReleaseCommitment E v.orderDigest j.verified.auth.nonce r.releaseSecret =
        j.verified.intent.releaseCommitment := hproof r hr
    simp only [Option.map_some, asSafe_safeJson, orThrow, asString, Option.bind_some, matching_val,
      Except.map,
      ok_bind, refuse, hopens]
    simp

theorem hydrateIntentProof_stored {field : String} {j : StoredFillIntentV1}
    (hproof : IntentProof E now v j.verified)
    (hrelease : ReleaseProof E v j) :
    hydrateIntentProof E now (some j.toJson) index field v true = .ok j := by
  have hget (key : String) : Record.get (object j.fields) key = (j.fields.lookup key).join :=
    get_object (show ["intentDigest", "intent", "auth", "receivedAt", "acceptorIpHash",
      "releasedAt",
      "releaseSecret"].Nodup by decide)
  have hintent : (object j.fields).get "intent" = some j.intent.toJson := hget "intent"
  have hauth : (object j.fields).get "auth" = some j.auth.toJson := hget "auth"
  have hdigest : (object j.fields).get "intentDigest" = some (.str j.intentDigest.val) :=
    hget "intentDigest"
  have hreceived : (object j.fields).get "receivedAt" = some (safeJson j.receivedAt) :=
    hget "receivedAt"
  have hip : (object j.fields).get "acceptorIpHash" = some (.str j.acceptorIpHash.val) :=
    hget "acceptorIpHash"
  have hverify :
    verifyFillIntentV1 E now true (some j.intent.toJson) (some j.auth.toJson) v = .ok j.verified :=
    hproof.verify
  have hstr : isStr (some (.str j.intentDigest.val)) j.verified.intentDigest.val = true :=
    isStr_strJson j.intentDigest
  unfold hydrateIntentProof StoredFillIntentV1.toJson
  simp only [persistedObject, asRecord, orThrow, ok_bind, hintent, hauth, hdigest, hreceived, hip,
    hverify, hstr,
    refuse, asSafe_safeJson, asString, Option.bind_some, matching_val, if_true,
    hydrateRelease_ok index (hget "releasedAt") (hget "releaseSecret") hrelease]
  rfl

theorem hydrateIntentProof_selected {field : String} {s : PublicFillIntentV1}
    (hproof : IntentProof E now v s.verified) :
    hydrateIntentProof E now (some s.toJson) index field v false =
      .ok ⟨s.intentDigest, s.intent, s.auth, s.receivedAt, sha256Hex E "federated-intent",
        none⟩ := by
  have hverify :
    verifyFillIntentV1 E now true (some s.intent.toJson) (some s.auth.toJson) v = .ok s.verified :=
    hproof.verify
  have hdigest : isStr (some (.str s.intentDigest.val)) s.verified.intentDigest.val = true :=
    isStr_strJson s.intentDigest
  unfold hydrateIntentProof PublicFillIntentV1.toJson
  simp only [persistedObject, asRecord, orThrow, ok_bind, Record.get, List.lookup_cons,
    String.reduceBEq, BEq.rfl, hverify,
    hdigest, refuse, asSafe_safeJson]
  rfl

theorem listJson_map {α : Type} (f : α → Json) (l : List α) :
    (listJson f l = none ∧ l = []) ∨ listJson f l = some (.arr (l.map f)) := by
  cases l with
  | nil => exact .inl ⟨rfl, rfl⟩
  | cons a l => exact .inr rfl

theorem hydrateOptionalList_listJson {α : Type} {f : Nat → Json → Except Thrown α}
    {write : α → Json} {l : List α}
    {cap : Nat} (refused : Thrown) (hcap : l.length ≤ cap)
    (h : ∀ a ∈ l, ∀ k, f k (write a) = .ok a) :
    ∃ r, hydrateOptionalList (listJson write l) cap refused f = .ok r ∧ r.getD [] = l := by
  rcases listJson_map write l with ⟨hnone, rfl⟩ | hsome
  · rw [hnone]
    exact ⟨none, rfl, rfl⟩
  · refine ⟨some l, ?_, rfl⟩
    have hle : ¬cap < (l.map write).length := by rw [List.length_map]; omega
    rw [hsome]
    simp only [hydrateOptionalList, asArray, orThrow, ok_bind, refuse, if_neg hle, hydrateList_ok h]
    rfl

theorem hydrateFillIntents_ok (hrow : SignedRow E now v o) :
    hydrateFillIntents E now (object o.fields) index v = .ok o.fillIntents := by
  have hget : (object o.fields).get "fillIntents" = o.fillIntents.map fun l =>
    .arr (l.map StoredFillIntentV1.toJson) :=
    o.row_get "fillIntents"
  obtain ⟨l, hl⟩ := Option.isSome_iff_exists.mp hrow.portable.retains
  have hintents : o.intents = l := by rw [Order.intents, hl]; rfl
  have hcap : ¬maxFillIntentsPerOrder < (l.map StoredFillIntentV1.toJson).length := by
    rw [List.length_map, ← hintents]
    exact Nat.not_lt.mpr hrow.retained.intents_le
  have hnodup : ¬¬(l.map StoredFillIntentV1.intentDigest).Nodup := by
    rw [← hintents]
    exact not_not_intro hrow.retained.digests
  have hread : ∀ j ∈ l, ∀ k :
    Nat, hydrateIntentProof E now (some j.toJson) index ("fill intent " ++ k.repr) v true =
      .ok j := by
    intro j hj k
    rw [← hintents] at hj
    exact hydrateIntentProof_stored index (hrow.retained.proofs j hj) (hrow.retained.releases j hj)
  have hlist : hydrateList
    (fun k item => hydrateIntentProof E now (some item) index ("fill intent " ++ k.repr) v true)
      0 (l.map StoredFillIntentV1.toJson) = .ok l := hydrateList_ok hread 0
  unfold hydrateFillIntents
  rw [hget, hl]
  simp only [Option.map_some, hydrateOptionalList, asArray, orThrow, ok_bind, refuse, if_neg hcap,
    hlist, Pure.pure,
    Except.pure, Option.getD_some, if_neg hnodup]

theorem hydrateSelected_ok (hproven : Proven E now v o) :
    hydrateSelected E now (object o.fields) index v = .ok (o.fill.map fun f =>
      ⟨f.selectedIntent.intentDigest, f.selectedIntent.intent, f.selectedIntent.auth,
        f.selectedIntent.receivedAt,
        sha256Hex E "federated-intent", none⟩) := by
  have hget : (object o.fields).get "selectedIntent" =
    o.fill.map fun f => f.selectedIntent.toJson :=
    o.row_get "selectedIntent"
  unfold hydrateSelected
  rw [hget]
  cases hf : o.fill with
  | none => rfl
  | some f =>
    simp only [Option.map_some, hydrateIntentProof_selected index (hproven.intent f hf)]
    rfl

theorem hydrateFill_ok (hrow : SignedRow E now v o) (hproven : Proven E now v o) :
    hydrateFill E now (object o.fields) index o.base v (o.fill.map fun f =>
      ⟨f.selectedIntent.intentDigest, f.selectedIntent.intent, f.selectedIntent.auth,
        f.selectedIntent.receivedAt,
        sha256Hex E "federated-intent", none⟩) = .ok o.fill := by
  have hfill : (object o.fields).get "fill" = o.fill.map fun f => f.fill.toJson := o.row_get "fill"
  have hauth : (object o.fields).get "fillAuth" = o.fill.map fun f => f.auth.toJson :=
    o.row_get "fillAuth"
  have hdigest : (object o.fields).get "fillDigest" = o.fill.map fun f => strJson f.digest :=
    o.row_get "fillDigest"
  unfold hydrateFill
  rw [hfill, hauth, hdigest]
  cases hf : o.fill with
  | none => rfl
  | some f =>
    have hverify : verifyFillV1 E now true (some f.fill.toJson)
      (some f.auth.toJson) v f.selectedIntent.verified =
        .ok f.verified := (hproven.fill f hf).verify
    have hstr : isStr (some (strJson f.digest)) f.verified.fillDigest.val = true :=
      isStr_strJson f.digest
    obtain ⟨hlock, ht1, ht2, heth, hqrl⟩ := hrow.outcome.projection f hf
    have hprojection : ¬(o.base.hashlock ≠ some f.verified.fill.hashlock ∨
        o.base.initiatorTimeout ≠ some (f.verified.fill.initiatorTimeout.val : Int) ∨
        o.base.responderTimeout ≠ some (f.verified.fill.responderTimeout.val : Int) ∨
        o.base.takerEthAccount ≠ some (EthAccount.address f.verified.fill.takerEthAccount) ∨
        o.base.takerQrlAccount ≠ some (QrlAccount.address f.verified.fill.takerQrlAccount)) := by
      simp only [not_or, Decidable.not_not]
      exact ⟨hlock, ht1, ht2, heth, hqrl⟩
    simp only [Option.map_some, Option.isSome_some, if_true, Option.isNone_some,
      Bool.false_eq_true, or_self,
      refuse, if_false, orThrow, ok_bind]
    change (verifyFillV1 E now true (some f.fill.toJson)
      (some f.auth.toJson) v f.selectedIntent.verified >>= _) = _
    rw [hverify]
    simp only [ok_bind, hstr, hprojection, Bool.true_eq_false, if_false]
    rfl

theorem hydrateCancel_ok (hproven : Proven E now v o) :
    hydrateCancel E now (object o.fields) index v = .ok o.cancel := by
  have hproof : (object o.fields).get "cancelProof" = o.cancel.map fun c => c.proof.toJson :=
    o.row_get "cancelProof"
  have hauth : (object o.fields).get "cancelAuth" = o.cancel.map fun c => c.auth.toJson :=
    o.row_get "cancelAuth"
  have hdigest : (object o.fields).get "cancelDigest" = o.cancel.map fun c => strJson c.digest :=
    o.row_get "cancelDigest"
  unfold hydrateCancel
  rw [hproof, hauth, hdigest]
  cases hc : o.cancel with
  | none => rfl
  | some c =>
    have hverify :
      verifyCancelV1 E now true (some c.proof.toJson) (some c.auth.toJson) v = .ok c.verified :=
      (hproven.cancel c hc).verify
    have hstr : isStr (some (strJson c.digest)) c.verified.cancelDigest.val = true :=
      isStr_strJson c.digest
    simp only [Option.map_some, Option.isSome_some, if_true, Option.isNone_some,
      Bool.false_eq_true, or_self,
      refuse, if_false, ok_bind, hverify, hstr, Bool.true_eq_false]
    rfl

theorem hydrateConflict_ok {e : TerminalConflictEvidence} (hproof : EvidenceProof E now v e)
    (k : Nat) :
    hydrateConflict E now index v k e.toJson = .ok e := by
  cases e with
  | fill digest body auth intent intentAuth =>
    obtain ⟨hintent, hfill⟩ := hproof
    have hverifyIntent := hintent.verify
    have hverifyFill := hfill.verify
    have hstr : isStr (some (.str digest.val)) digest.val = true := isStr_strJson digest
    unfold hydrateConflict TerminalConflictEvidence.toJson
    simp only [persistedObject, asRecord, orThrow, ok_bind, Record.get, List.lookup_cons,
      String.reduceBEq, BEq.rfl,
      asString, hverifyIntent, hverifyFill, hstr, refuse, Bool.true_eq_false, if_false]
    rfl
  | cancel digest body auth =>
    have hverify := CancelProof.verify hproof
    have hstr : isStr (some (.str digest.val)) digest.val = true := isStr_strJson digest
    unfold hydrateConflict TerminalConflictEvidence.toJson
    simp only [persistedObject, asRecord, orThrow, ok_bind, Record.get, List.lookup_cons,
      String.reduceBEq, BEq.rfl,
      asString, hverify, hstr, refuse, Bool.true_eq_false, if_false]
    rfl

theorem hydrateOrderConflict_ok {c : OrderConflictEvidence} (hproof : ConflictProof E now o.id c)
    (k : Nat) :
    hydrateOrderConflict E now index o.base k c.toJson = .ok c := by
  obtain ⟨w, hw, hopen, -, hid, rfl⟩ := hproof
  have hverify := hw.verify hopen
  have hstr : isStr (some (.str w.orderDigest.val)) w.orderDigest.val = true :=
    isStr_strJson w.orderDigest
  have hreference : ¬(signedOrderId w.orderId ≠ o.base.id ∨
      isStr (some (.str w.orderDigest.val)) w.orderDigest.val = false) := by
    rw [hstr]
    simp only [not_or, Decidable.not_not, Bool.true_eq_false, not_false_eq_true, and_true]
    exact hid.symm
  unfold hydrateOrderConflict OrderConflictEvidence.toJson
  simp only [persistedObject, asRecord, orThrow, ok_bind, Record.get, List.lookup_cons,
    String.reduceBEq, BEq.rfl, hverify,
    refuse, if_neg hreference]
  rfl

theorem hydrateConflicts_ok (hrow : SignedRow E now v o) (hproven : Proven E now v o) :
    hydrateConflicts E now (object o.fields) index v o.fill o.cancel = .ok o.conflicts := by
  have hget : (object o.fields).get "conflicts" =
    listJson TerminalConflictEvidence.toJson o.conflicts :=
    o.row_get "conflicts"
  have hread : ∀ e ∈ o.conflicts, ∀ k, hydrateConflict E now index v k e.toJson = .ok e :=
    fun e he k => hydrateConflict_ok index (hproven.conflicts e he) k
  obtain ⟨r, hr, hlist⟩ :=
    hydrateOptionalList_listJson (invalidPersisted index "terminal conflicts")
    hrow.retained.conflicts_le hread
  obtain ⟨hfill, hcancel⟩ := hrow.retained.terminals
  have hapart : ¬(¬(o.conflicts.map TerminalConflictEvidence.digest).Nodup ∨
      (∃ f ∈ o.fill, f.digest ∈ o.conflicts.map TerminalConflictEvidence.digest) ∨
      ∃ c ∈ o.cancel, c.digest ∈ o.conflicts.map TerminalConflictEvidence.digest) := by
    rintro (hdup | ⟨f, hf, hmem⟩ | ⟨c, hc, hmem⟩)
    · exact hdup hrow.retained.conflicts
    · exact hfill f hf hmem
    · exact hcancel c hc hmem
  unfold hydrateConflicts
  rw [hget, hr]
  simp only [ok_bind, hlist, refuse, if_neg hapart]
  rfl

theorem hydrateOrderConflicts_ok (hrow : SignedRow E now v o) :
    hydrateOrderConflicts E now (object o.fields) index o.base v = .ok o.orderConflicts := by
  have hget : (object o.fields).get "orderConflicts" =
    listJson OrderConflictEvidence.toJson o.orderConflicts :=
    o.row_get "orderConflicts"
  have hread : ∀ c ∈ o.orderConflicts, ∀ k,
    hydrateOrderConflict E now index o.base k c.toJson = .ok c :=
    fun c hc k => hydrateOrderConflict_ok index (hrow.retained.variants c hc) k
  obtain ⟨r, hr, hlist⟩ := hydrateOptionalList_listJson (invalidPersisted index "order conflicts")
    hrow.retained.orderConflicts_le hread
  have hapart : ¬(¬(o.orderConflicts.map OrderConflictEvidence.orderDigest).Nodup ∨
      v.orderDigest ∈ o.orderConflicts.map OrderConflictEvidence.orderDigest) := by
    rintro (hdup | hmem)
    · exact hdup hrow.retained.orderConflicts
    · exact hrow.retained.primary hmem
  unfold hydrateOrderConflicts
  rw [hget, hr]
  simp only [ok_bind, hlist, refuse, if_neg hapart]
  rfl

theorem checkPortableRow_ok (hrow : SignedRow E now v o) (hproven : Proven E now v o) :
    checkPortableRow E index o.base v (o.fill.map fun f =>
      ⟨f.selectedIntent.intentDigest, f.selectedIntent.intent, f.selectedIntent.auth,
        f.selectedIntent.receivedAt,
        sha256Hex E "federated-intent", none⟩) o.fill o.cancel = .ok ⟨⟩ := by
  have hselected : ¬((o.fill.map fun f => (⟨f.selectedIntent.intentDigest, f.selectedIntent.intent,
      f.selectedIntent.auth, f.selectedIntent.receivedAt, sha256Hex E "federated-intent", none⟩ :
        StoredFillIntentV1)).isSome ∧ o.fill.isNone) := by
    cases o.fill <;> simp
  have hlocking : ¬(o.fill.isSome ∧ o.base.status ≠ .locking) := by
    rintro ⟨hfill, hne⟩
    exact hne (hrow.outcome.locking.mpr hfill)
  have hcancelled : ¬(o.cancel.isSome ∧ o.fill.isNone ∧ o.base.status ≠ .cancelled) := by
    rintro ⟨hcancel, -, hne⟩
    exact hne (hrow.outcome.cancelled hcancel)
  have hsecret : o.base.releaseSecret = o.releaseSecret := rfl
  have hat : o.base.releasedAt = o.releasedAt := rfl
  have hreleased := hrow.outcome.released
  unfold checkPortableRow
  simp only [refuse, if_neg hselected, if_neg hlocking, if_neg hcancelled, ok_bind, hsecret, hat]
  cases hs : o.releaseSecret with
  | none =>
    rw [hs] at hreleased
    have hmissing : ¬(o.fill.isSome ∧ o.releasedAt.isSome) := by simp [hreleased]
    simp only [if_neg hmissing]
  | some secret =>
    rw [hs] at hreleased
    obtain ⟨at', hat'⟩ := Option.isSome_iff_exists.mp hreleased
    obtain ⟨f, hf, hopens⟩ := hproven.release secret hs
    have hverified : ¬(computeReleaseCommitment E v.orderDigest f.selectedIntent.auth.nonce secret ≠
        f.fill.releaseCommitment) := not_not_intro hopens
    rw [hat', Option.mem_def.mp hf]
    simp only [if_neg hverified]

/-- The source hash of a row that `legacyFederationSource` leaves alone. -/
def KnownSource (E : Crypto) (o : Order) : Prop :=
  o.federationSourceHash = none → o.creatorIpHash ≠ some (sha256Hex E "federation")

theorem legacyFederationSource_eq (h : KnownSource E o) :
    legacyFederationSource E o = o.federationSourceHash := by
  unfold legacyFederationSource
  split
  · rename_i hlegacy
    obtain ⟨-, hnone, hcreator⟩ := hlegacy
    exact absurd hcreator (h hnone)
  · rfl

theorem hydrateMakerProof_ok (hrow : SignedRow E now v o) (hproven : Proven E now v o) :
    hydrateMakerProof E now (object o.fields) index o.base = .ok v := by
  have hauth : (object o.fields).get "makerAuth" = o.makerAuth.map MakerOrderAuthV1.toJson :=
    o.row_get "makerAuth"
  have hdigest : (object o.fields).get "orderDigest" = o.orderDigest.map strJson :=
    o.row_get "orderDigest"
  have hbody : signedOrderBody o.base = v.order.record :=
    hrow.portable.signedOrderBody_eq (hproven.holdsPrelock hrow)
  have hverify := hrow.portable.proof.verify hrow.portable.unrestricted
  have hid : ¬(signedOrderId v.orderId ≠ o.base.id) := not_not_intro hrow.portable.id.symm
  have hstr : isStr (some (strJson v.orderDigest)) v.orderDigest.val = true :=
    isStr_strJson v.orderDigest
  unfold hydrateMakerProof
  rw [hauth, hdigest, hbody, hrow.portable.auth, hrow.portable.digest]
  simp only [Option.map_some, hverify, ok_bind, refuse, if_neg hid, hstr, Bool.true_eq_false,
    and_false, if_false]
  rfl

/-- A signed row reads back as it was written. -/
theorem hydratePersistedOrder_signed (hformed : Wellformed o) (hsafe : SafeTimeouts o)
    (hsource : KnownSource E o)
    (hrow : SignedRow E now v o) (hproven : Proven E now v o) :
    hydratePersistedOrder E now o.toJson index = .ok o := by
  have hauth : (object o.fields).get "makerAuth" = some v.auth.toJson := by
    rw [show (object o.fields).get "makerAuth" =
      o.makerAuth.map MakerOrderAuthV1.toJson from o.row_get "makerAuth",
      hrow.portable.auth]
    rfl
  have hequivocated : (object o.fields).get "equivocated" = if o.equivocated then
    some (.bool true) else none :=
    o.row_get "equivocated"
  have hsource' : legacyFederationSource E o.base = o.federationSourceHash :=
    legacyFederationSource_eq hsource
  have hboth : o.fill.isSome = true → o.cancel.isSome = false := by
    intro hfill
    rw [← Bool.not_eq_true]
    intro hcancel
    have hlocking := hrow.outcome.locking.mpr hfill
    rw [hrow.outcome.cancelled hcancel] at hlocking
    cases hlocking
  unfold hydratePersistedOrder Order.toJson
  simp only [persistedObject, asRecord, orThrow, ok_bind, hydrateBase_ok hformed hsafe index, hauth,
    Option.isSome_some, if_true, hydrateMakerProof_ok index hrow hproven]
  unfold hydratePortable
  simp only [hydrateFillIntents_ok index hrow, hydrateSelected_ok index hproven,
    hydrateFill_ok index hrow hproven,
    hydrateCancel_ok index hproven, hydrateConflicts_ok index hrow hproven,
      hydrateOrderConflicts_ok index hrow,
    checkPortableRow_ok index hrow hproven, ok_bind, hequivocated, hsource', ← hrow.portable.auth,
    ← hrow.portable.digest]
  -- The flag is the only field that the reader works out again.
  refine congrArg (fun b : Bool => Except.ok { o with equivocated := b }) (?_ : _ = o.equivocated)
  cases he : o.equivocated with
  | true => rfl
  | false =>
    have hconflicts : o.conflicts = [] := by
      by_contra hne
      simpa [he] using (hrow.outcome.conflicts hne).1
    have horders : o.orderConflicts = [] := by
      by_contra hne
      simpa [he] using hrow.outcome.orderConflicts hne
    rw [hconflicts, horders]
    cases hf : o.fill.isSome with
    | false => rfl
    | true =>
      rw [hboth hf]
      rfl

theorem hydratePersistedOrder_legacy (hformed : Wellformed o) (hsafe : SafeTimeouts o)
    (hlegacy : Legacy o) :
    hydratePersistedOrder E now o.toJson index = .ok o := by
  have hauth : (object o.fields).get "makerAuth" = none := by
    rw [show (object o.fields).get "makerAuth" =
      o.makerAuth.map MakerOrderAuthV1.toJson from o.row_get "makerAuth",
      hlegacy.auth]
    rfl
  have hstate : hasProtocolState (object o.fields) = false := by
    simp only [hasProtocolState, protocolKeys, List.any_cons, List.any_nil, Bool.or_false,
      o.row_get]
    simp only [Order.fields, List.lookup_cons, String.reduceBEq, BEq.rfl, hlegacy.digest,
      hlegacy.fillIntents, hlegacy.fill,
      hlegacy.cancel, hlegacy.conflicts, hlegacy.orderConflicts, hlegacy.equivocated,
        hlegacy.releaseSecret, listJson]
    rfl
  have hsource : ¬(o.federationSourceHash.isSome = true) := by simp [hlegacy.federationSourceHash]
  have hbase : o.base = o := by
    obtain ⟨-, hauth, hdigest, hintents, hfill, hcancel, hequivocated, hconflicts, horders, -, -⟩ :=
      hlegacy
    cases o
    dsimp only at hauth hdigest hintents hfill hcancel hequivocated hconflicts horders
    subst hauth hdigest hintents hfill hcancel hequivocated hconflicts horders
    rfl
  unfold hydratePersistedOrder Order.toJson
  simp only [persistedObject, asRecord, orThrow, ok_bind, hydrateBase_ok hformed hsafe index, hauth,
    Option.isSome_none, Bool.false_eq_true, if_false, refuse, if_neg hsource, hstate, hbase]
  rfl

end Proofs

end QuantaSwap.Book
