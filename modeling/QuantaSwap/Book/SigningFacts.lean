import QuantaSwap.Book.Signing

/-!
# What the verifiers guarantee

A parsed body reads back from its own JSON, and what a verifier accepted once it
accepts at every later time when expiry is allowed.
-/

set_option autoImplicit false

namespace QuantaSwap.Book

open Lib.Js Lib.Text Lib.Checks

/-! ## Reading back what was written -/

section RoundTrip

@[simp] theorem exactString_str {re : String → Bool} (m : Matching re) (field : String) :
    exactString (some (.str m.val)) field re = .ok m := by
  simp [exactString, asString, orThrow]

@[simp] theorem exactInteger_safeJson (n : SafeInt) (field : String) :
    exactInteger (some (safeJson n)) field = .ok n := by
  have h := toSafe?_ofNat n
  simp only [exactInteger, safeJson, Num.ofNat] at h ⊢
  rw [h]
  rfl

@[simp] theorem optionalString_map {re : String → Bool} (m : Option (Matching re))
    (field : String) :
    optionalString (m.map fun a => .str a.val) field re = .ok m := by
  cases m with
  | none => rfl
  | some a => simp [optionalString]

theorem refuseUnknown_ok {r : Record} {field : String} {keys : List String} (h : r.keys ⊆ keys) :
    refuseUnknown r field keys = .ok ⟨⟩ := by
  rw [refuseUnknown, List.find?_eq_none.mpr]
  intro key hkey
  simpa using h hkey

theorem requireKeys_ok {r : Record} {field : String} {keys : List String} (h : keys ⊆ r.keys) :
    requireKeys r field keys = .ok ⟨⟩ := by
  rw [requireKeys, List.find?_eq_none.mpr]
  intro key hkey
  simpa using h hkey

theorem exactObject_obj {r : Record} {field : String} {keys : List String} (h : r.keys = keys) :
    exactObject (some (.obj r)) field keys = .ok r := by
  subst h
  simp only [exactObject, objectValue, asRecord, orThrow, ok_bind,
    refuseUnknown_ok (List.Subset.refl _), requireKeys_ok (List.Subset.refl _)]
  rfl

theorem keys_object_subset (fields : List (String × Option Json)) :
    (Record.keys (object fields)) ⊆ fields.map Prod.fst := by
  induction fields with
  | nil => simp [Record.keys]
  | cons field fields ih =>
    obtain ⟨key, value⟩ := field
    cases value with
    | none => exact fun k hk => List.mem_cons_of_mem _ (ih hk)
    | some v =>
      intro k hk
      rcases List.mem_cons.mp hk with rfl | hk
      · exact List.mem_cons_self
      · exact List.mem_cons_of_mem _ (ih hk)

theorem allowedObject_object {fields : List (String × Option Json)} {field : String}
    {keys : List String}
    (h : fields.map Prod.fst = keys) :
    allowedObject (some (.obj (object fields))) field keys = .ok (object fields) := by
  subst h
  simp only [allowedObject, objectValue, asRecord, orThrow, ok_bind,
    refuseUnknown_ok (keys_object_subset fields)]
  rfl

theorem authFields_fields (a : ProtocolAuthV1) (more : Record) :
    authFields (a.fields ++ more) = .ok a := by
  unfold authFields ProtocolAuthV1.fields
  simp only [List.cons_append, List.nil_append, Record.get, List.lookup_cons]
  simp [asString, refuse, ok_bind]

@[simp] theorem parseAuth_toJson (a : ProtocolAuthV1) : parseAuth (some a.toJson) = .ok a := by
  unfold parseAuth ProtocolAuthV1.toJson
  rw [exactObject_obj (by rfl), ok_bind]
  simpa using authFields_fields a []

@[simp] theorem parseMakerOrderAuth_toJson (a : MakerOrderAuthV1) :
    parseMakerOrderAuth (some a.toJson) = .ok a := by
  unfold parseMakerOrderAuth MakerOrderAuthV1.toJson
  rw [exactObject_obj (by rfl), ok_bind, authFields_fields, ok_bind]
  unfold ProtocolAuthV1.fields
  simp only [List.cons_append, List.nil_append, Record.get, List.lookup_cons]
  simp [ok_bind]

@[simp] theorem canonicalFillIntentBody_toJson (b : FillIntentV1Body) :
    canonicalFillIntentBody (some b.toJson) = .ok b := by
  unfold canonicalFillIntentBody FillIntentV1Body.toJson
  rw [exactObject_obj (by rfl), ok_bind]
  simp only [Record.get, List.lookup_cons]
  simp [ok_bind]

@[simp] theorem canonicalFillBody_toJson (b : FillV1Body) :
    canonicalFillBody (some b.toJson) = .ok b := by
  unfold canonicalFillBody FillV1Body.toJson
  rw [exactObject_obj (by rfl), ok_bind]
  simp only [Record.get, List.lookup_cons, String.reduceBEq, BEq.rfl, exactString_str,
    exactInteger_safeJson,
    ok_bind, dif_neg b.hashlock_ne]
  rfl

@[simp] theorem canonicalCancelBody_toJson (b : CancelV1Body) :
    canonicalCancelBody (some b.toJson) = .ok b := by
  have hle : b.reasonCode.val ≤ maxSafeInteger :=
    Nat.le_trans (Nat.le_of_lt b.reasonCode.isLt) (by decide)
  have hcode : exactUint8 (some (.num (.ofNat b.reasonCode.val))) "cancel.reasonCode" =
    .ok b.reasonCode := by
    have h := exactInteger_safeJson ⟨b.reasonCode.val, hle⟩ "cancel.reasonCode"
    unfold safeJson at h
    rw [exactUint8, h, ok_bind, dif_pos b.reasonCode.isLt]
    rfl
  unfold canonicalCancelBody CancelV1Body.toJson
  rw [exactObject_obj (by rfl), ok_bind]
  simp only [Record.get, List.lookup_cons]
  simp [ok_bind, hcode]

/-- A public signed order names no taker. -/
def OrderV1Body.Unrestricted (b : OrderV1Body) : Prop :=
  b.visibility = .pub → b.allowedTakerEth = none ∧ b.allowedTakerQrl = none

@[simp] theorem parsePrelock_map (p : Option Prelock) :
    parsePrelock (p.map Prelock.toJson) = .ok p := by
  cases p with
  | none => rfl
  | some p =>
    simp only [Option.map_some, parsePrelock, Prelock.toJson]
    rw [exactObject_obj (by rfl), ok_bind]
    simp only [Record.get, List.lookup_cons]
    simp [ok_bind]

@[simp] theorem direction_ofJson?_name (d : Direction) :
    Direction.ofJson? (some (.str d.name)) = some d := by
  cases d <;> rfl

@[simp] theorem visibility_ofJson?_name (v : Visibility) :
    Visibility.ofJson? (some (.str v.name)) = some v := by
  cases v <;> rfl

theorem OrderV1Body.record_get (b : OrderV1Body) (key : String) :
    b.record.get key =
      (List.lookup key [("direction", some (.str b.direction.name)),
        ("asset", some (.str b.asset.name)),
        ("fromAmount", some (.str b.fromAmount.val)), ("toAmount", some (.str b.toAmount.val)),
        ("makerEthAccount", some (.str b.makerEthAccount.val)),
        ("makerQrlAccount", some (.str b.makerQrlAccount.val)),
        ("visibility", some (.str b.visibility.name)),
        ("allowedTakerEth", b.allowedTakerEth.map fun a => .str a.val),
        ("allowedTakerQrl", b.allowedTakerQrl.map fun a => .str a.val),
        ("prelock", b.prelock.map Prelock.toJson)]).join :=
  get_object (show orderBodyKeys.Nodup by decide)

theorem canonicalOrderBody_record (b : OrderV1Body) (h : b.Unrestricted) :
    canonicalOrderBody (some (.obj b.record)) = .ok b := by
  unfold canonicalOrderBody
  rw [OrderV1Body.record, allowedObject_object (by rfl), ok_bind, ← OrderV1Body.record]
  simp only [OrderV1Body.record_get, List.lookup_cons]
  have hopen : ¬(b.visibility = .pub ∧
      ((b.allowedTakerEth.map fun a => Json.str a.val).isSome ∨
        (b.allowedTakerQrl.map fun a => Json.str a.val).isSome)) := by
    rintro ⟨hv, hor⟩
    obtain ⟨he, hq⟩ := h hv
    simp [he, hq] at hor
  simp only [String.reduceBEq, BEq.rfl, Option.join_some, direction_ofJson?_name, asString,
    Option.bind_some, knownAsset_name, exactString_str, visibility_ofJson?_name, orThrow,
      ok_bind, refuse,
    if_neg hopen, optionalString_map, parsePrelock_map]
  rfl

theorem canonicalOrderBody_unrestricted {raw : Option Json} {b : OrderV1Body}
    (h : canonicalOrderBody raw = .ok b) : b.Unrestricted := by
  simp only [canonicalOrderBody, bind_eq_ok, refuse_eq_ok, pure_eq_ok] at h
  obtain ⟨input, -, d, -, a, -, f, -, t, -, me, -, mq, -, v, -, u, hopen, e, he, q, hq, p,
    -, rfl⟩ := h
  intro hv
  rw [not_and, not_or, Option.not_isSome_iff_eq_none, Option.not_isSome_iff_eq_none] at hopen
  obtain ⟨hen, hqn⟩ := hopen hv
  rw [hen] at he
  rw [hqn] at hq
  cases he
  cases hq
  exact ⟨rfl, rfl⟩

end RoundTrip

/-! ## Proofs that hold from now on -/

section Proofs

variable (E : Crypto) (now : SafeInt)

/-- The book accepts the signed order `v`, expired or not. -/
def OrderProof (v : VerifiedOrderV1) : Prop := checkOrderV1 E now true v.order v.auth = .ok v

def IntentProof (order : VerifiedOrderV1) (i : VerifiedFillIntentV1) : Prop :=
  checkFillIntentV1 E now true i.intent i.auth order = .ok i

def FillProof (order : VerifiedOrderV1) (i : VerifiedFillIntentV1) (f : VerifiedFillV1) : Prop :=
  checkFillV1 E now true f.fill f.auth order i = .ok f

def CancelProof (order : VerifiedOrderV1) (c : VerifiedCancelV1) : Prop :=
  checkCancelV1 E now true c.cancel c.auth order = .ok c

variable {E} {now} {now' : SafeInt} {allowExpired : Bool}

theorem checkOrderV1_proof {body : OrderV1Body} {auth : MakerOrderAuthV1} {v : VerifiedOrderV1}
    (h : checkOrderV1 E now allowExpired body auth = .ok v) (hnow : now.val ≤ now'.val) :
    OrderProof E now' v ∧ v.order = body ∧ v.auth = auth := by
  simp only [checkOrderV1, bind_eq_ok, refuse_eq_ok, pure_eq_ok, exists_const] at h
  obtain ⟨hexp, hlife, hskew, -, hpre, hwin, hzero, hshare, _, hproof, digest, hdigest, rfl⟩ := h
  refine ⟨?_, rfl, rfl⟩
  simp only [OrderProof, checkOrderV1, bind_eq_ok, refuse_eq_ok, pure_eq_ok, exists_const]
  exact ⟨hexp, hlife, by omega, by simp, hpre, hwin, hzero, hshare, _, hproof, digest, hdigest, rfl⟩

theorem assertInitialAcceptance_later {auth : ProtocolAuthV1} {artifact : String} {x : Unit}
    (h : assertInitialAcceptance now allowExpired auth artifact = .ok x)
    (hnow : now.val ≤ now'.val) :
    assertInitialAcceptance now' true auth artifact = .ok x := by
  simp only [assertInitialAcceptance, bind_eq_ok, refuse_eq_ok, exists_const] at h ⊢
  exact ⟨by omega, by simp⟩

theorem assertOrderValidity_later {order : VerifiedOrderV1} {issuedAt : SafeInt} {x : Unit}
    (h : assertOrderValidity now allowExpired order issuedAt = .ok x) :
    assertOrderValidity now' true order issuedAt = .ok x := by
  simp only [assertOrderValidity, bind_eq_ok, refuse_eq_ok, exists_const] at h ⊢
  exact ⟨by simp, h.2⟩

theorem assertPrelock_later {fill : FillV1Body} {auth : ProtocolAuthV1} {prelock : Option Prelock}
    {x : Unit}
    (h : prelock.elim (.ok ⟨⟩) (assertPrelock now allowExpired fill auth) = .ok x) :
    prelock.elim (.ok ⟨⟩) (assertPrelock now' true fill auth) = .ok x := by
  cases prelock with
  | none => rfl
  | some p =>
    simp only [Option.elim_some, assertPrelock, bind_eq_ok, refuse_eq_ok, exists_const] at h ⊢
    exact ⟨h.1, h.2.1, by simp⟩

theorem checkFillIntentV1_proof {intent : FillIntentV1Body} {auth : ProtocolAuthV1}
    {order : VerifiedOrderV1}
    {i : VerifiedFillIntentV1} (h : checkFillIntentV1 E now allowExpired intent auth order = .ok i)
    (hnow : now.val ≤ now'.val) :
    IntentProof E now' order i ∧ i.intent = intent ∧ i.auth = auth := by
  simp only [checkFillIntentV1, bind_eq_ok, refuse_eq_ok, pure_eq_ok, exists_const] at h
  obtain ⟨_, href, _, hval, hexp, hlife, hend, _, hacc, _, htaker, _, hproof, digest,
    hdigest, rfl⟩ := h
  refine ⟨?_, rfl, rfl⟩
  simp only [IntentProof, checkFillIntentV1, bind_eq_ok, refuse_eq_ok, pure_eq_ok, exists_const]
  exact ⟨_, href, _, assertOrderValidity_later hval, hexp, hlife, hend, _,
    assertInitialAcceptance_later hacc hnow, _, htaker, _, hproof, digest, hdigest, rfl⟩

theorem checkFillV1_proof {fill : FillV1Body} {auth : ProtocolAuthV1} {order : VerifiedOrderV1}
    {i : VerifiedFillIntentV1} {f : VerifiedFillV1}
    (h : checkFillV1 E now allowExpired fill auth order i = .ok f)
    (hnow : now.val ≤ now'.val) : FillProof E now' order i f ∧ f.fill = fill ∧ f.auth = auth := by
  simp only [checkFillV1, bind_eq_ok, refuse_eq_ok, pure_eq_ok, exists_const] at h
  obtain ⟨_, href, _, hval, hintent, horder, htaker, hin, hwin, hend, _, hacc, hrun, hfollow,
    hresp, hinit,
    hhalf, _, hpre, _, hproof, digest, hdigest, rfl⟩ := h
  refine ⟨?_, rfl, rfl⟩
  simp only [FillProof, checkFillV1, bind_eq_ok, refuse_eq_ok, pure_eq_ok, exists_const]
  exact ⟨_, href, _, assertOrderValidity_later hval, hintent, horder, htaker, hin, hwin, hend, _,
    assertInitialAcceptance_later hacc hnow, hrun, hfollow, hresp, hinit, hhalf, _,
      assertPrelock_later hpre,
    _, hproof, digest, hdigest, rfl⟩

theorem checkCancelV1_proof {cancel : CancelV1Body} {auth : ProtocolAuthV1}
    {order : VerifiedOrderV1}
    {c : VerifiedCancelV1} (h : checkCancelV1 E now allowExpired cancel auth order = .ok c)
    (hnow : now.val ≤ now'.val) :
    CancelProof E now' order c ∧ c.cancel = cancel ∧ c.auth = auth := by
  simp only [checkCancelV1, bind_eq_ok, refuse_eq_ok, pure_eq_ok, exists_const] at h
  obtain ⟨_, href, _, hval, hend, _, hacc, _, hproof, digest, hdigest, rfl⟩ := h
  refine ⟨?_, rfl, rfl⟩
  simp only [CancelProof, checkCancelV1, bind_eq_ok, refuse_eq_ok, pure_eq_ok, exists_const]
  exact ⟨_, href, _, assertOrderValidity_later hval, hend, _,
    assertInitialAcceptance_later hacc hnow,
    _, hproof, digest, hdigest, rfl⟩

theorem OrderProof.later {v : VerifiedOrderV1} (h : OrderProof E now v)
    (hnow : now.val ≤ now'.val) :
    OrderProof E now' v := (checkOrderV1_proof h hnow).1

theorem IntentProof.later {order : VerifiedOrderV1} {i : VerifiedFillIntentV1}
    (h : IntentProof E now order i)
    (hnow : now.val ≤ now'.val) : IntentProof E now' order i := (checkFillIntentV1_proof h hnow).1

theorem FillProof.later {order : VerifiedOrderV1} {i : VerifiedFillIntentV1} {f : VerifiedFillV1}
    (h : FillProof E now order i f) (hnow : now.val ≤ now'.val) : FillProof E now' order i f :=
  (checkFillV1_proof h hnow).1

theorem CancelProof.later {order : VerifiedOrderV1} {c : VerifiedCancelV1}
    (h : CancelProof E now order c)
    (hnow : now.val ≤ now'.val) : CancelProof E now' order c := (checkCancelV1_proof h hnow).1

/-! ### From the raw values -/

theorem verifyOrderV1_proof {rawOrder rawAuth : Option Json} {v : VerifiedOrderV1}
    (h : verifyOrderV1 E now allowExpired rawOrder rawAuth = .ok v) :
    OrderProof E now v ∧ v.order.Unrestricted := by
  simp only [verifyOrderV1, bind_eq_ok] at h
  obtain ⟨body, hbody, auth, -, hcheck⟩ := h
  obtain ⟨hproof, rfl, -⟩ := checkOrderV1_proof hcheck (Nat.le_refl _)
  exact ⟨hproof, canonicalOrderBody_unrestricted hbody⟩

theorem verifyFillIntentV1_proof {rawIntent rawAuth : Option Json} {order : VerifiedOrderV1}
    {i : VerifiedFillIntentV1}
    (h : verifyFillIntentV1 E now allowExpired rawIntent rawAuth order = .ok i) :
    IntentProof E now order i := by
  simp only [verifyFillIntentV1, bind_eq_ok] at h
  obtain ⟨_, -, _, -, hcheck⟩ := h
  exact (checkFillIntentV1_proof hcheck (Nat.le_refl _)).1

theorem verifyFillV1_proof {rawFill rawAuth : Option Json} {order : VerifiedOrderV1}
    {i : VerifiedFillIntentV1}
    {f : VerifiedFillV1} (h : verifyFillV1 E now allowExpired rawFill rawAuth order i = .ok f) :
    FillProof E now order i f ∧ canonicalFillBody rawFill = .ok f.fill := by
  simp only [verifyFillV1, bind_eq_ok] at h
  obtain ⟨_, hbody, _, -, hcheck⟩ := h
  obtain ⟨hproof, hfill, -⟩ := checkFillV1_proof hcheck (Nat.le_refl _)
  exact ⟨hproof, hfill ▸ hbody⟩

theorem verifyCancelV1_proof {rawCancel rawAuth : Option Json} {order : VerifiedOrderV1}
    {c : VerifiedCancelV1}
    (h : verifyCancelV1 E now allowExpired rawCancel rawAuth order = .ok c) :
    CancelProof E now order c ∧ canonicalCancelBody rawCancel = .ok c.cancel := by
  simp only [verifyCancelV1, bind_eq_ok] at h
  obtain ⟨_, hbody, _, -, hcheck⟩ := h
  obtain ⟨hproof, hcancel, -⟩ := checkCancelV1_proof hcheck (Nat.le_refl _)
  exact ⟨hproof, hcancel ▸ hbody⟩

/-! ### Back from stored values -/

theorem OrderProof.verify {v : VerifiedOrderV1} (h : OrderProof E now v)
    (hopen : v.order.Unrestricted) :
    verifyOrderV1 E now true (some (.obj v.order.record)) (some v.auth.toJson) = .ok v := by
  rw [verifyOrderV1, canonicalOrderBody_record _ hopen, ok_bind,
    parseMakerOrderAuth_toJson, ok_bind]
  exact h

theorem IntentProof.verify {order : VerifiedOrderV1} {i : VerifiedFillIntentV1}
    (h : IntentProof E now order i) :
    verifyFillIntentV1 E now true (some i.intent.toJson) (some i.auth.toJson) order = .ok i := by
  rw [verifyFillIntentV1, canonicalFillIntentBody_toJson, ok_bind, parseAuth_toJson, ok_bind]
  exact h

theorem FillProof.verify {order : VerifiedOrderV1} {i : VerifiedFillIntentV1} {f : VerifiedFillV1}
    (h : FillProof E now order i f) :
    verifyFillV1 E now true (some f.fill.toJson) (some f.auth.toJson) order i = .ok f := by
  rw [verifyFillV1, canonicalFillBody_toJson, ok_bind, parseAuth_toJson, ok_bind]
  exact h

theorem CancelProof.verify {order : VerifiedOrderV1} {c : VerifiedCancelV1}
    (h : CancelProof E now order c) :
    verifyCancelV1 E now true (some c.cancel.toJson) (some c.auth.toJson) order = .ok c := by
  rw [verifyCancelV1, canonicalCancelBody_toJson, ok_bind, parseAuth_toJson, ok_bind]
  exact h

/-! ### One digest, one statement -/

/-- Somebody's signature over the message verifies. -/
def Signed (E : Crypto) (m : List UInt8) : Prop :=
  ∃ signer descriptor signature publicKey,
    E.verifyMessageForSigner signer descriptor signature publicKey m = true

/-- SHA-256 tells any two signed messages apart. -/
def CollisionFree (E : Crypto) : Prop :=
  ∀ m m', Signed E m → Signed E m' → E.sha256 m = E.sha256 m' → m = m'

theorem requireProof_signed {who signer : String} {auth : ProtocolAuthV1} {payload : Payload}
    {x : Unit}
    (h : requireProof E who signer auth payload = .ok x) :
    ∃ bytes, protocolMessageBytes payload = .ok bytes ∧ Signed E bytes := by
  simp only [requireProof, verifyProof, bind_eq_ok, refuse_eq_ok, pure_eq_ok] at h
  obtain ⟨valid, ⟨_, -, bytes, hbytes, hvalid⟩, hne⟩ := h
  rw [Bool.not_eq_false] at hne
  exact ⟨bytes, hbytes, signer, auth.descriptor.val, auth.signature.val, auth.publicKey.val,
    hvalid.trans hne⟩

theorem semanticDigest_eq {payload : Payload} {digest : Bytes32} {bytes : List UInt8}
    (h : semanticDigest E payload = .ok digest)
    (hbytes : protocolMessageBytes payload = .ok bytes) :
    digest = prefixed (E.sha256 bytes) := by
  rw [semanticDigest, hbytes, ok_bind] at h
  cases h
  rfl

theorem rows_of_same_digest (hcol : CollisionFree E) {p p' : Payload} {d : Bytes32}
    {who who' signer signer' : String} {auth auth' : ProtocolAuthV1} {x x' : Unit}
    (hp : requireProof E who signer auth p = .ok x) (hd : semanticDigest E p = .ok d)
    (hp' : requireProof E who' signer' auth' p' = .ok x') (hd' : semanticDigest E p' = .ok d) :
    p.primaryType.name = p'.primaryType.name ∧
      ∃ values, wireRows p.message p.primaryType.fields = .ok values ∧
        wireRows p'.message p'.primaryType.fields = .ok values := by
  obtain ⟨m, hm, hsigned⟩ := requireProof_signed hp
  obtain ⟨m', hm', hsigned'⟩ := requireProof_signed hp'
  have hhash :=
    prefixed_injective ((semanticDigest_eq hd hm).symm.trans (semanticDigest_eq hd' hm'))
  have hmm := hcol m m' hsigned hsigned' hhash
  subst hmm
  exact protocolMessageBytes_injective hm hm'

theorem wireCell_str {type : WireType} {s : String} {c : Lib.JsonText.Cell}
    (h : wireCell type (some (.str s)) = .ok c) : c = .text s.toList := by
  unfold wireCell at h
  split at h <;> try split at h
  all_goals simp_all

theorem str_of_wireRows {m m' : Record} {fields : List WireField} {rows : List Lib.JsonText.Row}
    (h : wireRows m fields = .ok rows) (h' : wireRows m' fields = .ok rows) {name s s' : String}
    {type : WireType} (hmem : (name, type) ∈ fields) (hs : m.get name = some (.str s))
    (hs' : m'.get name = some (.str s')) : s = s' := by
  induction fields generalizing rows with
  | nil => cases hmem
  | cons field fields ih =>
    obtain ⟨n, t⟩ := field
    simp only [wireRows, bind_eq_ok, pure_eq_ok] at h h'
    obtain ⟨c, hc, rest, hrest, rfl⟩ := h
    obtain ⟨c', hc', rest', hrest', heq⟩ := h'
    simp only [List.cons.injEq, Prod.mk.injEq, true_and] at heq
    obtain ⟨rfl, rfl⟩ := heq
    rcases List.mem_cons.mp hmem with heq | hmem
    · cases heq
      rw [hs] at hc
      rw [hs'] at hc'
      have htext := (wireCell_str hc).symm.trans (wireCell_str hc')
      rw [Lib.JsonText.Cell.text.injEq] at htext
      exact String.toList_inj.mp htext
    · exact ih hrest hrest' hmem

theorem caipEthAccount_injective {a b : EthAccount} (h : caipEthAccount a = caipEthAccount b) :
    a = b := by
  have := congrArg String.toList h
  simp only [caipEthAccount, String.toList_append, List.append_assoc,
    List.append_cancel_left_eq] at this
  exact Subtype.ext (String.toList_inj.mp this)

theorem uintJson_injective {m n : SafeInt} (h : m.val.repr = n.val.repr) : m = n :=
  Subtype.ext (Lib.Decimal.repr_injective h)

theorem IntentProof.eq_of_digest (hcol : CollisionFree E) {order order' : VerifiedOrderV1}
    {i j : VerifiedFillIntentV1} (hi : IntentProof E now order i) (hj : IntentProof E now' order' j)
    (hdigest : i.intentDigest = j.intentDigest) :
    i.intent = j.intent ∧ i.auth.issuedAt = j.auth.issuedAt ∧ i.auth.expiresAt = j.auth.expiresAt ∧
      i.auth.nonce = j.auth.nonce := by
  simp only [IntentProof, checkFillIntentV1, bind_eq_ok, refuse_eq_ok, pure_eq_ok,
    exists_const] at hi hj
  obtain ⟨_, -, _, -, -, -, -, _, -, _, -, _, hproof, d, hd, hieq⟩ := hi
  obtain ⟨_, -, _, -, -, -, -, _, -, _, -, _, hproof', d', hd', hjeq⟩ := hj
  rw [← hieq, ← hjeq] at hdigest
  change d = d' at hdigest
  subst hdigest
  obtain ⟨-, rows, hrows, hrows'⟩ := rows_of_same_digest hcol hproof hd hproof' hd'
  have hmem : ∀ {field : WireField}, field ∈ PrimaryType.fields .FillIntentV2 →
      field ∈ PrimaryType.fields
        (buildPayload .FillIntentV2 (intentTerms i.intent i.auth)).primaryType := id
  have horder : i.intent.orderDigest.val = j.intent.orderDigest.val :=
    str_of_wireRows hrows hrows' (hmem (show ("orderDigest", .bytes32) ∈ _ by decide)) rfl rfl
  have hnonce : i.auth.nonce.val = j.auth.nonce.val :=
    str_of_wireRows hrows hrows' (hmem (show ("requestNonce", .bytes32) ∈ _ by decide)) rfl rfl
  have heth : caipEthAccount i.intent.takerEthAccount = caipEthAccount j.intent.takerEthAccount :=
    str_of_wireRows hrows hrows' (hmem (show ("takerEthAccount", .string) ∈ _ by decide)) rfl rfl
  have hqrl : i.intent.takerQrlAccount.val = j.intent.takerQrlAccount.val :=
    str_of_wireRows hrows hrows' (hmem (show ("takerQrlAccount", .string) ∈ _ by decide)) rfl rfl
  have hrelease : i.intent.releaseCommitment.val = j.intent.releaseCommitment.val :=
    str_of_wireRows hrows hrows' (hmem (show ("releaseCommitment", .bytes32) ∈ _ by decide)) rfl rfl
  have hissued : i.auth.issuedAt.val.repr = j.auth.issuedAt.val.repr :=
    str_of_wireRows hrows hrows' (hmem (show ("issuedAt", .uint 64) ∈ _ by decide)) rfl rfl
  have hexpires : i.auth.expiresAt.val.repr = j.auth.expiresAt.val.repr :=
    str_of_wireRows hrows hrows' (hmem (show ("expiresAt", .uint 64) ∈ _ by decide)) rfl rfl
  refine ⟨?_, uintJson_injective hissued, uintJson_injective hexpires, Subtype.ext hnonce⟩
  cases hi : i.intent
  cases hj : j.intent
  rw [hi, hj] at horder heth hqrl hrelease
  rw [FillIntentV1Body.mk.injEq]
  exact ⟨Subtype.ext horder, caipEthAccount_injective heth, Subtype.ext hqrl, Subtype.ext hrelease⟩

/-- Two signed orders with one digest have one id and expire together. -/
theorem OrderProof.eq_of_digest (hcol : CollisionFree E) {v w : VerifiedOrderV1}
    (hv : OrderProof E now v)
    (hw : OrderProof E now' w) (hdigest : v.orderDigest = w.orderDigest) :
    v.orderId = w.orderId ∧ v.auth.expiresAt = w.auth.expiresAt := by
  simp only [OrderProof, checkOrderV1, bind_eq_ok, refuse_eq_ok, pure_eq_ok, exists_const] at hv hw
  obtain ⟨-, -, -, -, -, -, -, -, _, hproof, d, hd, hveq⟩ := hv
  obtain ⟨-, -, -, -, -, -, -, -, _, hproof', d', hd', hweq⟩ := hw
  rw [← hveq, ← hweq] at hdigest
  change d = d' at hdigest
  subst hdigest
  obtain ⟨-, rows, hrows, hrows'⟩ := rows_of_same_digest hcol hproof hd hproof' hd'
  have hmem : ∀ {field : WireField}, field ∈ PrimaryType.fields .OrderV2 →
      field ∈ PrimaryType.fields (buildPayload .OrderV2 (orderTerms v.order v.auth)).primaryType :=
        id
  have hmaker : v.order.makerQrlAccount.val = w.order.makerQrlAccount.val :=
    str_of_wireRows hrows hrows' (hmem (show ("makerQrlAccount", .string) ∈ _ by decide)) rfl rfl
  have hnonce : v.auth.nonce.val = w.auth.nonce.val :=
    str_of_wireRows hrows hrows' (hmem (show ("nonce", .bytes32) ∈ _ by decide)) rfl rfl
  have hexpires : v.auth.expiresAt.val.repr = w.auth.expiresAt.val.repr :=
    str_of_wireRows hrows hrows' (hmem (show ("expiresAt", .uint 64) ∈ _ by decide)) rfl rfl
  refine ⟨?_, uintJson_injective hexpires⟩
  rw [← hveq, ← hweq]
  change deriveOrderV1Id E v.order.makerQrlAccount v.auth.nonce =
    deriveOrderV1Id E w.order.makerQrlAccount w.auth.nonce
  rw [Subtype.ext hmaker, Subtype.ext hnonce]

theorem FillProof.congr {order : VerifiedOrderV1} {i j : VerifiedFillIntentV1} {f : VerifiedFillV1}
    (h : FillProof E now order i f) (hdigest : i.intentDigest = j.intentDigest)
    (hintent : i.intent = j.intent)
    (hissued : i.auth.issuedAt = j.auth.issuedAt) (hexpires : i.auth.expiresAt = j.auth.expiresAt) :
    FillProof E now order j f := by
  unfold FillProof checkFillV1 at h ⊢
  rw [← hdigest, ← hintent, ← hissued, ← hexpires]
  exact h

end Proofs

end QuantaSwap.Book
