import QuantaSwap.Book.SigningFacts

/-!
# The message of a parsed statement

Every order, fill intent, fill and cancel that was parsed has message bytes, so a
verifier refuses it for what it says or for its signature, never for its encoding.
-/

set_option autoImplicit false

namespace QuantaSwap.Book

open Lib.Js Lib.Text Lib.Checks

/-! ## One field -/

section Cell

theorem wireCell_uint {bits : Nat} {s : String} (hcanonical : Lib.Decimal.canonical s.toList = true)
    (hlt : Lib.Decimal.value s < 2 ^ bits) :
    wireCell (.uint bits) (some (.str s)) = .ok (.text s.toList) := by
  unfold wireCell
  exact if_pos ⟨hcanonical, hlt⟩

theorem wireCell_uintJson (n : SafeInt) :
    wireCell (.uint 64) (some (uintJson n)) = .ok (.text n.val.repr.toList) := by
  apply wireCell_uint (Lib.Decimal.canonical_repr n.val)
  rw [Lib.Decimal.value_repr]
  exact Nat.lt_of_le_of_lt n.property (by decide)

theorem wireCell_amount (a : SignedAmount) :
    wireCell (.uint 256) (some (.str a.val)) = .ok (.text a.val.toList) := by
  have h := a.property
  unfold Signing.amountRe at h
  rw [Bool.and_eq_true, decide_eq_true_eq] at h
  obtain ⟨hcanonical, hlen⟩ := h
  apply wireCell_uint hcanonical
  have hdigits :=
    Lib.Decimal.ofDigitChars_lt a.val.toList (Lib.Decimal.canonical_digits _ hcanonical)
  have hpow : 10 ^ a.val.toList.length ≤ 10 ^ 30 := Nat.pow_le_pow_right (by omega) hlen
  exact Nat.lt_of_lt_of_le hdigits (hpow.trans (by decide))

theorem wireCell_bytes32 (b : Bytes32) :
    wireCell .bytes32 (some (.str b.val)) = .ok (.text b.val.toList) := by
  unfold wireCell
  exact if_pos b.property

theorem wireCell_string {s : String} (h : printable s = true) :
    wireCell .string (some (.str s)) = .ok (.text s.toList) := by
  unfold wireCell
  exact if_pos h

end Cell

/-! ## Printable texts -/

section Printable

theorem printable_append {s t : String} (hs : printable s = true) (ht : printable t = true) :
    printable (s ++ t) = true := by
  unfold printable at *
  rw [String.toList_append, List.all_append, hs, ht]
  rfl

theorem printable_of_isLowerHex {c : Char} (h : isLowerHex c = true) :
    (' ' ≤ c && c ≤ '~') = true := by
  simp only [isLowerHex, isDigit, Bool.or_eq_true, Bool.and_eq_true, decide_eq_true_eq, Char.le_def,
    UInt32.le_iff_toNat_le] at h ⊢
  have h0 : ('0' : Char).val.toNat = 48 := rfl
  have h9 : ('9' : Char).val.toNat = 57 := rfl
  have ha : ('a' : Char).val.toNat = 97 := rfl
  have hf : ('f' : Char).val.toNat = 102 := rfl
  have hspace : (' ' : Char).val.toNat = 32 := rfl
  have htilde : ('~' : Char).val.toNat = 126 := rfl
  omega

theorem printable_fixed {lead : List Char} {n : Nat} {s : String}
    (h : fixed lead n isLowerHex s = true)
    (hlead : (lead.all fun c => ' ' ≤ c && c ≤ '~') = true) : printable s = true := by
  obtain ⟨body, hs, -, hall⟩ := fixed_iff.mp h
  unfold printable
  rw [hs, List.all_append, hlead, Bool.true_and, List.all_eq_true]
  intro c hc
  exact printable_of_isLowerHex (hall c hc)

theorem printable_eth (a : EthAccount) : printable (caipEthAccount a) = true := by
  unfold caipEthAccount
  refine printable_append (by decide +kernel) (printable_fixed a.property (by decide))

theorem printable_qrl (a : QrlAccount) : printable a.val = true :=
  printable_fixed a.property (by decide)

end Printable

/-! ## A whole statement -/

/-- A term stands under the name of its field and in the form its type is written in. -/
def Spells (term : String × Json) (field : WireField) : Prop :=
  term.1 = field.1 ∧ ∃ cell, wireCell field.2 (some term.2) = .ok cell

/-- The terms are the fields of the schema, in its order. -/
abbrev Encodes (terms : Record) (fields : List WireField) : Prop := List.Forall₂ Spells terms fields

theorem Encodes.keys {terms : Record} {fields : List WireField} (h : Encodes terms fields) :
    terms.keys = fields.map Prod.fst := by
  unfold Record.keys
  induction h with
  | nil => rfl
  | cons hterm _ ih => rw [List.map_cons, List.map_cons, hterm.1, ih]

theorem get_of_mem {terms : Record} (hnodup : terms.keys.Nodup) {key : String} {value : Json}
    (h : (key, value) ∈ terms) : terms.get key = some value := by
  unfold Record.get
  induction terms with
  | nil => cases h
  | cons term terms ih =>
    obtain ⟨name, other⟩ := term
    obtain ⟨hnot, hnodup⟩ := List.nodup_cons.mp hnodup
    rcases List.mem_cons.mp h with heq | hmem
    · cases heq
      rw [List.lookup_cons_self]
    · have hne : key ≠ name := by
        rintro rfl
        exact hnot (List.mem_map.mpr ⟨_, hmem, rfl⟩)
      rw [List.lookup_cons, beq_false_of_ne hne]
      exact ih hnodup hmem

theorem wireRows_of_encodes {message terms : Record} {fields : List WireField}
    (h : Encodes terms fields)
    (hnodup : message.keys.Nodup) (hsub : terms ⊆ message) :
    ∃ rows, wireRows message fields = .ok rows := by
  induction h with
  | nil => exact ⟨[], rfl⟩
  | @cons term field terms fields hterm _ ih =>
    obtain ⟨key, value⟩ := term
    obtain ⟨name, type⟩ := field
    obtain ⟨rfl, cell, hcell⟩ := hterm
    obtain ⟨rows, hrows⟩ := ih fun t ht => hsub (List.mem_cons_of_mem _ ht)
    have hget := get_of_mem hnodup (hsub List.mem_cons_self)
    refine ⟨(key.toList, cell) :: rows, ?_⟩
    simp only [wireRows, hget, bind_eq_ok, pure_eq_ok]
    exact ⟨cell, hcell, rows, hrows, rfl⟩

theorem domainRows_ok :
    ∃ rows, domainRows (orderV2Domain.map fun (key, value) => (key, Json.str value)) orderV2Domain =
      .ok rows := by
  have h : (domainRows (orderV2Domain.map fun (key, value) => (key, Json.str value))
      orderV2Domain).toOption.isSome = true := by decide +kernel
  generalize domainRows _ _ = result at h
  cases result with
  | error e => cases h
  | ok rows => exact ⟨rows, rfl⟩

theorem domainKeys : orderV2Domain.map Prod.fst =
    Record.keys (orderV2Domain.map fun (key, value) => (key, Json.str value)) := rfl

theorem exactKeys_self (value : Record) : exactKeys value value.keys = .ok ⟨⟩ := by
  rw [exactKeys, refuse_eq_ok]
  rintro (hlen | ⟨key, hkey, hnot⟩)
  · exact hlen rfl
  · exact hnot hkey

theorem protocolMessageBytes_ok {primaryType : PrimaryType} {terms : Record}
    (h : Encodes terms primaryType.fields) :
    ∃ bytes, protocolMessageBytes (buildPayload primaryType terms) = .ok bytes := by
  have hnodup : (primaryType.fields.map Prod.fst).Nodup := by
    cases primaryType <;> decide
  obtain ⟨domain, hdomain⟩ := domainRows_ok
  obtain ⟨rows, hrows⟩ := wireRows_of_encodes h (h.keys ▸ hnodup) (List.Subset.refl _)
  have hfields : refuse (primaryType.fields ≠ primaryType.fields)
      (Thrown.error "Portable V2 field schema mismatch") = .ok ⟨⟩ := by simp
  unfold protocolMessageBytes buildPayload
  dsimp only
  rw [domainKeys, exactKeys_self, ok_bind, ← h.keys, exactKeys_self, ok_bind, hfields, ok_bind,
    hdomain, ok_bind,
    hrows, ok_bind]
  exact ⟨_, rfl⟩

section Terms

theorem spells_uint {name : String} (n : SafeInt) : Spells (name, uintJson n) (name, .uint 64) :=
  ⟨rfl, _, wireCell_uintJson n⟩

theorem spells_amount {name : String} (a : SignedAmount) :
    Spells (name, .str a.val) (name, .uint 256) :=
  ⟨rfl, _, wireCell_amount a⟩

theorem spells_bytes32 {name : String} (b : Bytes32) : Spells (name, .str b.val) (name, .bytes32) :=
  ⟨rfl, _, wireCell_bytes32 b⟩

theorem spells_string {name s : String} (h : printable s = true) :
    Spells (name, .str s) (name, .string) :=
  ⟨rfl, _, wireCell_string h⟩

theorem spells_eth {name : String} (a : EthAccount) :
    Spells (name, .str (caipEthAccount a)) (name, .string) :=
  spells_string (printable_eth a)

theorem spells_qrl {name : String} (a : QrlAccount) : Spells (name, .str a.val) (name, .string) :=
  spells_string (printable_qrl a)

theorem deployment_encodes : Encodes orderV2Deployment deploymentFields :=
  .cons ⟨rfl, _, wireCell_uint (by decide +kernel) (by decide +kernel)⟩
    (.cons (spells_string (by decide +kernel))
      (.cons ⟨rfl, _, wireCell_uint (by decide +kernel) (by decide +kernel)⟩
        (.cons (spells_string (by decide +kernel)) .nil)))

theorem orderTerms_encodes (body : OrderV1Body) (auth : MakerOrderAuthV1) :
    Encodes (orderTerms body auth) (PrimaryType.fields .OrderV2) := by
  have hdirection : printable body.direction.name = true := by
    cases body.direction <;> decide +kernel
  have hasset : printable body.asset.name = true := by
    cases body.asset <;> decide +kernel
  have hvisibility : printable body.visibility.name = true := by
    cases body.visibility <;> decide +kernel
  have hempty : printable "" = true := by decide +kernel
  have heth : printable ((body.allowedTakerEth.map caipEthAccount).getD "") = true := by
    cases body.allowedTakerEth with
    | none => exact hempty
    | some a => exact printable_eth a
  have hqrl : printable ((body.allowedTakerQrl.map Subtype.val).getD "") = true := by
    cases body.allowedTakerQrl with
    | none => exact hempty
    | some a => exact printable_qrl a
  have htimeout : ∃ n :
    SafeInt, (body.prelock.map fun p : Prelock => p.initiatorTimeout.val).getD 0 = n.val := by
    cases body.prelock with
    | none => exact ⟨⟨0, Nat.zero_le _⟩, rfl⟩
    | some p => exact ⟨p.initiatorTimeout, rfl⟩
  obtain ⟨timeout, htimeout⟩ := htimeout
  unfold orderTerms PrimaryType.fields
  rw [htimeout]
  exact .cons (spells_string hdirection) (.cons (spells_string hasset) (.cons (spells_amount _)
    (.cons (spells_amount _)
      (.cons (spells_eth _) (.cons (spells_qrl _) (.cons (spells_string hvisibility)
      (.cons (spells_string heth)
        (.cons (spells_string hqrl) (.cons ⟨rfl, _, rfl⟩ (.cons (spells_bytes32 _)
        (.cons (spells_uint timeout)
          (.cons (spells_uint _) (.cons (spells_uint _) (.cons (spells_bytes32 _)
          (.cons (spells_bytes32 _) (.cons (spells_bytes32 _) deployment_encodes))))))))))))))))

theorem intentTerms_encodes (intent : FillIntentV1Body) (auth : ProtocolAuthV1) :
    Encodes (intentTerms intent auth) (PrimaryType.fields .FillIntentV2) :=
  .cons (spells_bytes32 _) (.cons (spells_bytes32 _) (.cons (spells_eth _) (.cons (spells_qrl _)
    (.cons (spells_bytes32 _) (.cons (spells_uint _) (.cons (spells_uint _) deployment_encodes))))))

theorem fillTerms_encodes (fill : FillV1Body) (auth : ProtocolAuthV1) (order : VerifiedOrderV1) :
    Encodes (fillTerms fill auth order) (PrimaryType.fields .FillV2) :=
  .cons (spells_bytes32 _)
    (.cons (spells_bytes32 _) (.cons (spells_bytes32 _) (.cons (spells_bytes32 _)
    (.cons (spells_eth _) (.cons (spells_qrl _) (.cons (spells_bytes32 _) (.cons (spells_bytes32 _)
      (.cons (spells_uint _) (.cons (spells_uint _) (.cons (spells_uint _) (.cons (spells_uint _)
        deployment_encodes)))))))))))

end Terms

/-! ## What the verifiers accept -/

section Accepts

variable (E : Crypto) (now : SafeInt) (allowExpired : Bool)

/-- The bytes that are signed for a statement. -/
def messageBytes (payload : Payload) : List UInt8 :=
  match protocolMessageBytes payload with
  | .ok bytes => bytes
  | .error _ => []

def orderMessage (body : OrderV1Body) (auth : MakerOrderAuthV1) : List UInt8 :=
  messageBytes (buildPayload .OrderV2 (orderTerms body auth))

def intentMessage (intent : FillIntentV1Body) (auth : ProtocolAuthV1) : List UInt8 :=
  messageBytes (buildPayload .FillIntentV2 (intentTerms intent auth))

def fillMessage (fill : FillV1Body) (auth : ProtocolAuthV1) (order : VerifiedOrderV1) :
    List UInt8 :=
  messageBytes (buildPayload .FillV2 (fillTerms fill auth order))

/-- The signature of `auth` is the signer's over the message. -/
def SignedBy (signer : String) (auth : ProtocolAuthV1) (message : List UInt8) : Prop :=
  E.verifyMessageForSigner signer auth.descriptor.val auth.signature.val auth.publicKey.val
    message = true

def digestOfMessage (message : List UInt8) : Bytes32 := prefixed (E.sha256 message)

variable {E} {now} {allowExpired}

theorem protocolMessageBytes_eq {primaryType : PrimaryType} {terms : Record}
    (h : Encodes terms primaryType.fields) :
    protocolMessageBytes (buildPayload primaryType terms) =
      .ok (messageBytes (buildPayload primaryType terms)) := by
  obtain ⟨bytes, hbytes⟩ := protocolMessageBytes_ok h
  rw [messageBytes, hbytes]

theorem requireProof_eq_ok {primaryType : PrimaryType} {terms : Record} {who signer : String}
    {auth : ProtocolAuthV1} (h : Encodes terms primaryType.fields) {x : Unit} :
    requireProof E who signer auth (buildPayload primaryType terms) = .ok x ↔
      SignedBy E signer auth (messageBytes (buildPayload primaryType terms)) := by
  unfold requireProof verifyProof SignedBy
  rw [assertV2Deployment_ok, ok_bind, protocolMessageBytes_eq h, ok_bind]
  simp only [bind_eq_ok, pure_eq_ok, refuse_eq_ok, exists_eq_left', Bool.not_eq_false]

theorem semanticDigest_eq_ok {primaryType : PrimaryType} {terms : Record}
    (h : Encodes terms primaryType.fields) :
    semanticDigest E (buildPayload primaryType terms) =
      .ok (digestOfMessage E (messageBytes (buildPayload primaryType terms))) := by
  rw [semanticDigest, protocolMessageBytes_eq h, ok_bind]
  rfl

/-- What an order has to satisfy beside its signature. -/
structure OrderRules (now : SafeInt) (allowExpired : Bool) (body : OrderV1Body)
    (auth : MakerOrderAuthV1) : Prop where
  follows : auth.issuedAt.val < auth.expiresAt.val
  lifetime : auth.expiresAt.val ≤ auth.issuedAt.val + maxOrderLifetimeS
  skew : auth.issuedAt.val ≤ now.val + maxClockSkewS
  fresh : allowExpired = false → now.val + minRemainingLifetimeS ≤ auth.expiresAt.val
  prelock : ∀ p ∈ body.prelock, auth.expiresAt.val ≤ p.initiatorTimeout.val ∧
    auth.issuedAt.val + minPrelockListingWindowS ≤ p.initiatorTimeout.val ∧
    p.initiatorTimeout.val ≤ auth.issuedAt.val + maxPrelockListingWindowS
  makerToken : auth.makerTokenCommitment ≠ zeroBytes32
  shareToken : body.visibility = .pub ↔ auth.shareTokenCommitment = zeroBytes32

/-- `verifyOrderV1` after parsing: the rules, the signature, and the digest of the message. -/
theorem checkOrderV1_eq_ok {body : OrderV1Body} {auth : MakerOrderAuthV1} {v : VerifiedOrderV1} :
    checkOrderV1 E now allowExpired body auth = .ok v ↔
      OrderRules now allowExpired body auth ∧
        SignedBy E body.makerQrlAccount.val auth.toProtocolAuthV1 (orderMessage body auth) ∧
        v = ⟨deriveOrderV1Id E body.makerQrlAccount auth.nonce,
          digestOfMessage E (orderMessage body auth), body, auth⟩ := by
  have hencodes := orderTerms_encodes body auth
  unfold checkOrderV1
  simp only [bind_eq_ok, refuse_eq_ok, pure_eq_ok, exists_const, requireProof_eq_ok hencodes,
    semanticDigest_eq_ok hencodes, Except.ok.injEq, exists_eq_left']
  constructor
  · rintro ⟨hexp, hlife, hskew, hfresh, hpre, hwin, hzero, hshare, hsigned, rfl⟩
    refine ⟨⟨by omega, by omega, by omega, fun h => ?_, fun p hp => ?_, hzero, ?_⟩, hsigned, rfl⟩
    · by_contra hlt
      exact hfresh ⟨h, by omega⟩
    · have h1 : ¬p.initiatorTimeout.val < auth.expiresAt.val := fun h => hpre ⟨p, hp, h⟩
      have h2 : ¬(p.initiatorTimeout.val < auth.issuedAt.val + minPrelockListingWindowS ∨
        auth.issuedAt.val + maxPrelockListingWindowS < p.initiatorTimeout.val) := fun h =>
          hwin ⟨p, hp, h⟩
      omega
    · rw [not_or, not_and, not_and, Decidable.not_not] at hshare
      refine ⟨hshare.1, fun hz => ?_⟩
      cases hv : body.visibility with
      | pub => rfl
      | priv => exact absurd hz (hshare.2 hv)
  -- Each check is refuted by the rule that names it.
  · rintro ⟨h, hsigned, rfl⟩
    refine ⟨?_, ?_, ?_, ?_, ?_, ?_, h.makerToken, ?_, hsigned, rfl⟩
    · have := h.follows
      omega
    · have := h.lifetime
      omega
    · have := h.skew
      omega
    · rintro ⟨hstrict, hlt⟩
      have := h.fresh hstrict
      omega
    · rintro ⟨p, hp, hlt⟩
      have := (h.prelock p hp).1
      omega
    · rintro ⟨p, hp, hlt⟩
      have := (h.prelock p hp).2
      omega
    · rintro (⟨hv, hne⟩ | ⟨hv, hz⟩)
      · exact hne (h.shareToken.mp hv)
      · rw [h.shareToken.mpr hz] at hv
        cases hv

/-- What a fill intent has to satisfy beside its signature. -/
structure IntentRules (now : SafeInt) (allowExpired : Bool) (intent : FillIntentV1Body)
    (auth : ProtocolAuthV1)
    (order : VerifiedOrderV1) : Prop where
  orderDigest : intent.orderDigest = order.orderDigest
  orderLive : allowExpired = false → now.val < order.auth.expiresAt.val
  within : order.auth.issuedAt.val ≤ auth.issuedAt.val ∧
    auth.issuedAt.val < order.auth.expiresAt.val
  follows : auth.issuedAt.val < auth.expiresAt.val
  lifetime : auth.expiresAt.val ≤ auth.issuedAt.val + maxFillIntentLifetimeS
  bounded : auth.expiresAt.val ≤ order.auth.expiresAt.val
  skew : auth.issuedAt.val ≤ now.val + maxClockSkewS
  fresh : allowExpired = false → now.val < auth.expiresAt.val
  takerEth : ∀ a ∈ order.order.allowedTakerEth, a = intent.takerEthAccount
  takerQrl : ∀ a ∈ order.order.allowedTakerQrl, a = intent.takerQrlAccount

/-- What a fill has to satisfy beside its signature. -/
structure FillRules (now : SafeInt) (allowExpired : Bool) (fill : FillV1Body)
    (auth : ProtocolAuthV1)
    (order : VerifiedOrderV1) (intent : VerifiedFillIntentV1) : Prop where
  orderDigest : fill.orderDigest = order.orderDigest
  orderLive : allowExpired = false → now.val < order.auth.expiresAt.val
  within : order.auth.issuedAt.val ≤ auth.issuedAt.val ∧
    auth.issuedAt.val < order.auth.expiresAt.val
  intentDigest : fill.intentDigest = intent.intentDigest
  sameOrder : intent.intent.orderDigest = fill.orderDigest
  takerEth : fill.takerEthAccount = intent.intent.takerEthAccount
  takerQrl : fill.takerQrlAccount = intent.intent.takerQrlAccount
  releaseCommitment : fill.releaseCommitment = intent.intent.releaseCommitment
  chosen : intent.auth.issuedAt.val ≤ auth.issuedAt.val ∧
    auth.issuedAt.val < intent.auth.expiresAt.val
  response : auth.issuedAt.val + minFillResponseS ≤ auth.expiresAt.val ∧
    auth.expiresAt.val ≤ auth.issuedAt.val + maxFillResponseS
  bounded : auth.expiresAt.val ≤ order.auth.expiresAt.val
  skew : auth.issuedAt.val ≤ now.val + maxClockSkewS
  fresh : allowExpired = false → now.val < auth.expiresAt.val
  runway : auth.expiresAt.val + minResponderRunwayAfterResponseS < fill.responderTimeout.val
  timeouts : auth.issuedAt.val < fill.responderTimeout.val ∧
    fill.responderTimeout.val ≤ fill.initiatorTimeout.val
  responderWindow : fill.responderTimeout.val ≤ auth.issuedAt.val + maxResponderWindowS
  initiatorWindow : order.order.prelock = none →
    fill.initiatorTimeout.val ≤ auth.issuedAt.val + maxInitiatorWindowS
  gap : 2 * (fill.responderTimeout.val - auth.issuedAt.val) ≤
    fill.initiatorTimeout.val - auth.issuedAt.val
  prelock : ∀ p ∈ order.order.prelock, fill.hashlock = p.hashlock ∧
    fill.initiatorTimeout = p.initiatorTimeout
  prelockRunway : order.order.prelock.isSome = true →
    auth.issuedAt.val + minPrelockRunwayS ≤ fill.initiatorTimeout.val ∧
      (allowExpired = false → now.val + minPrelockRunwayS ≤ fill.initiatorTimeout.val)

variable {order : VerifiedOrderV1} {auth : ProtocolAuthV1}

theorem assertInitialAcceptance_eq_ok {artifact : String} {x : Unit} :
    assertInitialAcceptance now allowExpired auth artifact = .ok x ↔
      auth.issuedAt.val ≤ now.val + maxClockSkewS ∧
      (allowExpired = false → now.val < auth.expiresAt.val) := by
  simp only [assertInitialAcceptance, bind_eq_ok, refuse_eq_ok, exists_const, not_lt,
    not_and, not_le]

theorem assertOrderValidity_eq_ok {issuedAt : SafeInt} {x : Unit} :
    assertOrderValidity now allowExpired order issuedAt = .ok x ↔
      (allowExpired = false → now.val < order.auth.expiresAt.val) ∧
        order.auth.issuedAt.val ≤ issuedAt.val ∧ issuedAt.val < order.auth.expiresAt.val := by
  simp only [assertOrderValidity, bind_eq_ok, refuse_eq_ok, exists_const, not_or, not_lt,
    not_and, not_le]

theorem checkFillIntentV1_eq_ok {intent : FillIntentV1Body} {v : VerifiedFillIntentV1} :
    checkFillIntentV1 E now allowExpired intent auth order = .ok v ↔
      IntentRules now allowExpired intent auth order ∧
        SignedBy E intent.takerQrlAccount.val auth (intentMessage intent auth) ∧
        v = ⟨digestOfMessage E (intentMessage intent auth), intent, auth⟩ := by
  have hencodes := intentTerms_encodes intent auth
  unfold checkFillIntentV1
  simp only [bind_eq_ok, refuse_eq_ok, pure_eq_ok, exists_const, requireProof_eq_ok hencodes,
    assertOrderReference,
    assertOrderValidity_eq_ok, assertInitialAcceptance_eq_ok, assertAllowedTaker,
      semanticDigest_eq_ok hencodes,
    Except.ok.injEq, exists_eq_left', not_not, not_lt, not_le, not_exists, not_and]
  constructor
  · rintro ⟨hdigest, ⟨horder, hwithin⟩, hfollows, hlife, hbounded, ⟨hskew, hfresh⟩, ⟨heth, hqrl⟩,
      hsigned, rfl⟩
    exact ⟨⟨hdigest, horder, hwithin, hfollows, hlife, hbounded, hskew, hfresh, heth, hqrl⟩,
      hsigned, rfl⟩
  · rintro ⟨h, hsigned, rfl⟩
    exact ⟨h.orderDigest, ⟨h.orderLive, h.within⟩, h.follows, h.lifetime, h.bounded,
      ⟨h.skew, h.fresh⟩,
      ⟨h.takerEth, h.takerQrl⟩, hsigned, rfl⟩

theorem assertPrelock_eq_ok {fill : FillV1Body} {prelock : Prelock} {x : Unit} :
    assertPrelock now allowExpired fill auth prelock = .ok x ↔
      (fill.hashlock = prelock.hashlock ∧ fill.initiatorTimeout = prelock.initiatorTimeout) ∧
        auth.issuedAt.val + minPrelockRunwayS ≤ fill.initiatorTimeout.val ∧
        (allowExpired = false → now.val + minPrelockRunwayS ≤ fill.initiatorTimeout.val) := by
  simp only [assertPrelock, bind_eq_ok, refuse_eq_ok, exists_const, not_or, Decidable.not_not,
    not_lt, not_and]

theorem checkFillV1_eq_ok {fill : FillV1Body} {intent : VerifiedFillIntentV1} {v : VerifiedFillV1} :
    checkFillV1 E now allowExpired fill auth order intent = .ok v ↔
      FillRules now allowExpired fill auth order intent ∧
        SignedBy E order.order.makerQrlAccount.val auth (fillMessage fill auth order) ∧
        v = ⟨digestOfMessage E (fillMessage fill auth order), fill, auth⟩ := by
  have hencodes := fillTerms_encodes fill auth order
  have hprelock :
    (∃ x, order.order.prelock.elim (.ok ⟨⟩) (assertPrelock now allowExpired fill auth) = .ok x) ↔
      (∀ p ∈ order.order.prelock, fill.hashlock = p.hashlock ∧
        fill.initiatorTimeout = p.initiatorTimeout) ∧
      (order.order.prelock.isSome = true →
        auth.issuedAt.val + minPrelockRunwayS ≤ fill.initiatorTimeout.val ∧
        (allowExpired = false → now.val + minPrelockRunwayS ≤ fill.initiatorTimeout.val)) := by
    cases order.order.prelock with
    | none => simp
    | some p => simp [assertPrelock_eq_ok]
  unfold checkFillV1
  simp only [bind_eq_ok, refuse_eq_ok, pure_eq_ok, exists_const, requireProof_eq_ok hencodes,
    assertOrderReference,
    assertOrderValidity_eq_ok, assertInitialAcceptance_eq_ok, semanticDigest_eq_ok hencodes,
    Except.ok.injEq, exists_eq_left', not_or, not_lt, not_le, not_and, Decidable.not_not]
  constructor
  · rintro ⟨hdigest, ⟨horder, hwithin⟩, hintent, hsame, ⟨heth, hqrl, hcommitment⟩, hchosen,
      hresponse, hbounded,
      ⟨hskew, hfresh⟩, hrunway, htimeouts, hresponder, hinitiator, hgap, x, hpre, hsigned, rfl⟩
    obtain ⟨hlock, hlockRunway⟩ := hprelock.mp ⟨x, hpre⟩
    exact ⟨⟨hdigest, horder, hwithin, hintent, hsame, heth, hqrl, hcommitment, hchosen, hresponse,
      hbounded, hskew,
      hfresh, hrunway, htimeouts, hresponder, hinitiator, by
        omega, hlock, hlockRunway⟩, hsigned, rfl⟩
  · rintro ⟨h, hsigned, rfl⟩
    obtain ⟨x, hpre⟩ := hprelock.mpr ⟨h.prelock, h.prelockRunway⟩
    have hgap := h.gap
    exact ⟨h.orderDigest, ⟨h.orderLive, h.within⟩, h.intentDigest, h.sameOrder,
      ⟨h.takerEth, h.takerQrl, h.releaseCommitment⟩, h.chosen, h.response, h.bounded,
        ⟨h.skew, h.fresh⟩, h.runway,
      h.timeouts, h.responderWindow, h.initiatorWindow, by omega, x, hpre, hsigned, rfl⟩

end Accepts

/-! ## The first bytes of a message -/

theorem utf8_append (s t : String) : utf8 (s ++ t) = utf8 s ++ utf8 t := by
  unfold utf8
  simp

theorem primaryType_of_name {t t' : PrimaryType} (h : t.name = t'.name) : t = t' := by
  cases t <;> cases t' <;> first | rfl | (revert h; decide)

theorem messageBytes_prefix {primaryType : PrimaryType} {terms : Record}
    (h : Encodes terms primaryType.fields) :
    ∃ rest, messageBytes (buildPayload primaryType terms) = utf8 messagePrefix ++ rest := by
  have hbytes := protocolMessageBytes_eq h
  simp only [protocolMessageBytes, bind_eq_ok, pure_eq_ok] at hbytes
  obtain ⟨-, -, -, -, -, -, domain, -, values, -, hbytes⟩ := hbytes
  rw [← hbytes, messageText, String.ofList_append, String.ofList_toList, utf8_append]
  exact ⟨_, rfl⟩

end QuantaSwap.Book
