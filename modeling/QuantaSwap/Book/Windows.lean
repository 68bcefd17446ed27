import QuantaSwap.Book.Readings
import QuantaSwap.Book.Released

/-!
# The windows of an accepted fill

An order, an intent for it and a fill of the two leave every party its time, speak of
the same swap, and are told apart by their digests.
-/

set_option autoImplicit false

namespace QuantaSwap.Book

open Lib.Js Lib.Text Lib.Checks

variable {E : Crypto} {order order' : VerifiedOrderV1} {intent intent' : VerifiedFillIntentV1}
  {f f' : VerifiedFillV1}

/-- Three statements that the verifiers accept one after the other, each at a time of its own. -/
structure AcceptedChain (E : Crypto) (order : VerifiedOrderV1) (intent : VerifiedFillIntentV1)
    (f : VerifiedFillV1) :
    Prop where
  orderAccepted : ∃ now allowExpired rawOrder rawAuth,
    verifyOrderV1 E now allowExpired rawOrder rawAuth = .ok order
  intentAccepted : ∃ now allowExpired rawIntent rawAuth,
    verifyFillIntentV1 E now allowExpired rawIntent rawAuth order = .ok intent
  fillAccepted : ∃ now allowExpired rawFill rawAuth,
    verifyFillV1 E now allowExpired rawFill rawAuth order intent = .ok f

/-- What is left of the order, of the intent and of the two locks from the issuance of a fill on. -/
structure LeavesWindows (order : VerifiedOrderV1) (intent : VerifiedFillIntentV1)
    (f : VerifiedFillV1) : Prop where
  response : f.auth.issuedAt.val + 60 ≤ f.auth.expiresAt.val
  runway : f.auth.expiresAt.val + 600 < f.fill.responderTimeout.val
  gap : (f.fill.responderTimeout.val : Int) - f.auth.issuedAt.val ≤
    f.fill.initiatorTimeout.val - f.fill.responderTimeout.val
  refund : 660 < (f.fill.initiatorTimeout.val : Int) - f.fill.responderTimeout.val
  issuedWithinOrder :
    order.auth.issuedAt.val ≤ f.auth.issuedAt.val ∧ f.auth.issuedAt.val < order.auth.expiresAt.val
  respondWithinOrder : order.auth.issuedAt.val ≤ f.auth.expiresAt.val ∧
    f.auth.expiresAt.val ≤ order.auth.expiresAt.val
  issuedWithinIntent : intent.auth.issuedAt.val ≤ f.auth.issuedAt.val ∧
    f.auth.issuedAt.val < intent.auth.expiresAt.val

def VerifiedOrderV1.terms (order : VerifiedOrderV1) : Record := orderTerms order.order order.auth

def VerifiedFillIntentV1.terms (intent : VerifiedFillIntentV1) : Record :=
  intentTerms intent.intent intent.auth

/-- `orderNonce` of a fill is the nonce of its order. -/
def VerifiedFillV1.terms (f : VerifiedFillV1) (order : VerifiedOrderV1) : Record :=
  fillTerms f.fill f.auth order

/-- The three statements name one deployment, one pair of parties and one lock. -/
structure Agree (E : Crypto) (order : VerifiedOrderV1) (intent : VerifiedFillIntentV1)
    (f : VerifiedFillV1) : Prop where
  deployment : ∀ key ∈ orderV2Deployment.keys, order.terms.get key = orderV2Deployment.get key ∧
    intent.terms.get key = orderV2Deployment.get key ∧
      (f.terms order).get key = orderV2Deployment.get key
  orderDigest : intent.terms.get "orderDigest" = some (.str order.orderDigest.val) ∧
    (f.terms order).get "orderDigest" = some (.str order.orderDigest.val)
  orderNonce : (f.terms order).get "orderNonce" = order.terms.get "nonce"
  intentDigest : (f.terms order).get "intentDigest" = some (.str intent.intentDigest.val)
  taker : ∀ key ∈ ["takerEthAccount", "takerQrlAccount", "releaseCommitment"],
    (f.terms order).get key = intent.terms.get key
  allowed : (∀ a ∈ order.order.allowedTakerEth, a = f.fill.takerEthAccount) ∧
    ∀ a ∈ order.order.allowedTakerQrl, a = f.fill.takerQrlAccount
  prelock : order.order.prelock.isSome = true → ∀ key ∈ ["hashlock", "initiatorTimeout"],
    (f.terms order).get key = order.terms.get key
  signers : SignedBy E order.order.makerQrlAccount.val order.auth.toProtocolAuthV1
    (orderMessage order.order order.auth) ∧
    SignedBy E f.fill.takerQrlAccount.val intent.auth (intentMessage intent.intent intent.auth) ∧
    SignedBy E order.order.makerQrlAccount.val f.auth (fillMessage f.fill f.auth order)

/-! ## The rules of the three verifiers -/

theorem AcceptedChain.proofs (h : AcceptedChain E order intent f) :
    ∃ now now' now'', OrderProof E now order ∧ IntentProof E now' order intent ∧
    FillProof E now'' order intent f := by
  obtain ⟨now, _, _, _, horder⟩ := h.orderAccepted
  obtain ⟨now', _, _, _, hintent⟩ := h.intentAccepted
  obtain ⟨now'', _, _, _, hfill⟩ := h.fillAccepted
  exact ⟨now, now', now'', (verifyOrderV1_proof horder).1, verifyFillIntentV1_proof hintent,
    (verifyFillV1_proof hfill).1⟩

theorem AcceptedChain.leavesWindows (h : AcceptedChain E order intent f) :
    LeavesWindows order intent f := by
  obtain ⟨_, _, _, _, _, hfill⟩ := h.proofs
  obtain ⟨hrules, -⟩ := checkFillV1_eq_ok.mp hfill
  have hresponse := hrules.response
  have hrunway := hrules.runway
  have hbounded := hrules.bounded
  have hwithin := hrules.within
  have htimeouts := hrules.timeouts
  have hgap := hrules.gap
  unfold minFillResponseS at hresponse
  unfold minResponderRunwayAfterResponseS at hrunway
  constructor
  · omega
  · omega
  · omega
  · omega
  · exact hwithin
  · omega
  · exact hrules.chosen

theorem AcceptedChain.agree (h : AcceptedChain E order intent f) : Agree E order intent f := by
  obtain ⟨_, _, _, horder, hintent, hfill⟩ := h.proofs
  obtain ⟨-, horderSigned, -⟩ := checkOrderV1_eq_ok.mp horder
  obtain ⟨hrules, hintentSigned, -⟩ := checkFillIntentV1_eq_ok.mp hintent
  obtain ⟨hfillRules, hfillSigned, -⟩ := checkFillV1_eq_ok.mp hfill
  constructor
  · intro key hkey
    simp only [orderV2Deployment, Record.keys, List.map_cons, List.map_nil, List.mem_cons,
      List.not_mem_nil, or_false]
      at hkey
    rcases hkey with rfl | rfl | rfl | rfl <;> exact ⟨rfl, rfl, rfl⟩
  · rw [← hrules.orderDigest]
    refine ⟨rfl, ?_⟩
    rw [hrules.orderDigest, ← hfillRules.orderDigest]
    rfl
  · rfl
  · rw [← hfillRules.intentDigest]
    rfl
  · intro key hkey
    simp only [List.mem_cons, List.not_mem_nil, or_false] at hkey
    rcases hkey with rfl | rfl | rfl
    · exact congrArg (fun a => some (Json.str (caipEthAccount a))) hfillRules.takerEth
    · exact congrArg (fun a : QrlAccount => some (Json.str a.val)) hfillRules.takerQrl
    · exact congrArg (fun a : Bytes32 => some (Json.str a.val)) hfillRules.releaseCommitment
  · rw [hfillRules.takerEth, hfillRules.takerQrl]
    exact ⟨hrules.takerEth, hrules.takerQrl⟩
  · intro hprelocked key hkey
    obtain ⟨p, hp⟩ := Option.isSome_iff_exists.mp hprelocked
    obtain ⟨hlock, htimeout⟩ := hfillRules.prelock p hp
    unfold VerifiedFillV1.terms VerifiedOrderV1.terms fillTerms orderTerms
    rw [hp, hlock, htimeout]
    simp only [List.mem_cons, List.not_mem_nil, or_false] at hkey
    rcases hkey with rfl | rfl <;> rfl
  · rw [hfillRules.takerQrl]
    exact ⟨horderSigned, hintentSigned, hfillSigned⟩

/-! ## The terms behind a digest -/

theorem message_of_digest (hcol : CollisionFree E) {signer signer' : String}
    {auth auth' : ProtocolAuthV1}
    {m m' : List UInt8} (h : SignedBy E signer auth m) (h' : SignedBy E signer' auth' m')
    (hdigest : digestOfMessage E m = digestOfMessage E m') : m = m' :=
  hcol m m' ⟨_, _, _, _, h⟩ ⟨_, _, _, _, h'⟩ (prefixed_injective hdigest)

theorem rows_of_message {primaryType : PrimaryType} {terms terms' : Record}
    (h : Encodes terms primaryType.fields)
    (h' : Encodes terms' primaryType.fields)
    (heq : messageBytes (buildPayload primaryType terms) =
      messageBytes (buildPayload primaryType terms')) :
    ∃ rows, wireRows terms primaryType.fields = .ok rows ∧
    wireRows terms' primaryType.fields = .ok rows := by
  have hbytes := protocolMessageBytes_eq h
  have hbytes' := protocolMessageBytes_eq h'
  rw [heq] at hbytes
  obtain ⟨-, rows, hrows, hrows'⟩ := protocolMessageBytes_injective hbytes hbytes'
  exact ⟨rows, hrows, hrows'⟩

theorem order_terms_of_digest (hcol : CollisionFree E) {now now' : SafeInt}
    (h : OrderProof E now order)
    (h' : OrderProof E now' order') (hdigest : order.orderDigest = order'.orderDigest) :
    order.terms = order'.terms := by
  obtain ⟨-, hsigned, heq⟩ := checkOrderV1_eq_ok.mp h
  obtain ⟨-, hsigned', heq'⟩ := checkOrderV1_eq_ok.mp h'
  rw [heq, heq'] at hdigest
  obtain ⟨rows, hrows, hrows'⟩ := rows_of_message (orderTerms_encodes order.order order.auth)
    (orderTerms_encodes order'.order order'.auth) (message_of_digest hcol hsigned hsigned' hdigest)
  obtain ⟨hbody, hissued, hexpires, hnonce, hmaker, hshare⟩ := order_of_rows hrows hrows'
  unfold VerifiedOrderV1.terms orderTerms
  rw [hbody, hissued, hexpires, hnonce, hmaker, hshare]

theorem intent_terms_of_digest (hcol : CollisionFree E) {now now' : SafeInt}
    (h : IntentProof E now order intent)
    (h' : IntentProof E now' order' intent')
    (hdigest : intent.intentDigest = intent'.intentDigest) :
    intent.terms = intent'.terms := by
  obtain ⟨hbody, hissued, hexpires, hnonce⟩ := h.eq_of_digest hcol h' hdigest
  unfold VerifiedFillIntentV1.terms intentTerms
  rw [hbody, hissued, hexpires, hnonce]

theorem fill_of_rows {rows : List Lib.JsonText.Row}
    (h : wireRows (f.terms order) (PrimaryType.fields .FillV2) = .ok rows)
    (h' : wireRows (f'.terms order') (PrimaryType.fields .FillV2) = .ok rows) :
    f.terms order = f'.terms order' := by
  have horder : f.fill.orderDigest.val = f'.fill.orderDigest.val :=
    str_of_wireRows h h' (show ("orderDigest", .bytes32) ∈ _ by decide) rfl rfl
  have horderNonce : order.auth.nonce.val = order'.auth.nonce.val :=
    str_of_wireRows h h' (show ("orderNonce", .bytes32) ∈ _ by decide) rfl rfl
  have hintent : f.fill.intentDigest.val = f'.fill.intentDigest.val :=
    str_of_wireRows h h' (show ("intentDigest", .bytes32) ∈ _ by decide) rfl rfl
  have hnonce : f.auth.nonce.val = f'.auth.nonce.val :=
    str_of_wireRows h h' (show ("fillNonce", .bytes32) ∈ _ by decide) rfl rfl
  have heth : caipEthAccount f.fill.takerEthAccount = caipEthAccount f'.fill.takerEthAccount :=
    str_of_wireRows h h' (show ("takerEthAccount", .string) ∈ _ by decide) rfl rfl
  have hqrl : f.fill.takerQrlAccount.val = f'.fill.takerQrlAccount.val :=
    str_of_wireRows h h' (show ("takerQrlAccount", .string) ∈ _ by decide) rfl rfl
  have hrelease : f.fill.releaseCommitment.val = f'.fill.releaseCommitment.val :=
    str_of_wireRows h h' (show ("releaseCommitment", .bytes32) ∈ _ by decide) rfl rfl
  have hhashlock : f.fill.hashlock.val = f'.fill.hashlock.val :=
    str_of_wireRows h h' (show ("hashlock", .bytes32) ∈ _ by decide) rfl rfl
  have hinitiator : f.fill.initiatorTimeout.val.repr = f'.fill.initiatorTimeout.val.repr :=
    str_of_wireRows h h' (show ("initiatorTimeout", .uint 64) ∈ _ by decide) rfl rfl
  have hresponder : f.fill.responderTimeout.val.repr = f'.fill.responderTimeout.val.repr :=
    str_of_wireRows h h' (show ("responderTimeout", .uint 64) ∈ _ by decide) rfl rfl
  have hissued : f.auth.issuedAt.val.repr = f'.auth.issuedAt.val.repr :=
    str_of_wireRows h h' (show ("issuedAt", .uint 64) ∈ _ by decide) rfl rfl
  have hrespond : f.auth.expiresAt.val.repr = f'.auth.expiresAt.val.repr :=
    str_of_wireRows h h' (show ("respondBy", .uint 64) ∈ _ by decide) rfl rfl
  unfold VerifiedFillV1.terms fillTerms uintJson
  rw [horder, horderNonce, hintent, hnonce, heth, hqrl, hrelease, hhashlock, hinitiator, hresponder,
    hissued, hrespond]

theorem fill_terms_of_digest (hcol : CollisionFree E) {now now' : SafeInt}
    (h : FillProof E now order intent f)
    (h' : FillProof E now' order' intent' f') (hdigest : f.fillDigest = f'.fillDigest) :
    f.terms order = f'.terms order' := by
  obtain ⟨-, hsigned, heq⟩ := checkFillV1_eq_ok.mp h
  obtain ⟨-, hsigned', heq'⟩ := checkFillV1_eq_ok.mp h'
  rw [heq, heq'] at hdigest
  obtain ⟨rows, hrows, hrows'⟩ := rows_of_message (fillTerms_encodes f.fill f.auth order)
    (fillTerms_encodes f'.fill f'.auth order') (message_of_digest hcol hsigned hsigned' hdigest)
  exact fill_of_rows hrows hrows'

/-- Accepted statements leave every window, agree, and have the terms that their digests name. -/
theorem accepted_chain_windows (E : Crypto) :
    (∀ order intent f, AcceptedChain E order intent f → LeavesWindows order intent f ∧
      Agree E order intent f) ∧
    (CollisionFree E → ∀ order order' intent intent' f f', AcceptedChain E order intent f →
      AcceptedChain E order' intent' f' → order.orderDigest = order'.orderDigest →
      intent.intentDigest = intent'.intentDigest → f.fillDigest = f'.fillDigest →
      order.terms = order'.terms ∧ intent.terms = intent'.terms ∧
      f.terms order = f'.terms order') := by
  refine ⟨fun order intent f h => ⟨h.leavesWindows, h.agree⟩, ?_⟩
  intro hcol order order' intent intent' f f' h h' hdigest hintentDigest hfillDigest
  obtain ⟨_, _, _, horder, hintent, hfill⟩ := h.proofs
  obtain ⟨_, _, _, horder', hintent', hfill'⟩ := h'.proofs
  exact ⟨order_terms_of_digest hcol horder horder' hdigest,
    intent_terms_of_digest hcol hintent hintent' hintentDigest,
    fill_terms_of_digest hcol hfill hfill' hfillDigest⟩

section Sample

/-- The first, the second or any other message is told by one of three digests. -/
def toldApart (m₁ m₂ : List UInt8) (d₁ d₂ d₃ : Bytes32) (m : List UInt8) : Bytes32 :=
  if m = m₁ then d₁ else if m = m₂ then d₂ else d₃

section ToldApart

variable {m₁ m₂ m₃ m m' : List UInt8} {d₁ d₂ d₃ : Bytes32}

theorem toldApart_first : toldApart m₁ m₂ d₁ d₂ d₃ m₁ = d₁ := if_pos rfl

theorem toldApart_second (h : m₂ ≠ m₁) : toldApart m₁ m₂ d₁ d₂ d₃ m₂ = d₂ := by
  rw [toldApart, if_neg h, if_pos rfl]

theorem toldApart_injective (h₁₂ : d₁ ≠ d₂) (h₁₃ : d₁ ≠ d₃) (h₂₃ : d₂ ≠ d₃)
    (hm : m = m₁ ∨ m = m₂ ∨ m = m₃)
    (hm' : m' = m₁ ∨ m' = m₂ ∨ m' = m₃)
    (h : toldApart m₁ m₂ d₁ d₂ d₃ m = toldApart m₁ m₂ d₁ d₂ d₃ m') : m = m' := by
  unfold toldApart at h
  by_cases hfirst : m = m₁ <;> by_cases hfirst' : m' = m₁
  · rw [hfirst, hfirst']
  · rw [if_pos hfirst, if_neg hfirst'] at h
    split at h
    · exact absurd h h₁₂
    · exact absurd h h₁₃
  · rw [if_neg hfirst, if_pos hfirst'] at h
    split at h
    · exact absurd h.symm h₁₂
    · exact absurd h.symm h₁₃
  · rw [if_neg hfirst, if_neg hfirst'] at h
    by_cases hsecond : m = m₂ <;> by_cases hsecond' : m' = m₂
    · rw [hsecond, hsecond']
    · rw [if_pos hsecond, if_neg hsecond'] at h
      exact absurd h h₂₃
    · rw [if_neg hsecond, if_pos hsecond'] at h
      exact absurd h.symm h₂₃
    · rw [(hm.resolve_left hfirst).resolve_left hsecond,
        (hm'.resolve_left hfirst').resolve_left hsecond']

end ToldApart

abbrev twos : Bytes32 := repeated 64 '2' lowerHex_two

abbrev threes : Bytes32 := repeated 64 '3' lowerHex_three

abbrev fours : Bytes32 := repeated 64 '4' lowerHex_four

/-- The fill of the sample order for the sample intent. -/
def chainFill : FillV1Body := { sampleFill with intentDigest := threes }

def chainOrderMessage : List UInt8 := orderMessage sampleOrder sampleAuth

def chainIntentMessage : List UInt8 := intentMessage sampleIntent sampleIntentAuth

def chainFillMessage : List UInt8 := fillMessage chainFill sampleFillAuth sampleSigned

/-- The three messages of the sample are signed and have three digests. -/
def chainCrypto : Crypto where
  sha256 m := hexOf (toldApart chainOrderMessage chainIntentMessage twos threes fours m)
  shake256 _ := []
  verifyMessageForSigner _ _ _ _ m :=
    decide (m = chainOrderMessage ∨ m = chainIntentMessage ∨ m = chainFillMessage)

def chainOrder : VerifiedOrderV1 := signedOrder chainCrypto sampleOrder sampleAuth

def chainIntent : VerifiedFillIntentV1 := signedIntent chainCrypto sampleIntent sampleIntentAuth

def chainSignedFill : VerifiedFillV1 := signedFill chainCrypto chainFill sampleFillAuth chainOrder

theorem digest_chain (m : List UInt8) : digestOfMessage chainCrypto m =
    toldApart chainOrderMessage chainIntentMessage twos threes fours m := prefixed_hexOf _

theorem digest_chainOrder : chainOrder.orderDigest = twos :=
  (digest_chain chainOrderMessage).trans toldApart_first

theorem digest_chainIntent : chainIntent.intentDigest = threes := by
  have hne : chainIntentMessage ≠ chainOrderMessage := by
    unfold chainIntentMessage chainOrderMessage intentMessage orderMessage
    exact messages_ne (intentTerms_encodes _ _) (orderTerms_encodes _ _) (by decide)
  exact (digest_chain chainIntentMessage).trans (toldApart_second hne)

theorem chainCrypto_collisionFree : CollisionFree chainCrypto := by
  rintro m m' ⟨_, _, _, _, hm⟩ ⟨_, _, _, _, hm'⟩ hhash
  have hdigest := (digest_chain m).symm.trans ((congrArg prefixed hhash).trans (digest_chain m'))
  exact toldApart_injective (by decide +kernel) (by decide +kernel) (by decide +kernel)
    (of_decide_eq_true hm)
    (of_decide_eq_true hm') hdigest

theorem chain_signed {signer : String} {auth : ProtocolAuthV1} {m : List UInt8}
    (h : m = chainOrderMessage ∨ m = chainIntentMessage ∨ m = chainFillMessage) :
    SignedBy chainCrypto signer auth m :=
  decide_eq_true h

theorem chain_orderProof : OrderProof chainCrypto sampleClock chainOrder := by
  have hrules : OrderRules sampleClock true sampleOrder sampleAuth := by
    refine ⟨by decide, by decide, by decide, by decide, ?_, by decide +kernel, iff_of_true rfl rfl⟩
    intro p hp
    cases hp
    decide
  exact checkOrderV1_eq_ok.mpr ⟨hrules, chain_signed (.inl rfl), rfl⟩

theorem chain_intentProof : IntentProof chainCrypto sampleClock chainOrder chainIntent := by
  have hrules : IntentRules sampleClock true sampleIntent sampleIntentAuth chainOrder :=
    ⟨digest_chainOrder.symm, by simp, by decide, by decide, by decide, by decide,
      by decide, by simp,
      (fun _ h => by cases h), (fun _ h => by cases h)⟩
  exact checkFillIntentV1_eq_ok.mpr ⟨hrules, chain_signed (.inr (.inl rfl)), rfl⟩

theorem chain_fillProof :
    FillProof chainCrypto sampleClock chainOrder chainIntent chainSignedFill := by
  have hrules : FillRules sampleClock true chainFill sampleFillAuth chainOrder chainIntent := by
    refine ⟨digest_chainOrder.symm, by simp, by decide, digest_chainIntent.symm, rfl, rfl, rfl, rfl,
      by decide, by decide,
      by decide, by decide, by simp, by decide, by decide, by decide, (fun h => by cases h), by
        decide, ?_,
      fun _ => ⟨by decide, by simp⟩⟩
    intro p hp
    cases hp
    exact ⟨rfl, rfl⟩
  have hmessage : fillMessage chainFill sampleFillAuth chainOrder = chainFillMessage := by
    unfold chainFillMessage fillMessage fillTerms
    rfl
  exact checkFillV1_eq_ok.mpr ⟨hrules, chain_signed (.inr (.inr hmessage)), rfl⟩

theorem chain_accepted : AcceptedChain chainCrypto chainOrder chainIntent chainSignedFill := by
  have horder := chain_orderProof.verify (fun _ => ⟨rfl, rfl⟩)
  have hintent := chain_intentProof.verify
  have hfill := chain_fillProof.verify
  constructor
  · exact ⟨_, _, _, _, horder⟩
  · exact ⟨_, _, _, _, hintent⟩
  · exact ⟨_, _, _, _, hfill⟩

/-- The sample chain, beside itself. -/
theorem accepted_chain_windows_sample : LeavesWindows chainOrder chainIntent chainSignedFill ∧
    Agree chainCrypto chainOrder chainIntent chainSignedFill ∧
    chainOrder.terms = chainOrder.terms := by
  obtain ⟨hwindows, hterms⟩ := accepted_chain_windows chainCrypto
  obtain ⟨hleaves, hagree⟩ := hwindows chainOrder chainIntent chainSignedFill chain_accepted
  exact ⟨hleaves, hagree,
    (hterms chainCrypto_collisionFree chainOrder chainOrder chainIntent chainIntent chainSignedFill
    chainSignedFill chain_accepted chain_accepted rfl rfl rfl).1⟩

end Sample

end QuantaSwap.Book
