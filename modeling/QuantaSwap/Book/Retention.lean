import QuantaSwap.Book.Relisted

/-!
# Retained proposals

An order retains a bounded number of proposals, of distinct digests and nonces. A live
one stays as long as its order does, and below the cap a live proposal finds room.
-/

set_option autoImplicit false

namespace QuantaSwap.Book

open Lib.Js Lib.Text Lib.Checks Lib.Run

/-- What an order retains of proposals. -/
structure RetainsFew (o : Order) : Prop where
  few : o.intents.length ≤ maxFillIntentsPerOrder
  digests : (o.intents.map StoredFillIntentV1.intentDigest).Nodup
  nonces : (o.intents.map fun j => j.auth.nonce).Nodup

/-- The proposal is retained by the row, released or not. -/
def Holds (j : PublicFillIntentV1) (o : Order) : Prop := ∃ k ∈ o.intents, k.publicIntent = j

/-- A filled order that the sweep forgets, a day after the initiator timeout of its fill. -/
def Forgotten (now : SafeInt) (o : Order) : Prop :=
  o.status = .locking ∧ ∃ t1, o.initiatorTimeout = some t1 ∧ t1 + lockingLingerS < now.val

section Rows

variable {E : Crypto} {now : SafeInt} {i : Step} {v : VerifiedOrderV1} {o o' : Order}
  {j : PublicFillIntentV1}

theorem Row.retainsFew (h : Row E now o) : RetainsFew o := by
  rcases h.kind with hlegacy | ⟨v, hsigned⟩
  · have hnone : o.intents = [] := by
      unfold Order.intents
      rw [hlegacy.fillIntents]
      rfl
    constructor <;> simp [hnone]
  · exact ⟨hsigned.retained.intents_le, hsigned.retained.digests, hsigned.retained.nonces⟩

theorem Holds.sweep (h : Holds j o) (hlive : now.val < j.auth.expiresAt.val)
    (hsweep : sweepOrder now o = some o') :
    Holds j o' := by
  obtain ⟨k, hk, rfl⟩ := h
  refine ⟨k, ?_, rfl⟩
  rw [(sweepOrder_kept hsweep).2.2, dropStaleIntents_intents]
  unfold retainedIntents
  rw [List.mem_filter]
  refine ⟨hk, ?_⟩
  have hlive : now.val < k.auth.expiresAt.val := hlive
  rw [decide_eq_true_iff]
  omega

theorem forgotten_of_swept (hrow : Row E now o) (hheld : Holds j o)
    (hlive : now.val < j.auth.expiresAt.val)
    (hgone : sweepOrder now o = none) : Forgotten now o := by
  rw [sweepOrder_eq] at hgone
  split at hgone
  · cases hgone
  split at hgone
  · rename_i hremovable
    unfold removable at hremovable
    split at hremovable
    · -- A proposal does not outlive its order.
      obtain ⟨k, hk, rfl⟩ := hheld
      rcases hrow.kind with hlegacy | ⟨v, hsigned⟩
      · unfold Order.intents at hk
        rw [hlegacy.fillIntents] at hk
        exact absurd hk List.not_mem_nil
      · rw [hsigned.portable.auth] at hremovable
        have hexpired := (of_decide_eq_true hremovable).1
        have hbounded := (checkFillIntentV1_eq_ok.mp (hsigned.retained.proofs k hk)).1.bounded
        have hlive : now.val < k.auth.expiresAt.val := hlive
        have hbounded : k.auth.expiresAt.val ≤ v.auth.expiresAt.val := hbounded
        omega
    · rename_i hlocking
      split at hremovable
      · rename_i t1 htimeout
        exact ⟨hlocking, t1, htimeout, of_decide_eq_true hremovable⟩
      · cases hremovable
    · cases hremovable
  · cases hgone

theorem Holds.change (h : Holds j o) (hlive : i.now.val < j.auth.expiresAt.val)
    (hchange : Change E i o o') : Holds j o' := by
  cases hchange with
  | orderConflict verified => exact h
  | legacy hlegacy hchange => cases hchange <;> exact h
  | portable hportable hchange =>
    cases hchange with
    | fillIntent variant verified kept ipHash hvariant hproof hnew hopen hclean hnonce hkept =>
      obtain ⟨k, hk, rfl⟩ := h
      have hlive : i.now.val < k.auth.expiresAt.val := hlive
      refine ⟨k, List.mem_append_left _ ?_, rfl⟩
      rcases makeRoom_displaces hkept with rfl | ⟨-, evicted, -, hdisplaced, rfl, -⟩
      · exact hk
      · -- What makes room has expired.
        have hne : k ≠ evicted := by
          rintro rfl
          exact absurd hdisplaced.1 (not_le.mpr hlive)
        exact (List.mem_erase_of_ne hne).mpr hk
    | releaseIntent digest secret intentDigest intent =>
      obtain ⟨k, hk, rfl⟩ := h
      refine ⟨withRelease intentDigest ⟨i.now, secret⟩ k, ?_, withRelease_publicIntent _ _ _⟩
      rw [releaseIntent_intents]
      exact List.mem_map_of_mem hk
    | _ => exact h

end Rows

/-! ## Across a call -/

section Call

variable {E : Crypto} {i : Step} {l l' : List Order} {o : Order} {j : PublicFillIntentV1}

/-- The proposal is still there, on a row that moves as `o` can without a fill. -/
def Present (j : PublicFillIntentV1) (o : Order) (l : List Order) : Prop :=
  ∃ x ∈ l, x.id = o.id ∧ Holds j x

theorem Effects.keeps_live (h : Effects E i l l') (hids : (l.map Order.id).Nodup)
    (hrows : ∀ o ∈ l, Row E i.now o)
    (ho : o ∈ l) (hheld : Holds j o) (hlive : i.now.val < j.auth.expiresAt.val) :
    Present j o l' ∨ Forgotten i.now o := by
  induction h generalizing o with
  | kept => exact .inl ⟨o, ho, rfl, hheld⟩
  | @wrote l l' hwrote =>
    cases hsweep : sweepOrder i.now o with
    | none => exact .inr (forgotten_of_swept (hrows o ho) hheld hlive hsweep)
    | some o₁ =>
      left
      have hmem : o₁ ∈ sweepAll i.now l := mem_sweepAll.mpr ⟨o, ho, hsweep⟩
      have hheld₁ := hheld.sweep hlive hsweep
      have hid := sweepOrder_id hsweep
      -- A create adds a row, and a change reaches the row itself or another one.
      rcases hwrote with rfl | hwrite
      · exact ⟨o₁, hmem, hid, hheld₁⟩
      cases hwrite with
      | create body makerIp origin y => exact ⟨o₁, List.mem_append_left _ hmem, hid, hheld₁⟩
      | change y f hy hchange =>
        by_cases hsame : o₁.id = y.id
        · obtain rfl := List.inj_on_of_nodup_map ((sweepAll_ids i.now l).nodup hids) hmem hy hsame
          refine ⟨f o₁, mem_updated hmem, hchange.id_eq.trans hid, ?_⟩
          exact hheld₁.change hlive hchange
        · exact ⟨o₁, List.mem_map.mpr ⟨o₁, hmem, if_neg hsame⟩, hid, hheld₁⟩
  | @sweep l l' _ ih =>
    cases hsweep : sweepOrder i.now o with
    | none => exact .inr (forgotten_of_swept (hrows o ho) hheld hlive hsweep)
    | some o₁ =>
      have hmem : o₁ ∈ sweepAll i.now l := mem_sweepAll.mpr ⟨o, ho, hsweep⟩
      have hrows₁ : ∀ o ∈ sweepAll i.now l, Row E i.now o := by
        intro y hy
        obtain ⟨z, hz, hzy⟩ := mem_sweepAll.mp hy
        exact (hrows z hz).sweep hzy
      rcases ih ((sweepAll_ids i.now l).nodup hids) hrows₁ hmem (hheld.sweep hlive hsweep) with
        hpresent | hforgotten
      · obtain ⟨x, hx, hid, hheld'⟩ := hpresent
        exact .inl ⟨x, hx, hid.trans (sweepOrder_id hsweep), hheld'⟩
      · -- The sweep neither fills a row nor moves the timeouts of one.
        right
        rcases sweepOrder_cases hsweep with ⟨rfl, -⟩ | rfl
        · exact absurd hforgotten.1 (by simp)
        · exact hforgotten

end Call

/-! ## Room for a live proposal -/

section Room

variable {E : Crypto} {now : SafeInt} {s s' : Store} {o : Order} {verified : VerifiedFillIntentV1}

theorem firstToEvict_of_mem {l : List StoredFillIntentV1} {j : StoredFillIntentV1} (hj : j ∈ l) :
    ∃ first, firstToEvict l = some first := by
  cases l with
  | nil => exact absurd hj List.not_mem_nil
  | cons k rest =>
    unfold firstToEvict
    split
    · exact ⟨_, rfl⟩
    · exact ⟨_, rfl⟩

theorem makeRoom_live {intents : List StoredFillIntentV1}
    (hlive : now.val < verified.auth.expiresAt.val)
    (hbelow : liveIntentCount now intents < maxFillIntentsPerOrder) :
    ∃ kept, makeRoom now intents verified = .ok kept := by
  unfold makeRoom
  split
  · exact ⟨_, rfl⟩
  · rename_i hfull
    have hincoming : decide (now.val < verified.auth.expiresAt.val) = true := decide_eq_true hlive
    rw [hincoming]
    -- Not all of the retained proposals are live.
    have hexpired : ∃ j ∈ intents, isLiveIntent now j = false := by
      by_contra hall
      have hlives : intents.filter (isLiveIntent now) = intents := by
        rw [List.filter_eq_self]
        intro j hj
        rw [← Bool.not_eq_false]
        exact fun hdead => hall ⟨j, hj, hdead⟩
      unfold liveIntentCount at hbelow
      rw [hlives] at hbelow
      exact hfull hbelow
    obtain ⟨j, hj, hdead⟩ := hexpired
    obtain ⟨first, hfirst⟩ :=
      firstToEvict_of_mem (l := intents.filter fun k => !isLiveIntent now k &&
        (true || decide (k.auth.expiresAt.val < verified.auth.expiresAt.val))) (j := j) (by
      rw [List.mem_filter]
      simp [hj, hdead])
    dsimp only
    rw [hfirst]
    exact ⟨_, rfl⟩

theorem storeFillIntent_refusals {takerIp : String} {federated : Bool} {e : Thrown}
    (hlive : now.val < verified.auth.expiresAt.val)
    (hbelow : liveIntentCount now o.intents < maxFillIntentsPerOrder)
    (h : storeFillIntent E now o verified takerIp federated s = .error e s') :
    (∃ j ∈ o.intents, j.auth.nonce = verified.auth.nonce) ∨
      (federated = false ∧ ∃ t, assertDirectLimits now o verified (sha256Hex E takerIp) false s =
        .error e t) := by
  obtain ⟨kept, hkept⟩ := makeRoom_live hlive hbelow
  simp only [storeFillIntent, run_bind_error, check_run_error, check_run_ok, refuse_eq_error,
    modify_run, pure_run,
    reduceCtorEq, and_false, exists_false, or_false, hkept, false_and] at h
  rcases h with ⟨⟨⟨j, hj, hnonce⟩, -⟩, -⟩ | ⟨_, _, ⟨-, rfl⟩,
    ⟨⟨⟨-, hfull⟩, -⟩, -⟩ | ⟨_, _, ⟨-, rfl⟩, hlimits⟩⟩
  · exact .inl ⟨j, hj, hnonce⟩
  · exact absurd hbelow (not_lt.mpr hfull)
  · right
    cases federated with
    | true => cases hlimits
    | false => exact ⟨rfl, s', hlimits⟩

theorem evicted_expired {intents kept : List StoredFillIntentV1}
    (h : makeRoom now intents verified = .ok kept)
    {j : StoredFillIntentV1} (hj : j ∈ intents) (hgone : j ∉ kept) :
    j.auth.expiresAt.val ≤ now.val := by
  rcases makeRoom_displaces h with rfl | ⟨-, evicted, -, hdisplaced, rfl, -⟩
  · exact absurd hj hgone
  · by_cases hne : j = evicted
    · rw [hne]
      exact hdisplaced.1
    · exact absurd ((List.mem_erase_of_ne hne).mpr hj) hgone

end Room

/-- In every run: few proposals on an order, with distinct digests and nonces; a live one stays
unless its filled order is forgotten; eviction takes expired ones; below the cap of live ones, a
live one finds room. -/
theorem run_retention (E : Crypto) (is : List Step) :
    let w := run (World.step E) World.start is
    (∀ o ∈ w.store.orders, RetainsFew o) ∧
    (∀ (i : Step), ∀ o ∈ w.store.orders, ∀ j ∈ o.intents,
      (w.timed i).now.val < j.auth.expiresAt.val →
      Present j.publicIntent o (w.step E i).store.orders ∨ Forgotten (w.timed i).now o) ∧
    (∀ (now : SafeInt) (verified : VerifiedFillIntentV1), ∀ o ∈ w.store.orders, ∀ kept,
      makeRoom now o.intents verified = .ok kept → ∀ j ∈ o.intents, j ∉ kept →
      j.auth.expiresAt.val ≤ now.val) ∧
    ∀ (now : SafeInt) (verified : VerifiedFillIntentV1) (takerIp : String) (federated : Bool),
      ∀ o ∈ w.store.orders,
      now.val < verified.auth.expiresAt.val →
      liveIntentCount now o.intents < maxFillIntentsPerOrder →
      ∀ s e s', storeFillIntent E now o verified takerIp federated s = .error e s' →
        (∃ j ∈ o.intents, j.auth.nonce = verified.auth.nonce) ∨
          (federated = false ∧ ∃ t,
            assertDirectLimits now o verified (sha256Hex E takerIp) false s = .error e t) := by
  intro w
  have hrows := run_rows E is
  refine ⟨fun o ho => (hrows o ho).retainsFew, ?_, ?_, ?_⟩
  · intro i o ho j hj hlive
    exact (w.step_effects E i).keeps_live (run_ids E is)
      (fun o ho => (hrows o ho).later (w.clock_le_timed i)) ho
      ⟨j, hj, rfl⟩ hlive
  · intro now verified o _ kept hkept j hj hgone
    exact evicted_expired hkept hj hgone
  · intro now verified takerIp federated o _ hlive hbelow s e s' h
    exact storeFillIntent_refusals hlive hbelow h

/-! ## A full order -/

section Sample

def roomClock : SafeInt := ⟨1000200, by decide⟩

def roomIntent : FillIntentV1Body := { sampleIntent with orderDigest := digitNonce 15 }

/-- Expired proposals, and a live one under the nonce of nines. -/
def roomAuth (k : Fin 16) : ProtocolAuthV1 :=
  { sampleAuth.toProtocolAuthV1 with
    nonce := digitNonce k
    issuedAt := if k = 9 then ⟨1000150, by decide⟩ else sampleClock
    expiresAt := if k = 9 then ⟨1000250, by decide⟩ else ⟨1000100, sampleExpiry_safe⟩ }

def roomMessage (k : Fin 16) : List UInt8 := intentMessage roomIntent (roomAuth k)

/-- The sample proposals hash to their nonces, the rest to fifteens. -/
def roomCrypto : Crypto where
  sha256 bytes := hexOf (digitNonce (if bytes[11]? = some 80 then
    ((List.finRange 16).find? fun k => bytes = roomMessage k).getD 15 else 15))
  shake256 _ := []
  verifyMessageForSigner _ _ _ _ _ := true

theorem roomMessage_eleventh (k : Fin 16) : (roomMessage k)[11]? = some 80 := by
  obtain ⟨rest, hrest⟩ := messageBytes_prefix (intentTerms_encodes roomIntent (roomAuth k))
  have hprefix : (utf8 messagePrefix)[11]? = some 80 := by decide +kernel
  rw [roomMessage, intentMessage, hrest, List.getElem?_append_left]
  · exact hprefix
  · exact (List.getElem?_eq_some_iff.mp hprefix).1

theorem roomMessage_injective : Function.Injective roomMessage := by
  intro k k' h
  have hbytes := protocolMessageBytes_eq (intentTerms_encodes roomIntent (roomAuth k))
  have hbytes' := protocolMessageBytes_eq (intentTerms_encodes roomIntent (roomAuth k'))
  rw [show messageBytes (buildPayload .FillIntentV2 (intentTerms roomIntent (roomAuth k))) =
    messageBytes (buildPayload .FillIntentV2 (intentTerms roomIntent (roomAuth k'))) from
      h] at hbytes
  obtain ⟨-, rows, hrows, hrows'⟩ := protocolMessageBytes_injective hbytes hbytes'
  have hmem : ∀ {field : WireField}, field ∈ PrimaryType.fields .FillIntentV2 →
      field ∈ PrimaryType.fields
        (buildPayload .FillIntentV2 (intentTerms roomIntent (roomAuth k))).primaryType := id
  exact digitNonce_injective (Subtype.ext
    (str_of_wireRows hrows hrows' (hmem (show ("requestNonce", .bytes32) ∈ _ by decide)) rfl rfl))

theorem orderMessage_ne_room (body : OrderV1Body) (auth : MakerOrderAuthV1) (k : Fin 16) :
    orderMessage body auth ≠ roomMessage k := by
  intro h
  have hbytes := protocolMessageBytes_eq (orderTerms_encodes body auth)
  have hbytes' := protocolMessageBytes_eq (intentTerms_encodes roomIntent (roomAuth k))
  rw [show messageBytes (buildPayload .OrderV2 (orderTerms body auth)) =
    messageBytes (buildPayload .FillIntentV2 (intentTerms roomIntent (roomAuth k))) from
      h] at hbytes
  have hname := (protocolMessageBytes_injective hbytes hbytes').1
  revert hname
  change PrimaryType.name .OrderV2 = PrimaryType.name .FillIntentV2 → False
  decide

def roomVerified (k : Fin 16) : VerifiedFillIntentV1 :=
  signedIntent roomCrypto roomIntent (roomAuth k)

def roomSigned : VerifiedOrderV1 := signedOrder roomCrypto plainOrder plainAuth

theorem digest_room (k : Fin 16) : (roomVerified k).intentDigest = digitNonce k := by
  have hfind : (List.finRange 16).find? (fun k' => decide (roomMessage k = roomMessage k')) =
    some k := by
    have hsame : (fun k' => decide (roomMessage k = roomMessage k')) =
      fun k' => decide (k = k') := by
      funext k'
      rw [decide_eq_decide]
      exact roomMessage_injective.eq_iff
    rw [hsame]
    clear hsame
    revert k
    decide
  unfold roomVerified signedIntent digestOfMessage roomCrypto
  dsimp only
  rw [show intentMessage roomIntent (roomAuth k) = roomMessage k from rfl,
    if_pos (roomMessage_eleventh k), hfind]
  exact prefixed_hexOf _

theorem digest_roomSigned : roomSigned.orderDigest = digitNonce 15 := by
  have hfind : (List.finRange 16).find? (fun k => decide (orderMessage plainOrder plainAuth =
    roomMessage k)) = none := by
    rw [List.find?_eq_none]
    intro k _
    simp [orderMessage_ne_room]
  unfold roomSigned signedOrder digestOfMessage roomCrypto
  dsimp only
  rw [if_pos (orderMessage_eleventh _ _), hfind]
  exact prefixed_hexOf _

theorem room_orderProof : OrderProof roomCrypto roomClock roomSigned := by
  have hrules : OrderRules roomClock true plainOrder plainAuth :=
    ⟨by decide, by decide, by decide, (fun h => by cases h), (fun p hp => by cases hp),
      by decide +kernel,
      iff_of_true rfl rfl⟩
  exact checkOrderV1_eq_ok.mpr ⟨hrules, rfl, rfl⟩

theorem room_intentProof (k : Fin 16) :
    IntentProof roomCrypto roomClock roomSigned (roomVerified k) := by
  have hrules : IntentRules roomClock true roomIntent (roomAuth k) roomSigned := by
    refine ⟨digest_roomSigned.symm, (fun h => by cases h), ?_, ?_, ?_, ?_, ?_,
      (fun h => by cases h),
      (fun _ h => by cases h), (fun _ h => by cases h)⟩
    all_goals
      revert k
      decide
  exact checkFillIntentV1_eq_ok.mpr ⟨hrules, rfl, rfl⟩

def roomFill (k : Fin 16) : FillV1Body :=
  { sampleFill with
    orderDigest := digitNonce 15
    intentDigest := digitNonce k
    initiatorTimeout := ⟨1012000, plainTimeout_safe⟩ }

def roomVerifiedFill (k : Fin 16) : VerifiedFillV1 :=
  signedFill roomCrypto (roomFill k) sampleFillAuth roomSigned

theorem room_fillProof {k : Fin 16} (hk : k ≠ 9) :
    FillProof roomCrypto roomClock roomSigned (roomVerified k) (roomVerifiedFill k) := by
  have hrules :
    FillRules roomClock true (roomFill k) sampleFillAuth roomSigned (roomVerified k) := by
    refine ⟨digest_roomSigned.symm, (fun h => by cases h), ?_, (digest_room k).symm, rfl, rfl, rfl,
      rfl, ?_, ?_, ?_, ?_,
      (fun h => by cases h), ?_, ?_, ?_, fun _ => ?_, ?_, (fun p hp => by cases hp), fun h => by
        cases h⟩
    all_goals
      revert k
      decide
  exact checkFillV1_eq_ok.mpr ⟨hrules, rfl, rfl⟩

set_option maxRecDepth 10000 in
theorem room_draft :
    ∃ o, draftOrder roomCrypto [] roomClock plainOrder.record ("federation:" ++ "peer")
    (.federated roomSigned "peer") (sampleRandom 'a' (by decide)) = .ok o := by
  have h : (match draftOrder roomCrypto [] roomClock plainOrder.record ("federation:" ++ "peer")
      (.federated roomSigned "peer") (sampleRandom 'a' (by decide)) with
    | .ok _ => true
    | .error _ => false) = true := by
    decide +kernel
  cases hr : draftOrder roomCrypto [] roomClock plainOrder.record ("federation:" ++ "peer")
    (.federated roomSigned "peer") (sampleRandom 'a' (by decide)) with
  | ok o => exact ⟨o, rfl⟩
  | error e => rw [hr] at h; cases h

def roomStored (k : Fin 16) : StoredFillIntentV1 :=
  ⟨digitNonce k, roomIntent, roomAuth k, roomClock, sha256Hex roomCrypto "federation", none⟩

/-- The row of the sample order while proposals arrive. -/
structure RoomRow (o : Order) (ks : List (Fin 16)) : Prop where
  portable : Portable roomCrypto roomClock roomSigned o
  isOpen : o.status = .open
  clean : o.equivocated = false
  updated : o.updatedAt = roomClock
  nofill : o.fill = none
  nocancel : o.cancel = none
  intents : o.intents = ks.map roomStored

section RoomRow

variable {o : Order} {ks : List (Fin 16)} {k : Fin 16} {kept : List StoredFillIntentV1} {s : Store}

theorem RoomRow.public (h : RoomRow o ks) : isPublicPortable o = true := by
  unfold isPublicPortable
  rw [h.portable.uses, h.portable.visibility]
  rfl

theorem RoomRow.variant (h : RoomRow o ks) :
    verifiedSignedOrder roomCrypto roomClock o = .ok roomSigned :=
  h.portable.verifiedSignedOrder_eq (h.portable.holdsPrelock h.nofill)

theorem RoomRow.swept (h : RoomRow o ks) : sweepAll roomClock [o] = [o] := by
  have hkept : sweepOrder roomClock o = some o := by
    refine sweepOrder_listed (.inl h.isOpen) h.updated ?_ ?_
    · intro j hj
      rw [h.intents] at hj
      obtain ⟨k, -, rfl⟩ := List.mem_map.mp hj
      clear hj
      revert k
      decide
    · intro a ha
      rw [h.portable.auth] at ha
      cases ha
      decide
  unfold sweepAll
  rw [List.filterMap_cons, hkept]
  rfl

theorem RoomRow.expired (h : RoomRow o ks) (hks : 9 ∉ ks) :
    liveIntentCount roomClock o.intents = 0 := by
  unfold liveIntentCount
  rw [h.intents, List.length_eq_zero_iff, List.filter_eq_nil_iff]
  intro j hj
  obtain ⟨k, hk, rfl⟩ := List.mem_map.mp hj
  have hne : k ≠ 9 := fun h => hks (h ▸ hk)
  clear hk hj
  revert k
  decide

theorem RoomRow.unknown (h : RoomRow o ks) (hk : k ∉ ks) :
    findIntent o (roomVerified k).intentDigest = none ∧
    ∀ j ∈ o.intents, j.auth.nonce ≠ (roomVerified k).auth.nonce := by
  rw [findIntent_eq_none, h.intents, digest_room]
  constructor
  · intro hmem
    obtain ⟨j, hj, hdigest⟩ := List.mem_map.mp hmem
    obtain ⟨k', hk', rfl⟩ := List.mem_map.mp hj
    exact hk (digitNonce_injective hdigest ▸ hk')
  · intro j hj hnonce
    obtain ⟨k', hk', rfl⟩ := List.mem_map.mp hj
    exact hk (digitNonce_injective hnonce ▸ hk')

theorem RoomRow.import (h : RoomRow o ks) (hs : s.orders = [o]) (hks : 9 ∉ ks) (hk : k ∉ ks)
    (hkept : makeRoom roomClock o.intents (roomVerified k) = .ok kept) :
    (after (applyFederationEvent roomCrypto roomClock (fillIntentEvent o (roomVerified k)) "peer"
        (sampleRandom 'a' (by decide))) s).orders =
      [addFillIntent roomClock kept (roomVerified k) (sha256Hex roomCrypto "federation") o] := by
  have hbelow : liveIntentCount roomClock o.intents < maxFillIntentsPerOrder := by
    rw [h.expired hks]
    decide
  obtain ⟨hnew, hnonce⟩ := h.unknown hk
  have himport := import_intent "peer" (sampleRandom 'a' (by decide)) (s := s) (o := o)
    (hs ▸ List.nodup_singleton _)
    (by rw [hs, h.swept]; exact List.mem_singleton_self o) h.public h.variant
    (room_intentProof k) hnew h.isOpen h.clean hnonce hbelow hkept
  rwa [hs, h.swept, List.map_singleton, if_pos rfl] at himport

theorem RoomRow.snoc {ls : List (Fin 16)} (h : RoomRow o ks) (hkept : kept = ls.map roomStored) :
    RoomRow (addFillIntent roomClock kept (roomVerified k) (sha256Hex roomCrypto "federation") o)
    (ls ++ [k]) where
  portable := { h.portable with retains := rfl }
  isOpen := h.isOpen
  clean := h.clean
  updated := rfl
  nofill := h.nofill
  nocancel := h.nocancel
  intents := by
    rw [List.map_append, ← hkept]
    change kept ++ [⟨(roomVerified k).intentDigest, _, _, _, _, _⟩] = kept ++ [roomStored k]
    rw [digest_room]
    rfl

theorem RoomRow.fill (h : RoomRow o ks) (hs : s.orders = [o]) (hk : k ≠ 9) :
    (after (applyFederationEvent roomCrypto roomClock
      (fillEvent o (roomVerifiedFill k) (roomVerified k)) "peer"
        (sampleRandom 'a' (by decide))) s).orders =
      [recordFill roomClock (roomVerifiedFill k)
        (selectedSource roomCrypto roomClock o (roomVerified k)) o] := by
  have hvariant :
    referencedSignedOrderVariant roomCrypto roomClock o (some (roomVerifiedFill k).fill.toJson) =
      .ok roomSigned := by
    rw [referenced_toJson, h.variant, ok_bind]
    exact if_pos digest_roomSigned
  have hfill :=
    import_fill "peer" (sampleRandom 'a' (by decide)) (s := s) (o := o)
      (hs ▸ List.nodup_singleton _)
    (by rw [hs, h.swept]; exact List.mem_singleton_self o) h.portable.visibility
      h.portable.uses hvariant
    (room_intentProof k) (room_fillProof hk) (.inl h.isOpen) h.nofill h.nocancel
  rwa [hs, h.swept, List.map_singleton, if_pos rfl] at hfill

theorem room_run (ks : List (Fin 16)) (hnodup : ks.Nodup) (hks : 9 ∉ ks)
    (hlen : ks.length ≤ maxFillIntentsPerOrder) :
    ∃ is s o, run (World.step roomCrypto) World.start is = ⟨s, roomClock⟩ ∧ s.orders = [o] ∧
    RoomRow o ks := by
  induction ks using List.reverseRecOn with
  | nil =>
    obtain ⟨o, hdraft⟩ := room_draft
    have hopen : plainOrder.Unrestricted := fun _ => ⟨rfl, rfl⟩
    have hrow := draftOrder_signed (v := roomSigned) rfl room_orderProof hopen hdraft
    obtain ⟨terms, listing, prelock, -, -, -, ho⟩ := draftOrder_new hdraft
    have himport := import_new (s := World.start.store) room_orderProof hopen rfl
      (by decide : federationSourceRe "peer" = true) (fun _ h => by cases h) hdraft
    refine ⟨[arrival roomClock (orderEvent roomSigned.order.record roomSigned.auth)], _, o, ?_,
      himport, ?_⟩
    · rw [run_cons, step_arrival (by decide), run_nil]
    · refine ⟨hrow.portable, ?_, ?_, ?_, ?_, ?_, ?_⟩ <;> rw [ho] <;> rfl
  | append_singleton ks k ih =>
    rw [List.nodup_append] at hnodup
    rw [List.mem_append, not_or] at hks
    rw [List.length_append, List.length_singleton] at hlen
    have hk : k ∉ ks := fun hmem => hnodup.2.2 k hmem k (List.mem_singleton_self k) rfl
    obtain ⟨is, s, o, hrun, hs, hrow⟩ := ih hnodup.1 hks.1 (by omega)
    have hkept : makeRoom roomClock o.intents (roomVerified k) = .ok o.intents := by
      unfold makeRoom
      rw [if_pos]
      rw [hrow.intents, List.length_map]
      omega
    refine ⟨is ++ [arrival roomClock (fillIntentEvent o (roomVerified k))], _, _, ?_,
      hrow.import hs hks.1 hk hkept,
      hrow.snoc hrow.intents⟩
    rw [run_append, hrun, run_cons, step_arrival (Nat.le_refl _), run_nil]

/-- Eight expired proposals. -/
def eight : List (Fin 16) := [0, 1, 2, 3, 4, 5, 6, 7]

theorem RoomRow.full (h : RoomRow o eight) (hs : s.orders = [o]) :
    importFillIntent roomCrypto roomClock o.id.val (some (roomVerified 8).intent.toJson)
        (some (roomVerified 8).auth.toJson) s =
      .error (transient 429 "this order already has too many retained fill intents")
      (s.swept roomClock) := by
  obtain ⟨hnew, hnonce⟩ := h.unknown (k := 8) (by decide)
  have hbelow : liveIntentCount roomClock o.intents < maxFillIntentsPerOrder := by
    rw [h.expired (by decide)]
    decide
  have hnone : makeRoom roomClock o.intents (roomVerified 8) =
      .error (transient 429 "this order already has too many retained fill intents") := by
    unfold makeRoom
    rw [h.intents]
    rfl
  rw [import_intent_run (hs ▸ List.nodup_singleton _)
    (by rw [hs, h.swept]; exact List.mem_singleton_self o) h.public
    h.variant (room_intentProof 8) hnew h.isOpen h.clean,
      storeFillIntent_federated hnonce hbelow, hnone]

theorem roomStored_injective : Function.Injective roomStored :=
  fun _ _ h => digitNonce_injective (congrArg StoredFillIntentV1.intentDigest h)

theorem RoomRow.displaced (h : RoomRow o eight)
    (hkept : makeRoom roomClock o.intents (roomVerified 9) = .ok kept) :
    ∃ k ∈ eight, kept = (eight.erase k).map roomStored := by
  have hlen : o.intents.length = maxFillIntentsPerOrder := by
    rw [h.intents]
    rfl
  rcases makeRoom_displaces hkept with rfl | ⟨-, evicted, hmem, -, rfl, -⟩
  · have hlt := (makeRoom_eq_ok hkept hlen.le).2
    omega
  · rw [h.intents] at hmem ⊢
    obtain ⟨k, hk, rfl⟩ := List.mem_map.mp hmem
    exact ⟨k, hk, (List.map_erase roomStored_injective eight).symm⟩

theorem RoomRow.refilled (h : RoomRow o eight) (hs : s.orders = [o]) : ∃ i j :
    Step, ∃ k ∈ o.intents,
    (∃ o' ∈ (World.step roomCrypto ⟨s, roomClock⟩ i).store.orders, o'.id = o.id ∧
      k.intentDigest ∉ o'.intents.map StoredFillIntentV1.intentDigest) ∧
    ∃ o' ∈ (World.step roomCrypto (World.step roomCrypto ⟨s, roomClock⟩ i) j).store.orders,
      o'.id = o.id ∧
      ∃ f ∈ o'.fill, f.fill.intentDigest = k.intentDigest := by
  have hbelow : liveIntentCount roomClock o.intents < maxFillIntentsPerOrder := by
    rw [h.expired (by decide)]
    decide
  obtain ⟨kept, hkept⟩ : ∃ kept, makeRoom roomClock o.intents (roomVerified 9) = .ok kept :=
    makeRoom_live (by decide) hbelow
  have himport := h.import hs (by decide) (k := 9) (by decide) hkept
  -- The ninth proposal displaces one that has expired, and a peer's fill then selects that one.
  obtain ⟨k, hk, hdisplaced⟩ := h.displaced hkept
  have hne : k ≠ 9 := by
    rintro rfl
    revert hk
    decide
  have hrow := h.snoc (k := 9) hdisplaced
  have hfill := hrow.fill himport hne
  generalize ho₁ : addFillIntent roomClock kept _ _ o = o₁ at himport hrow hfill
  refine ⟨arrival roomClock (fillIntentEvent o (roomVerified 9)),
    arrival roomClock (fillEvent o₁ (roomVerifiedFill k) (roomVerified k)), roomStored k,
      ?_, ?_, ?_⟩
  · rw [h.intents]
    exact List.mem_map_of_mem hk
  · rw [step_arrival (Nat.le_refl _)]
    dsimp only
    rw [himport]
    refine ⟨o₁, List.mem_singleton_self _, by rw [← ho₁]; rfl, ?_⟩
    rw [hrow.intents, List.map_map, List.mem_map]
    rintro ⟨k', hk', hdigest⟩
    obtain rfl := digitNonce_injective hdigest
    rw [List.mem_append, List.mem_singleton] at hk'
    rcases hk' with hk' | rfl
    · exact List.Nodup.not_mem_erase (by decide) hk'
    · exact hne rfl
  · rw [step_arrival (Nat.le_refl _), step_arrival (Nat.le_refl _)]
    dsimp only
    rw [hfill]
    refine ⟨_, List.mem_singleton_self _, by rw [← ho₁]; rfl, _, rfl, rfl⟩

end RoomRow

/-- A verified proposal of a peer finds no room while none is live, for it has expired itself; and a
proposal that made room is filled afterwards. -/
theorem room_is_for_live :
    ∃ is, ∃ o ∈ (run (World.step roomCrypto) World.start is).store.orders,
      (∃ verified s', IntentProof roomCrypto roomClock roomSigned verified ∧
        (∀ j ∈ o.intents, j.auth.nonce ≠ verified.auth.nonce) ∧
        liveIntentCount roomClock o.intents = 0 ∧
        importFillIntent roomCrypto roomClock o.id.val (some verified.intent.toJson)
        (some verified.auth.toJson)
            (run (World.step roomCrypto) World.start is).store =
          .error (transient 429 "this order already has too many retained fill intents") s') ∧
      ∃ i j : Step, ∃ k ∈ o.intents,
        (∃ o' ∈ (run (World.step roomCrypto) World.start (is ++ [i])).store.orders, o'.id = o.id ∧
          k.intentDigest ∉ o'.intents.map StoredFillIntentV1.intentDigest) ∧
        ∃ o' ∈ (run (World.step roomCrypto) World.start (is ++ [i, j])).store.orders, o'.id = o.id ∧
          ∃ f ∈ o'.fill, f.fill.intentDigest = k.intentDigest := by
  obtain ⟨is, s, o, hrun, hs, hrow⟩ := room_run eight (by decide) (by decide) (by decide)
  have hstore : (run (World.step roomCrypto) World.start is).store = s := by rw [hrun]
  refine ⟨is, o, by rw [hstore, hs]; exact List.mem_singleton_self o,
    ⟨roomVerified 8, s.swept roomClock,
    room_intentProof 8, (hrow.unknown (by decide)).2, hrow.expired (by decide), ?_⟩, ?_⟩
  · rw [hstore]
    exact hrow.full hs
  · obtain ⟨i, j, k, hk, hgone, hfilled⟩ := hrow.refilled hs
    refine ⟨i, j, k, hk, ?_, ?_⟩
    · rw [run_append, hrun, run_cons, run_nil]
      exact hgone
    · rw [run_append, hrun, run_cons, run_cons, run_nil]
      exact hfilled

end Sample

end QuantaSwap.Book
