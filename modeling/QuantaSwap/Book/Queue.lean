import QuantaSwap.Book.Retention

/-!
# Proposals in the order of their arrival

A row keeps its proposals in the order in which the book admitted them, each with the second of its
admission. What the maker is shown of them is sorted by priority.
-/

set_option autoImplicit false

namespace QuantaSwap.Book

open Lib.Js Lib.Text Lib.Checks Lib.Run

/-- The proposals of the row stand in the order of their admission, and none is of the future. -/
structure Queued (now : SafeInt) (o : Order) : Prop where
  ordered : o.intents.Pairwise fun i j => i.receivedAt.val ≤ j.receivedAt.val
  past : ∀ j ∈ o.intents, j.receivedAt.val ≤ now.val

section Queued

variable {E : Crypto} {now now' : SafeInt} {i : Step} {o o' : Order}

theorem Queued.later (h : Queued now o) (hnow : now.val ≤ now'.val) : Queued now' o where
  ordered := h.ordered
  past j hj := (h.past j hj).trans hnow

theorem Queued.of_nil (h : o.intents = []) : Queued now o where
  ordered := by rw [h]; exact .nil
  past j hj := by rw [h] at hj; cases hj

theorem Queued.of_sublist (h : Queued now o) (hsub : o'.intents.Sublist o.intents) :
    Queued now o' where
  ordered := h.ordered.sublist hsub
  past j hj := h.past j (hsub.mem hj)

theorem Queued.sweep (h : Queued now o) (hsweep : sweepOrder now o = some o') : Queued now o' := by
  have hsub : (dropStaleIntents now o).intents.Sublist o.intents := by
    rw [dropStaleIntents_intents]
    exact List.filter_sublist
  rcases sweepOrder_cases hsweep with ⟨rfl, -⟩ | rfl
  · exact h.of_sublist hsub
  · exact h.of_sublist hsub

theorem Queued.fillIntent (h : Queued now o) {kept : List StoredFillIntentV1}
    {verified : VerifiedFillIntentV1}
    {ipHash : TokenHash} (hsub : kept.Sublist o.intents) :
    Queued now (addFillIntent now kept verified ipHash o) where
  ordered := by
    refine List.pairwise_append.mpr ⟨h.ordered.sublist hsub, List.pairwise_singleton _ _, ?_⟩
    intro j hj k hk
    rw [List.mem_singleton.mp hk]
    exact h.past j (hsub.mem hj)
  past := by
    intro j hj
    rcases List.mem_append.mp hj with hj | hj
    · exact h.past j (hsub.mem hj)
    · rw [List.mem_singleton.mp hj]

theorem withRelease_receivedAt (digest : Bytes32) (r : IntentRelease) (j : StoredFillIntentV1) :
    (withRelease digest r j).receivedAt = j.receivedAt := by
  unfold withRelease
  split <;> rfl

theorem Queued.releaseIntent (h : Queued now o) (digest secret : Bytes32) :
    Queued now (releaseIntent now digest secret o) := by
  have hintents := @releaseIntent_intents now o digest secret
  constructor
  · rw [hintents, List.pairwise_map]
    simp only [withRelease_receivedAt]
    exact h.ordered
  · intro j hj
    rw [hintents] at hj
    obtain ⟨k, hk, rfl⟩ := List.mem_map.mp hj
    rw [withRelease_receivedAt]
    exact h.past k hk

theorem Queued.change (h : Queued i.now o) (hrow : Row E i.now o) (hchange : Change E i o o') :
    Queued i.now o' := by
  have hle : o.intents.length ≤ maxFillIntentsPerOrder := hrow.retainsFew.few
  cases hchange with
  | orderConflict => exact { h with }
  | portable _ hchange =>
    cases hchange with
    | fillIntent variant verified kept ipHash hvariant hproof hnew hopen hclean hnonce hkept =>
      exact h.fillIntent (makeRoom_eq_ok hkept hle).1
    | terminalConflict => exact { h with }
    | fill => exact { h with }
    | cancel => exact { h with }
    | releaseFill => exact { h with }
    | releaseIntent digest secret intentDigest => exact h.releaseIntent intentDigest secret
  | legacy _ hchange => cases hchange <;> exact { h with }

theorem intents_of_draft {l : List Order} {body : Record} {makerIp : String} {origin : Origin}
    {random : Random}
    (h : draftOrder E l now body makerIp origin random = .ok o) : o.intents = [] := by
  obtain ⟨terms, listing, prelock, -, -, -, ho⟩ := draftOrder_new h
  rw [ho]
  unfold newOrder Order.intents
  cases origin.verified <;> rfl

end Queued

/-- Every row of every run keeps its queue. -/
theorem run_queued (E : Crypto) (is : List Step) :
    ∀ o ∈ (run (World.step E) World.start is).store.orders,
      Queued (run (World.step E) World.start is).clock o := by
  have hall : ∀ o ∈ (run (World.step E) World.start is).store.orders,
      Row E (run (World.step E) World.start is).clock o ∧
        Queued (run (World.step E) World.start is).clock o := by
    refine (invariant (I := fun w : World => (w.store.orders.map Order.id).Nodup ∧
      ∀ o ∈ w.store.orders, Row E w.clock o ∧ Queued w.clock o) (s := World.start) ?_
        ⟨List.nodup_nil, fun o ho => absurd ho List.not_mem_nil⟩ is).2
    rintro w i ⟨hids, hrows⟩
    have heffects := w.step_effects E i
    refine ⟨heffects.ids hids, ?_⟩
    exact heffects.forall_mem (P := fun o => Row E (w.timed i).now o ∧
      Queued (w.timed i).now o) hids
      (fun o o' h hsweep => ⟨h.1.sweep hsweep, h.2.sweep hsweep⟩) (fun o h => h)
      (fun l body makerIp origin o hasked hdraft => ⟨row_of_draft hasked hdraft,
        .of_nil (intents_of_draft hdraft)⟩)
      (fun o o' h hchange => ⟨h.1.change hchange, h.2.change h.1 hchange⟩)
      (fun o ho => ⟨(hrows o ho).1.later (w.clock_le_timed i),
        (hrows o ho).2.later (w.clock_le_timed i)⟩)
  exact fun o ho => (hall o ho).2

/-! ## What the maker is shown -/

section Shown

variable {E : Crypto} {now : SafeInt} {s s' : Store}

/-- `listFillIntents` shows the proposal. -/
def isShown (now : SafeInt) (o : Order) (j : StoredFillIntentV1) : Bool :=
  decide (o.status = .open) && !o.equivocated && j.release.isNone && decide (j.auth.issuedAt.val ≤
    now.val) &&
    isLiveIntent now j

theorem listFillIntents_eq_ok {id : String} {makerToken : Option Json}
    {answer : List PublicFillIntentV1}
    (h : listFillIntents E now id makerToken s = .ok answer s') :
    ∃ o ∈ sweepAll now s.orders, o.id.val = id ∧
      answer = ((o.intents.filter (isShown now o)).map StoredFillIntentV1.publicIntent).mergeSort
        intentBefore := by
  simp only [listFillIntents, run_bind_ok, check_run_ok, get_run] at h
  obtain ⟨_, _, hsweep, _, _, ⟨rfl, rfl⟩, o, _, ⟨hfind, rfl⟩, _, _, ⟨-, rfl⟩, _, _, ⟨-, rfl⟩, h⟩ :=
    h
  obtain ⟨-, rfl⟩ := EStateM.Result.ok.inj hsweep
  obtain ⟨hmem, hid⟩ := Store.order?_eq_some (orThrow_eq_ok.mp hfind)
  refine ⟨o, hmem, hid, ?_⟩
  split at h
  · rename_i hclosed
    rw [pure_run, EStateM.Result.ok.injEq] at h
    have hnone : o.intents.filter (isShown now o) = [] := by
      rw [List.filter_eq_nil_iff]
      intro j _
      unfold isShown
      rcases hclosed with hstatus | hequivocated
      · simp [hstatus]
      · simp [hequivocated]
    rw [hnone, ← h.1, List.map_nil, List.mergeSort_nil]
  · rename_i hopen
    rw [pure_run, EStateM.Result.ok.injEq] at h
    obtain ⟨hstatus, hclean⟩ := not_or.mp hopen
    rw [not_not] at hstatus
    rw [Bool.not_eq_true] at hclean
    have hshown : isShown now o = fun i =>
        i.release.isNone && decide (i.auth.issuedAt.val ≤ now.val) && isLiveIntent now i := by
      funext j
      unfold isShown
      rw [hstatus, hclean]
      simp
    rw [hshown, ← h.1]

theorem listFillIntents_public {o : Order} (hids : (s.orders.map Order.id).Nodup)
    (ho : o ∈ sweepAll now s.orders)
    (huses : usesPortableTerminalProtocol o = true) (hpublic : o.visibility = .pub) :
    ∃ answer, listFillIntents E now o.id.val none s = .ok answer (s.swept now) := by
  have hfind : (s.swept now).order? o.id.val = some o :=
    order?_of_mem (s := s.swept now) ((sweepAll_ids now s.orders).nodup hids) ho
  unfold listFillIntents
  rw [sweep_bind_run, get_bind_run, hfind, orThrow, bind_run, check_ok]
  dsimp only
  rw [bind_run, huses, refuse, if_neg (by decide), check_ok]
  dsimp only
  rw [bind_run, hpublic, if_neg (by decide), check_ok]
  dsimp only
  split
  · exact ⟨_, rfl⟩
  · exact ⟨_, rfl⟩

theorem intentBefore_iff {a b : PublicFillIntentV1} :
    intentBefore a b = true ↔ intentPriority a < intentPriority b ∨
    (intentPriority a = intentPriority b ∧ (a.auth.issuedAt.val < b.auth.issuedAt.val ∨
      (a.auth.issuedAt.val = b.auth.issuedAt.val ∧
        a.intentDigest.val.toList ≤ b.intentDigest.val.toList))) := by
  simp only [intentBefore, decide_eq_true_eq]

theorem isShown_iff {o : Order} {j : StoredFillIntentV1} : isShown now o j = true ↔
    (o.status = .open ∧ o.equivocated = false) ∧ j.release = none ∧ j.auth.issuedAt.val ≤ now.val ∧
      now.val < j.auth.expiresAt.val := by
  unfold isShown isLiveIntent
  simp only [Bool.and_eq_true, decide_eq_true_eq, Bool.not_eq_true', Option.isNone_iff_eq_none,
    and_assoc]

end Shown

/-! ## Two proposals of one second -/

section Sample

theorem tie_orderProof : OrderProof roomCrypto sampleClock roomSigned := by
  have hrules : OrderRules sampleClock true plainOrder plainAuth :=
    ⟨by decide, by decide, by decide, (fun h => by cases h), (fun p hp => by cases hp),
      by decide +kernel,
      iff_of_true rfl rfl⟩
  exact checkOrderV1_eq_ok.mpr ⟨hrules, rfl, rfl⟩

theorem tie_intentProof {k : Fin 16} (hk : k ≠ 9) :
    IntentProof roomCrypto sampleClock roomSigned (roomVerified k) := by
  have hrules : IntentRules sampleClock true roomIntent (roomAuth k) roomSigned := by
    refine ⟨digest_roomSigned.symm, (fun h => by cases h), ?_, ?_, ?_, ?_, ?_,
      (fun h => by cases h),
      (fun _ h => by cases h), (fun _ h => by cases h)⟩
    all_goals
      revert k
      decide
  exact checkFillIntentV1_eq_ok.mpr ⟨hrules, rfl, rfl⟩

set_option maxRecDepth 10000 in
theorem tie_draft :
    ∃ o, draftOrder roomCrypto [] sampleClock plainOrder.record ("federation:" ++ "peer")
    (.federated roomSigned "peer") (sampleRandom 'a' (by decide)) = .ok o := by
  have h : (match draftOrder roomCrypto [] sampleClock plainOrder.record ("federation:" ++ "peer")
      (.federated roomSigned "peer") (sampleRandom 'a' (by decide)) with
    | .ok _ => true
    | .error _ => false) = true := by
    decide +kernel
  cases hr : draftOrder roomCrypto [] sampleClock plainOrder.record ("federation:" ++ "peer")
    (.federated roomSigned "peer") (sampleRandom 'a' (by decide)) with
  | ok o => exact ⟨o, rfl⟩
  | error e => rw [hr] at h; cases h

/-- A proposal that a peer sends at the sample clock. -/
def tieStored (k : Fin 16) : StoredFillIntentV1 :=
  ⟨digitNonce k, roomIntent, roomAuth k, sampleClock, sha256Hex roomCrypto "federation", none⟩

/-- The row of the sample order with these proposals, all of one second. -/
structure TieRow (o : Order) (ks : List (Fin 16)) : Prop where
  portable : Portable roomCrypto sampleClock roomSigned o
  isOpen : o.status = .open
  clean : o.equivocated = false
  updated : o.updatedAt = sampleClock
  nofill : o.fill = none
  intents : o.intents = ks.map tieStored

section TieRow

variable {o : Order} {ks : List (Fin 16)} {k : Fin 16} {s : Store}

theorem TieRow.swept (h : TieRow o ks) : sweepAll sampleClock [o] = [o] := by
  have hkept : sweepOrder sampleClock o = some o := by
    refine sweepOrder_listed (.inl h.isOpen) h.updated ?_ ?_
    · intro j hj
      rw [h.intents] at hj
      obtain ⟨k, -, rfl⟩ := List.mem_map.mp hj
      clear hj
      revert k
      decide
    · intro a ha
      rw [h.portable.auth] at ha
      cases ha
      decide
  unfold sweepAll
  rw [List.filterMap_cons, hkept]
  rfl

theorem TieRow.import (h : TieRow o ks) (hs : s.orders = [o])
    (hks : ks.length < maxFillIntentsPerOrder) (hk : k ∉ ks) (hlive : k ≠ 9) : ∃ o', TieRow o' (ks ++ [k]) ∧ o'.id = o.id ∧
      (after (applyFederationEvent roomCrypto sampleClock
        (fillIntentEvent o (roomVerified k)) "peer"
        (sampleRandom 'a' (by decide))) s).orders = [o'] := by
  have hpublic : isPublicPortable o = true := by
    unfold isPublicPortable
    rw [h.portable.uses, h.portable.visibility]
    rfl
  have hvariant : verifiedSignedOrder roomCrypto sampleClock o = .ok roomSigned :=
    h.portable.verifiedSignedOrder_eq (h.portable.holdsPrelock h.nofill)
  have hlength : o.intents.length < maxFillIntentsPerOrder := by
    rw [h.intents, List.length_map]
    exact hks
  have hbelow : liveIntentCount sampleClock o.intents < maxFillIntentsPerOrder :=
    (List.length_filter_le _ _).trans_lt hlength
  have hnew : findIntent o (roomVerified k).intentDigest = none := by
    rw [findIntent_eq_none, h.intents, digest_room]
    intro hmem
    obtain ⟨j, hj, hdigest⟩ := List.mem_map.mp hmem
    obtain ⟨k', hk', rfl⟩ := List.mem_map.mp hj
    exact hk (digitNonce_injective hdigest ▸ hk')
  have hnonce : ∀ j ∈ o.intents, j.auth.nonce ≠ (roomVerified k).auth.nonce := by
    intro j hj heq
    rw [h.intents] at hj
    obtain ⟨k', hk', rfl⟩ := List.mem_map.mp hj
    exact hk (digitNonce_injective heq ▸ hk')
  -- Below the limit nothing makes room.
  have hkept : makeRoom sampleClock o.intents (roomVerified k) = .ok o.intents := if_pos hlength
  have himport := import_intent "peer" (sampleRandom 'a' (by decide)) (s := s) (o := o)
    (hs ▸ List.nodup_singleton _) (by rw [hs, h.swept]; exact List.mem_singleton_self o) hpublic
    hvariant (tie_intentProof hlive) hnew h.isOpen h.clean hnonce hbelow hkept
  rw [hs, h.swept, List.map_singleton, if_pos rfl] at himport
  refine ⟨addFillIntent sampleClock o.intents (roomVerified k)
    (sha256Hex roomCrypto "federation") o,
    ⟨{ h.portable with retains := rfl }, h.isOpen, h.clean, rfl, h.nofill, ?_⟩, rfl, himport⟩
  rw [List.map_append, ← h.intents]
  change o.intents ++ [⟨(roomVerified k).intentDigest, _, _, _, _, _⟩] = o.intents ++ [tieStored k]
  rw [digest_room]
  rfl

theorem tie_run : ∃ is s o, run (World.step roomCrypto) World.start is = ⟨s, sampleClock⟩ ∧
    s.orders = [o] ∧
    TieRow o [1, 0] := by
  obtain ⟨o, hdraft⟩ := tie_draft
  have hopen : plainOrder.Unrestricted := fun _ => ⟨rfl, rfl⟩
  have hsigned := draftOrder_signed (v := roomSigned) rfl tie_orderProof hopen hdraft
  obtain ⟨terms, listing, prelock, -, -, -, ho⟩ := draftOrder_new hdraft
  have himport := import_new (s := World.start.store) tie_orderProof hopen rfl
    (by decide : federationSourceRe "peer" = true) (fun _ h => by cases h) hdraft
  have hrow : TieRow o [] := by
    refine ⟨hsigned.portable, ?_, ?_, ?_, ?_, ?_⟩ <;> rw [ho] <;> rfl
  obtain ⟨o₁, hrow₁, hid₁, himport₁⟩ :=
    hrow.import himport (k := 1) (by decide) List.not_mem_nil (by decide)
  obtain ⟨o₂, hrow₂, hid₂, himport₂⟩ :=
    hrow₁.import himport₁ (k := 0) (by decide) (by decide) (by decide)
  refine ⟨[arrival sampleClock (orderEvent roomSigned.order.record roomSigned.auth),
    arrival sampleClock (fillIntentEvent o (roomVerified 1)),
      arrival sampleClock (fillIntentEvent o₁ (roomVerified 0))],
    _, o₂, ?_, himport₂, hrow₂⟩
  rw [run_cons, step_arrival (by decide), run_cons, step_arrival (Nat.le_refl _), run_cons,
    step_arrival (Nat.le_refl _),
    run_nil]

end TieRow

end Sample

end QuantaSwap.Book
