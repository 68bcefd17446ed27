import QuantaSwap.Book.Retained

/-!
# A settled order stays settled

What was recorded for a signed order is never replaced, and the order never comes
back to the book, as long as its row outlives the signed order.
-/

set_option autoImplicit false

namespace QuantaSwap.Book

open Lib.Js Lib.Text Lib.Checks Lib.Run

/-- A terminal proof is recorded, or the maker signed two things that exclude each other. -/
def Settled (o : Order) : Prop :=
  o.fill.isSome = true ∨ o.cancel.isSome = true ∨ o.equivocated = true

/-- `o'` still says what the settled row `o` says. -/
structure Continues (o o' : Order) : Prop where
  terminal : o.fill.isSome = true ∨ o.cancel.isSome = true → o'.fill = o.fill ∧ o'.cancel = o.cancel
  equivocated : o.equivocated = true → o'.equivocated = true
  proposals : ∀ j ∈ o'.intents, j.intentDigest ∈ o.intents.map StoredFillIntentV1.intentDigest

section Continues

variable {E : Crypto} {now : SafeInt} {v : VerifiedOrderV1} {i : Step} {o o' o'' : Order}

theorem Continues.refl (o : Order) : Continues o o :=
  ⟨fun _ => ⟨rfl, rfl⟩, id, fun _ hj => List.mem_map_of_mem hj⟩

theorem Continues.trans (h : Continues o o') (h' : Continues o' o'') : Continues o o'' where
  terminal := by
    intro hsettled
    obtain ⟨hfill, hcancel⟩ := h.terminal hsettled
    rw [← hfill, ← hcancel] at hsettled ⊢
    exact h'.terminal hsettled
  equivocated := h'.equivocated ∘ h.equivocated
  proposals := by
    intro j hj
    obtain ⟨k, hk, hdigest⟩ := List.mem_map.mp (h'.proposals j hj)
    rw [← hdigest]
    exact h.proposals k hk

theorem Continues.settled (h : Continues o o') (hsettled : Settled o) : Settled o' := by
  rcases hsettled with hfill | hcancel | hequivocated
  · exact .inl ((h.terminal (.inl hfill)).1 ▸ hfill)
  · exact .inr (.inl ((h.terminal (.inr hcancel)).2 ▸ hcancel))
  · exact .inr (.inr (h.equivocated hequivocated))

theorem continues_sweep (hsweep : sweepOrder now o = some o') : Continues o o' := by
  have hsub : ∀ j ∈ (dropStaleIntents now o).intents,
      j.intentDigest ∈ o.intents.map StoredFillIntentV1.intentDigest := by
    intro j hj
    rw [dropStaleIntents_intents] at hj
    exact List.mem_map_of_mem (List.mem_filter.mp hj).1
  rcases sweepOrder_cases hsweep with ⟨rfl, -⟩ | rfl
  · exact ⟨fun _ => ⟨rfl, rfl⟩, id, hsub⟩
  · exact ⟨fun _ => ⟨rfl, rfl⟩, id, hsub⟩

theorem SignedRow.not_open (h : SignedRow E now v o) (hsettled : Settled o) : o.status ≠ .open := by
  rcases hsettled with hfill | hcancel | hequivocated
  · simp [h.outcome.locking.mpr hfill]
  · simp [h.outcome.cancelled hcancel]
  · exact h.outcome.equivocated hequivocated

theorem continues_change (h : SignedRow E i.now v o) (hsettled : Settled o)
    (hchange : Change E i o o') :
    Continues o o' := by
  have hsame : ∀ j ∈ o.intents, j.intentDigest ∈ o.intents.map StoredFillIntentV1.intentDigest :=
    fun _ hj => List.mem_map_of_mem hj
  cases hchange with
  | orderConflict verified => exact ⟨fun _ => ⟨rfl, rfl⟩, fun _ => rfl, hsame⟩
  | portable hportable hchange =>
    cases hchange with
    | fillIntent variant verified kept ipHash hvariant hproof hnew hopen hclean hnonce hkept =>
      exfalso
      rcases hsettled with hfill | hcancel | hequivocated
      · have hlocking := h.outcome.locking.mpr hfill
        rcases hopen with hopen | ⟨hopen, -⟩ <;> simp [hopen] at hlocking
      · rcases hopen with hopen | ⟨-, hnocancel⟩
        · simp [h.outcome.cancelled hcancel] at hopen
        · simp [hnocancel] at hcancel
      · simp [hclean] at hequivocated
    | terminalConflict evidence => exact ⟨fun _ => ⟨rfl, rfl⟩, fun _ => rfl, hsame⟩
    | fill raw variant intent fill hvariant hintent hfill hcall hopen hnofill hnocancel =>
      exact ⟨by simp [hnofill, hnocancel], id, hsame⟩
    | cancel raw variant cancel hvariant hcancel hcall hnofill hnocancel =>
      exact ⟨by simp [hnofill, hnocancel], id, hsame⟩
    | releaseFill digest secret f => exact ⟨fun _ => ⟨rfl, rfl⟩, id, hsame⟩
    | releaseIntent digest secret intentDigest intent =>
      refine ⟨fun _ => ⟨rfl, rfl⟩, id, ?_⟩
      intro j hj
      rw [releaseIntent_intents, List.mem_map] at hj
      obtain ⟨k, hk, rfl⟩ := hj
      have hdigest : (withRelease intentDigest ⟨i.now, secret⟩ k).intentDigest = k.intentDigest :=
        congrArg PublicFillIntentV1.intentDigest
          (withRelease_publicIntent intentDigest ⟨i.now, secret⟩ k)
      rw [hdigest]
      exact List.mem_map_of_mem hk
  | legacy hlegacy => exact absurd hlegacy (by simp [h.portable.uses])

end Continues

/-! ## Rows that outlive their order -/

/-- The row of a fill is kept until its signed order has expired. -/
def Outlives (o : Order) (fill : FillV1Body) : Prop :=
  ∀ a ∈ o.makerAuth, (a : MakerOrderAuthV1).expiresAt.val ≤
    fill.initiatorTimeout.val + lockingLingerS

/-- A fill that the call presents locks long enough for the row to outlive its order. -/
def LongFill (l : List Order) (c : Call) : Prop :=
  ∀ id fill, c.fill? = some (id, fill) → ∀ o ∈ l, o.id.val = id → Outlives o fill

/-- A peer's signed order is not expired, or its row outlives the sweep. -/
def TimelyOrder (E : Crypto) (now : SafeInt) (l : List Order) (c : Call) : Prop :=
  ∀ payload source v, c = .applyFederationEvent ⟨.orderV2, payload⟩ source →
    verifyOrderV1 E now true (payload.get "order") (payload.get "auth") = .ok v →
    now.val < v.auth.expiresAt.val ∨ ∃ o ∈ sweepAll now l, o.id = signedOrderId v.orderId

/-- What the run below asks of each call. -/
def KeepsTombstones (E : Crypto) (w : World) (i : Step) : Prop :=
  LongFill w.store.orders i.call ∧ TimelyOrder E (w.timed i).now w.store.orders i.call

/-- A row with its invariant, and its fill locked for long enough. -/
def Lasting (E : Crypto) (now : SafeInt) (o : Order) : Prop :=
  Row E now o ∧ ∀ f ∈ o.fill, Outlives o f.fill

/-- What the settled row `o` of the signed order `v` says is still true of the book. -/
structure Sealed (v : VerifiedOrderV1) (o : Order) (now : SafeInt) (l : List Order) : Prop where
  continues : ∀ o' ∈ l, o'.orderDigest = some v.orderDigest → Continues o o'
  present : (∃ o' ∈ l, o'.orderDigest = some v.orderDigest) ∨ v.auth.expiresAt.val ≤ now.val

section Sealed

variable {E : Crypto} {now now' : SafeInt} {v : VerifiedOrderV1} {i : Step} {l l' : List Order}
  {o o' : Order}

theorem Row.signed (h : Row E now o) (hdigest : o.orderDigest = some v.orderDigest) :
    ∃ w, SignedRow E now w o ∧ w.orderDigest = v.orderDigest := by
  rcases h.kind with hlegacy | ⟨w, hsigned⟩
  · rw [hlegacy.digest] at hdigest
    cases hdigest
  · rw [hsigned.portable.digest] at hdigest
    exact ⟨w, hsigned, Option.some.inj hdigest⟩

theorem Lasting.sweep (h : Lasting E now o) (hsweep : sweepOrder now o = some o') :
    Lasting E now o' := by
  refine ⟨h.1.sweep hsweep, ?_⟩
  rcases sweepOrder_cases hsweep with ⟨rfl, -⟩ | rfl
  · exact h.2
  · exact h.2

theorem Lasting.change (h : Lasting E i.now o)
    (hlong : ∀ fill, i.call.fill? = some (o.id.val, fill) → Outlives o fill)
    (hchange : Change E i o o') : Lasting E i.now o' := by
  refine ⟨h.1.change hchange, ?_⟩
  cases hchange with
  | orderConflict verified => exact h.2
  | portable hportable hchange =>
    cases hchange with
    | fill raw variant intent fill hvariant hintent hfill hcall =>
      intro f hf
      cases hf
      exact hlong _ hcall
    | _ => exact h.2
  | legacy hlegacy hchange => cases hchange <;> exact h.2

theorem expired_of_swept (hcol : CollisionFree E) (hproof : OrderProof E now' v)
    (h : Lasting E now o)
    (hdigest : o.orderDigest = some v.orderDigest) (hsettled : Settled o)
    (hsweep : sweepOrder now o = none) :
    v.auth.expiresAt.val ≤ now.val := by
  obtain ⟨w, hsigned, hsame⟩ := h.1.signed hdigest
  obtain ⟨-, hexpires⟩ := hsigned.portable.proof.eq_of_digest hcol hproof hsame
  rw [← hexpires]
  have hremovable : removable now (dropStaleIntents now o) = true := by
    unfold sweepOrder at hsweep
    dsimp only at hsweep
    split at hsweep
    · cases hsweep
    · split at hsweep
      · assumption
      · cases hsweep
  have hstatus : (dropStaleIntents now o).status = o.status := rfl
  have hauth : (dropStaleIntents now o).makerAuth = some w.auth := hsigned.portable.auth
  unfold removable at hremovable
  dsimp only at hremovable
  rw [hstatus, hauth] at hremovable
  cases hs : o.status with
  | «open» => exact absurd hs (hsigned.not_open hsettled)
  | accepted => exact absurd hs hsigned.outcome.accepted
  | cancelled =>
    rw [hs] at hremovable
    simp only [decide_eq_true_eq] at hremovable
    omega
  | locking =>
    rw [hs] at hremovable
    obtain ⟨f, hf⟩ := Option.isSome_iff_exists.mp (hsigned.outcome.locking.mp hs)
    obtain ⟨-, htimeout, -⟩ := hsigned.outcome.projection f hf
    have hout := h.2 f hf w.auth hsigned.portable.auth
    rw [show (dropStaleIntents now o).initiatorTimeout = o.initiatorTimeout from rfl, htimeout]
      at hremovable
    simp only [decide_eq_true_eq] at hremovable
    omega

theorem Sealed.sweep (hcol : CollisionFree E) (hproof : OrderProof E now' v) (hsettled : Settled o)
    (hrows : ∀ o' ∈ l, Lasting E now o') (h : Sealed v o now l) :
    Sealed v o now (sweepAll now l) := by
  constructor
  · intro o'' ho'' hdigest
    obtain ⟨o', ho', hsweep⟩ := mem_sweepAll.mp ho''
    have hsame : o''.orderDigest = o'.orderDigest := by
      rcases sweepOrder_cases hsweep with ⟨rfl, -⟩ | rfl <;> rfl
    exact (h.continues o' ho' (hsame ▸ hdigest)).trans (continues_sweep hsweep)
  · rcases h.present with ⟨o', ho', hdigest⟩ | hexpired
    · cases hsweep : sweepOrder now o' with
      | none =>
        have hsettled' := (h.continues o' ho' hdigest).settled hsettled
        exact .inr (expired_of_swept hcol hproof (hrows o' ho') hdigest hsettled' hsweep)
      | some o'' =>
        have hsame : o''.orderDigest = o'.orderDigest := by
          rcases sweepOrder_cases hsweep with ⟨rfl, -⟩ | rfl <;> rfl
        exact .inl ⟨o'', mem_sweepAll.mpr ⟨o', ho', hsweep⟩, hsame.trans hdigest⟩
    · exact .inr hexpired

theorem verifyOrderV1_unexpired {rawOrder rawAuth : Option Json}
    (h : verifyOrderV1 E now false rawOrder rawAuth = .ok v) : now.val < v.auth.expiresAt.val := by
  simp only [verifyOrderV1, bind_eq_ok] at h
  obtain ⟨body, -, auth, -, h⟩ := h
  obtain ⟨-, -, hauth⟩ := checkOrderV1_proof h (Nat.le_refl _)
  simp only [checkOrderV1, bind_eq_ok, refuse_eq_ok, exists_const] at h
  obtain ⟨-, -, -, hfresh, -⟩ := h
  rw [hauth]
  simp only [true_and, minRemainingLifetimeS] at hfresh
  omega

theorem dropStaleIntents_idem (now : SafeInt) (o : Order) :
    dropStaleIntents now (dropStaleIntents now o) = dropStaleIntents now o := by
  unfold dropStaleIntents
  cases o.fillIntents with
  | none => rfl
  | some l => simp [retainedIntents]

theorem sweepOrder_idem (h : sweepOrder now o = some o') : sweepOrder now o' = some o' := by
  have hfixed : dropStaleIntents now o' = o' := by
    have hidem := dropStaleIntents_idem now o
    rcases sweepOrder_cases h with ⟨rfl, -⟩ | rfl
    · unfold dropStaleIntents at hidem ⊢
      simp only [Order.mk.injEq] at hidem ⊢
      tauto
    · exact hidem
  have hkept : expires now o' = false ∧ removable now o' = false := by
    unfold sweepOrder at h
    dsimp only at h
    split at h
    · cases h
      constructor
      · simp [expires]
      · simp only [removable, Nat.sub_self]
        split <;> simp
    · split at h
      · cases h
      · cases h
        rename_i hexpires hremovable
        exact ⟨by simpa using hexpires, by simpa using hremovable⟩
  simp [sweepOrder, hfixed, hkept.1, hkept.2]

theorem sweepAll_idem (now : SafeInt) (l : List Order) :
    sweepAll now (sweepAll now l) = sweepAll now l := by
  unfold sweepAll
  rw [List.filterMap_filterMap]
  apply List.filterMap_congr
  intro o _
  cases h : sweepOrder now o with
  | none => rfl
  | some o' => exact sweepOrder_idem h

theorem Sealed.create (hcol : CollisionFree E) (hproof : OrderProof E now' v)
    (hrows : ∀ o' ∈ l, Lasting E i.now o') (htimely : TimelyOrder E i.now l i.call)
    (h : Sealed v o i.now l)
    {body : Record} {makerIp : String} {origin : Origin} (hasked : Asked E i body makerIp origin)
    (hdraft : draftOrder E l i.now body makerIp origin i.random = .ok o') :
    o'.orderDigest ≠ some v.orderDigest := by
  intro hdigest
  have hfresh := draftOrder_fresh hdraft
  obtain ⟨w, hsigned, hsame⟩ := (row_of_draft hasked hdraft).signed hdigest
  obtain ⟨hid, hexpires⟩ := hsigned.portable.proof.eq_of_digest hcol hproof hsame
  have hunexpired : i.now.val < w.auth.expiresAt.val ∨ ∃ x ∈ sweepAll i.now l, x.id = o'.id := by
    cases hasked with
    | legacy =>
      exact absurd hsigned.portable.digest (by rw [(draftOrder_legacy hdraft).digest]; simp)
    | signed body makerIp verified capabilities hcall hverified =>
      obtain ⟨hp, hopen⟩ := verifyOrderV1_proof hverified
      have hw := (draftOrder_signed rfl hp hopen hdraft).portable.auth
      rw [hsigned.portable.auth, Option.some.injEq] at hw
      exact .inl (hw ▸ verifyOrderV1_unexpired hverified)
    | federated payload source verified hcall hverified hpublic =>
      obtain ⟨hp, hopen⟩ := verifyOrderV1_proof hverified
      have hrow := (draftOrder_signed rfl hp hopen hdraft).portable
      have hw := hrow.auth
      rw [hsigned.portable.auth, Option.some.injEq] at hw
      rcases htimely payload source verified hcall hverified with hlive | ⟨x, hx, hxid⟩
      · exact .inl (hw ▸ hlive)
      · exact .inr ⟨x, hx, hxid.trans hrow.id.symm⟩
  rcases hunexpired with hlive | ⟨x, hx, hxid⟩
  · rcases h.present with ⟨x, hx, hxdigest⟩ | hexpired
    · obtain ⟨u, hu, husame⟩ := (hrows x hx).1.signed hxdigest
      obtain ⟨huid, -⟩ := hu.portable.proof.eq_of_digest hcol hproof husame
      refine hfresh x hx ?_
      rw [hu.portable.id, hsigned.portable.id, huid, hid]
    · rw [hexpires] at hlive
      omega
  · obtain ⟨y, hy, hsweep⟩ := mem_sweepAll.mp hx
    exact hfresh y hy ((sweepOrder_id hsweep).symm.trans hxid)

theorem Change.orderDigest_eq (hchange : Change E i o o') : o'.orderDigest = o.orderDigest := by
  cases hchange with
  | orderConflict => rfl
  | portable _ h => cases h <;> rfl
  | legacy _ h => cases h <;> rfl

theorem Sealed.write (hcol : CollisionFree E) (hproof : OrderProof E now' v) (hsettled : Settled o)
    (hids : (l.map Order.id).Nodup) (hrows : ∀ o' ∈ l, Lasting E i.now o')
    (htimely : TimelyOrder E i.now l i.call) (h : Sealed v o i.now l) (hwrite : Write E i l l') :
    Sealed v o i.now l' := by
  cases hwrite with
  | create body makerIp origin o' hasked hdraft =>
    have hother := h.create hcol hproof hrows htimely hasked hdraft
    constructor
    · intro x hx hdigest
      rcases List.mem_append.mp hx with hx | hx
      · exact h.continues x hx hdigest
      · obtain rfl := List.mem_singleton.mp hx
        exact absurd hdigest hother
    · rcases h.present with ⟨x, hx, hdigest⟩ | hexpired
      · exact .inl ⟨x, List.mem_append_left _ hx, hdigest⟩
      · exact .inr hexpired
  | change x f hmem hchange =>
    constructor
    · intro y hy hdigest
      rcases mem_changed hids hmem hy with rfl | ⟨hy, -⟩
      · rw [hchange.orderDigest_eq] at hdigest
        have hcontinues := h.continues x hmem hdigest
        obtain ⟨w, hsigned, -⟩ := (hrows x hmem).1.signed hdigest
        exact hcontinues.trans (continues_change hsigned (hcontinues.settled hsettled) hchange)
      · exact h.continues y hy hdigest
    · rcases h.present with ⟨y, hy, hdigest⟩ | hexpired
      · left
        refine ⟨if y.id = x.id then f y else y, List.mem_map_of_mem hy, ?_⟩
        split
        · rename_i hid
          obtain rfl := List.inj_on_of_nodup_map hids hy hmem hid
          rw [hchange.orderDigest_eq]
          exact hdigest
        · exact hdigest
      · exact .inr hexpired

end Sealed

/-! ## One call and whole runs -/

section Runs

variable {E : Crypto} {w : World} {i : Step} {now : SafeInt} {v : VerifiedOrderV1} {o : Order}

/-- The invariant of the running book. -/
def Orderly (E : Crypto) (w : World) : Prop :=
  (w.store.orders.map Order.id).Nodup ∧ ∀ o ∈ w.store.orders, Lasting E w.clock o

theorem Lasting.later {now' : SafeInt} (h : Lasting E now o) (hnow : now.val ≤ now'.val) :
    Lasting E now' o :=
  ⟨h.1.later hnow, h.2⟩

theorem outlives_sweep {o' : Order} {fill : FillV1Body} (h : Outlives o fill)
    (hsweep : sweepOrder now o = some o') : Outlives o' fill := by
  rcases sweepOrder_cases hsweep with ⟨rfl, -⟩ | rfl
  · exact h
  · exact h

theorem lasting_draft {l : List Order} {body : Record} {makerIp : String} {origin : Origin}
    (hasked : Asked E i body makerIp origin)
    (hdraft : draftOrder E l i.now body makerIp origin i.random = .ok o) :
    Lasting E i.now o := by
  have hrow := row_of_draft hasked hdraft
  refine ⟨hrow, ?_⟩
  intro f hf
  simp only [draftOrder, bind_eq_ok, refuse_eq_ok, pure_eq_ok, exists_const] at hdraft
  obtain ⟨_, -, terms, -, _, -, _, -, visibility, -, _, -, listing, -, prelock, -, -, _, -, rfl⟩ :=
    hdraft
  cases hf

theorem Orderly.step (h : Orderly E w) (hkeeps : KeepsTombstones E w i) :
    Orderly E (w.step E i) := by
  have heffects := w.step_effects E i
  refine ⟨heffects.ids h.1, ?_⟩
  refine heffects.forall_mem (P := fun o => Lasting E (w.timed i).now o ∧
      ∀ fill, i.call.fill? = some (o.id.val, fill) → Outlives o fill) h.1 ?_ (fun o ho => ho.1)
    (fun l body makerIp origin o hasked hdraft => lasting_draft hasked hdraft) ?_ ?_
  · rintro o o' ⟨hlasting, hlong⟩ hsweep
    refine ⟨hlasting.sweep hsweep, ?_⟩
    intro fill hfill
    rw [sweepOrder_id hsweep] at hfill
    exact outlives_sweep (hlong fill hfill) hsweep
  · rintro o o' ⟨hlasting, hlong⟩ hchange
    exact hlasting.change hlong hchange
  · intro o ho
    refine ⟨(h.2 o ho).later (w.clock_le_timed i), ?_⟩
    intro fill hfill
    exact hkeeps.1 _ fill hfill o ho rfl

theorem TimelyOrder.sweep {l : List Order} {c : Call} (h : TimelyOrder E now l c) :
    TimelyOrder E now (sweepAll now l) c := by
  intro payload source v hcall hverified
  rw [sweepAll_idem]
  exact h payload source v hcall hverified

theorem Sealed.step {now' : SafeInt} (hcol : CollisionFree E) (hproof : OrderProof E now' v)
    (hsettled : Settled o)
    (horderly : Orderly E w) (hkeeps : KeepsTombstones E w i)
    (h : Sealed v o w.clock w.store.orders) :
    Sealed v o (w.step E i).clock (w.step E i).store.orders := by
  have hnow := w.clock_le_timed i
  have hsealed : Sealed v o (w.timed i).now w.store.orders :=
    ⟨h.continues, h.present.imp id fun hexpired => le_trans hexpired hnow⟩
  refine (w.step_effects E i).ends (P := fun l => (l.map Order.id).Nodup ∧
      (∀ o' ∈ l, Lasting E (w.timed i).now o') ∧ TimelyOrder E (w.timed i).now l i.call ∧
      Sealed v o (w.timed i).now l) ?_ ?_
    ⟨horderly.1, fun o' ho' => (horderly.2 o' ho').later hnow, hkeeps.2, hsealed⟩
  · rintro l ⟨hids, hrows, htimely, hsealed⟩
    refine ⟨(sweepAll_ids _ l).nodup hids, ?_, htimely.sweep,
      hsealed.sweep hcol hproof hsettled hrows⟩
    intro o'' ho''
    obtain ⟨o', ho', hsweep⟩ := mem_sweepAll.mp ho''
    exact (hrows o' ho').sweep hsweep
  · rintro l l' ⟨hids, hrows, htimely, hsealed⟩ (rfl | hwrite)
    · exact hsealed
    · exact hsealed.write hcol hproof hsettled hids hrows htimely hwrite

theorem run_orderly (is : List Step) (h : Along (World.step E) (KeepsTombstones E) World.start is) :
    Orderly E (run (World.step E) World.start is) :=
  invariant_of_along (s := World.start) (fun _ _ horderly hkeeps => Orderly.step horderly hkeeps) h
    ⟨List.nodup_nil, fun _ ho => absurd ho List.not_mem_nil⟩

/-- What a settled row says is still true after any further calls. -/
theorem run_sealed (hcol : CollisionFree E) (hsettled : Settled o) (horderly : Orderly E w)
    (hmem : o ∈ w.store.orders) (hproof : OrderProof E w.clock v)
    (hdigest : o.orderDigest = some v.orderDigest)
    (js : List Step) (h : Along (World.step E) (KeepsTombstones E) w js) :
    Sealed v o (run (World.step E) w js).clock (run (World.step E) w js).store.orders := by
  have hstart : Sealed v o w.clock w.store.orders := by
    refine ⟨?_, .inl ⟨o, hmem, hdigest⟩⟩
    intro o' ho' hdigest'
    obtain ⟨u, hu, husame⟩ := (horderly.2 o hmem).1.signed hdigest
    obtain ⟨u', hu', husame'⟩ := (horderly.2 o' ho').1.signed hdigest'
    obtain ⟨hid, -⟩ :=
      hu.portable.proof.eq_of_digest hcol hu'.portable.proof (husame.trans husame'.symm)
    have hids : o.id = o'.id := by rw [hu.portable.id, hu'.portable.id, hid]
    rw [List.inj_on_of_nodup_map horderly.1 hmem ho' hids]
    exact Continues.refl o'
  have hinv := invariant_of_along (s := w) (I := fun w' : World => Orderly E w' ∧
    Sealed v o w'.clock w'.store.orders)
    (fun w' i' hi hkeeps => ⟨hi.1.step hkeeps, hi.2.step hcol hproof hsettled hi.1 hkeeps⟩) h
    ⟨horderly, hstart⟩
  exact hinv.2

end Runs

/-! ## What the book answers -/

section Answers

variable {E : Crypto} {now : SafeInt} {s s' : Store}

theorem publicOrder_orderDigest {o : Order} {seen : Bool} {digest : Bytes32}
    (h : (publicOrder o seen).orderDigest = some digest) :
    usesPortableTerminalProtocol o = true ∧ o.orderDigest = some digest := by
  simp only [publicOrder] at h
  split at h
  · exact ⟨by assumption, h⟩
  · cases h

theorem sweep_bind_run {α : Type} (f : Unit → StoreM α) :
    (sweep now >>= f) s = f ⟨⟩ (s.swept now) := rfl

theorem get_bind_run {α : Type} (f : Store → StoreM α) : (get >>= f) s = f s s := rfl

theorem listOpen_eq_ok {page : List PublicOrder} (h : listOpen now s = .ok page s') :
    ∀ p ∈ page, ∃ o ∈ sweepAll now s.orders, o.status = .open ∧ ∃ seen, p = publicOrder o seen := by
  have hrun : listOpen now s = .ok _ (s.swept now) := rfl
  rw [hrun] at h
  injection h with hpage
  subst hpage
  intro p hp
  obtain ⟨o, ho, rfl⟩ := List.mem_map.mp hp
  rw [List.mem_mergeSort, List.mem_filter] at ho
  simp only [Bool.and_eq_true, decide_eq_true_eq] at ho
  exact ⟨o, ho.1, ho.2.1.1.1, _, rfl⟩

theorem commitTake_eq_ok {o : Order} {body : Record} {takerIp : String} {random : Random}
    {taken : Taken}
    (hlegacy : usesPortableTerminalProtocol o = false)
    (h : commitTake E now o body takerIp random s = .ok taken s') :
    taken.order.orderDigest = none := by
  simp only [commitTake, run_bind_ok, check_run_ok, get_run, modify_run, pure_run,
    EStateM.Result.ok.injEq] at h
  obtain ⟨_, _, ⟨rfl, rfl⟩, _, _, ⟨-, rfl⟩, _, _, ⟨-, rfl⟩, eth, _, ⟨-, rfl⟩, qrl, _, ⟨-, rfl⟩, _,
    _, ⟨-, rfl⟩, _, _,
    ⟨-, rfl⟩, _, _, ⟨rfl, rfl⟩, rfl, -⟩ := h
  change (if usesPortableTerminalProtocol o = true then o.orderDigest else none) = none
  rw [hlegacy]
  rfl

theorem take_eq_ok {body : Record} {takerIp : String} {random : Random} {taken : Taken}
    (h : take E now body takerIp random s = .ok taken s') : taken.order.orderDigest = none := by
  simp only [take, run_bind_ok, check_run_ok, get_run] at h
  obtain ⟨_, _, ⟨-, rfl⟩, _, _, -, _, _, ⟨-, rfl⟩, _, _, ⟨-, rfl⟩, _, _, ⟨-, rfl⟩, _, _, ⟨-, rfl⟩,
    t, _, -, o, _,
    ⟨hbest, rfl⟩, h⟩ := h
  have hmem := List.mem_of_mem_head? (orThrow_eq_ok.mp hbest)
  rw [List.mem_mergeSort, List.mem_filter] at hmem
  have heligible := hmem.2
  simp only [takeEligible, Bool.and_eq_true, decide_eq_true_eq, Bool.not_eq_true'] at heligible
  exact commitTake_eq_ok heligible.1.1.1.1.1.1.1.2 h

theorem accept_eq_ok {id : String} {body : Record} {takerIp : String} {random : Random}
    {taken : Taken}
    (h : accept E now id body takerIp random s = .ok taken s') :
    taken.order.orderDigest = none := by
  simp only [accept, run_bind_ok, check_run_ok, get_run, refuse_eq_ok, Bool.not_eq_true] at h
  obtain ⟨_, _, ⟨-, rfl⟩, _, _, -, _, _, -, o, _, ⟨-, rfl⟩, _, _, ⟨-, rfl⟩, _, _, ⟨hlegacy, rfl⟩, _,
    _, ⟨-, rfl⟩, _, _,
    ⟨-, rfl⟩, h⟩ := h
  exact commitTake_eq_ok hlegacy h

/-- The order keeps this terminal, or its maker is known to have signed another one. -/
def Recorded (digest : Bytes32) (id : String) (l : List Order) : Prop :=
  ∃ o ∈ l, o.id.val = id ∧
    (o.fillDigest = some digest ∨ o.cancelDigest = some digest ∨ o.equivocated = true)

theorem mem_updated {l : List Order} {o : Order} {f : Order → Order} (hmem : o ∈ l) :
    f o ∈ l.map fun x => if x.id = o.id then f x else x :=
  List.mem_map.mpr ⟨o, hmem, if_pos rfl⟩

theorem rememberTerminalConflict_recorded {o : Order} {evidence : TerminalConflictEvidence}
    {event : FederationEvent} {p : PublicOrder} (hmem : o ∈ s.orders) (hrow : Row E now o)
    (hportable : usesPortableTerminalProtocol o = true)
    (h : rememberTerminalConflict now o evidence event s = .ok p s') :
    Recorded evidence.digest o.id.val s'.orders := by
  unfold rememberTerminalConflict at h
  split at h
  · rename_i hknown
    simp only [run_bind_ok, get_run, pure_run, EStateM.Result.ok.injEq] at h
    obtain ⟨_, _, ⟨rfl, rfl⟩, -, rfl⟩ := h
    refine ⟨o, hmem, rfl, ?_⟩
    rw [knowsTerminal, decide_eq_true_eq] at hknown
    rcases hknown with hfill | hcancel | hconflict
    · exact .inl hfill
    · exact .inr (.inl hcancel)
    · rcases hrow.kind with hlegacy | ⟨v, hsigned⟩
      · simp [hlegacy.uses] at hportable
      · right
        right
        refine (hsigned.outcome.conflicts ?_).1
        rintro hnil
        simp [hnil] at hconflict
  · simp only [run_bind_ok, get_run, modify_run, pure_run, EStateM.Result.ok.injEq] at h
    obtain ⟨_, _, ⟨-, rfl⟩, _, _, ⟨rfl, rfl⟩, -, rfl⟩ := h
    refine ⟨addConflict now evidence o, ?_, rfl, .inr (.inr rfl)⟩
    simp only [Store.orders_publishFor, Store.orders_persist, Store.orders_update]
    exact mem_updated hmem

theorem applyFill_recorded {id : String}
    {rawFill rawAuth rawIntent rawIntentAuth makerToken : Option Json}
    {federated : Bool} {p : PublicOrder} (hrows : ∀ o ∈ sweepAll now s.orders, Row E now o)
    (h : applyFill E now id rawFill rawAuth rawIntent rawIntentAuth federated makerToken s =
      .ok p s') :
    ∃ variant intent, ∃ fill : VerifiedFillV1,
      verifyFillV1 E now federated rawFill rawAuth variant intent = .ok fill ∧
        Recorded fill.fillDigest id s'.orders := by
  simp only [applyFill, sweep_bind_run, get_bind_run, run_bind_ok, check_run_ok] at h
  obtain ⟨o, _, ⟨horder, rfl⟩, variant, _, ⟨-, rfl⟩, intent, _, ⟨-, rfl⟩, fill, _,
    ⟨hfill, rfl⟩, h⟩ := h
  obtain ⟨hmem, rfl, hportable⟩ := terminalOrder_eq_ok horder
  refine ⟨variant, intent, fill, hfill, ?_⟩
  split at h
  · exact rememberTerminalConflict_recorded hmem (hrows o hmem) hportable h
  · simp only [run_bind_ok, check_run_ok, get_run, modify_run, pure_run,
      EStateM.Result.ok.injEq] at h
    obtain ⟨_, _, ⟨-, rfl⟩, _, _, ⟨-, rfl⟩, _, _, ⟨rfl, rfl⟩, -, rfl⟩ := h
    refine ⟨recordFill now fill (selectedSource E now o intent) o, ?_, rfl, .inl rfl⟩
    simp only [Store.orders_publishFor, Store.orders_persist, Store.orders_update]
    exact mem_updated hmem

theorem applySignedCancel_recorded {id : String} {rawCancel rawAuth makerToken : Option Json}
    {federated : Bool}
    {p : PublicOrder} (hrows : ∀ o ∈ sweepAll now s.orders, Row E now o)
    (h : applySignedCancel E now id rawCancel rawAuth federated makerToken s = .ok p s') :
    ∃ variant, ∃ cancel : VerifiedCancelV1,
      verifyCancelV1 E now federated rawCancel rawAuth variant = .ok cancel ∧
        Recorded cancel.cancelDigest id s'.orders := by
  simp only [applySignedCancel, sweep_bind_run, get_bind_run, run_bind_ok, check_run_ok] at h
  obtain ⟨o, _, ⟨horder, rfl⟩, variant, _, ⟨-, rfl⟩, cancel, _, ⟨hcancel, rfl⟩, h⟩ := h
  obtain ⟨hmem, rfl, hportable⟩ := terminalOrder_eq_ok horder
  refine ⟨variant, cancel, hcancel, ?_⟩
  split at h
  · exact rememberTerminalConflict_recorded hmem (hrows o hmem) hportable h
  · simp only [run_bind_ok, get_run, modify_run, pure_run, EStateM.Result.ok.injEq] at h
    obtain ⟨_, _, ⟨-, rfl⟩, _, _, ⟨rfl, rfl⟩, -, rfl⟩ := h
    refine ⟨recordCancel now cancel o, ?_, rfl, .inr (.inl rfl)⟩
    simp only [Store.orders_publishFor, Store.orders_persist, Store.orders_update]
    exact mem_updated hmem

end Answers

/-! ## Terminal outcomes over whole runs -/

/-- The projection of a signed row follows its terminal, of which there is at most one. -/
structure Projected (o : Order) : Prop where
  once : ¬(o.fill.isSome = true ∧ o.cancel.isSome = true)
  filled : ∀ f ∈ o.fill, o.status = .locking ∧ o.hashlock = some f.fill.hashlock ∧
    o.initiatorTimeout = some (f.fill.initiatorTimeout.val : Int) ∧
    o.responderTimeout = some (f.fill.responderTimeout.val : Int) ∧
    o.takerEthAccount = some (EthAccount.address f.fill.takerEthAccount) ∧
    o.takerQrlAccount = some (QrlAccount.address f.fill.takerQrlAccount)
  cancelled : ∀ c ∈ o.cancel, o.status = .cancelled

theorem Outcome.projected {o : Order} (h : Outcome o) : Projected o where
  once := by
    rintro ⟨hfill, hcancel⟩
    have hlocking := h.locking.mpr hfill
    rw [h.cancelled hcancel] at hlocking
    cases hlocking
  filled := fun f hf => ⟨h.locking.mpr (Option.isSome_of_mem hf), h.projection f hf⟩
  cancelled := fun c hc => h.cancelled (Option.isSome_of_mem hc)

/-- The order with this digest is neither listed nor takeable, at any later time. -/
structure OffTheBook (E : Crypto) (w : World) (digest : Bytes32) : Prop where
  listOpen : ∀ now page s', w.clock.val ≤ now.val → listOpen now w.store = .ok page s' →
    ∀ p ∈ page, p.orderDigest ≠ some digest
  take : ∀ now body takerIp random taken s', take E now body takerIp random w.store = .ok taken s' →
    taken.order.orderDigest ≠ some digest
  accept : ∀ now id body takerIp random taken s', accept E now id body takerIp random w.store =
    .ok taken s' →
    taken.order.orderDigest ≠ some digest

theorem Sealed.offTheBook {E : Crypto} {w : World} {v : VerifiedOrderV1} {o : Order}
    (hcol : CollisionFree E)
    (hproof : OrderProof E w.clock v) (hsettled : Settled o) (horderly : Orderly E w)
    (h : Sealed v o w.clock w.store.orders) : OffTheBook E w v.orderDigest where
  listOpen := by
    intro now page s' hnow hpage p hp hdigest
    obtain ⟨o', ho', hopen, seen, rfl⟩ := listOpen_eq_ok hpage p hp
    obtain ⟨-, hdigest⟩ := publicOrder_orderDigest hdigest
    have hrows : ∀ o' ∈ w.store.orders, Lasting E now o' :=
      fun o' ho' => (horderly.2 o' ho').later hnow
    have hnow' : Sealed v o now w.store.orders :=
      ⟨h.continues, h.present.imp id fun hexpired => le_trans hexpired hnow⟩
    have hcontinues := (hnow'.sweep hcol hproof hsettled hrows).continues o' ho' hdigest
    obtain ⟨x, hx, hsweep⟩ := mem_sweepAll.mp ho'
    obtain ⟨u, hu, -⟩ := ((hrows x hx).sweep hsweep).1.signed hdigest
    exact hu.not_open (hcontinues.settled hsettled) hopen
  take := by
    intro now body takerIp random taken s' htake
    rw [take_eq_ok htake]
    simp
  accept := by
    intro now id body takerIp random taken s' haccept
    rw [accept_eq_ok haccept]
    simp

/-- In runs that keep tombstones: at most one terminal, the projection of it, nothing
taken back, and an accepted terminal is the recorded one or marks the order. -/
theorem run_terminals_final (E : Crypto) (hcol : CollisionFree E) (is js : List Step)
    (h : Along (World.step E) (KeepsTombstones E) World.start (is ++ js)) :
    let w := run (World.step E) World.start is
    let w' := run (World.step E) World.start (is ++ js)
    (∀ o ∈ w.store.orders, o.makerAuth.isSome = true → Projected o ∧
      ∃ digest, o.orderDigest = some digest ∧
      (Settled o → OffTheBook E w' digest ∧
        ∀ o' ∈ w'.store.orders, o'.orderDigest = some digest → Continues o o' ∧
        o'.status ≠ .open)) ∧
    (∀ now id rawFill rawAuth rawIntent rawIntentAuth federated makerToken p s',
      w.clock.val ≤ now.val →
      applyFill E now id rawFill rawAuth rawIntent rawIntentAuth federated makerToken w.store =
        .ok p s' →
      ∃ variant intent, ∃ fill : VerifiedFillV1,
        verifyFillV1 E now federated rawFill rawAuth variant intent = .ok fill ∧
          Recorded fill.fillDigest id s'.orders) ∧
    ∀ now id rawCancel rawAuth federated makerToken p s', w.clock.val ≤ now.val →
      applySignedCancel E now id rawCancel rawAuth federated makerToken w.store = .ok p s' →
      ∃ variant, ∃ cancel : VerifiedCancelV1,
        verifyCancelV1 E now federated rawCancel rawAuth variant = .ok cancel ∧
          Recorded cancel.cancelDigest id s'.orders := by
  intro w w'
  obtain ⟨his, hjs⟩ := (along_append (World.step E) World.start is js).mp h
  have horderly : Orderly E w := run_orderly is his
  have horderly' : Orderly E w' := run_orderly (is ++ js) h
  have hrows : ∀ now :
    SafeInt, w.clock.val ≤ now.val → ∀ o ∈ sweepAll now w.store.orders, Row E now o := by
    intro now hnow o ho
    obtain ⟨x, hx, hsweep⟩ := mem_sweepAll.mp ho
    exact ((horderly.2 x hx).1.later hnow).sweep hsweep
  refine ⟨?_, fun now id _ _ _ _ _ _ p s' hnow hrun => applyFill_recorded (hrows now hnow) hrun,
    fun now id _ _ _ _ p s' hnow hrun => applySignedCancel_recorded (hrows now hnow) hrun⟩
  intro o ho hauth
  rcases (horderly.2 o ho).1.kind with hlegacy | ⟨v, hsigned⟩
  · simp [hlegacy.auth] at hauth
  refine ⟨hsigned.outcome.projected, v.orderDigest, hsigned.portable.digest, ?_⟩
  intro hsettled
  -- From the settled row on, by induction over the later steps.
  have hsealed : Sealed v o w'.clock w'.store.orders := by
    have := run_sealed hcol hsettled horderly ho hsigned.portable.proof
      hsigned.portable.digest js hjs
    rwa [← run_append] at this
  have hclock : w.clock.val ≤ w'.clock.val := by
    have := run_clock_le E w js
    rwa [← run_append] at this
  refine ⟨hsealed.offTheBook hcol (hsigned.portable.proof.later hclock) hsettled horderly', ?_⟩
  intro o' ho' hdigest'
  have hcontinues := hsealed.continues o' ho' hdigest'
  obtain ⟨u, hu, -⟩ := (horderly'.2 o' ho').1.signed hdigest'
  exact ⟨hcontinues, hu.not_open (hcontinues.settled hsettled)⟩

end QuantaSwap.Book
