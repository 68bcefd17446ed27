import QuantaSwap.Book.Hashlocks
import QuantaSwap.Book.Retention

/-!
# How long the book retains an order

Every row goes in the end when the book only sweeps it: an open one by its age or its signed
expiry, a locking one by its initiator timeout. An announcement writes the timeout that its maker
likes.
-/

set_option autoImplicit false

namespace QuantaSwap.Book

open Lib.Js Lib.Text Lib.Checks Lib.Run

/-- The longest that the terms of a row can reach ahead: a signature from a clock that is ahead, the
longest listing window of a lock, and the linger after it. -/
def retainedForS : Nat := maxClockSkewS + prelockMaxT1S + lockingLingerS

theorem openTtlS_le : openTtlS ≤ retainedForS := by decide

theorem acceptedTtlS_le : acceptedTtlS ≤ retainedForS := by decide

/-- The row waits for nothing past the longest terms from `since` on, and its last change is in the
past. -/
structure Lapses (since now : Nat) (o : Order) : Prop where
  updated : o.updatedAt.val ≤ now
  live : o.status ≠ .cancelled → o.updatedAt.val ≤ since
  timeout : ∀ t1 ∈ o.initiatorTimeout, t1 + lockingLingerS ≤ (since + retainedForS : Nat)
  locking : o.status = .locking → o.initiatorTimeout.isSome = true
  expiry : ∀ a ∈ o.makerAuth, (a : MakerOrderAuthV1).expiresAt.val + signedTerminalGraceS ≤
    since + retainedForS

/-- A row that the book keeps for its last hour only. -/
structure Ending (since : Nat) (o : Order) : Prop where
  cancelled : o.status = .cancelled
  updated : o.updatedAt.val ≤ since
  expired : ∀ a ∈ o.makerAuth, (a : MakerOrderAuthV1).expiresAt.val + signedTerminalGraceS < since

section Rows

variable {E : Crypto} {now : SafeInt} {since : Nat} {i : Step} {o o' : Order}

theorem Lapses.later {since' now' : Nat} (h : Lapses since now o) (hsince : since ≤ since')
    (hnow : now.val ≤ now') :
    Lapses since' now' o where
  updated := h.updated.trans hnow
  live := fun hlive => (h.live hlive).trans hsince
  timeout := by
    intro t1 ht1
    have hle := h.timeout t1 ht1
    omega
  locking := h.locking
  expiry := by
    intro a ha
    have hle := h.expiry a ha
    omega

theorem Lapses.sweep (h : Lapses since now o) (hsweep : sweepOrder now o = some o') :
    Lapses since now o' := by
  rcases sweepOrder_cases hsweep with ⟨rfl, -⟩ | rfl
  · exact ⟨Nat.le_refl _, (fun hlive => absurd rfl hlive), h.timeout,
      (fun hlocking => by cases hlocking), h.expiry⟩
  · exact ⟨h.updated, h.live, h.timeout, h.locking, h.expiry⟩

/-- A sweep past the terms leaves no row but a cancelled one. -/
theorem Lapses.ending (h : Lapses since now o) (hpast : since + retainedForS < now.val)
    (hsweep : sweepOrder now o = some o') : Ending now.val o' := by
  rw [sweepOrder_eq] at hsweep
  split at hsweep
  · cases hsweep
    refine ⟨rfl, Nat.le_refl _, ?_⟩
    intro a ha
    exact (h.expiry a ha).trans_lt hpast
  · rename_i hkept
    unfold expires at hkept
    rw [decide_eq_true_iff, not_or, not_and, not_and] at hkept
    split at hsweep
    · cases hsweep
    · rename_i hremovable
      cases hsweep
      have hcancelled : o.status = .cancelled := by
        cases hstatus : o.status with
        | «open» =>
          have hupdated := h.live (by rw [hstatus]; nofun)
          refine absurd (Or.inl ?_) (hkept.1 hstatus)
          have hwindow := openTtlS_le
          omega
        | accepted =>
          have hupdated := h.live (by rw [hstatus]; nofun)
          refine absurd ?_ (hkept.2 hstatus)
          have hwindow := acceptedTtlS_le
          omega
        | locking =>
          obtain ⟨t1, ht1⟩ := Option.isSome_iff_exists.mp (h.locking hstatus)
          have hle := h.timeout t1 ht1
          unfold removable at hremovable
          rw [hstatus, ht1] at hremovable
          refine absurd (decide_eq_true ?_) hremovable
          omega
        | cancelled => rfl
      refine ⟨hcancelled, h.updated, ?_⟩
      intro a ha
      exact (h.expiry a ha).trans_lt hpast

theorem Ending.sweep (h : Ending since o) (hsweep : sweepOrder now o = some o') :
    Ending since o' := by
  rcases sweepOrder_cases hsweep with ⟨rfl, hlive⟩ | rfl
  · rw [h.cancelled] at hlive
    rcases hlive with hlive | hlive <;> cases hlive
  · exact ⟨h.cancelled, h.updated, h.expired⟩

theorem Ending.swept (h : Ending since o) (hlater : since + cancelledTtlS < now.val) :
    sweepOrder now o = none := by
  have hupdated := h.updated
  have hexpires : expires now o = false := by
    unfold expires
    rw [h.cancelled]
    simp
  have hremovable : removable now o = true := by
    unfold cancelledTtlS at hlater
    unfold removable
    rw [h.cancelled]
    dsimp only
    split
    · refine decide_eq_true ?_
      unfold cancelledTtlS
      omega
    · rename_i a hauth
      have hexpired := h.expired a hauth
      refine decide_eq_true ⟨?_, ?_⟩
      · omega
      · unfold signedTerminalGraceS
        omega
  rw [sweepOrder_eq, hexpires, hremovable]
  rfl

/-! ## Writes -/

theorem horizon_of_prelock {v : VerifiedOrderV1} (hproof : OrderProof E now v) {p : Prelock}
    (hp : p ∈ v.order.prelock) :
    (p.initiatorTimeout.val : Int) + lockingLingerS ≤ (now.val + retainedForS : Nat) := by
  obtain ⟨hrules, -⟩ := checkOrderV1_eq_ok.mp hproof
  have hskew := hrules.skew
  have hwindow := (hrules.prelock p hp).2.2
  unfold maxPrelockListingWindowS at hwindow
  unfold retainedForS prelockMaxT1S
  omega

theorem horizon_of_expiry {v : VerifiedOrderV1} (hproof : OrderProof E now v) :
    v.auth.expiresAt.val + signedTerminalGraceS ≤ now.val + retainedForS := by
  obtain ⟨hrules, -⟩ := checkOrderV1_eq_ok.mp hproof
  have hskew := hrules.skew
  have hlifetime := hrules.lifetime
  unfold maxOrderLifetimeS at hlifetime
  unfold retainedForS signedTerminalGraceS prelockMaxT1S
  omega

theorem horizon_of_fill {v : VerifiedOrderV1} {intent : VerifiedFillIntentV1}
    {fill : VerifiedFillV1}
    (hproof : OrderProof E now v) (hfill : FillProof E now v intent fill) :
    (fill.fill.initiatorTimeout.val : Int) + lockingLingerS ≤ (now.val + retainedForS : Nat) := by
  obtain ⟨hrules, -⟩ := checkFillV1_eq_ok.mp hfill
  cases hprelock : v.order.prelock with
  | none =>
    have hskew := hrules.skew
    have hwindow := hrules.initiatorWindow hprelock
    unfold maxInitiatorWindowS at hwindow
    unfold retainedForS prelockMaxT1S
    omega
  | some p =>
    rw [(hrules.prelock p hprelock).2]
    exact horizon_of_prelock hproof hprelock

theorem referencedSignedOrderVariant_proof {raw : Option Json} {v : VerifiedOrderV1}
    (h : referencedSignedOrderVariant E now o raw = .ok v) : OrderProof E now v := by
  simp only [referencedSignedOrderVariant, bind_eq_ok] at h
  obtain ⟨_, -, _, -, primary, hprimary, h⟩ := h
  split at h
  · cases h
    simp only [verifiedSignedOrder, bind_eq_ok] at hprimary
    obtain ⟨_, -, hverified⟩ := hprimary
    exact (verifyOrderV1_proof hverified).1
  · unfold verifiedVariant at h
    dsimp only at h
    split at h
    · cases h
    · simp only [bind_eq_ok, refuse_eq_ok, pure_eq_ok, exists_const] at h
      obtain ⟨candidate, hverified, -, rfl⟩ := h
      exact (verifyOrderV1_proof hverified).1

theorem announcedTerms_timeout {body : Record} {terms : Hashlock × Int × Int}
    (h : announcedTerms now o body = .ok terms) :
    asInteger (body.get "initiatorTimeout") = some terms.2.1 ∧
      (o.prelocked = true → o.initiatorTimeout = some terms.2.1) := by
  simp only [announcedTerms, bind_eq_ok, orThrow_eq_ok, refuse_eq_ok, pure_eq_ok, exists_const] at h
  obtain ⟨_, -, t1, ht1, t2, -, -, hlock, -, -, rfl⟩ := h
  refine ⟨ht1, ?_⟩
  intro hprelocked
  by_contra hne
  exact hlock ⟨hprelocked, hne⟩

/-- The call announces no timeout, for an accepted row without a lock, past the longest window. -/
def NearTimeout (i : Step) (o : Order) : Prop :=
  ∀ id body t1, i.call.announcement? = some (id, body) → o.id.val = id → o.status = .accepted →
    o.prelocked = false → asInteger (body.get "initiatorTimeout") = some t1 →
      t1 ≤ i.now.val + prelockMaxT1S

theorem Lapses.change (h : Lapses i.now.val i.now o) (hnear : NearTimeout i o)
    (hchange : Change E i o o') : Lapses i.now.val i.now o' := by
  cases hchange with
  | orderConflict verified =>
    refine ⟨Nat.le_refl _, fun _ => Nat.le_refl _, h.timeout, ?_, h.expiry⟩
    intro hlocking
    unfold addOrderConflict at hlocking
    dsimp only at hlocking
    split at hlocking
    · cases hlocking
    · exact h.locking hlocking
  | portable hportable hchange =>
    cases hchange with
    | fill raw variant intent fill hvariant hintent hfill =>
      refine ⟨Nat.le_refl _, fun _ => Nat.le_refl _, ?_, fun _ => rfl, h.expiry⟩
      rintro t1 ⟨⟩
      exact horizon_of_fill (referencedSignedOrderVariant_proof hvariant) hfill
    | cancel => exact ⟨Nat.le_refl _, fun _ => Nat.le_refl _, h.timeout,
      (fun hlocking => by cases hlocking), h.expiry⟩
    | _ => exact ⟨Nat.le_refl _, fun _ => Nat.le_refl _, h.timeout, h.locking, h.expiry⟩
  | legacy hlegacy hchange =>
    cases hchange with
    | announce body terms hcall hterms haccepted =>
      obtain ⟨hbody, hlock⟩ := announcedTerms_timeout hterms
      refine ⟨Nat.le_refl _, fun _ => Nat.le_refl _, ?_, fun _ => rfl, h.expiry⟩
      rintro t1 ⟨⟩
      -- A prelocked row keeps its timeout; any other one takes that of the announcement.
      cases hprelocked : o.prelocked with
      | true => exact h.timeout _ (hlock hprelocked)
      | false =>
        have hle := hnear _ _ _ hcall rfl haccepted hprelocked hbody
        unfold retainedForS
        push_cast
        omega
    | accept => exact ⟨Nat.le_refl _, fun _ => Nat.le_refl _, h.timeout,
      (fun hlocking => by cases hlocking), h.expiry⟩
    | relist => exact ⟨Nat.le_refl _, fun _ => Nat.le_refl _, h.timeout,
      (fun hlocking => by cases hlocking), h.expiry⟩
    | releaseLocking => exact ⟨Nat.le_refl _, fun _ => Nat.le_refl _, h.timeout,
      h.locking, h.expiry⟩
    | withdraw => exact ⟨Nat.le_refl _, fun _ => Nat.le_refl _, h.timeout,
      (fun hlocking => by cases hlocking), h.expiry⟩

theorem draftOrder_prelock {l : List Order} {body : Record} {makerIp : String} {origin : Origin}
    {random : Random}
    (h : draftOrder E l now body makerIp origin random = .ok o) :
    o.status = .open ∧ o.updatedAt = now ∧ o.fill = none ∧
      (origin.isFederated = false → ∀ t1 ∈ o.initiatorTimeout, t1 ≤ now.val + prelockMaxT1S) := by
  simp only [draftOrder, bind_eq_ok, refuse_eq_ok, pure_eq_ok, exists_const] at h
  obtain ⟨_, -, terms, -, _, -, _, -, v, -, _, -, listing, -, prelock, hprelock, -, _, -, rfl⟩ := h
  refine ⟨rfl, rfl, rfl, ?_⟩
  intro hlocal t1 ht1
  unfold createPrelock at hprelock
  split at hprelock
  · cases hprelock
    cases ht1
  · simp only [bind_eq_ok, orThrow_eq_ok, refuse_eq_ok, pure_eq_ok, exists_const] at hprelock
    obtain ⟨p, -, hashlock, -, timeout, -, -, hfar, -, rfl⟩ := hprelock
    cases ht1
    by_contra hlt
    exact hfar ⟨hlocal, not_le.mp hlt⟩

theorem lapses_of_signed {v : VerifiedOrderV1} (h : SignedRow E now v o) (hopen : o.status = .open)
    (hupdated : o.updatedAt = now) (hnofill : o.fill = none) : Lapses now.val now o where
  updated := by rw [hupdated]
  live := fun _ => by rw [hupdated]
  timeout := by
    intro t1 ht1
    rw [(h.portable.lock hnofill).2, Option.mem_def, Option.map_eq_some_iff] at ht1
    obtain ⟨p, hp, rfl⟩ := ht1
    exact horizon_of_prelock h.portable.proof hp
  locking := by
    intro hlocking
    rw [hopen] at hlocking
    cases hlocking
  expiry := by
    intro a ha
    rw [h.portable.auth] at ha
    cases ha
    exact horizon_of_expiry h.portable.proof

theorem lapses_of_draft {l : List Order} {body : Record} {makerIp : String} {origin : Origin}
    (hasked : Asked E i body makerIp origin)
    (h : draftOrder E l i.now body makerIp origin i.random = .ok o) :
    Lapses i.now.val i.now o := by
  obtain ⟨hopen, hupdated, hnofill, hlocal⟩ := draftOrder_prelock h
  cases hasked with
  | legacy =>
    have hlegacy := draftOrder_legacy h
    refine ⟨by rw [hupdated], (fun _ => by rw [hupdated]), ?_, ?_, ?_⟩
    · intro t1 ht1
      have hle := hlocal rfl t1 ht1
      unfold retainedForS
      push_cast
      omega
    · intro hlocking
      rw [hopen] at hlocking
      cases hlocking
    · intro a ha
      rw [hlegacy.auth] at ha
      cases ha
  | signed body makerIp verified capabilities hcall hverified =>
    obtain ⟨hproof, hrestricted⟩ := verifyOrderV1_proof hverified
    exact lapses_of_signed (draftOrder_signed rfl hproof hrestricted h) hopen hupdated hnofill
  | federated payload source verified hcall hverified hpublic =>
    obtain ⟨hproof, hrestricted⟩ := verifyOrderV1_proof hverified
    exact lapses_of_signed (draftOrder_signed rfl hproof hrestricted h) hopen hupdated hnofill

theorem NearTimeout.sweep (h : NearTimeout i o) (hsweep : sweepOrder now o = some o') :
    NearTimeout i o' := by
  intro id body t1 hcall hid haccepted hprelocked hbody
  rcases sweepOrder_cases hsweep with ⟨rfl, -⟩ | rfl
  · cases haccepted
  · exact h id body t1 hcall hid haccepted hprelocked hbody

end Rows

/-! ## Runs -/

/-- A call that changes a row announces no timeout past the longest window. -/
def NearTimeouts (E : Crypto) (w : World) (i : Step) : Prop :=
  w.Writes E i → ∀ o ∈ w.store.orders, NearTimeout (w.timed i) o

/-- What the call leaves of the order is what was there, or what the sweep makes of that. -/
def Idle (E : Crypto) (id : OrderId) (w : World) (i : Step) : Prop :=
  ∀ o' ∈ (w.step E i).store.orders, o'.id = id →
    ∃ o ∈ w.store.orders, o.id = id ∧ (o' = o ∨ sweepOrder (w.timed i).now o = some o')

section Runs

variable {E : Crypto}

theorem World.step_lapses {w : World} {i : Step} (hids : (w.store.orders.map Order.id).Nodup)
    (hrows : ∀ o ∈ w.store.orders, Lapses w.clock.val w.clock o) (hnear : NearTimeouts E w i) :
    ∀ o ∈ (w.step E i).store.orders, Lapses (w.timed i).now.val (w.timed i).now o := by
  have hclock := w.clock_le_timed i
  have hlater : ∀ o ∈ w.store.orders, Lapses (w.timed i).now.val (w.timed i).now o :=
    fun o ho => (hrows o ho).later hclock hclock
  by_cases hwrites : w.Writes E i
  · have heffects := w.step_effects E i
    refine heffects.forall_mem (P := fun o => Lapses (w.timed i).now.val (w.timed i).now o ∧
      NearTimeout (w.timed i) o) hids ?_ (fun o h => h.1) (fun l body makerIp origin o =>
        lapses_of_draft) ?_ ?_
    · rintro o o' ⟨hlapses, hnear⟩ hsweep
      exact ⟨hlapses.sweep hsweep, hnear.sweep hsweep⟩
    · rintro o o' ⟨hlapses, hnear⟩ hchange
      exact hlapses.change hnear hchange
    · exact fun o ho => ⟨hlater o ho, hnear hwrites o ho⟩
  · rcases World.orders_of_not_writes hwrites with h | h
    · rwa [h]
    · rw [h]
      intro o ho
      obtain ⟨x, hx, hswept⟩ := mem_sweepAll.mp ho
      exact (hlater x hx).sweep hswept

/-- Every row of a run whose announcements are near. -/
theorem run_lapses {is : List Step} (h : Along (World.step E) (NearTimeouts E) World.start is) :
    ∀ o ∈ (run (World.step E) World.start is).store.orders,
      Lapses (run (World.step E) World.start is).clock.val
        (run (World.step E) World.start is).clock o := by
  refine (invariant_of_along (I := fun w : World => (w.store.orders.map Order.id).Nodup ∧
    ∀ o ∈ w.store.orders, Lapses w.clock.val w.clock o) ?_ h
      ⟨List.nodup_nil, fun o ho => absurd ho List.not_mem_nil⟩).2
  rintro w i ⟨hids, hrows⟩ hnear
  exact ⟨(w.step_effects E i).ids hids, World.step_lapses hids hrows hnear⟩

theorem idle_run {id : OrderId} {P : World → Order → Prop} {w : World} {js : List Step}
    (hlater : ∀ w i o, P w o → P (w.step E i) o)
    (hsweep : ∀ w i o o', P w o → sweepOrder (w.timed i).now o = some o' → P (w.step E i) o')
    (hidle : Along (World.step E) (Idle E id) w js) (h : ∀ o ∈ w.store.orders, o.id = id → P w o) :
    ∀ o ∈ (run (World.step E) w js).store.orders, o.id = id → P (run (World.step E) w js) o := by
  refine invariant_of_along (I := fun w : World => ∀ o ∈ w.store.orders, o.id = id →
    P w o) ?_ hidle h
  intro w i hrows hstep o' ho' hid
  obtain ⟨o, ho, hsame, rfl | hswept⟩ := hstep o' ho' hid
  · exact hlater w i o' (hrows o' ho hsame)
  · exact hsweep w i o o' (hrows o ho hsame) hswept

theorem step_listOpen {w : World} {i : Step} (h : i.call = .listOpen) :
    (w.step E i).store.orders = sweepAll (w.timed i).now w.store.orders := by
  unfold World.step Book.step
  rw [show (w.timed i).call = .listOpen from h]
  rfl

theorem idle_listOpen {w : World} {i : Step} (id : OrderId) (h : i.call = .listOpen) :
    Idle E id w i := by
  intro o' ho' hid
  rw [step_listOpen h] at ho'
  obtain ⟨o, ho, hswept⟩ := mem_sweepAll.mp ho'
  exact ⟨o, ho, (sweepOrder_id hswept).symm.trans hid, Or.inr hswept⟩

/-- In a run whose announcements are near, a row that receives nothing more is gone after two reads
of the book, one past the terms that it can have and one an hour later. -/
theorem row_removed (E : Crypto) (is before between rest : List Step) (read again : Step)
    (id : OrderId)
    (hnear : Along (World.step E) (NearTimeouts E) World.start is)
    (hidle : Along (World.step E) (Idle E id) (run (World.step E) World.start is)
      (before ++ [read] ++ between ++ [again] ++ rest))
    (hread : read.call = .listOpen) (hagain : again.call = .listOpen)
    (hpast : (run (World.step E) World.start is).clock.val + retainedForS <
      (run (World.step E) World.start (is ++ before ++ [read])).clock.val)
    (hlater : (run (World.step E) World.start (is ++ before ++ [read])).clock.val + cancelledTtlS <
      (run (World.step E) World.start (is ++ before ++ [read] ++ between ++ [again])).clock.val) :
    ∀ x ∈ (run (World.step E) World.start (is ++ before ++ [read] ++ between ++ [again] ++
      rest)).store.orders,
      x.id ≠ id := by
  have hlapses := run_lapses hnear
  rw [along_append, along_append, along_append, along_append] at hidle
  obtain ⟨⟨⟨⟨hbefore, -⟩, hbetween⟩, -⟩, hrest⟩ := hidle
  simp only [run_append, run_cons, run_nil] at hpast hlater hbetween hrest ⊢
  set w := run (World.step E) World.start is
  -- before the first read the row only comes closer to its end
  have hfirst : ∀ x ∈ (run (World.step E) w before).store.orders, x.id = id →
      Lapses w.clock.val (run (World.step E) w before).clock x := by
    refine idle_run (P := fun w' x => Lapses w.clock.val w'.clock x) ?_ ?_ hbefore fun x hx _ =>
      hlapses x hx
    · intro w' i x h
      exact h.later (Nat.le_refl _) (w'.clock_le_timed i)
    · intro w' i x x' h hsweep
      exact (h.later (Nat.le_refl _) (w'.clock_le_timed i)).sweep hsweep
  set w₁ := run (World.step E) w before
  have hending :
    ∀ x ∈ (w₁.step E read).store.orders, x.id = id → Ending (w₁.step E read).clock.val x := by
    intro x hx hid
    rw [step_listOpen hread] at hx
    obtain ⟨y, hy, hswept⟩ := mem_sweepAll.mp hx
    have hsame : y.id = id := (sweepOrder_id hswept).symm.trans hid
    exact ((hfirst y hy hsame).later (Nat.le_refl _) (w₁.clock_le_timed read)).ending hpast hswept
  set w₂ := w₁.step E read
  have hkept : ∀ x ∈ (run (World.step E) w₂ between).store.orders, x.id = id →
    Ending w₂.clock.val x :=
    idle_run (P := fun _ x => Ending w₂.clock.val x) (fun _ _ _ h => h)
      (fun _ _ _ _ h hsweep => h.sweep hsweep)
      hbetween hending
  set w₃ := run (World.step E) w₂ between
  have hgone : ∀ x ∈ (w₃.step E again).store.orders, x.id = id → False := by
    intro x hx hid
    rw [step_listOpen hagain] at hx
    obtain ⟨y, hy, hswept⟩ := mem_sweepAll.mp hx
    have hsame : y.id = id := (sweepOrder_id hswept).symm.trans hid
    have hnone : sweepOrder (w₃.timed again).now y = none := (hkept y hy hsame).swept hlater
    rw [hnone] at hswept
    cases hswept
  exact idle_run (P := fun _ _ => False) (fun _ _ _ h => h) (fun _ _ _ _ h _ => h) hrest hgone

end Runs

def readAt (now : SafeInt) : Step := ⟨now, sampleRandom 'a' rfl, .listOpen⟩

/-- A swap whose initiator timeout comes within the longest window. -/
def nearSwap : List Step := sampleSwap sampleHashlock 1020000 1003600

theorem nearSwap_near :
    Along (World.step flatCrypto) (NearTimeouts flatCrypto) World.start nearSwap := by
  refine ⟨fun _ o ho => absurd ho List.not_mem_nil, fun _ o _ => ?_, fun _ o _ => ?_, trivial⟩
  · intro id body t1 hcall
    cases hcall
  · intro id body t1 hcall _ _ _ htimeout
    cases hcall
    have hsigned : asInteger ((sampleAnnouncement sampleHashlock 1020000 1003600).get
        "initiatorTimeout") = some 1020000 := by decide +kernel
    rw [hsigned] at htimeout
    cases htimeout
    decide

set_option maxRecDepth 10000 in
/-- A swap that is announced and never filled is there, and gone after a week. -/
theorem row_removed_listing :
    (run (World.step flatCrypto) World.start nearSwap).store.orders.map
      (fun o => (o.id, o.status, o.initiatorTimeout)) =
        [((sampleRandom 'a' rfl).orderId, .locking, some 1020000)] ∧
    ∀ x ∈ (run (World.step flatCrypto) World.start
      (nearSwap ++ [] ++ [readAt ⟨1500000, by decide⟩] ++ [] ++ [readAt ⟨1600000, by decide⟩] ++
        [])).store.orders,
      x.id ≠ (sampleRandom 'a' rfl).orderId := by
  refine ⟨by decide +kernel, ?_⟩
  refine row_removed flatCrypto nearSwap [] [] [] (readAt ⟨1500000, by decide⟩)
    (readAt ⟨1600000, by decide⟩)
    (sampleRandom 'a' rfl).orderId nearSwap_near ?_ rfl rfl ?_ ?_
  · exact ⟨idle_listOpen _ rfl, idle_listOpen _ rfl, trivial⟩
  · decide
  · decide

/-! ## A timeout of the maker's own -/

/-- A swap whose initiator timeout is past what a clock can show. -/
def farSwap : List Step := sampleSwap sampleHashlock (2 ^ 60) 1003600

set_option maxRecDepth 10000 in
theorem farSwap_row : (run (World.step flatCrypto) World.start farSwap).store.orders.map
    (fun o => (o.status, o.initiatorTimeout)) = [(.locking, some (2 ^ 60))] := by
  decide +kernel

theorem pinned_reads {E : Crypto} {w : World} {reads : List Step}
    (hreads : ∀ i ∈ reads, i.call = .listOpen)
    {t1 : Int} (hfar : (maxSafeInteger : Int) ≤ t1)
    (h : ∃ o ∈ w.store.orders, o.status = .locking ∧ o.initiatorTimeout = some t1) :
    ∃ o ∈ (run (World.step E) w reads).store.orders, o.status = .locking ∧
    o.initiatorTimeout = some t1 := by
  induction reads generalizing w with
  | nil => exact h
  | cons i reads ih =>
    rw [List.forall_mem_cons] at hreads
    obtain ⟨o, ho, hlocking, ht1⟩ := h
    refine ih hreads.2 ⟨dropStaleIntents (w.timed i).now o, ?_, hlocking, ht1⟩
    rw [step_listOpen hreads.1]
    refine mem_sweepAll.mpr ⟨o, ho, locking_kept hlocking ht1 ?_⟩
    have hsafe := (w.timed i).now.property
    omega

/-- A listing, a take and an announcement pin the row: no read of the book, at any time, removes
it. -/
theorem farSwap_pinned :
    (run (World.step flatCrypto) World.start farSwap).store.orders.length = 1 ∧
    ∀ reads : List Step, (∀ i ∈ reads, i.call = .listOpen) →
      ∃ o ∈ (run (World.step flatCrypto) World.start (farSwap ++ reads)).store.orders,
        o.status = .locking := by
  have hone : (run (World.step flatCrypto) World.start farSwap).store.orders.length = 1 := by
    rw [← List.length_map (fun o : Order => (o.status, o.initiatorTimeout)), farSwap_row]
    rfl
  refine ⟨hone, ?_⟩
  intro reads hreads
  obtain ⟨o, hrow, hpair⟩ := List.map_eq_singleton_iff.mp farSwap_row
  rw [Prod.mk.injEq] at hpair
  obtain ⟨x, hx, hlocking, -⟩ := pinned_reads (E := flatCrypto) hreads
    (by decide : (maxSafeInteger : Int) ≤ 2 ^ 60) ⟨o,
      by rw [hrow]; exact List.mem_singleton_self o, hpair⟩
  rw [run_append]
  exact ⟨x, hx, hlocking⟩

end QuantaSwap.Book
