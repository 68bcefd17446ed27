import QuantaSwap.Maker.Play

/-!
# Dropping a record

A record that the daemon drops has no money left on the chains that only it could get back. What is
left may be a payout that was credited: such a credit is recorded first where the last attempt to
withdraw it came late enough, and not otherwise.
-/

set_option autoImplicit false
set_option linter.unusedSectionVars false

open Lib Lib.Evm Lib.Program QuantaSwap.Htlc QuantaSwap.Htlc.V3

namespace QuantaSwap.Maker.Daemon

section

variable {A B : Type} [DecidableEq A] [DecidableEq B] [Zero A] [Zero B] {cfg : Config A B}
  {w w' w₀ : World A B} {id : String} {m m' : ManagedOrder A B}

/-! ## Money that only the record can get back -/

/-- Of the order `id`: no escrow of the maker's is open, no lock that was sent can still be placed,
and no escrow is open that pays the maker for a secret that is out. -/
structure Clear (cfg : Config A B) (id : String) (w : World A B) : Prop where
  own : ∀ p l, (id, p) ∈ w.secrets → (w.swap l (cfg.sha256 p)).status = .Open →
    (w.swap l (cfg.sha256 p)).initiator ≠ cfg.myAddress l
  locks : ∀ l call value args, (id, l, Tx.htlc call, value) ∈ w.sent →
    lockArgs value call = some args → (w.swap l args.1).status ≠ .None
  payable : ∀ p l, (id, p) ∈ w.secrets → p ∈ w.published →
    (w.swap l (cfg.sha256 p)).status = .Open →
      (w.swap l (cfg.sha256 p)).recipient ≠ cfg.myAddress l

theorem Sound.own_lock (hs : Sound cfg w) (he : Entry cfg w id m) {p : B} {l : LegKey}
    (hp : (id, p) ∈ w.secrets) (ho : (w.swap l (cfg.sha256 p)).status = .Open)
    (hi : (w.swap l (cfg.sha256 p)).initiator = cfg.myAddress l) :
    m.lockSentAt.isSome = true ∧ l = initiatorLeg m.direction ∧
      m.hashlock = some (cfg.sha256 p) := by
  obtain ⟨id', call, value, args, hsent, hargs, hk⟩ :=
    hs.ledger.own _ _ l hp (by simp [ho]) hi
  obtain ⟨p', hp', hsha⟩ := hs.ledger.locks _ _ _ _ _ hsent hargs
  obtain ⟨rfl, -⟩ := hs.ledger.distinct _ _ _ _ hp' hp (hsha.trans hk)
  obtain ⟨hl, hleg, hhash⟩ := he.sent l call value args hsent hargs
  exact ⟨hl, hleg, hk ▸ hhash⟩

theorem clear_of_unsent (hs : Sound cfg w) (he : Entry cfg w id m) (hl : m.lockSentAt = none)
    (hp : ∀ p, (id, p) ∈ w.secrets → p ∉ w.published) : Clear cfg id w := by
  refine ⟨fun p l hmem ho hi => ?_, fun l call value args hsent hargs => ?_,
    fun p l hmem hpub => absurd hpub (hp p hmem)⟩
  · have := (hs.own_lock he hmem ho hi).1
    simp [hl] at this
  · have := (he.sent l call value args hsent hargs).1
    simp [hl] at this

theorem Sound.secret_out (hs : Sound cfg w) (he : Entry cfg w id m) {p : B}
    (hp : (id, p) ∈ w.secrets) (hpub : p ∈ w.published) : m.hashlock = some (cfg.sha256 p) :=
  (he.known p hp (hs.ledger.published p hpub)).1

theorem clear_of_unfilled (hs : Sound cfg w) (he : Entry cfg w id m)
    (hp : m.protocol.isSome = true) (hf : m.fillProof = none) : Clear cfg id w := by
  refine clear_of_unsent hs he ?_ fun p hmem hpub => ?_
  · by_contra hne
    have := he.locked (Option.isSome_iff_ne_none.mpr hne) hp
    simp [hf] at this
  · exact he.undisclosed hp hf hmem (hs.ledger.published p hpub)

theorem clear_of_terminal {k : B} (hs : Sound cfg w) (he : Entry cfg w id m) (hid : m.id = id)
    (hk : m.hashlock = some k) (hi : terminal (w.swap (initiatorLeg m.direction) k) = true)
    (hr : terminal (w.swap (responderLeg m.direction) k) = true ∨ Secret cfg w m) :
    Clear cfg id w := by
  have hopen : ∀ s : LegState A B, terminal s = true → s.status ≠ .Open := by
    intro s ht ho
    simp [terminal, ho] at ht
  refine ⟨fun p l hmem ho hmine => ?_, fun l call value args hsent hargs => ?_,
    fun p l hmem hpub ho => ?_⟩
  · obtain ⟨-, rfl, hhash⟩ := hs.own_lock he hmem ho hmine
    obtain rfl : k = cfg.sha256 p := Option.some.inj (hk.symm.trans hhash)
    exact absurd ho (hopen _ hi)
  · obtain ⟨-, rfl, hhash⟩ := he.sent l call value args hsent hargs
    obtain rfl : k = args.1 := Option.some.inj (hk.symm.trans hhash)
    intro hnone
    simp [terminal, hnone] at hi
  · obtain rfl : k = cfg.sha256 p := Option.some.inj (hk.symm.trans (hs.secret_out he hmem hpub))
    obtain hr | hsecret := hr
    · have hleg : l = initiatorLeg m.direction ∨ l = responderLeg m.direction := by
        cases m.direction <;> cases l <;> decide
      obtain rfl | rfl := hleg
      · exact absurd ho (hopen _ hi)
      · exact absurd ho (hopen _ hr)
    · exact absurd hpub (hsecret _ p hk rfl (hid ▸ hmem))

theorem quote_unfilled {now : Int} (h : m.canRetireExpiredUnfundedQuote now = true) :
    m.protocol.isSome = true ∧ m.fillProof = none := by
  unfold ManagedOrder.canRetireExpiredUnfundedQuote at h
  simp only [Bool.and_eq_true, and_assoc, Option.any_eq_true] at h
  obtain ⟨⟨p, hp, hq⟩, -⟩ := h
  refine ⟨by simp [hp], ?_⟩
  rw [fillProof_of_protocol hp]
  exact Option.isNone_iff_eq_none.mp hq.2.2.1

/-- **The maker never drops an order with recoverable money.** Whenever a record is about to be
deleted, by `finish` or `abort`, by early retirement or at its expiry, its order is clear; and so is
that of a signed listing whatever the reason. -/
theorem retires_clear {why : Retire} {k : Except Err Unit → Program (Req A B) Unit}
    (h₀ : Start cfg w₀) (h : Reaches cfg w₀ (some (.ask (.delete id why) k)) w)
    (hwhy : why = .finish ∨ why = .abort ∨ why = .quoteExpired ∨ why = .expired ∨
      ∃ m, w.disk.get id = some m ∧ m.protocol.isSome = true) : Clear cfg id w := by
  obtain ⟨hs, m, hm, hretires⟩ := reaches_guard h₀ h
  have he := (hs.entry id m hm).2
  have hid := StateFile.get_id hm
  have hsigned : m.protocol.isSome = true → m.fillProof = none → Clear cfg id w :=
    clear_of_unfilled hs he
  cases hretires with
  | @quoteExpired now hq =>
    obtain ⟨hp, hf⟩ := quote_unfilled hq
    exact hsigned hp hf
  | @expired p hp hf hc hl => exact hsigned (by simp [hp]) hf
  | cancelled hc =>
    have hf : m.fillProof = none := by
      by_contra hne
      obtain ⟨proof, hproof⟩ := Option.ne_none_iff_exists'.mp hne
      simp [(he.fill proof hproof).1] at hc
    refine hsigned ?_ hf
    unfold ManagedOrder.cancelProof at hc
    cases hp : m.protocol with
    | none => simp [hp] at hc
    | some p => rfl
  | drained hf | repriced hf | nearExpiry hf =>
    obtain h | h | h | h | ⟨m', hm', hp⟩ := hwhy
    · cases h
    · cases h
    · cases h
    · cases h
    · obtain rfl : m = m' := Option.some.inj (hm.symm.trans hm')
      exact hsigned hp hf
  | @finish k hk hi hr hcredits => exact clear_of_terminal hs he hid hk hi hr
  | abort hl hsecret hcredits =>
    refine clear_of_unsent hs he hl fun p hmem hpub => ?_
    exact hsecret _ p (hs.secret_out he hmem hpub) rfl (hid ▸ hmem) hpub

/-! ## Credits that were given up -/

/-- A past attempt to withdraw that was made when the credit was parked already left it recorded. -/
def Recorded (cfg : Config A B) (w : World A B) : Prop :=
  ∀ id t, w.tried id = some t → t.current = false → ∀ m, w.disk.get id = some m →
    withdrawParked m.decision t.sentAt = true →
      w.OnRecord (t.leg, cfg.legToken t.leg m.asset, cfg.myAddress t.leg)

theorem withdrawParked_congr (ha : m'.withdrawAttempts = m.withdrawAttempts)
    (hf : m'.withdrawFirstRejectedAt = m.withdrawFirstRejectedAt) (now : Int) :
    withdrawParked m'.decision now = withdrawParked m.decision now := by
  unfold withdrawParked ManagedOrder.decision
  rw [ha, hf]

theorem Change.counted (h : Change cfg w m m') : m'.id = m.id ∧ m'.asset = m.asset ∧
    ((m'.withdrawAttempts = m.withdrawAttempts ∧
      m'.withdrawFirstRejectedAt = m.withdrawFirstRejectedAt) ∨
    ∀ t, w.tried m.id = some t → t.current = true) := by
  cases h with
  | withdrawRejected ht => exact ⟨rfl, rfl, .inr ht⟩
  | _ => exact ⟨rfl, rfl, .inl ⟨rfl, rfl⟩⟩

theorem New.unparked (h : New cfg w m) (now : Int) : withdrawParked m.decision now = false := by
  obtain ⟨_, _, _, _, _, _, _, _, -, -, -, -, -, hm⟩ := h.pending
  rw [hm]
  simp [withdrawParked, parked, ManagedOrder.decision, pendingOrder, MAX_CREDIT_ATTEMPTS]

theorem Wrote.past {f : StateFile A B} {d : String → Option (ManagedOrder A B)}
    {r : Except Err Unit} (h : Wrote w f d r w') {id : String} {t : Withdrawal}
    (ht : w'.tried id = some t) : w.tried id = some t := by
  cases r with
  | ok _ =>
    rw [← (h.ok rfl).2.1]
    exact ht
  | error e =>
    rw [(h.error e rfl).2] at ht
    change (w.tried id).filter _ = some t at ht
    exact (Option.filter_eq_some_iff.mp ht).1

theorem Recorded.wrote (h : Recorded cfg w) {f : StateFile A B}
    {d : String → Option (ManagedOrder A B)} {r : Except Err Unit} (hw : Wrote w f d r w')
    (hd : ∀ id n t, d id = some n → w.tried id = some t → t.current = false →
      withdrawParked n.decision t.sentAt = true →
        ∃ n₀, w.disk.get id = some n₀ ∧ withdrawParked n₀.decision t.sentAt = true ∧
          n.asset = n₀.asset) : Recorded cfg w' := by
  intro id t ht hc n hn hp
  have hpast := hw.past ht
  refine hw.onRecord _ ?_
  obtain heq | heq := hw.disk id
  · exact h id t hpast hc n (heq ▸ hn) hp
  · obtain ⟨n₀, hn₀, hp₀, hasset⟩ := hd id n t (heq ▸ hn) hpast hc hp
    rw [hasset]
    exact h id t hpast hc n₀ hn₀ hp₀

theorem Recorded.same (h : Recorded cfg w) (htried : ∀ id t, w'.tried id = some t →
    t.current = false → w.tried id = some t) (hdisk : w'.disk = w.disk)
    (hemptied : w.emptied ⊆ w'.emptied) : Recorded cfg w' := by
  intro id t ht hc n hn hp
  rw [hdisk] at hn
  exact (h id t (htried id t ht hc) hc n hn hp).same hdisk hemptied

theorem interrupted_past {id : String} {t : Withdrawal} (h : w.interrupted.tried id = some t) :
    w.tried id = some t := by
  change (w.tried id).filter _ = some t at h
  exact (Option.filter_eq_some_iff.mp h).1

theorem Recorded.settled (h : Recorded cfg w) (hf : FollowedUp cfg w)
    (hclock : ∀ s t, cfg.ticks s t → s ≤ t) : Recorded cfg w.settled := by
  intro id t ht _ n hn hp
  change (w.tried id).map _ = some t at ht
  obtain ⟨t', ht', rfl⟩ := Option.map_eq_some_iff.mp ht
  cases hcur : t'.current with
  | true => exact hf hclock id t' ht' hcur n hn hp
  | false => exact h id t' ht' hcur n hn hp

theorem Recorded.operate {β : Type} {r : Req A B β} {b : β} (hclock : ∀ s t, cfg.ticks s t → s ≤ t)
    (hs : Sound cfg w) (h : Recorded cfg w) (hg : Guard cfg w r) (ho : operate cfg w r b w') :
    Recorded cfg w' := by
  cases r with
  | all =>
    obtain ⟨-, rfl⟩ := ho
    exact h.settled hg hclock
  | get id =>
    obtain ⟨-, rfl⟩ := ho
    exact h.settled hg hclock
  | upsert m =>
    refine h.wrote (upsert_wrote hs.files ho) fun id n t hn ht hc hp => ?_
    split at hn
    · rename_i hid
      cases hn
      obtain hnew | ⟨m₀, hm₀, hchange⟩ := hg
      · simp [hnew.unparked] at hp
      -- An attempt that is not counted changes nothing that parks; a counted one is no longer
      -- tried.
      · obtain ⟨hid', hasset, ⟨ha, hf⟩ | hcounted⟩ := hchange.counted
        · exact ⟨m₀, hid ▸ hm₀, by rw [← withdrawParked_congr ha hf]; exact hp, hasset⟩
        · have := hcounted t (by rw [← hid', hid]; exact ht)
          simp [hc] at this
    · exact ⟨n, hn, hp, rfl⟩
  | delete id why =>
    refine h.wrote (delete_wrote hs.files ho) fun id' n t hn _ _ hp => ?_
    split at hn
    · cases hn
    · exact ⟨n, hn, hp, rfl⟩
  | recordStrandedCredit e =>
    obtain ⟨rfl, -⟩ | ⟨-, rfl, hrecord, -⟩ | ⟨hw, -⟩ := record_cases hs.files ho
    · exact h.same (fun _ _ ht _ => interrupted_past ht) rfl (List.Subset.refl _)
    · exact fun id t ht hc n hn hp => hrecord _ (h id t ht hc n hn hp)
    · exact h.wrote hw fun id n t hn _ _ hp => ⟨n, hn, hp, rfl⟩
  | clearStrandedCredit key =>
    change ite _ _ _ at ho
    split at ho
    · exact h.wrote (clear_wrote hs.files hg ho) fun id n t hn _ _ hp => ⟨n, hn, hp, rfl⟩
    · obtain ⟨-, rfl⟩ := ho
      exact h
  | send id l tx value =>
    obtain rfl : w' = _ := ho
    refine h.same (fun id' t ht hc => ?_) rfl (List.Subset.refl _)
    change (if id' = id ∧ tx.withdraws = true then _ else _) = some t at ht
    split at ht
    · split at ht
      · cases ht
        cases hc
      · cases ht
    · exact ht
  | observe id q =>
    obtain ⟨v, shown, henv, -, rfl⟩ := ho
    obtain ⟨is, rfl⟩ := Env.run henv
    exact h
  | mid | canAttempt | heartbeat | quote =>
    obtain rfl : w' = _ := ho
    exact h
  | now | signFill | signCancel | signOrder | strandedCredits | retainedAdmissionCount |
    createSigned
  | intents | cancel | allowance | preflight | post | announceHashlock =>
    obtain ⟨-, rfl⟩ := ho
    exact h
  | creditOf l token account =>
    obtain ⟨-, rfl⟩ := ho
    obtain ⟨-, -, hdisk, -, htried, hemptied⟩ := balanceRead_same w (l, token, account) b
    exact h.same (fun _ _ ht _ => htried ▸ ht) hdisk hemptied
  | newSecret id =>
    obtain ⟨-, -, -, rfl⟩ := ho
    exact h

theorem reaches_recorded {p : Option (Program (Req A B) Unit)} (h₀ : Start cfg w₀)
    (hclock : ∀ s t, cfg.ticks s t → s ≤ t) (h : Reaches cfg w₀ p w) : Recorded cfg w := by
  refine process_invariant (I := Sound cfg) (J := Recorded cfg) (c := (p, w))
    (fun hrun => reaches_guard h₀ hrun) (fun _ _ _ _ _ hs hj hg ho => hj.operate hclock hs hg ho)
    ?_ ?_ ?_ h
  · intro s s' henv hj
    obtain ⟨i, -, rfl⟩ := henv
    exact hj
  · intro s s' hcrash hj
    obtain ⟨t, -, rfl⟩ := hcrash
    exact hj.same (fun _ _ ht _ => interrupted_past ht) rfl (List.Subset.refl _)
  · intro id t ht
    rw [h₀.fresh] at ht
    cases ht

/-- The credit of the maker's on one leg of the order, as the last reads of the order showed it. -/
def World.shownOn (w : World A B) (m : ManagedOrder A B) (l : LegKey) : Nat :=
  if l = responderLeg m.direction then (w.shown m.id).1 else (w.shown m.id).2

/-- **When no stranded credit is forgotten.** When `finish` or `abort` deletes a record, every
credit that is shown stands in the file on disk, unless a read has found its ledger empty since it
was put there: if time only goes forward and, where the withdrawal is parked, every leg that shows a
credit is the one that the last attempt was made on, and that attempt failed, was made when the
withdrawal was parked already, and its pass was not cut short. -/
theorem retires_recorded {why : Retire} {k : Except Err Unit → Program (Req A B) Unit}
    (h₀ : Start cfg w₀) (hclock : ∀ s t, cfg.ticks s t → s ≤ t)
    (h : Reaches cfg w₀ (some (.ask (.delete id why) k)) w) (hwhy : why = .finish ∨ why = .abort)
    (hm : w.disk.get id = some m) (hk : m.hashlock.isSome = true)
    (hlast : withdrawParked m.decision w.clock = true → ∀ l, 0 < w.shownOn m l →
      ∃ sentAt, w.tried id = some ⟨l, sentAt, false⟩ ∧ withdrawParked m.decision sentAt = true) :
    ∀ l, 0 < w.shownOn m l → w.OnRecord (l, cfg.legToken l m.asset, cfg.myAddress l) := by
  obtain ⟨hs, m', hm', hretires⟩ := reaches_guard h₀ h
  obtain rfl : m = m' := Option.some.inj (hm.symm.trans hm')
  have hnothing : w.shown m.id = (0, 0) → ∀ l, ¬ 0 < w.shownOn m l := by
    intro hzero l
    unfold World.shownOn
    rw [hzero]
    split <;> simp
  intro l hl
  have hparked : withdrawParked m.decision w.clock = true ∨ w.shown m.id = (0, 0) := by
    cases hretires with
    | finish _ _ _ hcredits => exact hcredits
    | abort _ _ hcredits => exact .inr (hcredits hk)
    | _ => obtain h | h := hwhy <;> cases h
  obtain hparked | hzero := hparked
  · obtain ⟨sentAt, htried, hpast⟩ := hlast hparked l hl
    exact reaches_recorded h₀ hclock h id _ htried rfl m hm hpast
  · exact absurd hl (hnothing hzero l)

end

/-! ## A refund that could not be paid out -/

/-- An unsigned order, as older files hold them. -/
def legacy : ManagedOrder (Fin 4) (Fin 4) where
  id := "order"
  token := some "token"
  protocol := none
  direction := .ethToQrl
  asset := .ETH
  level := 0
  quotedMidMilli := none
  fromAmount := 9
  toAmount := 7
  preimage := none
  hashlock := none
  initiatorTimeout := none
  responderTimeout := none
  announcedAt := none
  takerEthAccount := none
  takerQrlAccount := none
  lockSentAt := none
  claimSentAt := none
  sponsorSentAt := none
  refundSentAt := none
  withdrawSentAt := none
  pushSentAt := none
  withdrawAttempts := some 0
  pushAttempts := some 0
  withdrawFirstRejectedAt := none
  pushFirstRejectedAt := none
  createdAt := 900

def legacyRow (status : OrderStatus) : OrderView (Fin 4) (Fin 4) where
  id := "order"
  direction := .ethToQrl
  asset := .ETH
  fromAmount := 9
  toAmount := 7
  makerEthAccount := 1
  makerQrlAccount := 1
  status := status
  takerEthAccount := some 2
  takerQrlAccount := some 2
  hashlock := none
  initiatorTimeout := none
  responderTimeout := none
  released := false
  visibility := .pub
  allowedTakerEth := none
  allowedTakerQrl := none
  prelocked := false
  makerAuth := none
  orderDigest := none
  fill := none
  fillAuth := none
  fillDigest := none
  selectedIntent := none
  cancelProof := none
  cancelAuth := none
  cancelDigest := none
  equivocated := false
  conflictDigests := []

/-- A tick in which the book is up and every withdrawal is refused. -/
def hour (time : Int) (status : OrderStatus) : Script (Fin 4) (Fin 4) where
  time := time
  attempts := false
  mid := none
  quote := none
  secret := 2
  nonce := 1
  signature := "0x01"
  row := some (legacyRow status)
  intents := []
  makerToken := "token"
  rejects := true

/-- The order is accepted and locked; nobody locks against it; its refund is credited to the
maker. -/
def unpaid : List (Scene desk) :=
  [.tick (hour 1000 .accepted), .tick (hour 1040 .locking),
    .move (.call1 (Msg.of 1 (.lockNative 3 2 15400) 9 ⟨true, .empty⟩) [] []),
    .move (.wait 14400),
    .move (.call1 (Msg.of 2 (.refund 3) 0 ⟨false, .empty⟩) [] []),
    .tick (hour 15500 .locking), .tick (hour 16500 .locking), .tick (hour 18000 .locking),
    .tick (hour 20500 .locking)]

def shop : World (Fin 4) (Fin 4) := opening ⟨[legacy], [], []⟩

theorem shop_start : Start desk shop :=
  opening_start (by decide) (by decide)

/-- The credit is on the chain, and the record at hand knows of it. -/
def owed (w : World (Fin 4) (Fin 4)) (m : ManagedOrder (Fin 4) (Fin 4)) : Bool :=
  decide (V3.creditOf 0 1 (w.leg .eth) = 9) && decide (w.shownOn m .eth = 9) &&
    decide (w.shownOn m .qrl = 0) && m.hashlock.isSome &&
    decide (("order", 2) ∈ w.secrets)

def forgets (w : World (Fin 4) (Fin 4)) : Bool :=
  (w.disk.get "order").any fun m => owed w m &&
    decide ((.eth, desk.legToken .eth m.asset,
      desk.myAddress .eth) ∉ w.disk.stranded.map StrandedCredit.key) &&
    decide (w.emptied = [])

def keeps (w : World (Fin 4) (Fin 4)) : Bool :=
  (w.disk.get "order").any fun m => owed w m &&
    decide (w.tried "order" = some ⟨.eth, 101900, false⟩) && withdrawParked m.decision 101900

/-- Five refusals within the day, and then nothing but time: the credit is owed and not recorded. -/
theorem retires_forgotten : ∃ w k m, Start desk shop ∧
    Reaches desk shop (some (.ask (.delete "order" .finish) k)) w ∧
    w.disk.get "order" = some m ∧ m.hashlock.isSome = true ∧ 0 < w.shownOn m .eth ∧
    ¬ w.OnRecord (.eth, desk.legToken .eth m.asset, desk.myAddress .eth) := by
  have hrun : ((stage (unpaid ++ [.tick (hour 24500 .locking)]) (hour 101900 .locking) 6 shop).any
      fun x => decide (x.1 = .delete "order" .finish) && forgets x.2) = true := by
    decide +kernel
  obtain ⟨w, hstage, hw⟩ := staged forgets hrun
  obtain ⟨k, hreach⟩ := stage_delete desk_ticks hstage
  rw [forgets, Option.any_eq_true] at hw
  obtain ⟨m, hm, hw⟩ := hw
  simp only [owed, Bool.and_eq_true, decide_eq_true_eq] at hw
  obtain ⟨⟨⟨⟨⟨⟨-, hshown⟩, -⟩, hk⟩, -⟩, hdisk⟩, hemptied⟩ := hw
  refine ⟨w, k, m, shop_start, hreach, hm, hk, by omega, ?_⟩
  rintro (hstranded | hempty)
  · exact hdisk hstranded
  · rw [hemptied] at hempty
    exact absurd hempty List.not_mem_nil

theorem unpaid_run : ((stage (unpaid ++ [.tick (hour 101900 .locking)]) (hour 102000 .locking) 6
    shop).any fun x => decide (x.1 = .delete "order" .finish) && keeps x.2) = true := by
  decide +kernel

theorem retires_recorded_unpaid : ∃ (w : World (Fin 4) (Fin 4)) (m : ManagedOrder (Fin 4) (Fin 4)),
    w.disk.get "order" = some m ∧ V3.creditOf 0 1 (w.leg .eth) = 9 ∧ 0 < w.shownOn m .eth ∧
      (∀ l, 0 < w.shownOn m l → w.OnRecord (l, desk.legToken l m.asset, desk.myAddress l)) := by
  obtain ⟨w, hstage, hw⟩ := staged keeps unpaid_run
  obtain ⟨k, hreach⟩ := stage_delete desk_ticks hstage
  rw [keeps, Option.any_eq_true] at hw
  obtain ⟨m, hm, hw⟩ := hw
  simp only [owed, Bool.and_eq_true, decide_eq_true_eq] at hw
  obtain ⟨⟨⟨⟨⟨⟨hcredit, hshown⟩, hqrl⟩, hk⟩, -⟩, htried⟩, hparked⟩ := hw
  refine ⟨w, m, hm, hcredit, by omega,
    retires_recorded shop_start (fun _ _ h => h) hreach (.inl rfl) hm hk ?_⟩
  intro _ l hl
  cases l with
  | eth => exact ⟨101900, htried, hparked⟩
  | qrl => omega

theorem retires_clear_unpaid : ∃ w : World (Fin 4) (Fin 4),
    ("order", 2) ∈ w.secrets ∧ Clear desk "order" w := by
  obtain ⟨w, hstage, hw⟩ := staged keeps unpaid_run
  obtain ⟨k, hreach⟩ := stage_delete desk_ticks hstage
  rw [keeps, Option.any_eq_true] at hw
  obtain ⟨m, -, hw⟩ := hw
  simp only [owed, Bool.and_eq_true, decide_eq_true_eq] at hw
  exact ⟨w, hw.1.1.2, retires_clear shop_start hreach (.inl rfl)⟩

end QuantaSwap.Maker.Daemon
