import QuantaSwap.Maker.Publish

/-!
# What a pass reads and does on the chains

The reads of a pass still hold of the chains when it acts on them; with that, each action keeps to
what is allowed.
-/

set_option autoImplicit false
set_option linter.unusedSectionVars false

open Lib Lib.Evm Lib.Program QuantaSwap.Htlc QuantaSwap.Htlc.V3

namespace QuantaSwap.Maker.Daemon

section

variable {A B : Type} [DecidableEq A] [DecidableEq B] [Zero A] [Zero B] {cfg : Config A B}
  {d : String → Option (ManagedOrder A B)} {m m' : ManagedOrder A B} {w w' : World A B}

/-! ## Reading the chains -/

/-- What the reads of a pass say of the chains now. -/
structure Facts (cfg : Config A B) (m : ManagedOrder A B) (r : Reads A B) (w : World A B) :
    Prop where
  iState : ∀ s, r.iState = some s → ∃ k, m.hashlock = some k ∧
    Extends s (w.swap (initiatorLeg m.direction) k) ∧ (s.status = .None → Secret cfg w m)
  rState : ∀ s, r.rState = some s → ∃ k, m.hashlock = some k ∧
    Extends s (w.swap (responderLeg m.direction) k) ∧ (s.status = .None → Secret cfg w m)
  rConfirmed : ∀ s, r.rConfirmed = some s → ∃ k, m.hashlock = some k ∧
    Extends s (w.swap (responderLeg m.direction) k)
  credits : m.hashlock.isSome = true →
    (∀ n, r.ourResponderCredit = some n → n = (w.shown m.id).1) ∧
      ∀ n, r.ourInitiatorCredit = some n → n = (w.shown m.id).2
  idle : m.hashlock.isSome = true → m.lockSentAt = none → Secret cfg w m → w.shown m.id = (0, 0)

theorem Secret.later (h : Secret cfg w m) (hl : Later cfg w w') : Secret cfg w' m := by
  intro k p hk hp hmem
  rw [hl.secrets] at hmem
  rw [hl.published]
  exact h k p hk hp hmem

theorem Secret.earlier (h : Secret cfg w' m) (hl : Later cfg w w') : Secret cfg w m := by
  intro k p hk hp hmem
  rw [← hl.published]
  exact h k p hk hp (hl.secrets ▸ hmem)

theorem Facts.later {r : Reads A B} (h : Facts cfg m r w) (hl : Later cfg w w') :
    Facts cfg m r w' := by
  refine ⟨?_, ?_, ?_, ?_, ?_⟩
  · intro s hs
    obtain ⟨k, hk, hx, hsecret⟩ := h.iState s hs
    exact ⟨k, hk, hx.trans (hl.extends _ k), fun hn => (hsecret hn).later hl⟩
  · intro s hs
    obtain ⟨k, hk, hx, hsecret⟩ := h.rState s hs
    exact ⟨k, hk, hx.trans (hl.extends _ k), fun hn => (hsecret hn).later hl⟩
  · intro s hs
    obtain ⟨k, hk, hx⟩ := h.rConfirmed s hs
    exact ⟨k, hk, hx.trans (hl.extends _ k)⟩
  · rw [hl.shown]
    exact h.credits
  · rw [hl.shown]
    exact fun hk hlock hs => h.idle hk hlock (hs.earlier hl)

theorem Facts.congr {r : Reads A B} (h : Facts cfg m r w) (hid : m'.id = m.id)
    (hk : m'.hashlock = m.hashlock) (hd : m'.direction = m.direction)
    (hl : m'.lockSentAt = m.lockSentAt) : Facts cfg m' r w := by
  have hsecret : Secret cfg w m' ↔ Secret cfg w m := by
    unfold Secret
    rw [hk, hid]
  refine ⟨?_, ?_, ?_, ?_, ?_⟩
  · rw [hk, hd]
    simpa only [hsecret] using h.iState
  · rw [hk, hd]
    simpa only [hsecret] using h.rState
  · rw [hk, hd]
    exact h.rConfirmed
  · rw [hk, hid]
    exact h.credits
  · rw [hk, hl, hid, hsecret]
    exact h.idle

theorem reachable_leg (hs : Sound cfg w) (l : LegKey) (k : B) :
    V3.Reachable (cfg.deployment l) (w.leg l) := by
  have := hs.ledger.reach.sound k
  cases l with
  | eth => exact this.reach₁
  | qrl => exact this.reach₂

theorem creditOf_idle {l : LegKey} {token : A} {k : B} (hs : Sound cfg w)
    (he : Entry cfg w m.id m) (hk : m.hashlock = some k) (hl : m.lockSentAt = none)
    (hsecret : Secret cfg w m) : Taker.creditOf token (cfg.myAddress l) k (w.leg l) = 0 := by
  obtain ⟨p, -, hp, rfl⟩ := he.secret k hk
  refine Taker.creditOf_eq_zero (reachable_leg hs l (cfg.sha256 p)) fun amount hmem => ?_
  have hunclaimed := hs.ledger.unclaimed _ _ hp (hsecret _ p hk rfl hp) l
  change (token, cfg.myAddress l, amount) ∈ due (w.swap l (cfg.sha256 p)) at hmem
  unfold due at hmem
  cases hstatus : (w.swap l (cfg.sha256 p)).status with
  | None | Open => simp [hstatus] at hmem
  | Claimed => exact hunclaimed hstatus
  | Refunded =>
    simp only [hstatus, List.mem_singleton, Prod.mk.injEq] at hmem
    obtain ⟨id', call, value, args, hsent, hargs, hargk⟩ :=
      hs.ledger.own _ _ l hp (by simp [hstatus]) hmem.2.1.symm
    obtain ⟨p', hp', hsha⟩ := hs.ledger.locks _ _ _ _ _ hsent hargs
    obtain ⟨rfl, -⟩ := hs.ledger.distinct _ _ _ _ hp' hp (hsha.trans hargk)
    have := (he.sent l call value args hsent hargs).1
    simp [hl] at this

theorem keeps_readChains (hh : Here cfg d m w) :
    Keeps cfg (fun r w' => Here cfg d m w' ∧ Facts cfg m r w') (fun _ _ => False) (readChains cfg m)
      w := by
  unfold readChains
  split
  · rename_i hk
    refine (keeps_pure _).mpr ⟨hh, ?_, ?_, ?_, ?_, ?_⟩
    · exact fun s hs => by cases hs
    · exact fun s hs => by cases hs
    · exact fun s hs => by cases hs
    · exact fun h => by simp [hk] at h
    · exact fun h => by simp [hk] at h
  · rename_i k hk
    refine keeps_demand hh.sound (fun _ _ _ => trivial) ?_
    rintro t r w' hm hst ⟨v, shown, henv, hobs, rfl⟩ hs'
    have ht := hh.moved hm hst
    have hbetween : ∀ u, Between cfg t u v → Sound cfg u ∧ Later cfg u v ∧ Later cfg t u := by
      rintro u ⟨h₁, h₂⟩
      have hsu := hst.envs h₁
      exact ⟨hsu, Moved.later (Env.run h₂), Moved.later (Env.run h₁)⟩
    -- A published secret has its swap on both legs, so an empty leg shows that it is unknown.
    have hnone : ∀ u l, Between cfg t u v → (u.swap l k).status = .None → Secret cfg v m := by
      intro u l hu hn
      obtain ⟨hsu, huv, -⟩ := hbetween u hu
      refine Secret.later ?_ huv
      intro k' p hk' hp hmem hpub
      rw [hk] at hk'
      cases hk'
      subst hp
      exact hsu.ledger.placed _ _ hmem hpub l hn
    have hv : Here cfg d m v := ht.moved (Env.run henv) (hst.envs henv)
    refine ⟨hv.same hs' rfl rfl (List.Subset.refl _), ?_, ?_, ?_, ?_, ?_⟩
    · intro s hs
      obtain ⟨u, hu, rfl⟩ := hobs.iState s hs
      exact ⟨k, hk, (hbetween u hu).2.1.extends _ k, fun hn => hnone u _ hu hn⟩
    · intro s hs
      obtain ⟨u, hu, rfl⟩ := hobs.rState s hs
      exact ⟨k, hk, (hbetween u hu).2.1.extends _ k, fun hn => hnone u _ hu hn⟩
    · intro s hs
      obtain ⟨u, old, is, hu, -, hrun, rfl⟩ := hobs.rConfirmed s hs
      refine ⟨k, hk, Extends.trans ?_ ((hbetween u hu).2.1.extends _ k)⟩
      have hx := run_extends_swap { u with legs := old } is (responderLeg m.direction) k
      have hback : ({ u with legs := Lib.Run.run (Legs.step cfg.toTwoChains) old is } : World A B) =
          u := by rw [hrun]
      rw [hback] at hx
      exact hx
    · intro _
      simpa using hobs.truthful
    -- Without a lock and with a hidden secret nothing was credited under the hashlock.
    · intro _ hl (hsecret : Secret cfg v m)
      have hzero : ∀ u l token, Between cfg t u v →
          Taker.creditOf token (cfg.myAddress l) k (u.leg l) = 0 := by
        intro u l token hu
        obtain ⟨hsu, huv, htu⟩ := hbetween u hu
        have hu' : Here cfg d m u := ht.moved (Env.run hu.1) hsu
        exact creditOf_idle hsu hu'.entry hk hl (Secret.earlier hsecret huv)
      obtain ⟨u₁, hu₁, h₁⟩ := hobs.ourResponderCredit
      obtain ⟨u₂, hu₂, h₂⟩ := hobs.ourInitiatorCredit
      have h₁ : shown.1 = 0 := h₁.trans (hzero u₁ _ _ hu₁)
      have h₂ : shown.2 = 0 := h₂.trans (hzero u₂ _ _ hu₂)
      simp only [if_true]
      exact Prod.ext h₁ h₂

/-! ## Announcing -/

theorem keeps_persistSecret (hh : Here cfg d m w) (hp : m.protocol = none) :
    Keeps cfg (fun r w' => Here cfg d r.1 w' ∧ r.1.id = m.id ∧ r.1.protocol = none ∧
        r.1.hashlock = some r.2)
      (fun _ w' => Left cfg d m.id w') (persistSecret cfg m) w := by
  unfold persistSecret
  split
  · rename_i preimage k hpre hk
    exact (keeps_pure _).mpr ⟨hh, rfl, hp, hk⟩
  · rename_i hnot
    -- A record with a hashlock has its preimage too.
    have hk : m.hashlock = none := by
      cases hk : m.hashlock with
      | none => rfl
      | some k =>
        obtain ⟨preimage, hpre, -⟩ := hh.entry.secret k hk
        exact absurd hk (hnot preimage k hpre)
    refine keeps_bind (R := fun secret w' => Here cfg d m w' ∧ (m.id, secret) ∈ w'.secrets)
      (keeps_newSecret hh fun _ _ h hmem _ _ => ⟨h, hmem⟩) ?_
    rintro secret w₁ ⟨hh₁, hmem⟩
    refine keeps_bind (R := fun _ w' => Here cfg d
      { m with preimage := some secret, hashlock := some (cfg.sha256 secret) } w') ?_ ?_
    · refine keeps_upsert hh₁ rfl ?_ ⟨rfl, rfl, rfl⟩ (fun _ h _ => h) fun _ _ _ h => h
      rintro t ⟨is, rfl⟩
      exact .secret hp hk hmem
    · exact fun _ w' h => (keeps_pure _).mpr ⟨h, rfl, hp, rfl⟩

theorem keeps_announce (hh : Here cfg d m w) (view : Option (OrderView A B)) :
    Ends cfg d m.id (announce cfg m view) w := by
  unfold announce
  split
  · exact (keeps_throw _).mpr hh.left
  · exact (keeps_pure _).mpr hh.left
  · rename_i view hp
    refine keeps_bind (keeps_persistSecret hh hp) ?_
    rintro ⟨m₁, k⟩ w₁ ⟨hh₁, hid, hp₁, hk⟩
    rw [← hid]
    dsimp only at hh₁ hp₁ hk ⊢
    refine keeps_bind (R := fun t w' => Here cfg d m₁ w' ∧
      Relation.ReflTransGen cfg.ticks t w'.clock) ?_ ?_
    · exact keeps_nowS hh₁.sound fun _ _ hc hs' ht => ⟨hh₁.calm hc hs', ht ▸ .refl⟩
    · rintro t1 w₂ ⟨hh₂, h1⟩
      refine keeps_bind (R := fun t w' => Here cfg d m₁ w' ∧
        Relation.ReflTransGen cfg.ticks t1 w'.clock ∧ Relation.ReflTransGen cfg.ticks t w'.clock)
        ?_ ?_
      · exact keeps_nowS hh₂.sound fun _ _ hc hs' ht =>
          ⟨hh₂.calm hc hs', h1.trans hc.ticks, ht ▸ .refl⟩
      · rintro t2 w₃ ⟨hh₃, h1, h2⟩
        refine keeps_bind (R := fun _ w' => w' = w₃) ?_ ?_
        · unfold requireMakerToken
          split
          · exact (keeps_pure _).mpr rfl
          · exact (keeps_throw _).mpr hh₃.left
        · rintro token _ rfl
          refine keeps_bind (R := fun _ w' => Here cfg d m₁ w' ∧
            Relation.ReflTransGen cfg.ticks t1 w'.clock ∧
            Relation.ReflTransGen cfg.ticks t2 w'.clock) ?_ ?_
          · exact keeps_announceHashlock hh₃ hp₁ hk
              (fun _ _ h ht => ⟨h, h1.trans ht, h2.trans ht⟩) fun _ _ h => h
          · rintro announced w₄ ⟨hh₄, h1, h2⟩
            refine keeps_bind (R := fun t w' => Here cfg d m₁ w' ∧
              Relation.ReflTransGen cfg.ticks t1 w'.clock ∧
              Relation.ReflTransGen cfg.ticks t2 w'.clock ∧
              Relation.ReflTransGen cfg.ticks t w'.clock) ?_ ?_
            · exact keeps_nowS hh₄.sound fun _ _ hc hs' ht =>
                ⟨hh₄.calm hc hs', h1.trans hc.ticks, h2.trans hc.ticks, ht ▸ .refl⟩
            · rintro announcedAt w₅ ⟨hh₅, h1, h2, ha⟩
              refine keeps_upsert hh₅ rfl ?_ ⟨rfl, rfl, rfl⟩ (fun _ h _ => h.left) fun _ _ _ h => h
              rintro t ⟨is, rfl⟩
              exact .announced hp₁ _ _ _ _ _ (by simpa using h1) (by simpa using h2) ha

/-! ## Locking -/

theorem keeps_refetch (hh : Here cfg d m w) (iState : Option (LegState A B)) :
    Keeps cfg (fun _ w' => Here cfg d m w') (fun _ w' => Left cfg d m.id w')
      (refetch cfg m iState) w := by
  unfold refetch
  refine keeps_tryCatch (Y := fun _ w' => Here cfg d m w') ?_ ?_
  · refine keeps_map ((keeps_fetchBook hh).mono (fun _ _ h => h) fun _ _ h => h.1) ?_
    exact fun _ _ h => h.1
  · intro e w₁ hh₁
    split
    · exact (keeps_pure _).mpr hh₁
    · exact (keeps_throw _).mpr hh₁.left

theorem MayAcknowledge.frame (h : MayAcknowledge m m') : m'.hashlock = m.hashlock ∧
    m'.direction = m.direction ∧ m'.lockSentAt = m.lockSentAt ∧
    m'.protocol.isSome = m.protocol.isSome ∧ m'.fillProof = m.fillProof := by
  obtain rfl | ⟨released, -, rfl⟩ := h
  · exact ⟨rfl, rfl, rfl, rfl, rfl⟩
  · exact ⟨rfl, rfl, rfl, by simp, by simp⟩

theorem maySend_plain {l : LegKey} {tx : Tx A B} {value : Nat} (hk : tx.hashlock = none)
    (hp : tx.preimage = none) (hl : ∀ call, tx = .htlc call → lockArgs value call = none) :
    MaySend w m l tx value := by
  refine ⟨?_, ?_, ?_⟩
  · intro k h
    rw [hk] at h
    cases h
  · intro p h
    rw [hp] at h
    cases h
  · intro call args htx hargs
    rw [hl call htx] at hargs
    cases hargs

theorem maySend_lock {call : Call A B} {value : Nat} {args : B × A × A × Nat × Nat × Bool}
    (hk : Tx.hashlock (.htlc call) = some args.1) (hp : Tx.preimage (.htlc call) = none)
    (hargs : lockArgs value call = some args) (hm : m.hashlock = some args.1)
    (hf : m.protocol.isSome = true → m.fillProof.isSome = true) (hl : m.lockSentAt.isSome = true) :
    MaySend w m (initiatorLeg m.direction) (.htlc call) value := by
  refine ⟨?_, ?_, ?_⟩
  · intro k' h
    rw [hk] at h
    cases h
    exact ⟨hm, hf⟩
  · intro p h
    rw [hp] at h
    cases h
  · intro call' args' htx hargs'
    cases htx
    rw [hargs] at hargs'
    cases hargs'
    exact ⟨hl, rfl, hm⟩

theorem keeps_approve (hh : Here cfg d m w) (token : A) (allowance : Nat) :
    Keeps cfg (fun _ w' => Here cfg d m w') (fun _ w' => Left cfg d m.id w')
      (approve cfg m token allowance) w := by
  have hplain : ∀ (t : World A B) (amount : Nat),
      MaySend t m .eth (.approve token cfg.ethHtlc amount) 0 :=
    fun _ _ => maySend_plain rfl rfl (fun _ h => by cases h)
  unfold approve
  split
  · exact (keeps_pure _).mpr hh
  · split
    · refine keeps_bind (R := fun _ w' => Here cfg d m w') ?_ ?_
      · exact keeps_sendTx hh rfl (fun t _ => hplain t 0) (fun _ h => h) fun _ _ h => h
      · exact fun _ w₁ hh₁ =>
          keeps_sendTx hh₁ rfl (fun t _ => hplain t _) (fun _ h => h) fun _ _ h => h
    · exact keeps_sendTx hh rfl (fun t _ => hplain t _) (fun _ h => h) fun _ _ h => h

theorem keeps_mark {α : Type} {Q : α → World A B → Prop} {X : Err → World A B → Prop}
    {g : Int → ManagedOrder A B} {f : Int → Act A B α} (hh : Here cfg d m w)
    (hid : ∀ t, (g t).id = m.id)
    (hsame : ∀ t, (g t).withdrawAttempts = m.withdrawAttempts ∧
      (g t).withdrawFirstRejectedAt = m.withdrawFirstRejectedAt ∧ (g t).asset = m.asset)
    (hc : ∀ v, Change cfg v m (g v.clock)) (hX : ∀ e w', Left cfg d m.id w' → X e w')
    (hf : ∀ now w', Here cfg d (g now) w' → Later cfg w w' → Keeps cfg Q X (f now) w') :
    Keeps cfg Q X (do
      let now ← nowS
      attempt (.upsert (g now))
      f now) w := by
  refine keeps_bind (R := fun now w' => Here cfg d m w' ∧ Later cfg w w' ∧ w'.clock = now)
    (keeps_nowS hh.sound fun _ _ hcalm hs' ht => ⟨hh.calm hcalm hs', hcalm.toLater, ht⟩) ?_
  rintro now w₁ ⟨hh₁, hl₁, rfl⟩
  refine keeps_bind (R := fun _ w' => Here cfg d (g w₁.clock) w' ∧ Later cfg w w') ?_ ?_
  · refine keeps_upsert hh₁ (hid _) ?_ (hsame _) (fun _ h hl => ⟨h, hl₁.trans hl⟩)
      fun _ _ _ h => hX _ _ h
    rintro t ⟨is, rfl⟩
    exact hc _
  · exact fun _ w₂ h => hf _ w₂ h.1 h.2

theorem keeps_sendLock {k : B} {t1 : Int} {recipient : A} (hh : Here cfg d m w)
    (hk : m.hashlock = some k) (hf : m.protocol.isSome = true → m.fillProof.isSome = true) :
    Ends cfg d m.id (sendLock cfg m recipient k t1) w := by
  unfold sendLock
  dsimp only
  split
  · rename_i token htoken
    have hleg : initiatorLeg m.direction = .eth := by
      by_contra hne
      simp [hne] at htoken
    refine keeps_bind (R := fun _ w' => Here cfg d m w') ?_ ?_
    · refine keeps_silent_attempt hh.sound (fun _ => trivial) ?_ ?_ ?_
      · rintro w r w' ⟨-, rfl⟩
        exact .refl _
      · exact fun _ _ w' _ _ _ hc hs' => hh.calm hc hs'
      · exact fun _ _ w' _ hc hs' => (hh.calm hc hs').left
    · intro allowance w₁ hh₁
      refine keeps_mark hh₁ (fun _ => rfl) (fun _ => ⟨rfl, rfl, rfl⟩)
        (fun v => .lockSent (by simp [hk]) hf) (fun _ _ h => h) ?_
      intro now w₂ hh₂ _
      refine keeps_bind (R := fun _ w' => Here cfg d { m with lockSentAt := some now } w')
        (keeps_approve hh₂ token allowance) ?_
      intro _ w₃ hh₃
      refine keeps_sendTx (m := { m with lockSentAt := some now }) hh₃ rfl (fun t _ => ?_)
        (fun _ h => h.left) fun _ _ h => h
      rw [← hleg]
      exact maySend_lock (m := { m with lockSentAt := some now }) rfl rfl rfl hk hf rfl
  · refine keeps_mark hh (fun _ => rfl) (fun _ => ⟨rfl, rfl, rfl⟩)
      (fun v => .lockSent (by simp [hk]) hf) (fun _ _ h => h) ?_
    intro now w₁ hh₁ _
    refine keeps_sendTx (m := { m with lockSentAt := some now }) hh₁ rfl (fun t _ => ?_)
      (fun _ h => h.left) fun _ _ h => h
    exact maySend_lock (m := { m with lockSentAt := some now }) rfl rfl rfl hk hf rfl

theorem keeps_lock (hh : Here cfg d m w) (iState : Option (LegState A B)) (blocked : Bool)
    (hf : m.protocol.isSome = true → m.fillProof.isSome = true) :
    Ends cfg d m.id (lock cfg m iState blocked) w := by
  unfold lock
  split
  · exact (keeps_pure _).mpr hh.left
  · split
    · rename_i recipient k t1 _ hk _
      refine keeps_bind (keeps_refetch hh iState) ?_
      intro fresh w₁ hh₁
      refine keeps_bind (keeps_observeView hh₁ _) ?_
      rintro m' w₂ ⟨hh₂, -, hmay⟩
      obtain ⟨hk', -, -, hp', hf'⟩ := hmay.frame
      rw [← hmay.id]
      refine keeps_bind (R := fun _ w' => Here cfg d m' w')
        (keeps_nowS hh₂.sound fun _ _ hc hs' _ => hh₂.calm hc hs') ?_
      intro now w₃ hh₃
      split
      · exact (keeps_pure _).mpr hh₃.left
      · refine keeps_sendLock hh₃ (hk'.trans hk) ?_
        rw [hp', hf']
        exact hf
    · exact (keeps_pure _).mpr hh.left

/-! ## Claiming and refunding -/

theorem Placed.filled {k : B} (hh : Placed cfg d m w) (hk : m.hashlock = some k) {l : LegKey}
    (hn : (w.swap l k).status ≠ .None) : m.protocol.isSome = true → m.fillProof.isSome = true := by
  obtain ⟨p, -, hp, rfl⟩ := hh.entry.secret k hk
  by_cases hd : cfg.sha256 p ∈ w.disclosed
  · exact (hh.entry.known p hp hd).2
  · exact absurd (hh.sound.ledger.hidden _ p hp hd l) hn

theorem maySend_settle {l : LegKey} {call : Call A B} {value : Nat} {k : B}
    (hk : Tx.hashlock (.htlc call) = some k) (hargs : lockArgs value call = none)
    (hm : m.hashlock = some k) (hf : m.protocol.isSome = true → m.fillProof.isSome = true)
    (hp : ∀ p, Tx.preimage (.htlc call) = some p → m.preimage = some p ∧
      ∀ l', (w.swap l' k).status ≠ .None) : MaySend w m l (.htlc call) value := by
  refine ⟨?_, ?_, ?_⟩
  · intro k' h
    rw [hk] at h
    cases h
    exact ⟨hm, hf⟩
  · intro p h
    refine ⟨(hp p h).1, fun k' l' h' => ?_⟩
    rw [hk] at h'
    cases h'
    exact (hp p h).2 l'
  · intro call' args htx h
    cases htx
    rw [hargs] at h
    cases h

theorem keeps_preflight (hh : Here cfg d m w) (l : LegKey) (call : Call A B) (k : B)
    (margin : Int) :
    Keeps cfg (fun _ w' => Here cfg d m w' ∧ Later cfg w w') (fun _ w' => Left cfg d m.id w')
      (attempt (.preflight l call k margin)) w := by
  refine keeps_silent_attempt hh.sound (fun _ => trivial) ?_ ?_ ?_
  · rintro w r w' ⟨-, rfl⟩
    exact .refl _
  · exact fun _ _ w' _ _ _ hc hs' => ⟨hh.calm hc hs', hc.toLater⟩
  · exact fun _ _ w' _ hc hs' => (hh.calm hc hs').left

theorem keeps_submitClaim {act : Act A B Unit} {id : String}
    (h : Keeps cfg (fun _ w' => Left cfg d id w') (fun _ w' => Left cfg d id w') act w) :
    Ends cfg d id (submitClaim act) w := by
  unfold submitClaim
  exact keeps_tryCatch h fun _ _ h' => (keeps_throw _).mpr h'

/-- Both legs are on their chains. -/
def OnBoth (m : ManagedOrder A B) (w : World A B) : Prop :=
  ∀ k, m.hashlock = some k → ∀ l, (w.swap l k).status ≠ .None

theorem OnBoth.later (h : OnBoth m w) (hl : Later cfg w w') : OnBoth m w' :=
  fun k hk l => (hl.extends l k).not_none (h k hk l)

theorem keeps_claim (hh : Here cfg d m w) (hb : OnBoth m w) : Ends cfg d m.id (claim cfg m) w := by
  unfold claim
  split
  · rename_i k p hk hp
    refine keeps_bind (keeps_preflight hh _ _ _ _) ?_
    rintro _ w₁ ⟨hh₁, hl₁⟩
    refine keeps_submitClaim ?_
    refine keeps_mark hh₁ (fun _ => rfl) (fun _ => ⟨rfl, rfl, rfl⟩) (fun _ => .claimSent)
      (fun _ _ h => h) ?_
    intro now w₂ hh₂ hl₂
    have hb₂ := (hb.later hl₁).later hl₂
    refine keeps_sendTx (m := { m with claimSentAt := some now }) hh₂ rfl (fun t ht => ?_)
      (fun _ h => h.left) fun _ _ h => h
    refine maySend_settle rfl rfl hk (hh₂.filled hk (hb₂ k hk .eth)) fun p' h => ?_
    cases h
    exact ⟨hp, hb₂.later ht.later k hk⟩
  · exact (keeps_pure _).mpr hh.left

theorem keeps_sponsor (hh : Here cfg d m w) (hb : OnBoth m w) :
    Ends cfg d m.id (sponsor cfg m) w := by
  unfold sponsor
  split
  · rename_i k p hk hp
    refine keeps_mark hh (fun _ => rfl) (fun _ => ⟨rfl, rfl, rfl⟩) (fun _ => .sponsorSent)
      (fun _ _ h => h) ?_
    intro now w₁ hh₁ hl₁
    refine keeps_tryCatch (Y := fun _ w' => Left cfg d m.id w') ?_ fun _ _ h => (keeps_pure _).mpr h
    refine keeps_bind (keeps_preflight hh₁ _ _ _ _) ?_
    rintro _ w₂ ⟨hh₂, hl₂⟩
    refine keeps_submitClaim ?_
    have hb₂ := (hb.later hl₁).later hl₂
    refine keeps_sendTx (m := { m with sponsorSentAt := some now }) hh₂ rfl (fun t ht => ?_)
      (fun _ h => h.left) fun _ _ h => h
    refine maySend_settle rfl rfl hk (hh₂.filled hk (hb₂ k hk .eth)) fun p' h => ?_
    cases h
    exact ⟨hp, hb₂.later ht.later k hk⟩
  · exact (keeps_pure _).mpr hh.left

theorem keeps_refund (hh : Here cfg d m w)
    (hb : ∀ k, m.hashlock = some k → (w.swap (initiatorLeg m.direction) k).status ≠ .None) :
    Ends cfg d m.id (refund m) w := by
  unfold refund
  split
  · rename_i k hk
    have hf := hh.filled hk (hb k hk)
    refine keeps_mark hh (fun _ => rfl) (fun _ => ⟨rfl, rfl, rfl⟩) (fun _ => .refundSent)
      (fun _ _ h => h) ?_
    intro now w₁ hh₁ hl₁
    refine keeps_sendTx (m := { m with refundSentAt := some now }) hh₁ rfl (fun t _ => ?_)
      (fun _ h => h.left) fun _ _ h => h
    exact maySend_settle rfl rfl hk hf (fun _ h => by cases h)
  · exact (keeps_pure _).mpr hh.left

/-! ## Credits -/

theorem withdrawParked_mono {n : Maker.ManagedOrder B} {s t : Int} (hst : s ≤ t)
    (h : withdrawParked n s = true) : withdrawParked n t = true := by
  unfold withdrawParked parked at h ⊢
  rw [Bool.and_eq_true] at h ⊢
  refine ⟨h.1, ?_⟩
  cases hf : n.withdrawFirstRejectedAt with
  | none => simp [hf] at h
  | some f =>
    simp only [hf, decide_eq_true_eq] at h ⊢
    omega

/-- The attempt to withdraw on the leg `l` at `s` has failed, and is still to be followed up. -/
structure Attempted (cfg : Config A B) (d : String → Option (ManagedOrder A B))
    (m : ManagedOrder A B) (l : LegKey) (s : Int) (w : World A B) :
      Prop extends Placed cfg d m w where
  tried : w.tried m.id = some ⟨l, s, true⟩
  followed : FollowedUp cfg { w with tried := fun id => if id = m.id then none else w.tried id }
  since : Relation.ReflTransGen cfg.ticks s w.clock

theorem Attempted.calm {l : LegKey} {s : Int} (h : Attempted cfg d m l s w) (hc : Calm cfg w w')
    (hs : Sound cfg w') : Attempted cfg d m l s w' := by
  refine ⟨h.toPlaced.calm hc hs, hc.tried ▸ h.tried, ?_, h.since.trans hc.ticks⟩
  exact h.followed.same (by rw [hc.tried]) hc.emptied hc.disk

theorem Attempted.left {l : LegKey} {s : Int} (h : Attempted cfg d m l s w)
    (hp : (∀ s t, cfg.ticks s t → s ≤ t) → withdrawParked m.decision s = true →
      w.OnRecord (l, cfg.legToken l m.asset, cfg.myAddress l)) : Left cfg d m.id w := by
  refine ⟨h.sound, h.others, fun hclock id t ht hc n hn hparked => ?_⟩
  by_cases hid : id = m.id
  · subst hid
    rw [h.tried] at ht
    cases ht
    rw [h.here] at hn
    cases hn
    exact hp hclock hparked
  · exact h.followed hclock id t (by simpa [hid] using ht) hc n hn hparked

theorem ticks_le (hclock : ∀ s t, cfg.ticks s t → s ≤ t) {s t : Int}
    (h : Relation.ReflTransGen cfg.ticks s t) : s ≤ t := by
  induction h with
  | refl => exact le_refl s
  | tail _ hstep ih => exact ih.trans (hclock _ _ hstep)

theorem keeps_withdrawAll (hh : Here cfg d m w) (l : LegKey) :
    Keeps cfg (fun r w' =>
        match r with
        | .ok _ => Left cfg d m.id w'
        | .error _ => Attempted cfg d m l w.clock w')
      (fun _ w' => Left cfg d m.id w')
      (demand (.send m.id l
        (.htlc (.withdrawAll (cfg.legToken l m.asset) (cfg.myAddress l))) 0)) w := by
  refine keeps_demand hh.sound ?_ ?_
  · intro t hm hs
    exact ⟨m, (hh.moved hm hs).here, maySend_plain rfl rfl (fun _ h => by cases h; rfl)⟩
  · intro t r w' hm hs ho hs'
    obtain rfl : w' = _ := ho
    have ht := hh.moved hm hs
    have hclock : t.clock = w.clock := by
      obtain ⟨is, rfl⟩ := hm
      rfl
    have hother :
      FollowedUp cfg { t with tried := fun id => if id = m.id then none else t.tried id } := by
      intro hmono id t' ht' hc n hn hparked
      by_cases hid : id = m.id
      · simp [hid] at ht'
      · exact ht.followed hmono id t' (by simpa [hid] using ht') hc n hn hparked
    cases r with
    | ok _ =>
      refine ⟨hs', ht.others, hother.same ?_ (List.Subset.refl _) rfl⟩
      funext id
      unfold World.afterSend
      simp [Tx.withdraws]
    | error e =>
      refine ⟨⟨hs', ht.here, ht.others⟩, ?_, hother.same ?_ (List.Subset.refl _) rfl, ?_⟩
      · unfold World.afterSend
        simp [Tx.withdraws, hclock]
      · funext id
        unfold World.afterSend
        by_cases hid : id = m.id <;> simp [hid]
      · rw [← hclock]
        exact .refl

theorem keeps_countWithdrawal {l : LegKey} {s : Int} (h : Attempted cfg d m l s w) (e : SendError) :
    Keeps cfg (fun m' w' => Attempted cfg d m' l s w' ∧ m'.id = m.id ∧ m'.asset = m.asset)
      (fun _ w' => Left cfg d m.id w') (countWithdrawal m e) w := by
  unfold countWithdrawal
  split
  · refine keeps_bind (R := fun t w' => Attempted cfg d m l s w' ∧ w'.clock = t)
      (keeps_nowS h.sound fun _ _ hc hs' ht => ⟨h.calm hc hs', ht⟩) ?_
    rintro now w₁ ⟨h₁, rfl⟩
    dsimp only
    refine keeps_bind (R := fun _ w' => Attempted cfg d
      { m with
        withdrawAttempts := some (m.withdrawAttempts.getD 0 + 1)
        withdrawFirstRejectedAt := m.withdrawFirstRejectedAt <|> some w₁.clock } l s w') ?_ ?_
    · refine keeps_write h₁.toPlaced rfl ?_ ?_ fun _ _ _ h => h
      · rintro t ⟨is, rfl⟩
        refine .withdrawRejected fun t' ht' => ?_
        cases h₁.tried.symm.trans ht'
        rfl
      · intro w' hplaced hl htried hrecorded
        refine ⟨hplaced, htried ▸ h₁.tried, ?_, h₁.since.trans hl.ticks⟩
        refine h₁.followed.mono (by rw [htried]) hrecorded fun id n htr hn => ?_
        have hne : id ≠ m.id := by
          rintro rfl
          simp at htr
        refine ⟨n, ?_, rfl, rfl, rfl⟩
        exact (h₁.others id hne).trans ((hplaced.others id hne).symm.trans hn)
    · exact fun _ w' h => (keeps_pure _).mpr ⟨h, rfl, rfl⟩
  · exact (keeps_pure _).mpr ⟨h, rfl, rfl⟩

theorem keeps_withdraw (hh : Here cfg d m w) (reads : Reads A B) :
    Ends cfg d m.id (withdraw cfg m reads) w := by
  unfold withdraw
  dsimp only
  generalize (if 0 < reads.ourResponderCredit.getD 0 then responderLeg m.direction
    else initiatorLeg m.direction) = l
  refine keeps_mark hh (fun _ => rfl) (fun _ => ⟨rfl, rfl, rfl⟩) (fun _ => .withdrawSent)
    (fun _ _ h => h) ?_
  intro now w₁ hh₁ _
  refine keeps_bind (keeps_withdrawAll (m := { m with withdrawSentAt := some now }) hh₁ l) ?_
  intro r w₂ h₂
  cases r with
  | ok _ => exact (keeps_pure _).mpr h₂
  | error e =>
    refine keeps_bind (keeps_countWithdrawal h₂ e) ?_
    rintro m' w₃ ⟨h₃, hid, hasset⟩
    change m'.id = m.id at hid
    change m'.asset = m.asset at hasset
    rw [← hid, ← hasset]
    refine keeps_bind (R := fun t w' => Attempted cfg d m' l w₁.clock w' ∧ w'.clock = t)
      (keeps_nowS h₃.sound fun _ _ hc hs' ht => ⟨h₃.calm hc hs', ht⟩) ?_
    rintro now' w₄ ⟨h₄, rfl⟩
    -- Only a rejection that is counted can park, and then the credit goes on record.
    split
    · refine keeps_bind (R := fun t w' => Attempted cfg d m' l w₁.clock w' ∧ w'.clock = t)
        (keeps_nowS h₄.sound fun _ _ hc hs' ht => ⟨h₄.calm hc hs', ht⟩) ?_
      rintro parkedAt w₅ ⟨h₅, rfl⟩
      refine keeps_recordStrandedCredit h₅.toPlaced rfl ?_ fun _ _ _ h => h
      intro t w' hm hplaced hticks hrecorded hdone
      obtain hover | ⟨htried, hkey⟩ := hdone
      · exact ⟨hplaced.sound, hplaced.others, followedUp_of_over hover⟩
      · have hcalm := hm.calm
        have ht' : w'.tried = w₅.tried := htried.trans hcalm.tried
        refine Attempted.left (l := l) (s := w₁.clock) ⟨hplaced, ht' ▸ h₅.tried, ?_, ?_⟩
          fun _ _ => hkey
        · refine h₅.followed.mono (by rw [ht'])
            (fun key hkey => hrecorded key (hcalm.onRecord hkey))
            fun id n _ hn => ?_
          exact h₅.toPlaced.disk hplaced rfl ⟨rfl, rfl, rfl⟩ hn
        · exact h₅.since.trans (hcalm.ticks.trans hticks)
    · rename_i hparked
      refine (keeps_pure _).mpr (h₄.left fun hclock hp => ?_)
      exact absurd (withdrawParked_mono (ticks_le hclock h₄.since) hp) hparked

theorem keeps_countPush (hh : Here cfg d m w) (e : SendError) :
    Keeps cfg (fun m' w' => Here cfg d m' w' ∧ m'.id = m.id) (fun _ w' => Left cfg d m.id w')
      (countPush m e) w := by
  unfold countPush
  split
  · refine keeps_bind (R := fun t w' => Here cfg d m w' ∧ w'.clock = t)
      (keeps_nowS hh.sound fun _ _ hc hs' ht => ⟨hh.calm hc hs', ht⟩) ?_
    rintro now w₁ ⟨hh₁, rfl⟩
    dsimp only
    refine keeps_bind (R := fun _ w' => Here cfg d
      { m with
        pushAttempts := some (m.pushAttempts.getD 0 + 1)
        pushFirstRejectedAt := m.pushFirstRejectedAt <|> some w₁.clock } w') ?_ ?_
    · refine keeps_upsert hh₁ rfl ?_ ⟨rfl, rfl, rfl⟩ (fun _ h _ => h) fun _ _ _ h => h
      rintro t ⟨is, rfl⟩
      exact .pushRejected
    · exact fun _ w' h => (keeps_pure _).mpr ⟨h, rfl⟩
  · exact (keeps_pure _).mpr ⟨hh, rfl⟩

theorem keeps_push (hh : Here cfg d m w) (reads : Reads A B) :
    Ends cfg d m.id (push cfg m reads) w := by
  unfold push
  dsimp only
  split
  · exact (keeps_pure _).mpr hh.left
  · rename_i taker _
    refine keeps_mark hh (fun _ => rfl) (fun _ => ⟨rfl, rfl, rfl⟩) (fun _ => .pushSent)
      (fun _ _ h => h) ?_
    intro now w₁ hh₁ _
    refine keeps_bind (R := fun _ w' => Here cfg d { m with pushSentAt := some now } w') ?_ ?_
    · exact keeps_send (m := { m with pushSentAt := some now }) hh₁ rfl
        (fun t _ => maySend_plain rfl rfl (fun _ h => by cases h; rfl)) fun _ _ h => h
    · intro r w₂ hh₂
      cases r with
      | ok _ => exact (keeps_pure _).mpr hh₂.left
      | error e =>
        refine keeps_bind (keeps_countPush hh₂ e) ?_
        rintro m' w₃ ⟨hh₃, hid⟩
        change m'.id = m.id at hid
        rw [← hid]
        refine keeps_bind (R := fun _ w' => Here cfg d m' w')
          (keeps_nowS hh₃.sound fun _ _ hc hs' _ => hh₃.calm hc hs') ?_
        intro now' w₄ hh₄
        split
        · refine keeps_bind (R := fun t w' => Here cfg d m' w' ∧ w'.clock = t)
            (keeps_nowS hh₄.sound fun _ _ hc hs' ht => ⟨hh₄.calm hc hs', ht⟩) ?_
          rintro parkedAt w₅ ⟨hh₅, rfl⟩
          refine keeps_recordStrandedCredit hh₅.toPlaced rfl ?_ fun _ _ _ h => h
          intro t w' hm hplaced _ hrecorded hdone
          refine ⟨hplaced.sound, hplaced.others, ?_⟩
          obtain hover | ⟨htried, -⟩ := hdone
          · exact followedUp_of_over hover
          · have hcalm := hm.calm
            refine hh₅.followed.mono (htried.trans hcalm.tried)
              (fun key hkey => hrecorded key (hcalm.onRecord hkey)) fun id n _ hn => ?_
            exact hh₅.toPlaced.disk hplaced rfl ⟨rfl, rfl, rfl⟩ hn
        · exact (keeps_pure _).mpr hh₄.left

/-! ## Giving up -/

theorem keeps_cancelListing (hh : Here cfg d m w) :
    Keeps cfg (fun cancelled w' => if cancelled then
        ∃ m', Here cfg d m' w' ∧ Later cfg w w' ∧ MayCancel m m' else Left cfg d m.id w')
      (fun _ _ => False) (cancelListing cfg m) w := by
  unfold cancelListing
  refine keeps_tryCatch (Y := fun e w' => Left cfg d m.id w' ∧
    (e = .gone → ∃ m', Here cfg d m' w' ∧ Later cfg w w' ∧ MayCancel m m')) ?_ ?_
  · refine keeps_bind (keeps_cancelManaged hh) ?_
    exact fun _ w' h => (keeps_pure _).mpr h
  · rintro e w' ⟨hleft, hgone⟩
    refine (keeps_pure _).mpr ?_
    by_cases he : e = .gone
    · rw [if_pos (by simpa using he)]
      exact hgone he
    · rw [if_neg (by simpa using he)]
      exact hleft

theorem MayCancel.frame (h : MayCancel m m') : m'.hashlock = m.hashlock ∧
    m'.direction = m.direction ∧ m'.lockSentAt = m.lockSentAt := by
  obtain rfl | ⟨proof, -, rfl⟩ := h
  · exact ⟨rfl, rfl, rfl⟩
  · exact ⟨rfl, rfl, rfl⟩

theorem keeps_abort {r : Reads A B} (hh : Here cfg d m w) (hf : Facts cfg m r w)
    (hl : m.lockSentAt = none) (hs : Secret cfg w m) (bookStatus : BookStatus) :
    Ends cfg d m.id (abort cfg m bookStatus) w := by
  have hdelete : ∀ m' w₁, Here cfg d m' w₁ → Later cfg w w₁ → MayCancel m m' →
      Ends cfg d m.id (attempt (.delete m.id .abort)) w₁ := by
    intro m' w₁ hh₁ hl₁ hmay
    obtain ⟨hk', hd', hlock'⟩ := hmay.frame
    rw [← hmay.id]
    refine keeps_delete hh₁ (fun t ht _ => ?_) (fun _ h => h) fun _ _ _ h => h
    have hlater := hl₁.trans ht.later
    have hfacts := (hf.later hlater).congr hmay.id hk' hd' hlock'
    have hsecret : Secret cfg t m' := by
      unfold Secret
      rw [hk', hmay.id]
      exact hs.later hlater
    exact .abort (hlock'.trans hl) hsecret fun hk => hfacts.idle hk (hlock'.trans hl) hsecret
  unfold abort
  dsimp only
  split
  · refine keeps_bind ((keeps_cancelListing hh).mono (fun _ _ h => h) fun _ _ h => h.elim) ?_
    intro cancelled w₁ h₁
    cases cancelled with
    | false => exact (keeps_pure _).mpr h₁
    | true =>
      obtain ⟨m', hh₁, hl₁, hmay⟩ := h₁
      exact hdelete m' w₁ hh₁ hl₁ hmay
  · exact hdelete m w hh (.refl w) (.inl rfl)

end

end QuantaSwap.Maker.Daemon
