import QuantaSwap.Maker.Pass

/-!
# The daemon keeps to what is allowed

A tick asks for nothing that is not allowed, so whatever the daemon reaches is sound, and the
request that it is about to make is an allowed one.
-/

set_option autoImplicit false
set_option linter.unusedSectionVars false

open Lib Lib.Evm Lib.Program QuantaSwap.Htlc QuantaSwap.Htlc.V3

namespace QuantaSwap.Maker.Daemon

section

variable {A B : Type} [DecidableEq A] [DecidableEq B] [Zero A] [Zero B] {cfg : Config A B}
  {w w' w₀ : World A B}

/-- No order is being advanced. -/
structure Idle (cfg : Config A B) (w : World A B) : Prop where
  sound : Sound cfg w
  followed : FollowedUp cfg w

theorem Left.idle {d : String → Option (ManagedOrder A B)} {id : String} (h : Left cfg d id w) :
    Idle cfg w :=
  ⟨h.sound, h.followed⟩

theorem Idle.calm (h : Idle cfg w) (hc : Calm cfg w w') (hs : Sound cfg w') : Idle cfg w' :=
  ⟨hs, h.followed.same hc.tried hc.emptied hc.disk⟩

abbrev Rests {α : Type} (cfg : Config A B) (a : Act A B α) (w : World A B) : Prop :=
  Keeps cfg (fun _ w => Idle cfg w) (fun _ w => Idle cfg w) a w

/-! ## Every order -/

theorem keeps_advanceAll {ms : List (ManagedOrder A B)} (hi : Idle cfg w)
    (hids : (ms.map (·.id)).Nodup) (hget : ∀ m ∈ ms, w.disk.get m.id = some m) :
    Rests cfg (advanceAll cfg ms) w := by
  induction ms generalizing w with
  | nil => exact (keeps_pure _).mpr hi
  | cons m ms ih =>
    rw [List.map_cons, List.nodup_cons] at hids
    have hh : Here cfg w.disk.get m w :=
      ⟨⟨hi.sound, hget m List.mem_cons_self, fun _ _ => rfl⟩, hi.followed⟩
    unfold advanceAll
    refine keeps_bind (R := fun _ w' => Left cfg w.disk.get m.id w') ?_ ?_
    · refine keeps_tryCatch (Y := fun _ w' => Left cfg w.disk.get m.id w') ?_ ?_
      · exact keeps_bind (keeps_advance hh) fun _ _ h => (keeps_pure _).mpr h
      · intro e w' h
        split
        · exact (keeps_throw _).mpr h.idle
        · exact (keeps_pure _).mpr h
    · intro _ w' h
      refine ih h.idle hids.2 fun n hn => ?_
      have hne : n.id ≠ m.id := fun he => hids.1 (List.mem_map.mpr ⟨n, hn, he⟩)
      rw [h.others _ hne]
      exact hget n (List.mem_cons_of_mem _ hn)

theorem keeps_all (hi : Idle cfg w) :
    Keeps cfg (fun ms w' => Idle cfg w' ∧ (ms.map (·.id)).Nodup ∧
        ∀ m ∈ ms, w'.disk.get m.id = some m)
      (fun _ w' => Idle cfg w') (attempt .all) w := by
  have hover : ∀ t : World A B, Sound cfg t.settled → Idle cfg t.settled := fun t hs =>
    ⟨hs, followedUp_of_over fun id t' ht' => settled_over t ht'⟩
  refine keeps_attempt hi.sound ?_ ?_ ?_
  · exact fun t hm hs => (hi.calm hm.calm hs).followed
  · intro t ms w' hm hs ho hs'
    obtain ⟨hread, rfl⟩ := ho
    cases hread with
    | read hp =>
      refine ⟨hover t hs', hs.files.memory, fun m hmem => ?_⟩
      exact (hs.files.agree hp m.id).symm.trans (StateFile.get_of_mem hs.files.memory hmem)
  · intro t e w' hm hs ho hs'
    obtain ⟨-, rfl⟩ := ho
    exact hover t hs'

/-! ## New listings -/

/-- A listing that is signed, under an id that no order has had. -/
structure Signed (cfg : Config A B) (asset : AssetSymbol) (direction : Direction) (q : Quote)
    (signed : SignedOrderV1 A B) (id : String) (w : World A B) : Prop where
  absent : w.disk.get id = none
  unused : ∀ p, (id, p) ∉ w.secrets
  unposted : ∀ st, (id, st) ∉ w.posted
  issued : id ∈ w.issued
  quoted : .quote q ∈ w.heard
  signed : ∃ issuedAt nonce signature, Relation.ReflTransGen cfg.ticks issuedAt w.clock ∧
    signOrderV1 cfg.codec cfg.key (listing cfg asset direction q) q.makerToken issuedAt
      (issuedAt + cfg.orderLifetimeS) nonce signature = .ok signed ∧
    cfg.codec.verifyOrder signed.order.makerQrlAccount signed.order signed.auth = true

theorem keeps_signOrder {asset : AssetSymbol} {direction : Direction} {q : Quote} {issuedAt : Int}
    (hi : Idle cfg w) (hq : .quote q ∈ w.heard) (hclock : w.clock = issuedAt) :
    Keeps cfg (fun signed w' => Idle cfg w' ∧ Signed cfg asset direction q signed
        (cfg.codec.deriveOrderV1Id signed.order.makerQrlAccount signed.auth.nonce) w')
      (fun _ w' => Idle cfg w')
      (attempt (.signOrder (listing cfg asset direction q) q.makerToken issuedAt
        (issuedAt + cfg.orderLifetimeS))) w := by
  refine keeps_attempt hi.sound (fun _ _ _ => trivial) ?_ ?_
  · intro t signed w' hm hs ho hs'
    obtain ⟨hsigns, rfl⟩ := ho
    have ht := hi.calm hm.calm hs
    cases hsigns with
    | @signed nonce signature _ h hv =>
      obtain ⟨hverify, hnew⟩ := hv
      refine ⟨⟨hs', ht.followed.same rfl (List.Subset.refl _) rfl⟩, ?_, ?_, ?_, List.mem_cons_self,
        hm.calm.heard hq, issuedAt, nonce, signature, hclock ▸ hm.calm.ticks, h, hverify⟩
      · change t.disk.get _ = none
        by_contra hne
        obtain ⟨n, hn⟩ := Option.ne_none_iff_exists'.mp hne
        exact hnew (hs.entry _ n hn).1
      · exact fun p hp => hnew (hs.ledger.issued _ p hp)
      · exact fun st hst => hnew (hs.ledger.postedIssued _ st hst)
  · intro t e w' hm hs ho hs'
    obtain ⟨-, rfl⟩ := ho
    exact ⟨hs', (hi.calm hm.calm hs).followed.same rfl (List.Subset.refl _) rfl⟩

theorem Signed.later {asset : AssetSymbol} {direction : Direction} {q : Quote}
    {signed : SignedOrderV1 A B} {id : String} (h : Signed cfg asset direction q signed id w)
    (hc : Calm cfg w w') (hposted : w'.posted = w.posted) (hissued : w'.issued = w.issued) :
    Signed cfg asset direction q signed id w' := by
  obtain ⟨issuedAt, nonce, signature, ht, hsign, hverify⟩ := h.signed
  refine ⟨?_, ?_, ?_, ?_, hc.heard h.quoted, issuedAt, nonce, signature, ht.trans hc.ticks, hsign,
    hverify⟩
  · rw [hc.disk]
    exact h.absent
  · rw [hc.secrets]
    exact h.unused
  · rw [hposted]
    exact h.unposted
  · rw [hissued]
    exact h.issued

theorem keeps_newOrder {asset : AssetSymbol} {direction : Direction} {q : Quote}
    {signed : SignedOrderV1 A B} {createdAt : Int} (hi : Idle cfg w)
    (hsigned : Signed cfg asset direction q signed (pendingOrder cfg q signed createdAt).id w)
    (hclock : w.clock = createdAt) :
    Keeps cfg (fun _ w' => ∃ d, Here cfg d (pendingOrder cfg q signed createdAt) w')
      (fun _ w' => Idle cfg w') (attempt (.upsert (pendingOrder cfg q signed createdAt))) w := by
  refine keeps_attempt hi.sound ?_ ?_ ?_
  · rintro t ⟨is, rfl⟩ hs
    obtain ⟨issuedAt, nonce, signature, ht, hsign, hverify⟩ := hsigned.signed
    exact .inl ⟨hsigned.absent, hsigned.unused, hsigned.unposted,
      ⟨asset, direction, q, issuedAt, createdAt, nonce, signature, signed, hsigned.quoted, ht,
        hclock ▸ .refl, hsign, hverify, rfl⟩, hsigned.issued⟩
  · intro t b w' hm hs ho hs'
    have ht := hi.calm hm.calm hs
    have hw := upsert_wrote hs.files ho
    obtain ⟨hdisk, htried, -⟩ := hw.ok rfl
    refine ⟨t.disk.get, ⟨hs', by rw [hdisk, if_pos rfl], fun id hne => ?_⟩, ?_⟩
    · rw [hdisk, if_neg (Ne.symm hne)]
    · intro hmono id tr htr hc n hn hparked
      rw [htried] at htr
      rw [hdisk] at hn
      split at hn
      · cases hn
        simp [withdrawParked, parked, ManagedOrder.decision, pendingOrder, MAX_CREDIT_ATTEMPTS]
          at hparked
      · exact hw.onRecord _ (ht.followed hmono id tr htr hc n hn hparked)
  · intro t e w' hm hs ho hs'
    have hw := upsert_wrote hs.files ho
    obtain ⟨-, htried⟩ := hw.error e rfl
    exact ⟨hs', followedUp_of_over fun id t' ht' => interrupted_over _ (htried ▸ ht')⟩

theorem keeps_refillPair (hi : Idle cfg w) (asset : AssetSymbol) (direction : Direction) :
    Rests cfg (refillPair cfg asset direction) w := by
  unfold refillPair
  refine keeps_bind (R := fun q w' => Idle cfg w' ∧ ∀ x ∈ q, .quote x ∈ w'.heard) ?_ ?_
  · refine keeps_demand hi.sound (fun _ _ _ => trivial) ?_
    rintro t q w' hm hs rfl hs'
    refine ⟨hi.calm (hm.calm.trans (calm_hear t _)) hs', fun x hx => ?_⟩
    exact List.mem_append_left _ (List.mem_map_of_mem (Option.mem_toList.mpr hx))
  · rintro q w₁ ⟨hi₁, hq⟩
    split
    · exact (keeps_pure _).mpr hi₁
    · rename_i q
      refine keeps_bind (R := fun _ w' => Idle cfg w' ∧ .quote q ∈ w'.heard) ?_ ?_
      · refine keeps_silent_attempt hi₁.sound (fun _ => trivial) ?_
          (fun _ _ _ _ _ _ hc hs' => ⟨hi₁.calm hc hs', hc.heard (hq q rfl)⟩)
          fun _ _ _ _ hc hs' => hi₁.calm hc hs'
        rintro w b w' ⟨-, rfl⟩
        exact .refl _
      · rintro retained w₂ ⟨hi₂, hq₂⟩
        split
        · exact (keeps_pure _).mpr hi₂
        · refine keeps_bind (R := fun t w' => Idle cfg w' ∧ w'.clock = t ∧ .quote q ∈ w'.heard)
            (keeps_nowS hi₂.sound fun _ _ hc hs' ht => ⟨hi₂.calm hc hs', ht, hc.heard hq₂⟩) ?_
          rintro issuedAt w₃ ⟨hi₃, hclock, hq₃⟩
          refine keeps_bind (keeps_signOrder (q := q) hi₃ hq₃ hclock) ?_
          rintro signed w₄ ⟨hi₄, hsigned⟩
          refine keeps_bind (R := fun t w' => Idle cfg w' ∧ w'.clock = t ∧
            Signed cfg asset direction q signed (pendingOrder cfg q signed t).id w') ?_ ?_
          · refine keeps_demand hi₄.sound (fun _ _ _ => trivial) ?_
            rintro t b w' ⟨is, rfl⟩ hs ⟨hticks, rfl⟩ hs'
            have hcalm : Calm cfg w₄ { w₄ with
                legs := Lib.Run.run (Legs.step cfg.toTwoChains) w₄.legs is, clock := b } :=
              ⟨⟨.single hticks, ⟨is, rfl⟩, rfl, rfl, rfl, List.Subset.refl _⟩, rfl, rfl,
                List.Subset.refl _⟩
            exact ⟨hi₄.calm hcalm hs', rfl, hsigned.later hcalm rfl rfl⟩
          · rintro createdAt w₅ ⟨hi₅, hclock₅, hsigned₅⟩
            refine keeps_bind (keeps_newOrder hi₅ hsigned₅ hclock₅) ?_
            rintro _ w₆ ⟨d, hh₆⟩
            refine keeps_bind ((keeps_publishSignedOrder hh₆).mono (fun _ _ h => h)
              fun _ _ h => h.idle) ?_
            exact fun _ _ h => (keeps_pure _).mpr h.idle

theorem keeps_refillPairs (hi : Idle cfg w) (pairs : List (AssetSymbol × Direction)) :
    Rests cfg (refillPairs cfg pairs) w := by
  induction pairs generalizing w with
  | nil => exact (keeps_pure _).mpr hi
  | cons pair pairs ih =>
    obtain ⟨asset, direction⟩ := pair
    unfold refillPairs
    refine keeps_bind (keeps_refillPair hi asset direction) ?_
    intro more w' hi'
    split
    · exact ih hi'
    · exact (keeps_pure _).mpr hi'

theorem keeps_refill (hi : Idle cfg w) : Rests cfg (refill cfg) w := by
  unfold refill
  split
  · exact (keeps_pure _).mpr hi
  · refine keeps_bind (R := fun _ w' => Idle cfg w') ?_ ?_
    · refine keeps_silent hi.sound (fun _ => trivial) ?_ fun _ _ hc hs' => hi.calm hc hs'
      rintro w b w' rfl
      exact .refl _
    · intro can w₁ hi₁
      split
      · refine keeps_bind ((keeps_all hi₁).mono (fun _ _ h => h) fun _ _ h => h) ?_
        exact fun _ _ h => keeps_refillPairs h.1 _
      · exact (keeps_pure _).mpr hi₁

/-! ## Parked credits -/

theorem keeps_clearStrandedCredit (hi : Idle cfg w) {key : LegKey × A × A}
    (hempty : key ∈ w.emptied) :
    Rests cfg (attempt (.clearStrandedCredit key)) w := by
  have hdone : ∀ t (r : Except Err Unit) w', Moved cfg w t → Sound cfg t →
      operate cfg t (.clearStrandedCredit key) r w' → Sound cfg w' → Idle cfg w' := by
    intro t r w' hm hs ho hs'
    have ht := hi.calm hm.calm hs
    change ite _ _ _ at ho
    split at ho
    · have hw := clear_wrote hs.files (hm.calm.emptied hempty) ho
      refine ⟨hs', ?_⟩
      cases r with
      | ok _ =>
        obtain ⟨hdisk, htried, -⟩ := hw.ok rfl
        exact ht.followed.mono htried hw.onRecord fun id n _ hn =>
          ⟨n, (hdisk id).symm.trans hn, rfl, rfl, rfl⟩
      | error e =>
        obtain ⟨-, htried⟩ := hw.error e rfl
        exact followedUp_of_over fun id t' ht' => interrupted_over _ (htried ▸ ht')
    · obtain ⟨-, rfl⟩ := ho
      exact ht
  exact keeps_attempt hi.sound (fun _ hm _ => hm.calm.emptied hempty)
    (fun t _ w' hm hs ho hs' => hdone t _ w' hm hs ho hs')
    fun t _ w' hm hs ho hs' => hdone t _ w' hm hs ho hs'

theorem keeps_recheckStranded (hi : Idle cfg w) (entries : List (StrandedCredit A B)) :
    Rests cfg (recheckStranded entries) w := by
  induction entries generalizing w with
  | nil => exact (keeps_pure _).mpr hi
  | cons entry entries ih =>
    unfold recheckStranded
    refine keeps_bind (R := fun balance w' => Idle cfg w' ∧
      (balance = some 0 → entry.key ∈ w'.emptied)) ?_ ?_
    · refine keeps_demand hi.sound (fun _ _ _ => trivial) ?_
      rintro t balance w' hm hs ⟨-, rfl⟩ hs'
      refine ⟨hi.calm (hm.calm.trans (calm_balanceRead t _ _)) hs', ?_⟩
      rintro rfl
      exact List.mem_cons_self
    · rintro balance w₁ ⟨hi₁, hempty⟩
      dsimp only
      split
      · rename_i hzero
        refine keeps_bind (R := fun _ w' => Idle cfg w') ?_ fun _ w' h => ih h
        refine keeps_tryCatch (Y := fun _ w' => Idle cfg w') ?_ fun _ _ h => (keeps_pure _).mpr h
        exact keeps_clearStrandedCredit hi₁ (hempty hzero)
      · exact ih hi₁

theorem keeps_recheckStrandedCredits (hi : Idle cfg w) :
    Rests cfg (recheckStrandedCredits (A := A) (B := B)) w := by
  unfold recheckStrandedCredits
  refine keeps_bind (R := fun _ w' => Idle cfg w') ?_ fun _ w' h => keeps_recheckStranded h _
  refine keeps_silent_attempt hi.sound (fun _ => trivial) ?_
    (fun _ _ _ _ _ _ hc hs' => hi.calm hc hs') fun _ _ _ _ hc hs' => hi.calm hc hs'
  rintro w b w' ⟨-, rfl⟩
  exact .refl _

/-! ## The daemon -/

theorem keeps_tickOrders (hi : Idle cfg w) : Rests cfg (tickOrders cfg) w := by
  unfold tickOrders
  refine keeps_bind (keeps_all hi) ?_
  rintro ms w₁ ⟨hi₁, hids, hget⟩
  refine keeps_bind (keeps_advanceAll hi₁ hids hget) fun _ w₂ hi₂ => ?_
  exact keeps_bind (keeps_refill hi₂) fun _ w₃ hi₃ => keeps_recheckStrandedCredits hi₃

theorem safe_tick (hi : Idle cfg w) :
    Safe (Env cfg) (operate cfg) (Guard cfg) (fun _ => FollowedUp cfg) (tick cfg) w := by
  refine Safe.of_kept (I := Sound cfg) (fun _ _ _ _ _ hs hg ho => hs.operate hg ho)
    (fun _ _ hs hm => hs.env hm) hi.sound ?_
  unfold tick
  rw [safe_bind]
  refine Safe.mono (keeps_tickOrders hi) fun r w' h => ?_
  refine (safe_ret _).mpr ?_
  cases r with
  | ok _ => exact h.followed
  | error _ => exact h.followed

theorem Start.sound (h : Start cfg w) : Sound cfg w := by
  obtain ⟨hsecrets, hdisclosed, hpublished, hposted, hsent⟩ := h.nothing
  have hmemory : w.memory.orders = w.disk.orders := by
    rw [h.memory]
    exact StateFile.hydrate_orders _
  refine ⟨⟨h.legs, ?_, ?_, ?_, ?_, ?_, ?_, ?_, ?_, ?_, ?_⟩,
    ⟨?_, h.ids, fun _ id => ?_, fun key hkey => ?_⟩,
    fun id m hm => ?_⟩
  · exact fun _ _ _ _ h => by rw [hsecrets] at h; cases h
  · exact fun _ _ h => by rw [hsecrets] at h; cases h
  · exact fun _ h => by rw [hpublished] at h; cases h
  · exact fun _ _ h => by rw [hsecrets] at h; cases h
  · exact fun _ _ h => by rw [hsecrets] at h; cases h
  · exact fun _ _ _ h => by rw [hsecrets] at h; cases h
  · exact fun _ _ _ _ _ h => by rw [hsent] at h; cases h
  · exact fun _ _ h => by rw [hsecrets] at h; cases h
  · exact fun _ _ h => by rw [hposted] at h; cases h
  · exact fun _ _ _ h => by rw [hposted] at h; cases h
  · rw [hmemory]
    exact h.ids
  · rw [h.memory]
    exact StateFile.get_hydrate _ id
  · rw [h.memory, StateFile.hydrate_stranded]
    exact .inl hkey
  · have hmem := StateFile.get_mem hm
    obtain ⟨hp, hpre, hk, hl, hclaim⟩ := h.untouched m hmem
    refine ⟨?_, ?_, ?_, ?_, ?_, ?_, ?_, ?_, ?_, ?_⟩
    · rw [h.issued, ← StateFile.get_id hm]
      exact List.mem_map_of_mem hmem
    · intro proof hproof
      simp [ManagedOrder.fillProof, hp] at hproof
    · intro hack
      simp [ManagedOrder.fillAcknowledged, hp] at hack
    · intro k hk'
      simp [hk] at hk'
    · intro hl'
      simp [hl] at hl'
    · intro st hst
      rw [hposted] at hst
      cases hst
    · intro p hmem'
      rw [hsecrets] at hmem'
      cases hmem'
    · intro l call value args hs
      rw [hsent] at hs
      cases hs
    · intro a ha
      simp [ManagedOrder.orderAuth, hp] at ha
    · intro s hs
      simp [ManagedOrder.selectedIntent, hp] at hs

theorem Start.followed (h : Start cfg w) : FollowedUp cfg w := by
  refine followedUp_of_over fun id t ht => ?_
  rw [h.fresh] at ht
  cases ht

/-- What the daemon reaches is sound, and it goes on safely from there. -/
theorem reaches_safe {p : Option (Program (Req A B) Unit)} (h₀ : Start cfg w₀)
    (h : Reaches cfg w₀ p w) : Sound cfg w ∧ ∀ q, p = some q →
      Safe (Env cfg) (operate cfg) (Guard cfg) (fun _ => FollowedUp cfg) q w := by
  have := process_safe (I := Sound cfg) (T := FollowedUp cfg) (c := (p, w))
    (fun _ hs hf => safe_tick ⟨hs, hf⟩) (fun _ _ _ _ _ hs hg ho => hs.operate hg ho)
    (fun _ _ hs hm => hs.env hm) (fun _ _ hm hf => hf.env hm)
    (fun _ _ hs hc => ⟨hs.crash hc, followedUp_crash hc⟩) h₀.sound h₀.followed h
  exact ⟨this.1, this.2.2⟩

theorem reaches_guard {β : Type} {r : Req A B β} {k : β → Program (Req A B) Unit}
    (h₀ : Start cfg w₀) (h : Reaches cfg w₀ (some (.ask r k)) w) : Sound cfg w ∧ Guard cfg w r := by
  obtain ⟨hs, hsafe⟩ := reaches_safe h₀ h
  exact ⟨hs, ((safe_ask.mp (hsafe _ rfl)) w .refl).1⟩

end

end QuantaSwap.Maker.Daemon
