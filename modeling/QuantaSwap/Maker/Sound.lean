import QuantaSwap.Maker.Chains

/-!
# What holds of the records on disk

`Entry` is what a record owes to the history: it holds every statement that was posted for its
order, its hashlock is the one that has left the process, and it says of each lock that it was sent.
Allowed changes keep it.
-/

set_option autoImplicit false
set_option linter.unusedSectionVars false

open Lib Lib.Evm Lib.Program QuantaSwap.Htlc QuantaSwap.Htlc.V3

namespace QuantaSwap.Maker.Daemon

section

variable {A B : Type}

/-! ## The proofs in a changed record -/

namespace ManagedOrder

variable (m : ManagedOrder A B)

@[simp] theorem acknowledged_fillProof (r : Bool) : (m.acknowledged r).fillProof = m.fillProof := by
  unfold fillProof acknowledged
  cases m.protocol <;> rfl

@[simp] theorem acknowledged_cancelProof (r : Bool) :
    (m.acknowledged r).cancelProof = m.cancelProof := by
  unfold cancelProof acknowledged
  cases m.protocol <;> rfl

@[simp] theorem acknowledged_selectedIntent (r : Bool) :
    (m.acknowledged r).selectedIntent = m.selectedIntent := by
  unfold selectedIntent acknowledged
  cases m.protocol <;> rfl

@[simp] theorem withCancel_fillProof (c : SignedCancelV1 B) :
    (m.withCancel c).fillProof = m.fillProof := by
  unfold fillProof withCancel
  cases m.protocol <;> rfl

@[simp] theorem withCancel_selectedIntent (c : SignedCancelV1 B) :
    (m.withCancel c).selectedIntent = m.selectedIntent := by
  unfold selectedIntent withCancel
  cases m.protocol <;> rfl

@[simp] theorem withFill_cancelProof (f : SignedFillV1 A B) :
    (m.withFill f).cancelProof = m.cancelProof := by
  unfold cancelProof withFill
  cases m.protocol <;> rfl

@[simp] theorem withFill_selectedIntent (f : SignedFillV1 A B) :
    (m.withFill f).selectedIntent = m.selectedIntent := by
  unfold selectedIntent withFill
  cases m.protocol <;> rfl

@[simp] theorem withSelected_fillProof (s : Option (SelectedFillIntentV1 A B)) :
    (m.withSelected s).fillProof = m.fillProof := by
  unfold fillProof withSelected
  cases m.protocol <;> rfl

@[simp] theorem withSelected_cancelProof (s : Option (SelectedFillIntentV1 A B)) :
    (m.withSelected s).cancelProof = m.cancelProof := by
  unfold cancelProof withSelected
  cases m.protocol <;> rfl

@[simp] theorem unselected_fillProof : m.unselected.fillProof = m.fillProof :=
  m.withSelected_fillProof none

@[simp] theorem unselected_cancelProof : m.unselected.cancelProof = m.cancelProof :=
  m.withSelected_cancelProof none

@[simp] theorem unselected_protocol_isSome : m.unselected.protocol.isSome = m.protocol.isSome := by
  simp [unselected, withSelected]

@[simp] theorem acknowledged_protocol_isSome (r : Bool) :
    (m.acknowledged r).protocol.isSome = m.protocol.isSome := by
  simp [acknowledged]

@[simp] theorem withCancel_protocol_isSome (c : SignedCancelV1 B) :
    (m.withCancel c).protocol.isSome = m.protocol.isSome := by
  simp [withCancel]

@[simp] theorem withFill_protocol_isSome (f : SignedFillV1 A B) :
    (m.withFill f).protocol.isSome = m.protocol.isSome := by
  simp [withFill]

@[simp] theorem acknowledged_hashlock (r : Bool) : (m.acknowledged r).hashlock = m.hashlock := rfl

@[simp] theorem acknowledged_preimage (r : Bool) : (m.acknowledged r).preimage = m.preimage := rfl

@[simp] theorem withCancel_hashlock (c : SignedCancelV1 B) :
    (m.withCancel c).hashlock = m.hashlock := rfl

@[simp] theorem withCancel_lockSentAt (c : SignedCancelV1 B) :
    (m.withCancel c).lockSentAt = m.lockSentAt := rfl

/-- The book has shown the exact fill. -/
def fillAcknowledged : Bool := m.protocol.any fun p => p.fillAcknowledged

@[simp] theorem withCancel_fillAcknowledged (c : SignedCancelV1 B) :
    (m.withCancel c).fillAcknowledged = m.fillAcknowledged := by
  unfold fillAcknowledged withCancel
  cases m.protocol <;> rfl

@[simp] theorem withSelected_fillAcknowledged (s : Option (SelectedFillIntentV1 A B)) :
    (m.withSelected s).fillAcknowledged = m.fillAcknowledged := by
  unfold fillAcknowledged withSelected
  cases m.protocol <;> rfl

@[simp] theorem unselected_fillAcknowledged :
    m.unselected.fillAcknowledged = m.fillAcknowledged :=
  m.withSelected_fillAcknowledged none

/-- The signature of the listing. -/
def orderAuth : Option (MakerOrderAuthV1 B) := m.protocol.map (·.orderAuth)

@[simp] theorem acknowledged_orderAuth (r : Bool) : (m.acknowledged r).orderAuth = m.orderAuth := by
  unfold orderAuth acknowledged
  cases m.protocol <;> rfl

@[simp] theorem withCancel_orderAuth (c : SignedCancelV1 B) :
    (m.withCancel c).orderAuth = m.orderAuth := by
  unfold orderAuth withCancel
  cases m.protocol <;> rfl

@[simp] theorem withFill_orderAuth (f : SignedFillV1 A B) :
    (m.withFill f).orderAuth = m.orderAuth := by
  unfold orderAuth withFill
  cases m.protocol <;> rfl

@[simp] theorem withSelected_orderAuth (s : Option (SelectedFillIntentV1 A B)) :
    (m.withSelected s).orderAuth = m.orderAuth := by
  unfold orderAuth withSelected
  cases m.protocol <;> rfl

@[simp] theorem unselected_orderAuth : m.unselected.orderAuth = m.orderAuth :=
  m.withSelected_orderAuth none

@[simp] theorem unselected_selectedIntent : m.unselected.selectedIntent = none := by
  unfold selectedIntent unselected withSelected
  cases m.protocol <;> rfl

variable {m}

theorem withFill_fillProof {p : ManagedProtocolV1 A B} (hp : m.protocol = some p)
    (f : SignedFillV1 A B) : (m.withFill f).fillProof = some f := by
  simp [fillProof, withFill, hp]

theorem withCancel_cancelProof {p : ManagedProtocolV1 A B} (hp : m.protocol = some p)
    (c : SignedCancelV1 B) : (m.withCancel c).cancelProof = some c := by
  simp [cancelProof, withCancel, hp]

end ManagedOrder

section

variable [DecidableEq A] [DecidableEq B] [Zero A] [Zero B] (cfg : Config A B)

@[simp] theorem selecting_fillProof (m : ManagedOrder A B) (s : SelectedFillIntentV1 A B) (p : B)
    (t : Int) : (m.selecting cfg s p t).fillProof = m.fillProof :=
  m.withSelected_fillProof (some s)

@[simp] theorem selecting_cancelProof (m : ManagedOrder A B) (s : SelectedFillIntentV1 A B) (p : B)
    (t : Int) : (m.selecting cfg s p t).cancelProof = m.cancelProof :=
  m.withSelected_cancelProof (some s)

@[simp] theorem selecting_fillAcknowledged (m : ManagedOrder A B) (s : SelectedFillIntentV1 A B)
    (p : B) (t : Int) : (m.selecting cfg s p t).fillAcknowledged = m.fillAcknowledged :=
  m.withSelected_fillAcknowledged (some s)

@[simp] theorem selecting_protocol_isSome (m : ManagedOrder A B) (s : SelectedFillIntentV1 A B)
    (p : B) (t : Int) : (m.selecting cfg s p t).protocol.isSome = m.protocol.isSome := by
  simp [ManagedOrder.selecting, ManagedOrder.withSelected]

theorem selecting_selectedIntent {m : ManagedOrder A B} {p : ManagedProtocolV1 A B}
    (hp : m.protocol = some p) (s : SelectedFillIntentV1 A B) (preimage : B) (t : Int) :
    (m.selecting cfg s preimage t).selectedIntent = some s := by
  simp [ManagedOrder.selecting, ManagedOrder.withSelected, ManagedOrder.selectedIntent, hp]

@[simp] theorem selecting_orderAuth (m : ManagedOrder A B) (s : SelectedFillIntentV1 A B) (p : B)
    (t : Int) : (m.selecting cfg s p t).orderAuth = m.orderAuth :=
  m.withSelected_orderAuth (some s)

/-! ## The record and the history -/

/-- What holds of the record of the order `id`. -/
structure Entry (w : World A B) (id : String) (m : ManagedOrder A B) : Prop where
  fill : ∀ proof, m.fillProof = some proof → m.cancelProof = none ∧
    (∃ s, m.selectedIntent = some s ∧ s.intentDigest = proof.fill.intentDigest) ∧
    m.hashlock = some proof.fill.hashlock
  acknowledged : m.fillAcknowledged = true → m.fillProof.isSome = true
  secret : ∀ k, m.hashlock = some k →
    ∃ p, m.preimage = some p ∧ (id, p) ∈ w.secrets ∧ cfg.sha256 p = k
  locked : m.lockSentAt.isSome = true → m.protocol.isSome = true → m.fillProof.isSome = true
  posted : ∀ st, (id, st) ∈ w.posted → m.protocol.isSome = true ∧ m.Holds cfg st
  known : ∀ p, (id, p) ∈ w.secrets → cfg.sha256 p ∈ w.disclosed →
    m.hashlock = some (cfg.sha256 p) ∧ (m.protocol.isSome = true → m.fillProof.isSome = true)
  sent : ∀ l call value args, (id, l, Tx.htlc call, value) ∈ w.sent →
    lockArgs value call = some args →
    m.lockSentAt.isSome = true ∧ l = initiatorLeg m.direction ∧ m.hashlock = some args.1
  listed : ∀ a, m.orderAuth = some a → Relation.ReflTransGen cfg.ticks a.issuedAt w.clock
  selected : ∀ s, m.selectedIntent = some s →
    ∃ t, Relation.ReflTransGen cfg.ticks t w.clock ∧ s.auth.issuedAt ≤ t

variable {cfg} {w : World A B} {id : String} {m m' : ManagedOrder A B}

theorem signedFill_fill {p : ManagedProtocolV1 A B} {s : SelectedFillIntentV1 A B}
    {proof : SignedFillV1 A B} (h : SignedFillFor cfg w m p s proof) :
    proof.fill.intentDigest = s.intentDigest ∧ m.hashlock = some proof.fill.hashlock := by
  obtain ⟨hashlock, t1, t2, issuedAt, respondBy, nonce, signature, hk, -, -, -, -, hsign, -⟩ := h
  rw [(signFillV1_signed hsign).body]
  exact ⟨rfl, hk⟩

theorem Entry.unposted (he : Entry cfg w id m) (hf : m.fillProof = none) (hc : m.cancelProof = none)
    (st : Statement A B) : (id, st) ∉ w.posted := by
  intro hst
  have hholds := (he.posted st hst).2
  cases st with
  | fill proof intent auth => exact absurd (hf.symm.trans hholds.1) (by simp)
  | cancel proof => exact absurd (hc.symm.trans hholds) (by simp)

theorem Entry.undisclosed (he : Entry cfg w id m) (hp : m.protocol.isSome = true)
    (hf : m.fillProof = none) {p : B} (hs : (id, p) ∈ w.secrets) : cfg.sha256 p ∉ w.disclosed := by
  intro hd
  have := (he.known p hs hd).2 hp
  simp [hf] at this

theorem Entry.frame (he : Entry cfg w id m) (hprot : m'.protocol = m.protocol)
    (hpre : m'.preimage = m.preimage) (hhash : m'.hashlock = m.hashlock)
    (hdir : m'.direction = m.direction) (hlock : m.lockSentAt.isSome = true →
      m'.lockSentAt.isSome = true)
    (hlocked : m'.lockSentAt.isSome = true → m'.protocol.isSome = true →
      m'.fillProof.isSome = true) :
    Entry cfg w id m' := by
  have hf : m'.fillProof = m.fillProof := congrArg (·.bind (·.fillProof)) hprot
  have hs : m'.selectedIntent = m.selectedIntent := congrArg (·.bind (·.selectedIntent)) hprot
  have hc : m'.cancelProof = m.cancelProof := congrArg (·.bind (·.cancelProof)) hprot
  have ha : m'.orderAuth = m.orderAuth := congrArg (·.map (·.orderAuth)) hprot
  refine ⟨?_, ?_, ?_, hlocked, ?_, ?_, ?_, ha ▸ he.listed, hs ▸ he.selected⟩
  · rw [hf, hs, hc, hhash]
    exact he.fill
  · have hack : m'.fillAcknowledged = m.fillAcknowledged :=
      congrArg (·.any fun p => p.fillAcknowledged) hprot
    rw [hf, hack]
    exact he.acknowledged
  · rw [hpre, hhash]
    exact he.secret
  · intro st hst
    obtain ⟨hp, hholds⟩ := he.posted st hst
    refine ⟨hprot ▸ hp, ?_⟩
    cases st with
    | fill proof intent auth =>
      unfold ManagedOrder.Holds at hholds ⊢
      rw [hf, hs, hpre]
      exact hholds
    | cancel proof =>
      unfold ManagedOrder.Holds at hholds ⊢
      rw [hc]
      exact hholds
  · rw [hf, hhash, hprot]
    exact he.known
  · intro l call value args hmem hargs
    obtain ⟨h1, h2, h3⟩ := he.sent l call value args hmem hargs
    rw [hdir, hhash]
    exact ⟨hlock h1, h2, h3⟩

theorem Entry.marked (he : Entry cfg w id m) (hprot : m'.protocol = m.protocol)
    (hpre : m'.preimage = m.preimage) (hhash : m'.hashlock = m.hashlock)
    (hdir : m'.direction = m.direction) (hlock : m'.lockSentAt = m.lockSentAt) :
    Entry cfg w id m' := by
  refine he.frame hprot hpre hhash hdir (by rw [hlock]; exact fun h => h) ?_
  have hf : m'.fillProof = m.fillProof := congrArg (·.bind (·.fillProof)) hprot
  rw [hlock, hprot, hf]
  exact he.locked

/-- Every allowed change keeps what holds of a record. -/
theorem Entry.change (he : Entry cfg w m.id m) (hc : Change cfg w m m') : Entry cfg w m.id m' := by
  cases hc with
  | again => exact he
  | acknowledged released hf =>
    refine ⟨?_, ?_, he.secret, ?_, ?_, ?_, he.sent, by simpa using he.listed,
      by simpa using he.selected⟩
    · simpa using he.fill
    · simpa using fun _ => hf
    · simpa using fun _ _ => hf
    · intro st hst
      obtain ⟨hp, hholds⟩ := he.posted st hst
      refine ⟨by simpa using hp, ?_⟩
      cases st with
      | fill proof intent auth =>
        unfold ManagedOrder.Holds at hholds ⊢
        simpa using hholds
      | cancel proof =>
        unfold ManagedOrder.Holds at hholds ⊢
        simpa using hholds
    · simpa using he.known
  | @cancelled p proof hp hf hcancel hs =>
    refine ⟨?_, ?_, he.secret, ?_, ?_, ?_, he.sent, by simpa using he.listed,
      by simpa using he.selected⟩
    · simp [hf]
    · simpa using he.acknowledged
    · simpa using he.locked
    · exact fun st hst => absurd hst (he.unposted hf hcancel st)
    · simpa using he.known
  -- Without a fill no statement was posted, no lock was sent and the secret is unknown outside.
  | @unselected s hs hf hcancel =>
    have hp : m.protocol.isSome = true := by
      unfold ManagedOrder.selectedIntent at hs
      cases hprot : m.protocol with
      | none => simp [hprot] at hs
      | some p => rfl
    have hlock : m.lockSentAt = none := by
      cases hl : m.lockSentAt with
      | none => rfl
      | some t =>
        have := he.locked (by simp [hl]) hp
        simp [hf] at this
    refine ⟨?_, ?_, ?_, ?_, ?_, ?_, ?_, by simpa using he.listed, by simp⟩
    · simp [hf]
    · simpa using he.acknowledged
    · intro k hk
      cases hk
    · intro h
      simp [ManagedOrder.unselected, ManagedOrder.withSelected, hlock] at h
    · exact fun st hst => absurd hst (he.unposted hf hcancel st)
    · exact fun p hmem hd => absurd hd (he.undisclosed hp hf hmem)
    · intro l call value args hmem hargs
      have := (he.sent l call value args hmem hargs).1
      simp [hlock] at this
  -- A new secret takes the place of the one of a dropped selection.
  | @selecting p s secret selectedAt hp hs hf hcancel hsecret ht =>
    have hprot : m.protocol.isSome = true := by simp [hp]
    have hlock : m.lockSentAt = none := by
      cases hl : m.lockSentAt with
      | none => rfl
      | some t =>
        have := he.locked (by simp [hl]) hprot
        simp [hf] at this
    refine ⟨?_, ?_, ?_, ?_, ?_, ?_, ?_, by simpa using he.listed, ?_⟩
    · simp [hf]
    · simpa using he.acknowledged
    · intro k hk
      cases hk
      exact ⟨secret, rfl, hsecret, rfl⟩
    · intro h
      simp [ManagedOrder.selecting, ManagedOrder.withSelected, hlock] at h
    · exact fun st hst => absurd hst (he.unposted hf hcancel st)
    · exact fun p hmem hd => absurd hd (he.undisclosed hprot hf hmem)
    · intro l call value args hmem hargs
      have := (he.sent l call value args hmem hargs).1
      simp [hlock] at this
    · intro s' hs'
      rw [selecting_selectedIntent cfg hp] at hs'
      cases hs'
      obtain ⟨-, now, hnow, hclock, hissued, -⟩ := ht
      exact ⟨now, hnow.trans hclock, hissued⟩
  | @filled p s proof hp hs hf hcancel ht =>
    obtain ⟨hdigest, hhash⟩ := signedFill_fill ht
    have hprot : m.protocol.isSome = true := by simp [hp]
    have hfill := ManagedOrder.withFill_fillProof hp proof
    refine ⟨?_, ?_, he.secret, ?_, ?_, ?_, he.sent, by simpa using he.listed,
      by simpa using he.selected⟩
    · intro proof' hproof'
      rw [hfill] at hproof'
      cases hproof'
      refine ⟨by simpa using hcancel, ⟨s, by simpa using hs, hdigest.symm⟩, hhash⟩
    · exact fun _ => by simp [hfill]
    · exact fun _ _ => by simp [hfill]
    · exact fun st hst => absurd hst (he.unposted hf hcancel st)
    · exact fun p hmem hd => absurd hd (he.undisclosed hprot hf hmem)
  | @secret secret hp hk hsecret =>
    have hf : m.fillProof = none := by simp [ManagedOrder.fillProof, hp]
    refine ⟨?_, ?_, ?_, ?_, ?_, ?_, ?_, he.listed, he.selected⟩
    · intro proof hproof
      change m.fillProof = _ at hproof
      simp [hf] at hproof
    · intro h
      change m.fillAcknowledged = true at h
      simp [ManagedOrder.fillAcknowledged, hp] at h
    · intro k hk'
      cases hk'
      exact ⟨secret, rfl, hsecret, rfl⟩
    · intro _ h
      simp [hp] at h
    · intro st hst
      have := (he.posted st hst).1
      simp [hp] at this
    · intro p hmem hd
      have := (he.known p hmem hd).1
      simp [hk] at this
    · intro l call value args hmem hargs
      have := (he.sent l call value args hmem hargs).2.2
      simp [hk] at this
  | announced hp => exact he.marked rfl rfl rfl rfl rfl
  | lockSent hk hf => exact he.frame rfl rfl rfl rfl (fun _ => rfl) (fun _ h => hf h)
  | claimSent | sponsorSent | refundSent | withdrawSent | pushSent | withdrawRejected
  | pushRejected => exact he.marked rfl rfl rfl rfl rfl

theorem New.entry (hn : New cfg w m) (hsent : ∀ l call value args,
    (m.id, l, Tx.htlc call, value) ∈ w.sent → lockArgs value call = some args →
      ∃ p, (m.id, p) ∈ w.secrets ∧ cfg.sha256 p = args.1) : Entry cfg w m.id m := by
  obtain ⟨asset, direction, q, issuedAt, createdAt, nonce, signature, signed, -, hissued, -, hsign,
    -, hm⟩ := hn.pending
  refine ⟨?_, ?_, ?_, ?_, ?_, ?_, ?_, ?_, ?_⟩
  · intro proof hproof
    rw [hm] at hproof
    cases hproof
  · intro h
    rw [hm] at h
    cases h
  · intro k hk
    rw [hm] at hk
    cases hk
  · intro h
    rw [hm] at h
    cases h
  · exact fun st hst => absurd hst (hn.unposted st)
  · exact fun p hp => absurd hp (hn.unused p)
  · intro l call value args hmem hargs
    obtain ⟨p, hp, -⟩ := hsent l call value args hmem hargs
    exact absurd hp (hn.unused p)
  · intro a ha
    rw [hm] at ha
    cases ha
    rw [(signOrderV1_signed hsign).issued]
    exact hissued
  · intro s hs
    rw [hm] at hs
    cases hs

end

end

end QuantaSwap.Maker.Daemon
