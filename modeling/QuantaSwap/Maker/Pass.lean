import QuantaSwap.Maker.Act

/-!
# A pass keeps to what is allowed

Each decision finds on the chains what it rests on. With that the whole pass, from its reads to its
last request, asks for nothing that is not allowed.
-/

set_option autoImplicit false
set_option linter.unusedSectionVars false

open Lib Lib.Evm Lib.Program QuantaSwap.Htlc QuantaSwap.Htlc.V3

namespace QuantaSwap.Maker.Daemon

section

variable {A B : Type} [DecidableEq A] [DecidableEq B] [Zero A] [Zero B] {cfg : Config A B}
  {d : String → Option (ManagedOrder A B)} {m m' : ManagedOrder A B} {p : ManagedProtocolV1 A B}
  {x : Pass A B} {w w' : World A B}

/-! ## What a decision rests on -/

theorem terminal_swap {s s' : LegState A B} (ht : terminal s = true) (hx : Extends s s') :
    terminal s' = true := by
  rw [hx.terminal ?_]
  · exact ht
  · unfold terminal at ht
    unfold Status.terminal
    revert ht
    cases s.status <;> decide

theorem Facts.iPlaced (hf : Facts cfg m x.reads w) {s : LegState A B}
    (hs : x.reads.iState = some s) (ho : s.status ≠ .None) :
    ∀ k, m.hashlock = some k → (w.swap (initiatorLeg m.direction) k).status ≠ .None := by
  intro k hk
  obtain ⟨k', hk', hx, -⟩ := hf.iState s hs
  rw [hk] at hk'
  cases hk'
  exact hx.not_none ho

theorem onBoth (hi : ∀ k, m.hashlock = some k →
    (w.swap (initiatorLeg m.direction) k).status ≠ .None)
    (hr : ∀ k, m.hashlock = some k → (w.swap (responderLeg m.direction) k).status ≠ .None) :
    OnBoth m w := by
  intro k hk l
  have hi := hi k hk
  have hr := hr k hk
  cases hd : m.direction <;> cases l <;> simp only [hd, initiatorLeg, responderLeg] at hi hr <;>
    assumption

theorem rSettled_facts {expired : Bool} {now t2 : Int} {k : B} (hf : Facts cfg m x.reads w)
    (hk : m.hashlock = some k) (hr : (m.decideInput cfg x expired now).rSettled t2 = true) :
    terminal (w.swap (responderLeg m.direction) k) = true ∨ Secret cfg w m := by
  unfold DecideInput.rSettled at hr
  rw [Option.any_eq_true] at hr
  obtain ⟨r, hr, hset⟩ := hr
  obtain ⟨k', hk', hx, hsecret⟩ := hf.rState r hr
  obtain rfl : k' = k := Option.some.inj (hk'.symm.trans hk)
  simp only [Bool.or_eq_true, Bool.and_eq_true, beq_iff_eq] at hset
  obtain ht | ⟨hnone, -⟩ := hset
  · exact .inl (terminal_swap ht hx)
  · exact .inr (hsecret hnone)

theorem creditsSettled_facts {expired : Bool} {now : Int} {s : LegState A B}
    (hf : Facts cfg m x.reads w) (hk : m.hashlock.isSome = true)
    (hc : (m.decideInput cfg x expired now).creditsSettled s = true) :
    withdrawParked m.decision now = true ∨ w.shown m.id = (0, 0) := by
  unfold DecideInput.creditsSettled at hc
  simp only [Bool.and_eq_true, Bool.or_eq_true, beq_iff_eq] at hc
  obtain hparked | ⟨h₁, h₂⟩ := hc.1
  · exact .inl hparked
  · obtain ⟨hr, hi⟩ := hf.credits hk
    exact .inr (Prod.ext (hr 0 h₁).symm (hi 0 h₂).symm)

theorem keeps_act (hh : Here cfg d m w) (hf : Facts cfg m x.reads w) (blocked expired : Bool)
    {act' : Decision} (hact : (m.decideInput cfg x expired w.clock).decide = act') :
    Ends cfg d m.id (act cfg m x blocked act') w := by
  unfold act
  cases act' with
  | wait => exact (keeps_pure _).mpr hh.left
  | announce => exact keeps_announce hh x.view
  | lock =>
    refine keeps_lock hh _ _ fun hp => ?_
    obtain ⟨p, hp⟩ := Option.isSome_iff_exists.mp hp
    have hack := decide_lock hact
    change (m.protocol.map _).all _ = true at hack
    refine hh.entry.acknowledged ?_
    simpa [ManagedOrder.fillAcknowledged, hp] using hack
  | claim =>
    obtain ⟨t2, iState, -, hi, ho, hc⟩ := decide_claim hact
    unfold DecideInput.claimable at hc
    obtain ⟨r, hr, hor⟩ : ∃ r, x.reads.rState = some r ∧ r.status = .Open := by
      have := (Bool.and_eq_true _ _).mp hc
      simpa [Option.any_eq_true, ManagedOrder.decideInput] using this.1
    -- Both swaps are placed, so publishing the secret is safe.
    refine keeps_claim hh (onBoth (hf.iPlaced hi (by simp [ho])) ?_)
    intro k hk
    obtain ⟨k', hk', hx, -⟩ := hf.rState r hr
    rw [hk] at hk'
    cases hk'
    exact hx.not_none (by simp [hor])
  | sponsor =>
    obtain ⟨iState, hi, ho⟩ := decide_sponsor_open hact
    obtain ⟨r, hr, hcr⟩ : ∃ r, x.reads.rConfirmed = some r ∧ r.status = .Claimed := by
      simpa [Option.any_eq_true, ManagedOrder.decideInput] using decide_sponsor hact
    refine keeps_sponsor hh (onBoth (hf.iPlaced hi (by simp [ho])) ?_)
    intro k hk
    obtain ⟨k', hk', hx⟩ := hf.rConfirmed r hr
    rw [hk] at hk'
    cases hk'
    exact hx.not_none (by simp [hcr])
  | refund =>
    obtain ⟨iState, hi, ho⟩ := decide_refund hact
    exact keeps_refund hh (hf.iPlaced hi (by simp [ho]))
  | withdraw => exact keeps_withdraw hh _
  | push => exact keeps_push hh _
  | finish =>
    obtain ⟨k, t2, iState, hk, hi, hterminal, hr, hcredits⟩ := decide_finish hact
    obtain ⟨k', hk', hx, -⟩ := hf.iState iState hi
    obtain rfl : k' = k := Option.some.inj (hk'.symm.trans hk)
    -- What was read stays true until the record is deleted: terminal swaps do not move.
    refine keeps_delete hh (fun t ht _ => ?_) (fun _ h => h) fun _ _ _ h => h
    have hl := ht.later
    have hclock : t.clock = w.clock := by
      obtain ⟨is, rfl⟩ := ht
      rfl
    refine .finish hk' (terminal_swap hterminal (hx.trans (hl.extends _ _))) ?_ ?_
    · obtain hr | hs := rSettled_facts hf hk' hr
      · exact .inl (terminal_swap hr (hl.extends _ _))
      · exact .inr (hs.later hl)
    · rw [hclock, hl.shown]
      exact creditsSettled_facts hf (by simp [hk']) hcredits
  | abort =>
    obtain ⟨hl, hk⟩ := decide_abort hact
    refine keeps_abort hh hf hl ?_ _
    intro k p hk' hp hmem
    obtain hk | ⟨iState, hi, hnone⟩ := hk
    · exact absurd (hk'.symm.trans hk) (by simp)
    · obtain ⟨_, _, _, hsecret⟩ := hf.iState iState hi
      exact hsecret hnone k p hk' hp hmem

theorem keeps_settle (hh : Here cfg d m w) (hf : Facts cfg m x.reads w) (blocked : Bool) :
    Ends cfg d m.id (settle cfg m x blocked) w := by
  unfold settle
  refine keeps_bind (R := fun _ w' => Here cfg d m w' ∧ Later cfg w w')
    (keeps_nowS hh.sound fun _ _ hc hs' _ => ⟨hh.calm hc hs', hc.toLater⟩) ?_
  rintro respondAt w₁ ⟨hh₁, hl₁⟩
  refine keeps_bind (R := fun now w' => Here cfg d m w' ∧ Later cfg w w' ∧ w'.clock = now)
    (keeps_nowS hh₁.sound fun _ _ hc hs' ht => ⟨hh₁.calm hc hs', hl₁.trans hc.toLater, ht⟩) ?_
  rintro now w₂ ⟨hh₂, hl₂, rfl⟩
  refine keeps_bind (keeps_act hh₂ (hf.later hl₂) blocked _ rfl) ?_
  exact fun _ _ h => (keeps_pure _).mpr h

/-! ## The open listing -/

theorem keeps_heartbeat (hh : Here cfg d m w) :
    Keeps cfg (fun _ w' => Here cfg d m w' ∧ Later cfg w w') (fun _ w' => Left cfg d m.id w')
      (heartbeat m) w := by
  unfold heartbeat
  split
  · refine keeps_silent hh.sound (fun _ => trivial) ?_ fun _ w' hc hs' =>
      ⟨hh.calm hc hs', hc.toLater⟩
    rintro w b w' rfl
    exact .refl _
  · exact (keeps_pure _).mpr ⟨hh, .refl w⟩

theorem keeps_advanceOpen (hh : Here cfg d m w) (hf : Facts cfg m x.reads w)
    (hfill : m.fillProof = none) (hcancel : m.protocol.isSome = true → m.cancelProof = none) :
    Ends cfg d m.id (advanceOpen cfg m x) w := by
  unfold advanceOpen
  refine keeps_bind (R := fun _ w' => Here cfg d m w' ∧ Later cfg w w') ?_ ?_
  · refine keeps_silent hh.sound (fun _ => trivial) ?_ fun _ w' hc hs' =>
      ⟨hh.calm hc hs', hc.toLater⟩
    rintro w b w' rfl
    exact .refl _
  · rintro mid w₁ ⟨hh₁, hl₁⟩
    split
    · refine keeps_bind ((keeps_cancelListing hh₁).mono (fun _ _ h => h) fun _ _ h => h.elim) ?_
      intro cancelled w₂ h₂
      cases cancelled with
      | false => exact (keeps_pure _).mpr h₂
      | true =>
        obtain ⟨m', hh₂, -, hmay⟩ := h₂
        rw [if_pos rfl, ← hmay.id]
        refine keeps_bind (R := fun _ w' => Left cfg d m'.id w') ?_ ?_
        · exact keeps_delete hh₂ (fun _ _ _ => .repriced (hmay.fillProof hfill)) (fun _ h => h)
            fun _ _ _ h => h
        · exact fun _ _ h => (keeps_pure _).mpr h
    · refine keeps_bind (keeps_heartbeat hh₁) ?_
      rintro _ w₂ ⟨hh₂, hl₂⟩
      split
      · rename_i p hp
        exact keeps_selectFill hh₂ hp hfill (hcancel (by simp [hp])) _
      · exact keeps_settle hh₂ ((hf.later hl₁).later hl₂) _

theorem keeps_drainOrder (hh : Here cfg d m w) (hfill : m.fillProof = none)
    (bookStatus : BookStatus) :
    Keeps cfg (fun drained w' => if drained then Left cfg d m.id w' else w' = w)
      (fun _ _ => False) (drainOrder cfg m bookStatus) w := by
  unfold drainOrder
  split
  · exact (keeps_pure _).mpr rfl
  · refine keeps_tryCatch (Y := fun _ w' => Left cfg d m.id w') ?_ fun _ _ h => (keeps_pure _).mpr h
    refine keeps_bind (R := fun _ w' => ∃ m', Here cfg d m' w' ∧ MayCancel m m') ?_ ?_
    · refine keeps_tryCatch (Y := fun e w' => Left cfg d m.id w' ∧
        (e = .gone → ∃ m', Here cfg d m' w' ∧ Later cfg w w' ∧ MayCancel m m')) ?_ ?_
      · refine keeps_bind (keeps_cancelManaged hh) ?_
        rintro _ w' ⟨m', h, -, hmay⟩
        exact (keeps_pure _).mpr ⟨m', h, hmay⟩
      · rintro e w' ⟨hleft, hgone⟩
        split
        · rename_i he
          obtain ⟨m', h, -, hmay⟩ := hgone he
          exact (keeps_pure _).mpr ⟨m', h, hmay⟩
        · exact (keeps_throw _).mpr hleft
    · rintro _ w₁ ⟨m', hh₁, hmay⟩
      rw [← hmay.id]
      refine keeps_bind (R := fun _ w' => Left cfg d m'.id w') ?_ ?_
      · exact keeps_delete hh₁ (fun _ _ _ => .drained (hmay.fillProof hfill)) (fun _ h => h)
          fun _ _ _ h => h
      · exact fun _ _ h => (keeps_pure _).mpr h

theorem keeps_advanceListed (hh : Here cfg d m w) (hf : Facts cfg m x.reads w)
    (hcancel : m.protocol.isSome = true → m.cancelProof = none) (blocked : Bool) :
    Ends cfg d m.id (advanceListed cfg m x blocked) w := by
  have hlisted : m.fillProof = none → Ends cfg d m.id
      (if x.bookStatus = .open then advanceOpen cfg m x else settle cfg m x blocked) w := by
    intro hfill
    split
    · exact keeps_advanceOpen hh hf hfill hcancel
    · exact keeps_settle hh hf blocked
  unfold advanceListed
  split
  · exact keeps_settle hh hf blocked
  · rename_i hfill
    have hfill : m.fillProof = none := by simpa using hfill
    dsimp only
    split
    · refine keeps_bind ((keeps_drainOrder hh hfill _).mono (fun _ _ h => h) fun _ _ h => h.elim) ?_
      intro drained w₁ h₁
      cases drained with
      | true => exact (keeps_pure _).mpr h₁
      | false =>
        obtain rfl : w₁ = w := h₁
        exact hlisted hfill
    · exact hlisted hfill

/-! ## The terminal statements of a pass -/

theorem keeps_publishCancel {proof : SignedCancelV1 B} (hh : Here cfg d m w)
    (hp : m.protocol = some p) (hc : p.cancelProof = some proof) :
    Ends cfg d m.id (publishCancel cfg m p proof x) w := by
  have hcancel : m.cancelProof = some proof := (cancelProof_of_protocol hp).trans hc
  have hdelete : ∀ w', Here cfg d m w' → Ends cfg d m.id (do
      attempt (.delete m.id .cancelled)
      return x.view : Act A B (Option (OrderView A B))) w' := by
    intro w' hh'
    refine keeps_bind (R := fun _ w' => Left cfg d m.id w') ?_ ?_
    · exact keeps_delete hh' (fun _ _ _ => .cancelled (by simp [hcancel])) (fun _ h => h)
        fun _ _ _ h => h
    · exact fun _ _ h => (keeps_pure _).mpr h
  unfold publishCancel
  split
  · exact hdelete w hh
  · exact (keeps_pure _).mpr hh.left
  · refine keeps_bind ((keeps_cancelSigned hh (by simp [hp]) hcancel).mono (fun _ _ h => h)
      fun _ _ h => h.1.left) ?_
    exact fun _ w' h => hdelete w' h.1
  · exact (keeps_throw _).mpr hh.left

theorem keeps_retryFill (hh : Here cfg d m w) (hf : Facts cfg m x.reads w)
    (hcancel : m.protocol.isSome = true → m.cancelProof = none) :
    Ends cfg d m.id (retryFill cfg m x) w := by
  unfold retryFill
  refine keeps_bind (R := fun filled w' =>
    filled.elim (Here cfg d m w' ∧ Later cfg w w') fun _ => Left cfg d m.id w') ?_ ?_
  · refine keeps_tryCatch (keeps_map (keeps_publishFill hh) fun _ _ h => h) ?_
    rintro e w' ⟨hleft, hdown⟩
    split
    · rename_i he
      exact (keeps_pure _).mpr (hdown he.1)
    · exact (keeps_throw _).mpr hleft
  · intro filled w₁ h₁
    cases filled with
    | some view => exact (keeps_pure _).mpr h₁
    | none => exact keeps_advanceListed h₁.1 (hf.later h₁.2) hcancel true

theorem keeps_recoverListing (hh : Here cfg d m w) (hp : m.protocol = some p)
    (hfill : p.fillProof = none) (hcancel : p.cancelProof = none) :
    Ends cfg d m.id (recoverListing cfg m p) w := by
  have hf : m.fillProof = none := (fillProof_of_protocol hp).trans hfill
  have hl : m.lockSentAt = none := by
    by_contra hne
    have := hh.entry.locked (Option.isSome_iff_ne_none.mpr hne) (by simp [hp])
    simp [hf] at this
  unfold recoverListing
  refine keeps_bind (R := fun _ w' => Here cfg d m w')
    (keeps_nowS hh.sound fun _ _ hc hs' _ => hh.calm hc hs') ?_
  intro now w₁ hh₁
  split
  · refine keeps_bind (R := fun _ w' => Left cfg d m.id w') ?_ ?_
    · exact keeps_delete hh₁ (fun _ _ _ => .expired hp hf
        ((cancelProof_of_protocol hp).trans hcancel) hl) (fun _ h => h) fun _ _ _ h => h
    · exact fun _ _ h => (keeps_pure _).mpr h
  · exact keeps_publishSignedOrder hh₁

theorem lockSentAt_of_not_continue {s : Option (LegState A B)}
    (h : ¬ canContinueWithoutBook m.decision s = true) : m.lockSentAt = none := by
  unfold canContinueWithoutBook at h
  simp only [Bool.or_eq_true, not_or] at h
  exact Option.not_isSome_iff_eq_none.mp h.1.2

theorem keeps_advanceSigned (hh : Here cfg d m w) (hf : Facts cfg m x.reads w)
    (hp : m.protocol = some p) : Ends cfg d m.id (advanceSigned cfg m p x) w := by
  unfold advanceSigned
  refine keeps_bind (R := fun _ w' => Here cfg d m w' ∧ Later cfg w w')
    (keeps_nowS hh.sound fun _ _ hc hs' _ => ⟨hh.calm hc hs', hc.toLater⟩) ?_
  rintro now w₁ ⟨hh₁, hl₁⟩
  have hf₁ := hf.later hl₁
  split
  · rename_i hexpired
    refine keeps_bind (R := fun _ w' => Left cfg d m.id w') ?_ ?_
    · refine keeps_delete hh₁ (fun _ _ _ => .expired hp ?_ ?_ ?_) (fun _ h => h) fun _ _ _ h => h
      · rw [fillProof_of_protocol hp]
        simpa using hexpired.2.1
      · rw [cancelProof_of_protocol hp]
        simpa using hexpired.2.2.1
      · exact lockSentAt_of_not_continue hexpired.2.2.2
    · exact fun _ _ h => (keeps_pure _).mpr h
  · split
    · rename_i hmissing
      exact keeps_recoverListing hh₁ hp (by simpa using hmissing.2.2.1)
        (by simpa using hmissing.2.2.2)
    · split
      · rename_i proof hc
        exact keeps_publishCancel hh₁ hp hc
      · rename_i hc
        have hcancel : m.protocol.isSome = true → m.cancelProof = none :=
          fun _ => (cancelProof_of_protocol hp).trans hc
        split
        · exact keeps_retryFill hh₁ hf₁ hcancel
        · exact keeps_advanceListed hh₁ hf₁ hcancel false

theorem keeps_advanceRead (hh : Here cfg d m w) (hf : Facts cfg m x.reads w) :
    Ends cfg d m.id (advanceRead cfg m x) w := by
  unfold advanceRead
  split
  · exact (keeps_throw _).mpr hh.left
  · split
    · rename_i p hp
      exact keeps_advanceSigned hh hf hp
    · rename_i hp
      exact keeps_advanceListed hh hf (fun h => by simp [hp] at h) false

theorem keeps_advance (hh : Here cfg d m w) : Ends cfg d m.id (advance cfg m) w := by
  unfold advance
  refine keeps_bind (R := fun _ w' => Here cfg d m w')
    (keeps_nowS hh.sound fun _ _ hc hs' _ => hh.calm hc hs') ?_
  intro now w₁ hh₁
  split
  · rename_i hretire
    refine keeps_bind (R := fun _ w' => Left cfg d m.id w') ?_ ?_
    · exact keeps_delete hh₁ (fun _ _ _ => .quoteExpired hretire) (fun _ h => h) fun _ _ _ h => h
    · exact fun _ _ h => (keeps_pure _).mpr h
  · refine keeps_bind ((keeps_readBook hh₁).mono (fun _ _ h => h) fun _ _ h => h) ?_
    rintro ⟨bookStatus, view, bookDown⟩ w₂ ⟨hh₂, -, -⟩
    refine keeps_bind (keeps_observeView hh₂ view) ?_
    rintro m' w₃ ⟨hh₃, -, hmay⟩
    rw [← hmay.id]
    refine keeps_bind ((keeps_readChains hh₃).mono (fun _ _ h => h) fun _ _ h => h.elim) ?_
    rintro reads w₄ ⟨hh₄, hf₄⟩
    exact keeps_advanceRead hh₄ hf₄

end

end QuantaSwap.Maker.Daemon
