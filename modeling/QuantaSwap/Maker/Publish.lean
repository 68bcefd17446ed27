import QuantaSwap.Maker.Keeps

/-!
# What a pass asks of the book

One lemma for each function of `advance` that has to do with the order book: the terminal
statements, the listing, reading it, and taking a proposal.
-/

set_option autoImplicit false
set_option linter.unusedSectionVars false

open Lib Lib.Evm Lib.Program QuantaSwap.Htlc QuantaSwap.Htlc.V3

namespace QuantaSwap.Maker.Daemon

section

variable {A B : Type} [DecidableEq A] [DecidableEq B] [Zero A] [Zero B] {cfg : Config A B}
  {d : String → Option (ManagedOrder A B)} {m m' : ManagedOrder A B} {p : ManagedProtocolV1 A B}
  {w w' : World A B}

/-- The pass ends here, well or with a failure. -/
abbrev Ends {α : Type} (cfg : Config A B) (d : String → Option (ManagedOrder A B)) (id : String)
    (a : Act A B α) (w : World A B) : Prop :=
  Keeps cfg (fun _ w => Left cfg d id w) (fun _ w => Left cfg d id w) a w

theorem fillProof_of_protocol (hp : m.protocol = some p) : m.fillProof = p.fillProof := by
  simp [ManagedOrder.fillProof, hp]

theorem cancelProof_of_protocol (hp : m.protocol = some p) : m.cancelProof = p.cancelProof := by
  simp [ManagedOrder.cancelProof, hp]

/-! ## Terminal statements -/

/-- The record as it is, or with its cancellation signed. -/
def MayCancel (m m' : ManagedOrder A B) : Prop :=
  m' = m ∨ ∃ proof, m.fillProof = none ∧ m' = m.withCancel proof

theorem MayCancel.id (h : MayCancel m m') : m'.id = m.id := by
  obtain rfl | ⟨proof, -, rfl⟩ := h <;> rfl

/-- A failure that the book has no part in. -/
def Err.ours (e : Err) : Prop := e = .poisoned ∨ e.ofWrite

theorem Err.ours.ne_gone {e : Err} (h : e.ours) : e ≠ .gone := by
  rintro rfl
  obtain h | h | ⟨message, h⟩ := h <;> cases h

theorem Err.ours.ne_unavailable {e : Err} (h : e.ours) : e ≠ .unavailable := by
  rintro rfl
  obtain h | h | ⟨message, h⟩ := h <;> cases h

theorem error_ours (message : String) : (Err.error message).ours := .inr (.inr ⟨message, rfl⟩)

theorem signs_refused {β : Type} {sign : B → String → Except String β}
    {verifies : β → Prop} {e : Err}
    (h : Signs sign verifies (.error e)) : e.ours := by
  cases h
  exact error_ours _

theorem keeps_signedCancel (hh : Here cfg d m w) (hp : m.protocol = some p)
    (hf : m.fillProof = none) :
    Keeps cfg (fun proof w' => ∃ m', Here cfg d m' w' ∧ Later cfg w w' ∧ MayCancel m m' ∧
        m'.cancelProof = some proof ∧ m'.protocol.isSome = true)
      (fun e w' => e.ours ∧ Left cfg d m.id w') (signedCancel m p) w := by
  unfold signedCancel
  split
  · rename_i proof hproof
    refine (keeps_pure _).mpr ⟨m, hh, .refl w, .inl rfl, ?_, by simp [hp]⟩
    rw [cancelProof_of_protocol hp, hproof]
  · rename_i hnone
    have hc : m.cancelProof = none := (cancelProof_of_protocol hp).trans hnone
    refine keeps_bind (R := fun proof w' => Here cfg d m w' ∧ Later cfg w w' ∧
      .cancelled m ∈ w'.heard ∧ SignedCancelFor cfg w' p proof) ?_ ?_
    · refine keeps_silent_attempt hh.sound (fun _ => trivial) ?_ ?_ ?_
      · rintro w r w' ⟨-, rfl⟩
        exact calm_hear _ _
      · intro t proof w' hct hst ho hcw hs'
        obtain ⟨hsigns, rfl⟩ := ho
        cases hsigns with
        | @signed nonce signature _ h hv =>
          refine ⟨hh.calm hcw hs', hcw.toLater, ?_, _, nonce, signature, ?_, .refl, h, hv⟩
          · unfold World.hear
            rw [hct.disk, hh.here]
            exact List.mem_cons_self
          · exact (hh.calm hcw hs').entry.listed p.orderAuth (by simp [ManagedOrder.orderAuth, hp])
      · intro t e w' ho hcw hs'
        exact ⟨signs_refused ho.1, (hh.calm hcw hs').left⟩
    · rintro proof w₁ ⟨hh₁, hl₁, hheard, hs₁⟩
      refine keeps_bind (R := fun _ w' => Here cfg d (m.withCancel proof) w' ∧ Later cfg w w') ?_ ?_
      · refine keeps_upsert hh₁ rfl ?_ ⟨rfl, rfl, rfl⟩ (fun w' h hl => ⟨h, hl₁.trans hl⟩)
          fun e w' he hleft => ⟨he, hleft⟩
        rintro t ⟨is, rfl⟩
        exact .cancelled hp hf hc hheard hs₁
      · rintro _ w₂ ⟨hh₂, hl₂⟩
        refine (keeps_pure _).mpr ⟨_, hh₂, hl₂, .inr ⟨proof, hf, rfl⟩,
          ManagedOrder.withCancel_cancelProof hp proof, by simp [hp]⟩

theorem keeps_cancelSigned {proof : SignedCancelV1 B} (hh : Here cfg d m w)
    (hp : m.protocol.isSome = true) (hc : m.cancelProof = some proof) :
    Keeps cfg (fun _ w' => Here cfg d m w' ∧ Later cfg w w')
      (fun _ w' => Here cfg d m w' ∧ Later cfg w w') (cancelSigned cfg m p proof) w := by
  unfold cancelSigned
  refine keeps_bind (R := fun _ w' => Here cfg d m w' ∧ Later cfg w w')
    (keeps_post hh hp hc (fun _ _ h hl => ⟨h, hl⟩) fun _ _ h hl => ⟨h, hl⟩) ?_
  intro row w₁ h₁
  exact keeps_ofExcept (fun _ _ => h₁) fun _ _ => h₁

theorem cancelSigned_congr (hid : m'.id = m.id) (proof : SignedCancelV1 B) :
    cancelSigned cfg m' p proof = cancelSigned cfg m p proof := by
  unfold cancelSigned
  rw [hid]

theorem keeps_cancelManaged (hh : Here cfg d m w) :
    Keeps cfg (fun _ w' => ∃ m', Here cfg d m' w' ∧ Later cfg w w' ∧ MayCancel m m')
      (fun e w' => Left cfg d m.id w' ∧
        (e = .gone → ∃ m', Here cfg d m' w' ∧ Later cfg w w' ∧ MayCancel m m'))
      (cancelManaged cfg m) w := by
  unfold cancelManaged
  split
  · refine keeps_bind (R := fun _ w' => w' = w) ?_ ?_
    · unfold requireMakerToken
      split
      · exact (keeps_pure _).mpr rfl
      · exact (keeps_throw _).mpr ⟨hh.left, (fun h => by cases h)⟩
    · rintro token _ rfl
      refine keeps_silent_attempt hh.sound (fun _ => trivial) ?_ ?_ ?_
      · rintro w r w' ⟨-, rfl⟩
        exact .refl _
      · exact fun _ _ w' _ _ _ hc hs' => ⟨m, hh.calm hc hs', hc.toLater, .inl rfl⟩
      · exact fun _ e w' _ hc hs' => ⟨(hh.calm hc hs').left,
          fun _ => ⟨m, hh.calm hc hs', hc.toLater, .inl rfl⟩⟩
  · rename_i p hp
    split
    · exact (keeps_throw _).mpr ⟨hh.left, (fun h => by cases h)⟩
    · rename_i hf
      have hf : m.fillProof = none := by
        rw [fillProof_of_protocol hp]
        simpa using hf
      refine keeps_bind ((keeps_signedCancel hh hp hf).mono (fun _ _ h => h) ?_) ?_
      · exact fun e w' h => ⟨h.2, fun hg => absurd hg h.1.ne_gone⟩
      · rintro proof w₁ ⟨m', hh', hl, hmay, hc, hprot⟩
        rw [← cancelSigned_congr hmay.id]
        refine (keeps_cancelSigned hh' hprot hc).mono ?_ ?_
        · exact fun _ w' h => ⟨m', h.1, hl.trans h.2, hmay⟩
        · exact fun e w' h => ⟨hmay.id ▸ h.1.left, fun _ => ⟨m', h.1, hl.trans h.2, hmay⟩⟩

/-- The record as it is, or with its fill acknowledged. -/
def MayAcknowledge (m m' : ManagedOrder A B) : Prop :=
  m' = m ∨ ∃ released, m.fillProof.isSome = true ∧ m' = m.acknowledged released

theorem MayAcknowledge.id (h : MayAcknowledge m m') : m'.id = m.id := by
  obtain rfl | ⟨released, -, rfl⟩ := h <;> rfl

theorem keeps_observation (hh : Here cfg d m w) (view : OrderView A B) :
    Keeps cfg (fun m' w' => Here cfg d m' w' ∧ Later cfg w w' ∧ MayAcknowledge m m')
      (fun e w' => e.ours ∧ Left cfg d m.id w')
      (persistAuthenticatedFillObservation m view) w := by
  unfold persistAuthenticatedFillObservation
  split
  · exact (keeps_pure _).mpr ⟨hh, .refl w, .inl rfl⟩
  · rename_i p hp
    split
    · exact (keeps_pure _).mpr ⟨hh, .refl w, .inl rfl⟩
    · rename_i hnot
      have hf : m.fillProof.isSome = true := by
        rw [fillProof_of_protocol hp]
        cases hpf : p.fillProof with
        | none => simp [hpf] at hnot
        | some _ => rfl
      refine keeps_bind (R := fun _ w' => Here cfg d (m.acknowledged view.released) w' ∧
        Later cfg w w') ?_ ?_
      · exact keeps_upsert hh rfl (fun _ _ => .acknowledged view.released hf) ⟨rfl, rfl, rfl⟩
          (fun w' h hl => ⟨h, hl⟩) fun e w' he hleft => ⟨he, hleft⟩
      · exact fun _ w' h => (keeps_pure _).mpr ⟨h.1, h.2, .inr ⟨_, hf, rfl⟩⟩

theorem holds_fill {proof : SignedFillV1 A B} {s : SelectedFillIntentV1 A B}
    (he : Entry cfg w m.id m) (hf : m.fillProof = some proof) (hs : m.selectedIntent = some s) :
    m.Holds cfg (.fill proof s.intent s.auth) := by
  obtain ⟨-, ⟨s', hs', hdigest⟩, hk⟩ := he.fill proof hf
  rw [hs] at hs'
  cases hs'
  obtain ⟨preimage, hpre, -, hsha⟩ := he.secret _ hk
  exact ⟨hf, ⟨s, hs, rfl, rfl, hdigest⟩, preimage, hpre, hsha⟩

theorem keeps_publishFill (hh : Here cfg d m w) :
    Keeps cfg (fun _ w' => Left cfg d m.id w')
      (fun e w' => Left cfg d m.id w' ∧ (e = .unavailable → Here cfg d m w' ∧ Later cfg w w'))
      (publishFill cfg m) w := by
  unfold publishFill
  split
  · rename_i p s proof hp hs hf
    refine keeps_bind (R := fun _ w' => Here cfg d m w' ∧ Later cfg w w') ?_ ?_
    · refine keeps_post hh (by simp [hp]) (holds_fill hh.entry hf hs) (fun _ _ h hl => ⟨h, hl⟩) ?_
      exact fun _ _ h hl => ⟨h.left, fun _ => ⟨h, hl⟩⟩
    · rintro row w₁ ⟨hh₁, hl₁⟩
      refine keeps_bind (R := fun _ w' => Here cfg d m w') ?_ ?_
      · exact keeps_ofExcept (fun _ _ => hh₁) fun e he => ⟨hh₁.left, fun _ => ⟨hh₁, hl₁⟩⟩
      · intro filled w₂ hh₂
        refine keeps_bind (R := fun _ w' => Left cfg d m.id w') ?_ ?_
        · refine (keeps_observation hh₂ filled).mono ?_ ?_
          · exact fun m' w' h => h.2.2.id ▸ h.1.left
          · exact fun e w' h => ⟨h.2, fun hu => absurd hu h.1.ne_unavailable⟩
        · exact fun _ w' h => (keeps_pure _).mpr h
  · exact (keeps_throw _).mpr ⟨hh.left, (fun h => by cases h)⟩

/-! ## The listing -/

theorem keeps_createSigned (hh : Here cfg d m w) (proof : SignedOrderV1 A B) (makerToken : String) :
    Keeps cfg (fun _ w' => Here cfg d m w') (fun _ w' => Here cfg d m w')
      (createSigned cfg proof makerToken) w := by
  unfold createSigned
  split
  · exact (keeps_throw _).mpr hh
  · refine keeps_bind (R := fun _ w' => Here cfg d m w') ?_ ?_
    · refine keeps_silent_attempt hh.sound (fun _ => trivial) ?_ ?_ ?_
      · rintro w r w' ⟨-, rfl⟩
        exact .refl _
      · exact fun _ _ w' _ _ _ hc hs' => hh.calm hc hs'
      · exact fun _ _ w' _ hc hs' => hh.calm hc hs'
    · intro created w₁ hh₁
      split
      · exact (keeps_throw _).mpr hh₁
      · exact keeps_ofExcept (fun _ _ => hh₁) fun _ _ => hh₁

theorem keeps_publishSignedOrder (hh : Here cfg d m w) :
    Ends cfg d m.id (publishSignedOrder cfg m) w := by
  unfold publishSignedOrder
  split
  · exact (keeps_throw _).mpr hh.left
  · exact (keeps_throw _).mpr hh.left
  · rename_i p token hp ht
    refine keeps_bind (R := fun _ w' => Here cfg d m w') ?_ ?_
    · refine keeps_silent hh.sound (fun _ => trivial) ?_ fun _ w' hc hs' => hh.calm hc hs'
      rintro w b w' rfl
      exact .refl _
    · intro b w₁ hh₁
      split
      · refine keeps_bind (R := fun _ w' => Here cfg d m w') ?_ ?_
        · refine keeps_tryCatch (Y := fun _ w' => Here cfg d m w')
            (keeps_map (keeps_createSigned hh₁ _ _) fun _ _ h => h) ?_
          intro e w' h
          split
          · exact (keeps_pure _).mpr h
          · exact (keeps_throw _).mpr h.left
        · intro created w₂ hh₂
          split
          · exact (keeps_pure _).mpr hh₂.left
          · rename_i view
            split
            · exact (keeps_throw _).mpr hh₂.left
            · refine keeps_bind (R := fun _ w' => Left cfg d m.id w') ?_ ?_
              · exact keeps_upsert hh₂ rfl (fun _ _ => .again) ⟨rfl, rfl, rfl⟩
                  (fun _ h _ => h.left) fun _ _ _ h => h
              · exact fun _ w' h => (keeps_pure _).mpr h
      · exact (keeps_pure _).mpr hh₁.left

/-! ## Reading the book and the chains -/

/-- What the book can say of a signed order without a statement of its maker's. -/
def Unended (m : ManagedOrder A B) (status : BookStatus) : Prop :=
  m.protocol.isSome = true → m.fillProof = none → m.cancelProof = none →
    status = .open ∨ status = .gone

theorem authenticateOpenView_open {row view : OrderView A B} {order : SignedOrderV1 A B}
    (h : authenticateOpenView cfg.codec row order = .ok view) : view.status = .open := by
  unfold authenticateOpenView at h
  obtain ⟨view', -, h⟩ := Lib.Checks.bind_eq_ok.mp h
  obtain ⟨-, -, h⟩ := Lib.Checks.bind_eq_ok.mp h
  split at h
  · cases h
  · rename_i hnot
    cases h
    by_contra hne
    exact hnot (.inl hne)

theorem terminal_none (hf : m.fillProof = none) (hc : m.cancelProof = none) :
    m.terminal = none := by
  unfold ManagedOrder.terminal
  rw [hf, hc]
  rfl

theorem authenticateSigned_unended {row view : OrderView A B} {order : SignedOrderV1 A B}
    (h : authenticateSigned cfg.codec row order none = .ok view) : view.status = .open := by
  unfold authenticateSigned at h
  split at h
  · exact authenticateOpenView_open h
  · exact authenticateOpenView_open h

theorem keeps_getView (hh : Here cfg d m w) :
    Keeps cfg (fun view w' => Here cfg d m w' ∧ Later cfg w w' ∧ Unended m view.status.book)
      (fun _ w' => Here cfg d m w' ∧ Later cfg w w') (getView cfg m) w := by
  unfold getView
  refine keeps_bind (R := fun _ w' => Here cfg d m w' ∧ Later cfg w w')
    (keeps_get hh (fun _ _ h hl => ⟨h, hl⟩) fun _ _ _ h hl => ⟨h, hl⟩) ?_
  rintro row w₁ ⟨hh₁, hl₁⟩
  split
  · rename_i hp
    refine (keeps_pure _).mpr ⟨hh₁, hl₁, fun h => ?_⟩
    simp [hp] at h
  · refine keeps_ofExcept (fun view hview => ⟨hh₁, hl₁, fun _ hf hc => ?_⟩) fun _ _ => ⟨hh₁, hl₁⟩
    rw [terminal_none hf hc] at hview
    rw [authenticateSigned_unended hview]
    exact .inl rfl

theorem keeps_fetchBook (hh : Here cfg d m w) :
    Keeps cfg (fun x w' => Here cfg d m w' ∧ Later cfg w w' ∧ Unended m x.1)
      (fun _ w' => Here cfg d m w' ∧ Later cfg w w') (fetchBook cfg m) w := by
  unfold fetchBook
  refine keeps_tryCatch (Y := fun _ w' => Here cfg d m w' ∧ Later cfg w w') ?_ ?_
  · refine keeps_bind (keeps_getView hh) ?_
    exact fun view w' h => (keeps_pure _).mpr h
  · rintro e w₁ ⟨hh₁, hl₁⟩
    split
    · exact (keeps_pure _).mpr ⟨hh₁, hl₁, fun _ _ _ => .inr rfl⟩
    · exact (keeps_throw _).mpr ⟨hh₁, hl₁⟩

theorem keeps_readBook (hh : Here cfg d m w) :
    Keeps cfg (fun x w' => Here cfg d m w' ∧ Later cfg w w' ∧ (x.2.2 = false → Unended m x.1))
      (fun _ w' => Left cfg d m.id w') (readBook cfg m) w := by
  unfold readBook
  refine keeps_tryCatch (Y := fun _ w' => Here cfg d m w' ∧ Later cfg w w') ?_ ?_
  · refine keeps_bind (keeps_fetchBook hh) ?_
    exact fun x w' h => (keeps_pure _).mpr ⟨h.1, h.2.1, fun _ => h.2.2⟩
  · rintro e w₁ ⟨hh₁, hl₁⟩
    split
    · exact (keeps_pure _).mpr ⟨hh₁, hl₁, (fun h => by cases h)⟩
    · exact (keeps_throw _).mpr hh₁.left

theorem keeps_observeView (hh : Here cfg d m w) (view : Option (OrderView A B)) :
    Keeps cfg (fun m' w' => Here cfg d m' w' ∧ Later cfg w w' ∧ MayAcknowledge m m')
      (fun _ w' => Left cfg d m.id w') (observeView m view) w := by
  unfold observeView
  split
  · exact (keeps_pure _).mpr ⟨hh, .refl w, .inl rfl⟩
  · exact (keeps_observation hh _).mono (fun _ _ h => h) fun _ _ h => h.2

/-! ## Taking a proposal -/

/-- The listing itself is the same. -/
structure SameListing (p p' : ManagedProtocolV1 A B) : Prop where
  digest : p'.orderDigest = p.orderDigest
  order : p'.order = p.order
  auth : p'.orderAuth = p.orderAuth

/-- A record of the listing `p` without a terminal statement. -/
structure Unsigned (p : ManagedProtocolV1 A B) (m m' : ManagedOrder A B) : Prop where
  id : m'.id = m.id
  protocol : ∃ p', m'.protocol = some p' ∧ SameListing p p'
  fill : m'.fillProof = none
  cancel : m'.cancelProof = none

theorem Unsigned.refl (hp : m.protocol = some p) (hf : m.fillProof = none)
    (hc : m.cancelProof = none) : Unsigned p m m :=
  ⟨rfl, ⟨p, hp, rfl, rfl, rfl⟩, hf, hc⟩

theorem Unsigned.unselected (hu : Unsigned p m m') : Unsigned p m m'.unselected := by
  obtain ⟨p', hp', hsame⟩ := hu.protocol
  refine ⟨hu.id, ⟨{ p' with selectedIntent := none }, ?_, ⟨hsame.digest, hsame.order, hsame.auth⟩⟩,
    ?_, ?_⟩
  · simp [ManagedOrder.unselected, ManagedOrder.withSelected, hp']
  · simpa using hu.fill
  · simpa using hu.cancel

theorem Unsigned.selecting (hu : Unsigned p m m') (s : SelectedFillIntentV1 A B) (secret : B)
    (t : Int) : Unsigned p m (m'.selecting cfg s secret t) ∧
      (m'.selecting cfg s secret t).selectedIntent = some s := by
  obtain ⟨p', hp', hsame⟩ := hu.protocol
  refine ⟨⟨hu.id, ⟨{ p' with selectedIntent := some s }, ?_,
    ⟨hsame.digest, hsame.order, hsame.auth⟩⟩, ?_, ?_⟩, ?_⟩
  · simp [ManagedOrder.selecting, ManagedOrder.withSelected, hp']
  · simpa using hu.fill
  · simpa using hu.cancel
  · simp [ManagedOrder.selecting, ManagedOrder.withSelected, ManagedOrder.selectedIntent, hp']

theorem keeps_dropExpiredSelection (hh : Here cfg d m w) (hp : m.protocol = some p)
    (hf : m.fillProof = none) (hc : m.cancelProof = none) :
    Keeps cfg (fun m' w' => Here cfg d m' w' ∧ Unsigned p m m') (fun _ w' => Left cfg d m.id w')
      (dropExpiredSelection m) w := by
  have hu := Unsigned.refl hp hf hc
  unfold dropExpiredSelection
  split
  · exact (keeps_pure _).mpr ⟨hh, hu⟩
  · rename_i s hs
    refine keeps_bind (R := fun _ w' => Here cfg d m w')
      (keeps_nowS hh.sound fun _ _ hcalm hs' _ => hh.calm hcalm hs') ?_
    intro now w₁ hh₁
    split
    · refine keeps_bind (R := fun _ w' => Here cfg d m.unselected w') ?_ ?_
      · exact keeps_upsert hh₁ rfl (fun _ _ => .unselected hs hf hc) ⟨rfl, rfl, rfl⟩
          (fun _ h _ => h) fun _ _ _ h => h
      · exact fun _ w' h => (keeps_pure _).mpr ⟨h, hu.unselected⟩
    · exact (keeps_pure _).mpr ⟨hh₁, hu⟩

theorem earliestValidFillIntent_valid {le : B → B → Bool}
    {intents : List (SelectedFillIntentV1 A B)}
    {digest : B} {now : Int} {verify : SelectedFillIntentV1 A B → Bool}
    {s : SelectedFillIntentV1 A B}
    (h : earliestValidFillIntent le intents digest now verify = some s) :
    s ∈ intents ∧ s.auth.issuedAt ≤ now ∧ verify s = true := by
  unfold earliestValidFillIntent at h
  have hmem := (List.mem_insertionSort _).mp (List.mem_of_head? h)
  rw [List.mem_filter] at hmem
  simp only [Bool.and_eq_true, decide_eq_true_eq] at hmem
  exact ⟨hmem.1, hmem.2.1.1.2, hmem.2.2⟩

theorem TakenFor.congr {p p' : ManagedProtocolV1 A B} {s : SelectedFillIntentV1 A B} {t : Int}
    (h : TakenFor cfg w p s t) (hsame : SameListing p p') : TakenFor cfg w p' s t := by
  unfold TakenFor
  rw [hsame.digest, hsame.auth]
  exact h

theorem keeps_selectIntent {m₀ : ManagedOrder A B} (hh : Here cfg d m w) (hu : Unsigned p m₀ m) :
    Keeps cfg (fun r w' =>
        match r with
        | none => Left cfg d m.id w'
        | some (m', s) => Here cfg d m' w' ∧ Unsigned p m₀ m' ∧ m'.selectedIntent = some s)
      (fun _ w' => Left cfg d m.id w') (selectIntent cfg m p) w := by
  unfold selectIntent
  split
  · rename_i s hs
    exact (keeps_pure _).mpr ⟨hh, hu, hs⟩
  · rename_i hnone
    refine keeps_bind (R := fun candidates w' => Here cfg d m w' ∧
      ∀ s ∈ candidates, .proposal s ∈ w'.heard) ?_ ?_
    · refine keeps_silent_attempt hh.sound (fun _ => trivial) ?_ ?_ ?_
      · rintro w r w' ⟨-, rfl⟩
        exact calm_hear _ _
      · rintro t candidates w' - - ⟨-, rfl⟩ hc hs'
        exact ⟨hh.calm hc hs', fun s hs => List.mem_append_left _ (List.mem_map_of_mem hs)⟩
      · exact fun _ _ w' _ hc hs' => (hh.calm hc hs').left
    · rintro candidates w₁ ⟨hh₁, hheard⟩
      refine keeps_bind (R := fun now w' => Here cfg d m w' ∧ w'.clock = now ∧
          ∀ s ∈ candidates, .proposal s ∈ w'.heard)
        (keeps_nowS hh₁.sound fun _ _ hc hs' ht =>
          ⟨hh₁.calm hc hs', ht, fun s hs => hc.heard (hheard s hs)⟩) ?_
      rintro now w₂ ⟨hh₂, hnow, hheard₂⟩
      split
      · exact (keeps_pure _).mpr hh₂.left
      · rename_i s hs
        obtain ⟨hoffered, hissued, hverify⟩ := earliestValidFillIntent_valid hs
        refine keeps_bind (R := fun secret w' => Here cfg d m w' ∧ (m.id, secret) ∈ w'.secrets ∧
          w'.clock = now ∧ .proposal s ∈ w'.heard) ?_ ?_
        · exact keeps_newSecret hh₂ fun _ _ h hmem hclock hsame =>
            ⟨h, hmem, hclock.trans hnow, hsame ▸ hheard₂ s hoffered⟩
        · rintro secret w₃ ⟨hh₃, hsecret, hnow₃, hheard₃⟩
          refine keeps_bind (R := fun t w' => Here cfg d m w' ∧ (m.id, secret) ∈ w'.secrets ∧
            w'.clock = t ∧ Relation.ReflTransGen cfg.ticks now t ∧ .proposal s ∈ w'.heard) ?_ ?_
          · refine keeps_nowS hh₃.sound fun t w' hc hs' ht =>
              ⟨hh₃.calm hc hs', ?_, ht, ?_, hc.heard hheard₃⟩
            · rw [hc.secrets]
              exact hsecret
            · rw [← hnow₃, ← ht]
              exact hc.ticks
          · rintro selectedAt w₄ ⟨hh₄, hsecret₄, hclock, hticks, hheard₄⟩
            obtain ⟨hu', hselected⟩ : Unsigned p m₀ (m.selecting cfg s secret selectedAt) ∧ _ :=
              hu.selecting s secret selectedAt
            refine keeps_bind (R := fun _ w' => Here cfg d (m.selecting cfg s secret selectedAt) w')
              ?_ ?_
            · refine keeps_upsert hh₄ rfl ?_ ⟨rfl, rfl, rfl⟩ (fun _ h _ => h) fun _ _ _ h => h
              rintro t ⟨is, rfl⟩
              obtain ⟨p', hp', hsame⟩ := hu.protocol
              have htaken : TakenFor cfg w₄ p s selectedAt :=
                ⟨hheard₄, now, hticks, hclock ▸ .refl, hissued, hverify⟩
              exact .selecting hp' hnone hu.fill hu.cancel hsecret₄ (htaken.congr hsame)
            · exact fun _ w' h => (keeps_pure _).mpr ⟨h, hu', hselected⟩

theorem MayCancel.fillProof (h : MayCancel m m') (hf : m.fillProof = none) :
    m'.fillProof = none := by
  obtain rfl | ⟨proof, -, rfl⟩ := h
  · exact hf
  · simpa using hf

theorem SignedFillFor.congr {p p' : ManagedProtocolV1 A B} {s : SelectedFillIntentV1 A B}
    {proof : SignedFillV1 A B} (h : SignedFillFor cfg w m p s proof) (hsame : SameListing p p') :
    SignedFillFor cfg w m p' s proof := by
  unfold SignedFillFor fillBody ManagedProtocolV1.signedOrder at h ⊢
  rw [hsame.digest, hsame.order, hsame.auth]
  exact h

theorem keeps_signFill {m₀ : ManagedOrder A B} {s : SelectedFillIntentV1 A B}
    (hh : Here cfg d m w) (hu : Unsigned p m₀ m) (hs : m.selectedIntent = some s)
    (view : Option (OrderView A B)) : Ends cfg d m.id (signFill cfg m p s view) w := by
  obtain ⟨p', hp', hsame⟩ := hu.protocol
  unfold signFill
  refine keeps_bind (R := fun now w' => Here cfg d m w' ∧ w'.clock = now)
    (keeps_nowS hh.sound fun _ _ hc hs' ht => ⟨hh.calm hc hs', ht⟩) ?_
  rintro issuedAt w₁ ⟨hh₁, hclock⟩
  dsimp only
  split
  · exact (keeps_pure _).mpr hh₁.left
  · split
    · exact (keeps_throw _).mpr hh₁.left
    · split
      · refine keeps_bind (R := fun _ w' => ∃ m', Here cfg d m' w' ∧ MayCancel m m') ?_ ?_
        · refine (keeps_cancelManaged hh₁).mono ?_ ?_
          · exact fun _ w' ⟨m', h, _, hmay⟩ => ⟨m', h, hmay⟩
          · exact fun _ w' h => h.1
        · rintro cancelled w₂ ⟨m', hh₂, hmay⟩
          rw [← hmay.id]
          refine keeps_bind (R := fun _ w' => Left cfg d m'.id w') ?_ ?_
          · exact keeps_delete hh₂ (fun _ _ _ => .nearExpiry (hmay.fillProof hu.fill))
              (fun _ h => h) fun _ _ _ h => h
          · exact fun _ w' h => (keeps_pure _).mpr h
      · split
        · rename_i k t1 t2 hk h1 h2
          refine keeps_bind (R := fun proof w' => Here cfg d m w' ∧
            SignedFillFor cfg w' m p' s proof) ?_ ?_
          · refine keeps_silent_attempt hh₁.sound (fun _ => trivial) ?_ ?_ ?_
            · rintro w r w' ⟨-, rfl⟩
              exact .refl _
            · intro t proof w' hct hst ho hcw hs'
              obtain ⟨hsigns, rfl⟩ := ho
              cases hsigns with
              | @signed nonce signature _ h hv =>
                have hsigned : SignedFillFor cfg w' m p s proof :=
                  ⟨k, t1, t2, issuedAt, _, nonce, signature, hk, h1, h2,
                    hclock ▸ hh₁.entry.selected s hs, hclock ▸ hcw.ticks, h, hv⟩
                exact ⟨hh₁.calm hcw hs', hsigned.congr hsame⟩
            · exact fun _ _ w' _ hcw hs' => (hh₁.calm hcw hs').left
          · rintro proof w₂ ⟨hh₂, hsigned⟩
            refine keeps_bind (R := fun _ w' => Here cfg d (m.withFill proof) w') ?_ ?_
            · refine keeps_upsert hh₂ rfl ?_ ⟨rfl, rfl, rfl⟩ (fun _ h _ => h) fun _ _ _ h => h
              rintro t ⟨is, rfl⟩
              exact .filled hp' hs hu.fill hu.cancel hsigned
            · intro _ w₃ hh₃
              refine keeps_bind (R := fun _ w' => Left cfg d m.id w')
                ((keeps_publishFill hh₃).mono (fun _ _ h => h) fun _ _ h => h.1) ?_
              exact fun _ w' h => (keeps_pure _).mpr h
        · exact (keeps_throw _).mpr hh₁.left

theorem keeps_selectFill (hh : Here cfg d m w) (hp : m.protocol = some p) (hf : m.fillProof = none)
    (hc : m.cancelProof = none) (view : Option (OrderView A B)) :
    Ends cfg d m.id (selectFill cfg m p view) w := by
  unfold selectFill
  refine keeps_bind (keeps_dropExpiredSelection hh hp hf hc) ?_
  rintro m₁ w₁ ⟨hh₁, hu₁⟩
  rw [← hu₁.id]
  refine keeps_bind (keeps_selectIntent hh₁ hu₁) ?_
  intro r w₂ h₂
  cases r with
  | none => exact (keeps_pure _).mpr h₂
  | some r =>
    obtain ⟨m₂, s⟩ := r
    obtain ⟨hh₂, hu₂, hs₂⟩ := h₂
    rw [hu₁.id, ← hu₂.id]
    exact keeps_signFill hh₂ hu₂ hs₂ view

end

end QuantaSwap.Maker.Daemon
