import QuantaSwap.Book.Effect

/-!
# What a call publishes

A call appends to the pending events and never takes one away, and it marks the
store dirty when it changed the orders or published.
-/

set_option autoImplicit false

namespace QuantaSwap.Book

open Lib.Js Lib.Text Lib.Checks

/-- From `s` to `s'` every change was marked for the next commit. -/
structure Marked (s s' : Store) : Prop where
  pending : s.pendingFederationEvents <+: s'.pendingFederationEvents
  dirty : s.dirty = true → s'.dirty = true
  clean : s'.dirty = false → s'.orders = s.orders ∧
    s'.pendingFederationEvents = s.pendingFederationEvents

theorem Marked.rfl {s : Store} : Marked s s :=
  ⟨List.prefix_rfl, id, fun _ => ⟨Eq.refl _, Eq.refl _⟩⟩

theorem Marked.trans {s s' s'' : Store} (h : Marked s s') (h' : Marked s' s'') : Marked s s'' := by
  refine ⟨h.pending.trans h'.pending, h'.dirty ∘ h.dirty, ?_⟩
  intro hclean
  obtain ⟨horders, hpending⟩ := h'.clean hclean
  have hbefore : s'.dirty = false := by
    rw [← Bool.not_eq_true]
    intro hdirty
    rw [h'.dirty hdirty] at hclean
    cases hclean
  obtain ⟨horders', hpending'⟩ := h.clean hbefore
  exact ⟨horders.trans horders', hpending.trans hpending'⟩

instance : IsPreorder Store Marked where
  refl _ := Marked.rfl
  trans _ _ _ := Marked.trans

section Writes

variable {E : Crypto} {now : SafeInt}

theorem Marked.of_dirty {s s' : Store}
    (hpending : s.pendingFederationEvents <+: s'.pendingFederationEvents)
    (hdirty : s'.dirty = true) : Marked s s' :=
  ⟨hpending, fun _ => hdirty, fun h => by rw [hdirty] at h; cases h⟩

theorem marked_persisted {s t : Store} (h : t.pendingFederationEvents = s.pendingFederationEvents) :
    Marked s t.persist := .of_dirty (h ▸ List.prefix_rfl) rfl

theorem marked_published {s t : Store} (h : t.pendingFederationEvents = s.pendingFederationEvents)
    (v : Visibility) (e : FederationEvent) : Marked s (t.persist.publishFor v e) := by
  refine .of_dirty ?_ ?_
  · unfold Store.publishFor
    split
    · exact h ▸ List.prefix_append _ _
    · exact h ▸ List.prefix_rfl
  · unfold Store.publishFor
    split <;> rfl

theorem marked_change (s : Store) (id : OrderId) (f : Order → Order) (v : Visibility)
    (e : FederationEvent) :
    Marked s ((s.update id f).persist.publishFor v e) :=
      marked_published (s := s) (t := s.update id f) rfl v e

theorem marked_update (s : Store) (id : OrderId) (f : Order → Order) :
    Marked s (s.update id f).persist :=
  marked_persisted (s := s) (t := s.update id f) rfl

theorem marked_see (s : Store) (id : OrderId) : Marked s (s.see id now) :=
  ⟨List.prefix_rfl, fun h => h, fun _ => ⟨rfl, rfl⟩⟩

theorem marked_swept (s : Store) : Marked s (s.swept now) := by
  have hpending : (s.swept now).pendingFederationEvents = s.pendingFederationEvents := by
    unfold Store.swept Store.pruneIntentAdmissions
    dsimp only
    split <;> rfl
  refine ⟨hpending ▸ List.prefix_rfl, ?_, ?_⟩
  · intro hdirty
    simp [Store.swept, hdirty]
  · intro hclean
    simp only [Store.swept, Bool.or_eq_false_iff, decide_eq_false_iff_not,
      Decidable.not_not] at hclean
    exact ⟨hclean.2, hpending⟩

theorem moves_sweep : Moves Marked (sweep now) := fun s => marked_swept s

theorem recordIntentAdmission_pending (s : Store) (ipHash : TokenHash) :
    (s.recordIntentAdmission ipHash now).pendingFederationEvents = s.pendingFederationEvents := by
  unfold Store.recordIntentAdmission
  split
  · rfl
  · dsimp only
    split <;> rfl

end Writes

/-! ## The operations -/

section Operations

variable {E : Crypto} {now : SafeInt}

theorem moves_answer {α : Type} (f : Store → α) :
    Moves Marked (do let s ← get; pure (f s) : StoreM α) :=
  moves_get.bind fun _ => moves_pure _

theorem moves_recentIntentAdmissions (ipHash : TokenHash) :
    Moves Marked (recentIntentAdmissions now ipHash) :=
  (moves_modify fun _ => ⟨List.prefix_rfl, id, fun _ => ⟨rfl, rfl⟩⟩).bind fun _ => moves_answer _

theorem moves_shedFillIntent (o : Order) (rawAuth : Option Json) (takerIp : String) :
    Moves Marked (shedFillIntent E now o rawAuth takerIp) := by
  unfold shedFillIntent
  dsimp only
  split
  · exact moves_pure _
  · exact (moves_check _).bind fun _ => (moves_check _).bind fun _ => (moves_check _).bind fun _ =>
      moves_get.bind fun _ => (moves_check _).bind fun _ =>
        (moves_recentIntentAdmissions _).bind fun _ => moves_check _

theorem moves_assertDirectLimits (o : Order) (verified : VerifiedFillIntentV1) (ipHash : TokenHash)
    (federated : Bool) : Moves Marked (assertDirectLimits now o verified ipHash federated) := by
  unfold assertDirectLimits
  split
  · exact moves_pure _
  · exact (moves_check _).bind fun _ => moves_get.bind fun _ => (moves_check _).bind fun _ =>
      (moves_recentIntentAdmissions _).bind fun _ => moves_check _

theorem moves_storeFillIntent (o : Order) (verified : VerifiedFillIntentV1) (takerIp : String)
    (federated : Bool) :
    Moves Marked (storeFillIntent E now o verified takerIp federated) := by
  unfold storeFillIntent
  refine (moves_check _).bind fun _ => (moves_check _).bind fun _ => ?_
  refine (moves_assertDirectLimits _ _ _ _).bind fun _ => (moves_check _).bind fun kept => ?_
  refine (moves_modify fun s => ?_).bind fun _ => moves_pure _
  dsimp only
  refine marked_published ?_ _ _
  split
  · rfl
  · exact recordIntentAdmission_pending _ _

theorem moves_submitFillIntent (id : String) (rawIntent rawAuth : Option Json) (takerIp : String)
    (shareToken : Option Json) :
    Moves Marked (submitFillIntent E now id rawIntent rawAuth takerIp shareToken) := by
  unfold submitFillIntent
  refine moves_sweep.bind fun _ => moves_get.bind fun _ => (moves_check _).bind fun o => ?_
  refine (moves_check _).bind fun _ => (moves_check _).bind fun _ =>
    (moves_shedFillIntent _ _ _).bind fun _ => ?_
  refine (moves_check _).bind fun _ => (moves_check _).bind fun verified => ?_
  split
  · exact moves_pure _
  · exact (moves_check _).bind fun _ => (moves_check _).bind fun _ => (moves_check _).bind fun _ =>
      moves_storeFillIntent _ _ _ _

theorem moves_importFillIntent (id : String) (rawIntent rawAuth : Option Json) :
    Moves Marked (importFillIntent E now id rawIntent rawAuth) := by
  unfold importFillIntent
  refine moves_sweep.bind fun _ => moves_get.bind fun _ => (moves_check _).bind fun o => ?_
  refine (moves_check _).bind fun _ => (moves_check _).bind fun verified => ?_
  split
  · exact moves_pure _
  · exact (moves_check _).bind fun _ => moves_storeFillIntent _ _ _ _

theorem moves_write {α : Type} {g : Store → Store} (f : Store → α) (h : ∀ s, Marked s (g s)) :
    Moves Marked (do modify g; let s ← get; pure (f s) : StoreM α) :=
  (moves_modify h).bind fun _ => moves_answer f

theorem moves_rememberTerminalConflict (o : Order) (evidence : TerminalConflictEvidence)
    (event : FederationEvent) :
    Moves Marked (rememberTerminalConflict now o evidence event) := by
  unfold rememberTerminalConflict
  split
  · exact moves_answer _
  · exact moves_write _ fun s => marked_change s _ _ _ _

theorem moves_applyFill (id : String) (rawFill rawAuth rawIntent rawIntentAuth : Option Json)
    (federated : Bool)
    (makerToken : Option Json) :
    Moves Marked (applyFill E now id rawFill rawAuth rawIntent rawIntentAuth federated
      makerToken) := by
  unfold applyFill
  refine moves_sweep.bind fun _ => moves_get.bind fun _ => (moves_check _).bind fun o => ?_
  refine (moves_check _).bind fun _ => (moves_check _).bind fun _ =>
    (moves_check _).bind fun _ => ?_
  dsimp only
  split
  · exact moves_rememberTerminalConflict _ _ _
  · exact (moves_check _).bind fun _ => moves_write _ fun s => marked_change s _ _ _ _

theorem moves_applySignedCancel (id : String) (rawCancel rawAuth : Option Json) (federated : Bool)
    (makerToken : Option Json) :
    Moves Marked (applySignedCancel E now id rawCancel rawAuth federated makerToken) := by
  unfold applySignedCancel
  refine moves_sweep.bind fun _ => moves_get.bind fun _ => (moves_check _).bind fun o => ?_
  refine (moves_check _).bind fun _ => (moves_check _).bind fun _ => ?_
  dsimp only
  split
  · exact moves_rememberTerminalConflict _ _ _
  · exact moves_write _ fun s => marked_change s _ _ _ _

theorem marked_insertNew (o : Order) (origin : Origin) (s : Store) :
    Marked s (insertNew now o origin s) := by
  have hseen : (if origin.isFederated then s.insert o else
    (s.insert o).see o.id now).pendingFederationEvents =
      s.pendingFederationEvents := by
    split <;> rfl
  unfold insertNew
  dsimp only
  split
  · exact marked_published hseen _ _
  · exact marked_persisted hseen

theorem moves_createInternal (body : Record) (makerIp : String) (origin : Origin)
    (random : Random) :
    Moves Marked (createInternal E now body makerIp origin random) := by
  unfold createInternal
  refine moves_sweep.bind fun _ => moves_get.bind fun _ => ?_
  split
  · unfold resubmit
    split
    · exact (moves_check _).bind fun _ => (moves_check _).bind fun _ =>
        moves_write _ fun s => marked_see s _
    · exact (moves_check _).bind fun _ => moves_answer _
  · exact (moves_check _).bind fun o => moves_write _ fun s => marked_insertNew o origin s

theorem moves_importVerifiedOrder (verified : VerifiedOrderV1) (source : String) (random : Random) :
    Moves Marked (importVerifiedOrder E now verified source random) := by
  unfold importVerifiedOrder
  refine moves_sweep.bind fun _ => (moves_check _).bind fun _ => moves_get.bind fun _ => ?_
  split
  · split
    · exact moves_pure _
    · exact moves_write _ fun s => marked_change s _ _ _ _
  · exact (moves_check _).bind fun _ => (moves_createInternal _ _ _ _).bind fun _ => moves_pure _

theorem moves_commitTake (o : Order) (body : Record) (takerIp : String) (random : Random) :
    Moves Marked (commitTake E now o body takerIp random) := by
  unfold commitTake
  refine moves_get.bind fun _ => (moves_check _).bind fun _ => (moves_check _).bind fun _ => ?_
  refine (moves_check _).bind fun _ => (moves_check _).bind fun _ =>
    (moves_check _).bind fun _ => ?_
  exact moves_write _ fun s => marked_update s _ _

theorem moves_releasePortable (o : Order) (body : Record) (federated : Bool) :
    Moves Marked (releasePortable E now o body federated) := by
  unfold releasePortable
  refine (moves_check _).bind fun _ => (moves_check _).bind fun _ =>
    (moves_check _).bind fun _ => ?_
  refine (moves_check _).bind fun _ => (moves_check _).bind fun _ =>
    (moves_check _).bind fun _ => ?_
  split
  · refine (moves_check _).bind fun _ => (moves_check _).bind fun _ => ?_
    split
    · exact moves_answer _
    · exact moves_write _ fun s => marked_change s _ _ _ _
  · refine (moves_check _).bind fun _ => (moves_check _).bind fun _ =>
      (moves_check _).bind fun _ => ?_
    split
    · exact moves_answer _
    · exact moves_write _ fun s => marked_change s _ _ _ _

theorem moves_release (id : String) (body : Record) : Moves Marked (release E now id body) := by
  unfold release
  refine moves_sweep.bind fun _ => moves_get.bind fun _ => (moves_check _).bind fun o => ?_
  split
  · exact moves_releasePortable _ _ _
  · refine (moves_check _).bind fun _ => ?_
    split
    · exact moves_write _ fun s => marked_update s _ _
    · exact moves_write _ fun s => marked_update s _ _
    · exact moves_pure _

theorem moves_applyFederationEvent (event : FederationEvent) (source : String) (random : Random) :
    Moves Marked (applyFederationEvent E now event source random) := by
  unfold applyFederationEvent
  split
  · exact (moves_check _).bind fun _ => (moves_check _).bind fun _ =>
      (moves_importVerifiedOrder _ _ _).bind fun _ => moves_pure _
  · refine (moves_check _).bind fun id => ?_
    split
    · exact moves_pure _
    · exact (moves_check _).bind fun _ => (moves_importFillIntent _ _ _).bind fun _ => moves_pure _
    · exact (moves_check _).bind fun _ => (moves_applyFill _ _ _ _ _ _ _).bind fun _ => moves_pure _
    · exact (moves_check _).bind fun _ => (moves_applySignedCancel _ _ _ _ _).bind fun _ =>
        moves_pure _
    · refine (moves_check _).bind fun _ => Moves.bind ?_ fun _ => moves_pure _
      exact moves_sweep.bind fun _ => moves_get.bind fun _ => (moves_check _).bind fun _ =>
        moves_releasePortable _ _ _

theorem moves_listOpen : Moves Marked (listOpen now) := by
  unfold listOpen
  exact moves_sweep.bind fun _ => moves_answer _

theorem moves_getOrder (id : String) (shareToken : Option Json) :
    Moves Marked (getOrder E now id shareToken) := by
  unfold getOrder
  exact moves_sweep.bind fun _ => moves_get.bind fun _ => (moves_check _).bind fun _ =>
    (moves_check _).bind fun _ =>
    moves_pure _

theorem moves_heartbeat (id : String) (body : Record) : Moves Marked (heartbeat E now id body) := by
  unfold heartbeat
  exact moves_get.bind fun _ => (moves_check _).bind fun _ => (moves_check _).bind fun _ =>
    moves_write _ fun s => marked_see s _

theorem moves_listFillIntents (id : String) (makerToken : Option Json) :
    Moves Marked (listFillIntents E now id makerToken) := by
  unfold listFillIntents
  refine moves_sweep.bind fun _ => moves_get.bind fun _ => (moves_check _).bind fun _ => ?_
  refine (moves_check _).bind fun _ => (moves_check _).bind fun _ => ?_
  split
  · exact moves_pure _
  · exact moves_pure _

theorem moves_accept (id : String) (body : Record) (takerIp : String) (random : Random) :
    Moves Marked (accept E now id body takerIp random) := by
  unfold accept
  refine (moves_check _).bind fun _ => moves_sweep.bind fun _ => moves_get.bind fun _ => ?_
  refine (moves_check _).bind fun _ => (moves_check _).bind fun _ =>
    (moves_check _).bind fun _ => ?_
  exact (moves_check _).bind fun _ => (moves_check _).bind fun _ => moves_commitTake _ _ _ _

theorem moves_take (body : Record) (takerIp : String) (random : Random) :
    Moves Marked (take E now body takerIp random) := by
  unfold take
  refine (moves_check _).bind fun _ => moves_sweep.bind fun _ => (moves_check _).bind fun _ => ?_
  refine (moves_check _).bind fun _ => (moves_check _).bind fun _ =>
    (moves_check _).bind fun _ => ?_
  exact moves_get.bind fun _ => (moves_check _).bind fun _ => moves_commitTake _ _ _ _

theorem moves_announceHashlock (id : String) (body : Record) :
    Moves Marked (announceHashlock E now id body) := by
  unfold announceHashlock
  refine moves_sweep.bind fun _ => moves_get.bind fun _ => (moves_check _).bind fun _ => ?_
  refine (moves_check _).bind fun _ => (moves_check _).bind fun _ =>
    (moves_check _).bind fun _ => ?_
  exact (moves_check _).bind fun _ => moves_write _ fun s => marked_update s _ _

theorem moves_cancel (id : String) (body : Record) : Moves Marked (cancel E now id body) := by
  unfold cancel
  refine moves_sweep.bind fun _ => moves_get.bind fun _ => (moves_check _).bind fun _ => ?_
  refine (moves_check _).bind fun _ => (moves_check _).bind fun _ => ?_
  split
  · exact moves_pure _
  · exact moves_write _ fun s => marked_update s _ _

theorem moves_federationSnapshot (sweeps : Bool) :
    Moves Marked (federationSnapshot now sweeps) := by
  unfold federationSnapshot
  dsimp only
  split
  · exact moves_sweep.bind fun _ => moves_answer _
  · exact moves_answer _

/-- Every call marks what it changes. -/
theorem step_marked (E : Crypto) (s : Store) (i : Step) : Marked s (step E s i) := by
  unfold step
  cases i.call with
  | listOpen => exact moves_listOpen s
  | get id shareToken => exact moves_getOrder id shareToken s
  | create body makerIp => exact ((moves_check _).bind fun _ => moves_createInternal _ _ _ _) s
  | createSigned body makerIp =>
    exact ((moves_check _).bind fun _ => (moves_check _).bind fun _ => (moves_check _).bind fun _ =>
      moves_createInternal _ _ _ _) s
  | heartbeat id body => exact moves_heartbeat id body s
  | submitFillIntent id intent auth takerIp shareToken =>
    exact moves_submitFillIntent id intent auth takerIp shareToken s
  | listFillIntents id makerToken => exact moves_listFillIntents id makerToken s
  | fillOrder id fill auth intent intentAuth makerToken => exact moves_applyFill _ _ _ _ _ _ _ s
  | cancelSigned id cancel auth makerToken => exact moves_applySignedCancel _ _ _ _ _ s
  | accept id body takerIp => exact moves_accept id body takerIp i.random s
  | take body takerIp => exact moves_take body takerIp i.random s
  | announceHashlock id body => exact moves_announceHashlock id body s
  | release id body => exact moves_release id body s
  | cancel id body => exact moves_cancel id body s
  | federationSnapshot sweeps => exact moves_federationSnapshot sweeps s
  | applyFederationEvent event source => exact moves_applyFederationEvent event source i.random s

end Operations

end QuantaSwap.Book
