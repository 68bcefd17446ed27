import QuantaSwap.Book.Hashlocks
import QuantaSwap.Book.Terminal

/-!
# A refused operation

An operation of the store that throws has written nothing: the orders are those of
before or what the expiry sweep makes of them, no event is pending that was not, and
the admissions of every source are those of before, up to expired ones.
-/

set_option autoImplicit false

namespace QuantaSwap.Book

open Lib.Js Lib.Text Lib.Checks Lib.Run

section Admissions

variable {now : SafeInt} {ipHash : TokenHash} {l : List (TokenHash × List SafeInt)}

theorem recentAdmissions_idem (times : List SafeInt) :
    recentAdmissions now (recentAdmissions now times) = recentAdmissions now times := by
  unfold recentAdmissions
  rw [List.filter_filter]
  simp

theorem prune_twice (recent : List SafeInt → List SafeInt) {source : TokenHash}
    {times : List SafeInt}
    (hidem : recent (recent times) = recent times) :
    ((match recent times with
      | [] => none
      | kept => some (source, kept)).bind fun entry : TokenHash × List SafeInt =>
        match recent entry.2 with
        | [] => none
        | kept => some (entry.1, kept)) =
      match recent times with
      | [] => none
      | kept => some (source, kept) := by
  cases hrecent : recent times with
  | nil => rfl
  | cons t kept =>
    rw [hrecent] at hidem
    dsimp only [Option.bind_some]
    rw [hidem]

theorem pruneAll_idem : pruneAll now (pruneAll now l) = pruneAll now l := by
  unfold pruneAll
  rw [List.filterMap_filterMap]
  congr
  funext entry
  exact prune_twice _ (recentAdmissions_idem entry.2)

theorem pruneAll_pruneSource : pruneAll now (pruneSource now ipHash l) = pruneAll now l := by
  unfold pruneAll pruneSource
  rw [List.filterMap_filterMap]
  congr
  funext entry
  split_ifs with hsource
  · subst hsource
    exact prune_twice _ (recentAdmissions_idem entry.2)
  · rfl

end Admissions

/-- Nothing moved but by the expiry of orders, proposals and admissions. -/
structure Unmoved (now : SafeInt) (s s' : Store) : Prop where
  orders : s'.orders = s.orders ∨ s'.orders = sweepAll now s.orders
  events : s'.pendingFederationEvents = s.pendingFederationEvents
  admissions : pruneAll now s'.intentAdmissions = pruneAll now s.intentAdmissions

section Unmoved

variable {now : SafeInt}

instance : IsPreorder Store (Unmoved now) where
  refl s := ⟨.inl rfl, rfl, rfl⟩
  trans s t u hst htu := by
    refine ⟨?_, htu.events.trans hst.events, htu.admissions.trans hst.admissions⟩
    rcases htu.orders with hu | hu <;> rcases hst.orders with ht | ht
    · exact .inl (hu.trans ht)
    · exact .inr (hu.trans ht)
    · right
      rw [hu, ht]
    · right
      rw [hu, ht, sweepAll_idem]

theorem unmoved_sweep : Moves (Unmoved now) (sweep now) := by
  apply moves_modify
  intro s
  refine ⟨.inr rfl, ?_, ?_⟩
  · unfold Store.swept Store.pruneIntentAdmissions
    dsimp only
    split <;> rfl
  · unfold Store.swept Store.pruneIntentAdmissions
    dsimp only
    split
    · rfl
    · exact pruneAll_idem

theorem unmoved_recentIntentAdmissions (ipHash : TokenHash) :
    Moves (Unmoved now) (recentIntentAdmissions now ipHash) := by
  unfold recentIntentAdmissions
  refine Moves.bind (moves_modify fun s => ?_) fun _ => moves_get.bind fun _ => moves_pure _
  exact ⟨.inl rfl, rfl, pruneAll_pruneSource⟩

end Unmoved

/-! ## The operations -/

section Operations

variable {E : Crypto} {now : SafeInt} {random : Random}

theorem refused_check {α β : Type} {x : Except Thrown α} {f : α → StoreM β}
    (hf : ∀ a, ThrowMoves (Unmoved now) (f a)) : ThrowMoves (Unmoved now) (check x >>= f) :=
  (moves_check x).bind_throwMoves hf

theorem refused_get {β : Type} {f : Store → StoreM β} (hf : ∀ s, ThrowMoves (Unmoved now) (f s)) :
    ThrowMoves (Unmoved now) (get >>= f) :=
  moves_get.bind_throwMoves hf

theorem refused_sweep {β : Type} {f : Unit → StoreM β} (hf : ∀ a, ThrowMoves (Unmoved now) (f a)) :
    ThrowMoves (Unmoved now) (sweep now >>= f) :=
  unmoved_sweep.bind_throwMoves hf

theorem refused_never {α : Type} {m : StoreM α} (h : ∀ s, ∃ a s', m s = .ok a s') :
    ThrowMoves (Unmoved now) m :=
  throwMoves_of_never h

theorem resubmit_refused (existing : Order) (origin : Origin) :
    ThrowMoves (Unmoved now) (resubmit now existing origin) := by
  unfold resubmit
  split
  · refine refused_check fun _ => refused_check fun _ => ?_
    exact refused_never fun s => ⟨_, _, rfl⟩
  · refine refused_check fun _ => ?_
    exact refused_never fun s => ⟨_, _, rfl⟩

theorem createInternal_refused (body : Record) (makerIp : String) (origin : Origin) :
    ThrowMoves (Unmoved now) (createInternal E now body makerIp origin random) := by
  unfold createInternal
  refine refused_sweep fun _ => refused_get fun s => ?_
  split
  · exact resubmit_refused _ _
  · refine refused_check fun o => ?_
    exact refused_never fun s => ⟨_, _, rfl⟩

theorem importVerifiedOrder_refused (verified : VerifiedOrderV1) (source : String) :
    ThrowMoves (Unmoved now) (importVerifiedOrder E now verified source random) := by
  unfold importVerifiedOrder
  refine refused_sweep fun _ => refused_check fun _ => refused_get fun s => ?_
  split
  · split
    · exact refused_never fun s => ⟨_, _, rfl⟩
    · exact refused_never fun s => ⟨_, _, rfl⟩
  · refine refused_check fun _ => ?_
    exact (createInternal_refused _ _ _).bind_never fun a s => ⟨_, _, rfl⟩

theorem unmoved_shedFillIntent (o : Order) (rawAuth : Option Json) (takerIp : String) :
    Moves (Unmoved now) (shedFillIntent E now o rawAuth takerIp) := by
  unfold shedFillIntent
  dsimp only
  split
  · exact moves_pure _
  · refine (moves_check _).bind fun _ => (moves_check _).bind fun _ => (moves_check _).bind fun _ =>
      moves_get.bind fun _ => (moves_check _).bind fun _ => ?_
    exact (unmoved_recentIntentAdmissions _).bind fun _ => moves_check _

theorem unmoved_assertDirectLimits (o : Order) (verified : VerifiedFillIntentV1)
    (ipHash : TokenHash)
    (federated : Bool) :
    Moves (Unmoved now) (assertDirectLimits now o verified ipHash federated) := by
  unfold assertDirectLimits
  split
  · exact moves_pure _
  · refine (moves_check _).bind fun _ => moves_get.bind fun _ => (moves_check _).bind fun _ => ?_
    exact (unmoved_recentIntentAdmissions _).bind fun _ => moves_check _

theorem storeFillIntent_refused (o : Order) (verified : VerifiedFillIntentV1) (takerIp : String)
    (federated : Bool) :
    ThrowMoves (Unmoved now) (storeFillIntent E now o verified takerIp federated) := by
  unfold storeFillIntent
  refine refused_check fun _ => refused_check fun _ => ?_
  refine (unmoved_assertDirectLimits _ _ _ _).bind_throwMoves fun _ => refused_check fun kept => ?_
  exact refused_never fun s => ⟨_, _, rfl⟩

theorem submitFillIntent_refused (id : String) (rawIntent rawAuth : Option Json) (takerIp : String)
    (shareToken : Option Json) :
    ThrowMoves (Unmoved now) (submitFillIntent E now id rawIntent rawAuth takerIp shareToken) := by
  unfold submitFillIntent
  refine refused_sweep fun _ => refused_get fun s => refused_check fun o => refused_check fun _ =>
    refused_check fun _ => ?_
  refine (unmoved_shedFillIntent _ _ _).bind_throwMoves fun _ => refused_check fun _ =>
    refused_check fun verified => ?_
  split
  · exact refused_never fun s => ⟨_, _, rfl⟩
  · exact refused_check fun _ => refused_check fun _ => refused_check fun _ =>
      storeFillIntent_refused _ _ _ _

theorem importFillIntent_refused (id : String) (rawIntent rawAuth : Option Json) :
    ThrowMoves (Unmoved now) (importFillIntent E now id rawIntent rawAuth) := by
  unfold importFillIntent
  refine refused_sweep fun _ => refused_get fun s => refused_check fun o => refused_check fun _ =>
    refused_check fun verified => ?_
  split
  · exact refused_never fun s => ⟨_, _, rfl⟩
  · exact refused_check fun _ => storeFillIntent_refused _ _ _ _

theorem rememberTerminalConflict_never (o : Order) (evidence : TerminalConflictEvidence)
    (event : FederationEvent)
    (s : Store) : ∃ p s', rememberTerminalConflict now o evidence event s = .ok p s' := by
  unfold rememberTerminalConflict
  split
  · exact ⟨_, _, rfl⟩
  · exact ⟨_, _, rfl⟩

theorem applyFill_refused (id : String) (rawFill rawAuth rawIntent rawIntentAuth : Option Json)
    (federated : Bool)
    (makerToken : Option Json) :
    ThrowMoves (Unmoved now)
    (applyFill E now id rawFill rawAuth rawIntent rawIntentAuth federated makerToken) := by
  unfold applyFill
  refine refused_sweep fun _ => refused_get fun s => refused_check fun o => refused_check fun _ =>
    refused_check fun _ => refused_check fun _ => ?_
  dsimp only
  split
  · exact refused_never fun s => rememberTerminalConflict_never _ _ _ s
  · refine refused_check fun _ => ?_
    exact refused_never fun s => ⟨_, _, rfl⟩

theorem applySignedCancel_refused (id : String) (rawCancel rawAuth : Option Json) (federated : Bool)
    (makerToken : Option Json) :
    ThrowMoves (Unmoved now)
    (applySignedCancel E now id rawCancel rawAuth federated makerToken) := by
  unfold applySignedCancel
  refine refused_sweep fun _ => refused_get fun s => refused_check fun o => refused_check fun _ =>
    refused_check fun _ => ?_
  dsimp only
  split
  · exact refused_never fun s => rememberTerminalConflict_never _ _ _ s
  · exact refused_never fun s => ⟨_, _, rfl⟩

theorem commitTake_refused (o : Order) (body : Record) (takerIp : String) :
    ThrowMoves (Unmoved now) (commitTake E now o body takerIp random) := by
  unfold commitTake
  refine refused_get fun s => refused_check fun _ => refused_check fun _ => refused_check fun _ =>
    refused_check fun _ => refused_check fun _ => ?_
  exact refused_never fun s => ⟨_, _, rfl⟩

theorem take_refused (body : Record) (takerIp : String) :
    ThrowMoves (Unmoved now) (take E now body takerIp random) := by
  unfold take
  refine refused_check fun _ => refused_sweep fun _ => refused_check fun _ => refused_check fun _ =>
    refused_check fun _ => refused_check fun _ => refused_get fun s => refused_check fun best => ?_
  exact commitTake_refused _ _ _

theorem announceHashlock_refused (id : String) (body : Record) :
    ThrowMoves (Unmoved now) (announceHashlock E now id body) := by
  unfold announceHashlock
  refine refused_sweep fun _ => refused_get fun s => refused_check fun _ => refused_check fun _ =>
    refused_check fun _ => refused_check fun _ => refused_check fun _ => ?_
  exact refused_never fun s => ⟨_, _, rfl⟩

theorem releasePortable_refused (o : Order) (body : Record) (federated : Bool) :
    ThrowMoves (Unmoved now) (releasePortable E now o body federated) := by
  unfold releasePortable
  refine refused_check fun _ => refused_check fun _ => refused_check fun _ => refused_check fun _ =>
    refused_check fun _ => refused_check fun _ => ?_
  split
  · unfold releasePortableFill
    refine refused_check fun _ => refused_check fun _ => ?_
    split
    · exact refused_never fun s => ⟨_, _, rfl⟩
    · exact refused_never fun s => ⟨_, _, rfl⟩
  · unfold releasePortableIntent
    refine refused_check fun _ => refused_check fun _ => refused_check fun _ => ?_
    split
    · exact refused_never fun s => ⟨_, _, rfl⟩
    · exact refused_never fun s => ⟨_, _, rfl⟩

theorem release_refused (id : String) (body : Record) :
    ThrowMoves (Unmoved now) (release E now id body) := by
  unfold release
  refine refused_sweep fun _ => refused_get fun s => refused_check fun o => ?_
  split
  · exact releasePortable_refused _ _ _
  · refine refused_check fun _ => ?_
    split <;> exact refused_never fun s => ⟨_, _, rfl⟩

theorem importRelease_refused (id : String) (body : Record) :
    ThrowMoves (Unmoved now) (importRelease E now id body) := by
  unfold importRelease
  refine refused_sweep fun _ => refused_get fun s => refused_check fun o => ?_
  exact releasePortable_refused _ _ _

theorem cancel_refused (id : String) (body : Record) :
    ThrowMoves (Unmoved now) (cancel E now id body) := by
  unfold cancel
  refine refused_sweep fun _ => refused_get fun s => refused_check fun o => refused_check fun _ =>
    refused_check fun _ => ?_
  split <;> exact refused_never fun s => ⟨_, _, rfl⟩

theorem applyFederationEvent_refused (event : FederationEvent) (source : String) :
    ThrowMoves (Unmoved now) (applyFederationEvent E now event source random) := by
  unfold applyFederationEvent
  dsimp only
  split
  · refine refused_check fun _ => refused_check fun _ => ?_
    exact (importVerifiedOrder_refused _ _).bind_never fun a s => ⟨_, _, rfl⟩
  · refine refused_check fun _ => ?_
    split
    · exact refused_never fun s => ⟨_, _, rfl⟩
    · exact refused_check fun _ => (importFillIntent_refused _ _ _).bind_never fun a s =>
        ⟨_, _, rfl⟩
    · exact refused_check fun _ => (applyFill_refused _ _ _ _ _ _ _).bind_never fun a s =>
        ⟨_, _, rfl⟩
    · exact refused_check fun _ => (applySignedCancel_refused _ _ _ _ _).bind_never fun a s =>
        ⟨_, _, rfl⟩
    · exact refused_check fun _ => (importRelease_refused _ _).bind_never fun a s => ⟨_, _, rfl⟩

end Operations

/-- An operation that throws leaves the book as it was, up to the expiry of orders, proposals and
admissions. -/
theorem operations_atomic (E : Crypto) (now : SafeInt) (random : Random) :
    (∀ body makerIp origin,
      ThrowMoves (Unmoved now) (createInternal E now body makerIp origin random)) ∧
    (∀ verified source,
      ThrowMoves (Unmoved now) (importVerifiedOrder E now verified source random)) ∧
    (∀ id rawIntent rawAuth takerIp shareToken,
      ThrowMoves (Unmoved now) (submitFillIntent E now id rawIntent rawAuth takerIp shareToken)) ∧
    (∀ id rawIntent rawAuth,
      ThrowMoves (Unmoved now) (importFillIntent E now id rawIntent rawAuth)) ∧
    (∀ id rawFill rawAuth rawIntent rawIntentAuth federated makerToken, ThrowMoves (Unmoved now)
      (applyFill E now id rawFill rawAuth rawIntent rawIntentAuth federated makerToken)) ∧
    (∀ id rawCancel rawAuth federated makerToken,
      ThrowMoves (Unmoved now)
      (applySignedCancel E now id rawCancel rawAuth federated makerToken)) ∧
    (∀ body takerIp, ThrowMoves (Unmoved now) (take E now body takerIp random)) ∧
    (∀ id body, ThrowMoves (Unmoved now) (announceHashlock E now id body)) ∧
    (∀ id body, ThrowMoves (Unmoved now) (release E now id body)) ∧
    (∀ id body, ThrowMoves (Unmoved now) (importRelease E now id body)) ∧
    (∀ id body, ThrowMoves (Unmoved now) (cancel E now id body)) ∧
    ∀ event source, ThrowMoves (Unmoved now) (applyFederationEvent E now event source random) :=
  ⟨createInternal_refused, importVerifiedOrder_refused, submitFillIntent_refused,
    importFillIntent_refused,
    applyFill_refused, applySignedCancel_refused, take_refused, announceHashlock_refused,
      release_refused,
    importRelease_refused, cancel_refused, applyFederationEvent_refused⟩

/-- Two days and a second after the sample listing. -/
def expiredClock : SafeInt := ⟨1172801, by decide⟩

theorem cancel_unknown {E : Crypto} {now : SafeInt} {s : Store} {id : String} (body : Record)
    (hunknown : (s.swept now).order? id = none) :
    cancel E now id body s = .error orderNotFound (s.swept now) := by
  unfold cancel
  rw [sweep_bind_run, get_bind_run, hunknown]
  rfl

theorem order?_empty (s : Store) : s.order? "" = none := by
  unfold Store.order?
  rw [List.find?_eq_none]
  intro o _ hid
  have hre := o.id.property
  rw [of_decide_eq_true hid] at hre
  revert hre
  decide

theorem cancel_unknown_sweeps {E : Crypto} {now : SafeInt} {s : Store}
    (h : ∃ o ∈ s.orders, (sweepOrder now o).isSome = true ∧ o ∉ sweepAll now s.orders) :
    ∃ s', cancel E now "" [] s = .error orderNotFound s' ∧
      ∃ o ∈ s.orders, (sweepOrder now o).isSome = true ∧ o ∉ s'.orders :=
  ⟨_, cancel_unknown [] (order?_empty _), h⟩

set_option maxRecDepth 10000 in
theorem listing_expires : ∃ o ∈ (run (World.step flatCrypto) World.start
      [sampleStep 'a' (by decide) (.create (sampleListing []) "maker")]).store.orders,
    (sweepOrder expiredClock o).isSome = true ∧
    o ∉ sweepAll expiredClock (run (World.step flatCrypto) World.start
      [sampleStep 'a' (by decide) (.create (sampleListing []) "maker")]).store.orders := by
  decide +kernel

/-- A cancel that names no order cancels the listing that expired before it. -/
theorem refused_cancel_sweeps : ∃ s', cancel flatCrypto expiredClock "" []
      (run (World.step flatCrypto) World.start [sampleStep 'a' (by decide)
        (.create (sampleListing []) "maker")]).store =
    .error orderNotFound s' ∧
    ∃ o ∈ (run (World.step flatCrypto) World.start
        [sampleStep 'a' (by decide) (.create (sampleListing []) "maker")]).store.orders,
      (sweepOrder expiredClock o).isSome = true ∧ o ∉ s'.orders :=
  cancel_unknown_sweeps listing_expires

end QuantaSwap.Book
