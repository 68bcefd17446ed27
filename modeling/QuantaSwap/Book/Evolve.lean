import QuantaSwap.Book.Lapse
import QuantaSwap.Book.Released

/-!
# What a call makes of a signed row

A row by its status, its stamp and its initiator timeout: all that the sweep reads of it later.
-/

set_option autoImplicit false

namespace QuantaSwap.Book

open Lib.Js Lib.Text Lib.Checks Lib.Run

/-- `o'` is what a call left of the row `o`. -/
structure Evolved (i : Step) (o o' : Order) : Prop where
  id : o'.id = o.id
  digest : o'.orderDigest = o.orderDigest
  auth : o'.makerAuth = o.makerAuth
  portable : usesPortableTerminalProtocol o' = usesPortableTerminalProtocol o
  opened : o'.status = .open → o.status = .open
  cancelled : o'.status = .cancelled → o.status = .open ∨ o.status = .cancelled
  stamp : o'.updatedAt = o.updatedAt ∨ o'.updatedAt = i.now
  fresh : o'.status = .cancelled → o.status = .open → o'.updatedAt = i.now
  locking : o'.status = .locking →
    (o.status = .locking ∧ o'.initiatorTimeout = o.initiatorTimeout) ∨
      ∃ fill, i.call.fill? = some (o.id.val, fill) ∧
        o'.initiatorTimeout = some (fill.initiatorTimeout.val : Int)

/-- The row of a signed order that a call brought. -/
def Born (E : Crypto) (i : Step) (o : Order) : Prop :=
  ∃ body makerIp origin v, Asked E i body makerIp origin ∧ origin.verified = some v ∧
    o.status = .open ∧
    o.orderDigest = some v.orderDigest ∧ o.makerAuth = some v.auth

section Rows

variable {E : Crypto} {i : Step} {v : VerifiedOrderV1} {o o' o₁ : Order}

theorem Evolved.refl (i : Step) (o : Order) : Evolved i o o where
  id := rfl
  digest := rfl
  auth := rfl
  portable := rfl
  opened := fun hopen => hopen
  cancelled := Or.inr
  stamp := Or.inl rfl
  fresh := by
    intro hcancelled hopen
    rw [hopen] at hcancelled
    cases hcancelled
  locking := fun hlocking => Or.inl ⟨hlocking, rfl⟩

theorem Evolved.trans (h : Evolved i o o₁) (h' : Evolved i o₁ o') : Evolved i o o' where
  id := h'.id.trans h.id
  digest := h'.digest.trans h.digest
  auth := h'.auth.trans h.auth
  portable := h'.portable.trans h.portable
  opened := fun hopen => h.opened (h'.opened hopen)
  cancelled := by
    intro hcancelled
    rcases h'.cancelled hcancelled with hopen | hcancelled
    · exact Or.inl (h.opened hopen)
    · exact h.cancelled hcancelled
  stamp := by
    rcases h'.stamp with hsame | hnow
    · rw [hsame]
      exact h.stamp
    · exact Or.inr hnow
  fresh := by
    intro hcancelled hopen
    rcases h'.cancelled hcancelled with hopen₁ | hcancelled₁
    · exact h'.fresh hcancelled hopen₁
    · rcases h'.stamp with hsame | hnow
      · rw [hsame]
        exact h.fresh hcancelled₁ hopen
      · exact hnow
  locking := by
    intro hlocking
    rcases h'.locking hlocking with ⟨hlocking₁, hsame⟩ | ⟨fill, hcall, htimeout⟩
    · rw [hsame]
      exact h.locking hlocking₁
    · rw [h.id] at hcall
      exact Or.inr ⟨fill, hcall, htimeout⟩

theorem Evolved.sweep (haccepted : o.status ≠ .accepted) (hsweep : sweepOrder i.now o = some o') :
    Evolved i o o' := by
  rcases sweepOrder_cases hsweep with ⟨rfl, hlive⟩ | rfl
  · have hopen : o.status = .open := hlive.resolve_right haccepted
    refine ⟨rfl, rfl, rfl, ?_, nofun, fun _ => Or.inl hopen, Or.inr rfl, fun _ _ => rfl, nofun⟩
    simp [usesPortableTerminalProtocol, dropStaleIntents]
  · refine ⟨rfl, rfl, rfl, ?_, (fun hopen => hopen), Or.inr, Or.inl rfl, ?_,
      fun hlocking => Or.inl ⟨hlocking, rfl⟩⟩
    · simp [usesPortableTerminalProtocol, dropStaleIntents]
    · intro hcancelled hopen
      exact absurd (hopen.symm.trans hcancelled) (by decide)

theorem removable_of_kept {now : SafeInt} (hclosed : o.status = .cancelled ∨ o.status = .locking)
    (hkept : (sweepOrder now o).isSome = true) : removable now o = false := by
  have hexpires : expires now o = false := by
    unfold expires
    rcases hclosed with h | h <;> rw [h] <;> simp
  by_contra hremoved
  rw [Bool.not_eq_false] at hremoved
  rw [sweepOrder_eq, hexpires, hremoved] at hkept
  cases hkept

theorem Evolved.change (h : SignedRow E i.now v o) (hchange : Change E i o o') :
    Evolved i o o' := by
  have huses : o.fillIntents.isSome = true := h.portable.retains
  have hnever : o.status = .open → o.status ≠ .cancelled := by
    intro hopen hcancelled
    exact absurd (hopen.symm.trans hcancelled) (by decide)
  cases hchange with
  | orderConflict verified =>
    unfold addOrderConflict
    refine ⟨rfl, rfl, rfl, rfl, ?_, ?_, Or.inr rfl, fun _ _ => rfl, ?_⟩
    · dsimp only
      split
      · nofun
      · exact fun hopen => hopen
    · dsimp only
      split
      · rename_i hlive
        exact fun _ => Or.inl (hlive.resolve_right h.outcome.accepted)
      · exact Or.inr
    · dsimp only
      split
      · nofun
      · exact fun hlocking => Or.inl ⟨hlocking, rfl⟩
  | portable hportable hchange =>
    cases hchange with
    | fillIntent variant verified kept =>
      refine ⟨rfl, rfl, rfl, ?_, fun hopen => hopen, Or.inr, Or.inr rfl, fun _ _ => rfl,
        fun hlocking => Or.inl ⟨hlocking, rfl⟩⟩
      unfold usesPortableTerminalProtocol addFillIntent
      rw [huses]
      rfl
    | terminalConflict evidence =>
      exact ⟨rfl, rfl, rfl, rfl, fun hopen => hopen, Or.inr, Or.inr rfl, fun _ _ => rfl,
        fun hlocking => Or.inl ⟨hlocking, rfl⟩⟩
    | fill raw variant intent fill hvariant hintent hfill hcall =>
      exact ⟨rfl, rfl, rfl, rfl, nofun, nofun, Or.inr rfl, nofun,
        fun _ => Or.inr ⟨fill.fill, hcall, rfl⟩⟩
    | cancel raw variant cancel hvariant hcancel hcall hnofill =>
      refine ⟨rfl, rfl, rfl, rfl, nofun, fun _ => ?_, Or.inr rfl, fun _ _ => rfl, nofun⟩
      -- A row without a fill is open or cancelled.
      cases hstatus : o.status with
      | «open» => exact Or.inl rfl
      | cancelled => exact Or.inr rfl
      | accepted => exact absurd hstatus h.outcome.accepted
      | locking =>
        have hfill := h.outcome.locking.mp hstatus
        rw [hnofill] at hfill
        cases hfill
    | releaseFill digest secret =>
      exact ⟨rfl, rfl, rfl, rfl, fun hopen => hopen, Or.inr, Or.inr rfl, fun _ _ => rfl,
        fun hlocking => Or.inl ⟨hlocking, rfl⟩⟩
    | releaseIntent digest secret intentDigest =>
      refine ⟨rfl, rfl, rfl, ?_, fun hopen => hopen, Or.inr, Or.inr rfl, fun _ _ => rfl,
        fun hlocking => Or.inl ⟨hlocking, rfl⟩⟩
      simp [usesPortableTerminalProtocol, releaseIntent]
  -- A signed row takes no legacy change.
  | legacy hlegacy => exact absurd (h.portable.uses.symm.trans hlegacy) (by decide)

theorem Row.signedRow {now : SafeInt} (h : Row E now o)
    (hportable : usesPortableTerminalProtocol o = true) :
    ∃ v, SignedRow E now v o := by
  rcases h.kind with hlegacy | hsigned
  · exact absurd (hportable.symm.trans hlegacy.uses) (by decide)
  · exact hsigned

theorem change_uses (h : Row E i.now o) (hchange : Change E i o o')
    (hportable : usesPortableTerminalProtocol o' = true) :
    usesPortableTerminalProtocol o = true := by
  rcases h.kind with hlegacy | ⟨v, hsigned⟩
  · cases hchange with
    | orderConflict verified hproof hopen hpublic hid => exact absurd hid (hlegacy.id_ne _)
    | portable huses => exact huses
    | legacy huses hchange =>
      exact absurd (hportable.symm.trans (hlegacy.change hchange).uses) (by decide)
  · exact hsigned.portable.uses

theorem born_of_draft {l : List Order} {body : Record} {makerIp : String} {origin : Origin}
    (hasked : Asked E i body makerIp origin)
    (h : draftOrder E l i.now body makerIp origin i.random = .ok o)
    (hportable : usesPortableTerminalProtocol o = true) : Born E i o := by
  obtain ⟨hopen, -, -, -⟩ := draftOrder_prelock h
  have hborn : ∀ v, origin.verified = some v → SignedRow E i.now v o → Born E i o := by
    intro v hverified hrow
    exact ⟨body, makerIp, origin, v, hasked, hverified, hopen, hrow.portable.digest,
      hrow.portable.auth⟩
  cases hasked with
  | legacy => exact absurd (hportable.symm.trans (draftOrder_legacy h).uses) (by decide)
  | signed body makerIp verified capabilities hcall hverified =>
    obtain ⟨hproof, hunrestricted⟩ := verifyOrderV1_proof hverified
    exact hborn verified rfl (draftOrder_signed rfl hproof hunrestricted h)
  | federated payload source verified hcall hverified hpublic =>
    obtain ⟨hproof, hunrestricted⟩ := verifyOrderV1_proof hverified
    exact hborn verified rfl (draftOrder_signed rfl hproof hunrestricted h)

end Rows

/-- After a call a signed row is one that the call brought, or what it left of one that was
there. -/
theorem step_evolves {E : Crypto} {w : World} {i : Step}
    (hids : (w.store.orders.map Order.id).Nodup)
    (hrows : ∀ o ∈ w.store.orders, Row E w.clock o) :
    ∀ o' ∈ (w.step E i).store.orders, usesPortableTerminalProtocol o' = true →
      Born E (w.timed i) o' ∨ ∃ o ∈ w.store.orders, Evolved (w.timed i) o o' := by
  have heffects := w.step_effects E i
  have hclock := w.clock_le_timed i
  refine heffects.forall_mem (P := fun o => Row E (w.timed i).now o ∧
    (usesPortableTerminalProtocol o = true →
    ∃ o₀ ∈ w.store.orders, Evolved (w.timed i) o₀ o)) hids ?_ ?_ ?_ ?_ ?_
  · rintro o o' ⟨hrow, hevolved⟩ hsweep
    refine ⟨hrow.sweep hsweep, ?_⟩
    intro hportable
    rw [sweepOrder_uses hsweep] at hportable
    obtain ⟨o₀, ho₀, h⟩ := hevolved hportable
    obtain ⟨v, hsigned⟩ := hrow.signedRow hportable
    exact ⟨o₀, ho₀, h.trans (Evolved.sweep hsigned.outcome.accepted hsweep)⟩
  · rintro o ⟨-, hevolved⟩ hportable
    exact Or.inr (hevolved hportable)
  · intro l body makerIp origin o hasked hdraft hportable
    exact Or.inl (born_of_draft hasked hdraft hportable)
  · rintro o o' ⟨hrow, hevolved⟩ hchange hportable
    have huses := change_uses hrow hchange hportable
    obtain ⟨o₀, ho₀, h⟩ := hevolved huses
    obtain ⟨v, hsigned⟩ := hrow.signedRow huses
    exact Or.inr ⟨o₀, ho₀, h.trans (Evolved.change hsigned hchange)⟩
  · intro o ho
    exact ⟨(hrows o ho).later hclock, fun _ => ⟨o, ho, Evolved.refl _ _⟩⟩

end QuantaSwap.Book
