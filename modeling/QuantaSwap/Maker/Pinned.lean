import QuantaSwap.Maker.Retire

/-!
# Orders that are never retired

A maker order with nothing left to do is retired on a later tick, unless somebody holds it: an
escrow that stays open under its hashlock on the responder's chain does, and so does a lock of the
maker's own that was sent and never placed.
-/

set_option autoImplicit false
set_option linter.unusedSectionVars false

open Lib Lib.Evm Lib.Program QuantaSwap.Htlc QuantaSwap.Htlc.V3

namespace QuantaSwap.Maker

section

variable {A₁ A₂ Bytes32 : Type} [DecidableEq A₁] [DecidableEq A₂]

/-- Nothing is left to do: the maker's leg has ended, or was never placed and its time is over, and
every credit that is the maker's to move has been read and is zero. -/
structure Finished (x : DecideInput A₁ A₂ Bytes32) (t1 t2 : Int) (iState : LegState A₁ Bytes32)
    (rState : LegState A₂ Bytes32) : Prop where
  preimage : x.managed.preimage.isSome = true
  hashlock : x.managed.hashlock.isSome = true
  timeouts : x.managed.initiatorTimeout = some t1 ∧ x.managed.responderTimeout = some t2
  legs : x.iState = some iState ∧ x.rState = some rState
  own : terminal iState = true ∨ (iState.status = .None ∧ t1 ≤ x.nowS)
  credits : x.ourResponderCredit = some 0 ∧ x.ourInitiatorCredit = some 0 ∧
    (x.pushableTakerCredit iState = true → x.takerCredit = some 0)
  safety : 0 ≤ x.claimSafetyS

/-- The reads of a later tick, in which only the clock and what the book says have changed. -/
def DecideInput.later (x : DecideInput A₁ A₂ Bytes32) (bookStatus : BookStatus) (released : Bool)
    (nowS : Int) : DecideInput A₁ A₂ Bytes32 :=
  { x with bookStatus, released, nowS }

def Decision.retires : Decision → Bool
  | .finish | .abort => true
  | _ => false

/-- From some time on every tick retires the order. -/
def DecideInput.Retires (x : DecideInput A₁ A₂ Bytes32) : Prop :=
  ∃ T, ∀ now ≥ T, ∀ b released, b ≠ .open → b ≠ .accepted →
    (x.later b released now).decide.retires = true

/-- Nobody holds the order. -/
def DecideInput.Unpinned (x : DecideInput A₁ A₂ Bytes32) (iState : LegState A₁ Bytes32)
    (rState : LegState A₂ Bytes32) : Prop :=
  (terminal iState = true → terminal rState = true ∨ rState.status = .None) ∧
    (iState.status = .None → x.managed.lockSentAt = none)

variable {x : DecideInput A₁ A₂ Bytes32} {t1 t2 now : Int} {iState : LegState A₁ Bytes32}
  {rState : LegState A₂ Bytes32} {b : BookStatus} {released : Bool}

theorem terminal_status {A : Type} {s : LegState A Bytes32} :
    terminal s = true ↔ s.status = .Claimed ∨ s.status = .Refunded := by
  simp [terminal]

@[simp] theorem later_pushable :
    (x.later b released now).pushableTakerCredit iState = x.pushableTakerCredit iState := rfl

theorem Finished.decideOnChain (h : Finished x t1 t2 iState rState) (hb : b ≠ .open)
    (ha : b ≠ .accepted)
    (hout : (x.later b released now).exposureExcluded = false) :
    (x.later b released now).decide = (x.later b released now).decideOnChain t1 t2 iState := by
  obtain ⟨p, hp⟩ := Option.isSome_iff_exists.mp h.preimage
  obtain ⟨k, hk⟩ := Option.isSome_iff_exists.mp h.hashlock
  unfold DecideInput.decide
  rw [hout]
  simp [DecideInput.later, hb, ha, hp, hk, h.timeouts.1, h.timeouts.2, h.legs.1]

/-- With its leg ended, the order is finished or waits. -/
theorem Finished.decide_terminal (h : Finished x t1 t2 iState rState) (hi : terminal iState = true)
    (hb : b ≠ .open) (ha : b ≠ .accepted) :
    (x.later b released now).decide = .finish ↔
      terminal rState = true ∨ (rState.status = .None ∧ t2 ≤ now) := by
  have hstatus := terminal_status.mp hi
  have hnone : iState.status ≠ .None := by rcases hstatus with h | h <;> simp [h]
  have hopen : iState.status ≠ .Open := by rcases hstatus with h | h <;> simp [h]
  have hout : (x.later b released now).exposureExcluded = false := by
    simp [DecideInput.exposureExcluded, DecideInput.later, h.legs.1, hnone,
      Option.isNone_eq_false_iff.mpr h.hashlock]
  obtain ⟨hcr, hci, hct⟩ := h.credits
  rw [h.decideOnChain hb ha hout]
  unfold DecideInput.decideOnChain
  have hpush : ¬ (x.pushableTakerCredit iState = true ∧ 0 < x.takerCredit.getD 0) := by
    rintro ⟨hp, hpos⟩
    simp [hct hp] at hpos
  have hsettled : (x.later b released now).creditsSettled iState = true := by
    unfold DecideInput.creditsSettled
    rw [later_pushable]
    cases hp : x.pushableTakerCredit iState with
    | false => simp [DecideInput.later, hcr, hci]
    | true => simp [DecideInput.later, hcr, hci, hct hp]
  rw [if_neg (by simp [hopen]), if_neg (by simp [hopen]), if_neg (by simp [hnone]),
    if_neg (by simp [hopen]), if_neg (by simp [DecideInput.later, hcr, hci]),
    if_neg fun hp => hpush ⟨hp.1, hp.2.1⟩,
    hsettled]
  have hsettled' : (x.later b released now).rSettled t2 = true ↔
      terminal rState = true ∨ (rState.status = .None ∧ t2 ≤ now) := by
    simp [DecideInput.rSettled, DecideInput.later, h.legs.2]
  split_ifs with hfinish hlate
  · exact ⟨fun _ => hsettled'.mp hfinish.2.1, fun _ => rfl⟩
  · exact absurd hlate.1 hnone
  · refine ⟨(fun h => by cases h), fun hr => absurd ⟨hi, hsettled'.mpr hr, rfl⟩ hfinish⟩

theorem decideOnChain_retires {y : DecideInput A₁ A₂ Bytes32}
    (h : (y.decideOnChain t1 t2 iState).retires = true) :
    terminal iState = true ∨ y.managed.lockSentAt = none := by
  unfold DecideInput.decideOnChain at h
  split_ifs at h with _ _ _ _ _ _ hfinish habort <;> try cases h
  · exact .inl hfinish.1
  · exact .inr habort.2.2

theorem Finished.decide_none (h : Finished x t1 t2 iState rState) (hi : iState.status = .None)
    (hb : b ≠ .open) (ha : b ≠ .accepted) (hlock : x.managed.lockSentAt.isSome = true) :
    (x.later b released now).decide.retires = false := by
  have hout : (x.later b released now).exposureExcluded = false := by
    simp [DecideInput.exposureExcluded, DecideInput.later, Option.isNone_eq_false_iff.mpr hlock]
  rw [h.decideOnChain hb ha hout, Bool.eq_false_iff]
  intro hretires
  rcases decideOnChain_retires hretires with hterminal | hunsent
  · rcases terminal_status.mp hterminal with hs | hs <;> simp [hi] at hs
  · have hunsent : x.managed.lockSentAt = none := hunsent
    simp [hunsent] at hlock

theorem Finished.abort (h : Finished x t1 t2 iState rState) (hi : iState.status = .None)
    (hb : b ≠ .open) (ha : b ≠ .accepted) (hlock : x.managed.lockSentAt = none) (hnow : t2 ≤ now) :
    (x.later b released now).decide = .abort := by
  obtain ⟨p, hp⟩ := Option.isSome_iff_exists.mp h.preimage
  obtain ⟨k, hk⟩ := Option.isSome_iff_exists.mp h.hashlock
  have hexcluded : (x.later b released now).exposureExcluded = true := by
    simp [DecideInput.exposureExcluded, DecideInput.later, hlock, h.legs.1, hi]
  have hsafety := h.safety
  have hlate : ¬ now < t2 - x.claimSafetyS := by omega
  obtain ⟨hcr, hci, hct⟩ := h.credits
  unfold DecideInput.decide
  rw [hexcluded]
  split_ifs with hgone hreleased hopen haccepted
  · rfl
  · rfl
  · exact absurd hopen hb
  · exact absurd haccepted ha
  · simp only [DecideInput.later, hp, hk, h.timeouts.1, h.timeouts.2, h.legs.1]
    unfold DecideInput.decideOnChain
    simp [hi, hlate, hcr, hci, DecideInput.pushableTakerCredit, terminal, hnow, hlock]

theorem Finished.pinned (h : Finished x t1 t2 iState rState) (hpinned : ¬ x.Unpinned iState rState)
    (hb : b ≠ .open) (ha : b ≠ .accepted) : (x.later b released now).decide.retires = false := by
  rcases h.own with hi | ⟨hi, -⟩
  · have hstatus := terminal_status.mp hi
    have hnone : iState.status ≠ .None := by rcases hstatus with h | h <;> simp [h]
    have hout : (x.later b released now).exposureExcluded = false := by
      simp [DecideInput.exposureExcluded, DecideInput.later, h.legs.1, hnone,
        Option.isNone_eq_false_iff.mpr h.hashlock]
    have hr : ¬ (terminal rState = true ∨ rState.status = .None) := fun hr =>
      hpinned ⟨fun _ => hr, fun hn => absurd hn hnone⟩
    have hfinish : (x.later b released now).decide ≠ .finish := fun hd =>
      hr (((h.decide_terminal hi hb ha).mp hd).imp id And.left)
    have habort : (x.later b released now).decide ≠ .abort := by
      rw [h.decideOnChain hb ha hout]
      exact fun hd => hnone (decideOnChain_abort hd).1
    cases hd : (x.later b released now).decide <;> simp_all [Decision.retires]
  · refine h.decide_none hi hb ha (Option.isSome_iff_ne_none.mpr fun hlock => hpinned ⟨?_, ?_⟩)
    · intro ht
      have := terminal_status.mp ht
      simp [hi] at this
    · exact fun _ => hlock

/-- **Which orders can be pinned.** An order with nothing left to do is retired by every tick from
some time on, if and only if the record under its hashlock on the responder's chain has ended or was
never made, where the maker's own leg has ended, and no lock was sent, where there is none.
Otherwise no tick retires it, at any time. -/
theorem finished_retires_iff (h : Finished x t1 t2 iState rState) :
    (x.Retires ↔ x.Unpinned iState rState) ∧ (¬ x.Unpinned iState rState → ∀ now b released,
      b ≠ .open → b ≠ .accepted → (x.later b released now).decide.retires = false) := by
  refine ⟨⟨fun ⟨T, hT⟩ => ?_, fun hunpinned => ⟨t2, fun now hnow b released hb ha => ?_⟩⟩,
    fun hpinned _ _ _ hb ha => h.pinned hpinned hb ha⟩
  · by_contra hpinned
    have hno : (x.later .locking false T).decide.retires = false :=
      h.pinned hpinned (by simp) (by simp)
    rw [hT T (le_refl T) .locking false (by simp) (by simp)] at hno
    cases hno
  · rcases h.own with hi | ⟨hi, -⟩
    · have hfinish : (x.later b released now).decide = .finish :=
        (h.decide_terminal hi hb ha).mpr ((hunpinned.1 hi).imp id fun hn => ⟨hn, hnow⟩)
      simp [hfinish, Decision.retires]
    · have habort : (x.later b released now).decide = .abort :=
        h.abort hi hb ha (hunpinned.2 hi) hnow
      simp [habort, Decision.retires]

end

/-! ## An order that a stranger holds -/

namespace Daemon

/-- The maker's lock is refunded; a stranger has put one coin under the hashlock on the other
chain. -/
def dusted : List (Scene desk) :=
  [.tick (hour 1000 .accepted), .tick (hour 1040 .locking),
    .move (.call1 (Msg.of 1 (.lockNative 3 2 15400) 9 ⟨true, .empty⟩) [] []),
    .move (.call2 (Msg.of 2 (.lockNative 3 2 90000000) 1 ⟨true, .empty⟩) [] []),
    .move (.wait 14400),
    .move (.call1 (Msg.of 2 (.refund 3) 0 ⟨true, .empty⟩) [] []),
    .tick (hour 15500 .locking)]

/-- What a pass decides on where every read succeeds. -/
def truthfulInput (w : World (Fin 4) (Fin 4)) (m : ManagedOrder (Fin 4) (Fin 4)) :
    DecideInput (Fin 4) (Fin 4) (Fin 4) :=
  m.decideInput desk ⟨.locking, none, false,
    { Script.reads w (m.query desk 3) with
      takerCredit := some (Taker.creditOf 0 2 3 (w.leg .eth)) }⟩ false w.clock

def rested (w : World (Fin 4) (Fin 4)) (m : ManagedOrder (Fin 4) (Fin 4)) : Bool :=
  m.preimage.isSome && decide (m.hashlock = some 3) && decide (m.initiatorTimeout = some 15400) &&
    decide (m.responderTimeout = some 8200) && decide (m.direction = .ethToQrl) &&
    decide ((truthfulInput w m).ourResponderCredit = some 0) &&
    decide ((truthfulInput w m).ourInitiatorCredit = some 0) &&
    decide ((truthfulInput w m).takerCredit = some 0) &&
    decide ((w.swap .eth 3).status = .Refunded)

theorem rested_finished {w : World (Fin 4) (Fin 4)} {m : ManagedOrder (Fin 4) (Fin 4)}
    (h : rested w m = true) :
    Finished (truthfulInput w m) 15400 8200 (w.swap .eth 3) (w.swap .qrl 3) := by
  simp only [rested, Bool.and_eq_true, decide_eq_true_eq] at h
  obtain ⟨⟨⟨⟨⟨⟨⟨⟨hp, hk⟩, ht1⟩, ht2⟩, hleg⟩, hcr⟩, hci⟩, hct⟩, hown⟩ := h
  refine ⟨hp, by simp [truthfulInput, ManagedOrder.decideInput, ManagedOrder.decision, hk],
    ⟨ht1, ht2⟩, ?_, .inl (by simp [terminal, hown]), ⟨hcr, hci, fun _ => hct⟩, ?_⟩
  · simp [truthfulInput, ManagedOrder.decideInput, Script.reads, ManagedOrder.query, hleg,
      initiatorLeg, responderLeg]
  · change (0 : Int) ≤ 600
    decide

/-- The order is finished, the stranger's coin is not the maker's to claim, and no tick ever retires
the order. -/
theorem finished_pinned : ∃ w m, Start desk shop ∧ Reaches desk shop none w ∧
    w.disk.get "order" = some m ∧
    Finished (truthfulInput w m) 15400 8200 (w.swap .eth 3) (w.swap .qrl 3) ∧
    (w.swap .qrl 3).status = .Open ∧ (w.swap .qrl 3).recipient ≠ desk.myAddress .qrl ∧
    ∀ now b released, b ≠ .open → b ≠ .accepted →
      ((truthfulInput w m).later b released now).decide.retires = false := by
  have hrun : ((runScenes desk dusted shop).any fun w => (w.disk.get "order").any fun m =>
      rested w m && decide ((w.swap .qrl 3).status = .Open) &&
        decide ((w.swap .qrl 3).recipient ≠ desk.myAddress .qrl)) = true := by
    decide +kernel
  simp only [Option.any_eq_true, Bool.and_eq_true, decide_eq_true_eq] at hrun
  obtain ⟨w, hw, m, hm, ⟨hrested, hopen⟩, hstranger⟩ := hrun
  have hfinished := rested_finished hrested
  refine ⟨w, m, shop_start, runScenes_reaches desk_ticks .refl hw, hm, hfinished, hopen, hstranger,
    fun now b released hb ha => hfinished.pinned ?_ hb ha⟩
  intro hunpinned
  have := hunpinned.1 (hfinished.own.resolve_right fun hown => ?_)
  · simp [terminal, hopen] at this
  · simp only [rested, Bool.and_eq_true, decide_eq_true_eq] at hrested
    simp [hrested.2] at hown

/-- Nobody touches the other chain. -/
theorem finished_retires_iff_untouched : ∃ (w : World (Fin 4) (Fin 4))
    (m : ManagedOrder (Fin 4) (Fin 4)),
    (w.swap .eth 3).status = .Refunded ∧ (truthfulInput w m).Retires := by
  have hrun : ((runScenes desk (dusted.eraseIdx 3).dropLast shop).any fun w =>
      (w.disk.get "order").any fun m => rested w m && decide ((w.swap .qrl 3).status = .None)) =
        true := by
    decide +kernel
  simp only [Option.any_eq_true, Bool.and_eq_true, decide_eq_true_eq] at hrun
  obtain ⟨w, -, m, -, hrested, hnone⟩ := hrun
  have hown : (w.swap .eth 3).status = .Refunded := by
    simp only [rested, Bool.and_eq_true, decide_eq_true_eq] at hrested
    exact hrested.2
  exact ⟨w, m, hown, (finished_retires_iff (rested_finished hrested)).1.mpr
    ⟨fun _ => .inr hnone, fun hn => by simp [hown] at hn⟩⟩

end Daemon

end QuantaSwap.Maker
