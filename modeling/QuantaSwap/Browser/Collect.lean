import QuantaSwap.Browser.Claim
import QuantaSwap.Htlc.TwoLeg

/-!
# The responder's claim window

`deriveSwapMachine` lets the responder lock when the initiator's confirmed lock times out no earlier
than `CLAIM_MARGIN_S` after the responder's own, and stops offering the claim `CLAIM_MARGIN_S`
before the initiator's timeout. What is left between the two gates is the window.
-/

set_option autoImplicit false
set_option linter.unusedSectionVars false

open Lib.Evm QuantaSwap.Htlc QuantaSwap.Htlc.V3

namespace QuantaSwap.Browser

variable {A Bytes32 : Type} [DecidableEq A] [DecidableEq Bytes32] [Zero A] [Zero Bytes32]

namespace SwapMachineInput

variable (formatUnits : Nat → Nat → String) (input : SwapMachineInput A Bytes32)

/-- The machine reports the own step `lock-responder` runnable. -/
def offersLock : Bool :=
  (input.deriveSwapMachine formatUnits).any fun m => m.steps.2.1.own && m.steps.2.1.canRun

/-- The machine reports the own step `claim-initiator` runnable. -/
def offersClaim : Bool :=
  (input.deriveSwapMachine formatUnits).any fun m => m.steps.2.2.2.own && m.steps.2.2.2.canRun

end SwapMachineInput

/-- A persisted swap of a responder, whose account on the initiator's leg is an account, and the
two chains. -/
structure Purchase (A Bytes32 : Type) [Zero A] extends TwoChains A A Bytes32 where
  terms : ActiveSwap A Bytes32
  hashlock : Bytes32
  initiatorTimeout : Int
  responderTimeout : Int
  isAccount : terms.takerOn terms.iLeg ≠ 0

namespace Purchase

variable (k : Purchase A Bytes32)

def swap : ActiveSwap A Bytes32 :=
  { k.terms with
    hashlock := some k.hashlock
    initiatorTimeout := some k.initiatorTimeout
    responderTimeout := some k.responderTimeout }

def record₁ (s : Legs A A Bytes32) : LegState A Bytes32 := s.leg1.storage.swaps k.hashlock

def record₂ (s : Legs A A Bytes32) : LegState A Bytes32 := s.leg2.storage.swaps k.hashlock

/-- What the gate goes by: the initiator's leg at depth is that of the state `s`. -/
structure Confirmed (s : Legs A A Bytes32) (input : SwapMachineInput A Bytes32) : Prop where
  swap : input.swap = k.swap
  initiator : input.confirmed k.swap.iLeg = some (k.record₁ s)

/-- The head of both chains was read in the state `s`. -/
structure Truthful (s : Legs A A Bytes32) (input : SwapMachineInput A Bytes32) : Prop where
  swap : input.swap = k.swap
  initiator : input.legs k.swap.iLeg = some (k.record₁ s)
  responder : input.legs k.swap.rLeg = some (k.record₂ s)
  now : input.nowS = s.clock

/-- From the state `s` on, past the responder's timeout by a positive time, the responder has been
paid or is offered the claim. -/
def Collects (formatUnits : Nat → Nat → String) (s : Legs A A Bytes32) : Prop :=
  ∃ δ : Int, 0 < δ ∧ ∀ is : List (LegInput k.toTwoChains),
    let s' := Lib.Run.run (Legs.step k.toTwoChains) s is
    (s'.clock : Int) < k.responderTimeout + δ → (k.record₁ s').status = .Claimed ∨
      ∀ input, k.Truthful s' input → input.offersClaim formatUnits = true

/-! ## What the two gates say -/

variable {k} {formatUnits : Nat → Nat → String} {s : Legs A A Bytes32}
  {input : SwapMachineInput A Bytes32}

/-- The initiator's lock as the gate passes it. -/
structure Passed (k : Purchase A Bytes32) (r : LegState A Bytes32) : Prop where
  isOpen : r.status = .Open
  assigned : r.recipient ≠ 0
  late : k.responderTimeout + CLAIM_MARGIN_S ≤ r.timeout

theorem Confirmed.own (hc : k.Confirmed s input) (hl : input.offersLock formatUnits = true) :
    (mySteps k.swap.role).2.2.2 = true := by
  unfold SwapMachineInput.offersLock SwapMachineInput.deriveSwapMachine at hl
  rw [hc.swap] at hl
  simp only [Purchase.swap, Option.any_some, Bool.and_eq_true] at hl
  have hown : (mySteps input.swap.role).2.1 = true := hl.1
  rw [hc.swap] at hown
  revert hown
  cases k.swap.role <;> simp [mySteps]

theorem Confirmed.passed (hc : k.Confirmed s input) (hl : input.offersLock formatUnits = true) :
    Passed k (k.record₁ s) := by
  have hconf : input.iConfirmed = some (k.record₁ s) := by
    unfold SwapMachineInput.iConfirmed
    rw [hc.swap]
    exact hc.initiator
  have hcan : (input.lockResponderStep formatUnits k.responderTimeout).canRun = true := by
    unfold SwapMachineInput.offersLock SwapMachineInput.deriveSwapMachine at hl
    rw [hc.swap] at hl
    simp only [Purchase.swap, Option.any_some, Bool.and_eq_true] at hl
    exact hl.2
  simp only [SwapMachineInput.lockResponderStep, Bool.and_eq_true, Bool.not_eq_true', hconf,
    isOpen, Option.any_some, beq_iff_eq, Option.isNone_iff_eq_none] at hcan
  obtain ⟨⟨⟨⟨hopen, hissue⟩, hassign⟩, -⟩, -⟩ := hcan
  unfold SwapMachineInput.initiatorLockIssue at hissue
  rw [hconf] at hissue
  simp only [hopen, hassign, Bool.false_eq_true, not_false_eq_true, and_self, if_true] at hissue
  obtain ⟨-, hrecipient, -, hlate⟩ := lockIssue_eq_none hissue
  refine ⟨hopen, ?_, hlate⟩
  rw [hrecipient, hc.swap]
  simp only [planFor, if_true]
  exact k.isAccount

theorem Truthful.offersClaim_iff (ht : k.Truthful s input)
    (hown : (mySteps k.swap.role).2.2.2 = true) (ho : (k.record₁ s).status = .Open)
    (ha : (k.record₁ s).recipient ≠ 0) :
    input.offersClaim formatUnits = true ↔
      (k.record₂ s).preimage ≠ 0 ∧ (s.clock : Int) + CLAIM_MARGIN_S < (k.record₁ s).timeout := by
  have hi : input.iState = some (k.record₁ s) := by
    unfold SwapMachineInput.iState
    rw [ht.swap]
    exact ht.initiator
  have hr : input.rState = some (k.record₂ s) := by
    unfold SwapMachineInput.rState
    rw [ht.swap]
    exact ht.responder
  have hstep : input.offersClaim formatUnits = input.claimInitiatorStep.canRun := by
    unfold SwapMachineInput.offersClaim SwapMachineInput.deriveSwapMachine
    rw [ht.swap]
    simp only [Purchase.swap, Option.any_some]
    have : input.claimInitiatorStep.own = true := by
      unfold SwapMachineInput.claimInitiatorStep
      rw [ht.swap]
      exact hown
    rw [this, Bool.true_and]
  rw [hstep]
  simp only [SwapMachineInput.claimInitiatorStep, SwapMachineInput.revealedPreimage,
    SwapMachineInput.assignedOrClassic, SwapMachineInput.cutoff, claimCutoffBlocked, hi, hr, isOpen,
    unassigned, Option.any_some, ho, ht.now]
  by_cases hp : (k.record₂ s).preimage = 0
  · simp [hp]
  · simp only [ne_eq, decide_not, Option.isSome_map, Option.isSome_filter, Option.any_some, hp,
      decide_false,
      Bool.not_false, BEq.rfl, Bool.and_self, ha, Bool.or_true, Bool.true_and,
        Bool.not_eq_eq_eq_not, Bool.not_true,
      decide_eq_false_iff_not, not_le, not_false_eq_true, true_and]
    omega

/-! ## The window -/

theorem Passed.later (is : List (LegInput k.toTwoChains)) (hs : Legs.Reachable k.toTwoChains s)
    (hp : Passed k (k.record₁ s)) :
    let s' := Lib.Run.run (Legs.step k.toTwoChains) s is
    (k.record₁ s').timeout = (k.record₁ s).timeout ∧ (k.record₁ s').recipient ≠ 0 ∧
      ((s'.clock : Int) < (k.record₁ s).timeout →
        (k.record₁ s').status = .Open ∨ (k.record₁ s').status = .Claimed) := by
  intro s'
  obtain ⟨htime, hrec, hstatus⟩ := hs.stays hp.isOpen hp.assigned is
  refine ⟨htime, ?_, fun hbefore => hstatus (by exact_mod_cast hbefore)⟩
  have : (k.record₁ s').recipient = (k.record₁ s).recipient := hrec
  rw [this]
  exact hp.assigned

theorem Collects.strict (hc : k.Collects formatUnits s) (hown : (mySteps k.swap.role).2.2.2 = true)
    (ho : (k.record₁ s).status = .Open) (ha : (k.record₁ s).recipient ≠ 0)
    (hbefore : (s.clock : Int) < k.responderTimeout) :
    k.responderTimeout + CLAIM_MARGIN_S < (k.record₁ s).timeout ∧ (k.record₂ s).preimage ≠ 0 := by
  obtain ⟨δ, hδ, hall⟩ := hc
  -- The last second that has to be in the window is the responder's timeout itself.
  have hend := hall [.wait (k.responderTimeout - s.clock).toNat]
  simp only [Lib.Run.run_cons, Lib.Run.run_nil, Legs.step] at hend
  have hclock : ((s.clock + (k.responderTimeout - s.clock).toNat : Nat) : Int) =
      k.responderTimeout := by omega
  obtain hclaimed | hoffer := hend (by omega)
  · have : (k.record₁ s).status = .Claimed := hclaimed
    rw [ho] at this
    cases this
  · let late : Legs A A Bytes32 :=
      { s with clock := s.clock + (k.responderTimeout - s.clock).toNat }
    let reads : SwapMachineInput A Bytes32 :=
      { swap := k.swap
        legs := Function.update (fun _ => some (k.record₁ late)) k.swap.rLeg (some (k.record₂ late))
        confirmed := fun _ => none
        nowS := late.clock }
    have htrue : k.Truthful late reads :=
      ⟨rfl, by simp [reads, Function.update_of_ne (rLeg_ne_iLeg k.swap).symm], by simp [reads], rfl⟩
    have hcan := (htrue.offersClaim_iff hown ho ha).mp
      (hoffer reads htrue)
    have hp : (k.record₂ s).preimage ≠ 0 := hcan.1
    have hlt : ((s.clock + (k.responderTimeout - s.clock).toNat : Nat) : Int) + CLAIM_MARGIN_S <
        (k.record₁ s).timeout := hcan.2
    rw [hclock] at hlt
    exact ⟨hlt, hp⟩

theorem Passed.collects {is : List (LegInput k.toTwoChains)}
    (hs : Legs.Reachable k.toTwoChains s) (hp : Passed k (k.record₁ s))
    (hown : (mySteps k.swap.role).2.2.2 = true)
    (hclaimed : (k.record₂ (Lib.Run.run (Legs.step k.toTwoChains) s is)).status = .Claimed)
    (hroom : k.responderTimeout + CLAIM_MARGIN_S < (k.record₁ s).timeout)
    (hpre : (k.record₂ (Lib.Run.run (Legs.step k.toTwoChains) s is)).preimage ≠ 0) :
    k.Collects formatUnits (Lib.Run.run (Legs.step k.toTwoChains) s is) := by
  refine ⟨(k.record₁ s).timeout - CLAIM_MARGIN_S - k.responderTimeout, by omega, ?_⟩
  intro js s' hclock
  have hs' : s' = Lib.Run.run (Legs.step k.toTwoChains) s (is ++ js) :=
    (Lib.Run.run_append _ _ _ _).symm
  obtain ⟨htime, hrec, hstatus⟩ := hp.later (is ++ js) hs
  rw [← hs'] at htime hrec hstatus
  have hmargin : (0 : Int) < CLAIM_MARGIN_S := by decide
  obtain ho | hdone := hstatus (by omega)
  · right
    intro input ht
    rw [ht.offersClaim_iff hown ho hrec, htime]
    refine ⟨?_, by omega⟩
    have : k.record₂ s' = k.record₂ (Lib.Run.run (Legs.step k.toTwoChains) s is) :=
      Legs.run_claimed js hclaimed
    rw [this]
    exact hpre
  · exact .inl hdone

/-- **The responder's window, exactly.** After a gate that offered `lock-responder` and a claim of
the responder's leg before its timeout, the responder collects if and only if he has been paid, or
the initiator's lock outlasts his own by more than the margin and the secret is not the zero
word. -/
theorem responder_collects_iff (k : Purchase A Bytes32) (formatUnits : Nat → Nat → String)
    (s : Legs A A Bytes32) (hs : Legs.Reachable k.toTwoChains s)
    (gate : SwapMachineInput A Bytes32) (hgate : k.Confirmed s gate)
    (hlock : gate.offersLock formatUnits = true) (is : List (LegInput k.toTwoChains))
    (hclaimed : (k.record₂ (Lib.Run.run (Legs.step k.toTwoChains) s is)).status = .Claimed)
    (hbefore : ((Lib.Run.run (Legs.step k.toTwoChains) s is).clock : Int) < k.responderTimeout) :
    let s' := Lib.Run.run (Legs.step k.toTwoChains) s is
    k.Collects formatUnits s' ↔ (k.record₁ s').status = .Claimed ∨
      k.responderTimeout + CLAIM_MARGIN_S < (k.record₁ s).timeout ∧
      (k.record₂ s').preimage ≠ 0 := by
  intro s'
  have hp : Passed k (k.record₁ s) := hgate.passed hlock
  have hown := hgate.own hlock
  obtain ⟨htime, hrec, hstatus⟩ := hp.later is hs
  have hmargin : (0 : Int) < CLAIM_MARGIN_S := by decide
  have hlate := hp.late
  constructor
  · intro hc
    obtain ho | hdone := hstatus (by omega)
    · have := hc.strict hown ho hrec hbefore
      rw [htime] at this
      exact .inr this
    · exact .inl hdone
  · rintro (hdone | ⟨hroom, hpre⟩)
    · refine ⟨1, by omega, fun js _ => .inl ?_⟩
      have hx : Extends (k.record₁ s') (k.record₁ (Lib.Run.run (Legs.step k.toTwoChains) s' js)) :=
        Legs.run_extends₁ s' js
      rw [hx.terminal (by rw [hdone]; rfl)]
      exact hdone
    · exact hp.collects hs hown hclaimed hroom hpre

/-! ## A lock at the edge of the gate -/

/-- Account 2 buys 9 coins of the first chain from account 1 for 7 of the second. -/
def coins (initiatorTimeout : Nat) : Purchase (Fin 4) (Fin 4) where
  chain₁ := small.toChain
  chain₂ := small.toChain
  sha256 := small.sha256
  terms :=
    { role := .taker, direction := .ethToQrl, ethAsset := ⟨"ETH", none, 18⟩, fromAmount := 9,
      toAmount := 7, makerEthAccount := 1, makerQrlAccount := 1, takerEthAccount := 2,
      takerQrlAccount := 2, preimage := none, hashlock := none, initiatorTimeout := none,
      responderTimeout := none, prelocked := false }
  hashlock := 3
  initiatorTimeout := initiatorTimeout
  responderTimeout := 5000
  isAccount := by decide

variable (t : Nat)

def coinsCall₁ (sender : Fin 3) (call : Call (Fin 4) (Fin 4)) (value : Nat) :
    LegInput (coins t).toTwoChains :=
  .call1 (Msg.of sender call value ⟨true, .empty⟩) [] []

def coinsCall₂ (sender : Fin 3) (call : Call (Fin 4) (Fin 4)) (value : Nat) :
    LegInput (coins t).toTwoChains :=
  .call2 (Msg.of sender call value ⟨true, .empty⟩) [] []

/-- The initiator's leg is locked until `t`. -/
def coinsLocked : Legs (Fin 4) (Fin 4) (Fin 4) :=
  Lib.Run.run (Legs.step (coins t).toTwoChains)
    ⟨0, genesis (fun _ => 100) (fun _ _ => 0) (fun _ => false),
      genesis (fun _ => 100) (fun _ _ => 0) (fun _ => false)⟩
    [coinsCall₁ t 1 (.lockNative 3 2 t) 9]

theorem coinsLocked_reachable : Legs.Reachable (coins t).toTwoChains (coinsLocked t) :=
  ⟨_, _, _, _, _, _, _, _, rfl⟩

def coinsGate : SwapMachineInput (Fin 4) (Fin 4) where
  swap := (coins t).swap
  legs := fun leg =>
    if leg = .eth then some ((coins t).record₁ (coinsLocked t))
    else some ((coins t).record₂ (coinsLocked t))
  confirmed := fun leg =>
    if leg = .eth then some ((coins t).record₁ (coinsLocked t)) else none
  nowS := 0

theorem coinsGate_confirmed : (coins t).Confirmed (coinsLocked t) (coinsGate t) := ⟨rfl, rfl⟩

/-- The responder locks, and the initiator claims in the last second. -/
def coinsClaim : List (LegInput (coins t).toTwoChains) :=
  [coinsCall₂ t 2 (.lockNative 3 1 5000) 7, .wait 4999, coinsCall₂ t 1 (.claim 3 2) 0]

theorem responder_collects_iff_second :
    (coins 6801).Collects (fun _ _ => "")
      (Lib.Run.run (Legs.step (coins 6801).toTwoChains) (coinsLocked 6801) (coinsClaim 6801)) :=
  (responder_collects_iff (coins 6801) (fun _ _ => "") (coinsLocked 6801)
    (coinsLocked_reachable 6801) (coinsGate 6801) (coinsGate_confirmed 6801) (by decide +kernel)
    (coinsClaim 6801) (by decide +kernel) (by decide +kernel)).mpr
    (.inr ⟨by decide +kernel, by decide +kernel⟩)

/-- An initiator's lock that outlasts the responder's by the margin and no second more passes the
gate, and is not on offer at the responder's timeout. -/
theorem edge_not_collected :
    (coinsGate 6800).offersLock (fun _ _ => "") = true ∧
    (let s := Lib.Run.run (Legs.step (coins 6800).toTwoChains) (coinsLocked 6800) (coinsClaim 6800)
     ((coins 6800).record₂ s).status = .Claimed ∧ (s.clock : Int) < (coins 6800).responderTimeout ∧
       ¬ (coins 6800).Collects (fun _ _ => "") s) := by
  refine ⟨by decide +kernel, by decide +kernel, by decide +kernel, fun hc => ?_⟩
  have hroom := (hc.strict (by decide) (by decide +kernel) (by decide +kernel)
    (by decide +kernel)).1
  revert hroom
  decide +kernel

end Purchase

end QuantaSwap.Browser
