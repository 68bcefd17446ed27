import QuantaSwap.Browser.SwapMachine
import QuantaSwap.Htlc.Reveal

/-!
# The browser maker's claim

The browser keeps what it last read of both chains at the head and at depth, and sends its claim
through `makePreflightedClaimSender` of `frontend/src/lib/legSender.ts` with the guard of
`SwapFlow`: the escrow is read once more, and the machine has to report the step runnable then.
-/

set_option autoImplicit false
set_option linter.unusedSectionVars false

open Lib.Evm QuantaSwap.Htlc QuantaSwap.Htlc.V3

namespace QuantaSwap.Browser

variable {A Bytes32 : Type} [DecidableEq A] [DecidableEq Bytes32] [Zero A] [Zero Bytes32]

/-- A persisted maker swap with its secret, and the two chains. The maker's account on the
responder leg is an account. -/
structure Sale (A Bytes32 : Type) [Zero A] extends TwoChains A A Bytes32 where
  origin₁ : Origin A
  origin₂ : Origin A
  terms : ActiveSwap A Bytes32
  preimage : Bytes32
  isAccount : terms.makerOn terms.rLeg ≠ 0

/-- The record as the maker's browser stores it. -/
def Sale.swap (k : Sale A Bytes32) : ActiveSwap A Bytes32 :=
  { k.terms with
    role := .maker
    preimage := some k.preimage
    hashlock := some (k.sha256 k.preimage) }

def Sale.plan (k : Sale A Bytes32) : Plan A A Bytes32 where
  toTwoChains := k.toTwoChains
  origin₁ := k.origin₁
  origin₂ := k.origin₂
  preimage := k.preimage
  recipient := k.terms.makerOn k.terms.rLeg
  token := (planFor k.swap k.swap.rLeg).expectedToken
  amount := k.terms.toAmount
  marginS := CLAIM_MARGIN_S
  isAccount := k.isAccount

/-- Where the sending of a claim stands. -/
inductive Phase
  | idle
  | simulate
  | estimate
  | guard
  deriving DecidableEq, Repr

structure State (k : Sale A Bytes32) where
  net : Net k.plan
  legs : LegStates A Bytes32
  confirmed : LegStates A Bytes32
  phase : Phase

/-- A transaction as the node runs it: the gas, and what the callee does. -/
structure Attempt (d : Deployment A Bytes32) where
  msg : Msg d.self (Call A Bytes32)
  pre : List (Action d.self (Call A Bytes32))
  post : List (Action d.self (Call A Bytes32))

variable {k : Sale A Bytes32}

/-- `answered = false` is an error of the node or of the wallet. A read of the head that fails
leaves what was read before. -/
inductive Input (k : Sale A Bytes32)
  | chain (m : Move k.plan)
  | readInitiator
  | readResponder
  | readConfirmedInitiator (depth : Nat) (answered : Bool)
  | readConfirmedResponder (depth : Nat) (answered : Bool)
  | claim
  | simulate (answered : Bool) (attempt : Attempt k.second)
  | estimate (answered : Bool) (attempt : Attempt k.second)
  | guard (answered : Bool)

def State.start (k : Sale A Bytes32) (clock : Nat) : State k :=
  ⟨.start k.plan clock, fun _ => none, fun _ => none, .idle⟩

namespace State

variable (formatUnits : Nat → Nat → String) (s : State k)

def input : SwapMachineInput A Bytes32 where
  swap := k.swap
  legs := s.legs
  confirmed := s.confirmed
  nowS := s.net.clock

/-- The machine reports the own step `claim-responder` runnable now. -/
def canClaim : Bool :=
  (s.input.deriveSwapMachine formatUnits).any fun m => m.steps.2.2.1.own && m.steps.2.2.1.canRun

def succeeds (a : Attempt k.second) : Bool :=
  (code k.second
    (frame k.second s.net.clock { a.msg with call := .claim k.plan.hashlock k.preimage, value := 0 }
      a.pre a.post)
    (.claim k.plan.hashlock k.preimage) (worldAfter k.second k.origin₂ s.net.second)).isOk

/-- The guard of `claimLeg` on a fresh read of the escrow. -/
def abandoned : Bool :=
  (k.plan.record₂ s.net.second).status == .Open &&
    claimCutoffBlocked (k.plan.record₂ s.net.second).timeout s.net.clock CLAIM_MARGIN_S

def step (s : State k) : Input k → State k
  | .chain m => { s with net := s.net.move m }
  | .readInitiator =>
    { s with legs := Function.update s.legs k.swap.iLeg (some (k.plan.record₁ s.net.first)) }
  | .readResponder =>
    { s with legs := Function.update s.legs k.swap.rLeg (some (k.plan.record₂ s.net.second)) }
  | .readConfirmedInitiator depth answered =>
    { s with
      confirmed := Function.update s.confirmed k.swap.iLeg
        (if answered then some (k.plan.record₁ (s.net.first.take depth)) else none) }
  | .readConfirmedResponder depth answered =>
    if answered then
      { s with
        net := s.net.look depth
        confirmed := Function.update s.confirmed k.swap.rLeg
          (some (k.plan.record₂ (s.net.second.take depth))) }
    else { s with confirmed := Function.update s.confirmed k.swap.rLeg none }
  | .claim =>
    match s.phase with
    | .idle => if s.canClaim formatUnits then { s with phase := .simulate } else s
    | _ => s
  | .simulate answered attempt =>
    match s.phase with
    | .simulate =>
      if answered && s.succeeds attempt then { s with phase := .estimate }
      else { s with phase := .idle }
    | _ => s
  | .estimate answered attempt =>
    match s.phase with
    | .estimate =>
      if answered && s.succeeds attempt then { s with phase := .guard }
      else { s with phase := .idle }
    | _ => s
  -- The guard passes, the machine still reports the step runnable, and the claim goes out.
  | .guard answered =>
    match s.phase with
    | .guard =>
      if answered && !s.abandoned && s.canClaim formatUnits then
        { s with net := s.net.send s.net.clock, phase := .idle }
      else { s with phase := .idle }
    | _ => s

end State

/-! ## What a runnable claim rests on -/

theorem lockIssue_eq_none {formatUnits : Nat → Nat → String} {plan : LegPlan A}
    {conf : LegState A Bytes32} {earliest : Int} {short : String}
    (h : SwapMachineInput.lockIssue formatUnits plan conf earliest short = none) :
    conf.token = plan.expectedToken ∧ conf.recipient = plan.recipient ∧
      conf.amount = plan.amount ∧ earliest ≤ conf.timeout := by
  unfold SwapMachineInput.lockIssue at h
  split at h
  · cases h
  · rename_i htoken
    split_ifs at h with hr ha ht
    have htok : conf.token = plan.expectedToken := by
      unfold tokenIssue at htoken
      split_ifs at htoken with heq
      exact heq
    exact ⟨htok, by simpa using hr, by simpa using ha, by omega⟩

theorem rLeg_ne_iLeg (swap : ActiveSwap A Bytes32) : swap.rLeg ≠ swap.iLeg := by
  unfold ActiveSwap.rLeg ActiveSwap.iLeg
  cases swap.direction <;> decide

/-- The own escrow as last read at the head, and the taker's as last read at depth. -/
structure Runnable (s : State k) : Prop where
  own : ∃ i, s.legs k.swap.iLeg = some i ∧ i.status = .Open ∧
    (k.swap.prelocked = true → i.recipient ≠ 0)
  theirs : ∃ r, s.confirmed k.swap.rLeg = some r ∧ r.status = .Open ∧ k.plan.Agreed r ∧
    (s.net.clock : Int) + CLAIM_MARGIN_S ≤ r.timeout

theorem runnable_of_canClaim {formatUnits : Nat → Nat → String} {s : State k}
    (h : s.canClaim formatUnits = true) : Runnable s := by
  obtain ⟨t2, hcan⟩ : ∃ t2, (s.input.claimResponderStep formatUnits t2).canRun = true := by
    unfold State.canClaim SwapMachineInput.deriveSwapMachine at h
    split at h
    · rename_i t2 _ _ _
      refine ⟨t2, ?_⟩
      simp only [Option.any_some, Bool.and_eq_true] at h
      exact h.2
    · cases h
  simp only [SwapMachineInput.claimResponderStep, Bool.and_eq_true] at hcan
  obtain ⟨⟨⟨⟨⟨-, hown⟩, hassigned⟩, htheirs⟩, hissue⟩, -⟩ := hcan
  refine ⟨?_, ?_⟩
  · cases hi : s.legs k.swap.iLeg with
    | none => simp [SwapMachineInput.iState, State.input, hi, isOpen] at hown
    | some i =>
      simp only [SwapMachineInput.assignedOrClassic, SwapMachineInput.iState, State.input, hi,
        isOpen, unassigned, Option.any_some, Bool.or_eq_true, Bool.not_eq_true', beq_iff_eq,
        decide_eq_false_iff_not] at hown hassigned
      refine ⟨i, rfl, hown, fun hpre => ?_⟩
      obtain hno | hr := hassigned
      · exact absurd (hpre.symm.trans hno) (by simp)
      · exact hr
  · cases hr : s.confirmed k.swap.rLeg with
    | none => simp [SwapMachineInput.rConfirmed, State.input, hr, isOpen] at htheirs
    | some r =>
      have ho : r.status = .Open := by
        simpa [SwapMachineInput.rConfirmed, State.input, hr, isOpen] using htheirs
      simp only [SwapMachineInput.responderLockIssue, SwapMachineInput.rConfirmed, State.input, hr,
        ho, if_true, Option.isNone_iff_eq_none] at hissue
      obtain ⟨htoken, hrecip, hamount, htime⟩ := lockIssue_eq_none hissue
      refine ⟨r, rfl, ho, ⟨htoken, ?_, ?_⟩, htime⟩
      · simp only [planFor, rLeg_ne_iLeg, if_false] at hrecip
        exact hrecip
      · simp only [planFor, rLeg_ne_iLeg, if_false] at hamount
        exact hamount

/-! ## The invariant -/

structure Inv (s : State k) : Prop where
  net : s.net.Kept
  confirmed : ∀ r, s.confirmed k.swap.rLeg = some r → r.status = .Open → s.net.Seen r

/-- A claim that goes out has backing, or the secret was out before. -/
theorem Inv.send {formatUnits : Nat → Nat → String} {s : State k} (hp : s.net.Plausible)
    (hi : Inv s) (ha : s.abandoned = false) (hc : s.canClaim formatUnits = true) :
    (s.net.send s.net.clock).Kept := by
  obtain ⟨r, hr, ho, hagreed, htime⟩ := (runnable_of_canClaim hc).theirs
  have hseen : s.net.Seen r := hi.confirmed r hr ho
  obtain ⟨hnone, htimeout, -, hrefund, hclaimed⟩ := hseen.now hp ho hagreed
  refine ⟨hi.net.fixed, fun _ => ?_⟩
  have hold : s.net.published = true → ∃ q ∈ (s.net.send s.net.clock).claims,
      (s.net.send s.net.clock).Backed q := by
    intro hpub
    obtain ⟨q, hq, hb⟩ := hi.net.backed hpub
    exact ⟨q, List.mem_append_left _ hq, hb⟩
  cases hst : (k.plan.record₂ s.net.second).status with
  | None => exact absurd hst hnone
  | Claimed => exact hold (hclaimed hst)
  | Refunded =>
    have := hrefund hst
    simp only [CLAIM_MARGIN_S] at htime
    omega
  | Open =>
    simp only [State.abandoned, hst, claimCutoffBlocked, beq_self_eq_true, Bool.true_and,
      decide_eq_false_iff_not, htimeout] at ha
    have hlt : (s.net.clock : Int) + CLAIM_MARGIN_S < r.timeout := by omega
    obtain ⟨n, hn, rfl⟩ := hseen
    exact ⟨⟨s.net.clock, s.net.fixed⟩, List.mem_append_right _ (List.mem_singleton_self _),
      le_refl _, n, hn, ho, hagreed, hlt⟩

theorem Inv.step {formatUnits : Nat → Nat → String} {s : State k} (hp : s.net.Plausible)
    (hi : Inv s) (i : Input k) : Inv (s.step formatUnits i) := by
  cases i with
  | chain m => exact ⟨hi.net.move m, fun r hr ho => (hi.confirmed r hr ho).move hi.net.fixed m⟩
  | readInitiator | readResponder => exact ⟨hi.net, hi.confirmed⟩
  | readConfirmedInitiator depth answered =>
    refine ⟨hi.net, fun r hr => hi.confirmed r ?_⟩
    simpa [State.step, Function.update_of_ne (rLeg_ne_iLeg k.swap)] using hr
  | readConfirmedResponder depth answered =>
    simp only [State.step]
    split
    · refine ⟨hi.net.look depth, fun r hr ho => ?_⟩
      simp only [Function.update_self, Option.some.injEq] at hr
      subst hr
      exact s.net.seen_of_look depth ho
    · refine ⟨hi.net, fun r hr => ?_⟩
      simp at hr
  | claim | simulate | estimate =>
    simp only [State.step]
    split
    · split <;> exact ⟨hi.net, hi.confirmed⟩
    · exact hi
  | guard answered =>
    simp only [State.step]
    split
    · split
      · rename_i hg
        simp only [Bool.and_eq_true, Bool.not_eq_true'] at hg
        exact ⟨hi.send hp hg.1.2 hg.2, hi.confirmed⟩
      · exact ⟨hi.net, hi.confirmed⟩
    · exact hi

theorem start_inv (k : Sale A Bytes32) (clock : Nat) : Inv (State.start k clock) :=
  ⟨Net.start_kept k.plan clock, fun _ h => by cases h⟩

theorem step_leaves (formatUnits : Nat → Nat → String) (s : State k) (i : Input k) :
    ((s.step formatUnits i).net.published = s.net.published ∧
      (s.step formatUnits i).net.claims = s.net.claims) ∨
    (s.phase = .guard ∧ s.abandoned = false ∧ s.canClaim formatUnits = true) := by
  cases i with
  | chain m => exact .inl ⟨s.net.move_published m, s.net.move_claims m⟩
  | readInitiator | readResponder | readConfirmedInitiator => exact .inl ⟨rfl, rfl⟩
  | readConfirmedResponder depth answered =>
    left
    simp only [State.step]
    split
    · exact ⟨(s.net.look_eq depth).2.2.2.1, (s.net.look_eq depth).2.2.2.2.1⟩
    · exact ⟨rfl, rfl⟩
  | claim | simulate | estimate =>
    left
    simp only [State.step]
    split
    · split <;> exact ⟨rfl, rfl⟩
    · exact ⟨rfl, rfl⟩
  | guard answered =>
    simp only [State.step]
    split
    · rename_i hs
      split
      · rename_i hg
        simp only [Bool.and_eq_true, Bool.not_eq_true'] at hg
        exact .inr ⟨hs, hg.1.2, hg.2⟩
      · exact .inl ⟨rfl, rfl⟩
    · exact .inl ⟨rfl, rfl⟩

/-- **The browser maker is not left paying without being paid.** In every plausible run the
initiator leg is never claimed while the responder leg is refunded. The secret leaves the browser
only while its own escrow is open, and assigned if it was prelocked, and the taker's escrow at
depth is open with the agreed terms and has the margin left before its timeout. -/
theorem browser_maker_paid (k : Sale A Bytes32) (formatUnits : Nat → Nat → String) (clock : Nat)
    (is : List (Input k))
    (h : Lib.Run.Along (State.step formatUnits)
      (fun s i => (State.step formatUnits s i).net.Plausible) (State.start k clock) is) :
    let s := Lib.Run.run (State.step formatUnits) (State.start k clock) is
    ¬ ((k.plan.record₁ s.net.first).status = .Claimed ∧
      (k.plan.record₂ s.net.second).status = .Refunded) ∧
    ∀ i, ((s.step formatUnits i).net.published = s.net.published ∧
        (s.step formatUnits i).net.claims = s.net.claims) ∨
      (∃ own, s.legs k.swap.iLeg = some own ∧ own.status = .Open ∧
        (k.swap.prelocked = true → own.recipient ≠ 0)) ∧
      ∃ r, s.confirmed k.swap.rLeg = some r ∧ s.net.Seen r ∧ r.status = .Open ∧
        k.plan.Agreed r ∧ (s.net.clock : Int) + CLAIM_MARGIN_S ≤ r.timeout := by
  intro s
  obtain ⟨hp, hi⟩ : s.net.Plausible ∧ Inv s :=
    Lib.Run.invariant_of_along (I := fun s => s.net.Plausible ∧ Inv s)
      (fun _ i hs hp => ⟨hp, hs.2.step hs.1 i⟩) h ⟨Net.start_plausible k.plan clock,
        start_inv k clock⟩
  refine ⟨hi.net.safe hp, fun i => ?_⟩
  obtain hsame | ⟨-, -, hc⟩ := step_leaves formatUnits s i
  · exact .inl hsame
  · obtain ⟨hown, r, hr, ho, hagreed, htime⟩ := runnable_of_canClaim hc
    exact .inr ⟨hown, r, hr, hi.confirmed r hr ho, ho, hagreed, htime⟩

/-! ## A sale -/

/-- Account 1 sells 9 coins of the first chain, escrowed before the match, to account 2 for 7 of
the second. -/
def prelockedSale : Sale (Fin 4) (Fin 4) where
  chain₁ := small.toChain
  chain₂ := small.toChain
  sha256 := small.sha256
  origin₁ := ⟨fun _ => 100, fun _ _ => 0, fun _ => false⟩
  origin₂ := ⟨fun _ => 100, fun _ _ => 0, fun _ => false⟩
  terms :=
    { role := .maker, direction := .ethToQrl, ethAsset := ⟨"ETH", none, 18⟩, fromAmount := 9,
      toAmount := 7, makerEthAccount := 1, makerQrlAccount := 1, takerEthAccount := 2,
      takerQrlAccount := 2, preimage := none, hashlock := none, initiatorTimeout := some 9000,
      responderTimeout := some 5000, prelocked := true }
  preimage := 2
  isAccount := by decide

def saleBlock₁ (sender : Fin 3) (call : Call (Fin 4) (Fin 4)) (value : Nat) :
    Lib.Evm.Input prelockedSale.plan.first.toChain (Call (Fin 4) (Fin 4)) :=
  .call 0 (Msg.of sender call value ⟨true, .empty⟩) [] []

def saleBlock₂ (sender : Fin 3) (call : Call (Fin 4) (Fin 4)) (value : Nat) :
    Lib.Evm.Input prelockedSale.plan.second.toChain (Call (Fin 4) (Fin 4)) :=
  .call 0 (Msg.of sender call value ⟨true, .empty⟩) [] []

def saleAttempt : Attempt prelockedSale.second :=
  ⟨Msg.of 1 (.claim 3 2) 0 ⟨true, .empty⟩, [], []⟩

def saleRun : List (Input prelockedSale) :=
  [.chain (.first [saleBlock₁ 1 (.lockNativeOpen 3 9000) 9, saleBlock₁ 1 (.assign 3 2) 0]),
    .chain (.second [saleBlock₂ 2 (.lockNative 3 1 5000) 7]),
    .readInitiator, .readResponder, .readConfirmedResponder 1 true, .claim,
    .simulate true saleAttempt, .estimate true saleAttempt, .guard true]

theorem saleRun_plausible :
    Lib.Run.Along (State.step fun _ _ => "")
      (fun s i => (State.step (fun _ _ => "") s i).net.Plausible) (State.start prelockedSale 0)
      saleRun :=
  along_of_calmRun State.net (by decide +kernel)

theorem browser_maker_paid_prelocked :
    (Lib.Run.run (State.step fun _ _ => "") (State.start prelockedSale 0) saleRun).net.published =
      true ∧
    ¬ ((prelockedSale.plan.record₁ (Lib.Run.run (State.step fun _ _ => "")
        (State.start prelockedSale 0) saleRun).net.first).status = .Claimed ∧
      (prelockedSale.plan.record₂ (Lib.Run.run (State.step fun _ _ => "")
        (State.start prelockedSale 0) saleRun).net.second).status = .Refunded) :=
  ⟨by decide +kernel, (browser_maker_paid prelockedSale (fun _ _ => "") 0 saleRun
    saleRun_plausible).1⟩

end QuantaSwap.Browser
