import QuantaSwap.Htlc.Types

/-!
# The browser's swap machine

`deriveSwapMachine` of `frontend/src/lib/swapMachine.ts`: which steps of a swap are done, runnable
or blocked, from the persisted swap and what was read of both chains. An address is the account it
names, `0` for the native sentinel of either chain, so `sameAddr` is equality.
-/

set_option autoImplicit false

open QuantaSwap.Htlc

namespace QuantaSwap.Browser

/-- What `getSwap` hands back. -/
abbrev LegState := Swap

inductive LegKey
  | qrl
  | eth
  deriving DecidableEq, Repr

inductive Direction
  | ethToQrl
  | qrlToEth
  deriving DecidableEq, Repr

inductive SwapRole
  | maker
  | taker
  | sandbox
  deriving DecidableEq, Repr

/-- An entry of `ETH_ASSETS`; `none` for the native coin. -/
structure EthAsset (A : Type) where
  symbol : String
  address : Option A
  decimals : Nat
  deriving DecidableEq, Repr

/-- The part of a persisted swap that the machine reads. Amounts are in base units, and the asset
symbol is resolved in the registry. -/
structure ActiveSwap (A Bytes32 : Type) where
  role : SwapRole
  direction : Direction
  ethAsset : EthAsset A
  fromAmount : Nat
  toAmount : Nat
  makerEthAccount : A
  makerQrlAccount : A
  takerEthAccount : A
  takerQrlAccount : A
  preimage : Option Bytes32
  hashlock : Option Bytes32
  initiatorTimeout : Option Int
  responderTimeout : Option Int
  prelocked : Bool
  deriving DecidableEq, Repr

def CLAIM_MARGIN_S : Int := 30 * 60

/-- `QRL_LEG.display` -/
def qrlDisplay : String := "Quanta"

def initiatorLeg : Direction → LegKey
  | .ethToQrl => .eth
  | .qrlToEth => .qrl

def responderLeg : Direction → LegKey
  | .ethToQrl => .qrl
  | .qrlToEth => .eth

def claimCutoffBlocked (timeout nowS marginS : Int) : Bool := timeout - marginS ≤ nowS

def CLAIM_CUTOFF_ISSUE : String :=
  "the claim window is inside its safety margin; the refund path takes over"

abbrev LegStates (A Bytes32 : Type) := LegKey → Option (LegState A Bytes32)

inductive StepKey
  | lockInitiator
  | assignInitiator
  | lockResponder
  | claimResponder
  | claimInitiator
  deriving DecidableEq, Repr

structure StepModel where
  key : StepKey
  leg : LegKey
  /-- This browser's role signs the step. -/
  own : Bool
  done : Bool
  canRun : Bool
  issue : Option String
  /-- Seen at the head but not yet at confirmation depth. -/
  awaitingDepth : Bool
  deriving DecidableEq, Repr

structure LegPlan (A : Type) where
  recipient : A
  amount : Nat
  expectedToken : A
  symbol : String
  decimals : Nat
  deriving DecidableEq, Repr

/-- Whom a claim of a leg pays, and whom a refund. -/
structure LegPayees (A : Type) where
  claim : A
  refund : A
  deriving DecidableEq, Repr

structure SwapMachine (A Bytes32 : Type) where
  iLeg : LegKey
  rLeg : LegKey
  steps : StepModel × StepModel × StepModel × StepModel
  complete : Bool
  revealedPreimage : Option Bytes32
  refundableLegs : List LegKey
  releasableLegs : List LegKey
  awaitingAssign : Bool
  ownLockedLegs : List LegKey
  ownEth : A
  ownQrl : A
  legPlan : LegKey → LegPlan A
  legPayees : LegKey → LegPayees A

structure SwapMachineInput (A Bytes32 : Type) where
  swap : ActiveSwap A Bytes32
  /-- Chain state at the head. -/
  legs : LegStates A Bytes32
  /-- Chain state at confirmation depth. -/
  confirmed : LegStates A Bytes32
  nowS : Int

variable {A Bytes32 : Type} [DecidableEq A] [DecidableEq Bytes32] [Zero A] [Zero Bytes32]

/-! ## The agreed terms -/

def ActiveSwap.iLeg (swap : ActiveSwap A Bytes32) : LegKey := initiatorLeg swap.direction

def ActiveSwap.rLeg (swap : ActiveSwap A Bytes32) : LegKey := responderLeg swap.direction

def ActiveSwap.makerOn (swap : ActiveSwap A Bytes32) : LegKey → A
  | .eth => swap.makerEthAccount
  | .qrl => swap.makerQrlAccount

def ActiveSwap.takerOn (swap : ActiveSwap A Bytes32) : LegKey → A
  | .eth => swap.takerEthAccount
  | .qrl => swap.takerQrlAccount

def planFor (swap : ActiveSwap A Bytes32) (leg : LegKey) : LegPlan A where
  recipient := if leg = swap.iLeg then swap.takerOn leg else swap.makerOn leg
  amount := if leg = swap.iLeg then swap.fromAmount else swap.toAmount
  expectedToken :=
    match leg with
    | .eth => swap.ethAsset.address.getD 0
    | .qrl => 0
  symbol :=
    match leg with
    | .eth => swap.ethAsset.symbol
    | .qrl => qrlDisplay
  decimals :=
    match leg with
    | .eth => swap.ethAsset.decimals
    | .qrl => 18

def payeesFor (swap : ActiveSwap A Bytes32) (leg : LegKey) : LegPayees A where
  claim := if leg = swap.iLeg then swap.takerOn leg else swap.makerOn leg
  refund := if leg = swap.iLeg then swap.makerOn leg else swap.takerOn leg

/-- The steps this browser signs, in the order of the four steps. -/
def mySteps : SwapRole → Bool × Bool × Bool × Bool
  | .maker => (true, false, true, false)
  | .taker => (false, true, false, true)
  | .sandbox => (true, true, true, true)

def tokenIssue (confirmedToken : A) (plan : LegPlan A) : Option String :=
  if confirmedToken = plan.expectedToken then none
  else if plan.expectedToken = 0 then some s!"it escrows a token, not native {plan.symbol}"
  else some s!"it escrows the wrong token contract, not the agreed {plan.symbol}"

def isOpen (s : Option (LegState A Bytes32)) : Bool := s.any fun s => s.status == .Open

def isNone (s : Option (LegState A Bytes32)) : Bool := s.any fun s => s.status == .None

def isClaimed (s : Option (LegState A Bytes32)) : Bool := s.any fun s => s.status == .Claimed

/-- A recipient that is still the native sentinel. -/
def unassigned (s : LegState A Bytes32) : Bool := s.recipient = 0

def awaitingDepth (latest conf : Option (LegState A Bytes32)) : Bool :=
  isOpen latest && !isOpen conf

namespace SwapMachineInput

variable (input : SwapMachineInput A Bytes32)

def iState : Option (LegState A Bytes32) := input.legs input.swap.iLeg

def rState : Option (LegState A Bytes32) := input.legs input.swap.rLeg

def iConfirmed : Option (LegState A Bytes32) := input.confirmed input.swap.iLeg

def rConfirmed : Option (LegState A Bytes32) := input.confirmed input.swap.rLeg

def awaitingAssign : Bool :=
  input.swap.prelocked && isOpen input.iConfirmed && input.iConfirmed.any unassigned

/-- What is wrong with a confirmed open lock: `short` is what a timeout that is too near reads. -/
def lockIssue (formatUnits : Nat → Nat → String) (plan : LegPlan A) (conf : LegState A Bytes32)
    (earliest : Int) (short : String) : Option String :=
  match tokenIssue conf.token plan with
  | some badToken => some badToken
  | none =>
    if conf.recipient ≠ plan.recipient then some "its recipient is not your address"
    else if conf.amount ≠ plan.amount then
      some (s!"it escrows {formatUnits conf.amount plan.decimals} {plan.symbol}, " ++
        s!"not the agreed {formatUnits plan.amount plan.decimals}")
    else if (conf.timeout : Int) < earliest then some short
    else none

variable (formatUnits : Nat → Nat → String)

/-- The taker's check of the maker's lock. -/
def initiatorLockIssue (responderTimeout : Int) : Option String :=
  match input.iConfirmed with
  | none => none
  | some conf =>
    if conf.status = .Open ∧ ¬ input.awaitingAssign then
      lockIssue formatUnits (planFor input.swap input.swap.iLeg) conf
        (responderTimeout + CLAIM_MARGIN_S) "its timeout leaves you too little claim window"
    else none

/-- The maker's check of the taker's lock, on the timeout that the lock itself carries. -/
def responderLockIssue : Option String :=
  match input.rConfirmed with
  | none => none
  | some conf =>
    if conf.status = .Open then
      lockIssue formatUnits (planFor input.swap input.swap.rLeg) conf
        (input.nowS + CLAIM_MARGIN_S)
        "its timeout leaves too little window to reveal the secret safely"
    else none

def revealedPreimage : Option Bytes32 :=
  (input.rState.filter fun r => decide (r.preimage ≠ 0)).map (·.preimage)

/-! ## The four steps -/

/-- The maker's open lock is there and has no recipient yet. -/
def assignable : Bool := isOpen input.iState && input.iState.any unassigned

def assignStep (responderTimeout : Int) : StepModel where
  key := .assignInitiator
  leg := input.swap.iLeg
  own := (mySteps input.swap.role).1
  done := input.iConfirmed.any fun s => s.status != .None && !unassigned s
  canRun := input.assignable && isNone input.rState && decide (input.nowS < responderTimeout)
  issue :=
    if (mySteps input.swap.role).1 ∧ input.assignable ∧
        (input.rState.any fun s => s.status != .None) then
      some "the hashlock is already used on the responder chain; release your escrow and relist"
    else none
  awaitingDepth :=
    isOpen input.iState && !input.iState.any unassigned &&
      !(isOpen input.iConfirmed && !input.iConfirmed.any unassigned)

def lockInitiatorStep : StepModel where
  key := .lockInitiator
  leg := input.swap.iLeg
  own := (mySteps input.swap.role).1
  done := input.iState.any fun s => s.status != .None
  canRun := isNone input.iState
  issue := none
  awaitingDepth := false

def lockResponderStep (responderTimeout : Int) : StepModel where
  key := .lockResponder
  leg := input.swap.rLeg
  own := (mySteps input.swap.role).2.1
  done := input.rState.any fun s => s.status != .None
  canRun :=
    isOpen input.iConfirmed && (input.initiatorLockIssue formatUnits responderTimeout).isNone &&
      !input.awaitingAssign && isNone input.rState && decide (input.nowS < responderTimeout)
  issue :=
    if (mySteps input.swap.role).2.1 then input.initiatorLockIssue formatUnits responderTimeout
    else none
  awaitingDepth := isNone input.rState && awaitingDepth input.iState input.iConfirmed

/-- A prelocked escrow without recipient is left alone: it could still be released. -/
def assignedOrClassic : Bool := !input.swap.prelocked || !input.iState.any unassigned

def claimResponderStep (responderTimeout : Int) : StepModel where
  key := .claimResponder
  leg := input.swap.rLeg
  own := (mySteps input.swap.role).2.2.1
  done := isClaimed input.rState
  canRun :=
    input.swap.preimage.isSome && isOpen input.iState && input.assignedOrClassic &&
      isOpen input.rConfirmed && (input.responderLockIssue formatUnits).isNone &&
      decide (input.nowS < responderTimeout)
  issue :=
    if (mySteps input.swap.role).2.2.1 then input.responderLockIssue formatUnits else none
  awaitingDepth :=
    (input.rState.any fun s => s.status != .Claimed) && awaitingDepth input.rState input.rConfirmed

/-- The open initiator escrow is inside the margin of its timeout. -/
def cutoff : Bool :=
  input.iState.any fun s => claimCutoffBlocked s.timeout input.nowS CLAIM_MARGIN_S

def claimInitiatorStep : StepModel where
  key := .claimInitiator
  leg := input.swap.iLeg
  own := (mySteps input.swap.role).2.2.2
  done := isClaimed input.iState
  canRun :=
    input.revealedPreimage.isSome && isOpen input.iState && input.assignedOrClassic && !input.cutoff
  issue :=
    if (mySteps input.swap.role).2.2.2 ∧ input.revealedPreimage.isSome ∧ isOpen input.iState ∧
        input.cutoff then
      some CLAIM_CUTOFF_ISSUE
    else none
  awaitingDepth := false

/-! ## The whole machine -/

/-- The legs this role funds. -/
def myLegs : List LegKey :=
  match input.swap.role with
  | .maker => [input.swap.iLeg]
  | .taker => [input.swap.rLeg]
  | .sandbox => [input.swap.iLeg, input.swap.rLeg]

def ownLockedLegs : List LegKey := input.myLegs.filter fun leg => isOpen (input.legs leg)

def deriveSwapMachine : Option (SwapMachine A Bytes32) :=
  match input.swap.hashlock, input.swap.initiatorTimeout, input.swap.responderTimeout with
  | some _, some _, some responderTimeout =>
    some
      { iLeg := input.swap.iLeg
        rLeg := input.swap.rLeg
        steps :=
          (if input.swap.prelocked then input.assignStep responderTimeout
            else input.lockInitiatorStep,
            input.lockResponderStep formatUnits responderTimeout,
            input.claimResponderStep formatUnits responderTimeout,
            input.claimInitiatorStep)
        complete := isClaimed input.iState && isClaimed input.rState
        revealedPreimage := input.revealedPreimage
        refundableLegs := input.ownLockedLegs.filter fun leg =>
          (input.legs leg).any fun s => decide ((s.timeout : Int) ≤ input.nowS)
        releasableLegs :=
          if input.swap.prelocked then
            input.ownLockedLegs.filter fun leg => (input.legs leg).any unassigned
          else []
        awaitingAssign := input.awaitingAssign
        ownLockedLegs := input.ownLockedLegs
        ownEth :=
          if input.swap.role = .taker then input.swap.takerEthAccount
          else input.swap.makerEthAccount
        ownQrl :=
          if input.swap.role = .taker then input.swap.takerQrlAccount
          else input.swap.makerQrlAccount
        legPlan := planFor input.swap
        legPayees := payeesFor input.swap }
  | _, _, _ => none

end SwapMachineInput

end QuantaSwap.Browser
