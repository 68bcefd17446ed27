import QuantaSwap.Htlc.Types

/-!
# HTLCv3

One definition per function of `HTLCv3.hyp`, in the order of the source.
-/

set_option autoImplicit false

open Lib.Evm Function

namespace QuantaSwap.Htlc.V3

structure Storage (Addr Bytes32 : Type) where
  swaps : Bytes32 → Swap Addr Bytes32
  /-- token => account => undelivered payout. -/
  credits : Addr → Addr → Nat
  /-- token => sum of all credits. -/
  outstanding : Addr → Nat
  entered : Nat

abbrev W (Addr Bytes32 : Type) := State Addr Bytes32 (Storage Addr Bytes32)

abbrev Ctx (Addr Bytes32 : Type) := Frame Addr (W Addr Bytes32)

def DELIVERY_GAS_LIMIT : Nat := 100000

def DELIVERY_GAS_RESERVE : Nat := 150000

section

variable {Addr Bytes32 : Type} [DecidableEq Addr] [DecidableEq Bytes32] [Zero Addr] [Zero Bytes32]

def initial : Storage Addr Bytes32 where
  swaps := fun _ => .empty
  credits := fun _ _ => 0
  outstanding := fun _ => 0
  entered := 1

/-! ## Writes -/

def setEntered (n : Nat) (w : W Addr Bytes32) : W Addr Bytes32 :=
  { w with storage := { w.storage with entered := n } }

def setSwap (h : Bytes32) (s : Swap Addr Bytes32) (w : W Addr Bytes32) : W Addr Bytes32 :=
  { w with storage := { w.storage with swaps := update w.storage.swaps h s } }

/-- Sets one credit and the token's total. -/
def setCredit (token account : Addr) (credit outstanding : Nat) (w : W Addr Bytes32) :
    W Addr Bytes32 :=
  { w with storage :=
      { w.storage with
        credits := update w.storage.credits token
          (update (w.storage.credits token) account credit)
        outstanding := update w.storage.outstanding token outstanding } }

def nonReentrant (body : W Addr Bytes32 → Except Revert (W Addr Bytes32)) (w : W Addr Bytes32) :
    Except Revert (W Addr Bytes32) :=
  if w.storage.entered ≠ 1 then .error .Reentrancy
  else do
    let w ← body (setEntered 2 w)
    return setEntered 1 w

/-! ## Token calls -/

variable (d : Deployment Addr Bytes32) (x : Ctx Addr Bytes32)

def _selfBalance (token : Addr) (read : Option ReturnData) (w : W Addr Bytes32) :
    Except Revert Nat :=
  match balanceOf d.toChain token read w with
  | none | some .empty => .error .TransferFailed
  | some ret =>
    match ret.decodeUint with
    | some n => .ok n
    | none => .error .Decode

def _tokenCall (token : Addr) (data : W Addr Bytes32 → Option (W Addr Bytes32))
    (w : W Addr Bytes32) : Except Revert (W Addr Bytes32) :=
  match callToken d.toChain x.callee token data w with
  | none => .error .TransferFailed
  | some (.empty, w') => .ok w'
  | some (ret, w') =>
    match ret.decodeBool with
    | some true => .ok w'
    | some false => .error .TransferFailed
    | none => .error .Decode

def _strictPayout (token dst : Addr) (amount : Nat) (w : W Addr Bytes32) :
    Except Revert (W Addr Bytes32) :=
  if token = 0 then
    match callNative d.toChain x.callee dst amount w with
    | some w' => .ok (w'.emit (.Sent token dst amount))
    | none => .error .TransferFailed
  else do
    let before ← _selfBalance d token x.readBefore w
    let w' ← _tokenCall d x token (fun w => w.moveToken token d.self dst amount) w
    let after ← _selfBalance d token x.readAfter w'
    let paid ← checkedSub before after
    if paid ≠ amount then .error .TransferFailed
    else .ok (w'.emit (.Sent token dst amount))

/-- The external trampoline: `sender` is who calls it, `gas` what it is given. -/
def selfDeliver (sender : Addr) (gas : Nat) (token dst : Addr) (amount : Nat)
    (w : W Addr Bytes32) : Except Revert (W Addr Bytes32) :=
  if sender ≠ d.self then .error .Unauthorized
  else if gas < x.attemptGas then .error .OutOfGas
  else _strictPayout d x token dst amount w

/-- What `_settle` hands to the attempt: all but the reserve, and no more than the limit. -/
def deliveryBudget (available : Nat) : Nat :=
  let budget := if available > DELIVERY_GAS_RESERVE then available - DELIVERY_GAS_RESERVE else 0
  if budget > DELIVERY_GAS_LIMIT then DELIVERY_GAS_LIMIT else budget

def _settle (hashlock : Bytes32) (token payee : Addr) (amount : Nat) (w : W Addr Bytes32) :
    Except Revert (W Addr Bytes32) :=
  match selfDeliver d x d.self (deliveryBudget x.gasLeft) token payee amount w with
  | .ok w' => .ok (w'.emit (.Delivered hashlock token payee amount))
  -- The child frame reverted, so everything it did is undone.
  | .error _ => do
    let credit ← checkedAdd (w.storage.credits token payee) amount
    let outstanding ← checkedAdd (w.storage.outstanding token) amount
    return (setCredit token payee credit outstanding w).emit
      (.PayoutCredited token payee hashlock amount)

/-! ## Locks -/

def _lock (hashlock : Bytes32) (recipient token : Addr) (amount timeout : Nat)
    (openRecipient : Bool) (w : W Addr Bytes32) : Except Revert (W Addr Bytes32) :=
  if (w.storage.swaps hashlock).status ≠ .None then .error .HashlockAlreadyUsed
  else if hashlock = 0 ∨ amount = 0 then .error .InvalidParams
  else if amount > maxUint128 then .error .InvalidParams
  else if ¬ openRecipient ∧ (recipient = 0 ∨ recipient = d.self) then .error .InvalidParams
  else if openRecipient ∧ recipient ≠ 0 then .error .InvalidParams
  else if timeout ≤ x.timestamp then .error .InvalidParams
  else
    .ok ((setSwap hashlock
      { initiator := x.sender, recipient, token, amount, timeout, status := .Open, preimage := 0 }
      w).emit (.Locked hashlock x.sender recipient token amount timeout))

def _lockToken (hashlock : Bytes32) (recipient token : Addr) (amount timeout : Nat)
    (openRecipient : Bool) (w : W Addr Bytes32) : Except Revert (W Addr Bytes32) :=
  if token = 0 ∨ w.code token = false then .error .InvalidParams
  else do
    let w ← _lock d x hashlock recipient token amount timeout openRecipient w
    let before ← _selfBalance d token x.readBefore w
    let w ← _tokenCall d x token (fun w => w.moveToken token x.sender d.self amount) w
    let after ← _selfBalance d token x.readAfter w
    let received ← checkedSub after before
    if received ≠ amount then .error .UnsupportedToken
    else .ok w

def lockNative (hashlock : Bytes32) (recipient : Addr) (timeout : Nat) :
    W Addr Bytes32 → Except Revert (W Addr Bytes32) :=
  nonReentrant (_lock d x hashlock recipient 0 x.value timeout false)

def lockToken (hashlock : Bytes32) (recipient token : Addr) (amount timeout : Nat) :
    W Addr Bytes32 → Except Revert (W Addr Bytes32) :=
  nonReentrant (_lockToken d x hashlock recipient token amount timeout false)

def lockNativeOpen (hashlock : Bytes32) (timeout : Nat) :
    W Addr Bytes32 → Except Revert (W Addr Bytes32) :=
  nonReentrant (_lock d x hashlock 0 0 x.value timeout true)

def lockTokenOpen (hashlock : Bytes32) (token : Addr) (amount timeout : Nat) :
    W Addr Bytes32 → Except Revert (W Addr Bytes32) :=
  nonReentrant (_lockToken d x hashlock 0 token amount timeout true)

def assign (hashlock : Bytes32) (recipient : Addr) :
    W Addr Bytes32 → Except Revert (W Addr Bytes32) :=
  nonReentrant fun w =>
    let s := w.storage.swaps hashlock
    if s.status ≠ .Open then .error .SwapNotOpen
    else if x.sender ≠ s.initiator then .error .NotInitiator
    else if s.recipient ≠ 0 then .error .AlreadyAssigned
    else if recipient = 0 ∨ recipient = d.self then .error .InvalidParams
    else if x.timestamp ≥ s.timeout then .error .TimeoutPassed
    else .ok ((setSwap hashlock { s with recipient } w).emit (.Assigned hashlock recipient))

/-! ## Settlements -/

def release (hashlock : Bytes32) : W Addr Bytes32 → Except Revert (W Addr Bytes32) :=
  nonReentrant fun w =>
    let s := w.storage.swaps hashlock
    if s.status ≠ .Open then .error .SwapNotOpen
    else if x.sender ≠ s.initiator then .error .NotInitiator
    else if s.recipient ≠ 0 then .error .AlreadyAssigned
    else
      _settle d x hashlock s.token s.initiator s.amount
        ((setSwap hashlock { s with status := .Refunded } w).emit (.Refunded hashlock))

def claim (hashlock preimage : Bytes32) : W Addr Bytes32 → Except Revert (W Addr Bytes32) :=
  nonReentrant fun w =>
    let s := w.storage.swaps hashlock
    if s.status ≠ .Open then .error .SwapNotOpen
    else if s.recipient = 0 then .error .NotAssigned
    else if x.timestamp ≥ s.timeout then .error .TimeoutPassed
    else if d.sha256 preimage ≠ hashlock then .error .WrongPreimage
    else
      _settle d x hashlock s.token s.recipient s.amount
        ((setSwap hashlock { s with status := .Claimed, preimage } w).emit
          (.Claimed hashlock preimage x.sender))

def refund (hashlock : Bytes32) : W Addr Bytes32 → Except Revert (W Addr Bytes32) :=
  nonReentrant fun w =>
    let s := w.storage.swaps hashlock
    if s.status ≠ .Open then .error .SwapNotOpen
    else if x.timestamp < s.timeout then .error .TimeoutNotReached
    else
      _settle d x hashlock s.token s.initiator s.amount
        ((setSwap hashlock { s with status := .Refunded } w).emit (.Refunded hashlock))

/-! ## Credits -/

def _withdraw (token dst : Addr) (amount : Nat) (w : W Addr Bytes32) :
    Except Revert (W Addr Bytes32) :=
  if dst = 0 ∨ dst = d.self then .error .InvalidParams
  else if amount = 0 then .error .NoCredit
  else
    let credit := w.storage.credits token x.sender
    if credit < amount then .error .InsufficientCredit
    else do
      let outstanding ← checkedSub (w.storage.outstanding token) amount
      _strictPayout d x token dst amount
        ((setCredit token x.sender (credit - amount) outstanding w).emit
          (.PayoutWithdrawn token x.sender dst amount))

def withdraw (token dst : Addr) (amount : Nat) :
    W Addr Bytes32 → Except Revert (W Addr Bytes32) :=
  nonReentrant (_withdraw d x token dst amount)

def withdrawAll (token dst : Addr) : W Addr Bytes32 → Except Revert (W Addr Bytes32) :=
  nonReentrant fun w => _withdraw d x token dst (w.storage.credits token x.sender) w

def pushCredit (token account : Addr) : W Addr Bytes32 → Except Revert (W Addr Bytes32) :=
  nonReentrant fun w =>
    let amount := w.storage.credits token account
    if amount = 0 then .error .NoCredit
    else do
      let outstanding ← checkedSub (w.storage.outstanding token) amount
      _strictPayout d x token account amount
        ((setCredit token account 0 outstanding w).emit
          (.PayoutWithdrawn token account account amount))

/-! ## Views -/

def getSwap (hashlock : Bytes32) (w : W Addr Bytes32) : Swap Addr Bytes32 :=
  w.storage.swaps hashlock

def creditOf (token account : Addr) (w : W Addr Bytes32) : Nat := w.storage.credits token account

def outstandingCredit (token : Addr) (w : W Addr Bytes32) : Nat := w.storage.outstanding token

def deliveryGasPolicy : Nat × Nat := (DELIVERY_GAS_LIMIT, DELIVERY_GAS_RESERVE)

/-! ## Dispatch -/

def Payable : Call Addr Bytes32 → Bool
  | .lockNative .. | .lockNativeOpen .. => true
  | _ => false

def dispatch : Call Addr Bytes32 → W Addr Bytes32 → Except Revert (W Addr Bytes32)
  | .lockNative h r t => lockNative d x h r t
  | .lockToken h r k a t => lockToken d x h r k a t
  | .lockNativeOpen h t => lockNativeOpen d x h t
  | .lockTokenOpen h k a t => lockTokenOpen d x h k a t
  | .assign h r => assign d x h r
  | .release h => release d x h
  | .claim h p => claim d x h p
  | .refund h => refund d x h
  | .withdraw k dst a => withdraw d x k dst a
  | .withdrawAll k dst => withdrawAll d x k dst
  | .pushCredit k a => pushCredit d x k a
  | .getSwap .. | .creditOf .. | .outstandingCredit .. | .deliveryGasPolicy => .ok
  | .selfDeliver k dst a => selfDeliver d x x.sender x.gasLeft k dst a

/-- The whole contract: a message takes its value in and runs its function. -/
def code (x : Ctx Addr Bytes32) (call : Call Addr Bytes32) (w : W Addr Bytes32) :
    Except Revert (W Addr Bytes32) := do
  let w ← receive d.toChain x.sender x.value (Payable call) w
  dispatch d x call w

end

end QuantaSwap.Htlc.V3
