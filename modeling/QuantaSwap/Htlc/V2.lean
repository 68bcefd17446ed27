import QuantaSwap.Htlc.Types

/-!
# HTLC, the contract before HTLCv3

One definition per function of `HTLC.hyp`. A payout is part of the call: if it fails, the whole
call reverts.
-/

set_option autoImplicit false

open Lib.Evm Function

namespace QuantaSwap.Htlc.V2

structure Storage (Addr Bytes32 : Type) where
  swaps : Bytes32 → Swap Addr Bytes32
  entered : Nat

abbrev W (Addr Bytes32 : Type) := State Addr Bytes32 (Storage Addr Bytes32)

abbrev Ctx (Addr Bytes32 : Type) := Frame Addr (W Addr Bytes32)

section

variable {Addr Bytes32 : Type} [DecidableEq Addr] [DecidableEq Bytes32] [Zero Addr] [Zero Bytes32]

def initial : Storage Addr Bytes32 where
  swaps := fun _ => .empty
  entered := 1

def setEntered (n : Nat) (w : W Addr Bytes32) : W Addr Bytes32 :=
  { w with storage := { w.storage with entered := n } }

def setSwap (h : Bytes32) (s : Swap Addr Bytes32) (w : W Addr Bytes32) : W Addr Bytes32 :=
  { w with storage := { w.storage with swaps := update w.storage.swaps h s } }

def nonReentrant (body : W Addr Bytes32 → Except Revert (W Addr Bytes32)) (w : W Addr Bytes32) :
    Except Revert (W Addr Bytes32) :=
  if w.storage.entered ≠ 1 then .error .Reentrancy
  else do
    let w ← body (setEntered 2 w)
    return setEntered 1 w

/-! ## Token calls -/

variable (d : Deployment Addr Bytes32) (x : Ctx Addr Bytes32)

/-- `IERC20(token).balanceOf(address(this))`, a typed call: a failure is passed on, and the answer
has to decode. -/
def selfBalance (token : Addr) (read : Option ReturnData) (w : W Addr Bytes32) :
    Except Revert Nat :=
  match balanceOf d.toChain token read w with
  | none => .error .Bubbled
  | some ret =>
    match ret.decodeUint with
    | some n => .ok n
    | none => .error .Decode

def _transferCall (token : Addr) (data : W Addr Bytes32 → Option (W Addr Bytes32))
    (w : W Addr Bytes32) : Except Revert (W Addr Bytes32) :=
  match callToken d.toChain x.callee token data w with
  | none => .error .TransferFailed
  | some (.empty, w') => .ok w'
  | some (ret, w') =>
    match ret.decodeBool with
    | some true => .ok w'
    | some false => .error .TransferFailed
    | none => .error .Decode

def _payout (token dst : Addr) (amount : Nat) (w : W Addr Bytes32) :
    Except Revert (W Addr Bytes32) :=
  if token = 0 then
    match callNative d.toChain x.callee dst amount w with
    | some w' => .ok (w'.emit (.Sent token dst amount))
    | none => .error .TransferFailed
  else do
    let w' ← _transferCall d x token (fun w => w.moveToken token d.self dst amount) w
    return w'.emit (.Sent token dst amount)

/-! ## Locks -/

def _lock (hashlock : Bytes32) (recipient token : Addr) (amount timeout : Nat)
    (openRecipient : Bool) (w : W Addr Bytes32) : Except Revert (W Addr Bytes32) :=
  if (w.storage.swaps hashlock).status ≠ .None then .error .HashlockAlreadyUsed
  else if hashlock = 0 ∨ amount = 0 then .error .InvalidParams
  else if ¬ openRecipient ∧ recipient = 0 then .error .InvalidParams
  else if timeout ≤ x.timestamp then .error .InvalidParams
  else
    .ok ((setSwap hashlock
      { initiator := x.sender, recipient, token, amount, timeout, status := .Open, preimage := 0 }
      w).emit (.Locked hashlock x.sender recipient token amount timeout))

def _lockToken (hashlock : Bytes32) (recipient token : Addr) (amount timeout : Nat)
    (openRecipient : Bool) (w : W Addr Bytes32) : Except Revert (W Addr Bytes32) :=
  if token = 0 ∨ w.code token = false then .error .InvalidParams
  else do
    let w ← _lock x hashlock recipient token amount timeout openRecipient w
    let before ← selfBalance d token x.readBefore w
    let w ← _transferCall d x token (fun w => w.moveToken token x.sender d.self amount) w
    let after ← selfBalance d token x.readAfter w
    let received ← checkedSub after before
    if received ≠ amount then .error .UnsupportedToken
    else .ok w

def lockNative (hashlock : Bytes32) (recipient : Addr) (timeout : Nat) :
    W Addr Bytes32 → Except Revert (W Addr Bytes32) :=
  nonReentrant (_lock x hashlock recipient 0 x.value timeout false)

def lockToken (hashlock : Bytes32) (recipient token : Addr) (amount timeout : Nat) :
    W Addr Bytes32 → Except Revert (W Addr Bytes32) :=
  nonReentrant (_lockToken d x hashlock recipient token amount timeout false)

def lockNativeOpen (hashlock : Bytes32) (timeout : Nat) :
    W Addr Bytes32 → Except Revert (W Addr Bytes32) :=
  nonReentrant (_lock x hashlock 0 0 x.value timeout true)

def lockTokenOpen (hashlock : Bytes32) (token : Addr) (amount timeout : Nat) :
    W Addr Bytes32 → Except Revert (W Addr Bytes32) :=
  nonReentrant (_lockToken d x hashlock 0 token amount timeout true)

def assign (hashlock : Bytes32) (recipient : Addr) :
    W Addr Bytes32 → Except Revert (W Addr Bytes32) :=
  nonReentrant fun w =>
    let s := w.storage.swaps hashlock
    if s.status ≠ .Open then .error .SwapNotOpen
    else if x.sender ≠ s.initiator then .error .NotInitiator
    else if s.recipient ≠ 0 then .error .AlreadyAssigned
    else if recipient = 0 then .error .InvalidParams
    else if x.timestamp ≥ s.timeout then .error .TimeoutPassed
    else .ok ((setSwap hashlock { s with recipient } w).emit (.Assigned hashlock recipient))

/-! ## Settlements -/

def release (hashlock : Bytes32) : W Addr Bytes32 → Except Revert (W Addr Bytes32) :=
  nonReentrant fun w =>
    let s := w.storage.swaps hashlock
    if s.status ≠ .Open then .error .SwapNotOpen
    else if x.sender ≠ s.initiator then .error .NotInitiator
    else if s.recipient ≠ 0 then .error .AlreadyAssigned
    else
      _payout d x s.token s.initiator s.amount
        ((setSwap hashlock { s with status := .Refunded } w).emit (.Refunded hashlock))

def claim (hashlock preimage : Bytes32) : W Addr Bytes32 → Except Revert (W Addr Bytes32) :=
  nonReentrant fun w =>
    let s := w.storage.swaps hashlock
    if s.status ≠ .Open then .error .SwapNotOpen
    else if s.recipient = 0 then .error .NotAssigned
    else if x.timestamp ≥ s.timeout then .error .TimeoutPassed
    else if d.sha256 preimage ≠ hashlock then .error .WrongPreimage
    else
      _payout d x s.token s.recipient s.amount
        ((setSwap hashlock { s with status := .Claimed, preimage } w).emit
          (.Claimed hashlock preimage x.sender))

def refund (hashlock : Bytes32) : W Addr Bytes32 → Except Revert (W Addr Bytes32) :=
  nonReentrant fun w =>
    let s := w.storage.swaps hashlock
    if s.status ≠ .Open then .error .SwapNotOpen
    else if x.timestamp < s.timeout then .error .TimeoutNotReached
    else
      _payout d x s.token s.initiator s.amount
        ((setSwap hashlock { s with status := .Refunded } w).emit (.Refunded hashlock))

def getSwap (hashlock : Bytes32) (w : W Addr Bytes32) : Swap Addr Bytes32 :=
  w.storage.swaps hashlock

/-! ## Dispatch -/

def Payable : Call Addr Bytes32 → Bool
  | .lockNative .. | .lockNativeOpen .. => true
  | _ => false

def dispatch : Call Addr Bytes32 → W Addr Bytes32 → Except Revert (W Addr Bytes32)
  | .lockNative h r t => lockNative x h r t
  | .lockToken h r k a t => lockToken d x h r k a t
  | .lockNativeOpen h t => lockNativeOpen x h t
  | .lockTokenOpen h k a t => lockTokenOpen d x h k a t
  | .assign h r => assign x h r
  | .release h => release d x h
  | .claim h p => claim d x h p
  | .refund h => refund d x h
  | .getSwap _ => .ok
  | _ => fun _ => .error .UnknownFunction

/-- The whole contract: a message takes its value in and runs its function. -/
def code (x : Ctx Addr Bytes32) (call : Call Addr Bytes32) (w : W Addr Bytes32) :
    Except Revert (W Addr Bytes32) := do
  let w ← receive d.toChain x.sender x.value (Payable call) w
  dispatch d x call w

/-! ## The contract on its chain -/

/-- One input: a message with its script, or a move of the outside world. -/
abbrev step (w : W Addr Bytes32) (i : Input d.toChain (Call Addr Bytes32)) : W Addr Bytes32 :=
  Lib.Evm.step d.toChain (code d) w i

/-- The world at deployment. -/
def genesis (native : Addr → Nat) (tokens : Addr → Addr → Nat) (deployed : Addr → Bool) :
    W Addr Bytes32 where
  storage := initial
  native := native
  tokens := tokens
  code := deployed
  log := []

/-- The call context of a message from outside. -/
abbrev frame (t : Nat) (m : Msg d.self (Call Addr Bytes32))
    (pre post : List (Action d.self (Call Addr Bytes32))) : Ctx Addr Bytes32 :=
  inputFrame d.toChain (code d) t m pre post

end

end QuantaSwap.Htlc.V2
