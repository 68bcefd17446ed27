import Mathlib.Data.BitVec
import Mathlib.Data.ZMod.Defs
import QuantaSwap.Lib.Evm

/-!
# What HTLC and HTLCv3 share

Records, errors and events keep the names of `contracts/hyperion`. The address width depends on
the target, so addresses and 32-byte words are type parameters.
-/

set_option autoImplicit false

open Lib.Evm

namespace QuantaSwap.Htlc

inductive Status
  | None
  | Open
  | Claimed
  | Refunded
  deriving DecidableEq, Repr

structure Swap (Addr Bytes32 : Type) where
  initiator : Addr
  /-- Zero while an open lock awaits `assign`. -/
  recipient : Addr
  /-- Zero for the native coin. -/
  token : Addr
  amount : Nat
  timeout : Nat
  status : Status
  preimage : Bytes32
  deriving DecidableEq, Repr

/-- The record of a hashlock that was never locked. -/
def Swap.empty {Addr Bytes32 : Type} [Zero Addr] [Zero Bytes32] : Swap Addr Bytes32 where
  initiator := 0
  recipient := 0
  token := 0
  amount := 0
  timeout := 0
  status := .None
  preimage := 0

inductive Revert
  | HashlockAlreadyUsed
  | InvalidParams
  | SwapNotOpen
  | WrongPreimage
  | TimeoutNotReached
  | TimeoutPassed
  | TransferFailed
  | UnsupportedToken
  | Reentrancy
  | NotInitiator
  | AlreadyAssigned
  | NotAssigned
  | NoCredit
  | InsufficientCredit
  | Unauthorized
  /-- Checked arithmetic overflowed or underflowed. -/
  | Panic
  /-- `abi.decode` refused the return data. -/
  | Decode
  /-- Value sent to a function that is not payable, or more than the sender has. -/
  | Value
  | OutOfGas
  /-- What a callee reverted with, passed on. -/
  | Bubbled
  /-- The contract has no function with this selector. -/
  | UnknownFunction
  deriving DecidableEq, Repr

/-- The events of the source, and two marks the source does not emit: `Sent` for value that left
the contract, and `Delivered` for a settlement whose payout went through. -/
inductive Event (Addr Bytes32 : Type)
  | Locked (hashlock : Bytes32) (initiator recipient token : Addr) (amount timeout : Nat)
  | Assigned (hashlock : Bytes32) (recipient : Addr)
  | Claimed (hashlock preimage : Bytes32) (caller : Addr)
  | Refunded (hashlock : Bytes32)
  | PayoutCredited (token account : Addr) (hashlock : Bytes32) (amount : Nat)
  | PayoutWithdrawn (token account dst : Addr) (amount : Nat)
  | Sent (token dst : Addr) (amount : Nat)
  | Delivered (hashlock : Bytes32) (token dst : Addr) (amount : Nat)
  deriving DecidableEq, Repr

/-- The external functions of HTLCv3. HTLC has the first eight and `getSwap`. -/
inductive Call (Addr Bytes32 : Type)
  | lockNative (hashlock : Bytes32) (recipient : Addr) (timeout : Nat)
  | lockToken (hashlock : Bytes32) (recipient token : Addr) (amount timeout : Nat)
  | lockNativeOpen (hashlock : Bytes32) (timeout : Nat)
  | lockTokenOpen (hashlock : Bytes32) (token : Addr) (amount timeout : Nat)
  | assign (hashlock : Bytes32) (recipient : Addr)
  | release (hashlock : Bytes32)
  | claim (hashlock preimage : Bytes32)
  | refund (hashlock : Bytes32)
  | withdraw (token dst : Addr) (amount : Nat)
  | withdrawAll (token dst : Addr)
  | pushCredit (token account : Addr)
  | getSwap (hashlock : Bytes32)
  | creditOf (token account : Addr)
  | outstandingCredit (token : Addr)
  | deliveryGasPolicy
  | selfDeliver (token dst : Addr) (amount : Nat)
  deriving DecidableEq, Repr

/-- A chain, and the hash `sha256(abi.encodePacked(preimage))` of a 32-byte preimage. -/
structure Deployment (Addr Bytes32 : Type) extends Chain Addr where
  sha256 : Bytes32 → Bytes32

/-- The largest `uint256`. -/
def maxUint256 : Nat := 2 ^ 256 - 1

/-- The largest `uint128`. -/
def maxUint128 : Nat := 2 ^ 128 - 1

def checkedAdd (a b : Nat) : Except Revert Nat :=
  if a + b ≤ maxUint256 then .ok (a + b) else .error .Panic

def checkedSub (a b : Nat) : Except Revert Nat :=
  if b ≤ a then .ok (a - b) else .error .Panic

section

variable {Addr σ Bytes32 : Type} [DecidableEq Addr]

abbrev State (Addr Bytes32 σ : Type) := World Addr σ (Event Addr Bytes32)

/-- A payable function takes the value it is sent; any other refuses value. -/
def receive (c : Chain Addr) (sender : Addr) (value : Nat) (payable : Bool)
    (w : State Addr Bytes32 σ) : Except Revert (State Addr Bytes32 σ) :=
  if payable then
    match w.moveNative sender c.self value with
    | some w' => .ok w'
    | none => .error .Value
  else if value = 0 then .ok w
  else .error .Value

end

end QuantaSwap.Htlc
