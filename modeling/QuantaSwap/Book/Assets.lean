import QuantaSwap.Lib.Checks
import QuantaSwap.Lib.Json

/-!
# The asset registry and the errors of the order book
-/

set_option autoImplicit false

namespace QuantaSwap.Book

open Lib.Js Lib.Checks

inductive ErrorCode where
  | federationDependency
  | transientCapacity
  deriving DecidableEq, Repr

/-- `ApiError`: `status` is the response code. -/
structure ApiError where
  status : Nat
  message : String
  code : Option ErrorCode := none
  shedBeforeVerification : Bool := false
  deriving DecidableEq, Repr

/-- What an order book function throws: an `ApiError` or a plain `Error`. -/
inductive Thrown where
  | api (e : ApiError)
  | error (message : String)
  deriving DecidableEq, Repr

def apiError (status : Nat) (message : String) (code : Option ErrorCode := none) : Thrown :=
  .api ⟨status, message, code, false⟩

/-- `new ApiError(status, message, code).shed()` -/
def shedError (status : Nat) (message : String) (code : Option ErrorCode := none) : Thrown :=
  .api ⟨status, message, code, true⟩

inductive AssetSymbol where
  | ETH
  | USDC
  | tUSDT
  deriving DecidableEq, Repr

structure AmountBounds where
  minBaseUnits : Nat
  maxBaseUnits : Nat
  minLabel : String

structure Asset extends AmountBounds where
  symbol : AssetSymbol
  decimals : Nat

/-- The QRL leg: 18 decimals, ETH-like bounds. -/
def qrlBounds : AmountBounds := ⟨10 ^ 15, 10 ^ 24, "0.001"⟩

def AssetSymbol.name : AssetSymbol → String
  | .ETH => "ETH"
  | .USDC => "USDC"
  | .tUSDT => "tUSDT"

def AssetSymbol.asset : AssetSymbol → Asset
  | .ETH => ⟨⟨10 ^ 15, 10 ^ 24, "0.001"⟩, .ETH, 18⟩
  | .USDC => ⟨⟨10 ^ 6, 10 ^ 13, "1 USDC"⟩, .USDC, 6⟩
  | .tUSDT => ⟨⟨10 ^ 6, 10 ^ 13, "1 tUSDT"⟩, .tUSDT, 6⟩

/-- `isKnownAsset`, with the asset it names. -/
def knownAsset : String → Option AssetSymbol
  | "ETH" => some .ETH
  | "USDC" => some .USDC
  | "tUSDT" => some .tUSDT
  | _ => none

@[simp] theorem knownAsset_name (a : AssetSymbol) : knownAsset a.name = some a := by
  cases a <;> rfl

theorem name_of_knownAsset {s : String} {a : AssetSymbol} (h : knownAsset s = some a) :
    a.name = s := by
  unfold knownAsset at h
  split at h <;> cases h <;> rfl

@[simp] theorem asset_symbol (a : AssetSymbol) : a.asset.symbol = a := by
  cases a <;> rfl

/-- An absent asset field means ETH. -/
def requireAsset : Option Json → Except Thrown Asset
  | none => .ok AssetSymbol.ETH.asset
  | some (.str s) =>
    match knownAsset s with
    | some a => .ok a.asset
    | none => .error (apiError 400 "asset must be one of ETH, USDC, tUSDT")
  | some _ => .error (apiError 400 "asset must be one of ETH, USDC, tUSDT")

theorem requireAsset_eq_ok {raw : Option Json} {asset : Asset} (h : requireAsset raw = .ok asset) :
    ∃ a : AssetSymbol, asset = a.asset := by
  unfold requireAsset at h
  split at h
  · cases h
    exact ⟨_, rfl⟩
  · split at h
    · cases h
      exact ⟨_, rfl⟩
    · cases h
  · cases h

@[simp] theorem requireAsset_name (a : AssetSymbol) :
    requireAsset (some (.str a.name)) = .ok a.asset := by
  simp [requireAsset]

end QuantaSwap.Book
