import QuantaSwap.Book.Store
import QuantaSwap.Lib.Hex
import QuantaSwap.Lib.Run

/-!
# The QRVM codec

Calldata and return values of the contract in words of 64 bytes. The market maker and
the browser carry one copy each; they differ in the class of some errors and in the
check that an account has to pass.
-/

set_option autoImplicit false

namespace QuantaSwap.Qrvm

open Lib.Js Lib.Text Lib.Checks Lib.Hex Book

inductive WordType where
  | bytes32
  | address
  | uint256
  deriving DecidableEq, Repr

def WordType.name : WordType → String
  | .bytes32 => "bytes32"
  | .address => "address"
  | .uint256 => "uint256"

inductive QrvmHtlcMethod where
  | lockNative
  | lockNativeOpen
  | assign
  | release
  | claim
  | refund
  | getSwap
  | withdraw
  | withdrawAll
  | pushCredit
  | creditOf
  | outstandingCredit
  | deliveryGasPolicy
  deriving DecidableEq, Repr

def QrvmHtlcMethod.name : QrvmHtlcMethod → String
  | .lockNative => "lockNative"
  | .lockNativeOpen => "lockNativeOpen"
  | .assign => "assign"
  | .release => "release"
  | .claim => "claim"
  | .refund => "refund"
  | .getSwap => "getSwap"
  | .withdraw => "withdraw"
  | .withdrawAll => "withdrawAll"
  | .pushCredit => "pushCredit"
  | .creditOf => "creditOf"
  | .outstandingCredit => "outstandingCredit"
  | .deliveryGasPolicy => "deliveryGasPolicy"

/-- `METHODS` -/
def QrvmHtlcMethod.types : QrvmHtlcMethod → List WordType
  | .lockNative => [.bytes32, .address, .uint256]
  | .lockNativeOpen => [.bytes32, .uint256]
  | .assign => [.bytes32, .address]
  | .release => [.bytes32]
  | .claim => [.bytes32, .bytes32]
  | .refund => [.bytes32]
  | .getSwap => [.bytes32]
  | .withdraw => [.address, .address, .uint256]
  | .withdrawAll => [.address, .address]
  | .pushCredit => [.address, .address]
  | .creditOf => [.address, .address]
  | .outstandingCredit => [.address]
  | .deliveryGasPolicy => []

/-- A thrown error, as its class and its message. -/
structure JsError where
  name : String
  message : String
  deriving DecidableEq, Repr

/-- `new Error(message)` -/
def plainError (message : String) : JsError := ⟨"Error", message⟩

/-- `string | number | bigint` -/
inductive Argument where
  | str (s : String)
  | num (n : Lib.Js.Num)
  | bigint (z : Int)
  deriving DecidableEq, Repr

/-! ## Calldata -/

/-- A word is a list of 128 digits. -/
abbrev Word := List Char

def qrvmZeroAddress : String := String.ofList ('0' :: 'x' :: List.replicate 128 '0')

def bytes32Word : Argument → Except JsError Word
  | .str s =>
    if fixed ['0', 'x'] 64 isHex s then .ok ((lower (s.toList.drop 2)).rightpad 128 '0')
    else .error (plainError "QRVM HTLC bytes32 must contain exactly 32 bytes")
  | _ => .error (plainError "QRVM HTLC bytes32 must contain exactly 32 bytes")

/-- `canonical` is `canonicalQip55QrlAddress` of the copy. -/
def qrvmAddressWord (canonical : String → Except JsError String) : Argument → Except JsError Word
  | .str s =>
    if s = qrvmZeroAddress then .ok (List.replicate 128 '0')
    else do
      let account ← canonical s
      pure (lower (account.toList.drop 1))
  | _ => .error (plainError "Invalid QRVM HTLC address")

/-- `^(?:0|[1-9][0-9]*|0x[0-9a-fA-F]+)$` -/
def integerRe (s : String) : Bool :=
  Lib.Decimal.canonical s.toList ||
    (['0', 'x'].isPrefixOf s.toList && run 1 (s.toList.length) isHex (dropLead ['0', 'x'] s))

/-- `BigInt(value)` of an argument that is not refused. -/
def bigInt : Argument → Option Int
  | .num (.int z) => if z.natAbs ≤ maxSafeInteger then some z else none
  | .num .negZero => some 0
  | .num .other => none
  | .str s =>
    if integerRe s then
      some (if Lib.Decimal.canonical s.toList then (Lib.Decimal.value s : Int) else
        (Lib.Hex.value (s.toList.drop 2) : Int))
    else none
  | .bigint z => some z

def uint256Word (value : Argument) : Except JsError Word := do
  let number ← orThrow (bigInt value) (plainError "Invalid QRVM HTLC uint256")
  refuse (number < 0 ∨ 2 ^ 256 ≤ number) (plainError "QRVM HTLC uint256 out of range")
  pure (padded 128 number.toNat)

def word (canonical : String → Except JsError String) : WordType → Argument → Except JsError Word
  | .bytes32 => bytes32Word
  | .address => qrvmAddressWord canonical
  | .uint256 => uint256Word

def QrvmHtlcMethod.signature (method : QrvmHtlcMethod) : String :=
  method.name ++ "(" ++ ",".intercalate (method.types.map WordType.name) ++ ")"

/-- `id` hashes a signature. -/
def encodeQrvmHtlcWith (canonical : String → Except JsError String) (id : String → String)
    (method : QrvmHtlcMethod)
    (values : List Argument) : Except JsError String := do
  refuse (values.length ≠ method.types.length) (plainError "Invalid QRVM HTLC argument count")
  let words ← (method.types.zip values).mapM fun (type, v) => word canonical type v
  pure (String.ofList ((id method.signature).toList.take 10) ++ String.ofList words.flatten)

/-! ## Return values -/

/-- `^0x[0-9a-fA-F]{n}$` -/
def hexText (n : Nat) (raw : Option Json) : Option String :=
  (asString raw).filter (fixed ['0', 'x'] n isHex)

/-- `raw.slice(2 + index * 128, 2 + (index + 1) * 128).toLowerCase()` -/
def wordAt (raw : String) (index : Nat) : Word :=
  lower (((raw.toList.drop 2).drop (index * 128)).take 128)

/-- A word that holds an integer in its low half. `name` is the class of the copy's error. -/
def uint256At (name : String) (w : Word) : Except JsError Nat := do
  refuse (w.take 64 ≠ List.replicate 64 '0') ⟨name, "Noncanonical QRVM uint256 padding"⟩
  pure (Lib.Hex.value w)

def decodeQrvmUintsWith (name : String) (raw : Option Json) (count : Nat) :
    Except JsError (List Nat) := do
  let text ← orThrow (hexText (count * 128) raw)
    ⟨name, "QRVM call must return exactly " ++ count.repr ++ " 64-byte word(s)"⟩
  (List.range count).mapM fun index => uint256At name (wordAt text index)

structure QrvmSwap where
  initiator : String
  recipient : String
  token : String
  amount : Nat
  timeout : Nat
  status : Fin 4
  preimage : String
  deriving DecidableEq, Repr

/-- `numericStatus` when it is one of the four. -/
def swapStatus : Int → Option (Fin 4)
  | 0 => some 0
  | 1 => some 1
  | 2 => some 2
  | 3 => some 3
  | _ => none

/-- `` `0x${word}` `` -/
def prefixedWord (w : Word) : String := String.ofList ('0' :: 'x' :: w)

def decodeQrvmSwapWith (name : String) (raw : Option Json) : Except JsError QrvmSwap := do
  let text ← orThrow (hexText 896 raw)
    (plainError "QRVM getSwap must return exactly seven 64-byte words")
  let amount ← uint256At name (wordAt text 3)
  let timeout ← uint256At name (wordAt text 4)
  let status ← uint256At name (wordAt text 5)
  refuse (maxSafeInteger < timeout) (plainError "Unsafe QRVM timeout")
  let numericStatus ← orThrow (swapStatus (roundDouble status))
    (plainError "Unknown QRVM swap status")
  let preimage := wordAt text 6
  refuse (preimage.drop 64 ≠ List.replicate 64 '0') (plainError "Noncanonical QRVM bytes32 padding")
  pure {
    initiator := prefixedWord (wordAt text 0)
    recipient := prefixedWord (wordAt text 1)
    token := prefixedWord (wordAt text 2)
    amount := amount
    timeout := (roundDouble timeout).toNat
    status := numericStatus
    preimage := prefixedWord (preimage.take 64) }

/-! ## The two copies -/

section Copies

variable (E : Crypto) (id : String → String)

/-- The account with the checksum, of a text that `isQip55QrlAddress` accepts. -/
def checksummedAccount (value : String) : String :=
  String.ofList ('Q' :: checksummedHex E (lower (value.toList.drop 1)))

def legacyQrlAddressRe : String → Bool := fixed ['Q'] 40 isHex

/-- `canonicalQip55QrlAddress` of the market maker. -/
def Maker.canonicalQip55QrlAddress (value : String) : Except JsError String :=
  if isQip55QrlAddress E (some (.str value)) then .ok (checksummedAccount E value)
  else if legacyQrlAddressRe value then
    .error (plainError "QIP-55 requires a fresh 64-byte QRL HTLC deployment")
  else .error (plainError
    "QRL address must use an uppercase Q prefix followed by 64 bytes with a valid checksum")

def Maker.encodeQrvmHtlc : QrvmHtlcMethod → List Argument → Except JsError String :=
  encodeQrvmHtlcWith (Maker.canonicalQip55QrlAddress E) id

def Maker.decodeQrvmUints : Option Json → Nat → Except JsError (List Nat) :=
  decodeQrvmUintsWith "Error"

def Maker.decodeQrvmSwap : Option Json → Except JsError QrvmSwap := decodeQrvmSwapWith "Error"

/-- `canonicalQip55QrlAddress` of the browser. -/
def Browser.canonicalQip55QrlAddress (value : String) : Except JsError String :=
  if isQip55QrlAddress E (some (.str value)) then .ok (checksummedAccount E value)
  else .error (plainError
    "Expected an uppercase Q prefix followed by a 64-byte address with a valid checksum")

def Browser.encodeQrvmHtlc : QrvmHtlcMethod → List Argument → Except JsError String :=
  encodeQrvmHtlcWith (Browser.canonicalQip55QrlAddress E) id

def Browser.decodeQrvmUints : Option Json → Nat → Except JsError (List Nat) :=
  decodeQrvmUintsWith "InvalidInputError"

/-- The browser's copy turns the status into a number before it looks at the timeout. -/
def Browser.decodeQrvmSwap : Option Json → Except JsError QrvmSwap :=
  decodeQrvmSwapWith "InvalidInputError"

end Copies

end QuantaSwap.Qrvm
