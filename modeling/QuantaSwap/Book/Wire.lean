import QuantaSwap.Book.Assets
import QuantaSwap.Lib.Decimal
import QuantaSwap.Lib.JsonText

/-!
# The portable wire

The deployment that every portable statement names, and `protocolMessageBytes`,
the bytes that are signed and hashed.
-/

set_option autoImplicit false

namespace QuantaSwap.Book

open Lib.Js Lib.Text Lib.Checks

/-- `BYTES32_RE` and `HASHLOCK_RE` -/
def bytes32Re : String → Bool := fixed ['0', 'x'] 64 isLowerHex

/-- `TOKEN_HASH_RE`, `RAW_TOKEN_RE` and `RAW_CAPABILITY_RE` -/
def tokenHashRe : String → Bool := fixed [] 64 isLowerHex

abbrev Bytes32 := Matching bytes32Re
abbrev Hashlock := Matching bytes32Re
abbrev TokenHash := Matching tokenHashRe

instance lawfulBEq_bytes32 : LawfulBEq Bytes32 := inferInstance
instance lawfulBEq_tokenHash : LawfulBEq TokenHash := inferInstance

/-- `slice(2)` of a 32-byte hex string. -/
def hexOf (b : Bytes32) : TokenHash := ⟨dropLead ['0', 'x'] b.val, fixed_dropLead b.property⟩

/-- `` `0x${digest}` `` -/
def prefixed (h : TokenHash) : Bytes32 :=
  ⟨String.ofList ['0', 'x'] ++ h.val, fixed_append h.property⟩

@[simp] theorem hexOf_prefixed (h : TokenHash) : hexOf (prefixed h) = h :=
  Subtype.ext (dropLead_append _)

theorem prefixed_injective {g h : TokenHash} (heq : prefixed g = prefixed h) : g = h := by
  rw [← hexOf_prefixed g, heq, hexOf_prefixed]

/-! ## Cryptography that is not part of the repository -/

/-- The digest, the extendable output and the ML-DSA-87 check that the book calls. -/
structure Crypto where
  /-- `Buffer.from(sha256(bytes)).toString("hex")` -/
  sha256 : List UInt8 → TokenHash
  /-- `shake256(bytes, { dkLen: 64 })` -/
  shake256 : List UInt8 → List UInt8
  /-- `verifyMessageForSigner({ expectedSigner, descriptor, signature, publicKey, messageBytes
  })` -/
  verifyMessageForSigner (expectedSigner descriptor signature publicKey : String)
    (messageBytes : List UInt8) : Bool

/-- `new TextEncoder().encode(s)` -/
def utf8 (s : String) : List UInt8 := s.toUTF8.data.toList

theorem utf8_injective {s t : String} (h : utf8 s = utf8 t) : s = t := by
  apply String.toByteArray_inj.mp
  exact ByteArray.ext (Array.toList_inj.mp h)

def hexDigit (c : Char) : UInt8 :=
  if isDigit c then UInt8.ofNat (c.toNat - 48) else UInt8.ofNat (c.toLower.toNat - 87)

/-- The bytes that a string of hex digits spells. -/
def hexBytes : List Char → List UInt8
  | high :: low :: rest => (hexDigit high * 16 + hexDigit low) :: hexBytes rest
  | _ => []

/-- `getBytes("0x...")` -/
def getBytes (b : Bytes32) : List UInt8 := hexBytes (hexOf b).val.toList

/-- `sha256Hex` of store.ts -/
def sha256Hex (E : Crypto) (s : String) : TokenHash := E.sha256 (utf8 s)

/-! ## The deployment -/

/-- The checked-in protocol-v2.json and what protocol-v2-wire.ts derives from it. -/
def ethChainId : String := "11155111"
def qrlChainId : String := "3151909"
def qrlGenesisHash : String := "0xd15407991193e6c23b733dc6bf9c628deaff8f9b6e252aa0d60030952b3e3ea4"
def ethHtlc : String := "eip155:11155111:0xcd5aa74452cc29e73c6e52591b3b54d775c683e4"
def qrlHtlc : String :=
  "Qbfe68340591f82a68c2258fa2ce7c02be21e5fc7bb71615b56a509db4985e863" ++
  "d9243b74da6335c065e257a01d40354653e551907338dbdc7a6b342ea2274437"

def orderV2Domain : List (String × String) :=
  [("name", "QuantaSwap"), ("version", "2"), ("ethChainId", ethChainId), ("ethHtlc", ethHtlc),
    ("qrlChainId", qrlChainId), ("qrlGenesisHash", qrlGenesisHash), ("qrlHtlc", qrlHtlc)]

/-- `ORDER_V2_DEPLOYMENT`, the last four fields of every statement. -/
def orderV2Deployment : Record :=
  [("ethChainId", .str ethChainId), ("ethHtlc", .str ethHtlc),
    ("qrlChainId", .str qrlChainId), ("qrlHtlc", .str qrlHtlc)]

def assertV2Deployment : Except Thrown Unit :=
  let zeros (s : String) (lead : Nat) : Bool := (s.toList.drop lead).all (· == '0')
  refuse
    (!fixed "eip155:11155111:0x".toList 40 isLowerHex ethHtlc || zeros ethHtlc 18 ||
      !fixed ['Q'] 128 isLowerHex qrlHtlc || zeros qrlHtlc 1)
    (.error "Portable V2 requires a qualified v3 HTLC deployment")

theorem assertV2Deployment_ok : assertV2Deployment = .ok ⟨⟩ := by decide +kernel

/-! ## Statements -/

inductive WireType where
  | uint (bits : Nat)
  | bool
  | bytes32
  | string
  deriving DecidableEq, Repr

abbrev WireField := String × WireType

inductive PrimaryType where
  | OrderV2
  | FillIntentV2
  | FillV2
  | CancelV2
  deriving DecidableEq, Repr

def PrimaryType.name : PrimaryType → String
  | .OrderV2 => "OrderV2"
  | .FillIntentV2 => "FillIntentV2"
  | .FillV2 => "FillV2"
  | .CancelV2 => "CancelV2"

def deploymentFields : List WireField :=
  [("ethChainId", .uint 256), ("ethHtlc", .string), ("qrlChainId", .uint 256), ("qrlHtlc", .string)]

/-- `PROTOCOL_V2_FIELDS` -/
def PrimaryType.fields : PrimaryType → List WireField
  | .OrderV2 =>
    [("direction", .string), ("asset", .string), ("fromAmount", .uint 256), ("toAmount", .uint 256),
      ("makerEthAccount", .string), ("makerQrlAccount", .string), ("visibility", .string),
      ("allowedTakerEth", .string), ("allowedTakerQrl", .string), ("prelocked", .bool),
      ("hashlock", .bytes32), ("initiatorTimeout", .uint 64), ("issuedAt", .uint 64),
      ("expiresAt", .uint 64), ("nonce", .bytes32), ("makerTokenCommitment", .bytes32),
      ("shareTokenCommitment", .bytes32)] ++ deploymentFields
  | .FillIntentV2 =>
    [("orderDigest", .bytes32), ("requestNonce", .bytes32), ("takerEthAccount", .string),
      ("takerQrlAccount", .string), ("releaseCommitment", .bytes32), ("issuedAt", .uint 64),
      ("expiresAt", .uint 64)] ++ deploymentFields
  | .FillV2 =>
    [("orderDigest", .bytes32), ("orderNonce", .bytes32), ("intentDigest", .bytes32),
      ("fillNonce", .bytes32), ("takerEthAccount", .string), ("takerQrlAccount", .string),
      ("releaseCommitment", .bytes32), ("hashlock", .bytes32), ("initiatorTimeout", .uint 64),
      ("responderTimeout", .uint 64), ("issuedAt", .uint 64), ("respondBy", .uint 64)] ++
        deploymentFields
  | .CancelV2 =>
    [("orderDigest", .bytes32), ("orderNonce", .bytes32), ("cancelNonce", .bytes32),
      ("issuedAt", .uint 64), ("reasonCode", .uint 8)] ++ deploymentFields

structure Payload where
  primaryType : PrimaryType
  fields : List WireField
  domain : Record
  message : Record

/-- `exactKeys`: no key is missing and no key is unknown. -/
def exactKeys (value : Record) (keys : List String) : Except Thrown Unit :=
  refuse (value.keys.length ≠ keys.length ∨ ∃ key ∈ value.keys, key ∉ keys)
    (.error "Protocol V2 contains missing or unsupported fields")

def printable (s : String) : Bool := s.toList.all fun c => ' ' ≤ c && c ≤ '~'

/-- One field of a statement, in the form it is written in. -/
def wireCell (type : WireType) (value : Option Json) : Except Thrown Lib.JsonText.Cell :=
  match type, value with
  | .uint bits, some (.num n) =>
    match n with
    | .int z =>
      if 0 ≤ z ∧ z.toNat ≤ maxSafeInteger then
        if z.toNat < 2 ^ bits then .ok (.text z.toNat.repr.toList)
        else .error (.error "Invalid portable V2 unsigned integer")
      else .error (.error "Invalid portable V2 integer")
    | _ => .error (.error "Invalid portable V2 integer")
  | .uint bits, some (.str s) =>
    if Lib.Decimal.canonical s.toList = true ∧ Lib.Decimal.value s < 2 ^ bits then
      .ok (.text s.toList)
    else .error (.error "Invalid portable V2 unsigned integer")
  | .uint _, _ => .error (.error "Invalid portable V2 unsigned integer")
  | .bool, some (.bool b) => .ok (.flag b)
  | .bool, _ => .error (.error "Invalid portable V2 boolean")
  | .bytes32, some (.str s) =>
    if bytes32Re s = true then .ok (.text s.toList) else
      .error (.error "Invalid portable V2 bytes32")
  | .bytes32, _ => .error (.error "Invalid portable V2 bytes32")
  | .string, some (.str s) =>
    if printable s = true then .ok (.text s.toList) else
      .error (.error "Invalid portable V2 ASCII string")
  | .string, _ => .error (.error "Invalid portable V2 ASCII string")

/-- The fields of a statement in the order the schema lists them. -/
def wireRows (message : Record) : List WireField → Except Thrown (List Lib.JsonText.Row)
  | [] => .ok []
  | (name, type) :: fields => do
    let cell ← wireCell type (message.get name)
    let rest ← wireRows message fields
    pure ((name.toList, cell) :: rest)

def domainRows (domain : Record) : List (String × String) → Except Thrown (List Lib.JsonText.Row)
  | [] => .ok []
  | (key, expected) :: keys =>
    match domain.get key with
    | some (.str value) =>
      if value = expected then do
        let rest ← domainRows domain keys
        pure ((key.toList, .text value.toList) :: rest)
      else .error (.error "Portable V2 deployment domain mismatch")
    | _ => .error (.error "Portable V2 deployment domain mismatch")

def messagePrefix : String := "QuantaSwap Protocol V2\x00"

/-- `MESSAGE_PREFIX + JSON.stringify(["2", primaryType, domain, values])` -/
def messageText (primaryType : PrimaryType) (domain values : List Lib.JsonText.Row) : List Char :=
  messagePrefix.toList ++ '[' :: (Lib.JsonText.quote ['2'] ++ ',' ::
    (Lib.JsonText.quote primaryType.name.toList ++ ',' ::
      (Lib.JsonText.rows domain ++ ',' :: (Lib.JsonText.rows values ++ [']']))))

def protocolMessageBytes (payload : Payload) : Except Thrown (List UInt8) := do
  let fields := payload.primaryType.fields
  exactKeys payload.domain (orderV2Domain.map Prod.fst)
  exactKeys payload.message (fields.map Prod.fst)
  refuse (payload.fields ≠ fields) (.error "Portable V2 field schema mismatch")
  let domain ← domainRows payload.domain orderV2Domain
  let values ← wireRows payload.message fields
  pure (utf8 (String.ofList (messageText payload.primaryType domain values)))

theorem messageText_injective {t t' : PrimaryType} {d d' v v' : List Lib.JsonText.Row}
    (h : messageText t d v = messageText t' d' v') : t.name = t'.name ∧ d = d' ∧ v = v' := by
  simp only [messageText, List.append_cancel_left_eq, List.cons.injEq, true_and] at h
  obtain ⟨hname, h⟩ := Lib.JsonText.quote_append _ _ _ _ h
  rw [List.cons.injEq] at h
  obtain ⟨hd, h⟩ := Lib.JsonText.rows_append _ _ _ _ h.2
  rw [List.cons.injEq] at h
  obtain ⟨hv, -⟩ := Lib.JsonText.rows_append _ _ _ _ h.2
  exact ⟨String.toList_inj.mp hname, hd, hv⟩

/-- Equal bytes are the same statement: its type and the text of each field. -/
theorem protocolMessageBytes_injective {p p' : Payload} {m : List UInt8}
    (h : protocolMessageBytes p = .ok m) (h' : protocolMessageBytes p' = .ok m) :
    p.primaryType.name = p'.primaryType.name ∧
      ∃ values, wireRows p.message p.primaryType.fields = .ok values ∧
        wireRows p'.message p'.primaryType.fields = .ok values := by
  simp only [protocolMessageBytes, bind_eq_ok, pure_eq_ok] at h h'
  obtain ⟨-, -, -, -, -, -, d, -, v, hv, rfl⟩ := h
  obtain ⟨-, -, -, -, -, -, d', -, v', hv', hm⟩ := h'
  have htext := String.ofList_injective (utf8_injective hm)
  obtain ⟨htype, -, rfl⟩ := messageText_injective htext
  exact ⟨htype.symm, v', hv, hv'⟩

end QuantaSwap.Book
