import QuantaSwap.Maker.Policy
import QuantaSwap.Maker.Record
import QuantaSwap.Qrvm.RoundTrip

/-!
# What a chain answers

The reads of `marketmaker/src/htlc.ts` over JSON-RPC, from the response of the endpoint to
the credit that `decide` is given. `fetch`, the runtime check and the ABI codec of
the Ethereum leg are parameters.
-/

set_option autoImplicit false

namespace QuantaSwap.Maker.ChainReads

open Lib.Js Lib.Text Lib.Checks Lib.Hex Book Qrvm

/-! ## JSON-RPC -/

/-- An HTTP response, with its body or the error of `res.json()`. -/
structure Response where
  ok : Bool
  status : Nat
  json : Except JsError Json

/-- The error that the body names, if any. -/
def bodyError (method : String) (error : Option Json) : Option JsError :=
  match error with
  | none => none
  | some .null => none
  | some (.obj error) =>
    match Record.get error "message" with
    | some (.str message) => some (plainError message)
    | _ => some (plainError ("RPC " ++ method ++ " error"))
  | some _ => some ⟨"TypeError", "RPC " ++ method ++ " returned a malformed error"⟩

/-- `rpc`, on what `fetch` gave. -/
def rpc (method : String) (fetched : Except JsError Response) : Except JsError Json := do
  let res ← fetched
  refuse (res.ok = false) (plainError ("RPC " ++ method ++ " failed: HTTP " ++ res.status.repr))
  match ← res.json with
  | .obj body =>
    match bodyError method (Record.get body "error") with
    | some error => throw error
    | none => orThrow (Record.get body "result") ⟨"TypeError",
      "RPC " ++ method ++ " omitted its result"⟩
  | _ => throw ⟨"TypeError", "RPC " ++ method ++ " returned a malformed response"⟩

def namespaceOf : LegKey → String
  | .eth => "eth"
  | .qrl => "qrl"

/-- One leg's endpoint, as one read finds it. -/
structure Endpoint where
  htlc : String
  /-- `assertQrlRuntime` on the QRL leg. -/
  runtime : Except JsError Unit
  blockNumber : Except JsError Response
  /-- `call` with this calldata at this block. -/
  call : String → String → Except JsError Response
  /-- `getLogs` of the contract with these topics. -/
  getLogs : List String → Except JsError Response

/-! ## The ABI of the Ethereum leg -/

/-- A value that the ABI decoder hands out. -/
inductive AbiValue where
  | text (s : String)
  | bigint (n : Nat)
  | result (values : List AbiValue)
  | other

/-- The `Interface` of the contract. -/
structure Interface where
  encodeFunctionData : String → List String → Except JsError String
  decodeFunctionResult : String → String → Except JsError AbiValue
  payoutCreditedTopic : String

/-- `/^0x(?:[0-9a-fA-F]{2})*$/` -/
def abiBytesRe (s : String) : Bool :=
  ['0', 'x'].isPrefixOf s.toList && (s.toList.drop 2).all isHex && (s.toList.drop 2).length % 2 == 0

def rpcBytes (raw : Json) : Except JsError String :=
  orThrow ((asString (some raw)).filter abiBytesRe) ⟨"TypeError",
    "RPC returned malformed ABI bytes"⟩

/-- `isEvmSwapTuple`, with the fields. -/
def evmSwapTuple : AbiValue → Option (String × String × String × Nat × Nat × Nat × String)
  | .result [.text initiator, .text recipient, .text token, .bigint amount, .bigint timeout,
    .bigint status,
      .text preimage] => some (initiator, recipient, token, amount, timeout, status, preimage)
  | _ => none

/-- The one value of a decoded result. -/
def only : AbiValue → Option AbiValue
  | .result [v] => some v
  | _ => none

def asBigint : AbiValue → Option Nat
  | .bigint n => some n
  | _ => none

section Reads

variable (E : Crypto) (id : String → String) (iface : Interface)

def decodeEvmUint (method : String) (raw : Json) : Except JsError Nat := do
  let bytes ← rpcBytes raw
  let decoded ← iface.decodeFunctionResult method bytes
  orThrow ((only decoded).bind asBigint) ⟨"TypeError", "Malformed EVM uint result"⟩

/-- The end of `getSwapState` on the Ethereum leg. -/
def decodeEvmSwap (raw : Json) : Except JsError QrvmSwap := do
  let bytes ← rpcBytes raw
  let decoded ← iface.decodeFunctionResult "getSwap" bytes
  let (initiator, recipient, token, amount, timeout, status, preimage) ←
    orThrow ((only decoded).bind evmSwapTuple) ⟨"TypeError", "Malformed EVM swap result"⟩
  refuse ((swapStatus (roundDouble status)).isNone ∨ maxSafeInteger < (roundDouble timeout).toNat)
    ⟨"TypeError", "Malformed EVM swap status or timeout"⟩
  let status ← orThrow (swapStatus (roundDouble status)) ⟨"TypeError",
    "Malformed EVM swap status or timeout"⟩
  pure { initiator, recipient, token, amount, timeout := (roundDouble timeout).toNat, status, preimage }

/-- `qToHex` -/
def qToHex (address : String) : Except JsError String :=
  if isQip55QrlAddress E (some (.str address)) then
    .ok (String.ofList ('0' :: 'x' :: address.toList.drop 1))
  else if fixed ['0', 'x'] 128 isHex address ∨ fixed ['0', 'x'] 40 isHex address then .ok address
  else .error (plainError "address must be QRL 64-byte, QRVM 64-byte, or Ethereum 20-byte hex")

/-! ## Swap records -/

/-- The calldata of `getSwap`. -/
def swapCalldata (ns : LegKey) (hashlock : String) : Except JsError String :=
  match ns with
  | .qrl => Maker.encodeQrvmHtlc E id .getSwap [.str hashlock]
  | .eth => iface.encodeFunctionData "getSwap" [hashlock]

def assertQrlRuntime (ns : LegKey) (ep : Endpoint) : Except JsError Unit :=
  match ns with
  | .qrl => ep.runtime
  | .eth => .ok ()

def getSwapState (ns : LegKey) (ep : Endpoint) (hashlock blockTag : String) :
    Except JsError QrvmSwap := do
  assertQrlRuntime ns ep
  let data ← swapCalldata E id iface ns hashlock
  let raw ← rpc (namespaceOf ns ++ "_call") (ep.call data blockTag)
  match ns with
  | .qrl => Maker.decodeQrvmSwap (some raw)
  | .eth => decodeEvmSwap iface raw

/-- `/^0x[0-9a-fA-F]+$/` -/
def quantityRe (s : String) : Bool :=
  ['0', 'x'].isPrefixOf s.toList && (s.toList.drop 2).all isHex && !(s.toList.drop 2).isEmpty

def getBlockNumber (ns : LegKey) (ep : Endpoint) : Except JsError Nat := do
  let raw ← rpc (namespaceOf ns ++ "_blockNumber") ep.blockNumber
  let text ← orThrow ((asString (some raw)).filter quantityRe) ⟨"TypeError",
    "RPC returned a malformed block number"⟩
  let height := (roundDouble (Lib.Hex.value (text.toList.drop 2))).toNat
  refuse (maxSafeInteger < height) ⟨"TypeError", "RPC returned an unsafe block number"⟩
  pure height

/-- `assertQip55ReadReady`, on the QRL leg only. -/
def assertQip55ReadReady (ns : LegKey) (ep : Endpoint) : Except JsError Unit :=
  match ns with
  | .qrl => (Maker.canonicalQip55QrlAddress E ep.htlc).map fun _ => ()
  | .eth => .ok ()

/-- `getConfirmedSwapState`, with the head and the state read one after the other. -/
def getConfirmedSwapState (ns : LegKey) (head ep : Endpoint) (hashlock : String)
    (confirmations : Nat) :
    Except JsError QrvmSwap := do
  assertQip55ReadReady E ns head
  let height ← getBlockNumber ns head
  let depth := height - confirmations
  getSwapState E id iface ns ep hashlock (String.ofList ('0' :: 'x' :: Nat.toDigits 16 depth))

/-! ## Credits -/

/-- The calldata of `creditOf`. -/
def creditCalldata (ns : LegKey) (token account : String) : Except JsError String :=
  match ns with
  | .qrl => Maker.encodeQrvmHtlc E id .creditOf [.str token, .str account]
  | .eth => do iface.encodeFunctionData "creditOf" [token, ← qToHex E account]

def getCredit (ns : LegKey) (ep : Endpoint) (token account : String) : Except JsError Nat := do
  assertQrlRuntime ns ep
  let data ← creditCalldata E id iface ns token account
  let raw ← rpc (namespaceOf ns ++ "_call") (ep.call data "latest")
  match ns with
  | .qrl => do
    let values ← Maker.decodeQrvmUints (some raw) 1
    pure (values.head?.getD 0)
  | .eth => decodeEvmUint iface "creditOf" raw

def addressTopic (ns : LegKey) (address : String) : Except JsError String := do
  let hex ← qToHex E address
  let digits := lower (hex.toList.drop 2)
  pure (prefixedWord (digits.leftpad (match ns with | .qrl => 128 | .eth => 64) '0'))

def qrvm64Topic (word : String) : String :=
  String.ofList (lower word.toList ++ List.replicate 64 '0')

def creditFilterTopics (ns : LegKey) (token account hashlock : String) :
    Except JsError (List String) := do
  let token ← addressTopic E ns token
  let account ← addressTopic E ns account
  match ns with
  | .qrl => pure [qrvm64Topic iface.payoutCreditedTopic, token, account, qrvm64Topic hashlock]
  | .eth => pure [iface.payoutCreditedTopic, token, account, String.ofList (lower hashlock.toList)]

/-- The digits of one data word. -/
def creditWidth : LegKey → Nat
  | .qrl => 128
  | .eth => 64

/-- `null` is `none`. -/
def decodeCreditedAmount (ns : LegKey) (data : Option Json) : Option Nat :=
  (hexText (creditWidth ns) data).map fun text => Lib.Hex.value (text.toList.drop 2)

/-- The loop of `getCreditedForSwap`: an entry that it cannot read adds nothing. -/
def totalCredited (ns : LegKey) : List Json → Nat
  | [] => 0
  | .obj entry :: entries => (decodeCreditedAmount ns (Record.get entry "data")).getD 0 +
    totalCredited ns entries
  | _ :: entries => totalCredited ns entries

def getCreditedForSwap (ns : LegKey) (ep : Endpoint) (token account hashlock : String) :
    Except JsError Nat := do
  assertQrlRuntime ns ep
  let topics ← creditFilterTopics E iface ns token account hashlock
  let raw ← rpc (namespaceOf ns ++ "_getLogs") (ep.getLogs topics)
  match raw with
  | .arr entries => pure (totalCredited ns entries)
  -- An answer that is no list reads as no event.
  | _ => pure 0

structure CreditReading where
  global : Nat
  credited : Nat
  deriving DecidableEq, Repr

/-- `ledger` and `logs` are the endpoint as the two reads find it. -/
def readSwapCredit (ns : LegKey) (ledger logs : Endpoint) (token account hashlock : String) :
    Except JsError CreditReading := do
  let global ← getCredit E id iface ns ledger token account
  let credited ← if 0 < global then
    getCreditedForSwap E iface ns logs token account hashlock else pure 0
  pure { global, credited }

/-- `creditOrNull` of the daemon. -/
def creditOrNull (ns : LegKey) (ledger logs : Endpoint) (token : String) (account : Option String)
    (hashlock : String) :
    Option Nat :=
  account.bind fun account =>
    match readSwapCredit E id iface ns ledger logs token account hashlock with
    | .ok reading => some (min reading.credited reading.global)
    | .error _ => none

end Reads

/-! ## What an answer denotes -/

/-- The data word of an amount. -/
def CreditWord (ns : LegKey) (data : String) (amount : Nat) : Prop :=
  amount < 2 ^ 256 ∧ SameHex data (prefixedWord (padded (creditWidth ns) amount))

/-- A log entry with the word of an amount as its data; which address it is from and which topics it
carries is left to the node that was asked for them, as the code leaves it. -/
def EntryDenotes (ns : LegKey) (entry : Json) (amount : Nat) : Prop :=
  ∃ row data, entry = .obj row ∧ Record.get row "data" = some (.str data) ∧
    CreditWord ns data amount

/-- A list of logs, with the amount of each. -/
def LogsDenote (ns : LegKey) (raw : Json) (amounts : List Nat) : Prop :=
  ∃ entries, raw = .arr entries ∧ List.Forall₂ (EntryDenotes ns) entries amounts

/-- A balance: its padded word on the QRL leg, what the ABI decoder reads on the other. -/
def LedgerDenotes (iface : Interface) (ns : LegKey) (raw : Json) (balance : Nat) : Prop :=
  match ns with
  | .qrl => balance < 2 ^ 256 ∧ ∃ text, raw = .str text ∧
    SameHex text (encoded [padded 128 balance])
  | .eth => ∃ text, raw = .str text ∧ abiBytesRe text = true ∧
      iface.decodeFunctionResult "creditOf" text = .ok (.result [.bigint balance])

def SwapDenotes (iface : Interface) (ns : LegKey) (raw : Json) (r : QrvmSwap) : Prop :=
  match ns with
  | .qrl => r.WellFormed ∧ ∃ text, raw = .str text ∧ SameHex text (encoded r.words)
  | .eth => r.timeout ≤ maxSafeInteger ∧ ∃ text, raw = .str text ∧ abiBytesRe text = true ∧
      iface.decodeFunctionResult "getSwap" text =
        .ok (.result [.result [.text r.initiator, .text r.recipient,
        .text r.token, .bigint r.amount, .bigint r.timeout, .bigint r.status.val,
          .text r.preimage]])

section Words

variable {ns : LegKey} {data : String} {amount : Nat}

theorem creditWidth_pos (ns : LegKey) : 0 < creditWidth ns := by cases ns <;> decide

theorem pow_le_creditWidth (ns : LegKey) : 2 ^ 256 ≤ 16 ^ creditWidth ns := by
  rw [pow_256]
  exact Nat.pow_le_pow_right (by decide) (by cases ns <;> decide)

theorem creditWord_iff : CreditWord ns data amount ↔
    fixed ['0', 'x'] (creditWidth ns) isHex data = true ∧
    Lib.Hex.value (data.toList.drop 2) = amount ∧
      amount < 2 ^ 256 := by
  have hword : (prefixedWord (padded (creditWidth ns) amount)).toList =
    '0' :: 'x' :: padded (creditWidth ns) amount :=
    String.toList_ofList
  constructor
  · rintro ⟨hlt, a, b, hdata, hb, hab⟩
    rw [hword, List.cons.injEq, List.cons.injEq] at hb
    obtain ⟨-, -, rfl⟩ := hb
    rw [lower_of_lowerHex (padded_lower _ _)] at hab
    have hhex : ∀ c ∈ a, isHex c = true := by
      intro c hc
      have hmem : c.toLower ∈ padded (creditWidth ns) amount := hab ▸ List.mem_map_of_mem hc
      exact isHex_iff_toLower.mpr (padded_lower _ _ _ hmem)
    have hlength : a.length = creditWidth ns := by
      rw [← length_padded (creditWidth_pos ns) (Nat.lt_of_lt_of_le hlt (pow_le_creditWidth ns)),
        ← hab, lower,
        List.length_map]
    refine ⟨fixed_iff.mpr ⟨a, hdata, hlength, hhex⟩, ?_, hlt⟩
    rw [hdata, List.drop_succ_cons, List.drop_succ_cons, List.drop_zero, ← value_lower hhex, hab,
      value_padded]
  · rintro ⟨hfixed, rfl, hlt⟩
    obtain ⟨a, hdata, hlength, hhex⟩ := fixed_iff.mp hfixed
    have hdrop : data.toList.drop 2 = a := by rw [hdata]; rfl
    refine ⟨hlt, a, _, hdata, hword, ?_⟩
    rw [hdrop, lower_of_lowerHex (padded_lower _ _), ← value_lower hhex]
    exact (padded_value (creditWidth_pos ns) (by rw [lower, List.length_map, hlength])
      (lower_hex hhex)).symm

/-- The entry of a log that can be read: a record whose data is one word below 2²⁵⁶. -/
def readableEntry (ns : LegKey) : Json → Bool
  | .obj row =>
    match Record.get row "data" with
    | some (.str data) =>
      fixed ['0', 'x']
        (creditWidth ns) isHex data && decide (Lib.Hex.value (data.toList.drop 2) < 2 ^ 256)
    | _ => false
  | _ => false

def readableLogs (ns : LegKey) : Json → Bool
  | .arr entries => entries.all (readableEntry ns)
  | _ => false

theorem readableEntry_iff {entry : Json} :
    readableEntry ns entry = true ↔ ∃ amount, EntryDenotes ns entry amount := by
  constructor
  · intro h
    unfold readableEntry at h
    split at h
    · rename_i row
      split at h
      · rename_i data hdata
        rw [Bool.and_eq_true, decide_eq_true_eq] at h
        exact ⟨_, row, data, rfl, hdata, creditWord_iff.mpr ⟨h.1, rfl, h.2⟩⟩
      · cases h
    · cases h
  · rintro ⟨amount, row, data, rfl, hdata, hword⟩
    obtain ⟨hfixed, rfl, hlt⟩ := creditWord_iff.mp hword
    rw [readableEntry, hdata]
    dsimp only
    rw [hfixed, decide_eq_true hlt]
    rfl

theorem decodeCreditedAmount_of_denotes {row : Record} (h : EntryDenotes ns (.obj row) amount) :
    decodeCreditedAmount ns (Record.get row "data") = some amount := by
  obtain ⟨row', data, hrow, hdata, hword⟩ := h
  cases hrow
  obtain ⟨hfixed, rfl, -⟩ := creditWord_iff.mp hword
  rw [decodeCreditedAmount, hexText_eq_some.mpr ⟨hdata, hfixed⟩]
  rfl

theorem totalCredited_of_denotes {entries : List Json} {amounts : List Nat}
    (h : List.Forall₂ (EntryDenotes ns) entries amounts) :
    totalCredited ns entries = amounts.sum := by
  induction h with
  | nil => rfl
  | cons hentry _ ih =>
    have hdenotes := hentry
    obtain ⟨row, _, rfl, -⟩ := hentry
    rw [totalCredited, ih, decodeCreditedAmount_of_denotes hdenotes, Option.getD_some,
      List.sum_cons]

/-- Exactly the readable answers denote amounts. -/
theorem readableLogs_iff {raw : Json} :
    readableLogs ns raw = true ↔ ∃ amounts, LogsDenote ns raw amounts := by
  constructor
  · intro h
    unfold readableLogs at h
    split at h
    · rename_i entries
      rw [List.all_eq_true] at h
      have hall : ∀ entries : List Json, (∀ e ∈ entries, readableEntry ns e = true) →
          ∃ amounts, List.Forall₂ (EntryDenotes ns) entries amounts := by
        intro entries
        induction entries with
        | nil => exact fun _ => ⟨[], .nil⟩
        | cons e entries ih =>
          intro h
          obtain ⟨amount, ha⟩ := readableEntry_iff.mp (h e List.mem_cons_self)
          obtain ⟨amounts, has⟩ := ih fun x hx => h x (List.mem_cons_of_mem _ hx)
          exact ⟨amount :: amounts, .cons ha has⟩
      obtain ⟨amounts, hamounts⟩ := hall entries h
      exact ⟨amounts, entries, rfl, hamounts⟩
    · cases h
  · rintro ⟨amounts, entries, rfl, h⟩
    rw [readableLogs, List.all_eq_true]
    intro e he
    induction h with
    | nil => cases he
    | cons hentry _ ih =>
      rcases List.mem_cons.mp he with rfl | he
      · exact readableEntry_iff.mpr ⟨_, hentry⟩
      · exact ih he

end Words

/-! ## Each read is exact, or throws -/

section Exact

variable {E : Crypto} {id : String → String} {iface : Interface} {ns : LegKey}
  {ep ledger logs : Endpoint}
  {hashlock blockTag token account : String} {r : QrvmSwap} {raw : Json}

theorem rpcBytes_eq_ok {text : String} :
    rpcBytes raw = .ok text ↔ raw = .str text ∧ abiBytesRe text = true := by
  unfold rpcBytes
  rw [orThrow_eq_ok, Option.filter_eq_some_iff]
  constructor
  · rintro ⟨htext, hre⟩
    unfold asString at htext
    split at htext
    · rename_i s heq
      cases htext
      cases heq
      exact ⟨rfl, hre⟩
    · cases htext
  · rintro ⟨rfl, hre⟩
    exact ⟨rfl, hre⟩

theorem only_bind_asBigint {v : AbiValue} {n : Nat} :
    (only v).bind asBigint = some n ↔ v = .result [.bigint n] := by
  constructor
  · intro h
    obtain ⟨x, hx, hn⟩ := Option.bind_eq_some_iff.mp h
    unfold only at hx
    split at hx
    · cases hx
      unfold asBigint at hn
      split at hn
      · cases hn
        rfl
      · cases hn
    · cases hx
  · rintro rfl
    rfl

theorem only_bind_evmSwapTuple {v : AbiValue} {initiator recipient token preimage : String}
    {amount timeout status : Nat} :
    (only v).bind evmSwapTuple = some (initiator, recipient, token, amount, timeout, status,
      preimage) ↔
      v = .result [.result [.text initiator, .text recipient, .text token, .bigint amount,
        .bigint timeout,
        .bigint status, .text preimage]] := by
  constructor
  · intro h
    obtain ⟨x, hx, hn⟩ := Option.bind_eq_some_iff.mp h
    unfold only at hx
    split at hx
    · cases hx
      unfold evmSwapTuple at hn
      split at hn
      · cases hn
        rfl
      · cases hn
    · cases hx
  · rintro rfl
    rfl

theorem decodeEvmUint_eq_ok {method : String} {balance : Nat} :
    decodeEvmUint iface method raw = .ok balance ↔
    ∃ text, raw = .str text ∧ abiBytesRe text = true ∧
      iface.decodeFunctionResult method text = .ok (.result [.bigint balance]) := by
  unfold decodeEvmUint
  simp only [bind_eq_ok, rpcBytes_eq_ok, orThrow_eq_ok, only_bind_asBigint]
  constructor
  · rintro ⟨text, ⟨hraw, hre⟩, v, hv, rfl⟩
    exact ⟨text, hraw, hre, hv⟩
  · rintro ⟨text, hraw, hre, hv⟩
    exact ⟨text, ⟨hraw, hre⟩, _, hv, rfl⟩

theorem roundDouble_safe {n : Nat} (h : n ≤ maxSafeInteger) : (roundDouble n).toNat = n := by
  unfold maxSafeInteger at h
  rw [roundDouble_of_lt (by omega) (by omega), Int.toNat_natCast]

theorem safe_of_roundDouble {n : Nat} (h : (roundDouble n).toNat ≤ maxSafeInteger) :
    n ≤ maxSafeInteger := by
  by_contra hlarge
  unfold maxSafeInteger at h hlarge
  have := le_roundDouble (z := n) (by omega)
  omega

theorem decodeEvmSwap_eq_ok : decodeEvmSwap iface raw = .ok r ↔ SwapDenotes iface .eth raw r := by
  unfold decodeEvmSwap SwapDenotes
  constructor
  · intro h
    obtain ⟨text, htext, h⟩ := bind_eq_ok.mp h
    obtain ⟨decoded, hdecoded, h⟩ := bind_eq_ok.mp h
    obtain ⟨⟨initiator, recipient, token, amount, timeout, status, preimage⟩, htuple, h⟩ :=
      bind_eq_ok.mp h
    obtain ⟨_, hrefuse, h⟩ := bind_eq_ok.mp h
    obtain ⟨numeric, hnumeric, h⟩ := bind_eq_ok.mp h
    obtain ⟨hraw, hre⟩ := rpcBytes_eq_ok.mp htext
    rw [orThrow_eq_ok] at htuple hnumeric
    rw [refuse_eq_ok, not_or, Nat.not_lt] at hrefuse
    rw [pure_eq_ok] at h
    subst h
    have hsafe := safe_of_roundDouble hrefuse.2
    refine ⟨by rw [roundDouble_safe hsafe]; exact hsafe, text, hraw, hre, ?_⟩
    rw [hdecoded, only_bind_evmSwapTuple.mp htuple, swapStatus_eq_some.mp hnumeric]
    dsimp only
    rw [roundDouble_safe hsafe]
  · rintro ⟨hsafe, text, rfl, hre, hdecoded⟩
    refine bind_eq_ok.mpr ⟨text, rpcBytes_eq_ok.mpr ⟨rfl, hre⟩,
      bind_eq_ok.mpr ⟨_, hdecoded, bind_eq_ok.mpr
      ⟨_, orThrow_eq_ok.mpr (only_bind_evmSwapTuple.mpr rfl), ?_⟩⟩⟩
    dsimp only
    rw [swapStatus_eq_some.mpr rfl, roundDouble_safe hsafe]
    rw [refuse, if_neg (by simp [Nat.not_lt.mpr hsafe])]
    rfl

theorem getSwapState_eq_ok : getSwapState E id iface ns ep hashlock blockTag = .ok r ↔
    assertQrlRuntime ns ep = .ok () ∧ ∃ data raw, swapCalldata E id iface ns hashlock = .ok data ∧
      rpc (namespaceOf ns ++ "_call") (ep.call data blockTag) = .ok raw ∧
      SwapDenotes iface ns raw r := by
  unfold getSwapState
  simp only [bind_eq_ok]
  constructor
  · rintro ⟨⟨⟩, hruntime, data, hdata, raw, hraw, h⟩
    refine ⟨hruntime, data, raw, hdata, hraw, ?_⟩
    cases ns with
    | qrl =>
      obtain ⟨hwell, text, htext, hsame⟩ := decodeQrvmSwap_eq_ok.mp h
      exact ⟨hwell, text, Option.some.inj htext, hsame⟩
    | eth => exact decodeEvmSwap_eq_ok.mp h
  · rintro ⟨hruntime, data, raw, hdata, hraw, h⟩
    refine ⟨(), hruntime, data, hdata, raw, hraw, ?_⟩
    cases ns with
    | qrl =>
      obtain ⟨hwell, text, rfl, hsame⟩ := h
      exact decodeQrvmSwap_eq_ok.mpr ⟨hwell, text, rfl, hsame⟩
    | eth => exact decodeEvmSwap_eq_ok.mpr h

theorem getConfirmedSwapState_eq_ok {head : Endpoint} {confirmations : Nat}
    (h : getConfirmedSwapState E id iface ns head ep hashlock confirmations = .ok r) :
    ∃ height, getBlockNumber ns head = .ok height ∧ getSwapState E id iface ns ep hashlock
      (String.ofList ('0' :: 'x' :: Nat.toDigits 16 (height - confirmations))) = .ok r := by
  unfold getConfirmedSwapState at h
  obtain ⟨-, -, h⟩ := bind_eq_ok.mp h
  obtain ⟨height, hheight, h⟩ := bind_eq_ok.mp h
  exact ⟨height, hheight, h⟩

/-- What the ledger's answer says. -/
def LedgerRead (E : Crypto) (id : String → String) (iface : Interface) (ns : LegKey) (ep : Endpoint)
    (token account : String) (balance : Nat) : Prop :=
  assertQrlRuntime ns ep = .ok () ∧ ∃ data raw, creditCalldata E id iface ns token account =
    .ok data ∧
    rpc (namespaceOf ns ++ "_call") (ep.call data "latest") = .ok raw ∧
      LedgerDenotes iface ns raw balance

theorem getCredit_eq_ok {balance : Nat} : getCredit E id iface ns ep token account = .ok balance ↔
    LedgerRead E id iface ns ep token account balance := by
  unfold getCredit LedgerRead
  simp only [bind_eq_ok]
  constructor
  · rintro ⟨⟨⟩, hruntime, data, hdata, raw, hraw, h⟩
    refine ⟨hruntime, data, raw, hdata, hraw, ?_⟩
    cases ns with
    | qrl =>
      obtain ⟨values, hvalues, h⟩ := bind_eq_ok.mp h
      obtain ⟨hlength, hlt, text, htext, hsame⟩ := decodeQrvmUints_eq_ok.mp hvalues
      obtain ⟨v, rfl⟩ := List.length_eq_one_iff.mp hlength
      rw [pure_eq_ok] at h
      obtain rfl : v = balance := h
      exact ⟨hlt v List.mem_cons_self, text, Option.some.inj htext, hsame⟩
    | eth => exact decodeEvmUint_eq_ok.mp h
  · rintro ⟨hruntime, data, raw, hdata, hraw, h⟩
    refine ⟨(), hruntime, data, hdata, raw, hraw, ?_⟩
    cases ns with
    | qrl =>
      obtain ⟨hlt, text, rfl, hsame⟩ := h
      refine bind_eq_ok.mpr ⟨[balance],
        decodeQrvmUints_eq_ok.mpr ⟨rfl, fun v hv => ?_, text, rfl, hsame⟩, rfl⟩
      rw [List.mem_singleton.mp hv]
      exact hlt
    | eth => exact decodeEvmUint_eq_ok.mpr h

/-- The answer to the log query of one swap. -/
def LogsAnswer (E : Crypto) (iface : Interface) (ns : LegKey) (ep : Endpoint)
    (token account hashlock : String)
    (raw : Json) : Prop :=
  assertQrlRuntime ns ep = .ok () ∧ ∃ topics, creditFilterTopics E iface ns token account hashlock =
    .ok topics ∧
    rpc (namespaceOf ns ++ "_getLogs") (ep.getLogs topics) = .ok raw

theorem getCreditedForSwap_eq_ok {credited : Nat} :
    getCreditedForSwap E iface ns ep token account hashlock = .ok credited ↔
      ∃ raw, LogsAnswer E iface ns ep token account hashlock raw ∧
        credited = (match raw with | .arr entries => totalCredited ns entries | _ => 0) := by
  unfold getCreditedForSwap LogsAnswer
  simp only [bind_eq_ok]
  constructor
  · rintro ⟨⟨⟩, hruntime, topics, htopics, raw, hraw, h⟩
    refine ⟨raw, ⟨hruntime, topics, htopics, hraw⟩, ?_⟩
    split at h
    · exact (Except.ok.inj h).symm
    · exact (Except.ok.inj h).symm
  · rintro ⟨raw, ⟨hruntime, topics, htopics, hraw⟩, rfl⟩
    refine ⟨(), hruntime, topics, htopics, raw, hraw, ?_⟩
    split <;> rfl

theorem readSwapCredit_eq_ok {reading : CreditReading} :
    readSwapCredit E id iface ns ledger logs token account hashlock = .ok reading ↔
      LedgerRead E id iface ns ledger token account reading.global ∧
        (reading.global = 0 → reading.credited = 0) ∧
        (0 < reading.global → getCreditedForSwap E iface ns logs token account hashlock =
          .ok reading.credited) := by
  unfold readSwapCredit
  rw [bind_eq_ok]
  simp only [getCredit_eq_ok]
  constructor
  · rintro ⟨global, hglobal, h⟩
    split at h
    · rename_i hpos
      obtain ⟨credited, hcredited, h⟩ := bind_eq_ok.mp h
      rw [pure_eq_ok] at h
      subst h
      exact ⟨hglobal, fun hzero => absurd hzero (Nat.ne_of_gt hpos), fun _ => hcredited⟩
    · rename_i hzero
      obtain ⟨credited, hcredited, h⟩ := bind_eq_ok.mp h
      rw [pure_eq_ok] at h hcredited
      subst h hcredited
      exact ⟨hglobal, fun _ => rfl, fun hpos => absurd hpos hzero⟩
  · rintro ⟨hglobal, hzero, hpos⟩
    refine ⟨reading.global, hglobal, ?_⟩
    split
    · exact bind_eq_ok.mpr ⟨reading.credited, hpos (by assumption), rfl⟩
    · refine bind_eq_ok.mpr ⟨reading.credited, ?_, rfl⟩
      rw [hzero (by omega)]
      rfl

/-- Whatever `readSwapCredit` returns is what the two answers denote. -/
def CreditExact (E : Crypto) (id : String → String) (iface : Interface) (ns : LegKey)
    (ledger logs : Endpoint)
    (token account hashlock : String) : Prop :=
  ∀ reading, readSwapCredit E id iface ns ledger logs token account hashlock = .ok reading →
    LedgerRead E id iface ns ledger token account reading.global ∧
    (reading.global = 0 → reading.credited = 0) ∧
    (0 < reading.global → ∃ raw amounts, LogsAnswer E iface ns logs token account hashlock raw ∧
      LogsDenote ns raw amounts ∧ reading.credited = amounts.sum)

/-- The answer to a log query that a ledger above zero leads to is a list of records with one data
word each. -/
def LogsReadable (E : Crypto) (id : String → String) (iface : Interface) (ns : LegKey)
    (ledger logs : Endpoint)
    (token account hashlock : String) : Prop :=
  ∀ balance raw, LedgerRead E id iface ns ledger token account balance → 0 < balance →
    LogsAnswer E iface ns logs token account hashlock raw → readableLogs ns raw = true

theorem LogsAnswer.unique {raw' : Json} (h : LogsAnswer E iface ns logs token account hashlock raw)
    (h' : LogsAnswer E iface ns logs token account hashlock raw') : raw = raw' := by
  obtain ⟨-, topics, htopics, hraw⟩ := h
  obtain ⟨-, topics', htopics', hraw'⟩ := h'
  rw [htopics, Except.ok.injEq] at htopics'
  subst htopics'
  rw [hraw, Except.ok.injEq] at hraw'
  exact hraw'

theorem creditExact_iff : CreditExact E id iface ns ledger logs token account hashlock ↔
    LogsReadable E id iface ns ledger logs token account hashlock := by
  constructor
  · intro h balance raw hledger hpos hlogs
    obtain ⟨-, -, hexact⟩ :=
      h ⟨balance, _⟩ (readSwapCredit_eq_ok.mpr ⟨hledger, fun hzero => absurd hpos (by
      rw [show balance = 0 from hzero]; exact Nat.lt_irrefl 0),
        fun _ => getCreditedForSwap_eq_ok.mpr ⟨raw, hlogs, rfl⟩⟩)
    obtain ⟨raw', amounts, hlogs', hdenote, -⟩ := hexact hpos
    rw [hlogs.unique hlogs']
    exact readableLogs_iff.mpr ⟨amounts, hdenote⟩
  · intro h reading hread
    obtain ⟨hledger, hzero, hpos⟩ := readSwapCredit_eq_ok.mp hread
    refine ⟨hledger, hzero, fun hlt => ?_⟩
    obtain ⟨raw, hlogs, hcredited⟩ := getCreditedForSwap_eq_ok.mp (hpos hlt)
    obtain ⟨amounts, hdenote⟩ := readableLogs_iff.mp (h _ raw hledger hlt hlogs)
    refine ⟨raw, amounts, hlogs, hdenote, ?_⟩
    obtain ⟨entries, rfl, hall⟩ := hdenote
    exact hcredited.trans (totalCredited_of_denotes hall)

end Exact

/-! ## The decision -/

/-- One credit that the daemon looks up, and the endpoint as it finds it. -/
structure CreditQuery where
  ns : LegKey
  ledger : Endpoint
  logs : Endpoint
  token : String
  account : Option String
  hashlock : String

section Decision

variable (E : Crypto) (id : String → String) (iface : Interface)

def CreditQuery.amount (q : CreditQuery) : Option Nat :=
  creditOrNull E id iface q.ns q.ledger q.logs q.token q.account q.hashlock

def CreditQuery.Readable (q : CreditQuery) : Prop :=
  ∀ account, q.account = some account →
    LogsReadable E id iface q.ns q.ledger q.logs q.token account q.hashlock

/-- The answers denote that this swap left nothing: the ledger is empty, or its events add up to
zero. -/
def CreditQuery.Gone (q : CreditQuery) : Prop :=
  ∃ account balance, q.account = some account ∧
    LedgerRead E id iface q.ns q.ledger q.token account balance ∧
    (balance = 0 ∨ ∃ raw amounts, LogsAnswer E iface q.ns q.logs q.token account q.hashlock raw ∧
      LogsDenote q.ns raw amounts ∧ amounts.sum = 0)

variable {E id iface}

theorem CreditQuery.gone {q : CreditQuery} (hreadable : q.Readable E id iface)
    (h : q.amount E id iface = some 0) :
    q.Gone E id iface := by
  obtain ⟨account, haccount, h⟩ := Option.bind_eq_some_iff.mp h
  split at h
  · rename_i reading hread
    rw [Option.some.injEq] at h
    obtain ⟨hledger, -, hpos⟩ := creditExact_iff.mpr (hreadable account haccount) reading hread
    refine ⟨account, reading.global, haccount, hledger, ?_⟩
    rcases Nat.eq_zero_or_pos reading.global with hzero | hlt
    · exact Or.inl hzero
    · obtain ⟨raw, amounts, hlogs, hdenote, hsum⟩ := hpos hlt
      refine Or.inr ⟨raw, amounts, hlogs, hdenote, ?_⟩
      omega
  · cases h

/-- Each read of a chain throws or returns what the answers denote, the credit of a swap if and only
if the answer to its log query can be read. With answers that can, an order is retired only on
credits that they deny. -/
theorem chain_reads_exact (E : Crypto) (id : String → String) (iface : Interface) :
    (∀ ns ep hashlock blockTag r, getSwapState E id iface ns ep hashlock blockTag = .ok r →
      ∃ data raw, swapCalldata E id iface ns hashlock = .ok data ∧
        rpc (namespaceOf ns ++ "_call") (ep.call data blockTag) = .ok raw ∧
        SwapDenotes iface ns raw r) ∧
    (∀ ns head ep hashlock confirmations r,
      getConfirmedSwapState E id iface ns head ep hashlock confirmations = .ok r →
      ∃ blockTag, getSwapState E id iface ns ep hashlock blockTag = .ok r) ∧
    (∀ ns ep token account balance, getCredit E id iface ns ep token account = .ok balance →
      LedgerRead E id iface ns ep token account balance) ∧
    (∀ ns ledger logs token account hashlock,
      CreditExact E id iface ns ledger logs token account hashlock ↔
      LogsReadable E id iface ns ledger logs token account hashlock) ∧
    ∀ (A₁ A₂ Bytes32 : Type) [DecidableEq A₁] [DecidableEq A₂] (x : DecideInput A₁ A₂ Bytes32)
      (responder initiator taker : CreditQuery),
        x.ourResponderCredit = responder.amount E id iface →
      x.ourInitiatorCredit = initiator.amount E id iface → x.takerCredit = taker.amount E id iface →
      responder.Readable E id iface → initiator.Readable E id iface → taker.Readable E id iface →
      x.decide = .finish →
      ∃ iState, x.iState = some iState ∧
        (withdrawParked x.managed x.nowS = true ∨ responder.Gone E id iface ∧
          initiator.Gone E id iface) ∧
        (x.pushableTakerCredit iState = false ∨ pushParked x.managed x.nowS = true ∨
          taker.Gone E id iface) := by
  refine ⟨fun ns ep hashlock blockTag r h => (getSwapState_eq_ok.mp h).2,
    fun ns head ep hashlock confirmations r h => ?_,
    fun ns ep token account balance h => getCredit_eq_ok.mp h,
    fun ns ledger logs token account hashlock => creditExact_iff, ?_⟩
  · obtain ⟨height, -, h⟩ := getConfirmedSwapState_eq_ok h
    exact ⟨_, h⟩
  · intro A₁ A₂ Bytes32 _ _ x responder initiator taker hresponder hinitiator htaker hr hi
      ht hfinish
    obtain ⟨-, -, iState, -, hstate, -, -, hsettled⟩ := decide_finish hfinish
    unfold DecideInput.creditsSettled at hsettled
    rw [hresponder, hinitiator, htaker] at hsettled
    simp only [Bool.and_eq_true, Bool.or_eq_true, beq_iff_eq, Bool.not_eq_true'] at hsettled
    obtain ⟨hours, htheirs⟩ := hsettled
    refine ⟨iState, hstate, ?_, ?_⟩
    · rcases hours with hparked | ⟨hzero, hzero'⟩
      · exact Or.inl hparked
      · exact Or.inr ⟨CreditQuery.gone hr hzero, CreditQuery.gone hi hzero'⟩
    · rcases htheirs with (hnot | hparked) | hzero
      · exact Or.inl hnot
      · exact Or.inr (Or.inl hparked)
      · exact Or.inr (Or.inr (CreditQuery.gone ht hzero))

end Decision

/-! ## A ledger of five -/

/-- The ABI codec, as far as an integer of one word goes. -/
def oneWord : Interface where
  encodeFunctionData _ _ := .ok "0x"
  decodeFunctionResult _ bytes :=
    if fixed ['0', 'x'] 64 isHex bytes then
      .ok (.result [.bigint (Lib.Hex.value (bytes.toList.drop 2))])
    else .error ⟨"Error", "could not decode result data"⟩
  payoutCreditedTopic := prefixedWord (padded 64 1)

def fiveWord : String := prefixedWord (padded 64 5)

/-- An Ethereum endpoint where the ledger holds five, with this answer to the log query. -/
def holdsFive (logs : Json) : Endpoint where
  htlc := ""
  runtime := .ok ()
  blockNumber := .error (plainError "")
  call _ _ := .ok { ok := true, status := 200, json := .ok (.obj [("result", .str fiveWord)]) }
  getLogs _ := .ok { ok := true, status := 200, json := .ok (.obj [("result", logs)]) }

def someAccount : String := prefixedWord (padded 40 7)

/-- One log of five. -/
def fiveLogs : Json := .arr [.obj [("data", .str fiveWord)]]

theorem logsAnswer_holdsFive (logs : Json) :
    LogsAnswer noCrypto oneWord .eth (holdsFive logs) someAccount someAccount fiveWord logs :=
  ⟨rfl, _, rfl, rfl⟩

theorem chain_reads_exact_sample :
    CreditExact noCrypto (fun _ => "") oneWord .eth (holdsFive fiveLogs)
    (holdsFive fiveLogs) someAccount someAccount
        fiveWord ∧
      readSwapCredit noCrypto (fun _ => "") oneWord .eth (holdsFive fiveLogs)
      (holdsFive fiveLogs) someAccount
        someAccount fiveWord = .ok ⟨5, 5⟩ := by
  have hiff := (chain_reads_exact noCrypto (fun _ => "") oneWord).2.2.2.1
  refine ⟨(hiff .eth (holdsFive fiveLogs)
    (holdsFive fiveLogs) someAccount someAccount fiveWord).mpr ?_, rfl⟩
  intro balance raw _ _ hlogs
  rw [hlogs.unique (logsAnswer_holdsFive fiveLogs)]
  decide +kernel

/-- An answer to the log query that is no list is read as no credit, though the ledger holds five,
and the order is retired. -/
theorem null_logs_retire :
    readSwapCredit noCrypto (fun _ => "") oneWord .eth (holdsFive .null)
    (holdsFive .null) someAccount someAccount
        fiveWord = .ok ⟨5, 0⟩ ∧
      (¬CreditExact noCrypto (fun _ => "") oneWord .eth (holdsFive .null)
        (holdsFive .null) someAccount someAccount
        fiveWord) ∧
      ({ revealed with
          iState := some ⟨1, 2, 0, 50, 20000, .Claimed, 5⟩
          rState := some ⟨2, 1, 0, 70, 10000, .Claimed, 5⟩
          ourResponderCredit :=
            creditOrNull noCrypto (fun _ => "") oneWord .eth (holdsFive .null) (holdsFive .null)
            someAccount (some someAccount) fiveWord } : DecideInput Nat Nat Nat).decide =
              .finish := by
  refine ⟨rfl, fun hexact => ?_, rfl⟩
  obtain ⟨-, -, hpos⟩ := hexact ⟨5, 0⟩ rfl
  obtain ⟨raw, amounts, hlogs, ⟨entries, hraw, -⟩, -⟩ := hpos (by decide)
  rw [hlogs.unique (logsAnswer_holdsFive .null)] at hraw
  cases hraw

end QuantaSwap.Maker.ChainReads
