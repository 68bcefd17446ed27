import QuantaSwap.Maker.Admissions
import QuantaSwap.Maker.Signer

/-!
# Reading the maker's state file

What the constructor of `StateFile` in `marketmaker/src/state.ts` asks of every row before it starts
on a file. An error is the reason that `recoveryError` is given.
-/

set_option autoImplicit false

namespace QuantaSwap.Maker.Daemon

open Lib Lib.Checks Lib.Text

/-- `/^0x[0-9a-f]+$/` -/
def HEX_RE (s : String) : Bool :=
  ['0', 'x'].isPrefixOf s.toList && decide (2 < s.toList.length) &&
    (s.toList.drop 2).all isLowerHex

def DESCRIPTOR_RE : String → Bool := fixed ['0', 'x'] 6 isLowerHex

def MAX_ADMISSION_RECORDS : Nat := 256

namespace ManagedOrder

variable {A B : Type} (m : ManagedOrder A B)

/-- The fields that older records lack have their defaults. -/
def hydrated : ManagedOrder A B :=
  { m with
    withdrawAttempts := some (m.withdrawAttempts.getD 0)
    pushAttempts := some (m.pushAttempts.getD 0) }

/-- `isTime` of every number in the record; its strings are strings by their type. -/
def isPersistedOrder : Bool :=
  safeUint m.createdAt &&
    [m.initiatorTimeout, m.responderTimeout, m.lockSentAt, m.claimSentAt, m.refundSentAt].all
      (·.all safeUint) &&
    [some m.level, m.withdrawAttempts, m.pushAttempts].all (·.all fun n => safeUint n) &&
    [m.announcedAt, m.sponsorSentAt, m.withdrawSentAt, m.pushSentAt, m.withdrawFirstRejectedAt,
      m.pushFirstRejectedAt].all (·.all safeUint)

end ManagedOrder

/-- What the constructor reads a file with. An id is the hex of a hash, and the deployment that a
record names is none of its counters. -/
structure FileCodec (A B : Type) extends Codec A B where
  sha256 : B → B
  sameDeployment : ManagedOrder A B → Bool
  deriveOrderV1Id_hex : ∀ account nonce, CAPABILITY_RE (deriveOrderV1Id account nonce) = true
  sameDeployment_hydrated : ∀ m, sameDeployment m.hydrated = sameDeployment m

section

variable {A B : Type} [DecidableEq A] [DecidableEq B] [Zero B] (codec : FileCodec A B)

/-! ## The proofs of one order -/

def parseIntentAuth (auth : ProtocolAuthV1 B) (field : String) (maxLifetimeS : Int) :
    Except String Unit := do
  refuse (auth.scheme ≠ SCHEME) (field ++ ".scheme is malformed")
  refuse (¬ safeUint auth.issuedAt) (field ++ ".issuedAt is malformed")
  refuse (¬ safeUint auth.expiresAt) (field ++ ".expiresAt is malformed")
  refuse (auth.expiresAt ≤ auth.issuedAt ∨ maxLifetimeS < auth.expiresAt - auth.issuedAt)
    (field ++ " lifetime is malformed")
  refuse (¬ HEX_RE auth.signature) (field ++ ".signature is malformed")
  refuse (¬ HEX_RE auth.publicKey) (field ++ ".publicKey is malformed")
  refuse (¬ DESCRIPTOR_RE auth.descriptor) (field ++ ".descriptor is malformed")

def parseTerminalMakerAuth (auth : ProtocolAuthV1 B) (field : String) : Except String Unit := do
  parseIntentAuth auth field ORDER_LIFETIME_S
  refuse (auth.scheme ≠ SCHEME ∨ auth.descriptor ≠ OFFICIAL_DESCRIPTOR)
    (field ++ " is not a headless maker proof")

def parseMakerAuth (auth : MakerOrderAuthV1 B) (field : String) : Except String Unit :=
  parseTerminalMakerAuth auth.toProtocolAuthV1 field

def parseCanonicalOrder (order : CanonicalOrderV1Body A B) (field : String) :
    Except String Unit := do
  refuse (order.visibility = .pub ∧ (order.allowedTakerEth.isSome ∨ order.allowedTakerQrl.isSome))
    (field ++ " public order cannot restrict the taker")
  refuse (order.prelock.any fun prelock => !safeUint prelock.initiatorTimeout)
    (field ++ ".prelock.initiatorTimeout is malformed")
  refuse (AMOUNT_LIMIT ≤ order.fromAmount) (field ++ ".fromAmount is malformed")
  refuse (AMOUNT_LIMIT ≤ order.toAmount) (field ++ ".toAmount is malformed")

def parseSelectedIntent (selected : SelectedFillIntentV1 A B) (field : String) (orderDigest : B)
    (orderAuth : MakerOrderAuthV1 B) : Except String Unit := do
  parseIntentAuth selected.auth (field ++ ".auth") MAX_FILL_INTENT_LIFETIME_S
  refuse (selected.intent.orderDigest ≠ orderDigest) (field ++ " references another order")
  refuse (codec.computeFillIntentDigest selected.intent selected.auth ≠ selected.intentDigest)
    (field ++ " digest is malformed")
  refuse (¬ verifyFillIntentV1 codec.toCodec selected.intent selected.auth orderDigest
      selected.auth.issuedAt orderAuth.issuedAt orderAuth.expiresAt)
    (field ++ " signature is malformed")
  refuse (¬ safeUint selected.receivedAt) (field ++ ".receivedAt is malformed")

def parseFillProof (proof : SignedFillV1 A B) (field : String) (order : CanonicalOrderV1Body A B)
    (orderAuth : MakerOrderAuthV1 B) (selected : SelectedFillIntentV1 A B) :
      Except String Unit := do
  let fill := proof.fill
  let auth := proof.auth
  refuse (¬ safeUint fill.initiatorTimeout) (field ++ ".fill.initiatorTimeout is malformed")
  refuse (¬ safeUint fill.responderTimeout) (field ++ ".fill.responderTimeout is malformed")
  parseTerminalMakerAuth auth (field ++ ".auth")
  refuse (¬ codec.verifyFill order.makerQrlAccount fill orderAuth auth)
    (field ++ ".auth signature is malformed")
  refuse (fill.orderDigest ≠ selected.intent.orderDigest ∨
      fill.intentDigest ≠ selected.intentDigest ∨
      fill.takerEthAccount ≠ selected.intent.takerEthAccount ∨
      fill.takerQrlAccount ≠ selected.intent.takerQrlAccount ∨
      fill.releaseCommitment ≠ selected.intent.releaseCommitment)
    (field ++ " does not select the persisted intent")
  refuse (fill.hashlock = 0) (field ++ " hashlock is zero")
  refuse (auth.scheme ≠ orderAuth.scheme ∨ auth.publicKey ≠ orderAuth.publicKey ∨
      auth.descriptor ≠ orderAuth.descriptor ∨ auth.issuedAt < selected.auth.issuedAt ∨
      selected.auth.expiresAt ≤ auth.issuedAt ∨ orderAuth.expiresAt < auth.expiresAt ∨
      auth.expiresAt - auth.issuedAt < 60 ∨ 900 < auth.expiresAt - auth.issuedAt ∨
      fill.responderTimeout - auth.expiresAt ≤ 600)
    (field ++ " maker authorization is malformed")
  let initiatorWindow := fill.initiatorTimeout - auth.issuedAt
  let responderWindow := fill.responderTimeout - auth.issuedAt
  refuse (responderWindow ≤ 0 ∨ initiatorWindow < responderWindow ∨
      initiatorWindow / 2 < responderWindow ∨ 2 * 60 * 60 < responderWindow ∨
      (order.prelock.isNone ∧ 4 * 60 * 60 < initiatorWindow))
    (field ++ " timeout window is malformed")
  refuse (order.prelock.any fun prelock =>
      fill.hashlock ≠ prelock.hashlock ∨ fill.initiatorTimeout ≠ prelock.initiatorTimeout)
    (field ++ " does not match the signed prelock")

def parseCancelProof (proof : SignedCancelV1 B) (field : String) (orderDigest : B)
    (orderAuth : MakerOrderAuthV1 B) (makerQrlAccount : A) : Except String Unit := do
  refuse (255 < proof.cancel.reasonCode) (field ++ ".cancel.reasonCode is malformed")
  parseTerminalMakerAuth proof.auth (field ++ ".auth")
  refuse (¬ codec.verifyCancel makerQrlAccount proof.cancel orderAuth proof.auth)
    (field ++ ".auth signature is malformed")
  refuse (proof.cancel.orderDigest ≠ orderDigest ∨ proof.auth.scheme ≠ orderAuth.scheme ∨
      proof.auth.publicKey ≠ orderAuth.publicKey ∨ proof.auth.descriptor ≠ orderAuth.descriptor ∨
      proof.auth.expiresAt ≠ orderAuth.expiresAt)
    (field ++ " maker authorization is malformed")

/-! ## The record of one order -/

/-- A check that is made of a statement only where the record holds one. -/
def parseHeld {α : Type} (held : Option α) (parse : α → Except String Unit) : Except String Unit :=
  match held with
  | none => pure ()
  | some statement => parse statement

def parseProtocol (m : ManagedOrder A B) (p : ManagedProtocolV1 A B) : Except String Unit := do
  let field := "order " ++ m.id ++ " protocol state"
  parseCanonicalOrder p.order (field ++ ".order")
  refuse (p.order.visibility ≠ .pub)
    (field ++ " is private and unsupported by the headless market maker")
  parseMakerAuth p.orderAuth (field ++ ".orderAuth")
  refuse (p.orderAuth.makerTokenCommitment = 0 ∨ p.orderAuth.shareTokenCommitment ≠ 0)
    (field ++ " capability commitments are malformed")
  refuse (¬ m.token.any fun token => CAPABILITY_RE token &&
      decide (codec.capabilityCommitment token = p.orderAuth.makerTokenCommitment))
    (field ++ " maker capability does not match its signed commitment")
  refuse (p.order.prelock.any fun prelock =>
      prelock.initiatorTimeout - p.orderAuth.issuedAt < 3 * 60 * 60 ∨
        72 * 60 * 60 < prelock.initiatorTimeout - p.orderAuth.issuedAt ∨
        prelock.initiatorTimeout < p.orderAuth.expiresAt)
    (field ++ " prelock window is malformed")
  refuse (codec.computeOrderDigest p.order p.orderAuth ≠ p.orderDigest)
    (field ++ ".orderDigest is malformed")
  refuse (¬ codec.verifyOrder p.order.makerQrlAccount p.order p.orderAuth)
    (field ++ ".orderAuth signature is malformed")
  refuse (m.id ≠ codec.deriveOrderV1Id p.order.makerQrlAccount p.orderAuth.nonce)
    (field ++ " order id is malformed")
  refuse (m.direction ≠ p.order.direction ∨ m.asset ≠ p.order.asset ∨
      m.fromAmount ≠ p.order.fromAmount ∨ m.toAmount ≠ p.order.toAmount)
    (field ++ " economic projection is malformed")
  parseHeld p.selectedIntent fun selected =>
    parseSelectedIntent codec selected (field ++ ".selectedIntent") p.orderDigest p.orderAuth
  parseHeld p.fillProof fun proof => do
    let selected ← orThrow p.selectedIntent (field ++ ".fillProof has no selected intent")
    parseFillProof codec proof (field ++ ".fillProof") p.order p.orderAuth selected
  parseHeld p.cancelProof fun proof =>
    parseCancelProof codec proof (field ++ ".cancelProof") p.orderDigest p.orderAuth
      p.order.makerQrlAccount
  refuse (p.fillProof.isSome ∧ p.cancelProof.isSome)
    (field ++ " contains conflicting terminal proofs")
  refuse (p.fillAcknowledged ∧ p.fillProof.isNone)
    (field ++ ".fillAcknowledged has no fill proof")
  refuse (p.releaseObserved ∧ (¬ p.fillAcknowledged ∨ p.fillProof.isNone))
    (field ++ ".releaseObserved has no acknowledged fill proof")
  parseHeld p.selectedIntent fun selected => do
    refuse (m.preimage.isNone ∨ m.hashlock.isNone ∨ m.initiatorTimeout.isNone ∨
        m.responderTimeout.isNone ∨ m.takerEthAccount ≠ some selected.intent.takerEthAccount ∨
        m.takerQrlAccount ≠ some selected.intent.takerQrlAccount)
      (field ++ " selected intent projection is malformed")
    refuse (m.preimage.map codec.sha256 ≠ m.hashlock) (field ++ " hashlock is malformed")
  parseHeld p.fillProof fun proof =>
    refuse (some proof.fill.hashlock ≠ m.hashlock ∨
        some proof.fill.initiatorTimeout ≠ m.initiatorTimeout ∨
        some proof.fill.responderTimeout ≠ m.responderTimeout)
      (field ++ " fill projection is malformed")
  refuse (p.cancelProof.isSome ∧ p.selectedIntent.isSome)
    (field ++ " cancellation follows an intent selection")

/-- The record as memory takes it from a row of the file. -/
def parseOrder (m : ManagedOrder A B) : Except String (ManagedOrder A B) := do
  refuse (¬ m.isPersistedOrder) "an order record has malformed fields"
  refuse (m.id = "") "an order has no valid id"
  refuse (¬ codec.sameDeployment m) ("order " ++ m.id ++ " belongs to another deployment")
  parseHeld m.protocol (parseProtocol codec m)
  refuse (m.protocol.isNone ∧ m.token.isNone) ("legacy order " ++ m.id ++ " has no maker token")
  return m.hydrated

/-! ## The file -/

def isAdmissionRecord (e : String × Int) : Bool :=
  CAPABILITY_RE e.1 && decide (0 < e.2) && decide (e.2 ≤ MAX_SAFE_INTEGER)

def parseAdmissionRecords (raw : List (String × Int)) : Except String Unit := do
  refuse (MAX_ADMISSION_RECORDS < raw.length) "admission history is malformed"
  refuse (¬ raw.all isAdmissionRecord ∨ ¬ (raw.map Prod.fst).Nodup) "admission record is malformed"

/-- A row of the parked credits that is kept; a malformed one is dropped. -/
def StrandedCredit.wellFormed (e : StrandedCredit A B) : Bool :=
  decide (e.amount < AMOUNT_LIMIT) && decide (-MAX_SAFE_INTEGER ≤ e.parkedAt) &&
    decide (e.parkedAt ≤ MAX_SAFE_INTEGER)

namespace StateFile

def credit (f : StateFile A B) (key : LegKey × A × A) : Option (StrandedCredit A B) :=
  f.stranded.find? fun s => s.key = key

/-- `Map.set`: a credit that is there keeps its place. -/
def setCredit (stranded : List (StrandedCredit A B)) (e : StrandedCredit A B) :
    List (StrandedCredit A B) :=
  if stranded.any fun s => s.key = e.key then
    stranded.map fun s => if s.key = e.key then e else s
  else stranded ++ [e]

def parseStrandedCredits (raw : List (StrandedCredit A B)) : List (StrandedCredit A B) :=
  (raw.filter StrandedCredit.wellFormed).foldl setCredit []

/-- A file that is not there is a first boot. -/
def fresh : StateFile A B := ⟨[], [], []⟩

def parseRows (f : StateFile A B) : Except String (List (ManagedOrder A B)) := do
  parseAdmissionRecords f.admissions
  f.orders.mapM (parseOrder codec)

/-- The maps that the rows of a file stand for. -/
def parse (f : StateFile A B) : Except String (StateFile A B) := do
  let rows ← f.parseRows codec
  return ⟨rows.foldl setOrder [], parseStrandedCredits f.stranded, f.admissions⟩

/-- The constructor on a file: every order that it sets counts against the bounds again. -/
def load (f : StateFile A B) (now : Int) : Except String (StateFile A B) := do
  let rows ← f.parseRows codec
  return rows.foldl (fun g m => g.upsert m now) ⟨[], parseStrandedCredits f.stranded, f.admissions⟩

end StateFile

end

/-! ## A row that is read -/

section

variable {A B : Type} [DecidableEq A] [DecidableEq B] [Zero B] {codec : FileCodec A B}
  {m m' : ManagedOrder A B} {p : ManagedProtocolV1 A B}

omit [DecidableEq A] [DecidableEq B] [Zero B] in
theorem isPersistedOrder_hydrated : m.hydrated.isPersistedOrder = m.isPersistedOrder := by
  have hzero : safeUint 0 = true := by decide
  unfold ManagedOrder.isPersistedOrder ManagedOrder.hydrated
  cases m.withdrawAttempts <;> cases m.pushAttempts <;> simp [hzero]

theorem parseOrder_hydrated : parseOrder codec m.hydrated = parseOrder codec m := by
  unfold parseOrder
  rw [isPersistedOrder_hydrated, codec.sameDeployment_hydrated]
  rfl

/-- The constructor reads the record. -/
structure OrderRead (codec : FileCodec A B) (m : ManagedOrder A B) : Prop where
  persisted : m.isPersistedOrder = true
  named : m.id ≠ ""
  deployment : codec.sameDeployment m = true
  protocol : ∀ p, m.protocol = some p → parseProtocol codec m p = .ok ()
  token : ¬ (m.protocol.isNone = true ∧ m.token.isNone = true)

theorem parseHeld_eq_ok {α : Type} {held : Option α} {parse : α → Except String Unit} {u : PUnit} :
    parseHeld held parse = .ok u ↔ ∀ statement, held = some statement →
    parse statement = .ok () := by
  cases held with
  | none => simp [parseHeld]
  | some statement => simp [parseHeld]

theorem parseOrder_eq_ok : parseOrder codec m = .ok m' ↔ OrderRead codec m ∧ m' = m.hydrated := by
  unfold parseOrder
  simp only [bind_eq_ok, refuse_eq_ok, pure_eq_ok, exists_const, not_not, parseHeld_eq_ok]
  constructor
  · rintro ⟨hpersisted, hnamed, hdeployment, hprotocol, htoken, rfl⟩
    exact ⟨⟨hpersisted, hnamed, hdeployment, hprotocol, htoken⟩, rfl⟩
  · rintro ⟨h, rfl⟩
    exact ⟨h.persisted, h.named, h.deployment, h.protocol, h.token, rfl⟩

theorem orderRead_hydrated : OrderRead codec m.hydrated ↔ OrderRead codec m := by
  have h := @parseOrder_eq_ok _ _ _ _ _ codec m.hydrated m.hydrated.hydrated
  rw [parseOrder_hydrated, parseOrder_eq_ok] at h
  exact ⟨fun hm => (h.mpr ⟨hm, rfl⟩).1, fun hm => (h.mp ⟨hm, rfl⟩).1⟩

structure ProtocolRead (codec : FileCodec A B) (m : ManagedOrder A B) (p : ManagedProtocolV1 A B) :
    Prop where
  id : m.id = codec.deriveOrderV1Id p.order.makerQrlAccount p.orderAuth.nonce
  expiresAt : 0 ≤ p.orderAuth.expiresAt
  uncancelled : ¬ (p.cancelProof.isSome = true ∧ p.selectedIntent.isSome = true)

omit [DecidableEq B] [Zero B] in
theorem parseTerminalMakerAuth_eq_ok {auth : ProtocolAuthV1 B} {field : String} {u : PUnit}
    (h : parseTerminalMakerAuth auth field = .ok u) : 0 ≤ auth.expiresAt := by
  unfold parseTerminalMakerAuth parseIntentAuth at h
  simp only [bind_eq_ok, refuse_eq_ok, exists_const, not_not] at h
  obtain ⟨⟨-, -, hexpires, -⟩, -⟩ := h
  simp only [safeUint, Bool.and_eq_true, decide_eq_true_eq] at hexpires
  exact hexpires.1

theorem parseProtocol_eq_ok (h : parseProtocol codec m p = .ok ()) : ProtocolRead codec m p := by
  unfold parseProtocol at h
  simp only [bind_eq_ok, refuse_eq_ok, exists_const, not_not] at h
  obtain ⟨_, -, -, _, hauth, -, -, -, -, -, hid, -, _, -, _, -, _, -, -, -, -, _, -, _, -,
    hcancel⟩ := h
  exact ⟨hid, parseTerminalMakerAuth_eq_ok hauth, hcancel⟩

theorem OrderRead.retained (h : OrderRead codec m) {now until' : Int}
    (hu : orderRetentionUntil m now = some until') : CAPABILITY_RE m.id = true ∧ 0 < until' := by
  obtain ⟨p, hp, rfl⟩ := Option.map_eq_some_iff.mp hu
  have hread := parseProtocol_eq_ok (h.protocol p hp)
  refine ⟨?_, ?_⟩
  · rw [hread.id]
    exact codec.deriveOrderV1Id_hex _ _
  · have hsigned : 0 < p.orderAuth.expiresAt + SIGNED_ORDER_RETENTION_GRACE_S + 1 := by
      have := hread.expiresAt
      unfold SIGNED_ORDER_RETENTION_GRACE_S
      omega
    have hcancelled : 0 < if p.cancelProof.isSome = true then
        max (p.orderAuth.expiresAt + SIGNED_ORDER_RETENTION_GRACE_S + 1)
          (now + SIGNED_ORDER_RETENTION_GRACE_S + 1)
        else p.orderAuth.expiresAt + SIGNED_ORDER_RETENTION_GRACE_S + 1 := by
      split
      · exact lt_max_of_lt_left hsigned
      · exact hsigned
    dsimp only
    cases p.fillProof with
    | none => exact hcancelled
    | some proof => exact lt_max_of_lt_left hcancelled

/-- What a maker that cancels a selected listing stores is refused by the next start. -/
theorem parseOrder_withCancel (c : SignedCancelV1 B) (hs : m.selectedIntent.isSome = true) :
    ¬ OrderRead codec (m.withCancel c) := by
  intro h
  obtain ⟨selected, hselected⟩ := Option.isSome_iff_exists.mp hs
  obtain ⟨p, hp, hpselected⟩ := Option.bind_eq_some_iff.mp hselected
  have hprotocol : (m.withCancel c).protocol = some { p with cancelProof := some c } := by
    unfold ManagedOrder.withCancel
    rw [hp]
    rfl
  refine (parseProtocol_eq_ok (h.protocol _ hprotocol)).uncancelled ⟨rfl, ?_⟩
  rw [hpselected]
  rfl

/-! ## Memory that is read back -/

omit [DecidableEq A] [DecidableEq B] [Zero B] in
theorem foldl_set_fresh {α κ : Type} {set : List α → α → List α} {key : α → κ}
    (hset : ∀ l a, key a ∉ l.map key → set l a = l ++ [a]) {l as : List α}
    (h : ((l ++ as).map key).Nodup) : as.foldl set l = l ++ as := by
  induction as generalizing l with
  | nil => exact (List.append_nil l).symm
  | cons a as ih =>
    have hfresh : key a ∉ l.map key := by
      intro hmem
      rw [List.map_append, List.nodup_append] at h
      exact h.2.2 _ hmem _ (List.mem_map_of_mem List.mem_cons_self) rfl
    have happend : l ++ a :: as = (l ++ [a]) ++ as := by simp
    rw [List.foldl_cons, hset l a hfresh, ih (by rwa [← happend]), happend]

namespace StateFile

variable {f : StateFile A B}

/-- Everything in memory would be read from a file, but for an admission beyond the safe
integers. -/
structure Sound (codec : FileCodec A B) (f : StateFile A B) : Prop where
  orders : ∀ m ∈ f.orders, OrderRead codec m
  ids : (f.orders.map (·.id)).Nodup
  admissions : ∀ e ∈ f.admissions, CAPABILITY_RE e.1 = true ∧ 0 < e.2
  once : f.Once
  credits : ∀ e ∈ f.stranded, e.wellFormed = true
  keys : (f.stranded.map StrandedCredit.key).Nodup

omit [DecidableEq B] [Zero B] in
theorem setCredit_fresh (l : List (StrandedCredit A B)) (e : StrandedCredit A B)
    (h : e.key ∉ l.map StrandedCredit.key) : setCredit l e = l ++ [e] := by
  unfold setCredit
  rw [if_neg]
  intro hany
  obtain ⟨s, hs, hkey⟩ := List.any_eq_true.mp hany
  exact h (List.mem_map.mpr ⟨s, hs, of_decide_eq_true hkey⟩)

omit [DecidableEq A] [DecidableEq B] [Zero B] in
theorem setOrder_fresh (l : List (ManagedOrder A B)) (m : ManagedOrder A B)
    (h : m.id ∉ l.map fun n => n.id) : setOrder l m = l ++ [m] := by
  unfold setOrder
  rw [if_neg]
  intro hany
  obtain ⟨n, hn, hid⟩ := List.any_eq_true.mp hany
  exact h (List.mem_map.mpr ⟨n, hn, of_decide_eq_true hid⟩)

omit [DecidableEq A] [DecidableEq B] [Zero B] in
theorem parseAdmissionRecords_eq_ok {raw : List (String × Int)} {u : PUnit} :
    parseAdmissionRecords raw = .ok u ↔
      raw.length ≤ MAX_ADMISSION_RECORDS ∧ (∀ e ∈ raw, isAdmissionRecord e = true) ∧
        (raw.map Prod.fst).Nodup := by
  unfold parseAdmissionRecords
  simp only [bind_eq_ok, refuse_eq_ok, exists_const, not_or, not_not, List.all_eq_true, not_lt]

theorem parseRows_eq_ok {rows : List (ManagedOrder A B)} :
    f.parseRows codec = .ok rows ↔
      f.admissions.length ≤ MAX_ADMISSION_RECORDS ∧
        (∀ e ∈ f.admissions, isAdmissionRecord e = true) ∧ f.Once ∧
          (∀ m ∈ f.orders, OrderRead codec m) ∧ rows = f.orders.map ManagedOrder.hydrated := by
  unfold parseRows
  simp only [bind_eq_ok, parseAdmissionRecords_eq_ok, exists_const, mapM_eq_ok, and_assoc]
  refine and_congr_right fun _ => and_congr_right fun _ => and_congr_right fun _ => ?_
  constructor
  · intro h
    have hread : ∀ m ∈ f.orders, ∃ m', m' ∈ rows ∧ parseOrder codec m = .ok m' := by
      intro m hm
      have hmem : parseOrder codec m ∈ rows.map Except.ok := h ▸ List.mem_map_of_mem hm
      obtain ⟨m', hm', heq⟩ := List.mem_map.mp hmem
      exact ⟨m', hm', heq.symm⟩
    have horders : ∀ m ∈ f.orders, OrderRead codec m := by
      intro m hm
      obtain ⟨m', -, hm'⟩ := hread m hm
      exact (parseOrder_eq_ok.mp hm').1
    refine ⟨horders, ?_⟩
    have hok : f.orders.map (parseOrder codec) =
        (f.orders.map ManagedOrder.hydrated).map Except.ok := by
      rw [List.map_map]
      exact List.map_congr_left fun m hm => parseOrder_eq_ok.mpr ⟨horders m hm, rfl⟩
    have hinj : Function.Injective (Except.ok : ManagedOrder A B → Except String _) :=
      fun _ _ h => Except.ok.inj h
    exact hinj.list_map (h.symm.trans hok)
  · rintro ⟨horders, rfl⟩
    rw [List.map_map]
    exact List.map_congr_left fun m hm => parseOrder_eq_ok.mpr ⟨horders m hm, rfl⟩

omit [DecidableEq A] [DecidableEq B] [Zero B] in
@[simp] theorem map_id_hydrated (orders : List (ManagedOrder A B)) :
    (orders.map ManagedOrder.hydrated).map (fun n => n.id) = orders.map fun n => n.id := by
  rw [List.map_map]
  rfl

/-- What a file of sound maps is read as. -/
def reread (f : StateFile A B) : StateFile A B :=
  ⟨f.orders.map ManagedOrder.hydrated, f.stranded, f.admissions⟩

theorem Sound.parse (hs : f.Sound codec) (hsafe : ∀ e ∈ f.admissions, e.2 ≤ MAX_SAFE_INTEGER)
    (hroom : f.admissions.length ≤ MAX_ADMISSION_RECORDS) :
    f.parse codec = .ok f.reread := by
  have hadmissions : ∀ e ∈ f.admissions, isAdmissionRecord e = true := by
    intro e he
    obtain ⟨hid, hpos⟩ := hs.admissions e he
    simp only [isAdmissionRecord, hid, hpos, hsafe e he, decide_true, Bool.and_self]
  have hrows : f.parseRows codec = .ok (f.orders.map ManagedOrder.hydrated) :=
    parseRows_eq_ok.mpr ⟨hroom, hadmissions, hs.once, hs.orders, rfl⟩
  have horders : (f.orders.map ManagedOrder.hydrated).foldl setOrder [] =
      f.orders.map ManagedOrder.hydrated := by
    refine foldl_set_fresh setOrder_fresh ?_
    rw [List.nil_append, map_id_hydrated]
    exact hs.ids
  have hstranded : parseStrandedCredits f.stranded = f.stranded := by
    unfold parseStrandedCredits
    rw [List.filter_eq_self.mpr hs.credits]
    refine foldl_set_fresh setCredit_fresh ?_
    rw [List.nil_append]
    exact hs.keys
  unfold StateFile.parse
  rw [hrows, ok_bind, horders, hstranded]
  rfl

theorem Sound.envelope (hs : f.Sound codec) (stamp : Int) : (f.envelope stamp).Sound codec :=
  ⟨hs.orders, hs.ids, fun e he => hs.admissions e (List.mem_filter.mp he).1,
    once_envelope hs.once stamp, hs.credits, hs.keys⟩

end StateFile

end

end QuantaSwap.Maker.Daemon
