import QuantaSwap.Book.Message

/-!
# One message, one statement

The bytes that are signed tell the type of a statement, its domain and the value of
every field. An integer and its decimal are one value.
-/

set_option autoImplicit false

namespace QuantaSwap.Book

open Lib.Js Lib.Text Lib.Checks

/-- The values that a statement can be given for one field and its text. -/
inductive SameValue : Json → Json → Prop
  | refl (value : Json) : SameValue value value
  | decimal (n : Nat) : SameValue (.num (.ofNat n)) (.str n.repr)
  | integer (n : Nat) : SameValue (.str n.repr) (.num (.ofNat n))

/-- Two payloads that say the same. -/
structure SameStatement (p p' : Payload) : Prop where
  primaryType : p.primaryType = p'.primaryType
  domain : ∀ key, p.domain.get key = p'.domain.get key
  message : ∀ key, Option.Rel SameValue (p.message.get key) (p'.message.get key)

section Cell

/-- The cell is the text of the value. -/
inductive Written : Lib.JsonText.Cell → Json → Prop
  | flag (b : Bool) : Written (.flag b) (.bool b)
  | string (s : String) : Written (.text s.toList) (.str s)
  | integer (n : Nat) : Written (.text n.repr.toList) (.num (.ofNat n))

theorem wireCell_written {type : WireType} {value : Option Json} {cell : Lib.JsonText.Cell}
    (h : wireCell type value = .ok cell) : ∃ v, value = some v ∧ Written cell v := by
  unfold wireCell at h
  split at h
  · split at h
    · rename_i z
      split_ifs at h with hsafe hlt
      cases h
      refine ⟨_, rfl, ?_⟩
      have hz : (z.toNat : Int) = z := Int.toNat_of_nonneg hsafe.1
      have := Written.integer z.toNat
      rwa [Num.ofNat, hz] at this
    · cases h
  · split_ifs at h
    cases h
    exact ⟨_, rfl, .string _⟩
  · cases h
  · cases h
    exact ⟨_, rfl, .flag _⟩
  · cases h
  · split_ifs at h
    cases h
    exact ⟨_, rfl, .string _⟩
  · cases h
  · split_ifs at h
    cases h
    exact ⟨_, rfl, .string _⟩
  · cases h

theorem Written.same {cell : Lib.JsonText.Cell} {v v' : Json} (h : Written cell v)
    (h' : Written cell v') :
    SameValue v v' := by
  cases h with
  | flag b =>
    cases h'
    exact .refl _
  | string s =>
    generalize htext : s.toList = text at h'
    cases h' with
    | string s' =>
      rw [String.toList_inj.mp htext]
      exact .refl _
    | integer n =>
      rw [String.toList_inj.mp htext]
      exact .integer n
  | integer n =>
    generalize htext : n.repr.toList = text at h'
    cases h' with
    | string s =>
      rw [← String.toList_inj.mp htext]
      exact .decimal n
    | integer m =>
      rw [Lib.Decimal.repr_injective (String.toList_inj.mp htext)]
      exact .refl _

end Cell

section Rows

variable {m m' : Record} {fields : List WireField} {rows : List Lib.JsonText.Row}

theorem wireRows_cell (h : wireRows m fields = .ok rows) (h' : wireRows m' fields = .ok rows)
    {name : String}
    {type : WireType} (hmem : (name, type) ∈ fields) :
    ∃ cell, wireCell type (m.get name) = .ok cell ∧ wireCell type (m'.get name) = .ok cell := by
  induction fields generalizing rows with
  | nil => cases hmem
  | cons field fields ih =>
    obtain ⟨n, t⟩ := field
    simp only [wireRows, bind_eq_ok, pure_eq_ok] at h h'
    obtain ⟨c, hc, rest, hrest, rfl⟩ := h
    obtain ⟨c', hc', rest', hrest', heq⟩ := h'
    simp only [List.cons.injEq, Prod.mk.injEq, true_and] at heq
    obtain ⟨rfl, rfl⟩ := heq
    rcases List.mem_cons.mp hmem with heq | hmem
    · cases heq
      exact ⟨_, hc, hc'⟩
    · exact ih hrest hrest' hmem

theorem wireRows_same (h : wireRows m fields = .ok rows) (h' : wireRows m' fields = .ok rows)
    {name : String}
    {type : WireType} (hmem : (name, type) ∈ fields) :
    Option.Rel SameValue (m.get name) (m'.get name) := by
  obtain ⟨cell, hcell, hcell'⟩ := wireRows_cell h h' hmem
  obtain ⟨v, hv, hwritten⟩ := wireCell_written hcell
  obtain ⟨v', hv', hwritten'⟩ := wireCell_written hcell'
  rw [hv, hv']
  exact .some (hwritten.same hwritten')

theorem domainRows_get {domain : Record} {expected : List (String × String)}
    (h : domainRows domain expected = .ok rows) {key value : String}
    (hmem : (key, value) ∈ expected) :
    domain.get key = some (.str value) := by
  induction expected generalizing rows with
  | nil => cases hmem
  | cons entry expected ih =>
    obtain ⟨k, e⟩ := entry
    unfold domainRows at h
    split at h
    · rename_i v hget
      split at h
      · rename_i heq
        simp only [bind_eq_ok, pure_eq_ok] at h
        obtain ⟨rest, hrest, -⟩ := h
        rcases List.mem_cons.mp hmem with hhead | hmem
        · cases hhead
          rw [hget, heq]
        · exact ih hrest hmem
      · cases h
    · cases h

theorem get_of_exactKeys {value : Record} {keys : List String} {x : Unit}
    (h : exactKeys value keys = .ok x) {key : String}
    (hkey : key ∉ keys) : value.get key = none := by
  rw [exactKeys, refuse_eq_ok, not_or] at h
  refine List.lookup_eq_none_iff.mpr fun entry hentry => bne_iff_ne.mpr ?_
  rintro rfl
  exact h.2 ⟨entry.1, List.mem_map_of_mem hentry, hkey⟩

end Rows

theorem sameStatement_of_bytes {p p' : Payload} {m : List UInt8}
    (h : protocolMessageBytes p = .ok m)
    (h' : protocolMessageBytes p' = .ok m) : SameStatement p p' := by
  obtain ⟨hname, rows, hrows, hrows'⟩ := protocolMessageBytes_injective h h'
  have htype := primaryType_of_name hname
  simp only [protocolMessageBytes, bind_eq_ok] at h h'
  obtain ⟨_, hdomain, _, hmessage, _, -, d, hd, -⟩ := h
  obtain ⟨_, hdomain', _, hmessage', _, -, d', hd', -⟩ := h'
  rw [← htype] at hrows' hmessage'
  refine ⟨htype, ?_, ?_⟩
  · intro key
    by_cases hkey : key ∈ orderV2Domain.map Prod.fst
    · obtain ⟨⟨k, value⟩, hmem, rfl⟩ := List.mem_map.mp hkey
      rw [domainRows_get hd hmem, domainRows_get hd' hmem]
    · rw [get_of_exactKeys hdomain hkey, get_of_exactKeys hdomain' hkey]
  · intro key
    by_cases hkey : key ∈ p.primaryType.fields.map Prod.fst
    · obtain ⟨⟨name, type⟩, hmem, rfl⟩ := List.mem_map.mp hkey
      exact wireRows_same hrows hrows' hmem
    · rw [get_of_exactKeys hmessage hkey, get_of_exactKeys hmessage' hkey]
      exact .none

/-! ## The terms of a signed order -/

section Order

variable {b b' : OrderV1Body} {auth auth' : MakerOrderAuthV1}

theorem direction_of_name {d d' : Direction} (h : d.name = d'.name) : d = d' := by
  have := congrArg (fun s => Direction.ofJson? (some (.str s))) h
  simpa using this

theorem visibility_of_name {v v' : Visibility} (h : v.name = v'.name) : v = v' := by
  have := congrArg (fun s => Visibility.ofJson? (some (.str s))) h
  simpa using this

theorem asset_of_name {a a' : AssetSymbol} (h : a.name = a'.name) : a = a' := by
  have := congrArg knownAsset h
  simpa using this

theorem option_of_getD {α : Type} {f : α → String} {x y : Option α}
    (hinj : ∀ a b, f a = f b → a = b)
    (hne : ∀ a, f a ≠ "") (h : (x.map f).getD "" = (y.map f).getD "") : x = y := by
  cases x with
  | none =>
    cases y with
    | none => rfl
    | some b => exact absurd h.symm (hne b)
  | some a =>
    cases y with
    | none => exact absurd h (hne a)
    | some b => exact congrArg some (hinj a b h)

theorem caipEthAccount_ne (a : EthAccount) : caipEthAccount a ≠ "" := by
  intro h
  have := congrArg String.toList h
  simp [caipEthAccount] at this

theorem qrlAccount_ne (a : QrlAccount) : a.val ≠ "" := by
  intro h
  have hmatch := a.property
  rw [h] at hmatch
  revert hmatch
  decide

theorem order_of_rows {rows : List Lib.JsonText.Row}
    (h : wireRows (orderTerms b auth) (PrimaryType.fields .OrderV2) = .ok rows)
    (h' : wireRows (orderTerms b' auth') (PrimaryType.fields .OrderV2) = .ok rows) :
    b = b' ∧ auth.issuedAt = auth'.issuedAt ∧ auth.expiresAt = auth'.expiresAt ∧
    auth.nonce = auth'.nonce ∧
      auth.makerTokenCommitment = auth'.makerTokenCommitment ∧
      auth.shareTokenCommitment = auth'.shareTokenCommitment := by
  have hdirection : b.direction.name = b'.direction.name :=
    str_of_wireRows h h' (show ("direction", .string) ∈ _ by decide) rfl rfl
  have hasset : b.asset.name = b'.asset.name :=
    str_of_wireRows h h' (show ("asset", .string) ∈ _ by decide) rfl rfl
  have hfrom : b.fromAmount.val = b'.fromAmount.val :=
    str_of_wireRows h h' (show ("fromAmount", .uint 256) ∈ _ by decide) rfl rfl
  have hto : b.toAmount.val = b'.toAmount.val :=
    str_of_wireRows h h' (show ("toAmount", .uint 256) ∈ _ by decide) rfl rfl
  have heth : caipEthAccount b.makerEthAccount = caipEthAccount b'.makerEthAccount :=
    str_of_wireRows h h' (show ("makerEthAccount", .string) ∈ _ by decide) rfl rfl
  have hqrl : b.makerQrlAccount.val = b'.makerQrlAccount.val :=
    str_of_wireRows h h' (show ("makerQrlAccount", .string) ∈ _ by decide) rfl rfl
  have hvisibility : b.visibility.name = b'.visibility.name :=
    str_of_wireRows h h' (show ("visibility", .string) ∈ _ by decide) rfl rfl
  have htakerEth : (b.allowedTakerEth.map caipEthAccount).getD "" =
    (b'.allowedTakerEth.map caipEthAccount).getD "" :=
    str_of_wireRows h h' (show ("allowedTakerEth", .string) ∈ _ by decide) rfl rfl
  have htakerQrl :
    (b.allowedTakerQrl.map Subtype.val).getD "" = (b'.allowedTakerQrl.map Subtype.val).getD "" :=
    str_of_wireRows h h' (show ("allowedTakerQrl", .string) ∈ _ by decide) rfl rfl
  have hprelocked : b.prelock.isSome = b'.prelock.isSome := by
    obtain ⟨cell, hcell, hcell'⟩ := wireRows_cell h h' (show ("prelocked", .bool) ∈ _ by decide)
    have hflag : Lib.JsonText.Cell.flag b.prelock.isSome =
      Lib.JsonText.Cell.flag b'.prelock.isSome :=
      Except.ok.inj (hcell.trans hcell'.symm)
    exact Lib.JsonText.Cell.flag.inj hflag
  have hhashlock : ((b.prelock.map Prelock.hashlock).getD emptyHashlock).val =
      ((b'.prelock.map Prelock.hashlock).getD emptyHashlock).val :=
    str_of_wireRows h h' (show ("hashlock", .bytes32) ∈ _ by decide) rfl rfl
  have htimeout : ((b.prelock.map fun p : Prelock => p.initiatorTimeout.val).getD 0).repr =
      ((b'.prelock.map fun p : Prelock => p.initiatorTimeout.val).getD 0).repr :=
    str_of_wireRows h h' (show ("initiatorTimeout", .uint 64) ∈ _ by decide) rfl rfl
  have hissued : auth.issuedAt.val.repr = auth'.issuedAt.val.repr :=
    str_of_wireRows h h' (show ("issuedAt", .uint 64) ∈ _ by decide) rfl rfl
  have hexpires : auth.expiresAt.val.repr = auth'.expiresAt.val.repr :=
    str_of_wireRows h h' (show ("expiresAt", .uint 64) ∈ _ by decide) rfl rfl
  have hnonce : auth.nonce.val = auth'.nonce.val :=
    str_of_wireRows h h' (show ("nonce", .bytes32) ∈ _ by decide) rfl rfl
  have hmakerToken : auth.makerTokenCommitment.val = auth'.makerTokenCommitment.val :=
    str_of_wireRows h h' (show ("makerTokenCommitment", .bytes32) ∈ _ by decide) rfl rfl
  have hshareToken : auth.shareTokenCommitment.val = auth'.shareTokenCommitment.val :=
    str_of_wireRows h h' (show ("shareTokenCommitment", .bytes32) ∈ _ by decide) rfl rfl
  refine ⟨?_, uintJson_injective hissued, uintJson_injective hexpires, Subtype.ext hnonce,
    Subtype.ext hmakerToken,
    Subtype.ext hshareToken⟩
  -- The rows spell an absent prelock as zeros, and say in a flag of their own that it is absent.
  have hprelock : b.prelock = b'.prelock := by
    cases hp : b.prelock with
    | none =>
      rw [hp] at hprelocked
      exact (Option.isNone_iff_eq_none.mp (by simpa using hprelocked.symm)).symm
    | some p =>
      rw [hp] at hprelocked hhashlock htimeout
      obtain ⟨p', hp'⟩ := Option.isSome_iff_exists.mp hprelocked.symm
      rw [hp'] at hhashlock htimeout
      rw [hp', Option.some.injEq]
      cases p
      cases p'
      rw [Prelock.mk.injEq]
      exact ⟨Subtype.ext hhashlock, uintJson_injective htimeout⟩
  have hallowedEth :=
    option_of_getD (fun _ _ => caipEthAccount_injective) caipEthAccount_ne htakerEth
  have hallowedQrl := option_of_getD (fun _ _ => Subtype.ext) qrlAccount_ne htakerQrl
  cases b
  cases b'
  rw [OrderV1Body.mk.injEq]
  exact ⟨direction_of_name hdirection, asset_of_name hasset, Subtype.ext hfrom, Subtype.ext hto,
    caipEthAccount_injective heth, Subtype.ext hqrl, visibility_of_name hvisibility, hallowedEth,
      hallowedQrl, hprelock⟩

end Order

/-! ## What an order says is what the caller wrote -/

/-- Two objects with the same value at every key. -/
inductive SameFields : Json → Json → Prop
  | obj (r r' : Record) (h : ∀ key, r.get key = r'.get key) : SameFields (.obj r) (.obj r')

/-- Two orders that hold the same at every key; a prelock may list its two fields in either
order. -/
structure SameOrder (r r' : Record) : Prop where
  field : ∀ key, key ≠ "prelock" → r.get key = r'.get key
  prelock : Option.Rel SameFields (r.get "prelock") (r'.get "prelock")

section Reads

variable {raw : Option Json} {field key : String} {re : String → Bool} {r r' r'' : Record}
  {keys : List String}

theorem SameFields.symm {x y : Json} (h : SameFields x y) : SameFields y x := by
  cases h with
  | obj r r' h => exact .obj r' r fun key => (h key).symm

theorem SameFields.trans {x y z : Json} (h : SameFields x y) (h' : SameFields y z) :
    SameFields x z := by
  cases h with
  | obj r r' h =>
    cases h' with
    | obj _ r'' h' => exact .obj r r'' fun key => (h key).trans (h' key)

theorem SameOrder.symm (h : SameOrder r r') : SameOrder r' r := by
  refine ⟨fun key hkey => (h.field key hkey).symm, ?_⟩
  have hprelock := h.prelock
  generalize r.get "prelock" = x, r'.get "prelock" = y at hprelock ⊢
  cases hprelock with
  | some hsame => exact .some hsame.symm
  | none => exact .none

theorem SameOrder.trans (h : SameOrder r r') (h' : SameOrder r' r'') : SameOrder r r'' := by
  refine ⟨fun key hkey => (h.field key hkey).trans (h'.field key hkey), ?_⟩
  have hprelock := h.prelock
  have hprelock' := h'.prelock
  generalize r.get "prelock" = x, r'.get "prelock" = y,
    r''.get "prelock" = z at hprelock hprelock' ⊢
  cases hprelock with
  | none =>
    cases hprelock'
    exact .none
  | some hsame =>
    cases hprelock' with
    | some hsame' => exact .some (hsame.trans hsame')

theorem reads_exactString {m : Matching re} (h : exactString raw field re = .ok m) :
    raw = some (.str m.val) := by
  obtain ⟨s, hs, hmatch⟩ := Option.bind_eq_some_iff.mp (orThrow_eq_ok.mp h)
  have hval : s = m.val := (matching_eq_some.mp hmatch).symm
  unfold asString at hs
  split at hs
  · cases hs
    rw [hval]
  · cases hs

theorem reads_exactInteger {n : SafeInt} (h : exactInteger raw field = .ok n) :
    raw = some (safeJson n) := by
  unfold exactInteger at h
  dsimp only at h
  split at h
  · cases h
  · rename_i number hnegative
    have hsafe := orThrow_eq_ok.mp h
    cases number with
    | int z =>
      unfold Num.toSafe? at hsafe
      dsimp only at hsafe
      split_ifs at hsafe with hrange
      cases hsafe
      unfold safeJson Num.ofNat
      rw [Int.toNat_of_nonneg hrange.1]
    | negZero => exact absurd rfl hnegative
    | other => cases hsafe
  · cases h

theorem reads_optionalString {m : Option (Matching re)} (h : optionalString raw field re = .ok m) :
    raw = m.map fun a => .str a.val := by
  cases raw with
  | none =>
    cases h
    rfl
  | some value =>
    simp only [optionalString, bind_eq_ok, pure_eq_ok] at h
    obtain ⟨s, hs, rfl⟩ := h
    exact reads_exactString hs

theorem reads_direction {d : Direction} (h : Direction.ofJson? raw = some d) :
    raw = some (.str d.name) := by
  unfold Direction.ofJson? at h
  split at h
  · cases h
    rfl
  · cases h
    rfl
  · cases h

theorem reads_visibility {v : Visibility} (h : Visibility.ofJson? raw = some v) :
    raw = some (.str v.name) := by
  unfold Visibility.ofJson? at h
  split at h
  · cases h
    rfl
  · cases h
    rfl
  · cases h

theorem reads_asset {a : AssetSymbol} (h : (asString raw).bind knownAsset = some a) :
    raw = some (.str a.name) := by
  obtain ⟨s, hs, hknown⟩ := Option.bind_eq_some_iff.mp h
  rw [name_of_knownAsset hknown]
  unfold asString at hs
  split at hs
  · cases hs
    rfl
  · cases hs

theorem get_none_of_refused {u : Unit} (h : refuseUnknown r field keys = .ok u)
    (hkey : key ∉ keys) :
    r.get key = none := by
  unfold refuseUnknown at h
  split at h
  · cases h
  · rename_i hfind
    refine List.lookup_eq_none_iff.mpr fun entry hentry => ?_
    have hknown := List.find?_eq_none.mp hfind entry.1 (List.mem_map_of_mem hentry)
    have hne : key ≠ entry.1 := by
      rintro rfl
      exact hknown (decide_eq_true hkey)
    simpa using hne

theorem reads_allowedObject (h : allowedObject raw field keys = .ok r) :
    raw = some (.obj r) ∧ ∀ key ∉ keys, r.get key = none := by
  simp only [allowedObject, objectValue, bind_eq_ok, pure_eq_ok] at h
  obtain ⟨object, hobject, u, hunknown, rfl⟩ := h
  refine ⟨?_, fun key hkey => get_none_of_refused hunknown hkey⟩
  have hrecord := orThrow_eq_ok.mp hobject
  unfold asRecord at hrecord
  split at hrecord
  · cases hrecord
    rfl
  · cases hrecord

theorem reads_exactObject (h : exactObject raw field keys = .ok r) :
    raw = some (.obj r) ∧ ∀ key ∉ keys, r.get key = none := by
  simp only [exactObject, bind_eq_ok, pure_eq_ok] at h
  obtain ⟨object, hobject, u, hunknown, u', -, rfl⟩ := h
  have hallowed : allowedObject raw field keys = .ok object := by
    simp only [allowedObject, bind_eq_ok, pure_eq_ok]
    exact ⟨object, hobject, u, hunknown, rfl⟩
  exact reads_allowedObject hallowed

theorem reads_parsePrelock {p : Option Prelock} (h : parsePrelock raw = .ok p) :
    Option.Rel SameFields raw (p.map Prelock.toJson) := by
  cases raw with
  | none =>
    cases h
    exact .none
  | some value =>
    simp only [parsePrelock, bind_eq_ok, pure_eq_ok] at h
    obtain ⟨prelock, hobject, hashlock, hhashlock, timeout, htimeout, rfl⟩ := h
    obtain ⟨hvalue, hnone⟩ := reads_exactObject hobject
    cases hvalue
    refine .some (.obj _ _ fun key => ?_)
    by_cases hkey : key = "hashlock"
    · rw [hkey, reads_exactString hhashlock]
      rfl
    · by_cases hkey' : key = "initiatorTimeout"
      · rw [hkey', reads_exactInteger htimeout]
        rfl
      · rw [hnone key (by simp [hkey, hkey'])]
        unfold Record.get
        rw [List.lookup_cons, beq_false_of_ne hkey, List.lookup_cons, beq_false_of_ne hkey']
        rfl

end Reads

/-- The body that is signed holds what the raw order holds. -/
theorem reads_canonicalOrderBody {raw : Option Json} {b : OrderV1Body}
    (h : canonicalOrderBody raw = .ok b) :
    ∃ r, raw = some (.obj r) ∧ SameOrder r b.record := by
  simp only [canonicalOrderBody, bind_eq_ok, refuse_eq_ok, pure_eq_ok] at h
  obtain ⟨input, hinput, d, hd, a, ha, f, hf, t, ht, me, hme, mq, hmq, v, hv, u, -, e, he, q, hq, p,
    hp, rfl⟩ := h
  obtain ⟨rfl, hnone⟩ := reads_allowedObject hinput
  refine ⟨input, rfl, fun key hkey => ?_, ?_⟩
  · rw [OrderV1Body.record_get]
    by_cases hknown : key ∈ orderBodyKeys
    · unfold orderBodyKeys at hknown
      simp only [List.mem_cons, List.not_mem_nil, or_false] at hknown
      rcases hknown with rfl | rfl | rfl | rfl | rfl | rfl | rfl | rfl | rfl | rfl
      · exact reads_direction (orThrow_eq_ok.mp hd)
      · exact reads_asset (orThrow_eq_ok.mp ha)
      · exact reads_exactString hf
      · exact reads_exactString ht
      · exact reads_exactString hme
      · exact reads_exactString hmq
      · exact reads_visibility (orThrow_eq_ok.mp hv)
      · exact reads_optionalString he
      · exact reads_optionalString hq
      · exact absurd rfl hkey
    · rw [hnone key hknown, List.lookup_eq_none_iff.mpr]
      · rfl
      · intro entry hentry
        have hne : key ≠ entry.1 := by
          rintro rfl
          exact hknown (List.mem_map_of_mem hentry : entry.1 ∈ List.map Prod.fst _)
        simpa using hne
  · rw [OrderV1Body.record_get]
    exact reads_parsePrelock hp

/-- Equal message bytes are one statement, and orders with equal messages hold the same terms. -/
theorem one_message_one_statement :
    (∀ p p' m, protocolMessageBytes p = .ok m → protocolMessageBytes p' = .ok m →
      SameStatement p p') ∧
    ∀ raw raw' b b' auth auth' m, canonicalOrderBody raw = .ok b →
    canonicalOrderBody raw' = .ok b' →
      protocolMessageBytes (buildPayload .OrderV2 (orderTerms b auth)) = .ok m →
      protocolMessageBytes (buildPayload .OrderV2 (orderTerms b' auth')) = .ok m →
      (∃ r r', raw = some (.obj r) ∧ raw' = some (.obj r') ∧ SameOrder r r') ∧
        auth.issuedAt = auth'.issuedAt ∧ auth.expiresAt = auth'.expiresAt ∧
        auth.nonce = auth'.nonce ∧
        auth.makerTokenCommitment = auth'.makerTokenCommitment ∧
        auth.shareTokenCommitment = auth'.shareTokenCommitment := by
  refine ⟨fun p p' m h h' => sameStatement_of_bytes h h', ?_⟩
  intro raw raw' b b' auth auth' m hb hb' h h'
  obtain ⟨-, rows, hrows, hrows'⟩ := protocolMessageBytes_injective h h'
  obtain ⟨rfl, hauth⟩ := order_of_rows hrows hrows'
  obtain ⟨r, hr, hsame⟩ := reads_canonicalOrderBody hb
  obtain ⟨r', hr', hsame'⟩ := reads_canonicalOrderBody hb'
  exact ⟨⟨r, r', hr, hr', hsame.trans hsame'.symm⟩, hauth⟩

/-- The terms of a cancel, with its issuance as the caller writes it. -/
def sampleCancelTerms (issuedAt : Json) : Record :=
  [("orderDigest", .str zeroBytes32.val), ("orderNonce", .str zeroBytes32.val),
    ("cancelNonce", .str zeroBytes32.val),
    ("issuedAt", issuedAt), ("reasonCode", .num (.ofNat 1))] ++ orderV2Deployment

/-- A cancel whose issuance is written as a number or as its decimal. -/
theorem one_message_one_statement_cancel :
    ∃ m, protocolMessageBytes (buildPayload .CancelV2 (sampleCancelTerms (.num (.ofNat 1000000)))) =
      .ok m ∧
      protocolMessageBytes (buildPayload .CancelV2 (sampleCancelTerms (.str "1000000"))) = .ok m ∧
      SameStatement (buildPayload .CancelV2 (sampleCancelTerms (.num (.ofNat 1000000))))
        (buildPayload .CancelV2 (sampleCancelTerms (.str "1000000"))) := by
  have hencodes :
    Encodes (sampleCancelTerms (.num (.ofNat 1000000))) (PrimaryType.fields .CancelV2) :=
    .cons (spells_bytes32 _)
      (.cons (spells_bytes32 _) (.cons (spells_bytes32 _) (.cons ⟨rfl, _, rfl⟩
      (.cons ⟨rfl, _, rfl⟩ deployment_encodes))))
  obtain ⟨m, hm⟩ := protocolMessageBytes_ok hencodes
  have hrows : wireRows (sampleCancelTerms (.str "1000000")) (PrimaryType.fields .CancelV2) =
      wireRows (sampleCancelTerms (.num (.ofNat 1000000))) (PrimaryType.fields .CancelV2) :=
        by decide +kernel
  have hm' : protocolMessageBytes (buildPayload .CancelV2 (sampleCancelTerms (.str "1000000"))) =
    .ok m := by
    rw [← hm]
    unfold protocolMessageBytes buildPayload
    dsimp only
    rw [hrows]
    rfl
  exact ⟨m, hm, hm', one_message_one_statement.1 _ _ m hm hm'⟩

end QuantaSwap.Book
