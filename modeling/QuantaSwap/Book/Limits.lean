import QuantaSwap.Book.Relisted
import QuantaSwap.Book.Reload

/-!
# The configured limits

The limits that a create checks stay in force over a run: every other write leaves the
counts alone, except the release of an accepted listing, which opens a row unchecked.
A book within the limits has no row too many for `load`.
-/

set_option autoImplicit false

namespace QuantaSwap.Book

open Lib.Js Lib.Text Lib.Checks Lib.Run

/-! ## The limits -/

def isOpen (o : Order) : Bool := decide (o.status = .open)

/-- An open row of this maker. -/
def isOpenOf (eth : EthAddress) (qrl : QrlAddress) (o : Order) : Bool :=
  decide (o.status = .open) && sameMaker eth qrl o

def isImported (o : Order) : Bool := o.federationSourceHash.isSome

/-- The limits on what the book retains and lists. -/
structure Shelf (l : List Order) : Prop where
  retained : l.length ≤ maxRetainedOrders
  opened : l.countP isOpen ≤ maxOpenOrders
  maker : ∀ eth qrl, l.countP (isOpenOf eth qrl) ≤ maxOpenOrdersPerMaker

/-- The limits on the evidence of one row. -/
structure FewProofs (o : Order) : Prop where
  intents : o.intents.length ≤ maxFillIntentsPerOrder
  conflicts : o.conflicts.length ≤ maxConflictProofs
  orderConflicts : o.orderConflicts.length ≤ maxConflictProofs

/-- The configured limits. -/
structure Limits (l : List Order) : Prop where
  shelf : Shelf l
  portable : l.countP isPublicPortable ≤ maxPublicPortableOrders
  imported : l.countP isImported ≤ maxFederatedPublicPortableOrders
  source : ∀ source,
    l.countP (fun o => decide (o.federationSourceHash = some source)) ≤
      maxPublicPortableOrdersPerFederationPeer
  proofs : ∀ o ∈ l, FewProofs o

/-! ## What a call needs -/

section Fits

variable (E : Crypto)

/-- The taker of an accepted listing releases it. -/
structure Relists (c : Call) (o : Order) : Prop where
  accepted : o.status = .accepted
  legacy : usesPortableTerminalProtocol o = false
  taker : ∃ body, c = .release o.id.val body ∧ o.takerTokenHash.isSome ∧
    (asString (body.get "token")).map (sha256Hex E) = o.takerTokenHash

/-- The limits on open rows allow one more of this row's maker. -/
structure RoomFor (l : List Order) (o : Order) : Prop where
  opened : l.countP isOpen < maxOpenOrders
  maker : l.countP (isOpenOf o.makerEthAccount o.makerQrlAccount) < maxOpenOrdersPerMaker

/-- A release that relists has room, and no caller's address reads as the retired peer name. -/
structure Fits (l : List Order) (i : Step) : Prop where
  room : ∀ o ∈ sweepAll i.now l, Relists E i.call o → RoomFor (sweepAll i.now l) o
  address : ∀ body makerIp, i.call = .createSigned body makerIp →
    sha256Hex E makerIp ≠ sha256Hex E "federation"

/-- The row names the peer that it came from, if any. -/
structure Sourced (o : Order) : Prop where
  imported : isImported o = true → isPublicPortable o = true
  known : isPublicPortable o = true → KnownSource E o

end Fits

/-! ## One write -/

section Writes

variable {E : Crypto} {now : SafeInt} {i : Step} {l l' : List Order} {o o' : Order}

theorem sweepOrder_opens (h : sweepOrder now o = some o') (hopen : o'.status = .open) :
    o.status = .open := by
  rcases sweepOrder_cases h with ⟨rfl, -⟩ | rfl
  · cases hopen
  · exact hopen

theorem sweepOrder_sameMaker (h : sweepOrder now o = some o') (eth : EthAddress)
    (qrl : QrlAddress) :
    sameMaker eth qrl o' = sameMaker eth qrl o := by
  rcases sweepOrder_cases h with ⟨rfl, -⟩ | rfl <;> rfl

theorem sweepOrder_isOpen (h : sweepOrder now o = some o') (ho : isOpen o' = true) :
    isOpen o = true := by
  unfold isOpen at ho ⊢
  rw [decide_eq_true_eq] at ho ⊢
  exact sweepOrder_opens h ho

theorem sweepOrder_isOpenOf {eth : EthAddress} {qrl : QrlAddress} (h : sweepOrder now o = some o')
    (ho : isOpenOf eth qrl o' = true) : isOpenOf eth qrl o = true := by
  unfold isOpenOf at ho ⊢
  rw [Bool.and_eq_true, decide_eq_true_eq] at ho ⊢
  exact ⟨sweepOrder_opens h ho.1, sweepOrder_sameMaker h eth qrl ▸ ho.2⟩

theorem Shelf.sweep (h : Shelf l) : Shelf (sweepAll now l) where
  retained := (List.length_filterMap_le _ _).trans h.retained
  opened := (countP_sweepAll_le_self fun _ _ => sweepOrder_isOpen).trans h.opened
  maker := fun eth qrl => (countP_sweepAll_le_self fun _ _ => sweepOrder_isOpenOf).trans
    (h.maker eth qrl)

theorem RoomFor.sweep (h : RoomFor l o) (hsweep : sweepOrder now o = some o') :
    RoomFor (sweepAll now l) o' := by
  have hmaker : isOpenOf o'.makerEthAccount o'.makerQrlAccount =
    isOpenOf o.makerEthAccount o.makerQrlAccount := by
    rcases sweepOrder_cases hsweep with ⟨rfl, -⟩ | rfl <;> rfl
  constructor
  · exact Nat.lt_of_le_of_lt (countP_sweepAll_le_self fun _ _ => sweepOrder_isOpen) h.opened
  · rw [hmaker]
    exact Nat.lt_of_le_of_lt (countP_sweepAll_le_self fun _ _ => sweepOrder_isOpenOf) h.maker

theorem Change.opens (h : Change E i o o') (hopen : o'.status = .open) :
    o.status = .open ∨
      (o.status = .accepted ∧ usesPortableTerminalProtocol o = false ∧
        ∃ body, i.call = .release o.id.val body) := by
  cases h with
  | orderConflict verified =>
    left
    unfold addOrderConflict at hopen
    dsimp only at hopen
    split at hopen
    · cases hopen
    · exact hopen
  | portable hportable h =>
    cases h with
    | fill => cases hopen
    | cancel => cases hopen
    | _ => exact .inl hopen
  | legacy hlegacy h =>
    cases h with
    | relist body haccepted hcall => exact .inr ⟨haccepted, hlegacy, body, hcall⟩
    | releaseLocking hlocking => exact .inl hopen
    | _ => cases hopen

theorem Change.sameMaker_eq (h : Change E i o o') (eth : EthAddress) (qrl : QrlAddress) :
    sameMaker eth qrl o' = sameMaker eth qrl o := by
  cases h with
  | orderConflict verified => rfl
  | portable hportable h => cases h <;> rfl
  | legacy hlegacy h => cases h <;> rfl

theorem countP_changed_le {p : Order → Bool} {f : Order → Order} {n : Nat}
    (hids : (l.map Order.id).Nodup)
    (hmem : o ∈ l) (hle : l.countP p ≤ n) (hlt : p (f o) = true → p o = false → l.countP p < n) :
    (l.map fun x => if x.id = o.id then f x else x).countP p ≤ n := by
  have hcount := countP_changed (f := f) p hids hmem
  by_cases hnew : p (f o) = true
  · by_cases hold : p o = true
    · rw [if_pos hnew, if_pos hold] at hcount
      omega
    · rw [if_pos hnew, if_neg hold] at hcount
      have := hlt hnew (by simpa using hold)
      omega
  · rw [if_neg hnew] at hcount
    omega

theorem sameMaker_trans {eth eth' : EthAddress} {qrl qrl' : QrlAddress}
    (h : sameMaker eth qrl o = true)
    (h' : sameMaker eth' qrl' o = true) : sameMaker eth qrl = sameMaker eth' qrl' := by
  unfold sameMaker at h h'
  rw [decide_eq_true_eq] at h h'
  funext x
  unfold sameMaker
  rw [← h.1, ← h.2, h'.1, h'.2]

theorem sameMaker_self (o : Order) : sameMaker o.makerEthAccount o.makerQrlAccount o = true := by
  unfold sameMaker
  rw [decide_eq_true_eq]
  exact ⟨rfl, rfl⟩

theorem isOpenOf_congr {eth eth' : EthAddress} {qrl qrl' : QrlAddress}
    (h : sameMaker eth qrl = sameMaker eth' qrl') : isOpenOf eth qrl = isOpenOf eth' qrl' := by
  funext o
  unfold isOpenOf
  rw [h]

/-- The accepted rows that the call may relist have room. -/
def Roomy (i : Step) (l : List Order) : Prop :=
  ∀ o ∈ l, o.status = .accepted → usesPortableTerminalProtocol o = false →
    (∃ body, i.call = .release o.id.val body) → RoomFor l o

theorem Shelf.change {f : Order → Order} (h : Shelf l) (hids : (l.map Order.id).Nodup)
    (hmem : o ∈ l)
    (hroom : Roomy i l) (hchange : Change E i o (f o)) :
    Shelf (l.map fun x => if x.id = o.id then f x else x) := by
  have hnew : (f o).status = .open → o.status ≠ .open → RoomFor l o := by
    intro hopen hclosed
    rcases hchange.opens hopen with hopened | ⟨haccepted, hlegacy, hcall⟩
    · exact absurd hopened hclosed
    · exact hroom o hmem haccepted hlegacy hcall
  refine ⟨?_, ?_, ?_⟩
  · rw [List.length_map]
    exact h.retained
  · refine countP_changed_le hids hmem h.opened fun hopen hclosed => (hnew ?_ ?_).opened
    · exact of_decide_eq_true hopen
    · exact of_decide_eq_false hclosed
  · intro eth qrl
    refine countP_changed_le hids hmem (h.maker eth qrl) fun hopen hclosed => ?_
    unfold isOpenOf at hopen hclosed
    rw [Bool.and_eq_true, decide_eq_true_eq, hchange.sameMaker_eq] at hopen
    rw [hopen.2, Bool.and_true, decide_eq_false_iff_not] at hclosed
    rw [isOpenOf_congr (sameMaker_trans hopen.2 (sameMaker_self o))]
    exact (hnew hopen.1 hclosed).maker

theorem Shelf.create {body : Record} {makerIp : String} {origin : Origin} {random : Random}
    (h : Shelf l)
    (hdraft : draftOrder E l now body makerIp origin random = .ok o) : Shelf (l ++ [o]) := by
  obtain ⟨terms, listing, prelock, hterms, -, -, ho⟩ := draftOrder_new hdraft
  simp only [draftOrder, bind_eq_ok, refuse_eq_ok, exists_const, hterms, Except.ok.injEq,
    exists_eq_left'] at hdraft
  obtain ⟨_, hbook, _, hmaker, -⟩ := hdraft
  simp only [assertBookCapacity, bind_eq_ok, refuse_eq_ok, exists_const, openOrders,
    ← List.countP_eq_length_filter]
    at hbook
  simp only [assertMakerCapacity, bind_eq_ok, refuse_eq_ok, exists_const,
    length_openOrders] at hmaker
  refine ⟨?_, ?_, ?_⟩
  · rw [List.length_append, List.length_singleton]
    exact Nat.lt_of_not_le hbook.1
  · exact countP_snoc_le h.opened fun _ => Nat.lt_of_not_le hbook.2
  · intro eth qrl
    refine countP_snoc_le (h.maker eth qrl) fun hopen => ?_
    unfold isOpenOf at hopen
    rw [Bool.and_eq_true] at hopen
    have hself : sameMaker terms.makerEthAccount terms.makerQrlAccount o = true := by
      rw [ho]
      exact sameMaker_self _
    rw [isOpenOf_congr (sameMaker_trans hopen.2 hself)]
    exact Nat.lt_of_not_le hmaker.1

/-- One call keeps the limits on the shelf, when what it may relist has room. -/
theorem Effects.shelf (h : Effects E i l l') (hids : (l.map Order.id).Nodup) (hl : Shelf l)
    (hroom : Roomy i (sweepAll i.now l)) : Shelf l' := by
  induction h with
  | kept => exact hl
  | @wrote l l' h =>
    have hids := (sweepAll_ids i.now l).nodup hids
    rcases h with rfl | hwrite
    · exact hl.sweep
    · cases hwrite with
      | create body makerIp origin o hasked hdraft => exact hl.sweep.create hdraft
      | change o f hmem hchange => exact hl.sweep.change hids hmem hroom hchange
  | @sweep l l' h ih =>
    refine ih ((sweepAll_ids i.now l).nodup hids) hl.sweep ?_
    intro o' ho' haccepted hlegacy hcall
    obtain ⟨o, ho, hsweep⟩ := mem_sweepAll.mp ho'
    rcases sweepOrder_cases hsweep with ⟨rfl, -⟩ | hkept
    · cases haccepted
    · have huses : usesPortableTerminalProtocol o' = usesPortableTerminalProtocol o := by
        rw [hkept, usesPortableTerminalProtocol, usesPortableTerminalProtocol]
        unfold dropStaleIntents
        rw [Option.isSome_map]
      refine RoomFor.sweep (hroom o ho ?_ ?_ ?_) hsweep
      · rw [hkept] at haccepted
        exact haccepted
      · rw [← huses]
        exact hlegacy
      · rw [← sweepOrder_id hsweep]
        exact hcall

theorem release_unauthorized {s : Store} {id : String} {body : Record}
    (hfind : (s.swept now).order? id = some o)
    (hlegacy : usesPortableTerminalProtocol o = false)
    (htoken : o.takerTokenHash.isNone ∨ (asString (body.get "token")).map (sha256Hex E) ≠
      o.takerTokenHash) :
    release E now id body s = .error (apiError 403 "invalid taker token") (s.swept now) := by
  unfold release
  rw [sweep_bind_run, get_bind_run, hfind, bind_run, orThrow, check_ok]
  dsimp only
  rw [hlegacy, if_neg Bool.false_ne_true, bind_run, refuse, if_pos htoken, check_error]

end Writes

/-! ## Rows -/

section Rows

variable {E : Crypto} {now : SafeInt} {i : Step} {l : List Order} {o o' : Order}

theorem Row.fewProofs (h : Row E now o) : FewProofs o := by
  rcases h.kind with hlegacy | ⟨v, hsigned⟩
  · have hnone : o.intents = [] := by
      unfold Order.intents
      rw [hlegacy.fillIntents]
      rfl
    constructor
    · simp [hnone]
    · simp [hlegacy.conflicts]
    · simp [hlegacy.orderConflicts]
  · exact ⟨hsigned.retained.intents_le, hsigned.retained.conflicts_le,
      hsigned.retained.orderConflicts_le⟩

theorem SameQuota.isImported (h : SameQuota o o') : isImported o' = isImported o := by
  unfold QuantaSwap.Book.isImported
  rw [h.source]

theorem Sourced.sweep (h : Sourced E o) (hsweep : sweepOrder now o = some o') : Sourced E o' := by
  have hsame := sweepOrder_sameQuota hsweep
  constructor
  · rw [hsame.isImported, hsame.portable]
    exact h.imported
  · intro hp
    exact (h.known (hsame.portable ▸ hp)).sweep hsweep

theorem Sourced.change (h : Sourced E o) (hchange : Change E i o o') : Sourced E o' := by
  have hsame := hchange.sameQuota
  constructor
  · rw [hsame.isImported, hsame.portable]
    exact h.imported
  · intro hp
    exact (h.known (hsame.portable ▸ hp)).change hchange

theorem Sourced.draft {body : Record} {makerIp : String} {origin : Origin}
    (hasked : Asked E i body makerIp origin)
    (haddress : ∀ body makerIp, i.call = .createSigned body makerIp →
      sha256Hex E makerIp ≠ sha256Hex E "federation")
    (h : draftOrder E l i.now body makerIp origin i.random = .ok o) : Sourced E o := by
  obtain ⟨terms, listing, prelock, -, hvisibility, -, rfl⟩ := draftOrder_new h
  cases hasked with
  | legacy =>
    refine ⟨?_, ?_⟩
    · rintro ⟨⟩
    · intro hp
      cases (newOrder_isPublicPortable.mp hp).2
  | signed body makerIp verified capabilities hcall hverified =>
    refine ⟨?_, ?_⟩
    · rintro ⟨⟩
    · intro _ _ hcreator
      exact haddress body makerIp hcall (Option.some.inj hcreator)
  | federated payload source verified hcall hverified hpublic =>
    rw [parseVisibility_record, hpublic, Except.ok.injEq] at hvisibility
    refine ⟨fun _ => newOrder_isPublicPortable.mpr ⟨hvisibility.symm, rfl⟩, ?_⟩
    rintro _ ⟨⟩

theorem Quotas.imported (h : Quotas l) (hsourced : ∀ o ∈ l, Sourced E o) :
    l.countP isImported ≤ maxFederatedPublicPortableOrders ∧
      ∀ source, l.countP (fun o => decide (o.federationSourceHash = some source)) ≤
        maxPublicPortableOrdersPerFederationPeer := by
  constructor
  · refine (List.countP_mono_left fun o ho himported => ?_).trans h.federated
    rw [isFederatedPortable, (hsourced o ho).imported himported]
    exact himported
  · intro source
    refine (List.countP_mono_left fun o ho hsource => ?_).trans (h.source (some source))
    have himported : isImported o = true := by
      unfold isImported
      rw [of_decide_eq_true hsource]
      rfl
    rw [isPortableFrom, hsource, isFederatedPortable, (hsourced o ho).imported himported]
    exact himported

theorem Limits.quotas (h : Limits l) : Quotas l := by
  refine ⟨h.portable, ?_, ?_⟩
  · refine (List.countP_mono_left fun o _ hfederated => ?_).trans h.imported
    rw [isFederatedPortable, Bool.and_eq_true] at hfederated
    exact hfederated.2
  · intro source
    cases source with
    | none =>
      have hzero : l.countP (isPortableFrom none) = 0 := by
        rw [List.countP_eq_zero]
        intro o _ hp
        rw [isPortableFrom, isFederatedPortable, Bool.and_eq_true, Bool.and_eq_true,
          decide_eq_true_eq] at hp
        rw [hp.1] at hp
        cases hp.2.2
      rw [hzero]
      exact Nat.zero_le _
    | some source =>
      refine (List.countP_mono_left fun o _ hp => ?_).trans (h.source source)
      rw [isPortableFrom, Bool.and_eq_true] at hp
      exact hp.1

end Rows

/-! ## Loading a book within the limits -/

/-- `load` refuses no row for being one too many, and finds no list of proofs too long. -/
structure LoadsWithin (E : Crypto) (s : Store) : Prop where
  rows : ∀ now e, load E now (writeSnapshot s) = .error e →
    (∃ o ∈ s.orders, ∃ index, hydratePersistedOrder E now o.toJson index = .error e) ∨
    (∃ o : Order, e = .error ("order data file contains duplicate id " ++ o.id.val)) ∨
      ∃ hashlock : Hashlock,
        e = .error ("order data file contains duplicate live hashlock " ++ hashlock.val)
  lists : ∀ o ∈ s.orders, ∀ items,
    ((object o.fields).get "fillIntents" = some (.arr items) →
      items.length ≤ maxFillIntentsPerOrder) ∧
    ((object o.fields).get "conflicts" = some (.arr items) → items.length ≤ maxConflictProofs) ∧
    ((object o.fields).get "orderConflicts" = some (.arr items) → items.length ≤ maxConflictProofs)

section Load

variable {E : Crypto} {now : SafeInt} {l loaded done : List Order} {o b : Order} {index : Nat}

theorem hydrateBase_class (h : hydrateBase (object o.fields) index = .ok b) :
    b.makerAuth = none ∧ (b.visibility = .pub → o.visibility = .pub) ∧
    b.creatorIpHash = o.creatorIpHash ∧
      b.federationSourceHash = o.federationSourceHash := by
  have hget := o.row_get
  have hasset : (object o.fields).get "asset" = some (.str o.asset.name) := hget "asset"
  have hvisibility : (object o.fields).get "visibility" = some (.str o.visibility.name) :=
    hget "visibility"
  have hcreator := optionalMatchingString_ok index (hget "creatorIpHash")
  have hsource := optionalMatchingString_ok index (hget "federationSourceHash")
  unfold hydrateBase at h
  rw [hasset, hvisibility] at h
  dsimp only at h
  rw [visibility_ofJson?_name, orThrow] at h
  iterate 4 obtain ⟨_, -, h⟩ := bind_eq_ok.mp h
  rw [ok_bind] at h
  iterate 7 obtain ⟨_, -, h⟩ := bind_eq_ok.mp h
  obtain ⟨creator, hc, h⟩ := bind_eq_ok.mp h
  obtain ⟨source, hs, h⟩ := bind_eq_ok.mp h
  iterate 13 obtain ⟨_, -, h⟩ := bind_eq_ok.mp h
  cases h
  refine ⟨rfl, ?_, ?_, ?_⟩
  · dsimp only
    intro hpub
    split at hpub
    · cases hpub
    · rename_i hnot
      cases hv : o.visibility with
      | pub => rfl
      | priv => exact absurd (.inl hv) hnot
  · rw [hcreator] at hc
    exact (Except.ok.inj hc).symm
  · rw [hsource] at hs
    exact (Except.ok.inj hs).symm

theorem hydratePersistedOrder_class (h : hydratePersistedOrder E now o.toJson index = .ok b)
    (hp : isPublicPortable b = true) :
    isPublicPortable o = true ∧
    (KnownSource E o → b.federationSourceHash = o.federationSourceHash) := by
  have hauth : (object o.fields).get "makerAuth" = o.makerAuth.map MakerOrderAuthV1.toJson :=
    o.row_get "makerAuth"
  have hintents : (object o.fields).get "fillIntents" =
      o.fillIntents.map fun l => .arr (l.map StoredFillIntentV1.toJson) := o.row_get "fillIntents"
  unfold hydratePersistedOrder persistedObject Order.toJson at h
  simp only [asRecord, bind_eq_ok, orThrow_eq_ok, Option.some.injEq, exists_eq_left', hauth,
    Option.isSome_map] at h
  obtain ⟨base, hbase, h⟩ := h
  obtain ⟨hnone, hvisibility, hcreator, hsource⟩ := hydrateBase_class hbase
  rw [isPublicPortable, usesPortableTerminalProtocol, Bool.and_eq_true, Bool.and_eq_true,
    decide_eq_true_eq] at hp ⊢
  split at h
  · rename_i hsigned
    rw [bind_eq_ok] at h
    obtain ⟨order, -, h⟩ := h
    unfold hydratePortable at h
    simp only [bind_eq_ok, pure_eq_ok] at h
    obtain ⟨fillIntents, hread, _, -, _, -, _, -, _, -, _, -, _, -, rfl⟩ := h
    dsimp only at hp ⊢
    refine ⟨⟨hvisibility hp.1, hsigned, ?_⟩, ?_⟩
    · cases hstored : o.fillIntents with
      | some _ => rfl
      | none =>
        rw [hydrateFillIntents, hintents, hstored] at hread
        simp only [Option.map_none, hydrateOptionalList, ok_bind, bind_eq_ok, pure_eq_ok] at hread
        obtain ⟨_, -, rfl⟩ := hread
        exact hp.2.2
    · intro hknown
      rw [← hsource]
      refine legacyFederationSource_eq ?_
      intro hnosource
      rw [hcreator]
      exact hknown (hsource ▸ hnosource)
  · simp only [bind_eq_ok, pure_eq_ok] at h
    obtain ⟨_, -, _, -, rfl⟩ := h
    rw [hnone] at hp
    cases hp.2.1

theorem countP_forall₂_le {α β : Type} {R : α → β → Prop} {p : α → Bool} {q : β → Bool} {l : List α}
    {m : List β}
    (h : List.Forall₂ R l m) (hpq : ∀ a b, R a b → p a = true → q b = true) :
    l.countP p ≤ m.countP q := by
  induction h with
  | nil => exact Nat.le_refl _
  | @cons a b l m hab hlm ih =>
    rw [List.countP_cons, List.countP_cons]
    by_cases hp : p a = true
    · rw [if_pos hp, if_pos (hpq a b hab hp)]
      exact Nat.add_le_add_right ih 1
    · rw [if_neg hp]
      exact ih.trans (Nat.le_add_right _ _)

/-- The row counts in no quota that the saved one did not count in. -/
def CountsAs (b o : Order) : Prop :=
  isPublicPortable b = true → isPublicPortable o = true ∧
    b.federationSourceHash = o.federationSourceHash

theorem Quotas.countsAs (h : Quotas l) (hcounts : List.Forall₂ CountsAs loaded l) :
    Quotas loaded where
  portable := (countP_forall₂_le hcounts fun _ _ hb hp => (hb hp).1).trans h.portable
  federated := by
    refine (countP_forall₂_le hcounts fun b o hb hp => ?_).trans h.federated
    rw [isFederatedPortable, Bool.and_eq_true] at hp ⊢
    obtain ⟨hportable, hsource⟩ := hb hp.1
    exact ⟨hportable, hsource ▸ hp.2⟩
  source := fun source => by
    refine (countP_forall₂_le hcounts fun b o hb hp => ?_).trans (h.source source)
    rw [isPortableFrom, isFederatedPortable, Bool.and_eq_true, Bool.and_eq_true,
      decide_eq_true_eq] at hp ⊢
    obtain ⟨hportable, hsource⟩ := hb hp.2.1
    exact ⟨hsource ▸ hp.1, hportable, hsource ▸ hp.2.2⟩

theorem loadRows_error {e : Thrown} (hcounts : List.Forall₂ CountsAs loaded done)
    (hquotas : Quotas (done ++ l))
    (hsourced : ∀ o ∈ l, Sourced E o) (h : loadRows E now loaded (l.map Order.toJson) = .error e) :
    (∃ o ∈ l, ∃ index, hydratePersistedOrder E now o.toJson index = .error e) ∨
    (∃ o : Order, e = .error ("order data file contains duplicate id " ++ o.id.val)) ∨
      ∃ hashlock : Hashlock,
        e = .error ("order data file contains duplicate live hashlock " ++ hashlock.val) := by
  induction l generalizing loaded done with
  | nil => cases h
  | cons o l ih =>
    have hcons : done ++ o :: l = (done ++ [o]) ++ l := by simp
    rw [List.map_cons, loadRows, bind_eq_error] at h
    rcases h with h | ⟨b, hread, h⟩
    · exact .inl ⟨o, List.mem_cons_self, _, h⟩
    have hcounts' : List.Forall₂ CountsAs (loaded ++ [b]) (done ++ [o]) := by
      refine List.rel_append hcounts (.cons (fun hp => ?_) .nil)
      obtain ⟨hportable, hsource⟩ := hydratePersistedOrder_class hread hp
      exact ⟨hportable, hsource ((hsourced o List.mem_cons_self).known hportable)⟩
    rw [bind_eq_error] at h
    rcases h with h | ⟨_, -, h⟩
    · have hrow : Quotas (loaded ++ [b]) :=
        (hquotas.of_sublist (hcons ▸ List.sublist_append_left _ _)).countsAs hcounts'
      rcases assertLoadable_error hrow h with ⟨-, he⟩ | ⟨-, he⟩
      · exact .inr (.inl ⟨b, he⟩)
      · exact .inr (.inr he)
    · rcases ih hcounts' (hcons ▸ hquotas)
        (fun x hx => hsourced x (List.mem_cons_of_mem _ hx)) h with
        ⟨x, hx, hrefused⟩ | hrepeated
      · exact .inl ⟨x, List.mem_cons_of_mem _ hx, hrefused⟩
      · exact .inr hrepeated

theorem Limits.loadsWithin {s : Store} (h : Limits s.orders)
    (hsourced : ∀ o ∈ s.orders, Sourced E o) :
    LoadsWithin E s := by
  constructor
  · intro now e he
    unfold load writeSnapshot asArray at he
    rw [orThrow, ok_bind, bind_eq_error] at he
    rcases he with he | ⟨_, -, he⟩
    · exact loadRows_error .nil h.quotas hsourced he
    · cases he
  intro o ho items
  have hproofs := h.proofs o ho
  refine ⟨?_, ?_, ?_⟩
  · intro hget
    have hintents : (object o.fields).get "fillIntents" =
        o.fillIntents.map fun l => .arr (l.map StoredFillIntentV1.toJson) := o.row_get "fillIntents"
    rw [hget] at hintents
    obtain ⟨stored, hstored, hitems⟩ := Option.map_eq_some_iff.mp hintents.symm
    cases hitems
    have hfew := hproofs.intents
    rw [Order.intents, hstored] at hfew
    rw [List.length_map]
    exact hfew
  · intro hget
    have hconflicts :
      (object o.fields).get "conflicts" = listJson TerminalConflictEvidence.toJson o.conflicts :=
      o.row_get "conflicts"
    rw [hget] at hconflicts
    unfold listJson at hconflicts
    split at hconflicts
    · cases hconflicts
    · cases hconflicts
      rw [List.length_map]
      exact hproofs.conflicts
  · intro hget
    have hconflicts : (object o.fields).get "orderConflicts" =
      listJson OrderConflictEvidence.toJson o.orderConflicts :=
      o.row_get "orderConflicts"
    rw [hget] at hconflicts
    unfold listJson at hconflicts
    split at hconflicts
    · cases hconflicts
    · cases hconflicts
      rw [List.length_map]
      exact hproofs.orderConflicts

end Load

/-! ## Every run -/

/-- The invariant of a run whose relistings have room. -/
structure Within (E : Crypto) (w : World) : Prop where
  ids : (w.store.orders.map Order.id).Nodup
  shelf : Shelf w.store.orders
  quotas : Quotas w.store.orders
  sourced : ∀ o ∈ w.store.orders, Sourced E o

theorem Within.shelf_step {E : Crypto} {w : World} {i : Step} (h : Within E w)
    (hfits : Fits E w.store.orders (w.timed i)) : Shelf (w.step E i).store.orders := by
  by_cases hrefused :
    ∃ o ∈ sweepAll (w.timed i).now w.store.orders, usesPortableTerminalProtocol o = false ∧
      ∃ body, i.call = .release o.id.val body ∧
        (o.takerTokenHash.isNone ∨ (asString (body.get "token")).map (sha256Hex E) ≠
          o.takerTokenHash)
  · obtain ⟨o, ho, hlegacy, body, hcall, htoken⟩ := hrefused
    have hfind : (w.store.swept (w.timed i).now).order? o.id.val = some o :=
      order?_of_mem ((sweepAll_ids _ _).nodup h.ids) ho
    have hstep : (w.step E i).store = w.store.swept (w.timed i).now := by
      change call E (w.timed i).now (w.timed i).random i.call w.store = _
      rw [hcall]
      exact congrArg stateOf (release_unauthorized hfind hlegacy htoken)
    rw [hstep]
    exact h.shelf.sweep
  · refine (w.step_effects E i).shelf h.ids h.shelf ?_
    rintro o ho haccepted hlegacy ⟨body, hcall⟩
    refine hfits.room o ho ⟨haccepted, hlegacy, body, hcall, ?_⟩
    by_contra htoken
    refine hrefused ⟨o, ho, hlegacy, body, hcall, ?_⟩
    rw [Classical.not_and_iff_not_or_not, Bool.not_eq_true, Option.isSome_eq_false_iff] at htoken
    exact htoken

theorem Within.step {E : Crypto} {w : World} {i : Step} (h : Within E w)
    (hfits : Fits E w.store.orders (w.timed i)) : Within E (w.step E i) := by
  have heffects := w.step_effects E i
  refine ⟨heffects.ids h.ids, h.shelf_step hfits, heffects.quotas h.ids h.quotas, ?_⟩
  exact heffects.forall_mem (P := Sourced E) h.ids (fun o o' ho hsweep => ho.sweep hsweep)
    (fun o ho => ho)
    (fun l body makerIp origin o hasked hdraft => Sourced.draft hasked hfits.address hdraft)
    (fun o o' ho hchange => ho.change hchange) h.sourced

/-- A run whose relistings have room stays within the limits, and a book within the limits is not
too large for `load`. -/
theorem run_limits (E : Crypto) :
    (∀ is, Along (World.step E) (fun w i => Fits E w.store.orders (w.timed i)) World.start is →
      Limits (run (World.step E) World.start is).store.orders ∧
        ∀ o ∈ (run (World.step E) World.start is).store.orders, Sourced E o) ∧
    ∀ s : Store, Limits s.orders → (∀ o ∈ s.orders, Sourced E o) → LoadsWithin E s := by
  refine ⟨?_, fun s hlimits hsourced => hlimits.loadsWithin hsourced⟩
  intro is h
  have hstart : Within E World.start :=
    ⟨List.nodup_nil, ⟨Nat.zero_le _, Nat.zero_le _, fun _ _ => Nat.zero_le _⟩,
      ⟨Nat.zero_le _, Nat.zero_le _, fun _ => Nat.zero_le _⟩,
        fun o ho => absurd ho List.not_mem_nil⟩
  have hwithin := invariant_of_along (I := Within E) (fun w i hw hi => hw.step hi) h hstart
  obtain ⟨himported, hsource⟩ := hwithin.quotas.imported hwithin.sourced
  exact ⟨⟨hwithin.shelf, hwithin.quotas.portable, himported, hsource,
    fun o ho => (run_rows E is o ho).fewProofs⟩,
    hwithin.sourced⟩

/-! ## A listing too many -/

section Sample

def rowDigits (k : Fin 48) : List Char :=
  List.replicate 14 '0' ++ [Nat.digitChar (k.val / 16), Nat.digitChar (k.val % 16)]

theorem rowDigits_isLowerHex (k : Fin 48) : (rowDigits k).all isLowerHex = true := by
  revert k
  decide

def rowId (k : Fin 48) : Matching (fixed [] 16 isLowerHex) :=
  ⟨String.ofList (rowDigits k),
    fixed_iff.mpr ⟨rowDigits k, by simp, rfl, List.all_eq_true.mp (rowDigits_isLowerHex k)⟩⟩

def rowRandom (k : Fin 48) : Random := { sampleRandom 'a' lowerHex_a with id := rowId k }

def rowStep (k : Fin 48) : Step := ⟨sampleClock, rowRandom k, .create (sampleListing []) "maker"⟩

def takerAccounts : Record :=
  [("takerEthAccount", .str sampleEth), ("takerQrlAccount", .str sampleQrl)]

def takerAccept : Step := ⟨sampleClock, rowRandom 47, .accept (rowId 47).val takerAccounts "taker"⟩

def takerRelease : Step :=
  ⟨sampleClock, rowRandom 47, .release (rowId 47).val [("token", .str (hexOf zeroBytes32).val)]⟩

def laterRows : List (Fin 48) := (List.finRange 40).map (Fin.castLE (by decide))

/-- One listing of the maker is taken, the maker lists forty more, then the taker walks away. -/
def relistedListing : List Step :=
  [rowStep 47, takerAccept] ++ laterRows.map rowStep ++ [takerRelease]

theorem sampleEth_toList : sampleEth.toList = ['0', 'x'] ++ List.replicate 40 '1' := by
  unfold sampleEth
  rw [String.toList_append, String.toList_ofList, String.toList_ofList]

theorem sampleQrl_toList : sampleQrl.toList = ['Q'] ++ List.replicate 128 '1' := by
  unfold sampleQrl
  rw [String.toList_append, String.toList_ofList, String.toList_ofList]

theorem ones_isHex (n : Nat) : ∀ c ∈ List.replicate n '1', isHex c = true := by
  intro c hc
  rw [List.eq_of_mem_replicate hc]
  decide

def sampleEthAddress : EthAddress :=
  ⟨sampleEth, fixed_iff.mpr ⟨_, sampleEth_toList, List.length_replicate, ones_isHex 40⟩⟩

def sampleQrlAddress : QrlAddress :=
  ⟨sampleQrl, fixed_iff.mpr ⟨_, sampleQrl_toList, List.length_replicate, ones_isHex 128⟩⟩

theorem requireAddress_sampleEth (field : String) :
    requireAddress (some (.str sampleEth)) field ethAddrRe = .ok sampleEthAddress := by
  have hmatching := matching_val sampleEthAddress
  unfold sampleEthAddress at hmatching
  unfold requireAddress asString
  rw [Option.bind_some, hmatching, orThrow]
  rfl

theorem requireAddress_sampleQrl (field : String) :
    requireAddress (some (.str sampleQrl)) field qrlAddrRe = .ok sampleQrlAddress := by
  have hmatching := matching_val sampleQrlAddress
  unfold sampleQrlAddress at hmatching
  unfold requireAddress asString
  rw [Option.bind_some, hmatching, orThrow]
  rfl

theorem sampleQrl_protocol (E : Crypto) :
    assertLegacyOrderProtocolInput E (some (.str sampleQrl)) = .ok ⟨⟩ := by
  have hbody : (dropLead ['Q'] sampleQrl).toList = List.replicate 128 '1' := by
    unfold dropLead
    rw [String.toList_ofList, sampleQrl_toList]
    rfl
  have hlower : (List.replicate 128 '1').map Char.toLower = List.replicate 128 '1' := by
    rw [List.map_replicate, show Char.toLower '1' = '1' by decide]
  have hshape := sampleQrlAddress.property
  unfold sampleQrlAddress at hshape
  have hqip55 : isQip55QrlAddress E (some (.str sampleQrl)) = true := by
    unfold isQip55QrlAddress asString
    dsimp only
    rw [hbody, hlower, hshape, BEq.rfl]
    rfl
  unfold assertLegacyOrderProtocolInput
  rw [hqip55, refuse, if_neg (by decide)]

theorem sampleListing_account :
    (sampleListing []).get "makerQrlAccount" = some (.str sampleQrl) := by
  simp only [sampleListing, Record.get, List.append_nil, List.lookup_cons,
    String.reduceBEq, BEq.rfl]

theorem requireAmount_sample (field : String) :
    ∃ a, requireAmount (some (.str "1000000000000000000")) field qrlBounds = .ok a := by
  have hshape : amountRe "1000000000000000000" = true := by decide +kernel
  have hunits : Lib.Decimal.value "1000000000000000000" = 10 ^ 18 := by decide +kernel
  have hmin : ¬Lib.Decimal.value "1000000000000000000" < qrlBounds.minBaseUnits := by
    rw [hunits]
    decide
  have hmax : ¬qrlBounds.maxBaseUnits < Lib.Decimal.value "1000000000000000000" := by
    rw [hunits]
    decide
  have hmatching := @matching_val amountRe ⟨_, hshape⟩
  unfold requireAmount asString
  rw [Option.bind_some, hmatching, orThrow, ok_bind]
  dsimp only
  rw [refuse, if_neg hmin, ok_bind, refuse, if_neg hmax, ok_bind]
  exact ⟨_, rfl⟩

theorem sampleListing_terms : ∃ terms, createTerms (sampleListing []) = .ok terms := by
  obtain ⟨a, ha⟩ := requireAmount_sample "fromAmount"
  obtain ⟨b, hb⟩ := requireAmount_sample "toAmount"
  have hdirection : requireDirection (some (.str "eth->qrl")) = .ok .ethToQrl := rfl
  have hasset : requireAsset none = .ok AssetSymbol.ETH.asset := rfl
  have hbounds : AssetSymbol.ETH.asset.toAmountBounds = qrlBounds := rfl
  unfold createTerms
  simp only [sampleListing, Record.get, List.append_nil, List.lookup_cons, List.lookup_nil,
    String.reduceBEq, BEq.rfl,
    hdirection, hasset, hbounds, ha, hb, requireAddress_sampleEth,
      requireAddress_sampleQrl, ok_bind]
  exact ⟨_, rfl⟩

/-- The row that a step adds. -/
def listedRow (terms : CreateTerms) (k : Fin 48) : Order :=
  newOrder flatCrypto .legacy (rowRandom k) sampleClock terms ⟨.pub, none,
    none⟩ none (sha256Hex flatCrypto "maker")

/-- The sweep at the clock of the sample leaves the row. -/
def Still (o : Order) : Prop := sweepOrder sampleClock o = some o

theorem listedRow_still (terms : CreateTerms) (k : Fin 48) : Still (listedRow terms k) :=
  sweepOrder_listed (.inl rfl) rfl (fun j hj => by cases hj) (fun a ha => by cases ha)

theorem digitChar_injective {k k' : Fin 16} (h : Nat.digitChar k = Nat.digitChar k') : k = k' := by
  revert k k'
  decide

theorem isOpen_listed (terms : CreateTerms) (k : Fin 48) : isOpen (listedRow terms k) = true := by
  unfold isOpen listedRow newOrder
  rfl

theorem rowId_injective {k k' : Fin 48} (h : (rowId k).val = (rowId k').val) : k = k' := by
  have hlast := List.append_cancel_left (String.ofList_injective h)
  rw [List.cons.injEq, List.cons.injEq] at hlast
  have hk := k.isLt
  have hk' := k'.isLt
  have hhigh : (⟨k.val / 16, by omega⟩ : Fin 16) = ⟨k'.val / 16, by omega⟩ :=
    digitChar_injective hlast.1
  have hlow : (⟨k.val % 16, by omega⟩ : Fin 16) = ⟨k'.val % 16, by omega⟩ :=
    digitChar_injective hlast.2.1
  rw [Fin.mk.injEq] at hhigh hlow
  apply Fin.ext
  omega

theorem listedRow_id_injective (terms : CreateTerms) {k k' : Fin 48}
    (h : (listedRow terms k).id = (listedRow terms k').id) : k = k' := by
  apply rowId_injective
  exact congrArg (fun id : OrderId => id.val) h

theorem sweepAll_still {l : List Order} (h : ∀ o ∈ l, Still o) : sweepAll sampleClock l = l := by
  unfold sweepAll
  rw [List.filterMap_congr (g := some) h, List.filterMap_some]

theorem draftOrder_listed {l : List Order} {terms : CreateTerms} {k : Fin 48}
    (hterms : createTerms (sampleListing []) = .ok terms) (hopen : l.countP isOpen < 40)
    (hlength : l.length < 64)
    (hfresh : ∀ o ∈ l, o.id ≠ (listedRow terms k).id) :
    draftOrder flatCrypto l sampleClock (sampleListing []) "maker" .legacy (rowRandom k) =
      .ok (listedRow terms k) := by
  have hshelf : (openOrders l).length = l.countP isOpen := List.countP_eq_length_filter.symm
  have hfilter : ∀ p : Order → Bool, ((openOrders l).filter p).length ≤ l.countP isOpen := fun p =>
    hshelf ▸ List.length_filter_le _ _
  -- Every limit is of a part of the rows, and there are few rows.
  have hretained : ∀ p : Order → Bool, (l.filter p).length ≤ l.length :=
    fun p => List.length_filter_le _ _
  have hbook : assertBookCapacity l = .ok ⟨⟩ := by
    unfold assertBookCapacity
    rw [refuse, if_neg (by unfold maxRetainedOrders; omega), ok_bind, refuse,
      if_neg (by rw [hshelf]; unfold maxOpenOrders; omega)]
  have hmaker : assertMakerCapacity l terms.makerEthAccount terms.makerQrlAccount = .ok ⟨⟩ := by
    have hopened := hfilter (sameMaker terms.makerEthAccount terms.makerQrlAccount)
    have hheld := hretained (sameMaker terms.makerEthAccount terms.makerQrlAccount)
    unfold assertMakerCapacity
    rw [refuse, if_neg (by unfold maxOpenOrdersPerMaker; omega), ok_bind, refuse,
      if_neg (by unfold maxRetainedOrdersPerMaker; omega)]
  have hsource : assertSourceCapacity l (sha256Hex flatCrypto "maker") false = .ok ⟨⟩ := by
    have hopened := hfilter fun o => o.creatorIpHash = some (sha256Hex flatCrypto "maker")
    have hheld := hretained fun o => o.creatorIpHash = some (sha256Hex flatCrypto "maker")
    unfold assertSourceCapacity
    rw [refuse, if_neg (by unfold maxOpenOrdersPerIp; omega), ok_bind,
      if_neg Bool.false_ne_true, refuse,
      if_neg (by unfold maxRetainedOrdersPerIp; omega)]
  have hid : ¬∃ other ∈ l, (other : Order).id = (listedRow terms k).id := by
    rintro ⟨o, ho, heq⟩
    exact hfresh o ho heq
  unfold draftOrder
  rw [hbook, ok_bind, hterms, ok_bind, hmaker, ok_bind]
  dsimp only
  rw [show Origin.legacy.isFederated = false from rfl, hsource, ok_bind]
  change (do
    refuse (∃ other ∈ l, (other : Order).id = (listedRow terms k).id)
      (apiError 409 "order already exists")
    assertFreshCapabilities l (listedRow terms k).id .legacy
    pure (listedRow terms k)) = Except.ok (listedRow terms k)
  rw [refuse, if_neg hid]
  rfl

theorem create_inserts {E : Crypto} {now : SafeInt} {body : Record} {makerIp : String}
    {random : Random} {s : Store}
    {o : Order} (hinput : assertLegacyOrderProtocolInput E (body.get "makerQrlAccount") = .ok ⟨⟩)
    (hdraft : draftOrder E (sweepAll now s.orders) now body makerIp .legacy random = .ok o) :
    (stateOf (create E now body makerIp random s)).orders = sweepAll now s.orders ++ [o] := by
  unfold create createInternal
  rw [bind_run, hinput, check_ok]
  dsimp only
  rw [sweep_bind_run, get_bind_run, show Origin.legacy.verified = none from rfl, Option.bind_none]
  dsimp only
  rw [Store.orders_swept, hdraft, bind_run, check_ok]
  rfl

theorem accept_takes {E : Crypto} {now : SafeInt} {id takerIp : String} (body : Record)
    (random : Random) {s : Store}
    {o : Order} {eth : EthAddress} {qrl : QrlAddress}
    (hinput : assertLegacyOrderProtocolInput E (body.get "takerQrlAccount") = .ok ⟨⟩)
    (horder : (s.swept now).order? id = some o) (hpub : o.visibility = .pub)
    (hlegacy : o.makerAuth = none)
    (hopen : o.status = .open) (hfree : o.prelocked = false)
    (hnone : ∀ x ∈ sweepAll now s.orders, x.acceptorIpHash ≠ some (sha256Hex E takerIp))
    (heth : requireAddress (body.get "takerEthAccount") "takerEthAccount" ethAddrRe = .ok eth)
    (hqrl : requireAddress (body.get "takerQrlAccount") "takerQrlAccount" qrlAddrRe = .ok qrl)
    (hethAny : o.allowedTakerEth = none) (hqrlAny : o.allowedTakerQrl = none) :
    (stateOf (accept E now id body takerIp random s)).orders = (sweepAll now s.orders).map fun x =>
      if x.id = o.id then
      acceptOrder now eth qrl (sha256Hex E random.takerToken.val) (sha256Hex E takerIp) x else
        x := by
  have hmine : ((s.swept now).orders.filter fun x => x.acceptorIpHash =
    some (sha256Hex E takerIp)) = [] := by
    rw [List.filter_eq_nil_iff]
    intro x hx
    rw [decide_eq_true_eq]
    exact hnone x hx
  have hpriv : ¬(o.visibility = .priv ∧ shareAuthorized E o (body.get "shareToken") = false) := by
    rw [hpub]
    rintro ⟨⟨⟩, -⟩
  have hportable : ¬usesPortableTerminalProtocol o = true := by
    unfold usesPortableTerminalProtocol
    rw [hlegacy]
    simp
  have hrun : ¬hasRunway o now = false := by
    unfold hasRunway
    rw [hfree]
    simp
  have hany : ¬((∃ a ∈ o.allowedTakerEth, toLowerCase (a : EthAddress).val ≠ toLowerCase eth.val) ∨
      ∃ a ∈ o.allowedTakerQrl, toLowerCase (a : QrlAddress).val ≠ toLowerCase qrl.val) := by
    rw [hethAny, hqrlAny]
    rintro (⟨_, ⟨⟩, -⟩ | ⟨_, ⟨⟩, -⟩)
  have hnoSwaps :
    ¬maxConcurrentTakesPerIp ≤ (([] : List Order).filter (takeSlotActive now)).length :=
    Nat.not_succ_le_zero _
  have hnoTakes : ¬maxTakesPerIpPerDay ≤ (([] : List Order).filter fun x =>
      now.val < ((x.acceptedAt.map Subtype.val).getD 0) +
        takeWindowS).length := Nat.not_succ_le_zero _
  unfold accept
  rw [bind_run, hinput, check_ok]
  dsimp only
  rw [sweep_bind_run, get_bind_run, horder, bind_run, orThrow, check_ok]
  dsimp only
  rw [bind_run, refuse, if_neg hpriv, check_ok]
  dsimp only
  rw [bind_run, refuse, if_neg hportable, check_ok]
  dsimp only
  rw [bind_run, refuse, if_neg (not_not_intro hopen), check_ok]
  dsimp only
  rw [bind_run, refuse, if_neg hrun, check_ok]
  dsimp only
  unfold commitTake
  rw [get_bind_run]
  dsimp only
  rw [hmine, bind_run, refuse, if_neg hnoSwaps, check_ok]
  dsimp only
  rw [bind_run, refuse, if_neg hnoTakes, check_ok]
  dsimp only
  rw [heth, bind_run, check_ok]
  dsimp only
  rw [hqrl, bind_run, check_ok]
  dsimp only
  rw [bind_run, refuse, if_neg hany, check_ok]
  rfl

theorem release_relists {E : Crypto} {now : SafeInt} {id token : String} {body : Record} {s : Store}
    {o : Order}
    (horder : (s.swept now).order? id = some o) (hlegacy : o.makerAuth = none)
    (haccepted : o.status = .accepted)
    (htoken : body.get "token" = some (.str token))
    (htaker : o.takerTokenHash = some (sha256Hex E token)) :
    (stateOf (release E now id body s)).orders =
      (sweepAll now s.orders).map fun x => if x.id = o.id then relist now x else x := by
  have hportable : ¬usesPortableTerminalProtocol o = true := by
    unfold usesPortableTerminalProtocol
    rw [hlegacy]
    simp
  have hauthorized : ¬(o.takerTokenHash.isNone ∨
      (asString (body.get "token")).map (sha256Hex E) ≠ o.takerTokenHash) := by
    rw [htaker, htoken]
    rintro (h | h)
    · cases h
    · exact h rfl
  unfold release
  rw [sweep_bind_run, get_bind_run, horder, bind_run, orThrow, check_ok]
  dsimp only
  rw [if_neg hportable, bind_run, refuse, if_neg hauthorized, check_ok]
  dsimp only
  rw [haccepted]
  rfl

/-- A world of still rows at the clock of the sample. -/
structure Quiet (w : World) : Prop where
  clock : w.clock ≤ sampleClock
  still : ∀ o ∈ w.store.orders, Still o

theorem Quiet.timed {w : World} {i : Step} (h : Quiet w) (hi : i.now = sampleClock) :
    w.timed i = i := by
  unfold World.timed
  rw [hi, max_eq_right h.clock, ← hi]

theorem run_listed {terms : CreateTerms} (hterms : createTerms (sampleListing []) = .ok terms)
    (ks : List (Fin 48))
    {w : World} (hquiet : Quiet w) (hks : ks.Nodup)
    (hfresh : ∀ o ∈ w.store.orders, ∀ k ∈ ks, o.id ≠ (listedRow terms k).id)
    (hopen : w.store.orders.countP isOpen + ks.length ≤ 40)
    (hlength : w.store.orders.length + ks.length ≤ 64) :
    Quiet (run (World.step flatCrypto) w (ks.map rowStep)) ∧
      (run (World.step flatCrypto) w (ks.map rowStep)).store.orders =
        w.store.orders ++ ks.map (listedRow terms) := by
  induction ks generalizing w with
  | nil =>
    rw [List.map_nil, List.map_nil, List.append_nil]
    exact ⟨hquiet, rfl⟩
  | cons k ks ih =>
    rw [List.length_cons] at hopen hlength
    rw [List.nodup_cons] at hks
    -- Each listing finds the rows before it as they were, for the sweep has nothing to do.
    have htimed : w.timed (rowStep k) = rowStep k := hquiet.timed rfl
    have hdraft := draftOrder_listed (l := w.store.orders) (k := k) hterms (by omega) (by omega)
      fun o ho => hfresh o ho k List.mem_cons_self
    have hstep : (w.step flatCrypto (rowStep k)).store.orders =
      w.store.orders ++ [listedRow terms k] := by
      unfold World.step Book.step
      rw [htimed]
      unfold rowStep call after
      dsimp only
      have hswept : sweepAll sampleClock w.store.orders = w.store.orders :=
        sweepAll_still hquiet.still
      have hinput :
        assertLegacyOrderProtocolInput flatCrypto ((sampleListing []).get "makerQrlAccount") =
          .ok ⟨⟩ := by
        rw [sampleListing_account]
        exact sampleQrl_protocol flatCrypto
      rw [create_inserts hinput (by rw [hswept]; exact hdraft), hswept]
    have hquiet' : Quiet (w.step flatCrypto (rowStep k)) := by
      constructor
      · rw [World.step_clock, htimed]
        exact le_rfl
      · intro o ho
        rw [hstep, List.mem_append, List.mem_singleton] at ho
        rcases ho with ho | rfl
        · exact hquiet.still o ho
        · exact listedRow_still terms k
    have hrest : ∀ o ∈ (w.step flatCrypto (rowStep k)).store.orders, ∀ k' ∈ ks,
      o.id ≠ (listedRow terms k').id := by
      intro o ho k' hk'
      rw [hstep, List.mem_append, List.mem_singleton] at ho
      rcases ho with ho | rfl
      · exact hfresh o ho k' (List.mem_cons_of_mem _ hk')
      · intro heq
        exact hks.1 (listedRow_id_injective terms heq ▸ hk')
    obtain ⟨hlast, horders⟩ := ih hquiet' hks.2 hrest
      (by rw [hstep, List.countP_append, List.countP_singleton, if_pos (isOpen_listed terms k)]; omega)
      (by rw [hstep, List.length_append, List.length_singleton]; omega)
    rw [List.map_cons, run_cons]
    refine ⟨hlast, ?_⟩
    rw [horders, hstep, List.map_cons, List.append_assoc, List.singleton_append]

def takenRow (terms : CreateTerms) : Order :=
  acceptOrder sampleClock sampleEthAddress sampleQrlAddress
    (sha256Hex flatCrypto (rowRandom 47).takerToken.val)
    (sha256Hex flatCrypto "taker") (listedRow terms 47)

theorem takenRow_still (terms : CreateTerms) : Still (takenRow terms) :=
  sweepOrder_listed (.inr rfl) rfl (fun j hj => by cases hj) (fun a ha => by cases ha)

theorem map_first {o : Order} {l : List Order} {f : Order → Order} (h : ∀ x ∈ l, x.id ≠ o.id) :
    ((o :: l).map fun x => if x.id = o.id then f x else x) = f o :: l := by
  rw [List.map_cons, if_pos rfl]
  congr 1
  conv_rhs => rw [← List.map_id l]
  exact List.map_congr_left fun x hx => if_neg (h x hx)

theorem order?_first {s : Store} {o : Order} {l : List Order}
    (h : (s.swept sampleClock).orders = o :: l) :
    (s.swept sampleClock).order? o.id.val = some o := by
  unfold Store.order?
  rw [h]
  exact List.find?_cons_of_pos (decide_eq_true rfl)

theorem takerAccounts_eth : takerAccounts.get "takerEthAccount" = some (.str sampleEth) := by
  simp only [takerAccounts, Record.get, List.lookup_cons, BEq.rfl]

theorem takerAccounts_qrl : takerAccounts.get "takerQrlAccount" = some (.str sampleQrl) := by
  simp only [takerAccounts, Record.get, List.lookup_cons, String.reduceBEq, BEq.rfl]

theorem takenListing_orders {terms : CreateTerms}
    (hterms : createTerms (sampleListing []) = .ok terms) :
    Quiet (run (World.step flatCrypto) World.start [rowStep 47, takerAccept]) ∧
      (run (World.step flatCrypto) World.start [rowStep 47, takerAccept]).store.orders =
        [takenRow terms] := by
  obtain ⟨hquiet, horders⟩ := run_listed hterms [47] (w := World.start)
    ⟨by decide, fun o ho => by cases ho⟩ (List.nodup_singleton _) (fun o ho => by cases ho)
      (by decide) (by decide)
  rw [List.map_singleton, run_cons, run_nil] at hquiet horders
  rw [run_cons, run_cons, run_nil]
  generalize World.start.step flatCrypto (rowStep 47) = w at hquiet horders ⊢
  have hswept : sweepAll sampleClock w.store.orders = [listedRow terms 47] :=
    (sweepAll_still hquiet.still).trans horders
  have hfree : ∀ x ∈ sweepAll sampleClock w.store.orders,
    x.acceptorIpHash ≠ some (sha256Hex flatCrypto "taker") := by
    intro x hx
    rw [hswept, List.mem_singleton] at hx
    subst hx
    rintro ⟨⟩
  have haccept := accept_takes (E := flatCrypto) takerAccounts (rowRandom 47)
    (by rw [takerAccounts_qrl]; exact sampleQrl_protocol flatCrypto)
      (order?_first hswept) rfl rfl rfl rfl hfree
    (by rw [takerAccounts_eth]; exact requireAddress_sampleEth _)
    (by rw [takerAccounts_qrl]; exact requireAddress_sampleQrl _) rfl rfl
  rw [hswept, map_first fun x hx => by cases hx] at haccept
  have hstep : (w.step flatCrypto takerAccept).store.orders = [takenRow terms] := by
    unfold World.step Book.step
    rw [hquiet.timed rfl]
    exact haccept
  refine ⟨⟨?_, ?_⟩, hstep⟩
  · rw [World.step_clock, hquiet.timed rfl]
    exact le_rfl
  · rw [hstep]
    intro o ho
    obtain rfl := List.mem_singleton.mp ho
    exact takenRow_still terms

theorem Fits.of_other {E : Crypto} {l : List Order} {i : Step}
    (hrelease : ∀ id body, i.call ≠ .release id body)
    (hsigned : ∀ body makerIp, i.call ≠ .createSigned body makerIp) : Fits E l i := by
  constructor
  · intro o _ hrelists
    obtain ⟨body, hcall, -⟩ := hrelists.taker
    exact absurd hcall (hrelease _ _)
  · intro body makerIp hcall
    exact absurd hcall (hsigned _ _)

theorem takerRelease_fits {terms : CreateTerms} {w : World} (hquiet : Quiet w)
    (horders : w.store.orders = [takenRow terms]) :
    Fits flatCrypto w.store.orders (w.timed takerRelease) := by
  constructor
  · rw [hquiet.timed rfl, show takerRelease.now = sampleClock from rfl,
      sweepAll_still hquiet.still, horders]
    intro o ho _
    obtain rfl := List.mem_singleton.mp ho
    have hopened : [takenRow terms].countP isOpen = 0 := rfl
    have hmaker : [takenRow terms].countP
        (isOpenOf (takenRow terms).makerEthAccount (takenRow terms).makerQrlAccount) = 0 := rfl
    constructor
    · rw [hopened]
      decide
    · rw [hmaker]
      decide
  · rintro body makerIp ⟨⟩

theorem takerRelease_token :
    Record.get [("token", .str (hexOf zeroBytes32).val)] "token" =
      some (.str (hexOf zeroBytes32).val) := by
  simp only [Record.get, List.lookup_cons, BEq.rfl]

theorem laterRows_others : ∀ k ∈ laterRows, k ≠ 47 := by decide

theorem relistedListing_orders {terms : CreateTerms}
    (hterms : createTerms (sampleListing []) = .ok terms) :
    (run (World.step flatCrypto) World.start relistedListing).store.orders =
      relist sampleClock (takenRow terms) :: laterRows.map (listedRow terms) := by
  obtain ⟨hquiet, horders⟩ := takenListing_orders hterms
  unfold relistedListing
  rw [run_append, run_append, run_cons, run_nil]
  generalize run (World.step flatCrypto) World.start [rowStep 47, takerAccept] =
    w at hquiet horders ⊢
  have hother : ∀ k ∈ laterRows, (takenRow terms).id ≠ (listedRow terms k).id := fun k hk hid =>
    laterRows_others k hk (listedRow_id_injective terms hid).symm
  have hclosed : [takenRow terms].countP isOpen = 0 := rfl
  have hlater : laterRows.length = 40 := rfl
  obtain ⟨hquiet, hbook⟩ := run_listed hterms laterRows hquiet (by decide)
    (fun o ho k hk => by
      rw [horders, List.mem_singleton] at ho
      subst ho
      exact hother k hk)
    (by rw [horders, hclosed, hlater]) (by rw [horders, hlater, List.length_singleton]; decide)
  rw [horders] at hbook
  generalize run (World.step flatCrypto) w (laterRows.map rowStep) = w at hquiet hbook ⊢
  have hswept :
    sweepAll sampleClock w.store.orders = takenRow terms :: laterRows.map (listedRow terms) :=
    (sweepAll_still hquiet.still).trans hbook
  have hrelease :=
    release_relists (E := flatCrypto) (order?_first hswept) rfl rfl takerRelease_token rfl
  rw [hswept, map_first] at hrelease
  · unfold World.step Book.step
    rw [hquiet.timed rfl]
    exact hrelease
  · intro x hx
    obtain ⟨k, hk, rfl⟩ := List.mem_map.mp hx
    exact (hother k hk).symm

/-- A released listing opens a row beyond the limit of its maker. -/
theorem relistedListing_overfull :
    ¬∀ is, Limits (run (World.step flatCrypto) World.start is).store.orders := by
  intro h
  obtain ⟨terms, hterms⟩ := sampleListing_terms
  have hlimit := (h relistedListing).shelf.maker terms.makerEthAccount terms.makerQrlAccount
  rw [relistedListing_orders hterms] at hlimit
  have hself : ∀ k, isOpenOf terms.makerEthAccount terms.makerQrlAccount (listedRow terms k) =
    true := by
    intro k
    unfold isOpenOf
    rw [Bool.and_eq_true]
    exact ⟨isOpen_listed terms k, sameMaker_self (listedRow terms k)⟩
  have hfirst :
    isOpenOf terms.makerEthAccount terms.makerQrlAccount (relist sampleClock (takenRow terms)) =
      true :=
    hself 47
  have hrest : (laterRows.map (listedRow terms)).countP
    (isOpenOf terms.makerEthAccount terms.makerQrlAccount) =
      (laterRows.map (listedRow terms)).length := by
    rw [List.countP_eq_length]
    intro o ho
    obtain ⟨k, -, rfl⟩ := List.mem_map.mp ho
    exact hself k
  rw [List.countP_cons_of_pos hfirst, hrest, List.length_map] at hlimit
  have hlater : laterRows.length = 40 := rfl
  unfold maxOpenOrdersPerMaker at hlimit
  omega

/-- One listing that is taken and released stays within the limits. -/
theorem run_limits_relisted :
    Limits (run (World.step flatCrypto) World.start [rowStep 47, takerAccept,
      takerRelease]).store.orders := by
  obtain ⟨terms, hterms⟩ := sampleListing_terms
  obtain ⟨hquiet, horders⟩ := takenListing_orders hterms
  have halong : Along (World.step flatCrypto)
    (fun w i => Fits flatCrypto w.store.orders (w.timed i)) World.start
      [rowStep 47, takerAccept, takerRelease] := by
    rw [along_cons, along_cons, along_cons]
    refine ⟨.of_other (by rintro id body ⟨⟩) (by rintro body makerIp ⟨⟩),
      .of_other (by rintro id body ⟨⟩) (by rintro body makerIp ⟨⟩),
        takerRelease_fits hquiet horders, trivial⟩
  exact ((run_limits flatCrypto).1 _ halong).1

end Sample

end QuantaSwap.Book
