import QuantaSwap.Book.Arrivals
import QuantaSwap.Book.Persistence

/-!
# A server restarts on its orders file

The quotas that `load` checks over all rows, and the runs whose file loads.
-/

set_option autoImplicit false

namespace QuantaSwap.Book

open Lib.Js Lib.Text Lib.Checks Lib.Run

/-! ## Quotas -/

def isFederatedPortable (o : Order) : Bool := isPublicPortable o && o.federationSourceHash.isSome

def isPortableFrom (source : Option TokenHash) (o : Order) : Bool :=
  decide (o.federationSourceHash = source) && isFederatedPortable o

/-- The limits on public portable rows. -/
structure Quotas (l : List Order) : Prop where
  portable : l.countP isPublicPortable ≤ maxPublicPortableOrders
  federated : l.countP isFederatedPortable ≤ maxFederatedPublicPortableOrders
  source : ∀ source, l.countP (isPortableFrom source) ≤ maxPublicPortableOrdersPerFederationPeer

/-- A change that the quotas do not see. -/
structure SameQuota (o o' : Order) : Prop where
  portable : isPublicPortable o' = isPublicPortable o
  source : o'.federationSourceHash = o.federationSourceHash

section Quotas

variable {E : Crypto} {now : SafeInt} {i : Step} {l l' : List Order} {o o' : Order}

theorem SameQuota.federated (h : SameQuota o o') :
    isFederatedPortable o' = isFederatedPortable o := by
  rw [isFederatedPortable, isFederatedPortable, h.portable, h.source]

theorem SameQuota.from_eq (h : SameQuota o o') (source : Option TokenHash) :
    isPortableFrom source o' = isPortableFrom source o := by
  rw [isPortableFrom, isPortableFrom, h.federated, h.source]

theorem countP_filterMap_le {α : Type} {p : α → Bool} {f : α → Option α} {l : List α}
    (h : ∀ a ∈ l, ∀ b, f a = some b → p b = true → p a = true) :
    (l.filterMap f).countP p ≤ l.countP p := by
  rw [List.countP_filterMap]
  apply List.countP_mono_left
  intro a ha hany
  cases hb : f a with
  | none => simp [hb] at hany
  | some b => exact h a ha b hb (by simpa [hb] using hany)

theorem Quotas.filterMap {f : Order → Option Order} (h : Quotas l)
    (hsame : ∀ a ∈ l, ∀ b, f a = some b → SameQuota a b) : Quotas (l.filterMap f) where
  portable := (countP_filterMap_le fun a ha b hb hp =>
    (hsame a ha b hb).portable ▸ hp).trans h.portable
  federated := (countP_filterMap_le fun a ha b hb hp =>
    (hsame a ha b hb).federated ▸ hp).trans h.federated
  source := fun source =>
    (countP_filterMap_le fun a ha b hb hp => (hsame a ha b hb).from_eq source ▸ hp).trans
      (h.source source)

theorem Quotas.of_sublist (h : Quotas l) (hsub : l'.Sublist l) : Quotas l' where
  portable := (hsub.countP_le).trans h.portable
  federated := (hsub.countP_le).trans h.federated
  source := fun source => (hsub.countP_le).trans (h.source source)

theorem SameQuota.of_fields (hvisibility : o'.visibility = o.visibility)
    (hauth : o'.makerAuth = o.makerAuth)
    (hintents : o'.fillIntents.isSome = o.fillIntents.isSome)
    (hsource : o'.federationSourceHash = o.federationSourceHash) : SameQuota o o' := by
  refine ⟨?_, hsource⟩
  unfold isPublicPortable usesPortableTerminalProtocol
  rw [hvisibility, hauth, hintents]

theorem sweepOrder_sameQuota (h : sweepOrder now o = some o') : SameQuota o o' := by
  have huses : (o.fillIntents.map (retainedIntents now)).isSome = o.fillIntents.isSome :=
    Option.isSome_map
  rcases sweepOrder_cases h with ⟨rfl, -⟩ | rfl
  · exact .of_fields rfl rfl huses rfl
  · exact .of_fields rfl rfl huses rfl

theorem Change.sameQuota (h : Change E i o o') : SameQuota o o' := by
  cases h with
  | orderConflict verified => exact ⟨rfl, rfl⟩
  | portable hportable h =>
    cases h with
    | fillIntent variant verified kept ipHash =>
      rw [usesPortableTerminalProtocol, Bool.and_eq_true] at hportable
      exact .of_fields rfl rfl hportable.2.symm rfl
    | releaseIntent digest secret intentDigest intent =>
      exact .of_fields rfl rfl Option.isSome_map rfl
    | _ => exact ⟨rfl, rfl⟩
  | legacy hlegacy h => cases h <;> exact ⟨rfl, rfl⟩

theorem countP_snoc_le {α : Type} {p : α → Bool} {l : List α} {a : α} {n : Nat}
    (hle : l.countP p ≤ n)
    (hlt : p a = true → l.countP p < n) : (l ++ [a]).countP p ≤ n := by
  rw [List.countP_append, List.countP_singleton]
  split
  · exact hlt (by assumption)
  · exact hle

theorem Quotas.snoc (h : Quotas l) (hportable : isPublicPortable o = true →
      l.countP isPublicPortable < maxPublicPortableOrders)
    (hfederated : isFederatedPortable o = true →
      l.countP isFederatedPortable < maxFederatedPublicPortableOrders ∧
      l.countP (isPortableFrom o.federationSourceHash) < maxPublicPortableOrdersPerFederationPeer) :
    Quotas (l ++ [o]) where
  portable := countP_snoc_le h.portable hportable
  federated := countP_snoc_le h.federated fun hf => (hfederated hf).1
  source := fun source => countP_snoc_le (h.source source) fun hs => by
    rw [isPortableFrom, Bool.and_eq_true, decide_eq_true_eq] at hs
    exact hs.1 ▸ (hfederated hs.2).2

theorem newOrder_isPublicPortable {origin : Origin} {random : Random} {terms : CreateTerms}
    {listing : Listing}
    {prelock : Option PrelockTerms} {ip : TokenHash} :
    isPublicPortable (newOrder E origin random now terms listing prelock ip) = true ↔
      listing.visibility = .pub ∧ origin.verified.isSome = true := by
  rw [isPublicPortable, Bool.and_eq_true, decide_eq_true_eq]
  simp only [usesPortableTerminalProtocol, newOrder, Option.isSome_map, Bool.and_self]

theorem draftOrder_quotas {body : Record} {makerIp : String} {origin : Origin} {random : Random}
    (h : draftOrder E l now body makerIp origin random = .ok o) (hl : Quotas l) :
    Quotas (l ++ [o]) := by
  simp only [draftOrder, bind_eq_ok, refuse_eq_ok, pure_eq_ok, exists_const] at h
  obtain ⟨_, -, terms, -, _, -, _, -, visibility, -, _, hcapacity, listing, hlisting, prelock, -, -,
    _, -, rfl⟩ := h
  obtain rfl := createListing_visibility hlisting
  simp only [assertPortableCapacity, bind_eq_ok, refuse_eq_ok, exists_const,
    ← List.countP_eq_length_filter, not_and,
    Nat.not_le] at hcapacity
  obtain ⟨hportable, hfederated⟩ := hcapacity
  refine hl.snoc ?_ ?_
  · intro hp
    obtain ⟨hpub, hsome⟩ := newOrder_isPublicPortable.mp hp
    exact hportable hsome hpub
  · intro hf
    rw [isFederatedPortable, Bool.and_eq_true, newOrder_isPublicPortable] at hf
    obtain ⟨⟨hpub, -⟩, hsource⟩ := hf
    cases origin with
    | legacy => cases hsource
    | signed verified capabilities => cases hsource
    | federated verified source =>
      rw [hpub] at hfederated
      simp only [bind_eq_ok, refuse_eq_ok, exists_const, List.countP_filter, Nat.not_le]
        at hfederated
      exact hfederated

/-- One call keeps the quotas. -/
theorem Effects.quotas (h : Effects E i l l') (hids : (l.map Order.id).Nodup) (hl : Quotas l) :
    Quotas l' := by
  refine h.ends (P := fun l => (l.map Order.id).Nodup ∧ Quotas l) (Q := Quotas) ?_ ?_ ⟨hids, hl⟩
  · rintro l ⟨hids, hl⟩
    exact ⟨(sweepAll_ids i.now l).nodup hids, hl.filterMap fun a _ b hb => sweepOrder_sameQuota hb⟩
  · rintro l l' ⟨hids, hl⟩ (rfl | hwrite)
    · exact hl
    · cases hwrite with
      | create body makerIp origin o hasked hdraft => exact draftOrder_quotas hdraft hl
      | change o f hmem hchange =>
        rw [← List.filterMap_eq_map]
        refine hl.filterMap ?_
        intro a ha b hb
        obtain rfl := Option.some.inj hb
        dsimp only
        split
        · rename_i hid
          rw [List.inj_on_of_nodup_map hids ha hmem hid]
          exact hchange.sameQuota
        · exact ⟨rfl, rfl⟩

end Quotas

/-! ## Loading row after row -/

section Load

variable {E : Crypto} {now : SafeInt} {l loaded : List Order} {o : Order}

/-- A book whose rows `load` takes together. -/
structure Loadable (l : List Order) : Prop where
  ids : (l.map Order.id).Nodup
  hashlocks : l.Pairwise HashlocksApart
  quotas : Quotas l

theorem Loadable.of_sublist {l' : List Order} (h : Loadable l) (hsub : l'.Sublist l) :
    Loadable l' :=
  ⟨(hsub.map _).nodup h.ids, h.hashlocks.sublist hsub, h.quotas.of_sublist hsub⟩

/-- Within the quotas a row is refused only for the id or the hashlock of an earlier one. -/
theorem assertLoadable_error {e : Thrown} (hquotas : Quotas (loaded ++ [o]))
    (h : assertLoadable loaded o = .error e) :
    ((∃ existing ∈ loaded, (existing : Order).id = o.id) ∧
      e = .error ("order data file contains duplicate id " ++ o.id.val)) ∨
    ((o.hashlock ≠ none ∧ o.status ≠ .cancelled ∧
        ∃ existing ∈ loaded, (existing : Order).status ≠ .cancelled ∧
        existing.hashlock = o.hashlock) ∧
      ∃ hashlock : Hashlock,
        e = .error ("order data file contains duplicate live hashlock " ++ hashlock.val)) := by
  unfold assertLoadable at h
  rw [bind_eq_error] at h
  rcases h with h | ⟨_, -, h⟩
  · rw [refuse_eq_error] at h
    exact .inl ⟨h.1, h.2.symm⟩
  rw [bind_eq_error] at h
  rcases h with h | ⟨_, -, h⟩
  · rw [refuse_eq_error] at h
    obtain ⟨hashlock, hhashlock⟩ := Option.ne_none_iff_exists'.mp h.1.1
    rw [hhashlock] at h ⊢
    exact .inr ⟨h.1, hashlock, h.2.symm⟩
  exfalso
  have hportable : ¬maxPublicPortableOrders < ((loaded ++ [o]).filter isPublicPortable).length := by
    rw [← List.countP_eq_length_filter]
    exact Nat.not_lt.mpr hquotas.portable
  have hfederated : ¬maxFederatedPublicPortableOrders <
      ((loaded ++ [o]).filter fun x => isPublicPortable x &&
        x.federationSourceHash.isSome).length := by
    rw [← List.countP_eq_length_filter]
    exact Nat.not_lt.mpr hquotas.federated
  have hsource : ¬maxPublicPortableOrdersPerFederationPeer <
      (((loaded ++ [o]).filter fun x => isPublicPortable x && x.federationSourceHash.isSome).filter
        fun x => decide (x.federationSourceHash = o.federationSourceHash)).length := by
    rw [← List.countP_eq_length_filter, List.countP_filter]
    exact Nat.not_lt.mpr (hquotas.source o.federationSourceHash)
  -- The three counts decide the remaining checks.
  split at h
  · simp only [refuse, if_neg hportable, ok_bind] at h
    split at h
    · cases h
    · cases h
  · cases h

theorem assertLoadable_ok (h : Loadable (loaded ++ [o])) : assertLoadable loaded o = .ok ⟨⟩ := by
  have hids := h.ids
  rw [List.map_append, List.nodup_append] at hids
  cases hcheck : assertLoadable loaded o with
  | ok _ => rfl
  | error e =>
    exfalso
    rcases assertLoadable_error h.quotas hcheck with ⟨⟨existing, hmem, heq⟩,
      -⟩ | ⟨⟨hsome, hlive, existing, hmem, hlive', heq⟩, -⟩
    · exact hids.2.2 _ (List.mem_map_of_mem hmem) _ (List.mem_singleton.mpr rfl) heq
    · have hapart :=
        (List.pairwise_append.mp h.hashlocks).2.2 existing hmem o (List.mem_singleton.mpr rfl)
      exact hapart hlive' hlive (heq ▸ hsome) heq

theorem loadRows_ok (h : Loadable (loaded ++ l))
    (hread : ∀ o ∈ l, ∀ index, hydratePersistedOrder E now o.toJson index = .ok o) :
    loadRows E now loaded (l.map Order.toJson) = .ok (loaded ++ l) := by
  induction l generalizing loaded with
  | nil =>
    rw [List.append_nil]
    rfl
  | cons o l ih =>
    have hcons : loaded ++ o :: l = (loaded ++ [o]) ++ l := by simp
    have hrow : Loadable (loaded ++ [o]) := h.of_sublist (hcons ▸ List.sublist_append_left _ _)
    rw [List.map_cons, loadRows, hread o List.mem_cons_self, ok_bind,
      assertLoadable_ok hrow, ok_bind,
      ih (hcons ▸ h) fun x hx => hread x (List.mem_cons_of_mem _ hx), hcons]

theorem load_ok {s : Store} (h : Loadable s.orders)
    (hread : ∀ o ∈ s.orders, ∀ index, hydratePersistedOrder E now o.toJson index = .ok o) :
    ∃ s', load E now (writeSnapshot s) = .ok s' ∧ s'.orders = s.orders := by
  have hrows : loadRows E now [] (s.orders.map Order.toJson) = .ok s.orders := loadRows_ok h hread
  unfold load writeSnapshot asArray
  rw [orThrow, ok_bind, hrows, ok_bind]
  exact ⟨_, rfl, rfl⟩

end Load

/-! ## Runs whose file loads -/

/-- The initiator timeout that an unsigned call brings. -/
def Call.legacyTimeout? : Call → Option Int
  | .create body _ => (asRecord (body.get "prelock")).bind fun p =>
    asInteger (p.get "initiatorTimeout")
  | .announceHashlock _ body => asInteger (body.get "initiatorTimeout")
  | _ => none

/-- The call brings no shared hashlock, no terminal of a conflicting variant, no
unsigned timeout beyond the safe integers, and no address that reads as a peer. -/
structure Reloading (E : Crypto) (l : List Order) (c : Call) : Prop where
  hashlock : FreshHashlock l c
  terminal : PrimaryTerminal l c
  timeout : ∀ t ∈ c.legacyTimeout?, t ≤ maxSafeInteger
  address : ∀ body makerIp, c = .createSigned body makerIp →
    sha256Hex E makerIp ≠ sha256Hex E "federation"

/-- A row that reads back. -/
structure Reloads (E : Crypto) (now : SafeInt) (o : Order) : Prop where
  wellformed : Wellformed o
  timeouts : SafeTimeouts o
  kind : Legacy o ∨ ∃ v, SignedRow E now v o ∧ Proven E now v o ∧ KnownSource E o

section Reloads

variable {E : Crypto} {now now' : SafeInt} {i : Step} {l : List Order} {o o' : Order}

theorem isSafe_safeInt (n : SafeInt) : IsSafe n.val :=
  ⟨Int.natCast_nonneg _, Int.ofNat_le.mpr n.property⟩

theorem announcedTerms_safe {body : Record} {terms : Hashlock × Int × Int}
    (h : announcedTerms now o body = .ok terms)
    (htimeout : ∀ t ∈ asInteger (body.get "initiatorTimeout"), t ≤ maxSafeInteger) :
    IsSafe terms.2.1 ∧ IsSafe terms.2.2 := by
  simp only [announcedTerms, bind_eq_ok, orThrow_eq_ok, refuse_eq_ok, pure_eq_ok, exists_const,
    Int.not_le,
    Int.not_lt] at h
  obtain ⟨hashlock, -, t1, ht1, t2, -, -, -, hsoon, htwice, rfl⟩ := h
  have hle := htimeout t1 ht1
  have hnow := Int.natCast_nonneg now.val
  have hsafe : ((maxSafeInteger : Nat) : Int) < 2 ^ 53 := by decide
  -- A difference beyond 53 bits would put the initiator's timeout beyond them too.
  have hresponder : t2 - now.val < 2 ^ 53 := by
    by_contra hlarge
    have hbig := le_roundDouble (Int.not_lt.mp hlarge)
    have hfirst : 2 ^ 53 ≤ roundDouble (t1 - now.val) := by omega
    rcases Int.le_total (t1 - now.val) 0 with hneg | hpos
    · have := roundDouble_nonpos hneg
      omega
    · rw [roundDouble_of_lt hpos (by omega)] at hfirst
      omega
  rw [roundDouble_of_lt (by omega) hresponder] at htwice
  have hpos : 0 < t1 - now.val := by
    by_contra hneg
    have := roundDouble_nonpos (Int.not_lt.mp hneg)
    omega
  rw [roundDouble_of_lt (Int.le_of_lt hpos) (by omega)] at htwice
  constructor
  · refine ⟨?_, hle⟩
    dsimp only
    omega
  · refine ⟨?_, ?_⟩ <;> dsimp only <;> omega

theorem SafeTimeouts.sweep (h : SafeTimeouts o) (hsweep : sweepOrder now o = some o') :
    SafeTimeouts o' := by
  rcases sweepOrder_cases hsweep with ⟨rfl, -⟩ | rfl
  · exact h
  · exact h

theorem SafeTimeouts.change (h : SafeTimeouts o)
    (htimeout : ∀ t ∈ i.call.legacyTimeout?, t ≤ maxSafeInteger)
    (hchange : Change E i o o') : SafeTimeouts o' := by
  cases hchange with
  | orderConflict verified => exact h
  | portable hportable hchange =>
    cases hchange with
    | fill raw variant intent fill =>
      constructor
      · rintro z ⟨⟩
        exact isSafe_safeInt _
      · rintro z ⟨⟩
        exact isSafe_safeInt _
    | _ => exact h
  | legacy hlegacy hchange =>
    cases hchange with
    | announce body terms hcall hterms =>
      have hbody : i.call.legacyTimeout? = asInteger (body.get "initiatorTimeout") := by
        unfold Call.announcement? at hcall
        split at hcall
        · rename_i heq
          cases hcall
          rw [heq]
          rfl
        · cases hcall
      obtain ⟨h1, h2⟩ := announcedTerms_safe hterms (hbody ▸ htimeout)
      constructor
      · rintro z ⟨⟩
        exact h1
      · rintro z ⟨⟩
        exact h2
    | _ => exact h

theorem createPrelock_safe {body : Record} {terms : Option PrelockTerms}
    (h : createPrelock l body false now = .ok terms)
    (htimeout : ∀ t ∈ (asRecord (body.get "prelock")).bind fun p =>
      asInteger (p.get "initiatorTimeout"),
      t ≤ maxSafeInteger) : ∀ p ∈ terms, IsSafe p.initiatorTimeout := by
  unfold createPrelock at h
  split at h
  · cases h
    rintro p ⟨⟩
  · rename_i raw hraw
    simp only [bind_eq_ok, orThrow_eq_ok, refuse_eq_ok, pure_eq_ok, exists_const, true_and,
      Int.not_lt] at h
    obtain ⟨row, hrow, hashlock, -, timeout, hread, hsoon, -, -, rfl⟩ := h
    rintro p ⟨⟩
    refine ⟨?_, htimeout timeout ?_⟩
    · dsimp only
      omega
    · rw [hraw, hrow]
      exact hread

theorem draftOrder_safeTimeouts {body : Record} {makerIp : String} {origin : Origin}
    (hasked : Asked E i body makerIp origin)
    (htimeout : ∀ t ∈ i.call.legacyTimeout?, t ≤ maxSafeInteger)
    (h : draftOrder E l i.now body makerIp origin i.random = .ok o) : SafeTimeouts o := by
  simp only [draftOrder, bind_eq_ok, refuse_eq_ok, pure_eq_ok, exists_const] at h
  obtain ⟨_, -, terms, -, _, -, _, -, visibility, -, _, -, listing, -, prelock, hprelock, -, _,
    -, rfl⟩ := h
  have hsigned {v : VerifiedOrderV1} {federated : Bool}
    (hv : createPrelock l v.order.record federated i.now =
      .ok prelock) : ∀ p ∈ prelock, IsSafe p.initiatorTimeout := by
    rw [createPrelock_record hv]
    intro p hp
    obtain ⟨signed, -, rfl⟩ := Option.map_eq_some_iff.mp hp
    exact isSafe_safeInt signed.initiatorTimeout
  have hsafe : ∀ p ∈ prelock, IsSafe p.initiatorTimeout := by
    cases hasked with
    | legacy body makerIp hcall =>
      rw [hcall] at htimeout
      exact createPrelock_safe hprelock htimeout
    | signed body makerIp verified capabilities => exact hsigned hprelock
    | federated payload source verified => exact hsigned hprelock
  constructor
  · intro z hz
    obtain ⟨p, hp, rfl⟩ := Option.map_eq_some_iff.mp hz
    exact hsafe p hp
  · rintro z ⟨⟩

theorem KnownSource.change (h : KnownSource E o) (hchange : Change E i o o') :
    KnownSource E o' := by
  cases hchange with
  | orderConflict verified => exact h
  | portable hportable hchange => cases hchange <;> exact h
  | legacy hlegacy hchange => cases hchange <;> exact h

theorem KnownSource.sweep (h : KnownSource E o) (hsweep : sweepOrder now o = some o') :
    KnownSource E o' := by
  rcases sweepOrder_cases hsweep with ⟨rfl, -⟩ | rfl
  · exact h
  · exact h

theorem Reloads.later (h : Reloads E now o) (hnow : now.val ≤ now'.val) : Reloads E now' o := by
  refine ⟨h.wellformed, h.timeouts, ?_⟩
  rcases h.kind with hlegacy | ⟨v, hrow, hproven, hsource⟩
  · exact .inl hlegacy
  · exact .inr ⟨v, hrow.later hnow, hproven.later hnow, hsource⟩

theorem Reloads.sweep (h : Reloads E now o) (hsweep : sweepOrder now o = some o') :
    Reloads E now o' := by
  refine ⟨h.wellformed.sweep hsweep, h.timeouts.sweep hsweep, ?_⟩
  rcases h.kind with hlegacy | ⟨v, hrow, hproven, hsource⟩
  · exact .inl (hlegacy.sweep hsweep)
  · exact .inr ⟨v, hrow.sweep hsweep, hproven.sweep hsweep, hsource.sweep hsweep⟩

/-- The terminal that the call presents for this order is for the order itself. -/
def PrimaryFor (c : Call) (o : Order) : Prop :=
  ∀ digest, c.terminal? = some (o.id.val, digest) →
    digest ∉ o.orderConflicts.map OrderConflictEvidence.orderDigest

theorem PrimaryFor.sweep {c : Call} (h : PrimaryFor c o) (hsweep : sweepOrder now o = some o') :
    PrimaryFor c o' := by
  rcases sweepOrder_cases hsweep with ⟨rfl, -⟩ | rfl
  · exact h
  · exact h

theorem Reloads.change (hcol : CollisionFree E) (h : Reloads E i.now o)
    (htimeout : ∀ t ∈ i.call.legacyTimeout?, t ≤ maxSafeInteger) (hprimary : PrimaryFor i.call o)
    (hchange : Change E i o o') : Reloads E i.now o' := by
  refine ⟨h.wellformed.change hchange, h.timeouts.change htimeout hchange, ?_⟩
  rcases h.kind with hlegacy | ⟨v, hrow, hproven, hsource⟩
  · left
    cases hchange with
    | orderConflict verified hproof hopen hpublic hid => exact absurd hid (hlegacy.id_ne _)
    | portable hportable => exact absurd hportable (by simp [hlegacy.uses])
    | legacy _ hchange => exact hlegacy.change hchange
  · exact .inr ⟨v, hrow.change hchange, hproven.change hcol hrow hprimary hchange,
      hsource.change hchange⟩

theorem Reloads.draft {body : Record} {makerIp : String} {origin : Origin}
    (hasked : Asked E i body makerIp origin)
    (hreloading : Reloading E l i.call) {l' : List Order}
    (h : draftOrder E l' i.now body makerIp origin i.random = .ok o) : Reloads E i.now o := by
  refine ⟨draftOrder_wellformed h, draftOrder_safeTimeouts hasked hreloading.timeout h, ?_⟩
  have hempty {v : VerifiedOrderV1} : Proven E i.now v o := by
    simp only [draftOrder, bind_eq_ok, refuse_eq_ok, pure_eq_ok, exists_const] at h
    obtain ⟨_, -, terms, -, _, -, _, -, visibility, -, _, -, listing, -, prelock, -, -, _,
      -, rfl⟩ := h
    exact .of_empty rfl rfl rfl rfl
  cases hasked with
  | legacy => exact .inl (draftOrder_legacy h)
  | signed body makerIp verified capabilities hcall hverified =>
    obtain ⟨hproof, hopen⟩ := verifyOrderV1_proof hverified
    refine .inr ⟨verified, draftOrder_signed rfl hproof hopen h, hempty, ?_⟩
    simp only [draftOrder, bind_eq_ok, refuse_eq_ok, pure_eq_ok, exists_const] at h
    obtain ⟨_, -, terms, -, _, -, _, -, visibility, -, _, -, listing, -, prelock, -, -, _,
      -, rfl⟩ := h
    intro _ hcreator
    exact hreloading.address body makerIp hcall (Option.some.inj hcreator)
  | federated payload source verified hcall hverified hpublic =>
    obtain ⟨hproof, hopen⟩ := verifyOrderV1_proof hverified
    refine .inr ⟨verified, draftOrder_signed rfl hproof hopen h, hempty, ?_⟩
    simp only [draftOrder, bind_eq_ok, refuse_eq_ok, pure_eq_ok, exists_const] at h
    obtain ⟨_, -, terms, -, _, -, _, -, visibility, -, _, -, listing, -, prelock, -, -, _,
      -, rfl⟩ := h
    rintro ⟨⟩

theorem Reloads.read (h : Reloads E now o) (index : Nat) :
    hydratePersistedOrder E now o.toJson index = .ok o := by
  rcases h.kind with hlegacy | ⟨v, hrow, hproven, hsource⟩
  · exact hydratePersistedOrder_legacy index h.wellformed h.timeouts hlegacy
  · exact hydratePersistedOrder_signed index h.wellformed h.timeouts hsource hrow hproven

end Reloads

/-- The book of a run whose orders file loads. -/
structure Readable (E : Crypto) (w : World) : Prop where
  ids : (w.store.orders.map Order.id).Nodup
  hashlocks : LiveHashlocksUnique w.store.orders
  quotas : Quotas w.store.orders
  rows : ∀ o ∈ w.store.orders, Reloads E w.clock o

/-- What the run asks of a call that changes a row. -/
def ReloadingWrites (E : Crypto) (w : World) (i : Step) : Prop :=
  w.Writes E i → Reloading E w.store.orders i.call

theorem Readable.writes {E : Crypto} {w : World} {i : Step} (hcol : CollisionFree E)
    (h : Readable E w)
    (hreloading : Reloading E w.store.orders i.call) : Readable E (w.step E i) := by
  have heffects := w.step_effects E i
  refine ⟨heffects.ids h.ids, heffects.liveHashlocksUnique h.ids h.hashlocks hreloading.hashlock,
    heffects.quotas h.ids h.quotas, ?_⟩
  refine heffects.forall_mem (P := fun o => Reloads E (w.timed i).now o ∧
    PrimaryFor i.call o) h.ids ?_
    (fun o h => h.1)
      (fun l body makerIp origin o hasked hdraft => Reloads.draft hasked hreloading hdraft) ?_ ?_
  · rintro o o' ⟨hreloads, hprimary⟩ hsweep
    exact ⟨hreloads.sweep hsweep, hprimary.sweep hsweep⟩
  · rintro o o' ⟨hreloads, hprimary⟩ hchange
    exact hreloads.change hcol hreloading.timeout hprimary hchange
  · intro o ho
    exact ⟨(h.rows o ho).later (w.clock_le_timed i),
      fun digest hcall => hreloading.terminal _ digest hcall o ho rfl⟩

theorem Readable.step {E : Crypto} {w : World} {i : Step} (hcol : CollisionFree E)
    (h : Readable E w)
    (hreloading : ReloadingWrites E w i) : Readable E (w.step E i) := by
  by_cases hwrites : w.Writes E i
  · exact h.writes hcol (hreloading hwrites)
  have heffects := w.step_effects E i
  have hrows : ∀ o ∈ w.store.orders, Reloads E (w.timed i).now o :=
    fun o ho => (h.rows o ho).later (w.clock_le_timed i)
  refine ⟨heffects.ids h.ids,
    World.step_liveHashlocksUnique h.ids h.hashlocks fun hw => absurd hw hwrites,
    heffects.quotas h.ids h.quotas, ?_⟩
  rcases World.orders_of_not_writes hwrites with horders | horders
  · rw [horders]
    exact hrows
  · rw [horders]
    intro o' ho'
    obtain ⟨o, ho, hsweep⟩ := mem_sweepAll.mp ho'
    exact (hrows o ho).sweep hsweep

/-- At any later time the orders file of such a run loads, with the orders that were saved. -/
theorem run_reloads {E : Crypto} (hcol : CollisionFree E) (is : List Step)
    (h : Along (World.step E) (ReloadingWrites E) World.start is) (now : SafeInt)
    (hnow : (run (World.step E) World.start is).clock.val ≤ now.val) :
    ∃ s, load E now (writeSnapshot (run (World.step E) World.start is).store) = .ok s ∧
      s.orders = (run (World.step E) World.start is).store.orders := by
  have hstart : Readable E World.start :=
    ⟨List.nodup_nil, fun a ha => absurd ha List.not_mem_nil,
      ⟨Nat.zero_le _, Nat.zero_le _, fun _ => Nat.zero_le _⟩,
      fun o ho => absurd ho List.not_mem_nil⟩
  have hreadable := invariant_of_along (I := Readable E) (fun w i hw hi => hw.step hcol hi) h hstart
  refine load_ok ⟨hreadable.ids, pairwise_hashlocksApart hreadable.ids hreadable.hashlocks,
    hreadable.quotas⟩ ?_
  intro o ho index
  exact ((hreadable.rows o ho).later hnow).read index

/-! ## A swap of each kind -/

section Sample

/-- The book after an unsigned swap was announced. -/
def announcedBook : World :=
  run (World.step swapCrypto) World.start (sampleSwap otherHashlock 1020000 1003600)

set_option maxRecDepth 10000 in
theorem announcedBook_computed : announcedBook.clock = sampleClock ∧
    (sweepAll sampleClock announcedBook.store.orders).map (fun o => (o.makerAuth, o.hashlock)) =
      [(none, some otherHashlock)] ∧
    (∀ o ∈ (run (World.step swapCrypto) World.start
      ((sampleSwap otherHashlock 1020000 1003600).take 2)).store.orders,
        o.id.val = (sampleRandom 'a' lowerHex_a).id.val) ∧
    (draftOrder swapCrypto
      (sweepAll sampleClock announcedBook.store.orders) sampleClock sampleOrder.record
      ("federation:" ++ "peer") (.federated swapSigned "peer") (sampleRandom 'a' lowerHex_a)).isOk =
        true := by
  decide +kernel

theorem announcedBook_kept : ∃ o ∈ sweepAll sampleClock announcedBook.store.orders,
    o.makerAuth = none ∧ o.hashlock = some otherHashlock := by
  obtain ⟨o, hrow, hpair⟩ := List.map_eq_singleton_iff.mp announcedBook_computed.2.1
  rw [Prod.mk.injEq] at hpair
  exact ⟨o, hrow ▸ List.mem_singleton_self o, hpair⟩

theorem reloading_idle {E : Crypto} {l : List Order} {c : Call} (hhashlock : c.hashlock? = none)
    (hterminal : c.terminal? = none) (htimeout : c.legacyTimeout? = none)
    (hcall : ∀ body makerIp, c ≠ .createSigned body makerIp) : Reloading E l c where
  hashlock id hashlock h := by
    rw [hhashlock] at h
    cases h
  terminal id digest h := by
    rw [hterminal] at h
    cases h
  timeout t ht := by
    rw [htimeout] at ht
    cases ht
  address body makerIp h := absurd h (hcall body makerIp)

theorem sampleSwap_reloading :
    Along (World.step swapCrypto) (ReloadingWrites swapCrypto) World.start
    (sampleSwap otherHashlock 1020000 1003600) := by
  refine ⟨fun _ => reloading_idle rfl rfl (by decide +kernel) fun _ _ h => (by cases h),
    fun _ => reloading_idle rfl rfl rfl fun _ _ h => (by cases h),
      fun _ => ⟨?_, ?_, ?_, ?_⟩, trivial⟩
  · rintro id hashlock hcall ⟨o, ho, hother, -⟩
    have hown : id = (sampleRandom 'a' lowerHex_a).id.val :=
      (congrArg Prod.fst
        (Option.some.inj ((sampleAnnouncement_hashlock _ _ _ _).symm.trans hcall))).symm
    exact hother ((announcedBook_computed.2.2.1 o ho).trans hown.symm)
  · intro id digest hcall
    cases hcall
  · intro t ht
    cases ht
    decide
  · intro body makerIp hcall
    cases hcall

theorem swapFill_reloading {l : List Order} {o : Order} {s : Store} (hs : EndsIn sampleClock l o s)
    (h : Standing swapCrypto sampleClock swapSigned o)
    (hl : ∀ x ∈ l, x.hashlock ≠ some sampleHashlock) :
    Reloading swapCrypto s.orders
      (.applyFederationEvent (fillEvent o swapVerifiedFill (swapProposal 1)) "peer") := by
  have hfill := fillEvent_fill? o swapVerifiedFill (swapProposal 1) "peer"
  have hown : ∀ x ∈ s.orders, x.id = o.id → x = o := fun x hx hid =>
    List.inj_on_of_nodup_map hs.ids hx
      (hs.orders ▸ List.mem_append_right _ (List.mem_singleton_self o)) hid
  refine ⟨?_, ?_, ?_, ?_⟩
  · rintro id hashlock hcall ⟨x, hx, hother, -, hcarried⟩
    rw [fill?_hashlock hfill, Option.some.injEq, Prod.mk.injEq] at hcall
    obtain ⟨rfl, rfl⟩ := hcall
    rw [hs.orders, List.mem_append, List.mem_singleton] at hx
    rcases hx with hx | rfl
    · exact hl x hx hcarried
    · exact hother rfl
  · intro id digest hcall x hx hid hmem
    unfold Call.terminal? at hcall
    rw [hfill, Option.map_some, Option.some_or, Option.some.injEq, Prod.mk.injEq] at hcall
    obtain rfl := hown x hx (Subtype.ext (hid.trans hcall.1.symm))
    rw [h.conflicts] at hmem
    cases hmem
  · intro t ht
    cases ht
  · intro body makerIp hcall
    cases hcall

theorem swap_reloading :
    ∃ is o, Along (World.step swapCrypto) (ReloadingWrites swapCrypto) World.start is ∧
    (run (World.step swapCrypto) World.start is).clock = sampleClock ∧
    (run (World.step swapCrypto) World.start is).store.orders =
      sweepAll sampleClock announcedBook.store.orders ++ [o] ∧
    o.makerAuth.isSome = true ∧ o.intents.length = 1 ∧ o.fill.isSome = true := by
  obtain ⟨hclock, hrows, -, hroom⟩ := announcedBook_computed
  obtain ⟨o₀, hdraft⟩ := eq_ok_of_isOk hroom
  obtain ⟨s₀, hstep₀, hs₀, ho₀, -⟩ := swap_listed (w := announcedBook) (hclock ▸ Nat.le_refl _)
    (run_ids swapCrypto _) rfl hdraft
  obtain ⟨s₁, o₁, hstep₁, hs₁, ho₁, -⟩ := swap_proposed (k := 1) hs₀ ho₀ (by decide)
    (fun _ h => absurd h List.not_mem_nil) (by decide)
  obtain ⟨s₂, hstep₂, hs₂⟩ := swap_filled hs₁ ho₁.toStanding (swap_retained ho₁.intents)
  have hforeign :
    ∀ x ∈ sweepAll sampleClock announcedBook.store.orders, x.hashlock ≠ some sampleHashlock := by
    intro x hx hcarried
    have hpair := List.mem_map_of_mem (f := fun o => (o.makerAuth, o.hashlock)) hx
    rw [hrows, List.mem_singleton, Prod.mk.injEq, hcarried] at hpair
    exact absurd hpair.2 (by decide +kernel)
  have hrun : run (World.step swapCrypto) announcedBook [arrival sampleClock
    (orderEvent sampleOrder.record swapAuth),
      arrival sampleClock (fillIntentEvent o₀ (swapProposal 1)),
      arrival sampleClock (fillEvent o₁ swapVerifiedFill (swapProposal 1))] =
        ⟨s₂, sampleClock⟩ := by
    rw [run_cons, hstep₀, run_cons, hstep₁, run_cons, hstep₂, run_nil]
  refine ⟨sampleSwap otherHashlock 1020000 1003600 ++
    [arrival sampleClock (orderEvent sampleOrder.record swapAuth),
    arrival sampleClock (fillIntentEvent o₀ (swapProposal 1)),
    arrival sampleClock (fillEvent o₁ swapVerifiedFill (swapProposal 1))],
    recordFill sampleClock swapVerifiedFill
      (selectedSource swapCrypto sampleClock o₁ (swapProposal 1)) o₁,
    ?_, ?_, ?_, ?_, ?_, ?_⟩
  · refine (along_append _ _ _ _).mpr ⟨sampleSwap_reloading, ?_, ?_, ?_, trivial⟩
    · exact fun _ => reloading_idle rfl rfl rfl fun _ _ h => (by cases h)
    · exact fun _ => reloading_idle rfl rfl rfl fun _ _ h => (by cases h)
    · intro _
      change Reloading swapCrypto
        (World.step swapCrypto (World.step swapCrypto announcedBook _) _).store.orders _
      rw [hstep₀, hstep₁]
      exact swapFill_reloading hs₁ ho₁.toStanding hforeign
  · rw [run_append]
    exact congrArg World.clock hrun
  · rw [run_append]
    exact (congrArg (fun w => w.store.orders) hrun).trans hs₂.orders
  · exact congrArg Option.isSome ho₁.portable.auth
  · exact congrArg List.length ho₁.intents
  · rfl

/-- The announced swap and the filled order read back. -/
theorem run_reloads_swaps : ∃ is s, load swapCrypto sampleClock
      (writeSnapshot (run (World.step swapCrypto) World.start is).store) = .ok s ∧
    s.orders = (run (World.step swapCrypto) World.start is).store.orders ∧
    (∃ o ∈ s.orders, o.makerAuth = none ∧ o.hashlock = some otherHashlock) ∧
    ∃ o ∈ s.orders, o.makerAuth.isSome = true ∧ o.intents.length = 1 ∧ o.fill.isSome = true := by
  obtain ⟨is, o, halong, hclock, horders, hauth, hintents, hfill⟩ := swap_reloading
  obtain ⟨s, hload, hrows⟩ :=
    run_reloads swapCrypto_collisionFree is halong sampleClock (hclock ▸ Nat.le_refl _)
  have hmem : ∀ x ∈ sweepAll sampleClock announcedBook.store.orders ++ [o], x ∈ s.orders := by
    intro x hx
    rw [hrows, horders]
    exact hx
  obtain ⟨y, hy, hnone, hannounced⟩ := announcedBook_kept
  exact ⟨is, s, hload, hrows, ⟨y, hmem y (List.mem_append_left _ hy), hnone, hannounced⟩,
    o, hmem o (List.mem_append_right _ (List.mem_singleton_self o)), hauth, hintents, hfill⟩

end Sample

set_option maxRecDepth 10000 in
/-- An announced timeout beyond the safe integers is saved, and the file does not load. -/
theorem unsafeTimeout_not_reloaded :
    (load flatCrypto sampleClock (writeSnapshot (run (World.step flatCrypto)
    World.start (sampleSwap sampleHashlock (2 ^ 60) 1003600)).store)).isOk = false := by
  decide +kernel

end QuantaSwap.Book
