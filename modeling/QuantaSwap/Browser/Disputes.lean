import QuantaSwap.Browser.Mirror

/-!
# What the combined book says of a disputed order

An order that two rows of valid snapshots sign with different digests is listed in no variant. What
is listed, quarantined and dropped does not depend on the order of the mirrors.
-/

set_option autoImplicit false

namespace QuantaSwap.Browser

open Lib

/-! ## Candidates of one id -/

/-- Two signed variants of one id. -/
def Contested (cs : List SignedCandidate) (id : String) : Prop :=
  ∃ c ∈ cs, ∃ c' ∈ cs, c.order.id = id ∧ c'.order.id = id ∧ c.digest ≠ c'.digest

/-- All signed rows of the id have this digest, and there is one. -/
def Sole (cs : List SignedCandidate) (id digest : String) : Prop :=
  (∃ c ∈ cs, c.order.id = id) ∧ ∀ c ∈ cs, c.order.id = id → c.digest = digest

def ofId (cs : List SignedCandidate) (id : String) : List SignedCandidate :=
  cs.filter fun c => c.order.id = id

variable {cs cs' : List SignedCandidate} {id digest : String} {o : OrderView}

theorem mem_ofId {c : SignedCandidate} : c ∈ ofId cs id ↔ c ∈ cs ∧ c.order.id = id := by
  simp [ofId]

theorem foldl_snoc {α : Type} (l acc : List α) : l.foldl (fun l c => l ++ [c]) acc = acc ++ l := by
  induction l generalizing acc with
  | nil => rw [List.foldl_nil, List.append_nil]
  | cons c l ih => rw [List.foldl_cons, ih, List.append_assoc, List.singleton_append]

/-- The variants that the candidates of one id come to. -/
def variantsOf : List SignedCandidate → Variants :=
  Keyed.gather SignedCandidate.digest fun found c => found.getD [] ++ [c]

theorem get_variantsOf {v : List SignedCandidate} :
    (variantsOf cs).get digest = some v ↔
      (∃ c ∈ cs, c.digest = digest) ∧ v = cs.filter fun c => c.digest = digest := by
  unfold variantsOf
  rw [Keyed.get_gather_getD (f := fun l c => l ++ [c]), foldl_snoc, List.nil_append]

theorem mem_keys_variantsOf : digest ∈ (variantsOf cs).keys ↔ ∃ c ∈ cs, c.digest = digest :=
  Keyed.mem_keys_gather_getD (f := fun l c => l ++ [c])

theorem get_signed {v : Variants} :
    (signed cs).get id = some v ↔ (∃ c ∈ cs, c.order.id = id) ∧ v = variantsOf (ofId cs id) :=
  Keyed.get_gather_getD (f := Variants.add)

theorem entries_variantsOf {v : List SignedCandidate} :
    (variantsOf cs).entries = [(digest, v)] ↔ cs ≠ [] ∧ (∀ c ∈ cs, c.digest = digest) ∧ v = cs := by
  constructor
  · intro hentries
    have hkeys := Keyed.exists_entries_eq_singleton.mp ⟨v, hentries⟩
    have hall : ∀ c ∈ cs, c.digest = digest := fun c hc =>
      (hkeys c.digest).mp (mem_keys_variantsOf.mpr ⟨c, hc, rfl⟩)
    have hmem : (digest, v) ∈ (variantsOf cs).entries := by
      rw [hentries]
      exact List.mem_singleton_self _
    obtain ⟨⟨c, hc, -⟩, hv⟩ := get_variantsOf.mp (Keyed.mem_entries.mp hmem)
    refine ⟨List.ne_nil_of_mem hc, hall, ?_⟩
    rw [hv, List.filter_eq_self]
    intro c hc
    exact decide_eq_true (hall c hc)
  · rintro ⟨hne, hall, rfl⟩
    obtain ⟨c, hc⟩ := List.exists_mem_of_ne_nil v hne
    have hkeys : ∀ d, d ∈ (variantsOf v).keys ↔ d = digest := by
      intro d
      rw [mem_keys_variantsOf]
      constructor
      · rintro ⟨c', hc', rfl⟩
        exact hall c' hc'
      · rintro rfl
        exact ⟨c, hc, hall c hc⟩
    obtain ⟨w, hentries⟩ := Keyed.exists_entries_eq_singleton.mpr hkeys
    have hmem : (digest, w) ∈ (variantsOf v).entries := by
      rw [hentries]
      exact List.mem_singleton_self _
    have hw := (get_variantsOf.mp (Keyed.mem_entries.mp hmem)).2
    rw [List.filter_eq_self.mpr fun c hc => decide_eq_true (hall c hc)] at hw
    rw [hentries, hw]

theorem signedRow_variantsOf :
    signedRow (variantsOf cs) = some o ↔
      ∃ c rest, cs = c :: rest ∧ (∀ c' ∈ cs, c'.digest = c.digest) ∧
        o = localOrder c.order (some c.digest) (cs.map SignedCandidate.bookId).eraseDups := by
  constructor
  · intro h
    unfold signedRow at h
    split at h
    · rename_i digest c rest hentries
      obtain ⟨-, hall, hcs⟩ := entries_variantsOf.mp hentries
      have hc : c.digest = digest := hall c (hcs ▸ List.mem_cons_self)
      subst hc
      rw [hcs] at h
      exact ⟨c, rest, hcs.symm, hall, (Option.some_inj.mp h).symm⟩
    · cases h
  · rintro ⟨c, rest, rfl, hall, rfl⟩
    have hentries := entries_variantsOf.mpr ⟨List.cons_ne_nil c rest, hall, rfl⟩
    unfold signedRow
    rw [hentries]

/-! ## What is quarantined -/

theorem mem_quarantined : id ∈ quarantined cs ↔ Contested cs id := by
  unfold quarantined
  rw [List.mem_map]
  constructor
  · rintro ⟨⟨id, v⟩, hmem, rfl⟩
    obtain ⟨hmem, hlen⟩ := List.mem_filter.mp hmem
    obtain ⟨⟨c, hc, hid⟩, rfl⟩ := get_signed.mp (Keyed.mem_entries.mp hmem)
    by_contra hnot
    have hall : ∀ c' ∈ ofId cs id, c'.digest = c.digest := by
      intro c' hc'
      by_contra hne
      obtain ⟨hmem', hid'⟩ := mem_ofId.mp hc'
      exact hnot ⟨c', hmem', c, hc, hid', hid, hne⟩
    have hne : ofId cs id ≠ [] := List.ne_nil_of_mem (mem_ofId.mpr ⟨hc, hid⟩)
    have hentries := entries_variantsOf.mpr ⟨hne, hall, rfl⟩
    simp [hentries] at hlen
  · rintro ⟨c, hc, c', hc', hid, hid', hne⟩
    refine ⟨(id, variantsOf (ofId cs id)), List.mem_filter.mpr ⟨?_, ?_⟩, rfl⟩
    · exact Keyed.mem_entries.mpr (get_signed.mpr ⟨⟨c, hc, hid⟩, rfl⟩)
    · apply decide_eq_true
      intro hlen
      obtain ⟨⟨d, v⟩, hentries⟩ := List.length_eq_one_iff.mp hlen
      obtain ⟨-, hall, -⟩ := entries_variantsOf.mp hentries
      apply hne
      rw [hall c (mem_ofId.mpr ⟨hc, hid⟩), hall c' (mem_ofId.mpr ⟨hc', hid'⟩)]

theorem nodup_quarantined : (quarantined cs).Nodup := by
  unfold quarantined
  exact ((List.filter_sublist).map Prod.fst).nodup (signed cs).nodup

/-! ## What is listed -/

/-- What a page and the code behind it know an order by. -/
def rowKey (o : OrderView) : String × Option String := (o.id, o.orderDigest)

theorem mem_signedRows :
    o ∈ signedRows cs ↔
      ∃ c rest, ofId cs c.order.id = c :: rest ∧ Sole cs c.order.id c.digest ∧
        o = localOrder c.order (some c.digest)
          ((ofId cs c.order.id).map SignedCandidate.bookId).eraseDups := by
  unfold signedRows
  rw [List.mem_filterMap]
  constructor
  · rintro ⟨⟨id, v⟩, hmem, hrow⟩
    obtain ⟨hex, rfl⟩ := get_signed.mp (Keyed.mem_entries.mp hmem)
    obtain ⟨c, rest, hcons, hall, rfl⟩ := signedRow_variantsOf.mp hrow
    have hc : c ∈ ofId cs id := hcons ▸ List.mem_cons_self
    obtain ⟨-, hid⟩ := mem_ofId.mp hc
    subst hid
    refine ⟨c, rest, hcons, ⟨hex, ?_⟩, rfl⟩
    intro c' hc' hid'
    exact hall c' (mem_ofId.mpr ⟨hc', hid'⟩)
  · rintro ⟨c, rest, hcons, ⟨hex, hall⟩, rfl⟩
    refine ⟨(c.order.id, variantsOf (ofId cs c.order.id)), ?_, ?_⟩
    · exact Keyed.mem_entries.mpr (get_signed.mpr ⟨hex, rfl⟩)
    · refine signedRow_variantsOf.mpr ⟨c, rest, hcons, ?_, rfl⟩
      intro c' hc'
      obtain ⟨hmem, hid⟩ := mem_ofId.mp hc'
      exact hall c' hmem hid

theorem mem_rowKeys_signedRows {key : String × Option String} :
    key ∈ (signedRows cs).map rowKey ↔ ∃ id digest, key = (id, some digest) ∧
    Sole cs id digest := by
  rw [List.mem_map]
  constructor
  · rintro ⟨o, ho, rfl⟩
    obtain ⟨c, rest, -, hsole, rfl⟩ := mem_signedRows.mp ho
    exact ⟨c.order.id, c.digest, rfl, hsole⟩
  · rintro ⟨id, digest, rfl, hsole⟩
    obtain ⟨⟨c, hc, hid⟩, hall⟩ := hsole
    cases hof : ofId cs id with
    | nil =>
      have : c ∈ ofId cs id := mem_ofId.mpr ⟨hc, hid⟩
      rw [hof] at this
      cases this
    | cons first rest =>
      have hfirst : first ∈ ofId cs id := hof ▸ List.mem_cons_self
      obtain ⟨hmem, hid'⟩ := mem_ofId.mp hfirst
      have hd := hall first hmem hid'
      subst hid' hd
      exact ⟨_, mem_signedRows.mpr ⟨first, rest, hof, ⟨⟨c, hc, hid⟩, hall⟩, rfl⟩, rfl⟩

theorem nodup_rowKeys_signedRows : ((signedRows cs).map rowKey).Nodup := by
  unfold signedRows
  rw [List.nodup_iff_pairwise_ne, List.pairwise_map, List.pairwise_filterMap]
  have hkeys : (signed cs).entries.Pairwise fun e e' => e.1 ≠ e'.1 :=
    List.pairwise_map.mp (signed cs).nodup
  refine hkeys.imp_of_mem ?_
  intro e e' he he' hne o ho o' ho' heq
  apply hne
  have hid : ∀ e ∈ (signed cs).entries, ∀ o, signedRow e.2 = some o → o.id = e.1 := by
    rintro ⟨id, v⟩ hmem o hrow
    obtain ⟨-, rfl⟩ := get_signed.mp (Keyed.mem_entries.mp hmem)
    obtain ⟨c, rest, hcons, -, rfl⟩ := signedRow_variantsOf.mp hrow
    have hc : c ∈ ofId cs id := hcons ▸ List.mem_cons_self
    exact (mem_ofId.mp hc).2
  rw [← hid e he o ho, ← hid e' he' o' ho']
  exact congrArg Prod.fst heq

/-! ## The order of the mirrors -/

theorem sole_of_perm (h : cs.Perm cs') : Sole cs id digest ↔ Sole cs' id digest := by
  unfold Sole
  simp only [h.mem_iff]

theorem contested_of_perm (h : cs.Perm cs') : Contested cs id ↔ Contested cs' id := by
  unfold Contested
  simp only [h.mem_iff]

theorem signedRows_perm (h : cs.Perm cs') :
    ((signedRows cs).map rowKey).Perm ((signedRows cs').map rowKey) := by
  apply (List.perm_ext_iff_of_nodup nodup_rowKeys_signedRows nodup_rowKeys_signedRows).mpr
  intro key
  simp only [mem_rowKeys_signedRows, sole_of_perm h]

theorem quarantined_perm (h : cs.Perm cs') : (quarantined cs).Perm (quarantined cs') := by
  apply (List.perm_ext_iff_of_nodup nodup_quarantined nodup_quarantined).mpr
  intro id
  rw [mem_quarantined, mem_quarantined, contested_of_perm h]

theorem unsignedRow_perm (h : cs.Perm cs') : unsignedRow cs = unsignedRow cs' := by
  have hids : ∀ id, id ∈ quarantined cs ↔ id ∈ quarantined cs' :=
    fun id => (quarantined_perm h).mem_iff
  funext row
  cases row with
  | none => rfl
  | some order => simp only [unsignedRow, hids, h.any_eq]

theorem sortIds_perm {ids ids' : List String} (h : ids.Perm ids') :
    (sortIds ids).Perm (sortIds ids') :=
  ((List.perm_insertionSort _ ids).trans h).trans (List.perm_insertionSort _ ids').symm

def isPrimary (s : MirrorSnapshot) : Bool := s.bookId = PRIMARY_ORDERBOOK_ID

section

variable {options : MirrorAggregationOptions} {snapshots snapshots' : List MirrorSnapshot}

theorem find_primary (hprimary : snapshots.filter isPrimary = snapshots'.filter isPrimary) :
    (snapshots.filter (isValidSnapshot options)).find? isPrimary =
      (snapshots'.filter (isValidSnapshot options)).find? isPrimary := by
  have hfind : ∀ l : List MirrorSnapshot, (l.filter (isValidSnapshot options)).find? isPrimary =
      (((l.filter isPrimary).filter (isValidSnapshot options))).head? := by
    intro l
    rw [← List.head?_filter, List.filter_filter, List.filter_filter]
    congr 1
    apply List.filter_congr
    intro s _
    exact Bool.and_comm _ _
  rw [hfind, hfind, hprimary]

theorem candidates_perm (h : snapshots.Perm snapshots') :
    (candidates options (snapshots.filter (isValidSnapshot options))).Perm
      (candidates options (snapshots'.filter (isValidSnapshot options))) := by
  unfold candidates
  exact (h.filter _).flatMap_right _

/-! ## Where a row comes from -/

/-- The loop over the rows of `s` has verified the row `w` and its digest. -/
structure Verified (options : MirrorAggregationOptions) (s : MirrorSnapshot) (w : OrderView)
    (digest : String) : Prop where
  row : some w ∈ s.orders
  signed : w.makerAuth ≠ none
  live : isLapsedSignedOrder w options.now = false
  proof : options.verifyOrder w options.now = true
  digest : options.digestOrder w = some digest

theorem candidate_eq_some {bookId : String} {row : Row} {c : SignedCandidate} :
    candidate options bookId row = some c ↔
      row = some c.order ∧ bookId = c.bookId ∧
      checkRow options bookId row = .verified c.digest := by
  unfold candidate
  split
  · rename_i order digest hcheck
    rw [hcheck]
    constructor
    · intro h
      cases h
      exact ⟨rfl, rfl, rfl⟩
    · rintro ⟨hrow, rfl, hdigest⟩
      cases hrow
      cases hdigest
      rfl
  · rename_i hnot
    constructor
    · nofun
    · rintro ⟨hrow, -, hcheck⟩
      exact absurd hcheck (hnot c.order c.digest hrow)

theorem checkRow_eq_verified {bookId digest : String} {w : OrderView} :
    checkRow options bookId (some w) = .verified digest ↔
      w.status = "open" ∧ w.visibility ≠ some "private" ∧ w.makerAuth ≠ none ∧
        isLapsedSignedOrder w options.now = false ∧ options.verifyOrder w options.now = true ∧
        options.digestOrder w = some digest := by
  simp only [checkRow]
  constructor
  · intro h
    split at h
    · cases h
    rename_i hopen
    split at h
    · split at h <;> cases h
    rename_i hauth
    split at h
    · cases h
    rename_i hlive
    split at h
    · rename_i hverify
      split at h
      · cases h
      · rename_i d hd
        cases h
        rw [not_or, not_not] at hopen
        exact ⟨hopen.1, hopen.2, hauth, Bool.not_eq_true _ ▸ hlive, hverify, hd⟩
    · cases h
  · rintro ⟨hopen, hpublic, hauth, hlive, hverify, hd⟩
    simp [hopen, hpublic, hauth, hlive, hverify, hd]

theorem IsValid.row {s : MirrorSnapshot} (hs : isValidSnapshot options s = true) {row : Row}
    (hrow : row ∈ s.orders) : checkRow options s.bookId row ≠ .refused := by
  unfold isValidSnapshot at hs
  exact of_decide_eq_true (List.all_eq_true.mp hs row hrow)

theorem mem_candidates {c : SignedCandidate} :
    c ∈ candidates options (snapshots.filter (isValidSnapshot options)) ↔
      ∃ s ∈ snapshots, isValidSnapshot options s = true ∧ s.bookId = c.bookId ∧
        Verified options s c.order c.digest := by
  unfold candidates
  simp only [List.mem_flatMap, List.mem_filter, List.mem_filterMap, candidate_eq_some]
  constructor
  · rintro ⟨s, ⟨hs, hvalid⟩, row, hrow, rfl, hbook, hcheck⟩
    obtain ⟨-, -, hauth, hlive, hverify, hd⟩ := checkRow_eq_verified.mp hcheck
    exact ⟨s, hs, hvalid, hbook, hrow, hauth, hlive, hverify, hd⟩
  · rintro ⟨s, hs, hvalid, hbook, hrow, hauth, hlive, hverify, hd⟩
    refine ⟨s, ⟨hs, hvalid⟩, some c.order, hrow, rfl, hbook, ?_⟩
    have hnot := IsValid.row hvalid hrow
    apply checkRow_eq_verified.mpr
    refine ⟨?_, ?_, hauth, hlive, hverify, hd⟩
    · by_contra hopen
      exact hnot (by simp [checkRow, hopen])
    · intro hprivate
      exact hnot (by simp [checkRow, hprivate])

theorem mem_unsignedRows (h : o ∈ unsignedRows cs (snapshots.filter (isValidSnapshot options))) :
    ∃ s ∈ snapshots, isValidSnapshot options s = true ∧ s.bookId = PRIMARY_ORDERBOOK_ID ∧
      ∃ w, some w ∈ s.orders ∧ w.makerAuth = none ∧ o = localOrder w none [PRIMARY_ORDERBOOK_ID] ∧
        (∀ c ∈ cs, c.order.id ≠ w.id) := by
  unfold unsignedRows at h
  split at h
  · cases h
  rename_i primary hfind
  obtain ⟨hmem, hvalid⟩ := List.mem_filter.mp (List.mem_of_find?_eq_some hfind)
  have hbook : primary.bookId = PRIMARY_ORDERBOOK_ID := by simpa using List.find?_some hfind
  obtain ⟨row, hrow, ho⟩ := List.mem_filterMap.mp h
  unfold unsignedRow at ho
  split at ho
  · cases ho
  rename_i w
  split at ho
  · cases ho
  rename_i hnot
  simp only [not_or, not_not] at hnot
  obtain ⟨hauth, -, hany, -⟩ := hnot
  cases ho
  refine ⟨primary, hmem, hvalid, hbook, w, hrow, hauth, rfl, ?_⟩
  intro c hc hid
  exact hany (List.any_eq_true.mpr ⟨c, hc, decide_eq_true hid⟩)

theorem mem_ofSignedRows (ho : o ∈ signedRows cs) :
    ∃ c ∈ cs, ∃ sources, Sole cs c.order.id c.digest ∧
    o = localOrder c.order (some c.digest) sources := by
  obtain ⟨c, rest, hcons, hsole, rfl⟩ := mem_signedRows.mp ho
  have hc : c ∈ ofId cs c.order.id := by
    rw [hcons]
    exact List.mem_cons_self
  exact ⟨c, (mem_ofId.mp hc).1, _, hsole, rfl⟩

/-- What a combined list may show, whoever sent the snapshots. -/
structure Undisputed (options : MirrorAggregationOptions) (snapshots : List MirrorSnapshot)
    (orders : List OrderView) : Prop where
  signed : ∀ o ∈ orders, o.makerAuth ≠ none →
    ∃ s ∈ snapshots, isValidSnapshot options s = true ∧
      ∃ w digest sources, Verified options s w digest ∧ o = localOrder w (some digest) sources
  disputed : ∀ s ∈ snapshots, isValidSnapshot options s = true →
    ∀ s' ∈ snapshots, isValidSnapshot options s' = true →
      ∀ w w' digest digest', Verified options s w digest → Verified options s' w' digest' →
        w.id = w'.id → digest ≠ digest' → ∀ o ∈ orders, o.id ≠ w.id
  unsigned : ∀ o ∈ orders, o.makerAuth = none →
    (∃ s ∈ snapshots, isValidSnapshot options s = true ∧ s.bookId = PRIMARY_ORDERBOOK_ID ∧
      ∃ w, some w ∈ s.orders ∧ w.makerAuth = none ∧ o = localOrder w none [PRIMARY_ORDERBOOK_ID]) ∧
    ∀ s ∈ snapshots, isValidSnapshot options s = true →
      ∀ w digest, Verified options s w digest → w.id ≠ o.id

variable {localeCompare : String → String → Int}

theorem aggregate_undisputed :
    Undisputed options snapshots
      (aggregateMirrorOrders localeCompare snapshots options).orders := by
  have hmem : ∀ o, o ∈ (aggregateMirrorOrders localeCompare snapshots options).orders →
      o ∈ signedRows (candidates options (snapshots.filter (isValidSnapshot options))) ∨
      o ∈ unsignedRows (candidates options (snapshots.filter (isValidSnapshot options)))
        (snapshots.filter (isValidSnapshot options)) := by
    intro o ho
    exact List.mem_append.mp ((List.mem_insertionSort _).mp ho)
  have hcandidate : ∀ s ∈ snapshots, isValidSnapshot options s = true → ∀ w digest,
      Verified options s w digest → (⟨w, digest, s.bookId⟩ : SignedCandidate) ∈
        candidates options (snapshots.filter (isValidSnapshot options)) := by
    intro s hs hvalid w digest hverified
    exact mem_candidates.mpr ⟨s, hs, hvalid, rfl, hverified⟩
  constructor
  · intro o ho hauth
    rcases hmem o ho with ho | ho
    · obtain ⟨c, hc, sources, -, rfl⟩ := mem_ofSignedRows ho
      obtain ⟨s, hs, hvalid, -, hverified⟩ := mem_candidates.mp hc
      exact ⟨s, hs, hvalid, c.order, c.digest, sources, hverified, rfl⟩
    · obtain ⟨-, -, -, -, w, -, hnone, rfl, -⟩ := mem_unsignedRows ho
      exact absurd hnone hauth
  · intro s hs hvalid s' hs' hvalid' w w' digest digest' hw hw' hid hne o ho heq
    have hc := hcandidate s hs hvalid w digest hw
    have hc' := hcandidate s' hs' hvalid' w' digest' hw'
    rcases hmem o ho with ho | ho
    · -- the one digest of a listed id is that of both rows
      obtain ⟨c, -, sources, hsole, rfl⟩ := mem_ofSignedRows ho
      have h := hsole.2 _ hc heq.symm
      have h' := hsole.2 _ hc' (hid.symm.trans heq.symm)
      exact hne (h.trans h'.symm)
    · obtain ⟨-, -, -, -, v, -, -, rfl, hnot⟩ := mem_unsignedRows ho
      exact hnot _ hc heq.symm
  · intro o ho hauth
    rcases hmem o ho with ho | ho
    · obtain ⟨c, hc, sources, -, rfl⟩ := mem_ofSignedRows ho
      obtain ⟨s, -, -, -, hverified⟩ := mem_candidates.mp hc
      exact absurd hauth hverified.signed
    · obtain ⟨s, hs, hvalid, hbook, w, hw, hnone, rfl, hnot⟩ := mem_unsignedRows ho
      refine ⟨⟨s, hs, hvalid, hbook, w, hw, hnone, rfl⟩, ?_⟩
      intro s' hs' hvalid' w' digest hverified
      exact hnot _ (hcandidate s' hs' hvalid' w' digest hverified)

/-- Mirrors in another order show the same rows, and no row that is disputed. -/
theorem combined_whatever_order (hperm : snapshots.Perm snapshots')
    (hprimary : snapshots.filter isPrimary = snapshots'.filter isPrimary) :
    let scan := aggregateMirrorOrders localeCompare snapshots options
    let scan' := aggregateMirrorOrders localeCompare snapshots' options
    (scan.orders.map rowKey).Perm (scan'.orders.map rowKey) ∧
      scan.quarantinedIds.Perm scan'.quarantinedIds ∧
      scan.invalidBookIds.Perm scan'.invalidBookIds ∧ Undisputed options snapshots scan.orders := by
  have hcs := @candidates_perm options snapshots snapshots' hperm
  refine ⟨?_, sortIds_perm (quarantined_perm hcs), ?_, aggregate_undisputed⟩
  · have hunsigned := @find_primary options snapshots snapshots' hprimary
    unfold aggregateMirrorOrders
    refine ((List.perm_insertionSort _ _).map rowKey).trans (List.Perm.trans ?_
      ((List.perm_insertionSort _ _).map rowKey).symm)
    rw [List.map_append, List.map_append]
    refine (signedRows_perm hcs).append ?_
    unfold unsignedRows
    rw [unsignedRow_perm hcs]
    have hfind : ∀ l : List MirrorSnapshot,
        l.find? (fun s => s.bookId = PRIMARY_ORDERBOOK_ID) = l.find? isPrimary := fun _ => rfl
    rw [hfind, hfind, hunsigned]
  · exact sortIds_perm (((hperm.filter _).map MirrorSnapshot.bookId).dedup)

end

def sampleAuth : MakerOrderAuthV1 where
  ownKeys := makerAuthKeys
  version := "2"
  scheme := "qrl-sign-message-v2"
  issuedAt := .int 10
  expiresAt := .int 4000000000
  nonce := "nonce"
  makerTokenCommitment := "maker"
  shareTokenCommitment := "share"
  signature := "valid"
  publicKey := "key"
  descriptor := "descriptor"

/-- An open order that gives `amount`. -/
def sampleRow (id amount : String) (makerAuth : Option (Option MakerOrderAuthV1)) : OrderView where
  id
  direction := "eth->qrl"
  asset := some "ETH"
  fromAmount := amount
  toAmount := "2"
  makerEthAccount := "eth"
  makerQrlAccount := "qrl"
  status := "open"
  hashlock := none
  initiatorTimeout := none
  visibility := some "public"
  allowedTakerEth := none
  allowedTakerQrl := none
  prelocked := false
  createdAt := 1
  makerAuth
  orderDigest := none
  bookId := none
  sources := none

def samplePrimary : MirrorSnapshot :=
  ⟨"primary", [some (sampleRow "a" "1" (some (some sampleAuth))), some (sampleRow "b" "1" none)]⟩

/-- A mirror with another variant of the first order. -/
def sampleNorth : MirrorSnapshot := ⟨"north", [some (sampleRow "a" "3" (some (some sampleAuth)))]⟩

/-- A mirror with a row that is no object. -/
def sampleSouth : MirrorSnapshot := ⟨"south", [none]⟩

def sampleOptions : MirrorAggregationOptions where
  now := 10
  verifyOrder order _ := order.makerAuth.join.any fun auth => auth.signature = "valid"
  digestOrder order := some order.fromAmount

def compareText (left right : String) : Int :=
  if left < right then -1 else if right < left then 1 else 0

theorem combined_whatever_order_sample :
    let scan := aggregateMirrorOrders compareText [samplePrimary, sampleNorth,
      sampleSouth] sampleOptions
    let scan' := aggregateMirrorOrders compareText [sampleNorth, samplePrimary,
      sampleSouth] sampleOptions
    (scan.orders.map rowKey).Perm (scan'.orders.map rowKey) ∧
      scan.quarantinedIds.Perm scan'.quarantinedIds ∧
      scan.invalidBookIds.Perm scan'.invalidBookIds ∧
      Undisputed sampleOptions [samplePrimary, sampleNorth, sampleSouth] scan.orders :=
  combined_whatever_order (List.Perm.swap _ _ _) (by decide)

example :
    (aggregateMirrorOrders compareText [samplePrimary, sampleNorth, sampleSouth]
      sampleOptions).quarantinedIds = ["a"] := by decide +kernel

/-! ## The standard options -/

theorem times_of_canonical {auth : MakerOrderAuthV1} {now : Int} {allowExpired : Bool}
    (h : authIsCanonical auth now allowExpired = true) :
    authTimesAreValid auth now allowExpired = true := by
  simp only [authIsCanonical, Bool.and_eq_true] at h
  exact h.1.1.1.1.1.1.1.2

theorem live_of_verifyOrderV1Auth {E : Book.Crypto} {now : Int}
    (h : verifyOrderV1Auth E o now false = true) : isLapsedSignedOrder o now = false := by
  unfold verifyOrderV1Auth at h
  split at h
  · rename_i auth hauth
    simp only [isLapsedSignedOrder, hauth]
    simp only [Bool.and_eq_true] at h
    have htimes := times_of_canonical h.1.1.1.1
    unfold authTimesAreValid at htimes
    split at htimes
    · rename_i issuedAt expiresAt _ hexpires
      simp only [Bool.and_eq_true, Bool.false_or, decide_eq_true_eq] at htimes
      have hlt : now < expiresAt := htimes.2
      simpa [hexpires] using hlt
    · cases htimes
  · cases h

end QuantaSwap.Browser
