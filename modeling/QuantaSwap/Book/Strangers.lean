import QuantaSwap.Book.Hashlocks
import QuantaSwap.Book.Message
import QuantaSwap.Book.Terminal

/-!
# What strangers can do to a maker's listing

`createInternal` counts every row under the maker's accounts and looks for the
hashlock and the capability commitments in every row, signed or not. A run of other
parties that stays out of these leaves a signed order the book capacity to fail on only.
-/

set_option autoImplicit false

namespace QuantaSwap.Book

open Lib.Js Lib.Text Lib.Checks Lib.Run

/-! ## Sweeps at two times -/

section Sweeps

variable {now later : SafeInt} {l : List Order} {o o' : Order}

theorem sweepOrder_eq (now : SafeInt) (o : Order) : sweepOrder now o =
    if expires now o then
      some { dropStaleIntents now o with status := .cancelled, updatedAt := now }
    else if removable now o then none else some (dropStaleIntents now o) := rfl

theorem expires_later (hle : now.val ≤ later.val) (h : expires now o = true) :
    expires later o = true := by
  unfold expires at h ⊢
  rw [decide_eq_true_eq] at h ⊢
  rcases h with ⟨hopen, hage | ⟨a, ha, hend⟩⟩ | ⟨haccepted, hage⟩
  · exact .inl ⟨hopen, .inl (by omega)⟩
  · exact .inl ⟨hopen, .inr ⟨a, ha, by omega⟩⟩
  · exact .inr ⟨haccepted, by omega⟩

theorem removable_later (hle : now.val ≤ later.val) (h : removable now o = true) :
    removable later o = true := by
  unfold removable at h ⊢
  dsimp only at h ⊢
  split at h
  · split at h
    · rw [decide_eq_true_eq] at h ⊢
      omega
    · rw [decide_eq_true_eq] at h ⊢
      omega
  · split at h
    · rw [decide_eq_true_eq] at h ⊢
      omega
    · cases h
  · cases h

theorem not_expires_of_removable (h : removable now o = true) : expires later o = false := by
  unfold removable at h
  dsimp only at h
  split at h
  · rename_i hs
    simp [expires, hs]
  · rename_i hs
    simp [expires, hs]
  · cases h

theorem sweepOrder_earlier (hle : now.val ≤ later.val) (h : sweepOrder later o = some o') :
    ∃ o'', sweepOrder now o = some o'' ∧ (o'.status ≠ .cancelled → o''.status = o'.status) := by
  rw [sweepOrder_eq] at h ⊢
  split at h
  · cases h
    split
    · exact ⟨_, rfl, fun hne => absurd rfl hne⟩
    · rename_i hexpires hearly
      have hkept : removable now o = false := by
        by_contra hr
        rw [not_expires_of_removable (by simpa using hr)] at hexpires
        cases hexpires
      rw [hkept]
      exact ⟨_, rfl, fun hne => absurd rfl hne⟩
  · rename_i hexpires
    split at h
    · cases h
    · rename_i hremovable
      cases h
      rw [if_neg fun he => hexpires (expires_later hle he),
        if_neg fun hr => hremovable (removable_later hle hr)]
      exact ⟨_, rfl, fun _ => rfl⟩

theorem countP_sweepAll_le (hle : now.val ≤ later.val) {p q : Order → Bool}
    (hpq : ∀ o o' o'', sweepOrder later o = some o' → sweepOrder now o = some o'' →
      (o'.status ≠ .cancelled → o''.status = o'.status) → p o' = true → q o'' = true) :
    (sweepAll later l).countP p ≤ (sweepAll now l).countP q := by
  unfold sweepAll
  induction l with
  | nil => exact Nat.le_refl _
  | cons o l ih =>
    rw [List.filterMap_cons, List.filterMap_cons]
    cases h : sweepOrder later o with
    | none =>
      cases sweepOrder now o with
      | none => exact ih
      | some o'' => exact ih.trans (List.countP_cons ▸ Nat.le_add_right _ _)
    | some o' =>
      obtain ⟨o'', h'', hstatus⟩ := sweepOrder_earlier hle h
      rw [h'', List.countP_cons, List.countP_cons]
      by_cases hp : p o' = true
      · rw [if_pos hp, if_pos (hpq o o' o'' h h'' hstatus hp)]
        exact Nat.add_le_add_right ih 1
      · rw [if_neg hp]
        exact ih.trans (Nat.le_add_right _ _)

end Sweeps

/-! ## Counts through a write -/

section Writes

variable {E : Crypto} {i : Step} {l l' : List Order} {o o' : Order}

theorem countP_changed {f : Order → Order} (p : Order → Bool) (hids : (l.map Order.id).Nodup)
    (hmem : o ∈ l) :
    (l.map fun x => if x.id = o.id then f x else x).countP p + (if p o = true then 1 else 0) =
      l.countP p + (if p (f o) = true then 1 else 0) := by
  obtain ⟨before, after, rfl⟩ := List.append_of_mem hmem
  rw [List.map_append, List.map_cons, List.nodup_append, List.nodup_cons] at hids
  obtain ⟨-, ⟨hafter, -⟩, hbefore⟩ := hids
  have hkeep : ∀ m : List Order, (∀ x ∈ m, x.id ≠ o.id) →
      (m.map fun x => if x.id = o.id then f x else x) = m := by
    intro m hm
    conv_rhs => rw [← List.map_id m]
    exact List.map_congr_left fun x hx => if_neg (hm x hx)
  have hb : ∀ x ∈ before, x.id ≠ o.id := fun x hx =>
    hbefore x.id (List.mem_map_of_mem hx) o.id List.mem_cons_self
  have ha : ∀ x ∈ after, x.id ≠ o.id := fun x hx he => hafter (he ▸ List.mem_map_of_mem hx)
  rw [List.map_append, List.map_cons, hkeep before hb, hkeep after ha, if_pos rfl,
    List.countP_append,
    List.countP_append, List.countP_cons, List.countP_cons]
  omega

theorem Change.open (h : Change E i o o') (hopen : o'.status = .open) :
    o.status = .open ∨ (o.status = .accepted ∧ ∃ body, i.call = .release o.id.val body) := by
  cases h with
  | orderConflict verified =>
    left
    by_contra hclosed
    unfold addOrderConflict at hopen
    dsimp only at hopen
    split at hopen
    · cases hopen
    · exact hclosed hopen
  | portable hportable h => cases h <;> first | exact .inl hopen | cases hopen
  | legacy hlegacy h =>
    cases h with
    | relist body haccepted hcall => exact .inr ⟨haccepted, body, hcall⟩
    | accept => cases hopen
    | announce => cases hopen
    | releaseLocking => exact .inl hopen
    | withdraw => cases hopen

/-- What a row was created with. -/
structure SameOrigin (o o' : Order) : Prop where
  id : o'.id = o.id
  makerEthAccount : o'.makerEthAccount = o.makerEthAccount
  makerQrlAccount : o'.makerQrlAccount = o.makerQrlAccount
  visibility : o'.visibility = o.visibility
  orderDigest : o'.orderDigest = o.orderDigest
  makerTokenHash : o'.makerTokenHash = o.makerTokenHash
  shareTokenHash : o'.shareTokenHash = o.shareTokenHash

theorem Change.sameOrigin (h : Change E i o o') : SameOrigin o o' := by
  cases h with
  | orderConflict => exact ⟨rfl, rfl, rfl, rfl, rfl, rfl, rfl⟩
  | portable _ h => cases h <;> exact ⟨rfl, rfl, rfl, rfl, rfl, rfl, rfl⟩
  | legacy _ h => cases h <;> exact ⟨rfl, rfl, rfl, rfl, rfl, rfl, rfl⟩

theorem sweepOrder_sameOrigin {now : SafeInt} (h : sweepOrder now o = some o') :
    SameOrigin o o' := by
  rcases sweepOrder_cases h with ⟨rfl, -⟩ | rfl
  · exact ⟨rfl, rfl, rfl, rfl, rfl, rfl, rfl⟩
  · exact ⟨rfl, rfl, rfl, rfl, rfl, rfl, rfl⟩

theorem draftOrder_new {now : SafeInt} {body : Record} {makerIp : String} {origin : Origin}
    {random : Random}
    (h : draftOrder E l now body makerIp origin random = .ok o) :
    ∃ terms listing prelock, createTerms body = .ok terms ∧
    parseVisibility body = .ok listing.visibility ∧
      createPrelock l body origin.isFederated now = .ok prelock ∧
      o = newOrder E origin random now terms listing prelock (sha256Hex E makerIp) := by
  simp only [draftOrder, bind_eq_ok, refuse_eq_ok, pure_eq_ok, exists_const] at h
  obtain ⟨_, -, terms, hterms, _, -, _, -, _, hvisibility, _, -, listing, hlisting, prelock,
    hprelock, -, _, -, rfl⟩ := h
  exact ⟨terms, listing, prelock, hterms, createListing_visibility hlisting ▸ hvisibility,
    hprelock, rfl⟩

end Writes

/-! ## A book that welcomes a signed order -/

section Welcome

variable (v : VerifiedOrderV1)

/-- A row under the accounts that the order names. -/
def byMaker (o : Order) : Bool :=
  sameMaker (EthAccount.address v.order.makerEthAccount)
    (QrlAccount.address v.order.makerQrlAccount) o

def openByMaker (o : Order) : Bool := decide (o.status = .open) && byMaker v o

/-- The limits of the order's maker leave room for `n` more listings. -/
structure Room (n : Nat) (l : List Order) : Prop where
  opened : l.countP (openByMaker v) + n ≤ maxOpenOrdersPerMaker
  held : l.countP (byMaker v) + n ≤ maxRetainedOrdersPerMaker

/-- A live row carries the order's prelock hashlock. -/
def Carries (o : Order) : Prop :=
  ∃ p ∈ v.order.prelock, o.hashlock = some p.hashlock ∧ o.status ≠ .cancelled

/-- A row holds one of the order's capability commitments. -/
def Shares (o : Order) : Prop :=
  o.makerTokenHash = hexOf v.auth.makerTokenCommitment ∨
    o.shareTokenHash = some (hexOf v.auth.shareTokenCommitment)

/-- Nothing that belongs to one maker stands in the way of the order. -/
structure Welcome (l : List Order) : Prop where
  room : Room v 1 l
  hashlock : ∀ o ∈ l, ¬Carries v o
  capability : ∀ o ∈ l, ¬Shares v o
  absent : ∀ o ∈ l, o.id ≠ signedOrderId v.orderId

/-- The row of the order itself. -/
structure Own (o : Order) : Prop where
  id : o.id = signedOrderId v.orderId
  orderDigest : o.orderDigest = some v.orderDigest
  makerToken : o.makerTokenHash = hexOf v.auth.makerTokenCommitment
  shareToken : o.visibility = .priv → o.shareTokenHash = some (hexOf v.auth.shareTokenCommitment)

def Stored (l : List Order) : Prop := ∃ o ∈ l, Own v o

variable {v} {now now' : SafeInt} {l : List Order} {o o' : Order}

theorem SameOrigin.byMaker (h : SameOrigin o o') : byMaker v o' = byMaker v o := by
  unfold Book.byMaker sameMaker
  rw [h.makerEthAccount, h.makerQrlAccount]

theorem SameOrigin.shares (h : SameOrigin o o') : Shares v o' ↔ Shares v o := by
  unfold Shares
  rw [h.makerTokenHash, h.shareTokenHash]

theorem SameOrigin.own (h : SameOrigin o o') (hown : Own v o) : Own v o' := by
  constructor
  · rw [h.id, hown.id]
  · rw [h.orderDigest, hown.orderDigest]
  · rw [h.makerTokenHash, hown.makerToken]
  · rw [h.visibility, h.shareTokenHash]
    exact hown.shareToken

theorem SameOrigin.symm (h : SameOrigin o o') : SameOrigin o' o :=
  ⟨h.id.symm, h.makerEthAccount.symm, h.makerQrlAccount.symm, h.visibility.symm, h.orderDigest.symm,
    h.makerTokenHash.symm, h.shareTokenHash.symm⟩

theorem SameOrigin.trans {o'' : Order} (h : SameOrigin o o') (h' : SameOrigin o' o'') :
    SameOrigin o o'' :=
  ⟨h'.id.trans h.id, h'.makerEthAccount.trans h.makerEthAccount,
    h'.makerQrlAccount.trans h.makerQrlAccount,
    h'.visibility.trans h.visibility, h'.orderDigest.trans h.orderDigest,
      h'.makerTokenHash.trans h.makerTokenHash,
    h'.shareTokenHash.trans h.shareTokenHash⟩

theorem Welcome.later (h : Welcome v (sweepAll now l)) (hle : now.val ≤ now'.val) :
    Welcome v (sweepAll now' l) := by
  -- Every row that is left was left by the earlier sweep, with the same origin.
  have hback : ∀ o' ∈ sweepAll now' l, ∃ o'' ∈ sweepAll now l, SameOrigin o' o'' ∧
    o''.hashlock = o'.hashlock ∧
      (o'.status ≠ .cancelled → o''.status = o'.status) := by
    intro o' ho'
    obtain ⟨o, ho, hsweep⟩ := mem_sweepAll.mp ho'
    obtain ⟨o'', hsweep'', hstatus⟩ := sweepOrder_earlier hle hsweep
    refine ⟨o'', mem_sweepAll.mpr ⟨o, ho, hsweep''⟩,
      (sweepOrder_sameOrigin hsweep).symm.trans (sweepOrder_sameOrigin hsweep''), ?_, hstatus⟩
    rw [(sweepOrder_hashlock hsweep).1, (sweepOrder_hashlock hsweep'').1]
  constructor
  · constructor
    · refine Nat.le_trans (Nat.add_le_add_right (countP_sweepAll_le hle ?_) 1) h.room.opened
      intro o o' o'' ho' ho'' hstatus hp
      simp only [openByMaker, Bool.and_eq_true, decide_eq_true_eq] at hp ⊢
      rw [((sweepOrder_sameOrigin ho').symm.trans (sweepOrder_sameOrigin ho'')).byMaker,
        hstatus (by simp [hp.1])]
      exact hp
    · refine Nat.le_trans (Nat.add_le_add_right (countP_sweepAll_le hle ?_) 1) h.room.held
      intro o o' o'' ho' ho'' _ hp
      rwa [((sweepOrder_sameOrigin ho').symm.trans (sweepOrder_sameOrigin ho'')).byMaker]
  · rintro o' ho' ⟨p, hp, hlock, hlive⟩
    obtain ⟨o'', ho'', -, hsame, hstatus⟩ := hback o' ho'
    exact h.hashlock o'' ho'' ⟨p, hp, hsame.trans hlock, by rwa [hstatus hlive]⟩
  · intro o' ho' hshares
    obtain ⟨o'', ho'', horigin, -⟩ := hback o' ho'
    exact h.capability o'' ho'' (horigin.shares.mpr hshares)
  · intro o' ho' hid
    obtain ⟨o'', ho'', horigin, -⟩ := hback o' ho'
    exact h.absent o'' ho'' (horigin.id.trans hid)

theorem countP_sweepAll_le_self {p : Order → Bool} (hp : ∀ o o', sweepOrder now o = some o' →
    p o' = true → p o = true) :
    (sweepAll now l).countP p ≤ l.countP p := by
  unfold sweepAll
  induction l with
  | nil => exact Nat.le_refl _
  | cons o l ih =>
    rw [List.filterMap_cons, List.countP_cons]
    cases h : sweepOrder now o with
    | none => exact ih.trans (Nat.le_add_right _ _)
    | some o' =>
      rw [List.countP_cons]
      by_cases ho : p o' = true
      · rw [if_pos ho, if_pos (hp o o' h ho)]
        exact Nat.add_le_add_right ih 1
      · rw [if_neg ho]
        exact ih.trans (Nat.le_add_right _ _)

theorem sweepOrder_open (h : sweepOrder now o = some o') (hopen : o'.status = .open) :
    o.status = .open := by
  rcases sweepOrder_cases h with ⟨rfl, -⟩ | rfl
  · cases hopen
  · exact hopen

theorem Welcome.sweep (h : Welcome v l) : Welcome v (sweepAll now l) := by
  constructor
  · constructor
    · refine Nat.le_trans (Nat.add_le_add_right (countP_sweepAll_le_self ?_) 1) h.room.opened
      intro o o' ho' hp
      simp only [openByMaker, Bool.and_eq_true, decide_eq_true_eq] at hp ⊢
      exact ⟨sweepOrder_open ho' hp.1, (sweepOrder_sameOrigin ho').byMaker ▸ hp.2⟩
    · refine Nat.le_trans (Nat.add_le_add_right (countP_sweepAll_le_self ?_) 1) h.room.held
      intro o o' ho' hp
      exact (sweepOrder_sameOrigin ho').byMaker ▸ hp
  · rintro o' ho' ⟨p, hp, hlock, hlive⟩
    obtain ⟨o, ho, hsweep⟩ := mem_sweepAll.mp ho'
    obtain ⟨hsame, hstatus⟩ := sweepOrder_hashlock hsweep
    exact h.hashlock o ho ⟨p, hp, hsame ▸ hlock, hstatus hlive⟩
  · intro o' ho' hshares
    obtain ⟨o, ho, hsweep⟩ := mem_sweepAll.mp ho'
    exact h.capability o ho ((sweepOrder_sameOrigin hsweep).shares.mp hshares)
  · intro o' ho' hid
    obtain ⟨o, ho, hsweep⟩ := mem_sweepAll.mp ho'
    exact h.absent o ho ((sweepOrder_id hsweep).symm.trans hid)

end Welcome

/-! ## What the others send -/

section Strangers

variable (E : Crypto) (v : VerifiedOrderV1)

/-- The call brings the signed order `u`. -/
def Signs (now : SafeInt) (c : Call) (u : VerifiedOrderV1) : Prop :=
  (∃ body makerIp, c = .createSigned body makerIp ∧
      verifyOrderV1 E now false (body.get "order") (body.get "auth") = .ok u) ∨
    ∃ payload source, c = .applyFederationEvent ⟨.orderV2, payload⟩ source ∧
      verifyOrderV1 E now true (payload.get "order") (payload.get "auth") = .ok u

/-- A call of a party without the maker's key: no signed order of that account, and so none
whose id, a hash of the account, is the order's. -/
def Stranger (w : World) (i : Step) : Prop :=
  ∀ u, Signs E (w.timed i).now i.call u →
    u.order.makerQrlAccount ≠ v.order.makerQrlAccount ∧ u.orderId ≠ v.orderId

/-- The call brings a hashlock: a prelock, a fill or an announcement. -/
def Brings (now : SafeInt) (c : Call) (hashlock : Hashlock) : Prop :=
  (∃ id, c.hashlock? = some (id, hashlock)) ∨
    (∃ body makerIp p, c = .create body makerIp ∧ asRecord (body.get "prelock") = some p ∧
      asString (p.get "hashlock") = some hashlock.val) ∨
    ∃ u, Signs E now c u ∧ ∃ p ∈ u.order.prelock, (p : Prelock).hashlock = hashlock

/-- The accounts of an unsigned listing, as the store compares them. -/
def Names (terms : CreateTerms) : Prop :=
  toLowerCase terms.makerEthAccount.val = toLowerCase v.order.makerEthAccount.val ∧
    toLowerCase terms.makerQrlAccount.val = toLowerCase v.order.makerQrlAccount.val

/-- What a call of a stranger leaves alone, in the swept book `l` that it finds. -/
structure SparesIn (i : Step) (l : List Order) : Prop where
  listing : ∀ body makerIp terms, i.call = .create body makerIp → createTerms body = .ok terms →
    Names v terms →
    Room v 2 l
  relisting : ∀ body, ∀ o ∈ l, i.call = .release (o : Order).id.val body → byMaker v o = true →
    o.status = .accepted → l.countP (openByMaker v) + 2 ≤ maxOpenOrdersPerMaker
  hashlock : ∀ p ∈ v.order.prelock, ¬Brings E i.now i.call (p : Prelock).hashlock
  capability : ∀ u, Signs E i.now i.call u →
    u.auth.makerTokenCommitment ≠ v.auth.makerTokenCommitment ∧
      (u.order.visibility = .priv → u.auth.shareTokenCommitment ≠ v.auth.shareTokenCommitment)
  tokens : ∀ body makerIp, i.call = .create body makerIp →
    sha256Hex E i.random.makerToken.val ≠ hexOf v.auth.makerTokenCommitment ∧
      sha256Hex E i.random.shareToken.val ≠ hexOf v.auth.shareTokenCommitment

/-- The sweep does not take the order's own row. -/
def KeepsOwn (now : SafeInt) (l : List Order) : Prop := Stored v l → Stored v (sweepAll now l)

/-- The condition on each step of the run: an unsigned listing or a relisting under the
maker's accounts is not the last one that the maker's limits allow, and nobody else
brings the order's hashlock or its capability commitments. -/
structure Spares (w : World) (i : Step) : Prop where
  spares : SparesIn E v (w.timed i) (sweepAll (w.timed i).now w.store.orders)
  keeps : KeepsOwn v (w.timed i).now w.store.orders

variable {E} {v} {i : Step} {l l' : List Order} {o o' : Order}

theorem hexOf_injective {a b : Bytes32} (h : hexOf a = hexOf b) : a = b := by
  apply Subtype.ext
  rw [← append_dropLead a.property, ← append_dropLead b.property]
  exact congrArg (String.ofList ['0', 'x'] ++ ·) (congrArg Subtype.val h)

theorem Asked.signs {body : Record} {makerIp : String} {origin : Origin} {u : VerifiedOrderV1}
    (h : Asked E i body makerIp origin) (hu : origin.verified = some u) :
    Signs E i.now i.call u ∧ body = u.order.record := by
  cases h with
  | legacy => cases hu
  | signed body makerIp verified capabilities hcall hverified =>
    cases hu
    exact ⟨.inl ⟨body, makerIp, hcall, hverified⟩, rfl⟩
  | federated payload source verified hcall hverified =>
    cases hu
    exact ⟨.inr ⟨payload, source, hcall, hverified⟩, rfl⟩

theorem brings_of_prelock {body : Record} {makerIp : String} {origin : Origin} {federated : Bool}
    {terms : PrelockTerms} (hasked : Asked E i body makerIp origin)
    (h : createPrelock l body federated i.now = .ok (some terms)) :
    Brings E i.now i.call terms.hashlock := by
  cases hv : origin.verified with
  | some u =>
    obtain ⟨hsigns, rfl⟩ := hasked.signs hv
    have hprelock := createPrelock_record h
    cases hp : u.order.prelock with
    | none => simp [hp] at hprelock
    | some p =>
      rw [hp, Option.map_some, Option.some.injEq] at hprelock
      refine .inr (.inr ⟨u, hsigns, p, hp, ?_⟩)
      rw [hprelock]
  | none =>
    cases hasked with
    | signed => cases hv
    | federated => cases hv
    | legacy body makerIp hcall =>
      right
      left
      unfold createPrelock at h
      split at h
      · cases h
      · rename_i raw hraw
        simp only [bind_eq_ok, orThrow_eq_ok, refuse_eq_ok, pure_eq_ok, exists_const] at h
        obtain ⟨p, hp, hashlock, hhash, timeout, -, -, -, -, heq⟩ := h
        cases heq
        obtain ⟨str, hstr, hmatch⟩ := Option.bind_eq_some_iff.mp hhash
        refine ⟨body, makerIp, p, hcall, hraw ▸ hp, ?_⟩
        rw [hstr, matching_eq_some.mp hmatch]

theorem byMaker_of_draft {body : Record} {makerIp : String} {origin : Origin}
    (hstranger : ∀ u, Signs E i.now i.call u → u.order.makerQrlAccount ≠ v.order.makerQrlAccount)
    (hasked : Asked E i body makerIp origin)
    (hdraft : draftOrder E l i.now body makerIp origin i.random = .ok o)
    (hmaker : byMaker v o = true) :
    ∃ terms, i.call = .create body makerIp ∧ createTerms body = .ok terms ∧ Names v terms := by
  obtain ⟨terms, listing, prelock, hterms, -, -, rfl⟩ := draftOrder_new hdraft
  have hnames : Names v terms := by
    unfold byMaker sameMaker at hmaker
    rw [decide_eq_true_eq] at hmaker
    exact hmaker
  cases hv : origin.verified with
  | some u =>
    exfalso
    obtain ⟨hsigns, rfl⟩ := hasked.signs hv
    obtain ⟨-, -, -, -, -, hqrl⟩ := createTerms_record hterms
    have hlower := hnames.2
    rw [hqrl] at hlower
    exact hstranger u hsigns
      (Subtype.ext (toLowerCase_injective u.order.makerQrlAccount.property
        v.order.makerQrlAccount.property hlower))
  | none =>
    cases hasked with
    | signed => cases hv
    | federated => cases hv
    | legacy body makerIp hcall => exact ⟨terms, hcall, hterms, hnames⟩

theorem shares_of_draft {body : Record} {makerIp : String} {origin : Origin}
    (hspares : SparesIn E v i l)
    (hasked : Asked E i body makerIp origin)
    (hdraft : draftOrder E l i.now body makerIp origin i.random = .ok o) :
    ¬Shares v o := by
  obtain ⟨terms, listing, prelock, -, hvisibility, -, rfl⟩ := draftOrder_new hdraft
  cases hv : origin.verified with
  | some u =>
    obtain ⟨hsigns, rfl⟩ := hasked.signs hv
    obtain ⟨hmaker, hshare⟩ := hspares.capability u hsigns
    rw [parseVisibility_record, Except.ok.injEq] at hvisibility
    rintro (htoken | htoken)
    · simp only [newOrder, hv] at htoken
      exact hmaker (hexOf_injective htoken)
    · simp only [newOrder, hv] at htoken
      cases hl : listing.visibility with
      | pub =>
        rw [hl] at htoken
        cases htoken
      | priv =>
        rw [hl, Option.some.injEq] at htoken
        exact hshare (hvisibility.trans hl) (hexOf_injective htoken)
  | none =>
    cases hasked with
    | signed => cases hv
    | federated => cases hv
    | legacy body makerIp hcall =>
      obtain ⟨hmaker, hshare⟩ := hspares.tokens body makerIp hcall
      rintro (htoken | htoken)
      · exact hmaker htoken
      · simp only [newOrder, hv] at htoken
        cases hl : listing.visibility with
        | pub =>
          rw [hl] at htoken
          cases htoken
        | priv =>
          rw [hl, Option.some.injEq] at htoken
          exact hshare htoken

theorem id_of_draft {body : Record} {makerIp : String} {origin : Origin}
    (hstranger : ∀ u, Signs E i.now i.call u → u.orderId ≠ v.orderId)
    (hasked : Asked E i body makerIp origin)
    (hdraft : draftOrder E l i.now body makerIp origin i.random = .ok o) :
    o.id ≠ signedOrderId v.orderId := by
  cases hv : origin.verified with
  | some u =>
    obtain ⟨hsigns, -⟩ := hasked.signs hv
    obtain ⟨terms, listing, prelock, -, -, -, rfl⟩ := draftOrder_new hdraft
    intro hid
    rw [show (newOrder E origin i.random i.now terms listing prelock (sha256Hex E makerIp)).id =
      signedOrderId u.orderId
      by simp [newOrder, newOrderId, hv]] at hid
    exact hstranger u hsigns (Subtype.ext (congrArg (fun x : OrderId => x.val) hid))
  | none =>
    cases hasked with
    | signed => cases hv
    | federated => cases hv
    | legacy body makerIp hcall => exact (draftOrder_legacy hdraft).id_ne v.orderId

/-- One write of a stranger who spares the order. -/
theorem Welcome.write (h : Welcome v l) (hids : (l.map Order.id).Nodup)
    (hstranger : ∀ u, Signs E i.now i.call u →
      u.order.makerQrlAccount ≠ v.order.makerQrlAccount ∧ u.orderId ≠ v.orderId)
    (hspares : SparesIn E v i l) (hwrite : Write E i l l') : Welcome v l' := by
  cases hwrite with
  | create body makerIp origin o hasked hdraft =>
    -- Only a listing that names the maker's accounts takes up its room.
    have hroom : byMaker v o = true → Room v 2 l := by
      intro hmaker
      obtain ⟨terms, hcall, hterms, hnames⟩ :=
        byMaker_of_draft (fun u hu => (hstranger u hu).1) hasked hdraft hmaker
      exact hspares.listing body makerIp terms hcall hterms hnames
    refine ⟨⟨?_, ?_⟩, ?_, ?_, ?_⟩
    · rw [List.countP_append, List.countP_singleton]
      split
      · rename_i hopen
        have := (hroom (by
          unfold openByMaker at hopen
          rw [Bool.and_eq_true] at hopen
          exact hopen.2)).opened
        omega
      · exact h.room.opened
    · rw [List.countP_append, List.countP_singleton]
      split
      · rename_i hmaker
        have := (hroom hmaker).held
        omega
      · exact h.room.held
    · intro o' ho'
      rcases List.mem_append.mp ho' with ho' | ho'
      · exact h.hashlock o' ho'
      · obtain rfl := List.mem_singleton.mp ho'
        rintro ⟨p, hp, hlock, -⟩
        obtain ⟨terms, listing, prelock, -, -, hprelock, rfl⟩ := draftOrder_new hdraft
        cases prelock with
        | none => cases hlock
        | some q =>
          have hsame : q.hashlock = p.hashlock := Option.some.inj hlock
          exact hspares.hashlock p hp (hsame ▸ brings_of_prelock hasked hprelock)
    · intro o' ho'
      rcases List.mem_append.mp ho' with ho' | ho'
      · exact h.capability o' ho'
      · obtain rfl := List.mem_singleton.mp ho'
        exact shares_of_draft hspares hasked hdraft
    · intro o' ho'
      rcases List.mem_append.mp ho' with ho' | ho'
      · exact h.absent o' ho'
      · obtain rfl := List.mem_singleton.mp ho'
        exact id_of_draft (fun u hu => (hstranger u hu).2) hasked hdraft
  | change o f hmem hchange =>
    have horigin := hchange.sameOrigin
    have hopened := countP_changed (f := f) (openByMaker v) hids hmem
    have hheld := countP_changed (f := f) (byMaker v) hids hmem
    refine ⟨⟨?_, ?_⟩, ?_, ?_, ?_⟩
    · have hroom := h.room.opened
      by_cases hopen : openByMaker v (f o) = true
      · have hparts := hopen
        simp only [openByMaker, Bool.and_eq_true, decide_eq_true_eq, horigin.byMaker] at hparts
        -- The row was open before, or a release lists it again.
        rcases hchange.open hparts.1 with hwas | ⟨haccepted, body, hcall⟩
        · have : openByMaker v o = true := by simp [openByMaker, hwas, hparts.2]
          rw [if_pos this, if_pos hopen] at hopened
          omega
        · have := hspares.relisting body o hmem hcall hparts.2 haccepted
          rw [if_pos hopen] at hopened
          omega
      · rw [if_neg hopen] at hopened
        omega
    · rw [horigin.byMaker] at hheld
      have := h.room.held
      omega
    · intro o' ho'
      rcases mem_changed hids hmem ho' with rfl | ⟨ho', -⟩
      · rintro ⟨p, hp, hlock, hlive⟩
        rcases hchange.hashlock with ⟨hsame, hstatus⟩ | ⟨hashlock, hcall, hnew⟩
        · exact h.hashlock o hmem ⟨p, hp, hsame ▸ hlock, hstatus hlive⟩
        · rw [hnew, Option.some.injEq] at hlock
          exact hspares.hashlock p hp (.inl ⟨_, hlock ▸ hcall⟩)
      · exact h.hashlock o' ho'
    · intro o' ho'
      rcases mem_changed hids hmem ho' with rfl | ⟨ho', -⟩
      · exact fun hshares => h.capability o hmem (horigin.shares.mp hshares)
      · exact h.capability o' ho'
    · intro o' ho'
      rcases mem_changed hids hmem ho' with rfl | ⟨ho', -⟩
      · rw [horigin.id]
        exact h.absent o hmem
      · exact h.absent o' ho'

theorem Stored.write (h : Stored v l) (hids : (l.map Order.id).Nodup) (hwrite : Write E i l l') :
    Stored v l' := by
  obtain ⟨o, ho, hown⟩ := h
  cases hwrite with
  | create body makerIp origin o' => exact ⟨o, List.mem_append_left _ ho, hown⟩
  | change x f hmem hchange =>
    by_cases hid : o.id = x.id
    · obtain rfl := List.inj_on_of_nodup_map hids ho hmem hid
      exact ⟨f o, List.mem_map.mpr ⟨o, ho, if_pos rfl⟩, hchange.sameOrigin.own hown⟩
    · exact ⟨o, List.mem_map.mpr ⟨o, ho, if_neg hid⟩, hown⟩

theorem Effects.stored (h : Effects E i l l') (hids : (l.map Order.id).Nodup)
    (hkeeps : KeepsOwn v i.now l)
    (hl : Stored v l) : Stored v l' := by
  induction h with
  | kept => exact hl
  | wrote hwrote =>
    rcases hwrote with rfl | hwrite
    · exact hkeeps hl
    · exact (hkeeps hl).write ((sweepAll_ids i.now _).nodup hids) hwrite
  | sweep _ ih =>
    refine ih ((sweepAll_ids i.now _).nodup hids) ?_ (hkeeps hl)
    rw [KeepsOwn, sweepAll_idem]
    exact id

/-- One call of a stranger who spares the order. -/
theorem Effects.welcome (h : Effects E i l l') (hids : (l.map Order.id).Nodup)
    (hstranger : ∀ u, Signs E i.now i.call u →
      u.order.makerQrlAccount ≠ v.order.makerQrlAccount ∧ u.orderId ≠ v.orderId)
    (hspares : SparesIn E v i (sweepAll i.now l)) (hl : Welcome v (sweepAll i.now l)) :
    Welcome v (sweepAll i.now l') := by
  induction h with
  | kept => exact hl
  | wrote hwrote =>
    rcases hwrote with rfl | hwrite
    · rwa [sweepAll_idem]
    · exact (hl.write ((sweepAll_ids i.now _).nodup hids) hstranger hspares hwrite).sweep
  | sweep _ ih =>
    refine ih ((sweepAll_ids i.now _).nodup hids) ?_ ?_
    · rwa [sweepAll_idem]
    · rwa [sweepAll_idem]

variable {w : World} {js : List Step}

/-- The run that strangers who spare the order make. -/
abbrev Spared (E : Crypto) (v : VerifiedOrderV1) (w : World) (js : List Step) : Prop :=
  Along (World.step E) (fun w i => Stranger E v w i ∧ Spares E v w i) w js

theorem run_stored (hids : (w.store.orders.map Order.id).Nodup) (hl : Stored v w.store.orders)
    (hjs : Spared E v w js) :
    ((run (World.step E) w js).store.orders.map Order.id).Nodup ∧
    Stored v (run (World.step E) w js).store.orders :=
  invariant_of_along (I := fun w : World => (w.store.orders.map Order.id).Nodup ∧
    Stored v w.store.orders)
    (fun w i h hi => ⟨(w.step_effects E i).ids h.1,
      (w.step_effects E i).stored h.1 hi.2.keeps h.2⟩) hjs ⟨hids, hl⟩

theorem run_welcome (hids : (w.store.orders.map Order.id).Nodup)
    (hl : Welcome v (sweepAll w.clock w.store.orders))
    (hjs : Spared E v w js) :
    Welcome v (sweepAll (run (World.step E) w js).clock (run (World.step E) w js).store.orders) :=
  (invariant_of_along
    (I := fun w : World => (w.store.orders.map Order.id).Nodup ∧
      Welcome v (sweepAll w.clock w.store.orders))
    (fun w i h hi => ⟨(w.step_effects E i).ids h.1,
      (w.step_effects E i).welcome h.1 hi.1 hi.2.spares (h.2.later (w.clock_le_timed i))⟩) hjs
        ⟨hids, hl⟩).2

end Strangers

/-! ## What a welcome order can fail on -/

/-- The limits of the whole book and of the network source. -/
inductive CapacityRefusal : Thrown → Prop where
  | retained : CapacityRefusal (transient 503 "order book retained-state capacity is full")
  | full : CapacityRefusal (transient 503 "order book is full")
  | portable : CapacityRefusal (transient 503 "portable public-order capacity is full")
  | sourceOpen : CapacityRefusal (transient 429 "source already has too many open orders")
  | sourceRetained :
    CapacityRefusal (transient 429 "source already has too many retained order artifacts")

section Accepts

variable {E : Crypto} {v : VerifiedOrderV1} {now now' : SafeInt} {l l' : List Order} {o : Order}
  {capabilities : Capabilities} {makerIp makerIp' : String} {random random' : Random}

theorem length_openOrders (eth : EthAddress) (qrl : QrlAddress) :
    ((openOrders l).filter (sameMaker eth qrl)).length =
      l.countP fun o => decide (o.status = .open) && sameMaker eth qrl o := by
  unfold openOrders
  rw [List.filter_filter, ← List.countP_eq_length_filter]
  exact List.countP_congr fun o _ => by simp [and_comm]

theorem createPrelock_none {federated : Bool} (hp : v.order.prelock = none) :
    createPrelock l v.order.record federated now = .ok none := by
  unfold createPrelock
  simp only [OrderV1Body.record_get, List.lookup_cons, String.reduceBEq, BEq.rfl, Option.join_some]
  rw [hp]
  rfl

theorem createPrelock_some {federated : Bool} {p : Prelock} (hp : v.order.prelock = some p) :
    createPrelock l v.order.record federated now = (do
      refuse (federated = false ∧ (p.initiatorTimeout.val : Int) < now.val + prelockMinT1S)
        (apiError 400 "prelock.initiatorTimeout is too soon for a takeable listing")
      refuse (federated = false ∧ now.val + prelockMaxT1S < (p.initiatorTimeout.val : Int))
        (apiError 400 "prelock.initiatorTimeout is too far out")
      refuse (∃ other ∈ l, (other : Order).hashlock = some p.hashlock ∧ other.status ≠ .cancelled)
        (apiError 409 "an order with this hashlock already exists")
      pure (some ⟨p.hashlock, p.initiatorTimeout.val⟩)) := by
  have hget : v.order.record.get "prelock" = some p.toJson := by
    simp only [OrderV1Body.record_get, List.lookup_cons, String.reduceBEq, BEq.rfl,
      Option.join_some, hp, Option.map_some]
  unfold createPrelock
  rw [hget]
  simp only [Prelock.toJson, asRecord, asString, asInteger, safeJson, Num.ofNat, Num.toInt?,
    Record.get, List.lookup_cons,
    String.reduceBEq, BEq.rfl, orThrow, ok_bind, Option.bind_some, matching_val]

theorem welcome_of_draft
    (h : draftOrder E l now v.order.record makerIp (.signed v capabilities) random = .ok o) :
    Welcome v l := by
  have hfresh := draftOrder_fresh h
  obtain ⟨terms, listing, prelock, hterms, -, hprelock, ho⟩ := draftOrder_new h
  have hid : o.id = signedOrderId v.orderId := by rw [ho]; rfl
  obtain ⟨-, -, -, -, heth, hqrl⟩ := createTerms_record hterms
  have heth : terms.makerEthAccount = EthAccount.address v.order.makerEthAccount := Subtype.ext heth
  have hqrl : terms.makerQrlAccount = QrlAccount.address v.order.makerQrlAccount := Subtype.ext hqrl
  simp only [draftOrder, bind_eq_ok, refuse_eq_ok, pure_eq_ok, exists_const, hterms,
    Except.ok.injEq,
    exists_eq_left'] at h
  obtain ⟨_, -, _, hmaker, _, -, _, -, _, -, listing', -, prelock', hprelock', -, _,
    hcapability, -⟩ := h
  simp only [assertMakerCapacity, bind_eq_ok, refuse_eq_ok, exists_const, length_openOrders, heth,
    hqrl] at hmaker
  rw [← List.countP_eq_length_filter] at hmaker
  refine ⟨⟨?_, ?_⟩, ?_, ?_, ?_⟩
  · exact Nat.lt_of_not_le hmaker.1
  · exact Nat.lt_of_not_le hmaker.2
  · rintro o' ho' ⟨p, hp, hlock, hlive⟩
    rw [show (Origin.signed v capabilities).isFederated = false from rfl,
      createPrelock_some hp] at hprelock'
    simp only [bind_eq_ok, refuse_eq_ok, exists_const] at hprelock'
    exact hprelock'.2.2.1 ⟨o', ho', hlock, hlive⟩
  · intro o' ho' hshares
    simp only [assertFreshCapabilities, refuse_eq_ok] at hcapability
    exact hcapability ⟨o', ho', fun he => hfresh o' ho' (he.trans hid.symm), hshares⟩
  · exact fun o' ho' => hid ▸ hfresh o' ho'

theorem throws_prelock (hwelcome : Welcome v l)
    (hsoon : ∀ p ∈ v.order.prelock, now.val + prelockMinT1S ≤ (p : Prelock).initiatorTimeout.val)
    (hfar : ∀ p ∈ v.order.prelock, (p : Prelock).initiatorTimeout.val ≤ now.val + prelockMaxT1S) :
    ThrowsOnly CapacityRefusal (createPrelock l v.order.record false now) := by
  cases hp : v.order.prelock with
  | none => exact throwsOnly_of_ok (createPrelock_none hp)
  | some p =>
    rw [createPrelock_some hp]
    refine .bind (throwsOnly_refuse fun ⟨_, h⟩ => ?_) fun _ _ =>
      .bind (throwsOnly_refuse fun ⟨_, h⟩ => ?_)
      fun _ _ => .bind (throwsOnly_refuse fun ⟨o, ho, h⟩ => ?_) fun _ _ => throwsOnly_of_ok rfl
    · have := hsoon p hp
      omega
    · have := hfar p hp
      omega
    · exact absurd ⟨p, hp, h⟩ (hwelcome.hashlock o ho)

theorem throws_draft
    (h : draftOrder E l now v.order.record makerIp (.signed v capabilities) random = .ok o)
    (hle : now.val ≤ now'.val) (hwelcome : Welcome v l')
    (hsoon : ∀ p ∈ v.order.prelock, now'.val + prelockMinT1S ≤ (p : Prelock).initiatorTimeout.val) :
    ThrowsOnly CapacityRefusal
      (draftOrder E l' now' v.order.record makerIp' (.signed v capabilities) random') := by
  have hfar : ∀ p ∈ v.order.prelock, (p : Prelock).initiatorTimeout.val ≤
    now'.val + prelockMaxT1S := by
    intro p hp
    obtain ⟨terms, listing, prelock, -, -, hprelock, -⟩ := draftOrder_new h
    rw [show (Origin.signed v capabilities).isFederated = false from rfl,
      createPrelock_some hp] at hprelock
    simp only [bind_eq_ok, refuse_eq_ok, exists_const, not_and] at hprelock
    have := hprelock.2.1 trivial
    omega
  simp only [draftOrder, bind_eq_ok, refuse_eq_ok, pure_eq_ok, exists_const, parseVisibility_record,
    Except.ok.injEq, exists_eq_left'] at h
  obtain ⟨_, -, terms, hterms, _, -, _, -, _, -, listing, hlisting, prelock, -⟩ := h
  obtain ⟨-, -, -, -, heth, hqrl⟩ := createTerms_record hterms
  have heth : terms.makerEthAccount = EthAccount.address v.order.makerEthAccount := Subtype.ext heth
  have hqrl : terms.makerQrlAccount = QrlAccount.address v.order.makerQrlAccount := Subtype.ext hqrl
  unfold draftOrder
  -- The checks in the order of the draft; those of the book and of the source refuse for capacity.
  refine .bind ?_ fun _ _ => .bind (throwsOnly_of_ok hterms) fun t ht => ?_
  · exact .bind (throwsOnly_refuse fun _ => .retained) fun _ _ => throwsOnly_refuse fun _ => .full
  rw [hterms, Except.ok.injEq] at ht
  subst ht
  refine .bind ?_ fun _ _ => .bind ?_ fun _ _ =>
    .bind (throwsOnly_of_ok (parseVisibility_record _)) fun visibility hv => ?_
  · -- the limits of the maker
    unfold assertMakerCapacity
    rw [length_openOrders, heth, hqrl, ← List.countP_eq_length_filter]
    have hopened := hwelcome.room.opened
    have hheld := hwelcome.room.held
    refine .bind (throwsOnly_refuse fun hfull => ?_) fun _ _ => throwsOnly_refuse fun hfull => ?_
    · exact absurd hfull (Nat.not_le_of_lt hopened)
    · exact absurd hfull (Nat.not_le_of_lt hheld)
  · exact .bind (throwsOnly_refuse fun _ => .sourceOpen) fun _ _ => throwsOnly_refuse fun _ =>
      .sourceRetained
  rw [parseVisibility_record, Except.ok.injEq] at hv
  subst hv
  refine .bind ?_ fun _ _ => .bind (throwsOnly_of_ok hlisting) fun _ _ =>
    .bind (throws_prelock hwelcome hsoon hfar) fun prelock' _ => ?_
  · refine .bind (throwsOnly_refuse fun _ => .portable) fun _ _ => ?_
    cases v.order.visibility with
    | pub => exact throwsOnly_of_ok rfl
    | priv => exact throwsOnly_of_ok rfl
  refine .bind (throwsOnly_refuse fun ⟨o', ho', hid⟩ => ?_) fun _ _ =>
    .bind (throwsOnly_refuse ?_) fun _ _ =>
    throwsOnly_of_ok rfl
  · exact absurd hid (hwelcome.absent o' ho')
  · rintro ⟨o', ho', -, hshares⟩
    exact absurd hshares (hwelcome.capability o' ho')

variable {rawMakerToken rawShareToken : Option Json} {s s' : Store} {c : Created}

theorem Stored.of_sweep (h : Stored v (sweepAll now l)) : Stored v l := by
  obtain ⟨o', ho', hown⟩ := h
  obtain ⟨o, ho, hsweep⟩ := mem_sweepAll.mp ho'
  exact ⟨o, ho, (sweepOrder_sameOrigin hsweep).symm.own hown⟩

theorem createVerified_run
    (hcapabilities : signedCreateCapabilities E v rawMakerToken rawShareToken = .ok capabilities) :
    createVerified E now v rawMakerToken rawShareToken makerIp random s =
      createInternal E now v.order.record makerIp (.signed v capabilities) random s := by
  unfold createVerified
  rw [hcapabilities]
  rfl

theorem createInternal_stored {existing : Order}
    (h : (s.swept now).order? v.orderId.val = some existing) :
    createInternal E now v.order.record makerIp (.signed v capabilities) random s =
      resubmit now existing (.signed v capabilities) (s.swept now) := by
  unfold createInternal
  rw [sweep_bind_run, get_bind_run]
  simp only [Origin.verified, Option.bind_some, h]

theorem createInternal_eq_ok
    (h : createInternal E now v.order.record makerIp (.signed v capabilities) random s = .ok c s') :
    Stored v s.orders ∨ ∃ o,
      draftOrder E (sweepAll now s.orders) now v.order.record makerIp
        (.signed v capabilities) random = .ok o := by
  cases hfind : (s.swept now).order? v.orderId.val with
  | some existing =>
    left
    rw [createInternal_stored hfind] at h
    obtain ⟨hmem, hid⟩ := Store.order?_eq_some hfind
    unfold resubmit at h
    simp only [run_bind_ok, check_run_ok, refuse_eq_ok, not_not, not_or, not_and] at h
    obtain ⟨_, _, ⟨hdigest, rfl⟩, _, _, ⟨⟨hmaker, hshare⟩, rfl⟩, -⟩ := h
    exact Stored.of_sweep ⟨existing, hmem, ⟨Subtype.ext hid, hdigest, hmaker, hshare⟩⟩
  | none =>
    right
    unfold createInternal at h
    rw [sweep_bind_run, get_bind_run] at h
    simp only [Origin.verified, Option.bind_some, hfind] at h
    obtain ⟨o, _, ho, -⟩ := run_bind_ok.mp h
    exact ⟨o, (check_run_ok.mp ho).1⟩

theorem order?_of_mem {o : Order} (hids : (s.orders.map Order.id).Nodup) (ho : o ∈ s.orders) :
    s.order? o.id.val = some o := by
  obtain ⟨x, hfind⟩ : ∃ x, s.order? o.id.val = some x := by
    unfold Store.order?
    rw [← Option.isSome_iff_exists, List.find?_isSome]
    exact ⟨o, ho, by simp⟩
  obtain ⟨hmem, hid⟩ := Store.order?_eq_some hfind
  obtain rfl := List.inj_on_of_nodup_map hids hmem ho (Subtype.ext hid)
  exact hfind

theorem createInternal_of_stored (hids : (s.orders.map Order.id).Nodup)
    (h : Stored v (sweepAll now s.orders)) :
    ∃ c s', createInternal E now v.order.record makerIp (.signed v capabilities) random s =
      .ok c s' := by
  obtain ⟨existing, ho, hown⟩ := h
  have hfind : (s.swept now).order? v.orderId.val = some existing := by
    have := order?_of_mem (s := s.swept now) ((sweepAll_ids now s.orders).nodup hids) ho
    rwa [hown.id] at this
  rw [createInternal_stored hfind]
  unfold resubmit
  have hdigest : ¬existing.orderDigest ≠ some v.orderDigest := not_not.mpr hown.orderDigest
  have htokens : ¬(existing.makerTokenHash ≠ hexOf v.auth.makerTokenCommitment ∨
      (existing.visibility = .priv ∧
        existing.shareTokenHash ≠ some (hexOf v.auth.shareTokenCommitment))) := by
    rintro (hmaker | ⟨hpriv, hshare⟩)
    · exact hmaker hown.makerToken
    · exact hshare (hown.shareToken hpriv)
  simp only [refuse, if_neg hdigest, if_neg htokens, bind_run, check_ok]
  exact ⟨_, _, rfl⟩

theorem createInternal_throws {e : Thrown}
    (h : draftOrder E l now v.order.record makerIp (.signed v capabilities) random = .ok o)
    (hle : now.val ≤ now'.val) (hwelcome : Welcome v (sweepAll now' s.orders))
    (hsoon : ∀ p ∈ v.order.prelock, now'.val + prelockMinT1S ≤ (p : Prelock).initiatorTimeout.val)
    (herror : createInternal E now' v.order.record makerIp' (.signed v capabilities) random' s =
      .error e s') :
    CapacityRefusal e := by
  have hnone : (s.swept now').order? v.orderId.val = none := by
    unfold Store.order?
    rw [List.find?_eq_none]
    intro x hx hid
    exact hwelcome.absent x hx (Subtype.ext (of_decide_eq_true hid))
  unfold createInternal at herror
  rw [sweep_bind_run, get_bind_run] at herror
  simp only [Origin.verified, Option.bind_some, hnone, bind_run, Store.orders_swept] at herror
  cases hdraft :
    draftOrder E (sweepAll now' s.orders) now' v.order.record makerIp'
      (.signed v capabilities) random' with
  | ok o' =>
    rw [hdraft] at herror
    cases herror
  | error e' =>
    rw [hdraft] at herror
    cases herror
    exact throws_draft h hle hwelcome hsoon e hdraft

end Accepts

/-- The action refuses for nothing but what `P` allows. -/
def RefusesOnly {α : Type} (P : Thrown → Prop) (m : StoreM α) (s : Store) : Prop :=
  ∀ e s', m s = .error e s' → P e

/-- Strangers cannot block the listing of a maker whose order they spare: in every run from
a book that would take the order, it is refused for a capacity only. -/
theorem run_strangers (E : Crypto) (is js : List Step) (v : VerifiedOrderV1) (now now' : SafeInt)
    (rawMakerToken rawShareToken : Option Json) (makerIp makerIp' : String)
    (random random' : Random)
    (c : Created) (s : Store)
    (haccepted : createVerified E now v rawMakerToken rawShareToken makerIp random
      (run (World.step E) World.start is).store = .ok c s)
    (hjs : Spared E v ⟨(run (World.step E) World.start is).store, now⟩ js)
    (hnow' : (run (World.step E) ⟨(run (World.step E) World.start is).store, now⟩ js).clock.val ≤
      now'.val)
    (hkeeps : KeepsOwn v now' (run (World.step E) ⟨(run (World.step E) World.start is).store,
      now⟩ js).store.orders)
    (hsoon : ∀ p ∈ v.order.prelock, now'.val + prelockMinT1S ≤ (p : Prelock).initiatorTimeout.val) :
    RefusesOnly CapacityRefusal
      (createVerified E now' v rawMakerToken rawShareToken makerIp' random')
      (run (World.step E) ⟨(run (World.step E) World.start is).store, now⟩ js).store := by
  intro e s' hrefused
  have hids := run_ids E is
  obtain ⟨capabilities, hcapabilities⟩ : ∃ capabilities,
      signedCreateCapabilities E v rawMakerToken rawShareToken = .ok capabilities := by
    obtain ⟨capabilities, _, h, -⟩ := run_bind_ok.mp haccepted
    exact ⟨capabilities, (check_run_ok.mp h).1⟩
  rw [createVerified_run hcapabilities] at haccepted hrefused
  rcases createInternal_eq_ok haccepted with hstored | ⟨o, hdraft⟩
  · obtain ⟨hids', hstored'⟩ := run_stored (w := ⟨_, now⟩) hids hstored hjs
    obtain ⟨c', s'', hok⟩ := createInternal_of_stored hids' (hkeeps hstored')
    rw [hok] at hrefused
    cases hrefused
  · have hwelcome := run_welcome (w := ⟨_, now⟩) hids (welcome_of_draft hdraft) hjs
    have hle := run_clock_le E ⟨(run (World.step E) World.start is).store, now⟩ js
    exact createInternal_throws hdraft (hle.trans hnow') (hwelcome.later hnow') hsoon hrefused

/-! ## A stranger's hashlock -/

/-- `0x` and one digit `n` times. -/
def repeated (n : Nat) (c : Char) (h : isLowerHex c = true) :
    Matching (fixed ['0', 'x'] n isLowerHex) :=
  ⟨String.ofList ('0' :: 'x' :: List.replicate n c),
    fixed_iff.mpr ⟨List.replicate n c, by simp, by simp, by simp [h]⟩⟩

/-- Every signature holds, and raw tokens that start with `0` hash apart from other texts. -/
def vouchingCrypto : Crypto where
  sha256 bytes :=
    hexOf (if bytes.head? =
      some 48 then repeated 64 '2' lowerHex_two else repeated 64 '1' lowerHex_one)
  shake256 _ := []
  verifyMessageForSigner _ _ _ _ _ := true

def sampleAuth : MakerOrderAuthV1 where
  issuedAt := sampleClock
  expiresAt := ⟨1010000, by decide⟩
  nonce := repeated 64 '3' lowerHex_three
  signature := repeated (4627 * 2) '4' lowerHex_four
  publicKey := repeated (2592 * 2) '5' (by decide)
  descriptor := ⟨"0x010000", by decide⟩
  makerTokenCommitment := repeated 64 '1' lowerHex_one
  shareTokenCommitment := zeroBytes32

theorem sampleTimeout_safe : 1020000 ≤ maxSafeInteger := by decide

/-- A signed listing of one ETH for one QRL, prelocked under `sampleHashlock`. -/
def sampleOrder : OrderV1Body where
  direction := .ethToQrl
  asset := .ETH
  fromAmount := ⟨"1000000000000000000", by decide +kernel⟩
  toAmount := ⟨"1000000000000000000", by decide +kernel⟩
  makerEthAccount := ⟨"0x" ++ String.ofList (List.replicate 40 '6'), by decide +kernel⟩
  makerQrlAccount := ⟨"Q" ++ String.ofList (List.replicate 128 '6'), by decide +kernel⟩
  visibility := .pub
  allowedTakerEth := none
  allowedTakerQrl := none
  prelock := some ⟨sampleHashlock, ⟨1020000, sampleTimeout_safe⟩⟩

def sampleSigned : VerifiedOrderV1 where
  orderId := deriveOrderV1Id vouchingCrypto sampleOrder.makerQrlAccount sampleAuth.nonce
  orderDigest := digestOfMessage vouchingCrypto (orderMessage sampleOrder sampleAuth)
  order := sampleOrder
  auth := sampleAuth

theorem sampleSigned_valid :
    checkOrderV1 vouchingCrypto sampleClock false sampleOrder sampleAuth = .ok sampleSigned := by
  refine checkOrderV1_eq_ok.mpr ⟨⟨by decide, by decide, by decide, by decide, ?_, ?_, ?_⟩, rfl, rfl⟩
  · rintro p hp
    cases hp
    decide
  · decide +kernel
  · exact iff_of_true rfl rfl

/-- A listing of other accounts, sent without a signature. -/
def strangerStep (prelock : Record) : Step :=
  sampleStep 'a' lowerHex_a (.create (sampleListing prelock) "stranger")

theorem strangerStep_unsigned (prelock : Record) (now : SafeInt) (u : VerifiedOrderV1) :
    ¬Signs vouchingCrypto now (strangerStep prelock).call u := by
  rintro (⟨_, _, hcall, -⟩ | ⟨_, _, hcall, -⟩)
  · cases hcall
  · cases hcall

def sampleToken : Option Json := some (.str (hexOf (repeated 64 '7' lowerHex_seven)).val)

/-- What `POST /api/orders/signed` answers to the sample order. -/
def sampleCreate (s : Store) : EStateM.Result Thrown Store Created :=
  createVerified vouchingCrypto sampleClock sampleSigned sampleToken none "maker"
    (sampleRandom 'b' lowerHex_b) s

set_option maxRecDepth 10000 in
theorem sampleCreate_start : ∃ c s, sampleCreate World.start.store = .ok c s := by
  have h : (match sampleCreate World.start.store with | .ok .. => true | .error .. => false) =
    true := by
    decide +kernel
  cases hr : sampleCreate World.start.store with
  | ok c s => exact ⟨c, s, rfl⟩
  | error e s => rw [hr] at h; cases h

set_option maxRecDepth 10000 in
/-- An unsigned listing that names the hashlock first keeps the signed order out. -/
theorem strangerHashlock_blocks :
    checkOrderV1 vouchingCrypto sampleClock false sampleOrder sampleAuth = .ok sampleSigned ∧
      (∃ c s, sampleCreate World.start.store = .ok c s) ∧
      (∀ u, ¬Signs vouchingCrypto sampleClock (strangerStep samplePrelock).call u) ∧
      ∃ s, sampleCreate (World.step vouchingCrypto World.start (strangerStep samplePrelock)).store =
        .error (apiError 409 "an order with this hashlock already exists") s := by
  refine ⟨sampleSigned_valid, sampleCreate_start, strangerStep_unsigned _ _, ?_⟩
  have h : (match sampleCreate
    (World.step vouchingCrypto World.start (strangerStep samplePrelock)).store with
    | .ok .. => none
    | .error e _ => some e) = some (apiError 409 "an order with this hashlock already exists") := by
    decide +kernel
  cases hr : sampleCreate
    (World.step vouchingCrypto World.start (strangerStep samplePrelock)).store with
  | ok c s => rw [hr] at h; cases h
  | error e s =>
    rw [hr] at h
    obtain rfl := Option.some.inj h
    exact ⟨s, rfl⟩

set_option maxRecDepth 10000 in
/-- A stranger's listing without the hashlock leaves the signed order its place. -/
theorem run_strangers_listing :
    RefusesOnly CapacityRefusal
      (createVerified vouchingCrypto sampleClock sampleSigned sampleToken none "other"
        (sampleRandom 'c' (by decide)))
      (World.step vouchingCrypto ⟨World.start.store, sampleClock⟩ (strangerStep [])).store := by
  obtain ⟨c, s, haccepted⟩ := sampleCreate_start
  refine run_strangers vouchingCrypto []
    [strangerStep []] sampleSigned sampleClock sampleClock sampleToken none
    "maker" "other" (sampleRandom 'b' (by decide))
      (sampleRandom 'c' (by decide)) c s haccepted ⟨⟨?_, ?_⟩, trivial⟩
    (by decide +kernel) ?_ ?_
  · exact fun u hu => absurd hu (strangerStep_unsigned _ _ u)
  · refine ⟨⟨?_, ?_, ?_, ?_, ?_⟩, ?_⟩
    · intro body makerIp terms hcall hterms hnames
      exact ⟨by decide, by decide⟩
    · intro body o ho
      cases ho
    · rintro p hp (⟨id, hcall⟩ | ⟨body, makerIp, q, hcall, hrecord, -⟩ | ⟨u, hu, -⟩)
      · cases hcall
      · cases hcall
        have hnone : asRecord ((sampleListing []).get "prelock") = none := by decide +kernel
        rw [hnone] at hrecord
        cases hrecord
      · exact strangerStep_unsigned _ _ u hu
    · exact fun u hu => absurd hu (strangerStep_unsigned _ _ u)
    · intro body makerIp hcall
      exact ⟨by decide +kernel, by decide +kernel⟩
    · rintro ⟨o, ho, -⟩
      cases ho
  · rintro ⟨o, ho, hown⟩
    have hunsigned :
      ∀ o ∈ (World.step vouchingCrypto ⟨World.start.store, sampleClock⟩
        (strangerStep [])).store.orders, o.orderDigest = none := by decide +kernel
    have hdigest := hown.orderDigest
    rw [hunsigned o ho] at hdigest
    cases hdigest
  · rintro p hp
    cases hp
    decide

end QuantaSwap.Book
