import QuantaSwap.Book.System

/-!
# One live order per hashlock

`createInternal` refuses a prelock that another live order carries. `announceHashlock`
and `applyFill` do not look.
-/

set_option autoImplicit false

namespace QuantaSwap.Book

open Lib.Js Lib.Text Lib.Checks Lib.Run

/-- The order that a call gives a hashlock to, and the hashlock. -/
def Call.hashlock? (c : Call) : Option (String × Hashlock) :=
  (c.fill?.map fun (id, fill) => (id, fill.hashlock)).or
    (c.announcement?.bind fun (id, body) =>
      ((asString (body.get "hashlock")).bind (matching bytes32Re)).map (id, ·))

/-- Some other order that is not cancelled carries the hashlock. -/
def CarriedElsewhere (l : List Order) (id : String) (hashlock : Hashlock) : Prop :=
  ∃ o ∈ l, o.id.val ≠ id ∧ o.status ≠ .cancelled ∧ o.hashlock = some hashlock

/-- The call brings no hashlock that another live order carries. -/
def FreshHashlock (l : List Order) (c : Call) : Prop :=
  ∀ id hashlock, c.hashlock? = some (id, hashlock) → ¬CarriedElsewhere l id hashlock

/-- Orders that are not cancelled have different hashlocks. -/
def LiveHashlocksUnique (l : List Order) : Prop :=
  ∀ a ∈ l, ∀ b ∈ l, a.status ≠ .cancelled → b.status ≠ .cancelled → a.hashlock ≠ none →
    a.hashlock = b.hashlock → a.id = b.id

section Effects

variable {E : Crypto} {i : Step} {l l' : List Order}

theorem sweepOrder_hashlock {now : SafeInt} {o o' : Order} (h : sweepOrder now o = some o') :
    o'.hashlock = o.hashlock ∧ (o'.status ≠ .cancelled → o.status ≠ .cancelled) := by
  simp only [sweepOrder] at h
  split at h
  · cases h
    exact ⟨rfl, fun hlive => absurd rfl hlive⟩
  · split at h
    · cases h
    · cases h
      exact ⟨rfl, id⟩

theorem fill?_hashlock {c : Call} {id : String} {fill : FillV1Body}
    (h : c.fill? = some (id, fill)) :
    c.hashlock? = some (id, fill.hashlock) := by
  rw [Call.hashlock?, h]
  rfl

theorem announcement?_hashlock {c : Call} {o : Order} {id : String} {body : Record} {now : SafeInt}
    {terms : Hashlock × Int × Int} (h : c.announcement? = some (id, body))
    (hterms : announcedTerms now o body = .ok terms) : c.hashlock? = some (id, terms.1) := by
  simp only [announcedTerms, bind_eq_ok, orThrow_eq_ok, pure_eq_ok] at hterms
  obtain ⟨hashlock, hhash, t1, -, t2, -, _, -, _, -, _, -, _, -, rfl⟩ := hterms
  have hnofill : c.fill? = none := by
    unfold Call.announcement? at h
    split at h
    · rfl
    · cases h
  rw [Call.hashlock?, hnofill, h]
  change ((asString (body.get "hashlock")).bind (matching bytes32Re)).map (id, ·) =
    some (id, hashlock)
  rw [hhash]
  rfl

theorem Change.hashlock {o o' : Order} (h : Change E i o o') :
    (o'.hashlock = o.hashlock ∧ (o'.status ≠ .cancelled → o.status ≠ .cancelled)) ∨
      ∃ hashlock, i.call.hashlock? = some (o.id.val, hashlock) ∧ o'.hashlock = some hashlock := by
  cases h with
  | orderConflict verified hproof hopen hpublic hid hdigest hnew =>
    refine .inl ⟨rfl, fun hlive => ?_⟩
    rcases hstatus : o.status <;> simp_all [addOrderConflict]
  | portable hportable h =>
    cases h with
    | fill raw variant intent fill hvariant hintent hfill hcall hopen hnofill hnocancel =>
      exact .inr ⟨fill.fill.hashlock, fill?_hashlock hcall, rfl⟩
    | cancel => exact .inl ⟨rfl, fun hlive => absurd rfl hlive⟩
    | _ => exact .inl ⟨rfl, id⟩
  | legacy hlegacy h =>
    cases h with
    | announce body terms hcall hterms haccepted =>
      exact .inr ⟨terms.1, announcement?_hashlock hcall hterms, rfl⟩
    | accept eth qrl tokenHash ipHash hopen => exact .inl ⟨rfl, by simp [hopen]⟩
    | relist body haccepted => exact .inl ⟨rfl, by simp [haccepted]⟩
    | releaseLocking hlocking => exact .inl ⟨rfl, id⟩
    | withdraw => exact .inl ⟨rfl, fun hlive => absurd rfl hlive⟩

theorem draftOrder_hashlock {now : SafeInt} {body : Record} {makerIp : String} {origin : Origin}
    {random : Random}
    {o : Order} (h : draftOrder E l now body makerIp origin random = .ok o) :
    ∀ x ∈ l, x.status ≠ .cancelled → o.hashlock ≠ none → x.hashlock ≠ o.hashlock := by
  simp only [draftOrder, bind_eq_ok, refuse_eq_ok, pure_eq_ok, exists_const] at h
  obtain ⟨_, -, terms, -, _, -, _, -, v, -, _, -, listing, -, prelock, hprelock, -, _, -, rfl⟩ := h
  intro x hx hlive hsome heq
  unfold createPrelock at hprelock
  split at hprelock
  · cases hprelock
    exact hsome rfl
  · simp only [bind_eq_ok, orThrow_eq_ok, refuse_eq_ok, pure_eq_ok, exists_const] at hprelock
    obtain ⟨p, -, hashlock, -, timeout, -, -, -, hfree, rfl⟩ := hprelock
    exact hfree ⟨x, hx, heq, hlive⟩

theorem sweepAll_carriedElsewhere {now : SafeInt} {id : String} {hashlock : Hashlock}
    (h : CarriedElsewhere (sweepAll now l) id hashlock) : CarriedElsewhere l id hashlock := by
  obtain ⟨o', ho', hid, hlive, hlock⟩ := h
  obtain ⟨o, ho, hsome⟩ := mem_sweepAll.mp ho'
  obtain ⟨hsame, hstatus⟩ := sweepOrder_hashlock hsome
  exact ⟨o, ho, sweepOrder_id hsome ▸ hid, hstatus hlive, hsame ▸ hlock⟩

theorem sweepAll_liveHashlocksUnique (now : SafeInt) (h : LiveHashlocksUnique l) :
    LiveHashlocksUnique (sweepAll now l) := by
  intro a' ha' b' hb' hla hlb hsome heq
  obtain ⟨a, ha, hsa⟩ := mem_sweepAll.mp ha'
  obtain ⟨b, hb, hsb⟩ := mem_sweepAll.mp hb'
  obtain ⟨hha, hra⟩ := sweepOrder_hashlock hsa
  obtain ⟨hhb, hrb⟩ := sweepOrder_hashlock hsb
  rw [sweepOrder_id hsa, sweepOrder_id hsb]
  rw [hha] at hsome heq
  rw [hhb] at heq
  exact h a ha b hb (hra hla) (hrb hlb) hsome heq

theorem change_apart {o o' x : Order} (h : Change E i o o') (hunique : LiveHashlocksUnique l)
    (hfresh : FreshHashlock l i.call) (hmem : o ∈ l) (hx : x ∈ l) (hid : x.id ≠ o.id)
    (hlive' : o'.status ≠ .cancelled) (hlivex : x.status ≠ .cancelled)
    (hsome : o'.hashlock ≠ none) :
    o'.hashlock ≠ x.hashlock := by
  intro heq
  rcases h.hashlock with ⟨hsame, hlive⟩ | ⟨hashlock, hcall, hnew⟩
  · rw [hsame] at hsome heq
    exact hid (hunique o hmem x hx (hlive hlive') hlivex hsome heq).symm
  · have hne : x.id.val ≠ o.id.val := fun hval => hid (Subtype.ext hval)
    exact hfresh _ _ hcall ⟨x, hx, hne, hlivex, heq.symm.trans hnew⟩

theorem write_liveHashlocksUnique (hids : (l.map Order.id).Nodup) (hunique : LiveHashlocksUnique l)
    (hfresh : FreshHashlock l i.call) (h : Write E i l l') : LiveHashlocksUnique l' := by
  cases h with
  | create body makerIp origin o hasked hdraft =>
    have hapart := draftOrder_hashlock hdraft
    intro a ha b hb hla hlb hsome heq
    rw [List.mem_append, List.mem_singleton] at ha hb
    rcases ha with ha | rfl <;> rcases hb with hb | rfl
    · exact hunique a ha b hb hla hlb hsome heq
    · exact absurd heq (hapart a ha hla (heq ▸ hsome))
    · exact absurd heq.symm (hapart b hb hlb hsome)
    · rfl
  | change o f hmem hchange =>
    intro a ha b hb hla hlb hsome heq
    rcases mem_changed hids hmem ha with rfl | ⟨ha, hida⟩ <;>
      rcases mem_changed hids hmem hb with rfl | ⟨hb, hidb⟩
    · rfl
    · exact absurd heq (change_apart hchange hunique hfresh hmem hb hidb hla hlb hsome)
    · exact absurd heq.symm (change_apart hchange hunique hfresh hmem ha hida hlb hla (heq ▸ hsome))
    · exact hunique a ha b hb hla hlb hsome heq

/-- One call keeps live hashlocks apart when the hashlock it brings is fresh. -/
theorem Effects.liveHashlocksUnique (h : Effects E i l l') (hids : (l.map Order.id).Nodup)
    (hunique : LiveHashlocksUnique l) (hfresh : FreshHashlock l i.call) :
    LiveHashlocksUnique l' := by
  refine h.ends (P := fun l => (l.map Order.id).Nodup ∧ LiveHashlocksUnique l ∧
    FreshHashlock l i.call) ?_ ?_
    ⟨hids, hunique, hfresh⟩
  · rintro l ⟨hids, hunique, hfresh⟩
    refine ⟨(sweepAll_ids i.now l).nodup hids, sweepAll_liveHashlocksUnique i.now hunique, ?_⟩
    intro id hashlock hcall hcarried
    exact hfresh id hashlock hcall (sweepAll_carriedElsewhere hcarried)
  · rintro l l' ⟨hids, hunique, hfresh⟩ (rfl | hwrite)
    · exact hunique
    · exact write_liveHashlocksUnique hids hunique hfresh hwrite

end Effects

/-- Two rows that `load` accepts together. -/
def HashlocksApart (a b : Order) : Prop :=
  a.status ≠ .cancelled → b.status ≠ .cancelled → a.hashlock ≠ none → a.hashlock ≠ b.hashlock

instance (a b : Order) : Decidable (HashlocksApart a b) :=
  inferInstanceAs (Decidable (a.status ≠ .cancelled → b.status ≠ .cancelled → a.hashlock ≠ none →
    a.hashlock ≠ b.hashlock))

theorem pairwise_hashlocksApart {l : List Order} (hids : (l.map Order.id).Nodup)
    (h : LiveHashlocksUnique l) :
    l.Pairwise HashlocksApart := by
  have hpairwise : l.Pairwise fun a b => a.id ≠ b.id := List.pairwise_map.mp hids
  refine hpairwise.imp_of_mem ?_
  intro a b ha hb hne hla hlb hsome heq
  exact hne (h a ha b hb hla hlb hsome heq)

/-- A call of the run that changes a row brings a fresh hashlock or none. -/
def FreshHashlocks (E : Crypto) (w : World) (i : Step) : Prop :=
  w.Writes E i → FreshHashlock w.store.orders i.call

theorem World.step_liveHashlocksUnique {E : Crypto} {w : World} {i : Step}
    (hids : (w.store.orders.map Order.id).Nodup)
    (hunique : LiveHashlocksUnique w.store.orders) (hfresh : FreshHashlocks E w i) :
    LiveHashlocksUnique (w.step E i).store.orders := by
  by_cases hwrites : w.Writes E i
  · exact (w.step_effects E i).liveHashlocksUnique hids hunique (hfresh hwrites)
  · rcases World.orders_of_not_writes hwrites with h | h
    · rw [h]
      exact hunique
    · rw [h]
      exact sweepAll_liveHashlocksUnique _ hunique

/-- In a run of calls that bring fresh hashlocks, no two live orders share one. -/
theorem run_hashlocksApart (E : Crypto) (is : List Step)
    (h : Along (World.step E) (FreshHashlocks E) World.start is) :
    (run (World.step E) World.start is).store.orders.Pairwise HashlocksApart := by
  have hstart :
    (World.start.store.orders.map Order.id).Nodup ∧ LiveHashlocksUnique World.start.store.orders :=
    ⟨List.nodup_nil, fun a ha => absurd ha List.not_mem_nil⟩
  have hinv := invariant_of_along (I := fun w : World =>
    (w.store.orders.map Order.id).Nodup ∧ LiveHashlocksUnique w.store.orders) (fun w i hw hfresh =>
      ⟨(w.step_effects E i).ids hw.1, World.step_liveHashlocksUnique hw.1 hw.2 hfresh⟩) h hstart
  exact pairwise_hashlocksApart hinv.1 hinv.2

/-! ## Two legacy makers, one hashlock -/

/-- One digest for every text and no valid signature: legacy orders need neither. -/
def flatCrypto : Crypto where
  sha256 _ := hexOf zeroBytes32
  shake256 _ := []
  verifyMessageForSigner _ _ _ _ _ := false

/-! The digits that sample values repeat, and below their times, are named once for all modules. -/

theorem lowerHex_one : isLowerHex '1' = true := by decide
theorem lowerHex_two : isLowerHex '2' = true := by decide
theorem lowerHex_three : isLowerHex '3' = true := by decide
theorem lowerHex_four : isLowerHex '4' = true := by decide
theorem lowerHex_seven : isLowerHex '7' = true := by decide
theorem lowerHex_a : isLowerHex 'a' = true := by decide
theorem lowerHex_b : isLowerHex 'b' = true := by decide

def sampleRandom (c : Char) (h : isLowerHex c = true) : Random where
  id := ⟨String.ofList (List.replicate 16 c),
    fixed_iff.mpr ⟨List.replicate 16 c, by simp, by simp, by simp [h]⟩⟩
  makerToken := hexOf zeroBytes32
  shareToken := hexOf zeroBytes32
  takerToken := hexOf zeroBytes32

def sampleEth : String := "0x" ++ String.ofList (List.replicate 40 '1')
def sampleQrl : String := "Q" ++ String.ofList (List.replicate 128 '1')
def sampleHashlock : Hashlock := ⟨"0x" ++ String.ofList (List.replicate 64 '1'), by decide +kernel⟩

def sampleClock : SafeInt := ⟨1000000, by decide⟩

/-- A legacy listing of one ETH for one QRL, with a prelock or without. -/
def sampleListing (prelock : Record) : Record :=
  [("direction", .str "eth->qrl"), ("fromAmount", .str "1000000000000000000"),
    ("toAmount", .str "1000000000000000000"), ("makerEthAccount", .str sampleEth),
    ("makerQrlAccount", .str sampleQrl)] ++ prelock

def samplePrelock : Record :=
  [("prelock", .obj [("hashlock", .str sampleHashlock.val), ("initiatorTimeout", intJson 1020000)])]

def sampleAnnouncement (hashlock : Hashlock) (initiatorTimeout responderTimeout : Int) : Record :=
  [("token", .str (hexOf zeroBytes32).val), ("hashlock", .str hashlock.val),
    ("initiatorTimeout", intJson initiatorTimeout), ("responderTimeout", intJson responderTimeout)]

theorem sampleAnnouncement_hashlock (id : String) (hashlock : Hashlock)
    (initiatorTimeout responderTimeout : Int) :
    (Call.announceHashlock id
      (sampleAnnouncement hashlock initiatorTimeout responderTimeout)).hashlock? =
      some (id, hashlock) := by
  have hmatch : matching bytes32Re hashlock.val = some hashlock := matching_val hashlock
  unfold Call.hashlock? Call.fill? Call.announcement?
  change (((some hashlock.val).bind (matching bytes32Re)).map (id, ·)) = some (id, hashlock)
  rw [Option.bind_some, hmatch]
  rfl

def sampleStep (c : Char) (h : isLowerHex c = true) (call : Call) : Step :=
  ⟨sampleClock, sampleRandom c h, call⟩

/-- A listing is created, taken and announced. -/
def sampleSwap (hashlock : Hashlock) (initiatorTimeout responderTimeout : Int) : List Step :=
  let id := (sampleRandom 'a' lowerHex_a).id.val
  [sampleStep 'a' lowerHex_a (.create (sampleListing []) "maker"),
    sampleStep 'a' lowerHex_a (.accept id [("takerEthAccount", .str sampleEth),
      ("takerQrlAccount", .str sampleQrl)]
      "taker"),
    sampleStep 'a' lowerHex_a (.announceHashlock id
      (sampleAnnouncement hashlock initiatorTimeout responderTimeout))]

/-- A prelocked listing, and a swap that announces its hashlock. -/
def sharedHashlock : List Step :=
  sampleStep 'b' lowerHex_b (.create (sampleListing samplePrelock) "other") ::
    sampleSwap sampleHashlock 1020000 1003600

set_option maxRecDepth 10000 in
/-- `announceHashlock` lets two live orders carry one hashlock. -/
theorem sharedHashlock_not_apart :
    ¬(run (World.step flatCrypto) World.start sharedHashlock).store.orders.Pairwise
      HashlocksApart := by
  decide +kernel

def otherHashlock : Hashlock := ⟨"0x" ++ String.ofList (List.replicate 64 '2'), by decide +kernel⟩

/-- A prelocked listing, and a swap that announces a hashlock of its own. -/
def apartHashlocks : List Step :=
  sampleStep 'b' lowerHex_b (.create (sampleListing samplePrelock) "other") ::
    sampleSwap otherHashlock 1020000 1003600

set_option maxRecDepth 10000 in
theorem apartHashlocks_fresh :
    Along (World.step flatCrypto) (FreshHashlocks flatCrypto) World.start apartHashlocks := by
  refine ⟨?_, ?_, ?_, ?_, trivial⟩
  · intro _ id hashlock hcall
    cases hcall
  · intro _ id hashlock hcall
    cases hcall
  · intro _ id hashlock hcall
    cases hcall
  · rintro - id hashlock hcall ⟨o, ho, -, -, hcarried⟩
    have hannounced : hashlock = otherHashlock :=
      (congrArg Prod.snd
        (Option.some.inj ((sampleAnnouncement_hashlock _ _ _ _).symm.trans hcall))).symm
    have hnone : ∀ o ∈
      (run (World.step flatCrypto) World.start (apartHashlocks.take 3)).store.orders,
        o.hashlock ≠ some otherHashlock := by
      decide +kernel
    exact hnone o ho (hannounced ▸ hcarried)

set_option maxRecDepth 10000 in
/-- A locked swap beside a prelocked listing. -/
theorem run_hashlocksApart_listings :
    (run (World.step flatCrypto) World.start apartHashlocks).store.orders.map
      (fun o => (o.status, o.hashlock)) =
        [(.open, some sampleHashlock), (.locking, some otherHashlock)] ∧
      (run (World.step flatCrypto) World.start apartHashlocks).store.orders.Pairwise
        HashlocksApart :=
  ⟨by decide +kernel, run_hashlocksApart flatCrypto apartHashlocks apartHashlocks_fresh⟩

end QuantaSwap.Book
