import Mathlib.Data.List.Sort
import QuantaSwap.Book.Queue
import QuantaSwap.Maker.BookClient

/-!
# Who is first

The book sorts the proposals of an order by priority before it shows them, and the market maker
sorts what it was shown once more. Both come to the same proposal, in whatever order they are
presented.
-/

set_option autoImplicit false

namespace QuantaSwap.Maker.Daemon

open Lib.Run

/-- A row of `listFillIntents` as the maker reads it. -/
def selected (i : Book.PublicFillIntentV1) : SelectedFillIntentV1 String Book.Bytes32 where
  intentDigest := i.intentDigest
  intent := ⟨i.intent.orderDigest, i.intent.takerEthAccount.val, i.intent.takerQrlAccount.val,
    i.intent.releaseCommitment⟩
  auth := ⟨"qrl-sign-message-v2", i.auth.issuedAt.val, i.auth.expiresAt.val, i.auth.nonce,
    i.auth.signature.val,
    i.auth.publicKey.val, i.auth.descriptor.val⟩
  receivedAt := i.receivedAt.val

/-- `localeCompare` of two digests is not positive. -/
def digestLE (left right : Book.Bytes32) : Bool := decide (left.val.toList ≤ right.val.toList)

section Order

variable {a b c : SelectedFillIntentV1 String Book.Bytes32}

theorem intentLE_iff : intentLE digestLE a b = true ↔ intentPriority a < intentPriority b ∨
    (intentPriority a = intentPriority b ∧ (a.auth.issuedAt < b.auth.issuedAt ∨
      (a.auth.issuedAt = b.auth.issuedAt ∧
        a.intentDigest.val.toList ≤ b.intentDigest.val.toList))) := by
  simp only [intentLE, digestLE, Bool.or_eq_true, Bool.and_eq_true, decide_eq_true_eq]

theorem intentLE_total (a b : SelectedFillIntentV1 String Book.Bytes32) :
    intentLE digestLE a b = true ∨ intentLE digestLE b a = true := by
  rw [intentLE_iff, intentLE_iff]
  have hdigest := le_total a.intentDigest.val.toList b.intentDigest.val.toList
  grind

theorem intentLE_trans (hab : intentLE digestLE a b = true) (hbc : intentLE digestLE b c = true) :
    intentLE digestLE a c = true := by
  rw [intentLE_iff] at hab hbc ⊢
  have hdigest : a.intentDigest.val.toList ≤ b.intentDigest.val.toList →
      b.intentDigest.val.toList ≤ c.intentDigest.val.toList →
        a.intentDigest.val.toList ≤ c.intentDigest.val.toList := le_trans
  grind

theorem intentLE_antisymm (hab : intentLE digestLE a b = true)
    (hba : intentLE digestLE b a = true) :
    a.intentDigest = b.intentDigest := by
  rw [intentLE_iff] at hab hba
  have hdigest : a.intentDigest.val.toList ≤ b.intentDigest.val.toList ∧
      b.intentDigest.val.toList ≤ a.intentDigest.val.toList := by grind
  exact Subtype.ext (String.toList_inj.mp (le_antisymm hdigest.1 hdigest.2))

theorem intentLE_selected (a b : Book.PublicFillIntentV1) :
    intentLE digestLE (selected a) (selected b) = Book.intentBefore a b := by
  have hpriority (i : Book.PublicFillIntentV1) :
    intentPriority (selected i) = (Book.intentPriority i : Int) := by
    unfold intentPriority Book.intentPriority selected
    dsimp only
    omega
  rw [Bool.eq_iff_iff, intentLE_iff, Book.intentBefore_iff, hpriority, hpriority]
  simp only [selected, Int.ofNat_lt, Int.natCast_inj]

end Order

/-! ## The proposal that is taken -/

section Chosen

variable {now : Lib.Js.SafeInt} {digest : Book.Bytes32} {now' : Int}
  {verify : SelectedFillIntentV1 String Book.Bytes32 → Bool} {o : Book.Order}

/-- What the maker can take: a proposal for its order that is live by its own clock, and valid. -/
def isCandidate (orderDigest : Book.Bytes32) (now : Int)
    (verify : SelectedFillIntentV1 String Book.Bytes32 → Bool)
    (candidate : SelectedFillIntentV1 String Book.Bytes32) : Bool :=
  decide (candidate.intent.orderDigest = orderDigest) && decide (candidate.auth.issuedAt ≤ now) &&
    decide (now < candidate.auth.expiresAt) && verify candidate

/-- A proposal of the row that is live, unreleased and valid. -/
structure Eligible (o : Book.Order) (now : Lib.Js.SafeInt) (digest : Book.Bytes32) (now' : Int)
    (verify : SelectedFillIntentV1 String Book.Bytes32 → Bool) (j : Book.StoredFillIntentV1) :
      Prop where
  mem : j ∈ o.intents
  shown : Book.isShown now o j = true
  candidate : isCandidate digest now' verify (selected j.publicIntent) = true

/-- The later of issuance and admission decides, then the issuance, then the digest. -/
def Ahead (i j : Book.StoredFillIntentV1) : Prop :=
  Book.intentPriority i.publicIntent < Book.intentPriority j.publicIntent ∨
    (Book.intentPriority i.publicIntent = Book.intentPriority j.publicIntent ∧
      (i.auth.issuedAt.val < j.auth.issuedAt.val ∨
        (i.auth.issuedAt.val = j.auth.issuedAt.val ∧
          i.intentDigest.val.toList < j.intentDigest.val.toList)))

/-- The maker's choice of the proposals of a row. -/
structure FirstCome (o : Book.Order) (now : Lib.Js.SafeInt) (digest : Book.Bytes32) (now' : Int)
    (verify : SelectedFillIntentV1 String Book.Bytes32 → Bool)
    (chosen : Option (SelectedFillIntentV1 String Book.Bytes32)) : Prop where
  /-- It is eligible, and there is one whenever a proposal is. -/
  eligible : ∀ s, chosen = some s → ∃ c, Eligible o now digest now' verify c ∧
    s = selected c.publicIntent
  found : (∃ j, Eligible o now digest now' verify j) → chosen.isSome = true
  /-- It is the one that is ahead of all others. -/
  first : ∀ c, Eligible o now digest now' verify c →
    (chosen = some (selected c.publicIntent) ↔ ∀ j, Eligible o now digest now' verify j → j ≠ c →
      Ahead c j)
  /-- None is taken before one that was admitted in an earlier second and not dated after its
  admission. -/
  fair : ∀ i j, Eligible o now digest now' verify i → j ∈ o.intents →
    i.receivedAt.val < j.receivedAt.val →
    i.auth.issuedAt.val ≤ i.receivedAt.val → chosen ≠ some (selected j.publicIntent)

theorem ahead_of_before {i j : Book.StoredFillIntentV1}
    (h : Book.intentBefore i.publicIntent j.publicIntent = true)
    (hne : i.intentDigest ≠ j.intentDigest) : Ahead i j := by
  have hlist : i.intentDigest.val.toList ≠ j.intentDigest.val.toList :=
    fun heq => hne (Subtype.ext (String.toList_inj.mp heq))
  rw [Book.intentBefore_iff] at h
  rcases h with hpriority | ⟨hpriority, hissued | ⟨hissued, hdigest⟩⟩
  · exact .inl hpriority
  · exact .inr ⟨hpriority, .inl hissued⟩
  · exact .inr ⟨hpriority, .inr ⟨hissued, lt_of_le_of_ne hdigest hlist⟩⟩

theorem before_of_ahead {i j : Book.StoredFillIntentV1} (h : Ahead i j) :
    Book.intentBefore i.publicIntent j.publicIntent = true := by
  rw [Book.intentBefore_iff]
  rcases h with hpriority | ⟨hpriority, hissued | ⟨hissued, hdigest⟩⟩
  · exact .inl hpriority
  · exact .inr ⟨hpriority, .inl hissued⟩
  · exact .inr ⟨hpriority, .inr ⟨hissued, le_of_lt hdigest⟩⟩

theorem earliestValidFillIntent_eq {answer presented : List Book.PublicFillIntentV1}
    (hsorted : answer.Pairwise fun i j => Book.intentBefore i j = true)
    (hdistinct : (answer.map Book.PublicFillIntentV1.intentDigest).Nodup)
    (hpresented : presented.Perm answer) :
    earliestValidFillIntent digestLE (presented.map selected) digest now' verify =
      ((answer.map selected).filter (isCandidate digest now' verify)).head? := by
  have htotal : Std.Total fun a b :
    SelectedFillIntentV1 String Book.Bytes32 => intentLE digestLE a b = true :=
    ⟨intentLE_total⟩
  have htrans :
    IsTrans (SelectedFillIntentV1 String Book.Bytes32) fun a b => intentLE digestLE a b = true :=
    ⟨fun _ _ _ => intentLE_trans⟩
  have hperm : ((presented.map selected).filter (isCandidate digest now' verify)).Perm
      ((answer.map selected).filter (isCandidate digest now' verify)) :=
        (hpresented.map selected).filter _
  have hanswer : (answer.map selected).Pairwise fun a b => intentLE digestLE a b = true := by
    rw [List.pairwise_map]
    exact hsorted.imp fun {i j} h => (intentLE_selected i j).trans h
  have hnodup : ((answer.map selected).map SelectedFillIntentV1.intentDigest).Nodup := by
    rw [List.map_map]
    exact hdistinct
  have hsame : ((presented.map selected).filter (isCandidate digest now' verify)).insertionSort
      (fun a b => intentLE digestLE a b = true) =
        (answer.map selected).filter (isCandidate digest now' verify) := by
    apply List.Perm.eq_of_pairwise
    · intro a b ha hb hab hba
      have hmem := hperm.subset ((List.mem_insertionSort _).mp ha)
      exact List.inj_on_of_nodup_map hnodup (List.mem_filter.mp hmem).1 (List.mem_filter.mp hb).1
        (intentLE_antisymm hab hba)
    · exact List.pairwise_insertionSort _ _
    · exact hanswer.sublist List.filter_sublist
    · exact (List.perm_insertionSort _ _).trans hperm
  exact congrArg List.head? hsame

/-- The first eligible proposal of a sorted answer. -/
theorem firstCome_head {answer : List Book.PublicFillIntentV1}
    (hsorted : answer.Pairwise fun i j => Book.intentBefore i j = true)
    (hdistinct : (o.intents.map Book.StoredFillIntentV1.intentDigest).Nodup)
    (hanswer : answer.Perm
      ((o.intents.filter (Book.isShown now o)).map Book.StoredFillIntentV1.publicIntent)) :
    FirstCome o now digest now' verify
      ((answer.map selected).filter (isCandidate digest now' verify)).head? := by
  have hsame {i j : Book.StoredFillIntentV1} (hi : i ∈ o.intents) (hj : j ∈ o.intents)
      (h : selected i.publicIntent = selected j.publicIntent) : i = j :=
    List.inj_on_of_nodup_map hdistinct hi hj (congrArg SelectedFillIntentV1.intentDigest h)
  have hmem (s : SelectedFillIntentV1 String Book.Bytes32) :
      s ∈ (answer.map selected).filter (isCandidate digest now' verify) ↔
        ∃ c, Eligible o now digest now' verify c ∧ s = selected c.publicIntent := by
    rw [List.mem_filter, List.mem_map]
    constructor
    · rintro ⟨⟨p, hp, rfl⟩, hcandidate⟩
      obtain ⟨c, hc, rfl⟩ := List.mem_map.mp (hanswer.subset hp)
      obtain ⟨hc, hshown⟩ := List.mem_filter.mp hc
      exact ⟨c, ⟨hc, hshown, hcandidate⟩, rfl⟩
    · rintro ⟨c, hc, rfl⟩
      refine ⟨⟨c.publicIntent, hanswer.symm.subset (List.mem_map_of_mem ?_), rfl⟩, hc.candidate⟩
      exact List.mem_filter.mpr ⟨hc.mem, hc.shown⟩
  have hpairwise : ((answer.map selected).filter (isCandidate digest now' verify)).Pairwise
      fun a b => intentLE digestLE a b = true := by
    refine List.Pairwise.sublist List.filter_sublist ?_
    rw [List.pairwise_map]
    exact hsorted.imp fun {i j} h => (intentLE_selected i j).trans h
  -- The answer is sorted, so its first candidate is ahead of all eligible proposals.
  cases hlist : (answer.map selected).filter (isCandidate digest now' verify) with
  | nil =>
    rw [hlist] at hmem
    have hnone (c) (hc : Eligible o now digest now' verify c) : False := by
      have := (hmem _).mpr ⟨c, hc, rfl⟩
      cases this
    exact ⟨nofun, fun ⟨j, hj⟩ => (hnone j hj).elim, fun c hc => (hnone c hc).elim,
      fun _ _ _ _ _ _ => nofun⟩
  | cons s rest =>
    rw [hlist] at hmem hpairwise
    obtain ⟨c₀, hc₀, rfl⟩ := (hmem s).mp List.mem_cons_self
    have hahead (j) (hj : Eligible o now digest now' verify j) (hne : j ≠ c₀) : Ahead c₀ j := by
      have hrest : selected j.publicIntent ∈ rest := by
        rcases List.mem_cons.mp ((hmem _).mpr ⟨j, hj, rfl⟩) with heq | hrest
        · exact absurd (hsame hj.mem hc₀.mem heq) hne
        · exact hrest
      have hle := List.rel_of_pairwise_cons hpairwise hrest
      rw [intentLE_selected] at hle
      exact ahead_of_before hle fun heq =>
        hne (List.inj_on_of_nodup_map hdistinct hj.mem hc₀.mem heq.symm)
    refine ⟨?_, fun _ => rfl, ?_, ?_⟩
    · rintro s hs
      cases hs
      exact ⟨c₀, hc₀, rfl⟩
    · intro c hc
      rw [List.head?_cons, Option.some.injEq]
      constructor
      · intro heq
        rw [← hsame hc₀.mem hc.mem heq]
        exact hahead
      · intro hfirst
        by_contra hne
        have hc₀c : c₀ ≠ c := fun heq => hne (heq ▸ rfl)
        have hlevel :=
          intentLE_antisymm ((intentLE_selected _ _).trans (before_of_ahead (hfirst c₀ hc₀ hc₀c)))
          ((intentLE_selected _ _).trans (before_of_ahead (hahead c hc hc₀c.symm)))
        exact hc₀c (List.inj_on_of_nodup_map hdistinct hc₀.mem hc.mem hlevel.symm)
    · intro i j hi hj hearlier hdated heq
      rw [List.head?_cons, Option.some.injEq] at heq
      have hj₀ := hsame hc₀.mem hj heq
      have hne : i ≠ c₀ := by
        rintro rfl
        rw [hj₀] at hearlier
        omega
      have hbehind := hahead i hi hne
      rw [hj₀] at hbehind
      unfold Ahead Book.intentPriority Book.StoredFillIntentV1.publicIntent at hbehind
      dsimp only at hbehind
      omega

theorem choice_spec (hdistinct : (o.intents.map Book.StoredFillIntentV1.intentDigest).Nodup)
    {answer presented : List Book.PublicFillIntentV1} (hanswer : answer =
      ((o.intents.filter (Book.isShown now o)).map Book.StoredFillIntentV1.publicIntent).mergeSort
        Book.intentBefore)
    (hpresented : presented.Perm answer) :
    earliestValidFillIntent digestLE (presented.map selected) digest now' verify =
        ((answer.map selected).filter (isCandidate digest now' verify)).head? ∧
      FirstCome o now digest now' verify
        (earliestValidFillIntent digestLE (presented.map selected) digest now' verify) := by
  have hsorted : answer.Pairwise fun i j => Book.intentBefore i j = true := by
    rw [hanswer]
    refine List.pairwise_mergeSort ?_ ?_ _
    · intro a b c hab hbc
      rw [← intentLE_selected] at hab hbc ⊢
      exact intentLE_trans hab hbc
    · intro a b
      rw [Bool.or_eq_true, ← intentLE_selected, ← intentLE_selected]
      exact intentLE_total _ _
  have hperm : answer.Perm
    ((o.intents.filter (Book.isShown now o)).map Book.StoredFillIntentV1.publicIntent) := by
    rw [hanswer]
    exact List.mergeSort_perm _ _
  have hnodup : (answer.map Book.PublicFillIntentV1.intentDigest).Nodup := by
    rw [(hperm.map _).nodup_iff, List.map_map]
    exact (List.filter_sublist.map _).nodup hdistinct
  have hsame := @earliestValidFillIntent_eq digest now' verify _ _ hsorted hnodup hpresented
  refine ⟨hsame, ?_⟩
  rw [hsame]
  exact firstCome_head hsorted hdistinct hperm

end Chosen

/-- Maker and book agree on who is first, in every run of the book. -/
theorem maker_takes_first (E : Book.Crypto) (is : List Book.Step) (id : String)
    (makerToken : Option Lib.Js.Json)
    (answer : List Book.PublicFillIntentV1) (s' : Book.Store)
    (hanswer : Book.listFillIntents E
      (run (Book.World.step E) Book.World.start is).clock id makerToken
      (run (Book.World.step E) Book.World.start is).store = .ok answer s') :
    ∃ o ∈ Book.sweepAll (run (Book.World.step E) Book.World.start is).clock
        (run (Book.World.step E) Book.World.start is).store.orders,
      o.id.val = id ∧ Book.Queued (run (Book.World.step E) Book.World.start is).clock o ∧
      ∀ presented : List Book.PublicFillIntentV1, presented.Perm answer →
      ∀ (digest : Book.Bytes32) (now' : Int)
      (verify : SelectedFillIntentV1 String Book.Bytes32 → Bool),
        earliestValidFillIntent digestLE (presented.map selected) digest now' verify =
          ((answer.map selected).filter (isCandidate digest now' verify)).head? ∧
        FirstCome o (run (Book.World.step E) Book.World.start is).clock digest now' verify
          (earliestValidFillIntent digestLE (presented.map selected) digest now' verify) := by
  obtain ⟨o, hmem, hid, heq⟩ := Book.listFillIntents_eq_ok hanswer
  obtain ⟨o₀, ho₀, hsweep⟩ := Book.mem_sweepAll.mp hmem
  have hrow := (Book.run_rows E is o₀ ho₀).sweep hsweep
  refine ⟨o, hmem, hid, (Book.run_queued E is o₀ ho₀).sweep hsweep,
    fun presented hpresented digest now' verify => ?_⟩
  exact choice_spec hrow.retainsFew.digests heq hpresented

section Sample

/-- The maker takes the proposal of zeros, though the book admitted that of ones before it. -/
theorem level_taken_by_digest :
    ∃ (is : List Book.Step) (o : Book.Order) (answer : List Book.PublicFillIntentV1)
    (s' : Book.Store),
    Book.listFillIntents Book.roomCrypto
      (run (Book.World.step Book.roomCrypto) Book.World.start is).clock o.id.val none
      (run (Book.World.step Book.roomCrypto) Book.World.start is).store = .ok answer s' ∧
    (run (Book.World.step Book.roomCrypto) Book.World.start is).store.orders = [o] ∧
    o.intents = [Book.tieStored 1, Book.tieStored 0] ∧
    Eligible o (run (Book.World.step Book.roomCrypto) Book.World.start is).clock
      (Book.digitNonce 15) 1000000
      (fun _ => true) (Book.tieStored 1) ∧
    earliestValidFillIntent digestLE (answer.map selected)
    (Book.digitNonce 15) 1000000 (fun _ => true) =
      some (selected (Book.tieStored 0).publicIntent) := by
  obtain ⟨is, s, o, hrun, hs, hrow⟩ := Book.tie_run
  have hswept : o ∈ Book.sweepAll Book.sampleClock s.orders := by
    rw [hs, hrow.swept]
    exact List.mem_singleton_self o
  have hintents : o.intents = [Book.tieStored 1, Book.tieStored 0] := hrow.intents
  obtain ⟨answer, hanswer⟩ :=
    Book.listFillIntents_public (E := Book.roomCrypto) (hs ▸ List.nodup_singleton _) hswept
    hrow.portable.uses hrow.portable.visibility
  obtain ⟨o', hmem, hid, heq⟩ := Book.listFillIntents_eq_ok hanswer
  have hsame : o' = o := by
    rw [hs, hrow.swept] at hmem
    exact List.mem_singleton.mp hmem
  subst hsame
  have heligible (k : Fin 16) (hk : k = 0 ∨ k = 1) :
      Eligible o' Book.sampleClock (Book.digitNonce 15) 1000000 (fun _ => true)
        (Book.tieStored k) := by
    refine ⟨?_, Book.isShown_iff.mpr ⟨⟨hrow.isOpen, hrow.clean⟩, rfl, ?_⟩, ?_⟩
    · rw [hintents]
      rcases hk with rfl | rfl <;> simp
    · revert k
      decide
    · rcases hk with rfl | rfl <;> decide +kernel
  have hdistinct : (o'.intents.map Book.StoredFillIntentV1.intentDigest).Nodup := by
    rw [hintents]
    have hnonces : (([1, 0] : List (Fin 16)).map Book.digitNonce).Nodup :=
      List.Nodup.map Book.digitNonce_injective (by decide)
    exact hnonces
  obtain ⟨-, hchoice⟩ := choice_spec hdistinct heq
    (List.Perm.refl answer)
  refine ⟨is, o', answer, s.swept Book.sampleClock, ?_, ?_, hintents, ?_, ?_⟩
  · rw [hrun]
    exact hanswer
  · rw [hrun]
    exact hs
  · rw [hrun]
    exact heligible 1 (.inr rfl)
  · refine (hchoice.first _ (heligible 0 (.inl rfl))).mpr fun j hj hne => ?_
    have hj := hj.mem
    rw [hintents] at hj
    simp only [List.mem_cons, List.not_mem_nil, or_false] at hj
    rcases hj with rfl | rfl
    · exact .inr ⟨rfl, .inr ⟨rfl, by decide +kernel⟩⟩
    · exact absurd rfl hne

theorem maker_takes_first_sample :
    ∃ (is : List Book.Step) (o : Book.Order) (answer : List Book.PublicFillIntentV1),
    o ∈ Book.sweepAll (run (Book.World.step Book.roomCrypto) Book.World.start is).clock
      (run (Book.World.step Book.roomCrypto) Book.World.start is).store.orders ∧
    FirstCome o (run (Book.World.step Book.roomCrypto) Book.World.start is).clock
      (Book.digitNonce 15) 1000000
      (fun _ => true)
      (earliestValidFillIntent digestLE (answer.map selected) (Book.digitNonce 15) 1000000
        (fun _ => true)) := by
  obtain ⟨is, s, o, hrun, hs, hrow⟩ := Book.tie_run
  have hswept : o ∈ Book.sweepAll Book.sampleClock s.orders := by
    rw [hs, hrow.swept]
    exact List.mem_singleton_self o
  obtain ⟨answer, hanswer⟩ :=
    Book.listFillIntents_public (E := Book.roomCrypto) (hs ▸ List.nodup_singleton _) hswept
    hrow.portable.uses hrow.portable.visibility
  obtain ⟨o', hmem, -, -, hchoice⟩ :=
    maker_takes_first Book.roomCrypto is o.id.val none answer (s.swept Book.sampleClock)
    (by rw [hrun]; exact hanswer)
  exact ⟨is, o', answer, hmem,
    (hchoice answer (List.Perm.refl answer) (Book.digitNonce 15) 1000000 fun _ => true).2⟩

end Sample

end QuantaSwap.Maker.Daemon
