import QuantaSwap.Taker.Policy
import QuantaSwap.Htlc.TwoLeg

/-!
# The scripted taker's payout

A take runs over the two chains: the taker escrows on its own leg once the maker's escrow passed at
depth, and from the tick on which the maker's claim of that leg can be read, it claims the maker's
escrow.
-/

set_option autoImplicit false
set_option linter.unusedSectionVars false

open Lib.Evm QuantaSwap.Htlc QuantaSwap.Htlc.V3 QuantaSwap.Maker

namespace QuantaSwap.Taker

variable {A Bytes32 : Type} [DecidableEq A] [DecidableEq Bytes32] [Zero A] [Zero Bytes32]

/-! ## What a decision rests on -/

section

variable {x : TakerDecideInput A Bytes32} {t1 t2 : Int} {plan : TakerLegPlan A}
  {r i : LegState A Bytes32}

theorem checkMakerLock_ok {confirmed : Option (LegState A Bytes32)} {margin : Int}
    {prelocked : Bool} (h : checkMakerLock confirmed plan t2 margin prelocked = .ok) :
    ∃ s, confirmed = some s ∧ s.status = .Open ∧ s.recipient ≠ 0 ∧
      s.token = plan.expectedToken ∧ s.recipient = plan.recipient ∧ s.amount = plan.amount ∧
      t2 + margin ≤ s.timeout := by
  unfold checkMakerLock at h
  cases hc : confirmed with
  | none => simp [hc] at h
  | some s =>
    simp only [hc] at h
    split_ifs at h with h1 h2 h3 h4 h5 h6 h7 h8
    exact ⟨s, rfl, by simpa using h2, h3, by simpa using h5, by simpa using h6, by simpa using h7,
      by omega⟩

theorem checkOwnLock_absent {ourAddress : A} (h : checkOwnLock (some r) plan ourAddress = .absent) :
    r.status = .None := by
  simp only [checkOwnLock] at h
  split_ifs at h with h1 h2 h3 h4
  exact h1

theorem checkOwnLock_settled {ourAddress : A} (hs : r.status = .Claimed)
    (ho : r.initiator = ourAddress) : checkOwnLock (some r) plan ourAddress = .settled := by
  simp [checkOwnLock, hs, ho]

theorem fund_lock (h : (x.fund t2).1 = .lock) : x.makerLock = .ok := by
  unfold TakerDecideInput.fund at h
  cases hm : x.makerLock with
  | ok => rfl
  | absent | awaitingAssign | settled | mismatch =>
    rw [hm] at h
    simp only at h
    split_ifs at h

theorem ownLeg_lock (h : (x.ownLeg t2 r).1 = .lock) : x.ownLock = .absent ∧ x.makerLock = .ok := by
  unfold TakerDecideInput.ownLeg at h
  split at h
  · cases h
  · split_ifs at h
  · split_ifs at h
  · rename_i habsent
    exact ⟨habsent, fund_lock h⟩
  · split_ifs at h

theorem onChain_lock (h : (x.onChain t2 r).1 = .lock) :
    x.ownLock = .absent ∧ x.makerLock = .ok := by
  unfold TakerDecideInput.onChain at h
  split_ifs at h
  exact ownLeg_lock h

theorem walkAway_lock {verdict : TakerDecision × String} (h : x.walkAway = some verdict) :
    verdict.1 ≠ .lock := by
  unfold TakerDecideInput.walkAway at h
  split_ifs at h <;> (cases h; simp)

theorem decideTaker_lock (h : x.decideTaker.decision = .lock) :
    ∃ fill r, x.fill = some fill ∧ x.rState = some r ∧ x.ownLock = .absent ∧ x.makerLock = .ok := by
  unfold TakerDecideInput.decideTaker TakerDecideInput.decideStep at h
  dsimp only at h
  split at h
  · rename_i verdict hwalk
    split_ifs at hwalk
    exact absurd h (walkAway_lock hwalk)
  · split at h
    · unfold TakerDecideInput.withoutFill at h
      split_ifs at h
    · cases h
    · rename_i fill r hf hr
      exact ⟨fill, r, hf, hr, onChain_lock h⟩

theorem decideTaker_onChain {fill : FillTerms Bytes32} (hf : x.fill = some fill)
    (hr : x.rState = some r) (hc : r.status = .Claimed)
    (ho : r.initiator = x.ourResponderAddress) :
    x.decideTaker.decision = (x.onChain fill.responderTimeout r).1 := by
  have hexposed : x.exposed = true := by
    have : x.ownLock = .settled := by
      unfold TakerDecideInput.ownLock
      rw [hr]
      exact checkOwnLock_settled hc ho
    simp [TakerDecideInput.exposed, this]
  simp [TakerDecideInput.decideTaker, TakerDecideInput.decideStep, hexposed, hf, hr]

/-- Our own leg read as claimed, the maker's as open with the submit margin left, and nothing of
ours credited. -/
structure Due (x : TakerDecideInput A Bytes32) (r i : LegState A Bytes32) : Prop where
  own : x.rState = some r
  claimed : r.status = .Claimed
  ours : r.initiator = x.ourResponderAddress
  maker : x.iState = some i
  isOpen : i.status = .Open
  margin : 0 ≤ x.claimSubmitMarginS
  before : x.nowS < i.timeout - x.claimSubmitMarginS
  credit : x.creditLeg = none

theorem Due.onChain (h : Due x r i) :
    (x.onChain t2 r).1 =
      if r.preimage ≠ 0 ∧ retryOk x.record.claimSentAt x.nowS x.resendAfterS then .claim
      else .wait := by
  have hpay : x.payable = true ↔ r.preimage ≠ 0 := by
    simp [TakerDecideInput.payable, TakerDecideInput.revealedPreimage, h.own, h.maker, h.isOpen]
  have hwindow : x.windowClosed = false := by
    simp only [TakerDecideInput.windowClosed, h.maker, Option.any_some, decide_eq_false_iff_not]
    have := h.before
    omega
  have hopen : settledState x.iState = false := by
    simp [settledState, h.maker, Maker.terminal, h.isOpen]
  have hown : x.ownLock = .settled := by
    unfold TakerDecideInput.ownLock
    rw [h.own]
    exact checkOwnLock_settled h.claimed h.ours
  have hlive : (x.iState.any fun i => i.status == .Open && decide ((i.timeout : Int) ≤ x.nowS)) =
      false := by
    have := h.before
    have := h.margin
    simp only [h.maker, Option.any_some, Bool.and_eq_false_iff, decide_eq_false_iff_not]
    right
    omega
  unfold TakerDecideInput.onChain
  simp only [hpay, hlive, hwindow, h.credit, hopen, Bool.false_eq_true, not_false_eq_true, true_and,
    and_false, if_false, Option.isSome_none, false_and]
  split_ifs with hclaim
  · rfl
  · simp only [TakerDecideInput.ownLeg, hown]
    split_ifs with hlast
    · simp [TakerDecideInput.exposed, hown] at hlast
    · rfl
    · rfl

end

/-! ## Reading a credit -/

/-- `getCreditedForSwap`: what the log says a settlement of the hashlock left for the account. -/
def getCreditedForSwap (token account : A) (hashlock : Bytes32) (es : List (Event A Bytes32)) :
    Nat :=
  (es.map fun e =>
    match e with
    | .PayoutCredited t a h amount =>
      if t = token ∧ a = account ∧ h = hashlock then amount else 0
    | _ => 0).sum

/-- `readSwapCredit`, and the smaller of its two halves. -/
def creditOf (token account : A) (hashlock : Bytes32) (w : W A Bytes32) : Nat :=
  let global := w.storage.credits token account
  let credited := if 0 < global then getCreditedForSwap token account hashlock w.log else 0
  min credited global

theorem getCreditedForSwap_pos {token account : A} {hashlock : Bytes32}
    {es : List (Event A Bytes32)} (h : 0 < getCreditedForSwap token account hashlock es) :
    ∃ amount, (token, account, amount) ∈ payoutsOf hashlock es := by
  induction es with
  | nil => simp [getCreditedForSwap] at h
  | cons e es ih =>
    have htail : (∃ amount, (token, account, amount) ∈ payoutsOf hashlock es) →
        ∃ amount, (token, account, amount) ∈ payoutsOf hashlock (e :: es) := by
      rintro ⟨amount, hmem⟩
      refine ⟨amount, ?_⟩
      cases e <;> simp only [payoutsOf] <;> (try split_ifs) <;> simp [hmem]
    by_cases hes : 0 < getCreditedForSwap token account hashlock es
    · exact htail (ih hes)
    · have hzero : getCreditedForSwap token account hashlock es = 0 := by omega
      unfold getCreditedForSwap at h hzero
      rw [List.map_cons, List.sum_cons, hzero] at h
      cases e with
      | PayoutCredited t a k amount =>
        by_cases hk : t = token ∧ a = account ∧ k = hashlock
        · obtain ⟨rfl, rfl, rfl⟩ := hk
          exact ⟨amount, by simp [payoutsOf]⟩
        · simp [hk] at h
      | _ => simp at h

theorem creditOf_eq_zero {d : Deployment A Bytes32} {token account : A} {hashlock : Bytes32}
    {w : W A Bytes32} (hw : Reachable d w)
    (h : ∀ amount, (token, account, amount) ∉ due (w.storage.swaps hashlock)) :
    creditOf token account hashlock w = 0 := by
  have hzero : getCreditedForSwap token account hashlock w.log = 0 := by
    by_contra hne
    obtain ⟨amount, hmem⟩ := getCreditedForSwap_pos (Nat.pos_of_ne_zero hne)
    rw [(reachable_recorded hw hashlock).payouts] at hmem
    exact h amount hmem
  simp [creditOf, hzero]

/-! ## A take on the two chains -/

/-- The agreed terms, the fill and a configuration that the taker starts with. -/
structure Take (A Bytes32 : Type) extends TwoChains A A Bytes32 where
  terms : TakerPlanInput A
  fill : FillTerms Bytes32
  prelocked : Bool
  cfg : TakerReadConfig
  usable : assertClaimWindowIsUsable cfg = .ok ()

namespace Take

variable (k : Take A Bytes32)

/-- `plansForRecord` -/
def plans : TakerPlans A :=
  takerLegPlans
    { k.terms with
      initiatorTimeout := k.fill.initiatorTimeout
      responderTimeout := k.fill.responderTimeout }

def ourAddress (leg : LegKey) : A :=
  match leg with
  | .eth => k.terms.takerEthAccount
  | .qrl => k.terms.takerQrlAccount

def ours : A := k.ourAddress k.plans.responder.leg

def record₁ (s : Legs A A Bytes32) : LegState A Bytes32 := s.leg1.storage.swaps k.fill.hashlock

def record₂ (s : Legs A A Bytes32) : LegState A Bytes32 := s.leg2.storage.swaps k.fill.hashlock

/-- The transaction that `lock` sends, and the value it carries. -/
def lockCall : Call A Bytes32 × Nat :=
  match if k.plans.responder.leg = .eth then k.terms.asset.tokenAddress else none with
  | some token =>
    (.lockToken k.fill.hashlock k.plans.responder.recipient token k.plans.responder.amount
      k.plans.responder.timeout, 0)
  | none =>
    (.lockNative k.fill.hashlock k.plans.responder.recipient k.plans.responder.timeout,
      k.plans.responder.amount)

/-- The taker's account locks under this hashlock as `lock` does, or not at all. -/
def OwnLock : LegInput k.toTwoChains → Prop
  | .call2 m _ _ => m.sender = k.ours →
    (∀ args, lockArgs m.value m.call = some args → args.1 = k.fill.hashlock →
      m.call = k.lockCall.1 ∧ m.value = k.lockCall.2)
  | _ => True

/-- A tick that reads the maker's leg at depth as in the state `s`, and our own as in `s₀`. -/
structure Gate (s s₀ : Legs A A Bytes32) (x : TakerDecideInput A Bytes32) : Prop where
  fill : x.fill = some k.fill
  plans : x.plans = k.plans
  safety : x.claimSafetyS = k.cfg.claimSafetyS
  confirmed : x.iConfirmed = some (k.record₁ s)
  own : x.rState = some (k.record₂ s₀)

/-- A tick that reads both legs at the head in the state `s`. The read of a credit may fail. -/
structure Tick (s : Legs A A Bytes32) (x : TakerDecideInput A Bytes32) : Prop where
  fill : x.fill = some k.fill
  plans : x.plans = k.plans
  address : x.ourResponderAddress = k.ours
  margin : x.claimSubmitMarginS = claimSubmitMarginS k.cfg
  maker : x.iState = some (k.record₁ s)
  own : x.rState = some (k.record₂ s)
  now : x.nowS = s.clock
  initiatorCredit : ∀ n, x.initiatorCredit = some n → n = creditOf k.plans.initiator.expectedToken
    (k.ourAddress k.plans.initiator.leg) k.fill.hashlock s.leg1
  responderCredit : ∀ n, x.responderCredit = some n → n = creditOf k.plans.responder.expectedToken
    k.ours k.fill.hashlock s.leg2

/-- The taker claims, or waits out the spacing of its own claims. -/
def Answers (x : TakerDecideInput A Bytes32) : Prop :=
  x.decideTaker.decision = .claim ∨
    retryOk x.record.claimSentAt x.nowS x.resendAfterS = false ∧ x.decideTaker.decision = .wait

/-- From the state `s` on, every tick before the submit margin of `t1` answers, until the maker's
escrow has been claimed. -/
def Collects (t1 : Nat) (s : Legs A A Bytes32) : Prop :=
  ∀ (is : List (LegInput k.toTwoChains)) (x : TakerDecideInput A Bytes32),
    let s' := Lib.Run.run (Legs.step k.toTwoChains) s is
    k.Tick s' x → (s'.clock : Int) < t1 - claimSubmitMarginS k.cfg →
      (k.record₁ s').status ≠ .Claimed → Answers x

/-! ## The own lock -/

variable {k} {s s₀ : Legs A A Bytes32}

theorem submitMargin_lt (k : Take A Bytes32) :
    (claimSubmitMarginS k.cfg : Int) < k.cfg.claimSafetyS := by
  have h := k.usable
  unfold assertClaimWindowIsUsable at h
  split_ifs at h with hle
  omega

theorem lockArgs_lockCall (k : Take A Bytes32) :
    ∃ token amount, lockArgs k.lockCall.2 k.lockCall.1 = some (k.fill.hashlock,
      k.plans.responder.recipient, token, amount, k.fill.responderTimeout, false) := by
  unfold lockCall
  split
  · exact ⟨_, _, rfl⟩
  · exact ⟨_, _, rfl⟩

/-- Our leg is empty, somebody else's, or carries the plan's recipient and timeout. -/
def Placed (k : Take A Bytes32) (r : LegState A Bytes32) : Prop :=
  r.status ≠ .None → r.initiator = k.ours →
    r.recipient = k.plans.responder.recipient ∧ r.recipient ≠ 0 ∧
      r.timeout = k.fill.responderTimeout

theorem Placed.extends {r r' : LegState A Bytes32} (hp : Placed k r) (hr : r.status ≠ .None)
    (hx : Extends r r') : Placed k r' := by
  intro _ ho
  obtain ⟨hinit, -, -, htime⟩ := hx.terms hr
  obtain ⟨hrec, hne, ht⟩ := hp hr (hinit ▸ ho)
  rw [hx.recipient hr hne, htime]
  exact ⟨hrec, hne, ht⟩

theorem Placed.step (hp : Placed k (k.record₂ s)) (i : LegInput k.toTwoChains) (hi : k.OwnLock i) :
    Placed k (k.record₂ (Legs.step k.toTwoChains s i)) := by
  by_cases hnone : (k.record₂ s).status = .None
  · cases i with
    | call2 m pre post =>
      intro hsome ho
      obtain heq | he := step_call (d := k.second) s.leg2 s.clock m pre post
      · have : k.record₂ (Legs.step k.toTwoChains s (.call2 m pre post)) = k.record₂ s := by
          simp only [record₂, Legs.step, heq]
        rw [this] at hsome
        exact absurd hnone hsome
      · obtain ⟨r, token, amount, timeout, isOpen, hargs, htarget, hrecord⟩ := he.locked hnone hsome
        have hnew : k.record₂ (Legs.step k.toTwoChains s (.call2 m pre post)) = _ := hrecord
        have hsender : m.sender = k.ours := by
          rw [hnew] at ho
          exact ho
        obtain ⟨hcall, hvalue⟩ := hi hsender _ hargs rfl
        obtain ⟨token', amount', hlock⟩ := lockArgs_lockCall k
        have hsame := hargs
        change lockArgs m.value m.call = _ at hsame
        rw [hcall, hvalue, hlock] at hsame
        simp only [Option.some.injEq, Prod.mk.injEq, true_and] at hsame
        obtain ⟨rfl, -, -, rfl, rfl⟩ := hsame
        rw [hnew]
        exact ⟨rfl, by simpa using htarget.1, rfl⟩
    | outside2 o =>
      have : k.record₂ (Legs.step k.toTwoChains s (.outside2 o)) = k.record₂ s := by
        simp only [record₂, Legs.step, step_outside_storage]
      rw [this]
      exact hp
    | wait | call1 | outside1 => exact hp
  · exact hp.extends hnone (Legs.run_extends s [i])

theorem Gate.passed {x : TakerDecideInput A Bytes32} (hg : k.Gate s s₀ x)
    (hl : x.decideTaker.decision = .lock) :
    (k.record₁ s).status = .Open ∧ (k.record₁ s).recipient ≠ 0 ∧
      (k.fill.responderTimeout : Int) + k.cfg.claimSafetyS ≤ (k.record₁ s).timeout ∧
      (k.record₂ s₀).status = .None := by
  obtain ⟨fill, r, hfill, hr, hown, hmaker⟩ := decideTaker_lock hl
  unfold TakerDecideInput.makerLock at hmaker
  rw [hg.confirmed, hg.fill, hg.safety] at hmaker
  obtain ⟨_, hs, hopen, hne, -, -, -, htime⟩ := checkMakerLock_ok hmaker
  cases hs
  unfold TakerDecideInput.ownLock at hown
  rw [hg.own] at hown
  exact ⟨hopen, hne, by simpa using htime, checkOwnLock_absent hown⟩

/-! ## The ticks after the reveal -/

theorem Tick.creditLeg {x : TakerDecideInput A Bytes32} (ht : k.Tick s x)
    (hs : Legs.Reachable k.toTwoChains s) (ho : (k.record₁ s).status = .Open)
    (hc : (k.record₂ s).status = .Claimed) (hr : (k.record₂ s).recipient ≠ k.ours) :
    x.creditLeg = none := by
  have hsound := hs.sound k.fill.hashlock
  have hfirst : ∀ n, x.initiatorCredit = some n → n = 0 := by
    intro n hn
    rw [ht.initiatorCredit n hn]
    refine creditOf_eq_zero hsound.reach₁ fun amount hmem => ?_
    have ho' : (s.leg1.storage.swaps k.fill.hashlock).status = .Open := ho
    simp [due, ho'] at hmem
  have hsecond : ∀ n, x.responderCredit = some n → n = 0 := by
    intro n hn
    rw [ht.responderCredit n hn]
    refine creditOf_eq_zero hsound.reach₂ fun amount hmem => ?_
    have hc' : (s.leg2.storage.swaps k.fill.hashlock).status = .Claimed := hc
    simp only [due, hc', List.mem_singleton, Prod.mk.injEq] at hmem
    exact hr hmem.2.1.symm
  unfold TakerDecideInput.creditLeg
  rw [if_neg, if_neg]
  · cases hn : x.responderCredit with
    | none => simp
    | some n => simp [hsecond n hn]
  · cases hn : x.initiatorCredit with
    | none => simp
    | some n => simp [hfirst n hn]

theorem Tick.decision {x : TakerDecideInput A Bytes32} (ht : k.Tick s x)
    (hs : Legs.Reachable k.toTwoChains s) (ho : (k.record₁ s).status = .Open)
    (hc : (k.record₂ s).status = .Claimed) (hours : (k.record₂ s).initiator = k.ours)
    (hr : (k.record₂ s).recipient ≠ k.ours)
    (hbefore : (s.clock : Int) < (k.record₁ s).timeout - claimSubmitMarginS k.cfg) :
    x.decideTaker.decision =
      if (k.record₂ s).preimage ≠ 0 ∧ retryOk x.record.claimSentAt x.nowS x.resendAfterS then
        .claim
      else .wait := by
  have hdue : Due x (k.record₂ s) (k.record₁ s) :=
    { own := ht.own
      claimed := hc
      ours := hours.trans ht.address.symm
      maker := ht.maker
      isOpen := ho
      margin := by rw [ht.margin]; omega
      before := by rw [ht.margin, ht.now]; omega
      credit := ht.creditLeg hs ho hc hr }
  rw [decideTaker_onChain ht.fill ht.own hc hdue.ours]
  exact hdue.onChain

/-- A first tick in the state `s`. -/
def firstTick (k : Take A Bytes32) (s : Legs A A Bytes32) : TakerDecideInput A Bytes32 where
  record := ⟨true, none, some 0, none, none, none, none⟩
  bookStatus := .locking
  released := false
  cancelled := false
  prelocked := k.prelocked
  fill := some k.fill
  plans := k.plans
  iState := some (k.record₁ s)
  iConfirmed := some (k.record₁ s)
  rState := some (k.record₂ s)
  ourResponderAddress := k.ours
  intentPending := none
  abandonRequested := false
  nowS := s.clock
  resendAfterS := k.cfg.resendAfterS
  claimSafetyS := k.cfg.claimSafetyS
  lockRunwayS := k.cfg.lockRunwayS
  claimSubmitMarginS := claimSubmitMarginS k.cfg
  initiatorCredit := none
  responderCredit := none

theorem firstTick_tick (k : Take A Bytes32) (s : Legs A A Bytes32) : k.Tick s (k.firstTick s) :=
  ⟨rfl, rfl, rfl, rfl, rfl, rfl, rfl, (fun _ h => by cases h), (fun _ h => by cases h)⟩

/-- **The taker's payout, exactly.** After a tick that decided to lock, and a claim of the taker's
own leg, the claim came before that leg's timeout, which lies before the submit margin of the
maker's escrow; and the taker answers every tick up to there if and only if the maker's escrow has
been claimed already or the secret is not the zero word. The maker's payout account is not the
taker's own. -/
theorem taker_collects_iff (k : Take A Bytes32) (s : Legs A A Bytes32)
    (hs : Legs.Reachable k.toTwoChains s) (is₀ : List (LegInput k.toTwoChains))
    (gate : TakerDecideInput A Bytes32)
    (hgate : k.Gate s (Lib.Run.run (Legs.step k.toTwoChains) s is₀) gate)
    (hlock : gate.decideTaker.decision = .lock) (is : List (LegInput k.toTwoChains))
    (i : LegInput k.toTwoChains)
    (hown : Lib.Run.Along (Legs.step k.toTwoChains) (fun _ i => k.OwnLock i)
      (Lib.Run.run (Legs.step k.toTwoChains) s is₀) (is ++ [i]))
    (hdistinct : k.plans.responder.recipient ≠ k.ours) :
    let s₁ := Lib.Run.run (Legs.step k.toTwoChains) s (is₀ ++ is)
    let s₂ := Legs.step k.toTwoChains s₁ i
    (k.record₂ s₁).status ≠ .Claimed → (k.record₂ s₂).status = .Claimed →
    (k.record₂ s₂).initiator = k.ours →
      s₂.clock < k.fill.responderTimeout ∧
      (k.fill.responderTimeout : Int) < (k.record₁ s).timeout - claimSubmitMarginS k.cfg ∧
      (k.Collects (k.record₁ s).timeout s₂ ↔
        (k.record₁ s₂).status = .Claimed ∨ (k.record₂ s₂).preimage ≠ 0) := by
  intro s₁ s₂ hnot hclaimed hours
  obtain ⟨hopen, hassigned, hlate, hempty⟩ := hgate.passed hlock
  have hmargin := submitMargin_lt k
  have hs₂ : s₂ = Lib.Run.run (Legs.step k.toTwoChains) s (is₀ ++ is ++ [i]) := by
    rw [Lib.Run.run_snoc]
  have hplaced : Placed k (k.record₂ s₂) := by
    rw [hs₂, List.append_assoc, Lib.Run.run_append]
    exact Lib.Run.invariant_of_along (I := fun s => Placed k (k.record₂ s))
      (fun _ i hp hi => hp.step i hi) hown (fun hne => absurd hempty hne)
  -- The maker claimed our lock, so it was placed by us with the signed timeout.
  obtain ⟨hrec, hne, htime⟩ := hplaced (by rw [hclaimed]; simp) hours
  have hbefore : s₂.clock < k.fill.responderTimeout := by
    have : s₂.clock < (k.record₂ s₂).timeout := Legs.claimed_before i hnot hclaimed
    rw [htime] at this
    exact this
  refine ⟨hbefore, by omega, ?_⟩
  have hreach : Legs.Reachable k.toTwoChains s₂ := by
    rw [hs₂]
    exact hs.run _
  have hlater : ∀ js, let s' := Lib.Run.run (Legs.step k.toTwoChains) s₂ js
      (k.record₁ s').timeout = (k.record₁ s).timeout ∧
        (s'.clock < (k.record₁ s).timeout → (k.record₁ s').status = .Open ∨
          (k.record₁ s').status = .Claimed) := by
    intro js s'
    have hs' : s' = Lib.Run.run (Legs.step k.toTwoChains) s (is₀ ++ is ++ [i] ++ js) := by
      rw [Lib.Run.run_append, ← hs₂]
    have := hs.stays hopen hassigned (is₀ ++ is ++ [i] ++ js)
    rw [← hs'] at this
    exact ⟨this.1, this.2.2⟩
  have hours₂ : ∀ js, k.record₂ (Lib.Run.run (Legs.step k.toTwoChains) s₂ js) = k.record₂ s₂ :=
    fun js => Legs.run_claimed js hclaimed
  constructor
  · intro hcollects
    obtain ⟨htime₁, hstatus⟩ := hlater []
    rw [Lib.Run.run_nil] at htime₁ hstatus
    obtain ho | hdone := hstatus (by omega)
    · right
      intro hzero
      -- With the zero preimage the taker waits, even at its first tick.
      have hdec := (firstTick_tick k s₂).decision hreach ho hclaimed hours
        (by rw [hrec]; exact hdistinct)
        (by rw [htime₁]; omega)
      rw [hzero] at hdec
      have hwait : (k.firstTick s₂).decideTaker.decision = .wait := by simpa using hdec
      obtain hclaim | ⟨hspaced, -⟩ := hcollects [] (k.firstTick s₂) (firstTick_tick k s₂)
        (by rw [Lib.Run.run_nil]; omega) (by rw [Lib.Run.run_nil, ho]; simp)
      · rw [hwait] at hclaim
        cases hclaim
      · simp [firstTick, retryOk] at hspaced
    · exact .inl hdone
  · intro hpaid js x s' ht hclock hunpaid
    have htime₁ : (k.record₁ s').timeout = (k.record₁ s).timeout := (hlater js).1
    have hend : s'.clock < (k.record₁ s).timeout := by omega
    obtain ho | hdone := (hlater js).2 hend
    · have hpre : (k.record₂ s').preimage ≠ 0 := by
        rw [hours₂ js]
        obtain hdone | hpre := hpaid
        · have hx : Extends (k.record₁ s₂) (k.record₁ s') := Legs.run_extends₁ s₂ js
          rw [hx.terminal (by rw [hdone]; rfl)] at hunpaid
          exact absurd hdone hunpaid
        · exact hpre
      have hdec := ht.decision (hreach.run js) ho (by rw [hours₂ js]; exact hclaimed)
        (by rw [hours₂ js]; exact hours) (by rw [hours₂ js, hrec]; exact hdistinct)
        (by rw [htime₁]; exact hclock)
      simp only [ne_eq, hpre, not_false_eq_true, true_and] at hdec
      unfold Answers
      -- It claims, or waits because a claim was sent too shortly before.
      cases hretry : retryOk x.record.claimSentAt x.nowS x.resendAfterS with
      | true => exact .inl (by simpa [hretry] using hdec)
      | false => exact .inr ⟨rfl, by simpa [hretry] using hdec⟩
    · exact absurd hdone hunpaid

/-! ## A take -/

/-- Account 2 pays account 1 seven coins of the second chain for nine of the first, under the hash
of `secret`. -/
def coins (secret : Fin 4) : Take (Fin 4) (Fin 4) where
  chain₁ := small.toChain
  chain₂ := small.toChain
  sha256 := small.sha256
  terms :=
    { direction := .ethToQrl, asset := ⟨"ETH", none, 18⟩, fromAmount := 9, toAmount := 7,
      makerEthAccount := 1, makerQrlAccount := 1, takerEthAccount := 2, takerQrlAccount := 2,
      initiatorTimeout := 0, responderTimeout := 0 }
  fill := ⟨secret + 1, 9000, 5000, 300⟩
  prelocked := false
  cfg := ⟨180000, 240, 1800, 900⟩
  usable := by decide

variable (secret : Fin 4)

def coinsCall₁ (sender : Fin 3) (call : Call (Fin 4) (Fin 4)) (value : Nat) :
    LegInput (coins secret).toTwoChains :=
  .call1 (Msg.of sender call value ⟨true, .empty⟩) [] []

def coinsCall₂ (sender : Fin 3) (call : Call (Fin 4) (Fin 4)) (value : Nat) :
    LegInput (coins secret).toTwoChains :=
  .call2 (Msg.of sender call value ⟨true, .empty⟩) [] []

def coinsLocked : Legs (Fin 4) (Fin 4) (Fin 4) :=
  Lib.Run.run (Legs.step (coins secret).toTwoChains)
    ⟨0, genesis (fun _ => 100) (fun _ _ => 0) (fun _ => false),
      genesis (fun _ => 100) (fun _ _ => 0) (fun _ => false)⟩
    [coinsCall₁ secret 1 (.lockNative (secret + 1) 2 9000) 9]

theorem coinsLocked_reachable : Legs.Reachable (coins secret).toTwoChains (coinsLocked secret) :=
  ⟨_, _, _, _, _, _, _, _, rfl⟩

/-- The tick that decides to lock. -/
def coinsGate : TakerDecideInput (Fin 4) (Fin 4) :=
  { (coins secret).firstTick (coinsLocked secret) with
    record := ⟨true, none, none, none, none, none, none⟩ }

def coinsRun : List (LegInput (coins secret).toTwoChains) :=
  [coinsCall₂ secret 2 (.lockNative (secret + 1) 1 5000) 7, .wait 4000]

def coinsReveal : LegInput (coins secret).toTwoChains :=
  coinsCall₂ secret 1 (.claim (secret + 1) secret) 0

theorem coinsRun_ownLock (s : Legs (Fin 4) (Fin 4) (Fin 4)) :
    Lib.Run.Along (Legs.step (coins secret).toTwoChains) (fun _ i => (coins secret).OwnLock i) s
      (coinsRun secret ++ [coinsReveal secret]) := by
  refine ⟨fun _ _ _ _ => ⟨rfl, rfl⟩, trivial, fun _ args hargs => ?_, trivial⟩
  cases hargs

theorem taker_collects_iff_two :
    (coins 2).Collects 9000 (Legs.step (coins 2).toTwoChains
      (Lib.Run.run (Legs.step (coins 2).toTwoChains) (coinsLocked 2) ([] ++ coinsRun 2))
      (coinsReveal 2)) :=
  (taker_collects_iff (coins 2) (coinsLocked 2) (coinsLocked_reachable 2) [] (coinsGate 2)
    ⟨rfl, rfl, rfl, rfl, rfl⟩ (by decide +kernel) (coinsRun 2) (coinsReveal 2)
    (coinsRun_ownLock 2 _) (by decide) (by decide +kernel) (by decide +kernel)
    (by decide +kernel)).2.2.mpr (.inr (by decide +kernel))

/-- With the zero word as the secret the gate passes, the maker is paid, and the taker waits. -/
theorem zero_secret_not_collected :
    (coinsGate 0).decideTaker.decision = .lock ∧
    (let s := Legs.step (coins 0).toTwoChains
      (Lib.Run.run (Legs.step (coins 0).toTwoChains) (coinsLocked 0) (coinsRun 0)) (coinsReveal 0)
     ((coins 0).record₂ s).status = .Claimed ∧ ((coins 0).record₂ s).initiator = (coins 0).ours ∧
       ((coins 0).record₁ s).timeout = 9000 ∧ ¬ (coins 0).Collects 9000 s) := by
  refine ⟨by decide +kernel, by decide +kernel, by decide +kernel, by decide +kernel, ?_⟩
  intro hcollects
  obtain hclaim | ⟨hspaced, -⟩ := hcollects [] _ (firstTick_tick (coins 0) _) (by decide +kernel)
    (by decide +kernel)
  · revert hclaim
    decide +kernel
  · revert hspaced
    decide +kernel

end Take

end QuantaSwap.Taker
