import QuantaSwap.Htlc.Reveal
import QuantaSwap.Maker.Policy

/-!
# The maker's claim

The maker reads both chains, decides, and sends a claim through `submitPreflightedClaim` of
`marketmaker/src/htlc.ts`. Everything that the chains and `decide` do not fix is chosen freely: the
order of the reads and their failures, the book, what was sent before, and the time between any two
steps.
-/

set_option autoImplicit false
set_option linter.unusedSectionVars false

open Lib.Evm QuantaSwap.Htlc QuantaSwap.Htlc.V3

namespace QuantaSwap.Maker

variable {A₁ A₂ Bytes32 : Type} [DecidableEq A₁] [DecidableEq A₂] [DecidableEq Bytes32]
  [Zero A₁] [Zero A₂] [Zero Bytes32]

inductive Leg
  | initiator
  | responder
  deriving DecidableEq, Repr

def claimCutoffBlocked (timeout : Nat) (nowS marginS : Int) : Bool :=
  (timeout : Int) - marginS ≤ nowS

/-- Where a submission of a claim stands. -/
inductive Phase
  | idle
  | simulate (leg : Leg) (marginS : Int)
  | reread (leg : Leg) (marginS : Int)
  | cutoff (leg : Leg) (marginS : Int) (status : Status) (timeout : Nat)
  | send (leg : Leg) (sentAt : Nat)
  deriving DecidableEq, Repr

structure State (k : Plan A₁ A₂ Bytes32) where
  net : Net k
  iState : Option (LegState A₁ Bytes32)
  rState : Option (LegState A₂ Bytes32)
  rConfirmed : Option (LegState A₂ Bytes32)
  phase : Phase
  /-- What the last decision to claim was taken on. -/
  allowed : Option (DecideInput A₁ A₂ Bytes32)

/-- A transaction of the maker as the node runs it: the gas, and what the callee does. -/
structure Attempt (d : Deployment A₁ Bytes32) where
  msg : Msg d.self (Call A₁ Bytes32)
  pre : List (Action d.self (Call A₁ Bytes32))
  post : List (Action d.self (Call A₁ Bytes32))

/-- The claim goes through in a block at `now`. -/
def Attempt.succeeds {d : Deployment A₁ Bytes32} (a : Attempt d) (o : Origin A₁) (bs : Blocks d)
    (now : Nat) (h p : Bytes32) : Bool :=
  (code d (frame d now { a.msg with call := .claim h p, value := 0 } a.pre a.post) (.claim h p)
    (worldAfter d o bs)).isOk

variable {k : Plan A₁ A₂ Bytes32}

/-- `answered = false` is an error of the node. A call is simulated in the pending block. -/
inductive Input (k : Plan A₁ A₂ Bytes32)
  | chain (m : Move k)
  | readInitiator (answered : Bool)
  | readResponder (answered : Bool)
  /-- A read of the responder leg this many blocks into its chain. -/
  | readConfirmed (depth : Nat) (answered : Bool)
  | tick (x : DecideInput A₁ A₂ Bytes32)
  | simulate (answered : Bool) (first : Attempt k.first) (second : Attempt k.second)
  | reread (answered : Bool)
  | checkCutoff
  | broadcast (answered : Bool) (first : Attempt k.first) (second : Attempt k.second)

def State.start (k : Plan A₁ A₂ Bytes32) (clock : Nat) : State k :=
  ⟨.start k clock, none, none, none, .idle, none⟩

namespace State

variable (s : State k)

/-- What `advance` passes to `decide`, once the secret of this order is chosen. -/
def decideInput (x : DecideInput A₁ A₂ Bytes32) : DecideInput A₁ A₂ Bytes32 :=
  { x with
    managed := { x.managed with preimage := some k.preimage, hashlock := some k.hashlock }
    iState := s.iState
    rState := s.rState
    rConfirmed := s.rConfirmed
    expectedRecipient := k.recipient
    expectedAmountWei := k.amount
    expectedToken := k.token
    nowS := s.net.clock
    claimSafetyS := k.marginS }

def succeeds (first : Attempt k.first) (second : Attempt k.second) : Leg → Bool
  | .initiator => first.succeeds k.origin₁ s.net.first s.net.clock k.hashlock k.preimage
  | .responder => second.succeeds k.origin₂ s.net.second s.net.clock k.hashlock k.preimage

/-- `getSwapState` on the latest block, as far as the cutoff reads it. -/
def escrow : Leg → Status × Nat
  | .initiator => ((k.record₁ s.net.first).status, (k.record₁ s.net.first).timeout)
  | .responder => ((k.record₂ s.net.second).status, (k.record₂ s.net.second).timeout)

/-- The secret goes out with the claim of either leg. -/
def sent (sentAt : Nat) : Leg → Net k
  | .initiator => { s.net with published := true }
  | .responder => s.net.send sentAt

def step (s : State k) : Input k → State k
  | .chain m => { s with net := s.net.move m }
  | .readInitiator answered =>
    { s with iState := if answered then some (k.record₁ s.net.first) else none }
  | .readResponder answered =>
    { s with rState := if answered then some (k.record₂ s.net.second) else none }
  | .readConfirmed depth answered =>
    if answered then
      { s with
        net := s.net.look depth
        rConfirmed := some (k.record₂ (s.net.second.take depth)) }
    else { s with rConfirmed := none }
  | .tick x =>
    match s.phase with
    | .idle =>
      match (s.decideInput x).decide with
      | .claim =>
        { s with phase := .simulate .responder k.marginS, allowed := some (s.decideInput x) }
      | .sponsor => { s with phase := .simulate .initiator x.sponsorMarginS }
      | _ => s
    | _ => s
  | .simulate answered first second =>
    match s.phase with
    | .simulate leg marginS =>
      if answered && s.succeeds first second leg then { s with phase := .reread leg marginS }
      else { s with phase := .idle }
    | _ => s
  | .reread answered =>
    match s.phase with
    | .reread leg marginS =>
      if answered then
        { s with phase := .cutoff leg marginS (s.escrow leg).1 (s.escrow leg).2 }
      else { s with phase := .idle }
    | _ => s
  | .checkCutoff =>
    match s.phase with
    | .cutoff leg marginS status timeout =>
      if status = .Open ∧ claimCutoffBlocked timeout s.net.clock marginS then
        { s with phase := .idle }
      else { s with phase := .send leg s.net.clock }
    | _ => s
  -- The sender estimates the gas first, so a claim that would revert is not broadcast.
  | .broadcast answered first second =>
    match s.phase with
    | .send leg sentAt =>
      if answered && s.succeeds first second leg then
        { s with net := s.sent sentAt leg, phase := .idle }
      else { s with phase := .idle }
    | _ => s

end State

/-! ## What each phase rests on -/

/-- The agreed lock was seen open at depth. -/
def Locked (n : Net k) (r : Swap A₂ Bytes32) : Prop := n.Seen r ∧ r.status = .Open ∧ k.Agreed r

/-- A claim of the responder leg rests on a lock that was seen; a claim of the initiator leg shows
nothing new. -/
def Phase.Sound (n : Net k) : Phase → Prop
  | .idle => True
  | .simulate .initiator _ | .reread .initiator _ | .cutoff .initiator .. | .send .initiator _ =>
    n.published = true
  | .simulate .responder marginS | .reread .responder marginS =>
    marginS = k.marginS ∧ ∃ r, Locked n r
  | .cutoff .responder marginS status timeout =>
    marginS = k.marginS ∧ ∃ r, Locked n r ∧ status ≠ .None ∧
      (status = .Open → timeout = r.timeout) ∧ (status = .Refunded → r.timeout ≤ n.clock) ∧
      (status = .Claimed → n.published = true)
  | .send .responder sentAt =>
    ∃ r, Locked n r ∧
      ((sentAt : Int) + k.marginS < r.timeout ∨ r.timeout ≤ n.clock ∨ n.published = true)

/-- The responder leg is being claimed. -/
def Phase.responder : Phase → Bool
  | .simulate .responder _ | .reread .responder _ | .cutoff .responder .. | .send .responder _ =>
    true
  | _ => false

structure Inv (s : State k) : Prop where
  net : s.net.Kept
  confirmedOpen : ∀ r, s.rConfirmed = some r → r.status = .Open → s.net.Seen r
  confirmedClaimed : ∀ r, s.rConfirmed = some r → r.status = .Claimed → s.net.published = true
  phase : s.phase.Sound s.net
  allowed : s.phase.responder = true → ∃ x, s.allowed = some x ∧ x.decide = .claim

/-- A later state of the net that still holds what was seen. -/
structure Later (n n' : Net k) : Prop where
  clock : n.clock ≤ n'.clock
  published : n.published = true → n'.published = true
  seen : ∀ r, n.Seen r → n'.Seen r

theorem Later.locked {n n' : Net k} (h : Later n n') {r : Swap A₂ Bytes32} (hr : Locked n r) :
    Locked n' r :=
  ⟨h.seen r hr.1, hr.2⟩

theorem Phase.Sound.later {n n' : Net k} {p : Phase} (h : Later n n') (hp : p.Sound n) :
    p.Sound n' := by
  cases p with
  | idle => trivial
  | simulate leg | reread leg =>
    cases leg with
    | initiator => exact h.published hp
    | responder =>
      obtain ⟨hm, r, hr⟩ := hp
      exact ⟨hm, r, h.locked hr⟩
  | cutoff leg m st t =>
    cases leg with
    | initiator => exact h.published hp
    | responder =>
      obtain ⟨hm, r, hr, hnone, hopen, hrefund, hclaim⟩ := hp
      exact ⟨hm, r, h.locked hr, hnone, hopen, fun e => (hrefund e).trans h.clock,
        fun e => h.published (hclaim e)⟩
  | send leg sentAt =>
    cases leg with
    | initiator => exact h.published hp
    | responder =>
      obtain ⟨r, hr, hlt | hle | hpub⟩ := hp
      · exact ⟨r, h.locked hr, .inl hlt⟩
      · exact ⟨r, h.locked hr, .inr (.inl (hle.trans h.clock))⟩
      · exact ⟨r, h.locked hr, .inr (.inr (h.published hpub))⟩

theorem Inv.later {s : State k} (hi : Inv s) {n : Net k} (hn : n.Kept) (h : Later s.net n) :
    Inv { s with net := n } :=
  ⟨hn, fun r hr ho => h.seen r (hi.confirmedOpen r hr ho),
    fun r hr hc => h.published (hi.confirmedClaimed r hr hc), hi.phase.later h, hi.allowed⟩

theorem Inv.withPhase {s : State k} (hi : Inv s) {p : Phase} (hp : p.Sound s.net)
    (ha : p.responder = true → ∃ x, s.allowed = some x ∧ x.decide = .claim) :
    Inv { s with phase := p } :=
  ⟨hi.net, hi.confirmedOpen, hi.confirmedClaimed, hp, ha⟩

theorem Inv.idle {s : State k} (hi : Inv s) : Inv { s with phase := .idle } :=
  hi.withPhase trivial fun h => by cases h

theorem locked_of_claimable {s : State k} (hi : Inv s) {x : DecideInput A₁ A₂ Bytes32} {t2 : Int}
    (hc : (s.decideInput x).claimable t2 = true) : ∃ r, Locked s.net r := by
  simp only [DecideInput.claimable, Bool.and_eq_true] at hc
  obtain ⟨-, hc⟩ := hc
  cases hr : s.rConfirmed with
  | none => simp [State.decideInput, hr] at hc
  | some r =>
    simp only [State.decideInput, hr, Option.any_some, Bool.and_eq_true, beq_iff_eq] at hc
    obtain ⟨⟨⟨ho, ha⟩, -⟩, -⟩ := hc
    refine ⟨r, hi.confirmedOpen r hr ho, ho, ?_⟩
    simpa [DecideInput.agreed, Plan.Agreed, and_assoc] using ha

theorem open_of_succeeds {s : State k} {first : Attempt k.first} {second : Attempt k.second}
    (h : s.succeeds first second .responder = true) :
    (k.record₂ s.net.second).status = .Open ∧ s.net.clock < (k.record₂ s.net.second).timeout := by
  simp only [State.succeeds, Attempt.succeeds] at h
  cases hc : code k.second
      (frame k.second s.net.clock
        { second.msg with call := .claim k.hashlock k.preimage, value := 0 }
        second.pre second.post) (.claim k.hashlock k.preimage)
      (worldAfter k.second k.origin₂ s.net.second) with
  | error e => rw [hc] at h; cases h
  | ok w' => exact open_of_claim hc (reachable_entered (worldAfter_reachable _)) rfl

theorem look_later (n : Net k) (depth : Nat) : Later n (n.look depth) := by
  obtain ⟨hclock, -, -, hpub, -, -⟩ := n.look_eq depth
  exact ⟨hclock.ge, fun h => by rw [hpub]; exact h, fun r hr => hr.look depth⟩

theorem move_later {n : Net k} (h : n.Kept) (m : Move k) : Later n (n.move m) :=
  ⟨n.le_clock_move m, fun hp => by rw [Net.move_published]; exact hp,
    fun _ hr => hr.move h.fixed m⟩

/-! ## One step -/

theorem Inv.readConfirmed {s : State k} (hp : s.net.Plausible) (hi : Inv s) (depth : Nat) :
    Inv { s with
      net := s.net.look depth
      rConfirmed := some (k.record₂ (s.net.second.take depth)) } := by
  have hl := hi.later (hi.net.look depth) (look_later s.net depth)
  refine ⟨hl.net, fun r hr ho => ?_, fun r hr hc => ?_, hl.phase, hl.allowed⟩
  · obtain rfl := Option.some.inj hr
    exact s.net.seen_of_look depth ho
  · obtain rfl := Option.some.inj hr
    exact (look_later s.net depth).published (hp.published_of_claimed₂ depth hc)

theorem Inv.tick {s : State k} (hi : Inv s) (x : DecideInput A₁ A₂ Bytes32) :
    Inv (s.step (.tick x)) := by
  simp only [State.step]
  split
  · split
    · rename_i hd
      obtain ⟨t2, _, -, -, -, hc⟩ := decide_claim hd
      have hlocked : ∃ r, Locked s.net r := locked_of_claimable hi hc
      exact ⟨hi.net, hi.confirmedOpen, hi.confirmedClaimed, ⟨rfl, hlocked⟩, fun _ => ⟨_, rfl, hd⟩⟩
    · rename_i hd
      have hs := decide_sponsor hd
      refine hi.withPhase ?_ fun h => by cases h
      cases hr : s.rConfirmed with
      | none => simp [State.decideInput, hr] at hs
      | some r =>
        refine hi.confirmedClaimed r hr ?_
        simpa [State.decideInput, hr] using hs
    · exact hi
  · exact hi

theorem Inv.reread {s : State k} (hp : s.net.Plausible) (hi : Inv s) {leg : Leg} {m : Int}
    (hs : s.phase = .reread leg m) :
    Inv { s with phase := .cutoff leg m (s.escrow leg).1 (s.escrow leg).2 } := by
  have hphase := hi.phase
  rw [hs] at hphase
  refine hi.withPhase ?_ fun h => hi.allowed (by rw [hs]; cases leg <;> first | rfl | cases h)
  cases leg with
  | initiator => exact hphase
  | responder =>
    obtain ⟨hm, r, hseen, ho, ha⟩ := hphase
    obtain ⟨hnone, htimeout, -, hrefund, hclaimed⟩ := hseen.now hp ho ha
    exact ⟨hm, r, ⟨hseen, ho, ha⟩, hnone, fun _ => htimeout, hrefund, hclaimed⟩

theorem Inv.checkCutoff {s : State k} (hi : Inv s) {leg : Leg} {m : Int} {st : Status} {t : Nat}
    (hs : s.phase = .cutoff leg m st t)
    (hblocked : ¬ (st = .Open ∧ claimCutoffBlocked t s.net.clock m)) :
    Inv { s with phase := .send leg s.net.clock } := by
  have hphase := hi.phase
  rw [hs] at hphase
  refine hi.withPhase ?_ fun h => hi.allowed (by rw [hs]; cases leg <;> first | rfl | cases h)
  cases leg with
  | initiator => exact hphase
  | responder =>
    obtain ⟨rfl, r, hr, hnone, hopen, hrefund, hclaimed⟩ := hphase
    refine ⟨r, hr, ?_⟩
    cases st with
    | None => exact absurd rfl hnone
    | Open =>
      have := hopen rfl
      simp only [claimCutoffBlocked, true_and, decide_eq_true_eq, not_le] at hblocked
      exact .inl (by omega)
    | Claimed => exact .inr (.inr (hclaimed rfl))
    | Refunded => exact .inr (.inl (hrefund rfl))

/-- What holds when the claim of the responder leg goes out. -/
theorem Inv.at_send {s : State k} (hp : s.net.Plausible) (hi : Inv s) {sentAt : Nat}
    {first : Attempt k.first} {second : Attempt k.second} (hs : s.phase = .send .responder sentAt)
    (hok : s.succeeds first second .responder = true) :
    ∃ r, Locked s.net r ∧ k.Agreed (k.record₂ s.net.second) ∧
      (k.record₂ s.net.second).timeout = r.timeout ∧
      ((sentAt : Int) + k.marginS < r.timeout ∨ s.net.published = true) := by
  have hphase := hi.phase
  rw [hs] at hphase
  obtain ⟨r, hr, hcase⟩ := hphase
  obtain ⟨-, htimeout, hagreed, -, -⟩ := hr.1.now hp hr.2.1 hr.2.2
  have hopen := open_of_succeeds hok
  refine ⟨r, hr, hagreed, htimeout, ?_⟩
  rcases hcase with hlt | hle | hpub
  · exact .inl hlt
  · omega
  · exact .inr hpub

theorem Inv.sent {s : State k} (hp : s.net.Plausible) (hi : Inv s) {leg : Leg} {sentAt : Nat}
    {first : Attempt k.first} {second : Attempt k.second} (hs : s.phase = .send leg sentAt)
    (hok : s.succeeds first second leg = true) :
    Inv { s with net := s.sent sentAt leg, phase := .idle } := by
  have hbacked : s.net.published = true → ∃ q ∈ (s.sent sentAt leg).claims, s.net.Backed q := by
    intro hpub
    obtain ⟨q, hq, hb⟩ := hi.net.backed hpub
    cases leg with
    | initiator => exact ⟨q, hq, hb⟩
    | responder => exact ⟨q, List.mem_append_left _ hq, hb⟩
  refine ⟨⟨?_, fun _ => ?_⟩, fun r hr ho => ?_, fun r hr hc => ?_, trivial, fun h => by cases h⟩
  · cases leg <;> exact hi.net.fixed
  · cases leg with
    | initiator =>
      have hphase := hi.phase
      rw [hs] at hphase
      exact hbacked hphase
    | responder =>
      obtain ⟨_, ⟨⟨n, hn, rfl⟩, ho, ha⟩, -, -, hlt | hpub⟩ := hi.at_send hp hs hok
      · exact ⟨⟨sentAt, s.net.fixed⟩, List.mem_append_right _ (List.mem_singleton_self _),
          le_refl _,
          n, hn, ho, ha, hlt⟩
      · exact hbacked hpub
  · cases leg <;> exact hi.confirmedOpen r hr ho
  · cases leg <;> rfl

theorem Inv.step {s : State k} (hp : s.net.Plausible) (hi : Inv s) (i : Input k) :
    Inv (s.step i) := by
  cases i with
  | chain m => exact hi.later (hi.net.move m) (move_later hi.net m)
  | readInitiator | readResponder =>
    exact ⟨hi.net, hi.confirmedOpen, hi.confirmedClaimed, hi.phase, hi.allowed⟩
  | readConfirmed depth answered =>
    simp only [State.step]
    split
    · exact hi.readConfirmed hp depth
    · exact ⟨hi.net, nofun, nofun, hi.phase, hi.allowed⟩
  | tick x => exact hi.tick x
  | simulate answered first second =>
    simp only [State.step]
    split
    · rename_i leg m hs
      split
      · have hphase := hi.phase
        rw [hs] at hphase
        refine hi.withPhase ?_ fun h => hi.allowed (by rw [hs]; cases leg <;> first | rfl | cases h)
        cases leg <;> exact hphase
      · exact hi.idle
    · exact hi
  -- Only the read behind the simulation lets the claim go on to its cutoff.
  | reread answered =>
    simp only [State.step]
    split
    · rename_i hs
      split
      · exact hi.reread hp hs
      · exact hi.idle
    · exact hi
  | checkCutoff =>
    simp only [State.step]
    split
    · rename_i hs
      split
      · exact hi.idle
      · exact hi.checkCutoff hs ‹_›
    · exact hi
  | broadcast answered first second =>
    simp only [State.step]
    split
    · rename_i hs
      split
      · rename_i hok
        exact hi.sent hp hs (Bool.and_eq_true _ _ ▸ hok).2
      · exact hi.idle
    · exact hi

/-! ## Every run -/

theorem start_inv (k : Plan A₁ A₂ Bytes32) (clock : Nat) : Inv (State.start k clock) :=
  ⟨Net.start_kept k clock, nofun, nofun, trivial, nofun⟩

theorem run_inv {clock : Nat} {is : List (Input k)}
    (h : Lib.Run.Along State.step (fun s i => (State.step s i).net.Plausible)
      (State.start k clock) is) :
    (Lib.Run.run State.step (State.start k clock) is).net.Plausible ∧
      Inv (Lib.Run.run State.step (State.start k clock) is) :=
  Lib.Run.invariant_of_along (I := fun s => s.net.Plausible ∧ Inv s)
    (fun _ i hs hp => ⟨hp, hs.2.step hs.1 i⟩) h ⟨Net.start_plausible k clock, start_inv k clock⟩

theorem broadcast_of_published {s : State k} {i : Input k} (hno : s.net.published = false)
    (hyes : (s.step i).net.published = true) :
    ∃ first second leg sentAt, s.phase = .send leg sentAt ∧
      s.succeeds first second leg = true := by
  have hsame : (s.step i).net.published ≠ s.net.published := by rw [hno, hyes]; simp
  cases i with
  | chain m => exact absurd (s.net.move_published m) hsame
  | readInitiator | readResponder => exact absurd rfl hsame
  | readConfirmed depth answered =>
    simp only [State.step] at hsame
    split at hsame
    · exact absurd (s.net.look_eq depth).2.2.2.1 hsame
    · exact absurd rfl hsame
  | tick | simulate | reread | checkCutoff =>
    refine absurd ?_ hsame
    simp only [State.step]
    split
    · split <;> rfl
    · rfl
  | broadcast answered first second =>
    simp only [State.step] at hsame
    split at hsame
    · rename_i leg sentAt hs
      split at hsame
      · rename_i hok
        exact ⟨first, second, leg, sentAt, hs, (Bool.and_eq_true _ _ ▸ hok).2⟩
      · exact absurd rfl hsame
    · exact absurd rfl hsame

/-- **The maker is not left paying without being paid.** In every plausible run the initiator leg
is never claimed while the responder leg is refunded. The secret leaves the maker in a claim of
the responder leg only, one that `decide` allowed, while the agreed lock is open, was seen at
depth, and has the safety margin left before its timeout. -/
theorem maker_paid (k : Plan A₁ A₂ Bytes32) (clock : Nat) (is : List (Input k))
    (h : Lib.Run.Along State.step (fun s i => (State.step s i).net.Plausible)
      (State.start k clock) is) :
    let s := Lib.Run.run State.step (State.start k clock) is
    ¬ ((k.record₁ s.net.first).status = .Claimed ∧
      (k.record₂ s.net.second).status = .Refunded) ∧
    ∀ i, s.net.published = false → (s.step i).net.published = true →
      ∃ sentAt x, s.phase = .send .responder sentAt ∧ s.allowed = some x ∧ x.decide = .claim ∧
        (k.record₂ s.net.second).status = .Open ∧ k.Agreed (k.record₂ s.net.second) ∧
        (∃ r, Locked s.net r ∧ r.timeout = (k.record₂ s.net.second).timeout) ∧
        (sentAt : Int) + k.marginS < (k.record₂ s.net.second).timeout := by
  intro s
  obtain ⟨hp, hi⟩ : s.net.Plausible ∧ Inv s := run_inv h
  refine ⟨hi.net.safe hp, fun i hno hyes => ?_⟩
  obtain ⟨first, second, leg, sentAt, hs, hok⟩ := broadcast_of_published hno hyes
  cases leg with
  | initiator =>
    have hphase := hi.phase
    rw [hs] at hphase
    exact absurd (hno.symm.trans hphase) (by simp)
  | responder =>
    obtain ⟨x, hx, hd⟩ := hi.allowed (by rw [hs]; rfl)
    obtain ⟨r, hr, hagreed, htimeout, hlt | hpub⟩ := hi.at_send hp hs hok
    · exact ⟨sentAt, x, hs, hx, hd, (open_of_succeeds hok).1, hagreed, ⟨r, hr, htimeout.symm⟩,
        by rw [htimeout]; exact hlt⟩
    · exact absurd (hno.symm.trans hpub) (by simp)

/-! ## A sale -/

/-- Account 1 sells 9 coins of the first chain to account 2 for 7 of the second. -/
def sale : Plan (Fin 4) (Fin 4) (Fin 4) where
  chain₁ := small.toChain
  chain₂ := small.toChain
  sha256 := small.sha256
  origin₁ := ⟨fun _ => 100, fun _ _ => 0, fun _ => false⟩
  origin₂ := ⟨fun _ => 100, fun _ _ => 0, fun _ => false⟩
  preimage := 2
  recipient := 1
  token := 0
  amount := 7
  marginS := 5
  isAccount := by decide

def saleMsg (sender : Fin 3) (call : Call (Fin 4) (Fin 4)) (value : Nat) :
    Lib.Evm.Input small.toChain (Call (Fin 4) (Fin 4)) :=
  .call 0 (Msg.of sender call value ⟨true, .empty⟩) [] []

def saleAttempt : Attempt small := ⟨Msg.of 1 (.claim 3 2) 0 ⟨true, .empty⟩, [], []⟩

/-- The book says nothing that matters, and nothing was sent yet but our lock. -/
def saleTick : DecideInput (Fin 4) (Fin 4) (Fin 4) where
  bookStatus := .locking
  released := false
  managed :=
    { protocol := none, preimage := none, hashlock := none, initiatorTimeout := some 200,
      responderTimeout := some 100, announcedAt := some 0, lockSentAt := some 0,
      claimSentAt := none, sponsorSentAt := none, refundSentAt := none, withdrawSentAt := none,
      pushSentAt := none, withdrawAttempts := none, pushAttempts := none,
      withdrawFirstRejectedAt := none, pushFirstRejectedAt := none }
  iState := none
  rState := none
  rConfirmed := none
  expectedRecipient := 0
  expectedAmountWei := 0
  expectedToken := 0
  nowS := 0
  resendAfterS := 60
  claimSafetyS := 0
  lockGraceS := 0
  sponsorClaims := true
  ourInitiator := 1
  takerOnInitiatorLeg := some 2
  sponsorMarginS := 5
  ourResponderCredit := none
  ourInitiatorCredit := none
  takerCredit := none

def saleRun : List (Input sale) :=
  [.chain (.first [saleMsg 1 (.lockNative 3 2 200) 9]),
    .chain (.second [saleMsg 2 (.lockNative 3 1 100) 7]),
    .readInitiator true, .readResponder true, .readConfirmed 1 true, .tick saleTick,
    .simulate true saleAttempt saleAttempt, .reread true, .checkCutoff,
    .broadcast true saleAttempt saleAttempt,
    .chain (.second [saleMsg 1 (.claim 3 2) 0]), .chain (.wait 10)]

theorem saleRun_plausible :
    Lib.Run.Along State.step (fun s i => (State.step s i).net.Plausible) (State.start sale 0)
      saleRun := by
  have hsplit : saleRun = saleRun.take 11 ++ [.chain (.wait 10)] := rfl
  rw [hsplit, Lib.Run.along_append]
  refine ⟨along_of_calmRun State.net (by decide), ⟨by decide, by decide, nofun, nofun, ?_⟩, trivial⟩
  intro q hq _
  obtain rfl : q = ⟨0, 1⟩ := List.mem_singleton.mp hq
  exact ⟨1, 0, _, [], [], by decide, rfl, rfl, rfl, by decide, nofun⟩

theorem maker_paid_sale :
    (Lib.Run.run State.step (State.start sale 0) saleRun).net.published = true ∧
    ¬ ((sale.record₁ (Lib.Run.run State.step (State.start sale 0) saleRun).net.first).status =
        .Claimed ∧
      (sale.record₂ (Lib.Run.run State.step (State.start sale 0) saleRun).net.second).status =
        .Refunded) :=
  ⟨by decide, (maker_paid sale 0 saleRun saleRun_plausible).1⟩

end QuantaSwap.Maker
