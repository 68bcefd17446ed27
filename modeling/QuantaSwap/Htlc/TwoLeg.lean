import QuantaSwap.Htlc.Settlement

/-!
# The two legs of a swap

Two HTLCv3 contracts on two chains under one clock, called by anyone in any order. Once the
responder's leg is claimed, the secret is public, and until its own timeout the initiator's leg
can be claimed with it.
-/

set_option autoImplicit false
set_option linter.unusedSectionVars false

open Lib.Evm Function

namespace QuantaSwap.Htlc.V3

variable {A₁ A₂ Bytes32 : Type} [DecidableEq A₁] [DecidableEq A₂] [DecidableEq Bytes32]
  [Zero A₁] [Zero A₂] [Zero Bytes32]

/-- Two chains with the same hash. -/
structure TwoChains (A₁ A₂ Bytes32 : Type) where
  chain₁ : Chain A₁
  chain₂ : Chain A₂
  sha256 : Bytes32 → Bytes32

/-- The initiator's contract. -/
def TwoChains.first (c : TwoChains A₁ A₂ Bytes32) : Deployment A₁ Bytes32 := ⟨c.chain₁, c.sha256⟩

/-- The responder's contract. -/
def TwoChains.second (c : TwoChains A₁ A₂ Bytes32) : Deployment A₂ Bytes32 := ⟨c.chain₂, c.sha256⟩

structure Legs (A₁ A₂ Bytes32 : Type) where
  clock : Nat
  leg1 : W A₁ Bytes32
  leg2 : W A₂ Bytes32

variable (c : TwoChains A₁ A₂ Bytes32)

/-- What may happen next: time passes, or one of the chains moves. A message carries the time of
the common clock. -/
inductive LegInput
  | wait (seconds : Nat)
  | call1 (m : Msg c.first.self (Call A₁ Bytes32))
    (pre post : List (Action c.first.self (Call A₁ Bytes32)))
  | call2 (m : Msg c.second.self (Call A₂ Bytes32))
    (pre post : List (Action c.second.self (Call A₂ Bytes32)))
  | outside1 (o : Outside A₁)
  | outside2 (o : Outside A₂)

def Legs.step (s : Legs A₁ A₂ Bytes32) : LegInput c → Legs A₁ A₂ Bytes32
  | .wait n => { s with clock := s.clock + n }
  | .call1 m pre post => { s with leg1 := V3.step c.first s.leg1 (.call s.clock m pre post) }
  | .call2 m pre post => { s with leg2 := V3.step c.second s.leg2 (.call s.clock m pre post) }
  | .outside1 o => { s with leg1 := V3.step c.first s.leg1 (.outside o) }
  | .outside2 o => { s with leg2 := V3.step c.second s.leg2 (.outside o) }

/-- The states of the two chains from the deployment of both contracts on. -/
def Legs.Reachable (s : Legs A₁ A₂ Bytes32) : Prop :=
  ∃ clock n₁ t₁ k₁ n₂ t₂ k₂ is,
    Lib.Run.run (Legs.step c) ⟨clock, genesis n₁ t₁ k₁, genesis n₂ t₂ k₂⟩ is = s

/-! ## What the clock says of a record -/

section Timely

variable {Addr : Type} [DecidableEq Addr] [Zero Addr] {d : Deployment Addr Bytes32}
  {s s' : Swap Addr Bytes32} {h : Bytes32} {now : Nat}

/-- A refund of an assigned swap came after its timeout, and a claim showed the preimage. -/
structure Timely (d : Deployment Addr Bytes32) (now : Nat) (h : Bytes32) (s : Swap Addr Bytes32) :
    Prop where
  refunded : s.status = .Refunded → s.recipient ≠ 0 → s.timeout ≤ now
  claimed : s.status = .Claimed → d.sha256 s.preimage = h

theorem Timely.later {later : Nat} (ht : Timely d now h s) (hle : now ≤ later) :
    Timely d later h s :=
  ⟨fun hs hr => (ht.refunded hs hr).trans hle, ht.claimed⟩

theorem Transition.timely {sender : Addr} (ht : Transition d sender now h s s') :
    Timely d now h s' := by
  cases ht with
  | lock => exact ⟨fun e => by simp at e, fun e => by simp at e⟩
  | assign isOpen => exact ⟨fun e => by simp [isOpen] at e, fun e => by simp [isOpen] at e⟩
  | claim _ _ _ hash => exact ⟨fun e => by simp at e, fun _ => hash⟩
  | refund _ time => exact ⟨fun _ _ => time, fun e => by simp at e⟩
  | release _ _ unset => exact ⟨fun _ e => absurd unset e, fun e => by simp at e⟩

theorem Transition.claimed_before {sender : Addr} (ht : Transition d sender now h s s')
    (hs : s'.status = .Claimed) : s.status ≠ .Claimed ∧ now < s.timeout := by
  cases ht with
  | claim isOpen _ time => exact ⟨by simp [isOpen], time⟩
  | assign isOpen => simp [isOpen] at hs
  | lock | refund | release => simp at hs

theorem Transition.claimed_timeout {sender : Addr} (ht : Transition d sender now h s s')
    (hs : s'.status = .Claimed) : now < s'.timeout := by
  cases ht with
  | claim isOpen _ time => exact time
  | assign isOpen => simp [isOpen] at hs
  | lock | refund | release => simp at hs

theorem Transition.claimed_due {sender : Addr} (ht : Transition d sender now h s s')
    (hs : s'.status = .Claimed) :
    due s = [] ∧ due s' = [(s'.token, s'.recipient, s'.amount)] := by
  cases ht with
  | claim isOpen => exact ⟨by simp [due, isOpen], by simp [due]⟩
  | assign isOpen => simp [isOpen] at hs
  | lock | refund | release => simp at hs

theorem step_claimed_paid {w : W Addr Bytes32} (m : Msg d.self (Call Addr Bytes32))
    (pre post : List (Action d.self (Call Addr Bytes32)))
    (hnot : (w.storage.swaps h).status ≠ .Claimed) :
    let w' := step d w (.call now m pre post)
    (w'.storage.swaps h).status = .Claimed →
      PaidOut d.toChain (script d m pre post) (w'.storage.swaps h).token
        (w'.storage.swaps h).recipient (w'.storage.swaps h).amount w w' := by
  intro w' hi
  obtain heq | he := step_call w now m pre post
  · rw [show w' = w from heq] at hi
    exact absurd hi hnot
  · have hm := he.moves h
    obtain hsame | htr := hm.record
    · rw [show w'.storage.swaps h = w.storage.swaps h from hsame] at hi
      exact absurd hi hnot
    · obtain ⟨hold, hnew⟩ := htr.claimed_due hi
      exact hm.paysDue _ _ _ hold hnew

theorem step_record (h : Bytes32) (w : W Addr Bytes32) (m : Msg d.self (Call Addr Bytes32))
    (pre post : List (Action d.self (Call Addr Bytes32))) :
    (step d w (.call now m pre post)).storage.swaps h = w.storage.swaps h ∨
      Transition d m.sender now h (w.storage.swaps h)
        ((step d w (.call now m pre post)).storage.swaps h) := by
  obtain heq | he := step_call w now m pre post
  · left; rw [heq]
  · exact (he.moves h).record

theorem step_outside_storage (w : W Addr Bytes32) (o : Outside Addr) :
    (step d w (.outside o)).storage = w.storage :=
  (outside_untouched (c := d.toChain) w o).storage

theorem step_timely {w : W Addr Bytes32} (hw : Timely d now h (w.storage.swaps h))
    (m : Msg d.self (Call Addr Bytes32)) (pre post : List (Action d.self (Call Addr Bytes32))) :
    Timely d now h ((step d w (.call now m pre post)).storage.swaps h) := by
  obtain heq | ht := step_record h w m pre post
  · rw [heq]; exact hw
  · exact ht.timely

end Timely

/-! ## Runs of the two chains -/

variable {c} {s : Legs A₁ A₂ Bytes32} {h : Bytes32}

/-- What holds in every state of the two chains. -/
structure Legs.Sound (c : TwoChains A₁ A₂ Bytes32) (h : Bytes32) (s : Legs A₁ A₂ Bytes32) :
    Prop where
  reach₁ : V3.Reachable c.first s.leg1
  reach₂ : V3.Reachable c.second s.leg2
  timely₁ : Timely c.first s.clock h (s.leg1.storage.swaps h)
  timely₂ : Timely c.second s.clock h (s.leg2.storage.swaps h)

theorem Legs.Sound.step (hs : Legs.Sound c h s) (i : LegInput c) :
    Legs.Sound c h (Legs.step c s i) := by
  cases i with
  | wait n =>
    exact ⟨hs.reach₁, hs.reach₂, hs.timely₁.later (Nat.le_add_right _ _),
      hs.timely₂.later (Nat.le_add_right _ _)⟩
  | call1 m pre post =>
    exact ⟨hs.reach₁.step (.call s.clock m pre post), hs.reach₂, step_timely hs.timely₁ m pre post,
      hs.timely₂⟩
  | call2 m pre post =>
    exact ⟨hs.reach₁, hs.reach₂.step (.call s.clock m pre post), hs.timely₁,
      step_timely hs.timely₂ m pre post⟩
  | outside1 o =>
    refine ⟨hs.reach₁.step (.outside o), hs.reach₂, ?_, hs.timely₂⟩
    simp only [Legs.step, step_outside_storage]
    exact hs.timely₁
  | outside2 o =>
    refine ⟨hs.reach₁, hs.reach₂.step (.outside o), hs.timely₁, ?_⟩
    simp only [Legs.step, step_outside_storage]
    exact hs.timely₂

theorem Legs.Reachable.sound (hs : Legs.Reachable c s) (h : Bytes32) : Legs.Sound c h s := by
  obtain ⟨clock, n₁, t₁, k₁, n₂, t₂, k₂, is, rfl⟩ := hs
  refine Lib.Run.invariant (I := Legs.Sound c h) (fun _ i hs => Legs.Sound.step hs i) ?_ is
  refine ⟨.genesis _ _ _, .genesis _ _ _, ?_, ?_⟩
  · exact ⟨fun e => by simp [genesis, initial, Swap.empty] at e,
      fun e => by simp [genesis, initial, Swap.empty] at e⟩
  · exact ⟨fun e => by simp [genesis, initial, Swap.empty] at e,
      fun e => by simp [genesis, initial, Swap.empty] at e⟩

theorem Legs.Reachable.run (hs : Legs.Reachable c s) (is : List (LegInput c)) :
    Legs.Reachable c (Lib.Run.run (Legs.step c) s is) := by
  obtain ⟨clock, n₁, t₁, k₁, n₂, t₂, k₂, js, rfl⟩ := hs
  exact ⟨clock, n₁, t₁, k₁, n₂, t₂, k₂, js ++ is, Lib.Run.run_append _ _ _ _⟩

theorem Legs.run_extends (s : Legs A₁ A₂ Bytes32) (is : List (LegInput c)) :
    Extends (s.leg2.storage.swaps h) ((Lib.Run.run (Legs.step c) s is).leg2.storage.swaps h) := by
  refine Lib.Run.related (fun _ => .refl _) (fun _ _ _ => .trans) (I := fun _ => True)
    (R := fun v v' : Legs A₁ A₂ Bytes32 =>
      Extends (v.leg2.storage.swaps h) (v'.leg2.storage.swaps h))
    (fun _ _ _ => trivial) (fun v i _ => ?_) trivial is
  cases i with
  | call2 m pre post => exact step_extends h v.leg2 _
  | outside2 o => exact step_extends h v.leg2 (.outside o)
  | wait | call1 | outside1 => exact .refl _

theorem Legs.run_claimed (is : List (LegInput c))
    (hc : (s.leg2.storage.swaps h).status = .Claimed) :
    (Lib.Run.run (Legs.step c) s is).leg2.storage.swaps h = s.leg2.storage.swaps h :=
  (Legs.run_extends s is).terminal (by rw [hc]; rfl)

theorem Legs.run_extends₁ (s : Legs A₁ A₂ Bytes32) (is : List (LegInput c)) :
    Extends (s.leg1.storage.swaps h) ((Lib.Run.run (Legs.step c) s is).leg1.storage.swaps h) := by
  refine Lib.Run.related (fun _ => .refl _) (fun _ _ _ => .trans) (I := fun _ => True)
    (R := fun v v' : Legs A₁ A₂ Bytes32 =>
      Extends (v.leg1.storage.swaps h) (v'.leg1.storage.swaps h))
    (fun _ _ _ => trivial) (fun v i _ => ?_) trivial is
  cases i with
  | call1 m pre post => exact step_extends h v.leg1 _
  | outside1 o => exact step_extends h v.leg1 (.outside o)
  | wait | call2 | outside2 => exact .refl _

theorem Legs.Reachable.stays (hs : Legs.Reachable c s)
    (ho : (s.leg1.storage.swaps h).status = .Open) (ha : (s.leg1.storage.swaps h).recipient ≠ 0)
    (is : List (LegInput c)) :
    let s' := Lib.Run.run (Legs.step c) s is
    (s'.leg1.storage.swaps h).timeout = (s.leg1.storage.swaps h).timeout ∧
      (s'.leg1.storage.swaps h).recipient = (s.leg1.storage.swaps h).recipient ∧
      (s'.clock < (s.leg1.storage.swaps h).timeout → (s'.leg1.storage.swaps h).status = .Open ∨
        (s'.leg1.storage.swaps h).status = .Claimed) := by
  intro s'
  have hx : Extends (s.leg1.storage.swaps h) (s'.leg1.storage.swaps h) := Legs.run_extends₁ s is
  have hlocked : (s.leg1.storage.swaps h).status ≠ .None := by
    rw [ho]
    simp
  have htime := (hx.terms hlocked).2.2.2
  have hrec := hx.recipient hlocked ha
  refine ⟨htime, hrec, fun hbefore => ?_⟩
  cases hst : (s'.leg1.storage.swaps h).status with
  | None => exact absurd hst (hx.not_none hlocked)
  | Open => exact .inl rfl
  | Claimed => exact .inr rfl
  | Refunded =>
    have hend := ((hs.run is).sound h).timely₁.refunded hst (by rw [hrec]; exact ha)
    have : (s'.leg1.storage.swaps h).timeout ≤ s'.clock := hend
    omega

/-! ## Atomicity -/

/-- The first leg can still be paid out with the preimage `p`, or has been: to its recipient, and
exactly its amount. -/
def Legs.Payable (c : TwoChains A₁ A₂ Bytes32) (h p : Bytes32) (s : Legs A₁ A₂ Bytes32) : Prop :=
  let s₁ := s.leg1.storage.swaps h
  (s₁.status = .Claimed ∧ payoutsOf h s.leg1.log = [(s₁.token, s₁.recipient, s₁.amount)]) ∨
  ∀ (m : Msg c.first.self (Call A₁ Bytes32)) pre post, m.call = .claim h p → m.value = 0 →
    ∃ w', code c.first (frame c.first s.clock m pre post) m.call s.leg1 = .ok w' ∧
      w'.storage.swaps =
        update s.leg1.storage.swaps h { s₁ with status := .Claimed, preimage := p } ∧
      PaidOut c.first.toChain (script c.first m pre post) s₁.token s₁.recipient s₁.amount s.leg1 w'

/-- What the owner of the first leg can count on, from a state `s` of a run on: after the claim of
the second leg the secret stays readable and the first leg payable until its own timeout, the call
that claims the first leg pays its recipient, no refund comes before that, and the second leg is not
claimed late. `within` limits the later states that this speaks of. -/
structure Legs.Atomic (c : TwoChains A₁ A₂ Bytes32) (h : Bytes32)
    (within : Legs A₁ A₂ Bytes32 → Prop) (s : Legs A₁ A₂ Bytes32) : Prop where
  revealed : (s.leg2.storage.swaps h).status = .Claimed →
    c.sha256 (s.leg2.storage.swaps h).preimage = h
  payable : (s.leg2.storage.swaps h).status = .Claimed → ∀ js,
    let s' := Lib.Run.run (Legs.step c) s js
    s'.leg2.storage.swaps h = s.leg2.storage.swaps h ∧
    (within s' → (s'.leg1.storage.swaps h).status ≠ .None →
      (s'.leg1.storage.swaps h).recipient ≠ 0 →
      s'.clock < (s'.leg1.storage.swaps h).timeout →
      Legs.Payable c h (s.leg2.storage.swaps h).preimage s')
  paid : (s.leg1.storage.swaps h).status ≠ .Claimed → ∀ i,
    let leg1' := (Legs.step c s i).leg1
    (leg1'.storage.swaps h).status = .Claimed → ∃ m pre post, i = .call1 m pre post ∧
      PaidOut c.first.toChain (script c.first m pre post) (leg1'.storage.swaps h).token
        (leg1'.storage.swaps h).recipient (leg1'.storage.swaps h).amount s.leg1 leg1'
  notRefunded : (s.leg1.storage.swaps h).recipient ≠ 0 →
    s.clock < (s.leg1.storage.swaps h).timeout → (s.leg1.storage.swaps h).status ≠ .Refunded
  notLate : (s.leg2.storage.swaps h).status ≠ .Claimed → ∀ i,
    ((Legs.step c s i).leg2.storage.swaps h).status = .Claimed →
    s.clock < (s.leg2.storage.swaps h).timeout

/-- Until its timeout an assigned first leg is open or claimed, and then it can be paid out. -/
theorem Legs.Sound.payable {p : Bytes32} (hs : Legs.Sound c h s) (hp : c.sha256 p = h)
    (few : settlements s.leg1.log < 2 ^ 128) (locked : (s.leg1.storage.swaps h).status ≠ .None)
    (assigned : (s.leg1.storage.swaps h).recipient ≠ 0)
    (before : s.clock < (s.leg1.storage.swaps h).timeout) : Legs.Payable c h p s := by
  cases hst : (s.leg1.storage.swaps h).status with
  | None => exact absurd hst locked
  | Refunded =>
    have := hs.timely₁.refunded hst assigned
    omega
  | Claimed =>
    refine .inl ⟨hst, ?_⟩
    rw [(reachable_recorded hs.reach₁ h).payouts]
    simp [due, hst]
  | Open =>
    refine .inr fun m pre post hcall hvalue => ?_
    have guards : Settles c.first m.sender s.clock h (s.leg1.storage.swaps h) m.call
        { s.leg1.storage.swaps h with status := .Claimed, preimage := p }
        (s.leg1.storage.swaps h).recipient (.Claimed h p m.sender) := by
      rw [hcall]
      exact .claim p assigned before hp
    exact (reachable_bounded hs.reach₁).settles few (reachable_entered hs.reach₁)
      (frame_follows s.clock m pre post) hvalue hst guards

theorem Legs.claimed_before (i : LegInput c) (hnot : (s.leg2.storage.swaps h).status ≠ .Claimed)
    (hi : ((Legs.step c s i).leg2.storage.swaps h).status = .Claimed) :
    (Legs.step c s i).clock < ((Legs.step c s i).leg2.storage.swaps h).timeout := by
  cases i with
  | call2 m pre post =>
    obtain heq | ht := step_record (d := c.second) h s.leg2 m pre post
    · exact absurd (heq ▸ hi) hnot
    · exact ht.claimed_timeout hi
  | outside2 o =>
    simp only [Legs.step, step_outside_storage] at hi
    exact absurd hi hnot
  | wait | call1 | outside1 => exact absurd hi hnot

theorem Legs.Sound.not_late (i : LegInput c)
    (hnot : (s.leg2.storage.swaps h).status ≠ .Claimed)
    (hi : ((Legs.step c s i).leg2.storage.swaps h).status = .Claimed) :
    s.clock < (s.leg2.storage.swaps h).timeout := by
  cases i with
  | call2 m pre post =>
    obtain heq | ht := step_record (d := c.second) h s.leg2 m pre post
    · exact absurd (heq ▸ hi) hnot
    · exact (ht.claimed_before hi).2
  | outside2 o =>
    simp only [Legs.step, step_outside_storage] at hi
    exact absurd hi hnot
  | wait | call1 | outside1 => exact absurd hi hnot

theorem Legs.claimed_paid (i : LegInput c) (hnot : (s.leg1.storage.swaps h).status ≠ .Claimed) :
    let leg1' := (Legs.step c s i).leg1
    (leg1'.storage.swaps h).status = .Claimed → ∃ m pre post, i = .call1 m pre post ∧
      PaidOut c.first.toChain (script c.first m pre post) (leg1'.storage.swaps h).token
        (leg1'.storage.swaps h).recipient (leg1'.storage.swaps h).amount s.leg1 leg1' := by
  intro leg1' hi
  cases i with
  | call1 m pre post =>
    exact ⟨m, pre, post, rfl, step_claimed_paid (d := c.first) m pre post hnot hi⟩
  | outside1 o =>
    simp only [leg1', Legs.step, step_outside_storage] at hi
    exact absurd hi hnot
  | wait | call2 | outside2 => exact absurd hi hnot

/-- **The two legs are atomic** in every run, while the first contract has settled fewer than
`2 ^ 128` swaps. The order of the two timeouts plays no part in it. -/
theorem legs_atomic (c : TwoChains A₁ A₂ Bytes32) (h : Bytes32) (clock : Nat)
    (native₁ : A₁ → Nat) (tokens₁ : A₁ → A₁ → Nat) (deployed₁ : A₁ → Bool)
    (native₂ : A₂ → Nat) (tokens₂ : A₂ → A₂ → Nat) (deployed₂ : A₂ → Bool)
    (is : List (LegInput c)) :
    Legs.Atomic c h (fun s' => settlements s'.leg1.log < 2 ^ 128)
      (Lib.Run.run (Legs.step c)
        ⟨clock, genesis native₁ tokens₁ deployed₁, genesis native₂ tokens₂ deployed₂⟩ is) := by
  have hs : Legs.Reachable c (Lib.Run.run (Legs.step c)
      ⟨clock, genesis native₁ tokens₁ deployed₁, genesis native₂ tokens₂ deployed₂⟩ is) :=
    ⟨clock, native₁, tokens₁, deployed₁, native₂, tokens₂, deployed₂, is, rfl⟩
  generalize Lib.Run.run (Legs.step c) _ is = s at hs ⊢
  have hsound := hs.sound h
  refine ⟨hsound.timely₂.claimed, fun hclaimed js => ⟨?_, fun few locked assigned before => ?_⟩,
    fun hnot i => Legs.claimed_paid i hnot, ?_, ?_⟩
  · exact (Legs.run_extends s js).terminal (by simp [hclaimed, Status.terminal])
  · exact ((hs.run js).sound h).payable (hsound.timely₂.claimed hclaimed) few locked assigned before
  · intro assigned before hst
    have := hsound.timely₁.refunded hst assigned
    omega
  · exact fun hnot i hi => Legs.Sound.not_late i hnot hi

/-! ## The bound is needed -/

section Flood

/-- Two chains on which every token lies; account 4 is the contract, account 3 a token. -/
def liars : TwoChains (Fin 5) (Fin 5) (BitVec 256) where
  chain₁ := ⟨4, fun _ => false⟩
  chain₂ := ⟨4, fun _ => false⟩
  sha256 := fun p => p + 1

/-- A message of account 1 or 2 to a token that says before and after what the sender likes. -/
def lie (sender : Fin 4) (call : Call (Fin 5) (BitVec 256)) (ok : Bool) (after : Nat) :
    Msg liars.first.self (Call (Fin 5) (BitVec 256)) where
  sender := ⟨sender.castSucc, by revert sender; decide⟩
  value := 0
  call := call
  gasLeft := 1000000
  attemptGas := 30000
  readBefore := some (.word 0)
  readAfter := some (.word after)
  answer := ⟨ok, .empty⟩

/-- The hashlock of the `n`-th round of the flood. -/
def floodLock (n : Nat) : BitVec 256 := BitVec.ofNat 256 (n + 3)

/-- One round: lock the cap in the lying token and take it back as a credit. -/
def floodRound (n : Nat) : List (LegInput liars) :=
  [.call1 (lie 1 (.lockTokenOpen (floodLock n) 3 maxUint128 10) true maxUint128) [] [],
    .call1 (lie 1 (.release (floodLock n)) false 0) [] []]

/-- `n` rounds, the last one at the end. -/
def flood : Nat → List (LegInput liars)
  | 0 => []
  | n + 1 => flood n ++ floodRound n

/-- The first leg after `n` rounds. -/
structure Flooded (n : Nat) (w : W (Fin 5) (BitVec 256)) : Prop where
  entered : w.storage.entered = 1
  deployed : w.code 3 = true
  victim : w.storage.swaps 2 = ⟨1, 2, 3, 1, 10, .Open, 0⟩
  fresh : ∀ i, n ≤ i → i < 2 ^ 255 → (w.storage.swaps (floodLock i)).status = .None
  credits : w.storage.credits 3 1 = n * maxUint128
  outstanding : w.storage.outstanding 3 = n * maxUint128

theorem floodLock_ne {i j : Nat} (hi : i < 2 ^ 255) (hj : j < 2 ^ 255) (h : i ≠ j) :
    floodLock i ≠ floodLock j := by
  intro heq
  have := congrArg BitVec.toNat heq
  simp only [floodLock, BitVec.toNat_ofNat] at this
  rw [Nat.mod_eq_of_lt (by omega), Nat.mod_eq_of_lt (by omega)] at this
  omega

theorem floodLock_toNat {i : Nat} (hi : i < 2 ^ 255) : (floodLock i).toNat = i + 3 := by
  simp only [floodLock, BitVec.toNat_ofNat]
  exact Nat.mod_eq_of_lt (by omega)

theorem flood_lock {w : W (Fin 5) (BitVec 256)} {n : Nat} (hw : Flooded n w) (hn : n ≤ 2 ^ 128) :
    step liars.first w
      (.call 0 (lie 1 (.lockTokenOpen (floodLock n) 3 maxUint128 10) true maxUint128) [] []) =
    (setSwap (floodLock n) ⟨1, 0, 3, maxUint128, 10, .Open, 0⟩ w).emit
      (.Locked (floodLock n) 1 0 3 maxUint128 10) := by
  have hfresh := hw.fresh n (le_refl _) (by omega)
  have hz : floodLock n ≠ 0#256 := fun heq => by
    have := congrArg BitVec.toNat heq
    rw [floodLock_toNat (by omega)] at this
    simp at this
  have hpos : maxUint128 ≠ 0 := by decide
  have hcode : code liars.first
      (frame liars.first 0 (lie 1 (.lockTokenOpen (floodLock n) 3 maxUint128 10) true maxUint128)
        [] []) (.lockTokenOpen (floodLock n) 3 maxUint128 10) w =
      .ok (setEntered 1 ((setSwap (floodLock n) ⟨1, 0, 3, maxUint128, 10, .Open, 0⟩
        (setEntered 2 w)).emit (.Locked (floodLock n) 1 0 3 maxUint128 10))) := by
    simp only [code, receive, Payable, dispatch, lockTokenOpen, bind, Except.bind]
    simp [nonReentrant, _lockToken, _lock, hw.entered, hw.deployed, hfresh, hz, hpos, lie,
      inputFrame,
      Msg.frame, _selfBalance, balanceOf, _tokenCall, callToken, ReturnData.decodeUint, checkedSub,
      liars, TwoChains.first, acts, bind, Except.bind, pure, Except.pure]
  rw [setEntered_setSwap hw.entered] at hcode
  simp only [step, Lib.Evm.step, perform]
  rw [show code _ _ (lie 1 _ true maxUint128).call w = _ from hcode]

theorem flood_total {n : Nat} (hn : n ≤ 2 ^ 128) : n * maxUint128 + maxUint128 ≤ maxUint256 :=
  calc n * maxUint128 + maxUint128 = (n + 1) * maxUint128 := (Nat.succ_mul n _).symm
    _ ≤ (2 ^ 128 + 1) * maxUint128 := Nat.mul_le_mul_right _ (by omega)
    _ = maxUint256 := by decide

theorem flood_release {w : W (Fin 5) (BitVec 256)} {n : Nat} (he : w.storage.entered = 1)
    (hn : n ≤ 2 ^ 128)
    (hs : w.storage.swaps (floodLock n) = ⟨1, 0, 3, maxUint128, 10, .Open, 0⟩)
    (hc : w.storage.credits 3 1 = n * maxUint128) (ho : w.storage.outstanding 3 = n * maxUint128) :
    step liars.first w (.call 0 (lie 1 (.release (floodLock n)) false 0) [] []) =
    (setCredit 3 1 ((n + 1) * maxUint128) ((n + 1) * maxUint128)
      ((setSwap (floodLock n) ⟨1, 0, 3, maxUint128, 10, .Refunded, 0⟩ w).emit
        (.Refunded (floodLock n)))).emit (.PayoutCredited 3 1 (floodLock n) maxUint128) := by
  have guards : Settles liars.first 1 0 (floodLock n) (w.storage.swaps (floodLock n))
      (.release (floodLock n)) ⟨1, 0, 3, maxUint128, 10, .Refunded, 0⟩ 1
      (.Refunded (floodLock n)) := by
    rw [hs]
    exact .release rfl rfl
  have hcode := code_of_settles (d := liars.first)
    (x := frame liars.first 0 (lie 1 (.release (floodLock n)) false 0) [] []) he rfl
    (by rw [hs]) guards
  rw [_settle_refused rfl] at hcode
  simp only [hs, emit_storage, setSwap_credits, setSwap_outstanding, setEntered_credits,
    setEntered_outstanding, hc, ho, checkedAdd_of_le (flood_total hn)] at hcode
  have hstep : step liars.first w (.call 0 (lie 1 (.release (floodLock n)) false 0) [] []) =
      setEntered 1 ((setCredit 3 1 (n * maxUint128 + maxUint128) (n * maxUint128 + maxUint128)
        ((setSwap (floodLock n) ⟨1, 0, 3, maxUint128, 10, .Refunded, 0⟩ (setEntered 2 w)).emit
          (.Refunded (floodLock n)))).emit (.PayoutCredited 3 1 (floodLock n) maxUint128)) := by
    simp only [step, Lib.Evm.step, perform]
    rw [show code _ _ (lie 1 (.release (floodLock n)) false 0).call w = _ from hcode]
    rfl
  rw [hstep, Nat.succ_mul]
  obtain ⟨⟨swaps, credits, outstanding, entered⟩, native, tokens, code, log⟩ := w
  simp only at he
  subst he
  rfl

theorem Flooded.round {w : W (Fin 5) (BitVec 256)} {n : Nat} (hw : Flooded n w) (hn : n ≤ 2 ^ 128)
    (v : W (Fin 5) (BitVec 256)) :
    ∃ w', Lib.Run.run (Legs.step liars) ⟨0, w, v⟩ (floodRound n) = ⟨0, w', v⟩ ∧
      Flooded (n + 1) w' := by
  refine ⟨step liars.first (step liars.first w
    (.call 0 (lie 1 (.lockTokenOpen (floodLock n) 3 maxUint128 10) true maxUint128) [] []))
    (.call 0 (lie 1 (.release (floodLock n)) false 0) [] []), rfl, ?_⟩
  have hvictim : (2 : BitVec 256) ≠ floodLock n := fun heq => by
    have := congrArg BitVec.toNat heq
    rw [floodLock_toNat (by omega)] at this
    simp at this
  rw [flood_lock hw hn, flood_release ?_ hn ?_ ?_ ?_]
  · refine ⟨hw.entered, hw.deployed, ?_, fun i hi hlt => ?_, by simp, by simp⟩
    · exact (update_of_ne hvictim _ _).trans ((update_of_ne hvictim _ _).trans hw.victim)
    · have hne : floodLock i ≠ floodLock n := floodLock_ne hlt (by omega) (by omega)
      simpa [update_of_ne hne] using hw.fresh i (by omega) hlt
  · exact hw.entered
  · simp
  · exact hw.credits
  · exact hw.outstanding

theorem flooded {w : W (Fin 5) (BitVec 256)} (hw : Flooded 0 w) (v : W (Fin 5) (BitVec 256))
    (n : Nat) (hn : n ≤ 2 ^ 128 + 1) :
    ∃ w', Lib.Run.run (Legs.step liars) ⟨0, w, v⟩ (flood n) = ⟨0, w', v⟩ ∧ Flooded n w' := by
  induction n with
  | zero => exact ⟨w, rfl, hw⟩
  | succ n ih =>
    obtain ⟨w₁, hrun, hw₁⟩ := ih (by omega)
    obtain ⟨w₂, hround, hw₂⟩ := hw₁.round (by omega) v
    exact ⟨w₂, by rw [flood, Lib.Run.run_append, hrun, hround], hw₂⟩

theorem Flooded.claim_reverts {w : W (Fin 5) (BitVec 256)} (hw : Flooded (2 ^ 128 + 1) w) :
    code liars.first (frame liars.first 0 (lie 2 (.claim 2 1) false 0) [] []) (.claim 2 1) w =
      .error .Panic := by
  have guards : Settles liars.first 2 0 2 (w.storage.swaps 2) (.claim 2 1)
      ⟨1, 2, 3, 1, 10, .Claimed, 1⟩ 2 (.Claimed 2 1 2) := by
    rw [hw.victim]
    exact .claim 1 (by decide) (by decide) rfl
  have hcode := code_of_settles (d := liars.first)
    (x := frame liars.first 0 (lie 2 (.claim 2 1) false 0) [] []) hw.entered rfl
    (by rw [hw.victim]) guards
  have hfull : checkedAdd ((2 ^ 128 + 1) * maxUint128) 1 = .error .Panic := if_neg (by decide)
  rw [hcode, _settle_refused rfl]
  simp only [hw.victim, emit_storage, setSwap_outstanding, setEntered_outstanding, hw.outstanding,
    hfull]
  -- Whatever the first sum is, the second one overflows.
  unfold checkedAdd
  split_ifs <;> rfl

/-- Account 1 locks one unit of the lying token for account 2, account 2 locks one coin for
account 1, and account 1 claims it. -/
def floodStart : List (LegInput liars) :=
  [.call1 (lie 1 (.lockToken 2 2 3 1 10) true 1) [] [],
    .call2 { lie 2 (.lockNative 2 1 5) true 0 with value := 1 } [] [],
    .call2 (lie 1 (.claim 2 1) true 0) [] []]

def floodGenesis : Legs (Fin 5) (Fin 5) (BitVec 256) :=
  ⟨0, genesis (fun _ => 9) (fun _ _ => 0) (fun _ => true),
    genesis (fun _ => 9) (fun _ _ => 0) (fun _ => true)⟩

/-- Without the bound the legs are not atomic. -/
theorem flood_not_atomic :
    ¬ Legs.Atomic liars 2 (fun _ => True)
      (Lib.Run.run (Legs.step liars) floodGenesis floodStart) := by
  intro hatomic
  have hzero : Flooded 0 (Lib.Run.run (Legs.step liars) floodGenesis floodStart).leg1 := by
    refine ⟨rfl, rfl, rfl, fun i _ hlt => ?_, rfl, rfl⟩
    have hne : floodLock i ≠ 2 := fun heq => by
      have := congrArg BitVec.toNat heq
      rw [floodLock_toNat hlt] at this
      simp at this
    have hswaps : (Lib.Run.run (Legs.step liars) floodGenesis floodStart).leg1.storage.swaps =
        update (fun _ => .empty) 2 ⟨1, 2, 3, 1, 10, .Open, 0⟩ := rfl
    rw [hswaps, update_of_ne hne]
    rfl
  have hclaimed : ((Lib.Run.run (Legs.step liars) floodGenesis floodStart).leg2.storage.swaps
      2).status = .Claimed := rfl
  obtain ⟨w', hrun, hw⟩ := flooded hzero
    (Lib.Run.run (Legs.step liars) floodGenesis floodStart).leg2 (2 ^ 128 + 1) (le_refl _)
  have hpay := (hatomic.payable hclaimed (flood (2 ^ 128 + 1))).2 trivial
  have hclock : (Lib.Run.run (Legs.step liars) floodGenesis floodStart) =
      ⟨0, (Lib.Run.run (Legs.step liars) floodGenesis floodStart).leg1,
        (Lib.Run.run (Legs.step liars) floodGenesis floodStart).leg2⟩ := rfl
  rw [hclock, hrun] at hpay
  simp only [hw.victim] at hpay
  obtain ⟨hst, -⟩ | hclaim := hpay (by decide) (by decide) (by decide)
  · rw [hw.victim] at hst
    cases hst
  · obtain ⟨v, hv, -⟩ := hclaim (lie 2 (.claim 2 1) false 0) [] [] rfl rfl
    have hv' : code liars.first (frame liars.first 0 (lie 2 (.claim 2 1) false 0) [] [])
        (.claim 2 1) w' = .ok v := hv
    rw [hw.claim_reverts] at hv'
    cases hv'

end Flood

end QuantaSwap.Htlc.V3
