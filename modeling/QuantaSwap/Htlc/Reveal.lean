import QuantaSwap.Htlc.History

/-!
# Revealing a secret under a deadline

The party that knows the secret funds the first chain and is paid on the second by showing it.
Both chains may be reorganised at will, but for the part of the second chain that the party saw a
lock in. If every claim it sends rests on a lock it saw, as agreed and with a margin before its
timeout, and claims mine within the margin, it is never left with its own leg claimed and the other
one refunded.
-/

set_option autoImplicit false
set_option linter.unusedSectionVars false

open Lib.Evm

namespace QuantaSwap.Htlc.V3

variable {A₁ A₂ Bytes32 : Type} [DecidableEq A₁] [DecidableEq A₂] [DecidableEq Bytes32]
  [Zero A₁] [Zero A₂] [Zero Bytes32]

/-- The secret, what was agreed for the second leg, and how long a claim may take to mine. -/
structure Plan (A₁ A₂ Bytes32 : Type) [Zero A₂] extends TwoChains A₁ A₂ Bytes32 where
  origin₁ : Origin A₁
  origin₂ : Origin A₂
  preimage : Bytes32
  recipient : A₂
  token : A₂
  amount : Nat
  marginS : Int
  isAccount : recipient ≠ 0

def Plan.hashlock (k : Plan A₁ A₂ Bytes32) : Bytes32 := k.sha256 k.preimage

/-- The agreed recipient, token and amount. -/
def Plan.Agreed (k : Plan A₁ A₂ Bytes32) (r : Swap A₂ Bytes32) : Prop :=
  r.token = k.token ∧ r.recipient = k.recipient ∧ r.amount = k.amount

def Plan.record₁ (k : Plan A₁ A₂ Bytes32) (bs : Blocks k.first) : Swap A₁ Bytes32 :=
  recordAfter k.first k.origin₁ k.hashlock bs

def Plan.record₂ (k : Plan A₁ A₂ Bytes32) (bs : Blocks k.second) : Swap A₂ Bytes32 :=
  recordAfter k.second k.origin₂ k.hashlock bs

/-- A claim that was sent, and how much of the second chain was fixed by then. -/
structure SentClaim where
  sentAt : Nat
  after : Nat

/-- The two chains as they stand, and what has left the party. -/
structure Net (k : Plan A₁ A₂ Bytes32) where
  clock : Nat
  first : Blocks k.first
  second : Blocks k.second
  /-- This much of the second chain is no longer reorganised. -/
  fixed : Nat
  /-- The secret has left the party. -/
  published : Bool
  claims : List SentClaim

/-- Time passes, or a chain becomes any other one. -/
inductive Move (k : Plan A₁ A₂ Bytes32)
  | wait (seconds : Nat)
  | first (blocks : Blocks k.first)
  | second (blocks : Blocks k.second)

variable {k : Plan A₁ A₂ Bytes32}

def Net.start (k : Plan A₁ A₂ Bytes32) (clock : Nat) : Net k := ⟨clock, [], [], 0, false, []⟩

def Net.move (s : Net k) : Move k → Net k
  | .wait n => { s with clock := s.clock + n }
  | .first bs => { s with first := bs }
  | .second bs => { s with second := s.second.take s.fixed ++ bs }

/-- Looking at the second chain `n` blocks in: a lock that is seen there stays there. -/
def Net.look (s : Net k) (n : Nat) : Net k :=
  if (k.record₂ (s.second.take n)).status = .Open then
    { s with fixed := max s.fixed (min n s.second.length) }
  else s

/-- A claim leaves the party. -/
def Net.send (s : Net k) (sentAt : Nat) : Net k :=
  { s with published := true, claims := s.claims ++ [⟨sentAt, s.fixed⟩] }

/-- The claim is on the chain, in a block within the margin. It may fail there on the contract's
own checks, not on an overflow of its bookkeeping. -/
def Net.Mined (s : Net k) (q : SentClaim) : Prop :=
  ∃ n t m pre post, q.after ≤ n ∧ s.second[n]? = some (.call t m pre post) ∧
    m.call = .claim k.hashlock k.preimage ∧ m.value = 0 ∧ (t : Int) ≤ q.sentAt + k.marginS ∧
    code k.second (frame k.second t m pre post) m.call
      (worldAfter k.second k.origin₂ (s.second.take n)) ≠ .error .Panic

/-- What is assumed of the chains: block times go up and are not ahead of the clock, nobody knows
a preimage before the secret has left, and a claim mines within the margin. -/
structure Net.Plausible (s : Net k) : Prop where
  ordered : (times s.second).Pairwise (· ≤ ·)
  past : ∀ t ∈ times s.second, t ≤ s.clock
  secret₁ : s.published = false → ∀ i ∈ s.first, ¬ Reveals k.first k.hashlock i
  secret₂ : s.published = false → ∀ i ∈ s.second, ¬ Reveals k.second k.hashlock i
  mined : ∀ q ∈ s.claims, (q.sentAt : Int) + k.marginS < s.clock → s.Mined q

/-- The record `r` was seen in the fixed part of the second chain. -/
def Net.Seen (s : Net k) (r : Swap A₂ Bytes32) : Prop :=
  ∃ n ≤ s.fixed, k.record₂ (s.second.take n) = r

/-- The claim rests on a lock that was seen, as agreed, with the margin before its timeout. -/
def Net.Backed (s : Net k) (q : SentClaim) : Prop :=
  q.after ≤ s.fixed ∧ ∃ n ≤ q.after, (k.record₂ (s.second.take n)).status = .Open ∧
    k.Agreed (k.record₂ (s.second.take n)) ∧
    (q.sentAt : Int) + k.marginS < (k.record₂ (s.second.take n)).timeout

/-- What the party keeps: the secret left it in a claim with backing. -/
structure Net.Kept (s : Net k) : Prop where
  fixed : s.fixed ≤ s.second.length
  backed : s.published = true → ∃ q ∈ s.claims, s.Backed q

theorem Net.start_plausible (k : Plan A₁ A₂ Bytes32) (clock : Nat) :
    (Net.start k clock).Plausible :=
  ⟨List.Pairwise.nil, fun _ h => (List.not_mem_nil h).elim, fun _ _ h => (List.not_mem_nil h).elim,
    fun _ _ h => (List.not_mem_nil h).elim, fun _ h => (List.not_mem_nil h).elim⟩

theorem Net.start_kept (k : Plan A₁ A₂ Bytes32) (clock : Nat) : (Net.start k clock).Kept :=
  ⟨Nat.zero_le _, fun h => Bool.noConfusion h⟩

/-! ## What was seen stays -/

theorem Net.Kept.take_move {s : Net k} (h : s.fixed ≤ s.second.length) (m : Move k) {n : Nat}
    (hn : n ≤ s.fixed) : (s.move m).second.take n = s.second.take n := by
  cases m with
  | wait | first => rfl
  | second bs =>
    simp only [Net.move]
    rw [List.take_append_of_le_length (by simp; omega), List.take_take, Nat.min_eq_left hn]

@[simp] theorem Net.move_fixed (s : Net k) (m : Move k) : (s.move m).fixed = s.fixed := by
  cases m <;> rfl

@[simp] theorem Net.move_claims (s : Net k) (m : Move k) : (s.move m).claims = s.claims := by
  cases m <;> rfl

@[simp] theorem Net.move_published (s : Net k) (m : Move k) :
    (s.move m).published = s.published := by
  cases m <;> rfl

theorem Net.le_clock_move (s : Net k) (m : Move k) : s.clock ≤ (s.move m).clock := by
  cases m with
  | wait n => exact Nat.le_add_right _ _
  | first | second => exact le_refl _

theorem Net.move_length {s : Net k} (h : s.fixed ≤ s.second.length) (m : Move k) :
    s.fixed ≤ (s.move m).second.length := by
  cases m with
  | wait | first => exact h
  | second bs => simp only [Net.move, List.length_append, List.length_take]; omega

theorem Net.Seen.move {s : Net k} {r : Swap A₂ Bytes32} (h : s.fixed ≤ s.second.length)
    (hr : s.Seen r) (m : Move k) : (s.move m).Seen r := by
  obtain ⟨n, hn, rfl⟩ := hr
  exact ⟨n, by rw [Net.move_fixed]; exact hn, by rw [Net.Kept.take_move h m hn]⟩

theorem Net.Kept.move {s : Net k} (h : s.Kept) (m : Move k) : (s.move m).Kept := by
  refine ⟨by rw [Net.move_fixed]; exact Net.move_length h.fixed m, fun hp => ?_⟩
  rw [Net.move_published] at hp
  obtain ⟨q, hq, hle, n, hn, hb⟩ := h.backed hp
  refine ⟨q, by rw [Net.move_claims]; exact hq, by rw [Net.move_fixed]; exact hle, n, hn, ?_⟩
  rw [Net.Kept.take_move h.fixed m (hn.trans hle)]
  exact hb

theorem Net.look_eq (s : Net k) (n : Nat) :
    (s.look n).clock = s.clock ∧ (s.look n).first = s.first ∧ (s.look n).second = s.second ∧
      (s.look n).published = s.published ∧ (s.look n).claims = s.claims ∧
      s.fixed ≤ (s.look n).fixed := by
  unfold Net.look
  split
  · exact ⟨rfl, rfl, rfl, rfl, rfl, le_max_left _ _⟩
  · exact ⟨rfl, rfl, rfl, rfl, rfl, le_refl _⟩

theorem Net.Seen.look {s : Net k} {r : Swap A₂ Bytes32} (hr : s.Seen r) (n : Nat) :
    (s.look n).Seen r := by
  obtain ⟨i, hi, heq⟩ := hr
  obtain ⟨-, -, hsecond, -, -, hfixed⟩ := s.look_eq n
  exact ⟨i, hi.trans hfixed, by rw [hsecond]; exact heq⟩

theorem Net.Kept.look {s : Net k} (h : s.Kept) (n : Nat) : (s.look n).Kept := by
  obtain ⟨-, -, hsecond, hpub, hclaims, hfixed⟩ := s.look_eq n
  refine ⟨?_, fun hp => ?_⟩
  · rw [hsecond]
    have := h.fixed
    unfold Net.look
    split
    · exact max_le this (min_le_right _ _)
    · exact this
  · rw [hpub] at hp
    obtain ⟨q, hq, hle, hb⟩ := h.backed hp
    exact ⟨q, by rw [hclaims]; exact hq, hle.trans hfixed, by rw [hsecond]; exact hb⟩

theorem Net.seen_of_look (s : Net k) (n : Nat)
    (ho : (k.record₂ (s.second.take n)).status = .Open) :
    (s.look n).Seen (k.record₂ (s.second.take n)) := by
  refine ⟨min n s.second.length, ?_, ?_⟩
  · unfold Net.look
    rw [if_pos ho]
    exact le_max_right _ _
  · obtain ⟨-, -, hsecond, -, -, -⟩ := s.look_eq n
    rw [hsecond, ← List.take_eq_take_min]

/-! ## What a seen lock becomes -/

/-- The record on the chain extends what was seen, and is refunded only after the timeout. -/
theorem Net.Seen.now {s : Net k} {r : Swap A₂ Bytes32} (hp : s.Plausible) (hr : s.Seen r)
    (ho : r.status = .Open) (ha : k.Agreed r) :
    (k.record₂ s.second).status ≠ .None ∧ (k.record₂ s.second).timeout = r.timeout ∧
      k.Agreed (k.record₂ s.second) ∧
      ((k.record₂ s.second).status = .Refunded → r.timeout ≤ s.clock) ∧
      ((k.record₂ s.second).status = .Claimed → s.published = true) := by
  obtain ⟨n, -, rfl⟩ := hr
  have hext : Extends (k.record₂ (s.second.take n)) (k.record₂ s.second) :=
    recordAfter_take_extends n s.second
  obtain ⟨-, htoken, hamount, htimeout⟩ := hext.terms (by simp [ho])
  have hassigned : (k.record₂ (s.second.take n)).recipient ≠ 0 := by
    rw [ha.2.1]; exact k.isAccount
  have hrecip := hext.recipient (by simp [ho]) hassigned
  refine ⟨hext.fromOpen ho, htimeout, ⟨htoken.trans ha.1, hrecip.trans ha.2.1,
    hamount.trans ha.2.2⟩, fun hst => ?_, fun hst => ?_⟩
  · rw [← htimeout]
    exact timeout_le_of_refunded s.second hp.past hst
      (by rw [← Plan.record₂, hrecip]; exact hassigned)
  · by_contra hno
    obtain ⟨i, hi, hrev⟩ := exists_reveals s.second hst
    exact hp.secret₂ (by simpa using hno) i hi hrev

theorem Net.Plausible.published_of_claimed₁ {s : Net k} (hp : s.Plausible)
    (hst : (k.record₁ s.first).status = .Claimed) : s.published = true := by
  by_contra hno
  obtain ⟨i, hi, hrev⟩ := exists_reveals s.first hst
  exact hp.secret₁ (by simpa using hno) i hi hrev

theorem Net.Plausible.published_of_claimed₂ {s : Net k} (hp : s.Plausible) (n : Nat)
    (hst : (k.record₂ (s.second.take n)).status = .Claimed) : s.published = true := by
  by_contra hno
  obtain ⟨i, hi, hrev⟩ := exists_reveals _ hst
  exact hp.secret₂ (by simpa using hno) i (List.mem_of_mem_take hi) hrev

/-! ## The party is paid -/

theorem Net.Kept.safe {s : Net k} (h : s.Kept) (hp : s.Plausible) :
    ¬ ((k.record₁ s.first).status = .Claimed ∧ (k.record₂ s.second).status = .Refunded) := by
  rintro ⟨hfirst, hsecond⟩
  obtain ⟨q, hq, hle, n, hn, ho, ha, hlt⟩ := h.backed (hp.published_of_claimed₁ hfirst)
  have hseen : s.Seen (k.record₂ (s.second.take n)) := ⟨n, hn.trans hle, rfl⟩
  obtain ⟨-, -, -, hrefund, -⟩ := hseen.now hp ho ha
  have hlate := hrefund hsecond
  obtain ⟨i, t, m, pre, post, hi, hblock, hcall, hvalue, ht, hroom⟩ := hp.mined q hq (by omega)
  have hclaimed : (recordAfter k.second k.origin₂ k.hashlock s.second).status = .Claimed :=
    claimed_of_mined s.second (hn.trans hi) hp.ordered hblock hcall hvalue rfl ho
      (by rw [← Plan.record₂, ha.2.1]; exact k.isAccount)
      (by rw [← Plan.record₂]; omega) hroom
  rw [Plan.record₂, hclaimed] at hsecond
  cases hsecond

/-! ## Checking a run -/

/-- No claim is in the block. -/
def silent {A : Type} [DecidableEq A] [Zero A] {d : Deployment A Bytes32} :
    Input d.toChain (Call A Bytes32) → Bool
  | .call _ m _ _ =>
    match m.call with
    | .claim .. => false
    | _ => true
  | .outside _ => true

theorem not_reveals_of_silent {A : Type} [DecidableEq A] [Zero A] {d : Deployment A Bytes32}
    {h : Bytes32} {i : Input d.toChain (Call A Bytes32)} (hs : silent i = true) :
    ¬ Reveals d h i := by
  rintro ⟨t, m, pre, post, q, rfl, hcall, -⟩
  simp [silent, hcall] at hs

/-- Nothing was claimed before the secret was out, and no sent claim is late. -/
def Net.calm (s : Net k) : Bool :=
  decide ((times s.second).Pairwise (· ≤ ·)) && (times s.second).all (· ≤ s.clock) &&
    (s.published || (s.first.all silent && s.second.all silent)) &&
    s.claims.all fun q => decide ((s.clock : Int) ≤ q.sentAt + k.marginS)

theorem Net.plausible_of_calm {s : Net k} (h : s.calm = true) : s.Plausible := by
  simp only [Net.calm, Bool.and_eq_true, Bool.or_eq_true, List.all_eq_true, decide_eq_true_eq] at h
  obtain ⟨⟨⟨hord, hpast⟩, hsecret⟩, hmined⟩ := h
  refine ⟨hord, hpast, fun hno i hi => ?_, fun hno i hi => ?_, fun q hq hlt => ?_⟩
  · obtain hyes | ⟨hfirst, -⟩ := hsecret
    · exact absurd (hno.symm.trans hyes) (by simp)
    · exact not_reveals_of_silent (hfirst i hi)
  · obtain hyes | ⟨-, hsecond⟩ := hsecret
    · exact absurd (hno.symm.trans hyes) (by simp)
    · exact not_reveals_of_silent (hsecond i hi)
  · have := hmined q hq
    omega

/-- The net is calm after every input. -/
def calmRun {σ ι : Type} (step : σ → ι → σ) (net : σ → Net k) (s : σ) : List ι → Bool
  | [] => true
  | i :: is => (net (step s i)).calm && calmRun step net (step s i) is

theorem along_of_calmRun {σ ι : Type} {step : σ → ι → σ} (net : σ → Net k) {s : σ} {is : List ι}
    (h : calmRun step net s is = true) :
    Lib.Run.Along step (fun s i => (net (step s i)).Plausible) s is := by
  induction is generalizing s with
  | nil => trivial
  | cons i is ih =>
    simp only [calmRun, Bool.and_eq_true] at h
    exact ⟨Net.plausible_of_calm h.1, ih h.2⟩

end QuantaSwap.Htlc.V3
