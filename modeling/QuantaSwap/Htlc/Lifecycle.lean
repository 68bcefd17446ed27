import QuantaSwap.Htlc.System

/-!
# The life of a swap

What may happen to the record of one hashlock, and what is paid out for it over a whole run.
-/

set_option autoImplicit false
set_option linter.unusedSectionVars false

open Lib.Evm Function

namespace QuantaSwap.Htlc.V3

variable {Addr Bytes32 : Type} [DecidableEq Addr] [DecidableEq Bytes32] [Zero Addr] [Zero Bytes32]

/-! ## The states of a record -/

/-- The transitions of the record of `h` that a call of `sender` at `now` may make. -/
inductive Transition (d : Deployment Addr Bytes32) (sender : Addr) (now : Nat) (h : Bytes32) :
    Swap Addr Bytes32 → Swap Addr Bytes32 → Prop
  | lock {s : Swap Addr Bytes32} {recipient token : Addr} {amount timeout : Nat}
    (fresh : s.status = .None) (pos : amount ≠ 0) (time : now < timeout) :
    Transition d sender now h s
      { initiator := sender, recipient, token, amount, timeout, status := .Open, preimage := 0 }
  | assign {s : Swap Addr Bytes32} {recipient : Addr}
    (isOpen : s.status = .Open) (owner : sender = s.initiator) (unset : s.recipient = 0)
    (target : recipient ≠ 0) (time : now < s.timeout) :
    Transition d sender now h s { s with recipient }
  | claim {s : Swap Addr Bytes32} {preimage : Bytes32}
    (isOpen : s.status = .Open) (assigned : s.recipient ≠ 0) (time : now < s.timeout)
    (hash : d.sha256 preimage = h) :
    Transition d sender now h s { s with status := .Claimed, preimage }
  | refund {s : Swap Addr Bytes32} (isOpen : s.status = .Open) (time : s.timeout ≤ now) :
    Transition d sender now h s { s with status := .Refunded }
  | release {s : Swap Addr Bytes32}
    (isOpen : s.status = .Open) (owner : sender = s.initiator) (unset : s.recipient = 0) :
    Transition d sender now h s { s with status := .Refunded }

def Status.terminal : Status → Bool
  | .Claimed | .Refunded => true
  | _ => false

/-- What may become of a record in any number of steps. -/
structure Extends (s s' : Swap Addr Bytes32) : Prop where
  terminal : Status.terminal s.status = true → s' = s
  fromOpen : s.status = .Open → s'.status ≠ .None
  terms : s.status ≠ .None → s'.initiator = s.initiator ∧ s'.token = s.token ∧
    s'.amount = s.amount ∧ s'.timeout = s.timeout
  recipient : s.status ≠ .None → s.recipient ≠ 0 → s'.recipient = s.recipient

theorem Extends.refl (s : Swap Addr Bytes32) : Extends s s :=
  ⟨fun _ => rfl, fun h => by simp [h], fun _ => ⟨rfl, rfl, rfl, rfl⟩, fun _ _ => rfl⟩

theorem Extends.not_none {s s' : Swap Addr Bytes32} (h : Extends s s') (hs : s.status ≠ .None) :
    s'.status ≠ .None := by
  cases hst : s.status with
  | None => exact absurd hst hs
  | Open => exact h.fromOpen hst
  | Claimed => rw [h.terminal (by simp [hst, Status.terminal])]; exact hs
  | Refunded => rw [h.terminal (by simp [hst, Status.terminal])]; exact hs

theorem Extends.trans {a b e : Swap Addr Bytes32} (h : Extends a b) (h' : Extends b e) :
    Extends a e := by
  refine ⟨fun ht => ?_, fun ho => h'.not_none (h.fromOpen ho), fun hn => ?_, fun hn hr => ?_⟩
  · have hab := h.terminal ht
    rw [h'.terminal (by rw [hab]; exact ht), hab]
  · obtain ⟨h1, h2, h3, h4⟩ := h.terms hn
    obtain ⟨h1', h2', h3', h4'⟩ := h'.terms (h.not_none hn)
    exact ⟨h1'.trans h1, h2'.trans h2, h3'.trans h3, h4'.trans h4⟩
  · have hb := h.recipient hn hr
    exact (h'.recipient (h.not_none hn) (by rw [hb]; exact hr)).trans hb

theorem Transition.extends {d : Deployment Addr Bytes32} {sender : Addr} {now : Nat} {h : Bytes32}
    {s s' : Swap Addr Bytes32} (ht : Transition d sender now h s s') : Extends s s' := by
  cases ht with
  | lock fresh =>
    exact ⟨fun e => by simp [fresh, Status.terminal] at e, fun e => by simp [fresh] at e,
      fun e => absurd fresh e, fun e => absurd fresh e⟩
  | assign isOpen _ unset =>
    exact ⟨fun e => by simp [isOpen, Status.terminal] at e, fun e => by simp [e],
      fun _ => ⟨rfl, rfl, rfl, rfl⟩, fun _ e => absurd unset e⟩
  | claim isOpen | refund isOpen | release isOpen =>
    exact ⟨fun e => by simp [isOpen, Status.terminal] at e, fun _ => by simp,
      fun _ => ⟨rfl, rfl, rfl, rfl⟩, fun _ _ => rfl⟩

/-! ## What was paid -/

/-- The payouts that the log tells of for a hashlock, delivered or credited. -/
def payoutsOf (h : Bytes32) : List (Event Addr Bytes32) → List (Addr × Addr × Nat)
  | [] => []
  | .Delivered h' token dst amount :: es =>
    if h' = h then (token, dst, amount) :: payoutsOf h es else payoutsOf h es
  | .PayoutCredited token account h' amount :: es =>
    if h' = h then (token, account, amount) :: payoutsOf h es else payoutsOf h es
  | _ :: es => payoutsOf h es

/-- How often a hashlock was locked. -/
def locksOf (h : Bytes32) : List (Event Addr Bytes32) → Nat
  | [] => 0
  | .Locked h' .. :: es => if h' = h then locksOf h es + 1 else locksOf h es
  | _ :: es => locksOf h es

/-- The payouts a record stands for: one to the recipient once claimed, one to the initiator once
refunded. -/
def due (s : Swap Addr Bytes32) : List (Addr × Addr × Nat) :=
  match s.status with
  | .None | .Open => []
  | .Claimed => [(s.token, s.recipient, s.amount)]
  | .Refunded => [(s.token, s.initiator, s.amount)]

/-- The log tells of one lock and one payout at most, as the record says. -/
structure Recorded (h : Bytes32) (w : W Addr Bytes32) : Prop where
  locks : locksOf h w.log = if (w.storage.swaps h).status = .None then 0 else 1
  payouts : payoutsOf h w.log = due (w.storage.swaps h)

/-- `amount` of `token` went to `payee`: in value and no credit was written, or as a credit and
no value moved. -/
inductive PaidOut (c : Chain Addr) (s : Script Addr) (token payee : Addr) (amount : Nat)
    (w w' : W Addr Bytes32) : Prop
  | delivered (paid : Delivery c s token payee amount w w')
    (credits : w'.storage.credits = w.storage.credits)
    (outstanding : w'.storage.outstanding = w.storage.outstanding)
  | credited (native : w'.native = w.native) (tokens : w'.tokens = w.tokens)
    (credits : w'.storage.credits = update w.storage.credits token
      (update (w.storage.credits token) payee (w.storage.credits token payee + amount)))
    (outstanding : w'.storage.outstanding =
      update w.storage.outstanding token (w.storage.outstanding token + amount))

theorem Payout.paidOut {c : Chain Addr} {s : Script Addr} {h : Bytes32} {token payee : Addr}
    {amount : Nat} {swap : Swap Addr Bytes32} {ev : Event Addr Bytes32} {w w' : W Addr Bytes32}
    (hp : Payout c s h token payee amount ((setSwap h swap w).emit ev) w') :
    PaidOut c s token payee amount w w' := by
  cases hp with
  | delivered storage paid _ =>
    exact .delivered (paid.congr ⟨rfl, rfl⟩ ⟨rfl, rfl⟩) (by rw [storage]; rfl)
      (by rw [storage]; rfl)
  | credited _ _ eq =>
    exact .credited (by rw [eq]; rfl) (by rw [eq]; rfl) (by rw [eq]; rfl) (by rw [eq]; rfl)

/-- A record that becomes terminal pays out in the same call. -/
def PaysDue (d : Deployment Addr Bytes32) (s : Script Addr) (h : Bytes32) (w w' : W Addr Bytes32) :
    Prop :=
  ∀ token payee amount, due (w.storage.swaps h) = [] →
    due (w'.storage.swaps h) = [(token, payee, amount)] →
    PaidOut d.toChain s token payee amount w w'

/-! ## One call -/

theorem payoutsOf_append (h : Bytes32) (es fs : List (Event Addr Bytes32)) :
    payoutsOf h (es ++ fs) = payoutsOf h es ++ payoutsOf h fs := by
  induction es with
  | nil => rfl
  | cons e es ih =>
    cases e with
    | Delivered | PayoutCredited =>
      simp only [List.cons_append, payoutsOf, ih]
      split_ifs <;> rfl
    | _ => simp only [List.cons_append, payoutsOf, ih]

theorem locksOf_append (h : Bytes32) (es fs : List (Event Addr Bytes32)) :
    locksOf h (es ++ fs) = locksOf h es + locksOf h fs := by
  induction es with
  | nil => simp [locksOf]
  | cons e es ih =>
    cases e with
    | Locked =>
      simp only [List.cons_append, locksOf, ih]
      split_ifs <;> omega
    | _ => simp only [List.cons_append, locksOf, ih]

variable {d : Deployment Addr Bytes32} {x : Ctx Addr Bytes32} {s : Script Addr}
  {w w' : W Addr Bytes32}
  {call : Call Addr Bytes32}

theorem Settles.transition {sender : Addr} {now : Nat} {h : Bytes32} {s s' : Swap Addr Bytes32}
    {payee : Addr} {ev : Event Addr Bytes32} (isOpen : s.status = .Open)
    (hs : Settles d sender now h s call s' payee ev) :
    Transition d sender now h s s' ∧ due s' = [(s.token, payee, s.amount)] ∧
      s'.status ≠ .None ∧ locksOf h [ev] = 0 ∧ payoutsOf h [ev] = [] := by
  cases hs with
  | release hr hi => exact ⟨.release isOpen hi hr, by simp [due], by simp, rfl, rfl⟩
  | claim p hr ht hp => exact ⟨.claim isOpen hr ht hp, by simp [due], by simp, rfl, rfl⟩
  | refund ht => exact ⟨.refund isOpen ht, by simp [due], by simp, rfl, rfl⟩

/-- What one effect does to the record of a hashlock and to its part of the log. -/
structure Moves (d : Deployment Addr Bytes32) (sender : Addr) (now : Nat) (s : Script Addr)
    (h : Bytes32) (w w' : W Addr Bytes32) : Prop where
  record : w'.storage.swaps h = w.storage.swaps h ∨
    Transition d sender now h (w.storage.swaps h) (w'.storage.swaps h)
  paysDue : PaysDue d s h w w'
  recorded : Recorded h w → Recorded h w'

theorem Moves.still {sender : Addr} {now : Nat} {h : Bytes32}
    (record : w'.storage.swaps h = w.storage.swaps h)
    (locks : locksOf h w'.log = locksOf h w.log)
    (payouts : payoutsOf h w'.log = payoutsOf h w.log) : Moves d sender now s h w w' := by
  refine ⟨.inl record, fun token payee amount hdue hdue' => ?_, fun hr => ⟨?_, ?_⟩⟩
  · rw [record, hdue] at hdue'; cases hdue'
  · rw [locks, record]; exact hr.locks
  · rw [payouts, record]; exact hr.payouts

theorem Payout.log_eq {c : Chain Addr} {h : Bytes32} {token payee : Addr} {amount : Nat}
    {u v : W Addr Bytes32} (hp : Payout c s h token payee amount u v) :
    (∀ k, locksOf k v.log = locksOf k u.log) ∧
      ∀ k, payoutsOf k v.log =
        payoutsOf k u.log ++ if h = k then [(token, payee, amount)] else [] := by
  cases hp with
  | delivered _ _ log =>
    refine ⟨fun k => ?_, fun k => ?_⟩
    · rw [log, locksOf_append]; rfl
    · rw [log, payoutsOf_append]; rfl
  | credited _ _ eq =>
    refine ⟨fun k => ?_, fun k => ?_⟩
    · rw [eq, emit_log, locksOf_append]; rfl
    · rw [eq, emit_log, payoutsOf_append]; rfl

theorem Payout.swaps_eq {c : Chain Addr} {h : Bytes32} {token payee : Addr} {amount : Nat}
    {u v : W Addr Bytes32} (hp : Payout c s h token payee amount u v) :
    v.storage.swaps = u.storage.swaps := by
  cases hp with
  | delivered storage => rw [storage]
  | credited _ _ eq => rw [eq]; rfl

theorem Effect.moves (he : Effect d x s w call w') (k : Bytes32) :
    Moves d x.sender x.timestamp s k w w' := by
  cases he with
  | view => exact .still rfl rfl rfl
  | @lock _ h r token amount timeout isOpen _ _ fresh _ pos _ _ time storage _ log =>
    have hswaps : w'.storage.swaps = update w.storage.swaps h
        { initiator := x.sender, recipient := r, token, amount, timeout, status := .Open,
          preimage := 0 } := by
      rw [storage, setSwap_swaps]
    by_cases hk : k = h
    · subst hk
      have hnew := congrFun hswaps k
      rw [update_self] at hnew
      refine ⟨.inr (by rw [hnew]; exact .lock fresh pos time), fun _ _ _ _ hdue => ?_,
        fun hr => ⟨?_, ?_⟩⟩
      · rw [hnew] at hdue; cases hdue
      · rw [log, locksOf_append, hr.locks, hnew]; simp [locksOf, fresh]
      · rw [log, payoutsOf_append, hr.payouts, hnew]; simp [payoutsOf, due, fresh]
    · refine .still (by rw [hswaps, update_of_ne hk]) ?_ ?_
      · rw [log, locksOf_append]; simp [locksOf, Ne.symm hk]
      · rw [log, payoutsOf_append]; simp [payoutsOf]
  | @assign h r isOpen owner unset target time =>
    by_cases hk : k = h
    · subst hk
      have hnew : (((setSwap k { w.storage.swaps k with recipient := r } w).emit
          (.Assigned k r)).storage.swaps k) = { w.storage.swaps k with recipient := r } := by
        simp
      refine ⟨.inr (by rw [hnew]; exact .assign isOpen owner unset target.1 time),
        fun _ _ _ _ hdue => ?_,
        fun hr => ⟨?_, ?_⟩⟩
      · rw [hnew] at hdue; simp [due, isOpen] at hdue
      · rw [emit_log, setSwap_log, locksOf_append, hr.locks, hnew]; simp [locksOf]
      · rw [emit_log, setSwap_log, payoutsOf_append, hr.payouts, hnew]; simp [payoutsOf,
          due, isOpen]
    · refine .still (by simp [update_of_ne hk]) ?_ ?_
      · rw [emit_log, setSwap_log, locksOf_append]; simp [locksOf]
      · rw [emit_log, setSwap_log, payoutsOf_append]; simp [payoutsOf]
  -- A settlement moves its own swap to a terminal state and marks one payout; others stay.
  | @settle _ h s' payee ev _ isOpen guards paid =>
    obtain ⟨htr, hdue, hnone, hev, hev'⟩ := guards.transition isOpen
    have hswaps : w'.storage.swaps = update w.storage.swaps h s' := by
      rw [paid.swaps_eq]; rfl
    obtain ⟨hlocks, hpays⟩ := paid.log_eq
    have hquiet : locksOf k [ev] = 0 ∧ payoutsOf k [ev] = [] := by
      cases guards <;> exact ⟨rfl, rfl⟩
    have hlocks' : locksOf k w'.log = locksOf k w.log := by
      rw [hlocks, emit_log, setSwap_log, locksOf_append, hquiet.1, Nat.add_zero]
    have hpays' : payoutsOf k w'.log = payoutsOf k w.log ++
        if h = k then [((w.storage.swaps h).token, payee, (w.storage.swaps h).amount)] else [] := by
      rw [hpays, emit_log, setSwap_log, payoutsOf_append, hquiet.2, List.append_nil]
    by_cases hk : k = h
    · subst hk
      have hnew := congrFun hswaps k
      rw [update_self] at hnew
      refine ⟨.inr (by rw [hnew]; exact htr), fun token payee' amount _ hdue' => ?_,
        fun hr => ⟨?_, ?_⟩⟩
      · rw [hnew, hdue] at hdue'
        simp only [List.cons.injEq, Prod.mk.injEq, and_true] at hdue'
        obtain ⟨rfl, rfl, rfl⟩ := hdue'
        exact paid.paidOut
      · rw [hlocks', hr.locks, hnew]; simp [isOpen, hnone]
      · rw [hpays', hr.payouts, hnew, hdue]; simp [due, isOpen]
    · exact .still (by rw [hswaps, update_of_ne hk]) hlocks' (by simpa [Ne.symm hk] using hpays')
  | withdraw _ _ _ _ storage _ log =>
    refine .still (by rw [storage]; rfl) ?_ ?_
    · rw [log, locksOf_append]; rfl
    · rw [log, payoutsOf_append]; simp [payoutsOf]

/-! ## Whole runs -/

theorem Effect.locked {k : Bytes32} (he : Effect d x s w call w')
    (hnone : (w.storage.swaps k).status = .None) (hsome : (w'.storage.swaps k).status ≠ .None) :
    ∃ r token amount timeout isOpen,
      lockArgs x.value call = some (k, r, token, amount, timeout, isOpen) ∧
      (if isOpen then r = 0 else r ≠ 0 ∧ r ≠ d.self) ∧
      w'.storage.swaps k =
        { initiator := x.sender, recipient := r, token := token, amount := amount,
          timeout := timeout, status := .Open, preimage := 0 } := by
  cases he with
  | view => exact absurd hnone hsome
  | @lock _ h r token amount timeout isOpen _ args _ _ _ _ target _ storage =>
    rw [storage, setSwap_swaps] at hsome ⊢
    by_cases hk : k = h
    · subst hk
      exact ⟨r, token, amount, timeout, isOpen, args, target, update_self ..⟩
    · rw [update_of_ne hk] at hsome
      exact absurd hnone hsome
  | @assign h r isOpen =>
    by_cases hk : k = h
    · subst hk
      exact absurd (isOpen.symm.trans hnone) (by simp)
    · simp only [emit_storage, setSwap_swaps, update_of_ne hk] at hsome
      exact absurd hnone hsome
  | @settle _ h s' payee ev _ isOpen _ paid =>
    by_cases hk : k = h
    · subst hk
      exact absurd (isOpen.symm.trans hnone) (by simp)
    · rw [paid.swaps_eq] at hsome
      simp only [emit_storage, setSwap_swaps, update_of_ne hk] at hsome
      exact absurd hnone hsome
  | withdraw _ _ _ _ storage =>
    rw [storage, setCredit_swaps] at hsome
    exact absurd hnone hsome

theorem Effect.claimed {k : Bytes32} (he : Effect d x s w call w')
    (hnot : (w.storage.swaps k).status ≠ .Claimed) (hc : (w'.storage.swaps k).status = .Claimed) :
    ∃ p, call = .claim k p ∧ d.sha256 p = k := by
  cases he with
  | view => exact absurd hc hnot
  | @lock _ h r token amount timeout isOpen _ _ _ _ _ _ _ _ storage =>
    rw [storage, setSwap_swaps] at hc
    by_cases hk : k = h
    · subst hk
      simp at hc
    · rw [update_of_ne hk] at hc
      exact absurd hc hnot
  | @assign h r isOpen =>
    simp only [emit_storage, setSwap_swaps] at hc
    by_cases hk : k = h
    · subst hk
      simp [isOpen] at hc
    · rw [update_of_ne hk] at hc
      exact absurd hc hnot
  | @settle _ h s' payee ev _ isOpen guards paid =>
    rw [paid.swaps_eq] at hc
    simp only [emit_storage, setSwap_swaps] at hc
    by_cases hk : k = h
    · subst hk
      rw [update_self] at hc
      cases guards with
      | claim p _ _ hp => exact ⟨p, rfl, hp⟩
      | release | refund => simp at hc
    · rw [update_of_ne hk] at hc
      exact absurd hc hnot
  | withdraw _ _ _ _ storage =>
    rw [storage, setCredit_swaps] at hc
    exact absurd hc hnot

theorem Moves.extends {sender : Addr} {now : Nat} {h : Bytes32} (hm : Moves d sender now s h w w') :
    Extends (w.storage.swaps h) (w'.storage.swaps h) := by
  obtain heq | ht := hm.record
  · rw [heq]; exact .refl _
  · exact ht.extends

theorem step_extends (h : Bytes32) (w : W Addr Bytes32) (i : Input d.toChain (Call Addr Bytes32)) :
    Extends (w.storage.swaps h) ((step d w i).storage.swaps h) :=
  step_keeps (I := fun v => Extends (w.storage.swaps h) (v.storage.swaps h))
    (fun _ _ hu hv => by rw [hu.storage]; exact hv)
    (fun _ _ _ _ _ _ he hv => hv.trans (he.moves h).extends) w i (.refl _)

theorem run_extends (h : Bytes32) (w : W Addr Bytes32)
    (is : List (Input d.toChain (Call Addr Bytes32))) :
    Extends (w.storage.swaps h) ((Lib.Run.run (step d) w is).storage.swaps h) :=
  Lib.Run.related (fun _ => .refl _) (fun _ _ _ => .trans) (I := fun _ => True)
    (R := fun v v' => Extends (v.storage.swaps h) (v'.storage.swaps h))
    (fun _ _ _ => trivial) (fun v i _ => step_extends h v i) trivial is

theorem reachable_recorded (hw : Reachable d w) (h : Bytes32) : Recorded h w := by
  refine reachable_keeps (I := Recorded h) (fun _ _ _ => ⟨rfl, rfl⟩) ?_ ?_ hw
  · intro w w' hu hr
    exact ⟨by rw [hu.log, hu.storage]; exact hr.locks, by rw [hu.log, hu.storage]; exact hr.payouts⟩
  · intro x s w call w' _ he hr
    exact (he.moves h).recorded hr

/-- **The life of a swap.** In every run and for every hashlock: a call changes the record by one
of the listed transitions or not at all, and pays out when the record becomes terminal; what comes
later extends what was there; and the log tells of one lock and one payout, to the party the
terminal status names. -/
theorem swap_lifecycle (d : Deployment Addr Bytes32) (native : Addr → Nat)
    (tokens : Addr → Addr → Nat) (deployed : Addr → Bool) (h : Bytes32)
    (is js : List (Input d.toChain (Call Addr Bytes32))) :
    let w := Lib.Run.run (step d) (genesis native tokens deployed) is
    (∀ i, (step d w i).storage.swaps h = w.storage.swaps h ∨
      ∃ t m pre post, i = .call t m pre post ∧
        Transition d m.sender t h (w.storage.swaps h) ((step d w i).storage.swaps h) ∧
        PaysDue d (script d m pre post) h w (step d w i)) ∧
    Extends (w.storage.swaps h) ((Lib.Run.run (step d) w js).storage.swaps h) ∧
    locksOf h w.log = (if (w.storage.swaps h).status = .None then 0 else 1) ∧
    payoutsOf h w.log = due (w.storage.swaps h) := by
  intro w
  have hrec : Recorded h w := reachable_recorded ⟨native, tokens, deployed, is, rfl⟩ h
  refine ⟨fun i => ?_, run_extends h w js, hrec.locks, hrec.payouts⟩
  cases i with
  | outside o =>
    left
    have hst := (outside_untouched (c := d.toChain) w o).storage
    rw [show (step d w (.outside o)).storage = _ from hst]
  | call t m pre post =>
    obtain heq | he := step_call w t m pre post
    · left; rw [heq]
    · have hm := he.moves h
      obtain hsame | htr := hm.record
      · exact .inl hsame
      · exact .inr ⟨t, m, pre, post, rfl, htr, hm.paysDue⟩

end QuantaSwap.Htlc.V3
