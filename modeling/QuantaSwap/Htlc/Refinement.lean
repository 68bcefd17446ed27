import QuantaSwap.Htlc.Settlement
import QuantaSwap.Htlc.V2
import QuantaSwap.Lib.EvmPair
import QuantaSwap.Lib.Lockstep

/-!
# HTLCv3 does what HTLC did

The same calls sent to both contracts. As long as payouts go through in HTLC and fit the delivery
budget of HTLCv3, both accept the same calls, keep the same records and move the same value.
-/

set_option autoImplicit false
set_option linter.unusedSectionVars false

open Lib.Evm Lib.Lockstep Function

namespace QuantaSwap.Htlc

variable {Addr Bytes32 : Type} [DecidableEq Addr] [DecidableEq Bytes32] [Zero Addr] [Zero Bytes32]

/-- The log without the marks that only HTLCv3 has. -/
def commonLog (es : List (Event Addr Bytes32)) : List (Event Addr Bytes32) :=
  es.filter fun e =>
    match e with
    | .Delivered .. => false
    | _ => true

/-- What the two contracts keep: the same records, the same lock, no credits, the same events. -/
structure SameBooks (s : V2.Storage Addr Bytes32) (log : List (Event Addr Bytes32))
    (s' : V3.Storage Addr Bytes32) (log' : List (Event Addr Bytes32)) : Prop where
  swaps : s'.swaps = s.swaps
  entered : s'.entered = s.entered
  credits : ∀ t a, s'.credits t a = 0
  outstanding : ∀ t, s'.outstanding t = 0
  log : commonLog log' = log

/-- The two worlds: equal ledgers and the same books. -/
abbrev Related (w : V2.W Addr Bytes32) (v : V3.W Addr Bytes32) : Prop := Paired SameBooks w v

/-- The calls both contracts have. -/
def Call.common : Call Addr Bytes32 → Bool
  | .withdraw .. | .withdrawAll .. | .pushCredit .. | .creditOf .. | .outstandingCredit ..
  | .deliveryGasPolicy | .selfDeliver .. => false
  | _ => true

/-- The calls that end a swap. -/
def Call.settling : Call Addr Bytes32 → Bool
  | .release .. | .claim .. | .refund .. => true
  | _ => false

/-! ## The lock of HTLC -/

namespace V2

def Entered (s : Storage Addr Bytes32) : Prop := s.entered = 2

theorem nonReentrant_entered {body : W Addr Bytes32 → Except Revert (W Addr Bytes32)}
    {w w' : W Addr Bytes32} (he : Entered w.storage) : nonReentrant body w ≠ .ok w' := by
  simp only [Entered] at he
  simp [nonReentrant, he]

theorem code_guarded (d : Deployment Addr Bytes32) : Guarded d.toChain (code d) Entered := by
  intro f call w w' _ he hok
  obtain ⟨v, hv, hgo⟩ := V3.bind_ok hok
  clear hok
  have hst : Entered v.storage ∧ (Payable call = false → v = w) := by
    unfold receive at hv
    split at hv
    · rename_i hp
      split at hv
      · rename_i u hu
        obtain rfl := Except.ok.inj hv
        simp only [World.moveNative, Option.map_eq_some_iff] at hu
        obtain ⟨l, -, rfl⟩ := hu
        exact ⟨he, fun hp' => by rw [hp'] at hp; cases hp⟩
      · cases hv
    · split at hv
      · obtain rfl := Except.ok.inj hv; exact ⟨he, fun _ => rfl⟩
      · cases hv
  cases call with
  | getSwap => rw [← Except.ok.inj hgo, hst.2 rfl]
  | withdraw | withdrawAll | pushCredit | creditOf | outstandingCredit | deliveryGasPolicy
  | selfDeliver => cases hgo
  | _ =>
    simp only [dispatch, lockNative, lockToken, lockNativeOpen, lockTokenOpen, assign, release,
      claim, refund] at hgo
    exact absurd hgo (nonReentrant_entered hst.1)

end V2

/-! ## Function by function -/

section Pairs

variable {d : Deployment Addr Bytes32} {x : V2.Ctx Addr Bytes32} {y : V3.Ctx Addr Bytes32}
  {w : V2.W Addr Bytes32} {v : V3.W Addr Bytes32} {pre post : List (Outside Addr)}

/-- The two call contexts of one message. -/
structure SameFrame (d : Deployment Addr Bytes32) (x : V2.Ctx Addr Bytes32)
    (y : V3.Ctx Addr Bytes32) (pre post : List (Outside Addr)) : Prop where
  sender : y.sender = x.sender
  value : y.value = x.value
  timestamp : y.timestamp = x.timestamp
  readBefore : y.readBefore = x.readBefore
  readAfter : y.readAfter = x.readAfter
  answer : y.callee.answer = x.callee.answer
  scripted₂ : Scripted d.toChain V2.Entered x.callee pre post
  scripted₃ : Scripted d.toChain V3.Entered y.callee pre post

theorem frame_same (t : Nat) (m : Msg d.self (Call Addr Bytes32))
    (pre post : List (Action d.self (Call Addr Bytes32))) :
    SameFrame d (V2.frame d t m pre post) (V3.frame d t m pre post) (outsideMoves pre)
      (outsideMoves post) :=
  ⟨rfl, rfl, rfl, rfl, rfl, rfl, inputFrame_scripted (V2.code_guarded d) t m pre post,
    inputFrame_scripted (V3.code_guarded d) t m pre post⟩

theorem receive_pair (h : Related w v) (sender : Addr) (value : Nat) (payable : Bool) :
    InStep Related (receive d.toChain sender value payable w)
      (receive d.toChain sender value payable v) := by
  unfold receive
  cases payable with
  | true =>
    have hmove := h.moveNative sender d.self value
    simp only [if_true]
    generalize w.moveNative sender d.self value = a at hmove ⊢
    generalize v.moveNative sender d.self value = b at hmove ⊢
    cases hmove with
    | none => trivial
    | some hr => exact hr
  | false =>
    simp only [Bool.false_eq_true, if_false]
    split_ifs
    · exact h
    · trivial

theorem setEntered_pair (h : Related w v) (n : Nat) :
    Related (V2.setEntered n w) (V3.setEntered n v) :=
  ⟨h.native, h.tokens, h.code, h.own.swaps, rfl, h.own.credits, h.own.outstanding, h.own.log⟩

theorem setSwap_pair (h : Related w v) (k : Bytes32) (s : Swap Addr Bytes32) :
    Related (V2.setSwap k s w) (V3.setSwap k s v) :=
  ⟨h.native, h.tokens, h.code, by simp [V2.setSwap, h.own.swaps], h.own.entered, h.own.credits,
    h.own.outstanding, h.own.log⟩

theorem emit_pair (h : Related w v) {e : Event Addr Bytes32} (he : commonLog [e] = [e]) :
    Related (w.emit e) (v.emit e) :=
  h.emit e e fun hb => ⟨hb.swaps, hb.entered, hb.credits, hb.outstanding, by
    rw [commonLog, List.filter_append, ← commonLog, ← commonLog, hb.log, he]⟩

theorem nonReentrant_pair {body : V2.W Addr Bytes32 → Except Revert (V2.W Addr Bytes32)}
    {body' : V3.W Addr Bytes32 → Except Revert (V3.W Addr Bytes32)} (h : Related w v)
    (hbody : InStep Related (body (V2.setEntered 2 w)) (body' (V3.setEntered 2 v))) :
    InStep Related (V2.nonReentrant body w) (V3.nonReentrant body' v) :=
  .guard (by rw [h.own.entered]) fun _ _ => hbody.bind fun _ _ hr => setEntered_pair hr 1

theorem selfBalance_pair (h : Related w v) (token : Addr) (read : Option ReturnData) :
    InStep Eq (V2.selfBalance d token read w) (V3._selfBalance d token read v) := by
  unfold V2.selfBalance V3._selfBalance
  rw [h.balanceOf]
  cases balanceOf d.toChain token read w with
  | none => trivial
  | some ret => cases ret <;> simp [ReturnData.decodeUint]

theorem tokenCall_pair (hf : SameFrame d x y pre post) (h : Related w v)
    (hl : V2.Entered w.storage) (token src dst : Addr) (amount : Nat) :
    InStep Related
      (V2._transferCall d x token (fun w => w.moveToken token src dst amount) w)
      (V3._tokenCall d y token (fun w => w.moveToken token src dst amount) v) := by
  have hl' : V3.Entered v.storage := h.own.entered.trans hl
  have hcall := h.callToken hf.scripted₂ hf.scripted₃ hf.answer hl hl' token src dst amount
  unfold V2._transferCall V3._tokenCall
  generalize callToken d.toChain x.callee token _ w = a at hcall ⊢
  generalize callToken d.toChain y.callee token _ v = b at hcall ⊢
  cases hcall with
  | none => trivial
  | @some a b hr =>
    obtain ⟨ret, u⟩ := a
    obtain ⟨ret', u'⟩ := b
    obtain ⟨rfl, hrel, -, -⟩ := hr
    cases ret with
    | empty => exact hrel
    | malformed => trivial
    | word n =>
      simp only
      cases ReturnData.decodeBool (.word n) with
      | none => trivial
      | some b =>
        cases b with
        | true => exact hrel
        | false => trivial

theorem lock_pair (hf : SameFrame d x y pre post) (h : Related w v) (hl : V2.Entered w.storage)
    (k : Bytes32) {r : Addr} (token : Addr) {amount : Nat} (timeout : Nat) {isOpen : Bool}
    (cap : amount ≤ maxUint128) (hself : isOpen = false → r ≠ d.self)
    (hopen : isOpen = true → r = 0) :
    InStep (fun w v => Related w v ∧ V2.Entered w.storage)
      (V2._lock x k r token amount timeout isOpen w)
      (V3._lock d y k r token amount timeout isOpen v) := by
  have hcap : ¬ amount > maxUint128 := by omega
  have hop : ¬ (isOpen = true ∧ r ≠ 0) := fun e => e.2 (hopen e.1)
  have htarget : (¬ isOpen = true ∧ (r = 0 ∨ r = d.self)) ↔ ¬ isOpen = true ∧ r = 0 := by
    cases isOpen with
    | true => simp
    | false => simp [hself rfl]
  unfold V2._lock V3._lock
  simp only [h.own.swaps, hf.sender, hf.timestamp, hcap, hop, htarget, if_false]
  split_ifs
  · trivial
  · trivial
  · trivial
  · trivial
  · exact ⟨emit_pair (setSwap_pair h k _) rfl, hl⟩

theorem lockToken_pair (hf : SameFrame d x y pre post) (h : Related w v)
    (hl : V2.Entered w.storage) (k : Bytes32) {r : Addr} (token : Addr) {amount : Nat}
    (timeout : Nat) {isOpen : Bool} (cap : amount ≤ maxUint128)
    (hself : isOpen = false → r ≠ d.self) (hopen : isOpen = true → r = 0) :
    InStep Related (V2._lockToken d x k r token amount timeout isOpen w)
      (V3._lockToken d y k r token amount timeout isOpen v) := by
  unfold V2._lockToken V3._lockToken
  refine .guard (by rw [h.code]) fun _ _ => ?_
  refine (lock_pair hf h hl k token timeout cap hself hopen).bind fun a a' ⟨ha, hla⟩ => ?_
  rw [hf.readBefore, hf.readAfter, hf.sender]
  refine (selfBalance_pair ha token x.readBefore).bind fun before before' hb => ?_
  refine (tokenCall_pair hf ha hla token x.sender d.self amount).bind fun b b' hb' => ?_
  refine (selfBalance_pair hb' token x.readAfter).bind fun after after' haf => ?_
  subst hb haf
  refine (InStep.refl _).bind fun received received' hr => ?_
  subst hr
  exact .guard Iff.rfl fun _ _ => hb'

theorem assign_pair (hf : SameFrame d x y pre post) (h : Related w v) (k : Bytes32) {r : Addr}
    (hself : r ≠ d.self) : InStep Related (V2.assign x k r w) (V3.assign d y k r v) := by
  refine nonReentrant_pair h ?_
  have h2 := setEntered_pair h 2
  simp only [h2.own.swaps, hf.sender, hf.timestamp, hself, or_false]
  split_ifs
  · trivial
  · trivial
  · trivial
  · trivial
  · trivial
  · exact emit_pair (setSwap_pair h2 k _) rfl

/-! ## Payouts -/

/-- A payout of HTLC that went through, of a token that moved exactly the amount. -/
structure Exact (d : Deployment Addr Bytes32) (x : V2.Ctx Addr Bytes32) (token : Addr)
    (amount : Nat) (w w' : V2.W Addr Bytes32) : Prop where
  honest : d.honest token = true
  readable : x.readBefore.isSome = true ∧ x.readAfter.isSome = true
  moved : w'.tokens token d.self + amount = w.tokens token d.self

theorem selfBalance_of_honest {token : Addr} {read : Option ReturnData} (ht : token ≠ d.self)
    (hh : d.honest token = true) (hr : read.isSome = true) :
    V3._selfBalance d token read v = .ok (v.tokens token d.self) := by
  obtain ⟨ret, rfl⟩ := Option.isSome_iff_exists.mp hr
  simp [V3._selfBalance, balanceOf, ht, hh, ReturnData.decodeUint]

theorem payout_pair (hf : SameFrame d x y pre post) (h : Related w v) (hl : V2.Entered w.storage)
    {token dst : Addr} {amount : Nat} {w' : V2.W Addr Bytes32}
    (hpay : V2._payout d x token dst amount w = .ok w')
    (hexact : token ≠ 0 → Exact d x token amount w w') :
    ∃ v', V3._strictPayout d y token dst amount v = .ok v' ∧ Related w' v' := by
  have hl' : V3.Entered v.storage := h.own.entered.trans hl
  unfold V2._payout at hpay
  unfold V3._strictPayout
  by_cases hz : token = 0
  · rw [if_pos hz] at hpay ⊢
    have hcall := h.callNative hf.scripted₂ hf.scripted₃ hf.answer hl hl' dst amount
    generalize callNative d.toChain x.callee dst amount w = a at hcall hpay
    generalize callNative d.toChain y.callee dst amount v = b at hcall ⊢
    cases hcall with
    | none => cases hpay
    | some hr =>
      obtain rfl := Except.ok.inj hpay
      exact ⟨_, rfl, emit_pair hr rfl⟩
  · rw [if_neg hz] at hpay ⊢
    obtain ⟨u, hu, hdone⟩ := V3.bind_ok hpay
    obtain rfl := Except.ok.inj hdone
    obtain ⟨honest, ⟨hb, ha⟩, moved⟩ := hexact hz
    have hcall := tokenCall_pair hf h hl token d.self dst amount
    rw [hu] at hcall
    have htoken : token ≠ d.self := fun e => by
      simp [V2._transferCall, callToken, e] at hu
    cases hv : V3._tokenCall d y token (fun w => w.moveToken token d.self dst amount) v with
    | error e => rw [hv] at hcall; exact hcall.elim
    | ok u' =>
      rw [hv] at hcall
      have hrel : Related u u' := hcall
      -- The token is honest here, so the strict payout sees the exact amount leave.
      have hpaid : checkedSub (v.tokens token d.self) (u'.tokens token d.self) = .ok amount := by
        have hm : u.tokens token d.self + amount = w.tokens token d.self := moved
        rw [h.tokens, hrel.tokens, checkedSub, if_pos (by omega)]
        congr 1
        omega
      refine ⟨u'.emit (.Sent token dst amount), ?_, emit_pair hrel rfl⟩
      rw [hf.readBefore, hf.readAfter, selfBalance_of_honest htoken honest hb]
      simp only [bind, Except.bind, selfBalance_of_honest htoken honest ha, hpaid, ne_eq,
        not_true_eq_false, if_false]

theorem settle_pair (hf : SameFrame d x y pre post) (h : Related w v) (hl : V2.Entered w.storage)
    (k : Bytes32) {token payee : Addr} {amount : Nat}
    (hgas : y.attemptGas ≤ V3.deliveryBudget y.gasLeft)
    (hpay : ∃ w', V2._payout d x token payee amount w = .ok w' ∧
      (token ≠ 0 → Exact d x token amount w w')) :
    InStep Related (V2._payout d x token payee amount w)
      (V3._settle d y k token payee amount v) := by
  obtain ⟨w', hw', hexact⟩ := hpay
  obtain ⟨v', hv', hrel⟩ := payout_pair hf h hl hw' hexact
  have hdeliver : V3.selfDeliver d y d.self (V3.deliveryBudget y.gasLeft) token payee amount v =
      .ok v' := by
    rw [V3.selfDeliver, if_neg (by simp), if_neg (by omega), hv']
  rw [hw', V3._settle, hdeliver]
  refine ⟨hrel.native, hrel.tokens, hrel.code, hrel.own.swaps, hrel.own.entered, hrel.own.credits,
    hrel.own.outstanding, ?_⟩
  -- `Delivered` is a mark of HTLCv3 alone.
  rw [World.emit, commonLog, List.filter_append, ← commonLog, hrel.own.log]
  simp

end Pairs

/-! ## One call -/

/-- What the refinement takes for granted of a call: both contracts have it, its amount is below
the cap, nobody is paid at the contract's own address, and the payout it makes in HTLC, if any,
goes through and moves exactly the amount. -/
structure Promised (d : Deployment Addr Bytes32) (w : V2.W Addr Bytes32) (t : Nat)
    (m : Msg d.self (Call Addr Bytes32)) (pre post : List (Action d.self (Call Addr Bytes32))) :
    Prop where
  common : Call.common m.call = true
  lock : ∀ h r token amount timeout isOpen,
    V3.lockArgs m.value m.call = some (h, r, token, amount, timeout, isOpen) →
    amount ≤ maxUint128 ∧ (isOpen = false → r ≠ d.self)
  assign : ∀ h r, m.call = .assign h r → r ≠ d.self
  paid : ∀ h s' payee ev, (w.storage.swaps h).status = .Open →
    V3.Settles d m.sender t h (w.storage.swaps h) m.call s' payee ev →
    ∃ w', V2._payout d (V2.frame d t m pre post) (w.storage.swaps h).token payee
        (w.storage.swaps h).amount ((V2.setSwap h s' (V2.setEntered 2 w)).emit ev) = .ok w' ∧
      ((w.storage.swaps h).token ≠ 0 → Exact d (V2.frame d t m pre post) (w.storage.swaps h).token
        (w.storage.swaps h).amount ((V2.setSwap h s' (V2.setEntered 2 w)).emit ev) w')

/-- The delivery attempt of the call fits its budget. -/
def InBudget {me : Addr} (m : Msg me (Call Addr Bytes32)) : Prop :=
  m.attemptGas ≤ V3.deliveryBudget m.gasLeft

section Steps

variable {d : Deployment Addr Bytes32} {w : V2.W Addr Bytes32} {v : V3.W Addr Bytes32} {t : Nat}
  {m : Msg d.self (Call Addr Bytes32)} {pre post : List (Action d.self (Call Addr Bytes32))}

theorem settling_pair (h : Related w v) (hp : Promised d w t m pre post) (hg : InBudget m)
    (k : Bytes32) {s' : Swap Addr Bytes32} {payee : Addr} {ev : Event Addr Bytes32}
    (isOpen : (w.storage.swaps k).status = .Open)
    (guards : V3.Settles d m.sender t k (w.storage.swaps k) m.call s' payee ev)
    (hev : commonLog [ev] = [ev]) :
    InStep Related
      (V2._payout d (V2.frame d t m pre post) (w.storage.swaps k).token payee
        (w.storage.swaps k).amount ((V2.setSwap k s' (V2.setEntered 2 w)).emit ev))
      (V3._settle d (V3.frame d t m pre post) k (w.storage.swaps k).token payee
        (w.storage.swaps k).amount ((V3.setSwap k s' (V3.setEntered 2 v)).emit ev)) :=
  settle_pair (frame_same t m pre post)
    (emit_pair (setSwap_pair (setEntered_pair h 2) k s') hev) rfl k hg
    (hp.paid k s' payee ev isOpen guards)

theorem release_pair (h : Related w v) (hp : Promised d w t m pre post) (hg : InBudget m)
    {k : Bytes32} (hcall : m.call = .release k) :
    InStep Related (V2.release d (V2.frame d t m pre post) k w)
      (V3.release d (V3.frame d t m pre post) k v) := by
  refine nonReentrant_pair h ?_
  have h2 := setEntered_pair h 2
  simp only [h2.own.swaps]
  refine .guard Iff.rfl fun h1 _ => .guard Iff.rfl fun h2 _ => .guard Iff.rfl fun h3 _ => ?_
  push Not at h1 h2 h3
  exact settling_pair h hp hg k h1 (hcall ▸ .release h3 h2) rfl

theorem claim_pair (h : Related w v) (hp : Promised d w t m pre post) (hg : InBudget m)
    {k p : Bytes32} (hcall : m.call = .claim k p) :
    InStep Related (V2.claim d (V2.frame d t m pre post) k p w)
      (V3.claim d (V3.frame d t m pre post) k p v) := by
  refine nonReentrant_pair h ?_
  have h2 := setEntered_pair h 2
  simp only [h2.own.swaps]
  refine .guard Iff.rfl fun h1 _ => .guard Iff.rfl fun h2 _ => .guard Iff.rfl fun h3 _ =>
    .guard Iff.rfl fun h4 _ => ?_
  push Not at h1 h3 h4
  exact settling_pair h hp hg k h1 (hcall ▸ .claim p h2 h3 h4) rfl

theorem refund_pair (h : Related w v) (hp : Promised d w t m pre post) (hg : InBudget m)
    {k : Bytes32} (hcall : m.call = .refund k) :
    InStep Related (V2.refund d (V2.frame d t m pre post) k w)
      (V3.refund d (V3.frame d t m pre post) k v) := by
  refine nonReentrant_pair h ?_
  have h2 := setEntered_pair h 2
  simp only [h2.own.swaps]
  refine .guard Iff.rfl fun h1 _ => .guard Iff.rfl fun h2 _ => ?_
  push Not at h1 h2
  exact settling_pair h hp hg k h1 (hcall ▸ .refund h2) rfl

theorem assigned_pair (h : Related w v) (hp : Promised d w t m pre post) {k : Bytes32} {r : Addr}
    (hcall : m.call = .assign k r) :
    InStep Related (V2.assign (V2.frame d t m pre post) k r w)
      (V3.assign d (V3.frame d t m pre post) k r v) :=
  assign_pair (frame_same t m pre post) h k (hp.assign k r hcall)

theorem unpaid_pair {call : Call Addr Bytes32} (hp₂ : V2.Payable call = false)
    (hp₃ : V3.Payable call = false)
    (hbody : InStep Related (V2.dispatch d (V2.frame d t m pre post) call w)
      (V3.dispatch d (V3.frame d t m pre post) call v)) :
    InStep Related (V2.code d (V2.frame d t m pre post) call w)
      (V3.code d (V3.frame d t m pre post) call v) := by
  unfold V2.code V3.code
  rw [hp₂, hp₃]
  by_cases hv : m.value = 0
  · have h₂ : receive d.toChain (V2.frame d t m pre post).sender (V2.frame d t m pre post).value
        false w = .ok w := if_pos hv
    have h₃ : receive d.toChain (V3.frame d t m pre post).sender (V3.frame d t m pre post).value
        false v = .ok v := if_pos hv
    rw [h₂, h₃]
    exact hbody
  · have h₂ : receive d.toChain (V2.frame d t m pre post).sender (V2.frame d t m pre post).value
        false w = .error .Value := if_neg hv
    have h₃ : receive d.toChain (V3.frame d t m pre post).sender (V3.frame d t m pre post).value
        false v = .error .Value := if_neg hv
    rw [h₂, h₃]
    trivial

theorem native_lock_pair (h : Related w v) (k : Bytes32) {r : Addr} (timeout : Nat) {isOpen : Bool}
    (cap : m.value ≤ maxUint128) (hself : isOpen = false → r ≠ d.self)
    (hopen : isOpen = true → r = 0) :
    InStep Related
      (receive d.toChain m.sender m.value true w >>= V2.nonReentrant
        (V2._lock (V2.frame d t m pre post) k r 0 m.value timeout isOpen))
      (receive d.toChain m.sender m.value true v >>= V3.nonReentrant
        (V3._lock d (V3.frame d t m pre post) k r 0 m.value timeout isOpen)) :=
  (receive_pair h _ _ true).bind fun _ _ ha => nonReentrant_pair ha
    ((lock_pair (frame_same t m pre post) (setEntered_pair ha 2) rfl k 0 timeout cap hself
      hopen).mono fun _ _ hr => hr.1)

theorem token_lock_pair (h : Related w v) (k : Bytes32) {r : Addr} (token : Addr) {amount : Nat}
    (timeout : Nat) {isOpen : Bool} (cap : amount ≤ maxUint128)
    (hself : isOpen = false → r ≠ d.self) (hopen : isOpen = true → r = 0) :
    InStep Related
      (V2.nonReentrant
        (V2._lockToken d (V2.frame d t m pre post) k r token amount timeout isOpen) w)
      (V3.nonReentrant (V3._lockToken d (V3.frame d t m pre post) k r token amount timeout isOpen)
        v) :=
  nonReentrant_pair h (lockToken_pair (frame_same t m pre post) (setEntered_pair h 2) rfl k token
    timeout cap hself hopen)

/-- **One call, both contracts**: both accept it or both revert, and they stay related. -/
theorem code_pair (h : Related w v) (hp : Promised d w t m pre post)
    (hg : Call.settling m.call = true → InBudget m) :
    InStep Related (V2.code d (V2.frame d t m pre post) m.call w)
      (V3.code d (V3.frame d t m pre post) m.call v) := by
  cases hcall : m.call with
  | lockNative k r timeout =>
    obtain ⟨cap, hself⟩ := hp.lock k r 0 m.value timeout false (by rw [hcall]; rfl)
    exact native_lock_pair h k timeout cap hself (fun e => by cases e)
  | lockNativeOpen k timeout =>
    obtain ⟨cap, hself⟩ := hp.lock k 0 0 m.value timeout true (by rw [hcall]; rfl)
    exact native_lock_pair h k timeout cap hself (fun _ => rfl)
  | lockToken k r token amount timeout =>
    obtain ⟨cap, hself⟩ := hp.lock k r token amount timeout false (by rw [hcall]; rfl)
    exact unpaid_pair rfl rfl (token_lock_pair h k token timeout cap hself (fun e => by cases e))
  | lockTokenOpen k token amount timeout =>
    obtain ⟨cap, hself⟩ := hp.lock k 0 token amount timeout true (by rw [hcall]; rfl)
    exact unpaid_pair rfl rfl (token_lock_pair h k token timeout cap hself (fun _ => rfl))
  | assign k r => exact unpaid_pair rfl rfl (assigned_pair h hp hcall)
  | release k => exact unpaid_pair rfl rfl (release_pair h hp (hg (by rw [hcall]; rfl)) hcall)
  | claim k p => exact unpaid_pair rfl rfl (claim_pair h hp (hg (by rw [hcall]; rfl)) hcall)
  | refund k => exact unpaid_pair rfl rfl (refund_pair h hp (hg (by rw [hcall]; rfl)) hcall)
  | getSwap k => exact unpaid_pair rfl rfl h
  | _ =>
    have := hp.common
    rw [hcall] at this
    cases this

/-! ## Whole sequences -/

/-- The call is accepted. Outside moves always are. -/
def V2.Accepts (d : Deployment Addr Bytes32) (w : V2.W Addr Bytes32) :
    Input d.toChain (Call Addr Bytes32) → Prop
  | .call t m pre post => ∃ w', V2.code d (V2.frame d t m pre post) m.call w = .ok w'
  | .outside _ => True

def V3.Accepts (d : Deployment Addr Bytes32) (v : V3.W Addr Bytes32) :
    Input d.toChain (Call Addr Bytes32) → Prop
  | .call t m pre post => ∃ v', V3.code d (V3.frame d t m pre post) m.call v = .ok v'
  | .outside _ => True

/-- What is taken for granted of an input, in the world HTLC is in. -/
def PromisedInput (d : Deployment Addr Bytes32) (w : V2.W Addr Bytes32) :
    Input d.toChain (Call Addr Bytes32) → Prop
  | .call t m pre post => Promised d w t m pre post
  | .outside _ => True

/-- A delivery attempt of the input fits its budget. -/
def InBudgetInput {c : Chain Addr} : Input c (Call Addr Bytes32) → Prop
  | .call _ m _ _ => Call.settling m.call = true → InBudget m
  | .outside _ => True

theorem step_pair {i : Input d.toChain (Call Addr Bytes32)} (h : Related w v)
    (hp : PromisedInput d w i) (hg : InBudgetInput i) :
    Related (V2.step d w i) (V3.step d v i) ∧ (V2.Accepts d w i ↔ V3.Accepts d v i) := by
  cases i with
  | outside o => exact ⟨h.outside o, Iff.rfl⟩
  | call t m pre post =>
    have hcode := code_pair h hp hg
    refine ⟨?_, hcode.isOk⟩
    simp only [V2.step, V3.step, Lib.Evm.step, perform]
    cases hw : V2.code d (V2.frame d t m pre post) m.call w with
    | error e =>
      cases hv : V3.code d (V3.frame d t m pre post) m.call v with
      | error e' => exact h
      | ok v' => rw [hw, hv] at hcode; exact hcode.elim
    | ok w' =>
      cases hv : V3.code d (V3.frame d t m pre post) m.call v with
      | error e' => rw [hw, hv] at hcode; exact hcode.elim
      | ok v' => rw [hw, hv] at hcode; exact hcode

end Steps

/-- The two contracts after the same inputs: related worlds, and the next input accepted by both
or by neither. -/
structure Refines (d : Deployment Addr Bytes32) (w : V2.W Addr Bytes32) (v : V3.W Addr Bytes32)
    (is : List (Input d.toChain (Call Addr Bytes32))) : Prop where
  related : Related (Lib.Run.run (V2.step d) w is) (Lib.Run.run (V3.step d) v is)
  accepts : ∀ js i ks, is = js ++ i :: ks →
    (V2.Accepts d (Lib.Run.run (V2.step d) w js) i ↔ V3.Accepts d (Lib.Run.run (V3.step d) v js) i)

theorem run_refines (d : Deployment Addr Bytes32) {w : V2.W Addr Bytes32} {v : V3.W Addr Bytes32}
    (h : Related w v) (is : List (Input d.toChain (Call Addr Bytes32)))
    (promised : Lib.Run.Along (V2.step d) (PromisedInput d) w is)
    (budget : ∀ i ∈ is, InBudgetInput i) : Refines d w v is := by
  induction is generalizing w v with
  | nil => exact ⟨h, fun js i ks e => by simp at e⟩
  | cons i is ih =>
    obtain ⟨hstep, hacc⟩ := step_pair h promised.1 (budget i (by simp))
    have hrest := ih hstep promised.2 (fun j hj => budget j (by simp [hj]))
    refine ⟨hrest.related, fun js j ks e => ?_⟩
    cases js with
    | nil =>
      obtain ⟨rfl, -⟩ := List.cons.inj e
      exact hacc
    | cons j' js =>
      obtain ⟨rfl, e'⟩ := List.cons.inj e
      exact hrest.accepts js j ks e'

theorem genesis_related (native : Addr → Nat) (tokens : Addr → Addr → Nat)
    (deployed : Addr → Bool) :
    Related (V2.genesis native tokens deployed : V2.W Addr Bytes32)
      (V3.genesis native tokens deployed) :=
  ⟨rfl, rfl, rfl, rfl, rfl, fun _ _ => rfl, fun _ => rfl, rfl⟩

/-- **HTLCv3 refines HTLC** on every sequence of common calls whose payouts go through in HTLC and
fit the delivery budget of HTLCv3. -/
theorem v3_refines_v2 (d : Deployment Addr Bytes32) (native : Addr → Nat)
    (tokens : Addr → Addr → Nat) (deployed : Addr → Bool)
    (is : List (Input d.toChain (Call Addr Bytes32)))
    (promised : Lib.Run.Along (V2.step d) (PromisedInput d) (V2.genesis native tokens deployed) is)
    (budget : ∀ i ∈ is, InBudgetInput i) :
    Refines d (V2.genesis native tokens deployed) (V3.genesis native tokens deployed) is :=
  run_refines d (genesis_related native tokens deployed) is promised budget

/-- A lock and a claim whose payout needs `gas`. -/
def lockAndClaim (gas : Nat) : List (Input V3.small.toChain (Call (Fin 4) (Fin 4))) :=
  [.call 0 (V3.Msg.of 1 (.lockNative 3 2 10) 7 ⟨true, .empty⟩) [] [],
    .call 5 { V3.Msg.of 1 (.claim 3 2) 0 ⟨true, .empty⟩ with attemptGas := gas } [] []]

theorem lockAndClaim_promised (gas : Nat) :
    Lib.Run.Along (V2.step V3.small) (PromisedInput V3.small)
      (V2.genesis (fun _ => 100) (fun _ _ => 0) (fun _ => false)) (lockAndClaim gas) := by
  refine ⟨⟨rfl, ?_, fun _ _ e => (by cases e), fun _ _ _ _ _ hs => (by cases hs)⟩,
    ⟨rfl, fun _ _ _ _ _ _ e => (by cases e), fun _ _ e => (by cases e), ?_⟩, trivial⟩
  · intro h r token amount timeout isOpen e
    cases e
    exact ⟨by decide, fun _ => by decide⟩
  · intro h s' payee ev hopen hs
    cases hs with
    | claim p hr ht hp =>
      refine ⟨_, rfl, fun hz => absurd ?_ hz⟩
      rfl

/-- A payout that fits the budget. -/
theorem v3_refines_v2_light :
    Refines V3.small (V2.genesis (fun _ => 100) (fun _ _ => 0) (fun _ => false))
      (V3.genesis (fun _ => 100) (fun _ _ => 0) (fun _ => false)) (lockAndClaim 30000) :=
  v3_refines_v2 V3.small _ _ _ _ (lockAndClaim_promised 30000) (by
    intro i hi
    simp only [lockAndClaim, List.mem_cons, List.not_mem_nil, or_false] at hi
    obtain rfl | rfl := hi
    · intro e; cases e
    · intro _; exact (by decide : 30000 ≤ V3.deliveryBudget 1000000))

/-- A payee that needs more gas than the budget is paid by HTLC and credited by HTLCv3. -/
theorem heavy_payout_not_refined :
    Lib.Run.Along (V2.step V3.small) (PromisedInput V3.small)
        (V2.genesis (fun _ => 100) (fun _ _ => 0) (fun _ => false)) (lockAndClaim 200000) ∧
      ¬ Refines V3.small (V2.genesis (fun _ => 100) (fun _ _ => 0) (fun _ => false))
        (V3.genesis (fun _ => 100) (fun _ _ => 0) (fun _ => false)) (lockAndClaim 200000) := by
  refine ⟨lockAndClaim_promised 200000, fun hr => ?_⟩
  have hcredit := hr.related.own.credits 0 2
  exact absurd hcredit (by decide)

end QuantaSwap.Htlc
