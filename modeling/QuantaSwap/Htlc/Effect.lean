import QuantaSwap.Htlc.V3

/-!
# What a call that goes through did

`Effect` lists everything a call to HTLCv3 can do when it does not revert, for any behaviour of
the token or the payee. `code_effect` is the only place where the code is taken apart; the
invariants are read off `Effect`.
-/

set_option autoImplicit false

set_option linter.unusedSectionVars false

open Lib.Evm Function

namespace QuantaSwap.Htlc.V3

variable {Addr Bytes32 : Type} [DecidableEq Addr] [DecidableEq Bytes32] [Zero Addr] [Zero Bytes32]

/-- The lock is taken. -/
def Entered (s : Storage Addr Bytes32) : Prop := s.entered = 2

/-! ## Balances -/

/-- At least `amount` of `token` came in, and nothing went out. -/
structure Inflow (c : Chain Addr) (token : Addr) (amount : Nat) (w w' : W Addr Bytes32) :
    Prop where
  native : w.native c.self + (if token = 0 then amount else 0) ≤ w'.native c.self
  tokens : ∀ t, t ≠ 0 → c.honest t = true →
    w.tokens t c.self + (if token = t then amount else 0) ≤ w'.tokens t c.self

/-- At most `amount` of `token` went out. -/
structure Outflow (c : Chain Addr) (token : Addr) (amount : Nat) (w w' : W Addr Bytes32) :
    Prop where
  native : w.native c.self ≤ w'.native c.self + (if token = 0 then amount else 0)
  tokens : ∀ t, t ≠ 0 → c.honest t = true →
    w.tokens t c.self ≤ w'.tokens t c.self + (if token = t then amount else 0)

/-- The balances in a token, or in the coin. -/
def ledger (token : Addr) (w : W Addr Bytes32) : Addr → Nat :=
  if token = 0 then w.native else w.tokens token

/-- `amount` of `token` goes from the contract to `dst`, and no other balance changes. -/
structure HandsOver (c : Chain Addr) (token dst : Addr) (amount : Nat) (w w' : W Addr Bytes32) :
    Prop where
  paid : Transferred c.self dst amount (ledger token w) (ledger token w')
  others : ∀ t, t ≠ token → ledger t w' = ledger t w

/-- A payout of `amount` of `token` to `dst` in a call whose untrusted side keeps to `s`. The coin
is handed over before the payee's code runs; a well-behaved token hands over in the middle of its
own. Any other token may do as it likes, but says that the contract now holds `amount` less. -/
structure Delivery (c : Chain Addr) (s : Script Addr) (token dst : Addr) (amount : Nat)
    (w w' : W Addr Bytes32) : Prop where
  inNative : token = 0 → dst ≠ c.self ∧ ∃ m, HandsOver c token dst amount w m ∧
    SameLedgers (outsides c (s.pre ++ s.post) m) w'
  inToken : token ≠ 0 → c.honest token = true → ∃ m,
    HandsOver c token dst amount (outsides c s.pre w) m ∧ SameLedgers (outsides c s.post m) w'
  untrusted : token ≠ 0 → c.honest token = false →
    SameLedgers (outsides c (s.pre ++ s.post) w) w'
  reads : token ≠ 0 → ∃ before after, balanceOf c token s.readBefore w = some (.word before) ∧
    balanceOf c token s.readAfter w' = some (.word after) ∧ after + amount = before

section Deliveries

variable {c : Chain Addr} {s : Script Addr} {token dst : Addr} {amount : Nat}
  {w w' : W Addr Bytes32}

theorem ledger_zero : ledger 0 w = w.native := if_pos rfl

theorem ledger_of_ne (h : token ≠ 0) : ledger token w = w.tokens token := if_neg h

theorem ledger_self_le (hu : Untouched c w w') (h : token = 0 ∨ c.honest token = true) :
    ledger token w c.self ≤ ledger token w' c.self := by
  by_cases hz : token = 0
  · subst hz
    rw [ledger_zero, ledger_zero]
    exact hu.native
  · rw [ledger_of_ne hz, ledger_of_ne hz]
    exact hu.tokens token (h.resolve_left hz)

theorem ledger_eq (h : SameLedgers w w') (token : Addr) : ledger token w' = ledger token w := by
  unfold ledger
  rw [h.native, h.tokens]

theorem Delivery.exact (h : Delivery c s token dst amount w w') (hz : token ≠ 0)
    (hh : c.honest token = true) :
    ledger token w' c.self + amount = ledger token w c.self := by
  obtain ⟨before, after, hb, ha, heq⟩ := h.reads hz
  have h1 := balanceOf_honest hh hb
  have h2 := balanceOf_honest hh ha
  rw [ReturnData.word.injEq] at h1 h2
  rw [ledger_of_ne hz, ledger_of_ne hz, ← h1, ← h2, heq]

theorem Delivery.kept (h : Delivery c s token dst amount w w') {t : Addr} (hne : t ≠ token)
    (ht : t = 0 ∨ c.honest t = true) : ledger t w c.self ≤ ledger t w' c.self := by
  by_cases hz : token = 0
  · obtain ⟨-, m, hm, hw'⟩ := h.inNative hz
    rw [← hm.others t hne, ledger_eq hw']
    exact ledger_self_le (outsides_untouched _ m) ht
  · cases hh : c.honest token with
    | true =>
      obtain ⟨m, hm, hw'⟩ := h.inToken hz hh
      calc ledger t w c.self ≤ ledger t (outsides c s.pre w) c.self :=
            ledger_self_le (outsides_untouched s.pre w) ht
        _ = ledger t m c.self := by rw [hm.others t hne]
        _ ≤ ledger t (outsides c s.post m) c.self := ledger_self_le (outsides_untouched s.post m) ht
        _ = ledger t w' c.self := by rw [ledger_eq hw']
    | false =>
      rw [ledger_eq (h.untrusted hz hh)]
      exact ledger_self_le (outsides_untouched _ w) ht

theorem Delivery.spent (h : Delivery c s token dst amount w w')
    (ht : token = 0 ∨ c.honest token = true) :
    ledger token w c.self ≤ ledger token w' c.self + amount := by
  by_cases hz : token = 0
  · obtain ⟨-, m, hm, hw'⟩ := h.inNative hz
    have hkept := ledger_self_le (outsides_untouched (c := c) (s.pre ++ s.post) m) (.inl hz)
    rw [← hm.paid.debit, ledger_eq hw']
    exact Nat.add_le_add_right hkept amount
  · exact (h.exact hz (ht.resolve_left hz)).ge

theorem Delivery.outflow (h : Delivery c s token dst amount w w') :
    Outflow c token amount w w' := by
  have hall : ∀ t, t = 0 ∨ c.honest t = true → ledger t w c.self ≤
      ledger t w' c.self + (if token = t then amount else 0) := fun t ht => by
    by_cases htt : token = t
    · subst htt
      rw [if_pos rfl]
      exact h.spent ht
    · rw [if_neg htt]
      exact h.kept (Ne.symm htt) ht
  refine ⟨by simpa only [ledger_zero] using hall 0 (.inl rfl), fun t ht hh => ?_⟩
  simpa only [ledger_of_ne ht] using hall t (.inr hh)

theorem HandsOver.congr {u m : W Addr Bytes32} (h : HandsOver c token dst amount w m)
    (hu : SameLedgers w u) : HandsOver c token dst amount u m := by
  refine ⟨?_, fun t ht => ?_⟩
  · rw [ledger_eq hu]
    exact h.paid
  · rw [ledger_eq hu]
    exact h.others t ht

theorem Delivery.congr {u u' : W Addr Bytes32} (h : Delivery c s token dst amount w w')
    (hu : SameLedgers w u) (hu' : SameLedgers w' u') : Delivery c s token dst amount u u' := by
  refine ⟨fun hz => ?_, fun hz hh => ?_, fun hz hh => ?_, fun hz => ?_⟩
  · obtain ⟨hne, m, hm, hw'⟩ := h.inNative hz
    exact ⟨hne, m, hm.congr hu, hw'.trans hu'⟩
  · obtain ⟨m, hm, hw'⟩ := h.inToken hz hh
    exact ⟨m, hm.congr (hu.outsides s.pre), hw'.trans hu'⟩
  · exact ((hu.outsides (s.pre ++ s.post)).symm.trans (h.untrusted hz hh)).trans hu'
  · obtain ⟨before, after, hb, ha, heq⟩ := h.reads hz
    exact ⟨before, after, (hu.balanceOf token _).trans hb, (hu'.balanceOf token _).trans ha,
      heq⟩

end Deliveries

/-! ## The effects -/

/-- The hashlock, recipient, token, amount, timeout and openness that a lock call asks for. -/
def lockArgs (value : Nat) : Call Addr Bytes32 → Option (Bytes32 × Addr × Addr × Nat × Nat × Bool)
  | .lockNative h r t => some (h, r, 0, value, t, false)
  | .lockToken h r k a t => some (h, r, k, a, t, false)
  | .lockNativeOpen h t => some (h, 0, 0, value, t, true)
  | .lockTokenOpen h k a t => some (h, 0, k, a, t, true)
  | _ => none

/-- The guards of the three settling calls: the record they leave, who is paid, and the event. -/
inductive Settles (d : Deployment Addr Bytes32) (sender : Addr) (now : Nat) (h : Bytes32)
    (s : Swap Addr Bytes32) :
    Call Addr Bytes32 → Swap Addr Bytes32 → Addr → Event Addr Bytes32 → Prop
  | release (hr : s.recipient = 0) (hi : sender = s.initiator) :
    Settles d sender now h s (.release h) { s with status := .Refunded } s.initiator (.Refunded h)
  | claim (p : Bytes32) (hr : s.recipient ≠ 0) (ht : now < s.timeout) (hp : d.sha256 p = h) :
    Settles d sender now h s (.claim h p) { s with status := .Claimed, preimage := p } s.recipient
      (.Claimed h p sender)
  | refund (ht : s.timeout ≤ now) :
    Settles d sender now h s (.refund h) { s with status := .Refunded } s.initiator (.Refunded h)

/-- The two ways a settlement pays out, from the world `u` where the record is already terminal. -/
inductive Payout (c : Chain Addr) (s : Script Addr) (h : Bytes32) (token payee : Addr)
    (amount : Nat) (u w' : W Addr Bytes32) : Prop
  | delivered (storage : w'.storage = u.storage) (paid : Delivery c s token payee amount u w')
    (log : w'.log = u.log ++ [.Sent token payee amount, .Delivered h token payee amount])
  | credited
    (credit : u.storage.credits token payee + amount ≤ maxUint256)
    (total : u.storage.outstanding token + amount ≤ maxUint256)
    (eq : w' = (setCredit token payee (u.storage.credits token payee + amount)
      (u.storage.outstanding token + amount) u).emit (.PayoutCredited token payee h amount))

/-- The three calls that spend a credit: whose it is, where it goes and how much. -/
inductive Withdraws (sender : Addr) (credits : Addr → Addr → Nat) (token : Addr) :
    Call Addr Bytes32 → Addr → Addr → Nat → Prop
  | withdraw (dst : Addr) (amount : Nat) :
    Withdraws sender credits token (.withdraw token dst amount) sender dst amount
  | withdrawAll (dst : Addr) :
    Withdraws sender credits token (.withdrawAll token dst) sender dst (credits token sender)
  | pushCredit (account : Addr) :
    Withdraws sender credits token (.pushCredit token account) account account
      (credits token account)

inductive Effect (d : Deployment Addr Bytes32) (x : Ctx Addr Bytes32) (s : Script Addr)
    (w : W Addr Bytes32) :
    Call Addr Bytes32 → W Addr Bytes32 → Prop
  | view {call} : Effect d x s w call w
  | lock {call h r token amount timeout isOpen w'}
    (args : lockArgs x.value call = some (h, r, token, amount, timeout, isOpen))
    (fresh : (w.storage.swaps h).status = .None)
    (hash : h ≠ 0) (pos : amount ≠ 0) (cap : amount ≤ maxUint128)
    (target : if isOpen then r = 0 else r ≠ 0 ∧ r ≠ d.self)
    (time : x.timestamp < timeout)
    (storage : w'.storage = (setSwap h
      { initiator := x.sender, recipient := r, token, amount, timeout, status := .Open,
        preimage := 0 } w).storage)
    (balances : Inflow d.toChain token amount w w')
    (log : w'.log = w.log ++ [.Locked h x.sender r token amount timeout]) :
    Effect d x s w call w'
  | assign {h r}
    (isOpen : (w.storage.swaps h).status = .Open)
    (owner : x.sender = (w.storage.swaps h).initiator)
    (unset : (w.storage.swaps h).recipient = 0)
    (target : r ≠ 0 ∧ r ≠ d.self)
    (time : x.timestamp < (w.storage.swaps h).timeout) :
    Effect d x s w (.assign h r)
      ((setSwap h { w.storage.swaps h with recipient := r } w).emit (.Assigned h r))
  | settle {call h s' payee ev w'}
    (isOpen : (w.storage.swaps h).status = .Open)
    (guards : Settles d x.sender x.timestamp h (w.storage.swaps h) call s' payee ev)
    (paid : Payout d.toChain s h (w.storage.swaps h).token payee (w.storage.swaps h).amount
      ((setSwap h s' w).emit ev) w') :
    Effect d x s w call w'
  | withdraw {call token account dst amount w'}
    (spends : Withdraws x.sender w.storage.credits token call account dst amount)
    (pos : amount ≠ 0) (credit : amount ≤ w.storage.credits token account)
    (total : amount ≤ w.storage.outstanding token)
    (storage : w'.storage = (setCredit token account (w.storage.credits token account - amount)
      (w.storage.outstanding token - amount) w).storage)
    (paid : Delivery d.toChain s token dst amount w w')
    (log : w'.log = w.log ++ [.PayoutWithdrawn token account dst amount, .Sent token dst amount]) :
    Effect d x s w call w'

/-! ## Small lemmas about the writes -/

section Writes

variable (w : W Addr Bytes32)

@[simp] theorem setEntered_native (n : Nat) : (setEntered n w).native = w.native := rfl
@[simp] theorem setEntered_tokens (n : Nat) : (setEntered n w).tokens = w.tokens := rfl
@[simp] theorem setEntered_log (n : Nat) : (setEntered n w).log = w.log := rfl
@[simp] theorem setEntered_code (n : Nat) : (setEntered n w).code = w.code := rfl
@[simp] theorem setEntered_swaps (n : Nat) : (setEntered n w).storage.swaps = w.storage.swaps := rfl
@[simp] theorem setEntered_credits (n : Nat) :
    (setEntered n w).storage.credits = w.storage.credits := rfl
@[simp] theorem setEntered_outstanding (n : Nat) :
    (setEntered n w).storage.outstanding = w.storage.outstanding := rfl
@[simp] theorem setEntered_entered (n : Nat) : (setEntered n w).storage.entered = n := rfl

@[simp] theorem emit_storage (e : Event Addr Bytes32) : (w.emit e).storage = w.storage := rfl
@[simp] theorem emit_native (e : Event Addr Bytes32) : (w.emit e).native = w.native := rfl
@[simp] theorem emit_tokens (e : Event Addr Bytes32) : (w.emit e).tokens = w.tokens := rfl
@[simp] theorem emit_log (e : Event Addr Bytes32) : (w.emit e).log = w.log ++ [e] := rfl
@[simp] theorem emit_code (e : Event Addr Bytes32) : (w.emit e).code = w.code := rfl

variable (h : Bytes32) (s : Swap Addr Bytes32)

@[simp] theorem setSwap_native : (setSwap h s w).native = w.native := rfl
@[simp] theorem setSwap_tokens : (setSwap h s w).tokens = w.tokens := rfl
@[simp] theorem setSwap_log : (setSwap h s w).log = w.log := rfl
@[simp] theorem setSwap_code : (setSwap h s w).code = w.code := rfl
@[simp] theorem setSwap_swaps : (setSwap h s w).storage.swaps = update w.storage.swaps h s := rfl
@[simp] theorem setSwap_credits : (setSwap h s w).storage.credits = w.storage.credits := rfl
@[simp] theorem setSwap_outstanding :
    (setSwap h s w).storage.outstanding = w.storage.outstanding := rfl
@[simp] theorem setSwap_entered : (setSwap h s w).storage.entered = w.storage.entered := rfl

variable (token account : Addr) (m n : Nat)

@[simp] theorem setCredit_native : (setCredit token account m n w).native = w.native := rfl
@[simp] theorem setCredit_tokens : (setCredit token account m n w).tokens = w.tokens := rfl
@[simp] theorem setCredit_log : (setCredit token account m n w).log = w.log := rfl
@[simp] theorem setCredit_code : (setCredit token account m n w).code = w.code := rfl
@[simp] theorem setCredit_swaps :
    (setCredit token account m n w).storage.swaps = w.storage.swaps := rfl
@[simp] theorem setCredit_credits : (setCredit token account m n w).storage.credits =
    update w.storage.credits token (update (w.storage.credits token) account m) := rfl
@[simp] theorem setCredit_outstanding : (setCredit token account m n w).storage.outstanding =
    update w.storage.outstanding token n := rfl
@[simp] theorem setCredit_entered :
    (setCredit token account m n w).storage.entered = w.storage.entered := rfl

end Writes

theorem nonReentrant_ok {body : W Addr Bytes32 → Except Revert (W Addr Bytes32)}
    {w w' : W Addr Bytes32} (h : nonReentrant body w = .ok w') :
    w.storage.entered = 1 ∧ ∃ v, body (setEntered 2 w) = .ok v ∧ w' = setEntered 1 v := by
  unfold nonReentrant at h
  split at h
  · cases h
  · rename_i he
    refine ⟨by simpa using he, ?_⟩
    cases hb : body (setEntered 2 w) with
    | error e => simp [hb, bind, Except.bind] at h
    | ok v => exact ⟨v, rfl, by simpa [hb, bind, Except.bind, pure, Except.pure] using h.symm⟩

theorem nonReentrant_entered {body : W Addr Bytes32 → Except Revert (W Addr Bytes32)}
    {w w' : W Addr Bytes32} (he : Entered w.storage) : nonReentrant body w ≠ .ok w' := by
  intro h
  have := (nonReentrant_ok h).1
  simp only [Entered] at he
  omega

theorem receive_ok {c : Chain Addr} {sender : Addr} {value : Nat} {payable : Bool}
    {w w' : W Addr Bytes32} (h : receive c sender value payable w = .ok w') :
    (payable = true ∧ w.moveNative sender c.self value = some w') ∨
      (payable = false ∧ value = 0 ∧ w' = w) := by
  unfold receive at h
  cases payable with
  | true =>
    left
    simp only [if_true] at h
    split at h
    · rename_i v hv; exact ⟨rfl, by rw [hv, Except.ok.inj h]⟩
    · cases h
  | false =>
    right
    simp only [Bool.false_eq_true, if_false] at h
    split at h
    · rename_i hv; exact ⟨rfl, hv, (Except.ok.inj h).symm⟩
    · cases h

/-! ## Token calls -/

section Payouts

variable {d : Deployment Addr Bytes32} {x : Ctx Addr Bytes32} {s : Script Addr}

theorem bind_ok {α β : Type} {a : Except Revert α} {f : α → Except Revert β} {b : β}
    (h : (a >>= f) = .ok b) : ∃ v, a = .ok v ∧ f v = .ok b := by
  cases a with
  | error e => simp [bind, Except.bind] at h
  | ok v => exact ⟨v, rfl, h⟩

theorem checkedSub_ok {a b n : Nat} (h : checkedSub a b = .ok n) : b ≤ a ∧ n = a - b := by
  unfold checkedSub at h
  split at h
  · rename_i hle; exact ⟨hle, (Except.ok.inj h).symm⟩
  · cases h

theorem checkedAdd_ok {a b n : Nat} (h : checkedAdd a b = .ok n) :
    a + b ≤ maxUint256 ∧ n = a + b := by
  unfold checkedAdd at h
  split at h
  · rename_i hle; exact ⟨hle, (Except.ok.inj h).symm⟩
  · cases h

theorem _selfBalance_honest {token : Addr} {read : Option ReturnData} {w : W Addr Bytes32}
    {n : Nat} (ht : d.honest token = true) (h : _selfBalance d token read w = .ok n) :
    n = w.tokens token d.self := by
  unfold _selfBalance at h
  cases hb : balanceOf d.toChain token read w with
  | none => simp [hb] at h
  | some ret =>
    rw [hb, balanceOf_honest (c := d.toChain) ht hb] at h
    simpa [ReturnData.decodeUint] using h.symm

theorem _tokenCall_ok {token : Addr} {data : W Addr Bytes32 → Option (W Addr Bytes32)}
    {w w' : W Addr Bytes32} (h : _tokenCall d x token data w = .ok w') :
    ∃ ret, callToken d.toChain x.callee token data w = some (ret, w') ∧
      ret.reportsSuccess = true := by
  unfold _tokenCall at h
  split at h
  · cases h
  · rename_i v hc; exact ⟨.empty, by rw [hc, Except.ok.inj h], rfl⟩
  · rename_i ret v _ hc
    split at h
    · rename_i hret; exact ⟨ret, by rw [hc, Except.ok.inj h],
        by simp [ReturnData.reportsSuccess, hret]⟩
    · cases h
    · cases h

theorem _tokenCall_spec {token src dst : Addr} {amount : Nat} {w w' : W Addr Bytes32}
    (hk : Follows d.toChain Entered x s) (hl : Entered w.storage)
    (h : _tokenCall d x token (fun w => w.moveToken token src dst amount) w = .ok w') :
    UntouchedBut d.toChain token w w' := by
  obtain ⟨ret, hc, -⟩ := _tokenCall_ok h
  exact callToken_spec (fun _ _ he => moveToken_untouchedBut he) hk.callee.tame hl hc

theorem _tokenCall_honest {token src dst : Addr} {amount : Nat} {w w' : W Addr Bytes32}
    (hk : Follows d.toChain Entered x s) (hl : Entered w.storage) (ht : d.honest token = true)
    (h : _tokenCall d x token (fun w => w.moveToken token src dst amount) w = .ok w') :
    ∃ m, (outsides d.toChain s.pre w).moveToken token src dst amount = some m ∧
      w' = outsides d.toChain s.post m := by
  obtain ⟨ret, hc, hret⟩ := _tokenCall_ok h
  have hst : ∀ a b : W Addr Bytes32, a.moveToken token src dst amount = some b →
      b.storage = a.storage := fun a b hb => by
    simp only [World.moveToken, Option.map_eq_some_iff] at hb
    obtain ⟨l, -, rfl⟩ := hb
    rfl
  exact callToken_honest hk.callee hl hst ht hret hc

theorem _selfBalance_ok {token : Addr} {read : Option ReturnData} {w : W Addr Bytes32} {n : Nat}
    (h : _selfBalance d token read w = .ok n) :
    balanceOf d.toChain token read w = some (.word n) := by
  unfold _selfBalance at h
  split at h
  · cases h
  · cases h
  · rename_i ret _ hret
    rw [hret]
    cases ret with
    | word m =>
      obtain rfl := Except.ok.inj h
      rfl
    | empty | malformed => cases h

theorem handsOver_native {c : Chain Addr} {dst : Addr} {amount : Nat} {w : W Addr Bytes32}
    {l : Addr → Nat} (hne : dst ≠ c.self) (h : transfer w.native c.self dst amount = some l) :
    HandsOver c 0 dst amount w { w with native := l } := by
  refine ⟨?_, fun t ht => ?_⟩
  · rw [ledger_zero, ledger_zero]
    exact transfer_transferred (fun e => absurd e.symm hne) h
  · rw [ledger_of_ne ht, ledger_of_ne ht]

theorem handsOver_token {c : Chain Addr} {token dst : Addr} {amount : Nat} {w m : W Addr Bytes32}
    (hz : token ≠ 0) (hself : c.self = dst → amount = 0)
    (h : w.moveToken token c.self dst amount = some m) : HandsOver c token dst amount w m := by
  simp only [World.moveToken, Option.map_eq_some_iff] at h
  obtain ⟨l, hl, rfl⟩ := h
  refine ⟨?_, fun t ht => ?_⟩
  · rw [ledger_of_ne hz, ledger_of_ne hz]
    simpa only [update_self] using transfer_transferred hself hl
  · unfold ledger
    simp only [update_of_ne ht]

/-- A payout that goes through moved `amount` of the token and nothing else. -/
theorem _strictPayout_spec {token dst : Addr} {amount : Nat} {w w' : W Addr Bytes32}
    (hk : Follows d.toChain Entered x s) (hl : Entered w.storage)
    (h : _strictPayout d x token dst amount w = .ok w') :
    w'.storage = w.storage ∧ w'.log = w.log ++ [.Sent token dst amount] ∧
      Delivery d.toChain s token dst amount w w' := by
  unfold _strictPayout at h
  split at h
  · rename_i htoken
    subst htoken
    split at h
    · rename_i v hv
      obtain ⟨hne, l, hmove, rfl⟩ := callNative_spec hk.callee hl hv
      obtain rfl := (Except.ok.inj h).symm
      have hu := outsides_untouched (c := d.toChain) (s.pre ++ s.post) { w with native := l }
      refine ⟨hu.storage, by rw [emit_log, hu.log],
        fun _ => ⟨hne, _, handsOver_native hne hmove, ?_⟩,
        fun hz => absurd rfl hz, fun hz => absurd rfl hz, fun hz => absurd rfl hz⟩
      exact ⟨rfl, rfl⟩
    · cases h
  · rename_i htoken
    obtain ⟨before, hb, h⟩ := bind_ok h
    obtain ⟨v, hv, h⟩ := bind_ok h
    obtain ⟨after, ha, h⟩ := bind_ok h
    obtain ⟨paid, hp, h⟩ := bind_ok h
    split at h
    · cases h
    rename_i heq
    obtain rfl := (Except.ok.inj h).symm
    have hun := _tokenCall_spec hk hl hv
    obtain ⟨hle, hsub⟩ := checkedSub_ok hp
    have hreads : after + amount = before := by omega
    have hb' := _selfBalance_ok hb
    have ha' := _selfBalance_ok ha
    rw [hk.readBefore] at hb'
    rw [hk.readAfter] at ha'
    refine ⟨hun.storage, by rw [emit_log, hun.log], fun hz => absurd hz htoken, fun _ hh => ?_,
      fun _ hh => ?_, fun _ => ⟨before, after, hb', ha', hreads⟩⟩
    · obtain ⟨m, hmove, rfl⟩ := _tokenCall_honest hk hl hh hv
      refine ⟨m, handsOver_token htoken (fun hself => ?_) hmove, rfl, rfl⟩
      -- A payout to the contract itself moves nothing, and the two reads say so.
      subst hself
      have h1 := _selfBalance_honest hh hb
      have h2 := _selfBalance_honest hh ha
      have hpre := (outsides_untouched (c := d.toChain) s.pre w).tokens token hh
      have hpost := (outsides_untouched (c := d.toChain) s.post m).tokens token hh
      rw [moveToken_self hmove] at hpost
      omega
    · obtain ⟨ret, hc, -⟩ := _tokenCall_ok hv
      rw [callToken_dishonest hk.callee hl hh hc]
      exact ⟨rfl, rfl⟩

theorem _settle_spec {h : Bytes32} {token payee : Addr} {amount : Nat} {u w' : W Addr Bytes32}
    (hk : Follows d.toChain Entered x s) (hl : Entered u.storage)
    (hok : _settle d x h token payee amount u = .ok w') :
    Payout d.toChain s h token payee amount u w' := by
  unfold _settle at hok
  split at hok
  · rename_i v hv
    simp only [selfDeliver] at hv
    split_ifs at hv
    obtain ⟨hs, hlog, hout⟩ := _strictPayout_spec hk hl hv
    obtain rfl := (Except.ok.inj hok).symm
    exact .delivered hs (hout.congr ⟨rfl, rfl⟩ ⟨rfl, rfl⟩) (by simp [hlog])
  · obtain ⟨credit, hc, hok⟩ := bind_ok hok
    obtain ⟨total, ht, hok⟩ := bind_ok hok
    obtain ⟨hcle, rfl⟩ := checkedAdd_ok hc
    obtain ⟨htle, rfl⟩ := checkedAdd_ok ht
    exact .credited hcle htle (Except.ok.inj hok).symm

/-! ## Locks -/

/-- The guards of a lock, and the record it writes. -/
structure Locks (d : Deployment Addr Bytes32) (x : Ctx Addr Bytes32) (h : Bytes32) (r token : Addr)
    (amount timeout : Nat) (isOpen : Bool) (w w' : W Addr Bytes32) : Prop where
  fresh : (w.storage.swaps h).status = .None
  hash : h ≠ 0
  pos : amount ≠ 0
  cap : amount ≤ maxUint128
  target : if isOpen then r = 0 else r ≠ 0 ∧ r ≠ d.self
  time : x.timestamp < timeout
  eq : w' = (setSwap h
    { initiator := x.sender, recipient := r, token, amount, timeout, status := .Open,
      preimage := 0 } w).emit (.Locked h x.sender r token amount timeout)

theorem _lock_ok {h : Bytes32} {r token : Addr} {amount timeout : Nat} {isOpen : Bool}
    {w w' : W Addr Bytes32} (hok : _lock d x h r token amount timeout isOpen w = .ok w') :
    Locks d x h r token amount timeout isOpen w w' := by
  unfold _lock at hok
  split_ifs at hok with h1 h2 h3 h4 h5 h6
  push Not at h1 h2 h3 h6
  refine ⟨h1, h2.1, h2.2, h3, ?_, h6, (Except.ok.inj hok).symm⟩
  cases isOpen with
  | true => simpa using h5
  | false => simpa using h4

theorem _lockToken_spec {h : Bytes32} {r token : Addr} {amount timeout : Nat} {isOpen : Bool}
    {w w' : W Addr Bytes32} (hk : Follows d.toChain Entered x s) (hl : Entered w.storage)
    (hok : _lockToken d x h r token amount timeout isOpen w = .ok w') :
    ∃ v, Locks d x h r token amount timeout isOpen w v ∧ w'.storage = v.storage ∧
      w'.log = v.log ∧ Inflow d.toChain token amount w w' := by
  unfold _lockToken at hok
  split at hok
  · cases hok
  rename_i htoken
  obtain ⟨v, hv, hok⟩ := bind_ok hok
  obtain ⟨before, hb, hok⟩ := bind_ok hok
  obtain ⟨u, hu, hok⟩ := bind_ok hok
  obtain ⟨after, ha, hok⟩ := bind_ok hok
  obtain ⟨received, hr, hok⟩ := bind_ok hok
  split at hok
  · cases hok
  obtain rfl := (Except.ok.inj hok).symm
  have hlock := _lock_ok hv
  have hlv : Entered v.storage := by rw [hlock.eq]; exact hl
  have hun := _tokenCall_spec hk hlv hu
  obtain ⟨hle, hsub⟩ := checkedSub_ok hr
  have hnative := hun.native
  have htokens := hun.tokens
  rw [hlock.eq] at hnative htokens
  simp only [emit_native, setSwap_native, emit_tokens, setSwap_tokens] at hnative htokens
  have hz : token ≠ 0 := fun e => htoken (.inl e)
  refine ⟨v, hlock, hun.storage, hun.log, by simpa [hz] using hnative, fun t _ hh => ?_⟩
  by_cases htt : token = t
  · -- The two reads of a well-behaved token say what came in.
    subst htt
    have h1 := _selfBalance_honest hh hb
    have h2 := _selfBalance_honest hh ha
    have h3 : v.tokens = w.tokens := by rw [hlock.eq]; rfl
    rw [h3] at h1
    simp only [if_true]
    omega
  · have := htokens t (fun e => htt e.symm) hh
    simp only [htt, if_false]
    omega

/-! ## Withdrawals -/

theorem spend_spec {token account dst : Addr} {amount outstanding : Nat} {w w' : W Addr Bytes32}
    (hk : Follows d.toChain Entered x s) (hl : Entered w.storage)
    (hs : checkedSub (w.storage.outstanding token) amount = .ok outstanding)
    (hok : _strictPayout d x token dst amount
      ((setCredit token account (w.storage.credits token account - amount) outstanding w).emit
        (.PayoutWithdrawn token account dst amount)) = .ok w') :
    amount ≤ w.storage.outstanding token ∧
      w'.storage = (setCredit token account (w.storage.credits token account - amount)
        (w.storage.outstanding token - amount) w).storage ∧
      Delivery d.toChain s token dst amount w w' ∧
      w'.log = w.log ++ [.PayoutWithdrawn token account dst amount, .Sent token dst amount] := by
  obtain ⟨hle, rfl⟩ := checkedSub_ok hs
  obtain ⟨hst, hlog, hout⟩ := _strictPayout_spec hk (by simpa [Entered] using hl) hok
  exact ⟨hle, hst, hout.congr ⟨rfl, rfl⟩ ⟨rfl, rfl⟩, by simp [hlog]⟩

theorem _withdraw_spec {token dst : Addr} {amount : Nat} {w w' : W Addr Bytes32}
    (hk : Follows d.toChain Entered x s) (hl : Entered w.storage)
    (hok : _withdraw d x token dst amount w = .ok w') :
    amount ≠ 0 ∧ amount ≤ w.storage.credits token x.sender ∧
      amount ≤ w.storage.outstanding token ∧
      w'.storage = (setCredit token x.sender (w.storage.credits token x.sender - amount)
        (w.storage.outstanding token - amount) w).storage ∧
      Delivery d.toChain s token dst amount w w' ∧
      w'.log = w.log ++ [.PayoutWithdrawn token x.sender dst amount, .Sent token dst amount] := by
  unfold _withdraw at hok
  dsimp only at hok
  split_ifs at hok with h1 h2 h3
  obtain ⟨outstanding, hs, hok⟩ := bind_ok hok
  exact ⟨h2, by omega, spend_spec hk hl hs hok⟩

/-! ## From the body under the lock to the whole call -/

theorem setEntered_one_setEntered_two (w : W Addr Bytes32) (he : w.storage.entered = 1) :
    setEntered 1 (setEntered 2 w) = w := by
  obtain ⟨⟨swaps, credits, outstanding, entered⟩, native, tokens, code, log⟩ := w
  subst he
  rfl

theorem setEntered_setSwap {w : W Addr Bytes32} (he : w.storage.entered = 1) (h : Bytes32)
    (s : Swap Addr Bytes32) (e : Event Addr Bytes32) :
    setEntered 1 ((setSwap h s (setEntered 2 w)).emit e) = (setSwap h s w).emit e := by
  obtain ⟨⟨swaps, credits, outstanding, entered⟩, native, tokens, code, log⟩ := w
  subst he
  rfl

theorem storage_unlock {w v : W Addr Bytes32} (he : w.storage.entered = 1)
    (f : W Addr Bytes32 → W Addr Bytes32)
    (hf : ∀ n u, (f (setEntered n u)).storage = (setEntered n (f u)).storage)
    (h : v.storage = (f (setEntered 2 w)).storage) : (setEntered 1 v).storage = (f w).storage := by
  calc (setEntered 1 v).storage = { v.storage with entered := 1 } := rfl
    _ = (setEntered 1 (f (setEntered 2 w))).storage := by rw [h]; rfl
    _ = (f (setEntered 1 (setEntered 2 w))).storage := (hf 1 (setEntered 2 w)).symm
    _ = (f w).storage := by rw [setEntered_one_setEntered_two w he]

theorem Payout.unlock {c : Chain Addr} {h : Bytes32} {token payee : Addr} {amount : Nat}
    {w v : W Addr Bytes32} {swap : Swap Addr Bytes32} {ev : Event Addr Bytes32}
    (he : w.storage.entered = 1)
    (hp : Payout c s h token payee amount ((setSwap h swap (setEntered 2 w)).emit ev) v) :
    Payout c s h token payee amount ((setSwap h swap w).emit ev) (setEntered 1 v) := by
  cases hp with
  | delivered storage paid log =>
    exact .delivered
      (storage_unlock he (fun u => (setSwap h swap u).emit ev) (fun _ _ => rfl) storage)
      (paid.congr ⟨rfl, rfl⟩ ⟨rfl, rfl⟩) log
  | credited credit total eq =>
    refine .credited credit total ?_
    subst eq
    obtain ⟨⟨swaps, credits, outstanding, entered⟩, native, tokens, code, log⟩ := w
    simp only at he
    subst he
    rfl

theorem entered_two (w : W Addr Bytes32) : Entered (setEntered 2 w).storage := rfl

theorem lock_native_effect {call : Call Addr Bytes32} {h : Bytes32} {r : Addr} {t : Nat}
    {isOpen : Bool} {w v w' : W Addr Bytes32} (hx : x.sender ≠ d.self)
    (args : lockArgs x.value call = some (h, r, 0, x.value, t, isOpen))
    (hmove : w.moveNative x.sender d.self x.value = some v)
    (hok : nonReentrant (_lock d x h r 0 x.value t isOpen) v = .ok w') :
    Effect d x s w call w' := by
  simp only [World.moveNative, Option.map_eq_some_iff] at hmove
  obtain ⟨l, hl, rfl⟩ := hmove
  have hin := (transfer_apply hx hl).2
  obtain ⟨he, u, hu, rfl⟩ := nonReentrant_ok hok
  have hlock := _lock_ok hu
  refine .lock args hlock.fresh hlock.hash hlock.pos hlock.cap hlock.target hlock.time
    (storage_unlock he (setSwap h _) (fun _ _ => rfl) (by rw [hlock.eq]; rfl))
    ⟨?_, fun k hk _ => ?_⟩ (by rw [hlock.eq]; rfl)
  · rw [hlock.eq]
    simp [hin]
  · rw [hlock.eq]
    simp [hk.symm]

theorem lock_token_effect {call : Call Addr Bytes32} {h : Bytes32} {r token : Addr}
    {amount t : Nat} {isOpen : Bool} {w w' : W Addr Bytes32}
    (hk : Follows d.toChain Entered x s)
    (args : lockArgs x.value call = some (h, r, token, amount, t, isOpen))
    (hok : nonReentrant (_lockToken d x h r token amount t isOpen) w = .ok w') :
    Effect d x s w call w' := by
  obtain ⟨he, u, hu, rfl⟩ := nonReentrant_ok hok
  obtain ⟨v, hlock, hst, hlog, hin⟩ := _lockToken_spec hk (entered_two w) hu
  exact .lock args hlock.fresh hlock.hash hlock.pos hlock.cap hlock.target hlock.time
    (storage_unlock he (setSwap h _) (fun _ _ => rfl) (by rw [hst, hlock.eq]; rfl))
    ⟨hin.native, hin.tokens⟩ (by simp [hlog, hlock.eq])

theorem assign_effect {h : Bytes32} {r : Addr} {w w' : W Addr Bytes32}
    (hok : assign d x h r w = .ok w') : Effect d x s w (.assign h r) w' := by
  obtain ⟨he, u, hu, rfl⟩ := nonReentrant_ok hok
  dsimp only at hu
  split_ifs at hu with h1 h2 h3 h4 h5
  push Not at h1 h2 h3 h4 h5
  obtain rfl := (Except.ok.inj hu).symm
  rw [setEntered_setSwap he]
  exact .assign h1 h2 h3 h4 h5

theorem settle_effect {call : Call Addr Bytes32} {h : Bytes32} {s' : Swap Addr Bytes32}
    {payee : Addr} {ev : Event Addr Bytes32} {w u : W Addr Bytes32}
    (hk : Follows d.toChain Entered x s) (he : w.storage.entered = 1)
    (isOpen : (w.storage.swaps h).status = .Open)
    (guards : Settles d x.sender x.timestamp h (w.storage.swaps h) call s' payee ev)
    (hok : _settle d x h (w.storage.swaps h).token payee (w.storage.swaps h).amount
      ((setSwap h s' (setEntered 2 w)).emit ev) = .ok u) :
    Effect d x s w call (setEntered 1 u) :=
  have hl : Entered ((setSwap h s' (setEntered 2 w)).emit ev).storage := rfl
  .settle isOpen guards ((_settle_spec hk hl hok).unlock he)

theorem release_effect {h : Bytes32} {w w' : W Addr Bytes32}
    (hk : Follows d.toChain Entered x s) (hok : release d x h w = .ok w') :
    Effect d x s w (.release h) w' := by
  obtain ⟨he, u, hu, rfl⟩ := nonReentrant_ok hok
  dsimp only at hu
  split_ifs at hu with h1 h2 h3
  push Not at h1 h2 h3
  exact settle_effect hk he h1 (.release h3 h2) hu

theorem claim_effect {h p : Bytes32} {w w' : W Addr Bytes32}
    (hk : Follows d.toChain Entered x s) (hok : claim d x h p w = .ok w') :
    Effect d x s w (.claim h p) w' := by
  obtain ⟨he, u, hu, rfl⟩ := nonReentrant_ok hok
  dsimp only at hu
  split_ifs at hu with h1 h2 h3 h4
  push Not at h1 h3 h4
  exact settle_effect hk he h1 (.claim p h2 h3 h4) hu

theorem refund_effect {h : Bytes32} {w w' : W Addr Bytes32}
    (hk : Follows d.toChain Entered x s) (hok : refund d x h w = .ok w') :
    Effect d x s w (.refund h) w' := by
  obtain ⟨he, u, hu, rfl⟩ := nonReentrant_ok hok
  dsimp only at hu
  split_ifs at hu with h1 h2
  push Not at h1 h2
  exact settle_effect hk he h1 (.refund h2) hu

theorem withdraw_effect {call : Call Addr Bytes32} {token account dst : Addr} {amount : Nat}
    {w u : W Addr Bytes32} (he : w.storage.entered = 1)
    (spends : Withdraws x.sender w.storage.credits token call account dst amount)
    (pos : amount ≠ 0) (credit : amount ≤ w.storage.credits token account)
    (hs : amount ≤ w.storage.outstanding token ∧
      u.storage = (setCredit token account (w.storage.credits token account - amount)
        (w.storage.outstanding token - amount) (setEntered 2 w)).storage ∧
      Delivery d.toChain s token dst amount (setEntered 2 w) u ∧
      u.log = w.log ++ [.PayoutWithdrawn token account dst amount, .Sent token dst amount]) :
    Effect d x s w call (setEntered 1 u) := by
  obtain ⟨total, hst, hout, hlog⟩ := hs
  exact .withdraw spends pos credit total
    (storage_unlock he (setCredit token account _ _) (fun _ _ => rfl) hst)
    (hout.congr ⟨rfl, rfl⟩ ⟨rfl, rfl⟩) hlog

theorem pushCredit_effect {token account : Addr} {w w' : W Addr Bytes32}
    (hk : Follows d.toChain Entered x s) (hok : pushCredit d x token account w = .ok w') :
    Effect d x s w (.pushCredit token account) w' := by
  obtain ⟨he, u, hu, rfl⟩ := nonReentrant_ok hok
  dsimp only at hu
  split_ifs at hu with h1
  obtain ⟨outstanding, hs, hu⟩ := bind_ok hu
  have hzero : w.storage.credits token account - w.storage.credits token account = 0 :=
    Nat.sub_self _
  refine withdraw_effect he (.pushCredit account) h1 (le_refl _)
    (spend_spec hk (entered_two w) hs ?_)
  rw [setEntered_credits, hzero]
  exact hu

/-- **Every call that goes through has one of the listed effects.** -/
theorem code_effect {call : Call Addr Bytes32} {w w' : W Addr Bytes32}
    (hk : Follows d.toChain Entered x s) (hx : x.sender ≠ d.self)
    (hok : code d x call w = .ok w') : Effect d x s w call w' := by
  obtain ⟨v, hv, hgo⟩ := bind_ok hok
  clear hok
  obtain ⟨hp, hmove⟩ | ⟨hp, -, rfl⟩ := receive_ok hv
  · cases call with
    | lockNative h r t => exact lock_native_effect hx rfl hmove hgo
    | lockNativeOpen h t => exact lock_native_effect hx rfl hmove hgo
    | _ => cases hp
  · cases call with
    | lockNative h r t => cases hp
    | lockNativeOpen h t => cases hp
    | lockToken h r k a t => exact lock_token_effect hk rfl hgo
    | lockTokenOpen h k a t => exact lock_token_effect hk rfl hgo
    | assign h r => exact assign_effect hgo
    | release h => exact release_effect hk hgo
    | claim h p => exact claim_effect hk hgo
    | refund h => exact refund_effect hk hgo
    | withdraw k dst a =>
      obtain ⟨he, u, hu, rfl⟩ := nonReentrant_ok hgo
      obtain ⟨pos, credit, hs⟩ := _withdraw_spec hk (entered_two v) hu
      exact withdraw_effect he (.withdraw dst a) pos credit hs
    | withdrawAll k dst =>
      obtain ⟨he, u, hu, rfl⟩ := nonReentrant_ok hgo
      obtain ⟨pos, credit, hs⟩ := _withdraw_spec hk (entered_two v) hu
      exact withdraw_effect he (.withdrawAll dst) pos credit hs
    | pushCredit k a => exact pushCredit_effect hk hgo
    | selfDeliver k dst a => simp [dispatch, selfDeliver, hx] at hgo
    | getSwap | creditOf | outstandingCredit | deliveryGasPolicy =>
      obtain rfl := Except.ok.inj hgo
      exact .view

/-- Re-entering the contract does nothing: every function that writes asks for the lock, and the
trampoline answers to the contract alone. -/
theorem code_guarded (d : Deployment Addr Bytes32) : Guarded d.toChain (code d) Entered := by
  intro f call w w' hf he hok
  obtain ⟨v, hv, hgo⟩ := bind_ok hok
  clear hok
  have hst : Entered v.storage := by
    obtain ⟨-, hmove⟩ | ⟨-, -, rfl⟩ := receive_ok hv
    · simp only [World.moveNative, Option.map_eq_some_iff] at hmove
      obtain ⟨l, -, rfl⟩ := hmove
      exact he
    · exact he
  cases call with
  | getSwap | creditOf | outstandingCredit | deliveryGasPolicy =>
    obtain rfl := Except.ok.inj hgo
    obtain ⟨hp, -⟩ | ⟨-, -, rfl⟩ := receive_ok hv
    · cases hp
    · rfl
  | selfDeliver k dst a => simp [dispatch, selfDeliver, hf] at hgo
  | _ =>
    simp only [dispatch, lockNative, lockToken, lockNativeOpen, lockTokenOpen, assign, release,
      claim, refund, withdraw, withdrawAll, pushCredit] at hgo
    exact absurd hgo (nonReentrant_entered hst)

end Payouts

end QuantaSwap.Htlc.V3
