import Mathlib.Logic.Function.Basic
import Mathlib.Order.Lattice
import QuantaSwap.Lib.Run

/-!
# A contract and the hostile world around it

The storage of one contract, the ledgers of the native coin and of every token, and what
untrusted code may do while the contract is calling it. A script lists what the untrusted side
does, so a statement about all scripts is a statement about every adversary.

A call that reverts restores the world: an `Except` result carries no world on the error side.
-/

set_option autoImplicit false

namespace Lib.Evm

open Function

/-- What a call hands back, as far as an ABI decoder can tell. -/
inductive ReturnData
  | empty
  /-- Some bytes, but fewer than one ABI word. -/
  | malformed
  | word (n : Nat)
  deriving DecidableEq, Repr

/-- `abi.decode(ret, (bool))`: a word other than 0 and 1 is refused. -/
def ReturnData.decodeBool : ReturnData → Option Bool
  | .word 0 => some false
  | .word 1 => some true
  | _ => none

/-- `abi.decode(ret, (uint256))`. -/
def ReturnData.decodeUint : ReturnData → Option Nat
  | .word n => some n
  | _ => none

/-- A token call that hands this back says that it moved the value. -/
def ReturnData.reportsSuccess (r : ReturnData) : Bool :=
  r == .empty || r.decodeBool == some true

structure World (Addr σ Ev : Type) where
  storage : σ
  /-- Native coin of each account. -/
  native : Addr → Nat
  /-- What each token's `balanceOf` says of each account. -/
  tokens : Addr → Addr → Nat
  /-- Accounts with code. -/
  code : Addr → Bool
  /-- What the contract emitted and sent, oldest first. -/
  log : List Ev

/-- The contract's own address, and the tokens that are well behaved: `transfer` and
`transferFrom` move exactly the stated amount when they report success, and the balance of
`self` never goes down in any other way. -/
structure Chain (Addr : Type) where
  self : Addr
  honest : Addr → Bool

section Ledger

variable {Addr σ Ev : Type} [DecidableEq Addr]

/-- `amount` from one account of a ledger to another. -/
def transfer (ledger : Addr → Nat) (src dst : Addr) (amount : Nat) : Option (Addr → Nat) :=
  if ledger src < amount then none
  else
    let debited := update ledger src (ledger src - amount)
    some (update debited dst (debited dst + amount))

namespace World

variable (w : World Addr σ Ev)

def emit (e : Ev) : World Addr σ Ev := { w with log := w.log ++ [e] }

def moveNative (src dst : Addr) (amount : Nat) : Option (World Addr σ Ev) :=
  (transfer w.native src dst amount).map fun l => { w with native := l }

def moveToken (token src dst : Addr) (amount : Nat) : Option (World Addr σ Ev) :=
  (transfer (w.tokens token) src dst amount).map fun l =>
    { w with tokens := update w.tokens token l }

end World

/-! ## Moves of the outside world -/

/-- What other accounts may do to the ledgers and to code at any time. -/
inductive Outside (Addr : Type)
  | setNative (holder : Addr) (balance : Nat)
  | setToken (token holder : Addr) (balance : Nat)
  | setCode (account : Addr) (deployed : Bool)
  deriving DecidableEq, Repr

/-- Nobody takes native coin from `self`, but anyone may force some in. The same holds of a
well-behaved token. Everything else may change at will. -/
def Outside.apply (c : Chain Addr) (w : World Addr σ Ev) : Outside Addr → World Addr σ Ev
  | .setNative a n =>
    { w with native := update w.native a (if a = c.self then max (w.native a) n else n) }
  | .setToken t a n =>
    { w with tokens := update w.tokens t (update (w.tokens t) a
        (if a = c.self ∧ c.honest t then max (w.tokens t a) n else n)) }
  | .setCode a b => { w with code := update w.code a b }

end Ledger

/-! ## Calls and scripts -/

/-- How a callee ends: `ok = false` is a revert or an exhausted stipend. -/
structure Answer where
  ok : Bool
  ret : ReturnData
  deriving DecidableEq, Repr

/-- A message to the contract at `me`. No code but the contract's own sends as `me`. -/
structure Msg {Addr : Type} (me : Addr) (κ : Type) where
  sender : {a : Addr // a ≠ me}
  value : Nat
  call : κ
  /-- `gasleft()` where the contract reads it. -/
  gasLeft : Nat
  /-- Gas that a bounded child frame of this call needs to finish. -/
  attemptGas : Nat
  /-- The answers of a token's `balanceOf` before and after the token is called. -/
  readBefore : Option ReturnData
  readAfter : Option ReturnData
  /-- The answer of the untrusted account this call reaches. -/
  answer : Answer

/-- What untrusted code does while it runs. A nested message has its own script: what the account
it reaches does before and after value moves. -/
inductive Action {Addr : Type} (me : Addr) (κ : Type)
  | outside (o : Outside Addr)
  | reenter (msg : Msg me κ) (pre post : List (Action me κ))

/-- Untrusted code as the contract meets it. -/
structure Callee (W : Type) where
  pre : W → W
  post : W → W
  answer : Answer

/-- The call context of one message. -/
structure Frame (Addr W : Type) where
  sender : Addr
  value : Nat
  timestamp : Nat
  gasLeft : Nat
  attemptGas : Nat
  readBefore : Option ReturnData
  readAfter : Option ReturnData
  callee : Callee W

section Calls

variable {Addr σ Ev : Type} [DecidableEq Addr]

/-- `dst.call{value: amount}("")`. The contract itself has no receive function. -/
def callNative (c : Chain Addr) (k : Callee (World Addr σ Ev)) (dst : Addr) (amount : Nat)
    (w : World Addr σ Ev) : Option (World Addr σ Ev) :=
  if dst = c.self ∨ k.answer.ok = false then none
  else (w.moveNative c.self dst amount).map fun w' => k.post (k.pre w')

/-- `token.call(data)`, where `effect` is what `data` asks for. A well-behaved token has the
effect exactly when it reports success. The contract itself has no token functions. -/
def callToken (c : Chain Addr) (k : Callee (World Addr σ Ev)) (token : Addr)
    (effect : World Addr σ Ev → Option (World Addr σ Ev)) (w : World Addr σ Ev) :
    Option (ReturnData × World Addr σ Ev) :=
  if token = c.self ∨ k.answer.ok = false then none
  else if c.honest token ∧ k.answer.ret.reportsSuccess then
    (effect (k.pre w)).map fun w' => (k.answer.ret, k.post w')
  else some (k.answer.ret, k.post (k.pre w))

/-- `token.staticcall(balanceOf(self))`. A well-behaved token tells the truth when it answers. -/
def balanceOf (c : Chain Addr) (token : Addr) (read : Option ReturnData) (w : World Addr σ Ev) :
    Option ReturnData :=
  if token = c.self then none
  else if c.honest token then read.map fun _ => .word (w.tokens token c.self)
  else read

/-- The code of a contract: what a message does to the world, or why it reverts. -/
abbrev Code (Addr σ Ev κ ε : Type) :=
  Frame Addr (World Addr σ Ev) → κ → World Addr σ Ev → Except ε (World Addr σ Ev)

/-! ## Running untrusted code -/

section Interpreter

variable {κ ε : Type} (c : Chain Addr) (code : Code Addr σ Ev κ ε)

/-- A message from outside: it takes effect, or it reverts and changes nothing. -/
def perform (f : Frame Addr (World Addr σ Ev)) (call : κ) (w : World Addr σ Ev) :
    World Addr σ Ev :=
  match code f call w with
  | .ok w' => w'
  | .error _ => w

def Msg.frame (m : Msg c.self κ) (timestamp : Nat) (callee : Callee (World Addr σ Ev)) :
    Frame Addr (World Addr σ Ev) where
  sender := m.sender
  value := m.value
  timestamp := timestamp
  gasLeft := m.gasLeft
  attemptGas := m.attemptGas
  readBefore := m.readBefore
  readAfter := m.readAfter
  callee := callee

mutual

/-- One action of untrusted code in a block at `timestamp`. -/
def act (timestamp : Nat) (w : World Addr σ Ev) : Action c.self κ → World Addr σ Ev
  | .outside o => o.apply c w
  | .reenter m pre post =>
    perform code
      (m.frame c timestamp ⟨fun w => acts timestamp w pre, fun w => acts timestamp w post,
        m.answer⟩)
      m.call w

def acts (timestamp : Nat) (w : World Addr σ Ev) : List (Action c.self κ) → World Addr σ Ev
  | [] => w
  | a :: as => acts timestamp (act timestamp w a) as

end

/-- What a block may bring: a message with the script of the code it reaches, or a move of the
outside world. -/
inductive Input (c : Chain Addr) (κ : Type)
  | call (timestamp : Nat) (msg : Msg c.self κ) (pre post : List (Action c.self κ))
  | outside (o : Outside Addr)

/-- The call context of a top-level message with its script. -/
def inputFrame (timestamp : Nat) (msg : Msg c.self κ) (pre post : List (Action c.self κ)) :
    Frame Addr (World Addr σ Ev) :=
  msg.frame c timestamp
    ⟨fun w => acts c code timestamp w pre, fun w => acts c code timestamp w post, msg.answer⟩

def step (w : World Addr σ Ev) : Input c κ → World Addr σ Ev
  | .call t m pre post => perform code (inputFrame c code t m pre post) m.call w
  | .outside o => o.apply c w

end Interpreter

/-! ## The lock -/

section Guard

variable {κ ε : Type} {c : Chain Addr} {code : Code Addr σ Ev κ ε} {locked : σ → Prop}

/-- Nothing the contract owns has changed or shrunk. -/
structure Untouched (c : Chain Addr) (w w' : World Addr σ Ev) : Prop where
  storage : w'.storage = w.storage
  log : w'.log = w.log
  native : w.native c.self ≤ w'.native c.self
  tokens : ∀ t, c.honest t = true → w.tokens t c.self ≤ w'.tokens t c.self

omit [DecidableEq Addr] in
theorem Untouched.refl (w : World Addr σ Ev) : Untouched c w w :=
  ⟨rfl, rfl, le_refl _, fun _ _ => le_refl _⟩

omit [DecidableEq Addr] in
theorem Untouched.trans {a b d : World Addr σ Ev} (h : Untouched c a b) (h' : Untouched c b d) :
    Untouched c a d :=
  ⟨h'.storage.trans h.storage, h'.log.trans h.log, h.native.trans h'.native,
    fun t ht => (h.tokens t ht).trans (h'.tokens t ht)⟩

theorem outside_untouched (w : World Addr σ Ev) (o : Outside Addr) :
    Untouched c w (o.apply c w) := by
  cases o with
  | setNative a n =>
    refine ⟨rfl, rfl, ?_, fun _ _ => le_refl _⟩
    by_cases h : c.self = a
    · subst h; simp [Outside.apply]
    · simp [Outside.apply, update_of_ne h]
  | setToken t a n =>
    refine ⟨rfl, rfl, le_refl _, fun u hu => ?_⟩
    by_cases ht : u = t
    · subst ht
      by_cases h : c.self = a
      · subst h; simp [Outside.apply, hu]
      · simp [Outside.apply, update_of_ne h]
    · simp [Outside.apply, update_of_ne ht]
  | setCode a b => exact ⟨rfl, rfl, le_refl _, fun _ _ => le_refl _⟩

/-- While the lock is taken, a message from anyone else either reverts or changes nothing. -/
def Guarded (c : Chain Addr) (code : Code Addr σ Ev κ ε) (locked : σ → Prop) : Prop :=
  ∀ f call w w', f.sender ≠ c.self → locked w.storage → code f call w = .ok w' → w' = w

/-- The moves of the outside world, one after the other. -/
def outsides (c : Chain Addr) (os : List (Outside Addr)) (w : World Addr σ Ev) : World Addr σ Ev :=
  os.foldl (fun w o => o.apply c w) w

theorem outsides_append (os ps : List (Outside Addr)) (w : World Addr σ Ev) :
    outsides c (os ++ ps) w = outsides c ps (outsides c os w) :=
  List.foldl_append

omit [DecidableEq Addr] in
theorem perform_of_guarded (hg : Guarded c code locked) {f : Frame Addr (World Addr σ Ev)}
    (hs : f.sender ≠ c.self) (call : κ) {w : World Addr σ Ev} (hl : locked w.storage) :
    perform code f call w = w := by
  unfold perform
  split
  · rename_i w' hw
    exact hg f call w w' hs hl hw
  · rfl

/-- The moves of the outside world in a script. -/
def outsideMoves {me : Addr} : List (Action me κ) → List (Outside Addr)
  | [] => []
  | .outside o :: as => o :: outsideMoves as
  | .reenter .. :: as => outsideMoves as

/-- Re-entering a locked contract does nothing: only the outside moves of a script remain. -/
theorem acts_of_guarded (hg : Guarded c code locked) (t : Nat) (as : List (Action c.self κ))
    {w : World Addr σ Ev} (hl : locked w.storage) :
    acts c code t w as = outsides c (outsideMoves as) w := by
  induction as generalizing w with
  | nil => rfl
  | cons a as ih =>
    cases a with
    | outside o =>
      simp only [acts, act, outsideMoves, outsides, List.foldl_cons]
      exact ih (by rw [(outside_untouched w o).storage]; exact hl)
    | reenter m pre post =>
      simp only [acts, act, outsideMoves]
      rw [perform_of_guarded hg m.sender.2 m.call hl]
      exact ih hl

theorem outsides_untouched (os : List (Outside Addr)) (w : World Addr σ Ev) :
    Untouched c w (outsides c os w) := by
  induction os generalizing w with
  | nil => exact .refl w
  | cons o os ih => exact (outside_untouched w o).trans (ih _)

theorem outsides_storage (os : List (Outside Addr)) (w : World Addr σ Ev) :
    (outsides c os w).storage = w.storage :=
  (outsides_untouched os w).storage

/-- The two worlds hold the same balances. -/
structure SameLedgers (w w' : World Addr σ Ev) : Prop where
  native : w'.native = w.native
  tokens : w'.tokens = w.tokens

omit [DecidableEq Addr] in
theorem SameLedgers.trans {u v w : World Addr σ Ev} (h : SameLedgers u v) (h' : SameLedgers v w) :
    SameLedgers u w :=
  ⟨h'.native.trans h.native, h'.tokens.trans h.tokens⟩

omit [DecidableEq Addr] in
theorem SameLedgers.symm {w w' : World Addr σ Ev} (h : SameLedgers w w') : SameLedgers w' w :=
  ⟨h.native.symm, h.tokens.symm⟩

theorem SameLedgers.balanceOf {w w' : World Addr σ Ev} (h : SameLedgers w w') (token : Addr)
    (read : Option ReturnData) : balanceOf c token read w' = Lib.Evm.balanceOf c token read w := by
  simp only [Lib.Evm.balanceOf, h.tokens]

theorem SameLedgers.outside {w w' : World Addr σ Ev} (h : SameLedgers w w') (o : Outside Addr) :
    SameLedgers (o.apply c w) (o.apply c w') := by
  cases o with
  | setNative a n => exact ⟨by simp only [Outside.apply, h.native], h.tokens⟩
  | setToken t a n => exact ⟨h.native, by simp only [Outside.apply, h.tokens]⟩
  | setCode a b => exact ⟨h.native, h.tokens⟩

theorem SameLedgers.outsides {w w' : World Addr σ Ev} (h : SameLedgers w w')
    (os : List (Outside Addr)) : SameLedgers (outsides c os w) (Lib.Evm.outsides c os w') := by
  induction os generalizing w w' with
  | nil => exact h
  | cons o os ih => exact ih (h.outside o)

/-- Untrusted code that leaves a locked contract alone. -/
structure Tame (c : Chain Addr) (locked : σ → Prop) (k : Callee (World Addr σ Ev)) : Prop where
  pre : ∀ w, locked w.storage → Untouched c w (k.pre w)
  post : ∀ w, locked w.storage → Untouched c w (k.post w)

/-- Code that makes the listed outside moves when it meets a locked contract. -/
structure Scripted (c : Chain Addr) (locked : σ → Prop) (k : Callee (World Addr σ Ev))
    (pre post : List (Outside Addr)) : Prop where
  pre : ∀ w, locked w.storage → k.pre w = outsides c pre w
  post : ∀ w, locked w.storage → k.post w = outsides c post w

theorem Scripted.tame {k : Callee (World Addr σ Ev)} {pre post : List (Outside Addr)}
    (h : Scripted c locked k pre post) : Tame c locked k :=
  ⟨fun w hl => by rw [h.pre w hl]; exact outsides_untouched pre w,
    fun w hl => by rw [h.post w hl]; exact outsides_untouched post w⟩

theorem inputFrame_scripted (hg : Guarded c code locked) (t : Nat) (m : Msg c.self κ)
    (pre post : List (Action c.self κ)) :
    Scripted c locked (inputFrame c code t m pre post).callee (outsideMoves pre)
      (outsideMoves post) :=
  ⟨fun _ hl => acts_of_guarded hg t pre hl, fun _ hl => acts_of_guarded hg t post hl⟩

/-- The untrusted side of one call to a locked contract: what it does before and after value
moves, and what it says of balances. -/
structure Script (Addr : Type) where
  pre : List (Outside Addr)
  post : List (Outside Addr)
  readBefore : Option ReturnData
  readAfter : Option ReturnData

/-- A message with its actions, as a contract that is locked meets them. -/
def Msg.script (m : Msg c.self κ) (pre post : List (Action c.self κ)) : Script Addr where
  pre := outsideMoves pre
  post := outsideMoves post
  readBefore := m.readBefore
  readAfter := m.readAfter

/-- A call context whose untrusted side keeps to the script. -/
structure Follows (c : Chain Addr) (locked : σ → Prop) (x : Frame Addr (World Addr σ Ev))
    (s : Script Addr) : Prop where
  callee : Scripted c locked x.callee s.pre s.post
  readBefore : x.readBefore = s.readBefore
  readAfter : x.readAfter = s.readAfter

theorem inputFrame_follows (hg : Guarded c code locked) (t : Nat) (m : Msg c.self κ)
    (pre post : List (Action c.self κ)) :
    Follows c locked (inputFrame c code t m pre post) (m.script pre post) :=
  ⟨inputFrame_scripted hg t m pre post, rfl, rfl⟩

/-! ## What one call leaves behind -/

/-- As `Untouched`, except for what `self` holds of one token. -/
structure UntouchedBut (c : Chain Addr) (token : Addr) (w w' : World Addr σ Ev) : Prop where
  storage : w'.storage = w.storage
  log : w'.log = w.log
  native : w.native c.self ≤ w'.native c.self
  tokens : ∀ t, t ≠ token → c.honest t = true → w.tokens t c.self ≤ w'.tokens t c.self

omit [DecidableEq Addr] in
theorem Untouched.but {w w' : World Addr σ Ev} (h : Untouched c w w') (token : Addr) :
    UntouchedBut c token w w' :=
  ⟨h.storage, h.log, h.native, fun t _ ht => h.tokens t ht⟩

omit [DecidableEq Addr] in
theorem UntouchedBut.trans {token : Addr} {a b e : World Addr σ Ev}
    (h : UntouchedBut c token a b) (h' : UntouchedBut c token b e) : UntouchedBut c token a e :=
  ⟨h'.storage.trans h.storage, h'.log.trans h.log, h.native.trans h'.native,
    fun t hne ht => (h.tokens t hne ht).trans (h'.tokens t hne ht)⟩

theorem transfer_eq_some {ledger l : Addr → Nat} {src dst : Addr} {amount : Nat}
    (h : transfer ledger src dst amount = some l) :
    amount ≤ ledger src ∧
      l = update (update ledger src (ledger src - amount)) dst
        (update ledger src (ledger src - amount) dst + amount) := by
  unfold transfer at h
  split at h
  · cases h
  · exact ⟨by omega, (Option.some.inj h).symm⟩

theorem transfer_apply {ledger l : Addr → Nat} {src dst : Addr} {amount : Nat} (hne : src ≠ dst)
    (h : transfer ledger src dst amount = some l) :
    l src + amount = ledger src ∧ l dst = ledger dst + amount := by
  obtain ⟨hle, rfl⟩ := transfer_eq_some h
  rw [update_of_ne hne, update_self, update_self, update_of_ne hne.symm]
  exact ⟨by omega, rfl⟩

/-- `amount` goes from one account of a ledger to another, and no other account changes. -/
structure Transferred (src dst : Addr) (amount : Nat) (ledger ledger' : Addr → Nat) : Prop where
  debit : ledger' src + amount = ledger src
  credit : ledger' dst = ledger dst + amount
  others : ∀ a, a ≠ src → a ≠ dst → ledger' a = ledger a

theorem transfer_self {ledger l : Addr → Nat} {a : Addr} {amount : Nat}
    (h : transfer ledger a a amount = some l) : l = ledger := by
  obtain ⟨hle, rfl⟩ := transfer_eq_some h
  rw [update_self, update_idem, Nat.sub_add_cancel hle, update_eq_self]

theorem transfer_transferred {ledger l : Addr → Nat} {src dst : Addr} {amount : Nat}
    (hself : src = dst → amount = 0) (h : transfer ledger src dst amount = some l) :
    Transferred src dst amount ledger l := by
  by_cases hne : src = dst
  · subst hne
    obtain rfl := hself rfl
    rw [transfer_self h]
    exact ⟨rfl, rfl, fun _ _ _ => rfl⟩
  · obtain ⟨hdebit, hcredit⟩ := transfer_apply hne h
    refine ⟨hdebit, hcredit, fun a hs hd => ?_⟩
    obtain ⟨-, rfl⟩ := transfer_eq_some h
    rw [update_of_ne hd, update_of_ne hs]

theorem moveToken_self {w w' : World Addr σ Ev} {token a : Addr} {amount : Nat}
    (h : w.moveToken token a a amount = some w') : w'.tokens = w.tokens := by
  simp only [World.moveToken, Option.map_eq_some_iff] at h
  obtain ⟨l, hl, rfl⟩ := h
  rw [transfer_self hl, update_eq_self]

theorem moveToken_untouchedBut {w w' : World Addr σ Ev} {token src dst : Addr} {amount : Nat}
    (h : w.moveToken token src dst amount = some w') : UntouchedBut c token w w' := by
  simp only [World.moveToken, Option.map_eq_some_iff] at h
  obtain ⟨l, -, rfl⟩ := h
  exact ⟨rfl, rfl, le_refl _, fun t hne _ => by simp [update_of_ne hne]⟩

theorem callNative_spec {k : Callee (World Addr σ Ev)} {w w' : World Addr σ Ev} {dst : Addr}
    {amount : Nat} {pre post : List (Outside Addr)} (hk : Scripted c locked k pre post)
    (hl : locked w.storage) (h : callNative c k dst amount w = some w') :
    dst ≠ c.self ∧ ∃ l, transfer w.native c.self dst amount = some l ∧
      w' = outsides c (pre ++ post) { w with native := l } := by
  unfold callNative at h
  split at h
  · cases h
  rename_i hguard
  simp only [World.moveNative, Option.map_map, Option.map_eq_some_iff, comp_apply] at h
  obtain ⟨l, hl', rfl⟩ := h
  have hlocked : locked (outsides c pre { w with native := l }).storage := by
    rw [outsides_storage]; exact hl
  refine ⟨fun e => hguard (.inl e), l, hl', ?_⟩
  rw [outsides_append, hk.pre { w with native := l } hl, hk.post _ hlocked]

theorem callToken_honest {k : Callee (World Addr σ Ev)} {w w' : World Addr σ Ev} {token : Addr}
    {effect : World Addr σ Ev → Option (World Addr σ Ev)} {ret : ReturnData}
    {pre post : List (Outside Addr)} (hk : Scripted c locked k pre post) (hl : locked w.storage)
    (heffect : ∀ a b, effect a = some b → b.storage = a.storage)
    (ht : c.honest token = true) (hret : ret.reportsSuccess = true)
    (h : callToken c k token effect w = some (ret, w')) :
    ∃ u, effect (outsides c pre w) = some u ∧ w' = outsides c post u := by
  unfold callToken at h
  split at h
  · cases h
  split at h
  · simp only [Option.map_eq_some_iff] at h
    obtain ⟨u, hu, heq⟩ := h
    obtain ⟨-, rfl⟩ := Prod.mk.inj heq
    rw [hk.pre w hl] at hu
    have hlocked : locked u.storage := by
      rw [heffect _ _ hu, outsides_storage]; exact hl
    exact ⟨u, hu, hk.post u hlocked⟩
  · rename_i hno
    obtain ⟨heq, -⟩ := Prod.mk.inj (Option.some.inj h)
    exact absurd ⟨ht, heq ▸ hret⟩ hno

theorem callToken_dishonest {k : Callee (World Addr σ Ev)} {w w' : World Addr σ Ev} {token : Addr}
    {effect : World Addr σ Ev → Option (World Addr σ Ev)} {ret : ReturnData}
    {pre post : List (Outside Addr)} (hk : Scripted c locked k pre post) (hl : locked w.storage)
    (ht : c.honest token = false) (h : callToken c k token effect w = some (ret, w')) :
    w' = outsides c (pre ++ post) w := by
  unfold callToken at h
  split at h
  · cases h
  rw [if_neg (by simp [ht])] at h
  obtain ⟨-, rfl⟩ := Prod.mk.inj (Option.some.inj h)
  rw [outsides_append, hk.pre w hl, hk.post _ (by rw [outsides_storage]; exact hl)]

theorem callToken_spec {k : Callee (World Addr σ Ev)} {w w' : World Addr σ Ev} {token : Addr}
    {effect : World Addr σ Ev → Option (World Addr σ Ev)} {ret : ReturnData}
    (heffect : ∀ a b, effect a = some b → UntouchedBut c token a b)
    (hk : Tame c locked k) (hl : locked w.storage)
    (h : callToken c k token effect w = some (ret, w')) : UntouchedBut c token w w' := by
  unfold callToken at h
  have hpre := hk.pre w hl
  have hl₁ : locked (k.pre w).storage := by rw [hpre.storage]; exact hl
  split at h
  · cases h
  split at h
  · simp only [Option.map_eq_some_iff] at h
    obtain ⟨v, hv, heq⟩ := h
    obtain ⟨-, rfl⟩ := Prod.mk.inj heq
    have hmove := heffect _ _ hv
    have hpost := hk.post v (by rw [hmove.storage]; exact hl₁)
    exact ((hpre.but token).trans hmove).trans (hpost.but token)
  · obtain ⟨-, rfl⟩ := Prod.mk.inj (Option.some.inj h)
    exact ((hpre.trans (hk.post _ hl₁)).but token)

theorem balanceOf_honest {token : Addr} {read : Option ReturnData} {w : World Addr σ Ev}
    {ret : ReturnData} (ht : c.honest token = true) (h : balanceOf c token read w = some ret) :
    ret = .word (w.tokens token c.self) := by
  unfold balanceOf at h
  split at h
  · cases h
  · simp only [Option.map_eq_some_iff] at h
    obtain ⟨-, -, rfl⟩ := h
    rfl

end Guard

end Calls

end Lib.Evm
