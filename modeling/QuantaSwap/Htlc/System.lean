import QuantaSwap.Htlc.Effect

/-!
# HTLCv3 on its chain

The contract from deployment on: any accounts send it messages, each with the script of the
untrusted code it reaches, and the outside world moves in between.
-/

set_option autoImplicit false

open Lib.Evm

namespace QuantaSwap.Htlc.V3

variable {Addr Bytes32 : Type} [DecidableEq Addr] [DecidableEq Bytes32] [Zero Addr] [Zero Bytes32]

/-- One input: a message with its script, or a move of the outside world. -/
abbrev step (d : Deployment Addr Bytes32) (w : W Addr Bytes32)
    (i : Input d.toChain (Call Addr Bytes32)) : W Addr Bytes32 :=
  Lib.Evm.step d.toChain (code d) w i

/-- The world at deployment, with whatever the ledgers hold by then. -/
def genesis (native : Addr → Nat) (tokens : Addr → Addr → Nat) (deployed : Addr → Bool) :
    W Addr Bytes32 where
  storage := initial
  native := native
  tokens := tokens
  code := deployed
  log := []

/-- The worlds the contract can be in between two calls. -/
def Reachable (d : Deployment Addr Bytes32) (w : W Addr Bytes32) : Prop :=
  ∃ native tokens deployed is, Lib.Run.run (step d) (genesis native tokens deployed) is = w

variable {d : Deployment Addr Bytes32}

/-- The call context of a message from outside. -/
abbrev frame (d : Deployment Addr Bytes32) (t : Nat) (m : Msg d.self (Call Addr Bytes32))
    (pre post : List (Action d.self (Call Addr Bytes32))) : Ctx Addr Bytes32 :=
  inputFrame d.toChain (code d) t m pre post

/-- What the untrusted side does in a message from outside. -/
abbrev script (d : Deployment Addr Bytes32) (m : Msg d.self (Call Addr Bytes32))
    (pre post : List (Action d.self (Call Addr Bytes32))) : Script Addr :=
  Msg.script (c := d.toChain) m pre post

theorem frame_follows (t : Nat) (m : Msg d.self (Call Addr Bytes32))
    (pre post : List (Action d.self (Call Addr Bytes32))) :
    Follows d.toChain Entered (frame d t m pre post) (script d m pre post) :=
  inputFrame_follows (code_guarded d) t m pre post

theorem step_call (w : W Addr Bytes32) (t : Nat) (m : Msg d.self (Call Addr Bytes32))
    (pre post : List (Action d.self (Call Addr Bytes32))) :
    step d w (.call t m pre post) = w ∨
      Effect d (frame d t m pre post)
      (script d m pre post) w m.call (step d w (.call t m pre post)) := by
  cases hc : code d (frame d t m pre post) m.call w with
  | error e => left; simp [step, Lib.Evm.step, perform, hc]
  | ok w' =>
    right
    have hw : step d w (.call t m pre post) = w' := by simp [step, Lib.Evm.step, perform, hc]
    rw [hw]
    exact code_effect (frame_follows t m pre post) m.sender.2 hc

theorem step_keeps {I : W Addr Bytes32 → Prop}
    (outside : ∀ w w', Untouched d.toChain w w' → I w → I w')
    (effect : ∀ x s w call w', x.sender ≠ d.self → Effect d x s w call w' → I w → I w')
    (w : W Addr Bytes32) (i : Input d.toChain (Call Addr Bytes32)) (h : I w) :
    I (step d w i) := by
  cases i with
  | outside o => exact outside _ _ (outside_untouched w o) h
  | call t m pre post =>
    obtain heq | heff := step_call w t m pre post
    · rw [heq]; exact h
    · exact effect _ _ _ _ _ m.sender.2 heff h

/-- What holds at deployment and is kept by outside moves and by every effect holds for good. -/
theorem reachable_keeps {I : W Addr Bytes32 → Prop}
    (genesis : ∀ native tokens deployed, I (genesis native tokens deployed))
    (outside : ∀ w w', Untouched d.toChain w w' → I w → I w')
    (effect : ∀ x s w call w', x.sender ≠ d.self → Effect d x s w call w' → I w → I w')
    {w : W Addr Bytes32} (h : Reachable d w) : I w := by
  obtain ⟨native, tokens, deployed, is, rfl⟩ := h
  exact Lib.Run.invariant (step_keeps outside effect) (genesis native tokens deployed) is

theorem Reachable.genesis (native : Addr → Nat) (tokens : Addr → Addr → Nat)
    (deployed : Addr → Bool) : Reachable d (genesis native tokens deployed) :=
  ⟨native, tokens, deployed, [], rfl⟩

theorem Reachable.step {w : W Addr Bytes32} (h : Reachable d w)
    (i : Input d.toChain (Call Addr Bytes32)) : Reachable d (step d w i) := by
  obtain ⟨native, tokens, deployed, is, rfl⟩ := h
  exact ⟨native, tokens, deployed, is ++ [i], Lib.Run.run_snoc _ _ _ _⟩

/-! ## The lock between calls -/

theorem Effect.entered {x : Ctx Addr Bytes32} {s : Script Addr} {w w' : W Addr Bytes32}
    {call : Call Addr Bytes32} (h : Effect d x s w call w') :
    w'.storage.entered = w.storage.entered := by
  cases h with
  | view => rfl
  | lock _ _ _ _ _ _ _ storage => rw [storage]; rfl
  | assign => rfl
  | settle _ _ paid =>
    cases paid with
    | delivered storage => rw [storage]; rfl
    | credited _ _ eq => rw [eq]; rfl
  | withdraw _ _ _ _ storage => rw [storage]; rfl

theorem reachable_entered {w : W Addr Bytes32} (h : Reachable d w) : w.storage.entered = 1 := by
  refine reachable_keeps (I := fun w => w.storage.entered = 1) (fun _ _ _ => rfl) ?_ ?_ h
  · intro w w' hu hw
    rw [hu.storage]; exact hw
  · intro x s w call w' _ he hw
    rw [he.entered]; exact hw

/-! ## A small chain -/

/-- Four accounts, the last of them the contract; the hash adds one. -/
def small : Deployment (Fin 4) (Fin 4) where
  self := 3
  honest := fun _ => true
  sha256 := fun p => p + 1

/-- A message with plenty of gas. -/
def Msg.of (sender : Fin 3) (call : Call (Fin 4) (Fin 4)) (value : Nat) (answer : Answer) :
    Msg small.self (Call (Fin 4) (Fin 4)) where
  sender := ⟨sender.castSucc, by revert sender; decide⟩
  value := value
  call := call
  gasLeft := 1000000
  attemptGas := 30000
  readBefore := some .empty
  readAfter := some .empty
  answer := answer

/-- Account 1 locks 7 for account 2 under the hash of 2. -/
def smallLocked : W (Fin 4) (Fin 4) :=
  Lib.Run.run (step small) (genesis (fun _ => 100) (fun _ _ => 0) (fun _ => false))
    [.call 0 (Msg.of 1 (.lockNative 3 2 10) 7 ⟨true, .empty⟩) [] []]

theorem smallLocked_reachable : Reachable small smallLocked := ⟨_, _, _, _, rfl⟩

end QuantaSwap.Htlc.V3
