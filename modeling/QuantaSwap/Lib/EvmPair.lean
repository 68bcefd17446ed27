import Mathlib.Data.Option.Basic
import QuantaSwap.Lib.Evm

/-!
# Two contracts in the same world

The same script run against two contracts, each in its own copy of the world. As long as both are
locked, the script does the same to both copies.
-/

set_option autoImplicit false

namespace Lib.Evm

open Function

variable {Addr σ τ Ev : Type}

/-- The two copies agree on everything outside the contract, and `Q` relates storages and logs. -/
structure Paired (Q : σ → List Ev → τ → List Ev → Prop) (w : World Addr σ Ev)
    (v : World Addr τ Ev) : Prop where
  native : v.native = w.native
  tokens : v.tokens = w.tokens
  code : v.code = w.code
  own : Q w.storage w.log v.storage v.log

section

variable [DecidableEq Addr] {c : Chain Addr} {Q : σ → List Ev → τ → List Ev → Prop}
  {w : World Addr σ Ev} {v : World Addr τ Ev} {locked : σ → Prop} {locked' : τ → Prop}

omit [DecidableEq Addr] in
theorem Paired.emit {Q' : σ → List Ev → τ → List Ev → Prop} (h : Paired Q w v) (e e' : Ev)
    (hQ : Q w.storage w.log v.storage v.log →
      Q' w.storage (w.log ++ [e]) v.storage (v.log ++ [e'])) :
    Paired Q' (w.emit e) (v.emit e') :=
  ⟨h.native, h.tokens, h.code, hQ h.own⟩

theorem Paired.outside (h : Paired Q w v) (o : Outside Addr) :
    Paired Q (o.apply c w) (o.apply c v) := by
  cases o <;> exact ⟨by simp [Outside.apply, h.native], by simp [Outside.apply, h.tokens],
    by simp [Outside.apply, h.code], h.own⟩

theorem Paired.afterOutsides (h : Paired Q w v) (os : List (Outside Addr)) :
    Paired Q (outsides c os w) (outsides c os v) := by
  induction os generalizing w v with
  | nil => exact h
  | cons o os ih => exact ih (h.outside o)

theorem Paired.moveNative (h : Paired Q w v) (src dst : Addr) (amount : Nat) :
    Option.Rel (Paired Q) (w.moveNative src dst amount) (v.moveNative src dst amount) := by
  simp only [World.moveNative, h.native]
  cases transfer w.native src dst amount with
  | none => exact .none
  | some l => exact .some ⟨rfl, h.tokens, h.code, h.own⟩

theorem Paired.moveToken (h : Paired Q w v) (token src dst : Addr) (amount : Nat) :
    Option.Rel (Paired Q) (w.moveToken token src dst amount)
    (v.moveToken token src dst amount) := by
  simp only [World.moveToken, h.tokens]
  cases transfer (w.tokens token) src dst amount with
  | none => exact .none
  | some l => exact .some ⟨h.native, rfl, h.code, h.own⟩

theorem Paired.balanceOf (h : Paired Q w v) (token : Addr) (read : Option ReturnData) :
    balanceOf c token read v = balanceOf c token read w := by
  simp only [Lib.Evm.balanceOf, h.tokens]

variable {k : Callee (World Addr σ Ev)} {k' : Callee (World Addr τ Ev)}
  {pre post : List (Outside Addr)}

theorem Paired.callNative (h : Paired Q w v) (hk : Scripted c locked k pre post)
    (hk' : Scripted c locked' k' pre post) (ha : k'.answer = k.answer) (hl : locked w.storage)
    (hl' : locked' v.storage) (dst : Addr) (amount : Nat) :
    Option.Rel (Paired Q) (callNative c k dst amount w) (callNative c k' dst amount v) := by
  unfold Lib.Evm.callNative
  rw [ha]
  by_cases hno : dst = c.self ∨ k.answer.ok = false
  · rw [if_pos hno, if_pos hno]; exact .none
  rw [if_neg hno, if_neg hno]
  simp only [World.moveNative, h.native]
  cases transfer w.native c.self dst amount with
  | none => exact .none
  | some l =>
    refine .some ?_
    have hmoved : Paired Q { w with native := l } { v with native := l } :=
      ⟨rfl, h.tokens, h.code, h.own⟩
    simp only
    rw [hk.pre { w with native := l } hl, hk'.pre { v with native := l } hl',
      hk.post _ (by rw [outsides_storage]; exact hl),
      hk'.post _ (by rw [outsides_storage]; exact hl')]
    exact (hmoved.afterOutsides pre).afterOutsides post

theorem Paired.callToken (h : Paired Q w v) (hk : Scripted c locked k pre post)
    (hk' : Scripted c locked' k' pre post) (ha : k'.answer = k.answer) (hl : locked w.storage)
    (hl' : locked' v.storage) (token src dst : Addr) (amount : Nat) :
    Option.Rel (fun a b => a.1 = b.1 ∧ Paired Q a.2 b.2 ∧ a.2.storage = w.storage ∧
        b.2.storage = v.storage)
      (callToken c k token (fun w => w.moveToken token src dst amount) w)
      (callToken c k' token (fun w => w.moveToken token src dst amount) v) := by
  unfold Lib.Evm.callToken
  rw [ha]
  by_cases hno : token = c.self ∨ k.answer.ok = false
  · rw [if_pos hno, if_pos hno]; exact .none
  rw [if_neg hno, if_neg hno, hk.pre w hl, hk'.pre v hl']
  have hpre := h.afterOutsides (c := c) pre
  by_cases hyes : c.honest token = true ∧ k.answer.ret.reportsSuccess = true
  · rw [if_pos hyes, if_pos hyes]
    simp only [World.moveToken, hpre.tokens]
    cases transfer ((outsides c pre w).tokens token) src dst amount with
    | none => exact .none
    | some l =>
      refine .some ⟨rfl, ?_⟩
      simp only
      rw [hk.post _ (by simp only [outsides_storage]; exact hl),
        hk'.post _ (by simp only [outsides_storage]; exact hl')]
      have hmoved : Paired Q
          { outsides c pre w with tokens := update (outsides c pre w).tokens token l }
          { outsides c pre v with tokens := update (outsides c pre w).tokens token l } :=
        ⟨hpre.native, rfl, hpre.code, hpre.own⟩
      refine ⟨hmoved.afterOutsides post, ?_, ?_⟩
      · rw [outsides_storage]; exact outsides_storage pre w
      · rw [outsides_storage]; exact outsides_storage pre v
  · rw [if_neg hyes, if_neg hyes, hk.post _ (by rw [outsides_storage]; exact hl),
      hk'.post _ (by rw [outsides_storage]; exact hl')]
    exact .some ⟨rfl, hpre.afterOutsides post, by rw [outsides_storage, outsides_storage],
      by rw [outsides_storage, outsides_storage]⟩

end

end Lib.Evm
