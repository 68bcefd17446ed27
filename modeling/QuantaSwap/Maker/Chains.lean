import QuantaSwap.Maker.Guard

/-!
# The chains around the daemon

What the moves of the chains cannot do without the maker: nobody locks under a hashlock that has not
left the process, nobody claims with a preimage that has not, and a lock of the maker's own comes
from a transaction that the daemon sent.
-/

set_option autoImplicit false
set_option linter.unusedSectionVars false

open Lib Lib.Evm Lib.Program QuantaSwap.Htlc QuantaSwap.Htlc.V3

namespace QuantaSwap.Maker.Daemon

section

variable {A B : Type} [DecidableEq A] [DecidableEq B] [Zero A] [Zero B] {cfg : Config A B}
  {w w' : World A B}

def Config.deployment (cfg : Config A B) : LegKey → Deployment A B
  | .eth => cfg.first
  | .qrl => cfg.second

theorem Config.deployment_sha256 (cfg : Config A B) (l : LegKey) :
    (cfg.deployment l).sha256 = cfg.sha256 := by
  cases l <;> rfl

/-- A leg keeps its records, or a call of somebody has one of its effects. -/
theorem Env.leg (h : Env cfg w w') (l : LegKey) :
    (w'.leg l).storage = (w.leg l).storage ∨
      ∃ x s call, Outsider cfg w l x.sender call x.value ∧
        Effect (cfg.deployment l) x s (w.leg l) call (w'.leg l) := by
  obtain ⟨i, hi, rfl⟩ := h
  cases i with
  | wait n => left; cases l <;> rfl
  | outside1 o =>
    left
    cases l with
    | eth => exact step_outside_storage _ _
    | qrl => rfl
  | outside2 o =>
    left
    cases l with
    | eth => rfl
    | qrl => exact step_outside_storage _ _
  | call1 m pre post =>
    cases l with
    | qrl => left; rfl
    | eth =>
      obtain heq | he := step_call (d := cfg.first) w.legs.leg1 w.legs.clock m pre post
      · left
        exact congrArg _ heq
      · right
        exact ⟨frame cfg.first w.legs.clock m pre post, script cfg.first m pre post, m.call, hi, he⟩
  | call2 m pre post =>
    cases l with
    | eth => left; rfl
    | qrl =>
      obtain heq | he := step_call (d := cfg.second) w.legs.leg2 w.legs.clock m pre post
      · left
        exact congrArg _ heq
      · right
        exact ⟨frame cfg.second w.legs.clock m pre post, script cfg.second m pre post,
          m.call, hi, he⟩

theorem Env.run (h : Relation.ReflTransGen (Env cfg) w w') :
    ∃ is, w' = { w with legs := Lib.Run.run (Legs.step cfg.toTwoChains) w.legs is } := by
  induction h with
  | refl => exact ⟨[], rfl⟩
  | tail _ hstep ih =>
    obtain ⟨is, rfl⟩ := ih
    obtain ⟨i, -, rfl⟩ := hstep
    refine ⟨is ++ [i], ?_⟩
    rw [Lib.Run.run_append]
    rfl

theorem run_extends_swap (w : World A B) (is : List (LegInput cfg.toTwoChains))
    (l : LegKey) (k : B) :
    Extends (w.swap l k)
      (World.swap { w with legs := Lib.Run.run (Legs.step cfg.toTwoChains) w.legs is } l k) := by
  cases l with
  | eth => exact Legs.run_extends₁ w.legs is
  | qrl => exact Legs.run_extends w.legs is

theorem Env.extends (h : Env cfg w w') (l : LegKey) (k : B) :
    Extends (w.swap l k) (w'.swap l k) := by
  obtain ⟨i, -, rfl⟩ := h
  exact run_extends_swap w [i] l k

theorem Env.hidden (h : Env cfg w w') {l : LegKey} {id : String} {p : B}
    (hs : (id, p) ∈ w.secrets) (hd : cfg.sha256 p ∉ w.disclosed)
    (hn : (w.swap l (cfg.sha256 p)).status = .None) :
    (w'.swap l (cfg.sha256 p)).status = .None := by
  obtain heq | ⟨x, s, call, ho, he⟩ := h.leg l
  · unfold World.swap
    rw [heq]
    exact hn
  · by_contra hne
    obtain ⟨_, _, _, _, _, hargs, -, -⟩ := he.locked hn hne
    exact hd (ho.locks _ hargs ⟨id, p, hs, rfl⟩)

theorem Env.unclaimed (h : Env cfg w w') {l : LegKey} {id : String} {p : B}
    (hs : (id, p) ∈ w.secrets) (hp : p ∉ w.published)
    (hn : (w.swap l (cfg.sha256 p)).status ≠ .Claimed) :
    (w'.swap l (cfg.sha256 p)).status ≠ .Claimed := by
  obtain heq | ⟨x, s, call, ho, he⟩ := h.leg l
  · unfold World.swap
    rw [heq]
    exact hn
  · intro hc
    obtain ⟨p', hcall, hp'⟩ := he.claimed hn hc
    rw [cfg.deployment_sha256] at hp'
    exact hp (ho.claims _ _ hcall hp' id p hs rfl)

theorem Env.own (h : Env cfg w w') {l : LegKey} {k : B}
    (hown : (w.swap l k).status ≠ .None → (w.swap l k).initiator = cfg.myAddress l →
      ∃ id call value args, (id, l, Tx.htlc call, value) ∈ w.sent ∧
        lockArgs value call = some args ∧ args.1 = k)
    (hn : (w'.swap l k).status ≠ .None) (hi : (w'.swap l k).initiator = cfg.myAddress l) :
    ∃ id call value args, (id, l, Tx.htlc call, value) ∈ w.sent ∧
      lockArgs value call = some args ∧ args.1 = k := by
  by_cases hnone : (w.swap l k).status = .None
  · obtain heq | ⟨x, s, call, ho, he⟩ := h.leg l
    · unfold World.swap at hn hnone
      rw [heq] at hn
      exact absurd hnone hn
    · obtain ⟨r, token, amount, timeout, isOpen, hargs, -, hrecord⟩ := he.locked hnone hn
      have hsender : x.sender = cfg.myAddress l := by
        unfold World.swap at hi
        rw [hrecord] at hi
        exact hi
      obtain ⟨id, hsent⟩ := ho.own hsender
      exact ⟨id, call, x.value, _, hsent, hargs, rfl⟩
  · refine hown hnone ?_
    rw [← hi]
    exact ((h.extends l k).terms hnone).1.symm

end

end QuantaSwap.Maker.Daemon
