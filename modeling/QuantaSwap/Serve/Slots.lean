import Mathlib.Algebra.Order.Ring.Rat
import Mathlib.Order.WithBot
import QuantaSwap.Serve.Cache

/-!
# The books of the slots

`FederationConcurrencyLimiter` of `server/src/federation-reset.ts`: how many requests are being
served, in all and for each source. The ledger stands for the closures that give a slot back.
-/

set_option autoImplicit false

namespace QuantaSwap.Serve

open Lib Lib.Js Lib.Permits

/-- A number that is not `NaN`. -/
abbrev Ceiling := WithBot (WithTop ℚ)

def ceilingOf (n : Int) : Ceiling := ((n : ℚ) : WithTop ℚ)

structure ConcurrencyLimiter where
  perSourceLimit : SafeInt
  globalLimit : SafeInt
  globalCount : Int := 0
  sourceCounts : Keyed String Int := .empty

namespace ConcurrencyLimiter

/-- The constructor, `none` when it throws. -/
def new (perSourceLimit globalLimit : Option Lib.Js.Num) : Option ConcurrencyLimiter := do
  let perSourceLimit ← positiveInteger (perSourceLimit.getD (.int 1))
  let globalLimit ← positiveInteger (globalLimit.getD (.int 2))
  return { perSourceLimit, globalLimit }

inductive Acquired where
  | thrown
  | refused
  | granted (l : ConcurrencyLimiter)

variable (l : ConcurrencyLimiter)

/-- A call may bring lower ceilings of its own. -/
def acquire (source : String) (perSource global : Option Ceiling) : Acquired :=
  let units := (Feed.codeUnits source).length
  if units < 1 ∨ 256 < units then .thrown
  else
    let perSourceLimit :=
      min (ceilingOf l.perSourceLimit.val) (perSource.getD (ceilingOf l.perSourceLimit.val))
    let globalLimit := min (ceilingOf l.globalLimit.val) (global.getD (ceilingOf l.globalLimit.val))
    let sourceCount := (l.sourceCounts.get source).getD 0
    if perSourceLimit ≤ ceilingOf sourceCount ∨ globalLimit ≤ ceilingOf l.globalCount then .refused
    else
      .granted { l with
        globalCount := l.globalCount + 1
        sourceCounts := l.sourceCounts.set source (sourceCount + 1) }

/-- What the first call of a closure does. -/
def release (source : String) : ConcurrencyLimiter :=
  let remaining := (l.sourceCounts.get source).getD 1 - 1
  { l with
    globalCount := l.globalCount - 1
    sourceCounts :=
      if remaining = 0 then l.sourceCounts.erase source else l.sourceCounts.set source remaining }

end ConcurrencyLimiter

structure Slots where
  limiter : ConcurrencyLimiter
  slots : Ledger String := []

inductive SlotCall where
  | acquire (source : String) (perSource global : Option Ceiling)
  | release (k : ℕ)

def Slots.step (s : Slots) : SlotCall → Slots
  | .acquire source perSource global =>
    match s.limiter.acquire source perSource global with
    | .granted limiter => ⟨limiter, issue s.slots source⟩
    | _ => s
  | .release k =>
    match outstanding s.slots k with
    | none => s
    | some source => ⟨s.limiter.release source, giveBack s.slots k⟩

def anySource (_ : String) : Bool := true

structure Slots.Kept (start : ConcurrencyLimiter) (s : Slots) : Prop where
  perSourceLimit : s.limiter.perSourceLimit = start.perSourceLimit
  globalLimit : s.limiter.globalLimit = start.globalLimit
  global : s.limiter.globalCount = held anySource s.slots
  globalBounded : s.limiter.globalCount ≤ start.globalLimit.val
  source : ∀ source, (s.limiter.sourceCounts.get source).getD 0 = held (· = source) s.slots
  sourceBounded : ∀ source, held (· = source) s.slots ≤ start.perSourceLimit.val

namespace Slots.Kept

variable {start : ConcurrencyLimiter} {s : Slots}

theorem lt_of_min {limit : Int} {own : Ceiling} {count : Int}
    (h : ¬min (ceilingOf limit) own ≤ ceilingOf count) : count < limit := by
  have hlt : ceilingOf count < ceilingOf limit := lt_of_lt_of_le (not_le.mp h) (min_le_left _ _)
  unfold ceilingOf at hlt
  exact_mod_cast hlt

theorem acquire (h : s.Kept start) (source : String) (perSource global : Option Ceiling) :
    (s.step (.acquire source perSource global)).Kept start := by
  unfold Slots.step
  dsimp only
  split
  · rename_i limiter hgranted
    unfold ConcurrencyLimiter.acquire at hgranted
    dsimp only at hgranted
    split at hgranted
    · cases hgranted
    split at hgranted
    · cases hgranted
    rename_i hroom
    cases hgranted
    rw [not_or] at hroom
    have hmine := lt_of_min hroom.1
    have hall := lt_of_min hroom.2
    rw [h.source, h.perSourceLimit] at hmine
    rw [h.globalLimit] at hall
    have hone : held anySource (issue s.slots source) = held anySource s.slots + 1 := held_issue
    have hglobal := h.global
    refine ⟨h.perSourceLimit, h.globalLimit, ?_, ?_, ?_, ?_⟩
    · dsimp only
      omega
    · dsimp only
      omega
    · intro other
      dsimp only
      rw [Keyed.get_set, held_issue, h.source]
      by_cases hother : other = source
      · subst hother
        simp
      · rw [if_neg hother, h.source, decide_eq_false (Ne.symm hother)]
        rfl
    · intro other
      dsimp only
      rw [held_issue]
      have hbounded := h.sourceBounded other
      split
      · rename_i heq
        obtain rfl := of_decide_eq_true heq
        omega
      · exact hbounded
  · exact h

theorem release (h : s.Kept start) (k : ℕ) : (s.step (.release k)).Kept start := by
  unfold Slots.step
  dsimp only
  split
  · exact h
  rename_i source hout
  have hone : held anySource s.slots = held anySource (giveBack s.slots k) + 1 := held_giveBack hout
  have hmine : held (· = source) s.slots = held (· = source) (giveBack s.slots k) + 1 := by
    rw [held_giveBack hout]
    simp
  have hglobal := h.global
  have hbounded := h.globalBounded
  have hsource := h.source source
  -- a source with a slot has an entry
  obtain ⟨count, hcount⟩ : ∃ count, s.limiter.sourceCounts.get source = some count := by
    cases hget : s.limiter.sourceCounts.get source with
    | none =>
      rw [hget, Option.getD_none] at hsource
      omega
    | some count => exact ⟨count, rfl⟩
  rw [hcount, Option.getD_some] at hsource
  unfold ConcurrencyLimiter.release
  rw [hcount, Option.getD_some]
  refine ⟨h.perSourceLimit, h.globalLimit, ?_, ?_, ?_, ?_⟩
  · dsimp only
    omega
  · dsimp only
    omega
  · intro other
    dsimp only
    have hothers := h.source other
    have hgive : held (· = other) s.slots =
        held (· = other) (giveBack s.slots k) + if decide (source = other) then 1 else 0 :=
      held_giveBack hout
    by_cases hother : other = source
    · subst hother
      split
      · rename_i hzero
        rw [Keyed.get_erase, if_pos rfl, Option.getD_none]
        omega
      · rw [Keyed.get_set, if_pos rfl, Option.getD_some]
        omega
    · rw [decide_eq_false (Ne.symm hother)] at hgive
      simp only [Bool.false_eq_true, if_false, Nat.add_zero] at hgive
      rw [← hgive, ← hothers]
      split
      · rw [Keyed.get_erase, if_neg hother]
      · rw [Keyed.get_set, if_neg hother]
  · intro other
    have hle : held (· = other) (giveBack s.slots k) ≤ held (· = other) s.slots :=
      held_giveBack_le hout
    have := h.sourceBounded other
    dsimp only
    omega

theorem step (h : s.Kept start) (call : SlotCall) : (s.step call).Kept start := by
  cases call with
  | acquire source perSource global => exact h.acquire source perSource global
  | release k => exact h.release k

theorem run (h : s.Kept start) (calls : List SlotCall) :
    (Lib.Run.run Slots.step s calls).Kept start := by
  induction calls generalizing s with
  | nil => exact h
  | cons call calls ih => exact ih (h.step call)

theorem new {perSourceLimit globalLimit : Option Lib.Js.Num}
    (h : ConcurrencyLimiter.new perSourceLimit globalLimit = some start) :
    (Slots.mk start []).Kept start := by
  unfold ConcurrencyLimiter.new at h
  obtain ⟨source, -, h⟩ := Option.bind_eq_some_iff.mp h
  obtain ⟨all, -, h⟩ := Option.bind_eq_some_iff.mp h
  cases h
  exact ⟨rfl, rfl, rfl, Int.natCast_nonneg _, fun _ => rfl, fun _ => Nat.zero_le _⟩

end Slots.Kept

/-! ## The cache and the limiter -/

variable {maxEntries maxBytes ttlMs perSourceLimit globalLimit : Option Lib.Js.Num}
  {c : ResponseCache}
  {l : ConcurrencyLimiter}

end QuantaSwap.Serve
