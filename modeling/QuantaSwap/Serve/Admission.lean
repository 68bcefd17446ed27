import QuantaSwap.Lib.Json
import QuantaSwap.Lib.Permits
import QuantaSwap.Lib.Run

/-!
# The lanes of concurrent writes

`server/src/admission.ts`: which share of a bound a request may use, and `InflightWriteBound`, the
counter that hands those shares out. The ledger of the permits stands for the closures that callers
hold; a closure that is called again changes nothing.
-/

set_option autoImplicit false

namespace QuantaSwap.Serve

open Lib.Js Lib.Permits

inductive AdmissionLane where
  | maker
  | signedCreate
  | taker
  deriving DecidableEq, Repr

def SIGNED_CREATE_PATH : String := "/api/orders/signed"

/-- `MAKER_ORDER_PATH_RE`: the order that a write route names. -/
def makerOrderPath (path : String) : Option String :=
  match path.splitOn "/" with
  | ["", "api", "orders", id, route] =>
    if id ≠ "" ∧ route ∈ ["cancel", "fill", "hashlock"] then some id else none
  | ["", "api", "orders", id, "cancel", "signed"] => if id ≠ "" then some id else none
  | _ => none

/-- A token that is no string is none. -/
def admissionLane (path : String) (makerToken : Option String)
    (matchesCapability : String → String → Bool) : AdmissionLane :=
  if path = SIGNED_CREATE_PATH then .signedCreate
  else
    match makerOrderPath path with
    | none => .taker
    | some orderId =>
      match makerToken with
      | none => .taker
      | some token => if matchesCapability orderId token then .maker else .taker

def laneCeiling (lane : AdmissionLane) (total reserved : Int) : Int :=
  match lane with
  | .maker => total
  | .signedCreate => total - reserved + reserved / 2
  | .taker => total - reserved

structure InflightWriteBound where
  total : SafeInt
  reserved : SafeInt
  active : Int := 0
  positive : 1 ≤ total.val
  below : reserved.val < total.val
  deriving DecidableEq

namespace InflightWriteBound

/-- The constructor, `none` when it throws. -/
def new (total reserved : Lib.Js.Num) : Option InflightWriteBound := do
  let total ← total.toSafe?
  let reserved ← reserved.toSafe?
  if h : 1 ≤ total.val ∧ reserved.val < total.val then
    some { total, reserved, positive := h.1, below := h.2 }
  else none

variable (b : InflightWriteBound)

def ceilingFor (lane : AdmissionLane) : Int := laneCeiling lane b.total.val b.reserved.val

/-- `none` when the ceiling of the lane is reached. -/
def acquire (lane : AdmissionLane) : Option InflightWriteBound :=
  if b.ceilingFor lane ≤ b.active then none else some { b with active := b.active + 1 }

end InflightWriteBound

/-- A bound and the permits it has handed out. -/
structure Writes where
  bound : InflightWriteBound
  permits : Ledger AdmissionLane := []

inductive WriteCall where
  | acquire (lane : AdmissionLane)
  | release (k : ℕ)

/-- A permit that was given back, or never handed out, is released to no effect. -/
def Writes.step (w : Writes) : WriteCall → Writes
  | .acquire lane =>
    match w.bound.acquire lane with
    | none => w
    | some bound => ⟨bound, issue w.permits lane⟩
  | .release k =>
    match outstanding w.permits k with
    | none => w
    | some _ => ⟨{ w.bound with active := w.bound.active - 1 }, giveBack w.permits k⟩

/-! ## The books of a bound -/

def everyLane (_ : AdmissionLane) : Bool := true

/-- The writes of a lane other than the maker's. -/
def otherLanes (lane : AdmissionLane) : Bool := lane ≠ .maker

structure Writes.Kept (b : InflightWriteBound) (w : Writes) : Prop where
  total : w.bound.total = b.total
  reserved : w.bound.reserved = b.reserved
  active : w.bound.active = held everyLane w.permits
  bounded : w.bound.active ≤ b.total.val
  takers : held (· = .taker) w.permits ≤ b.ceilingFor .taker
  others : held otherLanes w.permits ≤ b.ceilingFor .signedCreate

namespace Writes.Kept

variable {b : InflightWriteBound} {w : Writes}

theorem ceilingFor_eq (h : w.Kept b) (lane : AdmissionLane) :
    w.bound.ceilingFor lane = b.ceilingFor lane := by
  unfold InflightWriteBound.ceilingFor
  rw [h.total, h.reserved]

theorem ceilingFor_le (b : InflightWriteBound) (lane : AdmissionLane) :
    b.ceilingFor lane ≤ b.total.val := by
  have := b.below
  unfold InflightWriteBound.ceilingFor laneCeiling
  cases lane <;> dsimp only <;> omega

theorem taker_le_signedCreate (b : InflightWriteBound) :
    b.ceilingFor .taker ≤ b.ceilingFor .signedCreate := by
  unfold InflightWriteBound.ceilingFor laneCeiling
  dsimp only
  omega

theorem acquire (h : w.Kept b) (lane : AdmissionLane) : (w.step (.acquire lane)).Kept b := by
  unfold Writes.step InflightWriteBound.acquire
  dsimp only
  split
  · exact h
  rename_i bound hacquire
  split at hacquire
  · cases hacquire
  rename_i hlt
  cases hacquire
  rw [h.ceilingFor_eq] at hlt
  have hall := h.active
  have hceiling := ceilingFor_le b lane
  refine ⟨h.total, h.reserved, ?_, ?_, ?_, ?_⟩
  · have : held everyLane (issue w.permits lane) = held everyLane w.permits + 1 := held_issue
    dsimp only
    omega
  · dsimp only
    omega
  · have htakers : held (· = .taker) w.permits ≤ held everyLane w.permits :=
      held_mono fun _ _ => rfl
    have hmine := h.takers
    dsimp only
    rw [held_issue]
    split
    · rename_i hlane
      obtain rfl : lane = .taker := of_decide_eq_true hlane
      omega
    · omega
  · have hothers : held otherLanes w.permits ≤ held everyLane w.permits := held_mono fun _ _ => rfl
    have hmine := h.others
    have hshared := taker_le_signedCreate b
    dsimp only
    rw [held_issue]
    split
    · rename_i hlane
      have hbelow : b.ceilingFor lane ≤ b.ceilingFor .signedCreate := by
        cases lane with
        | maker => cases hlane
        | signedCreate => exact Int.le_refl _
        | taker => exact hshared
      omega
    · omega

theorem release (h : w.Kept b) (k : ℕ) : (w.step (.release k)).Kept b := by
  unfold Writes.step
  dsimp only
  split
  · exact h
  rename_i lane hout
  have hall := h.active
  have hone : held everyLane w.permits = held everyLane (giveBack w.permits k) + 1 :=
    held_giveBack hout
  have hbounded := h.bounded
  refine ⟨h.total, h.reserved, ?_, ?_, ?_, ?_⟩
  · dsimp only
    omega
  · dsimp only
    omega
  · have hmine := h.takers
    have hle : held (· = .taker) (giveBack w.permits k) ≤ held (· = .taker) w.permits :=
      held_giveBack_le hout
    dsimp only
    omega
  · have hmine := h.others
    have hle : held otherLanes (giveBack w.permits k) ≤ held otherLanes w.permits :=
      held_giveBack_le hout
    dsimp only
    omega

theorem step (h : w.Kept b) (call : WriteCall) : (w.step call).Kept b := by
  cases call with
  | acquire lane => exact h.acquire lane
  | release k => exact h.release k

theorem run (h : w.Kept b) (calls : List WriteCall) : (Lib.Run.run Writes.step w calls).Kept b := by
  induction calls generalizing w with
  | nil => exact h
  | cons call calls ih => exact ih (h.step call)

end Writes.Kept

variable {total reserved : Lib.Js.Num} {b : InflightWriteBound}

theorem InflightWriteBound.active_of_new (h : InflightWriteBound.new total reserved = some b) :
    b.active = 0 := by
  unfold InflightWriteBound.new at h
  obtain ⟨t, -, h⟩ := Option.bind_eq_some_iff.mp h
  obtain ⟨r, -, h⟩ := Option.bind_eq_some_iff.mp h
  split at h
  · cases h
    rfl
  · cases h

theorem Writes.Kept.new (h : InflightWriteBound.new total reserved = some b) :
    (Writes.mk b []).Kept b := by
  have hactive := InflightWriteBound.active_of_new h
  have htaker := b.below
  refine ⟨rfl, rfl, hactive, ?_, ?_, ?_⟩
  · dsimp only
    omega
  · simp only [held_nil, InflightWriteBound.ceilingFor, laneCeiling]
    omega
  · simp only [held_nil, InflightWriteBound.ceilingFor, laneCeiling]
    omega

/-- The books of a bound after any calls: what is active is what is out, no lane is over its
ceiling, and a maker is refused by a full bound only. -/
theorem write_lanes_kept (h : InflightWriteBound.new total reserved = some b)
    (calls : List WriteCall) :
    let w := Lib.Run.run Writes.step ⟨b, []⟩ calls
    w.bound.active = held everyLane w.permits ∧ w.bound.active ≤ b.total.val ∧
      (∀ lane, lane ≠ .maker → held (· = lane) w.permits ≤ b.ceilingFor lane) ∧
      held otherLanes w.permits ≤ b.ceilingFor .signedCreate ∧
      (w.bound.acquire .maker = none → w.bound.active = b.total.val) := by
  have hkept := (Writes.Kept.new h).run calls
  refine ⟨hkept.active, hkept.bounded, ?_, hkept.others, ?_⟩
  · intro lane hlane
    cases lane with
    | maker => exact absurd rfl hlane
    | taker => exact hkept.takers
    | signedCreate =>
      have hothers := hkept.others
      have hle : held (· = .signedCreate) (Lib.Run.run Writes.step ⟨b, []⟩ calls).permits ≤
          held otherLanes (Lib.Run.run Writes.step ⟨b, []⟩ calls).permits := by
        apply held_mono
        intro lane heq
        rw [of_decide_eq_true heq]
        rfl
      omega
  · intro hrefused
    unfold InflightWriteBound.acquire at hrefused
    split at hrefused
    · rename_i hfull
      rw [hkept.ceilingFor_eq] at hfull
      have hbounded := hkept.bounded
      unfold InflightWriteBound.ceilingFor laneCeiling at hfull
      dsimp only at hfull
      omega
    · cases hrefused

def sampleBound : InflightWriteBound where
  total := ⟨2, two_safe⟩
  reserved := ⟨1, one_safe⟩
  positive := by decide
  below := by decide

theorem new_sampleBound : InflightWriteBound.new (.int 2) (.int 1) = some sampleBound := by decide

/-- A taker in the shared slot, a maker in the reserved one, and the taker's permit given back
twice. -/
theorem write_lanes_kept_sample :
    let w := Lib.Run.run Writes.step ⟨sampleBound, []⟩
      [.acquire .taker, .acquire .taker, .acquire .maker, .release 0, .release 0]
    w.bound.active = held everyLane w.permits ∧ w.bound.active ≤ 2 ∧
      (∀ lane, lane ≠ .maker → held (· = lane) w.permits ≤ laneCeiling lane 2 1) ∧
      held otherLanes w.permits ≤ laneCeiling .signedCreate 2 1 ∧
      (w.bound.acquire .maker = none → w.bound.active = 2) :=
  write_lanes_kept new_sampleBound _

/-! ## Lanes -/

theorem admissionLane_eq_maker {path : String} {makerToken : Option String}
    {matchesCapability : String → String → Bool} :
    admissionLane path makerToken matchesCapability = .maker ↔
      path ≠ SIGNED_CREATE_PATH ∧ ∃ orderId ∈ makerOrderPath path, ∃ token ∈ makerToken,
        matchesCapability orderId token = true := by
  unfold admissionLane
  constructor
  · intro h
    split at h
    · cases h
    rename_i hpath
    split at h
    · cases h
    rename_i orderId horder
    split at h
    · cases h
    split at h
    · rename_i token hmatch
      exact ⟨hpath, orderId, horder, token, rfl, hmatch⟩
    · cases h
  · rintro ⟨hpath, orderId, horder, token, htoken, hmatch⟩
    rw [Option.mem_def.mp horder, Option.mem_def.mp htoken, if_neg hpath]
    dsimp only
    rw [if_pos hmatch]

end QuantaSwap.Serve
