import QuantaSwap.Lib.Run

/-!
# Fixed windows

A meter counts what it lets through in one window and begins again at zero in a later one. The clock
that names the windows may step back: an earlier window is counted in the latest one.
-/

set_option autoImplicit false

namespace Lib.Windows

open Lib.Run

structure Meter where
  window : Int
  count : ℕ

def Meter.turn (m : Meter) (w : Int) : Meter := if m.window < w then ⟨w, 0⟩ else m

/-- A call in the window `w` takes the meter from `m` to `m'`, and is let through only below the
limit. -/
structure Passes (limit : ℕ) (m : Meter) (w : Int) (through : Bool) (m' : Meter) : Prop where
  after : m' = ⟨(m.turn w).window, (m.turn w).count + through.toNat⟩
  below : through = true → (m.turn w).count < limit

variable {limit : ℕ} {m m' : Meter} {w first last : Int} {through : Bool}

theorem Passes.room (h : Passes limit m w through m') (hcount : m.count ≤ limit)
    (hlast : w ≤ last) :
    m.count + through.toNat + (last - m'.window).toNat * limit ≤
      m'.count + (last - m.window).toNat * limit := by
  obtain ⟨rfl, -⟩ := h
  unfold Meter.turn
  split
  · rename_i hlater
    have hfewer : (last - w).toNat + 1 ≤ (last - m.window).toNat := by omega
    have hroom := Nat.mul_le_mul_right limit hfewer
    rw [Nat.add_mul, Nat.one_mul] at hroom
    dsimp only
    omega
  · exact Nat.le_refl _

variable {σ ι : Type*} {step : σ → ι → σ} {takes : σ → ι → Bool} {inWindow : ι → Int → Prop}
  {meter : σ → Meter} {Kept : σ → Prop}

/-- How many inputs of a run are let through. -/
def taken (step : σ → ι → σ) (takes : σ → ι → Bool) : σ → List ι → ℕ
  | _, [] => 0
  | s, i :: is => (takes s i).toNat + taken step takes (step s i) is

/-- The meter of a state counts the inputs that `takes` lets through. -/
structure Metered (step : σ → ι → σ) (takes : σ → ι → Bool) (inWindow : ι → Int → Prop)
    (meter : σ → Meter)
    (limit : ℕ) (Kept : σ → Prop) : Prop where
  kept : ∀ s i, Kept s → Kept (step s i)
  counts : ∀ s, Kept s → (meter s).count ≤ limit
  passes : ∀ s i, Kept s →
    takes s i = false ∧ meter (step s i) = meter s ∨
      ∃ w, inWindow i w ∧ Passes limit (meter s) w (takes s i) (meter (step s i))

namespace Metered

theorem taken_add_le (h : Metered step takes inWindow meter limit Kept) {s : σ} (hs : Kept s)
    {is : List ι}
    (hlast : ∀ i ∈ is, ∀ w, inWindow i w → w ≤ last) :
    (meter s).count + taken step takes s is ≤ limit + (last - (meter s).window).toNat * limit := by
  induction is generalizing s with
  | nil => exact Nat.le_trans (h.counts s hs) (Nat.le_add_right _ _)
  | cons i is ih =>
    have hrest := ih (h.kept s i hs) fun j hj => hlast j (List.mem_cons_of_mem _ hj)
    rw [taken]
    rcases h.passes s i hs with ⟨htakes, hmeter⟩ | ⟨w, hw, hpass⟩
    · rw [hmeter] at hrest
      rw [htakes, Bool.toNat_false]
      omega
    · have hroom := hpass.room (h.counts s hs) (hlast i List.mem_cons_self w hw)
      omega

/-- As many limits as there are windows, wherever the meter is when the span begins. -/
theorem taken_le (h : Metered step takes inWindow meter limit Kept) {s : σ} (hs : Kept s)
    {is : List ι}
    (hspan : ∀ i ∈ is, ∀ w, inWindow i w → first ≤ w ∧ w ≤ last) :
    taken step takes s is ≤ (last + 1 - first).toNat * limit := by
  induction is generalizing s with
  | nil => exact Nat.zero_le _
  | cons i is ih =>
    have hrest : ∀ j ∈ is, ∀ w, inWindow j w → first ≤ w ∧ w ≤ last :=
      fun j hj => hspan j (List.mem_cons_of_mem _ hj)
    rw [taken]
    rcases h.passes s i hs with ⟨htakes, -⟩ | ⟨w, hw, hpass⟩
    · rw [htakes, Bool.toNat_false, Nat.zero_add]
      exact ih (h.kept s i hs) hrest
    · obtain ⟨hfirst, hlast⟩ := hspan i List.mem_cons_self w hw
      have hadd := h.taken_add_le (h.kept s i hs) fun j hj v hv => (hrest j hj v hv).2
      -- the meter is in the span now, and has counted this input
      obtain ⟨hwindow, hcount⟩ : w ≤ (meter (step s i)).window ∧
          (takes s i).toNat ≤ (meter (step s i)).count := by
        rw [hpass.after]
        unfold Meter.turn
        dsimp only
        split
        · exact ⟨Int.le_refl w, Nat.le_add_left _ _⟩
        · exact ⟨by omega, Nat.le_add_left _ _⟩
      have hwindows : (last - (meter (step s i)).window).toNat + 1 ≤ (last + 1 - first).toNat := by
        omega
      have hroom := Nat.mul_le_mul_right limit hwindows
      rw [Nat.add_mul, Nat.one_mul] at hroom
      omega

end Metered

end Lib.Windows
