import Mathlib.Algebra.BigOperators.Group.List.Basic
import QuantaSwap.Lib.Windows
import QuantaSwap.Serve.Cache

/-!
# The windows of the federation routes

`FederationResetLimiter` of `server/src/federation-reset.ts`: how many snapshots and requests a
source may have in a fixed window, and all sources together.
-/

set_option autoImplicit false

namespace QuantaSwap.Serve

open Lib Lib.Js Lib.Windows

structure FederationResetLimiter where
  perSourceLimit : SafeInt
  globalLimit : SafeInt
  windowMs : SafeInt
  window : Int := -1
  globalCount : ℕ := 0
  sourceCounts : Keyed String ℕ := .empty

namespace FederationResetLimiter

/-- The constructor, `none` when it throws. -/
def new (perSourceLimit globalLimit windowMs : Option Lib.Js.Num) :
    Option FederationResetLimiter := do
  let perSourceLimit ← positiveInteger (perSourceLimit.getD (.int 4))
  let globalLimit ← positiveInteger (globalLimit.getD (.int 64))
  let windowMs ← positiveInteger (windowMs.getD (.int 60000))
  return { perSourceLimit, globalLimit, windowMs }

variable (l : FederationResetLimiter)

/-- Only a later window clears the counts. -/
def turn (window : Int) : FederationResetLimiter :=
  if l.window < window then { l with window, globalCount := 0, sourceCounts := .empty } else l

def countOf (source : String) : ℕ := (l.sourceCounts.get source).getD 0

def charge (source : String) : FederationResetLimiter :=
  { l with
    globalCount := l.globalCount + 1
    sourceCounts := l.sourceCounts.set source (l.countOf source + 1) }

/-- The quotient of two safe integers is never rounded up to an integer, so its floor is exact. -/
def windowOf (now : SafeInt) : Int := (now.val / l.windowMs.val : ℕ)

def allow (source : String) (now : Lib.Js.Num) : Except String (Bool × FederationResetLimiter) :=
  let units := (Feed.codeUnits source).length
  if units < 1 ∨ 256 < units then .error "federation reset source is invalid"
  else
    match now.toSafe? with
    | none => .error "federation reset time is invalid"
    | some now =>
      let l := l.turn (l.windowOf now)
      if l.globalLimit.val ≤ l.globalCount then .ok (false, l)
      else if l.perSourceLimit.val ≤ l.countOf source then .ok (false, l)
      else .ok (true, l.charge source)

end FederationResetLimiter

structure ResetCall where
  source : String
  now : Lib.Js.Num

namespace FederationResetLimiter

variable (l : FederationResetLimiter)

/-- The limiter after a call. A call that throws leaves it as it is. -/
def step (c : ResetCall) : FederationResetLimiter :=
  match l.allow c.source c.now with
  | .ok (_, after) => after
  | .error _ => l

/-- The call is let through. -/
def admits (c : ResetCall) : Bool :=
  match l.allow c.source c.now with
  | .ok (through, _) => through
  | .error _ => false

theorem turn_limits (window : Int) : (l.turn window).perSourceLimit = l.perSourceLimit ∧
    (l.turn window).globalLimit = l.globalLimit ∧ (l.turn window).windowMs = l.windowMs := by
  unfold turn
  split
  · exact ⟨rfl, rfl, rfl⟩
  · exact ⟨rfl, rfl, rfl⟩

theorem allow_cases (source : String) (now : Lib.Js.Num) :
    (∃ error, l.allow source now = .error error) ∨
      ∃ t turned, now.toSafe? = some t ∧ turned = l.turn (l.windowOf t) ∧
        (l.allow source now = .ok (false, turned) ∨
          l.allow source now = .ok (true, turned.charge source) ∧
            turned.globalCount < l.globalLimit.val ∧
            turned.countOf source < l.perSourceLimit.val) := by
  unfold allow
  dsimp only
  split
  · exact .inl ⟨_, rfl⟩
  cases hnow : now.toSafe? with
  | none => exact .inl ⟨_, rfl⟩
  | some t =>
    refine .inr ⟨t, l.turn (l.windowOf t), rfl, rfl, ?_⟩
    obtain ⟨hsource, hglobal, -⟩ := l.turn_limits (l.windowOf t)
    dsimp only
    rw [hglobal, hsource]
    split
    · exact .inl rfl
    rename_i hall
    split
    · exact .inl rfl
    · rename_i hmine
      exact .inr ⟨rfl, not_le.mp hall, not_le.mp hmine⟩

theorem step_cases (c : ResetCall) :
    l.admits c = false ∧ l.step c = l ∨
      ∃ now turned, c.now.toSafe? = some now ∧ turned = l.turn (l.windowOf now) ∧
        (l.admits c = false ∧ l.step c = turned ∨
          l.admits c = true ∧ l.step c = turned.charge c.source ∧
            turned.globalCount < l.globalLimit.val ∧
            turned.countOf c.source < l.perSourceLimit.val) := by
  unfold admits step
  rcases l.allow_cases c.source c.now with ⟨error, herror⟩ | ⟨now, turned, hnow, hturned, hcases⟩
  · rw [herror]
    exact .inl ⟨rfl, rfl⟩
  refine .inr ⟨now, turned, hnow, hturned, ?_⟩
  rcases hcases with hrefused | ⟨hadmitted, hlimits⟩
  · rw [hrefused]
    exact .inl ⟨rfl, rfl⟩
  · rw [hadmitted]
    exact .inr ⟨rfl, rfl, hlimits⟩

/-- The books of a limiter that began as `start`. -/
structure Kept (start l : FederationResetLimiter) : Prop where
  perSourceLimit : l.perSourceLimit = start.perSourceLimit
  globalLimit : l.globalLimit = start.globalLimit
  windowMs : l.windowMs = start.windowMs
  counted : l.sourceCounts.total id = l.globalCount
  global : l.globalCount ≤ start.globalLimit.val
  source : ∀ source, l.countOf source ≤ start.perSourceLimit.val
  positive : ∀ e ∈ l.sourceCounts.entries, 1 ≤ e.2

namespace Kept

variable {start l : FederationResetLimiter}

theorem turn (h : Kept start l) (window : Int) : Kept start (l.turn window) := by
  unfold FederationResetLimiter.turn
  split
  · exact ⟨h.perSourceLimit, h.globalLimit, h.windowMs, rfl, Nat.zero_le _, fun _ => Nat.zero_le _,
      fun _ he => by cases he⟩
  · exact h

theorem charge (h : Kept start l) {source : String}
    (hglobal : l.globalCount < start.globalLimit.val)
    (hsource : l.countOf source < start.perSourceLimit.val) : Kept start (l.charge source) := by
  refine ⟨h.perSourceLimit, h.globalLimit, h.windowMs, ?_, hglobal, ?_, ?_⟩
  · unfold FederationResetLimiter.charge FederationResetLimiter.countOf
    dsimp only
    have hcounted := h.counted
    cases hget : l.sourceCounts.get source with
    | none =>
      rw [Keyed.total_set_of_get_eq_none hget, hcounted]
      rfl
    | some n =>
      have hset := Keyed.total_set_of_get_eq_some id hget (n + 1)
      rw [Option.getD_some]
      dsimp only [id] at hset hcounted ⊢
      omega
  · intro other
    unfold FederationResetLimiter.charge
    unfold FederationResetLimiter.countOf
    dsimp only
    rw [Keyed.get_set]
    split
    · exact hsource
    · exact h.source other
  · rintro ⟨other, n⟩ he
    have hget := Keyed.mem_entries.mp he
    unfold FederationResetLimiter.charge at hget
    dsimp only at hget
    rw [Keyed.get_set] at hget
    split at hget
    · cases hget
      exact Nat.le_add_left 1 _
    · exact h.positive (other, n) (Keyed.mem_entries.mpr hget)

theorem step (h : Kept start l) (c : ResetCall) : Kept start (l.step c) := by
  rcases l.step_cases c with ⟨-, hstep⟩ | ⟨now, turned, -, hturned, hcases⟩
  · rw [hstep]
    exact h
  have hkept : Kept start turned := hturned ▸ h.turn _
  rcases hcases with ⟨-, hstep⟩ | ⟨-, hstep, hglobal, hsource⟩
  · rw [hstep]
    exact hkept
  · rw [hstep]
    rw [h.globalLimit] at hglobal
    rw [h.perSourceLimit] at hsource
    exact hkept.charge hglobal hsource

theorem run (h : Kept start l) (calls : List ResetCall) :
    Kept start (Lib.Run.run FederationResetLimiter.step l calls) :=
  Lib.Run.invariant (fun _ c hl => hl.step c) h calls

theorem sources_le (h : Kept start l) : l.sourceCounts.entries.length ≤ start.globalLimit.val := by
  have hlength : l.sourceCounts.entries.length ≤ l.sourceCounts.total id := by
    have := List.length_le_sum_of_one_le (l.sourceCounts.entries.map fun e => id e.2)
      (fun n hn => by
        obtain ⟨e, he, rfl⟩ := List.mem_map.mp hn
        exact h.positive e he)
    rwa [List.length_map] at this
  rw [h.counted] at hlength
  exact Nat.le_trans hlength h.global

theorem new {perSourceLimit globalLimit windowMs : Option Lib.Js.Num}
    (h : FederationResetLimiter.new perSourceLimit globalLimit windowMs = some start) :
    Kept start start := by
  unfold FederationResetLimiter.new at h
  obtain ⟨source, -, h⟩ := Option.bind_eq_some_iff.mp h
  obtain ⟨all, -, h⟩ := Option.bind_eq_some_iff.mp h
  obtain ⟨length, -, h⟩ := Option.bind_eq_some_iff.mp h
  cases h
  exact ⟨rfl, rfl, rfl, rfl, Nat.zero_le _, fun _ => Nat.zero_le _, fun _ he => by cases he⟩

end Kept

/-! ## The meters of a limiter -/

variable {start : FederationResetLimiter}

def globalMeter (l : FederationResetLimiter) : Meter := ⟨l.window, l.globalCount⟩

def sourceMeter (source : String) (l : FederationResetLimiter) : Meter :=
  ⟨l.window, l.countOf source⟩

theorem globalMeter_turn (window : Int) :
    (l.turn window).globalMeter = l.globalMeter.turn window := by
  unfold turn globalMeter Meter.turn
  dsimp only
  split
  · rfl
  · rfl

theorem sourceMeter_turn (source : String) (window : Int) :
    (l.turn window).sourceMeter source = (l.sourceMeter source).turn window := by
  unfold turn sourceMeter Meter.turn
  dsimp only
  split
  · rfl
  · rfl

/-- A call whose time lies in the window. -/
def InWindow (windowMs : SafeInt) (c : ResetCall) (window : Int) : Prop :=
  ∃ now, c.now.toSafe? = some now ∧ window = (now.val / windowMs.val : ℕ)

/-- The calls of one source that are let through. -/
def admitsOf (source : String) (l : FederationResetLimiter) (c : ResetCall) : Bool :=
  l.admits c && decide (c.source = source)

theorem metered_global (start : FederationResetLimiter) :
    Metered step admits (InWindow start.windowMs) globalMeter start.globalLimit.val
      (Kept start) where
  kept _ c h := h.step c
  counts _ h := h.global
  passes l c h := by
    rcases l.step_cases c with hthrown | ⟨now, turned, hnow, hturned, hcases⟩
    · exact .inl ⟨hthrown.1, by rw [hthrown.2]⟩
    have hmeter : turned.globalMeter = l.globalMeter.turn (l.windowOf now) := by
      rw [hturned, globalMeter_turn]
    refine .inr ⟨l.windowOf now, ⟨now, hnow, by rw [windowOf, h.windowMs]⟩, ?_⟩
    rcases hcases with ⟨hadmits, hstep⟩ | ⟨hadmits, hstep, hglobal, -⟩
    · rw [hadmits, hstep]
      exact ⟨hmeter, fun hno => by cases hno⟩
    · rw [hadmits, hstep, ← h.globalLimit]
      refine ⟨?_, fun _ => by rw [← hmeter]; exact hglobal⟩
      rw [← hmeter]
      rfl

theorem metered_source (start : FederationResetLimiter) (source : String) :
    Metered step (admitsOf source) (InWindow start.windowMs)
    (sourceMeter source) start.perSourceLimit.val
      (Kept start) where
  kept _ c h := h.step c
  counts _ h := h.source source
  passes l c h := by
    unfold admitsOf
    rcases l.step_cases c with hthrown | ⟨now, turned, hnow, hturned, hcases⟩
    · exact .inl ⟨by rw [hthrown.1, Bool.false_and], by rw [hthrown.2]⟩
    have hmeter : turned.sourceMeter source = (l.sourceMeter source).turn (l.windowOf now) := by
      rw [hturned, sourceMeter_turn]
    refine .inr ⟨l.windowOf now, ⟨now, hnow, by rw [windowOf, h.windowMs]⟩, ?_⟩
    rcases hcases with ⟨hadmits, hstep⟩ | ⟨hadmits, hstep, -, hmine⟩
    · rw [hadmits, hstep, Bool.false_and]
      exact ⟨hmeter, fun hno => by cases hno⟩
    rw [hadmits, hstep, Bool.true_and]
    by_cases hsource : c.source = source
    · subst hsource
      rw [decide_eq_true rfl, ← h.perSourceLimit]
      refine ⟨?_, fun _ => by rw [← hmeter]; exact hmine⟩
      rw [← hmeter]
      unfold sourceMeter charge countOf
      dsimp only
      rw [Keyed.get_set, if_pos rfl]
      rfl
    · -- another source's call leaves the count of this one
      rw [decide_eq_false hsource]
      refine ⟨?_, fun hno => by cases hno⟩
      rw [← hmeter]
      unfold sourceMeter charge countOf
      dsimp only
      rw [Keyed.get_set, if_neg (Ne.symm hsource)]
      rfl

/-! ## The main result -/

variable {perSourceLimit globalLimit windowMs : Option Lib.Js.Num}

/-- Whatever the clock did before and does between them, calls with times from `first` to `last` are
let through as often as the windows of these times allow. -/
theorem run_windowed (hnew : new perSourceLimit globalLimit windowMs = some start)
    (before during : List ResetCall) (first last : ℕ)
    (hspan : ∀ c ∈ during, ∀ now, c.now.toSafe? = some now → first ≤ now.val ∧ now.val ≤ last) :
    taken step admits (Lib.Run.run step start before) during ≤
        (last / start.windowMs.val + 1 - first / start.windowMs.val) * start.globalLimit.val ∧
      (∀ source, taken step (admitsOf source) (Lib.Run.run step start before) during ≤
        (last / start.windowMs.val + 1 - first / start.windowMs.val) * start.perSourceLimit.val) ∧
      (Lib.Run.run step start (before ++ during)).sourceCounts.entries.length ≤
        start.globalLimit.val := by
  have hkept := (Kept.new hnew).run before
  have hwindows : ∀ c ∈ during, ∀ w, InWindow start.windowMs c w →
      (first / start.windowMs.val : ℕ) ≤ w ∧ w ≤ (last / start.windowMs.val : ℕ) := by
    rintro c hc w ⟨now, hnow, rfl⟩
    obtain ⟨hfirst, hlast⟩ := hspan c hc now hnow
    exact ⟨Int.ofNat_le.mpr (Nat.div_le_div_right hfirst),
      Int.ofNat_le.mpr (Nat.div_le_div_right hlast)⟩
  have hcount :
    ((last / start.windowMs.val : ℕ) + 1 - (first / start.windowMs.val : ℕ) : Int).toNat =
      last / start.windowMs.val + 1 - first / start.windowMs.val := by omega
  refine ⟨?_, fun source => ?_, ((Kept.new hnew).run (before ++ during)).sources_le⟩
  · rw [← hcount]
    exact (metered_global start).taken_le hkept hwindows
  · rw [← hcount]
    exact (metered_source start source).taken_le hkept hwindows

theorem ten_safe : 10 ≤ maxSafeInteger := by decide

def sampleWindows : FederationResetLimiter where
  perSourceLimit := ⟨1, one_safe⟩
  globalLimit := ⟨2, two_safe⟩
  windowMs := ⟨10, ten_safe⟩

theorem new_sampleWindows :
    new (some (.int 1)) (some (.int 2)) (some (.int 10)) = some sampleWindows := rfl

/-- The clock steps back into a window that is over. -/
theorem run_windowed_stepping_back :
    taken step admits (Lib.Run.run step sampleWindows [⟨"a", .int 5⟩])
        [⟨"a", .int 12⟩, ⟨"a", .int 3⟩, ⟨"b", .int 14⟩] ≤ 2 * 2 ∧
      (∀ source, taken step (admitsOf source) (Lib.Run.run step sampleWindows [⟨"a", .int 5⟩])
        [⟨"a", .int 12⟩, ⟨"a", .int 3⟩, ⟨"b", .int 14⟩] ≤ 2 * 1) ∧
      (Lib.Run.run step sampleWindows
        [⟨"a", .int 5⟩, ⟨"a", .int 12⟩, ⟨"a", .int 3⟩,
          ⟨"b", .int 14⟩]).sourceCounts.entries.length ≤ 2 := by
  refine run_windowed new_sampleWindows [⟨"a", .int 5⟩] _ 3 14 ?_
  intro c hc now hnow
  simp only [List.mem_cons, List.not_mem_nil, or_false] at hc
  rcases hc with rfl | rfl | rfl
  · rw [toSafe?_int 12 (by decide) (by decide)] at hnow
    cases hnow
    exact ⟨by decide, by decide⟩
  · rw [toSafe?_int 3 (by decide) (by decide)] at hnow
    cases hnow
    exact ⟨by decide, by decide⟩
  · rw [toSafe?_int 14 (by decide) (by decide)] at hnow
    cases hnow
    exact ⟨by decide, by decide⟩

/-- A time of the first window is counted in the second. -/
example :
    taken step (admitsOf "a") sampleWindows
      [⟨"a", .int 12⟩, ⟨"a", .int 3⟩, ⟨"a", .int 19⟩, ⟨"a", .int 20⟩] = 2 := by
  decide

end FederationResetLimiter

end QuantaSwap.Serve
