import Mathlib.Algebra.Order.Field.Basic
import Mathlib.Data.Int.Order.Lemmas
import Mathlib.Tactic.FieldSimp
import Mathlib.Tactic.NormNum
import Mathlib.Tactic.Ring
import QuantaSwap.Lib.Decimal
import QuantaSwap.Maker.Windows

/-!
# The price ladder

`levelQuote` of `marketmaker/src/policy.ts`, and what `loadConfig` lets through of the sizes, the
steps and the rungs it quotes.
-/

set_option autoImplicit false

open Lib Lib.Checks Lib.Text

namespace QuantaSwap.Maker.Ladder

open Daemon (Variables envInt)

/-! ## The assets -/

structure AssetInfo where
  decimals : Nat
  minBaseUnits : Nat
  /-- `priceIds` is there. -/
  priced : Bool

def assetInfo : AssetSymbol → AssetInfo
  | .ETH => ⟨18, 10 ^ 15, true⟩
  | .USDC => ⟨6, 10 ^ 6, true⟩
  | .tUSDT => ⟨6, 10 ^ 6, false⟩

def AssetSymbol.name : AssetSymbol → String
  | .ETH => "ETH"
  | .USDC => "USDC"
  | .tUSDT => "tUSDT"

def isAssetSymbol (value : String) : Option AssetSymbol :=
  [AssetSymbol.ETH, .USDC, .tUSDT].find? fun s => AssetSymbol.name s = value

/-- `symbol.toUpperCase()` -/
def upperName : AssetSymbol → String
  | .ETH => "ETH"
  | .USDC => "USDC"
  | .tUSDT => "TUSDT"

/-! ## The configuration -/

/-- The variables that are set and not empty: the numbers as `Number` reads them, the texts, and
`MM_ASSETS` split at its commas and trimmed. -/
structure Environment where
  numbers : Variables
  texts : String → Option String
  assets : Option (List String)

/-- `^[0-9]{1,30}$` -/
def envWei (texts : String → Option String) (name : String) (fallback : Nat) : Except String Nat :=
  match texts name with
  | none => .ok fallback
  | some raw =>
    if run 1 30 isDigit raw then .ok (Decimal.value raw)
    else .error (name ++ " must be a decimal wei string")

/-- `^([0-9]{1,15})(?:\.([0-9]+))?$` -/
def envUnits (texts : String → Option String) (name fallback : String) (decimals : Nat) :
    Except String Nat :=
  let refused : Except String Nat :=
    .error (name ++ " must be a decimal amount with at most " ++ toString decimals ++
      " fractional digits")
  match ((texts name).getD fallback).toList.splitOn '.' with
  | [whole] =>
    if run 1 15 isDigit (String.ofList whole) then
      .ok (Decimal.value (String.ofList (whole ++ List.replicate decimals '0')))
    else refused
  | [whole, fraction] =>
    if run 1 15 isDigit (String.ofList whole) &&
      run 1 decimals isDigit (String.ofList fraction) then
      .ok (Decimal.value
        (String.ofList (whole ++ fraction ++ List.replicate (decimals - fraction.length) '0')))
    else refused
  | _ => refused

def addAsset (out : List AssetSymbol) (sym : String) : Except String (List AssetSymbol) :=
  if sym = "" then .ok out
  else
    match isAssetSymbol sym with
    | none => .error ("MM_ASSETS: unknown asset \"" ++ sym ++ "\" (valid: ETH, USDC, tUSDT)")
    | some symbol =>
      if (assetInfo symbol).priced = false then
        .error ("MM_ASSETS: " ++ sym ++ " has no price feed and cannot be stocked")
      else if symbol ∈ out then .error ("MM_ASSETS: duplicate asset \"" ++ sym ++ "\"")
      else .ok (out ++ [symbol])

def parseAssets (parts : List String) : Except String (List AssetSymbol) := do
  let out ← parts.foldlM addAsset []
  if out = [] then .error "MM_ASSETS must list at least one asset" else .ok out

structure AssetPolicy where
  baseUnits : Nat
  reserveUnits : Nat
  ordersPerDirection : Int

def loadAssetPolicy (env : Environment) (eth : AssetPolicy) (symbol : AssetSymbol) :
    Except String AssetPolicy :=
  if symbol = .ETH then .ok eth
  else do
    let info := assetInfo symbol
    let name := "MM_" ++ upperName symbol
    let baseUnits ← envUnits env.texts (name ++ "_BASE") "5" info.decimals
    let reserveUnits ← envUnits env.texts (name ++ "_RESERVE") "6" info.decimals
    let ordersPerDirection ← envInt env.numbers (name ++ "_ORDERS_PER_DIRECTION") 2
    if baseUnits < info.minBaseUnits then
      .error (name ++ "_BASE is below the " ++ AssetSymbol.name symbol ++ " minimum lock amount")
    else .ok ⟨baseUnits, reserveUnits, ordersPerDirection⟩

structure Ladders where
  assetPolicies : List (AssetSymbol × AssetPolicy)
  levelStepBps : Nat

/-- What `loadConfig` reads for the ladders. -/
def loadLadders (env : Environment) : Except String Ladders := do
  let assets ← parseAssets (env.assets.getD ["ETH"])
  let ordersPerDirection ← envInt env.numbers "MM_ORDERS_PER_DIRECTION" 2
  let ethOrderWei ← envWei env.texts "MM_ETH_ORDER_WEI" (2 * 10 ^ 16)
  let ethReserveWei ← envWei env.texts "MM_ETH_RESERVE_WEI" (5 * 10 ^ 16)
  let assetPolicies ← assets.mapM fun symbol => do
    let policy ← loadAssetPolicy env ⟨ethOrderWei, ethReserveWei, ordersPerDirection⟩ symbol
    pure (symbol, policy)
  let levelStepBps ← envWei env.texts "MM_LEVEL_STEP_BPS" 50
  pure ⟨assetPolicies, levelStepBps⟩

/-! ## A quote -/

/-- The amounts, whose decimal texts the quote holds. -/
structure LevelQuote where
  fromAmount : Int
  toAmount : Int
  deriving DecidableEq

/-- QRL per whole unit in milli; `BigInt` division drops the fraction. -/
def priceMilli (direction : Direction) (level : Nat) (midPriceMilli stepBps : Int) : Int :=
  let offsetBps := stepBps * (level + 1)
  match direction with
  | .ethToQrl => (midPriceMilli * (10000 + offsetBps)).tdiv 10000
  | .qrlToEth => (midPriceMilli * (10000 - offsetBps)).tdiv 10000

def levelQuote (direction : Direction) (level : Nat) (baseUnits midPriceMilli stepBps : Int)
    (assetDecimals : Nat) : LevelQuote :=
  let units := baseUnits * (level + 1)
  let qrlWei :=
    (units * priceMilli direction level midPriceMilli stepBps * 10 ^ (18 - assetDecimals)).tdiv 1000
  match direction with
  | .ethToQrl => ⟨units, qrlWei⟩
  | .qrlToEth => ⟨qrlWei, units⟩

/-- The quote that `refill` asks for. -/
def quote (asset : AssetSymbol) (policy : AssetPolicy) (stepBps mid : Nat) (direction : Direction)
    (level : Nat) :
    LevelQuote :=
  levelQuote direction level policy.baseUnits mid stepBps (assetInfo asset).decimals

def LevelQuote.qrlWei (q : LevelQuote) : Direction → Int
  | .ethToQrl => q.toAmount
  | .qrlToEth => q.fromAmount

def LevelQuote.units (q : LevelQuote) : Direction → Int
  | .ethToQrl => q.fromAmount
  | .qrlToEth => q.toAmount

/-! ## What a ladder is for -/

section Ladder

variable (asset : AssetSymbol) (policy : AssetPolicy) (stepBps mid : Nat)

/-- The price that the two amounts of a listing imply, in milli-QRL per whole unit. -/
def impliedMilli (direction : Direction) (level : Nat) : ℚ :=
  let q := quote asset policy stepBps mid direction level
  1000 * q.qrlWei direction / (q.units direction * 10 ^ (18 - (assetInfo asset).decimals))

/-- The price of a rung before any rounding. -/
def exactMilli (direction : Direction) (level : Nat) : ℚ :=
  match direction with
  | .ethToQrl => mid * (10000 + stepBps * (level + 1)) / 10000
  | .qrlToEth => mid * (10000 - stepBps * (level + 1)) / 10000

def Rung (level : Nat) : Prop := (level : Int) < policy.ordersPerDirection

structure LadderHolds : Prop where
  positive : ∀ direction level, Rung policy level →
    0 < (quote asset policy stepBps mid direction level).fromAmount ∧
      0 < (quote asset policy stepBps mid direction level).toAmount
  ask : ∀ level, Rung policy level →
    (mid : ℚ) ≤ impliedMilli asset policy stepBps mid .ethToQrl level
  bid : ∀ level, Rung policy level → impliedMilli asset policy stepBps mid .qrlToEth level ≤ mid
  grows : ∀ level deeper, level < deeper → Rung policy deeper →
    exactMilli stepBps mid .ethToQrl level < exactMilli stepBps mid .ethToQrl deeper ∧
      exactMilli stepBps mid .qrlToEth deeper < exactMilli stepBps mid .qrlToEth level
  rounds : ∀ direction level, Rung policy level →
    exactMilli stepBps mid direction level - 1 <
      impliedMilli asset policy stepBps mid direction level ∧
      impliedMilli asset policy stepBps mid direction level ≤ exactMilli stepBps mid direction level
  unprofitable : ∀ level level', Rung policy level → Rung policy level' →
    impliedMilli asset policy stepBps mid .qrlToEth level' ≤
      impliedMilli asset policy stepBps mid .ethToQrl level

/-- The rungs differ, the deepest bid is worth a milli-QRL, and the first ask is above the mid or
loses nothing to the rounding. -/
def Quotable : Prop :=
  policy.ordersPerDirection ≤ 0 ∨
    ((0 < stepBps ∨ policy.ordersPerDirection ≤ 1) ∧
      10000 ≤ (mid : Int) * (10000 - stepBps * policy.ordersPerDirection) ∧
      (10000 ≤ mid * stepBps ∨
        1000 ∣ policy.baseUnits * mid * 10 ^ (18 - (assetInfo asset).decimals)))

end Ladder

/-! ## Rounding -/

theorem tdiv_bounds {x d : Int} (hx : 0 ≤ x) (hd : 0 < d) :
    d * x.tdiv d ≤ x ∧ x < d * x.tdiv d + d := by
  rw [Int.tdiv_eq_ediv_of_nonneg hx]
  have hdiv := Int.mul_ediv_add_emod x d
  have hmod := Int.emod_nonneg x hd.ne'
  have hlt := Int.emod_lt_of_pos x hd
  omega

/-- The first rung is worth more than what a division can drop of a price: 10 million wei. -/
def NoDust (asset : AssetSymbol) (policy : AssetPolicy) : Prop :=
  10 ^ 7 ≤ policy.baseUnits * 10 ^ (18 - (assetInfo asset).decimals)

/-- The rung price in milli before the first division, times 10000. -/
def offered (stepBps mid : Nat) (direction : Direction) (level : Nat) : Int :=
  match direction with
  | .ethToQrl => mid * (10000 + stepBps * (level + 1))
  | .qrlToEth => mid * (10000 - stepBps * (level + 1))

/-- The size of a rung in units of 18 decimals. -/
def size (asset : AssetSymbol) (policy : AssetPolicy) (level : Nat) : Int :=
  policy.baseUnits * (level + 1) * 10 ^ (18 - (assetInfo asset).decimals)

section Rounding

variable {asset : AssetSymbol} {policy : AssetPolicy} {stepBps mid : Nat} {direction : Direction}
  {level : Nat}

theorem quote_qrlWei : (quote asset policy stepBps mid direction level).qrlWei direction =
    (size asset policy level * (offered stepBps mid direction level).tdiv 10000).tdiv 1000 := by
  cases direction <;>
  · unfold quote levelQuote LevelQuote.qrlWei size offered priceMilli
    dsimp only
    congr 1
    ring

theorem quote_units : (quote asset policy stepBps mid direction level).units direction =
    policy.baseUnits * (level + 1) := by
  cases direction <;> rfl

theorem impliedMilli_eq : impliedMilli asset policy stepBps mid direction level =
    (1000 * (quote asset policy stepBps mid direction level).qrlWei direction : Int) /
      (size asset policy level : Int) := by
  unfold impliedMilli size
  dsimp only
  rw [quote_units]
  push_cast
  rfl

theorem exactMilli_eq : exactMilli stepBps mid direction level =
    (offered stepBps mid direction level : ℚ) / 10000 := by
  cases direction <;>
  · unfold exactMilli offered
    push_cast
    rfl

theorem rounding_bounds {size offered : Int} (hsize : 10 ^ 7 ≤ size) (hoffered : 10000 ≤ offered) :
    let qrlWei := (size * offered.tdiv 10000).tdiv 1000
    0 < qrlWei ∧ (offered - 10000) * size < 10000 * (1000 * qrlWei) ∧
    10000 * (1000 * qrlWei) ≤ offered * size := by
  intro qrlWei
  obtain ⟨hlow, hhigh⟩ := tdiv_bounds (d := 10000) (by omega : 0 ≤ offered) (by norm_num)
  have hprice : 1 ≤ offered.tdiv 10000 := by omega
  have hworth : size ≤ size * offered.tdiv 10000 := le_mul_of_one_le_right (by omega) hprice
  obtain ⟨hless, hmore⟩ :=
    tdiv_bounds (d := 1000) (by omega : 0 ≤ size * offered.tdiv 10000) (by norm_num)
  have hlow' : size * (10000 * offered.tdiv 10000) ≤ size * offered :=
    mul_le_mul_of_nonneg_left hlow (by omega)
  have hhigh' : size * (offered + 1) ≤ size * (10000 * offered.tdiv 10000 + 10000) :=
    mul_le_mul_of_nonneg_left (by omega) (by omega)
  have hqrlWei : qrlWei = (size * offered.tdiv 10000).tdiv 1000 := rfl
  rw [← hqrlWei] at hless hmore
  refine ⟨by omega, ?_, ?_⟩
  · linarith
  · linarith

theorem implied_bounds (hsize : 10 ^ 7 ≤ size asset policy level)
    (hoffered : 10000 ≤ offered stepBps mid direction level) :
    exactMilli stepBps mid direction level - 1 <
      impliedMilli asset policy stepBps mid direction level ∧
      impliedMilli asset policy stepBps mid direction level ≤
        exactMilli stepBps mid direction level := by
  obtain ⟨-, hlow, hhigh⟩ := rounding_bounds hsize hoffered
  have hpos : (0 : ℚ) < (size asset policy level : ℚ) := by
    have hpos : (0 : Int) < size asset policy level := by omega
    exact_mod_cast hpos
  rw [impliedMilli_eq, exactMilli_eq, quote_qrlWei]
  constructor
  · rw [lt_div_iff₀ hpos, ← sub_pos]
    have hlow : ((offered stepBps mid direction level - 10000 : Int) : ℚ) *
      size asset policy level <
        10000 * ((1000 *
          (size asset policy level * (offered stepBps mid direction level).tdiv 10000).tdiv 1000 :
          Int) : ℚ) := by
      exact_mod_cast hlow
    push_cast at hlow ⊢
    linarith
  · rw [div_le_div_iff₀ hpos (by norm_num)]
    have hhigh : 10000 * ((1000 * (size asset policy level *
        (offered stepBps mid direction level).tdiv 10000).tdiv 1000 : Int) : ℚ) ≤
          (offered stepBps mid direction level : ℚ) * size asset policy level := by
      exact_mod_cast hhigh
    linarith

theorem le_implied_iff (hsize : 0 < size asset policy level) {milli : Nat} :
    (milli : ℚ) ≤ impliedMilli asset policy stepBps mid direction level ↔
      milli * size asset policy level ≤
        1000 * (quote asset policy stepBps mid direction level).qrlWei direction := by
  rw [impliedMilli_eq, le_div_iff₀ (by exact_mod_cast hsize)]
  norm_cast

theorem implied_le_iff (hsize : 0 < size asset policy level) {milli : Nat} :
    impliedMilli asset policy stepBps mid direction level ≤ milli ↔
      1000 * (quote asset policy stepBps mid direction level).qrlWei direction ≤
        milli * size asset policy level := by
  rw [impliedMilli_eq, div_le_iff₀ (by exact_mod_cast hsize)]
  norm_cast

/-- An ask is not below the mid when its own price is above it, or no wei is rounded away. -/
theorem ask_iff (hsize : 10 ^ 7 ≤ size asset policy level) :
    (mid : ℚ) ≤ impliedMilli asset policy stepBps mid .ethToQrl level ↔
      10000 ≤ (mid * stepBps * (level + 1) : Int) ∨ 1000 ∣ size asset policy level * mid := by
  rw [le_implied_iff (by omega), quote_qrlWei]
  have hoffered :
    offered stepBps mid .ethToQrl level = 10000 * mid + mid * stepBps * (level + 1) := by
    unfold offered
    ring
  have hstep : (0 : Int) ≤ mid * stepBps * (level + 1) := by positivity
  obtain ⟨hlow, hhigh⟩ := tdiv_bounds (d := 10000) (x := offered stepBps mid .ethToQrl level)
    (by rw [hoffered]; positivity) (by norm_num)
  set price := (offered stepBps mid .ethToQrl level).tdiv 10000
  have hworth : size asset policy level * mid ≤ size asset policy level * price :=
    mul_le_mul_of_nonneg_left (by omega) (by omega)
  have hnonneg : (0 : Int) ≤ size asset policy level * mid := mul_nonneg (by omega) (by positivity)
  obtain ⟨hless, hmore⟩ :=
    tdiv_bounds (d := 1000) (x := size asset policy level * price) (by omega) (by norm_num)
  rw [mul_comm (mid : Int)]
  constructor
  · intro hle
    by_cases habove : 10000 ≤ (mid * stepBps * (level + 1) : Int)
    · exact Or.inl habove
    · have hprice : price = mid := by omega
      rw [hprice] at hle hless
      exact Or.inr ⟨_, le_antisymm hle hless⟩
  · rintro (habove | ⟨k, hk⟩)
    · have hprice : (mid : Int) + 1 ≤ price := by omega
      have hmore' : size asset policy level * (mid + 1) ≤ size asset policy level * price :=
        mul_le_mul_of_nonneg_left hprice (by omega)
      rw [mul_add, mul_one] at hmore'
      omega
    · omega

theorem bid_le (hsize : 0 < size asset policy level)
    (hoffered : 0 ≤ offered stepBps mid .qrlToEth level) :
    impliedMilli asset policy stepBps mid .qrlToEth level ≤ mid := by
  rw [implied_le_iff hsize, quote_qrlWei]
  have hbelow : offered stepBps mid .qrlToEth level ≤ 10000 * mid := by
    have hstep : (0 : Int) ≤ mid * stepBps * (level + 1) := by positivity
    unfold offered
    dsimp only
    linarith
  obtain ⟨hlow, hhigh⟩ := tdiv_bounds (d := 10000) hoffered (by norm_num)
  have hprice : (offered stepBps mid .qrlToEth level).tdiv 10000 ≤ mid := by omega
  have hnonneg : 0 ≤ (offered stepBps mid .qrlToEth level).tdiv 10000 := by omega
  have hworth := mul_le_mul_of_nonneg_left hprice hsize.le
  obtain ⟨hless, -⟩ := tdiv_bounds (d := 1000) (mul_nonneg hsize.le hnonneg) (by norm_num)
  rw [mul_comm (mid : Int)]
  omega

theorem size_of_base (h : NoDust asset policy) : 10 ^ 7 ≤ size asset policy level := by
  have hrung : (1 : Int) ≤ level + 1 := by omega
  have hbase : ((10 ^ 7 : Nat) : Int) ≤
    policy.baseUnits * 10 ^ (18 - (assetInfo asset).decimals) := by
    exact_mod_cast h
  have hdeeper := hbase.trans (le_mul_of_one_le_right (by positivity) hrung)
  unfold size
  rw [mul_right_comm]
  exact hdeeper

theorem quote_positive (hbase : 0 < policy.baseUnits)
    (h : 0 < (quote asset policy stepBps mid direction level).qrlWei direction) :
    0 < (quote asset policy stepBps mid direction level).fromAmount ∧
      0 < (quote asset policy stepBps mid direction level).toAmount := by
  have hunits : 0 < (quote asset policy stepBps mid direction level).units direction := by
    rw [quote_units]
    positivity
  cases direction with
  | ethToQrl => exact ⟨hunits, h⟩
  | qrlToEth => exact ⟨h, hunits⟩

end Rounding

/-! ## When a ladder holds -/

section Holds

variable {asset : AssetSymbol} {policy : AssetPolicy} {stepBps mid : Nat}

theorem offered_of_deepest (hmid : 0 < mid)
    (hdeepest : 10000 ≤ (mid : Int) * (10000 - stepBps * policy.ordersPerDirection))
    {direction : Direction}
    {level : Nat} (hrung : Rung policy level) : 10000 ≤ offered stepBps mid direction level := by
  unfold Rung at hrung
  have hmid' : (1 : Int) ≤ mid := by exact_mod_cast hmid
  cases direction with
  | ethToQrl =>
    have hstep : (0 : Int) ≤ mid * (stepBps * (level + 1)) := by positivity
    unfold offered
    dsimp only
    linarith
  | qrlToEth =>
    have hdepth : (stepBps : Int) * (level + 1) ≤ stepBps * policy.ordersPerDirection :=
      mul_le_mul_of_nonneg_left (by omega) (by positivity)
    have hbid : (mid : Int) * (10000 - stepBps * policy.ordersPerDirection) ≤
      mid * (10000 - stepBps * (level + 1)) :=
      mul_le_mul_of_nonneg_left (by omega) (by positivity)
    unfold offered
    exact hdeepest.trans hbid

theorem exactMilli_grows (hmid : 0 < mid) (hstep : 0 < stepBps) {level deeper : Nat}
    (h : level < deeper) :
    exactMilli stepBps mid .ethToQrl level < exactMilli stepBps mid .ethToQrl deeper ∧
      exactMilli stepBps mid .qrlToEth deeper < exactMilli stepBps mid .qrlToEth level := by
  have hmore : (mid : ℚ) * stepBps * (level + 1) < mid * stepBps * (deeper + 1) := by
    have hlevel : ((level : ℚ) + 1) < deeper + 1 := by exact_mod_cast Nat.succ_lt_succ h
    have hpos : (0 : ℚ) < mid * stepBps := by positivity
    exact mul_lt_mul_of_pos_left hlevel hpos
  unfold exactMilli
  constructor <;> linarith

theorem holds_of_quotable (hbase : NoDust asset policy) (hmid : 0 < mid)
    (h : Quotable asset policy stepBps mid) :
    LadderHolds asset policy stepBps mid := by
  have hpos : 0 < policy.baseUnits := by
    unfold NoDust at hbase
    by_contra hzero
    rw [Nat.eq_zero_of_not_pos hzero, Nat.zero_mul] at hbase
    omega
  -- A ladder without rungs holds trivially.
  rcases h with hnone | ⟨hsteps, hdeepest, hfirst⟩
  · have hempty : ∀ level, ¬ Rung policy level := by
      intro level hrung
      unfold Rung at hrung
      omega
    exact ⟨fun _ l hl => absurd hl (hempty l), fun l hl => absurd hl (hempty l),
      fun l hl => absurd hl (hempty l),
      fun _ l _ hl => absurd hl (hempty l), fun _ l hl => absurd hl (hempty l),
      fun l _ hl => absurd hl (hempty l)⟩
  · have hask : ∀ level, Rung policy level →
      (mid : ℚ) ≤ impliedMilli asset policy stepBps mid .ethToQrl level := by
      intro level _
      rw [ask_iff (size_of_base hbase)]
      -- An ask is at the mid or above if the step is a whole unit, or if the size divides.
      rcases hfirst with hfirst | hfirst
      · have hdeeper : (mid * stepBps : Int) ≤ mid * stepBps * (level + 1) :=
          le_mul_of_one_le_right (by positivity) (by omega)
        have hfirst' : (10000 : Int) ≤ mid * stepBps := by exact_mod_cast hfirst
        exact Or.inl (hfirst'.trans hdeeper)
      · right
        have hsize : size asset policy level * mid =
            ((policy.baseUnits * mid * 10 ^ (18 - (assetInfo asset).decimals) : Nat) : Int) *
              (level + 1) := by
          unfold size
          push_cast
          ring
        rw [hsize]
        exact Dvd.dvd.mul_right (by exact_mod_cast hfirst) _
    have hbid : ∀ level, Rung policy level →
      impliedMilli asset policy stepBps mid .qrlToEth level ≤ mid := by
      intro level hrung
      have hoffered := @offered_of_deepest policy stepBps mid hmid hdeepest .qrlToEth level hrung
      have hsize := @size_of_base asset policy level hbase
      exact bid_le (by omega) (by omega)
    refine ⟨?_, hask, hbid, ?_, ?_,
      fun level level' hl hl' => (hbid level' hl').trans (hask level hl)⟩
    · intro direction level hrung
      refine quote_positive hpos ?_
      rw [quote_qrlWei]
      exact (rounding_bounds (size_of_base hbase) (offered_of_deepest hmid hdeepest hrung)).1
    · intro level deeper hlt hrung
      have hstep : 0 < stepBps := by
        unfold Rung at hrung
        rcases hsteps with hstep | hsingle
        · exact hstep
        · omega
      exact exactMilli_grows hmid hstep hlt
    · intro direction level hrung
      exact implied_bounds (size_of_base hbase) (offered_of_deepest hmid hdeepest hrung)

theorem le_of_tdiv_pos {x d : Int} (hd : 0 < d) (h : 0 < x.tdiv d) : d ≤ x := by
  by_contra hlt
  rw [not_le] at hlt
  by_cases hx : 0 ≤ x
  · rw [Int.tdiv_eq_zero_of_lt hx hlt] at h
    exact absurd h (lt_irrefl 0)
  · have hneg := Int.tdiv_nonneg (by omega : 0 ≤ -x) hd.le
    rw [Int.neg_tdiv] at hneg
    omega

theorem quotable_of_holds (hbase : NoDust asset policy) (h : LadderHolds asset policy stepBps mid) :
    Quotable asset policy stepBps mid := by
  by_cases hnone : policy.ordersPerDirection ≤ 0
  · exact Or.inl hnone
  · right
    refine ⟨?_, ?_, ?_⟩
    · by_contra hflat
      rw [not_or, not_lt, not_le] at hflat
      obtain ⟨hgrows, -⟩ := h.grows 0 1 Nat.zero_lt_one (by unfold Rung; push_cast; omega)
      have hzero : stepBps = 0 := by omega
      rw [hzero] at hgrows
      unfold exactMilli at hgrows
      simp at hgrows
    · -- the bid of the deepest rung
      obtain ⟨n, hn⟩ : ∃ n : Nat, policy.ordersPerDirection = n + 1 :=
        ⟨(policy.ordersPerDirection - 1).toNat, by omega⟩
      have hpositive : 0 < (quote asset policy stepBps mid .qrlToEth n).qrlWei .qrlToEth :=
        (h.positive .qrlToEth n (by unfold Rung; omega)).1
      rw [quote_qrlWei] at hpositive
      have hworth := le_of_tdiv_pos (by norm_num) hpositive
      have hsize := @size_of_base asset policy n hbase
      have hprice : 0 < (offered stepBps mid .qrlToEth n).tdiv 10000 := by
        by_contra hle
        have hnonpos :=
          mul_nonpos_of_nonneg_of_nonpos (by omega : 0 ≤ size asset policy n) (not_lt.mp hle)
        omega
      have hoffered := le_of_tdiv_pos (by norm_num) hprice
      unfold offered at hoffered
      rw [hn]
      exact hoffered
    · have hask := h.ask 0 (by unfold Rung; push_cast; omega)
      rw [ask_iff (size_of_base hbase)] at hask
      rcases hask with habove | hexact
      · left
        have habove' : (10000 : Int) ≤ mid * stepBps := by simpa using habove
        exact_mod_cast habove'
      · right
        have hsize : size asset policy 0 * mid =
            ((policy.baseUnits * mid * 10 ^ (18 - (assetInfo asset).decimals) : Nat) : Int) := by
          unfold size
          push_cast
          ring
        rw [hsize] at hexact
        exact_mod_cast hexact

end Holds

/-! ## What is loaded -/

theorem loadLadders_base {env : Environment} {ladders : Ladders} (h : loadLadders env = .ok ladders)
    {asset : AssetSymbol} {policy : AssetPolicy} (hmem : (asset, policy) ∈ ladders.assetPolicies)
    (htoken : asset ≠ .ETH) : NoDust asset policy := by
  simp only [loadLadders, bind_eq_ok, pure_eq_ok] at h
  obtain ⟨assets, -, n, -, wei, -, reserve, -, policies, hpolicies, step, -, rfl⟩ := h
  obtain ⟨symbol, -, hpolicy⟩ := mem_of_mapM hpolicies hmem
  simp only [bind_eq_ok, pure_eq_ok] at hpolicy
  obtain ⟨p, hp, hpair⟩ := hpolicy
  rw [Prod.mk.injEq] at hpair
  obtain ⟨hsymbol, rfl⟩ := hpair
  subst hsymbol
  unfold loadAssetPolicy at hp
  rw [if_neg htoken] at hp
  simp only [bind_eq_ok] at hp
  obtain ⟨base, -, units, -, count, -, hp⟩ := hp
  split at hp
  · cases hp
  · rename_i hmin
    cases hp
    rw [not_lt] at hmin
    have hmore := Nat.mul_le_mul_right (10 ^ (18 - (assetInfo symbol).decimals)) hmin
    have hdust : 10 ^ 7 ≤
      (assetInfo symbol).minBaseUnits * 10 ^ (18 - (assetInfo symbol).decimals) := by
      cases symbol <;> decide
    exact hdust.trans hmore

/-- In every configuration, for a token or for ETH in listings that are no dust, a ladder holds at a
mid exactly when it is quotable. -/
theorem ladder_holds_iff (env : Environment) (ladders : Ladders) (h : loadLadders env = .ok ladders)
    (asset : AssetSymbol) (policy : AssetPolicy) (hmem : (asset, policy) ∈ ladders.assetPolicies)
    (hbase : asset = .ETH → 10 ^ 7 ≤ policy.baseUnits) (mid : Nat) (hmid : 0 < mid) :
    LadderHolds asset policy ladders.levelStepBps mid ↔
    Quotable asset policy ladders.levelStepBps mid := by
  have hsize : NoDust asset policy := by
    by_cases heth : asset = .ETH
    · have hwei := hbase heth
      subst heth
      simpa [NoDust, assetInfo] using hwei
    · exact loadLadders_base h hmem heth
  exact ⟨quotable_of_holds hsize, holds_of_quotable hsize hmid⟩

/-- The default environment, with a ladder step of its own. -/
def withStep (stepBps : Option String) : Environment :=
  ⟨fun _ => none, fun name => if name = "MM_LEVEL_STEP_BPS" then stepBps else none, none⟩

def defaultEth : AssetPolicy := ⟨2 * 10 ^ 16, 5 * 10 ^ 16, 2⟩

theorem loadLadders_withStep {raw : Option String} {stepBps : Nat}
    (h : envWei (withStep raw).texts "MM_LEVEL_STEP_BPS" 50 = .ok stepBps) :
    loadLadders (withStep raw) = .ok ⟨[(.ETH, defaultEth)], stepBps⟩ := by
  have hassets : parseAssets ((withStep raw).assets.getD ["ETH"]) = .ok [.ETH] := by
    unfold withStep parseAssets
    rfl
  have hcount : envInt (withStep raw).numbers "MM_ORDERS_PER_DIRECTION" 2 = .ok 2 := by
    rw [Daemon.envInt_eq_ok]
    exact ⟨2, rfl, by norm_num, by norm_num⟩
  have hwei : ∀ fallback, envWei (withStep raw).texts "MM_ETH_ORDER_WEI" fallback = .ok fallback :=
    fun _ => rfl
  have hreserve : ∀ fallback, envWei (withStep raw).texts "MM_ETH_RESERVE_WEI" fallback =
    .ok fallback := fun _ => rfl
  unfold loadLadders
  rw [hassets, hcount, hwei, hreserve, h]
  rfl

/-- The default ladder at 1700 QRL. -/
theorem ladder_holds_default : LadderHolds .ETH defaultEth 50 1700000 := by
  refine (ladder_holds_iff (withStep none) ⟨[(.ETH, defaultEth)], 50⟩
    (loadLadders_withStep rfl) .ETH defaultEth List.mem_cons_self (fun _ => by decide) 1700000
      (by decide)).mpr ?_
  exact Or.inr ⟨Or.inl (by decide), by decide, Or.inl (by decide)⟩

/-- With a step of half the price the second bid offers nothing for its size. -/
theorem halfStep_not_holds :
    loadLadders (withStep (some "5000")) = .ok ⟨[(.ETH, defaultEth)], 5000⟩ ∧
    quote .ETH defaultEth 5000 1700000 .qrlToEth 1 = ⟨0, 4 * 10 ^ 16⟩ ∧
    ¬ LadderHolds .ETH defaultEth 5000 1700000 := by
  have hquote : quote .ETH defaultEth 5000 1700000 .qrlToEth 1 = ⟨0, 4 * 10 ^ 16⟩ := by decide
  refine ⟨loadLadders_withStep rfl, hquote, ?_⟩
  intro hholds
  obtain ⟨hfrom, -⟩ := hholds.positive .qrlToEth 1 (by unfold Rung; decide)
  rw [hquote] at hfrom
  exact absurd hfrom (lt_irrefl 0)

end QuantaSwap.Maker.Ladder
