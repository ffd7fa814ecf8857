import Mathlib.Algebra.Order.Field.Rat
import Mathlib.Tactic.Linarith
import Mathlib.Tactic.NormNum
import Mathlib.Tactic.Ring
import ChainMarketPrice.Lib.Checked
import ChainMarketPrice.AmmVirtualizer.BestAsk

/-!
# The spot price of concentrated liquidity

`spot_price_scaled` of `ConcentratedLiquidityPool` and `UniswapV4Pool`, which compute the same
function of `sqrtPriceX96`, against the rational number that it stands for. The bits dropped
before the squaring weigh at most `2 ^ 33` in units of the shifted square, and a unit there is
`10 ^ 8 / 2 ^ 64` of a unit of the price: together with the rounding the error stays below one.
-/

namespace ChainMarketPrice.AmmVirtualizer

open Checked FixedWidth

/-- The price that `sqrtPriceX96` stands for, scaled by `10 ^ 8`. -/
def exactSqrtPrice (sqrtPriceX96 : U128) : ℚ := (sqrtPriceX96.toNat : ℚ) ^ 2 * 10 ^ 8 / 2 ^ 192

/-- `spot_price_scaled` with checked arithmetic. -/
def checkedSqrtToPrice (sqrtPriceX96 : U128) : Option Int64 :=
  if sqrtPriceX96 = 0 then some 0
  else do
    let sp := sqrtPriceX96 >>> 48
    let pNum ← u128 (sp.toNat * sp.toNat)
    let scaled ← u128 ((pNum >>> 32).toNat * BitVec.toNat (100000000 : U128))
    let rounded ← u128 (scaled.toNat + BitVec.toNat (0x8000000000000000 : U128))
    return toI64 (rounded >>> 64)

/-- The same in exact integers. -/
def roundedPrice (s : ℕ) : ℕ := (s / 2 ^ 48 * (s / 2 ^ 48) / 2 ^ 32 * 10 ^ 8 + 2 ^ 63) / 2 ^ 64

section Narrow

variable {s : U128} (h : s.toNat < 2 ^ 112)
include h

lemma toNat_sp_lt : (s >>> 48).toNat < 2 ^ 64 := by
  rw [BitVec.toNat_ushiftRight, Nat.shiftRight_eq_div_pow]
  omega

lemma sp_square_lt : (s >>> 48).toNat * (s >>> 48).toNat < 2 ^ 128 := by
  calc (s >>> 48).toNat * (s >>> 48).toNat
      < 2 ^ 64 * 2 ^ 64 := Nat.mul_lt_mul'' (toNat_sp_lt h) (toNat_sp_lt h)
    _ = 2 ^ 128 := by norm_num

omit h in
lemma toNat_shifted_lt (pNum : U128) : (pNum >>> 32).toNat < 2 ^ 96 := by
  have hlt := pNum.isLt
  rw [BitVec.toNat_ushiftRight, Nat.shiftRight_eq_div_pow]
  omega

/-- None of the operations overflows. -/
theorem checkedSqrtToPrice_eq : checkedSqrtToPrice s = some (sqrtToPrice s) := by
  unfold checkedSqrtToPrice sqrtToPrice
  by_cases hzero : s = 0
  · rw [if_pos hzero, if_pos hzero]
  · have hscale : BitVec.toNat (100000000 : U128) = 10 ^ 8 := rfl
    have hhalf : BitVec.toNat (0x8000000000000000 : U128) = 2 ^ 63 := rfl
    have hshifted := toNat_shifted_lt ((s >>> 48) * (s >>> 48))
    have hscaled : ((s >>> 48 * s >>> 48) >>> 32).toNat * BitVec.toNat (100000000 : U128)
        < 2 ^ 127 := by
      rw [hscale]
      omega
    have hproduct := u128_mul (lt_trans hscaled (by norm_num))
    have hsum : ((s >>> 48 * s >>> 48) >>> 32 * 100000000 : U128).toNat
        + BitVec.toNat (0x8000000000000000 : U128) < 2 ^ 128 := by
      rw [toNat_mul_of_lt (by omega), hhalf]
      omega
    rw [if_neg hzero, if_neg hzero]
    dsimp only
    rw [u128_mul (sp_square_lt h), Option.bind_eq_bind, Option.bind_some, hproduct,
      Option.bind_some, u128_add hsum, Option.bind_some, Option.pure_def]

lemma toInt_sqrtToPrice : (sqrtToPrice s).toInt = roundedPrice s.toNat := by
  unfold sqrtToPrice
  split
  · next hzero =>
    rw [hzero]
    rfl
  · have hscale : BitVec.toNat (100000000 : U128) = 10 ^ 8 := rfl
    have hhalf : BitVec.toNat (0x8000000000000000 : U128) = 2 ^ 63 := rfl
    have hshifted := toNat_shifted_lt ((s >>> 48) * (s >>> 48))
    have hlt := toNat_scaled_lt ((s >>> 48) * (s >>> 48))
    rw [toInt_toI64 (by omega), BitVec.toNat_ushiftRight, BitVec.toNat_add,
      toNat_mul_of_lt (by rw [hscale]; omega), hscale, hhalf, Nat.mod_eq_of_lt (by omega),
      BitVec.toNat_ushiftRight, toNat_mul_of_lt (sp_square_lt h), BitVec.toNat_ushiftRight]
    simp only [Nat.shiftRight_eq_div_pow]
    rfl

end Narrow

/-- What is dropped before the squaring. -/
lemma sq_sub_shifted_sq {s : ℕ} (h : s < 2 ^ 112) :
    2 ^ 96 * (s / 2 ^ 48 * (s / 2 ^ 48)) ≤ s * s ∧
      s * s ≤ 2 ^ 96 * (s / 2 ^ 48 * (s / 2 ^ 48)) + 2 ^ 161 := by
  have hsplit := Nat.div_add_mod s (2 ^ 48)
  have hmod := Nat.mod_lt s (show 2 ^ 48 > 0 by omega)
  set q := s / 2 ^ 48 with hq
  set r := s % 2 ^ 48 with hr
  have hsq : s * s = 2 ^ 96 * (q * q) + (s + 2 ^ 48 * q) * r := by
    calc s * s = s * (2 ^ 48 * q + r) := by rw [hsplit]
      _ = 2 ^ 48 * q * s + s * r := by ring
      _ = 2 ^ 48 * q * (2 ^ 48 * q + r) + s * r := by rw [hsplit]
      _ = 2 ^ 96 * (q * q) + (s + 2 ^ 48 * q) * r := by ring
  have hdropped : (s + 2 ^ 48 * q) * r ≤ 2 ^ 113 * 2 ^ 48 :=
    Nat.mul_le_mul (by omega) (by omega)
  omega

lemma roundedPrice_close {s : ℕ} (h : s < 2 ^ 112) :
    roundedPrice s * 2 ^ 192 < s * s * 10 ^ 8 + 2 ^ 192 ∧
      s * s * 10 ^ 8 < roundedPrice s * 2 ^ 192 + 2 ^ 192 := by
  obtain ⟨hle, hge⟩ := sq_sub_shifted_sq h
  unfold roundedPrice
  -- from here on the two squares are linear
  generalize s * s = exact at *
  generalize s / 2 ^ 48 * (s / 2 ^ 48) = shifted at *
  omega

lemma roundedPrice_mono {s t : ℕ} (h : s ≤ t) : roundedPrice s ≤ roundedPrice t := by
  have hshift : s / 2 ^ 48 ≤ t / 2 ^ 48 := Nat.div_le_div_right h
  have hsquare := Nat.mul_le_mul hshift hshift
  unfold roundedPrice
  generalize s / 2 ^ 48 * (s / 2 ^ 48) = x at *
  generalize t / 2 ^ 48 * (t / 2 ^ 48) = y at *
  omega

/-- The error of the price is less than one unit of `10 ^ -8`. -/
lemma abs_sqrtToPrice_sub_lt {s : U128} (h : s.toNat < 2 ^ 112) :
    |((sqrtToPrice s).toInt : ℚ) - exactSqrtPrice s| < 1 := by
  obtain ⟨hlt, hgt⟩ := roundedPrice_close h
  have hlt' : (roundedPrice s.toNat : ℚ) * 2 ^ 192
      < (s.toNat : ℚ) * s.toNat * 10 ^ 8 + 2 ^ 192 := by exact_mod_cast hlt
  have hgt' : (s.toNat : ℚ) * s.toNat * 10 ^ 8
      < (roundedPrice s.toNat : ℚ) * 2 ^ 192 + 2 ^ 192 := by exact_mod_cast hgt
  have hexact : exactSqrtPrice s * 2 ^ 192 = (s.toNat : ℚ) * s.toNat * 10 ^ 8 := by
    rw [exactSqrtPrice, div_mul_cancel₀ _ (by norm_num), pow_two]
  rw [← hexact, ← add_one_mul] at hlt' hgt'
  have hprice := lt_of_mul_lt_mul_right hlt' (by norm_num)
  have hprice' := lt_of_mul_lt_mul_right hgt' (by norm_num)
  rw [toInt_sqrtToPrice h, Int.cast_natCast, abs_lt]
  constructor <;> linarith

lemma sqrtToPrice_mono {s t : U128} (hst : s ≤ t) (ht : t.toNat < 2 ^ 112) :
    sqrtToPrice s ≤ sqrtToPrice t := by
  have hle : s.toNat ≤ t.toNat := hst
  have hmono := roundedPrice_mono hle
  rw [Int64.le_iff_toInt_le, toInt_sqrtToPrice (lt_of_le_of_lt hle ht), toInt_sqrtToPrice ht]
  exact_mod_cast hmono

namespace ConcentratedLiquidityPool

/-- The spot price with checked arithmetic. -/
def checkedSpotPriceScaled (pool : ConcentratedLiquidityPool) : Option Int64 :=
  checkedSqrtToPrice pool.sqrtPriceX96

end ConcentratedLiquidityPool

namespace UniswapV4Pool

/-- The spot price with checked arithmetic. -/
def checkedSpotPriceScaled (pool : UniswapV4Pool) : Option Int64 :=
  checkedSqrtToPrice pool.sqrtPriceX96

end UniswapV4Pool

/-- Below `2 ^ 112`, in both kinds of pool: nothing overflows, the price is less than one unit
away from the exact one, and a smaller `sqrtPriceX96` does not give a larger price. -/
theorem spotPriceScaled_accurate :
    (∀ pool : ConcentratedLiquidityPool, pool.sqrtPriceX96.toNat < 2 ^ 112 →
      pool.checkedSpotPriceScaled = some pool.spotPriceScaled ∧
        |(pool.spotPriceScaled.toInt : ℚ) - exactSqrtPrice pool.sqrtPriceX96| < 1 ∧
        ∀ lower : ConcentratedLiquidityPool, lower.sqrtPriceX96 ≤ pool.sqrtPriceX96 →
          lower.spotPriceScaled ≤ pool.spotPriceScaled) ∧
    (∀ pool : UniswapV4Pool, pool.sqrtPriceX96.toNat < 2 ^ 112 →
      pool.checkedSpotPriceScaled = some pool.spotPriceScaled ∧
        |(pool.spotPriceScaled.toInt : ℚ) - exactSqrtPrice pool.sqrtPriceX96| < 1 ∧
        ∀ lower : UniswapV4Pool, lower.sqrtPriceX96 ≤ pool.sqrtPriceX96 →
          lower.spotPriceScaled ≤ pool.spotPriceScaled) := by
  constructor
  · intro pool h
    exact ⟨checkedSqrtToPrice_eq h, abs_sqrtToPrice_sub_lt h, fun _ hle => sqrtToPrice_mono hle h⟩
  · intro pool h
    exact ⟨checkedSqrtToPrice_eq h, abs_sqrtToPrice_sub_lt h, fun _ hle => sqrtToPrice_mono hle h⟩

end ChainMarketPrice.AmmVirtualizer
