import Mathlib.Tactic.Positivity
import ChainMarketPrice.AmmVirtualizer.Curve

/-!
# Constant-product pools

`UniswapV2Pool` of `crates/amm-virtualizer/src/lib.rs`: the reserves and the spot price. All
arithmetic wraps as the release profile does; the price is exact as long as no product leaves
128 bits (`spotPriceScaled_eq`).
-/

namespace ChainMarketPrice.AmmVirtualizer

open FixedWidth

structure UniswapV2Pool where
  reserveBase : U128
  reserveQuote : U128
  feeNumerator : U128
  feeDenominator : U128
  baseDecimals : UInt8
  quoteDecimals : UInt8
deriving DecidableEq

namespace UniswapV2Pool

def new (reserveBase reserveQuote : U128) (feeBps : UInt16) : UniswapV2Pool where
  reserveBase := reserveBase
  reserveQuote := reserveQuote
  feeNumerator := 10000 - BitVec.ofNat 128 feeBps.toNat
  feeDenominator := 10000
  baseDecimals := 18
  quoteDecimals := 6

/-- `10u128.pow(k)`. -/
def pow10 (k : UInt8) : U128 := BitVec.ofNat 128 (10 ^ k.toNat)

/-- The price scaled by `10 ^ 8`, at the decimals of the two tokens. -/
def spotPriceScaled (pool : UniswapV2Pool) : Except Panic Int64 :=
  if pool.reserveBase = 0 then .ok 0
  else do
    let price ←
      if pool.baseDecimals ≥ pool.quoteDecimals then
        let diff := pow10 (pool.baseDecimals - pool.quoteDecimals)
        divided (pool.reserveQuote * diff * 100000000) pool.reserveBase
      else
        let diff := pow10 (pool.quoteDecimals - pool.baseDecimals)
        divided (pool.reserveQuote * 100000000) (pool.reserveBase * diff)
    return toI64 price

/-! ## The exact price -/

/-- The numerator of the price, in exact integers. -/
def priceNumerator (pool : UniswapV2Pool) : ℕ :=
  pool.reserveQuote.toNat * 10 ^ (pool.baseDecimals.toNat - pool.quoteDecimals.toNat) * 10 ^ 8

/-- The denominator of the price, in exact integers. -/
def priceDenominator (pool : UniswapV2Pool) : ℕ :=
  pool.reserveBase.toNat * 10 ^ (pool.quoteDecimals.toNat - pool.baseDecimals.toNat)

/-- The price in exact integers, rounded down. -/
def exactPrice (pool : UniswapV2Pool) : ℕ := pool.priceNumerator / pool.priceDenominator

/-- No product of the spot price overflows, and the price fits in an `i64`. -/
structure SpotFits (pool : UniswapV2Pool) : Prop where
  numerator : pool.priceNumerator < 2 ^ 128
  denominator : pool.priceDenominator < 2 ^ 128
  price : pool.exactPrice < 2 ^ 63

lemma toNat_pow10 {k : UInt8} (h : 10 ^ k.toNat < 2 ^ 128) : (pow10 k).toNat = 10 ^ k.toNat := by
  rw [pow10, BitVec.toNat_ofNat]
  exact Nat.mod_eq_of_lt h

/-- A quotient of 128 bits that fits in an `i64`. -/
lemma narrowed_quotient {a b : U128} {n d : ℕ} (ha : a.toNat = n) (hb : b.toNat = d) (hd : 0 < d)
    (hfits : n / d < 2 ^ 63) :
    ∃ spot, (divided a b).map toI64 = .ok spot ∧ spot.toInt = (n / d : ℕ) := by
  have hne : b ≠ 0 := by
    rintro rfl
    rw [← hb] at hd
    exact absurd hd (by decide)
  have hquot : (a / b).toNat = n / d := by rw [BitVec.toNat_udiv, ha, hb]
  refine ⟨toI64 (a / b), ?_, ?_⟩
  · rw [divided, if_neg hne]
    rfl
  · rw [toInt_toI64 (by omega), hquot]

/-- The price that the code computes in 128 bits. -/
theorem spotPriceScaled_eq {pool : UniswapV2Pool} (hbase : 0 < pool.reserveBase.toNat)
    (hquote : 0 < pool.reserveQuote.toNat) (h : pool.SpotFits) :
    ∃ spot, pool.spotPriceScaled = .ok spot ∧ spot.toInt = pool.exactPrice := by
  have hne : pool.reserveBase ≠ 0 := by
    intro hzero
    rw [hzero] at hbase
    exact absurd hbase (by decide)
  have hscale : BitVec.toNat (100000000 : U128) = 10 ^ 8 := rfl
  have hpos : 0 < pool.priceDenominator := Nat.mul_pos hbase (by positivity)
  obtain ⟨hnum, hden, hprice⟩ := h
  unfold spotPriceScaled
  rw [if_neg hne]
  by_cases hdecimals : pool.baseDecimals ≥ pool.quoteDecimals
  · -- the numerator is scaled by the difference of the decimals
    have hle := UInt8.le_iff_toNat_le.mp hdecimals
    have hdiff := UInt8.toNat_sub_of_le _ _ hdecimals
    have hnumerator : (pool.reserveQuote * pow10 (pool.baseDecimals - pool.quoteDecimals)
        * 100000000).toNat = pool.priceNumerator := by
      unfold priceNumerator at hnum ⊢
      rw [← hdiff] at hnum ⊢
      have hpow := Nat.le_mul_of_pos_left (10 ^ (pool.baseDecimals - pool.quoteDecimals).toNat) hquote
      have hexact := toNat_pow10 (k := pool.baseDecimals - pool.quoteDecimals) (by omega)
      have hprod : (pool.reserveQuote * pow10 (pool.baseDecimals - pool.quoteDecimals)).toNat
          = pool.reserveQuote.toNat * 10 ^ (pool.baseDecimals - pool.quoteDecimals).toNat := by
        rw [toNat_mul_of_lt (by rw [hexact]; omega), hexact]
      rw [toNat_mul_of_lt (by rw [hprod, hscale]; exact hnum), hprod, hscale]
    have hdenominator : pool.reserveBase.toNat = pool.priceDenominator := by
      rw [priceDenominator, Nat.sub_eq_zero_of_le hle, pow_zero, Nat.mul_one]
    obtain ⟨spot, hspot, hexact⟩ := narrowed_quotient hnumerator hdenominator hpos hprice
    refine ⟨spot, ?_, hexact⟩
    rw [if_pos hdecimals, ← hspot]
    rfl
  · -- the quote has more decimals, and the denominator is scaled instead
    have hlt := UInt8.not_le.mp hdecimals
    have hle := UInt8.lt_iff_toNat_lt.mp hlt
    have hdiff := UInt8.toNat_sub_of_le _ _ (UInt8.le_of_lt hlt)
    have hnumerator : (pool.reserveQuote * 100000000).toNat = pool.priceNumerator := by
      unfold priceNumerator at hnum ⊢
      rw [Nat.sub_eq_zero_of_le hle.le, pow_zero, Nat.mul_one] at hnum ⊢
      rw [toNat_mul_of_lt (by rw [hscale]; exact hnum), hscale]
    have hdenominator : (pool.reserveBase * pow10 (pool.quoteDecimals - pool.baseDecimals)).toNat
        = pool.priceDenominator := by
      unfold priceDenominator at hden ⊢
      rw [← hdiff] at hden ⊢
      have hpow := Nat.le_mul_of_pos_left (10 ^ (pool.quoteDecimals - pool.baseDecimals).toNat) hbase
      have hexact := toNat_pow10 (k := pool.quoteDecimals - pool.baseDecimals) (by omega)
      rw [toNat_mul_of_lt (by rw [hexact]; exact hden), hexact]
    obtain ⟨spot, hspot, hexact⟩ := narrowed_quotient hnumerator hdenominator hpos hprice
    refine ⟨spot, ?_, hexact⟩
    rw [if_neg hdecimals, ← hspot]
    rfl

/-- The exact price at other reserves. -/
def priceAt (pool : UniswapV2Pool) (base quote : ℕ) : ℕ :=
  quote * 10 ^ (pool.baseDecimals.toNat - pool.quoteDecimals.toNat) * 10 ^ 8 /
    (base * 10 ^ (pool.quoteDecimals.toNat - pool.baseDecimals.toNat))

/-- More quote and less base make a higher price. -/
lemma priceAt_mono (pool : UniswapV2Pool) {base base' quote quote' : ℕ} (hpos : 0 < base')
    (hbase : base' ≤ base) (hquote : quote ≤ quote') :
    pool.priceAt base quote ≤ pool.priceAt base' quote' := by
  have hscale : 0 < base' * 10 ^ (pool.quoteDecimals.toNat - pool.baseDecimals.toNat) :=
    Nat.mul_pos hpos (by positivity)
  apply Nat.div_le_div _ _ hscale.ne'
  · exact Nat.mul_le_mul_right _ (Nat.mul_le_mul_right _ hquote)
  · exact Nat.mul_le_mul_right _ hbase

lemma exactPrice_mono {pool pool' : UniswapV2Pool}
    (hdecimals : pool'.baseDecimals = pool.baseDecimals ∧ pool'.quoteDecimals = pool.quoteDecimals)
    (hbase : 0 < pool'.reserveBase.toNat)
    (hle : pool'.reserveBase.toNat ≤ pool.reserveBase.toNat)
    (hquote : pool.reserveQuote.toNat ≤ pool'.reserveQuote.toNat) :
    pool.exactPrice ≤ pool'.exactPrice := by
  have hmono := pool.priceAt_mono hbase hle hquote
  unfold exactPrice priceNumerator priceDenominator
  rw [hdecimals.1, hdecimals.2]
  exact hmono

end UniswapV2Pool

end ChainMarketPrice.AmmVirtualizer
