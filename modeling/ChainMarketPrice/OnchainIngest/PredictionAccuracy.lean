import ChainMarketPrice.OnchainIngest.SpeculativeSwap

/-!
# The predicted price of a swap

The reserves of a pool on chain have 112 bits, and two products of the simulation do not fit in
128: the numerator of the output, and the quote reserve at the scale of the price. Where they
fit, the prediction is exact.
-/

namespace ChainMarketPrice.OnchainIngest

open AmmVirtualizer FixedWidth

namespace SpeculativeStateSimulator

/-! ## The swap in exact integers -/

/-- The numerator of the output. -/
def outNumerator (tx : PendingMempoolTx) (pool : UniswapV2Pool) : ℕ :=
  tx.amountIn.toNat * pool.feeNumerator.toNat * (reserveOut tx pool).toNat

def outDenominator (tx : PendingMempoolTx) (pool : UniswapV2Pool) : ℕ :=
  (reserveIn tx pool).toNat * pool.feeDenominator.toNat
    + tx.amountIn.toNat * pool.feeNumerator.toNat

def exactOut (tx : PendingMempoolTx) (pool : UniswapV2Pool) : ℕ :=
  outNumerator tx pool / outDenominator tx pool

/-- The output that is left when the numerator is cut to 128 bits. -/
def wrappedOut (tx : PendingMempoolTx) (pool : UniswapV2Pool) : ℕ :=
  outNumerator tx pool % 2 ^ 128 / outDenominator tx pool

/-- The base reserve after the swap has paid `out`. -/
def baseAfter (tx : PendingMempoolTx) (pool : UniswapV2Pool) (out : ℕ) : ℕ :=
  if tx.isBuy then pool.reserveBase.toNat - out else pool.reserveBase.toNat + tx.amountIn.toNat

/-- The quote reserve after the swap has paid `out`. -/
def quoteAfter (tx : PendingMempoolTx) (pool : UniswapV2Pool) (out : ℕ) : ℕ :=
  if tx.isBuy then pool.reserveQuote.toNat + tx.amountIn.toNat else pool.reserveQuote.toNat - out

/-- The price at 18 and 6 decimals. -/
def scaledPrice (base quote : ℕ) : ℕ := quote * 10 ^ 20 / base

def exactPriceAfter (tx : PendingMempoolTx) (pool : UniswapV2Pool) : ℕ :=
  scaledPrice (baseAfter tx pool (exactOut tx pool)) (quoteAfter tx pool (exactOut tx pool))

/-- What the simulation predicts in exact integers: nothing when the price before is zero. -/
def exactPrediction (tx : PendingMempoolTx) (pool : UniswapV2Pool) : Option ℤ :=
  if scaledPrice pool.reserveBase.toNat pool.reserveQuote.toNat = 0 then none
  else some (exactPriceAfter tx pool)

/-- The simulation returns, and predicts the exact price. -/
def PredictsExactly (tx : PendingMempoolTx) (pool : UniswapV2Pool) : Prop :=
  ∃ shift, simulatePendingSwap tx pool = .ok shift ∧
    shift.map (·.predictedSpotPrice.toInt) = exactPrediction tx pool

/-! ## The swap in 128 bits -/

/-- A pool with the reserves, the fee and the decimals of an on-chain pool. -/
structure Sized (pool : UniswapV2Pool) : Prop where
  base : 0 < pool.reserveBase.toNat ∧ pool.reserveBase.toNat < 2 ^ 112
  quote : 0 < pool.reserveQuote.toNat ∧ pool.reserveQuote.toNat < 2 ^ 112
  numerator : pool.feeNumerator.toNat ≤ 10000
  denominator : pool.feeDenominator.toNat = 10000
  baseDecimals : pool.baseDecimals = 18
  quoteDecimals : pool.quoteDecimals = 6

lemma sized_new {x y : U128} {feeBps : UInt16} (hfee : feeBps ≤ 10000)
    (hx : 0 < x.toNat ∧ x.toNat < 2 ^ 112) (hy : 0 < y.toNat ∧ y.toNat < 2 ^ 112) :
    Sized (.new x y feeBps) where
  base := hx
  quote := hy
  numerator := by
    have hle : feeBps.toNat ≤ 10000 := UInt16.le_iff_toNat_le.mp hfee
    have hword : (BitVec.ofNat 128 feeBps.toNat).toNat = feeBps.toNat := by
      rw [BitVec.toNat_ofNat]
      exact Nat.mod_eq_of_lt (by omega)
    have hten : BitVec.toNat (10000 : U128) = 10000 := rfl
    show ((10000 : U128) - BitVec.ofNat 128 feeBps.toNat).toNat ≤ 10000
    rw [BitVec.toNat_sub_of_le (BitVec.le_def.mpr (by rw [hword, hten]; exact hle)), hten]
    exact Nat.sub_le _ _
  denominator := rfl
  baseDecimals := rfl
  quoteDecimals := rfl

variable {tx : PendingMempoolTx} {pool : UniswapV2Pool}

lemma Sized.reserves (h : Sized pool) (tx : PendingMempoolTx) :
    (0 < (reserveIn tx pool).toNat ∧ (reserveIn tx pool).toNat < 2 ^ 112) ∧
      0 < (reserveOut tx pool).toNat ∧ (reserveOut tx pool).toNat < 2 ^ 112 := by
  unfold reserveIn reserveOut
  split
  · exact ⟨h.quote, h.base⟩
  · exact ⟨h.base, h.quote⟩

/-- Amount and fee fit together with a reserve and its scale. -/
lemma outDenominator_lt (h : Sized pool) (ha : tx.amountIn.toNat < 2 ^ 112) :
    tx.amountIn.toNat * pool.feeNumerator.toNat < 2 ^ 127 ∧ outDenominator tx pool < 2 ^ 127 := by
  have hlt := (h.reserves tx).1.2
  have hfee := Nat.mul_le_mul_left tx.amountIn.toNat h.numerator
  unfold outDenominator
  rw [h.denominator]
  omega

lemma exactOut_lt (h : Sized pool) : exactOut tx pool < (reserveOut tx pool).toNat :=
  ConstantProduct.output_lt _ _ (by rw [h.denominator]; decide) (h.reserves tx).1.1
    (h.reserves tx).2.1

lemma wrappedOut_le (tx : PendingMempoolTx) (pool : UniswapV2Pool) :
    wrappedOut tx pool ≤ exactOut tx pool :=
  Nat.div_le_div_right (Nat.mod_le _ _)

/-- The base reserve is neither emptied nor too large for a word. -/
lemma baseAfter_bounds (h : Sized pool) (ha : tx.amountIn.toNat < 2 ^ 112) {out : ℕ}
    (hless : out < (reserveOut tx pool).toNat) :
    0 < baseAfter tx pool out ∧ baseAfter tx pool out ≤ 2 ^ 128 := by
  obtain ⟨hpos, hlt⟩ := h.base
  unfold reserveOut at hless
  unfold baseAfter
  by_cases hbuy : tx.isBuy = true
  · rw [if_pos hbuy] at hless
    rw [if_pos hbuy]
    omega
  · rw [if_neg hbuy]
    omega

/-- The reserves of the simulated pool are those after the output of 128 bits. -/
lemma simulatedPool_wraps (h : Sized pool) (ha : tx.amountIn.toNat < 2 ^ 112) :
    (simulatedPool tx pool).reserveBase.toNat = baseAfter tx pool (wrappedOut tx pool) ∧
      (simulatedPool tx pool).reserveQuote.toNat = quoteAfter tx pool (wrappedOut tx pool) ∧
      (simulatedPool tx pool).baseDecimals = 18 ∧ (simulatedPool tx pool).quoteDecimals = 6 := by
  obtain ⟨hwithFee, hweight⟩ := outDenominator_lt h ha
  obtain ⟨⟨hin, hinLt⟩, -, houtLt⟩ := h.reserves tx
  obtain ⟨out, hamount, hvalue⟩ := amountOut_wraps (reserveOut tx pool)
    (by rw [h.denominator]; decide) hin (by omega) (Nat.lt_trans hweight (by decide))
  have hout : out.toNat = wrappedOut tx pool := hvalue
  -- the wrapped output is no more than the exact one, so that the reserve covers it
  have hless : out.toNat < (reserveOut tx pool).toNat := by
    rw [hout]
    exact lt_of_le_of_lt (wrappedOut_le tx pool) (exactOut_lt h)
  have hafter := exchange_eq hamount hless
  have hadd : (reserveIn tx pool + tx.amountIn).toNat
      = (reserveIn tx pool).toNat + tx.amountIn.toNat := toNat_add_of_lt (by omega)
  have hsub : (reserveOut tx pool - out).toNat = (reserveOut tx pool).toNat - out.toNat :=
    BitVec.toNat_sub_of_le (Nat.le_of_lt hless)
  rw [hout] at hsub
  unfold simulatedPool baseAfter quoteAfter
  unfold reserveIn reserveOut at hafter
  unfold reserveIn at hadd
  unfold reserveOut at hsub
  by_cases hbuy : tx.isBuy = true
  · rw [if_pos hbuy, if_pos hbuy] at hafter
    rw [if_pos hbuy] at hadd hsub
    rw [if_pos hbuy, if_pos hbuy, if_pos hbuy, hafter]
    exact ⟨hsub, hadd, h.baseDecimals, h.quoteDecimals⟩
  · rw [if_neg hbuy, if_neg hbuy] at hafter
    rw [if_neg hbuy] at hadd hsub
    rw [if_neg hbuy, if_neg hbuy, if_neg hbuy, hafter]
    exact ⟨hadd, hsub, h.baseDecimals, h.quoteDecimals⟩

/-! ## The price in 128 bits -/

/-- What is left of the price when the scaled quote is cut to 128 bits and the quotient to 64. -/
def wordPrice (base quote : ℕ) : ℤ := ((quote * 10 ^ 20 % 2 ^ 128 / base : ℕ) : ℤ).bmod (2 ^ 64)

lemma spotPriceScaled_wraps (hdecimals : pool.baseDecimals = 18 ∧ pool.quoteDecimals = 6)
    (hbase : 0 < pool.reserveBase.toNat) :
    ∃ spot, pool.spotPriceScaled = .ok spot ∧
      spot.toInt = wordPrice pool.reserveBase.toNat pool.reserveQuote.toNat := by
  have hne : pool.reserveBase ≠ 0 := by
    intro hzero
    rw [hzero] at hbase
    exact absurd hbase (by decide)
  have hdiff : UniswapV2Pool.pow10 (18 - 6) = 1000000000000 := by decide
  -- both factors in one product, of which 128 bits stay
  have hscale : (pool.reserveQuote * 1000000000000 * 100000000).toNat
      = pool.reserveQuote.toNat * 10 ^ 20 % 2 ^ 128 := by
    have hunit : (1000000000000 : U128) * 100000000 = 100000000000000000000 := by decide
    rw [BitVec.mul_assoc, hunit, BitVec.toNat_mul]
    rfl
  have hnarrowed : (divided (pool.reserveQuote * 1000000000000 * 100000000)
      pool.reserveBase).map toI64
      = .ok (toI64 (pool.reserveQuote * 1000000000000 * 100000000 / pool.reserveBase)) := by
    rw [divided, if_neg hne]
    rfl
  refine ⟨toI64 (pool.reserveQuote * 1000000000000 * 100000000 / pool.reserveBase), ?_, ?_⟩
  · unfold UniswapV2Pool.spotPriceScaled
    rw [if_neg hne, hdecimals.1, hdecimals.2, if_pos (by decide), hdiff, ← hnarrowed]
    rfl
  · rw [toInt_toI64_eq_bmod, BitVec.toNat_udiv, hscale]
    rfl

/-- A quotient of what is left is no larger than the exact price. -/
lemma wordPrice_eq {base quote : ℕ} (hfits : scaledPrice base quote < 2 ^ 63) :
    wordPrice base quote = (quote * 10 ^ 20 % 2 ^ 128 / base : ℕ) := by
  have hle : quote * 10 ^ 20 % 2 ^ 128 / base ≤ scaledPrice base quote :=
    Nat.div_le_div_right (Nat.mod_le _ _)
  unfold wordPrice
  generalize quote * 10 ^ 20 % 2 ^ 128 / base = rest at hle ⊢
  apply Int.bmod_eq_of_le <;> omega

/-- The price is exact only when nothing is cut off. -/
lemma wordPrice_eq_scaledPrice_iff {base quote : ℕ} (hbase : 0 < base ∧ base ≤ 2 ^ 128)
    (hfits : scaledPrice base quote < 2 ^ 63) :
    wordPrice base quote = scaledPrice base quote ↔ quote * 10 ^ 20 < 2 ^ 128 := by
  rw [wordPrice_eq hfits]
  constructor
  · intro heq
    by_contra hcut
    have hrest : quote * 10 ^ 20 % 2 ^ 128 + base ≤ quote * 10 ^ 20 := by omega
    have hdiv := Nat.div_le_div_right (c := base) hrest
    rw [Nat.add_div_right _ hbase.1] at hdiv
    unfold scaledPrice at heq
    omega
  · intro hlt
    rw [Nat.mod_eq_of_lt hlt]
    rfl

/-! ## When the prediction is exact -/

/-- The price before is exact enough for the simulation to predict at all. -/
lemma spot_pos_iff {base quote : ℕ} (hbase : 0 < base) (hfits : scaledPrice base quote < 2 ^ 63) :
    0 < wordPrice base quote ↔ base ≤ quote * 10 ^ 20 % 2 ^ 128 := by
  rw [wordPrice_eq hfits, Int.natCast_pos, Nat.div_pos_iff]
  exact and_iff_right hbase

/-- The simulation of a sized pool: what it predicts, and when. -/
lemma simulatePendingSwap_wraps (h : Sized pool) (ha : tx.amountIn.toNat < 2 ^ 112)
    (hbefore : scaledPrice pool.reserveBase.toNat pool.reserveQuote.toNat < 2 ^ 63) :
    ∃ shift, simulatePendingSwap tx pool = .ok shift ∧
      shift.map (·.predictedSpotPrice.toInt) =
        if pool.reserveBase.toNat ≤ pool.reserveQuote.toNat * 10 ^ 20 % 2 ^ 128 then
          some (wordPrice (baseAfter tx pool (wrappedOut tx pool))
            (quoteAfter tx pool (wrappedOut tx pool)))
        else none := by
  obtain ⟨hbaseAfter, hquoteAfter, hdecimals⟩ := simulatedPool_wraps h ha
  have hpos : 0 < (simulatedPool tx pool).reserveBase.toNat := by
    rw [hbaseAfter]
    exact (baseAfter_bounds h ha (lt_of_le_of_lt (wrappedOut_le tx pool) (exactOut_lt h))).1
  obtain ⟨spot, hspot, hword⟩ := spotPriceScaled_wraps ⟨h.baseDecimals, h.quoteDecimals⟩ h.base.1
  obtain ⟨after, hafter, hwordAfter⟩ := spotPriceScaled_wraps hdecimals hpos
  obtain ⟨shift, hshift, hsome, hevent⟩ := simulatePendingSwap_eq hspot hafter
  have hpredicts : shift.isSome ↔
      pool.reserveBase.toNat ≤ pool.reserveQuote.toNat * 10 ^ 20 % 2 ^ 128 := by
    rw [hsome, Int64.lt_iff_toInt_lt, Int64.toInt_zero, hword, spot_pos_iff h.base.1 hbefore]
  refine ⟨shift, hshift, ?_⟩
  cases shift with
  | none =>
    rw [if_neg fun hle => absurd (hpredicts.mpr hle) (by decide)]
    rfl
  | some event =>
    rw [if_pos (hpredicts.mp rfl), Option.map_some, (hevent event rfl).1, hwordAfter, hbaseAfter,
      hquoteAfter]

/-! ## Small outputs -/

/-- A larger divisor keeps a quotient when the remainder pays for it. -/
lemma div_add_eq_iff {q b s : ℕ} (hb : 0 < b ∧ b ≤ 2 ^ 128) :
    q % 2 ^ 128 / (b + s) = q / b ↔ q < 2 ^ 128 ∧ q / b * s ≤ q % b := by
  have hrest := Nat.mod_lt q hb.1
  have hdivides := Nat.div_add_mod q b
  rw [Nat.mul_comm] at hdivides
  constructor
  · intro heq
    have hle := Nat.div_mul_le_self (q % 2 ^ 128) (b + s)
    rw [heq, Nat.mul_add] at hle
    omega
  · rintro ⟨hlt, hpays⟩
    rw [Nat.mod_eq_of_lt hlt]
    refine Nat.le_antisymm (Nat.div_le_div_left (Nat.le_add_right b s) hb.1) ?_
    rw [Nat.le_div_iff_mul_le (by omega), Nat.mul_add]
    omega

/-- A larger dividend keeps a quotient when it and the remainder stay below the divisor, apart from
what is cut off. -/
lemma add_div_eq_iff {q t b : ℕ} (hb : 0 < b) :
    (q + t) % 2 ^ 128 / b = q / b ↔ 2 ^ 128 * ((q + t) / 2 ^ 128) ≤ q % b + t ∧
      q % b + t < 2 ^ 128 * ((q + t) / 2 ^ 128) + b := by
  have hdivides := Nat.div_add_mod q b
  have hcut := Nat.div_add_mod (q + t) (2 ^ 128)
  rw [Nat.div_eq_iff hb, Nat.mul_comm (q / b) b]
  omega

/-- By how much the output falls short when its numerator is cut. -/
def outShortfall (tx : PendingMempoolTx) (pool : UniswapV2Pool) : ℕ :=
  exactOut tx pool - wrappedOut tx pool

/-- The shortfall does not reach the floored price. After a buy it is left in the base reserve, and
the remainder of the price has to pay for it; after a sell it is left in the quote reserve, and has
to stay, up to what is cut off there, below the next price. -/
def ShortfallHidden (tx : PendingMempoolTx) (pool : UniswapV2Pool) : Prop :=
  let base := baseAfter tx pool (exactOut tx pool)
  let scaled := quoteAfter tx pool (exactOut tx pool) * 10 ^ 20
  let short := outShortfall tx pool * 10 ^ 20
  if tx.isBuy then
    scaled < 2 ^ 128 ∧ exactPriceAfter tx pool * outShortfall tx pool ≤ scaled % base
  else
    2 ^ 128 * ((scaled + short) / 2 ^ 128) ≤ scaled % base + short ∧
      scaled % base + short < 2 ^ 128 * ((scaled + short) / 2 ^ 128) + base

/-- The price after the swap survives the cuts. Where the numerator of the output fits, nothing may
be cut off the scaled quote; else the output is too small, and the price is only right where the
shortfall does not reach it. -/
def AfterSurvives (tx : PendingMempoolTx) (pool : UniswapV2Pool) : Prop :=
  if outNumerator tx pool < 2 ^ 128 then quoteAfter tx pool (exactOut tx pool) * 10 ^ 20 < 2 ^ 128
  else ShortfallHidden tx pool

/-- The reserves after the smaller output. -/
lemma after_wrappedOut (h : Sized pool) :
    (tx.isBuy = true →
      baseAfter tx pool (wrappedOut tx pool)
          = baseAfter tx pool (exactOut tx pool) + outShortfall tx pool ∧
        quoteAfter tx pool (wrappedOut tx pool) = quoteAfter tx pool (exactOut tx pool)) ∧
      (tx.isBuy ≠ true →
        baseAfter tx pool (wrappedOut tx pool) = baseAfter tx pool (exactOut tx pool) ∧
        quoteAfter tx pool (wrappedOut tx pool)
          = quoteAfter tx pool (exactOut tx pool) + outShortfall tx pool) := by
  have hle := wrappedOut_le tx pool
  have hless : exactOut tx pool < (reserveOut tx pool).toNat := exactOut_lt h
  unfold reserveOut at hless
  unfold baseAfter quoteAfter outShortfall
  constructor
  · intro hbuy
    rw [if_pos hbuy] at hless
    simp only [if_pos hbuy]
    exact ⟨by omega, trivial⟩
  · intro hsell
    rw [if_neg hsell] at hless
    simp only [if_neg hsell]
    exact ⟨trivial, by omega⟩

lemma shortfallHidden_iff (h : Sized pool) (ha : tx.amountIn.toNat < 2 ^ 112)
    (hbefore : scaledPrice pool.reserveBase.toNat pool.reserveQuote.toNat < 2 ^ 63)
    (hafter : exactPriceAfter tx pool < 2 ^ 63) :
    ShortfallHidden tx pool ↔
      wordPrice (baseAfter tx pool (wrappedOut tx pool)) (quoteAfter tx pool (wrappedOut tx pool))
        = exactPriceAfter tx pool := by
  have hbase := baseAfter_bounds h ha (exactOut_lt h)
  unfold ShortfallHidden
  dsimp only
  by_cases hbuy : tx.isBuy = true
  · obtain ⟨hbase', hquote'⟩ := (after_wrappedOut h).1 hbuy
    have hfits : scaledPrice (baseAfter tx pool (exactOut tx pool) + outShortfall tx pool)
        (quoteAfter tx pool (exactOut tx pool)) < 2 ^ 63 :=
      lt_of_le_of_lt (Nat.div_le_div_left (Nat.le_add_right _ _) hbase.1) hafter
    rw [if_pos hbuy, hbase', hquote', wordPrice_eq hfits, Nat.cast_inj]
    exact (div_add_eq_iff hbase).symm
  · obtain ⟨hbase', hquote'⟩ := (after_wrappedOut h).2 hbuy
    -- a sell lowers the price, even with the smaller output
    have hfits : scaledPrice (baseAfter tx pool (exactOut tx pool))
        (quoteAfter tx pool (exactOut tx pool) + outShortfall tx pool) < 2 ^ 63 := by
      refine lt_of_le_of_lt ?_ hbefore
      rw [← hquote']
      unfold scaledPrice baseAfter quoteAfter
      rw [if_neg hbuy, if_neg hbuy]
      exact Nat.div_le_div (Nat.mul_le_mul_right _ (Nat.sub_le _ _)) (Nat.le_add_right _ _)
        (Nat.ne_of_gt h.base.1)
    rw [if_neg hbuy, hbase', hquote', wordPrice_eq hfits, Nat.cast_inj, Nat.add_mul]
    exact (add_div_eq_iff hbase.1).symm

lemma afterSurvives_iff (h : Sized pool) (ha : tx.amountIn.toNat < 2 ^ 112)
    (hbefore : scaledPrice pool.reserveBase.toNat pool.reserveQuote.toNat < 2 ^ 63)
    (hafter : exactPriceAfter tx pool < 2 ^ 63) :
    AfterSurvives tx pool ↔
      wordPrice (baseAfter tx pool (wrappedOut tx pool)) (quoteAfter tx pool (wrappedOut tx pool))
        = exactPriceAfter tx pool := by
  unfold AfterSurvives
  split
  · next hfits =>
    have hsame : wrappedOut tx pool = exactOut tx pool := by
      rw [wrappedOut, Nat.mod_eq_of_lt hfits]
      rfl
    rw [hsame]
    exact (wordPrice_eq_scaledPrice_iff (baseAfter_bounds h ha (exactOut_lt h)) hafter).symm
  · exact shortfallHidden_iff h ha hbefore hafter

lemma predictsExactly_of_sized (h : Sized pool) (ha : tx.amountIn.toNat < 2 ^ 112)
    (hbefore : scaledPrice pool.reserveBase.toNat pool.reserveQuote.toNat < 2 ^ 63)
    (hafter : exactPriceAfter tx pool < 2 ^ 63) :
    PredictsExactly tx pool ↔
      scaledPrice pool.reserveBase.toNat pool.reserveQuote.toNat = 0 ∨
      pool.reserveBase.toNat ≤ pool.reserveQuote.toNat * 10 ^ 20 % 2 ^ 128 ∧
        AfterSurvives tx pool := by
  obtain ⟨shift, hrun, hprice⟩ := simulatePendingSwap_wraps h ha hbefore
  have hruns : PredictsExactly tx pool ↔
      shift.map (·.predictedSpotPrice.toInt) = exactPrediction tx pool := by
    constructor
    · intro hexact
      obtain ⟨shift', hrun', hprediction⟩ := hexact
      obtain rfl := Except.ok.inj (hrun.symm.trans hrun')
      exact hprediction
    · exact fun hprediction => ⟨shift, hrun, hprediction⟩
  -- a price of zero stays zero when the product is cut
  have hcut : scaledPrice pool.reserveBase.toNat pool.reserveQuote.toNat = 0 →
      ¬ pool.reserveBase.toNat ≤ pool.reserveQuote.toNat * 10 ^ 20 % 2 ^ 128 := by
    intro hzero hle
    have hlt := (Nat.div_eq_zero_iff_lt h.base.1).mp hzero
    exact absurd (Nat.le_trans hle (Nat.mod_le _ _)) (Nat.not_le.mpr hlt)
  rw [hruns, hprice, afterSurvives_iff h ha hbefore hafter, exactPrediction]
  by_cases hzero : scaledPrice pool.reserveBase.toNat pool.reserveQuote.toNat = 0
  · rw [if_neg (hcut hzero), if_pos hzero]
    exact iff_of_true rfl (.inl hzero)
  · rw [if_neg hzero, or_iff_right hzero]
    by_cases hpredicts : pool.reserveBase.toNat ≤ pool.reserveQuote.toNat * 10 ^ 20 % 2 ^ 128
    · rw [if_pos hpredicts, Option.some_inj, and_iff_right hpredicts]
    · rw [if_neg hpredicts]
      exact iff_of_false (by simp) (fun hboth => hpredicts hboth.1)

/-- When the price of a simulated swap on an on-chain pool is the exact one. -/
theorem predictsExactly_iff {x y : U128} {feeBps : UInt16} {tx : PendingMempoolTx}
    (hfee : feeBps ≤ 10000) (hx : 0 < x.toNat ∧ x.toNat < 2 ^ 112)
    (hy : 0 < y.toNat ∧ y.toNat < 2 ^ 112) (ha : tx.amountIn.toNat < 2 ^ 112)
    (hbefore : scaledPrice x.toNat y.toNat < 2 ^ 63)
    (hafter : exactPriceAfter tx (.new x y feeBps) < 2 ^ 63) :
    PredictsExactly tx (.new x y feeBps) ↔
      scaledPrice x.toNat y.toNat = 0 ∨
      x.toNat ≤ y.toNat * 10 ^ 20 % 2 ^ 128 ∧ AfterSurvives tx (.new x y feeBps) :=
  predictsExactly_of_sized (sized_new hfee hx hy) ha hbefore hafter

/-- 40000 units of base against 100 million of quote. -/
def deepPool : UniswapV2Pool := .new 40000000000000000000000 100000000000000 30

theorem predictsExactly_iff_deepPool :
    PredictsExactly (pendingSwap true 1000000000) deepPool ↔
      scaledPrice 40000000000000000000000 100000000000000 = 0 ∨
      40000000000000000000000 ≤ 100000000000000 * 10 ^ 20 % 2 ^ 128 ∧
        AfterSurvives (pendingSwap true 1000000000) deepPool :=
  predictsExactly_iff (x := 40000000000000000000000) (y := 100000000000000) (by decide)
    ⟨by decide, by decide⟩ ⟨by decide, by decide⟩ (by decide) (by decide) (by decide +kernel)

/-- A buy of one million: the predicted price is 2528.66, the exact one 2550.17. -/
theorem deep_prediction_wraps :
    ¬ ∀ (x y : U128) (feeBps : UInt16) (tx : PendingMempoolTx), feeBps ≤ 10000 →
      0 < x.toNat ∧ x.toNat < 2 ^ 112 → 0 < y.toNat ∧ y.toNat < 2 ^ 112 →
      tx.amountIn.toNat < 2 ^ 112 → scaledPrice x.toNat y.toNat < 2 ^ 63 →
      exactPriceAfter tx (.new x y feeBps) < 2 ^ 63 → PredictsExactly tx (.new x y feeBps) := by
  intro h
  obtain ⟨shift, hrun, hprediction⟩ := h 40000000000000000000000 100000000000000 30
    (pendingSwap true 1000000000000) (by decide) ⟨by decide, by decide⟩ ⟨by decide, by decide⟩
    (by decide) (by decide) (by decide +kernel)
  have hexact : exactPrediction (pendingSwap true 1000000000000) deepPool = some 255017424999 := by
    decide +kernel
  have hpredicted : (simulatePendingSwap (pendingSwap true 1000000000000) deepPool).map
      (Option.map (·.predictedSpotPrice.toInt)) = .ok (some 252866276621) := by decide +kernel
  unfold deepPool at hexact hpredicted
  rw [hrun] at hpredicted
  have hshift : shift.map (·.predictedSpotPrice.toInt) = some 252866276621 :=
    Except.ok.inj hpredicted
  rw [hprediction, hexact] at hshift
  exact absurd hshift (by decide)

end SpeculativeStateSimulator

end ChainMarketPrice.OnchainIngest
