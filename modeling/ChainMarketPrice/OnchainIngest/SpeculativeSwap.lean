import ChainMarketPrice.Lib.ConstantProduct
import ChainMarketPrice.AmmVirtualizer.UniswapV2

/-!
# The speculative swap

`SpeculativeStateSimulator` of `crates/onchain-ingest/src/lib.rs`: a pending swap is applied to a
copy of the pool, and the spot prices before and after are compared. Buying and selling are one
exchange with the two reserves in different places. While nothing leaves 128 bits the exchange is
the exact one, so it loses no value and moves the price the right way
(`swap_sound`).
-/

namespace ChainMarketPrice.OnchainIngest

open AmmVirtualizer FixedWidth

/-- The fields of a pending transaction that the simulation reads. -/
structure PendingMempoolTx where
  txHash : Vector UInt8 32
  targetPool : Vector UInt8 20
  gasPriorityFeeGwei : UInt32
  isBuy : Bool
  amountIn : U128
deriving DecidableEq

structure SpeculativeShiftEvent where
  poolAddress : Vector UInt8 20
  predictedSpotPrice : Int64
  priceImpactBps : UInt16
  txHash : Vector UInt8 32
  priorityFeeGwei : UInt32
deriving DecidableEq

namespace SpeculativeStateSimulator

/-- `amount_out`, unless the denominator is zero. -/
def amountOut (pool : UniswapV2Pool) (reserveIn reserveOut amountIn : U128) : Option U128 :=
  let amountInWithFee := amountIn * pool.feeNumerator
  let numerator := amountInWithFee * reserveOut
  let denominator := reserveIn * pool.feeDenominator + amountInWithFee
  if denominator > 0 then some (numerator / denominator) else none

/-- The input and the output reserve after the swap: as they were when the output would empty
the reserve. -/
def exchange (pool : UniswapV2Pool) (reserveIn reserveOut amountIn : U128) : U128 × U128 :=
  match amountOut pool reserveIn reserveOut amountIn with
  | some out =>
    if reserveOut > out then (reserveIn + amountIn, reserveOut - out) else (reserveIn, reserveOut)
  | none => (reserveIn, reserveOut)

/-- The pool after the swap. A buyer pays quote for base, a seller base for quote. -/
def simulatedPool (tx : PendingMempoolTx) (pool : UniswapV2Pool) : UniswapV2Pool :=
  if tx.isBuy then
    let reserves := exchange pool pool.reserveQuote pool.reserveBase tx.amountIn
    { pool with reserveQuote := reserves.1, reserveBase := reserves.2 }
  else
    let reserves := exchange pool pool.reserveBase pool.reserveQuote tx.amountIn
    { pool with reserveBase := reserves.1, reserveQuote := reserves.2 }

/-- The difference of the prices in basis points of the first. -/
def impactBps (spotBefore spotAfter : Int64) : UInt16 :=
  if spotAfter > spotBefore then
    (((spotAfter - spotBefore) * 10000) / spotBefore).toUInt64.toUInt16
  else if spotBefore > spotAfter then
    (((spotBefore - spotAfter) * 10000) / spotBefore).toUInt64.toUInt16
  else 0

def simulatePendingSwap (tx : PendingMempoolTx) (pool : UniswapV2Pool) :
    Except Panic (Option SpeculativeShiftEvent) := do
  let spotBefore ← pool.spotPriceScaled
  if spotBefore ≤ 0 then return none
  let spotAfter ← (simulatedPool tx pool).spotPriceScaled
  return some {
    poolAddress := tx.targetPool
    predictedSpotPrice := spotAfter
    priceImpactBps := impactBps spotBefore spotAfter
    txHash := tx.txHash
    priorityFeeGwei := tx.gasPriorityFeeGwei }

/-! ## One exchange -/

section

variable {pool : UniswapV2Pool} {reserveIn reserveOut amountIn : U128}

/-- No product of an exchange overflows. -/
structure ProductsFit (pool : UniswapV2Pool) (reserveIn reserveOut amountIn : U128) : Prop where
  withFee : amountIn.toNat * pool.feeNumerator.toNat < 2 ^ 128
  numerator : amountIn.toNat * pool.feeNumerator.toNat * reserveOut.toNat < 2 ^ 128
  denominator : reserveIn.toNat * pool.feeDenominator.toNat < 2 ^ 128

/-- No sum of an exchange overflows. -/
structure SumsFit (pool : UniswapV2Pool) (reserveIn amountIn : U128) : Prop where
  denominator :
    reserveIn.toNat * pool.feeDenominator.toNat + amountIn.toNat * pool.feeNumerator.toNat < 2 ^ 128
  reserve : reserveIn.toNat + amountIn.toNat < 2 ^ 128

/-- The output when only its numerator may overflow. -/
lemma amountOut_wraps (reserveOut : U128) (hden : 0 < pool.feeDenominator.toNat) (hin : 0 < reserveIn.toNat)
    (hwithFee : amountIn.toNat * pool.feeNumerator.toNat < 2 ^ 128)
    (hweight : reserveIn.toNat * pool.feeDenominator.toNat
      + amountIn.toNat * pool.feeNumerator.toNat < 2 ^ 128) :
    ∃ out, amountOut pool reserveIn reserveOut amountIn = some out ∧
      out.toNat = amountIn.toNat * pool.feeNumerator.toNat * reserveOut.toNat % 2 ^ 128
        / (reserveIn.toNat * pool.feeDenominator.toNat
          + amountIn.toNat * pool.feeNumerator.toNat) := by
  have hfee := toNat_mul_of_lt hwithFee
  have hpaid := toNat_mul_of_lt (Nat.lt_of_le_of_lt (Nat.le_add_right _ _) hweight)
  have hdenominator : (reserveIn * pool.feeDenominator + amountIn * pool.feeNumerator).toNat
      = reserveIn.toNat * pool.feeDenominator.toNat
        + amountIn.toNat * pool.feeNumerator.toNat := by
    rw [toNat_add_of_lt (by rw [hpaid, hfee]; exact hweight), hpaid, hfee]
  have hpos : reserveIn * pool.feeDenominator + amountIn * pool.feeNumerator > 0 := by
    rw [gt_iff_lt, BitVec.lt_def, hdenominator]
    exact ConstantProduct.weight_pos pool.feeNumerator.toNat amountIn.toNat hden hin
  refine ⟨amountIn * pool.feeNumerator * reserveOut
    / (reserveIn * pool.feeDenominator + amountIn * pool.feeNumerator), ?_, ?_⟩
  · exact if_pos hpos
  · rw [BitVec.toNat_udiv, BitVec.toNat_mul, hfee, hdenominator]

/-- Without overflow the output is the exact one. -/
lemma amountOut_eq (hden : 0 < pool.feeDenominator.toNat) (hin : 0 < reserveIn.toNat)
    (hproducts : ProductsFit pool reserveIn reserveOut amountIn)
    (hsums : SumsFit pool reserveIn amountIn) :
    ∃ out, amountOut pool reserveIn reserveOut amountIn = some out ∧
      out.toNat = ConstantProduct.output pool.feeNumerator.toNat pool.feeDenominator.toNat
        reserveIn.toNat reserveOut.toNat amountIn.toNat := by
  obtain ⟨out, hout, hvalue⟩ := amountOut_wraps reserveOut hden hin hproducts.withFee
    hsums.denominator
  rw [Nat.mod_eq_of_lt hproducts.numerator] at hvalue
  exact ⟨out, hout, hvalue⟩

/-- An output below the reserve is exchanged. -/
lemma exchange_eq {out : U128} (hamount : amountOut pool reserveIn reserveOut amountIn = some out)
    (hless : out.toNat < reserveOut.toNat) :
    exchange pool reserveIn reserveOut amountIn = (reserveIn + amountIn, reserveOut - out) := by
  rw [exchange, hamount]
  exact if_pos (BitVec.lt_def.mpr hless)

/-- Without overflow the reserves move by the input and the output, and their product does not
fall. -/
lemma exchange_sound (hfee : pool.feeNumerator.toNat ≤ pool.feeDenominator.toNat)
    (hden : 0 < pool.feeDenominator.toNat) (hin : 0 < reserveIn.toNat)
    (hout : 0 < reserveOut.toNat) (hproducts : ProductsFit pool reserveIn reserveOut amountIn)
    (hsums : SumsFit pool reserveIn amountIn) :
    ∃ out, amountOut pool reserveIn reserveOut amountIn = some out ∧ out < reserveOut ∧
      let after := exchange pool reserveIn reserveOut amountIn
      reserveIn.toNat ≤ after.1.toNat ∧ 0 < after.2.toNat ∧ after.2.toNat ≤ reserveOut.toNat ∧
      reserveIn.toNat * reserveOut.toNat ≤ after.1.toNat * after.2.toNat := by
  obtain ⟨out, hamount, hexact⟩ := amountOut_eq hden hin hproducts hsums
  have hlt := ConstantProduct.output_lt pool.feeNumerator.toNat amountIn.toNat hden hin hout
  have hinvariant := ConstantProduct.mul_le_mul_after reserveIn.toNat reserveOut.toNat amountIn.toNat
    hden hfee
  rw [← hexact] at hlt hinvariant
  have hless : out < reserveOut := BitVec.lt_def.mpr hlt
  have hafter := exchange_eq hamount hlt
  have hadd := toNat_add_of_lt hsums.reserve
  have hsub : (reserveOut - out).toNat = reserveOut.toNat - out.toNat :=
    BitVec.toNat_sub_of_le (BitVec.le_of_lt hless)
  refine ⟨out, hamount, hless, ?_⟩
  rw [hafter]
  dsimp only
  rw [hadd, hsub]
  exact ⟨by omega, by omega, by omega, hinvariant⟩

end

/-! ## The whole simulation -/

/-- The reserve that the trader pays into. -/
def reserveIn (tx : PendingMempoolTx) (pool : UniswapV2Pool) : U128 :=
  if tx.isBuy then pool.reserveQuote else pool.reserveBase

/-- The reserve that the trader is paid from. -/
def reserveOut (tx : PendingMempoolTx) (pool : UniswapV2Pool) : U128 :=
  if tx.isBuy then pool.reserveBase else pool.reserveQuote

/-- Both reserves are positive and the fee is a fraction. -/
structure Funded (pool : UniswapV2Pool) : Prop where
  base : 0 < pool.reserveBase.toNat
  quote : 0 < pool.reserveQuote.toNat
  fee : pool.feeNumerator.toNat ≤ pool.feeDenominator.toNat
  denominator : 0 < pool.feeDenominator.toNat

/-- The second price lies on the side of the first that the trade moves it to. -/
def MovesWith (isBuy : Bool) (before after : Int64) : Prop :=
  if isBuy then before ≤ after else after ≤ before

/-- The simulation pays less than the reserve, loses no value, and moves the price with the
trade. It has an event whenever the price is positive. -/
structure SwapSound (tx : PendingMempoolTx) (pool : UniswapV2Pool) : Prop where
  output : ∃ out, amountOut pool (reserveIn tx pool) (reserveOut tx pool) tx.amountIn = some out ∧
    out < reserveOut tx pool
  value : pool.reserveBase.toNat * pool.reserveQuote.toNat ≤
    (simulatedPool tx pool).reserveBase.toNat * (simulatedPool tx pool).reserveQuote.toNat
  price : ∃ spot shift, pool.spotPriceScaled = .ok spot ∧
    simulatePendingSwap tx pool = .ok shift ∧ (shift.isSome ↔ 0 < spot) ∧
    ∀ event ∈ shift, MovesWith tx.isBuy spot event.predictedSpotPrice

/-- The event carries the price of the simulated pool, and the impact on the price before. -/
lemma simulatePendingSwap_eq {tx : PendingMempoolTx} {pool : UniswapV2Pool} {spot after : Int64}
    (hspot : pool.spotPriceScaled = .ok spot)
    (hafter : (simulatedPool tx pool).spotPriceScaled = .ok after) :
    ∃ shift, simulatePendingSwap tx pool = .ok shift ∧ (shift.isSome ↔ 0 < spot) ∧
      ∀ event ∈ shift, event.predictedSpotPrice = after ∧
        event.priceImpactBps = impactBps spot after := by
  unfold simulatePendingSwap
  rw [hspot, hafter]
  by_cases hle : spot ≤ 0
  · -- `Ok(None)`: there is no impact to express in basis points of the price
    refine ⟨none, if_pos hle, ?_, fun event h => absurd h (Option.not_mem_none event)⟩
    exact iff_of_false (by decide) (Int64.not_lt.mpr hle)
  · refine ⟨_, if_neg hle, iff_of_true rfl (Int64.not_le.mp hle), ?_⟩
    intro event hevent
    obtain rfl := Option.some_inj.mp hevent
    exact ⟨rfl, rfl⟩

/-- The reserves stay positive, their product does not fall, and the exact price moves with the
trade. -/
structure Moved (isBuy : Bool) (pool after : UniswapV2Pool) : Prop where
  base : 0 < after.reserveBase.toNat
  quote : 0 < after.reserveQuote.toNat
  value : pool.reserveBase.toNat * pool.reserveQuote.toNat ≤
    after.reserveBase.toNat * after.reserveQuote.toNat
  price : if isBuy then pool.exactPrice ≤ after.exactPrice else after.exactPrice ≤ pool.exactPrice

/-- Base becomes scarcer. -/
lemma moved_of_buy {pool after : UniswapV2Pool} (hfunded : Funded pool)
    (hdecimals : after.baseDecimals = pool.baseDecimals ∧
      after.quoteDecimals = pool.quoteDecimals)
    (hbase : 0 < after.reserveBase.toNat)
    (hless : after.reserveBase.toNat ≤ pool.reserveBase.toNat)
    (hmore : pool.reserveQuote.toNat ≤ after.reserveQuote.toNat)
    (hvalue : pool.reserveQuote.toNat * pool.reserveBase.toNat ≤
      after.reserveQuote.toNat * after.reserveBase.toNat) : Moved true pool after where
  base := hbase
  quote := lt_of_lt_of_le hfunded.quote hmore
  value := by rwa [Nat.mul_comm, Nat.mul_comm after.reserveBase.toNat]
  price := UniswapV2Pool.exactPrice_mono hdecimals hbase hless hmore

/-- Quote becomes scarcer. -/
lemma moved_of_sell {pool after : UniswapV2Pool} (hfunded : Funded pool)
    (hdecimals : after.baseDecimals = pool.baseDecimals ∧
      after.quoteDecimals = pool.quoteDecimals)
    (hquote : 0 < after.reserveQuote.toNat)
    (hmore : pool.reserveBase.toNat ≤ after.reserveBase.toNat)
    (hless : after.reserveQuote.toNat ≤ pool.reserveQuote.toNat)
    (hvalue : pool.reserveBase.toNat * pool.reserveQuote.toNat ≤
      after.reserveBase.toNat * after.reserveQuote.toNat) : Moved false pool after where
  base := lt_of_lt_of_le hfunded.base hmore
  quote := hquote
  value := hvalue
  price := UniswapV2Pool.exactPrice_mono ⟨hdecimals.1.symm, hdecimals.2.symm⟩ hfunded.base hmore hless

lemma simulatedPool_moved {tx : PendingMempoolTx} {pool : UniswapV2Pool} (hfunded : Funded pool)
    (hproducts : ProductsFit pool (reserveIn tx pool) (reserveOut tx pool) tx.amountIn)
    (hsums : SumsFit pool (reserveIn tx pool) tx.amountIn) :
    (∃ out, amountOut pool (reserveIn tx pool) (reserveOut tx pool) tx.amountIn = some out ∧
      out < reserveOut tx pool) ∧ Moved tx.isBuy pool (simulatedPool tx pool) := by
  unfold reserveIn reserveOut simulatedPool at *
  cases htrade : tx.isBuy with
  | true =>
    rw [htrade, if_pos rfl] at hproducts hsums
    rw [if_pos rfl] at hproducts
    obtain ⟨out, hamount, hlt, hin, hpos, hout, hvalue⟩ := exchange_sound hfunded.fee
      hfunded.denominator hfunded.quote hfunded.base hproducts hsums
    exact ⟨⟨out, hamount, hlt⟩, moved_of_buy hfunded ⟨rfl, rfl⟩ hpos hout hin hvalue⟩
  | false =>
    rw [htrade, if_neg Bool.false_ne_true] at hproducts hsums
    rw [if_neg Bool.false_ne_true] at hproducts
    obtain ⟨out, hamount, hlt, hin, hpos, hout, hvalue⟩ := exchange_sound hfunded.fee
      hfunded.denominator hfunded.base hfunded.quote hproducts hsums
    exact ⟨⟨out, hamount, hlt⟩, moved_of_sell hfunded ⟨rfl, rfl⟩ hpos hin hout hvalue⟩

/-- Without overflow the simulation is sound, whatever is traded. -/
theorem swap_sound {tx : PendingMempoolTx} {pool : UniswapV2Pool} (hfunded : Funded pool)
    (hproducts : ProductsFit pool (reserveIn tx pool) (reserveOut tx pool) tx.amountIn)
    (hsums : SumsFit pool (reserveIn tx pool) tx.amountIn) (hbefore : pool.SpotFits)
    (hafter : (simulatedPool tx pool).SpotFits) : SwapSound tx pool := by
  obtain ⟨houtput, hmoved⟩ := simulatedPool_moved hfunded hproducts hsums
  obtain ⟨spot, hspot, hexact⟩ :=
    UniswapV2Pool.spotPriceScaled_eq hfunded.base hfunded.quote hbefore
  obtain ⟨after, hspotAfter, hexactAfter⟩ :=
    UniswapV2Pool.spotPriceScaled_eq hmoved.base hmoved.quote hafter
  obtain ⟨shift, hshift, hsome, hevent⟩ := simulatePendingSwap_eq hspot hspotAfter
  refine ⟨houtput, hmoved.value, spot, shift, hspot, hshift, hsome, fun event hmem => ?_⟩
  have hprice := hmoved.price
  rw [(hevent event hmem).1]
  unfold MovesWith
  rw [Int64.le_iff_toInt_le, Int64.le_iff_toInt_le, hexact, hexactAfter]
  split at hprice
  · next htrade =>
    rw [if_pos htrade]
    omega
  · next htrade =>
    rw [if_neg htrade]
    omega

/-- A swap of the given input on some pool. -/
def pendingSwap (isBuy : Bool) (amountIn : U128) : PendingMempoolTx where
  txHash := Vector.replicate 32 0xaa
  targetPool := Vector.replicate 20 0x11
  gasPriorityFeeGwei := 45
  isBuy := isBuy
  amountIn := amountIn

/-- 1000 units of base against 2000000 of quote, at a fee of 30 basis points. -/
def thousandPool : UniswapV2Pool := .new 1000000000000000000000 2000000000000 30

/-- A buyer pays 100000 quote. -/
theorem swap_sound_largeBuy : SwapSound (pendingSwap true 100000000000) thousandPool :=
  swap_sound ⟨by decide, by decide, by decide, by decide⟩ ⟨by decide, by decide, by decide⟩
    ⟨by decide, by decide⟩ ⟨by decide, by decide, by decide⟩
    ⟨by decide +kernel, by decide +kernel, by decide +kernel⟩

/-- A pool whose fee fraction has 127 bits. -/
def wideFeePool : UniswapV2Pool where
  reserveBase := 1
  reserveQuote := 2
  feeNumerator := 0x40000000000000000000000000000000
  feeDenominator := 0x40000000000000000000000000000001
  baseDecimals := 18
  quoteDecimals := 18

/-- Where only the products are bounded, the sum in the denominator may wrap: then the output is
far more than the reserve. -/
theorem wrapped_sum_overpays :
    ¬ ∀ (tx : PendingMempoolTx) (pool : UniswapV2Pool), Funded pool →
      ProductsFit pool (reserveIn tx pool) (reserveOut tx pool) tx.amountIn →
      pool.SpotFits → (simulatedPool tx pool).SpotFits → SwapSound tx pool := by
  intro h
  have hsound := h (pendingSwap true 2) wideFeePool
    ⟨by decide, by decide, by decide, by decide⟩ ⟨by decide, by decide, by decide⟩
    ⟨by decide, by decide, by decide⟩ ⟨by decide +kernel, by decide +kernel, by decide +kernel⟩
  obtain ⟨out, hamount, hlt⟩ := hsound.output
  have hwrapped : amountOut wideFeePool (reserveIn (pendingSwap true 2) wideFeePool)
      (reserveOut (pendingSwap true 2) wideFeePool) (pendingSwap true 2).amountIn
      = some 0x40000000000000000000000000000000 := by decide +kernel
  rw [hwrapped] at hamount
  cases hamount
  exact absurd hlt (by decide)

end SpeculativeStateSimulator

end ChainMarketPrice.OnchainIngest
