import ChainMarketPrice.AmmVirtualizer.AskWrites
import ChainMarketPrice.AmmVirtualizer.Curve
import ChainMarketPrice.AmmVirtualizer.UniswapV4

/-!
# When a virtual book has a best ask

The three populators that write asks in place leave the best index of a fresh book at the last
slot. So the book reports its cheapest ask only when nothing is left in the slots below.
-/

namespace ChainMarketPrice.AmmVirtualizer

open CoreEngine FixedWidth

/-! ## Loops over ticks -/

/-- The liquidity that a tick meets after the ticks before it have been crossed. -/
def offeredQty (liquidity : U128) (before : List ConcentratedTick) (_ : ConcentratedTick) :
    UInt64 :=
  availableQty (before.foldl crossUp liquidity)

/-- One turn of an ask loop. -/
lemma AskRun.fillAsk {base : Int64} {askPrice : ConcentratedTick → Int64} {liquidity : U128}
    {before : List ConcentratedTick} {st : ContiguousOrderBook × U128}
    (h : AskRun base (some ∘ askPrice) (offeredQty liquidity) before st.1)
    (hliq : st.2 = before.foldl crossUp liquidity) (tsNs : UInt64) (tick : ConcentratedTick) :
    AskRun base (some ∘ askPrice) (offeredQty liquidity) (before ++ [tick])
      (fillAsk askPrice tsNs st tick).1 := by
  have hprice : (some ∘ askPrice) tick = some (askPrice tick) := rfl
  have hwrite := h.write tsNs hprice
  unfold AmmVirtualizer.fillAsk
  rw [hliq]
  exact hwrite

lemma askRun_foldl_fillAsk (base : Int64) (askPrice : ConcentratedTick → Int64)
    (liquidity : U128) (tsNs : UInt64) (ticks : List ConcentratedTick) :
    let st := ticks.foldl (fillAsk askPrice tsNs) (.new base, liquidity)
    AskRun base (some ∘ askPrice) (offeredQty liquidity) ticks st.1 ∧
      st.2 = ticks.foldl crossUp liquidity := by
  induction ticks using List.reverseRecOn with
  | nil => exact ⟨AskRun.fresh, rfl⟩
  | append_singleton ticks tick ih =>
    simp only [List.foldl_append, List.foldl_cons, List.foldl_nil]
    refine ⟨ih.1.fillAsk ih.2 tsNs tick, ?_⟩
    rw [← ih.2]
    rfl

lemma askRun_foldl_fillBid {τ : Type} {base : Int64} {priceOf : τ → Option Int64}
    {qtyOf : List τ → τ → UInt64} {items : List τ} (bidPrice : ConcentratedTick → Int64)
    (tsNs : UInt64) (ticks : List ConcentratedTick) (st : ContiguousOrderBook × U128)
    (h : AskRun base priceOf qtyOf items st.1) :
    AskRun base priceOf qtyOf items (ticks.foldl (fillBid bidPrice tsNs) st).1 := by
  induction ticks generalizing st with
  | nil => exact h
  | cons tick ticks ih =>
    rw [List.foldl_cons]
    apply ih
    unfold fillBid
    dsimp only
    split
    · exact h.updateBid _
    · exact h

lemma askRun_fillBook (base : Int64) (askPrice bidPrice : ConcentratedTick → Int64)
    (above below : List ConcentratedTick) (liquidity : U128) (tsNs : UInt64) :
    AskRun base (some ∘ askPrice) (offeredQty liquidity) above
      (fillBook askPrice bidPrice above below liquidity tsNs (.new base)) :=
  askRun_foldl_fillBid bidPrice tsNs below _
    (askRun_foldl_fillAsk base askPrice liquidity tsNs above).1

/-! ## Prices of ticks stay far from the bounds of `i64` -/

lemma toNat_scaled_lt (pNum : U128) :
    (((pNum >>> 32) * 100000000 + 0x8000000000000000) >>> 64).toNat < 2 ^ 60 := by
  have hlt := pNum.isLt
  have hscale : BitVec.toNat (100000000 : U128) = 100000000 := rfl
  have hround : BitVec.toNat (0x8000000000000000 : U128) = 0x8000000000000000 := rfl
  rw [BitVec.toNat_ushiftRight, BitVec.toNat_add, BitVec.toNat_mul, BitVec.toNat_ushiftRight,
    hscale, hround, Nat.shiftRight_eq_div_pow, Nat.shiftRight_eq_div_pow]
  have hsquare : pNum.toNat / 2 ^ 32 < 2 ^ 96 := by omega
  rw [Nat.mod_eq_of_lt (show pNum.toNat / 2 ^ 32 * 100000000 < 2 ^ 128 by omega),
    Nat.mod_eq_of_lt (by omega)]
  omega

lemma sqrtToPrice_bounds (sqrtPriceX96 : U128) :
    0 ≤ (sqrtToPrice sqrtPriceX96).toInt ∧ (sqrtToPrice sqrtPriceX96).toInt < 2 ^ 60 := by
  unfold sqrtToPrice
  split
  · simp
  · dsimp only
    have hlt := toNat_scaled_lt ((sqrtPriceX96 >>> 48) * (sqrtPriceX96 >>> 48))
    rw [toInt_toI64 (by omega)]
    omega

lemma toInt_tickOffset (distance : Int32) :
    (distance.toInt64 * 100).toInt = distance.toInt * 100 := by
  have hlt := distance.toInt_lt
  have hle := distance.le_toInt
  rw [Int64.toInt_mul, Int32.toInt_toInt64]
  apply Int.bmod_eq_of_le
  · show -(2 ^ 64 / 2 : ℤ) ≤ distance.toInt * 100
    omega
  · show distance.toInt * 100 < (2 ^ 64 + 1) / 2
    omega

/-- A price moved by a number of ticks, as both pools compute it, does not wrap. -/
lemma toInt_priceStep {spot : Int64} (hspot : 0 ≤ spot.toInt ∧ spot.toInt < 2 ^ 60)
    (distance : Int32) :
    (spot + distance.toInt64 * 100).toInt = spot.toInt + distance.toInt * 100 := by
  have hlt := distance.toInt_lt
  have hle := distance.le_toInt
  rw [Int64.toInt_add, toInt_tickOffset]
  apply Int.bmod_eq_of_le <;> omega

lemma priceStep_bounds {spot : Int64} (hspot : 0 ≤ spot.toInt ∧ spot.toInt < 2 ^ 60)
    (distance : Int32) :
    -2 ^ 61 < (spot + distance.toInt64 * 100).toInt ∧
      (spot + distance.toInt64 * 100).toInt < 2 ^ 61 := by
  have hlt := distance.toInt_lt
  have hle := distance.le_toInt
  rw [toInt_priceStep hspot]
  omega

lemma ConcentratedLiquidityPool.askPrice_bounds (pool : ConcentratedLiquidityPool)
    (tick : ConcentratedTick) :
    -2 ^ 61 < (pool.askPrice tick).toInt ∧ (pool.askPrice tick).toInt < 2 ^ 61 :=
  priceStep_bounds (sqrtToPrice_bounds _) _

/-- The fee product wraps, but a twenty-thousandth of any `i64` is small. -/
lemma UniswapV4Pool.halfFee_bounds (pool : UniswapV4Pool) (price : Int64) :
    -2 ^ 50 < (pool.halfFee price).toInt ∧ (pool.halfFee price).toInt < 2 ^ 50 := by
  unfold halfFee
  generalize price * ofU16 pool.effectiveFeeBps = x
  have hdiv : (x / 20000).toInt = x.toInt.tdiv 20000 :=
    Int64.toInt_div_of_ne_right _ _ (by decide)
  have hlt := x.toInt_lt
  have hle := x.le_toInt
  have hbounds := tdiv_bounds (x := x.toInt) (d := 20000) (m := 2 ^ 63) (by decide)
    ⟨by omega, by omega⟩
  rw [hdiv]
  omega

lemma UniswapV4Pool.askPrice_bounds (pool : UniswapV4Pool) (tick : ConcentratedTick) :
    -2 ^ 62 < (pool.askPrice tick).toInt ∧ (pool.askPrice tick).toInt < 2 ^ 62 := by
  unfold askPrice
  dsimp only
  have hstep := priceStep_bounds (sqrtToPrice_bounds pool.sqrtPriceX96)
    (tick.tickIndex - pool.currentTick)
  have hspot : pool.spotPriceScaled = sqrtToPrice pool.sqrtPriceX96 := rfl
  rw [← hspot] at hstep
  generalize pool.spotPriceScaled + (tick.tickIndex - pool.currentTick).toInt64 * 100 = price at *
  have hfee := pool.halfFee_bounds price
  rw [Int64.toInt_add, Int.bmod_eq_of_le]
  · omega
  · omega
  · omega

/-! ## The loop over bands -/

namespace CurvePool

/-- The ask price of a band, when its swap has an output. -/
def bandPrice (pool : CurvePool) (i j : ℕ) (spot : Int64) (bps : UInt16) : Option Int64 :=
  match pool.bandQty i j bps with
  | .ok (some _) => some (spot + bandWidth spot bps)
  | _ => none

/-- The quantity of a band, whatever bands come before it. -/
def bandDepth (pool : CurvePool) (i j : ℕ) (_ : List UInt16) (bps : UInt16) : UInt64 :=
  match pool.bandQty i j bps with
  | .ok (some qty) => qty
  | _ => 0

variable {pool : CurvePool} {i j : ℕ} {spot base : Int64} {tsNs : UInt64}
  {before bands : List UInt16} {book book' : ContiguousOrderBook}

/-- One band. -/
lemma askRun_bandStep {bps : UInt16}
    (h : AskRun base (pool.bandPrice i j spot) (pool.bandDepth i j) before book)
    (hstep : pool.bandStep i j spot tsNs book bps = .ok book') :
    AskRun base (pool.bandPrice i j spot) (pool.bandDepth i j) (before ++ [bps]) book' := by
  unfold bandStep at hstep
  rcases hqty : pool.bandQty i j bps with panic | qty
  · rw [hqty] at hstep
    cases hstep
  · rw [hqty] at hstep
    cases qty with
    | none =>
      cases hstep
      exact h.skip (by simp only [bandPrice, hqty])
    | some qty =>
      have hprice : pool.bandPrice i j spot bps = some (spot + bandWidth spot bps) := by
        simp only [bandPrice, hqty]
      have hdepth : pool.bandDepth i j before bps = qty := by
        simp only [bandDepth, hqty]
      have hwrite := h.write tsNs hprice
      rw [hdepth] at hwrite
      cases hstep
      split
      · exact hwrite.updateBid _
      · exact hwrite

/-- All bands. -/
lemma askRun_foldlM (h : AskRun base (pool.bandPrice i j spot) (pool.bandDepth i j) before book)
    (hloop : bands.foldlM (pool.bandStep i j spot tsNs) book = .ok book') :
    AskRun base (pool.bandPrice i j spot) (pool.bandDepth i j) (before ++ bands) book' := by
  induction bands generalizing before book with
  | nil =>
    cases hloop
    rwa [List.append_nil]
  | cons bps bands ih =>
    rw [List.foldlM_cons] at hloop
    rcases hstep : pool.bandStep i j spot tsNs book bps with panic | next
    · rw [hstep] at hloop
      cases hloop
    · rw [hstep] at hloop
      have hrun := ih (askRun_bandStep h hstep) hloop
      rwa [List.append_assoc, List.singleton_append] at hrun

end CurvePool

/-! ## The best ask of a populated book -/

/-- A fresh book has no ask to report. -/
lemma hasBestAsk_new (base : Int64) : HasBestAsk (.new base) := by
  rintro ⟨l, hl, hq⟩
  obtain ⟨k, rfl⟩ := exists_slot hl
  rw [(ContiguousOrderBook.get_new base k).2] at hq
  exact absurd hq (by decide)

/-- A book filled from ticks whose prices stay far from the bounds of `i64`. -/
lemma hasBestAsk_fillBook_iff (base : Int64) {askPrice : ConcentratedTick → Int64}
    (hbounds : ∀ tick, -2 ^ 62 < (askPrice tick).toInt ∧ (askPrice tick).toInt < 2 ^ 62)
    (bidPrice : ConcentratedTick → Int64) (above below : List ConcentratedTick) (liquidity : U128)
    (tsNs : UInt64) :
    HasBestAsk (fillBook askPrice bidPrice above below liquidity tsNs (.new base)) ↔
      ¬ DepthBelowLast base (some ∘ askPrice) (offeredQty liquidity) above := by
  apply AskRun.hasBestAsk_iff_of_bounded (askRun_fillBook ..)
  intro tick p hp
  rw [← Option.some_inj.mp hp]
  exact hbounds tick

lemma ConcentratedLiquidityPool.hasBestAsk_iff (pool : ConcentratedLiquidityPool) (base : Int64)
    (ticks : List ConcentratedTick) (tsNs : UInt64) :
    HasBestAsk (pool.populateOrderBook (.new base) ticks tsNs) ↔
      (0 < pool.spotPriceScaled →
        ¬ DepthBelowLast base (some ∘ pool.askPrice) (offeredQty pool.currentLiquidity)
          (pool.ticksAbove ticks)) := by
  unfold populateOrderBook
  split
  · next h =>
    simp only [hasBestAsk_new, Int64.not_lt.mpr h, false_imp_iff]
  · next h =>
    have hbounds : ∀ tick, -2 ^ 62 < (pool.askPrice tick).toInt ∧
        (pool.askPrice tick).toInt < 2 ^ 62 := by
      intro tick
      have htick := pool.askPrice_bounds tick
      omega
    rw [hasBestAsk_fillBook_iff base hbounds]
    simp only [Int64.not_le.mp h, true_imp_iff]

lemma UniswapV4Pool.hasBestAsk_iff (pool : UniswapV4Pool) (base : Int64)
    (ticks : List ConcentratedTick) (tsNs : UInt64) :
    HasBestAsk (pool.populateVirtualOrderBook (.new base) ticks tsNs) ↔
      (0 < pool.spotPriceScaled →
        ¬ DepthBelowLast base (some ∘ pool.askPrice) (offeredQty pool.currentLiquidity)
          (pool.ticksAbove ticks)) := by
  unfold populateVirtualOrderBook
  split
  · next h =>
    simp only [hasBestAsk_new, Int64.not_lt.mpr h, false_imp_iff]
  · next h =>
    rw [hasBestAsk_fillBook_iff base pool.askPrice_bounds]
    simp only [Int64.not_le.mp h, true_imp_iff]

lemma CurvePool.populateVirtualOrderBook_eq {pool : CurvePool} {i j : ℕ} {spot : Int64}
    (hspot : pool.spotPriceScaled i j = .ok spot) (book : ContiguousOrderBook)
    (bands : List UInt16) (tsNs : UInt64) :
    pool.populateVirtualOrderBook book i j bands tsNs =
      if spot ≤ 0 then .ok book else bands.foldlM (pool.bandStep i j spot tsNs) book := by
  unfold populateVirtualOrderBook
  rw [hspot]
  rfl

lemma CurvePool.hasBestAsk_iff {pool : CurvePool} {base spot : Int64} {i j : ℕ}
    {bands : List UInt16} {tsNs : UInt64} {book : ContiguousOrderBook}
    (hspot : pool.spotPriceScaled i j = .ok spot)
    (h : pool.populateVirtualOrderBook (.new base) i j bands tsNs = .ok book) :
    HasBestAsk book ↔ (0 < spot →
      ∀ k < lastSlot, ∀ p, Filled base (pool.bandPrice i j spot) (pool.bandDepth i j) bands k p →
        0 ≤ p ∧ ∃ q < 0,
          Filled base (pool.bandPrice i j spot) (pool.bandDepth i j) bands lastSlot q) := by
  rw [populateVirtualOrderBook_eq hspot] at h
  split at h
  · next hspot' =>
    cases h
    simp only [hasBestAsk_new, Int64.not_lt.mpr hspot', false_imp_iff]
  · next hspot' =>
    have hfresh : AskRun base (pool.bandPrice i j spot) (pool.bandDepth i j) [] (.new base) :=
      AskRun.fresh
    rw [(askRun_foldlM hfresh h).hasBestAsk_iff]
    simp only [Int64.not_le.mp hspot', true_imp_iff, List.nil_append]

/-- When a populated book reports its cheapest ask. Over ticks: exactly when no depth is left
below the last slot. Over bands the price may wrap; depth below the last slot is then excused
by a wrapped price in the last slot. -/
theorem best_ask_reported_iff (base : Int64) (tsNs : UInt64) :
    (∀ (pool : ConcentratedLiquidityPool) (ticks : List ConcentratedTick),
      HasBestAsk (pool.populateOrderBook (.new base) ticks tsNs) ↔
        (0 < pool.spotPriceScaled →
          ¬ DepthBelowLast base (some ∘ pool.askPrice) (offeredQty pool.currentLiquidity)
            (pool.ticksAbove ticks))) ∧
    (∀ (pool : UniswapV4Pool) (ticks : List ConcentratedTick),
      HasBestAsk (pool.populateVirtualOrderBook (.new base) ticks tsNs) ↔
        (0 < pool.spotPriceScaled →
          ¬ DepthBelowLast base (some ∘ pool.askPrice) (offeredQty pool.currentLiquidity)
            (pool.ticksAbove ticks))) ∧
    ∀ (pool : CurvePool) (spot : Int64) (i j : ℕ) (bands : List UInt16)
        (book : ContiguousOrderBook),
      pool.spotPriceScaled i j = .ok spot →
      pool.populateVirtualOrderBook (.new base) i j bands tsNs = .ok book →
      (HasBestAsk book ↔ (0 < spot → ∀ k < lastSlot, ∀ p,
        Filled base (pool.bandPrice i j spot) (pool.bandDepth i j) bands k p →
          0 ≤ p ∧ ∃ q < 0,
            Filled base (pool.bandPrice i j spot) (pool.bandDepth i j) bands lastSlot q)) :=
  ⟨fun pool ticks => pool.hasBestAsk_iff base ticks tsNs,
    fun pool ticks => pool.hasBestAsk_iff base ticks tsNs,
    fun _ _ _ _ _ _ hspot h => CurvePool.hasBestAsk_iff hspot h⟩

/-- A pool at price one with a tick above the current one. -/
def onePool : ConcentratedLiquidityPool := ⟨0, 0x1000000000000000000000000, 1000000000000, 10⟩

def oneTick : List ConcentratedTick := [⟨10, 5000000000, 5000000000⟩]

/-- The ask of the tick stands in the first slot, and the book reports none. -/
theorem best_ask_missing :
    ¬ ∀ (pool : ConcentratedLiquidityPool) (base : Int64) (ticks : List ConcentratedTick)
        (tsNs : UInt64), HasBestAsk (pool.populateOrderBook (.new base) ticks tsNs) := by
  intro h
  have hbest := h onePool 100000000 oneTick 7
  have hask : (onePool.populateOrderBook (.new 100000000) oneTick 7).asks.levels[0]? =
      some ⟨100001000, 1000, 0, 7⟩ := by decide +kernel
  have hnone : (onePool.populateOrderBook (.new 100000000) oneTick 7).bboAsk = none := by
    decide +kernel
  obtain ⟨level, hbbo, -⟩ := hbest ⟨_, Vector.mem_of_getElem? hask, by decide⟩
  rw [hnone] at hbbo
  simp at hbbo

end ChainMarketPrice.AmmVirtualizer
