import ChainMarketPrice.AmmVirtualizer.LevelPrices
import ChainMarketPrice.CoreEngine.OrderBookTheorems

/-!
# Hook fees and the sides of a v4 book

A fee moves every ask up. It moves a bid down as long as the price before the fee is positive;
far below the current tick that price is negative, and the fee moves it up instead. Only a fee
of more than 20000 basis points takes it past zero, and only the path of the hooks that run
before a swap clamps the fee to 10000.
-/

namespace ChainMarketPrice.AmmVirtualizer

open CoreEngine FixedWidth

/-! ## What stands on the bid side -/

section

variable {base : Int64} {bidPrice : ConcentratedTick → Int64}

/-- The bid of a tick is written, and into this slot. -/
def BidLands (base : Int64) (bidPrice : ConcentratedTick → Int64) (i : Fin priceLevelsCount)
    (tick : ConcentratedTick) : Prop :=
  0 < bidPrice tick ∧ slot base (bidPrice tick) = some i

lemma basePrice_fillBid (tsNs : UInt64) (st : ContiguousOrderBook × U128)
    (tick : ConcentratedTick) : (fillBid bidPrice tsNs st tick).1.basePrice = st.1.basePrice := by
  unfold fillBid
  dsimp only
  split <;> rfl

lemma basePrice_foldl_fillBid (tsNs : UInt64) (ticks : List ConcentratedTick)
    (st : ContiguousOrderBook × U128) :
    (ticks.foldl (fillBid bidPrice tsNs) st).1.basePrice = st.1.basePrice := by
  induction ticks generalizing st with
  | nil => rfl
  | cons tick ticks ih => rw [List.foldl_cons, ih, basePrice_fillBid]

/-- One turn of a bid loop writes a level in the slot of the bid and nowhere else. -/
lemma get_fillBid (bidPrice : ConcentratedTick → Int64) (tsNs : UInt64)
    (st : ContiguousOrderBook × U128) (tick : ConcentratedTick) (i : Fin priceLevelsCount) :
    (BidLands st.1.basePrice bidPrice i tick →
      ((fillBid bidPrice tsNs st tick).1.bids.levels.get i).price = bidPrice tick) ∧
    (¬ BidLands st.1.basePrice bidPrice i tick →
      (fillBid bidPrice tsNs st tick).1.bids.levels.get i = st.1.bids.levels.get i) := by
  unfold fillBid BidLands
  dsimp only
  by_cases hpos : bidPrice tick > 0
  · rw [if_pos hpos]
    show (_ → (((st.1.bids.update .bid st.1.basePrice _).levels.get i).price = _)) ∧
      (_ → (st.1.bids.update .bid st.1.basePrice _).levels.get i = _)
    rw [get_levels_update]
    constructor
    · intro h
      rw [if_pos h.2]
    · intro h
      rw [if_neg fun hslot => h ⟨hpos, hslot⟩]
  · rw [if_neg hpos]
    exact ⟨fun h => absurd h.1 hpos, fun _ => rfl⟩

/-- A slot holds the price of the last bid that fell into it, or it is as it was. -/
lemma last_bid (bidPrice : ConcentratedTick → Int64) (tsNs : UInt64)
    (st : ContiguousOrderBook × U128) (hbase : st.1.basePrice = base)
    (ticks : List ConcentratedTick) (i : Fin priceLevelsCount) :
    let level := (ticks.foldl (fillBid bidPrice tsNs) st).1.bids.levels.get i
    level = st.1.bids.levels.get i ∧ (∀ tick ∈ ticks, ¬ BidLands base bidPrice i tick) ∨
      History.Since (fun _ tick => BidLands base bidPrice i tick ∧ level.price = bidPrice tick)
        (fun tick => ¬ BidLands base bidPrice i tick) ticks := by
  have hturn (before : List ConcentratedTick) (tick : ConcentratedTick) :=
    get_fillBid bidPrice tsNs (before.foldl (fillBid bidPrice tsNs) st) tick i
  simp only [basePrice_foldl_fillBid, hbase] at hturn
  exact History.last_write (fun st : ContiguousOrderBook × U128 => st.1.bids.levels.get i)
    (fun _ tick level => level.price = bidPrice tick) st ticks
    (fun before tick => (hturn before tick).1) (fun before tick => (hturn before tick).2)

/-- Asks do not touch the bids. -/
lemma bids_foldl_fillAsk (askPrice : ConcentratedTick → Int64) (tsNs : UInt64)
    (ticks : List ConcentratedTick) (st : ContiguousOrderBook × U128) :
    (ticks.foldl (fillAsk askPrice tsNs) st).1.bids = st.1.bids ∧
      (ticks.foldl (fillAsk askPrice tsNs) st).1.basePrice = st.1.basePrice := by
  induction ticks generalizing st with
  | nil => exact ⟨rfl, rfl⟩
  | cons tick ticks ih =>
    have hwrite : (fillAsk askPrice tsNs st tick).1.bids = st.1.bids ∧
        (fillAsk askPrice tsNs st tick).1.basePrice = st.1.basePrice := by
      unfold fillAsk writeAsk
      dsimp only
      split <;> exact ⟨rfl, rfl⟩
    rw [List.foldl_cons, (ih _).1, (ih _).2]
    exact hwrite

/-- The bid side of a fresh book that two loops over ticks have filled. -/
lemma last_bid_fillBook (base : Int64) (askPrice bidPrice : ConcentratedTick → Int64)
    (above below : List ConcentratedTick) (liquidity : U128) (tsNs : UInt64)
    (i : Fin priceLevelsCount) :
    let final := fillBook askPrice bidPrice above below liquidity tsNs (.new base)
    final.bids.levels.get i = {} ∧ (∀ tick ∈ below, ¬ BidLands base bidPrice i tick) ∨
      History.Since (fun _ tick => BidLands base bidPrice i tick ∧
          (final.bids.levels.get i).price = bidPrice tick)
        (fun tick => ¬ BidLands base bidPrice i tick) below := by
  obtain ⟨hbids, hbase⟩ := bids_foldl_fillAsk askPrice tsNs above (.new base, liquidity)
  have hlast := last_bid bidPrice tsNs
    ((above.foldl (fillAsk askPrice tsNs) (.new base, liquidity)).1, liquidity) hbase below i
  dsimp only at hlast ⊢
  rw [hbids, (ContiguousOrderBook.get_new base i).1] at hlast
  exact hlast

end

/-! ## Prices with a fee -/

namespace UniswapV4Pool

/-- How far a tick lies below the current one. -/
def ticksDown (pool : UniswapV4Pool) (tick : ConcentratedTick) : ℤ :=
  pool.currentTick.toInt - tick.tickIndex.toInt

/-- The price of a tick before the fee, in exact integers: negative far below. -/
def exactStep (pool : UniswapV4Pool) (tick : ConcentratedTick) : ℤ :=
  pool.spotPriceScaled.toInt - 100 * pool.ticksDown tick

def fee (pool : UniswapV4Pool) : ℤ := pool.effectiveFeeBps.toNat

/-- The bid of a tick, in exact integers. -/
def exactBid (pool : UniswapV4Pool) (tick : ConcentratedTick) : ℤ :=
  pool.exactStep tick - (pool.exactStep tick * pool.fee).tdiv 20000

/-- No `i32` or `i64` operation of a tick overflows: the difference of the indices, the product
with the fee, and the distance of a bid from the base of the book. -/
structure TickFits (pool : UniswapV4Pool) (base : Int64) (tick : ConcentratedTick) : Prop where
  near : -2 ^ 31 < pool.ticksDown tick ∧ pool.ticksDown tick < 2 ^ 31
  product : -2 ^ 63 ≤ pool.exactStep tick * pool.fee ∧ pool.exactStep tick * pool.fee < 2 ^ 63
  window : 0 ≤ pool.ticksDown tick → 0 < pool.exactBid tick →
    (pool.exactBid tick - base.toInt).natAbs < 2 ^ 63

/-- The slot of a bid: its distance from the base in whole ticks. A price that is not positive
has none. -/
def bidSlot (pool : UniswapV4Pool) (base : Int64) (tick : ConcentratedTick) : Option ℕ :=
  if 0 < pool.exactBid tick ∧
      (pool.exactBid tick - base.toInt).natAbs / 100000 < priceLevelsCount then
    some ((pool.exactBid tick - base.toInt).natAbs / 100000)
  else none

/-- The fee takes the bid of a tick from below zero to above the spot. -/
def Overcharged (pool : UniswapV4Pool) (tick : ConcentratedTick) : Prop :=
  pool.spotPriceScaled.toInt < 100 * pool.ticksDown tick ∧
    100 * pool.ticksDown tick <
      (100 * pool.ticksDown tick - pool.spotPriceScaled.toInt) * pool.fee / 20000

variable {pool : UniswapV4Pool} {base : Int64} {tick : ConcentratedTick}

lemma spot_bounds (pool : UniswapV4Pool) :
    0 ≤ pool.spotPriceScaled.toInt ∧ pool.spotPriceScaled.toInt < 2 ^ 60 :=
  sqrtToPrice_bounds pool.sqrtPriceX96

lemma fee_nonneg (pool : UniswapV4Pool) : 0 ≤ pool.fee := Int.natCast_nonneg _

lemma exactStep_bounds (h : pool.TickFits base tick) :
    -2 ^ 61 < pool.exactStep tick ∧ pool.exactStep tick < 2 ^ 61 := by
  have hspot := pool.spot_bounds
  obtain ⟨hlow, hhigh⟩ := h.near
  unfold exactStep
  omega

/-- Half of the fee in words. -/
lemma toInt_halfFee {price : Int64} {step : ℤ} (hprice : price.toInt = step)
    (h : -2 ^ 63 ≤ step * pool.fee ∧ step * pool.fee < 2 ^ 63) :
    (pool.halfFee price).toInt = (step * pool.fee).tdiv 20000 := by
  have hprod : (price * ofU16 pool.effectiveFeeBps).toInt = step * pool.fee := by
    rw [Int64.toInt_mul, hprice, toInt_ofU16]
    apply Int.bmod_eq_of_le
    · exact h.1
    · exact h.2
  rw [halfFee, Int64.toInt_div_of_ne_right _ _ (by decide), hprod]
  rfl

/-- The bid price in words. -/
lemma toInt_bidPrice (h : pool.TickFits base tick) :
    (pool.bidPrice tick).toInt = pool.exactBid tick := by
  have hspot := pool.spot_bounds
  have hbounds := exactStep_bounds h
  obtain ⟨hlow, hhigh⟩ := h.near
  have hdistance : (pool.currentTick - tick.tickIndex).toInt = pool.ticksDown tick := by
    unfold ticksDown at hlow hhigh ⊢
    rw [Int32.toInt_sub]
    apply Int.bmod_eq_of_le <;> omega
  have hstep : (satSub64 pool.spotPriceScaled
      ((pool.currentTick - tick.tickIndex).toInt64 * 100)).toInt = pool.exactStep tick := by
    unfold exactStep at hbounds ⊢
    rw [toInt_satSub64] <;> rw [toInt_tickOffset, hdistance] <;> omega
  have hfee := toInt_halfFee hstep h.product
  have hfeeBounds := pool.halfFee_bounds
    (satSub64 pool.spotPriceScaled ((pool.currentTick - tick.tickIndex).toInt64 * 100))
  unfold bidPrice
  dsimp only
  rw [toInt_satSub64, hstep, hfee]
  · rfl
  · rw [hstep]
    omega

/-- A fee raises every ask. -/
lemma spot_le_askPrice (h : pool.TickFits base tick) (habove : pool.ticksDown tick ≤ 0) :
    pool.spotPriceScaled ≤ pool.askPrice tick := by
  have hspot := pool.spot_bounds
  have hbounds := exactStep_bounds h
  obtain ⟨hlow, hhigh⟩ := h.near
  -- the distance in ticks fits in 32 bits, so the subtraction is exact
  have hdistance : (tick.tickIndex - pool.currentTick).toInt = -pool.ticksDown tick := by
    unfold ticksDown at hlow hhigh ⊢
    rw [Int32.toInt_sub, Int.neg_sub]
    apply Int.bmod_eq_of_le <;> omega
  have hstep : (pool.spotPriceScaled + (tick.tickIndex - pool.currentTick).toInt64 * 100).toInt
      = pool.exactStep tick := by
    rw [toInt_priceStep hspot, hdistance]
    unfold exactStep
    omega
  have hfee := toInt_halfFee hstep h.product
  have hfeeBounds := pool.halfFee_bounds
    (pool.spotPriceScaled + (tick.tickIndex - pool.currentTick).toInt64 * 100)
  -- the fee is not negative, and neither is the price of the step
  have hraised : 0 ≤ (pool.exactStep tick * pool.fee).tdiv 20000 := by
    apply Int.tdiv_nonneg _ (by decide)
    apply Int.mul_nonneg _ pool.fee_nonneg
    unfold exactStep
    omega
  unfold askPrice
  dsimp only
  rw [Int64.le_iff_toInt_le, Int64.toInt_add, hstep, hfee, Int.bmod_eq_of_le]
  · unfold exactStep at hraised ⊢
    omega
  · omega
  · omega

/-- A bid crosses the spot exactly when its tick is overcharged. -/
lemma spot_lt_exactBid_iff (hbelow : 0 ≤ pool.ticksDown tick) :
    pool.spotPriceScaled.toInt < pool.exactBid tick ↔ pool.Overcharged tick := by
  have hspot := pool.spot_bounds
  by_cases hstep : 0 ≤ pool.exactStep tick
  · -- the fee lowers a bid whose price is not negative
    have hfee : 0 ≤ (pool.exactStep tick * pool.fee).tdiv 20000 :=
      Int.tdiv_nonneg (Int.mul_nonneg hstep pool.fee_nonneg) (by decide)
    unfold exactBid Overcharged
    unfold exactStep at hstep hfee ⊢
    constructor <;> intro h <;> omega
  · -- the division truncates toward zero, so it is the floor of the opposite
    have hnumerator : pool.exactStep tick * pool.fee
        = -((100 * pool.ticksDown tick - pool.spotPriceScaled.toInt) * pool.fee) := by
      rw [exactStep, ← Int.neg_mul, Int.neg_sub]
    have hnonneg : 0 ≤ (100 * pool.ticksDown tick - pool.spotPriceScaled.toInt) * pool.fee := by
      apply Int.mul_nonneg _ pool.fee_nonneg
      unfold exactStep at hstep
      omega
    unfold exactBid Overcharged
    rw [hnumerator, Int.neg_tdiv, Int.tdiv_eq_ediv_of_nonneg hnonneg]
    unfold exactStep at hstep ⊢
    constructor <;> intro h <;> omega

/-- A fee of at most 20000 basis points never crosses the spot. -/
theorem not_overcharged_of_fee_le (hfee : pool.fee ≤ 20000) : ¬ pool.Overcharged tick := by
  intro h
  obtain ⟨hstep, hcrosses⟩ := h
  have hspot := pool.spot_bounds
  have hprod := Int.mul_le_mul_of_nonneg_left hfee
    (show 0 ≤ 100 * pool.ticksDown tick - pool.spotPriceScaled.toInt by omega)
  omega

/-- A hook that runs before a swap brings the clamp with it. -/
theorem fee_le_of_beforeSwap (hhook : pool.key.hasHook hookBeforeSwap) : pool.fee ≤ 10000 := by
  unfold fee effectiveFeeBps
  rw [if_pos hhook]
  generalize ((if pool.key.hasDynamicFee then pool.hookConfig.dynamicFeeOverrideBps.getD 30
    else (pool.key.fee / 100).toUInt16).toNat : ℤ) + pool.hookConfig.hookFeeDeltaBps.toInt
    = adjusted
  have hclamp : (min (max adjusted 0) 10000).toNat ≤ 10000 := by omega
  show ((UInt16.ofNat (min (max adjusted 0) 10000).toNat).toNat : ℤ) ≤ 10000
  rw [UInt16.toNat_ofNat', Nat.mod_eq_of_lt (by omega)]
  omega

/-- The slot that the bid of a tick falls into. -/
lemma bidLands_iff (hbelow : 0 ≤ pool.ticksDown tick) (h : pool.TickFits base tick)
    (i : Fin priceLevelsCount) :
    BidLands base pool.bidPrice i tick ↔ pool.bidSlot base tick = some i.val := by
  have hi := i.isLt
  have hprice := toInt_bidPrice h
  unfold BidLands bidSlot
  rw [Int64.lt_iff_toInt_lt, Int64.toInt_zero, hprice]
  by_cases hpos : 0 < pool.exactBid tick
  · have hslot : slot base (pool.bidPrice tick) = some i ↔ _ :=
      slot_eq_some_iff (by rw [hprice]; exact h.window hbelow hpos) i
    rw [hslot, hprice]
    split
    · next hwindow =>
      rw [Option.some_inj]
      exact and_iff_right hpos
    · next hwindow =>
      simp only [reduceCtorEq, iff_false]
      intro hin
      exact hwindow ⟨hpos, by omega⟩
  · rw [if_neg fun hwindow => hpos hwindow.1]
    simp only [reduceCtorEq, iff_false]
    exact fun hlands => hpos hlands.1

/-! ## When the book is not crossed -/

/-- An overcharged tick is the last of the bid loop in its slot. -/
def OverchargedOnTop (pool : UniswapV4Pool) (base : Int64) (ticks : List ConcentratedTick) :
    Prop :=
  ∃ i : Fin priceLevelsCount,
    History.Since (fun _ tick => pool.Overcharged tick ∧ pool.bidSlot base tick = some i.val)
      (fun later => pool.bidSlot base later ≠ some i.val) (pool.ticksBelow ticks)

variable {ticks : List ConcentratedTick}

lemma ticksDown_of_mem_above (h : tick ∈ pool.ticksAbove ticks) :
    tick ∈ ticks ∧ pool.ticksDown tick ≤ 0 := by
  obtain ⟨hmem, habove⟩ := List.mem_filter.mp h
  rw [decide_eq_true_eq, ge_iff_le, Int32.le_iff_toInt_le] at habove
  refine ⟨hmem, ?_⟩
  unfold ticksDown
  omega

lemma ticksDown_of_mem_below (h : tick ∈ pool.ticksBelow ticks) :
    tick ∈ ticks ∧ 0 ≤ pool.ticksDown tick := by
  obtain ⟨hmem, hbelow⟩ := List.mem_filter.mp (List.mem_reverse.mp h)
  rw [decide_eq_true_eq, Int32.le_iff_toInt_le] at hbelow
  refine ⟨hmem, ?_⟩
  unfold ticksDown
  omega

/-- The bids of a filled book stay at the spot or below exactly when no overcharged tick is on
top of its slot. -/
lemma bids_within_iff (hspot : 0 < pool.spotPriceScaled)
    (hfits : ∀ tick ∈ ticks, pool.TickFits base tick) (tsNs : UInt64) :
    let final := fillBook pool.askPrice pool.bidPrice (pool.ticksAbove ticks)
      (pool.ticksBelow ticks) pool.currentLiquidity tsNs (.new base)
    (∀ i, final.bids.levels.get i = {} ∨
      (final.bids.levels.get i).price ≤ pool.spotPriceScaled) ↔
      ¬ pool.OverchargedOnTop base ticks := by
  have hlands (i : Fin priceLevelsCount) : ∀ tick ∈ pool.ticksBelow ticks,
      (BidLands base pool.bidPrice i tick ↔ pool.bidSlot base tick = some i.val) := by
    intro tick htick
    obtain ⟨hmem, hbelow⟩ := ticksDown_of_mem_below htick
    exact bidLands_iff hbelow (hfits tick hmem) i
  have hcrosses : ∀ tick ∈ pool.ticksBelow ticks,
      (pool.spotPriceScaled < pool.bidPrice tick ↔ pool.Overcharged tick) := by
    intro tick htick
    obtain ⟨hmem, hbelow⟩ := ticksDown_of_mem_below htick
    rw [Int64.lt_iff_toInt_lt, toInt_bidPrice (hfits tick hmem), spot_lt_exactBid_iff hbelow]
  intro final
  have hlast (i : Fin priceLevelsCount) := last_bid_fillBook base pool.askPrice pool.bidPrice
    (pool.ticksAbove ticks) (pool.ticksBelow ticks) pool.currentLiquidity tsNs i
  constructor
  · intro hwithin hexists
    obtain ⟨i, hsince⟩ := hexists
    -- the last bid that falls into the slot is the overcharged one
    have hover : History.Since
        (fun _ tick => BidLands base pool.bidPrice i tick ∧
          pool.spotPriceScaled < pool.bidPrice tick)
        (fun tick => ¬ BidLands base pool.bidPrice i tick) (pool.ticksBelow ticks) := by
      apply hsince.imp
      · intro _ tick htick hevent
        exact ⟨(hlands i tick htick).mpr hevent.2, (hcrosses tick htick).mpr hevent.1⟩
      · intro tick htick hquiet
        exact mt (hlands i tick htick).mp hquiet
    rcases hlast i with ⟨-, hnone⟩ | hwritten
    · obtain ⟨_, tick, _, heq, hevent, -⟩ := hover
      exact hnone tick (by simp [heq]) hevent.1
    · obtain ⟨_, tick, _, -, ⟨⟨hlanded, hgt⟩, -, hprice⟩, -⟩ :=
        hover.and (fun _ _ h => not_not.mpr h.1) (fun _ _ h => not_not.mpr h.1) hwritten
      rw [← hprice] at hgt
      rcases hwithin i with hfresh | hle
      · rw [hfresh] at hgt
        exact absurd hspot (Int64.lt_asymm hgt)
      · exact absurd hgt (Int64.not_lt.mpr hle)
  · intro hnone i
    rcases hlast i with ⟨hfresh, -⟩ | hsince
    · exact .inl hfresh
    · right
      by_contra hgt
      refine hnone ⟨i, hsince.imp ?_ ?_⟩
      · intro _ tick htick hevent
        refine ⟨(hcrosses tick htick).mp ?_, (hlands i tick htick).mp hevent.1⟩
        rw [← hevent.2]
        exact Int64.not_le.mp hgt
      · intro tick htick hquiet
        exact mt (hlands i tick htick).mpr hquiet

lemma asks_within (hfits : ∀ tick ∈ ticks, pool.TickFits base tick) (tsNs : UInt64) :
    let fresh := ContiguousOrderBook.new base
    let final := fillBook pool.askPrice pool.bidPrice (pool.ticksAbove ticks)
      (pool.ticksBelow ticks) pool.currentLiquidity tsNs fresh
    ∀ i, final.asks.levels.get i = fresh.asks.levels.get i ∨
      pool.spotPriceScaled ≤ (final.asks.levels.get i).price := by
  have hask : ∀ tick ∈ pool.ticksAbove ticks, pool.spotPriceScaled ≤ pool.askPrice tick := by
    intro tick htick
    obtain ⟨hmem, habove⟩ := ticksDown_of_mem_above htick
    exact spot_le_askPrice (hfits tick hmem) habove
  -- nothing is said about the bids here
  have hwithin : WrittenWithin (pool.spotPriceScaled ≤ ·) (fun _ => True) (.new base)
      (fillBook pool.askPrice pool.bidPrice (pool.ticksAbove ticks) (pool.ticksBelow ticks)
        pool.currentLiquidity tsNs (.new base)) :=
    WrittenWithin.fillBook hask (fun _ _ _ => trivial) _ tsNs _
  exact hwithin.asks

/-- The asks of a book stand at the spot or above, its bids at the spot or below, except where a
level is still fresh. -/
def SidesApart (spot base : Int64) (book : ContiguousOrderBook) : Prop :=
  WrittenWithin (spot ≤ ·) (· ≤ spot) (.new base) book

/-- When hook fees do not cross a v4 book. -/
theorem sidesApart_iff (tsNs : UInt64)
    (hfits : 0 < pool.spotPriceScaled → ∀ tick ∈ ticks, pool.TickFits base tick) :
    SidesApart pool.spotPriceScaled base
        (pool.populateVirtualOrderBook (.new base) ticks tsNs) ↔
      (0 < pool.spotPriceScaled → ¬ pool.OverchargedOnTop base ticks) := by
  unfold populateVirtualOrderBook
  by_cases hle : pool.spotPriceScaled ≤ 0
  · rw [if_pos hle]
    have hnot : ¬ 0 < pool.spotPriceScaled := Int64.not_lt.mpr hle
    exact ⟨fun _ hpos => absurd hpos hnot, fun _ => .refl _⟩
  · have hpos := Int64.not_le.mp hle
    have hbids := bids_within_iff hpos (hfits hpos) tsNs
    have hasks := asks_within (hfits hpos) tsNs
    have hfresh (i : Fin priceLevelsCount) :
        (ContiguousOrderBook.new base).bids.levels.get i = {} := (ContiguousOrderBook.get_new base i).1
    dsimp only at hbids
    rw [if_neg hle]
    constructor
    · intro hwithin _
      refine hbids.mp fun i => ?_
      rw [← hfresh i]
      exact hwithin.bids i
    · intro hnone
      refine ⟨hasks, fun i => ?_⟩
      rw [hfresh i]
      exact hbids.mpr (hnone hpos) i

/-- A dynamic fee without a hook that runs before a swap. -/
def dynamicKey : PoolKey := ⟨dynamicFeeFlag, Vector.replicate 20 0⟩

/-- A price of a quarter, and a fee that is set from outside. -/
def quarterPool (feeBps : UInt16) : UniswapV4Pool where
  key := dynamicKey
  sqrtPriceX96 := 0x800000000000000000000000
  currentTick := -13864
  currentLiquidity := 1000000000000
  hookConfig := { dynamicFeeOverrideBps := some feeBps }

def farTick : ConcentratedTick := ⟨-513864, 5000000000, 5000000000⟩

lemma tickFits_farTick (feeBps : UInt16) :
    (quarterPool feeBps).TickFits 25000000 farTick := by
  have hdynamic : dynamicKey.hasDynamicFee = true := by decide
  have hhook : dynamicKey.hasHook hookBeforeSwap = false := by decide
  have hspot : (sqrtToPrice 0x800000000000000000000000).toInt = 25000000 := by decide
  have hdown : (quarterPool feeBps).ticksDown farTick = 500000 := rfl
  have hfee : (quarterPool feeBps).fee = feeBps.toNat := by
    unfold fee effectiveFeeBps quarterPool
    rw [hdynamic, hhook]
    rfl
  -- the step leads far below zero
  have hstep : (quarterPool feeBps).exactStep farTick = -25000000 := by
    rw [exactStep, hdown]
    show (sqrtToPrice 0x800000000000000000000000).toInt - 100 * 500000 = -25000000
    rw [hspot]
    rfl
  have hbound := feeBps.toNat_lt
  have hbase : (25000000 : Int64).toInt = 25000000 := rfl
  constructor
  · rw [hdown]
    omega
  · rw [hstep, hfee]
    omega
  · intro _ _
    unfold exactBid
    rw [hstep, hfee, hbase, Int.neg_mul, Int.neg_tdiv, Int.tdiv_eq_ediv_of_nonneg (by omega)]
    omega

theorem sidesApart_iff_thirtyBps :
    SidesApart (quarterPool 30).spotPriceScaled 25000000
        ((quarterPool 30).populateVirtualOrderBook (.new 25000000) [farTick] 7) ↔
      (0 < (quarterPool 30).spotPriceScaled →
        ¬ (quarterPool 30).OverchargedOnTop 25000000 [farTick]) := by
  apply sidesApart_iff
  intro _ tick htick
  rw [List.mem_singleton.mp htick]
  exact tickFits_farTick 30

/-- The fee takes a bid far below the current tick from -0.25 to 0.57, above the spot of 0.25. -/
theorem hook_fee_crosses :
    ¬ ∀ (pool : UniswapV4Pool) (base : Int64) (ticks : List ConcentratedTick) (tsNs : UInt64),
      (∀ tick ∈ ticks, pool.TickFits base tick) →
      SidesApart pool.spotPriceScaled base
        (pool.populateVirtualOrderBook (.new base) ticks tsNs) := by
  intro h
  have hfits : ∀ tick ∈ [farTick], (quarterPool 65535).TickFits 25000000 tick := by
    intro tick htick
    rw [List.mem_singleton.mp htick]
    exact tickFits_farTick 65535
  have hsides := h (quarterPool 65535) 25000000 [farTick] 7 hfits
  have hprice : (((quarterPool 65535).populateVirtualOrderBook (.new 25000000) [farTick] 7
      ).bids.levels.get ⟨319, by decide⟩).price = 56918750 := by decide +kernel
  have hfresh : ((ContiguousOrderBook.new 25000000).bids.levels.get ⟨319, by decide⟩).price
      = 0 := by decide +kernel
  rcases hsides.bids ⟨319, by decide⟩ with hsame | hle
  · rw [hsame, hfresh] at hprice
    exact absurd hprice (by decide)
  · rw [hprice] at hle
    exact absurd hle (by decide +kernel)

end UniswapV4Pool

end ChainMarketPrice.AmmVirtualizer
