import ChainMarketPrice.AmmVirtualizer.BestAsk

/-!
# The depth of every tick

A tick moves the price by 100 units, and a slot of the ladder is 100000 units wide: a thousand
ticks fall into one slot, and what stands there is the last of them. So the depth of a tick is
visible exactly when no later tick falls into its slot (`depth_visible_iff`).
-/

namespace ChainMarketPrice.AmmVirtualizer

open CoreEngine FixedWidth

/-! ## The running liquidity -/

/-- The net liquidity of ticks that are crossed upwards. -/
def netSum (ticks : List ConcentratedTick) : ℤ := (ticks.map (·.liquidityNet.toInt)).sum

lemma netSum_append (a b : List ConcentratedTick) : netSum (a ++ b) = netSum a + netSum b := by
  rw [netSum, List.map_append, List.sum_append]
  rfl

/-- Crossing the ticks one after the other never leaves 128 bits. -/
def NeverSaturates (liquidity : U128) (ticks : List ConcentratedTick) : Prop :=
  ∀ before, before <+: ticks →
    0 ≤ liquidity.toNat + netSum before ∧ liquidity.toNat + netSum before < 2 ^ 128

lemma NeverSaturates.initial {liquidity : U128} {ticks before : List ConcentratedTick}
    (h : NeverSaturates liquidity ticks) (hbefore : before <+: ticks) :
    NeverSaturates liquidity before :=
  fun _ hinitial => h _ (hinitial.trans hbefore)

lemma toNat_crossUp {liquidity : U128} {tick : ConcentratedTick}
    (h : 0 ≤ liquidity.toNat + tick.liquidityNet.toInt ∧
      liquidity.toNat + tick.liquidityNet.toInt < 2 ^ 128) :
    ((crossUp liquidity tick).toNat : ℤ) = liquidity.toNat + tick.liquidityNet.toInt := by
  have hcond := BitVec.toInt_eq_toNat_cond tick.liquidityNet
  have hlt := tick.liquidityNet.isLt
  unfold crossUp
  split
  · next hnonneg =>
    have hnet : tick.liquidityNet.toInt = tick.liquidityNet.toNat := by
      split at hcond <;> omega
    rw [satAdd, if_pos (by omega), BitVec.toNat_add, Nat.mod_eq_of_lt (by omega)]
    omega
  · next hneg =>
    have hnet : (-tick.liquidityNet).toNat = -tick.liquidityNet.toInt := by
      rw [BitVec.toNat_neg]
      split at hcond <;> omega
    have hle : -tick.liquidityNet ≤ liquidity := by
      rw [BitVec.le_def]
      omega
    rw [satSub, if_pos hle, BitVec.toNat_sub_of_le hle]
    rw [BitVec.le_def] at hle
    omega

/-- Without saturation the running liquidity is the exact sum. -/
lemma toNat_foldl_crossUp {liquidity : U128} {ticks : List ConcentratedTick}
    (h : NeverSaturates liquidity ticks) :
    ((ticks.foldl crossUp liquidity).toNat : ℤ) = liquidity.toNat + netSum ticks := by
  induction ticks using List.reverseRecOn with
  | nil => exact (add_zero _).symm
  | append_singleton ticks tick ih =>
    have hlast : netSum [tick] = tick.liquidityNet.toInt := List.sum_singleton
    have hsum := h _ (List.prefix_refl _)
    rw [netSum_append, hlast] at hsum ⊢
    have hbefore := ih (h.initial (List.prefix_append ticks [tick]))
    rw [List.foldl_append, List.foldl_cons, List.foldl_nil, toNat_crossUp (by omega), hbefore]
    exact add_assoc _ _ _

/-! ## What stands in a slot -/

section

variable {base : Int64} {askPrice : ConcentratedTick → Int64} {liquidity : U128}

/-- Bids do not touch the asks. -/
lemma asks_foldl_fillBid (bidPrice : ConcentratedTick → Int64) (tsNs : UInt64)
    (ticks : List ConcentratedTick) (st : ContiguousOrderBook × U128) :
    (ticks.foldl (fillBid bidPrice tsNs) st).1.asks = st.1.asks := by
  induction ticks generalizing st with
  | nil => rfl
  | cons tick ticks ih =>
    rw [List.foldl_cons, ih]
    unfold fillBid
    dsimp only
    split <;> rfl

/-- A slot holds what the last tick that fell into it wrote, or it is as it was. -/
lemma last_ask (base : Int64) (askPrice : ConcentratedTick → Int64) (liquidity : U128)
    (tsNs : UInt64) (ticks : List ConcentratedTick) (i : Fin priceLevelsCount) :
    let level := ((ticks.foldl (fillAsk askPrice tsNs) (.new base, liquidity)).1.asks.levels).get i
    level = {} ∧ (∀ tick ∈ ticks, askSlot base (askPrice tick) ≠ some i) ∨
      History.Since
        (fun before tick => askSlot base (askPrice tick) = some i ∧ level.price = askPrice tick ∧
          level.quantity = availableQty (before.foldl crossUp liquidity))
        (fun tick => askSlot base (askPrice tick) ≠ some i) ticks := by
  let fill (before : List ConcentratedTick) :=
    before.foldl (fillAsk askPrice tsNs) (.new base, liquidity)
  have hturn (before : List ConcentratedTick) (tick : ConcentratedTick) :
      (fillAsk askPrice tsNs (fill before) tick).1.asks.levels.get i
        = if askSlot base (askPrice tick) = some i then
            { (fill before).1.asks.levels.get i with
              price := askPrice tick, quantity := availableQty (before.foldl crossUp liquidity),
              lastUpdateTs := tsNs }
          else (fill before).1.asks.levels.get i := by
    obtain ⟨hrun, hliquidity⟩ := askRun_foldl_fillAsk base askPrice liquidity tsNs before
    rw [fillAsk, get_writeAsk, hrun.basePrice, hliquidity]
  have hlast := History.last_write (fun st : ContiguousOrderBook × U128 => st.1.asks.levels.get i)
    (fun before tick level => level.price = askPrice tick ∧
      level.quantity = availableQty (before.foldl crossUp liquidity))
    (.new base, liquidity) ticks
    (fun before tick hslot => (hturn before tick).trans (if_pos hslot) ▸ ⟨rfl, rfl⟩)
    (fun before tick hslot => (hturn before tick).trans (if_neg hslot))
  rw [(ContiguousOrderBook.get_new base i).2] at hlast
  exact hlast

end

/-! ## The slot of a tick -/

namespace ConcentratedLiquidityPool

variable {pool : ConcentratedLiquidityPool} {tick later : ConcentratedTick}

/-- How far a tick lies above the current one. -/
def distance (pool : ConcentratedLiquidityPool) (tick : ConcentratedTick) : ℤ :=
  tick.tickIndex.toInt - pool.currentTick.toInt

/-- The distance in the code is an `i32`. -/
lemma toInt_tickIndex_sub (h : 0 < pool.distance tick) :
    (tick.tickIndex - pool.currentTick).toInt =
      if pool.distance tick < 2 ^ 31 then pool.distance tick else pool.distance tick - 2 ^ 32 := by
  have hlt := tick.tickIndex.toInt_lt
  have hle := pool.currentTick.le_toInt
  unfold distance at h ⊢
  rw [Int32.toInt_sub]
  split
  · apply Int.bmod_eq_of_le <;> omega
  · rw [← Int.sub_bmod_right]
    apply Int.bmod_eq_of_le <;> omega

lemma toInt_askPrice (pool : ConcentratedLiquidityPool) (tick : ConcentratedTick) :
    (pool.askPrice tick).toInt =
      pool.spotPriceScaled.toInt + (tick.tickIndex - pool.currentTick).toInt * 100 :=
  toInt_priceStep (sqrtToPrice_bounds _) _

/-- A tick falls into the slot of its distance; one that is `2 ^ 32` away but for less than a
slot, into the first. -/
lemma askSlot_askPrice_iff (h : 0 < pool.distance tick) (i : Fin priceLevelsCount) :
    askSlot pool.spotPriceScaled (pool.askPrice tick) = some i ↔
      pool.distance tick / 1000 = i.val ∨ 2 ^ 32 - 1000 < pool.distance tick ∧ i.val = 0 := by
  have hlt := tick.tickIndex.toInt_lt
  have hle := pool.currentTick.le_toInt
  have hd : pool.distance tick < 2 ^ 32 := by
    unfold distance
    omega
  have hi : i.val < 2048 := i.isLt
  have hwrap := toInt_tickIndex_sub h
  have hbounds := sqrtToPrice_bounds pool.sqrtPriceX96
  have hsub : (pool.askPrice tick - pool.spotPriceScaled).toInt
      = (tick.tickIndex - pool.currentTick).toInt * 100 := by
    have := (tick.tickIndex - pool.currentTick).toInt_lt
    have := (tick.tickIndex - pool.currentTick).le_toInt
    rw [Int64.toInt_sub, toInt_askPrice, add_sub_cancel_left]
    apply Int.bmod_eq_of_le <;> omega
  rw [askSlot_eq_some_iff, hsub, hwrap]
  split
  · next hnear =>
    rw [Int.tdiv_eq_ediv_of_nonneg (by omega)]
    omega
  · next hfar =>
    -- the difference has wrapped, and a quotient above -1 is cut to slot 0
    have hneg := Int.neg_tdiv (a := (pool.distance tick - 2 ^ 32) * 100) (b := 100000)
    rw [Int.tdiv_eq_ediv_of_nonneg (by omega)] at hneg
    omega

/-- The price that a tick stands for, in exact integers. -/
def exactPrice (pool : ConcentratedLiquidityPool) (tick : ConcentratedTick) : ℤ :=
  pool.spotPriceScaled.toInt + 100 * pool.distance tick

/-- The liquidity that a tick meets: the pool's, and the net of the ticks between. -/
def liquidityAt (pool : ConcentratedLiquidityPool) (ticks : List ConcentratedTick)
    (tick : ConcentratedTick) : ℤ :=
  pool.currentLiquidity.toNat +
    netSum (ticks.filter fun t => pool.currentTick < t.tickIndex ∧ t.tickIndex < tick.tickIndex)

/-- A price for which a book with this base has a slot. -/
def InWindow (base price : ℤ) : Prop :=
  base ≤ price ∧ (price - base) / tickSize.toInt < priceLevelsCount

/-- A tick and a later one, at these distances, fall into one slot. -/
def SharesSlot (d later : ℤ) : Prop := later / 1000 = d / 1000 ∨ d < 1000 ∧ 2 ^ 32 - 1000 < later

/-- A level of the book shows the price and the depth of a tick. -/
def Shows (book : ContiguousOrderBook) (price liquidity : ℤ) : Prop :=
  ∃ level ∈ book.asks.levels,
    level.price.toInt = price ∧ (level.quantity.toNat : ℤ) = liquidity / 10 ^ 9

/-- Every tick above the current one whose price lies in the window is shown. -/
def DepthVisible (pool : ConcentratedLiquidityPool) (ticks : List ConcentratedTick)
    (tsNs : UInt64) : Prop :=
  ∀ tick ∈ pool.ticksAbove ticks,
    InWindow pool.spotPriceScaled.toInt (pool.exactPrice tick) →
    Shows (pool.populateOrderBook (.new pool.spotPriceScaled) ticks tsNs)
      (pool.exactPrice tick) (pool.liquidityAt ticks tick)

lemma distance_pos {ticks : List ConcentratedTick} (h : tick ∈ pool.ticksAbove ticks) :
    0 < pool.distance tick := by
  have habove := (List.mem_filter.mp h).2
  rw [decide_eq_true_eq, gt_iff_lt, Int32.lt_iff_toInt_lt] at habove
  unfold distance
  omega

lemma distance_lt_of_inWindow
    (h : InWindow pool.spotPriceScaled.toInt (pool.exactPrice tick)) :
    pool.distance tick < 2048000 := by
  have hsize : tickSize.toInt = 100000 := rfl
  have hcount : priceLevelsCount = 2048 := rfl
  have hwindow := h.2
  rw [exactPrice, hsize, hcount] at hwindow
  omega

lemma distance_lt_iff (pool : ConcentratedLiquidityPool) :
    pool.distance tick < pool.distance later ↔ tick.tickIndex < later.tickIndex := by
  rw [Int32.lt_iff_toInt_lt]
  unfold distance
  omega

/-- A tick of the window has the slot of its distance. -/
def slotOf (d : ℤ) (h : d < 2048000) : Fin priceLevelsCount :=
  ⟨(d / 1000).toNat, by unfold priceLevelsCount; omega⟩

lemma askSlot_askPrice_eq_slotOf {d : ℤ} (hd : 0 < d) (hwindow : d < 2048000)
    (h : 0 < pool.distance tick) :
    askSlot pool.spotPriceScaled (pool.askPrice tick) = some (slotOf d hwindow) ↔
      SharesSlot d (pool.distance tick) := by
  have hval : (slotOf d hwindow).val = (d / 1000).toNat := rfl
  rw [askSlot_askPrice_iff h, hval]
  unfold SharesSlot
  omega

/-- Two ticks have one price only when they are one. -/
lemma toInt_askPrice_eq_exactPrice_iff (h : 0 < pool.distance later)
    (hpos : 0 < pool.distance tick) (hwindow : pool.distance tick < 2048000) :
    (pool.askPrice later).toInt = pool.exactPrice tick ↔
      pool.distance later = pool.distance tick := by
  have hlt := later.tickIndex.toInt_lt
  have hle := pool.currentTick.le_toInt
  have hd : pool.distance later < 2 ^ 32 := by
    unfold distance
    omega
  rw [toInt_askPrice, toInt_tickIndex_sub h, exactPrice]
  split <;> omega

lemma asks_populateOrderBook (hspot : 0 < pool.spotPriceScaled) (book : ContiguousOrderBook)
    (ticks : List ConcentratedTick) (tsNs : UInt64) :
    (pool.populateOrderBook book ticks tsNs).asks =
      ((pool.ticksAbove ticks).foldl (fillAsk pool.askPrice tsNs)
        (book, pool.currentLiquidity)).1.asks := by
  unfold populateOrderBook
  rw [if_neg (Int64.not_le.mpr hspot), fillBook, asks_foldl_fillBid]

/-! ## Ticks in order -/

/-- The ticks of a list stand in the order of their indices. -/
def Ordered (ticks : List ConcentratedTick) : Prop :=
  ticks.Pairwise fun s t => s.tickIndex < t.tickIndex

lemma Ordered.ticksAbove {ticks : List ConcentratedTick} (h : Ordered ticks) :
    Ordered (pool.ticksAbove ticks) :=
  List.Pairwise.filter _ h

/-- In order, what is greater than a tick stands behind it. -/
lemma Ordered.mem_after {before after : List ConcentratedTick}
    (h : Ordered (before ++ tick :: after)) (hmem : later ∈ before ++ tick :: after)
    (hlt : tick.tickIndex < later.tickIndex) : later ∈ after := by
  have hbefore := (List.pairwise_append.mp h).2.2
  rcases List.mem_append.mp hmem with hin | hin
  · exact absurd hlt (Int32.lt_asymm (hbefore later hin tick List.mem_cons_self))
  · rcases List.mem_cons.mp hin with rfl | hin
    · exact absurd hlt (Int32.lt_irrefl)
    · exact hin

/-- In order, what is less than a tick stands before it. -/
lemma Ordered.filter_eq {before after : List ConcentratedTick}
    (h : Ordered (before ++ tick :: after)) :
    (before ++ tick :: after).filter (fun t => t.tickIndex < tick.tickIndex) = before := by
  obtain ⟨-, hafter, hbefore⟩ := List.pairwise_append.mp h
  have hnone : (tick :: after).filter (fun t => t.tickIndex < tick.tickIndex) = [] := by
    rw [List.filter_eq_nil_iff]
    intro t ht
    rw [decide_eq_true_eq]
    rcases List.mem_cons.mp ht with rfl | ht
    · exact Int32.lt_irrefl
    · exact Int32.lt_asymm (List.rel_of_pairwise_cons hafter ht)
  have hall : before.filter (fun t => t.tickIndex < tick.tickIndex) = before := by
    rw [List.filter_eq_self]
    intro t ht
    exact decide_eq_true (hbefore t ht tick List.mem_cons_self)
  rw [List.filter_append, hnone, hall, List.append_nil]

/-- The liquidity at a tick is that of the ticks before it in the loop. -/
lemma liquidityAt_eq {ticks before after : List ConcentratedTick} (hticks : Ordered ticks)
    (habove : pool.ticksAbove ticks = before ++ tick :: after) :
    pool.liquidityAt ticks tick = pool.currentLiquidity.toNat + netSum before := by
  have hsplit : Ordered (before ++ tick :: after) := habove ▸ hticks.ticksAbove
  have hfilter : ticks.filter (fun t =>
      pool.currentTick < t.tickIndex ∧ t.tickIndex < tick.tickIndex) = before := by
    rw [← hsplit.filter_eq, ← habove, ticksAbove, List.filter_filter]
    apply List.filter_congr
    intro t _
    rw [Bool.decide_and, Bool.and_comm]
  rw [liquidityAt, hfilter]

lemma toNat_availableQty (liquidity : U128) :
    (availableQty liquidity).toNat = liquidity.toNat / 10 ^ 9 % 2 ^ 64 := by
  have hword : (availableQty liquidity).toNat = ((liquidity / 1000000000).setWidth 64).toNat := rfl
  rw [hword, BitVec.toNat_setWidth, BitVec.toNat_udiv]
  rfl

/-! ## Visible depth -/

variable {ticks : List ConcentratedTick}

/-- A tick that writes is one of those above the price, with its place in their order. -/
lemma writer_spec (hticks : Ordered ticks) {before after : List ConcentratedTick}
    {writer : ConcentratedTick} (habove : pool.ticksAbove ticks = before ++ writer :: after) :
    Ordered (before ++ writer :: after) ∧ writer ∈ pool.ticksAbove ticks ∧
      0 < pool.distance writer := by
  have hmem : writer ∈ pool.ticksAbove ticks := by
    rw [habove]
    exact List.mem_append_right _ List.mem_cons_self
  exact ⟨habove ▸ hticks.ticksAbove, hmem, distance_pos hmem⟩

/-- The level of a tick that no later tick overwrites. -/
lemma shows_of_not_sharesSlot (hspot : 0 < pool.spotPriceScaled) (hticks : Ordered ticks)
    (hliquidity : NeverSaturates pool.currentLiquidity (pool.ticksAbove ticks)) (tsNs : UInt64)
    (htick : tick ∈ pool.ticksAbove ticks) (hwindow : pool.distance tick < 2048000)
    (hfits : pool.liquidityAt ticks tick / 10 ^ 9 < 2 ^ 64)
    (halone : ∀ later ∈ pool.ticksAbove ticks, tick.tickIndex < later.tickIndex →
      ¬ SharesSlot (pool.distance tick) (pool.distance later)) :
    Shows (pool.populateOrderBook (.new pool.spotPriceScaled) ticks tsNs)
      (pool.exactPrice tick) (pool.liquidityAt ticks tick) := by
  have hpos := distance_pos htick
  have hslot := (askSlot_askPrice_eq_slotOf hpos hwindow hpos).mpr (.inl rfl)
  rcases last_ask pool.spotPriceScaled pool.askPrice pool.currentLiquidity tsNs
      (pool.ticksAbove ticks) (slotOf (pool.distance tick) hwindow) with ⟨-, hnone⟩ | hsince
  · exact absurd hslot (hnone tick htick)
  · obtain ⟨before, writer, after, habove, ⟨hwriter, hprice, hquantity⟩, hquiet⟩ := hsince
    obtain ⟨hordered, hmem, hposWriter⟩ := writer_spec hticks habove
    -- the last writer of the slot is the tick itself
    have hsame : pool.distance writer = pool.distance tick := by
      rcases Int.lt_trichotomy (pool.distance writer) (pool.distance tick) with hlt | heq | hgt
      · exact absurd hslot (hquiet tick
          (hordered.mem_after (habove ▸ htick) ((distance_lt_iff pool).mp hlt)))
      · exact heq
      · exact absurd ((askSlot_askPrice_eq_slotOf hpos hwindow hposWriter).mp hwriter)
          (halone writer hmem ((distance_lt_iff pool).mp hgt))
    have hindex : writer.tickIndex = tick.tickIndex := by
      unfold distance at hsame
      exact Int32.toInt_inj.mp (by omega)
    have hdepth : pool.liquidityAt ticks tick = (before.foldl crossUp pool.currentLiquidity).toNat := by
      have hbefore : before <+: pool.ticksAbove ticks := habove ▸ List.prefix_append _ _
      rw [toNat_foldl_crossUp (hliquidity.initial hbefore), ← liquidityAt_eq hticks habove,
        liquidityAt, liquidityAt, hindex]
    unfold Shows
    -- the bids that are filled afterwards do not touch the asks
    rw [asks_populateOrderBook hspot]
    refine ⟨_, Vector.getElem_mem (slotOf (pool.distance tick) hwindow).isLt, ?_, ?_⟩
    · refine (congrArg Int64.toInt hprice).trans ?_
      exact (toInt_askPrice_eq_exactPrice_iff hposWriter hpos hwindow).mpr hsame
    · refine (congrArg (fun q : UInt64 => (q.toNat : ℤ)) hquantity).trans ?_
      rw [toNat_availableQty]
      rw [hdepth] at hfits ⊢
      omega

/-- What shows a tick is the level of its slot, so nothing later was written there. -/
lemma not_sharesSlot_of_shows (hspot : 0 < pool.spotPriceScaled) (hticks : Ordered ticks)
    {tsNs : UInt64} (htick : tick ∈ pool.ticksAbove ticks) (hwindow : pool.distance tick < 2048000)
    (h : Shows (pool.populateOrderBook (.new pool.spotPriceScaled) ticks tsNs)
      (pool.exactPrice tick) (pool.liquidityAt ticks tick)) :
    pool.liquidityAt ticks tick / 10 ^ 9 < 2 ^ 64 ∧
      ∀ later ∈ pool.ticksAbove ticks, tick.tickIndex < later.tickIndex →
        ¬ SharesSlot (pool.distance tick) (pool.distance later) := by
  have hpos := distance_pos htick
  obtain ⟨level, hlevel, hprice, hquantity⟩ := h
  have hfits : pool.liquidityAt ticks tick / 10 ^ 9 < 2 ^ 64 := by
    have hlt := level.quantity.toNat_lt
    omega
  refine ⟨hfits, fun later hlater hgt hshares => ?_⟩
  rw [asks_populateOrderBook hspot] at hlevel
  obtain ⟨k, rfl⟩ := exists_slot hlevel
  rcases last_ask pool.spotPriceScaled pool.askPrice pool.currentLiquidity tsNs
      (pool.ticksAbove ticks) k with ⟨hfresh, -⟩ | hsince
  · -- a fresh level has no price
    rw [hfresh, exactPrice] at hprice
    rw [Int64.lt_iff_toInt_lt, Int64.toInt_zero] at hspot
    have hzero : ({} : PriceLevel).price.toInt = 0 := rfl
    omega
  · obtain ⟨before, writer, after, habove, ⟨hwriter, hwritten, -⟩, hquiet⟩ := hsince
    obtain ⟨hordered, hmem, hposWriter⟩ := writer_spec hticks habove
    rw [hwritten, toInt_askPrice_eq_exactPrice_iff hposWriter hpos hwindow] at hprice
    have hslot : askSlot pool.spotPriceScaled (pool.askPrice writer)
        = some (slotOf (pool.distance tick) hwindow) :=
      (askSlot_askPrice_eq_slotOf hpos hwindow hposWriter).mpr (.inl (by rw [hprice]))
    -- its price is the tick's, so the level is the one of the tick's slot
    have hk : k = slotOf (pool.distance tick) hwindow :=
      Option.some_inj.mp (hwriter.symm.trans hslot)
    have hafter : later ∈ after := by
      apply hordered.mem_after (habove ▸ hlater)
      rw [← distance_lt_iff pool, hprice]
      exact (distance_lt_iff pool).mpr hgt
    apply hquiet later hafter
    rw [hk]
    exact (askSlot_askPrice_eq_slotOf hpos hwindow (distance_pos hlater)).mpr hshares

/-- The depth of every tick is visible exactly when no two ticks share a slot of the window and
no depth is too large for a level. -/
theorem depth_visible_iff (hspot : 0 < pool.spotPriceScaled) (hticks : Ordered ticks)
    (hliquidity : NeverSaturates pool.currentLiquidity (pool.ticksAbove ticks)) (tsNs : UInt64) :
    pool.DepthVisible ticks tsNs ↔
      ∀ tick ∈ pool.ticksAbove ticks,
        InWindow pool.spotPriceScaled.toInt (pool.exactPrice tick) →
        pool.liquidityAt ticks tick / 10 ^ 9 < 2 ^ 64 ∧
          ∀ later ∈ pool.ticksAbove ticks, tick.tickIndex < later.tickIndex →
            ¬ SharesSlot (pool.distance tick) (pool.distance later) := by
  constructor
  · intro h tick htick hwindow
    exact not_sharesSlot_of_shows hspot hticks htick (distance_lt_of_inWindow hwindow)
      (h tick htick hwindow)
  · intro h tick htick hwindow
    obtain ⟨hfits, halone⟩ := h tick htick hwindow
    exact shows_of_not_sharesSlot hspot hticks hliquidity tsNs htick
      (distance_lt_of_inWindow hwindow) hfits halone

/-- Two ticks of the same net liquidity. -/
def twoTicks (first second : Int32) : List ConcentratedTick :=
  [⟨first, 5000000000, 5000000000⟩, ⟨second, 5000000000, 5000000000⟩]

lemma neverSaturates_twoTicks (first second : Int32) :
    NeverSaturates 1000000000000 (twoTicks first second) := by
  have hall : ∀ before ∈ (twoTicks first second).inits,
      0 ≤ (BitVec.toNat (1000000000000 : U128) : ℤ) + netSum before ∧
        (BitVec.toNat (1000000000000 : U128) : ℤ) + netSum before < 2 ^ 128 := by
    simp [twoTicks, List.inits, netSum]
  intro before hbefore
  exact hall before ((List.mem_inits before _).mpr hbefore)

/-- Ticks that are a slot apart keep their levels. -/
theorem depth_visible_iff_slotApart : onePool.DepthVisible (twoTicks 10 1010) 7 := by
  have habove : onePool.ticksAbove (twoTicks 10 1010) = twoTicks 10 1010 := by decide
  have hspot : 0 < onePool.spotPriceScaled := by decide
  have hordered : Ordered (twoTicks 10 1010) := by
    unfold Ordered
    decide
  refine (depth_visible_iff hspot hordered (habove ▸ neverSaturates_twoTicks 10 1010) 7).mpr ?_
  rw [habove]
  unfold InWindow SharesSlot
  decide +kernel

/-- Of two ticks in one slot the first is lost. -/
theorem neighbour_tick_lost :
    ¬ ∀ (pool : ConcentratedLiquidityPool) (ticks : List ConcentratedTick) (tsNs : UInt64),
      0 < pool.spotPriceScaled → Ordered ticks →
      NeverSaturates pool.currentLiquidity (pool.ticksAbove ticks) →
      pool.DepthVisible ticks tsNs := by
  intro h
  have habove : onePool.ticksAbove (twoTicks 10 20) = twoTicks 10 20 := by decide
  have hspot : 0 < onePool.spotPriceScaled := by decide
  have hordered : Ordered (twoTicks 10 20) := by
    unfold Ordered
    decide
  have hvisible := h onePool (twoTicks 10 20) 7 hspot hordered
    (habove ▸ neverSaturates_twoTicks 10 20)
  have hfirst : ⟨10, 5000000000, 5000000000⟩ ∈ onePool.ticksAbove (twoTicks 10 20) := by
    rw [habove]
    exact List.mem_cons_self
  have hsecond : ⟨20, 5000000000, 5000000000⟩ ∈ onePool.ticksAbove (twoTicks 10 20) := by
    rw [habove]
    exact List.mem_cons_of_mem _ List.mem_cons_self
  have hshown := hvisible _ hfirst (by unfold InWindow; decide +kernel)
  have halone := (not_sharesSlot_of_shows hspot hordered hfirst (by decide) hshown).2
  exact halone _ hsecond (by decide) (.inl (by decide))

end ConcentratedLiquidityPool

end ChainMarketPrice.AmmVirtualizer
