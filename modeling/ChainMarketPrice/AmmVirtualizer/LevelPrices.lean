import ChainMarketPrice.AmmVirtualizer.TickDepth
import ChainMarketPrice.AmmVirtualizer.VirtualDepth

/-!
# The prices that the populators write

`WrittenWithin ask bid old new` says that a populator has left every level as it was, or has
written it at a price that `ask` or `bid` allows. It holds of any book to begin with, so that it
speaks about each write that no later one has covered, whatever the level held before; and as it
holds for every list of bands or ticks, it speaks about the covered writes too.

The spot price separates the two sides in `UniswapV2Pool`, `ConcentratedLiquidityPool` and
`CurvePool`, as long as no price computation wraps.
-/

namespace ChainMarketPrice.AmmVirtualizer

open CoreEngine FixedWidth

/-- An update writes the level into its own slot only. -/
lemma get_levels_update (side : Side) (base : Int64) (ladder : Ladder) (level : PriceLevel)
    (i : Fin priceLevelsCount) :
    (ladder.update side base level).levels.get i =
      if slot base level.price = some i then level else ladder.levels.get i := by
  cases hslot : slot base level.price with
  | none =>
    have hskip : ladder.update side base level = ladder := by rw [Ladder.update, hslot]
    rw [hskip, if_neg (by simp)]
  | some idx =>
    have hlevels : (ladder.update side base level).levels
        = ladder.levels.set idx level idx.isLt := by
      rw [Ladder.update, hslot]
      dsimp only
      split
      · rfl
      · split <;> rfl
    rw [hlevels, Ladder.get_set]
    by_cases h : i = idx
    · rw [if_pos h, if_pos (by rw [h])]
    · rw [if_neg h, if_neg (fun heq => h (Option.some_inj.mp heq).symm)]

/-- Every level is as it was, or was written at a price that is allowed on its side. -/
structure WrittenWithin (ask bid : Int64 → Prop) (old new : ContiguousOrderBook) : Prop where
  asks : ∀ i, new.asks.levels.get i = old.asks.levels.get i ∨ ask (new.asks.levels.get i).price
  bids : ∀ i, new.bids.levels.get i = old.bids.levels.get i ∨ bid (new.bids.levels.get i).price

namespace WrittenWithin

variable {ask bid : Int64 → Prop} {old book : ContiguousOrderBook}

lemma refl (book : ContiguousOrderBook) : WrittenWithin ask bid book book :=
  ⟨fun _ => .inl rfl, fun _ => .inl rfl⟩

lemma updateAsk (h : WrittenWithin ask bid old book) {level : PriceLevel}
    (hprice : ask level.price) : WrittenWithin ask bid old (book.updateAsk level) where
  asks i := by
    show (book.asks.update .ask book.basePrice level).levels.get i = _ ∨
      ask ((book.asks.update .ask book.basePrice level).levels.get i).price
    rw [get_levels_update]
    split
    · exact .inr hprice
    · exact h.asks i
  bids := h.bids

lemma updateBid (h : WrittenWithin ask bid old book) {level : PriceLevel}
    (hprice : bid level.price) : WrittenWithin ask bid old (book.updateBid level) where
  asks := h.asks
  bids i := by
    show (book.bids.update .bid book.basePrice level).levels.get i = _ ∨
      bid ((book.bids.update .bid book.basePrice level).levels.get i).price
    rw [get_levels_update]
    split
    · exact .inr hprice
    · exact h.bids i

/-- An ask written in place. -/
lemma writeAsk (h : WrittenWithin ask bid old book) {price : Int64} (hprice : ask price)
    (quantity ts : UInt64) :
    WrittenWithin ask bid old (writeAsk book price quantity ts) where
  asks i := by
    rw [get_writeAsk]
    split
    · exact .inr hprice
    · exact h.asks i
  bids i := by
    have hbids : (AmmVirtualizer.writeAsk book price quantity ts).bids = book.bids := by
      unfold AmmVirtualizer.writeAsk
      split <;> rfl
    rw [hbids]
    exact h.bids i

/-- A run of turns that each keep the prices within the bounds, and of which none panics. -/
lemma foldlM {τ : Type} {step : ContiguousOrderBook → τ → Except Panic ContiguousOrderBook}
    {items : List τ}
    (hstep : ∀ item ∈ items, ∀ before after, step before item = .ok after →
      WrittenWithin ask bid old before → WrittenWithin ask bid old after)
    {final : ContiguousOrderBook} (hrun : items.foldlM step book = .ok final)
    (h : WrittenWithin ask bid old book) : WrittenWithin ask bid old final := by
  induction items generalizing book with
  | nil =>
    obtain rfl : book = final := Except.ok.inj hrun
    exact h
  | cons item items ih =>
    rw [List.foldlM_cons] at hrun
    cases hnext : step book item with
    | error panic =>
      rw [hnext] at hrun
      cases hrun
    | ok next =>
      rw [hnext] at hrun
      exact ih (fun later hlater => hstep later (List.mem_cons_of_mem _ hlater)) hrun
        (hstep item List.mem_cons_self book next hnext h)

/-- The two loops over ticks. -/
lemma fillBook {askPrice bidPrice : ConcentratedTick → Int64}
    {above below : List ConcentratedTick} (hask : ∀ tick ∈ above, ask (askPrice tick))
    (hbid : ∀ tick ∈ below, bidPrice tick > 0 → bid (bidPrice tick)) (liquidity : U128)
    (tsNs : UInt64) (book : ContiguousOrderBook) :
    WrittenWithin ask bid book (fillBook askPrice bidPrice above below liquidity tsNs book) := by
  have hasks (st : ContiguousOrderBook × U128) (hst : WrittenWithin ask bid book st.1) :
      WrittenWithin ask bid book (above.foldl (fillAsk askPrice tsNs) st).1 := by
    induction above generalizing st with
    | nil => exact hst
    | cons tick above ih =>
      refine ih (fun later hlater => hask later (List.mem_cons_of_mem _ hlater)) _ ?_
      exact hst.writeAsk (hask tick List.mem_cons_self) _ _
  have hbids (st : ContiguousOrderBook × U128) (hst : WrittenWithin ask bid book st.1) :
      WrittenWithin ask bid book (below.foldl (fillBid bidPrice tsNs) st).1 := by
    induction below generalizing st with
    | nil => exact hst
    | cons tick below ih =>
      refine ih (fun later hlater => hbid later (List.mem_cons_of_mem _ hlater)) _ ?_
      unfold fillBid
      dsimp only
      split
      · next hpos => exact hst.updateBid (hbid tick List.mem_cons_self hpos)
      · exact hst
  exact hbids _ (hasks _ (refl book))

end WrittenWithin

/-- The asks at the spot or above, the bids at the spot or below and positive. -/
def NotCrossed (spot : Int64) (old new : ContiguousOrderBook) : Prop :=
  WrittenWithin (spot ≤ ·) (fun price => 0 < price ∧ price ≤ spot) old new

/-! ## Bands -/

/-- The price computations of a band do not wrap. -/
structure BandInRange (spot : Int64) (bps : UInt16) : Prop where
  product : spot.toInt * bps.toNat < 2 ^ 63
  ask : spot.toInt + spot.toInt * bps.toNat / 10000 < 2 ^ 63

/-- A band reaches to both sides of a positive spot. -/
lemma band_prices {spot : Int64} (hpos : 0 < spot) {bps : UInt16} (h : BandInRange spot bps) :
    spot ≤ spot + CurvePool.bandWidth spot bps ∧
      satSub64 spot (CurvePool.bandWidth spot bps) ≤ spot := by
  obtain ⟨hproduct, hask⟩ := h
  rw [Int64.lt_iff_toInt_lt, Int64.toInt_zero] at hpos
  obtain ⟨s, hs⟩ := Int.eq_ofNat_of_zero_le hpos.le
  rw [hs] at hproduct hask
  have hwidth := UniswapV2Pool.toInt_bandWidth hs
    (show s * bps.toNat < 2 ^ 63 by exact_mod_cast hproduct)
  have hlt := spot.toInt_lt
  have hexact : (UniswapV2Pool.exactWidth s bps : ℤ) = s * bps.toNat / 10000 := by
    unfold UniswapV2Pool.exactWidth
    push_cast
    rfl
  rw [Int64.le_iff_toInt_le, Int64.le_iff_toInt_le]
  constructor
  -- the ask price is the one sum that must not wrap
  · have hsum : (spot + CurvePool.bandWidth spot bps).toInt
        = s + UniswapV2Pool.exactWidth s bps := by
      rw [Int64.toInt_add, hs, hwidth]
      apply Int.bmod_eq_of_le <;> omega
    rw [hsum, hs]
    omega
  · have hle := (CurvePool.bandWidth spot bps).toInt_lt
    rw [toInt_satSub64 (by omega), hwidth]
    omega

/-- The loop over the bands, which is left out where the spot is not positive. -/
lemma notCrossed_bands {spot : Int64} {bandsBps : List UInt16} {book final : ContiguousOrderBook}
    {step : ContiguousOrderBook → UInt16 → Except Panic ContiguousOrderBook}
    (hrun : (if spot ≤ 0 then .ok book else bandsBps.foldlM step book) = .ok final)
    (hstep : 0 < spot → ∀ bps ∈ bandsBps, ∀ before after, step before bps = .ok after →
      NotCrossed spot book before → NotCrossed spot book after) : NotCrossed spot book final := by
  by_cases hle : spot ≤ 0
  · rw [if_pos hle] at hrun
    obtain rfl := Except.ok.inj hrun
    exact .refl book
  · rw [if_neg hle] at hrun
    exact WrittenWithin.foldlM (hstep (Int64.not_le.mp hle)) hrun (.refl book)

lemma UniswapV2Pool.bidPrice_pos {pool : UniswapV2Pool} {spot : Int64} {bps : UInt16}
    {qty : UInt64} (h : pool.bidQty spot bps = .ok (some qty)) : 0 < bidPrice spot bps := by
  by_contra hpos
  unfold bidQty at h
  rw [if_neg hpos] at h
  cases h

lemma UniswapV2Pool.bandStep_within {pool : UniswapV2Pool} {spot : Int64} (hpos : 0 < spot)
    {bps : UInt16} (hrange : BandInRange spot bps) {tsNs : UInt64}
    {old before after : ContiguousOrderBook}
    (hstep : pool.bandStep spot tsNs before bps = .ok after) (h : NotCrossed spot old before) :
    NotCrossed spot old after := by
  obtain ⟨hask, hbid⟩ := band_prices hpos hrange
  unfold bandStep at hstep
  cases haskQty : pool.askQty spot bps with
  | error panic =>
    rw [haskQty] at hstep
    cases hstep
  | ok ask =>
    rw [haskQty] at hstep
    cases hbidQty : pool.bidQty spot bps with
    | error panic =>
      rw [hbidQty] at hstep
      cases hstep
    | ok bid =>
      rw [hbidQty] at hstep
      obtain rfl : writeBand spot tsNs bps ask bid before = after := Except.ok.inj hstep
      -- the ask is written first, then the bid
      have hasked : NotCrossed spot old (writeBand spot tsNs bps ask none before) := by
        cases ask with
        | none => exact h
        | some qty => exact h.updateAsk hask
      cases bid with
      | none => exact hasked
      | some qty => exact hasked.updateBid ⟨UniswapV2Pool.bidPrice_pos hbidQty, hbid⟩

theorem UniswapV2Pool.populate_notCrossed {pool : UniswapV2Pool} {spot : Int64}
    (hspot : pool.spotPriceScaled = .ok spot) {bandsBps : List UInt16}
    (hrange : 0 < spot → ∀ bps ∈ bandsBps, BandInRange spot bps) {tsNs : UInt64}
    {book final : ContiguousOrderBook}
    (hrun : pool.populateVirtualOrderBook book bandsBps tsNs = .ok final) :
    NotCrossed spot book final := by
  unfold populateVirtualOrderBook at hrun
  rw [hspot] at hrun
  replace hrun : (if spot ≤ 0 then .ok book else bandsBps.foldlM (pool.bandStep spot tsNs) book)
      = .ok final := hrun
  refine notCrossed_bands hrun fun hpos bps hbps before after hstep h => ?_
  exact bandStep_within hpos (hrange hpos bps hbps) hstep h

lemma CurvePool.bandStep_within {pool : CurvePool} {i j : ℕ} {spot : Int64} (hpos : 0 < spot)
    {bps : UInt16} (hrange : BandInRange spot bps) {tsNs : UInt64}
    {old before after : ContiguousOrderBook}
    (hstep : pool.bandStep i j spot tsNs before bps = .ok after) (h : NotCrossed spot old before) :
    NotCrossed spot old after := by
  obtain ⟨hask, hbid⟩ := band_prices hpos hrange
  unfold bandStep at hstep
  cases hqty : pool.bandQty i j bps with
  | error panic =>
    rw [hqty] at hstep
    cases hstep
  | ok qty =>
    rw [hqty] at hstep
    cases qty with
    | none =>
      obtain rfl : before = after := Except.ok.inj hstep
      exact h
    | some qty =>
      have hasked : NotCrossed spot old (writeAsk before (spot + bandWidth spot bps) qty tsNs) :=
        h.writeAsk hask qty tsNs
      replace hstep := Except.ok.inj hstep
      rw [← hstep]
      split
      · next hbidPos => exact hasked.updateBid ⟨hbidPos, hbid⟩
      · exact hasked

theorem CurvePool.populate_notCrossed {pool : CurvePool} {i j : ℕ} {spot : Int64}
    (hspot : pool.spotPriceScaled i j = .ok spot) {bandsBps : List UInt16}
    (hrange : 0 < spot → ∀ bps ∈ bandsBps, BandInRange spot bps) {tsNs : UInt64}
    {book final : ContiguousOrderBook}
    (hrun : pool.populateVirtualOrderBook book i j bandsBps tsNs = .ok final) :
    NotCrossed spot book final := by
  rw [populateVirtualOrderBook_eq hspot] at hrun
  refine notCrossed_bands hrun fun hpos bps hbps before after hstep h => ?_
  exact bandStep_within hpos (hrange hpos bps hbps) hstep h

/-! ## Ticks -/

namespace ConcentratedLiquidityPool

variable {pool : ConcentratedLiquidityPool} {tick : ConcentratedTick}

/-- The distance of a tick from the current one is an `i32`, upwards and downwards. -/
def TickInRange (pool : ConcentratedLiquidityPool) (tick : ConcentratedTick) : Prop :=
  -2 ^ 31 < pool.distance tick ∧ pool.distance tick < 2 ^ 31

lemma spot_le_askPrice (habove : 0 < pool.distance tick) (hrange : pool.TickInRange tick) :
    pool.spotPriceScaled ≤ pool.askPrice tick := by
  rw [Int64.le_iff_toInt_le, toInt_askPrice, toInt_tickIndex_sub habove, if_pos hrange.2]
  omega

lemma bidPrice_le_spot (hbelow : pool.distance tick ≤ 0) (hrange : pool.TickInRange tick) :
    pool.bidPrice tick ≤ pool.spotPriceScaled := by
  have hspot := sqrtToPrice_bounds pool.sqrtPriceX96
  have hstep : (pool.currentTick - tick.tickIndex).toInt = -pool.distance tick := by
    unfold TickInRange distance at hrange
    unfold distance
    rw [Int32.toInt_sub, Int.neg_sub]
    apply Int.bmod_eq_of_le <;> omega
  have hoffset : ((pool.currentTick - tick.tickIndex).toInt64 * 100).toInt
      = -pool.distance tick * 100 := by rw [toInt_tickOffset, hstep]
  obtain ⟨hlow, -⟩ := hrange
  rw [Int64.le_iff_toInt_le, bidPrice, toInt_satSub64]
  · rw [hoffset]
    omega
  · rw [hoffset]
    show -2 ^ 63 ≤ (sqrtToPrice pool.sqrtPriceX96).toInt - _ ∧
      (sqrtToPrice pool.sqrtPriceX96).toInt - _ < 2 ^ 63
    omega

lemma distance_nonpos {ticks : List ConcentratedTick} (h : tick ∈ pool.ticksBelow ticks) :
    tick ∈ ticks ∧ pool.distance tick ≤ 0 := by
  obtain ⟨hmem, hbelow⟩ := List.mem_filter.mp (List.mem_reverse.mp h)
  rw [decide_eq_true_eq, Int32.le_iff_toInt_le] at hbelow
  refine ⟨hmem, ?_⟩
  unfold distance
  omega

theorem populate_notCrossed {ticks : List ConcentratedTick}
    (hrange : 0 < pool.spotPriceScaled → ∀ tick ∈ ticks, pool.TickInRange tick)
    (book : ContiguousOrderBook) (tsNs : UInt64) :
    NotCrossed pool.spotPriceScaled book (pool.populateOrderBook book ticks tsNs) := by
  unfold populateOrderBook
  by_cases hle : pool.spotPriceScaled ≤ 0
  · rw [if_pos hle]
    exact .refl book
  · rw [if_neg hle]
    replace hrange := hrange (Int64.not_le.mp hle)
    apply WrittenWithin.fillBook
    · intro tick htick
      exact spot_le_askPrice (distance_pos htick) (hrange tick (List.mem_of_mem_filter htick))
    · intro tick htick hpos
      obtain ⟨hmem, hbelow⟩ := distance_nonpos htick
      exact ⟨hpos, bidPrice_le_spot hbelow (hrange tick hmem)⟩

end ConcentratedLiquidityPool

/-- Virtual books are not crossed: what a populator writes stands on its side of the spot. -/
theorem populators_notCrossed (book : ContiguousOrderBook) (tsNs : UInt64) :
    (∀ (pool : UniswapV2Pool) (spot : Int64) (bandsBps : List UInt16)
        (final : ContiguousOrderBook),
      pool.spotPriceScaled = .ok spot →
      (0 < spot → ∀ bps ∈ bandsBps, BandInRange spot bps) →
      pool.populateVirtualOrderBook book bandsBps tsNs = .ok final →
      NotCrossed spot book final) ∧
    (∀ (pool : ConcentratedLiquidityPool) (ticks : List ConcentratedTick),
      (0 < pool.spotPriceScaled → ∀ tick ∈ ticks, pool.TickInRange tick) →
      NotCrossed pool.spotPriceScaled book (pool.populateOrderBook book ticks tsNs)) ∧
    ∀ (pool : CurvePool) (spot : Int64) (i j : ℕ) (bandsBps : List UInt16)
        (final : ContiguousOrderBook),
      pool.spotPriceScaled i j = .ok spot →
      (0 < spot → ∀ bps ∈ bandsBps, BandInRange spot bps) →
      pool.populateVirtualOrderBook book i j bandsBps tsNs = .ok final →
      NotCrossed spot book final :=
  ⟨fun _ _ _ _ hspot hrange hrun => UniswapV2Pool.populate_notCrossed hspot hrange hrun,
    fun _ _ hrange => ConcentratedLiquidityPool.populate_notCrossed hrange book tsNs,
    fun _ _ _ _ _ _ hspot hrange hrun => CurvePool.populate_notCrossed hspot hrange hrun⟩

/-- A thousand units of each of two coins. -/
def dollarPool : CurvePool where
  nCoins := 2
  rawReserves := #v[1000000000000000000000, 1000000000000000000000, 0]
  multipliers := #v[1, 1, 1]
  a := 100
  feeBps := 4

lemma exists_of_toBool {α : Type} {run : Except Panic α} (h : run.toBool = true) :
    ∃ final, run = .ok final := by
  cases run with
  | error panic => cases h
  | ok final => exact ⟨final, rfl⟩

lemma bandInRange_tenBps {spot : Int64} (h : 0 ≤ spot.toInt ∧ spot.toInt < 2 ^ 48) :
    BandInRange spot 10 := by
  have hten : UInt16.toNat 10 = 10 := rfl
  constructor
  · rw [hten]
    omega
  · rw [hten]
    omega

theorem populators_notCrossed_tenBps :
    (∃ final, UniswapV2Pool.twoDollarPool.populateVirtualOrderBook (.new 200000000) [10] 7
        = .ok final ∧ NotCrossed 200000000 (.new 200000000) final) ∧
    NotCrossed onePool.spotPriceScaled (.new 200000000)
      (onePool.populateOrderBook (.new 200000000) oneTick 7) ∧
    ∃ final, dollarPool.populateVirtualOrderBook (.new 200000000) 0 1 [10] 7 = .ok final ∧
      NotCrossed 99959502 (.new 200000000) final := by
  obtain ⟨hconstant, hticks, hcurve⟩ := populators_notCrossed (.new 200000000) 7
  refine ⟨?_, ?_, ?_⟩
  · obtain ⟨final, hrun⟩ := exists_of_toBool
      (show (UniswapV2Pool.twoDollarPool.populateVirtualOrderBook (.new 200000000) [10] 7).toBool
        = true by decide +kernel)
    refine ⟨final, hrun, hconstant _ _ _ _ (by decide +kernel) ?_ hrun⟩
    intro _ bps hbps
    rw [List.mem_singleton.mp hbps]
    exact bandInRange_tenBps (by decide)
  · apply hticks
    intro _ tick htick
    rw [List.mem_singleton.mp htick]
    exact ⟨by decide, by decide⟩
  · obtain ⟨final, hrun⟩ := exists_of_toBool
      (show (dollarPool.populateVirtualOrderBook (.new 200000000) 0 1 [10] 7).toBool = true
        by decide +kernel)
    refine ⟨final, hrun, hcurve _ _ _ _ _ _ (by decide +kernel) ?_ hrun⟩
    intro _ bps hbps
    rw [List.mem_singleton.mp hbps]
    exact bandInRange_tenBps (by decide)

end ChainMarketPrice.AmmVirtualizer
