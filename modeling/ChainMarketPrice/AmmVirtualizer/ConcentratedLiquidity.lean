import ChainMarketPrice.Lib.FixedWidth
import ChainMarketPrice.CoreEngine.OrderBook

/-!
# Concentrated liquidity as an order book

`ConcentratedLiquidityPool` of `crates/amm-virtualizer/src/lib.rs`. The ticks above the current
one become asks and the ones below it bids; crossing a tick changes the liquidity that the next
one offers. Asks are written into the ladder in place, bids go through `update_bid`. All
arithmetic wraps as the release profile does.
-/

namespace ChainMarketPrice.AmmVirtualizer

open CoreEngine FixedWidth

/-- `liquidity_net` is an `i128`: the bits of a two's complement number. -/
structure ConcentratedTick where
  tickIndex : Int32
  liquidityGross : U128
  liquidityNet : U128
deriving DecidableEq

/-- The liquidity after crossing a tick upwards. -/
def crossUp (liquidity : U128) (tick : ConcentratedTick) : U128 :=
  if tick.liquidityNet.toInt ≥ 0 then satAdd liquidity tick.liquidityNet
  else satSub liquidity (-tick.liquidityNet)

/-- The liquidity after crossing a tick downwards. -/
def crossDown (liquidity : U128) (tick : ConcentratedTick) : U128 :=
  if tick.liquidityNet.toInt ≥ 0 then satSub liquidity tick.liquidityNet
  else satAdd liquidity (-tick.liquidityNet)

/-- The quantity a level offers at the given liquidity. -/
def availableQty (liquidity : U128) : UInt64 := toU64 (liquidity / 1000000000)

/-- `sqrtPriceX96` to a price scaled by `10 ^ 8`. -/
def sqrtToPrice (sqrtPriceX96 : U128) : Int64 :=
  if sqrtPriceX96 = 0 then 0
  else
    let sp := sqrtPriceX96 >>> 48
    let pNum := sp * sp
    let pScaled := ((pNum >>> 32) * 100000000 + 0x8000000000000000) >>> 64
    toI64 pScaled

/-- The index that an ask written in place goes to: the signed distance from the base. -/
def askSlot (basePrice price : Int64) : Option (Fin priceLevelsCount) :=
  let diff := (price - basePrice) / tickSize
  if h : diff ≥ 0 ∧ diff.toInt.toNat < priceLevelsCount then some ⟨diff.toInt.toNat, h.2⟩
  else none

/-- Writes price, quantity and time of an ask level. Its order count and the best index of the
side stay as they are. -/
def writeAsk (book : ContiguousOrderBook) (price : Int64) (quantity ts : UInt64) :
    ContiguousOrderBook :=
  match askSlot book.basePrice price with
  | none => book
  | some idx =>
    let level :=
      { book.asks.levels.get idx with price := price, quantity := quantity, lastUpdateTs := ts }
    { book with asks := { book.asks with levels := book.asks.levels.set idx level idx.isLt } }

/-- One turn of an ask loop: the book and the active liquidity. -/
def fillAsk (askPrice : ConcentratedTick → Int64) (tsNs : UInt64)
    (st : ContiguousOrderBook × U128) (tick : ConcentratedTick) : ContiguousOrderBook × U128 :=
  (writeAsk st.1 (askPrice tick) (availableQty st.2) tsNs, crossUp st.2 tick)

/-- One turn of a bid loop. -/
def fillBid (bidPrice : ConcentratedTick → Int64) (tsNs : UInt64)
    (st : ContiguousOrderBook × U128) (tick : ConcentratedTick) : ContiguousOrderBook × U128 :=
  let price := bidPrice tick
  let book :=
    if price > 0 then st.1.updateBid ⟨price, availableQty st.2, 1, tsNs⟩ else st.1
  (book, crossDown st.2 tick)

/-- The two loops over ticks: asks upwards, then bids downwards, both from the liquidity of the
current tick. -/
def fillBook (askPrice bidPrice : ConcentratedTick → Int64) (above below : List ConcentratedTick)
    (liquidity : U128) (tsNs : UInt64) (book : ContiguousOrderBook) : ContiguousOrderBook :=
  let asked := (above.foldl (fillAsk askPrice tsNs) (book, liquidity)).1
  (below.foldl (fillBid bidPrice tsNs) (asked, liquidity)).1

structure ConcentratedLiquidityPool where
  currentTick : Int32
  sqrtPriceX96 : U128
  currentLiquidity : U128
  tickSpacing : Int32
deriving DecidableEq

namespace ConcentratedLiquidityPool

def spotPriceScaled (pool : ConcentratedLiquidityPool) : Int64 := sqrtToPrice pool.sqrtPriceX96

/-- The ticks of the ask loop. -/
def ticksAbove (pool : ConcentratedLiquidityPool) (ticks : List ConcentratedTick) :
    List ConcentratedTick :=
  ticks.filter (·.tickIndex > pool.currentTick)

/-- The ticks of the bid loop, in its order. -/
def ticksBelow (pool : ConcentratedLiquidityPool) (ticks : List ConcentratedTick) :
    List ConcentratedTick :=
  (ticks.filter (·.tickIndex ≤ pool.currentTick)).reverse

/-- The price of a tick above the current one. The difference of the ticks is an `i32`. -/
def askPrice (pool : ConcentratedLiquidityPool) (tick : ConcentratedTick) : Int64 :=
  pool.spotPriceScaled + (tick.tickIndex - pool.currentTick).toInt64 * 100

/-- The price of a tick below the current one. -/
def bidPrice (pool : ConcentratedLiquidityPool) (tick : ConcentratedTick) : Int64 :=
  satSub64 pool.spotPriceScaled ((pool.currentTick - tick.tickIndex).toInt64 * 100)

def populateOrderBook (pool : ConcentratedLiquidityPool) (book : ContiguousOrderBook)
    (ticks : List ConcentratedTick) (tsNs : UInt64) : ContiguousOrderBook :=
  if pool.spotPriceScaled ≤ 0 then book
  else
    fillBook pool.askPrice pool.bidPrice (pool.ticksAbove ticks) (pool.ticksBelow ticks)
      pool.currentLiquidity tsNs book

end ConcentratedLiquidityPool

end ChainMarketPrice.AmmVirtualizer
