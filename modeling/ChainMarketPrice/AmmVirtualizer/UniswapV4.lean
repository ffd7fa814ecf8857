import ChainMarketPrice.AmmVirtualizer.ConcentratedLiquidity

/-!
# Uniswap v4 pools as an order book

`crates/amm-virtualizer/src/v4.rs`. A v4 pool is a concentrated-liquidity pool whose prices
carry half of a fee, and whose fee depends on the hooks of its key.
-/

namespace ChainMarketPrice.AmmVirtualizer

open CoreEngine FixedWidth

/-- `DYNAMIC_FEE_FLAG`: bit 23 of the 24-bit fee. -/
def dynamicFeeFlag : UInt32 := 0x800000

/-- `HookFlags::BEFORE_SWAP`: bit 7. -/
def hookBeforeSwap : UInt16 := 0x80

/-- The fields of `PoolKey` that are read. -/
structure PoolKey where
  fee : UInt32
  hooks : Vector UInt8 20
deriving DecidableEq

namespace PoolKey

def hasDynamicFee (key : PoolKey) : Bool := key.fee &&& dynamicFeeFlag ≠ 0

/-- `HookFlags::parse_flags_from_address` of the hooks address. -/
def hookFlags (key : PoolKey) : UInt16 :=
  (key.hooks[0].toUInt16 <<< 8) ||| key.hooks[1].toUInt16

def hasHook (key : PoolKey) (flag : UInt16) : Bool := key.hookFlags &&& flag ≠ 0

end PoolKey

/-- The fields of `HookSimulationConfig` that are read. -/
structure HookSimulationConfig where
  dynamicFeeOverrideBps : Option UInt16 := none
  hookFeeDeltaBps : Int16 := 0
deriving DecidableEq

structure UniswapV4Pool where
  key : PoolKey
  sqrtPriceX96 : U128
  currentTick : Int32
  currentLiquidity : U128
  hookConfig : HookSimulationConfig := {}
deriving DecidableEq

namespace UniswapV4Pool

def effectiveFeeBps (pool : UniswapV4Pool) : UInt16 :=
  let baseFeeBps :=
    if pool.key.hasDynamicFee then pool.hookConfig.dynamicFeeOverrideBps.getD 30
    else (pool.key.fee / 100).toUInt16
  if pool.key.hasHook hookBeforeSwap then
    -- the sum of a `u16` and an `i16` fits in the `i32` of the source
    let adjusted := (baseFeeBps.toNat : ℤ) + pool.hookConfig.hookFeeDeltaBps.toInt
    UInt16.ofNat (min (max adjusted 0) 10000).toNat
  else baseFeeBps

def spotPriceScaled (pool : UniswapV4Pool) : Int64 := sqrtToPrice pool.sqrtPriceX96

/-- Half of the fee on a price, in wrapping arithmetic. -/
def halfFee (pool : UniswapV4Pool) (price : Int64) : Int64 :=
  price * ofU16 pool.effectiveFeeBps / 20000

/-- The ticks of the ask loop: the current one is among them. -/
def ticksAbove (pool : UniswapV4Pool) (ticks : List ConcentratedTick) : List ConcentratedTick :=
  ticks.filter (·.tickIndex ≥ pool.currentTick)

/-- The ticks of the bid loop, in its order. -/
def ticksBelow (pool : UniswapV4Pool) (ticks : List ConcentratedTick) : List ConcentratedTick :=
  (ticks.filter (·.tickIndex ≤ pool.currentTick)).reverse

def askPrice (pool : UniswapV4Pool) (tick : ConcentratedTick) : Int64 :=
  let priceStep := pool.spotPriceScaled + (tick.tickIndex - pool.currentTick).toInt64 * 100
  priceStep + pool.halfFee priceStep

def bidPrice (pool : UniswapV4Pool) (tick : ConcentratedTick) : Int64 :=
  let priceStep :=
    satSub64 pool.spotPriceScaled ((pool.currentTick - tick.tickIndex).toInt64 * 100)
  satSub64 priceStep (pool.halfFee priceStep)

def populateVirtualOrderBook (pool : UniswapV4Pool) (book : ContiguousOrderBook)
    (ticks : List ConcentratedTick) (tsNs : UInt64) : ContiguousOrderBook :=
  if pool.spotPriceScaled ≤ 0 then book
  else
    fillBook pool.askPrice pool.bidPrice (pool.ticksAbove ticks) (pool.ticksBelow ticks)
      pool.currentLiquidity tsNs book

end UniswapV4Pool

end ChainMarketPrice.AmmVirtualizer
