import ChainMarketPrice.IngestModels
import ChainMarketPrice.CoreEngine.FastPrng
import ChainMarketPrice.Lib.FixedWidth

/-!
# The simulated exchange feed

`MockExchangeFeedSimulator` of `crates/core-engine/src/simulator.rs`: bursts of quotes and trades
around random walks of three prices. Words wrap as in the release profile, and `none` is a panic,
of which the only one is in `gen_range`.
-/

namespace ChainMarketPrice.CoreEngine

open FixedWidth

/-- `FeedEventKind`. -/
inductive FeedEventKind
  | bbo
  | trade
deriving Repr, DecidableEq

/-- `SimulatedVenue`, with the number of its `VenueId`. -/
inductive SimulatedVenue
  | binanceCeFi
  | okxCeFi
  | uniswapV3DeFi
deriving Repr, DecidableEq

def SimulatedVenue.id : SimulatedVenue → UInt16
  | .binanceCeFi => 1
  | .okxCeFi => 4
  | .uniswapV3DeFi => 102

/-- The number of the venue's `ChainId`: off-chain, or Ethereum. -/
def SimulatedVenue.chain : SimulatedVenue → UInt16
  | .binanceCeFi => 0
  | .okxCeFi => 0
  | .uniswapV3DeFi => 1

/-- `SimulatedFeedEvent`. -/
structure SimulatedFeedEvent where
  kind : FeedEventKind := .bbo
  venueId : UInt16 := 0
  marketId : UInt32 := 0
  bbo : NormalizedBbo := {}
  trade : UnifiedTrade := {}
deriving Repr, DecidableEq

namespace SimulatedFeedEvent

def fromBbo (bbo : NormalizedBbo) : SimulatedFeedEvent where
  kind := .bbo
  venueId := bbo.venue
  marketId := bbo.marketId
  bbo := bbo
  trade := {}

def fromTrade (trade : UnifiedTrade) : SimulatedFeedEvent where
  kind := .trade
  venueId := trade.venue
  marketId := trade.marketId
  bbo := {}
  trade := trade

end SimulatedFeedEvent

/-- The fields of `FeedBurstConfig` that the simulator reads. -/
structure FeedBurstConfig where
  burstSize : ℕ := 1000
  jitterMinNs : UInt64 := 200
  jitterMaxNs : UInt64 := 3500
  baseBtcPrice : Int64 := 6500000000000
  baseEthPrice : Int64 := 350000000000
  baseSolPrice : Int64 := 15000000000

structure MockExchangeFeedSimulator where
  prng : FastPrng
  btcCurPrice : Int64
  ethCurPrice : Int64
  solCurPrice : Int64
  binanceSeq : UInt64
  okxSeq : UInt64
  uniswapSeq : UInt64
  tradeIdCounter : UInt64

/-! ## One event -/

/-- The bid and the ask, half a spread away from the price. -/
def quoted (basePrice : Int64) (spreadBps : UInt16) : Int64 × Int64 :=
  let halfSpread := basePrice * ofU16 spreadBps / 20000
  (basePrice - halfSpread, basePrice + halfSpread)

/-- What the two branches of centralized venues differ in. -/
structure CefiVenue where
  venue : SimulatedVenue
  spreadMin : UInt64
  spreadMax : UInt64
  qtyMin : UInt64
  qtyMax : UInt64
  sizeMin : UInt64
  sizeMax : UInt64

/-- The Binance branch. -/
def binanceCefi : CefiVenue where
  venue := .binanceCeFi
  spreadMin := 1
  spreadMax := 3
  qtyMin := 500000000
  qtyMax := 5000000000
  sizeMin := 100000000
  sizeMax := 2500000000

/-- The OKX branch. -/
def okxCefi : CefiVenue where
  venue := .okxCeFi
  spreadMin := 2
  spreadMax := 5
  qtyMin := 200000000
  qtyMax := 3000000000
  sizeMin := 50000000
  sizeMax := 1500000000

namespace CefiVenue

def tradeEvent (v : CefiVenue) (prng : FastPrng) (telemetry : TelemetryTimestamps)
    (marketId : UInt32) (basePrice : Int64) (sequence tradeId : UInt64) :
    Option (SimulatedFeedEvent × FastPrng) := do
  let (r, prng) := prng.nextU64
  let side := if r &&& 1 = 0 then 1 else 2
  let (size, prng) ← prng.genRange v.sizeMin v.sizeMax
  return (.fromTrade
    { telemetry := telemetry
      marketId := marketId
      venue := v.venue.id
      chain := v.venue.chain
      sequence := sequence
      tradeId := tradeId
      price := basePrice
      size := size
      side := side
      isLiquidation := false }, prng)

def bboEvent (v : CefiVenue) (prng : FastPrng) (telemetry : TelemetryTimestamps)
    (marketId : UInt32) (basePrice : Int64) (sequence : UInt64) :
    Option (SimulatedFeedEvent × FastPrng) := do
  let (spread, prng) ← prng.genRange v.spreadMin v.spreadMax
  let spreadBps := spread.toUInt16
  let (bidPrice, askPrice) := quoted basePrice spreadBps
  let (bidQty, prng) ← prng.genRange v.qtyMin v.qtyMax
  let (askQty, prng) ← prng.genRange v.qtyMin v.qtyMax
  return (.fromBbo
    { telemetry := telemetry
      marketId := marketId
      venue := v.venue.id
      chain := v.venue.chain
      sequence := sequence
      bidPrice := bidPrice
      bidQty := bidQty
      askPrice := askPrice
      askQty := askQty
      spreadBps := spreadBps
      flags := 0 }, prng)

end CefiVenue

/-- The UniswapV3 branch: quotes of a pool, never trades. -/
def uniswapEvent (prng : FastPrng) (telemetry : TelemetryTimestamps) (marketId : UInt32)
    (basePrice : Int64) (sequence : UInt64) : Option (SimulatedFeedEvent × FastPrng) := do
  let (spread, prng) ← prng.genRange 5 15
  let spreadBps := spread.toUInt16
  let (bidPrice, askPrice) := quoted basePrice spreadBps
  let (poolLiquidity, prng) ← prng.genRange 5000000000 20000000000
  return (.fromBbo
    { telemetry := telemetry
      marketId := marketId
      venue := SimulatedVenue.uniswapV3DeFi.id
      chain := SimulatedVenue.uniswapV3DeFi.chain
      sequence := sequence
      bidPrice := bidPrice
      bidQty := poolLiquidity
      askPrice := askPrice
      askQty := poolLiquidity
      spreadBps := spreadBps
      flags := 0x01 }, prng)

namespace MockExchangeFeedSimulator

def new (seed : UInt64) (config : FeedBurstConfig) : MockExchangeFeedSimulator where
  prng := .new seed
  btcCurPrice := config.baseBtcPrice
  ethCurPrice := config.baseEthPrice
  solCurPrice := config.baseSolPrice
  binanceSeq := 100000000
  okxSeq := 200000000
  uniswapSeq := 1000000
  tradeIdCounter := 50000000

/-- `(market_id, base_price, tick_jump)`. -/
def market (sim : MockExchangeFeedSimulator) (assetChoice : UInt64) : UInt32 × Int64 × Int64 :=
  if assetChoice < 50 then (1001, sim.btcCurPrice, 500000)
  else if assetChoice < 85 then (1002, sim.ethCurPrice, 100000)
  else (1003, sim.solCurPrice, 10000)

/-- The update of the persistent price state. -/
def storePrice (sim : MockExchangeFeedSimulator) (marketId : UInt32) (basePrice : Int64) :
    MockExchangeFeedSimulator :=
  if marketId = 1001 then { sim with btcCurPrice := basePrice }
  else if marketId = 1002 then { sim with ethCurPrice := basePrice }
  else { sim with solCurPrice := basePrice }

/-- The four timestamps, with the injected jitter. -/
def stamps (config : FeedBurstConfig) (prng : FastPrng) (t0Exchange : UInt64) :
    Option (TelemetryTimestamps × FastPrng) := do
  let (jitterNs, prng) ← prng.genRange config.jitterMinNs config.jitterMaxNs
  let t1Nic := t0Exchange + jitterNs
  let (engineNs, prng) ← prng.genRange 500 1500
  let t2Engine := t1Nic + engineNs
  let (egressNs, prng) ← prng.genRange 200 800
  let t3Egress := t2Engine + egressNs
  return (⟨t0Exchange, t1Nic, t2Engine, t3Egress⟩, prng)

/-- One event of a centralized venue: a trade takes the next trade id. -/
def cefiEvent (v : CefiVenue) (prng : FastPrng) (telemetry : TelemetryTimestamps)
    (marketId : UInt32) (basePrice : Int64) (sequence tradeIdCounter : UInt64) (isTrade : Bool) :
    Option (SimulatedFeedEvent × FastPrng × UInt64) := do
  if isTrade then
    let tradeIdCounter := tradeIdCounter + 1
    let (event, prng) ←
      v.tradeEvent prng telemetry marketId basePrice sequence tradeIdCounter
    return (event, prng, tradeIdCounter)
  else
    let (event, prng) ← v.bboEvent prng telemetry marketId basePrice sequence
    return (event, prng, tradeIdCounter)

/-- The event of the chosen venue: five draws in ten are for Binance, three for OKX. -/
def venueEvent (sim : MockExchangeFeedSimulator) (prng : FastPrng) (venueChoice : UInt64)
    (isTrade : Bool) (telemetry : TelemetryTimestamps) (marketId : UInt32) (basePrice : Int64) :
    Option (SimulatedFeedEvent × MockExchangeFeedSimulator) := do
  if venueChoice < 5 then
    let binanceSeq := sim.binanceSeq + 1
    let (event, prng, tradeIdCounter) ← cefiEvent binanceCefi prng telemetry marketId basePrice
      binanceSeq sim.tradeIdCounter isTrade
    return (event, { sim with
      prng := prng, binanceSeq := binanceSeq, tradeIdCounter := tradeIdCounter })
  else if venueChoice < 8 then
    let okxSeq := sim.okxSeq + 1
    let (event, prng, tradeIdCounter) ← cefiEvent okxCefi prng telemetry marketId basePrice
      okxSeq sim.tradeIdCounter isTrade
    return (event, { sim with prng := prng, okxSeq := okxSeq, tradeIdCounter := tradeIdCounter })
  else
    let uniswapSeq := sim.uniswapSeq + 1
    let (event, prng) ← uniswapEvent prng telemetry marketId basePrice uniswapSeq
    return (event, { sim with prng := prng, uniswapSeq := uniswapSeq })

/-- The rest of a turn, once the venue, the asset and the event type are drawn. -/
def walkAndEmit (sim : MockExchangeFeedSimulator) (config : FeedBurstConfig)
    (baseTimestampNs : UInt64) (i : ℕ) (venueChoice assetChoice : UInt64) (isTrade : Bool)
    (prng : FastPrng) : Option (SimulatedFeedEvent × MockExchangeFeedSimulator) := do
  let (marketId, curPrice, tickJump) := sim.market assetChoice
  -- random price walk
  let delta := prng.genPriceDelta tickJump
  let basePrice := max (curPrice + delta.1) 100000000
  let sim := sim.storePrice marketId basePrice
  let (telemetry, prng) ← stamps config delta.2 (baseTimestampNs + UInt64.ofNat i * 10)
  sim.venueEvent prng venueChoice isTrade telemetry marketId basePrice

/-- One turn of the loop of `generate_burst`. -/
def generateEvent (sim : MockExchangeFeedSimulator) (config : FeedBurstConfig)
    (baseTimestampNs : UInt64) (i : ℕ) : Option (SimulatedFeedEvent × MockExchangeFeedSimulator) :=
  let venueDraw := sim.prng.nextU64
  let assetDraw := venueDraw.2.nextU64
  let kindDraw := assetDraw.2.nextU64
  sim.walkAndEmit config baseTimestampNs i (venueDraw.1 % 10) (assetDraw.1 % 100)
    (decide (kindDraw.1 % 100 < 15)) kindDraw.2

/-! ## Bursts -/

/-- The loop, with the number of turns that are left. -/
def fill (config : FeedBurstConfig) (baseTimestampNs : UInt64) :
    ℕ → ℕ → MockExchangeFeedSimulator → List SimulatedFeedEvent →
      Option (List SimulatedFeedEvent × MockExchangeFeedSimulator)
  | 0, _, sim, outBuffer => some (outBuffer, sim)
  | left + 1, i, sim, outBuffer => do
    let (event, sim) ← sim.generateEvent config baseTimestampNs i
    fill config baseTimestampNs left (i + 1) sim (outBuffer.set i event)

/-- `generate_burst`: the count, the buffer and the simulator afterwards. -/
def generateBurst (sim : MockExchangeFeedSimulator) (config : FeedBurstConfig)
    (outBuffer : List SimulatedFeedEvent) (baseTimestampNs : UInt64) :
    Option (ℕ × List SimulatedFeedEvent × MockExchangeFeedSimulator) := do
  let count := min config.burstSize outBuffer.length
  let (outBuffer, sim) ← fill config baseTimestampNs count 0 sim outBuffer
  return (count, outBuffer, sim)

end MockExchangeFeedSimulator

/-- The arguments of one call of `generate_burst`. -/
structure Burst where
  config : FeedBurstConfig
  outBuffer : List SimulatedFeedEvent
  baseTimestampNs : UInt64

/-- A run of bursts: the count and the buffer after each of them. -/
def MockExchangeFeedSimulator.run :
    MockExchangeFeedSimulator → List Burst →
      Option (List (ℕ × List SimulatedFeedEvent) × MockExchangeFeedSimulator)
  | sim, [] => some ([], sim)
  | sim, b :: bs => do
    let (count, outBuffer, sim) ← sim.generateBurst b.config b.outBuffer b.baseTimestampNs
    let (rest, sim) ← sim.run bs
    return ((count, outBuffer) :: rest, sim)

end ChainMarketPrice.CoreEngine
