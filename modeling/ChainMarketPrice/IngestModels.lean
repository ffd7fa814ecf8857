import Mathlib.Init

/-!
# Normalized market data

`crates/ingest-models/src/lib.rs`: the records the feeds produce and the distribution layer
reads. Prices and quantities are scaled by `10 ^ 8`.
-/

namespace ChainMarketPrice

/-- `TelemetryTimestamps`. -/
structure TelemetryTimestamps where
  t0ExchangeNs : UInt64 := 0
  t1IngestNicNs : UInt64 := 0
  t2EngineProcNs : UInt64 := 0
  t3EgressNs : UInt64 := 0
deriving Repr, DecidableEq, Inhabited

/-- `NormalizedBbo`. -/
structure NormalizedBbo where
  telemetry : TelemetryTimestamps := {}
  marketId : UInt32 := 0
  venue : UInt16 := 0
  chain : UInt16 := 0
  sequence : UInt64 := 0
  bidPrice : Int64 := 0
  bidQty : UInt64 := 0
  askPrice : Int64 := 0
  askQty : UInt64 := 0
  spreadBps : UInt16 := 0
  flags : UInt16 := 0
deriving Repr, DecidableEq, Inhabited

/-- `UnifiedTrade`. -/
structure UnifiedTrade where
  telemetry : TelemetryTimestamps := {}
  marketId : UInt32 := 0
  venue : UInt16 := 0
  chain : UInt16 := 0
  sequence : UInt64 := 0
  tradeId : UInt64 := 0
  price : Int64 := 0
  size : UInt64 := 0
  side : UInt8 := 0
  isLiquidation : Bool := false
deriving Repr, DecidableEq, Inhabited

end ChainMarketPrice
