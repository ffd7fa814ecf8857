import ChainMarketPrice.IngestModels
import ChainMarketPrice.CefiIngest.Timestamp
import ChainMarketPrice.CoreEngine.FixedPoint

/-!
# Coinbase messages

The Coinbase part of `CefiParser` in `crates/cefi-ingest/src/lib.rs`: the quote and the trade
of a `ticker` message, and the fields the session reads on its own.
-/

namespace ChainMarketPrice.CefiIngest

open CoreEngine (parseFixedPoint8)

/-- `VenueId::Coinbase`. -/
def venueCoinbase : UInt16 := 2

/-- `ChainId::OffChain`. -/
def chainOffChain : UInt16 := 0

/-- The bytes `"name":` that a field is searched by. -/
def keyOf (name : String) : List UInt8 := Bytes.ofString ("\"" ++ name ++ "\":")

namespace CefiParser

/-- The exchange time of a message, `0` when it is missing or not understood. -/
def exchangeTimeNs (payload : List UInt8) : UInt64 :=
  match extractJsonStrField payload (keyOf "time") with
  | .ok text => (parseIso8601UtcNs text).getD 0
  | .error _ => 0

/-- The spread over the bid in basis points, in wrapping arithmetic. -/
def spreadBps (bp ap : Int64) : UInt16 :=
  if ap > bp ∧ bp > 0 then (((ap - bp) * 10000) / bp).toUInt64.toUInt16 else 0

def parseCoinbaseTickerBbo (marketId : UInt32) (payload : List UInt8) (t1IngestNs : UInt64) :
    Except String NormalizedBbo := do
  let bidPrice ← extractJsonStrField payload (keyOf "best_bid")
  let bidQty ← extractJsonStrField payload (keyOf "best_bid_size")
  let askPrice ← extractJsonStrField payload (keyOf "best_ask")
  let askQty ← extractJsonStrField payload (keyOf "best_ask_size")
  let seq ← (extractJsonIntField payload (keyOf "sequence")).elim (.error "sequence missing") .ok
  let bp := parseFixedPoint8 bidPrice
  let ap := parseFixedPoint8 askPrice
  return {
    telemetry :=
      { t0ExchangeNs := exchangeTimeNs payload, t1IngestNicNs := t1IngestNs,
        t2EngineProcNs := 0, t3EgressNs := 0 }
    marketId := marketId
    venue := venueCoinbase
    chain := chainOffChain
    sequence := seq
    bidPrice := bp
    bidQty := (parseFixedPoint8 bidQty).toUInt64
    askPrice := ap
    askQty := (parseFixedPoint8 askQty).toUInt64
    spreadBps := spreadBps bp ap
    flags := 0 }

def parseCoinbaseTickerTrade (marketId : UInt32) (payload : List UInt8) (t1IngestNs : UInt64) :
    Except String UnifiedTrade := do
  let price ← extractJsonStrField payload (keyOf "price")
  let size ← extractJsonStrField payload (keyOf "last_size")
  let side ← extractJsonStrField payload (keyOf "side")
  let tradeId ← (extractJsonIntField payload (keyOf "trade_id")).elim (.error "trade_id missing") .ok
  return {
    telemetry :=
      { t0ExchangeNs := exchangeTimeNs payload, t1IngestNicNs := t1IngestNs,
        t2EngineProcNs := 0, t3EgressNs := 0 }
    marketId := marketId
    venue := venueCoinbase
    chain := chainOffChain
    sequence := (extractJsonIntField payload (keyOf "sequence")).getD 0
    tradeId := tradeId
    price := parseFixedPoint8 price
    size := (parseFixedPoint8 size).toUInt64
    side := if side = Bytes.ofString "sell" then 2 else 1
    isLiquidation := false }

def coinbaseMessageType (payload : List UInt8) : Option (List UInt8) :=
  (extractJsonStrField payload (keyOf "type")).toOption

def coinbaseTradeId (payload : List UInt8) : Option UInt64 :=
  (extractJsonIntField payload (keyOf "trade_id")).or
    (extractJsonIntField payload (keyOf "last_trade_id"))

def coinbaseSequence (payload : List UInt8) : Option UInt64 :=
  extractJsonIntField payload (keyOf "sequence")

def coinbaseProductId (payload : List UInt8) : Option (List UInt8) :=
  (extractJsonStrField payload (keyOf "product_id")).toOption

end CefiParser
end ChainMarketPrice.CefiIngest
