import ChainMarketPrice.IngestModels
import ChainMarketPrice.Lib.Bytes

/-!
# SBE framing

`crates/distribution/src/sbe.rs`: the encoders and decoders of a best bid and offer and of a
trade. An encoder gets the output buffer and returns what it wrote into it beside the result;
the offsets of the fields are those that the source spells out.
-/

namespace ChainMarketPrice.Distribution
namespace Sbe

open Bytes

def sbeHeaderLen : ℕ := 8
def sbeSchemaId : UInt16 := 1
def sbeSchemaVersion : UInt16 := 1
def templateIdBbo : UInt16 := 101
def blockLengthBbo : UInt16 := 84

/-- `TOTAL_SBE_BBO_LEN`. -/
def totalSbeBboLen : ℕ := sbeHeaderLen + blockLengthBbo.toNat

def templateIdTrade : UInt16 := 104
def blockLengthTrade : UInt16 := 85

/-- `TOTAL_SBE_TRADE_LEN`: with the length of the variable data behind the block. -/
def totalSbeTradeLen : ℕ := sbeHeaderLen + blockLengthTrade.toNat + 2

/-- `SbeError`. -/
inductive SbeError
  | bufferTooSmall (required provided : ℕ)
  | invalidHeader
  | unsupportedTemplateId (id : UInt16)
  | invalidSchemaId (id : UInt16)
  | invalidSchemaVersion (version : UInt16)
deriving Repr, DecidableEq

/-- `SbeMessageHeader`. -/
structure SbeMessageHeader where
  blockLength : UInt16
  templateId : UInt16
  schemaId : UInt16
  version : UInt16
deriving Repr, DecidableEq

namespace SbeMessageHeader

def new (blockLength templateId : UInt16) : SbeMessageHeader where
  blockLength := blockLength
  templateId := templateId
  schemaId := sbeSchemaId
  version := sbeSchemaVersion

/-- `write_to` on the first eight bytes of `buf`. -/
def writeTo (h : SbeMessageHeader) (buf : List UInt8) : List UInt8 :=
  let buf := copyAt buf 0 (toLe 2 h.blockLength.toNat)
  let buf := copyAt buf 2 (toLe 2 h.templateId.toNat)
  let buf := copyAt buf 4 (toLe 2 h.schemaId.toNat)
  copyAt buf 6 (toLe 2 h.version.toNat)

/-- `read_from`. The version is read and not checked. -/
def readFrom (buf : List UInt8) : Except SbeError SbeMessageHeader :=
  if buf.length < sbeHeaderLen then .error (.bufferTooSmall sbeHeaderLen buf.length)
  else
    let blockLength := UInt16.ofNat (readLe buf 0 2)
    let templateId := UInt16.ofNat (readLe buf 2 2)
    let schemaId := UInt16.ofNat (readLe buf 4 2)
    let version := UInt16.ofNat (readLe buf 6 2)
    if schemaId ≠ sbeSchemaId then .error (.invalidSchemaId schemaId)
    else
      .ok
        { blockLength := blockLength, templateId := templateId, schemaId := schemaId,
          version := version }

end SbeMessageHeader

/-- The checks of both decoders, before the fields are read. -/
def decodeMessage {α : Type} (totalLen : ℕ) (templateId : UInt16) (readFields : List UInt8 → α)
    (buf : List UInt8) : Except SbeError α :=
  if buf.length < totalLen then .error (.bufferTooSmall totalLen buf.length)
  else
    match SbeMessageHeader.readFrom (buf.take 8) with
    | .error e => .error e
    | .ok header =>
      if header.templateId ≠ templateId then .error (.unsupportedTemplateId header.templateId)
      else .ok (readFields buf)

/-! ## Best bid and offer -/

/-- `encode_bbo_sbe`: the result and the buffer after. -/
def encodeBboSbe (bbo : NormalizedBbo) (out : List UInt8) : Except SbeError ℕ × List UInt8 :=
  if out.length < totalSbeBboLen then
    (.error (.bufferTooSmall totalSbeBboLen out.length), out)
  else
    -- header
    let out := (SbeMessageHeader.new blockLengthBbo templateIdBbo).writeTo out
    -- telemetry
    let out := copyAt out 8 (toLe 8 bbo.telemetry.t0ExchangeNs.toNat)
    let out := copyAt out 16 (toLe 8 bbo.telemetry.t1IngestNicNs.toNat)
    let out := copyAt out 24 (toLe 8 bbo.telemetry.t2EngineProcNs.toNat)
    let out := copyAt out 32 (toLe 8 bbo.telemetry.t3EgressNs.toNat)
    -- venue and chain
    let out := copyAt out 40 (toLe 2 bbo.venue.toNat)
    let out := copyAt out 42 (toLe 2 bbo.chain.toNat)
    -- market and sequence
    let out := copyAt out 44 (toLe 4 bbo.marketId.toNat)
    let out := copyAt out 48 (toLe 8 bbo.sequence.toNat)
    -- prices and quantities
    let out := copyAt out 56 (toLe 8 bbo.bidPrice.toUInt64.toNat)
    let out := copyAt out 64 (toLe 8 bbo.bidQty.toNat)
    let out := copyAt out 72 (toLe 8 bbo.askPrice.toUInt64.toNat)
    let out := copyAt out 80 (toLe 8 bbo.askQty.toNat)
    -- spread and flags
    let out := copyAt out 88 (toLe 2 bbo.spreadBps.toNat)
    let out := copyAt out 90 (toLe 2 bbo.flags.toNat)
    (.ok totalSbeBboLen, out)

/-- The telemetry of either message. -/
def readTelemetry (buf : List UInt8) : TelemetryTimestamps where
  t0ExchangeNs := UInt64.ofNat (readLe buf 8 8)
  t1IngestNicNs := UInt64.ofNat (readLe buf 16 8)
  t2EngineProcNs := UInt64.ofNat (readLe buf 24 8)
  t3EgressNs := UInt64.ofNat (readLe buf 32 8)

/-- The fields of a best bid and offer behind its header. -/
def readBbo (buf : List UInt8) : NormalizedBbo where
  telemetry := readTelemetry buf
  venue := UInt16.ofNat (readLe buf 40 2)
  chain := UInt16.ofNat (readLe buf 42 2)
  marketId := UInt32.ofNat (readLe buf 44 4)
  sequence := UInt64.ofNat (readLe buf 48 8)
  bidPrice := (UInt64.ofNat (readLe buf 56 8)).toInt64
  bidQty := UInt64.ofNat (readLe buf 64 8)
  askPrice := (UInt64.ofNat (readLe buf 72 8)).toInt64
  askQty := UInt64.ofNat (readLe buf 80 8)
  spreadBps := UInt16.ofNat (readLe buf 88 2)
  flags := UInt16.ofNat (readLe buf 90 2)

def decodeBboSbe : List UInt8 → Except SbeError NormalizedBbo :=
  decodeMessage totalSbeBboLen templateIdBbo readBbo

/-! ## Trades -/

/-- The quote quantity of a trade: the product as a `u128`, narrowed to 64 bits. -/
def quoteQty (trade : UnifiedTrade) : UInt64 :=
  if trade.price > 0 then
    UInt64.ofNat (trade.price.toUInt64.toNat * trade.size.toNat / 100000000)
  else 0

/-- `encode_trade_sbe`: the result and the buffer after. -/
def encodeTradeSbe (trade : UnifiedTrade) (out : List UInt8) : Except SbeError ℕ × List UInt8 :=
  if out.length < totalSbeTradeLen then
    (.error (.bufferTooSmall totalSbeTradeLen out.length), out)
  else
    -- header
    let out := (SbeMessageHeader.new blockLengthTrade templateIdTrade).writeTo out
    -- telemetry
    let out := copyAt out 8 (toLe 8 trade.telemetry.t0ExchangeNs.toNat)
    let out := copyAt out 16 (toLe 8 trade.telemetry.t1IngestNicNs.toNat)
    let out := copyAt out 24 (toLe 8 trade.telemetry.t2EngineProcNs.toNat)
    let out := copyAt out 32 (toLe 8 trade.telemetry.t3EgressNs.toNat)
    -- venue and chain
    let out := copyAt out 40 (toLe 2 trade.venue.toNat)
    let out := copyAt out 42 (toLe 2 trade.chain.toNat)
    -- market, sequence and trade id
    let out := copyAt out 44 (toLe 4 trade.marketId.toNat)
    let out := copyAt out 48 (toLe 8 trade.sequence.toNat)
    let out := copyAt out 56 (toLe 8 trade.tradeId.toNat)
    -- side
    let out := out.set 64 trade.side
    -- price, size and quote quantity
    let out := copyAt out 65 (toLe 8 trade.price.toUInt64.toNat)
    let out := copyAt out 73 (toLe 8 trade.size.toNat)
    let out := copyAt out 81 (toLe 8 (quoteQty trade).toNat)
    -- fee, liquidation flag and venue type
    let out := copyAt out 89 (toLe 2 0)
    let out := out.set 91 (if trade.isLiquidation then 1 else 0)
    let out := out.set 92 1
    -- length of the variable data
    let out := copyAt out 93 (toLe 2 0)
    (.ok totalSbeTradeLen, out)

/-- The fields of a trade behind its header. Quote quantity, fee, venue type and variable data
are not read. -/
def readTrade (buf : List UInt8) : UnifiedTrade where
  telemetry := readTelemetry buf
  venue := UInt16.ofNat (readLe buf 40 2)
  chain := UInt16.ofNat (readLe buf 42 2)
  marketId := UInt32.ofNat (readLe buf 44 4)
  sequence := UInt64.ofNat (readLe buf 48 8)
  tradeId := UInt64.ofNat (readLe buf 56 8)
  side := buf.getD 64 0
  price := (UInt64.ofNat (readLe buf 65 8)).toInt64
  size := UInt64.ofNat (readLe buf 73 8)
  isLiquidation := buf.getD 91 0 != 0

def decodeTradeSbe : List UInt8 → Except SbeError UnifiedTrade :=
  decodeMessage totalSbeTradeLen templateIdTrade readTrade

end Sbe
end ChainMarketPrice.Distribution
