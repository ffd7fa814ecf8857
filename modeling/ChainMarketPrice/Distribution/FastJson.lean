import ChainMarketPrice.IngestModels
import ChainMarketPrice.Lib.Bytes

/-!
# JSON serialization into fixed buffers

`crates/distribution/src/fast_json.rs`. `FastJsonWriter` writes at a cursor of a buffer of
fixed length and fails when the buffer is full; a failed write leaves buffer and cursor as
they were.
-/

namespace ChainMarketPrice.Distribution
namespace FastJson

open Bytes

/-- `JsonError`. -/
inductive JsonError
  | bufferTooSmall (required provided : ℕ)
deriving Repr, DecidableEq

/-- `DEC_DIGITS_LUT`: the two digits of each number below one hundred. -/
def decDigitsLut : List UInt8 :=
  ofString ("00010203040506070809" ++ "10111213141516171819" ++ "20212223242526272829" ++
    "30313233343536373839" ++ "40414243444546474849" ++ "50515253545556575859" ++
    "60616263646566676869" ++ "70717273747576777879" ++ "80818283848586878889" ++
    "90919293949596979899")

/-- `FastJsonWriter`. -/
structure FastJsonWriter where
  buf : List UInt8
  pos : ℕ
deriving Repr, DecidableEq

/-- A writing function: it may fail, and keeps the writer either way. -/
abbrev JsonM := EStateM JsonError FastJsonWriter

namespace FastJsonWriter

def new (buf : List UInt8) : FastJsonWriter := { buf := buf, pos := 0 }

def writeByte (b : UInt8) : JsonM Unit := fun w =>
  if w.pos ≥ w.buf.length then .error (.bufferTooSmall (w.pos + 1) w.buf.length) w
  else .ok () { buf := w.buf.set w.pos b, pos := w.pos + 1 }

def writeBytes (bytes : List UInt8) : JsonM Unit := fun w =>
  let needed := w.pos + bytes.length
  if needed > w.buf.length then .error (.bufferTooSmall needed w.buf.length) w
  else .ok () { buf := copyAt w.buf w.pos bytes, pos := needed }

def writeStr (s : String) : JsonM Unit := writeBytes (ofString s)

/-- Stores the two digits of `rem < 100` at `idx`. -/
def putPair (temp : List UInt8) (idx rem : ℕ) : List UInt8 :=
  (temp.set idx (decDigitsLut.getD (rem * 2) 0)).set (idx + 1) (decDigitsLut.getD (rem * 2 + 1) 0)

/-- The `while val >= 100` loop of `write_u64`: a 64-bit value takes at most nine turns. -/
def pairLoop : ℕ → ℕ → List UInt8 → ℕ → ℕ × List UInt8 × ℕ
  | 0, val, temp, idx => (val, temp, idx)
  | fuel + 1, val, temp, idx =>
    if val ≥ 100 then
      let rem := val % 100
      let idx := idx - 2
      pairLoop fuel (val / 100) (putPair temp idx rem) idx
    else (val, temp, idx)

/-- The digits `write_u64` collects for a nonzero value, in its 20-byte scratch buffer. -/
def u64Digits (val : UInt64) : List UInt8 :=
  let (val, temp, idx) := pairLoop 10 val.toNat (List.replicate 20 0) 20
  if val < 10 then
    let idx := idx - 1
    (temp.set idx (48 + UInt8.ofNat val)).drop idx
  else
    let idx := idx - 2
    (putPair temp idx val).drop idx

def writeU64 (val : UInt64) : JsonM Unit :=
  if val = 0 then writeByte 48
  else writeBytes (u64Digits val)

/-- `i64::unsigned_abs`. -/
def unsignedAbs (val : Int64) : UInt64 := UInt64.ofNat val.toInt.natAbs

def writeI64 (val : Int64) : JsonM Unit :=
  if val < 0 then do
    writeByte 45
    writeU64 (unsignedAbs val)
  else writeU64 val.toUInt64

/-- The `while frac > 0 && idx >= 2` loop of `write_fixed_point_8`: `idx` falls from 8 by
two, so it takes at most four turns. -/
def fracLoop : ℕ → ℕ → List UInt8 → ℕ → ℕ × List UInt8 × ℕ
  | 0, frac, fracBuf, idx => (frac, fracBuf, idx)
  | fuel + 1, frac, fracBuf, idx =>
    if frac > 0 ∧ idx ≥ 2 then
      let rem := frac % 100
      let idx := idx - 2
      fracLoop fuel (frac / 100) (putPair fracBuf idx rem) idx
    else (frac, fracBuf, idx)

/-- The eight fraction digits. -/
def fracDigits (fracPart : ℕ) : List UInt8 :=
  let (frac, fracBuf, idx) := fracLoop 4 fracPart (List.replicate 8 48) 8
  if frac > 0 ∧ idx = 1 then fracBuf.set (idx - 1) (48 + UInt8.ofNat frac) else fracBuf

def writeFixedPoint8 (val : Int64) : JsonM Unit := do
  if val < 0 then writeByte 45
  let unsignedVal := unsignedAbs val
  let integerPart := unsignedVal / 100000000
  let fracPart := unsignedVal % 100000000
  writeU64 integerPart
  writeByte 46
  writeBytes (fracDigits fracPart.toNat)

end FastJsonWriter

open FastJsonWriter

/-- The writes of `serialize_bbo_json`. -/
def bboJson (bbo : NormalizedBbo) : JsonM Unit := do
  writeStr "\x7b\"type\":\"bbo\",\"market_id\":"
  writeU64 bbo.marketId.toUInt64
  writeStr ",\"venue\":"
  writeU64 bbo.venue.toUInt64
  writeStr ",\"chain\":"
  writeU64 bbo.chain.toUInt64
  writeStr ",\"sequence\":"
  writeU64 bbo.sequence
  writeStr ",\"bid_px\":\""
  writeFixedPoint8 bbo.bidPrice
  writeStr "\",\"bid_qty\":\""
  writeFixedPoint8 bbo.bidQty.toInt64
  writeStr "\",\"ask_px\":\""
  writeFixedPoint8 bbo.askPrice
  writeStr "\",\"ask_qty\":\""
  writeFixedPoint8 bbo.askQty.toInt64
  writeStr "\",\"spread_bps\":"
  writeU64 bbo.spreadBps.toUInt64
  writeStr ",\"flags\":"
  writeU64 bbo.flags.toUInt64
  writeStr ",\"telemetry\":\x7b\"t0\":"
  writeU64 bbo.telemetry.t0ExchangeNs
  writeStr ",\"t1\":"
  writeU64 bbo.telemetry.t1IngestNicNs
  writeStr ",\"t2\":"
  writeU64 bbo.telemetry.t2EngineProcNs
  writeStr ",\"t3\":"
  writeU64 bbo.telemetry.t3EgressNs
  writeStr "\x7d\x7d"

/-- `serialize_bbo_json`: the result and the buffer after. -/
def serializeBboJson (bbo : NormalizedBbo) (out : List UInt8) : Except JsonError ℕ × List UInt8 :=
  match bboJson bbo (FastJsonWriter.new out) with
  | .ok _ w => (.ok w.pos, w.buf)
  | .error e w => (.error e, w.buf)

/-- The writes of `serialize_trade_json`. -/
def tradeJson (trade : UnifiedTrade) : JsonM Unit := do
  writeStr "\x7b\"type\":\"trade\",\"market_id\":"
  writeU64 trade.marketId.toUInt64
  writeStr ",\"venue\":"
  writeU64 trade.venue.toUInt64
  writeStr ",\"chain\":"
  writeU64 trade.chain.toUInt64
  writeStr ",\"sequence\":"
  writeU64 trade.sequence
  writeStr ",\"trade_id\":"
  writeU64 trade.tradeId
  writeStr ",\"price\":\""
  writeFixedPoint8 trade.price
  writeStr "\",\"size\":\""
  writeFixedPoint8 trade.size.toInt64
  writeStr "\",\"side\":"
  writeU64 trade.side.toUInt64
  writeStr ",\"is_liquidation\":"
  writeStr (if trade.isLiquidation then "true" else "false")
  writeStr ",\"telemetry\":\x7b\"t0\":"
  writeU64 trade.telemetry.t0ExchangeNs
  writeStr ",\"t1\":"
  writeU64 trade.telemetry.t1IngestNicNs
  writeStr ",\"t2\":"
  writeU64 trade.telemetry.t2EngineProcNs
  writeStr ",\"t3\":"
  writeU64 trade.telemetry.t3EgressNs
  writeStr "\x7d\x7d"

/-- `serialize_trade_json`: the result and the buffer after. -/
def serializeTradeJson (trade : UnifiedTrade) (out : List UInt8) :
    Except JsonError ℕ × List UInt8 :=
  match tradeJson trade (FastJsonWriter.new out) with
  | .ok _ w => (.ok w.pos, w.buf)
  | .error e w => (.error e, w.buf)

end FastJson
end ChainMarketPrice.Distribution
