import ChainMarketPrice.Lib.Checked
import ChainMarketPrice.CefiIngest.Coinbase

/-!
# The Coinbase parsers with checks

The parsers of `crates/cefi-ingest/src/lib.rs` as the debug profile runs them: each slice access
and each arithmetic operation is checked, in the order of the source, and the first that fails
stops the parser. Accesses behind a test of the same index are not repeated here, and positions
are not checked for overflow, since a slice has fewer than `2 ^ 63` bytes.
-/

namespace ChainMarketPrice.CefiIngest

open Checked FixedWidth
open CoreEngine (checkedParseFixedPoint8)
open Text (isDigit quote)

/-! ## Fields -/

/-- The comparison at offset `s`: the first byte, the last byte, and then the whole. -/
def checkedTest (haystack needle : List UInt8) (first last : UInt8) (s : ℕ) : Option Bool := do
  let n := needle.length
  let b ← haystack[s]?
  if b = first then
    let e ← haystack[s + n - 1]?
    if e = last then
      let window ← Checked.slice haystack s (s + n)
      pure (decide (window = needle))
    else pure false
  else pure false

/-- The loop of `find_subsequence` from offset `s` on, with `left` offsets to try. -/
def checkedFindLoop (haystack needle : List UInt8) (first last : UInt8) :
    ℕ → ℕ → Option (Option ℕ)
  | 0, _ => some none
  | left + 1, s => do
    let found ← checkedTest haystack needle first last s
    if found then some (some s) else checkedFindLoop haystack needle first last left (s + 1)

def checkedFindSubsequence (haystack needle : List UInt8) : OptionT Option ℕ :=
  let n := needle.length
  if n = 0 ∨ haystack.length < n then failure
  else do
    let first ← (needle[0]? : Option UInt8)
    let last ← (needle[n - 1]? : Option UInt8)
    OptionT.mk (checkedFindLoop haystack needle first last (haystack.length - n + 1) 0)

/-- `&src[pos + key.len()..]`. -/
def checkedAfterKey (src key : List UInt8) : OptionT Option (List UInt8) := do
  let pos ← checkedFindSubsequence src key
  Checked.slice src (pos + key.length) src.length

def checkedExtractJsonStrField (src key : List UInt8) : ExceptT String Option (List UInt8) :=
  ExceptT.mk do
    match ← (checkedAfterKey src key).run with
    | some rest =>
      let i := (rest.takeWhile isBlank).length
      if rest[i]? = some quote then
        let start := i + 1
        let stop := start + ((rest.drop start).takeWhile (· != quote)).length
        if stop < rest.length then
          let value ← Checked.slice rest start stop
          pure (.ok value)
        else pure (.error "Field not found")
      else pure (.error "Field not found")
    | none => pure (.error "Field not found")

/-- `num * 10 + (b - b'0') as u64` for a digit `b`. -/
def checkedDigit (num : UInt64) (b : UInt8) : Option UInt64 := do
  let tens ← u64 (num.toNat * 10)
  u64 (tens.toNat + (b - '0'.toUInt8).toNat)

def checkedExtractJsonIntField (src key : List UInt8) : OptionT Option UInt64 := do
  let rest ← checkedAfterKey src key
  let digits := (rest.dropWhile fun b => isBlank b || b == quote).takeWhile isDigit
  if digits.isEmpty then failure else (digits.foldlM checkedDigit 0 : Option UInt64)

/-! ## Timestamps -/

/-- The loop of `num`. -/
def checkedNum : List UInt8 → UInt64 → OptionT Option UInt64
  | [], v => pure v
  | c :: rest, v =>
    if isDigit c then do
      let v ← checkedDigit v c
      checkedNum rest v
    else failure

/-- The loop over the fraction. Digits after the ninth are checked and dropped. -/
def checkedFractionLoop : List UInt8 → UInt64 → ℕ → OptionT Option (UInt64 × ℕ × List UInt8)
  | [], fracNs, digits => pure (fracNs, digits, [])
  | b :: rest, fracNs, digits =>
    if b = 'Z'.toUInt8 then pure (fracNs, digits, b :: rest)
    else if isDigit b then
      if digits < 9 then do
        let fracNs ← checkedDigit fracNs b
        checkedFractionLoop rest fracNs (digits + 1)
      else checkedFractionLoop rest fracNs digits
    else failure

/-- `n` times `frac_ns *= 10`. -/
def checkedPad : ℕ → UInt64 → Option UInt64
  | 0, fracNs => some fracNs
  | n + 1, fracNs => do
    let fracNs ← u64 (fracNs.toNat * 10)
    checkedPad n fracNs

/-- The fraction in nanoseconds, and the bytes after it. -/
def checkedFraction (s : List UInt8) : OptionT Option (UInt64 × List UInt8) := do
  let b ← (s[19]? : Option UInt8)
  if b = '.'.toUInt8 then
    let (fracNs, digits, rest) ← checkedFractionLoop (s.drop 20) 0 0
    let fracNs ← checkedPad (9 - digits) fracNs
    pure (fracNs, rest)
  else pure (0, s.drop 19)

/-- An exact `i64`, unless it overflows. -/
def i64 (x : ℤ) : Option ℤ := if -2 ^ 63 ≤ x ∧ x < 2 ^ 63 then some x else none

/-- Days since 1970-01-01. Divisions by a positive constant do not overflow. -/
def checkedDaysFromCivil (y m d : ℤ) : Option ℤ := do
  let y ← (if m ≤ 2 then i64 (y - 1) else some y : Option ℤ)
  let base ← (if y ≥ 0 then some y else i64 (y - 399) : Option ℤ)
  let era := base.tdiv 400
  let eraYears ← i64 (era * 400)
  let yoe ← i64 (y - eraYears)
  let fromMarch ← i64 (m + 9)
  let mp := fromMarch.tmod 12
  let scaled ← i64 (153 * mp)
  let rounded ← i64 (scaled + 2)
  let day ← i64 (rounded.tdiv 5 + d)
  let doy ← i64 (day - 1)
  let years ← i64 (yoe * 365)
  let leaps ← i64 (years + yoe.tdiv 4)
  let common ← i64 (leaps - yoe.tdiv 100)
  let doe ← i64 (common + doy)
  let eraDays ← i64 (era * 146097)
  let days ← i64 (eraDays + doe)
  i64 (days - 719468)

/-- The bytes of the shape are compared one after the other, up to the first that differs. -/
def checkedShape (s : List UInt8) : List (ℕ × UInt8) → Option Bool
  | [] => some true
  | (i, b) :: shape => do
    let c ← s[i]?
    if c = b then checkedShape s shape else some false

/-- The separators of `YYYY-MM-DDTHH:MM:SS`. -/
def isoShape : List (ℕ × UInt8) :=
  [(4, '-'.toUInt8), (7, '-'.toUInt8), (10, 'T'.toUInt8), (13, ':'.toUInt8), (16, ':'.toUInt8)]

/-- The number in `s[start..stop]`. -/
def checkedField (s : List UInt8) (start stop : ℕ) : OptionT Option UInt64 := do
  let b ← Checked.slice s start stop
  checkedNum b 0

/-- `secs * 1_000_000_000 + frac_ns`, with the seconds of the days and of the time of day. -/
def checkedNanos (days : ℤ) (hh mm ss fracNs : UInt64) : Option UInt64 := do
  let ofDays ← u64 ((UInt64.ofInt days).toNat * 86400)
  let ofHours ← u64 (hh.toNat * 3600)
  let secs ← u64 (ofDays.toNat + ofHours.toNat)
  let ofMinutes ← u64 (mm.toNat * 60)
  let secs ← u64 (secs.toNat + ofMinutes.toNat)
  let secs ← u64 (secs.toNat + ss.toNat)
  let nanos ← u64 (secs.toNat * 1000000000)
  u64 (nanos.toNat + fracNs.toNat)

def checkedParseIso8601UtcNs (s : List UInt8) : OptionT Option UInt64 :=
  if s.length < 20 then failure
  else do
    let shaped ← checkedShape s isoShape
    if !shaped then failure
    else
      let y ← checkedField s 0 4
      let m ← checkedField s 5 7
      let d ← checkedField s 8 10
      let hh ← checkedField s 11 13
      let mm ← checkedField s 14 16
      let ss ← checkedField s 17 19
      if m < 1 ∨ 12 < m ∨ d < 1 ∨ 31 < d ∨ hh > 23 ∨ mm > 59 ∨ ss > 60 then failure
      else
        let frac ← checkedFraction s
        if frac.2.head? ≠ some 'Z'.toUInt8 then failure
        else
          let days ← checkedDaysFromCivil y.toNat m.toNat d.toNat
          if days < 0 then failure else (checkedNanos days hh mm ss frac.1 : Option UInt64)

/-! ## Messages -/

namespace CefiParser

def checkedExchangeTimeNs (payload : List UInt8) : Option UInt64 := do
  match ← (checkedExtractJsonStrField payload (keyOf "time")).run with
  | .ok text =>
    let time ← (checkedParseIso8601UtcNs text).run
    pure (time.getD 0)
  | .error _ => pure 0

/-- The cast to 16 bits keeps the low bits and is not checked. -/
def checkedSpreadBps (bp ap : Int64) : Option UInt16 :=
  if ap > bp ∧ bp > 0 then do
    let diff ← checked64 (ap.toInt - bp.toInt)
    let scaled ← checked64 (diff.toInt * 10000)
    pure (scaled / bp).toUInt64.toUInt16
  else pure 0

/-- `.ok_or(message)`. -/
def okOr {α : Type} (c : OptionT Option α) (message : String) : ExceptT String Option α :=
  ExceptT.mk do
    match ← c.run with
    | some a => pure (.ok a)
    | none => pure (.error message)

def checkedParseCoinbaseTickerBbo (marketId : UInt32) (payload : List UInt8)
    (t1IngestNs : UInt64) : ExceptT String Option NormalizedBbo := do
  let bidPrice ← checkedExtractJsonStrField payload (keyOf "best_bid")
  let bidQty ← checkedExtractJsonStrField payload (keyOf "best_bid_size")
  let askPrice ← checkedExtractJsonStrField payload (keyOf "best_ask")
  let askQty ← checkedExtractJsonStrField payload (keyOf "best_ask_size")
  let seq ← okOr (checkedExtractJsonIntField payload (keyOf "sequence")) "sequence missing"
  let t0 ← checkedExchangeTimeNs payload
  let bp ← checkedParseFixedPoint8 bidPrice
  let bq ← checkedParseFixedPoint8 bidQty
  let ap ← checkedParseFixedPoint8 askPrice
  let aq ← checkedParseFixedPoint8 askQty
  let spreadBps ← checkedSpreadBps bp ap
  return {
    telemetry :=
      { t0ExchangeNs := t0, t1IngestNicNs := t1IngestNs, t2EngineProcNs := 0, t3EgressNs := 0 }
    marketId := marketId
    venue := venueCoinbase
    chain := chainOffChain
    sequence := seq
    bidPrice := bp
    bidQty := bq.toUInt64
    askPrice := ap
    askQty := aq.toUInt64
    spreadBps := spreadBps
    flags := 0 }

def checkedParseCoinbaseTickerTrade (marketId : UInt32) (payload : List UInt8)
    (t1IngestNs : UInt64) : ExceptT String Option UnifiedTrade := do
  let price ← checkedExtractJsonStrField payload (keyOf "price")
  let size ← checkedExtractJsonStrField payload (keyOf "last_size")
  let side ← checkedExtractJsonStrField payload (keyOf "side")
  let tradeId ← okOr (checkedExtractJsonIntField payload (keyOf "trade_id")) "trade_id missing"
  let seq ← (checkedExtractJsonIntField payload (keyOf "sequence")).run
  let t0 ← checkedExchangeTimeNs payload
  let tradePrice ← checkedParseFixedPoint8 price
  let tradeSize ← checkedParseFixedPoint8 size
  return {
    telemetry :=
      { t0ExchangeNs := t0, t1IngestNicNs := t1IngestNs, t2EngineProcNs := 0, t3EgressNs := 0 }
    marketId := marketId
    venue := venueCoinbase
    chain := chainOffChain
    sequence := seq.getD 0
    tradeId := tradeId
    price := tradePrice
    size := tradeSize.toUInt64
    side := if side = Bytes.ofString "sell" then 2 else 1
    isLiquidation := false }

def checkedCoinbaseMessageType (payload : List UInt8) : Option (Option (List UInt8)) := do
  let field ← (checkedExtractJsonStrField payload (keyOf "type")).run
  pure field.toOption

/-- `last_trade_id` is read only where there is no `trade_id`. -/
def checkedCoinbaseTradeId (payload : List UInt8) : Option (Option UInt64) := do
  match ← (checkedExtractJsonIntField payload (keyOf "trade_id")).run with
  | some tradeId => pure (some tradeId)
  | none => (checkedExtractJsonIntField payload (keyOf "last_trade_id")).run

def checkedCoinbaseSequence (payload : List UInt8) : Option (Option UInt64) :=
  (checkedExtractJsonIntField payload (keyOf "sequence")).run

def checkedCoinbaseProductId (payload : List UInt8) : Option (Option (List UInt8)) := do
  let field ← (checkedExtractJsonStrField payload (keyOf "product_id")).run
  pure field.toOption

end CefiParser
end ChainMarketPrice.CefiIngest
