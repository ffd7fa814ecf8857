import ChainMarketPrice.CefiIngest.Coinbase
import ChainMarketPrice.CefiIngest.JsonTheorems
import ChainMarketPrice.CoreEngine.FixedPointTheorems

/-!
# OKX messages

The OKX part of `CefiParser` in `crates/cefi-ingest/src/lib.rs`. The milliseconds of the message
go through the fixed-point parser, which multiplies them by `10 ^ 8` in 64 bits, and are divided
back: they come out as they went in only while the product fits (`parseOkxBbo_time_iff`).
-/

namespace ChainMarketPrice.CefiIngest

open CoreEngine (parseFixedPoint8 foldl_step_digits iterate_countPlace_before scaleToEight_of_neg)
open Text (AllDigits decimalValue)
open FixedWidth

/-- `VenueId::Okx`. -/
def venueOkx : UInt16 := 4

namespace CefiParser

/-- The `ts` field in milliseconds, `0` when it is missing. -/
def okxEventTime (payload : List UInt8) : UInt64 :=
  let tsMs :=
    match extractJsonStrField payload (keyOf "ts") with
    | .ok text => text
    | .error _ => Bytes.ofString "0"
  (parseFixedPoint8 tsMs).toUInt64 / 100000000

def parseOkxBbo (marketId : UInt32) (payload : List UInt8) (t1IngestNs : UInt64) :
    Except String NormalizedBbo := do
  let bidPrice ← extractJsonStrField payload (keyOf "bidPx")
  let bidQty ← extractJsonStrField payload (keyOf "bidSz")
  let askPrice ← extractJsonStrField payload (keyOf "askPx")
  let askQty ← extractJsonStrField payload (keyOf "askSz")
  let eventTime := okxEventTime payload
  let bp := parseFixedPoint8 bidPrice
  let ap := parseFixedPoint8 askPrice
  return {
    telemetry :=
      { t0ExchangeNs := eventTime * 1000000, t1IngestNicNs := t1IngestNs,
        t2EngineProcNs := 0, t3EgressNs := 0 }
    marketId := marketId
    venue := venueOkx
    chain := chainOffChain
    sequence := eventTime
    bidPrice := bp
    bidQty := (parseFixedPoint8 bidQty).toUInt64
    askPrice := ap
    askQty := (parseFixedPoint8 askQty).toUInt64
    spreadBps := spreadBps bp ap
    flags := 0 }

/-! ## The event time -/

variable {payload digits : List UInt8} {marketId : UInt32} {t1IngestNs : UInt64}
  {bbo : NormalizedBbo}

/-- Both numbers of an accepted message come from its event time. -/
lemma parseOkxBbo_eventTime (h : parseOkxBbo marketId payload t1IngestNs = .ok bbo) :
    bbo.sequence = okxEventTime payload ∧
      bbo.telemetry.t0ExchangeNs = okxEventTime payload * 1000000 := by
  unfold parseOkxBbo at h
  obtain ⟨bidPrice, -, h⟩ := exists_of_bind_eq_ok h
  obtain ⟨bidQty, -, h⟩ := exists_of_bind_eq_ok h
  obtain ⟨askPrice, -, h⟩ := exists_of_bind_eq_ok h
  obtain ⟨askQty, -, h⟩ := exists_of_bind_eq_ok h
  cases h
  exact ⟨rfl, rfl⟩

/-- Digits alone are scaled by `10 ^ 8`, modulo `2 ^ 64`. -/
lemma parseFixedPoint8_digits (h : AllDigits digits) :
    parseFixedPoint8 digits = Int64.ofInt (decimalValue digits * 10 ^ 8 : ℕ) := by
  have hsign : (digits.head? == some '-'.toUInt8) = false := by
    cases digits with
    | nil => rfl
    | cons b rest =>
      rw [List.head?_cons, beq_eq_false_iff_ne, Ne, Option.some_inj]
      rintro rfl
      exact absurd (h _ List.mem_cons_self) (by decide)
  have hstart : ({} : CoreEngine.FixedPointScan) = ⟨Int64.ofInt 0, -1⟩ := rfl
  unfold parseFixedPoint8
  dsimp only
  rw [hsign, if_neg (by decide), if_neg (by decide), hstart, foldl_step_digits h,
    iterate_countPlace_before, zero_mul, zero_add]
  exact scaleToEight_of_neg (show (-1 : Int32) < 0 by decide) _

lemma toNat_ofInt (n : ℕ) : (Int64.ofInt n).toUInt64.toNat = n % 2 ^ 64 := by
  rw [Int64.ofInt_eq_ofNat]
  rfl

lemma toNat_okxEventTime (hts : HasString payload (keyOf "ts") digits) (hdigits : AllDigits digits) :
    (okxEventTime payload).toNat = decimalValue digits * 10 ^ 8 % 2 ^ 64 / 10 ^ 8 := by
  have hfield := (extractJsonStrField_eq_ok_iff (show keyOf "ts" ≠ [] by decide)).mpr hts
  unfold okxEventTime
  rw [hfield]
  dsimp only
  rw [parseFixedPoint8_digits hdigits, UInt64.toNat_div, toNat_ofInt]
  rfl

/-- Of all millisecond times that fit as nanoseconds, those below `2 ^ 64 / 10 ^ 8` are read as
they are. -/
theorem parseOkxBbo_time_iff (h : parseOkxBbo marketId payload t1IngestNs = .ok bbo)
    (hts : HasString payload (keyOf "ts") digits) (hdigits : AllDigits digits)
    (hns : decimalValue digits * 10 ^ 6 < 2 ^ 64) :
    (bbo.sequence.toNat = decimalValue digits ∧
      bbo.telemetry.t0ExchangeNs.toNat = decimalValue digits * 10 ^ 6) ↔
      decimalValue digits * 10 ^ 8 < 2 ^ 64 := by
  obtain ⟨hseq, ht0⟩ := parseOkxBbo_eventTime h
  have htime := toNat_okxEventTime hts hdigits
  generalize decimalValue digits = t at *
  rw [hseq, ht0, UInt64.toNat_mul, htime]
  constructor
  · rintro ⟨hsame, -⟩
    have hle := Nat.div_mul_le_self (t * 10 ^ 8 % 2 ^ 64) (10 ^ 8)
    rw [hsame] at hle
    exact lt_of_le_of_lt hle (Nat.mod_lt _ (by decide))
  · intro hfit
    rw [Nat.mod_eq_of_lt hfit, Nat.mul_div_cancel _ (by decide)]
    exact ⟨rfl, Nat.mod_eq_of_lt hns⟩

/-- A `tickers` message of the exchange, cut to the fields that are read. -/
def okxTicker (ts : String) : List UInt8 :=
  Bytes.ofString ("\x7b\"askPx\":\"42000.5\",\"askSz\":\"1.2\",\"bidPx\":\"42000.1\",\"bidSz\":\"0.8\","
    ++ "\"ts\":\"" ++ ts ++ "\"\x7d")

/-- The seconds of the epoch would fit. -/
theorem parseOkxBbo_time_iff_seconds :
    ∃ bbo, parseOkxBbo 1 (okxTicker "1672531199") 0 = .ok bbo ∧
      bbo.sequence.toNat = 1672531199 ∧ bbo.telemetry.t0ExchangeNs.toNat = 1672531199 * 10 ^ 6 := by
  have hparse : ∃ bbo, parseOkxBbo 1 (okxTicker "1672531199") 0 = .ok bbo := ⟨_, rfl⟩
  obtain ⟨bbo, hbbo⟩ := hparse
  have hts : HasString (okxTicker "1672531199") (keyOf "ts") (Bytes.ofString "1672531199") :=
    (extractJsonStrField_eq_ok_iff (by decide)).mp (by decide +kernel)
  have hdigits : AllDigits (Bytes.ofString "1672531199") :=
    List.all_eq_true.mp (by decide)
  have hvalue : decimalValue (Bytes.ofString "1672531199") = 1672531199 := by decide +kernel
  have htime := (parseOkxBbo_time_iff hbbo hts hdigits (by rw [hvalue]; decide)).mpr
    (by rw [hvalue]; decide)
  rw [hvalue] at htime
  exact ⟨bbo, hbbo, htime⟩

/-- A quote of the last second of 2022 arrives with a time of May 1970. -/
theorem okx_milliseconds_wrap :
    ¬ ∀ (marketId : UInt32) (payload : List UInt8) (t1IngestNs : UInt64) (bbo : NormalizedBbo)
      (digits : List UInt8), parseOkxBbo marketId payload t1IngestNs = .ok bbo →
      HasString payload (keyOf "ts") digits → AllDigits digits →
      decimalValue digits * 10 ^ 6 < 2 ^ 64 →
      bbo.sequence.toNat = decimalValue digits ∧
        bbo.telemetry.t0ExchangeNs.toNat = decimalValue digits * 10 ^ 6 := by
  intro hclaim
  have hparse : ∃ bbo, parseOkxBbo 1 (okxTicker "1672531199000") 0 = .ok bbo := ⟨_, rfl⟩
  obtain ⟨bbo, hbbo⟩ := hparse
  have hts : HasString (okxTicker "1672531199000") (keyOf "ts") (Bytes.ofString "1672531199000") :=
    (extractJsonStrField_eq_ok_iff (by decide)).mp (by decide +kernel)
  have hdigits : AllDigits (Bytes.ofString "1672531199000") :=
    List.all_eq_true.mp (by decide)
  have hvalue : decimalValue (Bytes.ofString "1672531199000") = 1672531199000 := by decide +kernel
  have hseq := (hclaim 1 _ 0 bbo _ hbbo hts hdigits (by rw [hvalue]; decide)).1
  rw [(parseOkxBbo_eventTime hbbo).1, toNat_okxEventTime hts hdigits, hvalue] at hseq
  exact absurd hseq (by decide)

end CefiParser
end ChainMarketPrice.CefiIngest
