import Mathlib.Algebra.Order.Ring.Int
import ChainMarketPrice.CoreEngine.Simulator

/-!
# What a consumer of the simulated feed sees

The feed as its consumers follow it (`Feed`): a price for each market, which moves by at most one
jump and never below a floor, and for each venue a number for its events without gaps. A
turn of the loop for which no word overflows writes an event of such a feed
(`exists_walkAndEmit`).
-/

namespace ChainMarketPrice.CoreEngine

open FixedWidth

/-! ## Draws -/

namespace FastPrng

/-- A draw from a range of less than all numbers. -/
lemma exists_genRange (g : FastPrng) (lo hi : UInt64) (h : hi.toNat < 2 ^ 64 - 1) :
    ∃ v g', g.genRange lo hi = some (v, g') ∧ lo.toNat ≤ v.toNat ∧
      v.toNat ≤ max lo.toNat hi.toNat := by
  by_cases hge : lo ≥ hi
  · exact ⟨lo, g, if_pos hge, le_rfl, le_max_left _ _⟩
  · have hlt : lo.toNat < hi.toNat := Nat.not_le.mp hge
    have hwidth : (hi - lo + 1).toNat = hi.toNat - lo.toNat + 1 := by
      have hdiff : (hi - lo).toNat = hi.toNat - lo.toNat :=
        UInt64.toNat_sub_of_le _ _ (show lo.toNat ≤ hi.toNat from hlt.le)
      rw [UInt64.toNat_add, hdiff, UInt64.toNat_one]
      omega
    have hnonzero : hi - lo + 1 ≠ 0 := by
      intro hzero
      rw [hzero, UInt64.toNat_zero] at hwidth
      omega
    have hmod := Nat.mod_lt g.nextU64.1.toNat (show 0 < hi.toNat - lo.toNat + 1 by omega)
    have hvalue : (lo + g.nextU64.1 % (hi - lo + 1)).toNat
        = lo.toNat + g.nextU64.1.toNat % (hi.toNat - lo.toNat + 1) := by
      rw [UInt64.toNat_add, UInt64.toNat_mod, hwidth]
      omega
    refine ⟨lo + g.nextU64.1 % (hi - lo + 1), g.nextU64.2, ?_, ?_, ?_⟩
    · unfold genRange
      rw [if_neg hge, if_neg hnonzero]
    · rw [hvalue]
      exact Nat.le_add_right _ _
    · rw [hvalue]
      omega

/-- A price delta is at most one jump. -/
lemma genPriceDelta_bounds (g : FastPrng) (jump : Int64)
    (hjump : 0 ≤ jump.toInt ∧ jump.toInt < 2 ^ 61) :
    -jump.toInt ≤ (g.genPriceDelta jump).1.toInt ∧
      (g.genPriceDelta jump).1.toInt ≤ jump.toInt := by
  have htwo : (2 : Int64).toInt = 2 := rfl
  have hone : (1 : Int64).toInt = 1 := rfl
  have hdouble : (jump * 2).toInt = jump.toInt * 2 := by
    rw [toInt_mul_of_fits (by rw [htwo]; omega), htwo]
  have hwidth : (jump * 2 + 1).toInt = jump.toInt * 2 + 1 := by
    rw [toInt_add_of_fits (by rw [hdouble, hone]; omega), hdouble, hone]
  have hword : ((jump * 2 + 1).toUInt64.toNat : ℤ) = jump.toInt * 2 + 1 := by
    have hint := toInt_toInt64 (jump * 2 + 1).toUInt64
    rw [Int64.toInt64_toUInt64, hwidth] at hint
    have hlt := (jump * 2 + 1).toUInt64.toNat_lt
    split at hint <;> omega
  have hmod : (g.nextU64.1 % (jump * 2 + 1).toUInt64).toNat < (jump * 2 + 1).toUInt64.toNat := by
    rw [UInt64.toNat_mod]
    exact Nat.mod_lt _ (by omega)
  have hraw : (g.nextU64.1 % (jump * 2 + 1).toUInt64).toInt64.toInt
      = (g.nextU64.1 % (jump * 2 + 1).toUInt64).toNat := by
    rw [toInt_toInt64, if_pos (by omega)]
  show -jump.toInt ≤ ((g.nextU64.1 % (jump * 2 + 1).toUInt64).toInt64 - jump).toInt ∧
    ((g.nextU64.1 % (jump * 2 + 1).toUInt64).toInt64 - jump).toInt ≤ jump.toInt
  rw [toInt_sub_of_fits (by rw [hraw]; omega), hraw]
  omega

end FastPrng

/-! ## Quotes -/

lemma toInt_max (a b : Int64) : (max a b).toInt = max a.toInt b.toInt := by
  show (if a ≤ b then b else a).toInt = max a.toInt b.toInt
  by_cases hle : a ≤ b
  · rw [if_pos hle, max_eq_right (Int64.le_iff_toInt_le.mp hle)]
  · have hlt : b.toInt ≤ a.toInt := by
      rw [Int64.le_iff_toInt_le] at hle
      omega
    rw [if_neg hle, max_eq_left hlt]

/-- A price for which the product in `quoted` does not overflow with the widest spread. -/
def maxPrice : ℤ := 600000000000000000

/-- Half of the spread around a price, in exact integers. -/
def halfSpread (p : ℤ) (bps : ℕ) : ℤ := p * bps / 20000

lemma halfSpread_bounds {p : ℤ} {bps : ℕ} (hp : 0 < p) (hbps : bps ≤ 15) :
    0 ≤ halfSpread p bps ∧ halfSpread p bps < p ∧ 2 * halfSpread p bps * 10000 ≤ p * bps := by
  have hnonneg : 0 ≤ p * bps := mul_nonneg hp.le (Int.natCast_nonneg _)
  have hle : p * bps ≤ p * 15 := mul_le_mul_of_nonneg_left (by omega) hp.le
  unfold halfSpread
  omega

/-- The bid and the ask of a price. -/
lemma quoted_eq {p : Int64} {bps : UInt16} (hp : 0 < p.toInt ∧ p.toInt ≤ maxPrice)
    (hbps : bps.toNat ≤ 15) :
    (quoted p bps).1.toInt = p.toInt - halfSpread p.toInt bps.toNat ∧
      (quoted p bps).2.toInt = p.toInt + halfSpread p.toInt bps.toNat := by
  obtain ⟨hpos, hmax⟩ := hp
  have hspread : (ofU16 bps).toInt = bps.toNat := by
    have hlt : bps.toUInt64.toNat = bps.toNat := rfl
    rw [ofU16, toInt_toInt64, hlt, if_pos (by omega)]
  have hnonneg : 0 ≤ p.toInt * bps.toNat := mul_nonneg hpos.le (Int.natCast_nonneg _)
  have hle : p.toInt * bps.toNat ≤ p.toInt * 15 := mul_le_mul_of_nonneg_left (by omega) hpos.le
  unfold maxPrice at hmax
  have hproduct : (p * ofU16 bps).toInt = p.toInt * bps.toNat := by
    rw [toInt_mul_of_fits (by rw [hspread]; omega), hspread]
  have hdivisor : (20000 : Int64).toInt = 20000 := rfl
  have hhalf : (p * ofU16 bps / 20000).toInt = halfSpread p.toInt bps.toNat := by
    rw [Int64.toInt_div_of_ne_right _ _ (by decide), hproduct, hdivisor,
      Int.tdiv_eq_ediv_of_nonneg hnonneg]
    rfl
  obtain ⟨hlow, hhigh, -⟩ := halfSpread_bounds hpos hbps
  constructor
  · show (p - p * ofU16 bps / 20000).toInt = _
    rw [toInt_sub_of_fits (by rw [hhalf]; omega), hhalf]
  · show (p + p * ofU16 bps / 20000).toInt = _
    rw [toInt_add_of_fits (by rw [hhalf]; omega), hhalf]

/-! ## The feed as a consumer follows it -/

/-- The markets, with their ids. -/
inductive Market
  | btcUsdt
  | ethUsdt
  | solUsdt
deriving Repr, DecidableEq

namespace Market

def id : Market → UInt32
  | btcUsdt => 1001
  | ethUsdt => 1002
  | solUsdt => 1003

/-- The largest move of the price in one event. -/
def jump : Market → ℤ
  | btcUsdt => 500000
  | ethUsdt => 100000
  | solUsdt => 10000

lemma jump_bounds (m : Market) : 0 ≤ m.jump ∧ m.jump < 2 ^ 61 := by
  cases m <;> decide

end Market

/-- The narrowest and the widest spread of a venue. -/
def SimulatedVenue.spreads : SimulatedVenue → ℕ × ℕ
  | .binanceCeFi => (1, 3)
  | .okxCeFi => (2, 5)
  | .uniswapV3DeFi => (5, 15)

/-- No price falls below it. -/
def floorPrice : ℤ := 100000000

namespace SimulatedFeedEvent

/-- The price of a trade, or the middle of a quote. -/
def price (e : SimulatedFeedEvent) : ℤ :=
  match e.kind with
  | .bbo => (e.bbo.bidPrice.toInt + e.bbo.askPrice.toInt) / 2
  | .trade => e.trade.price.toInt

def sequence (e : SimulatedFeedEvent) : UInt64 :=
  match e.kind with
  | .bbo => e.bbo.sequence
  | .trade => e.trade.sequence

def telemetry (e : SimulatedFeedEvent) : TelemetryTimestamps :=
  match e.kind with
  | .bbo => e.bbo.telemetry
  | .trade => e.trade.telemetry

end SimulatedFeedEvent

/-- A quote: neither crossed nor below zero, around the price, and as wide as its spread says. -/
structure IsQuote (v : SimulatedVenue) (price : ℤ) (bbo : NormalizedBbo) : Prop where
  chain : bbo.chain = v.chain
  positive : 0 < bbo.bidPrice.toInt
  uncrossed : bbo.bidPrice.toInt ≤ bbo.askPrice.toInt
  centred : bbo.bidPrice.toInt + bbo.askPrice.toInt = 2 * price
  width : (bbo.askPrice.toInt - bbo.bidPrice.toInt) * 10000 ≤ price * bbo.spreadBps.toNat
  spread : v.spreads.1 ≤ bbo.spreadBps.toNat ∧ bbo.spreadBps.toNat ≤ v.spreads.2
  quantities : 0 < bbo.bidQty.toNat ∧ 0 < bbo.askQty.toNat
  synthetic : bbo.flags = if v = .uniswapV3DeFi then 1 else 0

/-- A trade, which only the centralized venues have. -/
structure IsTrade (v : SimulatedVenue) (price : ℤ) (tradeId : ℕ) (t : UnifiedTrade) : Prop where
  centralized : v ≠ .uniswapV3DeFi
  chain : t.chain = v.chain
  price_eq : t.price.toInt = price
  tradeId_eq : t.tradeId.toNat = tradeId
  size : 0 < t.size.toNat
  side : t.side = 1 ∨ t.side = 2
  regular : t.isLiquidation = false

/-- What a consumer keeps: the last price of each market, the number of the last event of each
venue, and the last trade id. -/
structure Feed where
  price : Market → ℤ
  sequence : SimulatedVenue → ℕ
  tradeId : ℕ

namespace Feed

/-- The next event of the feed: the next number of its venue, at a price of at most one jump from
the last one of its market, and a quote or the trade with the next id. -/
structure Admits (f : Feed) (m : Market) (v : SimulatedVenue) (e : SimulatedFeedEvent) :
    Prop where
  market : e.marketId = m.id
  venue : e.venueId = v.id
  sequence : e.sequence.toNat = f.sequence v + 1
  walk : max (f.price m - m.jump) floorPrice ≤ e.price ∧
    e.price ≤ max (f.price m + m.jump) floorPrice
  quote : e.kind = .bbo → IsQuote v e.price e.bbo
  trade : e.kind = .trade → IsTrade v e.price (f.tradeId + 1) e.trade

def next (f : Feed) (m : Market) (v : SimulatedVenue) (e : SimulatedFeedEvent) : Feed where
  price := Function.update f.price m e.price
  sequence := Function.update f.sequence v (f.sequence v + 1)
  tradeId := match e.kind with
    | .bbo => f.tradeId
    | .trade => f.tradeId + 1

/-- A run of events that the consumer admits, one after the other. -/
inductive Follows : Feed → List SimulatedFeedEvent → Feed → Prop
  | nil (f : Feed) : Follows f [] f
  | cons {f f' : Feed} {e : SimulatedFeedEvent} {es : List SimulatedFeedEvent} (m : Market)
    (v : SimulatedVenue) (admits : f.Admits m v e) (rest : Follows (f.next m v e) es f') :
    Follows f (e :: es) f'

lemma Follows.append {f f' f'' : Feed} {es es' : List SimulatedFeedEvent} (h : Follows f es f')
    (h' : Follows f' es' f'') : Follows f (es ++ es') f'' := by
  induction h with
  | nil => exact h'
  | cons m v admits _ ih => exact .cons m v admits (ih h')

end Feed

/-- The timestamps of the event at position `i` of a burst: ten nanoseconds after the one before
it, and then the jitter and the two delays. -/
structure Burst.Stamped (b : Burst) (i : ℕ) (t : TelemetryTimestamps) : Prop where
  exchange : t.t0ExchangeNs.toNat = b.baseTimestampNs.toNat + 10 * i
  jitter : t.t0ExchangeNs.toNat + b.config.jitterMinNs.toNat ≤ t.t1IngestNicNs.toNat ∧
    t.t1IngestNicNs.toNat
      ≤ t.t0ExchangeNs.toNat + max b.config.jitterMinNs.toNat b.config.jitterMaxNs.toNat
  engine : t.t1IngestNicNs.toNat + 500 ≤ t.t2EngineProcNs.toNat ∧
    t.t2EngineProcNs.toNat ≤ t.t1IngestNicNs.toNat + 1500
  egress : t.t2EngineProcNs.toNat + 200 ≤ t.t3EgressNs.toNat ∧
    t.t3EgressNs.toNat ≤ t.t2EngineProcNs.toNat + 800

/-! ## One event -/

/-- The limits of a branch: the ranges are not empty, and the spread is that of its venue. -/
structure CefiVenue.Valid (v : CefiVenue) : Prop where
  centralized : v.venue ≠ .uniswapV3DeFi
  spreads : v.venue.spreads = (v.spreadMin.toNat, v.spreadMax.toNat)
  spread : v.spreadMin.toNat ≤ v.spreadMax.toNat ∧ v.spreadMax.toNat ≤ 15
  qty : 0 < v.qtyMin.toNat ∧ v.qtyMax.toNat < 2 ^ 64 - 1
  size : 0 < v.sizeMin.toNat ∧ v.sizeMax.toNat < 2 ^ 64 - 1

lemma binanceCefi_valid : binanceCefi.Valid :=
  ⟨by decide, by decide, by decide, by decide, by decide⟩

lemma okxCefi_valid : okxCefi.Valid :=
  ⟨by decide, by decide, by decide, by decide, by decide⟩

/-- What every event carries, and that it is a quote or the trade with the next id. -/
structure Emits (v : SimulatedVenue) (telemetry : TelemetryTimestamps) (marketId : UInt32)
    (price : ℤ) (sequence : UInt64) (tradeId tradeId' : UInt64) (e : SimulatedFeedEvent) :
    Prop where
  telemetry : e.telemetry = telemetry
  market : e.marketId = marketId
  venue : e.venueId = v.id
  price_eq : e.price = price
  sequence : e.sequence = sequence
  quote : e.kind = .bbo → IsQuote v price e.bbo ∧ tradeId' = tradeId
  trade : e.kind = .trade → IsTrade v price tradeId'.toNat e.trade ∧ tradeId' = tradeId + 1

lemma exists_spread (prng : FastPrng) (lo hi : UInt64) (h : lo.toNat ≤ hi.toNat ∧ hi.toNat ≤ 15) :
    ∃ spread prng', prng.genRange lo hi = some (spread, prng') ∧
      lo.toNat ≤ spread.toUInt16.toNat ∧ spread.toUInt16.toNat ≤ hi.toNat := by
  obtain ⟨spread, prng', hspread, hlo, hhi⟩ := prng.exists_genRange lo hi (by omega)
  rw [max_eq_right h.1] at hhi
  refine ⟨spread, prng', hspread, ?_⟩
  rw [UInt64.toNat_toUInt16]
  omega

/-- A quote with a drawn spread. -/
lemma isQuote_of_spread {v : SimulatedVenue} {p : Int64} {bbo : NormalizedBbo}
    (hp : 0 < p.toInt ∧ p.toInt ≤ maxPrice)
    (hspread : v.spreads.1 ≤ bbo.spreadBps.toNat ∧ bbo.spreadBps.toNat ≤ v.spreads.2)
    (hmax : v.spreads.2 ≤ 15) (hbid : bbo.bidPrice = (quoted p bbo.spreadBps).1)
    (hask : bbo.askPrice = (quoted p bbo.spreadBps).2) (hchain : bbo.chain = v.chain)
    (hqty : 0 < bbo.bidQty.toNat ∧ 0 < bbo.askQty.toNat)
    (hflags : bbo.flags = if v = .uniswapV3DeFi then 1 else 0) : IsQuote v p.toInt bbo := by
  obtain ⟨hbidInt, haskInt⟩ := quoted_eq hp (hspread.2.trans hmax)
  obtain ⟨hnonneg, hlt, hwidth⟩ := halfSpread_bounds hp.1 (hspread.2.trans hmax)
  rw [← hbid] at hbidInt
  rw [← hask] at haskInt
  exact ⟨hchain, by omega, by omega, by omega, by rw [hbidInt, haskInt]; omega, hspread, hqty,
    hflags⟩

lemma tradeEvent_eq {v : CefiVenue} {prng prng' : FastPrng} {size : UInt64}
    (hsize : prng.nextU64.2.genRange v.sizeMin v.sizeMax = some (size, prng'))
    (telemetry : TelemetryTimestamps) (marketId : UInt32) (p : Int64) (sequence tradeId : UInt64) :
    v.tradeEvent prng telemetry marketId p sequence tradeId =
      some (.fromTrade
        { telemetry := telemetry, marketId := marketId, venue := v.venue.id
          chain := v.venue.chain, sequence := sequence, tradeId := tradeId, price := p
          size := size, side := if prng.nextU64.1 &&& 1 = 0 then 1 else 2
          isLiquidation := false }, prng') := by
  simp only [CefiVenue.tradeEvent, hsize, bind, Option.bind]
  rfl

lemma bboEvent_eq {v : CefiVenue} {prng prng₁ prng₂ prng₃ : FastPrng}
    {spread bidQty askQty : UInt64}
    (hspread : prng.genRange v.spreadMin v.spreadMax = some (spread, prng₁))
    (hbid : prng₁.genRange v.qtyMin v.qtyMax = some (bidQty, prng₂))
    (hask : prng₂.genRange v.qtyMin v.qtyMax = some (askQty, prng₃))
    (telemetry : TelemetryTimestamps) (marketId : UInt32) (p : Int64) (sequence : UInt64) :
    v.bboEvent prng telemetry marketId p sequence =
      some (.fromBbo
        { telemetry := telemetry, marketId := marketId, venue := v.venue.id
          chain := v.venue.chain, sequence := sequence
          bidPrice := (quoted p spread.toUInt16).1, bidQty := bidQty
          askPrice := (quoted p spread.toUInt16).2, askQty := askQty
          spreadBps := spread.toUInt16, flags := 0 }, prng₃) := by
  simp only [CefiVenue.bboEvent, hspread, hbid, hask, bind, Option.bind]
  rfl

lemma uniswapEvent_eq {prng prng₁ prng₂ : FastPrng} {spread poolLiquidity : UInt64}
    (hspread : prng.genRange 5 15 = some (spread, prng₁))
    (hliquidity : prng₁.genRange 5000000000 20000000000 = some (poolLiquidity, prng₂))
    (telemetry : TelemetryTimestamps) (marketId : UInt32) (p : Int64) (sequence : UInt64) :
    uniswapEvent prng telemetry marketId p sequence =
      some (.fromBbo
        { telemetry := telemetry, marketId := marketId, venue := SimulatedVenue.uniswapV3DeFi.id
          chain := SimulatedVenue.uniswapV3DeFi.chain, sequence := sequence
          bidPrice := (quoted p spread.toUInt16).1, bidQty := poolLiquidity
          askPrice := (quoted p spread.toUInt16).2, askQty := poolLiquidity
          spreadBps := spread.toUInt16, flags := 0x01 }, prng₂) := by
  simp only [uniswapEvent, hspread, hliquidity, bind, Option.bind]
  rfl

/-- The event of a quote. -/
lemma emits_fromBbo {v : SimulatedVenue} {telemetry : TelemetryTimestamps} {marketId : UInt32}
    {bbo : NormalizedBbo} {price : ℤ} {sequence : UInt64} (tradeId : UInt64)
    (hcarries : bbo.telemetry = telemetry ∧ bbo.marketId = marketId ∧ bbo.venue = v.id ∧
      bbo.sequence = sequence) (h : IsQuote v price bbo) :
    Emits v telemetry marketId price sequence tradeId tradeId (.fromBbo bbo) := by
  obtain ⟨rfl, rfl, hvenue, rfl⟩ := hcarries
  refine ⟨rfl, rfl, hvenue, ?_, rfl, fun _ => ⟨h, rfl⟩, fun hkind => nomatch hkind⟩
  have hcentred := h.centred
  show (bbo.bidPrice.toInt + bbo.askPrice.toInt) / 2 = price
  omega

/-- The event of a trade. -/
lemma emits_fromTrade {v : SimulatedVenue} {telemetry : TelemetryTimestamps} {marketId : UInt32}
    {t : UnifiedTrade} {price : ℤ} {sequence tradeId : UInt64}
    (hcarries : t.telemetry = telemetry ∧ t.marketId = marketId ∧ t.venue = v.id ∧
      t.sequence = sequence) (h : IsTrade v price (tradeId + 1).toNat t) :
    Emits v telemetry marketId price sequence tradeId (tradeId + 1) (.fromTrade t) := by
  obtain ⟨rfl, rfl, hvenue, rfl⟩ := hcarries
  exact ⟨rfl, rfl, hvenue, h.price_eq, rfl, (fun hkind => nomatch hkind), fun _ => ⟨h, rfl⟩⟩

lemma exists_tradeEvent {v : CefiVenue} (hv : v.Valid) (prng : FastPrng)
    (telemetry : TelemetryTimestamps) (marketId : UInt32) (p : Int64) (sequence tradeId : UInt64) :
    ∃ e prng', v.tradeEvent prng telemetry marketId p sequence (tradeId + 1) = some (e, prng') ∧
      Emits v.venue telemetry marketId p.toInt sequence tradeId (tradeId + 1) e := by
  obtain ⟨size, prng', hsize, hlo, -⟩ :=
    prng.nextU64.2.exists_genRange v.sizeMin v.sizeMax hv.size.2
  have hside : (if prng.nextU64.1 &&& 1 = 0 then (1 : UInt8) else 2) = 1 ∨
      (if prng.nextU64.1 &&& 1 = 0 then (1 : UInt8) else 2) = 2 := by
    split
    · exact .inl rfl
    · exact .inr rfl
  refine ⟨_, _, tradeEvent_eq hsize telemetry marketId p sequence (tradeId + 1),
    emits_fromTrade ⟨rfl, rfl, rfl, rfl⟩ ?_⟩
  exact ⟨hv.centralized, rfl, rfl, rfl, lt_of_lt_of_le hv.size.1 hlo, hside, rfl⟩

lemma exists_bboEvent {v : CefiVenue} (hv : v.Valid) (prng : FastPrng)
    (telemetry : TelemetryTimestamps) (marketId : UInt32) {p : Int64}
    (hp : 0 < p.toInt ∧ p.toInt ≤ maxPrice) (sequence tradeId : UInt64) :
    ∃ e prng', v.bboEvent prng telemetry marketId p sequence = some (e, prng') ∧
      Emits v.venue telemetry marketId p.toInt sequence tradeId tradeId e := by
  obtain ⟨spread, prng₁, hspread, hlo, hhi⟩ := exists_spread prng _ _ hv.spread
  obtain ⟨bidQty, prng₂, hbid, hbidLo, -⟩ :=
    prng₁.exists_genRange v.qtyMin v.qtyMax hv.qty.2
  obtain ⟨askQty, prng₃, hask, haskLo, -⟩ :=
    prng₂.exists_genRange v.qtyMin v.qtyMax hv.qty.2
  have hqty := hv.qty.1
  refine ⟨_, _, bboEvent_eq hspread hbid hask telemetry marketId p sequence,
    emits_fromBbo tradeId ⟨rfl, rfl, rfl, rfl⟩ ?_⟩
  refine isQuote_of_spread hp ?_ ?_ rfl rfl rfl ⟨hqty.trans_le hbidLo, hqty.trans_le haskLo⟩ ?_
  · rw [hv.spreads]
    exact ⟨hlo, hhi⟩
  · rw [hv.spreads]
    exact hv.spread.2
  · rw [if_neg hv.centralized]

lemma exists_uniswapEvent (prng : FastPrng) (telemetry : TelemetryTimestamps) (marketId : UInt32)
    {p : Int64} (hp : 0 < p.toInt ∧ p.toInt ≤ maxPrice) (sequence tradeId : UInt64) :
    ∃ e prng', uniswapEvent prng telemetry marketId p sequence = some (e, prng') ∧
      Emits .uniswapV3DeFi telemetry marketId p.toInt sequence tradeId tradeId e := by
  obtain ⟨spread, prng₁, hspread, hlo, hhi⟩ := exists_spread prng 5 15 (by decide)
  obtain ⟨poolLiquidity, prng₂, hliquidity, hliquidityLo, -⟩ :=
    prng₁.exists_genRange 5000000000 20000000000 (by decide)
  have hpos : 0 < poolLiquidity.toNat := lt_of_lt_of_le (by decide) hliquidityLo
  exact ⟨_, _, uniswapEvent_eq hspread hliquidity telemetry marketId p sequence,
    emits_fromBbo tradeId ⟨rfl, rfl, rfl, rfl⟩
      (isQuote_of_spread hp ⟨hlo, hhi⟩ le_rfl rfl rfl rfl ⟨hpos, hpos⟩ rfl)⟩

lemma exists_cefiEvent {v : CefiVenue} (hv : v.Valid) (prng : FastPrng)
    (telemetry : TelemetryTimestamps) (marketId : UInt32) {p : Int64}
    (hp : 0 < p.toInt ∧ p.toInt ≤ maxPrice) (sequence tradeId : UInt64) (isTrade : Bool) :
    ∃ e prng' tradeId', MockExchangeFeedSimulator.cefiEvent v prng telemetry marketId p sequence
        tradeId isTrade = some (e, prng', tradeId') ∧
      Emits v.venue telemetry marketId p.toInt sequence tradeId tradeId' e := by
  cases isTrade with
  | true =>
    obtain ⟨e, prng', hevent, hemits⟩ :=
      exists_tradeEvent hv prng telemetry marketId p sequence tradeId
    refine ⟨e, prng', tradeId + 1, ?_, hemits⟩
    simp only [MockExchangeFeedSimulator.cefiEvent, if_true, hevent, bind, Option.bind]
    rfl
  | false =>
    obtain ⟨e, prng', hevent, hemits⟩ :=
      exists_bboEvent hv prng telemetry marketId hp sequence tradeId
    refine ⟨e, prng', tradeId, ?_, hemits⟩
    simp only [MockExchangeFeedSimulator.cefiEvent, Bool.false_eq_true, if_false, hevent, bind,
      Option.bind]
    rfl

/-! ## One turn of the loop -/

namespace MockExchangeFeedSimulator

def curPrice (sim : MockExchangeFeedSimulator) : Market → Int64
  | .btcUsdt => sim.btcCurPrice
  | .ethUsdt => sim.ethCurPrice
  | .solUsdt => sim.solCurPrice

def seq (sim : MockExchangeFeedSimulator) : SimulatedVenue → UInt64
  | .binanceCeFi => sim.binanceSeq
  | .okxCeFi => sim.okxSeq
  | .uniswapV3DeFi => sim.uniswapSeq

/-- The feed that a simulator goes on with. -/
def feed (sim : MockExchangeFeedSimulator) : Feed where
  price m := (sim.curPrice m).toInt
  sequence v := (sim.seq v).toNat
  tradeId := sim.tradeIdCounter.toNat

variable {sim : MockExchangeFeedSimulator}

lemma exists_market (sim : MockExchangeFeedSimulator) (assetChoice : UInt64) :
    ∃ m, ∃ jump : Int64, jump.toInt = m.jump ∧
      sim.market assetChoice = (m.id, sim.curPrice m, jump) := by
  unfold market
  split
  · exact ⟨.btcUsdt, 500000, rfl, rfl⟩
  · split
    · exact ⟨.ethUsdt, 100000, rfl, rfl⟩
    · exact ⟨.solUsdt, 10000, rfl, rfl⟩

/-- The walk writes the price of its own market. -/
lemma storePrice_id (sim : MockExchangeFeedSimulator) (m : Market) (p : Int64) :
    (sim.storePrice m.id p).curPrice = Function.update sim.curPrice m p ∧
      (sim.storePrice m.id p).seq = sim.seq ∧
      (sim.storePrice m.id p).tradeIdCounter = sim.tradeIdCounter := by
  cases m <;> refine ⟨?_, rfl, rfl⟩ <;> funext m' <;> cases m' <;> rfl

/-- The timestamps of an event, as long as the last of them is a word. -/
lemma exists_stamps (b : Burst) (prng : FastPrng) (i : ℕ)
    (h : b.baseTimestampNs.toNat + 10 * i
      + max b.config.jitterMinNs.toNat b.config.jitterMaxNs.toNat + 2300 < 2 ^ 64) :
    ∃ t prng', stamps b.config prng (b.baseTimestampNs + UInt64.ofNat i * 10) = some (t, prng') ∧
      b.Stamped i t := by
  obtain ⟨jitterNs, prng₁, hjitter, hjitterLo, hjitterHi⟩ :=
    prng.exists_genRange b.config.jitterMinNs b.config.jitterMaxNs (by omega)
  obtain ⟨engineNs, prng₂, hengine, hengineLo, hengineHi⟩ :=
    prng₁.exists_genRange 500 1500 (by decide)
  obtain ⟨egressNs, prng₃, hegress, hegressLo, hegressHi⟩ :=
    prng₂.exists_genRange 200 800 (by decide)
  have hbounds : (500 : UInt64).toNat = 500 ∧ (1500 : UInt64).toNat = 1500 ∧
      (200 : UInt64).toNat = 200 ∧ (800 : UInt64).toNat = 800 ∧ (10 : UInt64).toNat = 10 := by
    decide
  obtain ⟨h500, h1500, h200, h800, h10⟩ := hbounds
  rw [h500] at hengineLo hengineHi
  rw [h1500] at hengineHi
  rw [h200] at hegressLo hegressHi
  rw [h800] at hegressHi
  have hindex : (UInt64.ofNat i).toNat = i := UInt64.toNat_ofNat_of_lt' (show i < 2 ^ 64 by omega)
  have ht0 : (b.baseTimestampNs + UInt64.ofNat i * 10).toNat
      = b.baseTimestampNs.toNat + 10 * i := by
    rw [UInt64.toNat_add, UInt64.toNat_mul, hindex, h10]
    omega
  generalize b.baseTimestampNs + UInt64.ofNat i * 10 = t0 at ht0 ⊢
  have ht1 : (t0 + jitterNs).toNat = t0.toNat + jitterNs.toNat := by
    rw [UInt64.toNat_add]
    omega
  have ht2 : (t0 + jitterNs + engineNs).toNat = (t0 + jitterNs).toNat + engineNs.toNat := by
    rw [UInt64.toNat_add]
    omega
  have ht3 : (t0 + jitterNs + engineNs + egressNs).toNat
      = (t0 + jitterNs + engineNs).toNat + egressNs.toNat := by
    rw [UInt64.toNat_add]
    omega
  refine ⟨⟨t0, t0 + jitterNs, t0 + jitterNs + engineNs, t0 + jitterNs + engineNs + egressNs⟩,
    prng₃, ?_, ht0, ?_, ?_, ?_⟩
  · simp only [stamps, hjitter, hengine, hegress, bind, Option.bind]
    rfl
  · dsimp only
    rw [ht1]
    omega
  · dsimp only
    rw [ht2]
    omega
  · dsimp only
    rw [ht3]
    omega

/-- How the simulator moves on with an event of a venue. -/
structure Moves (sim sim' : MockExchangeFeedSimulator) (v : SimulatedVenue) (tradeId' : UInt64) :
    Prop where
  price : sim'.curPrice = sim.curPrice
  seq : sim'.seq = Function.update sim.seq v (sim.seq v + 1)
  tradeId : sim'.tradeIdCounter = tradeId'

/-- The chosen venue writes one event, with its next number. -/
lemma exists_venueEvent (sim : MockExchangeFeedSimulator) (prng : FastPrng) (venueChoice : UInt64)
    (isTrade : Bool) (telemetry : TelemetryTimestamps) (marketId : UInt32) {p : Int64}
    (hp : 0 < p.toInt ∧ p.toInt ≤ maxPrice) :
    ∃ v e sim' tradeId', sim.venueEvent prng venueChoice isTrade telemetry marketId p
        = some (e, sim') ∧
      Emits v telemetry marketId p.toInt (sim.seq v + 1) sim.tradeIdCounter tradeId' e ∧
      sim.Moves sim' v tradeId' := by
  have hmoves : ∀ {sim' : MockExchangeFeedSimulator} {v : SimulatedVenue},
      (∀ v', sim'.seq v' = if v' = v then sim.seq v + 1 else sim.seq v') →
        sim'.seq = Function.update sim.seq v (sim.seq v + 1) := by
    intro sim' v h
    funext v'
    rw [h, Function.update_apply]
  unfold venueEvent
  split
  · obtain ⟨e, prng', tradeId', hevent, hemits⟩ := exists_cefiEvent binanceCefi_valid prng
      telemetry marketId hp (sim.binanceSeq + 1) sim.tradeIdCounter isTrade
    simp only [hevent, bind, Option.bind]
    exact ⟨.binanceCeFi, e, _, tradeId', rfl, hemits, rfl,
      hmoves fun v' => by cases v' <;> rfl, rfl⟩
  · split
    · obtain ⟨e, prng', tradeId', hevent, hemits⟩ := exists_cefiEvent okxCefi_valid prng
        telemetry marketId hp (sim.okxSeq + 1) sim.tradeIdCounter isTrade
      simp only [hevent, bind, Option.bind]
      exact ⟨.okxCeFi, e, _, tradeId', rfl, hemits, rfl,
        hmoves fun v' => by cases v' <;> rfl, rfl⟩
    · obtain ⟨e, prng', hevent, hemits⟩ := exists_uniswapEvent prng telemetry marketId hp
        (sim.uniswapSeq + 1) sim.tradeIdCounter
      simp only [hevent, bind, Option.bind]
      exact ⟨.uniswapV3DeFi, e, _, sim.tradeIdCounter, rfl, hemits, rfl,
        hmoves fun v' => by cases v' <;> rfl, rfl⟩

/-- There is room for `n` more events. -/
structure Room (sim : MockExchangeFeedSimulator) (n : ℕ) : Prop where
  price : ∀ m, 0 ≤ (sim.curPrice m).toInt ∧
    max (sim.curPrice m).toInt floorPrice + m.jump * n ≤ maxPrice
  sequence : ∀ v, (sim.seq v).toNat + n < 2 ^ 64
  tradeId : sim.tradeIdCounter.toNat + n < 2 ^ 64

/-- A turn: the price of one market walks to `p`, and a venue writes one event. -/
structure Turns (sim sim' : MockExchangeFeedSimulator) (m : Market) (v : SimulatedVenue) (p : Int64)
    (t : TelemetryTimestamps) (e : SimulatedFeedEvent) : Prop where
  price : sim'.curPrice = Function.update sim.curPrice m p
  seq : sim'.seq = Function.update sim.seq v (sim.seq v + 1)
  emits : Emits v t m.id p.toInt (sim.seq v + 1) sim.tradeIdCounter sim'.tradeIdCounter e

namespace Turns

variable {sim' : MockExchangeFeedSimulator} {m : Market} {v : SimulatedVenue} {p : Int64}
  {t : TelemetryTimestamps} {e : SimulatedFeedEvent} {n : ℕ}

lemma toNat_seq (hroom : sim.Room (n + 1)) (v : SimulatedVenue) :
    (sim.seq v + 1).toNat = (sim.seq v).toNat + 1 := by
  have hlt := hroom.sequence v
  rw [UInt64.toNat_add, UInt64.toNat_one]
  omega

lemma toNat_tradeId (hroom : sim.Room (n + 1)) :
    (sim.tradeIdCounter + 1).toNat = sim.tradeIdCounter.toNat + 1 := by
  have hlt := hroom.tradeId
  rw [UInt64.toNat_add, UInt64.toNat_one]
  omega

lemma admits (h : sim.Turns sim' m v p t e) (hroom : sim.Room (n + 1))
    (hwalk : max ((sim.curPrice m).toInt - m.jump) floorPrice ≤ p.toInt ∧
      p.toInt ≤ max ((sim.curPrice m).toInt + m.jump) floorPrice) : sim.feed.Admits m v e := by
  refine ⟨h.emits.market, h.emits.venue, ?_, ?_, ?_, ?_⟩
  · rw [h.emits.sequence, toNat_seq hroom]
    rfl
  · rw [h.emits.price_eq]
    exact hwalk
  · intro hkind
    rw [h.emits.price_eq]
    exact (h.emits.quote hkind).1
  · intro hkind
    obtain ⟨htrade, hid⟩ := h.emits.trade hkind
    rw [hid, toNat_tradeId hroom] at htrade
    rw [h.emits.price_eq]
    exact htrade

lemma feed_eq (h : sim.Turns sim' m v p t e) (hroom : sim.Room (n + 1)) :
    sim'.feed = sim.feed.next m v e := by
  have hprice : (fun m => (sim'.curPrice m).toInt)
      = Function.update (fun m => (sim.curPrice m).toInt) m e.price := by
    rw [h.price, h.emits.price_eq]
    exact Function.comp_update Int64.toInt sim.curPrice m p
  have hsequence : (fun v => (sim'.seq v).toNat)
      = Function.update (fun v => (sim.seq v).toNat) v ((sim.seq v).toNat + 1) := by
    rw [h.seq, ← toNat_seq hroom]
    exact Function.comp_update UInt64.toNat sim.seq v (sim.seq v + 1)
  have htradeId : sim'.tradeIdCounter.toNat = (sim.feed.next m v e).tradeId := by
    unfold Feed.next
    cases hkind : e.kind with
    | bbo => rw [(h.emits.quote hkind).2]; rfl
    | trade => rw [(h.emits.trade hkind).2, toNat_tradeId hroom]; rfl
  unfold feed
  rw [hprice, hsequence, htradeId]
  rfl

lemma room (h : sim.Turns sim' m v p t e) (hroom : sim.Room (n + 1))
    (hwalk : 0 ≤ p.toInt ∧ p.toInt ≤ max (sim.curPrice m).toInt floorPrice + m.jump) :
    sim'.Room n := by
  have hcast : ∀ m : Market, m.jump * (n + 1 : ℕ) = m.jump * n + m.jump := by
    intro m
    rw [Nat.cast_succ, mul_add, mul_one]
  constructor
  · intro m'
    obtain ⟨hnonneg, hmax⟩ := hroom.price m'
    have hjump := m'.jump_bounds
    rw [hcast] at hmax
    rw [h.price]
    by_cases hm : m' = m
    · subst hm
      rw [Function.update_self]
      omega
    · rw [Function.update_of_ne hm]
      omega
  · intro v'
    have hlt := hroom.sequence v'
    rw [h.seq]
    by_cases hv : v' = v
    · subst hv
      rw [Function.update_self, toNat_seq hroom]
      omega
    · rw [Function.update_of_ne hv]
      omega
  · have hlt := hroom.tradeId
    cases hkind : e.kind with
    | bbo =>
      rw [(h.emits.quote hkind).2]
      omega
    | trade =>
      rw [(h.emits.trade hkind).2, toNat_tradeId hroom]
      omega

end Turns

/-- One turn of the loop writes an event that a consumer of the feed admits. -/
lemma exists_walkAndEmit (b : Burst) (i : ℕ) {n : ℕ} (hroom : sim.Room (n + 1))
    (hstamps : b.baseTimestampNs.toNat + 10 * i
      + max b.config.jitterMinNs.toNat b.config.jitterMaxNs.toNat + 2300 < 2 ^ 64)
    (venueChoice assetChoice : UInt64) (isTrade : Bool) (prng : FastPrng) :
    ∃ m v e sim', sim.walkAndEmit b.config b.baseTimestampNs i venueChoice assetChoice isTrade prng
        = some (e, sim') ∧
      sim.feed.Admits m v e ∧ sim'.feed = sim.feed.next m v e ∧ b.Stamped i e.telemetry ∧
      sim'.Room n := by
  obtain ⟨m, jump, hjump, hmarket⟩ := exists_market sim assetChoice
  have hdelta := prng.genPriceDelta_bounds jump (by rw [hjump]; exact m.jump_bounds)
  obtain ⟨t, prng', ht, hstamped⟩ := exists_stamps b (prng.genPriceDelta jump).2 i hstamps
  simp only [walkAndEmit, hmarket, ht, bind, Option.bind]
  generalize (prng.genPriceDelta jump).1 = delta at hdelta ⊢
  -- the walk
  obtain ⟨hnonneg, hmax⟩ := hroom.price m
  have hjumpPos := m.jump_bounds
  have hremaining : m.jump ≤ m.jump * (n + 1 : ℕ) := by
    rw [Nat.cast_succ, mul_add, mul_one]
    have hpos : 0 ≤ m.jump * n := mul_nonneg hjumpPos.1 (Int.natCast_nonneg n)
    omega
  have hsum : (sim.curPrice m + delta).toInt = (sim.curPrice m).toInt + delta.toInt := by
    unfold maxPrice at hmax
    exact toInt_add_of_fits (by omega)
  have hfloor : (100000000 : Int64).toInt = floorPrice := rfl
  have hprice : (max (sim.curPrice m + delta) 100000000).toInt
      = max ((sim.curPrice m).toInt + delta.toInt) floorPrice := by
    rw [toInt_max, hsum, hfloor]
  have hfloorPos : 0 < floorPrice := by decide
  generalize max (sim.curPrice m + delta) 100000000 = p at hprice ⊢
  -- the event
  obtain ⟨hcur, hseq, htradeId⟩ := sim.storePrice_id m p
  obtain ⟨v, e, sim', tradeId', hevent, hemits, hmoves⟩ :=
    (sim.storePrice m.id p).exists_venueEvent prng' venueChoice isTrade t m.id (p := p)
      (by omega)
  have hturns : sim.Turns sim' m v p t e := by
    rw [hseq, htradeId, ← hmoves.tradeId] at hemits
    exact ⟨by rw [hmoves.price, hcur], by rw [hmoves.seq, hseq], hemits⟩
  refine ⟨m, v, e, sim', hevent, hturns.admits hroom (by omega), hturns.feed_eq hroom, ?_,
    hturns.room hroom (by omega)⟩
  rw [hemits.telemetry]
  exact hstamped

end MockExchangeFeedSimulator

end ChainMarketPrice.CoreEngine
