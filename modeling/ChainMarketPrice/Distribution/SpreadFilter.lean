import ChainMarketPrice.Lib.FixedWidth
import ChainMarketPrice.CefiIngest.Coinbase
import ChainMarketPrice.CefiIngest.JsonTheorems
import ChainMarketPrice.Distribution.RouterTheorems

/-!
# The spread filter from parser to client

`CefiParser` computes the spread of a quote in `i64` and keeps 16 bits of it; the router
compares those bits with a client's limit. A dispatch hands a quote only to clients whose
filter accepts it, from any state of the router, so the filter is as good as the 16 bits.
-/

namespace ChainMarketPrice.Distribution

open CefiIngest

/-! ## The spread in exact integers -/

/-- The spread over the bid in basis points, in exact integers and rounded down. -/
def exactSpreadBps (bid ask : Int64) : ℤ := (ask.toInt - bid.toInt) * 10000 / bid.toInt

/-- What is left of the spread when the product wraps in 64 bits and the quotient is cut to
16 bits. -/
def narrowedSpreadBps (bid ask : Int64) : ℤ :=
  (((ask.toInt - bid.toInt) * 10000).bmod (2 ^ 64)).tdiv bid.toInt % 2 ^ 16

lemma toNat_spreadBps {bid ask : Int64} (hbid : 0 < bid) (hlt : bid < ask) :
    ((CefiParser.spreadBps bid ask).toNat : ℤ) = narrowedSpreadBps bid ask := by
  have hne : bid ≠ -1 := by
    rintro rfl
    exact absurd hbid (by decide)
  unfold CefiParser.spreadBps narrowedSpreadBps
  rw [if_pos ⟨hlt, hbid⟩, FixedWidth.toNat_toUInt16, Int64.toInt_div_of_ne_right _ _ hne, Int64.toInt_mul]
  have hsub := FixedWidth.toInt_sub_of_pos (Int64.lt_trans hbid hlt) hbid
  have hscale : Int64.toInt 10000 = 10000 := rfl
  rw [hsub, hscale]

/-- The spread of an accepted payload is computed from its prices. -/
lemma spreadBps_parse {marketId : UInt32} {payload : List UInt8} {t1 : UInt64}
    {b : NormalizedBbo} (h : CefiParser.parseCoinbaseTickerBbo marketId payload t1 = .ok b) :
    b.spreadBps = CefiParser.spreadBps b.bidPrice b.askPrice := by
  unfold CefiParser.parseCoinbaseTickerBbo at h
  obtain ⟨bidPrice, -, h⟩ := exists_of_bind_eq_ok h
  obtain ⟨bidQty, -, h⟩ := exists_of_bind_eq_ok h
  obtain ⟨askPrice, -, h⟩ := exists_of_bind_eq_ok h
  obtain ⟨askQty, -, h⟩ := exists_of_bind_eq_ok h
  obtain ⟨seq, -, h⟩ := exists_of_bind_eq_ok h
  cases h
  rfl

/-! ## A client with a spread limit -/

namespace InvertedTopicRouter

/-- A client of the given spread limit with one token, subscribed to a quote's topic. -/
def limitedClient (limit : UInt32) : ClientSession :=
  (ClientSession.new 0 .sbe 1 1 0).withFilter { maxSpreadBps := limit }

/-- The calls that register and subscribe it. -/
def limitedOps (limit : UInt32) (bbo : NormalizedBbo) : List Op :=
  [.register (limitedClient limit), .subscribe 0 (defaultTopic bbo)]

lemma lookup_limitedOps (limit : UInt32) (bbo : NormalizedBbo) :
    (run (limitedOps limit bbo)).clients.lookup 0 =
      some ((limitedClient limit).setState .subscribed) := by
  have hregister : (new.registerClient (limitedClient limit)).2.clients.lookup 0 =
      some (limitedClient limit) := rfl
  have hrun : run (limitedOps limit bbo) =
      ((new.registerClient (limitedClient limit)).2.subscribe 0 (defaultTopic bbo)).2 := rfl
  rw [hrun, InvertedTopicRouter.subscribe, markSubscribed, hregister]
  exact AList.lookup_insert _

/-- A client is handed a quote that its filter accepts. -/
lemma mem_sent_limitedOps (limit : UInt32) (bbo : NormalizedBbo)
    (h : bbo.spreadBps.toNat ≤ limit.toNat) :
    ⟨0, .sbe, bboPayload bbo .sbe⟩ ∈ ((run (limitedOps limit bbo)).dispatchBbo bbo 0).2.2 := by
  have hreg : Registered 0 [.register (limitedClient limit)] :=
    ⟨[], _, [], rfl, ⟨_, rfl, rfl⟩, by simp⟩
  have hreg' : Registered 0 (limitedOps limit bbo) :=
    ⟨[], _, [.subscribe 0 (defaultTopic bbo)], rfl, ⟨_, rfl, rfl⟩, by simp⟩
  have hsub : Subscribed 0 (defaultTopic bbo) (limitedOps limit bbo) :=
    ⟨[.register (limitedClient limit)], _, [], rfl, ⟨rfl, hreg⟩, by simp⟩
  rw [(follows_run (limitedOps limit bbo)).mem_sent_iff]
  refine ⟨⟨⟨hreg', .inr hsub⟩, by decide⟩, _, lookup_limitedOps limit bbo, .inr h, ?_, rfl, rfl⟩
  show ((LockFreeTokenBucket.new 1 1 0).tryConsume 1 0).1 = true
  decide

end InvertedTopicRouter

/-! ## End to end -/

open InvertedTopicRouter

/-- A dispatch of the quote delivers it to the client. -/
def Delivered (r : InvertedTopicRouter) (bbo : NormalizedBbo) (nowMs : UInt64) (c : UInt32) :
    Prop :=
  ∃ call ∈ (r.dispatchBbo bbo nowMs).2.2, call.clientId = c

/-- A delivered quote has passed the filter of the client, as far as the 16 bits go. -/
lemma narrowed_le_of_delivered {r : InvertedTopicRouter} {b : NormalizedBbo} {nowMs : UInt64}
    {c : UInt32} {session : ClientSession} (hlookup : r.clients.lookup c = some session)
    (hlimit : 0 < session.filter.maxSpreadBps) (h : Delivered r b nowMs c) :
    b.spreadBps.toNat ≤ session.filter.maxSpreadBps.toNat := by
  obtain ⟨call, hcall, rfl⟩ := h
  obtain ⟨-, session', hlookup', -, hobtains, -⟩ := (mem_calls_dispatch (whole_bbo b)).mp hcall
  rw [hlookup] at hlookup'
  cases hlookup'
  have hacc := (accepts_bboOutbound session.filter b).mp hobtains.1
  rcases hacc with hzero | hle
  · rw [hzero] at hlimit
    exact absurd hlimit (by decide)
  · exact hle

/-- For which quotes and limits the filter keeps its promise: the exact spread is within the
limit, or what 64 and 16 bits leave of it still exceeds the limit. -/
theorem spread_filter_holds_iff (marketId : UInt32) (payload : List UInt8) (t1 : UInt64)
    (b : NormalizedBbo) (hparse : CefiParser.parseCoinbaseTickerBbo marketId payload t1 = .ok b)
    (hbid : 0 < b.bidPrice) (hlt : b.bidPrice < b.askPrice) (limit : UInt32)
    (hlimit : 0 < limit) :
    (∀ (r : InvertedTopicRouter) (c : UInt32) (session : ClientSession) (nowMs : UInt64),
      r.clients.lookup c = some session → session.filter.maxSpreadBps = limit →
      Delivered r b nowMs c → exactSpreadBps b.bidPrice b.askPrice ≤ limit.toNat) ↔
    (exactSpreadBps b.bidPrice b.askPrice ≤ limit.toNat ∨
      limit.toNat < narrowedSpreadBps b.bidPrice b.askPrice) := by
  have hnarrowed := toNat_spreadBps hbid hlt
  rw [← spreadBps_parse hparse] at hnarrowed
  constructor
  · intro hall
    by_contra hcond
    rw [not_or, not_lt, ← hnarrowed] at hcond
    have hsent := mem_sent_limitedOps limit b (by omega)
    exact hcond.1 (hall _ 0 _ 0 (lookup_limitedOps limit b) rfl ⟨_, hsent, rfl⟩)
  · rintro (hexact | hwide) r c session nowMs hlookup rfl hdelivered
    · exact hexact
    · have hle := narrowed_le_of_delivered hlookup hlimit hdelivered
      omega

/-- A ticker message with the given best bid and ask. -/
def quoteBytes (bid ask : String) : List UInt8 :=
  Bytes.ofString ("\x7b\"type\":\"ticker\",\"sequence\":5,\"best_bid\":\"" ++ bid
    ++ "\",\"best_bid_size\":\"1\",\"best_ask\":\"" ++ ask
    ++ "\",\"best_ask_size\":\"1\"\x7d")

/-- The quote of `quoteBytes` for market 1. -/
def quoteOf (bid ask : Int64) (spreadBps : UInt16) : NormalizedBbo :=
  { marketId := 1, venue := venueCoinbase, sequence := 5, bidPrice := bid, bidQty := 100000000,
    askPrice := ask, askQty := 100000000, spreadBps := spreadBps }

theorem spread_filter_holds_iff_onePercent :
    CefiParser.parseCoinbaseTickerBbo 1 (quoteBytes "1" "1.01") 0 =
        .ok (quoteOf 100000000 101000000 100) ∧
      ∀ (r : InvertedTopicRouter) (c : UInt32) (session : ClientSession) (nowMs : UInt64),
        r.clients.lookup c = some session → session.filter.maxSpreadBps = 50 →
        Delivered r (quoteOf 100000000 101000000 100) nowMs c →
        exactSpreadBps 100000000 101000000 ≤ 50 := by
  have hparse : CefiParser.parseCoinbaseTickerBbo 1 (quoteBytes "1" "1.01") 0 =
      .ok (quoteOf 100000000 101000000 100) := by decide +kernel
  refine ⟨hparse, ?_⟩
  exact (spread_filter_holds_iff 1 _ 0 _ hparse (by decide) (by decide) 50 (by decide)).mpr
    (.inr (by decide))

/-- A spread of 65537 basis points is one basis point in 16 bits, and passes a limit of 100. -/
theorem wide_quote_delivered :
    ¬ ∀ (marketId : UInt32) (payload : List UInt8) (t1 : UInt64) (b : NormalizedBbo),
      CefiParser.parseCoinbaseTickerBbo marketId payload t1 = .ok b →
      0 < b.bidPrice → b.bidPrice < b.askPrice →
      ∀ (r : InvertedTopicRouter) (c : UInt32) (session : ClientSession) (nowMs : UInt64),
        r.clients.lookup c = some session → 0 < session.filter.maxSpreadBps →
        Delivered r b nowMs c →
        exactSpreadBps b.bidPrice b.askPrice ≤ session.filter.maxSpreadBps.toNat := by
  intro h
  have hparse : CefiParser.parseCoinbaseTickerBbo 1 (quoteBytes "1" "7.5537") 0 =
      .ok (quoteOf 100000000 755370000 1) := by decide +kernel
  have hsent := mem_sent_limitedOps 100 (quoteOf 100000000 755370000 1) (by decide)
  have hle := h 1 _ 0 _ hparse (by decide) (by decide) _ 0 _ 0 (lookup_limitedOps 100 _)
    (by decide) ⟨_, hsent, rfl⟩
  exact absurd hle (by decide)

end ChainMarketPrice.Distribution
