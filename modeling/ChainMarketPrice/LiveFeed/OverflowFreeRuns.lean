import ChainMarketPrice.LiveFeed.OverflowFree

/-!
# Runs without overflow

A run is free of overflow when the checks pass at every call and the quotes it gives out carry
their exact spread, of which the parser keeps 16 bits. Both are decided call by call
(`overflow_free_iff`).
-/

namespace ChainMarketPrice.LiveFeed

open CefiIngest CefiParser Checked Session SessionRun
open CoreEngine (parseFixedPoint8)
open ChainMarketPrice.Distribution (exactSpreadBps narrowedSpreadBps spreadBps_parse toNat_spreadBps)

/-- The spread of a quote is the exact one. -/
def ExactSpread (bbo : NormalizedBbo) : Prop :=
  0 < bbo.bidPrice → bbo.bidPrice < bbo.askPrice →
    (bbo.spreadBps.toNat : ℤ) = exactSpreadBps bbo.bidPrice bbo.askPrice

/-- No call of the run overflows, and no quote that it gives out has a wrapped spread. -/
structure OverflowFree (s : Session) (ops : List SessionOp) : Prop where
  passes : checkedRun s ops = some (run s ops)
  spreads : ∀ bbo, Event.bbo bbo ∈ (run s ops).out → ExactSpread bbo

/-- The exact spread of a message with these prices fits 16 bits. -/
def NarrowSpread (payload : List UInt8) : Prop :=
  ∀ bidPrice askPrice, extractJsonStrField payload (keyOf "best_bid") = .ok bidPrice →
    extractJsonStrField payload (keyOf "best_ask") = .ok askPrice →
    0 < parseFixedPoint8 bidPrice → parseFixedPoint8 bidPrice < parseFixedPoint8 askPrice →
    exactSpreadBps (parseFixedPoint8 bidPrice) (parseFixedPoint8 askPrice) < 2 ^ 16

/-- A complete ticker of a product of the session has a spread that fits. -/
def SpreadKept (s : Session) : SessionOp → Prop
  | .message payload _ _ => ∀ name seq tradeId, IsTicker name payload seq tradeId →
    (s.productOf name).isSome → NarrowSpread payload
  | _ => True

/-- What a call needs, for the checks and for the spread it stores. -/
structure CallFits (s : Session) (op : SessionOp) : Prop where
  checks : OpFits s op
  spread : SpreadKept s op

/-! ## Quotes -/

/-- The call gives out the quote. -/
def Quoted (s : Session) : SessionOp → NormalizedBbo → Prop
  | .message payload t1Ns _, bbo => ∃ name seq tradeId p, IsTicker name payload seq tradeId ∧
    s.productOf name = some p ∧ parseCoinbaseTickerBbo p.marketId payload t1Ns = .ok bbo
  | _, _ => False

variable {s : Session} {payload name : List UInt8} {bbo : NormalizedBbo}

lemma bbo_mem_react_ticker {seq tradeId : UInt64} {p : Product} {t1Ns : UInt64}
    (h : IsTicker name payload seq tradeId) :
    Event.bbo bbo ∈ (react (some p) payload t1Ns).events ↔
      parseCoinbaseTickerBbo p.marketId payload t1Ns = .ok bbo := by
  obtain ⟨bbo', hbbo, -, -⟩ := h.parseBbo p.marketId t1Ns
  obtain ⟨trade, htrade, -, -, -⟩ := h.parseTrade p.marketId t1Ns
  unfold react
  rw [h.type]
  dsimp only
  rw [if_pos rfl]
  dsimp only [Option.elim_some]
  unfold Product.onTicker
  rw [hbbo, htrade]
  dsimp only
  rw [List.mem_cons, Except.ok.injEq, Event.bbo.injEq]
  constructor
  · rintro (heq | htrades)
    · exact heq.symm
    · -- what follows the quote is a trade
      split at htrades
      · simp at htrades
      · simp at htrades
  · intro heq
    exact .inl heq.symm

/-- Only a complete ticker of a product gives out a quote, its own. -/
lemma bbo_mem_react_iff {t1Ns nowMs : UInt64} :
    Event.bbo bbo ∈ (react (productFor s payload) payload t1Ns).events ↔
      Quoted s (.message payload t1Ns nowMs) bbo := by
  constructor
  · intro hmem
    -- a message without a product, or of an unknown one, gives nothing out
    rcases hid : coinbaseProductId payload with _ | name
    · have hnone : productFor s payload = none := by rw [productFor, hid, Option.bind_none]
      rw [hnone, react_none_events] at hmem
      cases hmem
    rw [productFor_eq hid] at hmem
    rcases hp : s.productOf name with _ | p
    · rw [hp, react_none_events] at hmem
      cases hmem
    rw [hp] at hmem
    rcases hticker : tickerId name payload with _ | tradeId
    · rw [(react_silent hticker hid p t1Ns).events] at hmem
      cases hmem
    · obtain ⟨seq, h⟩ := tickerId_eq_some.mp hticker
      exact ⟨name, seq, tradeId, p, h, hp, (bbo_mem_react_ticker h).mp hmem⟩
  · rintro ⟨name, seq, tradeId, p, h, hp, hparse⟩
    rw [productFor_eq h.product, hp]
    exact (bbo_mem_react_ticker h).mpr hparse

lemma bbo_mem_step_iff (r : SessionRun) (op : SessionOp) (bbo : NormalizedBbo) :
    Event.bbo bbo ∈ (r.step op).out ↔ Event.bbo bbo ∈ r.out ∨ Quoted r.session op bbo := by
  cases op with
  | connected nowMs => simp [step, Quoted]
  | actionTaken action => simp [step, Quoted]
  | message payload t1Ns nowMs =>
    rw [step_message, List.mem_append, bbo_mem_react_iff]

/-- The quotes of a run are those of its calls. -/
lemma bbo_mem_run_iff (s : Session) (ops : List SessionOp) (bbo : NormalizedBbo) :
    Event.bbo bbo ∈ (run s ops).out ↔
      ∃ before op, before ++ [op] <+: ops ∧ Quoted (run s before).session op bbo := by
  induction ops using List.reverseRecOn with
  | nil => simp [run]
  | append_singleton ops op ih =>
    rw [run_concat, bbo_mem_step_iff, ih]
    constructor
    · rintro (⟨before, op', hpre, hquoted⟩ | hquoted)
      · exact ⟨before, op', hpre.trans (List.prefix_append _ _), hquoted⟩
      · exact ⟨ops, op, List.prefix_refl _, hquoted⟩
    · rintro ⟨before, op', hpre, hquoted⟩
      rcases List.prefix_concat_iff.mp hpre with heq | hpre
      · -- the last call
        obtain ⟨rfl, hop⟩ := List.append_inj' heq rfl
        obtain rfl := List.singleton_inj.mp hop
        exact .inr hquoted
      · exact .inl ⟨before, op', hpre, hquoted⟩

/-! ## Spreads -/

/-- Without overflow, the 16 bits hold the spread exactly when it fits them. -/
lemma exact_iff_narrow {bid ask : Int64} (hfits : SpreadFits bid ask) (hbid : 0 < bid)
    (hlt : bid < ask) :
    ((spreadBps bid ask).toNat : ℤ) = exactSpreadBps bid ask ↔
      exactSpreadBps bid ask < 2 ^ 16 := by
  have hsmall := hfits hbid hlt
  have hpos := Int64.lt_iff_toInt_lt.mp hbid
  have hwide := Int64.lt_iff_toInt_lt.mp hlt
  rw [Int64.toInt_zero] at hpos
  have hexact : ((ask.toInt - bid.toInt) * 10000).bmod (2 ^ 64)
      = (ask.toInt - bid.toInt) * 10000 := Int.bmod_eq_of_le (by omega) (by omega)
  have hnonneg : 0 ≤ (ask.toInt - bid.toInt) * 10000 / bid.toInt :=
    Int.ediv_nonneg (by omega) (by omega)
  -- what is left of the wrapping is the cut to 16 bits
  rw [toNat_spreadBps hbid hlt, narrowedSpreadBps, exactSpreadBps, hexact,
    Int.tdiv_eq_ediv_of_nonneg (by omega)]
  omega

/-- The quote of a ticker that passes the checks has its exact spread when that is narrow. -/
lemma exactSpread_iff {seq tradeId : UInt64} {marketId : UInt32} {t1Ns : UInt64}
    (h : IsTicker name payload seq tradeId) (hfits : QuoteFits payload)
    (hparse : parseCoinbaseTickerBbo marketId payload t1Ns = .ok bbo) :
    ExactSpread bbo ↔ NarrowSpread payload := by
  obtain ⟨bidPrice, hbidPrice⟩ := (h.fields "best_bid" (by decide)).exists_ok
  obtain ⟨bidQty, hbidQty⟩ := (h.fields "best_bid_size" (by decide)).exists_ok
  obtain ⟨askPrice, haskPrice⟩ := (h.fields "best_ask" (by decide)).exists_ok
  obtain ⟨askQty, haskQty⟩ := (h.fields "best_ask_size" (by decide)).exists_ok
  have hseq : (extractJsonIntField payload (keyOf "sequence")).isSome := by
    rw [h.sequence]
    rfl
  obtain ⟨-, -, -, -, -, hspread⟩ :=
    (hfits bidPrice bidQty askPrice askQty hbidPrice hbidQty haskPrice haskQty).2 hseq
  unfold parseCoinbaseTickerBbo at hparse
  rw [hbidPrice, hbidQty, haskPrice, haskQty, h.sequence] at hparse
  cases hparse
  -- both sides speak of the same two prices
  unfold ExactSpread NarrowSpread
  constructor
  · intro hexact bidPrice' askPrice' hbid hask hpos hlt
    obtain rfl := Except.ok.inj (hbidPrice.symm.trans hbid)
    obtain rfl := Except.ok.inj (haskPrice.symm.trans hask)
    exact (exact_iff_narrow hspread hpos hlt).mp (hexact hpos hlt)
  · intro hnarrow hpos hlt
    exact (exact_iff_narrow hspread hpos hlt).mpr
      (hnarrow bidPrice askPrice hbidPrice haskPrice hpos hlt)

/-- A call that passes the checks gives out exact spreads only, when its spread is narrow. -/
lemma spreadKept_iff {op : SessionOp} (hfits : OpFits s op) :
    SpreadKept s op ↔ ∀ bbo, Quoted s op bbo → ExactSpread bbo := by
  cases op with
  | connected nowMs => simp [SpreadKept, Quoted]
  | actionTaken action => simp [SpreadKept, Quoted]
  | message payload t1Ns nowMs =>
    have hquote : ∀ {name seq tradeId p}, IsTicker name payload seq tradeId →
        s.productOf name = some p → QuoteFits payload :=
      fun h hp => ((hfits.ticker h.type).known _ _ h.product hp).quote
    constructor
    · rintro hkept bbo ⟨name, seq, tradeId, p, h, hp, hparse⟩
      refine (exactSpread_iff h (hquote h hp) hparse).mpr (hkept name seq tradeId h ?_)
      rw [hp]
      rfl
    · intro hexact name seq tradeId h hknown
      obtain ⟨p, hp⟩ := Option.isSome_iff_exists.mp hknown
      obtain ⟨bbo, hparse, -, -⟩ := h.parseBbo p.marketId t1Ns
      refine (exactSpread_iff h (hquote h hp) hparse).mp (hexact bbo ?_)
      exact ⟨name, seq, tradeId, p, h, hp, hparse⟩

/-- A run is free of overflow exactly when each of its calls fits the session it finds. -/
theorem overflow_free_iff (s : Session) (ops : List SessionOp) :
    OverflowFree s ops ↔
      ∀ before op, before ++ [op] <+: ops → CallFits (run s before).session op := by
  constructor
  · rintro ⟨hpasses, hspreads⟩ before op hpre
    have hfits := (yields_run s ops).eq_some_iff.mp hpasses before op hpre
    refine ⟨hfits, (spreadKept_iff hfits).mpr fun bbo hquoted => hspreads bbo ?_⟩
    exact (bbo_mem_run_iff s ops bbo).mpr ⟨before, op, hpre, hquoted⟩
  · intro hall
    refine ⟨(yields_run s ops).eq_some_iff.mpr fun before op hpre => (hall before op hpre).checks,
      fun bbo hmem => ?_⟩
    obtain ⟨before, op, hpre, hquoted⟩ := (bbo_mem_run_iff s ops bbo).mp hmem
    have hcall := hall before op hpre
    exact (spreadKept_iff hcall.checks).mp hcall.spread bbo hquoted

/-- A ticker with the sequence number `2^64 + 1`. -/
def longSequence : List UInt8 :=
  Bytes.ofString ("\x7b\"type\":\"ticker\",\"sequence\":18446744073709551617," ++
    "\"product_id\":\"BTC-USD\",\"price\":\"1\",\"best_bid\":\"1\",\"best_bid_size\":\"1\"," ++
    "\"best_ask\":\"2\",\"best_ask_size\":\"1\",\"side\":\"buy\",\"trade_id\":1,\"last_size\":\"1\"\x7d")

/-- A new session, which has no ids, stops at it, and without checks stores the number 1. -/
theorem longSequence_overflows :
    oneProduct.products.map (fun p => (p.lastSeq, p.lastTradeId)) = [(none, none)] ∧
      oneProduct.checkedOnMessage longSequence 1 1 [] = none ∧
      (oneProduct.onMessage longSequence 1 1 []).session.products.map (·.lastSeq) = [some 1] ∧
      ¬ OverflowFree oneProduct [.message longSequence 1 1] := by
  refine ⟨rfl, by decide +kernel, by decide +kernel, fun h => ?_⟩
  have hstops : checkedRun oneProduct [.message longSequence 1 1]
      ≠ some (run oneProduct [.message longSequence 1 1]) := by decide +kernel
  exact hstops h.passes

end ChainMarketPrice.LiveFeed
