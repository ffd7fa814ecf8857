import ChainMarketPrice.CefiIngest.JsonTheorems
import ChainMarketPrice.LiveFeed.SessionRunTheorems

/-!
# The trades a session gives out

A product gives out the trade of a complete ticker when its id is above the high-water mark,
and nothing for other messages. Over a run the trades given out for a product have
increasing ids, the last one at the mark (`emission_run`), whatever resets come between.
-/

namespace ChainMarketPrice.LiveFeed

open CefiIngest Session SessionRun

/-! ## Tickers and other messages -/

lemma tickerId_eq_some {name payload : List UInt8} {tradeId : UInt64} :
    tickerId name payload = some tradeId ↔ ∃ sequence, IsTicker name payload sequence tradeId := by
  unfold tickerId
  constructor
  · intro h
    split at h
    · rename_i hfields
      obtain ⟨htype, hid, hseq, hfields⟩ := hfields
      obtain ⟨sequence, hsequence⟩ := Option.isSome_iff_exists.mp hseq
      exact ⟨sequence, htype, hid, hsequence, h, hfields⟩
    · cases h
  · rintro ⟨sequence, h⟩
    rw [if_pos ⟨h.type, h.product, by rw [h.sequence]; rfl, h.fields⟩]
    exact h.tradeId

lemma hasStrField_of_ok {payload value : List UInt8} {name : String}
    (h : extractJsonStrField payload (keyOf name) = .ok value) : HasStrField payload name := by
  unfold HasStrField
  rw [h]
  rfl

/-- A message whose quote and trade are both read is a complete ticker. -/
lemma isTicker_of_parse {name payload : List UInt8} {marketId : UInt32} {t1Ns : UInt64}
    {bbo : NormalizedBbo} {trade : UnifiedTrade}
    (htype : CefiParser.coinbaseMessageType payload = some (Bytes.ofString "ticker"))
    (hid : CefiParser.coinbaseProductId payload = some name)
    (hbbo : CefiParser.parseCoinbaseTickerBbo marketId payload t1Ns = .ok bbo)
    (htrade : CefiParser.parseCoinbaseTickerTrade marketId payload t1Ns = .ok trade) :
    ∃ sequence tradeId, IsTicker name payload sequence tradeId := by
  obtain ⟨bid, hbid, hbbo⟩ := exists_of_bind_eq_ok hbbo
  obtain ⟨bidSize, hbidSize, hbbo⟩ := exists_of_bind_eq_ok hbbo
  obtain ⟨ask, hask, hbbo⟩ := exists_of_bind_eq_ok hbbo
  obtain ⟨askSize, haskSize, hbbo⟩ := exists_of_bind_eq_ok hbbo
  obtain ⟨sequence, hsequence, -⟩ := exists_of_bind_eq_ok hbbo
  obtain ⟨price, hprice, htrade⟩ := exists_of_bind_eq_ok htrade
  obtain ⟨size, hsize, htrade⟩ := exists_of_bind_eq_ok htrade
  obtain ⟨side, hside, htrade⟩ := exists_of_bind_eq_ok htrade
  obtain ⟨tradeId, htradeId, -⟩ := exists_of_bind_eq_ok htrade
  have hsequence := eq_some_of_elim_eq_ok hsequence
  have htradeId := eq_some_of_elim_eq_ok htradeId
  refine ⟨sequence, tradeId, htype, hid, hsequence, htradeId, ?_⟩
  unfold tickerFields
  simp only [List.forall_mem_cons]
  exact ⟨hasStrField_of_ok hbid, hasStrField_of_ok hbidSize, hasStrField_of_ok hask,
    hasStrField_of_ok haskSize, hasStrField_of_ok hprice, hasStrField_of_ok hsize,
    hasStrField_of_ok hside, by simp⟩

/-- A complete ticker: the quote, the trade if it is above the mark, and the checks. -/
lemma react_ticker {name payload : List UInt8} {sequence tradeId : UInt64}
    (h : IsTicker name payload sequence tradeId) (p : Product) (t1Ns : UInt64) :
    ∃ bbo trade, bbo.marketId = p.marketId ∧ bbo.sequence = sequence ∧
      trade.marketId = p.marketId ∧ trade.sequence = sequence ∧ trade.tradeId = tradeId ∧
      react (some p) payload t1Ns
        = ⟨some (p.afterTicker sequence tradeId),
            .bbo bbo :: if tradeId > p.maxEmittedTradeId then [.trade trade] else [],
            (checkTicker p {} sequence tradeId).1⟩ := by
  obtain ⟨bbo, hbbo, hmarket, rfl⟩ := h.parseBbo p.marketId t1Ns
  obtain ⟨trade, htrade, hmarket', hsequence, rfl⟩ := h.parseTrade p.marketId t1Ns
  refine ⟨bbo, trade, hmarket, rfl, hmarket', hsequence, rfl, ?_⟩
  unfold react
  rw [h.type]
  dsimp only
  rw [if_pos rfl]
  dsimp only [Option.elim_some]
  unfold Product.onTicker
  rw [hbbo, htrade]

/-- Any other message of a product gives nothing out and keeps the mark. -/
structure Silent (p : Product) (r : Reaction) : Prop where
  events : r.events = []
  product : ∃ p', r.product = some p' ∧ p'.marketId = p.marketId ∧
    p'.maxEmittedTradeId = p.maxEmittedTradeId

lemma Product.onHeartbeat_silent (p : Product) (payload : List UInt8) :
    Silent p (p.onHeartbeat payload) := by
  unfold Product.onHeartbeat
  split
  · split
    · split
      · exact ⟨rfl, p, rfl, rfl, rfl⟩
      · exact ⟨rfl, _, rfl, rfl, rfl⟩
    · exact ⟨rfl, p, rfl, rfl, rfl⟩
  · exact ⟨rfl, p, rfl, rfl, rfl⟩

lemma react_silent {name payload : List UInt8} (h : tickerId name payload = none)
    (hid : CefiParser.coinbaseProductId payload = some name) (p : Product) (t1Ns : UInt64) :
    Silent p (react (some p) payload t1Ns) := by
  unfold react
  split
  · exact ⟨rfl, p, rfl, rfl, rfl⟩
  · rename_i ty htype
    split
    · rename_i hticker
      rw [hticker] at htype
      dsimp only [Option.elim_some]
      unfold Product.onTicker
      split
      · rename_i bbo trade hbbo htrade
        obtain ⟨sequence, tradeId, hcomplete⟩ := isTicker_of_parse htype hid hbbo htrade
        rw [tickerId_eq_some.mpr ⟨sequence, hcomplete⟩] at h
        cases h
      · exact ⟨rfl, p, rfl, rfl, rfl⟩
    · split
      · exact p.onHeartbeat_silent payload
      · split
        · exact ⟨rfl, p, rfl, rfl, rfl⟩
        · exact ⟨rfl, p, rfl, rfl, rfl⟩

lemma react_none_events (payload : List UInt8) (t1Ns : UInt64) :
    (react none payload t1Ns).events = [] := by
  unfold react
  split
  · rfl
  · split
    · rfl
    · split
      · rfl
      · split
        · rfl
        · rfl

lemma react_none_product (payload : List UInt8) (t1Ns : UInt64) :
    (react none payload t1Ns).product = none := by
  unfold react
  split
  · rfl
  · split
    · rfl
    · split
      · rfl
      · split
        · rfl
        · rfl

/-! ## The high-water mark -/

lemma trades_append (events events' : List Event) :
    trades (events ++ events') = trades events ++ trades events' := List.filterMap_append

lemma tradesFor_append (name : List UInt8) (calls calls' : List Call) :
    tradesFor name (calls ++ calls') = tradesFor name calls ++ tradesFor name calls' := by
  unfold tradesFor ownCalls
  rw [List.filter_append, List.flatMap_append, trades_append]

lemma tradesFor_concat (name : List UInt8) (calls : List Call) (c : Call) :
    tradesFor name (calls ++ [c])
      = tradesFor name calls ++ if c.op.Names name then trades c.events else [] := by
  unfold tradesFor
  rw [ownCalls_concat]
  split
  · rw [List.flatMap_append, trades_append, List.flatMap_singleton]
  · rw [List.append_nil]

/-- A call that gives out no trade of the product. -/
lemma tradesFor_concat_silent {name : List UInt8} {c : Call}
    (h : c.op.Names name → trades c.events = []) (calls : List Call) :
    tradesFor name (calls ++ [c]) = tradesFor name calls := by
  rw [tradesFor_concat]
  split
  · rename_i hnames
    rw [h hnames, List.append_nil]
  · rw [List.append_nil]

lemma tickerIds_concat (name : List UInt8) (ops : List SessionOp) (op : SessionOp) :
    tickerIds name (ops ++ [op]) = tickerIds name ops ++ tickerIds name [op] :=
  List.filterMap_append

lemma tickerIds_message (name payload : List UInt8) (t1Ns nowMs : UInt64) :
    tickerIds name [.message payload t1Ns nowMs] = (tickerId name payload).toList := by
  unfold tickerIds
  rcases h : tickerId name payload with _ | tradeId
  · simp [h]
  · simp [h]

lemma mem_tickerIds_singleton {name : List UInt8} {op : SessionOp} {id : UInt64}
    (h : id ∈ tickerIds name [op]) :
    ∃ payload t1Ns nowMs, op = .message payload t1Ns nowMs ∧ tickerId name payload = some id := by
  cases op with
  | connected nowMs => cases h
  | actionTaken action => cases h
  | message payload t1Ns nowMs =>
    rw [tickerIds_message] at h
    exact ⟨payload, t1Ns, nowMs, rfl, Option.mem_toList.mp h⟩

lemma tickerId_of_ne {name payload : List UInt8}
    (h : CefiParser.coinbaseProductId payload ≠ some name) : tickerId name payload = none := by
  unfold tickerId
  rw [if_neg fun hfields => h hfields.2.1]

/-- What the trades given out for a product have to do with its tickers and its mark. -/
structure Emission (name : List UInt8) (p : Product) (ops : List SessionOp) (calls : List Call) :
    Prop where
  bound : ∀ id ∈ tickerIds name ops, id ≤ p.maxEmittedTradeId
  mark : p.maxEmittedTradeId ≠ 0 → p.maxEmittedTradeId ∈ (tradesFor name calls).map (·.tradeId)
  ascending : (tradesFor name calls).Pairwise (·.tradeId < ·.tradeId)
  market : ∀ t ∈ tradesFor name calls, t.marketId = p.marketId
  source : ∀ t ∈ tradesFor name calls, t.tradeId ∈ tickerIds name ops ∧ t.tradeId ≠ 0

/-- A call that gives out no trade of the product and keeps its mark. -/
lemma Emission.silent {name : List UInt8} {p p' : Product} {ops : List SessionOp}
    {calls : List Call} (h : Emission name p ops calls) {op : SessionOp} {c : Call}
    (hmarket : p'.marketId = p.marketId) (hmark : p'.maxEmittedTradeId = p.maxEmittedTradeId)
    (hids : tickerIds name [op] = []) (htrades : c.op.Names name → trades c.events = []) :
    Emission name p' (ops ++ [op]) (calls ++ [c]) := by
  have hops : tickerIds name (ops ++ [op]) = tickerIds name ops := by
    rw [tickerIds_concat, hids, List.append_nil]
  have hcalls : tradesFor name (calls ++ [c]) = tradesFor name calls :=
    tradesFor_concat_silent htrades calls
  constructor
  · rw [hops, hmark]
    exact h.bound
  · rw [hcalls, hmark]
    exact h.mark
  · rw [hcalls]
    exact h.ascending
  · rw [hcalls, hmarket]
    exact h.market
  · rw [hcalls, hops]
    exact h.source

/-- An id above all the tickers so far is above the mark. -/
lemma Emission.above_mark {name : List UInt8} {p : Product} {ops : List SessionOp}
    {calls : List Call} (h : Emission name p ops calls) {tradeId : UInt64} (hpos : tradeId ≠ 0)
    (habove : ∀ id ∈ tickerIds name ops, id < tradeId) : tradeId > p.maxEmittedTradeId := by
  by_cases hzero : p.maxEmittedTradeId = 0
  · rw [hzero]
    exact UInt64.pos_iff_ne_zero.mpr hpos
  · obtain ⟨t, ht, htid⟩ := List.mem_map.mp (h.mark hzero)
    rw [← htid]
    exact habove _ (h.source t ht).1

/-- A complete ticker of the product. -/
lemma Emission.ticker {name payload : List UInt8} {p : Product} {ops : List SessionOp}
    {calls : List Call} (h : Emission name p ops calls) {sequence tradeId : UInt64}
    (hticker : IsTicker name payload sequence tradeId) (t1Ns nowMs : UInt64) :
    Emission name (p.afterTicker sequence tradeId) (ops ++ [.message payload t1Ns nowMs])
      (calls ++ [⟨.message payload t1Ns nowMs, (react (some p) payload t1Ns).events,
        (react (some p) payload t1Ns).action⟩]) := by
  obtain ⟨bbo, trade, -, -, hmarket, -, rfl, hreact⟩ := react_ticker hticker p t1Ns
  have hops : tickerIds name (ops ++ [.message payload t1Ns nowMs])
      = tickerIds name ops ++ [trade.tradeId] := by
    rw [tickerIds_concat, tickerIds_message, tickerId_eq_some.mpr ⟨sequence, hticker⟩]
    rfl
  have hcalls : tradesFor name (calls ++ [⟨.message payload t1Ns nowMs,
      (react (some p) payload t1Ns).events, (react (some p) payload t1Ns).action⟩])
      = tradesFor name calls ++ if trade.tradeId > p.maxEmittedTradeId then [trade] else [] := by
    have hnames : (SessionOp.message payload t1Ns nowMs).Names name := hticker.product
    rw [tradesFor_concat, if_pos hnames, hreact]
    split
    · rfl
    · rfl
  by_cases hnew : trade.tradeId > p.maxEmittedTradeId
  · have hmark : (p.afterTicker sequence trade.tradeId).maxEmittedTradeId = trade.tradeId :=
      if_pos hnew
    rw [if_pos hnew] at hcalls
    -- every id before is at most the old mark, which the new trade is above
    have habove : ∀ t ∈ tradesFor name calls, t.tradeId < trade.tradeId := by
      intro t ht
      exact UInt64.lt_of_le_of_lt (h.bound _ (h.source t ht).1) hnew
    constructor
    · rw [hops, hmark]
      intro id hid
      rcases List.mem_append.mp hid with hid | hid
      · exact UInt64.le_of_lt (UInt64.lt_of_le_of_lt (h.bound id hid) hnew)
      · rw [List.mem_singleton.mp hid]
        exact UInt64.le_refl _
    · intro _
      rw [hcalls, hmark]
      exact List.mem_map.mpr ⟨trade, List.mem_append_right _ List.mem_cons_self, rfl⟩
    · rw [hcalls, List.pairwise_append]
      refine ⟨h.ascending, List.pairwise_singleton _ _, ?_⟩
      intro t ht t' ht'
      rw [List.mem_singleton.mp ht']
      exact habove t ht
    · rw [hcalls]
      intro t ht
      rcases List.mem_append.mp ht with ht | ht
      · exact h.market t ht
      · rw [List.mem_singleton.mp ht]
        exact hmarket
    · rw [hcalls, hops]
      intro t ht
      rcases List.mem_append.mp ht with ht | ht
      · exact ⟨List.mem_append_left _ (h.source t ht).1, (h.source t ht).2⟩
      · rw [List.mem_singleton.mp ht]
        refine ⟨List.mem_append_right _ List.mem_cons_self, ?_⟩
        intro hzero
        rw [hzero] at hnew
        exact absurd hnew (UInt64.not_lt.mpr UInt64.zero_le)
  · have hmark : (p.afterTicker sequence trade.tradeId).maxEmittedTradeId
        = p.maxEmittedTradeId := if_neg hnew
    rw [if_neg hnew, List.append_nil] at hcalls
    constructor
    · rw [hops, hmark]
      intro id hid
      rcases List.mem_append.mp hid with hid | hid
      · exact h.bound id hid
      · rw [List.mem_singleton.mp hid]
        exact UInt64.not_lt.mp hnew
    · rw [hcalls, hmark]
      exact h.mark
    · rw [hcalls]
      exact h.ascending
    · rw [hcalls]
      exact h.market
    · rw [hcalls, hops]
      intro t ht
      exact ⟨List.mem_append_left _ (h.source t ht).1, (h.source t ht).2⟩

/-- A ticker above the mark gives out its trade. -/
lemma trades_react_fresh {name payload : List UInt8} {sequence tradeId : UInt64}
    (h : IsTicker name payload sequence tradeId) {p : Product} (hnew : tradeId > p.maxEmittedTradeId)
    (t1Ns : UInt64) :
    ∃ t, trades (react (some p) payload t1Ns).events = [t] ∧ t.marketId = p.marketId ∧
      t.tradeId = tradeId := by
  obtain ⟨bbo, trade, -, -, hmarket, -, htrade, hreact⟩ := react_ticker h p t1Ns
  refine ⟨trade, ?_, hmarket, htrade⟩
  rw [hreact, if_pos hnew]
  rfl

/-- A product that starts with an empty mark keeps its trades in order through any calls. -/
lemma emission_run {s : Session} {name : List UInt8} {p₀ : Product}
    (hp : s.productOf name = some p₀) (hmark : p₀.maxEmittedTradeId = 0) (ops : List SessionOp) :
    ∃ p, (run s ops).session.productOf name = some p ∧ p.marketId = p₀.marketId ∧
      Emission name p ops (run s ops).calls := by
  -- of the last call only a complete ticker of this product can move the mark
  induction ops using List.reverseRecOn with
  | nil =>
    refine ⟨p₀, hp, rfl, ?_, ?_, ?_, ?_, ?_⟩
    · simp [tickerIds]
    · intro hne
      exact absurd hmark hne
    · exact List.Pairwise.nil
    · simp [run, tradesFor, ownCalls, trades]
    · simp [run, tradesFor, ownCalls, trades]
  | append_singleton ops op ih =>
    obtain ⟨p, hp, hmarket, hemission⟩ := ih
    rw [run_concat, productOf_step, hp]
    cases op with
    | connected nowMs =>
      refine ⟨_, rfl, hmarket, hemission.silent rfl rfl rfl ?_⟩
      intro hnames
      rfl
    | actionTaken action =>
      refine ⟨_, rfl, hmarket, hemission.silent rfl rfl rfl ?_⟩
      intro hnames
      rfl
    | message payload t1Ns nowMs =>
      rw [step_message]
      unfold follow
      dsimp only
      by_cases hname : CefiParser.coinbaseProductId payload = some name
      · rw [if_pos hname, productFor_eq hname, hp]
        rcases hticker : tickerId name payload with _ | tradeId
        · obtain ⟨hevents, p', hp', hmarket', hmark'⟩ := react_silent hticker hname p t1Ns
          refine ⟨p', hp', hmarket'.trans hmarket, hemission.silent hmarket' hmark' ?_ ?_⟩
          · rw [tickerIds_message, hticker]
            rfl
          · intro _
            dsimp only
            rw [hevents]
            rfl
        · obtain ⟨sequence, hcomplete⟩ := tickerId_eq_some.mp hticker
          refine ⟨p.afterTicker sequence tradeId, ?_, hmarket, hemission.ticker hcomplete _ _⟩
          obtain ⟨bbo, trade, -, -, -, -, -, hreact⟩ := react_ticker hcomplete p t1Ns
          rw [hreact]
      · rw [if_neg hname]
        refine ⟨p, rfl, hmarket, hemission.silent rfl rfl ?_ ?_⟩
        · rw [tickerIds_message, tickerId_of_ne hname]
          rfl
        · intro hnames
          exact absurd hnames hname

end ChainMarketPrice.LiveFeed
