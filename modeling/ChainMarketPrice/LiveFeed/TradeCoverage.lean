import ChainMarketPrice.LiveFeed.TradeOrder

/-!
# No trade is lost to deduplication

A product remembers the highest trade id it has given out and nothing else. A trade that comes
behind a higher one is therefore dropped whether it was given out before or not, and so is a
trade with id zero. Exactly when the tickers of each product come in order, apart from
repetitions, no new trade is dropped (`no_trade_swallowed`).
-/

namespace ChainMarketPrice.LiveFeed

open CefiIngest Session SessionRun

/-- The events that a message appends after some calls. -/
def eventsAfter (s : Session) (before : List SessionOp) (payload : List UInt8)
    (t1Ns nowMs : UInt64) : List Event :=
  ((run s before).step (.message payload t1Ns nowMs)).out.drop (run s before).out.length

/-- Where a message appends its quote but no trade, the trade was given out before. -/
def NoTradeSwallowed (s : Session) (ops : List SessionOp) : Prop :=
  ∀ before payload t1Ns nowMs after, ops = before ++ .message payload t1Ns nowMs :: after →
    ∀ bbo, .bbo bbo ∈ eventsAfter s before payload t1Ns nowMs →
      trades (eventsAfter s before payload t1Ns nowMs) = [] →
      ∃ t ∈ trades (run s before).out, t.marketId = bbo.marketId ∧
        extractJsonIntField payload (keyOf "trade_id") = some t.tradeId

/-- A complete ticker has a trade id, not zero, that its product had before or that is above all
those it had. -/
def InOrder (names : List (List UInt8)) (before : List SessionOp) : SessionOp → Prop
  | .message payload _ _ => ∀ name ∈ names, ∀ tradeId ∈ tickerId name payload,
      tradeId ≠ 0 ∧
        (tradeId ∈ tickerIds name before ∨ ∀ id ∈ tickerIds name before, id < tradeId)
  | _ => True

/-- All tickers among the calls come in order. -/
def TickersInOrder (names : List (List UInt8)) (ops : List SessionOp) : Prop :=
  ∀ before op after, ops = before ++ op :: after → InOrder names before op

instance decidableInOrder (names : List (List UInt8)) (before : List SessionOp) :
    (op : SessionOp) → Decidable (InOrder names before op)
  | .connected _ => inferInstanceAs (Decidable True)
  | .actionTaken _ => inferInstanceAs (Decidable True)
  -- by Boolean tests of the lists, so that no instance for all numbers of 64 bits is chosen
  | .message payload _ _ =>
    decidable_of_iff
      (names.all fun name => (tickerId name payload).all fun tradeId =>
        tradeId != 0 &&
          ((tickerIds name before).contains tradeId
            || (tickerIds name before).all (· < tradeId)))
      (by simp [InOrder, Option.all_eq_true])

lemma tickersInOrder_nil (names : List (List UInt8)) : TickersInOrder names [] := by
  intro before op after heq
  simp at heq

lemma tickersInOrder_concat {names : List (List UInt8)} {ops : List SessionOp} {op : SessionOp} :
    TickersInOrder names (ops ++ [op]) ↔ TickersInOrder names ops ∧ InOrder names ops op := by
  constructor
  · intro h
    refine ⟨?_, h ops op [] rfl⟩
    intro before op' after heq
    refine h before op' (after ++ [op]) ?_
    rw [heq, List.append_assoc, List.cons_append]
  · intro h before op' after heq
    rcases List.eq_nil_or_concat after with rfl | ⟨after, last, rfl⟩
    · obtain ⟨rfl, hlast⟩ := List.append_inj' heq rfl
      cases hlast
      exact h.2
    · rw [List.concat_eq_append, ← List.cons_append, ← List.append_assoc] at heq
      exact h.1 before op' after (List.append_inj' heq rfl).1

/-- A message of a known product: its events. -/
lemma eventsAfter_eq (s : Session) (before : List SessionOp) (payload : List UInt8)
    (t1Ns nowMs : UInt64) :
    eventsAfter s before payload t1Ns nowMs
      = (react (productFor (run s before).session payload) payload t1Ns).events := by
  unfold eventsAfter
  rw [step_message]
  exact List.drop_left

lemma tradesFor_subset_out (s : Session) (ops : List SessionOp) (name : List UInt8) :
    tradesFor name (run s ops).calls ⊆ trades (run s ops).out := by
  intro t ht
  rw [out_run]
  unfold tradesFor trades at *
  obtain ⟨e, he, heq⟩ := List.mem_filterMap.mp ht
  obtain ⟨c, hc, hec⟩ := List.mem_flatMap.mp he
  refine List.mem_filterMap.mpr ⟨e, ?_, heq⟩
  exact List.mem_flatMap.mpr ⟨c, (List.mem_filter.mp hc).1, hec⟩

lemma tradesFor_run_concat (s : Session) (ops : List SessionOp) (op : SessionOp)
    (name : List UInt8) :
    tradesFor name (run s (ops ++ [op])).calls
      = tradesFor name (run s ops).calls ++ tradesFor name (run (run s ops).session [op]).calls := by
  rw [run_append, tradesFor_append]

/-- While the tickers come in order, the trade of each of them has been given out. -/
lemma tickerIds_covered {names : List (List UInt8)} {ops : List SessionOp}
    (h : TickersInOrder names ops) {name : List UInt8} (hname : name ∈ names)
    (staleAfterMs : UInt64) {id : UInt64} (hid : id ∈ tickerIds name ops) :
    id ∈ (tradesFor name (run (Session.new names staleAfterMs) ops).calls).map (·.tradeId) := by
  obtain ⟨p₀, hp₀, hmark₀⟩ := productOf_new_of_mem hname staleAfterMs
  -- from the end: a ticker repeats an id, and is covered already, or is above them all
  induction ops using List.reverseRecOn with
  | nil => cases hid
  | append_singleton ops op ih =>
    obtain ⟨hops, hop⟩ := tickersInOrder_concat.mp h
    rw [tradesFor_run_concat, List.map_append]
    rw [tickerIds_concat] at hid
    rcases List.mem_append.mp hid with hid | hid
    · exact List.mem_append_left _ (ih hops hid)
    · obtain ⟨payload, t1Ns, nowMs, rfl, hticker⟩ := mem_tickerIds_singleton hid
      obtain ⟨hpos, hrepeat | habove⟩ := hop name hname id hticker
      · exact List.mem_append_left _ (ih hops hrepeat)
      · obtain ⟨p, hp, -, hemission⟩ := emission_run hp₀ hmark₀ ops
        obtain ⟨sequence, hcomplete⟩ := tickerId_eq_some.mp hticker
        -- above the mark the trade is emitted with the id of the ticker
        obtain ⟨t, ht, -, htid⟩ :=
          trades_react_fresh hcomplete (hemission.above_mark hpos habove) t1Ns
        have hnames : (SessionOp.message payload t1Ns nowMs).Names name := hcomplete.product
        apply List.mem_append_right
        show id ∈ (tradesFor name (step _ (.message payload t1Ns nowMs)).calls).map _
        rw [step_message, tradesFor_concat, if_pos hnames]
        dsimp only
        rw [productFor_eq hcomplete.product, hp, ht]
        exact List.mem_map.mpr ⟨t, List.mem_append_right _ List.mem_cons_self, htid⟩

/-- A message that appends a quote is a complete ticker of a known product. -/
lemma ticker_of_mem_eventsAfter {names : List (List UInt8)} {staleAfterMs : UInt64}
    {before : List SessionOp} {payload : List UInt8} {t1Ns nowMs : UInt64} {e : Event}
    (h : e ∈ eventsAfter (Session.new names staleAfterMs) before payload t1Ns nowMs) :
    ∃ name ∈ names, ∃ sequence tradeId, IsTicker name payload sequence tradeId := by
  rw [eventsAfter_eq] at h
  rcases hproduct : productFor (run (Session.new names staleAfterMs) before).session payload
    with _ | p
  · rw [hproduct, react_none_events] at h
    cases h
  · obtain ⟨name, hname, hp⟩ := Option.bind_eq_some_iff.mp hproduct
    rw [hproduct] at h
    have hmarket := marketId_run (Session.new names staleAfterMs) before name
    rw [hp] at hmarket
    obtain ⟨p₀, hp₀, -⟩ := Option.map_eq_some_iff.mp hmarket.symm
    refine ⟨name, (productOf_new_eq_some hp₀).1, ?_⟩
    rcases hticker : tickerId name payload with _ | tradeId
    · rw [(react_silent hticker hname p t1Ns).events] at h
      cases h
    · obtain ⟨sequence, hcomplete⟩ := tickerId_eq_some.mp hticker
      exact ⟨sequence, tradeId, hcomplete⟩

/-- The events of a complete ticker of a known product, by the state of the product. -/
lemma eventsAfter_ticker {names : List (List UInt8)} {name : List UInt8} (hname : name ∈ names)
    (staleAfterMs : UInt64) (before : List SessionOp) {payload : List UInt8}
    {sequence tradeId : UInt64} (h : IsTicker name payload sequence tradeId) (t1Ns nowMs : UInt64) :
    ∃ p₀ p bbo trade, (Session.new names staleAfterMs).productOf name = some p₀ ∧
      p.marketId = p₀.marketId ∧ bbo.marketId = p₀.marketId ∧ trade.tradeId = tradeId ∧
      Emission name p before (run (Session.new names staleAfterMs) before).calls ∧
      eventsAfter (Session.new names staleAfterMs) before payload t1Ns nowMs
        = .bbo bbo :: if tradeId > p.maxEmittedTradeId then [.trade trade] else [] := by
  obtain ⟨p₀, hp₀, hmark₀⟩ := productOf_new_of_mem hname staleAfterMs
  obtain ⟨p, hp, hpm, hemission⟩ := emission_run hp₀ hmark₀ before
  obtain ⟨bbo, trade, hmarket, -, -, -, htrade, hreact⟩ := react_ticker h p t1Ns
  refine ⟨p₀, p, bbo, trade, hp₀, hpm, hmarket.trans hpm, htrade, hemission, ?_⟩
  rw [eventsAfter_eq, productFor_eq h.product, hp, hreact]

lemma noTradeSwallowed_of_inOrder {names : List (List UInt8)} {ops : List SessionOp}
    (h : TickersInOrder names ops) (staleAfterMs : UInt64) :
    NoTradeSwallowed (Session.new names staleAfterMs) ops := by
  intro before payload t1Ns nowMs after hops bbo hbbo hnone
  obtain ⟨name, hname, sequence, tradeId, hcomplete⟩ := ticker_of_mem_eventsAfter hbbo
  obtain ⟨p₀, p, bbo', trade, hp₀, hpm, hmarket, -, hemission, hevents⟩ :=
    eventsAfter_ticker hname staleAfterMs before hcomplete t1Ns nowMs
  have hold : ¬ tradeId > p.maxEmittedTradeId := by
    intro hnew
    rw [hevents, if_pos hnew] at hnone
    cases hnone
  have hsame : bbo = bbo' := by
    rw [hevents, if_neg hold] at hbbo
    cases List.mem_singleton.mp hbbo
    rfl
  -- the ticker does not get above the mark, so its product had the id before
  have hop : InOrder names before (.message payload t1Ns nowMs) := h before _ after hops
  obtain ⟨hpos, hrepeat | habove⟩ :=
    hop name hname tradeId (tickerId_eq_some.mpr ⟨sequence, hcomplete⟩)
  · have hbefore : TickersInOrder names before := by
      intro before' op after' heq
      refine h before' op (after' ++ .message payload t1Ns nowMs :: after) ?_
      rw [hops, heq, List.append_assoc, List.cons_append]
    obtain ⟨t, ht, htid⟩ := List.mem_map.mp (tickerIds_covered hbefore hname staleAfterMs hrepeat)
    refine ⟨t, tradesFor_subset_out _ _ name ht, ?_, ?_⟩
    · rw [hemission.market t ht, hsame, hmarket, hpm]
    · rw [htid, hcomplete.tradeId]
  · exact absurd (hemission.above_mark hpos habove) hold

lemma inOrder_of_noTradeSwallowed {names : List (List UInt8)} (hnames : names.length ≤ 2 ^ 32)
    {staleAfterMs : UInt64} {ops : List SessionOp}
    (h : NoTradeSwallowed (Session.new names staleAfterMs) ops) : TickersInOrder names ops := by
  intro before op after hops
  cases op with
  | connected nowMs => trivial
  | actionTaken action => trivial
  | message payload t1Ns nowMs =>
    intro name hname tradeId hticker
    obtain ⟨sequence, hcomplete⟩ := tickerId_eq_some.mp hticker
    obtain ⟨p₀, p, bbo, trade, hp₀, hpm, hmarket, -, hemission, hevents⟩ :=
      eventsAfter_ticker hname staleAfterMs before hcomplete t1Ns nowMs
    by_cases hnew : tradeId > p.maxEmittedTradeId
    · refine ⟨?_, .inr ?_⟩
      · intro hzero
        rw [hzero] at hnew
        exact absurd hnew (UInt64.not_lt.mpr UInt64.zero_le)
      · intro id hid
        exact UInt64.lt_of_le_of_lt (hemission.bound id hid) hnew
    · rw [if_neg hnew] at hevents
      have hbbo : .bbo bbo ∈ eventsAfter (Session.new names staleAfterMs) before payload t1Ns
          nowMs := by
        rw [hevents]
        exact List.mem_cons_self
      have hnone : trades (eventsAfter (Session.new names staleAfterMs) before payload t1Ns
          nowMs) = [] := by
        rw [hevents]
        rfl
      obtain ⟨t, ht, htm, htid⟩ := h before payload t1Ns nowMs after hops bbo hbbo hnone
      -- with distinct market ids, the trade was given out for this product
      have hown : t ∈ tradesFor name (run (Session.new names staleAfterMs) before).calls := by
        rw [← filter_trades_out (marketsDistinct_new hnames staleAfterMs) hp₀]
        exact List.mem_filter.mpr ⟨ht, decide_eq_true (htm.trans hmarket)⟩
      have heq : t.tradeId = tradeId := by
        rw [hcomplete.tradeId, Option.some.injEq] at htid
        exact htid.symm
      rw [← heq]
      exact ⟨(hemission.source t hown).2, .inl (hemission.source t hown).1⟩

/-- In every run whose tickers come in order, no new trade is swallowed; and in no other run, as
long as the market ids of the products are distinct. -/
theorem no_trade_swallowed (names : List (List UInt8)) (staleAfterMs : UInt64)
    (ops : List SessionOp) :
    (TickersInOrder names ops → NoTradeSwallowed (Session.new names staleAfterMs) ops) ∧
    (names.length ≤ 2 ^ 32 → NoTradeSwallowed (Session.new names staleAfterMs) ops →
      TickersInOrder names ops) :=
  ⟨fun h => noTradeSwallowed_of_inOrder h staleAfterMs,
    fun hnames h => inOrder_of_noTradeSwallowed hnames h⟩

/-- A ticker that comes behind a later one. -/
def lateOps : List SessionOp :=
  [.message (tickerBytes "BTC-USD" "10" "100") 1 1, .message (tickerBytes "BTC-USD" "12" "102") 2 2,
    .message (tickerBytes "BTC-USD" "11" "101") 3 3]

/-- Trade 101 comes behind trade 102 and is not given out. -/
theorem late_trade_swallowed : ¬ NoTradeSwallowed (Session.new [btcUsd] 10000) lateOps := by
  intro h
  have horder := inOrder_of_noTradeSwallowed (by decide) h
  have hlate : ¬ InOrder [btcUsd] (lateOps.take 2)
      (.message (tickerBytes "BTC-USD" "11" "101") 3 3) := by decide +kernel
  exact hlate (horder (lateOps.take 2) _ [] rfl)

theorem no_trade_swallowed_resetOps :
    TickersInOrder [btcUsd, ethUsd] resetOps ∧
    NoTradeSwallowed (Session.new [btcUsd, ethUsd] 10000) resetOps := by
  have horder : TickersInOrder [btcUsd, ethUsd] resetOps := by
    have h0 := tickersInOrder_nil [btcUsd, ethUsd]
    have h1 := tickersInOrder_concat.mpr ⟨h0, show InOrder _ _ (.connected 0) from trivial⟩
    have h2 := tickersInOrder_concat.mpr ⟨h1, show InOrder _ _
      (.message (tickerBytes "BTC-USD" "10" "100") 1 1) by decide +kernel⟩
    have h3 := tickersInOrder_concat.mpr ⟨h2, show InOrder _ _
      (.message (tickerBytes "ETH-USD" "7" "100") 2 2) by decide +kernel⟩
    have h4 := tickersInOrder_concat.mpr ⟨h3, show InOrder _ _
      (.actionTaken (.resubscribe .serverError)) from trivial⟩
    exact tickersInOrder_concat.mpr ⟨h4, show InOrder _ _
      (.message (tickerBytes "BTC-USD" "10" "100") 3 3) by decide +kernel⟩
  exact ⟨horder, (no_trade_swallowed [btcUsd, ethUsd] 10000 resetOps).1 horder⟩

end ChainMarketPrice.LiveFeed
