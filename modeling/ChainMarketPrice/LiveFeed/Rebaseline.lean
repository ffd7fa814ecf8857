import ChainMarketPrice.LiveFeed.TradeOrder

/-!
# Tickers in flight during a resubscription

The runner clears the baselines before the exchange gets the new subscription. Tickers of the
old one may still arrive; the first of them becomes the baseline, and the snapshot that follows
repeats the last of them, so that the session takes it for a regression. The resubscription is
tolerated exactly when no ticker is in flight (`tolerated_iff`).
-/

namespace ChainMarketPrice.LiveFeed

open CefiIngest Session SessionRun

/-- A ticker of the exchange. -/
structure Ticker where
  sequence : UInt64
  tradeId : UInt64
  payload : List UInt8
deriving Repr, DecidableEq

/-- Consecutive tickers of a product. -/
structure TickerStream (name : List UInt8) (tickers : List Ticker) : Prop where
  carries : ∀ t ∈ tickers, IsTicker name t.payload t.sequence t.tradeId
  increasing : tickers.Pairwise (·.sequence < ·.sequence)
  consecutive : tickers.IsChain fun t t' => t'.tradeId.toNat = t.tradeId.toNat + 1

/-- A session that follows a product and is told that it has resubscribed. The last ticker of
the product before is the newest one; `inflight` and `further` continue the stream, and the
snapshot between them repeats the last ticker before it. Messages of other products may come in
between. -/
structure Resubscription where
  names : List (List UInt8)
  staleAfterMs : UInt64
  name : List UInt8
  history : List SessionOp
  reason : Reason
  newest : Ticker
  inflight : List Ticker
  snapshot : List UInt8
  further : List Ticker
  after : List Delivery
  known : name ∈ names
  followed : ∃ before t1Ns nowMs rest,
    history = before ++ .message newest.payload t1Ns nowMs :: rest ∧ tickerIds name rest = []
  newest_le : ∀ id ∈ tickerIds name history, id ≤ newest.tradeId
  stream : TickerStream name (newest :: (inflight ++ further))
  repeats : IsTicker name snapshot (inflight.getLastD newest).sequence
    (inflight.getLastD newest).tradeId
  received : (ownDeliveries name after).map (·.payload)
    = inflight.map (·.payload) ++ snapshot :: further.map (·.payload)

namespace Resubscription

/-- The run up to the resubscription. -/
def before (r : Resubscription) : SessionRun :=
  run (Session.new r.names r.staleAfterMs)
    (r.history ++ [.actionTaken (.resubscribe r.reason)])

/-- The run from the resubscription on. -/
def afterwards (r : Resubscription) : SessionRun :=
  run r.before.session (r.after.map Delivery.op)

/-- The trade ids of the product's messages after the resubscription. -/
def tradeIds (r : Resubscription) : List UInt64 :=
  r.inflight.map (·.tradeId) ++ (r.inflight.getLastD r.newest).tradeId :: r.further.map (·.tradeId)

/-- No message of the product is answered by an action, and the trades that were not given out
before are given out once. -/
def Tolerated (r : Resubscription) : Prop :=
  (∀ c ∈ ownCalls r.name r.afterwards.calls, c.action = none) ∧
  ∀ id ∈ r.tradeIds, id ∉ (tradesFor r.name r.before.calls).map (·.tradeId) →
    ((tradesFor r.name r.afterwards.calls).map (·.tradeId)).count id = 1

end Resubscription

/-! ## The checks of one ticker -/

/-- A sequence number that is not newer is a regression, whatever the trade id. -/
lemma checkTicker_regression {p : Product} {last sequence : UInt64} (hlast : p.lastSeq = some last)
    (hle : sequence ≤ last) (stats : Stats) (tradeId : UInt64) :
    (checkTicker p stats sequence tradeId).1
      = some (.resubscribe (.sequenceRegression last sequence)) := by
  unfold checkTicker checkSequence
  rw [hlast]
  dsimp only
  rw [if_pos hle]
  split
  · rw [if_neg fun h => Bool.false_ne_true h.2]
  · rfl

/-- The ticker that follows the registers. -/
lemma checkTicker_next {p : Product} {prev t : Ticker} (hseq : p.lastSeq = some prev.sequence)
    (htrade : p.lastTradeId = some prev.tradeId) (hlt : prev.sequence < t.sequence)
    (hnext : t.tradeId.toNat = prev.tradeId.toNat + 1) (stats : Stats) :
    (checkTicker p stats t.sequence t.tradeId).1 = none := by
  have hnew : ∀ last ∈ p.lastSeq, last < t.sequence := by
    intro last hlast
    rw [hseq] at hlast
    cases hlast
    exact hlt
  have heq : t.tradeId = prev.tradeId + 1 := by
    have hbound := t.tradeId.toNat_lt
    apply UInt64.toNat_inj.mp
    rw [UInt64.toNat_add, UInt64.toNat_one, hnext]
    omega
  rw [checkTicker_action hnew, htrade, Option.bind_some, if_neg (not_not.mpr heq)]

/-! ## The answers of one product -/

/-- The first of a product's messages, when it is a complete ticker. -/
lemma productAnswers_ticker {name : List UInt8} {sequence tradeId : UInt64} {d : Delivery}
    (h : IsTicker name d.payload sequence tradeId) (p : Product) (deliveries : List Delivery) :
    ∃ bbo trade, trade.tradeId = tradeId ∧
      productAnswers (some p) (d :: deliveries)
        = (.bbo bbo :: if tradeId > p.maxEmittedTradeId then [.trade trade] else [],
            (checkTicker p {} sequence tradeId).1) ::
          productAnswers (some (p.afterTicker sequence tradeId)) deliveries := by
  obtain ⟨bbo, trade, -, -, -, -, htrade, hreact⟩ := react_ticker h p d.t1Ns
  refine ⟨bbo, trade, htrade, ?_⟩
  rw [productAnswers, hreact]

/-- The trades among some answers. -/
def answeredTrades (answers : List (List Event × Option Action)) : List UnifiedTrade :=
  trades (answers.flatMap (·.1))

lemma tradesFor_eq_answeredTrades (name : List UInt8) (calls : List Call) :
    tradesFor name calls = answeredTrades (answers (ownCalls name calls)) := by
  unfold tradesFor answeredTrades answers
  rw [List.flatMap_map]

lemma answeredTrades_cons (a : List Event × Option Action)
    (answers : List (List Event × Option Action)) :
    answeredTrades (a :: answers) = trades a.1 ++ answeredTrades answers := by
  unfold answeredTrades
  rw [List.flatMap_cons, trades_append]

/-- A stream that continues the registers and the mark is answered without an action, and all
its trades are given out. -/
lemma productAnswers_stream {name : List UInt8} {further : List Ticker} {prev : Ticker}
    (hstream : TickerStream name (prev :: further)) {p : Product}
    (hseq : p.lastSeq = some prev.sequence) (htrade : p.lastTradeId = some prev.tradeId)
    (hmark : p.maxEmittedTradeId = prev.tradeId) {deliveries : List Delivery}
    (hpayloads : deliveries.map (·.payload) = further.map (·.payload)) :
    (∀ a ∈ productAnswers (some p) deliveries, a.2 = none) ∧
      (answeredTrades (productAnswers (some p) deliveries)).map (·.tradeId)
        = further.map (·.tradeId) := by
  -- `prev` is the ticker that the registers hold; it moves up with every delivery
  induction further generalizing prev p deliveries with
  | nil =>
    rw [List.map_nil, List.map_eq_nil_iff] at hpayloads
    rw [hpayloads]
    refine ⟨?_, rfl⟩
    intro a ha
    cases ha
  | cons t further ih =>
    rcases deliveries with _ | ⟨d, deliveries⟩
    · cases hpayloads
    rw [List.map_cons, List.map_cons, List.cons.injEq] at hpayloads
    have hticker : IsTicker name d.payload t.sequence t.tradeId := by
      rw [hpayloads.1]
      exact hstream.carries t (List.mem_cons_of_mem _ List.mem_cons_self)
    have hlt : prev.sequence < t.sequence :=
      (List.pairwise_cons.mp hstream.increasing).1 t List.mem_cons_self
    have hnext : t.tradeId.toNat = prev.tradeId.toNat + 1 :=
      (List.isChain_cons_cons.mp hstream.consecutive).1
    have hnew : t.tradeId > p.maxEmittedTradeId := by
      rw [hmark]
      show prev.tradeId < t.tradeId
      rw [UInt64.lt_iff_toNat_lt]
      omega
    have htail : TickerStream name (t :: further) := by
      refine ⟨?_, (List.pairwise_cons.mp hstream.increasing).2,
        (List.isChain_cons_cons.mp hstream.consecutive).2⟩
      intro t' ht'
      exact hstream.carries t' (List.mem_cons_of_mem _ ht')
    obtain ⟨bbo, trade, htid, hanswers⟩ := productAnswers_ticker hticker p deliveries
    have hmark' : (p.afterTicker t.sequence t.tradeId).maxEmittedTradeId = t.tradeId :=
      if_pos hnew
    obtain ⟨hactions, htrades⟩ := ih htail (p := p.afterTicker t.sequence t.tradeId) rfl rfl hmark'
      hpayloads.2
    rw [hanswers, if_pos hnew]
    refine ⟨?_, ?_⟩
    · intro a ha
      rcases List.mem_cons.mp ha with ha | ha
      · rw [ha]
        exact checkTicker_next hseq htrade hlt hnext {}
      · exact hactions a ha
    · rw [answeredTrades_cons, List.map_append, htrades, List.map_cons, ← htid]
      rfl

/-- A snapshot that repeats the ticker in the sequence register is answered by an action. -/
lemma productAnswers_alarm {name : List UInt8} {inflight : List Ticker} {last : Ticker}
    (hcarries : ∀ t ∈ inflight, IsTicker name t.payload t.sequence t.tradeId) {p : Product}
    (hseq : p.lastSeq = some last.sequence) {snapshot : List UInt8}
    (hsnapshot : IsTicker name snapshot (inflight.getLastD last).sequence
      (inflight.getLastD last).tradeId) {deliveries : List Delivery} {rest : List (List UInt8)}
    (hpayloads : deliveries.map (·.payload) = inflight.map (·.payload) ++ snapshot :: rest) :
    ∃ a ∈ productAnswers (some p) deliveries, a.2 ≠ none := by
  -- every ticker in flight moves the sequence register, up to the one the snapshot repeats
  induction inflight generalizing last p deliveries with
  | nil =>
    rcases deliveries with _ | ⟨d, deliveries⟩
    · cases hpayloads
    rw [List.map_cons, List.map_nil, List.nil_append, List.cons.injEq] at hpayloads
    have hticker : IsTicker name d.payload last.sequence last.tradeId := by
      rw [hpayloads.1]
      exact hsnapshot
    obtain ⟨bbo, trade, -, hanswers⟩ := productAnswers_ticker hticker p deliveries
    rw [hanswers]
    refine ⟨_, List.mem_cons_self, ?_⟩
    dsimp only
    rw [checkTicker_regression hseq (UInt64.le_refl _)]
    exact Option.some_ne_none _
  | cons t inflight ih =>
    rcases deliveries with _ | ⟨d, deliveries⟩
    · cases hpayloads
    rw [List.map_cons, List.map_cons, List.cons_append, List.cons.injEq] at hpayloads
    rw [List.getLastD_cons] at hsnapshot
    have hticker : IsTicker name d.payload t.sequence t.tradeId := by
      rw [hpayloads.1]
      exact hcarries t List.mem_cons_self
    obtain ⟨bbo, trade, -, hanswers⟩ := productAnswers_ticker hticker p deliveries
    obtain ⟨a, ha, haction⟩ := ih (fun t' ht' => hcarries t' (List.mem_cons_of_mem _ ht'))
      (p := p.afterTicker t.sequence t.tradeId) rfl hsnapshot hpayloads.2
    rw [hanswers]
    exact ⟨a, List.mem_cons_of_mem _ ha, haction⟩

/-! ## Resubscriptions -/

namespace Resubscription

variable (r : Resubscription)

/-- The tickers of the product before the resubscription. -/
lemma tickerIds_before :
    tickerIds r.name (r.history ++ [.actionTaken (.resubscribe r.reason)])
      = tickerIds r.name r.history := by
  rw [tickerIds_concat]
  exact List.append_nil _

lemma newest_mem : r.newest.tradeId ∈ tickerIds r.name r.history := by
  obtain ⟨before, t1Ns, nowMs, rest, heq, -⟩ := r.followed
  have hticker := r.stream.carries r.newest List.mem_cons_self
  unfold tickerIds
  rw [heq]
  refine List.mem_filterMap.mpr ⟨_, List.mem_append_right _ List.mem_cons_self, ?_⟩
  exact tickerId_eq_some.mpr ⟨_, hticker⟩

/-- At the resubscription the product has no baseline, and its mark is the newest trade. -/
lemma product_before :
    ∃ p, r.before.session.productOf r.name = some p ∧ p.lastSeq = none ∧ p.lastTradeId = none ∧
      p.maxEmittedTradeId = r.newest.tradeId ∧
      Emission r.name p (r.history ++ [.actionTaken (.resubscribe r.reason)]) r.before.calls := by
  obtain ⟨p₀, hp₀, hmark₀⟩ := productOf_new_of_mem r.known r.staleAfterMs
  obtain ⟨p, hp, -, hemission⟩ :=
    emission_run hp₀ hmark₀ (r.history ++ [.actionTaken (.resubscribe r.reason)])
  have hreset := hp
  rw [run_concat, productOf_step] at hreset
  obtain ⟨q, -, hq⟩ := Option.map_eq_some_iff.mp hreset
  refine ⟨p, hp, ?_, ?_, ?_, hemission⟩
  · rw [← hq]
  · rw [← hq]
  · have hbound := hemission.bound
    have hsource := hemission.source
    rw [r.tickerIds_before] at hbound hsource
    apply UInt64.le_antisymm
    · by_cases hzero : p.maxEmittedTradeId = 0
      · rw [hzero]
        exact UInt64.zero_le
      · obtain ⟨t, ht, htid⟩ := List.mem_map.mp (hemission.mark hzero)
        rw [← htid]
        exact r.newest_le _ (hsource t ht).1
    · exact hbound _ r.newest_mem

/-- The trades before and after the resubscription, in order and with ids from one on. -/
lemma emission_whole :
    ∃ p, Emission r.name p
      (r.history ++ [.actionTaken (.resubscribe r.reason)] ++ r.after.map Delivery.op)
      (r.before.calls ++ r.afterwards.calls) := by
  obtain ⟨p₀, hp₀, hmark₀⟩ := productOf_new_of_mem r.known r.staleAfterMs
  obtain ⟨p, -, -, hemission⟩ := emission_run hp₀ hmark₀
    (r.history ++ [.actionTaken (.resubscribe r.reason)] ++ r.after.map Delivery.op)
  rw [run_append] at hemission
  exact ⟨p, hemission⟩

/-- The messages of the product are answered by the product alone. -/
lemma answers_afterwards {p : Product} (hp : r.before.session.productOf r.name = some p) :
    answers (ownCalls r.name r.afterwards.calls)
      = productAnswers (some p) (ownDeliveries r.name r.after) := by
  unfold afterwards
  rw [answers_ownCalls, hp]

lemma actions_none_iff {p : Product} (hp : r.before.session.productOf r.name = some p) :
    (∀ c ∈ ownCalls r.name r.afterwards.calls, c.action = none) ↔
      ∀ a ∈ productAnswers (some p) (ownDeliveries r.name r.after), a.2 = none := by
  rw [← r.answers_afterwards hp]
  unfold answers
  rw [List.forall_mem_map]

/-- With a ticker in flight, the snapshot is taken for a regression. -/
lemma not_quiet_of_inflight (h : r.inflight ≠ []) :
    ∃ c ∈ ownCalls r.name r.afterwards.calls, c.action ≠ none := by
  obtain ⟨p, hp, -⟩ := r.product_before
  obtain ⟨t, inflight, heq⟩ := List.exists_cons_of_ne_nil h
  have hcarries : ∀ t ∈ r.inflight, IsTicker r.name t.payload t.sequence t.tradeId := by
    intro t ht
    exact r.stream.carries t (List.mem_cons_of_mem _ (List.mem_append_left _ ht))
  have hreceived := r.received
  have hrepeats := r.repeats
  rw [heq] at hcarries hreceived hrepeats
  rw [List.getLastD_cons] at hrepeats
  rcases hown : ownDeliveries r.name r.after with _ | ⟨d, deliveries⟩
  · rw [hown] at hreceived
    cases hreceived
  rw [hown, List.map_cons, List.map_cons, List.cons_append, List.cons.injEq] at hreceived
  -- the first delivery is the oldest in flight; one of those from it on raises the alarm
  have hticker : IsTicker r.name d.payload t.sequence t.tradeId := by
    rw [hreceived.1]
    exact hcarries t List.mem_cons_self
  obtain ⟨bbo, trade, -, hanswers⟩ := productAnswers_ticker hticker p deliveries
  obtain ⟨a, ha, haction⟩ := productAnswers_alarm
    (fun t' ht' => hcarries t' (List.mem_cons_of_mem _ ht'))
    (p := p.afterTicker t.sequence t.tradeId) rfl hrepeats hreceived.2
  by_contra hquiet
  push Not at hquiet
  refine haction ((r.actions_none_iff hp).mp hquiet a ?_)
  rw [hown, hanswers]
  exact List.mem_cons_of_mem _ ha

/-- With none in flight, the snapshot sets the baseline and the others continue it. -/
lemma quiet_of_no_inflight (h : r.inflight = []) :
    (∀ c ∈ ownCalls r.name r.afterwards.calls, c.action = none) ∧
      (tradesFor r.name r.afterwards.calls).map (·.tradeId) = r.further.map (·.tradeId) := by
  obtain ⟨p, hp, hseq, htrade, hmark, -⟩ := r.product_before
  have hreceived := r.received
  have hrepeats := r.repeats
  have hstream := r.stream
  rw [h] at hreceived hrepeats hstream
  rw [List.map_nil, List.nil_append] at hreceived
  rw [List.nil_append] at hstream
  rcases hown : ownDeliveries r.name r.after with _ | ⟨d, deliveries⟩
  · rw [hown] at hreceived
    cases hreceived
  rw [hown, List.map_cons, List.cons.injEq] at hreceived
  have hticker : IsTicker r.name d.payload r.newest.sequence r.newest.tradeId := by
    rw [hreceived.1]
    exact hrepeats
  -- the snapshot is the ticker of the mark: it is not emitted a second time
  have hold : ¬ r.newest.tradeId > p.maxEmittedTradeId := by
    rw [hmark]
    exact UInt64.lt_irrefl _
  -- without a baseline nothing can be out of order
  have hcheck : (checkTicker p {} r.newest.sequence r.newest.tradeId).1 = none := by
    unfold checkTicker checkSequence
    rw [hseq, htrade]
  have hmark' : (p.afterTicker r.newest.sequence r.newest.tradeId).maxEmittedTradeId
      = r.newest.tradeId := (if_neg hold).trans hmark
  obtain ⟨bbo, trade, -, hanswers⟩ := productAnswers_ticker hticker p deliveries
  obtain ⟨hactions, htrades⟩ := productAnswers_stream hstream
    (p := p.afterTicker r.newest.sequence r.newest.tradeId) rfl rfl hmark' hreceived.2
  rw [if_neg hold] at hanswers
  refine ⟨?_, ?_⟩
  · rw [r.actions_none_iff hp, hown, hanswers]
    intro a ha
    rcases List.mem_cons.mp ha with ha | ha
    · rw [ha]
      exact hcheck
    · exact hactions a ha
  · rw [tradesFor_eq_answeredTrades, r.answers_afterwards hp, hown, hanswers,
      answeredTrades_cons, List.map_append, htrades]
    rfl

lemma newest_given_out (h : r.newest.tradeId ≠ 0) :
    r.newest.tradeId ∈ (tradesFor r.name r.before.calls).map (·.tradeId) := by
  obtain ⟨p, -, -, -, hmark, hemission⟩ := r.product_before
  rw [← hmark] at h ⊢
  exact hemission.mark h

end Resubscription

/-- A resubscription is tolerated if and only if no ticker is in flight and the trade that the
snapshot repeats does not have the id zero. -/
theorem tolerated_iff (r : Resubscription) :
    r.Tolerated ↔ r.inflight = [] ∧ r.newest.tradeId ≠ 0 := by
  obtain ⟨p, hemission⟩ := r.emission_whole
  have hascending := hemission.ascending
  rw [tradesFor_append, List.pairwise_append] at hascending
  have hpositive : ∀ t ∈ tradesFor r.name (r.before.calls ++ r.afterwards.calls),
      t.tradeId ≠ 0 := fun t ht => (hemission.source t ht).2
  rw [tradesFor_append] at hpositive
  constructor
  · intro htolerated
    have hnone : r.inflight = [] := by
      by_contra hinflight
      obtain ⟨c, hc, haction⟩ := r.not_quiet_of_inflight hinflight
      exact haction (htolerated.1 c hc)
    refine ⟨hnone, ?_⟩
    intro hzero
    -- a trade with id zero is given out neither before nor after
    have hmem : (0 : UInt64) ∈ r.tradeIds := by
      unfold Resubscription.tradeIds
      rw [hnone, ← hzero]
      exact List.mem_cons_self
    have hbefore : (0 : UInt64) ∉ (tradesFor r.name r.before.calls).map (·.tradeId) := by
      intro h
      obtain ⟨t, ht, htid⟩ := List.mem_map.mp h
      exact hpositive t (List.mem_append_left _ ht) htid
    have hcount := htolerated.2 0 hmem hbefore
    have hafter : (0 : UInt64) ∈ (tradesFor r.name r.afterwards.calls).map (·.tradeId) := by
      apply List.count_pos_iff.mp
      omega
    obtain ⟨t, ht, htid⟩ := List.mem_map.mp hafter
    exact hpositive t (List.mem_append_right _ ht) htid
  · intro h
    obtain ⟨hnone, hpos⟩ := h
    obtain ⟨hactions, htrades⟩ := r.quiet_of_no_inflight hnone
    refine ⟨hactions, ?_⟩
    intro id hid hnew
    unfold Resubscription.tradeIds at hid
    rw [hnone] at hid
    rcases List.mem_cons.mp hid with hid | hid
    · rw [hid] at hnew
      exact absurd (r.newest_given_out hpos) hnew
    · have hnodup : ((tradesFor r.name r.afterwards.calls).map (·.tradeId)).Nodup := by
        apply List.Pairwise.map (R := fun t t' => t.tradeId < t'.tradeId) _ _ hascending.2.1
        intro t t' hlt heq
        rw [heq] at hlt
        exact UInt64.lt_irrefl _ hlt
      apply List.count_eq_one_of_mem hnodup
      rw [htrades]
      exact hid

/-- Three consecutive tickers of the exchange. -/
def ticker100 : Ticker := ⟨10, 100, tickerBytes "BTC-USD" "10" "100"⟩

def ticker101 : Ticker := ⟨12, 101, tickerBytes "BTC-USD" "12" "101"⟩

def ticker102 : Ticker := ⟨15, 102, tickerBytes "BTC-USD" "15" "102"⟩

lemma tickerStream_100_102 : TickerStream btcUsd [ticker100, ticker101, ticker102] := by
  refine ⟨?_, by decide, by decide⟩
  have h100 : IsTicker btcUsd ticker100.payload 10 100 := by decide +kernel
  have h101 : IsTicker btcUsd ticker101.payload 12 101 := by decide +kernel
  have h102 : IsTicker btcUsd ticker102.payload 15 102 := by decide +kernel
  simp only [List.forall_mem_cons]
  exact ⟨h100, h101, h102, by simp⟩

lemma tickerIds_ticker100 : tickerIds btcUsd [.message ticker100.payload 1 1] = [100] := by
  rw [tickerIds_message,
    tickerId_eq_some.mpr ⟨10, tickerStream_100_102.carries ticker100 List.mem_cons_self⟩]
  rfl

/-- The ticker 101 arrives between the resubscription and its snapshot. -/
def lateResubscription : Resubscription where
  names := [btcUsd]
  staleAfterMs := 10000
  name := btcUsd
  history := [.message ticker100.payload 1 1]
  reason := .serverError
  newest := ticker100
  inflight := [ticker101]
  snapshot := ticker101.payload
  further := [ticker102]
  after := [⟨ticker101.payload, 2, 2⟩, ⟨ticker101.payload, 3, 3⟩, ⟨ticker102.payload, 4, 4⟩]
  known := List.mem_cons_self
  followed := ⟨[], 1, 1, [], rfl, rfl⟩
  newest_le := by
    rw [tickerIds_ticker100]
    exact List.forall_mem_singleton.mpr (by decide)
  stream := tickerStream_100_102
  repeats := tickerStream_100_102.carries ticker101 (List.mem_cons_of_mem _ List.mem_cons_self)
  received := by decide +kernel

/-- The session answers the snapshot by asking for another resubscription. -/
theorem inflight_ticker_not_tolerated : ¬ lateResubscription.Tolerated := by
  intro htolerated
  obtain ⟨c, hc, haction⟩ := lateResubscription.not_quiet_of_inflight (List.cons_ne_nil _ _)
  exact haction (htolerated.1 c hc)

/-- The snapshot arrives first. -/
def promptResubscription : Resubscription where
  names := [btcUsd]
  staleAfterMs := 10000
  name := btcUsd
  history := [.message ticker100.payload 1 1]
  reason := .serverError
  newest := ticker100
  inflight := []
  snapshot := ticker100.payload
  further := [ticker101, ticker102]
  after := [⟨ticker100.payload, 2, 2⟩, ⟨ticker101.payload, 3, 3⟩, ⟨ticker102.payload, 4, 4⟩]
  known := List.mem_cons_self
  followed := ⟨[], 1, 1, [], rfl, rfl⟩
  newest_le := by
    rw [tickerIds_ticker100]
    exact List.forall_mem_singleton.mpr (by decide)
  stream := tickerStream_100_102
  repeats := tickerStream_100_102.carries ticker100 List.mem_cons_self
  received := by decide +kernel

theorem tolerated_iff_promptResubscription : promptResubscription.Tolerated :=
  (tolerated_iff promptResubscription).mpr ⟨rfl, by decide⟩

end ChainMarketPrice.LiveFeed
