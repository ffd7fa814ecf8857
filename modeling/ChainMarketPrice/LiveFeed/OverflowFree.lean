import ChainMarketPrice.CefiIngest.CheckedParsersTheorems
import ChainMarketPrice.Distribution.SpreadFilter
import ChainMarketPrice.LiveFeed.CheckedSession
import ChainMarketPrice.LiveFeed.MessageCounting

/-!
# When a session overflows

A message passes the checks exactly when the counters it moves have room, the numbers it carries
fit their words and the last trade id of its product has a successor (`yields_onMessage`), and a
run passes them when each call does at the session before it.
-/

namespace ChainMarketPrice.LiveFeed

open CefiIngest CefiParser Checked Session SessionRun

/-- The number has a successor in its word. -/
def Room (counter : UInt64) : Prop := counter.toNat + 1 < 2 ^ 64

/-- The product is found, or there is room to count that it is not. -/
structure IndexFits (s : Session) (payload : List UInt8) : Prop where
  unnamed : coinbaseProductId payload = none → Room s.stats.malformed
  unknown : ∀ name, coinbaseProductId payload = some name → s.productOf name = none →
    Room s.stats.unknownProduct

/-- There is room to count a regression of the sequence number. -/
def SequenceCheckFits (p : Product) (sequenceRegressions seq : UInt64) : Prop :=
  ∀ last, p.lastSeq = some last → seq ≤ last → Room sequenceRegressions

/-- The expected trade id exists, and there is room to count the check that fails. -/
structure TickerChecksFit (p : Product) (sequenceRegressions tradeIdGaps seq tradeId : UInt64) :
    Prop where
  sequence : SequenceCheckFits p sequenceRegressions seq
  expected : ∀ last, p.lastTradeId = some last → Room last
  gap : ∀ last, p.lastTradeId = some last → tradeId ≠ last + 1 →
    (∀ last, p.lastSeq = some last → ¬ seq ≤ last) → Room tradeIdGaps

/-- There is room for the events of a ticker: the quote, and the trade if it is new. -/
structure EmissionFits (p : Product) (eventsEmitted tradeId : UInt64) : Prop where
  quote : Room eventsEmitted
  trade : tradeId > p.maxEmittedTradeId → Room (eventsEmitted + 1)

/-- What the handler of a ticker of the product `p` needs. -/
structure TickerFits (s : Session) (p : Product) (payload : List UInt8) : Prop where
  quote : QuoteFits payload
  trade : TradeFits payload
  complete : ∀ name seq tradeId, IsTicker name payload seq tradeId →
    TickerChecksFit p s.stats.sequenceRegressions s.stats.tradeIdGaps seq tradeId ∧
      EmissionFits p s.stats.eventsEmitted tradeId
  incomplete : (∀ name seq tradeId, ¬ IsTicker name payload seq tradeId) → Room s.stats.malformed

/-- There is room to count that the exchange is ahead. -/
def HeartbeatCheckFits (p : Product) (heartbeatBehind exchangeLastTrade : UInt64) : Prop :=
  ∀ ours, p.lastTradeId = some ours → exchangeLastTrade > ours → Room heartbeatBehind

/-- What the handler of a heartbeat of the product `p` needs. -/
structure HeartbeatFits (s : Session) (p : Product) (payload : List UInt8) : Prop where
  sequence : IntFits payload (keyOf "sequence")
  tradeId : ∀ seq, coinbaseSequence payload = some seq → TradeIdFits payload
  checks : ∀ seq exchangeLastTrade, coinbaseSequence payload = some seq →
    coinbaseTradeId payload = some exchangeLastTrade →
    SequenceCheckFits p s.stats.sequenceRegressions seq ∧
      ((∀ last, p.lastSeq = some last → ¬ seq ≤ last) →
        HeartbeatCheckFits p s.stats.heartbeatBehind exchangeLastTrade)

/-- What `on_ticker` needs. -/
structure OnTickerFits (s : Session) (payload : List UInt8) : Prop where
  tickers : Room s.stats.tickers
  index : IndexFits s payload
  known : ∀ name p, coinbaseProductId payload = some name → s.productOf name = some p →
    TickerFits s p payload

/-- What `on_heartbeat` needs. -/
structure OnHeartbeatFits (s : Session) (payload : List UInt8) : Prop where
  heartbeats : Room s.stats.heartbeats
  index : IndexFits s payload
  known : ∀ name p, coinbaseProductId payload = some name → s.productOf name = some p →
    HeartbeatFits s p payload

/-- What a message needs. -/
structure MessageFits (s : Session) (payload : List UInt8) : Prop where
  messages : Room s.stats.messages
  untyped : coinbaseMessageType payload = none → Room s.stats.malformed
  ticker : coinbaseMessageType payload = some (Bytes.ofString "ticker") → OnTickerFits s payload
  heartbeat : coinbaseMessageType payload = some (Bytes.ofString "heartbeat") →
    OnHeartbeatFits s payload

/-- What a call needs. -/
def OpFits (s : Session) : SessionOp → Prop
  | .connected _ => True
  | .actionTaken (.resubscribe _) => Room s.stats.resubscribes
  | .actionTaken (.reconnect _) => Room s.stats.reconnects
  | .message payload _ _ => MessageFits s payload

/-! ## Counters and checks -/

lemma yields_checkedSucc (counter : UInt64) :
    Yields (checkedSucc counter) (Room counter) (counter + 1) := by
  have hvalue : UInt64.ofNat (counter.toNat + 1) = counter + 1 := by
    rw [UInt64.ofNat_add, UInt64.ofNat_toNat]
    rfl
  rw [← hvalue]
  exact yields_u64 _

variable {s : Session} {p : Product} {stats : Stats} {payload name : List UInt8} {out : List Event}

lemma yields_checkSequence (p : Product) (stats : Stats) (seq : UInt64) :
    Yields (checkedCheckSequence p stats seq) (SequenceCheckFits p stats.sequenceRegressions seq)
      (checkSequence p stats seq) := by
  unfold checkedCheckSequence checkSequence SequenceCheckFits
  cases hseq : p.lastSeq with
  | none => exact (Yields.of_eq rfl).congr (by simp)
  | some last =>
    dsimp only
    by_cases hle : seq ≤ last
    · rw [if_pos hle, if_pos hle]
      exact ((yields_checkedSucc _).map _).congr (by simp [hle])
    · rw [if_neg hle, if_neg hle]
      exact (Yields.of_eq rfl).congr (by simp [hle])

lemma checkSequence_passes_iff (p : Product) (stats : Stats) (seq : UInt64) :
    (checkSequence p stats seq).1.isNone ↔ ∀ last, p.lastSeq = some last → ¬ seq ≤ last := by
  unfold checkSequence
  cases p.lastSeq with
  | none => simp
  | some last =>
    dsimp only
    split
    · next hle => simpa using hle
    · next hle => simpa using hle

lemma checkSequence_tradeIdGaps (p : Product) (stats : Stats) (seq : UInt64) :
    (checkSequence p stats seq).2.tradeIdGaps = stats.tradeIdGaps := by
  unfold checkSequence
  split
  · split
    · rfl
    · rfl
  · rfl

variable {sequenceRegressions tradeIdGaps seq tradeId : UInt64}

/-- Without a trade id to continue, only the sequence number is checked. -/
lemma tickerChecksFit_of_none (hlast : p.lastTradeId = none) :
    TickerChecksFit p sequenceRegressions tradeIdGaps seq tradeId ↔
      SequenceCheckFits p sequenceRegressions seq := by
  constructor
  · intro h
    exact h.sequence
  · intro hsequence
    refine ⟨hsequence, fun last h => ?_, fun last h => ?_⟩
    · rw [hlast] at h
      cases h
    · rw [hlast] at h
      cases h

lemma tickerChecksFit_of_some {last : UInt64} (hlast : p.lastTradeId = some last) :
    TickerChecksFit p sequenceRegressions tradeIdGaps seq tradeId ↔
      SequenceCheckFits p sequenceRegressions seq ∧ Room last ∧
        (tradeId ≠ last + 1 → (∀ last, p.lastSeq = some last → ¬ seq ≤ last) →
          Room tradeIdGaps) := by
  constructor
  · intro h
    exact ⟨h.sequence, h.expected last hlast, h.gap last hlast⟩
  · rintro ⟨hsequence, hexpected, hgap⟩
    refine ⟨hsequence, fun last' h => ?_, fun last' h => ?_⟩
    · obtain rfl := Option.some.inj (hlast.symm.trans h)
      exact hexpected
    · obtain rfl := Option.some.inj (hlast.symm.trans h)
      exact hgap

lemma yields_checkTicker (p : Product) (stats : Stats) (seq tradeId : UInt64) :
    Yields (checkedCheckTicker p stats seq tradeId)
      (TickerChecksFit p stats.sequenceRegressions stats.tradeIdGaps seq tradeId)
      (checkTicker p stats seq tradeId) := by
  have hsequence := yields_checkSequence p stats seq
  have hpasses := checkSequence_passes_iff p stats seq
  have hgaps := checkSequence_tradeIdGaps p stats seq
  unfold checkedCheckTicker checkTicker
  generalize checkSequence p stats seq = checked at hsequence hpasses hgaps ⊢
  obtain ⟨action, after⟩ := checked
  dsimp only at hpasses hgaps ⊢
  cases hlast : p.lastTradeId with
  | none =>
    rw [tickerChecksFit_of_none hlast]
    exact hsequence.map _
  | some last =>
    rw [tickerChecksFit_of_some hlast]
    apply Yields.congr
    · apply Yields.bind hsequence
      intro _
      apply Yields.bind (yields_checkedSucc last)
      intro _
      apply Yields.ite
      · intro _
        exact (yields_checkedSucc _).map _
      · intro _
        exact Yields.of_eq rfl
    · -- the second check is left out behind a regression
      rw [hgaps]
      refine and_congr_right fun _ => and_congr_right fun _ => ?_
      constructor
      · intro hgap hne hpassed
        rw [if_pos ⟨hne, hpasses.mpr hpassed⟩] at hgap
        exact hgap
      · intro hgap
        split
        · next hcond => exact hgap hcond.1 (hpasses.mp hcond.2)
        · trivial

lemma yields_checkHeartbeat (p : Product) (stats : Stats) (exchangeLastTrade : UInt64) :
    Yields (checkedCheckHeartbeat p stats exchangeLastTrade)
      (HeartbeatCheckFits p stats.heartbeatBehind exchangeLastTrade)
      (checkHeartbeat p stats exchangeLastTrade) := by
  unfold checkedCheckHeartbeat checkHeartbeat HeartbeatCheckFits
  cases hours : p.lastTradeId with
  | none => exact (Yields.of_eq rfl).congr (by simp)
  | some ours =>
    dsimp only
    by_cases hahead : exchangeLastTrade > ours
    · rw [if_pos hahead, if_pos hahead]
      exact ((yields_checkedSucc _).map _).congr (by simp [hahead])
    · rw [if_neg hahead, if_neg hahead]
      exact (Yields.of_eq rfl).congr (by simp [hahead])

/-- The index of the product is inside the list. -/
lemma yields_productIndex (s : Session) (payload : List UInt8) :
    Yields (s.checkedProductIndex payload) (IndexFits s payload) (s.productIndex payload) := by
  have hparsed := (yields_coinbaseProductId payload).returns trivial
  rcases hid : coinbaseProductId payload with _ | name
  · -- without an id the message is malformed
    rw [hid] at hparsed
    rw [productIndex_of_no_id hid]
    apply Yields.congr
    · apply Yields.bind_of_eq hparsed
      exact (yields_checkedSucc _).map _
    · constructor
      · intro hroom
        exact ⟨fun _ => hroom, fun name hname => absurd (hid.symm.trans hname) (by simp)⟩
      · intro h
        exact h.unnamed hid
  · rw [hid] at hparsed
    rcases hp : s.productOf name with _ | p
    · -- an id that no product has
      rw [productIndex_of_unknown hid hp]
      apply Yields.congr
      · apply Yields.bind_of_eq hparsed
        dsimp only
        rw [findIdx_of_find_none hp]
        exact (yields_checkedSucc _).map _
      · constructor
        · intro hroom
          exact ⟨fun hnone => absurd (hid.symm.trans hnone) (by simp), fun _ _ _ => hroom⟩
        · intro h
          exact h.unknown name hid hp
    · -- a product that is found moves no counter
      obtain ⟨idx, hidx, -⟩ := exists_findIdx_of_find hp
      rw [productIndex_of_find hid hidx]
      apply Yields.congr
      · apply Yields.bind_of_eq hparsed
        dsimp only
        rw [hidx]
        exact Yields.of_eq rfl
      · constructor
        · intro _
          refine ⟨fun hnone => absurd (hid.symm.trans hnone) (by simp), fun name' hname hnone => ?_⟩
          obtain rfl := Option.some.inj (hid.symm.trans hname)
          rw [hp] at hnone
          cases hnone
        · intro _
          trivial

/-- A handler that starts with the product of the message. -/
lemma yields_withProduct (checkedBody : Session → ℕ → Option Outcome) (fits : Product → Prop)
    {o : Outcome}
    (hnone : ∀ stats, s.productIndex payload = (none, stats) →
      o = ⟨none, { s with stats := stats }, out⟩)
    (hsome : ∀ name p idx, coinbaseProductId payload = some name → s.productOf name = some p →
      s.products[idx]? = some p → s.productIndex payload = (some idx, s.stats) →
      Yields (checkedBody s idx) (fits p) o) :
    Yields (s.checkedProductIndex payload >>= fun found =>
        match found.1 with
        | none => some ⟨none, { s with stats := found.2 }, out⟩
        | some idx => checkedBody { s with stats := found.2 } idx)
      (IndexFits s payload ∧ ∀ name p, coinbaseProductId payload = some name →
        s.productOf name = some p → fits p) o := by
  apply Yields.bind (yields_productIndex s payload)
  intro _
  -- no name, a name that nobody has, or the product of the name
  rcases hid : coinbaseProductId payload with _ | name
  · have hindex := productIndex_of_no_id hid s
    rw [hindex, hnone _ hindex]
    refine (Yields.of_eq rfl).congr ⟨fun _ name p hname => ?_, fun _ => trivial⟩
    cases hname
  · rcases hp : s.productOf name with _ | p
    · have hindex : s.productIndex payload = _ := productIndex_of_unknown hid hp
      rw [hindex, hnone _ hindex]
      refine (Yields.of_eq rfl).congr ⟨fun _ name' p hname hp' => ?_, fun _ => trivial⟩
      obtain rfl := Option.some.inj hname
      rw [hp] at hp'
      cases hp'
    · obtain ⟨idx, hidx, hget⟩ := exists_findIdx_of_find hp
      have hindex : s.productIndex payload = _ := productIndex_of_find hid hidx
      rw [hindex]
      refine (hsome name p idx hid hp hget hindex).congr
        ⟨fun hfits name' p' hname hp' => ?_, fun hall => ?_⟩
      · obtain rfl := Option.some.inj hname
        obtain rfl := Option.some.inj (hp.symm.trans hp')
        exact hfits
      · exact hall name p rfl hp

/-! ## Tickers -/

/-- `on_ticker` from the two results of the parsers on. -/
def Session.emit (s : Session) (idx : ℕ) (p : Product) (out : List Event) :
    Except String NormalizedBbo → Except String UnifiedTrade → Outcome
  | .ok bbo, .ok trade =>
    let (action, stats) := checkTicker p s.stats bbo.sequence trade.tradeId
    let p := { p with lastSeq := some bbo.sequence, lastTradeId := some trade.tradeId }
    let stats := { stats with eventsEmitted := stats.eventsEmitted + 1 }
    if trade.tradeId > p.maxEmittedTradeId then
      let p := { p with maxEmittedTradeId := trade.tradeId }
      let stats := { stats with eventsEmitted := stats.eventsEmitted + 1 }
      ⟨action, { s with products := s.products.set idx p, stats := stats },
        out ++ [.bbo bbo, .trade trade]⟩
    else
      ⟨action, { s with products := s.products.set idx p, stats := stats }, out ++ [.bbo bbo]⟩
  | _, _ =>
    ⟨none, { s with stats := { s.stats with malformed := s.stats.malformed + 1 } }, out⟩

/-- What that part needs. -/
def EmitFits (s : Session) (p : Product) :
    Except String NormalizedBbo → Except String UnifiedTrade → Prop
  | .ok bbo, .ok trade =>
    TickerChecksFit p s.stats.sequenceRegressions s.stats.tradeIdGaps bbo.sequence
        trade.tradeId ∧
      EmissionFits p s.stats.eventsEmitted trade.tradeId
  | _, _ => Room s.stats.malformed

lemma yields_emit (s : Session) (idx : ℕ) (p : Product) (out : List Event)
    (bbo : Except String NormalizedBbo) (trade : Except String UnifiedTrade) :
    Yields (s.checkedEmit idx p out bbo trade) (EmitFits s p bbo trade)
      (s.emit idx p out bbo trade) := by
  have hmalformed := yields_checkedSucc s.stats.malformed
  rcases bbo with e | bbo
  · exact hmalformed.map _
  rcases trade with e | trade
  · exact hmalformed.map _
  -- the check of the ticker leaves the counter of trades for the next step
  have hemitted := checkTicker_emitted p s.stats bbo.sequence trade.tradeId
  unfold checkedEmit emit EmitFits
  dsimp only
  apply Yields.congr
  · apply Yields.bind (yields_checkTicker p s.stats bbo.sequence trade.tradeId)
    intro _
    apply Yields.bind (yields_checkedSucc _)
    intro _
    apply Yields.ite
    · intro _
      exact (yields_checkedSucc _).map _
    · intro _
      exact Yields.of_eq rfl
  · rw [hemitted]
    refine and_congr_right fun _ => ⟨fun ⟨hquote, htrade⟩ => ⟨hquote, fun hnew => ?_⟩, fun h => ?_⟩
    · rw [if_pos hnew] at htrade
      exact htrade
    · refine ⟨h.quote, ?_⟩
      split
      · next hnew => exact h.trade hnew
      · trivial

lemma onTicker_eq {idx : ℕ} {tickers : UInt64} (htickers : s.stats.tickers + 1 = tickers)
    (hindex : productIndex { s with stats := { s.stats with tickers := tickers } } payload
      = (some idx, { s.stats with tickers := tickers }))
    (hget : s.products[idx]? = some p) (t1Ns : UInt64) (out : List Event) :
    s.onTicker payload t1Ns out
      = emit { s with stats := { s.stats with tickers := tickers } } idx p out
        (parseCoinbaseTickerBbo p.marketId payload t1Ns)
        (parseCoinbaseTickerTrade p.marketId payload t1Ns) := by
  subst htickers
  unfold onTicker
  dsimp only
  rw [hindex]
  dsimp only
  rw [hget]
  rfl

/-- For a ticker, the results of the parsers are those of a complete ticker. -/
lemma emitFits_iff (htype : coinbaseMessageType payload = some (Bytes.ofString "ticker"))
    (hid : coinbaseProductId payload = some name) (t1Ns : UInt64) :
    EmitFits s p (parseCoinbaseTickerBbo p.marketId payload t1Ns)
        (parseCoinbaseTickerTrade p.marketId payload t1Ns) ↔
      (∀ name seq tradeId, IsTicker name payload seq tradeId →
        TickerChecksFit p s.stats.sequenceRegressions s.stats.tradeIdGaps seq tradeId ∧
          EmissionFits p s.stats.eventsEmitted tradeId) ∧
      ((∀ name seq tradeId, ¬ IsTicker name payload seq tradeId) → Room s.stats.malformed) := by
  by_cases hcomplete : ∃ name seq tradeId, IsTicker name payload seq tradeId
  · -- both parsers succeed, and read the two numbers of the ticker
    obtain ⟨name', seq, tradeId, hticker⟩ := hcomplete
    obtain ⟨bbo, hbbo, -, rfl⟩ := hticker.parseBbo p.marketId t1Ns
    obtain ⟨trade, htrade, -, -, rfl⟩ := hticker.parseTrade p.marketId t1Ns
    rw [hbbo, htrade]
    constructor
    · intro hfits
      refine ⟨fun name'' seq tradeId h => ?_, fun hnot => absurd hticker (hnot _ _ _)⟩
      obtain rfl := Option.some.inj (hticker.sequence.symm.trans h.sequence)
      obtain rfl := Option.some.inj (hticker.tradeId.symm.trans h.tradeId)
      exact hfits
    · rintro ⟨hcomplete, -⟩
      exact hcomplete _ _ _ hticker
  · -- at least one of them fails
    push Not at hcomplete
    have hmalformed : EmitFits s p (parseCoinbaseTickerBbo p.marketId payload t1Ns)
        (parseCoinbaseTickerTrade p.marketId payload t1Ns) = Room s.stats.malformed := by
      rcases hbbo : parseCoinbaseTickerBbo p.marketId payload t1Ns with e | bbo
      · rfl
      rcases htrade : parseCoinbaseTickerTrade p.marketId payload t1Ns with e | trade
      · rfl
      obtain ⟨seq, tradeId, hticker⟩ := isTicker_of_parse htype hid hbbo htrade
      exact absurd hticker (hcomplete _ _ _)
    rw [hmalformed]
    constructor
    · intro hroom
      exact ⟨fun name seq tradeId h => absurd h (hcomplete _ _ _), fun _ => hroom⟩
    · rintro ⟨-, hincomplete⟩
      exact hincomplete hcomplete

lemma yields_onTicker (htype : coinbaseMessageType payload = some (Bytes.ofString "ticker"))
    (s : Session) (t1Ns : UInt64) (out : List Event) :
    Yields (s.checkedOnTicker payload t1Ns out) (OnTickerFits s payload)
      (s.onTicker payload t1Ns out) := by
  unfold checkedOnTicker
  apply Yields.congr
  · apply Yields.bind (yields_checkedSucc _)
    intro _
    refine yields_withProduct (fun s idx => s.checkedQuote payload t1Ns out idx)
      (fun p => TickerFits s p payload) ?_ ?_
    · intro stats hindex
      unfold onTicker
      dsimp only
      rw [hindex]
    · intro name p idx hid hp hget hindex
      rw [onTicker_eq rfl hindex hget]
      unfold checkedQuote
      apply Yields.congr
      · apply Yields.bind_of_eq hget
        apply Yields.bind (yields_parseCoinbaseTickerBbo p.marketId payload t1Ns)
        intro _
        apply Yields.bind (yields_parseCoinbaseTickerTrade p.marketId payload t1Ns)
        intro _
        exact yields_emit _ _ _ _ _ _
      -- the same conditions, by name
      · rw [emitFits_iff htype hid]
        constructor
        · rintro ⟨hquote, htrade, hcomplete, hincomplete⟩
          exact ⟨hquote, htrade, hcomplete, hincomplete⟩
        · intro h
          exact ⟨h.quote, h.trade, h.complete, h.incomplete⟩
  · constructor
    · rintro ⟨hroom, hindex, hticker⟩
      exact ⟨hroom, ⟨hindex.unnamed, hindex.unknown⟩, hticker⟩
    · rintro ⟨hroom, hindex, hticker⟩
      exact ⟨hroom, ⟨hindex.unnamed, hindex.unknown⟩, hticker⟩

/-! ## Heartbeats -/

/-- `on_heartbeat` from the two numbers of the message on. -/
def Session.compareTrades (s : Session) (idx : ℕ) (p : Product) (out : List Event)
    (seq exchangeLastTrade : UInt64) : Outcome :=
  match p.lastSeq with
  | some last =>
    if seq ≤ last then
      ⟨some (.resubscribe (.sequenceRegression last seq)),
        { s with
          stats := { s.stats with sequenceRegressions := s.stats.sequenceRegressions + 1 } }, out⟩
    else
      let p := { p with lastSeq := some seq }
      let (action, stats) := checkHeartbeat p s.stats exchangeLastTrade
      ⟨action, { s with products := s.products.set idx p, stats := stats }, out⟩
  | none =>
    let (action, stats) := checkHeartbeat p s.stats exchangeLastTrade
    ⟨action, { s with stats := stats }, out⟩

/-- What that part needs. -/
structure CompareFits (s : Session) (p : Product) (seq exchangeLastTrade : UInt64) : Prop where
  sequence : SequenceCheckFits p s.stats.sequenceRegressions seq
  behind : (∀ last, p.lastSeq = some last → ¬ seq ≤ last) →
    HeartbeatCheckFits p s.stats.heartbeatBehind exchangeLastTrade

lemma yields_compareTrades (s : Session) (idx : ℕ) (p : Product) (out : List Event)
    (seq exchangeLastTrade : UInt64) :
    Yields (s.checkedCompareTrades idx p out seq exchangeLastTrade)
      (CompareFits s p seq exchangeLastTrade) (s.compareTrades idx p out seq exchangeLastTrade) := by
  unfold checkedCompareTrades compareTrades
  cases hseq : p.lastSeq with
  | none =>
    apply Yields.congr
    · exact (yields_checkHeartbeat p s.stats exchangeLastTrade).map _
    · constructor
      · intro hbehind
        refine ⟨fun last h => ?_, fun _ => hbehind⟩
        rw [hseq] at h
        cases h
      · intro h
        refine h.behind fun last hlast => ?_
        rw [hseq] at hlast
        cases hlast
  | some last =>
    dsimp only
    by_cases hle : seq ≤ last
    · -- a regression returns before the trade ids are compared
      rw [if_pos hle, if_pos hle]
      refine ((yields_checkedSucc _).map _).congr ?_
      constructor
      · intro hroom
        exact ⟨fun _ _ _ => hroom, fun hpasses => absurd hle (hpasses last hseq)⟩
      · intro h
        exact h.sequence last hseq hle
    · rw [if_neg hle, if_neg hle]
      apply Yields.congr
      · exact (yields_checkHeartbeat { p with lastSeq := some seq } s.stats
          exchangeLastTrade).map _
      · constructor
        · intro hbehind
          refine ⟨fun last' h hle' => ?_, fun _ => hbehind⟩
          obtain rfl := Option.some.inj (hseq.symm.trans h)
          exact absurd hle' hle
        · intro h
          refine h.behind fun last' hlast => ?_
          obtain rfl := Option.some.inj (hseq.symm.trans hlast)
          exact hle

/-- A heartbeat without one of its numbers is dropped. -/
lemma yields_beat {idx : ℕ} (hget : s.products[idx]? = some p) (out : List Event) :
    Yields (s.checkedBeat payload out idx)
      (IntFits payload (keyOf "sequence") ∧ ∀ seq, coinbaseSequence payload = some seq →
        TradeIdFits payload ∧ ∀ exchangeLastTrade,
          coinbaseTradeId payload = some exchangeLastTrade →
            CompareFits s p seq exchangeLastTrade)
      (match coinbaseSequence payload, coinbaseTradeId payload with
        | some seq, some exchangeLastTrade => s.compareTrades idx p out seq exchangeLastTrade
        | _, _ => ⟨none, s, out⟩) := by
  have hsequence := yields_coinbaseSequence payload
  have htradeId := yields_coinbaseTradeId payload
  unfold checkedBeat
  rcases hseq : coinbaseSequence payload with _ | seq
  · -- the trade id is not read
    rw [hseq] at hsequence
    apply Yields.congr
    · apply Yields.bind hsequence
      intro _
      exact Yields.of_eq rfl
    · refine and_congr_right fun _ => ⟨fun _ seq h => ?_, fun _ => trivial⟩
      cases h
  rw [hseq] at hsequence
  rcases hid : coinbaseTradeId payload with _ | exchangeLastTrade
  · rw [hid] at htradeId
    apply Yields.congr
    · apply Yields.bind hsequence
      intro _
      apply Yields.bind htradeId
      intro _
      exact Yields.of_eq rfl
    · refine and_congr_right fun _ => ⟨fun h seq' _ => ⟨h.1, fun last h' => ?_⟩, fun h => ?_⟩
      · cases h'
      · exact ⟨(h seq rfl).1, trivial⟩
  · rw [hid] at htradeId
    apply Yields.congr
    · apply Yields.bind hsequence
      intro _
      apply Yields.bind htradeId
      intro _
      apply Yields.bind_of_eq hget
      exact yields_compareTrades s idx p out seq exchangeLastTrade
    · refine and_congr_right fun _ => ⟨fun h seq' hseq' => ⟨h.1, fun last hlast => ?_⟩, fun h => ?_⟩
      · obtain rfl := Option.some.inj hseq'
        obtain rfl := Option.some.inj hlast
        exact h.2
      · exact ⟨(h seq rfl).1, (h seq rfl).2 _ rfl⟩

lemma onHeartbeat_eq {idx : ℕ} {heartbeats : UInt64}
    (hheartbeats : s.stats.heartbeats + 1 = heartbeats)
    (hindex : productIndex { s with stats := { s.stats with heartbeats := heartbeats } } payload
      = (some idx, { s.stats with heartbeats := heartbeats }))
    (hget : s.products[idx]? = some p) (out : List Event) :
    s.onHeartbeat payload out
      = match coinbaseSequence payload, coinbaseTradeId payload with
        | some seq, some exchangeLastTrade =>
          compareTrades { s with stats := { s.stats with heartbeats := heartbeats } } idx p out seq
            exchangeLastTrade
        | _, _ => ⟨none, { s with stats := { s.stats with heartbeats := heartbeats } }, out⟩ := by
  subst hheartbeats
  unfold onHeartbeat
  dsimp only
  rw [hindex]
  dsimp only
  rcases coinbaseSequence payload with _ | seq
  · rfl
  rcases coinbaseTradeId payload with _ | exchangeLastTrade
  · rfl
  dsimp only
  rw [hget]
  rfl

lemma yields_onHeartbeat (s : Session) (payload : List UInt8) (out : List Event) :
    Yields (s.checkedOnHeartbeat payload out) (OnHeartbeatFits s payload)
      (s.onHeartbeat payload out) := by
  unfold checkedOnHeartbeat
  apply Yields.congr
  · apply Yields.bind (yields_checkedSucc _)
    intro _
    refine yields_withProduct (fun s idx => s.checkedBeat payload out idx)
      (fun p => HeartbeatFits s p payload) ?_ ?_
    · intro stats hindex
      unfold onHeartbeat
      dsimp only
      rw [hindex]
    · intro name p idx hid hp hget hindex
      rw [onHeartbeat_eq rfl hindex hget]
      refine (yields_beat hget out).congr ?_
      constructor
      · rintro ⟨hsequence, hrest⟩
        refine ⟨hsequence, fun seq hseq => (hrest seq hseq).1, fun seq last hseq hlast => ?_⟩
        have hcompare := (hrest seq hseq).2 last hlast
        exact ⟨hcompare.sequence, hcompare.behind⟩
      · intro h
        refine ⟨h.sequence, fun seq hseq => ⟨h.tradeId seq hseq, fun last hlast => ?_⟩⟩
        obtain ⟨hsequence, hbehind⟩ := h.checks seq last hseq hlast
        exact ⟨hsequence, hbehind⟩
  · constructor
    · rintro ⟨hroom, hindex, hheartbeat⟩
      exact ⟨hroom, ⟨hindex.unnamed, hindex.unknown⟩, hheartbeat⟩
    · rintro ⟨hroom, hindex, hheartbeat⟩
      exact ⟨hroom, ⟨hindex.unnamed, hindex.unknown⟩, hheartbeat⟩

/-! ## Every call -/

/-! The handlers look neither at the count of messages nor at the clock. -/

lemma OnTickerFits.received (h : OnTickerFits s payload) (messages nowMs : UInt64) :
    OnTickerFits { s with
      stats := { s.stats with messages := messages }
      lastMessageMs := nowMs } payload := by
  refine ⟨h.tickers, ⟨h.index.unnamed, h.index.unknown⟩, fun name p hname hp => ?_⟩
  have hticker := h.known name p hname hp
  exact ⟨hticker.quote, hticker.trade, hticker.complete, hticker.incomplete⟩

lemma OnHeartbeatFits.received (h : OnHeartbeatFits s payload) (messages nowMs : UInt64) :
    OnHeartbeatFits { s with
      stats := { s.stats with messages := messages }
      lastMessageMs := nowMs } payload := by
  refine ⟨h.heartbeats, ⟨h.index.unnamed, h.index.unknown⟩, fun name p hname hp => ?_⟩
  have hheartbeat := h.known name p hname hp
  exact ⟨hheartbeat.sequence, hheartbeat.tradeId, hheartbeat.checks⟩

lemma onTickerFits_withMessage {nowMs : UInt64} :
    OnTickerFits (withMessage s nowMs) payload ↔ OnTickerFits s payload :=
  ⟨fun h => h.received s.stats.messages s.lastMessageMs, fun h => h.received _ nowMs⟩

lemma onHeartbeatFits_withMessage {nowMs : UInt64} :
    OnHeartbeatFits (withMessage s nowMs) payload ↔ OnHeartbeatFits s payload :=
  ⟨fun h => h.received s.stats.messages s.lastMessageMs, fun h => h.received _ nowMs⟩

lemma messageFits_iff {ty : List UInt8} (hty : coinbaseMessageType payload = some ty) :
    MessageFits s payload ↔ Room s.stats.messages ∧
      (ty = Bytes.ofString "ticker" → OnTickerFits s payload) ∧
      (ty = Bytes.ofString "heartbeat" → OnHeartbeatFits s payload) := by
  constructor
  · intro h
    exact ⟨h.messages, fun heq => h.ticker (heq ▸ hty), fun heq => h.heartbeat (heq ▸ hty)⟩
  · rintro ⟨hmessages, hticker, hheartbeat⟩
    refine ⟨hmessages, fun h => ?_, fun h => ?_, fun h => ?_⟩
    · rw [hty] at h
      cases h
    · exact hticker (Option.some.inj (hty.symm.trans h))
    · exact hheartbeat (Option.some.inj (hty.symm.trans h))

/-- The handler that the type of a message selects. -/
lemma yields_dispatch {ty : List UInt8} (hty : coinbaseMessageType payload = some ty)
    (s : Session) (t1Ns nowMs : UInt64) (out : List Event) :
    Yields
      (if ty = Bytes.ofString "ticker" then (withMessage s nowMs).checkedOnTicker payload t1Ns out
        else if ty = Bytes.ofString "heartbeat" then
          (withMessage s nowMs).checkedOnHeartbeat payload out
        else if ty = Bytes.ofString "error" then
          some ⟨some (.reconnect .serverError), withMessage s nowMs, out⟩
        else some ⟨none, withMessage s nowMs, out⟩)
      ((ty = Bytes.ofString "ticker" → OnTickerFits s payload) ∧
        (ty = Bytes.ofString "heartbeat" → OnHeartbeatFits s payload))
      (if ty = Bytes.ofString "ticker" then (withMessage s nowMs).onTicker payload t1Ns out
        else if ty = Bytes.ofString "heartbeat" then (withMessage s nowMs).onHeartbeat payload out
        else if ty = Bytes.ofString "error" then
          ⟨some (.reconnect .serverError), withMessage s nowMs, out⟩
        else ⟨none, withMessage s nowMs, out⟩) := by
  have hne : Bytes.ofString "heartbeat" ≠ Bytes.ofString "ticker" := by decide
  by_cases hticker : ty = Bytes.ofString "ticker"
  · subst hticker
    rw [if_pos rfl, if_pos rfl]
    refine (yields_onTicker hty _ _ _).congr (onTickerFits_withMessage.trans ?_)
    exact ⟨fun h => ⟨fun _ => h, fun heq => absurd heq.symm hne⟩, fun h => h.1 rfl⟩
  rw [if_neg hticker, if_neg hticker]
  by_cases hheartbeat : ty = Bytes.ofString "heartbeat"
  · subst hheartbeat
    rw [if_pos rfl, if_pos rfl]
    refine (yields_onHeartbeat _ _ _).congr (onHeartbeatFits_withMessage.trans ?_)
    exact ⟨fun h => ⟨fun heq => absurd heq hne, fun _ => h⟩, fun h => h.2 rfl⟩
  rw [if_neg hheartbeat, if_neg hheartbeat]
  -- errors, acknowledgements and the rest move no counter
  have hfits : True ↔ (ty = Bytes.ofString "ticker" → OnTickerFits s payload) ∧
      (ty = Bytes.ofString "heartbeat" → OnHeartbeatFits s payload) :=
    ⟨fun _ => ⟨fun heq => absurd heq hticker, fun heq => absurd heq hheartbeat⟩, fun _ => trivial⟩
  split
  · exact (Yields.of_eq rfl).congr hfits
  · exact (Yields.of_eq rfl).congr hfits

/-- The checks of a message pass exactly when the message fits. -/
lemma yields_onMessage (s : Session) (payload : List UInt8) (t1Ns nowMs : UInt64)
    (out : List Event) :
    Yields (s.checkedOnMessage payload t1Ns nowMs out) (MessageFits s payload)
      (s.onMessage payload t1Ns nowMs out) := by
  have htype := yields_coinbaseMessageType payload
  unfold checkedOnMessage onMessage
  rcases hty : coinbaseMessageType payload with _ | ty
  · rw [hty] at htype
    apply Yields.congr
    · apply Yields.bind (yields_checkedSucc _)
      intro _
      apply Yields.bind htype
      intro _
      exact (yields_checkedSucc _).map _
    · -- the message fits no type, so the other conditions are void
      constructor
      · rintro ⟨hmessages, -, hmalformed⟩
        refine ⟨hmessages, fun _ => hmalformed, fun h => ?_, fun h => ?_⟩
        all_goals
          rw [hty] at h
          cases h
      · intro h
        exact ⟨h.messages, trivial, h.untyped hty⟩
  rw [hty] at htype
  rw [messageFits_iff hty]
  apply Yields.bind (yields_checkedSucc _)
  intro _
  exact Yields.bind_of_eq (htype.returns trivial) (yields_dispatch hty s t1Ns nowMs out)

lemma yields_noteActionTaken (s : Session) (action : Action) :
    Yields (s.checkedNoteActionTaken action) (OpFits s (.actionTaken action))
      (s.noteActionTaken action) := by
  cases action with
  | resubscribe reason => exact (yields_checkedSucc s.stats.resubscribes).map _
  | reconnect reason => exact (yields_checkedSucc s.stats.reconnects).map _

lemma yields_step (r : SessionRun) (op : SessionOp) :
    Yields (r.checkedStep op) (OpFits r.session op) (r.step op) := by
  cases op with
  | connected nowMs => exact Yields.of_eq rfl
  | actionTaken action => exact (yields_noteActionTaken r.session action).map _
  | message payload t1Ns nowMs =>
    exact (yields_onMessage r.session payload t1Ns nowMs r.out).map _

/-- A run passes the checks exactly when each call fits the session before it. -/
lemma yields_run (s : Session) (ops : List SessionOp) :
    Yields (checkedRun s ops)
      (∀ before op, before ++ [op] <+: ops → OpFits (run s before).session op) (run s ops) :=
  Yields.foldlM yields_step ⟨s, [], []⟩ ops

end ChainMarketPrice.LiveFeed
