import ChainMarketPrice.CefiIngest.CheckedParsers
import ChainMarketPrice.LiveFeed.SessionRun

/-!
# The session with checks

`crates/live-feed/src/session.rs` as the debug profile runs it: every counter, the expected trade
id and the parsers are checked for overflow, and the index of the product is checked.
-/

namespace ChainMarketPrice.LiveFeed

open CefiIngest Checked

namespace Session

/-- One more, unless it overflows. -/
def checkedSucc (counter : UInt64) : Option UInt64 := u64 (counter.toNat + 1)

def checkedProductIndex (s : Session) (payload : List UInt8) : Option (Option ℕ × Stats) := do
  match ← CefiParser.checkedCoinbaseProductId payload with
  | none =>
    let malformed ← checkedSucc s.stats.malformed
    pure (none, { s.stats with malformed := malformed })
  | some id =>
    match s.products.findIdx? fun p => p.name = id with
    | some idx => pure (some idx, s.stats)
    | none =>
      let unknownProduct ← checkedSucc s.stats.unknownProduct
      pure (none, { s.stats with unknownProduct := unknownProduct })

/-- Check 1 of `on_ticker`. -/
def checkedCheckSequence (p : Product) (stats : Stats) (seq : UInt64) :
    Option (Option Action × Stats) :=
  match p.lastSeq with
  | some last =>
    if seq ≤ last then do
      let sequenceRegressions ← checkedSucc stats.sequenceRegressions
      pure (some (.resubscribe (.sequenceRegression last seq)),
        { stats with sequenceRegressions := sequenceRegressions })
    else pure (none, stats)
  | none => pure (none, stats)

/-- Check 1 and check 2 of `on_ticker`. -/
def checkedCheckTicker (p : Product) (stats : Stats) (seq tradeId : UInt64) :
    Option (Option Action × Stats) := do
  let (action, stats) ← checkedCheckSequence p stats seq
  match p.lastTradeId with
  | some last =>
    let expected ← checkedSucc last
    if tradeId ≠ expected ∧ action.isNone then
      let tradeIdGaps ← checkedSucc stats.tradeIdGaps
      pure (some (.resubscribe (.tradeIdGap expected tradeId)),
        { stats with tradeIdGaps := tradeIdGaps })
    else pure (action, stats)
  | none => pure (action, stats)

/-- `on_ticker` from the two results of the parsers on. -/
def checkedEmit (s : Session) (idx : ℕ) (p : Product) (out : List Event) :
    Except String NormalizedBbo → Except String UnifiedTrade → Option Outcome
  | .ok bbo, .ok trade => do
    let (action, stats) ← checkedCheckTicker p s.stats bbo.sequence trade.tradeId
    let p := { p with lastSeq := some bbo.sequence, lastTradeId := some trade.tradeId }
    let eventsEmitted ← checkedSucc stats.eventsEmitted
    let stats := { stats with eventsEmitted := eventsEmitted }
    if trade.tradeId > p.maxEmittedTradeId then
      let p := { p with maxEmittedTradeId := trade.tradeId }
      let eventsEmitted ← checkedSucc stats.eventsEmitted
      let stats := { stats with eventsEmitted := eventsEmitted }
      pure ⟨action, { s with products := s.products.set idx p, stats := stats },
        out ++ [.bbo bbo, .trade trade]⟩
    else
      pure ⟨action, { s with products := s.products.set idx p, stats := stats },
        out ++ [.bbo bbo]⟩
  | _, _ => do
    let malformed ← checkedSucc s.stats.malformed
    pure ⟨none, { s with stats := { s.stats with malformed := malformed } }, out⟩

/-- `on_ticker` from the index of the product on. -/
def checkedQuote (s : Session) (payload : List UInt8) (t1Ns : UInt64) (out : List Event)
    (idx : ℕ) : Option Outcome := do
  let p ← s.products[idx]?
  let bbo ← (CefiParser.checkedParseCoinbaseTickerBbo p.marketId payload t1Ns).run
  let trade ← (CefiParser.checkedParseCoinbaseTickerTrade p.marketId payload t1Ns).run
  s.checkedEmit idx p out bbo trade

def checkedOnTicker (s : Session) (payload : List UInt8) (t1Ns : UInt64) (out : List Event) :
    Option Outcome := do
  let tickers ← checkedSucc s.stats.tickers
  let s := { s with stats := { s.stats with tickers := tickers } }
  let (index, stats) ← s.checkedProductIndex payload
  let s := { s with stats := stats }
  match index with
  | none => pure ⟨none, s, out⟩
  | some idx => s.checkedQuote payload t1Ns out idx

/-- The end of `on_heartbeat`. -/
def checkedCheckHeartbeat (p : Product) (stats : Stats) (exchangeLastTrade : UInt64) :
    Option (Option Action × Stats) :=
  match p.lastTradeId with
  | some ours =>
    if exchangeLastTrade > ours then do
      let heartbeatBehind ← checkedSucc stats.heartbeatBehind
      pure (some (.resubscribe (.heartbeatBehindExchange ours exchangeLastTrade)),
        { stats with heartbeatBehind := heartbeatBehind })
    else pure (none, stats)
  | none => pure (none, stats)

/-- `on_heartbeat` from the two numbers of the message on. -/
def checkedCompareTrades (s : Session) (idx : ℕ) (p : Product) (out : List Event)
    (seq exchangeLastTrade : UInt64) : Option Outcome :=
  match p.lastSeq with
  | some last =>
    if seq ≤ last then do
      let sequenceRegressions ← checkedSucc s.stats.sequenceRegressions
      pure ⟨some (.resubscribe (.sequenceRegression last seq)),
        { s with stats := { s.stats with sequenceRegressions := sequenceRegressions } }, out⟩
    else do
      let p := { p with lastSeq := some seq }
      let (action, stats) ← checkedCheckHeartbeat p s.stats exchangeLastTrade
      pure ⟨action, { s with products := s.products.set idx p, stats := stats }, out⟩
  | none => do
    let (action, stats) ← checkedCheckHeartbeat p s.stats exchangeLastTrade
    pure ⟨action, { s with stats := stats }, out⟩

/-- `on_heartbeat` from the index of the product on. -/
def checkedBeat (s : Session) (payload : List UInt8) (out : List Event) (idx : ℕ) :
    Option Outcome := do
  match ← CefiParser.checkedCoinbaseSequence payload with
  | none => pure ⟨none, s, out⟩
  | some seq =>
    match ← CefiParser.checkedCoinbaseTradeId payload with
    | none => pure ⟨none, s, out⟩
    | some exchangeLastTrade =>
      let p ← s.products[idx]?
      s.checkedCompareTrades idx p out seq exchangeLastTrade

def checkedOnHeartbeat (s : Session) (payload : List UInt8) (out : List Event) :
    Option Outcome := do
  let heartbeats ← checkedSucc s.stats.heartbeats
  let s := { s with stats := { s.stats with heartbeats := heartbeats } }
  let (index, stats) ← s.checkedProductIndex payload
  let s := { s with stats := stats }
  match index with
  | none => pure ⟨none, s, out⟩
  | some idx => s.checkedBeat payload out idx

def checkedOnMessage (s : Session) (payload : List UInt8) (t1Ns nowMs : UInt64)
    (out : List Event) : Option Outcome := do
  let messages ← checkedSucc s.stats.messages
  let s := { s with stats := { s.stats with messages := messages }, lastMessageMs := nowMs }
  match ← CefiParser.checkedCoinbaseMessageType payload with
  | none =>
    let malformed ← checkedSucc s.stats.malformed
    pure ⟨none, { s with stats := { s.stats with malformed := malformed } }, out⟩
  | some ty =>
    if ty = Bytes.ofString "ticker" then s.checkedOnTicker payload t1Ns out
    else if ty = Bytes.ofString "heartbeat" then s.checkedOnHeartbeat payload out
    else if ty = Bytes.ofString "error" then pure ⟨some (.reconnect .serverError), s, out⟩
    else pure ⟨none, s, out⟩

def checkedNoteActionTaken (s : Session) : Action → Option Session
  | .resubscribe _ => do
    let resubscribes ← checkedSucc s.stats.resubscribes
    pure { s with stats := { s.stats with resubscribes := resubscribes } }.resetBaselines
  | .reconnect _ => do
    let reconnects ← checkedSucc s.stats.reconnects
    pure { s with stats := { s.stats with reconnects := reconnects } }.resetBaselines

end Session

namespace SessionRun

def checkedStep (r : SessionRun) (op : SessionOp) : Option SessionRun :=
  match op with
  | .connected nowMs => pure ⟨r.session.onConnected nowMs, r.out, r.calls ++ [⟨op, [], none⟩]⟩
  | .actionTaken action => do
    let session ← r.session.checkedNoteActionTaken action
    pure ⟨session, r.out, r.calls ++ [⟨op, [], none⟩]⟩
  | .message payload t1Ns nowMs => do
    let o ← r.session.checkedOnMessage payload t1Ns nowMs r.out
    pure ⟨o.session, o.out, r.calls ++ [⟨op, o.out.drop r.out.length, o.action⟩]⟩

/-- The run of a list of calls, up to the first overflow. -/
def checkedRun (s : Session) (ops : List SessionOp) : Option SessionRun :=
  ops.foldlM checkedStep ⟨s, [], []⟩

end SessionRun
end ChainMarketPrice.LiveFeed
