import ChainMarketPrice.CefiIngest.Coinbase

/-!
# The Coinbase session

`crates/live-feed/src/session.rs`: the state machine behind the `ticker` and `heartbeat`
channels. For each product it keeps the last sequence number and the last trade id of the
present subscription, and asks for a resubscription when a message does not continue them.
-/

namespace ChainMarketPrice.LiveFeed

open CefiIngest

/-- `Event`. -/
inductive Event
  | bbo (bbo : NormalizedBbo)
  | trade (trade : UnifiedTrade)
deriving Repr, DecidableEq

/-- `Reason`. -/
inductive Reason
  | sequenceRegression (last got : UInt64)
  | tradeIdGap (expected got : UInt64)
  | heartbeatBehindExchange (ours exchange : UInt64)
  | serverError
  | stale
  | disconnected
deriving Repr, DecidableEq

/-- `Action`. -/
inductive Action
  | resubscribe (reason : Reason)
  | reconnect (reason : Reason)
deriving Repr, DecidableEq

/-- `Stats`. -/
structure Stats where
  messages : UInt64 := 0
  tickers : UInt64 := 0
  heartbeats : UInt64 := 0
  eventsEmitted : UInt64 := 0
  malformed : UInt64 := 0
  unknownProduct : UInt64 := 0
  sequenceRegressions : UInt64 := 0
  tradeIdGaps : UInt64 := 0
  heartbeatBehind : UInt64 := 0
  resubscribes : UInt64 := 0
  reconnects : UInt64 := 0
deriving Repr, DecidableEq

/-- `Product`. The name is a string in the source and is only compared by its bytes. -/
structure Product where
  name : List UInt8
  marketId : UInt32
  lastSeq : Option UInt64 := none
  lastTradeId : Option UInt64 := none
  maxEmittedTradeId : UInt64 := 0
deriving Repr, DecidableEq

/-- `Session`. -/
structure Session where
  products : List Product
  lastMessageMs : UInt64
  staleAfterMs : UInt64
  stats : Stats
deriving Repr, DecidableEq

namespace Session

def new (products : List (List UInt8)) (staleAfterMs : UInt64) : Session where
  products := products.mapIdx fun i name => { name := name, marketId := UInt32.ofNat i + 1 }
  lastMessageMs := 0
  staleAfterMs := staleAfterMs
  stats := {}

def resetBaselines (s : Session) : Session :=
  { s with products := s.products.map fun p => { p with lastSeq := none, lastTradeId := none } }

def onConnected (s : Session) (nowMs : UInt64) : Session :=
  { s.resetBaselines with lastMessageMs := nowMs }

def noteActionTaken (s : Session) (action : Action) : Session :=
  let stats :=
    match action with
    | .resubscribe _ => { s.stats with resubscribes := s.stats.resubscribes + 1 }
    | .reconnect _ => { s.stats with reconnects := s.stats.reconnects + 1 }
  { s with stats := stats }.resetBaselines

def onTick (s : Session) (nowMs : UInt64) : Option Action :=
  -- `saturating_sub`
  let silentMs := if nowMs < s.lastMessageMs then 0 else nowMs - s.lastMessageMs
  if silentMs > s.staleAfterMs then some (.reconnect .stale) else none

/-- What a handler leaves: the returned action, the session and the output list. -/
structure Outcome where
  action : Option Action
  session : Session
  out : List Event
deriving Repr, DecidableEq

/-- `product_index`, with the counters after it. -/
def productIndex (s : Session) (payload : List UInt8) : Option ℕ × Stats :=
  match CefiParser.coinbaseProductId payload with
  | none => (none, { s.stats with malformed := s.stats.malformed + 1 })
  | some id =>
    match s.products.findIdx? fun p => p.name = id with
    | some idx => (some idx, s.stats)
    | none => (none, { s.stats with unknownProduct := s.stats.unknownProduct + 1 })

/-- Check 1 of `on_ticker`: the action and the counters after it. -/
def checkSequence (p : Product) (stats : Stats) (seq : UInt64) : Option Action × Stats :=
  match p.lastSeq with
  | some last =>
    if seq ≤ last then
      (some (.resubscribe (.sequenceRegression last seq)),
        { stats with sequenceRegressions := stats.sequenceRegressions + 1 })
    else (none, stats)
  | none => (none, stats)

/-- Check 1 and check 2 of `on_ticker`. A gap is not reported on top of a regression. -/
def checkTicker (p : Product) (stats : Stats) (seq tradeId : UInt64) : Option Action × Stats :=
  let (action, stats) := checkSequence p stats seq
  match p.lastTradeId with
  | some last =>
    let expected := last + 1
    if tradeId ≠ expected ∧ action.isNone then
      (some (.resubscribe (.tradeIdGap expected tradeId)),
        { stats with tradeIdGaps := stats.tradeIdGaps + 1 })
    else (action, stats)
  | none => (action, stats)

def onTicker (s : Session) (payload : List UInt8) (t1Ns : UInt64) (out : List Event) : Outcome :=
  let s := { s with stats := { s.stats with tickers := s.stats.tickers + 1 } }
  let (index, stats) := s.productIndex payload
  let s := { s with stats := stats }
  match index with
  | none => ⟨none, s, out⟩
  | some idx =>
    match s.products[idx]? with
    | none => ⟨none, s, out⟩ -- `product_index` returns a position of the list
    | some p =>
      match CefiParser.parseCoinbaseTickerBbo p.marketId payload t1Ns,
          CefiParser.parseCoinbaseTickerTrade p.marketId payload t1Ns with
      | .ok bbo, .ok trade =>
        let (action, stats) := checkTicker p s.stats bbo.sequence trade.tradeId
        let p := { p with lastSeq := some bbo.sequence, lastTradeId := some trade.tradeId }
        let stats := { stats with eventsEmitted := stats.eventsEmitted + 1 }
        if trade.tradeId > p.maxEmittedTradeId then
          let p := { p with maxEmittedTradeId := trade.tradeId }
          let stats := { stats with eventsEmitted := stats.eventsEmitted + 1 }
          ⟨action, { s with products := s.products.set idx p, stats := stats },
            out ++ [.bbo bbo, .trade trade]⟩
        else
          ⟨action, { s with products := s.products.set idx p, stats := stats }, out ++ [.bbo bbo]⟩
      | _, _ =>
        ⟨none, { s with stats := { s.stats with malformed := s.stats.malformed + 1 } }, out⟩

/-- The end of `on_heartbeat`: the exchange's last trade against ours. -/
def checkHeartbeat (p : Product) (stats : Stats) (exchangeLastTrade : UInt64) :
    Option Action × Stats :=
  match p.lastTradeId with
  | some ours =>
    if exchangeLastTrade > ours then
      (some (.resubscribe (.heartbeatBehindExchange ours exchangeLastTrade)),
        { stats with heartbeatBehind := stats.heartbeatBehind + 1 })
    else (none, stats)
  | none => (none, stats)

def onHeartbeat (s : Session) (payload : List UInt8) (out : List Event) : Outcome :=
  let s := { s with stats := { s.stats with heartbeats := s.stats.heartbeats + 1 } }
  let (index, stats) := s.productIndex payload
  let s := { s with stats := stats }
  match index with
  | none => ⟨none, s, out⟩
  | some idx =>
    match CefiParser.coinbaseSequence payload, CefiParser.coinbaseTradeId payload with
    | some seq, some exchangeLastTrade =>
      match s.products[idx]? with
      | none => ⟨none, s, out⟩ -- `product_index` returns a position of the list
      | some p =>
        match p.lastSeq with
        | some last =>
          if seq ≤ last then
            ⟨some (.resubscribe (.sequenceRegression last seq)),
              { s with
                stats :=
                  { s.stats with sequenceRegressions := s.stats.sequenceRegressions + 1 } }, out⟩
          else
            let p := { p with lastSeq := some seq }
            let (action, stats) := checkHeartbeat p s.stats exchangeLastTrade
            ⟨action, { s with products := s.products.set idx p, stats := stats }, out⟩
        | none =>
          let (action, stats) := checkHeartbeat p s.stats exchangeLastTrade
          ⟨action, { s with stats := stats }, out⟩
    | _, _ => ⟨none, s, out⟩

def onMessage (s : Session) (payload : List UInt8) (t1Ns nowMs : UInt64) (out : List Event) :
    Outcome :=
  let s :=
    { s with
      stats := { s.stats with messages := s.stats.messages + 1 }
      lastMessageMs := nowMs }
  match CefiParser.coinbaseMessageType payload with
  | none => ⟨none, { s with stats := { s.stats with malformed := s.stats.malformed + 1 } }, out⟩
  | some ty =>
    if ty = Bytes.ofString "ticker" then s.onTicker payload t1Ns out
    else if ty = Bytes.ofString "heartbeat" then s.onHeartbeat payload out
    else if ty = Bytes.ofString "error" then ⟨some (.reconnect .serverError), s, out⟩
    else ⟨none, s, out⟩ -- acknowledgements of subscriptions and anything else

end Session
end ChainMarketPrice.LiveFeed
