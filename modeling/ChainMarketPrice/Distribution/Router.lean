import ChainMarketPrice.Lib.FiniteMap
import ChainMarketPrice.Distribution.ClientBitmap
import ChainMarketPrice.Distribution.ClientSession
import ChainMarketPrice.Distribution.FastJson
import ChainMarketPrice.Distribution.Sbe
import ChainMarketPrice.Distribution.TopicKey

/-!
# `InvertedTopicRouter`

`crates/distribution/src/router.rs`. Two maps, each behind a lock of its own: topics to
bitmaps of client ids, and client ids to sessions. The operations that take both locks take
them one after the other; their two critical sections are definitions of their own here, so
that the interleaved model can run them apart. A lock is poisoned only by a panic inside a
section, so `RouterError::LockPoisoned` does not occur; no operation answers
`RouterError::CapacityExceeded`.
-/

namespace ChainMarketPrice.Distribution

open FiniteMap

def streamTypeBbo : UInt8 := 1
def streamTypeTrade : UInt8 := 3

/-- `RouterError`. -/
inductive RouterError
  | clientAlreadyExists (id : UInt32)
  | clientNotFound (id : UInt32)
deriving Repr, DecidableEq

/-- `DispatchMetrics`. -/
structure DispatchMetrics where
  matchedClients : ℕ := 0
  deliveredClients : ℕ := 0
  filteredClients : ℕ := 0
  rateLimitedClients : ℕ := 0
  sbeBytesDispatched : ℕ := 0
  jsonBytesDispatched : ℕ := 0
deriving Repr, DecidableEq

/-- `InvertedTopicRouter`. -/
structure InvertedTopicRouter where
  topics : Map TopicKey ClientBitmap
  clients : Map UInt32 ClientSession

/-- One call of the sink of a dispatch. -/
structure SinkCall where
  clientId : UInt32
  protocol : WireProtocol
  payload : List UInt8
deriving Repr, DecidableEq

namespace InvertedTopicRouter

def new : InvertedTopicRouter := { topics := ∅, clients := ∅ }

/-! ## Registration and subscription -/

def registerClient (r : InvertedTopicRouter) (session : ClientSession) :
    Except RouterError UInt32 × InvertedTopicRouter :=
  let id := session.id
  match r.clients.lookup id with
  | some _ => (.error (.clientAlreadyExists id), r)
  | none => (.ok id, { r with clients := r.clients.insert id session })

/-- The first section of `unregister_client`: `none` when the client is not there. The state
of the removed session is set to closed as it is dropped. -/
def removeClient (r : InvertedTopicRouter) (clientId : UInt32) : Option InvertedTopicRouter :=
  match r.clients.lookup clientId with
  | some _ => some { r with clients := r.clients.erase clientId }
  | none => none

/-- The second section of `unregister_client`. -/
def removeFromTopics (r : InvertedTopicRouter) (clientId : UInt32) : InvertedTopicRouter :=
  { r with
    topics := retain (fun bitmap => !bitmap.isEmpty)
      (mapValues (fun bitmap => (bitmap.remove clientId).2) r.topics) }

def unregisterClient (r : InvertedTopicRouter) (clientId : UInt32) :
    Except RouterError Unit × InvertedTopicRouter :=
  match r.removeClient clientId with
  | some r => (.ok (), r.removeFromTopics clientId)
  | none => (.error (.clientNotFound clientId), r)

/-- The first section of `subscribe`: `none` when the client is not there. -/
def markSubscribed (r : InvertedTopicRouter) (clientId : UInt32) : Option InvertedTopicRouter :=
  match r.clients.lookup clientId with
  | some session =>
    some { r with clients := r.clients.insert clientId (session.setState .subscribed) }
  | none => none

/-- The second section of `subscribe`. -/
def insertIntoTopic (r : InvertedTopicRouter) (clientId : UInt32) (topic : TopicKey) :
    InvertedTopicRouter :=
  let bitmap := (r.topics.lookup topic).getD .new
  { r with topics := r.topics.insert topic (bitmap.insert clientId).2 }

def subscribe (r : InvertedTopicRouter) (clientId : UInt32) (topic : TopicKey) :
    Except RouterError Unit × InvertedTopicRouter :=
  match r.markSubscribed clientId with
  | some r => (.ok (), r.insertIntoTopic clientId topic)
  | none => (.error (.clientNotFound clientId), r)

def unsubscribe (r : InvertedTopicRouter) (clientId : UInt32) (topic : TopicKey) :
    Except RouterError Unit × InvertedTopicRouter :=
  match r.topics.lookup topic with
  | some bitmap => (.ok (), { r with topics := r.topics.insert topic (bitmap.remove clientId).2 })
  | none => (.ok (), r)

def updateFilter (r : InvertedTopicRouter) (clientId : UInt32) (filter : ClientFilterPredicate) :
    Except RouterError Unit × InvertedTopicRouter :=
  match r.clients.lookup clientId with
  | some session =>
    (.ok (), { r with clients := r.clients.insert clientId (session.withFilter filter) })
  | none => (.error (.clientNotFound clientId), r)

def clientCount (r : InvertedTopicRouter) : ℕ := r.clients.entries.length

def topicCount (r : InvertedTopicRouter) : ℕ := r.topics.entries.length

/-! ## Dispatch -/

/-- An event to fan out: the filter it is tested with, and its encoders, which get the
buffer and return the length written, if any, and the buffer after. -/
structure Outbound where
  accepts : ClientFilterPredicate → Bool
  sbeCapacity : ℕ
  encodeSbe : List UInt8 → Option ℕ × List UInt8
  encodeJson : List UInt8 → Option ℕ × List UInt8

/-- A wire buffer that is filled at the first use: `sbe_buf`, `sbe_encoded`, `sbe_len` and
their JSON counterparts. -/
structure LazyBuffer where
  buf : List UInt8
  encoded : Bool := false
  len : ℕ := 0
deriving Repr, DecidableEq

def LazyBuffer.fill (b : LazyBuffer) (encode : List UInt8 → Option ℕ × List UInt8) : LazyBuffer :=
  if b.encoded then b
  else
    match encode b.buf with
    | (some len, buf) => { buf := buf, encoded := true, len := len }
    | (none, buf) => { b with buf := buf }

/-- The variables the dispatch closure captures. -/
structure DispatchState where
  metrics : DispatchMetrics
  clients : Map UInt32 ClientSession
  sbe : LazyBuffer
  json : LazyBuffer
  sent : List SinkCall

/-- The closure: one candidate of a dispatch. -/
def dispatchClient (out : Outbound) (nowMs : UInt64) (st : DispatchState) (clientId : UInt32) :
    DispatchState :=
  let m := { st.metrics with matchedClients := st.metrics.matchedClients + 1 }
  match st.clients.lookup clientId with
  | none => { st with metrics := m }
  | some session =>
    if !session.isActive then { st with metrics := m }
    else if !out.accepts session.filter then
      { st with metrics := { m with filteredClients := m.filteredClients + 1 } }
    else
      let (allowed, session) := session.tryConsumeToken 1 nowMs
      if !allowed then
        { st with
          metrics := { m with rateLimitedClients := m.rateLimitedClients + 1 }
          clients := st.clients.insert clientId session }
      else
        -- lazy wire encoding according to the client's protocol
        match session.protocol with
        | .sbe =>
          let sbe := st.sbe.fill out.encodeSbe
          if sbe.encoded then
            { st with
              metrics :=
                { m with
                  deliveredClients := m.deliveredClients + 1
                  sbeBytesDispatched := m.sbeBytesDispatched + sbe.len }
              clients := st.clients.insert clientId (session.recordDelivery sbe.len)
              sbe := sbe
              sent := st.sent ++ [⟨clientId, .sbe, sbe.buf.take sbe.len⟩] }
          else { st with metrics := m, clients := st.clients.insert clientId session, sbe := sbe }
        | .json =>
          let json := st.json.fill out.encodeJson
          if json.encoded then
            { st with
              metrics :=
                { m with
                  deliveredClients := m.deliveredClients + 1
                  jsonBytesDispatched := m.jsonBytesDispatched + json.len }
              clients := st.clients.insert clientId (session.recordDelivery json.len)
              json := json
              sent := st.sent ++ [⟨clientId, .json, json.buf.take json.len⟩] }
          else { st with metrics := m, clients := st.clients.insert clientId session, json := json }

/-- A dispatch to the candidates of a bitmap: the router after, the metrics and the calls of
the sink. -/
def dispatch (r : InvertedTopicRouter) (out : Outbound) (candidates : ClientBitmap)
    (nowMs : UInt64) : InvertedTopicRouter × DispatchMetrics × List SinkCall :=
  if candidates.isEmpty then (r, {}, [])
  else
    let st := candidates.forEach (dispatchClient out nowMs)
      { metrics := {}, clients := r.clients, sbe := { buf := List.replicate out.sbeCapacity 0 },
        json := { buf := List.replicate 512 0 }, sent := [] }
    ({ r with clients := st.clients }, st.metrics, st.sent)

/-- The topic of a best bid and offer with its own flags. -/
def exactTopic (bbo : NormalizedBbo) : TopicKey :=
  .new bbo.venue.toUInt8 bbo.marketId streamTypeBbo bbo.flags.toUInt32

/-- The topic of a best bid and offer without flags. -/
def defaultTopic (bbo : NormalizedBbo) : TopicKey :=
  .new bbo.venue.toUInt8 bbo.marketId streamTypeBbo 0

/-- The max-spread filter and the encoders of `dispatch_bbo`. -/
def bboOutbound (bbo : NormalizedBbo) : Outbound where
  accepts := fun filter =>
    !(decide (filter.maxSpreadBps > 0) && decide (bbo.spreadBps.toUInt32 > filter.maxSpreadBps))
  sbeCapacity := Sbe.totalSbeBboLen
  encodeSbe := fun buf => (Sbe.encodeBboSbe bbo buf).map Except.toOption id
  encodeJson := fun buf => (FastJson.serializeBboJson bbo buf).map Except.toOption id

/-- The candidates of `dispatch_bbo`: the exact and the default topic together. -/
def bboCandidates (r : InvertedTopicRouter) (bbo : NormalizedBbo) : ClientBitmap :=
  let exact := (r.topics.lookup (exactTopic bbo)).getD .new
  if exactTopic bbo ≠ defaultTopic bbo then
    exact.union ((r.topics.lookup (defaultTopic bbo)).getD .new)
  else exact

def dispatchBbo (r : InvertedTopicRouter) (bbo : NormalizedBbo) (nowMs : UInt64) :
    InvertedTopicRouter × DispatchMetrics × List SinkCall :=
  r.dispatch (bboOutbound bbo) (r.bboCandidates bbo) nowMs

/-- The topic of a trade. -/
def tradeTopic (trade : UnifiedTrade) : TopicKey :=
  .new trade.venue.toUInt8 trade.marketId streamTypeTrade 0

/-- The encoders of `dispatch_trade`. The notional filter compares two `f64`; it is a parameter. -/
def tradeOutbound (trade : UnifiedTrade) (matchesTrade : ClientFilterPredicate → Bool) :
    Outbound where
  accepts := matchesTrade
  sbeCapacity := Sbe.totalSbeTradeLen
  encodeSbe := fun buf => (Sbe.encodeTradeSbe trade buf).map Except.toOption id
  encodeJson := fun buf => (FastJson.serializeTradeJson trade buf).map Except.toOption id

/-- The candidates of `dispatch_trade`. -/
def tradeCandidates (r : InvertedTopicRouter) (trade : UnifiedTrade) : ClientBitmap :=
  (r.topics.lookup (tradeTopic trade)).getD .new

def dispatchTrade (r : InvertedTopicRouter) (trade : UnifiedTrade)
    (matchesTrade : ClientFilterPredicate → Bool) (nowMs : UInt64) :
    InvertedTopicRouter × DispatchMetrics × List SinkCall :=
  r.dispatch (tradeOutbound trade matchesTrade) (r.tradeCandidates trade) nowMs

end InvertedTopicRouter
end ChainMarketPrice.Distribution
