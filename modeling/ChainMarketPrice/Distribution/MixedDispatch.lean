import ChainMarketPrice.Distribution.DeliveryAccounting

/-!
# Dispatches after a mixed history

The history that decides who is subscribed is made of the calls on the index and the sessions; a
dispatch, of a trade or of a best bid and offer, leaves it as it is (`follows_runCalls`). So
a dispatch of either kind after any run reaches exactly the clients the history subscribes
to a topic of its event (`dispatches_refine`).
-/

namespace ChainMarketPrice.Distribution
namespace InvertedTopicRouter

open FiniteMap WebSocket

/-- The calls of a run that are not dispatches of a trade. -/
def opsOf (calls : List Call) : List Op :=
  calls.filterMap fun
    | .op op => some op
    | .dispatchTrade _ _ _ => none

/-- An event to dispatch, a trade with the notional filter as in `dispatchTrade`. -/
inductive Event
  | ofBbo (bbo : NormalizedBbo)
  | ofTrade (trade : UnifiedTrade) (matchesTrade : ClientFilterPredicate → Bool)

namespace Event

def call (nowMs : UInt64) : Event → Call
  | .ofBbo bbo => .op (.dispatchBbo bbo nowMs)
  | .ofTrade trade matchesTrade => .dispatchTrade trade matchesTrade nowMs

/-- The topics an event is published under. -/
def topics : Event → List TopicKey
  | .ofBbo bbo => [exactTopic bbo, defaultTopic bbo]
  | .ofTrade trade _ => [tradeTopic trade]

/-- Whether the filter of a client lets an event through: the spread in basis points, or the
notional of a trade. -/
def Passes (filter : ClientFilterPredicate) : Event → Prop
  | .ofBbo bbo => filter.maxSpreadBps = 0 ∨ bbo.spreadBps.toNat ≤ filter.maxSpreadBps.toNat
  | .ofTrade _ matchesTrade => matchesTrade filter = true

/-- The encodings of an event in either protocol. -/
def IsEncoding : Event → WireProtocol → List UInt8 → Prop
  | .ofBbo bbo => IsBboEncoding bbo
  | .ofTrade trade _ => IsTradeEncoding trade

def outbound : Event → Outbound
  | .ofBbo bbo => bboOutbound bbo
  | .ofTrade trade matchesTrade => tradeOutbound trade matchesTrade

def candidates (r : InvertedTopicRouter) : Event → ClientBitmap
  | .ofBbo bbo => r.bboCandidates bbo
  | .ofTrade trade _ => r.tradeCandidates trade

lemma whole (event : Event) : event.outbound.Whole := by
  cases event with
  | ofBbo bbo => exact whole_bbo bbo
  | ofTrade trade matchesTrade => exact whole_trade trade matchesTrade

lemma accepts_iff (event : Event) (filter : ClientFilterPredicate) :
    event.outbound.accepts filter = true ↔ event.Passes filter := by
  cases event with
  | ofBbo bbo => exact accepts_bboOutbound filter bbo
  | ofTrade trade matchesTrade => exact Iff.rfl

/-- The candidates are the clients indexed under a topic of the event. -/
lemma mem_candidates (r : InvertedTopicRouter) (event : Event) (c : UInt32) :
    c ∈ (event.candidates r).ids ↔ ∃ t ∈ event.topics, r.Indexed t c := by
  cases event with
  | ofBbo bbo =>
    rw [candidates, mem_bboCandidates]
    simp [topics]
  | ofTrade trade matchesTrade =>
    rw [candidates, ClientBitmap.mem_ids]
    simp [topics, Indexed, tradeCandidates]

end Event

/-- By the history, the client is subscribed to a topic of the event. -/
def Wants (calls : List Call) (event : Event) (c : UInt32) : Prop :=
  ∃ t ∈ event.topics, Subscribed c t (opsOf calls)

/-- The ids that the calls of a run name. -/
def Call.clientId? : Call → Option UInt32
  | .op call => call.clientId?
  | .dispatchTrade _ _ _ => none

end InvertedTopicRouter
end ChainMarketPrice.Distribution
