import ChainMarketPrice.Lib.Machine
import ChainMarketPrice.Lib.RingWindow

/-!
# `IsolatedConsumerQueue`: a ring with a saturation policy

`crates/core-engine/src/simulator.rs`. The layout is that of the single-producer
single-consumer ring, but under `DropOldest` a saturated `push_with_policy` also writes
the consumer's cursor. The two calls are cut at every access to the shared memory, one
access an action. The telemetry counters are written only, so their increments are done
with the access next to them.

Cursors and counters are `u64`: additions wrap.
-/

namespace ChainMarketPrice.CoreEngine
namespace IsolatedConsumerQueue

open RingWindow

/-- `SaturationDropPolicy`. -/
inductive SaturationDropPolicy
  | dropNewest
  | dropOldest
deriving Repr, DecidableEq

/-- `PushResult`. -/
inductive PushResult
  | enqueued
  | droppedNewest
  | evictedOldest
deriving Repr, DecidableEq

/-- `QueueMetrics`. -/
structure QueueMetrics where
  totalEnqueued : UInt64 := 0
  totalDropped : UInt64 := 0
  totalEvicted : UInt64 := 0
  totalConsumed : UInt64 := 0
  saturationEvents : UInt64 := 0
deriving Repr, DecidableEq

/-- The shared memory of the queue. -/
structure Queue (T : Type) (k : ℕ) where
  producerCursor : UInt64
  cachedConsumerCursor : UInt64
  consumerCursor : UInt64
  cachedProducerCursor : UInt64
  buffer : Fin (2 ^ k) → T
  metrics : QueueMetrics

/-- Where the producer is inside `push_with_policy`: the access it does next. The last two
carry the result the call is going to return. -/
inductive PushPc (T : Type)
  | idle
  | loadCachedTail (item : T) (policy : SaturationDropPolicy) (currentHead : UInt64)
  | loadTail (item : T) (policy : SaturationDropPolicy) (currentHead : UInt64)
  | storeCachedTail (item : T) (policy : SaturationDropPolicy) (currentHead actualTail : UInt64)
  | evictTail (item : T) (currentHead actualTail : UInt64)
  | storeEvictedTail (item : T) (currentHead newTail : UInt64)
  | writeSlot (item : T) (currentHead : UInt64) (result : PushResult)
  | storeHead (item : T) (currentHead : UInt64) (result : PushResult)
deriving Repr, DecidableEq

/-- Where the consumer is inside `try_pop`. -/
inductive PopPc (T : Type)
  | idle
  | loadCachedHead (currentTail : UInt64)
  | loadHead (currentTail : UInt64)
  | storeCachedHead (currentTail actualHead : UInt64)
  | readSlot (currentTail : UInt64)
  | storeTail (item : T) (currentTail : UInt64)
deriving Repr, DecidableEq

/-- The queue, both sides, and what their calls have returned: the items of the pushes
that returned `Enqueued` or `EvictedOldest`, all push results, and the items popped. -/
structure State (T : Type) (k : ℕ) where
  queue : Queue T k
  push : PushPc T
  pop : PopPc T
  accepted : List T
  results : List PushResult
  popped : List T

/-- One access; `callPush` and `callPop` enter a call with its first load. -/
inductive Action (T : Type)
  | callPush (item : T) (policy : SaturationDropPolicy)
  | push
  | callPop
  | pop
deriving Repr, DecidableEq

variable {T : Type} {k : ℕ}

/-- `IsolatedConsumerQueue::new`. -/
def State.new [Inhabited T] : State T k where
  queue :=
    { producerCursor := 0, cachedConsumerCursor := 0, consumerCursor := 0,
      cachedProducerCursor := 0, buffer := fun _ => default, metrics := {} }
  push := .idle
  pop := .idle
  accepted := []
  results := []
  popped := []

/-- The counter a returning push increments. -/
def QueueMetrics.recordPush (m : QueueMetrics) : PushResult → QueueMetrics
  | .enqueued => { m with totalEnqueued := m.totalEnqueued + 1 }
  | .droppedNewest => { m with totalDropped := m.totalDropped + 1 }
  | .evictedOldest => { m with totalEvicted := m.totalEvicted + 1 }

/-- The next access of `push_with_policy`. -/
def pushWithPolicyStep (s : State T k) : Option (State T k) :=
  let q := s.queue
  match s.push with
  | .idle => none
  | .loadCachedTail item policy currentHead =>
    -- fast path: capacity available according to the cached cursor
    if currentHead < q.cachedConsumerCursor + capacity64 k then
      some { s with push := .writeSlot item currentHead .enqueued }
    else
      some { s with push := .loadTail item policy currentHead }
  | .loadTail item policy currentHead =>
    some { s with push := .storeCachedTail item policy currentHead q.consumerCursor }
  | .storeCachedTail item policy currentHead actualTail =>
    let q := { q with cachedConsumerCursor := actualTail }
    if currentHead < actualTail + capacity64 k then
      some { s with queue := q, push := .writeSlot item currentHead .enqueued }
    else
      -- saturated: apply the drop policy
      let m := { q.metrics with saturationEvents := q.metrics.saturationEvents + 1 }
      match policy with
      | .dropNewest =>
        some { s with
          queue := { q with metrics := m.recordPush .droppedNewest }
          push := .idle
          results := s.results ++ [.droppedNewest] }
      | .dropOldest =>
        some { s with
          queue := { q with metrics := m }
          push := .evictTail item currentHead actualTail }
  | .evictTail item currentHead actualTail =>
    some { s with
      queue := { q with consumerCursor := actualTail + 1 }
      push := .storeEvictedTail item currentHead (actualTail + 1) }
  | .storeEvictedTail item currentHead newTail =>
    some { s with
      queue := { q with cachedConsumerCursor := newTail }
      push := .writeSlot item currentHead .evictedOldest }
  | .writeSlot item currentHead result =>
    some { s with
      queue := { q with buffer := Function.update q.buffer (slotOf k currentHead.toNat) item }
      push := .storeHead item currentHead result }
  | .storeHead item currentHead result =>
    some { s with
      queue :=
        { q with producerCursor := currentHead + 1, metrics := q.metrics.recordPush result }
      push := .idle
      accepted := s.accepted ++ [item]
      results := s.results ++ [result] }

/-- The next access of `try_pop`. -/
def tryPopStep (s : State T k) : Option (State T k) :=
  let q := s.queue
  match s.pop with
  | .idle => none
  | .loadCachedHead currentTail =>
    if currentTail ≥ q.cachedProducerCursor then
      some { s with pop := .loadHead currentTail }
    else
      some { s with pop := .readSlot currentTail }
  | .loadHead currentTail =>
    some { s with pop := .storeCachedHead currentTail q.producerCursor }
  | .storeCachedHead currentTail actualHead =>
    let q := { q with cachedProducerCursor := actualHead }
    if currentTail ≥ actualHead then
      some { s with queue := q, pop := .idle }
    else
      some { s with queue := q, pop := .readSlot currentTail }
  | .readSlot currentTail =>
    some { s with pop := .storeTail (q.buffer (slotOf k currentTail.toNat)) currentTail }
  | .storeTail item currentTail =>
    some { s with
      queue :=
        { q with
          consumerCursor := currentTail + 1
          metrics := { q.metrics with totalConsumed := q.metrics.totalConsumed + 1 } }
      pop := .idle
      popped := s.popped ++ [item] }

/-- One access by either side. -/
def step (s : State T k) : Action T → Option (State T k)
  | .callPush item policy =>
    if s.push matches .idle then
      some { s with push := .loadCachedTail item policy s.queue.producerCursor }
    else none
  | .push => pushWithPolicyStep s
  | .callPop =>
    if s.pop matches .idle then
      some { s with pop := .loadCachedHead s.queue.consumerCursor }
    else none
  | .pop => tryPopStep s

/-- The interleavings of one producer and one consumer on a fresh queue. -/
def machine (T : Type) (k : ℕ) [Inhabited T] : Machine (State T k) (Action T) where
  init := State.new
  step := step

end IsolatedConsumerQueue
end ChainMarketPrice.CoreEngine
