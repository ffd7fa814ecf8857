import ChainMarketPrice.Lib.Machine
import ChainMarketPrice.Lib.RingWindow

/-!
# `SpscRingBuffer`: single producer, single consumer

`crates/core-engine/src/lib.rs`. The ring is shared memory of four cursors and a slot
array; `try_push` and `try_pop` are cut at every access to it. An action of the machine
is one such access by one side, so its runs are the sequentially consistent interleavings
of one producer and one consumer.

The capacity is `2 ^ k` (`new` asserts a power of two). Cursors are `u64`: additions wrap.
-/

namespace ChainMarketPrice.CoreEngine
namespace SpscRingBuffer

open RingWindow

/-- `u64` addition in the release profile. -/
def add64 (a b : ℕ) : ℕ := (a + b) % 2 ^ 64

/-- The shared memory of the ring. -/
structure Ring (T : Type) (k : ℕ) where
  producerCursor : ℕ
  cachedConsumerCursor : ℕ
  consumerCursor : ℕ
  cachedProducerCursor : ℕ
  buffer : Fin (2 ^ k) → T

/-- Where the producer is inside `try_push`: each constructor is the access it does next,
with the locals that are live there. -/
inductive PushPc (T : Type)
  | idle
  | loadCachedTail (item : T) (currentHead : ℕ)
  | loadTail (item : T) (currentHead : ℕ)
  | storeCachedTail (item : T) (currentHead actualTail unpopped : ℕ)
  | writeSlot (item : T) (currentHead : ℕ)
  | storeHead (item : T) (currentHead : ℕ)
deriving Repr, DecidableEq

/-- Where the consumer is inside `try_pop`. -/
inductive PopPc (T : Type)
  | idle
  | loadCachedHead (currentTail : ℕ)
  | loadHead (currentTail : ℕ)
  | storeCachedHead (currentTail actualHead unpopped : ℕ)
  | readSlot (currentTail : ℕ)
  | storeTail (item : T) (currentTail : ℕ)
deriving Repr, DecidableEq

/-- The ring, both sides, and what their calls have returned so far. `rejected` and
`empties` record, for each `Err(())` and each `None`, how many accepted items were not yet
popped when the call loaded the other side's cursor. -/
structure State (T : Type) (k : ℕ) where
  ring : Ring T k
  push : PushPc T
  pop : PopPc T
  pushed : List T
  popped : List T
  rejected : List ℕ
  empties : List ℕ

/-- One access. `callPush` and `callPop` enter a call with its first load; `push` and
`pop` are the next access of the call in progress. -/
inductive Action (T : Type)
  | callPush (item : T)
  | push
  | callPop
  | pop
deriving Repr, DecidableEq

variable {T : Type} {k : ℕ}

/-- Accepted items not yet popped. -/
def State.unpopped (s : State T k) : ℕ := s.pushed.length - s.popped.length

/-- `SpscRingBuffer::new`. -/
def State.new [Inhabited T] : State T k where
  ring :=
    { producerCursor := 0, cachedConsumerCursor := 0, consumerCursor := 0,
      cachedProducerCursor := 0, buffer := fun _ => default }
  push := .idle
  pop := .idle
  pushed := []
  popped := []
  rejected := []
  empties := []

/-- The next access of `try_push`. -/
def tryPushStep (s : State T k) : Option (State T k) :=
  match s.push with
  | .idle => none
  | .loadCachedTail item currentHead =>
    -- the fullness test on the cached cursor decides which access comes next
    if currentHead ≥ add64 s.ring.cachedConsumerCursor (2 ^ k) then
      some { s with push := .loadTail item currentHead }
    else
      some { s with push := .writeSlot item currentHead }
  | .loadTail item currentHead =>
    some { s with push := .storeCachedTail item currentHead s.ring.consumerCursor s.unpopped }
  | .storeCachedTail item currentHead actualTail unpopped =>
    let s := { s with ring := { s.ring with cachedConsumerCursor := actualTail } }
    if currentHead ≥ add64 actualTail (2 ^ k) then
      some { s with push := .idle, rejected := s.rejected ++ [unpopped] }
    else
      some { s with push := .writeSlot item currentHead }
  | .writeSlot item currentHead =>
    some { s with
      ring := { s.ring with buffer := Function.update s.ring.buffer (slotOf k currentHead) item }
      push := .storeHead item currentHead }
  | .storeHead item currentHead =>
    some { s with
      ring := { s.ring with producerCursor := add64 currentHead 1 }
      push := .idle
      pushed := s.pushed ++ [item] }

/-- The next access of `try_pop`. -/
def tryPopStep (s : State T k) : Option (State T k) :=
  match s.pop with
  | .idle => none
  | .loadCachedHead currentTail =>
    if currentTail ≥ s.ring.cachedProducerCursor then
      some { s with pop := .loadHead currentTail }
    else
      some { s with pop := .readSlot currentTail }
  | .loadHead currentTail =>
    some { s with pop := .storeCachedHead currentTail s.ring.producerCursor s.unpopped }
  | .storeCachedHead currentTail actualHead unpopped =>
    let s := { s with ring := { s.ring with cachedProducerCursor := actualHead } }
    if currentTail ≥ actualHead then
      some { s with pop := .idle, empties := s.empties ++ [unpopped] }
    else
      some { s with pop := .readSlot currentTail }
  | .readSlot currentTail =>
    some { s with pop := .storeTail (s.ring.buffer (slotOf k currentTail)) currentTail }
  | .storeTail item currentTail =>
    some { s with
      ring := { s.ring with consumerCursor := add64 currentTail 1 }
      pop := .idle
      popped := s.popped ++ [item] }

/-- One access by either side. -/
def step (s : State T k) : Action T → Option (State T k)
  | .callPush item =>
    if s.push matches .idle then
      some { s with push := .loadCachedTail item s.ring.producerCursor }
    else none
  | .push => tryPushStep s
  | .callPop =>
    if s.pop matches .idle then
      some { s with pop := .loadCachedHead s.ring.consumerCursor }
    else none
  | .pop => tryPopStep s

/-- The interleavings of one producer and one consumer on a fresh ring. -/
def machine (T : Type) (k : ℕ) [Inhabited T] : Machine (State T k) (Action T) where
  init := State.new
  step := step

end SpscRingBuffer
end ChainMarketPrice.CoreEngine
