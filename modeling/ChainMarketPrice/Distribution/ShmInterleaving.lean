import ChainMarketPrice.Distribution.Shm

/-!
# The shared-memory ring, one memory access at a time

`publish_bbo`, `publish_trade` and `try_read` cut at their accesses to the shared memory:
the writer stores one field of the slot after another and the head last, the reader loads
the head and then copies the slot field by field. The order of the copy is not fixed: any
field that is still missing may come next.

A reader may call `try_read` with any cursor up to the head, so one reader stands for all
of them.
-/

namespace ChainMarketPrice.Distribution
namespace ShmInterleaving

open RingWindow

/-- The fields of a slot. -/
inductive Field
  | sequence
  | kind
  | flags
  | venueId
  | marketId
  | telemetry
  | price
  | qty
deriving Repr, DecidableEq

namespace Field

/-- The fields in the order of the declaration. -/
def all : List Field := [.sequence, .kind, .flags, .venueId, .marketId, .telemetry, .price, .qty]

/-- The order in which the two publish functions store them. -/
def storeOrder : List Field :=
  [.kind, .venueId, .marketId, .telemetry, .price, .qty, .flags, .sequence]

/-- `dst` with one field taken from `src`. -/
def copy (src dst : ShmMessageSlot) : Field → ShmMessageSlot
  | .sequence => { dst with sequence := src.sequence }
  | .kind => { dst with kind := src.kind }
  | .flags => { dst with flags := src.flags }
  | .venueId => { dst with venueId := src.venueId }
  | .marketId => { dst with marketId := src.marketId }
  | .telemetry => { dst with telemetry := src.telemetry }
  | .price => { dst with price := src.price }
  | .qty => { dst with qty := src.qty }

end Field

/-- Where the writer is inside a publish: it has the listed fields still to store, then the
heartbeat, then the head. -/
inductive WriterPc
  | idle
  | storeFields (msg : ShmMessageSlot) (nowNs : UInt64) (todo : List Field)
  | storeHead (msg : ShmMessageSlot)
deriving Repr, DecidableEq

/-- Where the reader is inside `try_read`: it has the listed fields still to copy. -/
inductive ReaderPc
  | idle
  | copySlot (head readerCursor : UInt64) (out : ShmMessageSlot) (todo : List Field)
deriving Repr, DecidableEq

/-- The ring, both sides, the messages published and the completed reads. -/
structure State (k : ℕ) where
  ring : ShmRing k
  writer : WriterPc
  reader : ReaderPc
  published : List ShmMessageSlot
  returned : List ReadRecord

/-- One access. The `call` actions enter a call with its load of the head; `check` is the
return of `try_read`. -/
inductive Action
  | callPublishBbo (bbo : NormalizedBbo) (nowNs : UInt64)
  | callPublishTrade (trade : UnifiedTrade) (nowNs : UInt64)
  | write
  | callTryRead (readerCursor : UInt64) (out : ShmMessageSlot)
  | load (f : Field)
  | check
deriving Repr, DecidableEq

variable {k : ℕ}

/-- The slot of position `n`. -/
def State.slot (s : State k) (n : ℕ) : ShmMessageSlot := s.ring.slots (slotOf k n)

/-- A store of one field into the slot of the message's sequence number. -/
def storeField (r : ShmRing k) (msg : ShmMessageSlot) (f : Field) : ShmRing k :=
  let idx := slotOf k msg.sequence.toNat
  { r with slots := Function.update r.slots idx (f.copy msg (r.slots idx)) }

/-- Enters a publish; `slot` is what it writes. -/
def callPublish (s : State k) (slot : UInt64 → ShmMessageSlot) (nowNs : UInt64) : Option (State k) :=
  if s.writer matches .idle then
    some { s with writer := .storeFields (slot (s.ring.headSequence + 1)) nowNs Field.storeOrder }
  else none

/-- The next access of a publish. -/
def writeStep (s : State k) : Option (State k) :=
  match s.writer with
  | .idle => none
  | .storeFields msg nowNs (f :: todo) =>
    some { s with
      ring := storeField s.ring msg f
      writer := .storeFields msg nowNs todo }
  | .storeFields msg nowNs [] =>
    some { s with
      ring := { s.ring with writerHeartbeatNs := nowNs }
      writer := .storeHead msg }
  | .storeHead msg =>
    some { s with
      ring := { s.ring with headSequence := msg.sequence }
      writer := .idle
      published := s.published ++ [msg] }

/-- The return of `try_read`. -/
def State.return (s : State k) (cursor : UInt64) (status : ShmReadStatus) (out : ShmMessageSlot) :
    State k :=
  { s with
    reader := .idle
    returned := s.returned ++ [{ cursor := cursor, status := status, out := out }] }

/-- Enters `try_read`: the load of the head and the two early returns. -/
def callTryRead (s : State k) (readerCursor : UInt64) (out : ShmMessageSlot) : Option (State k) :=
  if (s.reader matches .idle) ∧ readerCursor ≤ s.ring.headSequence then
    let head := s.ring.headSequence
    if readerCursor ≥ head then
      some (s.return readerCursor .empty out)
    else if head > readerCursor + capacity64 k then
      some (s.return readerCursor (.overrun (head - (readerCursor + capacity64 k))) out)
    else
      some { s with reader := .copySlot head readerCursor out Field.all }
  else none

/-- One load of the copy. -/
def loadStep (s : State k) (f : Field) : Option (State k) :=
  match s.reader with
  | .idle => none
  | .copySlot head readerCursor out todo =>
    if f ∈ todo then
      some { s with
        reader := .copySlot head readerCursor (f.copy (s.slot (readerCursor + 1).toNat) out)
          (todo.filter (· ≠ f)) }
    else none

/-- The sequence check after the copy. -/
def checkStep (s : State k) : Option (State k) :=
  match s.reader with
  | .copySlot _ readerCursor out [] =>
    if out.sequence = readerCursor + 1 then
      some (s.return readerCursor .ok out)
    else
      some (s.return readerCursor .empty out)
  | _ => none

/-- One access by either side. -/
def step (s : State k) : Action → Option (State k)
  | .callPublishBbo bbo nowNs => callPublish s (bboSlot bbo) nowNs
  | .callPublishTrade trade nowNs => callPublish s (tradeSlot trade) nowNs
  | .write => writeStep s
  | .callTryRead readerCursor out => callTryRead s readerCursor out
  | .load f => loadStep s f
  | .check => checkStep s

/-- The interleavings of one writer and a reader on a fresh ring. -/
def machine (k : ℕ) : Machine (State k) Action where
  init :=
    { ring := .new k, writer := .idle, reader := .idle, published := [], returned := [] }
  step := step

end ShmInterleaving
end ChainMarketPrice.Distribution
