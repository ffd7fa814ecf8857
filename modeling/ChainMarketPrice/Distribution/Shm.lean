import Mathlib.Data.Nat.Log
import ChainMarketPrice.IngestModels
import ChainMarketPrice.Lib.Machine
import ChainMarketPrice.Lib.RingWindow

/-!
# The shared-memory ring

`crates/distribution/src/shm.rs`. One writer publishes numbered messages into a ring of
`2 ^ k` slots; any number of readers follow it, each with a cursor of its own. The two
rings of the source, `ShmRingBuffer<N>` and `ElasticShmRing`, run the same code on their
own capacity and mask; that code is `ShmRing` here.

Sequence numbers and cursors are `u64`: additions wrap.
-/

namespace ChainMarketPrice.Distribution

open RingWindow

/-- `ShmMsgKind`, with its tag byte. -/
inductive ShmMsgKind
  | bbo
  | trade
  | heartbeat
deriving Repr, DecidableEq

def ShmMsgKind.toUInt8 : ShmMsgKind → UInt8
  | .bbo => 1
  | .trade => 2
  | .heartbeat => 3

/-- `ShmMessageSlot`. -/
structure ShmMessageSlot where
  sequence : UInt64 := 0
  kind : UInt8 := 0
  flags : UInt8 := 0
  venueId : UInt16 := 0
  marketId : UInt32 := 0
  telemetry : TelemetryTimestamps := {}
  price : Int64 := 0
  qty : UInt64 := 0
deriving Repr, DecidableEq, Inhabited

/-- `ShmReadStatus`. -/
inductive ShmReadStatus
  | ok
  | empty
  | overrun (missedMessages : UInt64)
deriving Repr, DecidableEq

/-- What `publish_bbo` writes into the slot of sequence number `nextSeq`. -/
def bboSlot (bbo : NormalizedBbo) (nextSeq : UInt64) : ShmMessageSlot where
  kind := ShmMsgKind.bbo.toUInt8
  venueId := bbo.venue
  marketId := bbo.marketId
  telemetry := bbo.telemetry
  price := bbo.bidPrice
  qty := bbo.bidQty
  flags := bbo.flags.toUInt8
  sequence := nextSeq

/-- What `publish_trade` writes into the slot of sequence number `nextSeq`. -/
def tradeSlot (trade : UnifiedTrade) (nextSeq : UInt64) : ShmMessageSlot where
  kind := ShmMsgKind.trade.toUInt8
  venueId := trade.venue
  marketId := trade.marketId
  telemetry := trade.telemetry
  price := trade.price
  qty := trade.size
  flags := if trade.isLiquidation then 0x01 else 0x00
  sequence := nextSeq

/-- The header words the ring uses and its slots. -/
structure ShmRing (k : ℕ) where
  writerHeartbeatNs : UInt64
  headSequence : UInt64
  slots : Fin (2 ^ k) → ShmMessageSlot

namespace ShmRing

variable {k : ℕ}

def new (k : ℕ) : ShmRing k where
  writerHeartbeatNs := 0
  headSequence := 0
  slots := fun _ => {}

/-- The common body of the two publish functions; `slot` is what they write. -/
def publish (r : ShmRing k) (slot : UInt64 → ShmMessageSlot) (nowNs : UInt64) :
    UInt64 × ShmRing k :=
  let nextSeq := r.headSequence + 1
  (nextSeq,
    { writerHeartbeatNs := nowNs
      headSequence := nextSeq
      slots := Function.update r.slots (slotOf k nextSeq.toNat) (slot nextSeq) })

def publishBbo (r : ShmRing k) (bbo : NormalizedBbo) (nowNs : UInt64) : UInt64 × ShmRing k :=
  r.publish (bboSlot bbo) nowNs

def publishTrade (r : ShmRing k) (trade : UnifiedTrade) (nowNs : UInt64) : UInt64 × ShmRing k :=
  r.publish (tradeSlot trade) nowNs

/-- `try_read`: the status and the new values of `*reader_cursor` and `*out`. -/
def tryRead (r : ShmRing k) (readerCursor : UInt64) (out : ShmMessageSlot) :
    ShmReadStatus × UInt64 × ShmMessageSlot :=
  let head := r.headSequence
  if readerCursor ≥ head then
    (.empty, readerCursor, out)
  else if head > readerCursor + capacity64 k then
    -- the writer is ahead by more than the capacity
    let missed := head - (readerCursor + capacity64 k)
    (.overrun missed, head - capacity64 k, out)
  else
    let nextCursor := readerCursor + 1
    let out := r.slots (slotOf k nextCursor.toNat)
    if out.sequence = nextCursor then
      (.ok, nextCursor, out)
    else
      -- torn read: advance the cursor to the head
      (.empty, head, out)

end ShmRing

/-- `ShmRingBuffer<N>` with `N = 2 ^ k`. -/
abbrev ShmRingBuffer (k : ℕ) := ShmRing k

/-- `ShmBackendKind`, without the paths. -/
inductive ShmBackendKind
  | hugeTLB
  | posixShm
  | anonymousOrTmpfs
  | unixDomainSocket
  | inMemory
deriving Repr, DecidableEq

/-- The capacity `create_or_fallback` settles on. -/
def elasticCapacity (requested : ℕ) : ℕ :=
  if 2 ^ requested.log2 = requested then requested else requested.nextPowerOfTwo

/-- `ElasticShmRing`; its capacity is `2 ^ k` and its mask `2 ^ k - 1`. -/
structure ElasticShmRing where
  backend : ShmBackendKind
  k : ℕ
  ring : ShmRing k

namespace ElasticShmRing

/-- `create_or_fallback`; `backend` is the first stage whose file could be created. -/
def createOrFallback (requested : ℕ) (backend : ShmBackendKind) : ElasticShmRing where
  backend := backend
  k := (elasticCapacity requested).log2
  ring := .new _

def capacity (e : ElasticShmRing) : ℕ := 2 ^ e.k

def publishBbo (e : ElasticShmRing) (bbo : NormalizedBbo) (nowNs : UInt64) : UInt64 × ElasticShmRing :=
  let (seq, ring) := e.ring.publishBbo bbo nowNs
  (seq, { e with ring := ring })

def publishTrade (e : ElasticShmRing) (trade : UnifiedTrade) (nowNs : UInt64) :
    UInt64 × ElasticShmRing :=
  let (seq, ring) := e.ring.publishTrade trade nowNs
  (seq, { e with ring := ring })

def tryRead (e : ElasticShmRing) (readerCursor : UInt64) (out : ShmMessageSlot) :
    ShmReadStatus × UInt64 × ShmMessageSlot :=
  e.ring.tryRead readerCursor out

end ElasticShmRing

/-! ## Runs of whole calls -/

/-- One completed `try_read`: the cursor it was called with, its status and `*out`. -/
structure ReadRecord where
  cursor : UInt64
  status : ShmReadStatus
  out : ShmMessageSlot
deriving Repr, DecidableEq

/-- A reader, with the cursor it started at and its completed calls. -/
structure Reader where
  initial : UInt64
  cursor : UInt64
  out : ShmMessageSlot
  records : List ReadRecord

/-- A ring in use by one writer and readers named by `ι`; `published` is what the publishes
so far wrote, in order. -/
structure Shared (k : ℕ) (ι : Type) where
  ring : ShmRing k
  published : List ShmMessageSlot
  readers : ι → Option Reader

/-- One complete call; `attach` lets a reader join at some cursor. -/
inductive Call (ι : Type)
  | publishBbo (bbo : NormalizedBbo) (nowNs : UInt64)
  | publishTrade (trade : UnifiedTrade) (nowNs : UInt64)
  | attach (i : ι) (cursor : UInt64) (out : ShmMessageSlot)
  | tryRead (i : ι)

namespace Shared

variable {k : ℕ} {ι : Type} [DecidableEq ι]

/-- A reader's call of `try_read`. -/
def read (s : Shared k ι) (rd : Reader) : Reader :=
  let (status, cursor, out) := s.ring.tryRead rd.cursor rd.out
  { rd with
    cursor := cursor
    out := out
    records := rd.records ++ [{ cursor := rd.cursor, status := status, out := out }] }

def step (s : Shared k ι) : Call ι → Option (Shared k ι)
  | .publishBbo bbo nowNs =>
    let (seq, ring) := s.ring.publishBbo bbo nowNs
    some { s with ring := ring, published := s.published ++ [bboSlot bbo seq] }
  | .publishTrade trade nowNs =>
    let (seq, ring) := s.ring.publishTrade trade nowNs
    some { s with ring := ring, published := s.published ++ [tradeSlot trade seq] }
  | .attach i cursor out =>
    if (s.readers i).isNone ∧ cursor ≤ s.ring.headSequence then
      some { s with
        readers := Function.update s.readers i
          (some { initial := cursor, cursor := cursor, out := out, records := [] }) }
    else none
  | .tryRead i =>
    (s.readers i).map fun rd =>
      { s with readers := Function.update s.readers i (some (s.read rd)) }

/-- All runs of complete calls on a fresh ring. -/
def machine (ι : Type) [DecidableEq ι] (ring : ShmRing k) : Machine (Shared k ι) (Call ι) where
  init := { ring := ring, published := [], readers := fun _ => none }
  step := step

end Shared

end ChainMarketPrice.Distribution
