import Mathlib.Data.List.Basic
import Mathlib.Data.Nat.Basic
import Mathlib.Data.UInt

/-!
# `KernelBypassBridge`: the simulated NIC receive ring

`crates/core-engine/src/kernel_bypass.rs`. A pool of `N = 2 ^ k` frame buffers, a stack of
free buffer ids, and a ring of posted ids: `posted[0..head)` are filled with packets,
`posted[head..tail)` are posted and still empty. Buffer ids are cut to 32 bits, so that a pool
of more than `2 ^ 32` frames uses some of them twice.
-/

namespace ChainMarketPrice.CoreEngine
namespace KernelBypass

/-- `MAX_FRAME_SIZE`. -/
def maxFrameSize : ℕ := 2048

/-- `PacketDescriptor`, without its padding. -/
structure PacketDescriptor where
  dmaAddress : ℕ
  hwTimestampNs : ℕ
  length : ℕ
  bufferId : ℕ
  flags : ℕ
deriving Repr, DecidableEq, Inhabited

/-- `BypassMetrics`. The counters are atomics, which wrap. -/
structure BypassMetrics where
  packetsReceived : UInt64 := 0
  bytesReceived : UInt64 := 0
  pollCycles : UInt64 := 0
  emptyPolls : UInt64 := 0
  ringRefills : UInt64 := 0
  dmaErrors : UInt64 := 0
deriving Repr, DecidableEq

/-- `DmaBufferPool`. The free ids are the first `freeCount` entries of `availableIndices`. -/
structure DmaBufferPool where
  storage : List (List UInt8)
  descriptors : List PacketDescriptor
  availableIndices : List ℕ
  freeCount : ℕ
deriving Repr, DecidableEq

namespace DmaBufferPool

def new (n : ℕ) : DmaBufferPool where
  storage := List.replicate n (List.replicate maxFrameSize 0)
  descriptors := (List.range n).map fun i =>
    { dmaAddress := 0x10000000 + i * maxFrameSize, hwTimestampNs := 0, length := 0,
      bufferId := i % 2 ^ 32, flags := 0 }
  availableIndices := (List.range n).map (· % 2 ^ 32)
  freeCount := n

def getBufferSlice (n : ℕ) (p : DmaBufferPool) (bufferId length : ℕ) : List UInt8 :=
  (p.storage.getD (bufferId &&& (n - 1)) []).take (min length maxFrameSize)

def descriptor (n : ℕ) (p : DmaBufferPool) (bufferId : ℕ) : PacketDescriptor :=
  p.descriptors.getD (bufferId &&& (n - 1)) default

/-- Writes the first bytes of a frame and its descriptor fields, as `inject_packet` does. -/
def fill (n : ℕ) (p : DmaBufferPool) (bufferId : ℕ) (bytes : List UInt8) (hwTsNs : ℕ) :
    DmaBufferPool :=
  let idx := bufferId &&& (n - 1)
  let dest := p.storage.getD idx []
  let desc := p.descriptors.getD idx default
  { p with
    storage := p.storage.set idx (bytes ++ dest.drop bytes.length)
    descriptors := p.descriptors.set idx
      { desc with length := bytes.length, hwTimestampNs := hwTsNs, flags := 0x01 } }

def allocateDescriptor (p : DmaBufferPool) : Option (ℕ × DmaBufferPool) :=
  if p.freeCount = 0 then none
  else
    let freeCount := p.freeCount - 1
    some (p.availableIndices.getD freeCount 0, { p with freeCount := freeCount })

def releaseDescriptor (n : ℕ) (p : DmaBufferPool) (bufferId : ℕ) : DmaBufferPool :=
  if p.freeCount < n then
    { p with
      availableIndices := p.availableIndices.set p.freeCount bufferId
      freeCount := p.freeCount + 1 }
  else p

end DmaBufferPool

/-- `KernelBypassBridge<N>` with `N = 2 ^ k`. -/
structure KernelBypassBridge (k : ℕ) where
  metrics : BypassMetrics
  bufferPool : DmaBufferPool
  rxRingHead : ℕ
  rxRingTail : ℕ
  postedDescriptors : List ℕ
  isActive : Bool
deriving Repr, DecidableEq

namespace KernelBypassBridge

variable {k : ℕ}

/-- The refill loop. Every iteration takes a buffer from the pool, so the pool's free count
bounds the iterations; `fuel` starts there. -/
def refillLoop (b : KernelBypassBridge k) : ℕ → KernelBypassBridge k × ℕ
  | 0 => (b, 0)
  | fuel + 1 =>
    if b.rxRingTail < b.rxRingHead + 2 ^ k then
      match b.bufferPool.allocateDescriptor with
      | some (bufId, pool) =>
        let ringIdx := b.rxRingTail &&& (2 ^ k - 1)
        let (b', refilled) := refillLoop
          { b with
            bufferPool := pool
            postedDescriptors := b.postedDescriptors.set ringIdx bufId
            rxRingTail := b.rxRingTail + 1 } fuel
        (b', refilled + 1)
      | none => (b, 0)
    else (b, 0)

/-- `refill_rx_ring`: reposts free buffers; returns how many. -/
def refillRxRing (b : KernelBypassBridge k) : KernelBypassBridge k × ℕ :=
  let (b, refilled) := b.refillLoop b.bufferPool.freeCount
  ({ b with metrics := { b.metrics with ringRefills := b.metrics.ringRefills + .ofNat refilled } },
    refilled)

def new (k : ℕ) : KernelBypassBridge k :=
  (refillRxRing
    { metrics := {}, bufferPool := DmaBufferPool.new (2 ^ k), rxRingHead := 0, rxRingTail := 0,
      postedDescriptors := List.replicate (2 ^ k) 0, isActive := true }).1

/-- `inject_packet`: the flag is `Ok(())` or the "RX ring exhausted" error. -/
def injectPacket (b : KernelBypassBridge k) (payload : List UInt8) (hwTsNs : ℕ) :
    Bool × KernelBypassBridge k :=
  if b.rxRingHead ≥ b.rxRingTail then
    (false, { b with metrics := { b.metrics with dmaErrors := b.metrics.dmaErrors + 1 } })
  else
    let head := b.rxRingHead
    let bufId := b.postedDescriptors.getD (head &&& (2 ^ k - 1)) 0
    let len := min payload.length maxFrameSize
    (true,
      { b with
        bufferPool := b.bufferPool.fill (2 ^ k) bufId (payload.take len) hwTsNs
        rxRingHead := head + 1 })

/-- The first `n` iterations of the delivery loop of `poll_rx_burst`, with the
`(payload, timestamp)` pairs passed to the handler. -/
def deliverLoop (b : KernelBypassBridge k) : ℕ → KernelBypassBridge k × List (List UInt8 × ℕ)
  | 0 => (b, [])
  | current + 1 =>
    let (b, delivered) := deliverLoop b current
    let bufId := b.postedDescriptors.getD (current &&& (2 ^ k - 1)) 0
    let desc := b.bufferPool.descriptor (2 ^ k) bufId
    let payload := b.bufferPool.getBufferSlice (2 ^ k) bufId desc.length
    ({ b with
        metrics :=
          { b.metrics with
            packetsReceived := b.metrics.packetsReceived + 1
            bytesReceived := b.metrics.bytesReceived + .ofNat desc.length }
        bufferPool := b.bufferPool.releaseDescriptor (2 ^ k) bufId },
      delivered ++ [(payload, desc.hwTimestampNs)])

/-- The first `n` iterations of the loop that shifts the unconsumed window down. -/
def shiftLoop (posted : List ℕ) (current : ℕ) : ℕ → List ℕ
  | 0 => posted
  | i + 1 =>
    let posted := shiftLoop posted current i
    posted.set i (posted.getD (current + i) 0)

/-- `poll_rx_burst`: the new bridge, the packets handed to the handler and their number. -/
def pollRxBurst (b : KernelBypassBridge k) (maxPackets : ℕ) :
    KernelBypassBridge k × List (List UInt8 × ℕ) × ℕ :=
  let b : KernelBypassBridge k :=
    { b with metrics := { b.metrics with pollCycles := b.metrics.pollCycles + 1 } }
  let head := b.rxRingHead
  let limit := min maxPackets head
  let (b, delivered) := b.deliverLoop limit
  if limit = 0 then
    ({ b with metrics := { b.metrics with emptyPolls := b.metrics.emptyPolls + 1 } }, delivered,
      limit)
  else
    -- shift unconsumed ring window
    let remaining := head - limit
    let b : KernelBypassBridge k :=
      { b with
        postedDescriptors := shiftLoop b.postedDescriptors limit remaining
        rxRingHead := remaining
        rxRingTail := remaining }
    (b.refillRxRing.1, delivered, limit)

end KernelBypassBridge

/-- One call on the bridge. -/
inductive Op
  | inject (payload : List UInt8) (hwTsNs : ℕ)
  | poll (maxPackets : ℕ)
  | refill
deriving Repr, DecidableEq

/-- A bridge in use, with the number of packets accepted and polled so far. -/
structure Session (k : ℕ) where
  bridge : KernelBypassBridge k
  accepted : ℕ
  polled : ℕ
deriving Repr, DecidableEq

/-- What one call does to the bridge and the two counts. -/
def Session.call {k : ℕ} (s : Session k) : Op → Session k
  | .inject payload ts =>
    let (ok, b) := s.bridge.injectPacket payload ts
    { s with bridge := b, accepted := if ok then s.accepted + 1 else s.accepted }
  | .poll maxPackets =>
    let (b, _, n) := s.bridge.pollRxBurst maxPackets
    { s with bridge := b, polled := s.polled + n }
  | .refill => { s with bridge := s.bridge.refillRxRing.1 }

/-- A new bridge. -/
def Session.init (k : ℕ) : Session k := { bridge := .new k, accepted := 0, polled := 0 }

/-- The state after a sequence of calls. -/
def Session.run {k : ℕ} (s : Session k) (ops : List Op) : Session k := ops.foldl Session.call s

end KernelBypass
end ChainMarketPrice.CoreEngine
