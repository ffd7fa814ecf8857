import ChainMarketPrice.CefiIngest.IoUring
import ChainMarketPrice.CoreEngine.KernelBypass

/-!
# Network transports

`crates/cefi-ingest/src/transport`: the in-memory queue, the transport over the bypass bridge,
the standard socket, and the completion ring over a socket. A poll returns the packets that its
handler gets. A socket is what its `recv_from` calls return, one after the other, with the clock
at each datagram.
-/

namespace ChainMarketPrice.CefiIngest
namespace Transport

open CoreEngine IoUring

/-- The errors of the transports here. -/
inductive TransportError
  | io (message : String)
  | bufferOverflow (message : String)
  | notConnected
deriving Repr, DecidableEq

/-- The errors of the completion ring. -/
def TransportError.ofRing : IoUring.TransportError → TransportError
  | .bufferOverflow message => .bufferOverflow message
  | .notConnected => .notConnected

/-! ## The in-memory queue -/

/-- `MockNetworkTransport`. -/
structure MockNetworkTransport where
  queue : List Packet
  stats : TransportStats
  isActive : Bool
deriving Repr, DecidableEq

/-- What a loop over a batch has done: the packets it handed over, and their bytes. -/
structure Handled where
  packets : List Packet
  bytes : UInt64
deriving Repr, DecidableEq

def Handled.none : Handled := ⟨[], 0⟩

def Handled.add (h : Handled) (packet : Packet) : Handled where
  packets := h.packets ++ [packet]
  bytes := h.bytes + UInt64.ofNat packet.1.length

namespace MockNetworkTransport

def new : MockNetworkTransport where
  queue := []
  stats := {}
  isActive := true

def pushPacket (t : MockNetworkTransport) (payload : List UInt8) (timestampNs : UInt64) :
    MockNetworkTransport :=
  { t with queue := t.queue ++ [(payload, timestampNs)] }

def setActive (t : MockNetworkTransport) (active : Bool) : MockNetworkTransport :=
  { t with isActive := active }

/-- The loop of `poll_batch`. -/
def popLoop : ℕ → List Packet → Handled → List Packet × Handled
  | 0, queue, h => (queue, h)
  | _ + 1, [], h => ([], h)
  | n + 1, packet :: queue, h => popLoop n queue (h.add packet)

def pollBatch (t : MockNetworkTransport) (maxBatch : ℕ) :
    Except TransportError ℕ × MockNetworkTransport × List Packet :=
  if !t.isActive then (.error .notConnected, t, [])
  else
    let t := { t with stats := { t.stats with pollCalls := t.stats.pollCalls + 1 } }
    if t.queue.isEmpty then
      (.ok 0, { t with stats := { t.stats with emptyPolls := t.stats.emptyPolls + 1 } }, [])
    else
      let count := min maxBatch t.queue.length
      let (queue, h) := popLoop count t.queue .none
      (.ok h.packets.length, { t with
        queue := queue
        stats := { t.stats with
          rxPackets := t.stats.rxPackets + UInt64.ofNat h.packets.length
          rxBytes := t.stats.rxBytes + h.bytes } }, h.packets)

end MockNetworkTransport

/-! ## The bypass bridge -/

/-- `SolarflareEfViTransport`, over a bridge of `DEFAULT_RING_CAPACITY` frames. -/
structure SolarflareEfViTransport where
  bridge : KernelBypass.KernelBypassBridge 11
  stats : TransportStats
  isActive : Bool

namespace SolarflareEfViTransport

def new : SolarflareEfViTransport where
  bridge := .new 11
  stats := {}
  isActive := true

def injectPacket (t : SolarflareEfViTransport) (payload : List UInt8) (hwTimestampNs : UInt64) :
    Except TransportError Unit × SolarflareEfViTransport :=
  let (accepted, bridge) := t.bridge.injectPacket payload hwTimestampNs.toNat
  (if accepted then .ok ()
    else .error (.bufferOverflow "RX ring exhausted - packet dropped at PHY layer"),
    { t with bridge := bridge })

/-- The packet that the handler gets: with the time of the clock if there is no other. -/
def stamp (now : UInt64) (packet : List UInt8 × ℕ) : Packet :=
  (packet.1, if packet.2 > 0 then UInt64.ofNat packet.2 else now)

/-- `poll_batch`; `now i` is the clock when the packet number `i` of the batch is handed over. -/
def pollBatch (t : SolarflareEfViTransport) (maxBatch : ℕ) (now : ℕ → UInt64) :
    Except TransportError ℕ × SolarflareEfViTransport × List Packet :=
  if !t.isActive then (.error .notConnected, t, [])
  else
    let t := { t with stats := { t.stats with pollCalls := t.stats.pollCalls + 1 } }
    let (bridge, packets, polled) := t.bridge.pollRxBurst maxBatch
    let t := { t with bridge := bridge }
    let h := (packets.mapIdx fun i packet => stamp (now i) packet).foldl Handled.add .none
    if polled = 0 then
      (.ok polled, { t with stats := { t.stats with emptyPolls := t.stats.emptyPolls + 1 } },
        h.packets)
    else
      (.ok polled, { t with stats := { t.stats with
          rxPackets := t.stats.rxPackets + UInt64.ofNat h.packets.length
          rxBytes := t.stats.rxBytes + h.bytes } }, h.packets)

end SolarflareEfViTransport

/-! ## Sockets -/

/-- What a `recv_from` returns. -/
inductive Recv
  | datagram (bytes : List UInt8) (timestampNs : UInt64)
  | wouldBlock
  | interrupted
  | failed (message : String)
deriving Repr, DecidableEq

/-- The results of the calls to come; when there are none, no datagram has arrived. -/
abbrev Socket : Type := List Recv

def recv : Socket → Recv × Socket
  | [] => (.wouldBlock, [])
  | r :: socket => (r, socket)

/-- `SOCKET_RX_BUFFER_SIZE`. -/
def socketRxBufferSize : ℕ := 65536

/-- `StandardSocketTransport`. -/
structure StandardSocketTransport where
  socket : Socket
  stats : TransportStats
  isActive : Bool
deriving Repr, DecidableEq

namespace StandardSocketTransport

/-- `bind`, to an address that can be bound. -/
def bind (socket : Socket) : StandardSocketTransport where
  socket := socket
  stats := {}
  isActive := true

/-- The loop of `poll_batch`, with the error that leaves it. -/
def recvLoop : ℕ → Socket → Handled → Option String × Socket × Handled
  | 0, socket, h => (none, socket, h)
  | n + 1, socket, h =>
    match recv socket with
    | (.datagram bytes timestampNs, socket) =>
      recvLoop n socket (h.add (bytes.take socketRxBufferSize, timestampNs))
    | (.wouldBlock, socket) => (none, socket, h)
    | (.interrupted, socket) => recvLoop n socket h
    | (.failed message, socket) => (some message, socket, h)

def pollBatch (t : StandardSocketTransport) (maxBatch : ℕ) :
    Except TransportError ℕ × StandardSocketTransport × List Packet :=
  if !t.isActive then (.error .notConnected, t, [])
  else
    let t := { t with stats := { t.stats with pollCalls := t.stats.pollCalls + 1 } }
    let (error, socket, h) := recvLoop maxBatch t.socket .none
    let t := { t with socket := socket }
    match error with
    | some message => (.error (.io message), t, h.packets)
    | none =>
      let stats :=
        if h.packets.length = 0 then { t.stats with emptyPolls := t.stats.emptyPolls + 1 }
        else
          { t.stats with
            rxPackets := t.stats.rxPackets + UInt64.ofNat h.packets.length
            rxBytes := t.stats.rxBytes + h.bytes }
      (.ok h.packets.length, { t with stats := stats }, h.packets)

end StandardSocketTransport

/-! ## The completion ring over a socket -/

/-- `poll_socket_into_ring`. The loop takes a buffer from the end of the free list and puts it
back if no datagram has arrived; its turns are bounded by the batch. -/
def pollSocketIntoRing : ℕ → IoUringTransport → Socket → IoUringTransport × Socket
  | 0, t, socket => (t, socket)
  | n + 1, t, socket =>
    match t.freeBufferIndices.getLast? with
    | none => (t, socket)
    | some bufIdx =>
      match recv socket with
      | (.datagram bytes timestampNs, socket) =>
        let received := bytes.take ioUringEntrySize
        let buffer := t.fixedBufferPool.getD bufIdx.toNat []
        pollSocketIntoRing n
          { t with
            freeBufferIndices := t.freeBufferIndices.dropLast
            fixedBufferPool :=
              t.fixedBufferPool.set bufIdx.toNat (received ++ buffer.drop received.length)
            cqEntries := t.cqEntries ++ [⟨bufIdx, UInt32.ofNat received.length, timestampNs⟩] }
          socket
      | (.wouldBlock, socket) => (t, socket)
      | (.interrupted, socket) => (t, socket)
      | (.failed _, socket) => (t, socket)

/-- An `IoUringTransport` that is bound to a socket. -/
structure RingOverSocket where
  ring : IoUringTransport
  socket : Socket

namespace RingOverSocket

/-- `IoUringTransport::bind`, to an address that can be bound. -/
def bind (entries : UInt64) (socket : Socket) : RingOverSocket where
  ring := .bind entries
  socket := socket

/-- `poll_batch`: the datagrams that have arrived go into the ring first. -/
def pollBatch (t : RingOverSocket) (maxBatch : ℕ) :
    Except TransportError ℕ × RingOverSocket × List Packet :=
  let (ring, socket) :=
    if t.ring.isActive then pollSocketIntoRing maxBatch t.ring t.socket else (t.ring, t.socket)
  let (result, ring, packets) := ring.pollBatch maxBatch
  (result.mapError .ofRing, { ring := ring, socket := socket }, packets)

end RingOverSocket

end Transport
end ChainMarketPrice.CefiIngest
