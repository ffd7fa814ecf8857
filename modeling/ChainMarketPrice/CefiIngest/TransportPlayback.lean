import ChainMarketPrice.CefiIngest.Transport
import ChainMarketPrice.CoreEngine.KernelBypassDelivery
import ChainMarketPrice.Lib.Machine

/-!
# Playback

The in-memory queue stands in for the other transports in tests. As long as what is injected
fits its ring and frames, the completion ring answers every call as the queue does, hands over
the same packets and counts the same (`ring_plays_back`). The bypass bridge is a queue whose room
shrinks (`solarflare_refines_shrinking_queue`).
-/

namespace ChainMarketPrice.CefiIngest
namespace Transport

open CoreEngine IoUring

/-! ## Batches -/

lemma foldl_add (packets : List Packet) (h : Handled) :
    packets.foldl Handled.add h
      = ⟨h.packets ++ packets, h.bytes + UInt64.ofNat (packets.map (·.1.length)).sum⟩ := by
  induction packets generalizing h with
  | nil => simp
  | cons packet packets ih =>
    rw [List.foldl_cons, ih, Handled.add, List.map_cons, List.sum_cons, UInt64.ofNat_add,
      UInt64.add_assoc, List.append_assoc, List.singleton_append]

lemma foldl_add_none (packets : List Packet) :
    packets.foldl Handled.add .none
      = ⟨packets, UInt64.ofNat (packets.map (·.1.length)).sum⟩ := by
  rw [foldl_add, Handled.none, List.nil_append, UInt64.zero_add]

/-- The counters after a poll of these waiting packets. -/
def afterPoll (stats : TransportStats) (waiting : List Packet) (n : ℕ) : TransportStats :=
  if waiting.isEmpty then
    { stats with pollCalls := stats.pollCalls + 1, emptyPolls := stats.emptyPolls + 1 }
  else
    { stats with
      pollCalls := stats.pollCalls + 1
      rxPackets := stats.rxPackets + UInt64.ofNat (min n waiting.length)
      rxBytes := stats.rxBytes + UInt64.ofNat (((waiting.take n).map (·.1.length)).sum) }

/-- A first part by its length. -/
lemma take_min_length (n : ℕ) (packets : List Packet) :
    packets.take (min n packets.length) = packets.take n := by
  rw [← List.take_take, List.take_length]

lemma drop_min_length (n : ℕ) (packets : List Packet) :
    packets.drop (min n packets.length) = packets.drop n := by
  rcases Nat.le_total n packets.length with hle | hle
  · rw [Nat.min_eq_left hle]
  · rw [Nat.min_eq_right hle, List.drop_length, List.drop_eq_nil_of_le hle]

namespace MockNetworkTransport

lemma popLoop_eq (n : ℕ) (queue : List Packet) (h : Handled) :
    popLoop n queue h = (queue.drop n, (queue.take n).foldl Handled.add h) := by
  induction n generalizing queue h with
  | zero => rfl
  | succ n ih =>
    cases queue with
    | nil => rfl
    | cons packet queue => exact ih queue (h.add packet)

/-- A poll hands over the first packets. -/
lemma pollBatch_eq {t : MockNetworkTransport} (hactive : t.isActive = true) (n : ℕ) :
    t.pollBatch n
      = (.ok (min n t.queue.length), { t with
          queue := t.queue.drop n
          stats := afterPoll t.stats t.queue n }, t.queue.take n) := by
  unfold pollBatch afterPoll
  rw [if_neg (by simp [hactive])]
  dsimp only
  by_cases hempty : t.queue.isEmpty
  · have hnil : t.queue = [] := List.isEmpty_iff.mp hempty
    simp [hnil]
  · rw [if_neg hempty, if_neg hempty, popLoop_eq, take_min_length, drop_min_length,
      foldl_add_none, List.length_take]

end MockNetworkTransport

/-! ## Calls -/

inductive Call
  | inject (payload : List UInt8) (timestampNs : UInt64)
  | poll (maxBatch : ℕ)
deriving Repr, DecidableEq

/-- What a call returns, with the packets that the handler gets. -/
inductive Answer
  | injected (result : Except TransportError Unit)
  | polled (result : Except TransportError ℕ) (packets : List Packet)

def MockNetworkTransport.call (t : MockNetworkTransport) : Call → Answer × MockNetworkTransport
  | .inject payload timestampNs => (.injected (.ok ()), t.pushPacket payload timestampNs)
  | .poll n =>
    let (result, t, packets) := t.pollBatch n
    (.polled result packets, t)

def ringCall (t : IoUringTransport) : Call → Answer × IoUringTransport
  | .inject payload timestampNs =>
    let (result, t) := t.injectPacket payload timestampNs
    (.injected (result.mapError .ofRing), t)
  | .poll n =>
    let (result, t, packets) := t.pollBatch n
    (.polled (result.mapError .ofRing) packets, t)

/-- The clock during a call: what it reads at each packet that is handed over. -/
abbrev Clock : Type := ℕ → UInt64

/-- A call on the transport over the bridge, with the clock during this call. -/
def SolarflareEfViTransport.call (t : SolarflareEfViTransport) :
    Call × Clock → Answer × SolarflareEfViTransport
  | (.inject payload timestampNs, _) =>
    let (result, t) := t.injectPacket payload timestampNs
    (.injected result, t)
  | (.poll n, now) =>
    let (result, t, packets) := t.pollBatch n now
    (.polled result packets, t)

/-- As many packets wait: the calls never exceed the capacity, and no packet is longer than a
frame. -/
def Fits (capacity : ℕ) : ℕ → List Call → Prop
  | _, [] => True
  | waiting, .inject payload _ :: calls =>
    waiting < capacity ∧ payload.length ≤ ioUringEntrySize ∧ Fits capacity (waiting + 1) calls
  | waiting, .poll n :: calls => Fits capacity (waiting - n) calls

instance decidableFits (capacity : ℕ) : (waiting : ℕ) → (calls : List Call) →
    Decidable (Fits capacity waiting calls)
  | _, [] => .isTrue trivial
  | waiting, .inject payload _ :: calls =>
    let _ := decidableFits capacity (waiting + 1) calls
    inferInstanceAs (Decidable (waiting < capacity ∧ payload.length ≤ ioUringEntrySize ∧
      Fits capacity (waiting + 1) calls))
  | waiting, .poll n :: calls => decidableFits capacity (waiting - n) calls

/-! ## The completion ring -/

/-- The ring holds the packets of the queue and has counted the same. -/
structure RingPlays (entries : ℕ) (t : IoUringTransport) (mock : MockNetworkTransport) : Prop where
  reached : ∃ s : Traffic, s.Inv entries ∧ s.transport = t
  pending : t.pending = mock.queue
  stats : t.stats = mock.stats
  active : mock.isActive = true

/-- With room, an injected packet waits behind the others. -/
lemma ring_inject {entries : ℕ} {t : IoUringTransport} {mock : MockNetworkTransport}
    (h : RingPlays entries t mock) (hroom : mock.queue.length < entries) {payload : List UInt8}
    (hpayload : payload.length ≤ ioUringEntrySize) (ts : UInt64) :
    (t.injectPacket payload ts).1 = .ok () ∧
      RingPlays entries (t.injectPacket payload ts).2 (mock.pushPacket payload ts) := by
  obtain ⟨⟨s, hinv, rfl⟩, hpending, hstats, hactive⟩ := h
  have hcall := call_inv hinv (.inject payload ts)
  have hcut : payload.take ioUringEntrySize = payload := List.take_of_length_le hpayload
  rcases List.eq_nil_or_concat s.transport.freeBufferIndices with hfree | ⟨free, idx, hfree⟩
  · have hfull := hinv.full_iff.mp hfree
    rw [hpending] at hfull
    omega
  · rw [List.concat_eq_append] at hfree
    have hresult : (s.transport.injectPacket payload ts).1 = .ok () := by
      rw [injectPacket_room hfree]
    have hstep : s.call (.inject payload ts) = { s with
        transport := (s.transport.injectPacket payload ts).2
        accepted := s.accepted ++ [(payload, ts)] } := by
      rw [injectPacket_room hfree]
      unfold Traffic.call
      dsimp only
      rw [injectPacket_room hfree, hcut]
    have hfifo := hcall.fifo
    rw [hstep] at hcall hfifo
    dsimp only at hfifo
    rw [← hinv.fifo, List.append_assoc, List.append_cancel_left_eq, hpending] at hfifo
    refine ⟨hresult, ⟨_, hcall, rfl⟩, hfifo, ?_, hactive⟩
    rw [injectPacket_room hfree]
    exact hstats

/-- A poll hands over the packets of the queue. -/
lemma ring_poll {entries : ℕ} {t : IoUringTransport} {mock : MockNetworkTransport}
    (h : RingPlays entries t mock) (n : ℕ) :
    (t.pollBatch n).1 = .ok (min n mock.queue.length) ∧ (t.pollBatch n).2.2 = mock.queue.take n ∧
      RingPlays entries (t.pollBatch n).2.1 (mock.pollBatch n).2.1 := by
  obtain ⟨⟨s, hinv, rfl⟩, hpending, hstats, hactive⟩ := h
  have hcall := call_inv hinv (.poll n)
  have hreached : ∃ s' : Traffic, s'.Inv entries ∧ s'.transport = (s.transport.pollBatch n).2.1 :=
    ⟨_, hcall, rfl⟩
  have hwaiting : s.transport.cqEntries.map
      (IoUringTransport.packet s.transport.fixedBufferPool) = mock.queue := hpending
  have hlength : s.transport.cqEntries.length = mock.queue.length := by
    rw [← hpending, IoUringTransport.pending, List.length_map]
  rw [MockNetworkTransport.pollBatch_eq hactive]
  by_cases hcq : s.transport.cqEntries = []
  · have hqueue : mock.queue = [] := by
      rw [← List.length_eq_zero_iff, ← hlength, hcq, List.length_nil]
    rw [pollBatch_empty hinv.active hcq] at hreached ⊢
    refine ⟨by simp [hqueue], by simp [hqueue], hreached, ?_, ?_, hactive⟩
    · rw [hqueue, List.drop_nil]
      simp [IoUringTransport.pending, hcq]
    · simp [afterPoll, hqueue, ← hstats]
  · have hbusy : ¬ mock.queue.isEmpty = true := by
      rw [List.isEmpty_iff, ← List.length_eq_zero_iff, ← hlength, List.length_eq_zero_iff]
      exact hcq
    have hhanded : (s.transport.cqEntries.take (min n mock.queue.length)).map
        (IoUringTransport.packet s.transport.fixedBufferPool) = mock.queue.take n := by
      rw [List.map_take, hwaiting, take_min_length]
    have hbytes : ((s.transport.cqEntries.take (min n mock.queue.length)).map
        (·.length.toNat)).sum = ((mock.queue.take n).map (·.1.length)).sum := by
      rw [← hhanded, List.map_map]
      congr 1
      exact List.map_congr_left fun cq hmem => hinv.lengths cq (List.mem_of_mem_take hmem)
    rw [pollBatch_nonempty hinv.active hcq, hlength] at hreached ⊢
    refine ⟨rfl, hhanded, hreached, ?_, ?_, hactive⟩
    · show (s.transport.cqEntries.drop (min n mock.queue.length)).map _ = mock.queue.drop n
      rw [List.map_drop, hwaiting, drop_min_length]
    · dsimp only
      rw [hbytes, hstats, afterPoll, if_neg hbusy]

lemma ring_call {entries : ℕ} {t : IoUringTransport} {mock : MockNetworkTransport}
    (h : RingPlays entries t mock) (c : Call) (calls : List Call) {capacity : ℕ}
    (hcapacity : capacity ≤ entries) (hfits : Fits capacity mock.queue.length (c :: calls)) :
    (mock.call c).1 = (ringCall t c).1 ∧ RingPlays entries (ringCall t c).2 (mock.call c).2 ∧
      Fits capacity (mock.call c).2.queue.length calls := by
  cases c with
  | inject payload ts =>
    obtain ⟨hroom, hpayload, hfits⟩ := hfits
    obtain ⟨hresult, hplays⟩ := ring_inject h (by omega) hpayload ts
    refine ⟨?_, hplays, ?_⟩
    · show Answer.injected (.ok ()) = .injected ((t.injectPacket payload ts).1.mapError .ofRing)
      rw [hresult]
      rfl
    · show Fits capacity (mock.queue ++ [(payload, ts)]).length calls
      rw [List.length_append]
      exact hfits
  | poll n =>
    obtain ⟨hresult, hpackets, hplays⟩ := ring_poll h n
    refine ⟨?_, hplays, ?_⟩
    · show Answer.polled (mock.pollBatch n).1 (mock.pollBatch n).2.2
        = .polled ((t.pollBatch n).1.mapError .ofRing) (t.pollBatch n).2.2
      rw [hresult, hpackets, MockNetworkTransport.pollBatch_eq h.active]
      rfl
    · show Fits capacity (mock.pollBatch n).2.1.queue.length calls
      rw [MockNetworkTransport.pollBatch_eq h.active]
      show Fits capacity (mock.queue.drop n).length calls
      rw [List.length_drop]
      exact hfits

lemma ring_new {requested : UInt64} (hsize : ringEntries requested ≤ 2 ^ 32) :
    RingPlays (ringEntries requested) (.bind requested) .new where
  reached := ⟨Traffic.init requested, bind_inv hsize, rfl⟩
  pending := rfl
  stats := rfl
  active := rfl

/-- On a ring of at most `2 ^ 32` entries, as long as what waits fits the ring and each packet a
buffer, every call is answered as by the in-memory queue, and the counters are the same. -/
theorem ring_plays_back {requested : UInt64} (hsize : ringEntries requested ≤ 2 ^ 32)
    {calls : List Call} (hfits : Fits (ringEntries requested) 0 calls) :
    (Transducer.run ringCall (.bind requested) calls).1
        = (Transducer.run MockNetworkTransport.call .new calls).1 ∧
      (Transducer.run ringCall (.bind requested) calls).2.stats
        = (Transducer.run MockNetworkTransport.call .new calls).2.stats := by
  let R (calls : List Call) (t : IoUringTransport) (mock : MockNetworkTransport) : Prop :=
    RingPlays (ringEntries requested) t mock ∧
      Fits (ringEntries requested) mock.queue.length calls
  have hstep : ∀ c calls t mock, R (c :: calls) t mock →
      (ringCall t c).1 = (mock.call c).1 ∧ R calls (ringCall t c).2 (mock.call c).2 := by
    intro c calls t mock ⟨hplays, hfits⟩
    obtain ⟨hanswer, hnext⟩ := ring_call hplays c calls le_rfl hfits
    exact ⟨hanswer.symm, hnext⟩
  obtain ⟨hanswers, hlast, -⟩ := Transducer.run_simulation_ahead (R := R) hstep
    (show R calls (.bind requested) .new from ⟨ring_new hsize, hfits⟩)
  exact ⟨hanswers, hlast.stats⟩

/-- Two packets into a ring of two entries, a poll of both, and one more packet. -/
theorem ring_plays_back_twice :
    (Transducer.run ringCall (.bind 2)
        [.inject [1, 2] 7, .inject [3] 8, .poll 4, .inject [4] 9, .poll 1]).1
      = (Transducer.run MockNetworkTransport.call .new
          [.inject [1, 2] 7, .inject [3] 8, .poll 4, .inject [4] 9, .poll 1]).1 :=
  (@ring_plays_back 2 (by decide) _ (by decide)).1

/-! ## The bridge -/

open KernelBypass

/-- What the transport over the bridge amounts to: a queue that refuses packets beyond its
capacity, and whose capacity falls to the number of packets that wait for a poll which hands
over any. -/
structure ShrinkingQueue where
  waiting : List (List UInt8 × ℕ)
  capacity : ℕ
  stats : TransportStats

namespace ShrinkingQueue

def new : ShrinkingQueue where
  waiting := []
  capacity := 2048
  stats := {}

def inject (q : ShrinkingQueue) (payload : List UInt8) (ts : UInt64) :
    Except TransportError Unit × ShrinkingQueue :=
  if q.waiting.length < q.capacity then
    (.ok (), { q with waiting := q.waiting ++ [(payload.take maxFrameSize, ts.toNat)] })
  else (.error (.bufferOverflow "RX ring exhausted - packet dropped at PHY layer"), q)

def poll (q : ShrinkingQueue) (n : ℕ) (now : Clock) :
    Except TransportError ℕ × ShrinkingQueue × List Packet :=
  let packets := (q.waiting.take n).mapIdx fun i packet =>
    SolarflareEfViTransport.stamp (now i) packet
  if packets.length = 0 then
    (.ok 0, { q with
      stats := { q.stats with
        pollCalls := q.stats.pollCalls + 1, emptyPolls := q.stats.emptyPolls + 1 } }, [])
  else
    (.ok packets.length,
      { waiting := q.waiting.drop n
        capacity := q.waiting.length
        stats := { q.stats with
          pollCalls := q.stats.pollCalls + 1
          rxPackets := q.stats.rxPackets + UInt64.ofNat packets.length
          rxBytes := q.stats.rxBytes + UInt64.ofNat (packets.map (·.1.length)).sum } }, packets)

def call (q : ShrinkingQueue) : Call × Clock → Answer × ShrinkingQueue
  | (.inject payload ts, _) =>
    let (result, q) := q.inject payload ts
    (.injected result, q)
  | (.poll n, now) =>
    let (result, q, packets) := q.poll n now
    (.polled result packets, q)

end ShrinkingQueue

/-- The bridge holds the packets of the queue in a ring of its capacity. -/
structure BridgePlays (t : SolarflareEfViTransport) (q : ShrinkingQueue) : Prop where
  reached : ∃ s : KernelBypass.Traffic 11, s.Inv ∧ s.bridge = t.bridge
  pending : t.bridge.pending = q.waiting
  capacity : t.bridge.rxRingTail = q.capacity
  stats : t.stats = q.stats
  active : t.isActive = true

lemma bridge_new : BridgePlays .new .new := by
  obtain ⟨-, hhead, htail, -⟩ := new_spec 11
  have hpending : (KernelBypassBridge.new 11).pending = [] := by
    rw [KernelBypassBridge.pending, hhead, List.take_zero, List.map_nil]
  have hcapacity : (KernelBypassBridge.new 11).rxRingTail = 2048 := htail
  refine ⟨⟨KernelBypass.Traffic.init 11, init_inv (by decide), ?_⟩, ?_, ?_, ?_, ?_⟩
  · rfl
  · rw [SolarflareEfViTransport.new, ShrinkingQueue.new]
    dsimp only
    exact hpending
  · rw [SolarflareEfViTransport.new, ShrinkingQueue.new]
    exact hcapacity
  · rfl
  · rfl

lemma pending_length {s : KernelBypass.Traffic 11} (h : s.Inv) :
    s.bridge.pending.length = s.bridge.rxRingHead := by
  have hle := h.bridge.head_le.trans h.bridge.tail_le
  rw [KernelBypassBridge.pending, List.length_map, List.length_take, h.bridge.length_posted,
    Nat.min_eq_left hle]

lemma bridge_inject {t : SolarflareEfViTransport} {q : ShrinkingQueue} (h : BridgePlays t q)
    (payload : List UInt8) (ts : UInt64) :
    (t.injectPacket payload ts).1 = (q.inject payload ts).1 ∧
      BridgePlays (t.injectPacket payload ts).2 (q.inject payload ts).2 := by
  obtain ⟨⟨s, hinv, hbridge⟩, hpending, hcapacity, hstats, hactive⟩ := h
  have hlength := pending_length hinv
  have hcall := call_inv hinv (.inject payload ts.toNat)
  rw [hbridge, hpending] at hlength
  unfold SolarflareEfViTransport.injectPacket ShrinkingQueue.inject
  dsimp only
  by_cases hroom : q.waiting.length < q.capacity
  · have haccepted : (t.bridge.injectPacket payload ts.toNat).1 = true := by
      rw [← hbridge, injectPacket_room hinv.bridge (by rw [hbridge]; omega)]
    have hstep : s.call (.inject payload ts.toNat) = { s with
        bridge := (t.bridge.injectPacket payload ts.toNat).2
        accepted := s.accepted ++ [(payload.take maxFrameSize, ts.toNat)] } := by
      unfold KernelBypass.Traffic.call
      dsimp only
      rw [hbridge, haccepted]
      rfl
    have hfifo := hcall.fifo
    rw [hstep] at hcall hfifo
    dsimp only at hfifo
    rw [← hinv.fifo, List.append_assoc, List.append_cancel_left_eq, hbridge, hpending] at hfifo
    rw [haccepted, if_pos rfl, if_pos hroom]
    refine ⟨rfl, ⟨_, hcall, rfl⟩, hfifo, ?_, hstats, hactive⟩
    rw [← hcapacity, ← hbridge, injectPacket_room hinv.bridge (by rw [hbridge]; omega)]
  · have hrefused : t.bridge.injectPacket payload ts.toNat
        = (false, { t.bridge with
            metrics := { t.bridge.metrics with dmaErrors := t.bridge.metrics.dmaErrors + 1 } }) :=
      if_pos (by omega)
    have hstep : s.call (.inject payload ts.toNat) = { s with
        bridge := (t.bridge.injectPacket payload ts.toNat).2 } := by
      unfold KernelBypass.Traffic.call
      dsimp only
      rw [hbridge, hrefused]
      rfl
    rw [hstep] at hcall
    rw [if_neg hroom]
    refine ⟨?_, ⟨_, hcall, rfl⟩, ?_, ?_, hstats, hactive⟩
    · rw [hrefused]
      rfl
    · rw [hrefused]
      exact hpending
    · rw [hrefused]
      exact hcapacity

/-- What a poll of the bridge hands over and leaves. -/
lemma pollRxBurst_pending {s : KernelBypass.Traffic 11} (h : s.Inv) (n : ℕ) :
    (s.bridge.pollRxBurst n).2.1 = s.bridge.pending.take n ∧
      (s.bridge.pollRxBurst n).2.2 = min n s.bridge.pending.length ∧
      (s.bridge.pollRxBurst n).1.pending = s.bridge.pending.drop n := by
  have hlength := pending_length h
  have hpackets := (pollRxBurst_traffic h.bridge n).1
  have hhanded : (s.bridge.pollRxBurst n).2.1 = s.bridge.pending.take n := by
    rw [hpackets, KernelBypassBridge.pending, ← List.map_take, List.take_take]
  refine ⟨hhanded, ?_, ?_⟩
  · rw [hlength]
    unfold KernelBypassBridge.pollRxBurst
    dsimp only
    split
    · rfl
    · rfl
  · have hfifo := (call_inv h (.poll n)).fifo
    have hdelivered : (s.call (.poll n)).delivered
        = s.delivered ++ (s.bridge.pollRxBurst n).2.1 := rfl
    have hbridge : (s.call (.poll n)).bridge = (s.bridge.pollRxBurst n).1 := rfl
    have haccepted : (s.call (.poll n)).accepted = s.accepted := rfl
    rw [hdelivered, hbridge, haccepted, ← h.fifo, List.append_assoc, List.append_cancel_left_eq,
      hhanded] at hfifo
    have hsplit := List.take_append_drop n s.bridge.pending
    exact List.append_cancel_left (hfifo.trans hsplit.symm)

lemma bridge_poll {t : SolarflareEfViTransport} {q : ShrinkingQueue} (h : BridgePlays t q)
    (n : ℕ) (now : Clock) :
    (t.pollBatch n now).1 = (q.poll n now).1 ∧ (t.pollBatch n now).2.2 = (q.poll n now).2.2 ∧
      BridgePlays (t.pollBatch n now).2.1 (q.poll n now).2.1 := by
  obtain ⟨⟨s, hinv, hbridge⟩, hpending, hcapacity, hstats, hactive⟩ := h
  have hlength := pending_length hinv
  obtain ⟨hpackets, hpolled, hrest⟩ := pollRxBurst_pending hinv n
  have hcall : (s.call (.poll n)).Inv := call_inv hinv (.poll n)
  have hnext : (s.call (.poll n)).bridge = (s.bridge.pollRxBurst n).1 := rfl
  rw [hbridge] at hlength hpackets hpolled hrest hnext
  rw [hpending] at hlength hpackets hpolled hrest
  have hcount : ((q.waiting.take n).mapIdx fun i packet =>
      SolarflareEfViTransport.stamp (now i) packet).length = min n q.waiting.length := by
    rw [List.length_mapIdx, List.length_take]
  unfold SolarflareEfViTransport.pollBatch ShrinkingQueue.poll
  rw [if_neg (by simp [hactive])]
  dsimp only
  rw [hpackets, hpolled, foldl_add_none, hcount]
  have hreached : ∃ s : KernelBypass.Traffic 11, s.Inv ∧
      s.bridge = (t.bridge.pollRxBurst n).1 := ⟨_, hcall, hnext⟩
  by_cases hnone : min n q.waiting.length = 0
  · -- nothing handed over: the ring is as before
    have hkept := (pollRxBurst_empty (b := t.bridge) (n := n) (by rw [← hlength]; exact hnone)).2.2.2
    have hhanded : q.waiting.take n = [] := by
      rw [← List.length_eq_zero_iff, List.length_take]
      exact hnone
    have hleft : q.waiting.drop n = q.waiting := by
      have hsplit := List.take_append_drop n q.waiting
      rw [hhanded, List.nil_append] at hsplit
      exact hsplit
    rw [if_pos hnone, if_pos hnone, hhanded, hnone]
    refine ⟨rfl, rfl, hreached, hrest.trans hleft, hkept.trans hcapacity, ?_, hactive⟩
    dsimp only
    rw [hstats]
  · have hdelivers := pollRxBurst_delivers hinv.bridge (n := n)
      (by rw [hbridge, ← hlength]; exact hnone)
    rw [hbridge] at hdelivers
    rw [if_neg hnone, if_neg hnone]
    refine ⟨rfl, rfl, hreached, hrest, hdelivers.2.2.1.trans hlength.symm, ?_, hactive⟩
    dsimp only
    rw [hstats]

/-- Every run of the transport over the bridge, whatever the clock reads in each call, is one of
the shrinking queue, with the same counters: payloads are cut to a frame, a packet without a time
of its own gets that of the clock when it is handed over, and each poll that hands over packets
leaves room for no more packets than waited for it. -/
theorem solarflare_refines_shrinking_queue (calls : List (Call × Clock)) :
    (Transducer.run SolarflareEfViTransport.call .new calls).1
        = (Transducer.run ShrinkingQueue.call .new calls).1 ∧
      (Transducer.run SolarflareEfViTransport.call .new calls).2.stats
        = (Transducer.run ShrinkingQueue.call .new calls).2.stats := by
  have hstep : ∀ t q c, BridgePlays t q →
      (SolarflareEfViTransport.call t c).1 = (ShrinkingQueue.call q c).1 ∧
        BridgePlays (SolarflareEfViTransport.call t c).2 (ShrinkingQueue.call q c).2 := by
    rintro t q ⟨c, now⟩ h
    cases c with
    | inject payload ts =>
      obtain ⟨hresult, hnext⟩ := bridge_inject h payload ts
      exact ⟨congrArg Answer.injected hresult, hnext⟩
    | poll n =>
      obtain ⟨hresult, hpackets, hnext⟩ := bridge_poll h n now
      exact ⟨congrArg₂ Answer.polled hresult hpackets, hnext⟩
  obtain ⟨hanswers, hlast⟩ := Transducer.run_simulation hstep bridge_new calls
  exact ⟨hanswers, hlast.stats⟩

end Transport
end ChainMarketPrice.CefiIngest
