import ChainMarketPrice.CoreEngine.KernelBypassTheorems

/-!
# Delivery of packets by `KernelBypassBridge`

The bridge is a FIFO: what the handlers have got, followed by the packets in the filled part of
the posted window, is what was accepted, in order (`packets_delivered_in_order`). No two posted buffers
have the same id, so a packet waits untouched while others arrive and while the window is
shifted. Ids are cut to 32 bits: a larger pool hands out a buffer that holds a waiting packet.
-/

namespace ChainMarketPrice.CoreEngine
namespace KernelBypass

open KernelBypassBridge

variable {k : ℕ}

/-! ## Packets in buffers -/

/-- The packet in a buffer, as a poll reads it. -/
def DmaBufferPool.packet (n : ℕ) (p : DmaBufferPool) (bufferId : ℕ) : List UInt8 × ℕ :=
  (p.getBufferSlice n bufferId (p.descriptor n bufferId).length,
    (p.descriptor n bufferId).hwTimestampNs)

/-- The packets that have arrived and wait for a poll. -/
def KernelBypassBridge.pending (b : KernelBypassBridge k) : List (List UInt8 × ℕ) :=
  (b.postedDescriptors.take b.rxRingHead).map (b.bufferPool.packet (2 ^ k))

/-- A bridge in use, with the packets it accepted and those it handed to the handlers. Payloads
are cut to the size of a frame. -/
structure Traffic (k : ℕ) where
  bridge : KernelBypassBridge k
  accepted : List (List UInt8 × ℕ)
  delivered : List (List UInt8 × ℕ)
deriving Repr, DecidableEq

def Traffic.call (t : Traffic k) : Op → Traffic k
  | .inject payload ts =>
    let (ok, b) := t.bridge.injectPacket payload ts
    { t with
      bridge := b
      accepted := if ok then t.accepted ++ [(payload.take maxFrameSize, ts)] else t.accepted }
  | .poll maxPackets =>
    let (b, packets, _) := t.bridge.pollRxBurst maxPackets
    { t with bridge := b, delivered := t.delivered ++ packets }
  | .refill => { t with bridge := t.bridge.refillRxRing.1 }

def Traffic.init (k : ℕ) : Traffic k := { bridge := .new k, accepted := [], delivered := [] }

def Traffic.run (t : Traffic k) (ops : List Op) : Traffic k := ops.foldl Traffic.call t

/-! ## One buffer -/

lemma and_mask_of_lt {id : ℕ} (h : id < 2 ^ k) : id &&& (2 ^ k - 1) = id := by
  rw [Nat.and_two_pow_sub_one_eq_mod]
  exact Nat.mod_eq_of_lt h

lemma getD_set_self {α : Type*} {l : List α} {i : ℕ} (h : i < l.length) (x d : α) :
    (l.set i x).getD i d = x := by
  rw [List.getD_eq_getElem?_getD, List.getElem?_set_self h, Option.getD_some]

lemma getD_set_ne {α : Type*} {l : List α} {i j : ℕ} (h : i ≠ j) (x d : α) :
    (l.set i x).getD j d = l.getD j d := by
  rw [List.getD_eq_getElem?_getD, List.getElem?_set_ne h, ← List.getD_eq_getElem?_getD]

/-- A filled buffer holds its packet. -/
lemma fill_self {p : DmaBufferPool} {id : ℕ} (hid : id < 2 ^ k) (hstorage : p.storage.length = 2 ^ k)
    (hdescs : p.descriptors.length = 2 ^ k) {bytes : List UInt8} (hbytes : bytes.length ≤ maxFrameSize)
    (ts : ℕ) :
    (p.fill (2 ^ k) id bytes ts).packet (2 ^ k) id = (bytes, ts) ∧
      ((p.fill (2 ^ k) id bytes ts).descriptor (2 ^ k) id).length = bytes.length := by
  unfold DmaBufferPool.packet DmaBufferPool.getBufferSlice DmaBufferPool.descriptor
    DmaBufferPool.fill
  dsimp only
  rw [and_mask_of_lt hid, getD_set_self (by omega), getD_set_self (by omega)]
  dsimp only
  rw [Nat.min_eq_left hbytes, List.take_left]
  exact ⟨rfl, rfl⟩

/-- Filling a buffer leaves the others alone. -/
lemma fill_ne {p : DmaBufferPool} {id other : ℕ} (hid : id < 2 ^ k) (hother : other < 2 ^ k)
    (hne : other ≠ id) (bytes : List UInt8) (ts : ℕ) :
    (p.fill (2 ^ k) id bytes ts).packet (2 ^ k) other = p.packet (2 ^ k) other ∧
      (p.fill (2 ^ k) id bytes ts).descriptor (2 ^ k) other = p.descriptor (2 ^ k) other := by
  unfold DmaBufferPool.packet DmaBufferPool.getBufferSlice DmaBufferPool.descriptor
    DmaBufferPool.fill
  dsimp only
  rw [and_mask_of_lt hid, and_mask_of_lt hother, getD_set_ne hne.symm, getD_set_ne hne.symm]
  exact ⟨rfl, rfl⟩

/-- The frames and descriptors of two pools are the same. -/
def SameFrames (p p' : DmaBufferPool) : Prop :=
  p'.storage = p.storage ∧ p'.descriptors = p.descriptors

lemma SameFrames.packet {p p' : DmaBufferPool} (h : SameFrames p p') (n : ℕ) :
    p'.packet n = p.packet n := by
  obtain ⟨hstorage, hdescs⟩ := h
  funext id
  unfold DmaBufferPool.packet DmaBufferPool.getBufferSlice DmaBufferPool.descriptor
  rw [hstorage, hdescs]

lemma SameFrames.descriptor {p p' : DmaBufferPool} (h : SameFrames p p') (capacity : ℕ) :
    p'.descriptor capacity = p.descriptor capacity := by
  funext id
  unfold DmaBufferPool.descriptor
  rw [h.2]

/-- A descriptor that becomes free keeps its frame. -/
lemma SameFrames.releaseDescriptor {p p' : DmaBufferPool} (h : SameFrames p p') (n id : ℕ) :
    SameFrames p (p'.releaseDescriptor n id) := by
  unfold DmaBufferPool.releaseDescriptor
  split
  · exact h
  · exact h

/-! ## The loops -/

/-- The two counters of delivered packets. -/
def SameReceived (m m' : BypassMetrics) : Prop :=
  m'.packetsReceived = m.packetsReceived ∧ m'.bytesReceived = m.bytesReceived

lemma refillLoop_frames (fuel : ℕ) (b : KernelBypassBridge k) :
    SameFrames b.bufferPool (b.refillLoop fuel).1.bufferPool ∧
      (b.refillLoop fuel).1.metrics = b.metrics := by
  induction fuel generalizing b with
  | zero => exact ⟨⟨rfl, rfl⟩, rfl⟩
  | succ fuel ih =>
    unfold refillLoop
    by_cases hroom : b.rxRingTail < b.rxRingHead + 2 ^ k
    · rw [if_pos hroom]
      rcases halloc : b.bufferPool.allocateDescriptor with _ | ⟨bufId, pool⟩
      · exact ⟨⟨rfl, rfl⟩, rfl⟩
      -- taking a descriptor moves the counter of the free list only
      · have hpool : pool.storage = b.bufferPool.storage ∧
            pool.descriptors = b.bufferPool.descriptors := by
          unfold DmaBufferPool.allocateDescriptor at halloc
          split at halloc
          · cases halloc
          · cases halloc
            exact ⟨rfl, rfl⟩
        obtain ⟨⟨hstorage, hdescs⟩, hmetrics⟩ := ih
          { b with
            bufferPool := pool
            postedDescriptors := b.postedDescriptors.set (b.rxRingTail &&& (2 ^ k - 1)) bufId
            rxRingTail := b.rxRingTail + 1 }
        exact ⟨⟨hstorage.trans hpool.1, hdescs.trans hpool.2⟩, hmetrics⟩
    · rw [if_neg hroom]
      exact ⟨⟨rfl, rfl⟩, rfl⟩

lemma refillRxRing_frames (b : KernelBypassBridge k) :
    SameFrames b.bufferPool b.refillRxRing.1.bufferPool ∧
      SameReceived b.metrics b.refillRxRing.1.metrics := by
  obtain ⟨hframes, hmetrics⟩ := refillLoop_frames b.bufferPool.freeCount b
  refine ⟨hframes, ?_⟩
  show SameReceived b.metrics { (b.refillLoop b.bufferPool.freeCount).1.metrics with
    ringRefills := _ }
  rw [hmetrics]
  exact ⟨rfl, rfl⟩

/-- The bytes in some buffers, by their descriptors. -/
def DmaBufferPool.byteCount (n : ℕ) (p : DmaBufferPool) (ids : List ℕ) : ℕ :=
  (ids.map fun id => (p.descriptor n id).length).sum

/-- Delivery hands over the packets of the first descriptors, counts them and keeps the
frames. -/
lemma deliverLoop_traffic {b : KernelBypassBridge k} (h : Inv b) :
    ∀ n ≤ b.rxRingHead,
      (b.deliverLoop n).2 = (b.postedDescriptors.take n).map (b.bufferPool.packet (2 ^ k)) ∧
        SameFrames b.bufferPool (b.deliverLoop n).1.bufferPool ∧
        (b.deliverLoop n).1.metrics.packetsReceived = b.metrics.packetsReceived + .ofNat n ∧
        (b.deliverLoop n).1.metrics.bytesReceived = b.metrics.bytesReceived
          + .ofNat (b.bufferPool.byteCount (2 ^ k) (b.postedDescriptors.take n)) := by
  intro n
  induction n with
  | zero =>
    intro _
    refine ⟨rfl, ⟨rfl, rfl⟩, (UInt64.add_zero _).symm, (UInt64.add_zero _).symm⟩
  | succ n ih =>
    intro hn
    obtain ⟨hpackets, hframes, hcount, hbytes⟩ := ih (by omega)
    obtain ⟨-, -, -, hpost, -, -⟩ := deliverLoop_spec h n (by omega)
    have hlt : n < 2 ^ k := by
      have hhead := h.head_le
      have htail := h.tail_le
      omega
    have hlen : n < b.postedDescriptors.length := by
      rw [h.length_posted]
      exact hlt
    have htake : b.postedDescriptors.take (n + 1)
        = b.postedDescriptors.take n ++ [b.postedDescriptors.getD n 0] := by
      rw [List.take_add_one, List.getElem?_eq_getElem hlen, List.getD_eq_getElem _ _ hlen]
      rfl
    -- the descriptor that the mask picks is the one at `n`
    have hid : (b.deliverLoop n).1.postedDescriptors.getD (n &&& (2 ^ k - 1)) 0
        = b.postedDescriptors.getD n 0 := by
      rw [and_mask_of_lt hlt, hpost]
    refine ⟨?_, ?_, ?_, ?_⟩
    · show (b.deliverLoop n).2 ++ [(b.deliverLoop n).1.bufferPool.packet (2 ^ k) _] = _
      rw [hid, hframes.packet, hpackets, htake, List.map_append]
      rfl
    · exact hframes.releaseDescriptor _ _
    · show (b.deliverLoop n).1.metrics.packetsReceived + 1 = _
      rw [hcount, UInt64.add_assoc, UInt64.ofNat_add]
      rfl
    · show (b.deliverLoop n).1.metrics.bytesReceived
        + .ofNat ((b.deliverLoop n).1.bufferPool.descriptor (2 ^ k) _).length = _
      rw [hid, hframes.descriptor, hbytes, htake, UInt64.add_assoc, ← UInt64.ofNat_add]
      unfold DmaBufferPool.byteCount
      rw [List.map_append, List.sum_append, List.map_singleton, List.sum_singleton]

/-- A poll hands over the packets that wait first, counts them and keeps the frames. -/
lemma pollRxBurst_traffic {b : KernelBypassBridge k} (h : Inv b) (n : ℕ) :
    (b.pollRxBurst n).2.1
        = (b.postedDescriptors.take (min n b.rxRingHead)).map (b.bufferPool.packet (2 ^ k)) ∧
      SameFrames b.bufferPool (b.pollRxBurst n).1.bufferPool ∧
      (b.pollRxBurst n).1.metrics.packetsReceived
        = b.metrics.packetsReceived + .ofNat (min n b.rxRingHead) ∧
      (b.pollRxBurst n).1.metrics.bytesReceived = b.metrics.bytesReceived
        + .ofNat (b.bufferPool.byteCount (2 ^ k)
          (b.postedDescriptors.take (min n b.rxRingHead))) := by
  have h0 : Inv
      { b with metrics := { b.metrics with pollCycles := b.metrics.pollCycles + 1 } } :=
    ⟨h.length_available, h.length_posted, h.freeCount, h.head_le, h.tail_le⟩
  obtain ⟨hpackets, hframes, hcount, hbytes⟩ :=
    deliverLoop_traffic h0 (min n b.rxRingHead) (Nat.min_le_right n b.rxRingHead)
  unfold pollRxBurst
  dsimp only
  split
  · exact ⟨hpackets, hframes, hcount, hbytes⟩
  · refine ⟨hpackets, ⟨?_, ?_⟩, ?_, ?_⟩
    · exact (refillRxRing_frames _).1.1.trans hframes.1
    · exact (refillRxRing_frames _).1.2.trans hframes.2
    · exact (refillRxRing_frames _).2.1.trans hcount
    · exact (refillRxRing_frames _).2.2.trans hbytes

/-! ## The invariant -/

/-- What every state of a run satisfies, in a pool whose ids are distinct. -/
structure Traffic.Inv (t : Traffic k) : Prop where
  bridge : KernelBypass.Inv t.bridge
  length_storage : t.bridge.bufferPool.storage.length = 2 ^ k
  length_descriptors : t.bridge.bufferPool.descriptors.length = 2 ^ k
  ids_lt : ∀ id ∈ t.bridge.postedIds, id < 2 ^ k
  ids_nodup : t.bridge.postedIds.Nodup
  fifo : t.delivered ++ t.bridge.pending = t.accepted
  lengths : ∀ id ∈ t.bridge.postedDescriptors.take t.bridge.rxRingHead,
    (t.bridge.bufferPool.descriptor (2 ^ k) id).length
      = (t.bridge.bufferPool.packet (2 ^ k) id).1.length
  packets : t.bridge.metrics.packetsReceived = .ofNat t.delivered.length
  bytes : t.bridge.metrics.bytesReceived = .ofNat (t.delivered.map (·.1.length)).sum

/-- The filled descriptors are posted. -/
lemma take_head {b : KernelBypassBridge k} (h : Inv b) :
    b.postedDescriptors.take b.rxRingHead = b.postedIds.take b.rxRingHead := by
  unfold postedIds
  rw [List.take_take, Nat.min_eq_left h.head_le]

/-- A call that keeps the ring, the frames and the counters of delivered packets. -/
lemma Traffic.Inv.congr {t t' : Traffic k} (h : t.Inv) (hbridge : KernelBypass.Inv t'.bridge)
    (hframes : SameFrames t.bridge.bufferPool t'.bridge.bufferPool)
    (hposted : t'.bridge.postedIds = t.bridge.postedIds)
    (hhead : t'.bridge.rxRingHead = t.bridge.rxRingHead)
    (hreceived : SameReceived t.bridge.metrics t'.bridge.metrics)
    (haccepted : t'.accepted = t.accepted) (hdelivered : t'.delivered = t.delivered) : t'.Inv := by
  have hfilled : t'.bridge.postedDescriptors.take t'.bridge.rxRingHead
      = t.bridge.postedDescriptors.take t.bridge.rxRingHead := by
    rw [take_head hbridge, take_head h.bridge, hposted, hhead]
  refine ⟨hbridge, ?_, ?_, ?_, ?_, ?_, ?_, ?_, ?_⟩
  · rw [hframes.1]
    exact h.length_storage
  · rw [hframes.2]
    exact h.length_descriptors
  · rw [hposted]
    exact h.ids_lt
  · rw [hposted]
    exact h.ids_nodup
  · unfold pending
    rw [hfilled, hframes.packet, haccepted, hdelivered]
    exact h.fifo
  · rw [hfilled, hframes.packet, hframes.descriptor]
    exact h.lengths
  · rw [hreceived.1, hdelivered]
    exact h.packets
  · rw [hreceived.2, hdelivered]
    exact h.bytes

lemma call_refill_inv {t : Traffic k} (h : t.Inv) : (t.call .refill).Inv := by
  have hb := h.bridge
  have hfree := hb.freeCount
  obtain ⟨hinv, hhead, htail, hposted⟩ := refillRxRing_spec hb.length_available hb.length_posted
    (by rw [hfree]; exact hb.tail_le) hb.head_le
  obtain ⟨hframes, hreceived⟩ := refillRxRing_frames t.bridge
  have hids : t.bridge.bufferPool.freeIds = [] := by simp [DmaBufferPool.freeIds, hfree]
  rw [hids, List.reverse_nil, List.append_nil] at hposted
  exact h.congr hinv hframes hposted hhead hreceived rfl rfl

/-- A packet goes into the first empty buffer of the posted window. -/
lemma injectPacket_room {b : KernelBypassBridge k} (h : Inv b) (hlt : b.rxRingHead < b.rxRingTail)
    (payload : List UInt8) (ts : ℕ) :
    b.injectPacket payload ts
      = (true, { b with
          bufferPool := b.bufferPool.fill (2 ^ k) (b.postedDescriptors.getD b.rxRingHead 0)
            (payload.take maxFrameSize) ts
          rxRingHead := b.rxRingHead + 1 }) := by
  have hcut : payload.take (min payload.length maxFrameSize) = payload.take maxFrameSize := by
    rw [List.take_eq_take_iff]
    omega
  unfold injectPacket
  rw [if_neg (by omega)]
  dsimp only
  rw [and_mask_of_lt (lt_of_lt_of_le hlt h.tail_le), hcut]

/-- The next buffer is posted behind those that hold waiting packets, and is none of them. -/
lemma Traffic.Inv.next_buffer {t : Traffic k} (h : t.Inv)
    (hlt : t.bridge.rxRingHead < t.bridge.rxRingTail) :
    t.bridge.postedDescriptors.take (t.bridge.rxRingHead + 1)
        = t.bridge.postedDescriptors.take t.bridge.rxRingHead
          ++ [t.bridge.postedDescriptors.getD t.bridge.rxRingHead 0] ∧
      t.bridge.postedDescriptors.getD t.bridge.rxRingHead 0 < 2 ^ k ∧
      ∀ id ∈ t.bridge.postedDescriptors.take t.bridge.rxRingHead,
        id < 2 ^ k ∧ id ≠ t.bridge.postedDescriptors.getD t.bridge.rxRingHead 0 := by
  have hlen : t.bridge.rxRingHead < t.bridge.postedDescriptors.length := by
    rw [h.bridge.length_posted]
    exact lt_of_lt_of_le hlt h.bridge.tail_le
  have htake : t.bridge.postedDescriptors.take (t.bridge.rxRingHead + 1)
      = t.bridge.postedDescriptors.take t.bridge.rxRingHead
        ++ [t.bridge.postedDescriptors.getD t.bridge.rxRingHead 0] := by
    rw [List.take_add_one, List.getElem?_eq_getElem hlen, List.getD_eq_getElem _ _ hlen]
    rfl
  -- the next descriptor is among the posted ones, which the invariant keeps apart
  have hposted : t.bridge.postedDescriptors.take (t.bridge.rxRingHead + 1)
      = t.bridge.postedIds.take (t.bridge.rxRingHead + 1) := by
    unfold postedIds
    rw [List.take_take, Nat.min_eq_left hlt]
  have hmem : ∀ id ∈ t.bridge.postedDescriptors.take (t.bridge.rxRingHead + 1), id < 2 ^ k := by
    intro id hid
    rw [hposted] at hid
    exact h.ids_lt id (List.mem_of_mem_take hid)
  have hnodup : (t.bridge.postedDescriptors.take (t.bridge.rxRingHead + 1)).Nodup := by
    rw [hposted]
    exact h.ids_nodup.sublist (List.take_sublist _ _)
  rw [htake] at hmem hnodup
  refine ⟨htake, hmem _ (List.mem_append_right _ List.mem_cons_self), ?_⟩
  intro id hid
  refine ⟨hmem id (List.mem_append_left _ hid), ?_⟩
  exact (List.nodup_append.mp hnodup).2.2 id hid _ List.mem_cons_self

lemma call_inject_inv {t : Traffic k} (h : t.Inv) (payload : List UInt8) (ts : ℕ) :
    (t.call (.inject payload ts)).Inv := by
  have hb := h.bridge
  by_cases hfull : t.bridge.rxRingHead ≥ t.bridge.rxRingTail
  · -- no posted buffer is left: the packet is refused and counted
    have hreject : t.bridge.injectPacket payload ts
        = (false, { t.bridge with
            metrics := { t.bridge.metrics with dmaErrors := t.bridge.metrics.dmaErrors + 1 } }) :=
      if_pos hfull
    unfold Traffic.call
    dsimp only
    rw [hreject]
    exact h.congr ⟨hb.length_available, hb.length_posted, hb.freeCount, hb.head_le, hb.tail_le⟩
      ⟨rfl, rfl⟩ rfl rfl ⟨rfl, rfl⟩ rfl rfl
  · -- the packet goes, cut to the frame, into the oldest posted buffer
    have hlt : t.bridge.rxRingHead < t.bridge.rxRingTail := by omega
    obtain ⟨htake, hidlt, hother⟩ := h.next_buffer hlt
    set id := t.bridge.postedDescriptors.getD t.bridge.rxRingHead 0 with hid
    set bytes := payload.take maxFrameSize with hbytes
    have hsize : bytes.length ≤ maxFrameSize := List.length_take_le _ _
    obtain ⟨hpacket, hdesc⟩ := fill_self hidlt h.length_storage h.length_descriptors hsize ts
    unfold Traffic.call
    dsimp only
    rw [injectPacket_room hb hlt, ← hid, ← hbytes]
    refine ⟨⟨hb.length_available, hb.length_posted, hb.freeCount, hlt, hb.tail_le⟩, ?_, ?_,
      h.ids_lt, h.ids_nodup, ?_, ?_, h.packets, h.bytes⟩
    · exact (List.length_set ..).trans h.length_storage
    · exact (List.length_set ..).trans h.length_descriptors
    · unfold pending
      dsimp only
      rw [htake, List.map_append, List.map_singleton, hpacket, ← List.append_assoc, ← h.fifo]
      unfold pending
      congr 2
      apply List.map_congr_left
      intro id' hid'
      exact (fill_ne hidlt (hother id' hid').1 (hother id' hid').2 bytes ts).1
    · dsimp only
      rw [htake]
      intro id' hid'
      rcases List.mem_append.mp hid' with hid' | hid'
      · obtain ⟨hpacket', hdesc'⟩ := fill_ne hidlt (hother id' hid').1 (hother id' hid').2 bytes ts
        rw [hpacket', hdesc']
        exact h.lengths id' hid'
      · rw [List.mem_singleton.mp hid', hpacket, hdesc]

/-- The bytes counted for some waiting packets are the lengths of their payloads. -/
lemma byteCount_eq {p : DmaBufferPool} {ids : List ℕ}
    (h : ∀ id ∈ ids, (p.descriptor (2 ^ k) id).length = (p.packet (2 ^ k) id).1.length) :
    p.byteCount (2 ^ k) ids = ((ids.map (p.packet (2 ^ k))).map (·.1.length)).sum := by
  unfold DmaBufferPool.byteCount
  rw [List.map_map]
  congr 1
  apply List.map_congr_left
  intro id hid
  exact h id hid

/-- A poll that finds no packet changes nothing. -/
lemma call_poll_empty_inv {t : Traffic k} (h : t.Inv) {n : ℕ} (hn : min n t.bridge.rxRingHead = 0) :
    (t.call (.poll n)).Inv := by
  have hb := h.bridge
  obtain ⟨hpackets, hframes, hcount, hbytes⟩ := pollRxBurst_traffic hb n
  obtain ⟨hpool, hpost, hhead, htail⟩ := pollRxBurst_empty hn
  have hbridge : (t.call (.poll n)).bridge = (t.bridge.pollRxBurst n).1 := rfl
  rw [hn] at hpackets hcount hbytes
  -- only the poll counter has moved
  apply h.congr
  · rw [hbridge]
    refine ⟨?_, ?_, ?_, ?_, ?_⟩
    · rw [hpool]
      exact hb.length_available
    · rw [hpost]
      exact hb.length_posted
    · rw [hpool]
      exact hb.freeCount
    · rw [hhead, htail]
      exact hb.head_le
    · rw [htail]
      exact hb.tail_le
  · exact hframes
  · unfold postedIds
    rw [hbridge, hpost, htail]
  · exact hhead
  · exact ⟨hcount.trans (UInt64.add_zero _), hbytes.trans (UInt64.add_zero _)⟩
  · rfl
  · exact (congrArg (t.delivered ++ ·) hpackets).trans (List.append_nil _)

/-- The packets that still wait after a poll are at the front of the new window, whose buffers
held packets before. -/
lemma pollRxBurst_waiting {b : KernelBypassBridge k} (h : Inv b) {n : ℕ}
    (hn : min n b.rxRingHead ≠ 0) :
    b.postedDescriptors.take b.rxRingHead
        = b.postedDescriptors.take (min n b.rxRingHead)
          ++ (b.pollRxBurst n).1.postedDescriptors.take (b.pollRxBurst n).1.rxRingHead ∧
      (b.pollRxBurst n).1.postedIds.Perm (b.postedIds.take b.rxRingHead) := by
  obtain ⟨hinv, hhead, -, hposted⟩ := pollRxBurst_delivers h hn
  set limit := min n b.rxRingHead with hlimit
  set rest := (b.postedDescriptors.drop limit).take (b.rxRingHead - limit) with hrest
  have hle : limit ≤ b.rxRingHead := Nat.min_le_right _ _
  have hcap : b.rxRingHead ≤ 2 ^ k := h.head_le.trans h.tail_le
  have hlength : rest.length = b.rxRingHead - limit := by
    rw [hrest, List.length_take, List.length_drop, h.length_posted]
    omega
  constructor
  · rw [take_head hinv, hposted, hhead, ← hlength, List.take_left, hrest, ← List.take_add]
    congr 1
    omega
  · rw [hposted, ← take_head h]
    exact perm_take_split _ hle

lemma call_poll_inv {t : Traffic k} (h : t.Inv) (n : ℕ) : (t.call (.poll n)).Inv := by
  have hb := h.bridge
  by_cases hn : min n t.bridge.rxRingHead = 0
  · exact call_poll_empty_inv h hn
  · obtain ⟨hpackets, hframes, hcount, hbytes⟩ := pollRxBurst_traffic hb n
    obtain ⟨hsplit, hperm⟩ := pollRxBurst_waiting hb hn
    have hbridge : (t.call (.poll n)).bridge = (t.bridge.pollRxBurst n).1 := rfl
    -- what is handed over is the front of what waited
    have hdelivered : (t.call (.poll n)).delivered
        = t.delivered ++ (t.bridge.postedDescriptors.take (min n t.bridge.rxRingHead)).map
          (t.bridge.bufferPool.packet (2 ^ k)) := congrArg (t.delivered ++ ·) hpackets
    have hle : min n t.bridge.rxRingHead ≤ 2 ^ k :=
      (Nat.min_le_right _ _).trans (hb.head_le.trans hb.tail_le)
    refine ⟨(pollRxBurst_delivers hb hn).1, ?_, ?_, ?_, ?_, ?_, ?_, ?_, ?_⟩
    · rw [hbridge, hframes.1]
      exact h.length_storage
    · rw [hbridge, hframes.2]
      exact h.length_descriptors
    · intro id hid
      exact h.ids_lt id (List.mem_of_mem_take (hperm.subset hid))
    · exact hperm.nodup_iff.mpr (h.ids_nodup.sublist (List.take_sublist _ _))
    · have hfifo := h.fifo
      unfold pending at hfifo ⊢
      rw [hbridge, hframes.packet, hdelivered, List.append_assoc, ← List.map_append, ← hsplit]
      exact hfifo
    · rw [hbridge, hframes.packet, hframes.descriptor]
      intro id hid
      exact h.lengths id (hsplit ▸ List.mem_append_right _ hid)
    · rw [hbridge, hcount, h.packets, hdelivered, List.length_append, List.length_map,
        List.length_take, hb.length_posted, Nat.min_eq_left hle, UInt64.ofNat_add]
    · have hcounted := byteCount_eq fun id hid =>
        h.lengths id (hsplit ▸ List.mem_append_left _ hid)
      rw [hbridge, hbytes, h.bytes, hcounted, hdelivered, List.map_append, List.sum_append,
        UInt64.ofNat_add]

/-! ## Runs -/

lemma call_inv {t : Traffic k} (h : t.Inv) : ∀ op, (t.call op).Inv
  | .inject payload ts => call_inject_inv h payload ts
  | .poll n => call_poll_inv h n
  | .refill => call_refill_inv h

/-- The frames of a new bridge. -/
lemma new_frames (k : ℕ) :
    (new k).bufferPool.storage.length = 2 ^ k ∧ (new k).bufferPool.descriptors.length = 2 ^ k ∧
      SameReceived {} (new k).metrics := by
  obtain ⟨hframes, hreceived⟩ := refillRxRing_frames (k := k)
    { metrics := {}, bufferPool := DmaBufferPool.new (2 ^ k), rxRingHead := 0, rxRingTail := 0,
      postedDescriptors := List.replicate (2 ^ k) 0, isActive := true }
  refine ⟨?_, ?_, hreceived⟩
  · refine (congrArg List.length hframes.1).trans ?_
    simp [DmaBufferPool.new]
  · refine (congrArg List.length hframes.2).trans ?_
    simp [DmaBufferPool.new]

lemma init_inv (hk : k ≤ 32) : (Traffic.init k).Inv := by
  obtain ⟨hbridge, hhead, -, hposted⟩ := new_spec k
  obtain ⟨hstorage, hdescs, hreceived⟩ := new_frames k
  rw [map_mod_range hk] at hposted
  unfold Traffic.init
  refine ⟨hbridge, hstorage, hdescs, ?_, ?_, ?_, ?_, hreceived.1, hreceived.2⟩
  · dsimp only
    rw [hposted]
    intro id hid
    exact List.mem_range.mp (List.mem_reverse.mp hid)
  · dsimp only
    rw [hposted]
    exact List.nodup_reverse.mpr List.nodup_range
  · unfold pending
    dsimp only
    rw [hhead]
    rfl
  · dsimp only
    rw [hhead]
    intro id hid
    cases hid

lemma run_traffic_inv {t : Traffic k} (h : t.Inv) (ops : List Op) : (t.run ops).Inv := by
  induction ops generalizing t with
  | nil => exact h
  | cons op ops ih => exact ih (call_inv h op)

/-- With at most `2 ^ 32` buffers, after any calls: what the handlers got, followed by the
packets that wait, is what was accepted, in order; as many packets wait as descriptors are
filled; and the counters, as `u64`, are the number and the bytes of the delivered packets. -/
theorem packets_delivered_in_order {k : ℕ} (hk : k ≤ 32) (ops : List Op) :
    ((Traffic.init k).run ops).delivered ++ ((Traffic.init k).run ops).bridge.pending
        = ((Traffic.init k).run ops).accepted ∧
      ((Traffic.init k).run ops).bridge.pending.length
        = ((Traffic.init k).run ops).bridge.rxRingHead ∧
      ((Traffic.init k).run ops).bridge.metrics.packetsReceived
        = .ofNat ((Traffic.init k).run ops).delivered.length ∧
      ((Traffic.init k).run ops).bridge.metrics.bytesReceived
        = .ofNat (((Traffic.init k).run ops).delivered.map (·.1.length)).sum := by
  have h := run_traffic_inv (init_inv hk) ops
  refine ⟨h.fifo, ?_, h.packets, h.bytes⟩
  have hcap := h.bridge.head_le.trans h.bridge.tail_le
  unfold pending
  rw [List.length_map, List.length_take, h.bridge.length_posted, Nat.min_eq_left hcap]

/-- Two packets, one poll that takes the first, and one that finds the second. -/
def twoPackets : List Op := [.inject [1, 2] 7, .inject [3] 8, .poll 1, .inject [4] 9, .poll 4]

theorem packets_delivered_in_order_twoPackets :
    2 ≤ 32 ∧ ((Traffic.init 2).run twoPackets).delivered
      ++ ((Traffic.init 2).run twoPackets).bridge.pending
        = ((Traffic.init 2).run twoPackets).accepted :=
  ⟨by decide, (packets_delivered_in_order (by decide) twoPackets).1⟩

/-! ## Beyond the widths -/

def injects (packets : List (List UInt8 × ℕ)) : List Op := packets.map fun p => .inject p.1 p.2

/-- Packets that arrive at a new bridge fill the posted buffers one after another. -/
lemma run_injects (packets : List (List UInt8 × ℕ)) (h : packets.length ≤ 2 ^ k) :
    let t := (Traffic.init k).run (injects packets)
    Inv t.bridge ∧ t.bridge.postedDescriptors = (new k).postedDescriptors ∧
      t.bridge.rxRingHead = packets.length ∧ t.bridge.rxRingTail = 2 ^ k ∧
      t.bridge.bufferPool.storage.length = 2 ^ k ∧
      t.bridge.bufferPool.descriptors.length = 2 ^ k ∧
      t.accepted = packets.map (fun p => (p.1.take maxFrameSize, p.2)) ∧ t.delivered = [] := by
  -- from the end: each packet takes the next posted descriptor
  induction packets using List.reverseRecOn with
  | nil =>
    obtain ⟨hinv, hhead, htail, -⟩ := new_spec k
    obtain ⟨hstorage, hdescs, -⟩ := new_frames k
    exact ⟨hinv, rfl, hhead, htail, hstorage, hdescs, rfl, rfl⟩
  | append_singleton packets p ih =>
    rw [List.length_append, List.length_singleton] at h
    obtain ⟨hinv, hposted, hhead, htail, hstorage, hdescs, haccepted, hdelivered⟩ :=
      ih (by omega)
    have hstep : (Traffic.init k).run (injects (packets ++ [p]))
        = ((Traffic.init k).run (injects packets)).call (.inject p.1 p.2) := by
      unfold Traffic.run injects
      rw [List.map_append, List.foldl_append]
      rfl
    rw [hstep]
    unfold Traffic.call
    dsimp only
    rw [injectPacket_room hinv (by omega)]
    dsimp only
    refine ⟨⟨hinv.length_available, hinv.length_posted, hinv.freeCount, ?_, hinv.tail_le⟩, hposted,
      ?_, htail, (List.length_set ..).trans hstorage, (List.length_set ..).trans hdescs, ?_,
      hdelivered⟩
    · dsimp only
      omega
    · rw [hhead, List.length_append, List.length_singleton]
    · rw [if_pos rfl, haccepted, List.map_append, List.map_singleton]

/-- The buffer posted at a position of a new bridge. -/
lemma new_posted {i : ℕ} (h : i < 2 ^ k) :
    (new k).postedDescriptors.getD i 0 = (2 ^ k - 1 - i) % 2 ^ 32 := by
  obtain ⟨hinv, -, htail, hposted⟩ := new_spec k
  have hall : (new k).postedDescriptors = ((List.range (2 ^ k)).map (· % 2 ^ 32)).reverse := by
    rw [← hposted, postedIds, htail, ← hinv.length_posted, List.take_length]
  rw [hall, List.getD_eq_getElem _ _ (by simpa using h)]
  simp

/-- The packet that arrives when `2 ^ 32` wait goes into the buffer of the first one. -/
lemma delivered_aliased (hk : 32 < k) {packets : List (List UInt8 × ℕ)}
    (hlength : packets.length = 2 ^ 32) (last : List UInt8 × ℕ) :
    ((Traffic.init k).run (injects (packets ++ [last]) ++ [.poll 1])).delivered
      = [(last.1.take maxFrameSize, last.2)] := by
  have hlt : 2 ^ 32 < 2 ^ k := Nat.pow_lt_pow_right (by decide) hk
  obtain ⟨hinv, hposted, hhead, htail, hstorage, hdescs, -, -⟩ :=
    run_injects (k := k) packets (by omega)
  obtain ⟨hinv', hposted', hhead', -, -, -, -, hdelivered⟩ :=
    run_injects (k := k) (packets ++ [last])
      (by rw [List.length_append, List.length_singleton]; omega)
  -- the positions `0` and `2 ^ 32` of the window have the same buffer
  set id := (2 ^ k - 1) % 2 ^ 32 with hid
  have hfirst : (new k).postedDescriptors.getD 0 0 = id := new_posted (by omega)
  have hlast : (new k).postedDescriptors.getD (2 ^ 32) 0 = id := by
    have hsplit : 2 ^ k - 1 = (2 ^ k - 1 - 2 ^ 32) + 2 ^ 32 := by omega
    rw [new_posted hlt, hid, hsplit, Nat.add_mod_right, Nat.add_sub_cancel]
  have hidlt : id < 2 ^ k := lt_trans (Nat.mod_lt _ (by decide)) hlt
  have hpool : ((Traffic.init k).run (injects (packets ++ [last]))).bridge.bufferPool
      = ((Traffic.init k).run (injects packets)).bridge.bufferPool.fill (2 ^ k) id
        (last.1.take maxFrameSize) last.2 := by
    have hstep : (Traffic.init k).run (injects (packets ++ [last]))
        = ((Traffic.init k).run (injects packets)).call (.inject last.1 last.2) := by
      unfold Traffic.run injects
      rw [List.map_append, List.foldl_append]
      rfl
    rw [hstep]
    unfold Traffic.call
    dsimp only
    rw [injectPacket_room hinv (by omega), hposted, hhead, hlength, hlast]
  have hpacket := (fill_self hidlt hstorage hdescs (List.length_take_le maxFrameSize last.1) last.2).1
  obtain ⟨hpackets, -⟩ := pollRxBurst_traffic hinv' 1
  have hlimit : min 1 ((Traffic.init k).run (injects (packets ++ [last]))).bridge.rxRingHead = 1 := by
    rw [hhead', List.length_append, List.length_singleton]
    omega
  have htake : (new k).postedDescriptors.take 1 = [id] := by
    have hlen : 0 < (new k).postedDescriptors.length := by
      rw [← hposted', hinv'.length_posted]
      omega
    rw [List.take_add_one, List.take_zero, List.getElem?_eq_getElem hlen,
      ← hfirst, List.getD_eq_getElem _ _ hlen]
    rfl
  have hstep : (Traffic.init k).run (injects (packets ++ [last]) ++ [.poll 1])
      = ((Traffic.init k).run (injects (packets ++ [last]))).call (.poll 1) := by
    unfold Traffic.run
    rw [List.foldl_append]
    rfl
  rw [hstep]
  show ((Traffic.init k).run _).delivered ++ (pollRxBurst _ 1).2.1 = _
  rw [hpackets, hdelivered, hlimit, hposted', htake, hpool, List.map_singleton, hpacket]
  rfl

lemma accepted_injects_poll {packets : List (List UInt8 × ℕ)} (h : packets.length ≤ 2 ^ k) (n : ℕ) :
    ((Traffic.init k).run (injects packets ++ [.poll n])).accepted
      = packets.map fun p => (p.1.take maxFrameSize, p.2) := by
  obtain ⟨-, -, -, -, -, -, haccepted, -⟩ := run_injects packets h
  rw [← haccepted]
  unfold Traffic.run
  rw [List.foldl_append]
  rfl

/-- The packets that reuse a buffer in a pool of `2 ^ 33` frames. -/
def aliasOps : List Op :=
  injects (([1], 0) :: List.replicate (2 ^ 32 - 1) ([2], 0) ++ [([2], 0)]) ++ [.poll 1]

/-- One packet in and out, over and over, in a pool of one frame. -/
def rounds (n : ℕ) : List Op := (List.replicate n [.inject [] 0, .poll 1]).flatten

lemma rounds_succ (n : ℕ) : rounds (n + 1) = rounds n ++ [.inject [] 0, .poll 1] := by
  unfold rounds
  rw [List.replicate_succ', List.flatten_append, List.flatten_singleton]

lemma run_rounds (n : ℕ) :
    ((Traffic.init 0).run (rounds n)).Inv ∧ ((Traffic.init 0).run (rounds n)).bridge.rxRingHead = 0 ∧
      ((Traffic.init 0).run (rounds n)).bridge.rxRingTail = 1 ∧
      ((Traffic.init 0).run (rounds n)).delivered.length = n := by
  induction n with
  | zero =>
    obtain ⟨-, hhead, htail, -⟩ := new_spec 0
    exact ⟨init_inv (by decide), hhead, htail, rfl⟩
  | succ n ih =>
    obtain ⟨hinv, hhead, htail, hcount⟩ := ih
    set t := (Traffic.init 0).run (rounds n) with ht
    have hstep : (Traffic.init 0).run (rounds (n + 1)) = (t.call (.inject [] 0)).call (.poll 1) := by
      rw [rounds_succ, ht]
      unfold Traffic.run
      rw [List.foldl_append]
      rfl
    have hinv1 := call_inv hinv (.inject [] 0)
    -- the ring is empty with one descriptor posted, so that the packet has room
    have hinject := injectPacket_room hinv.bridge (by omega) [] 0
    have hhead1 : (t.call (.inject [] 0)).bridge.rxRingHead = 1 := by
      unfold Traffic.call
      dsimp only
      rw [hinject, hhead]
    have hdelivered1 : (t.call (.inject [] 0)).delivered = t.delivered := rfl
    obtain ⟨hpackets, -⟩ := pollRxBurst_traffic hinv1.bridge 1
    obtain ⟨-, hhead2, htail2, -⟩ := pollRxBurst_delivers hinv1.bridge (n := 1)
      (by rw [hhead1]; decide)
    rw [hhead1] at hhead2 htail2 hpackets
    rw [hstep]
    refine ⟨call_inv hinv1 (.poll 1), hhead2, htail2, ?_⟩
    show ((t.call (.inject [] 0)).delivered ++ (pollRxBurst _ 1).2.1).length = n + 1
    rw [hpackets, hdelivered1, List.length_append, hcount, List.length_map, List.length_take,
      hinv1.bridge.length_posted]
    rfl

/-- In a pool of `2 ^ 33` frames the first poll hands over another packet than the first one
accepted; and the counter of packets wraps after `2 ^ 64` of them. -/
theorem delivery_widths_exceeded :
    (¬ ((Traffic.init 33).run aliasOps).delivered <+: ((Traffic.init 33).run aliasOps).accepted) ∧
    ((Traffic.init 0).run (rounds (2 ^ 64))).bridge.metrics.packetsReceived.toNat
      ≠ ((Traffic.init 0).run (rounds (2 ^ 64))).delivered.length := by
  constructor
  · have hlength : (([1], 0) :: List.replicate (2 ^ 32 - 1) (([2] : List UInt8), 0)).length
        = 2 ^ 32 := by
      rw [List.length_cons, List.length_replicate]
      omega
    have hfits : (([1], 0) :: List.replicate (2 ^ 32 - 1) (([2] : List UInt8), 0)
        ++ [([2], 0)]).length ≤ 2 ^ 33 := by
      rw [List.length_append, hlength, List.length_singleton]
      decide
    unfold aliasOps
    rw [delivered_aliased (by decide) hlength, accepted_injects_poll hfits, List.cons_append,
      List.map_cons, List.cons_prefix_cons]
    intro hprefix
    exact absurd hprefix.1 (by decide)
  · obtain ⟨hinv, -, -, hcount⟩ := run_rounds (2 ^ 64)
    rw [hinv.packets, hcount]
    decide

end KernelBypass
end ChainMarketPrice.CoreEngine
