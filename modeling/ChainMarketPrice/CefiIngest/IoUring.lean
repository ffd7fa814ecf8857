import Mathlib.Data.List.Basic
import Mathlib.Data.List.Perm.Basic
import Mathlib.Data.List.Range
import Mathlib.Data.UInt

/-!
# `IoUringTransport` without a socket

`crates/cefi-ingest/src/transport/io_uring.rs`, bound to `"mock"`: packets are injected into
fixed buffers and handed over in the order of the completion queue. A buffer is taken from the
end of the free list and returned to its end, while the completions leave from the front of
their queue. Buffer indices are cut to 32 bits.
-/

namespace ChainMarketPrice.CefiIngest
namespace IoUring

/-- `IO_URING_ENTRY_SIZE`. -/
def ioUringEntrySize : ℕ := 2048

/-- `DEFAULT_IO_URING_ENTRIES`. -/
def defaultIoUringEntries : ℕ := 1024

structure CompletionEntry where
  bufferIdx : UInt32
  length : UInt32
  timestampNs : UInt64
deriving Repr, DecidableEq

structure TransportStats where
  rxPackets : UInt64 := 0
  rxBytes : UInt64 := 0
  rxDropped : UInt64 := 0
  ringOverruns : UInt64 := 0
  pollCalls : UInt64 := 0
  emptyPolls : UInt64 := 0
deriving Repr, DecidableEq

/-- The errors that this transport returns. -/
inductive TransportError
  | bufferOverflow (message : String)
  | notConnected
deriving Repr, DecidableEq

/-- A payload and its timestamp, as the handler gets them. -/
abbrev Packet : Type := List UInt8 × UInt64

structure IoUringTransport where
  fixedBufferPool : List (List UInt8)
  cqEntries : List CompletionEntry
  freeBufferIndices : List UInt32
  entries : ℕ
  stats : TransportStats
  isActive : Bool
deriving Repr, DecidableEq

/-- `next_power_of_two`, which wraps to 0 above `2 ^ 63`. -/
def nextPowerOfTwo (n : UInt64) : ℕ :=
  if n.toNat ≤ 1 then 1 else 2 ^ ((n.toNat - 1).log2 + 1) % 2 ^ 64

/-- The size of the ring. -/
def ringEntries (entries : UInt64) : ℕ :=
  if entries = 0 then defaultIoUringEntries else nextPowerOfTwo entries

namespace IoUringTransport

/-- `IoUringTransport::bind("mock", entries)`. -/
def bind (entries : UInt64) : IoUringTransport where
  fixedBufferPool := List.replicate (ringEntries entries) (List.replicate ioUringEntrySize 0)
  cqEntries := []
  freeBufferIndices := (List.range (ringEntries entries)).map UInt32.ofNat
  entries := ringEntries entries
  stats := {}
  isActive := true

def injectPacket (t : IoUringTransport) (payload : List UInt8) (timestampNs : UInt64) :
    Except TransportError Unit × IoUringTransport :=
  match t.freeBufferIndices.getLast? with
  | none =>
    (.error (.bufferOverflow "io_uring fixed buffer pool saturated"),
      { t with stats := { t.stats with ringOverruns := t.stats.ringOverruns + 1 } })
  | some bufIdx =>
    let copied := payload.take ioUringEntrySize
    let buffer := t.fixedBufferPool.getD bufIdx.toNat []
    (.ok (), { t with
      freeBufferIndices := t.freeBufferIndices.dropLast
      fixedBufferPool :=
        t.fixedBufferPool.set bufIdx.toNat (copied ++ buffer.drop copied.length)
      cqEntries := t.cqEntries ++ [⟨bufIdx, UInt32.ofNat copied.length, timestampNs⟩] })

/-- The slice of the pool that a completion names, with its timestamp. -/
def packet (pool : List (List UInt8)) (cq : CompletionEntry) : Packet :=
  ((pool.getD cq.bufferIdx.toNat []).take cq.length.toNat, cq.timestampNs)

/-- The loop of `poll_batch`: what was handed over, and `batch_bytes`. -/
structure Batch where
  transport : IoUringTransport
  handled : List Packet
  bytes : UInt64

/-- One turn of the loop. -/
def Batch.deliver (b : Batch) : Batch :=
  match b.transport.cqEntries with
  | [] => b
  | cq :: waiting =>
    { transport := { b.transport with
        cqEntries := waiting
        freeBufferIndices := b.transport.freeBufferIndices ++ [cq.bufferIdx] }
      handled := b.handled ++ [packet b.transport.fixedBufferPool cq]
      bytes := b.bytes + cq.length.toUInt64 }

/-- `poll_batch`, with the packets that its handler gets. Without a socket
`poll_socket_into_ring` does nothing. -/
def pollBatch (t : IoUringTransport) (maxBatch : ℕ) :
    Except TransportError ℕ × IoUringTransport × List Packet :=
  if !t.isActive then (.error .notConnected, t, [])
  else
    let t := { t with stats := { t.stats with pollCalls := t.stats.pollCalls + 1 } }
    if t.cqEntries.isEmpty then
      (.ok 0, { t with stats := { t.stats with emptyPolls := t.stats.emptyPolls + 1 } }, [])
    else
      let count := min maxBatch t.cqEntries.length
      let b := Batch.deliver^[count] { transport := t, handled := [], bytes := 0 }
      (.ok count, { b.transport with
        stats := { b.transport.stats with
          rxPackets := b.transport.stats.rxPackets + UInt64.ofNat count
          rxBytes := b.transport.stats.rxBytes + b.bytes } }, b.handled)

end IoUringTransport

open IoUringTransport

inductive Op
  | inject (payload : List UInt8) (timestampNs : UInt64)
  | poll (maxBatch : ℕ)
deriving Repr, DecidableEq

/-- A transport with the history of its calls. -/
structure Traffic where
  transport : IoUringTransport
  accepted : List Packet
  delivered : List Packet
  refused : ℕ
  polls : ℕ
  emptyPolls : ℕ

/-- One call. A packet is recorded cut to the size of a buffer; a poll is empty when all that
was accepted is delivered. -/
def Traffic.call (t : Traffic) : Op → Traffic
  | .inject payload timestampNs =>
    match t.transport.injectPacket payload timestampNs with
    | (.ok (), transport) =>
      { t with
        transport := transport
        accepted := t.accepted ++ [(payload.take ioUringEntrySize, timestampNs)] }
    | (.error _, transport) => { t with transport := transport, refused := t.refused + 1 }
  | .poll maxBatch =>
    let (_, transport, handled) := t.transport.pollBatch maxBatch
    { t with
      transport := transport
      delivered := t.delivered ++ handled
      polls := t.polls + 1
      emptyPolls := t.emptyPolls + (if t.accepted.length = t.delivered.length then 1 else 0) }

def Traffic.init (entries : UInt64) : Traffic where
  transport := .bind entries
  accepted := []
  delivered := []
  refused := 0
  polls := 0
  emptyPolls := 0

def Traffic.run (t : Traffic) (ops : List Op) : Traffic := ops.foldl Traffic.call t

/-- The buffers of the free list and of the completion queue, by their numbers. -/
def IoUringTransport.buffers (t : IoUringTransport) : List ℕ :=
  (t.freeBufferIndices ++ t.cqEntries.map (·.bufferIdx)).map UInt32.toNat

/-- The packets that wait, as the handler will get them. -/
def IoUringTransport.pending (t : IoUringTransport) : List Packet :=
  t.cqEntries.map (packet t.fixedBufferPool)

/-! ### Injecting -/

variable {t : IoUringTransport}

lemma injectPacket_full (h : t.freeBufferIndices = []) (payload : List UInt8) (ts : UInt64) :
    t.injectPacket payload ts
      = (.error (.bufferOverflow "io_uring fixed buffer pool saturated"),
          { t with stats := { t.stats with ringOverruns := t.stats.ringOverruns + 1 } }) := by
  unfold injectPacket
  rw [h]
  rfl

/-- A packet goes into the last buffer of the free list. -/
lemma injectPacket_room {free : List UInt32} {idx : UInt32}
    (h : t.freeBufferIndices = free ++ [idx]) (payload : List UInt8) (ts : UInt64) :
    t.injectPacket payload ts
      = (.ok (), { t with
          freeBufferIndices := free
          fixedBufferPool := t.fixedBufferPool.set idx.toNat
            (payload.take ioUringEntrySize
              ++ (t.fixedBufferPool.getD idx.toNat []).drop
                (payload.take ioUringEntrySize).length)
          cqEntries := t.cqEntries
            ++ [⟨idx, UInt32.ofNat (payload.take ioUringEntrySize).length, ts⟩] }) := by
  unfold injectPacket
  rw [h, List.getLast?_concat]
  dsimp only
  rw [List.dropLast_concat]

/-- What was written into a buffer is read back from it. -/
lemma packet_set_self {pool : List (List UInt8)} {idx : UInt32} (hidx : idx.toNat < pool.length)
    {bytes : List UInt8} (hsize : bytes.length ≤ ioUringEntrySize) (kept : List UInt8)
    (ts : UInt64) :
    packet (pool.set idx.toNat (bytes ++ kept)) ⟨idx, UInt32.ofNat bytes.length, ts⟩
      = (bytes, ts) := by
  have hlength : (UInt32.ofNat bytes.length).toNat = bytes.length := by
    unfold ioUringEntrySize at hsize
    exact UInt32.toNat_ofNat_of_lt' (Nat.lt_of_le_of_lt hsize (by decide))
  unfold packet
  dsimp only
  rw [hlength, List.getD_eq_getElem?_getD, List.getElem?_set_self hidx, Option.getD_some,
    List.take_left]

/-- And the other buffers keep what they hold. -/
lemma packet_set_ne {pool : List (List UInt8)} {i : ℕ} {cq : CompletionEntry}
    (h : cq.bufferIdx.toNat ≠ i) (bytes : List UInt8) :
    packet (pool.set i bytes) cq = packet pool cq := by
  unfold packet
  rw [List.getD_eq_getElem?_getD, List.getElem?_set_ne (Ne.symm h), ← List.getD_eq_getElem?_getD]

/-! ### Polling -/

/-- The turns of the loop hand over the first completions, and return their buffers. -/
lemma deliver_iterate (n : ℕ) (b : Batch) (h : n ≤ b.transport.cqEntries.length) :
    Batch.deliver^[n] b =
      { transport := { b.transport with
          cqEntries := b.transport.cqEntries.drop n
          freeBufferIndices := b.transport.freeBufferIndices
            ++ (b.transport.cqEntries.take n).map (·.bufferIdx) }
        handled := b.handled
          ++ (b.transport.cqEntries.take n).map (packet b.transport.fixedBufferPool)
        bytes := b.bytes
          + UInt64.ofNat (((b.transport.cqEntries.take n).map (·.length.toNat)).sum) } := by
  -- each turn takes the head of the queue
  induction n generalizing b with
  | zero => simp
  | succ n ih =>
    match hcq : b.transport.cqEntries with
    | [] =>
      rw [hcq] at h
      exact absurd h (Nat.not_succ_le_zero n)
    | cq :: waiting =>
      have hdeliver : b.deliver =
          { transport := { b.transport with
              cqEntries := waiting
              freeBufferIndices := b.transport.freeBufferIndices ++ [cq.bufferIdx] }
            handled := b.handled ++ [packet b.transport.fixedBufferPool cq]
            bytes := b.bytes + cq.length.toUInt64 } := by
        unfold Batch.deliver
        rw [hcq]
      have hbytes (m : ℕ) : b.bytes + cq.length.toUInt64 + UInt64.ofNat m
          = b.bytes + UInt64.ofNat (cq.length.toNat + m) := by
        rw [UInt64.add_assoc, UInt64.ofNat_add, UInt64.ofNat_uInt32ToNat]
      rw [hcq, List.length_cons] at h
      rw [Function.iterate_succ_apply, hdeliver, ih _ (Nat.le_of_succ_le_succ h)]
      simp [hbytes]

lemma pollBatch_empty (hactive : t.isActive = true) (h : t.cqEntries = []) (n : ℕ) :
    t.pollBatch n
      = (.ok 0, { t with stats := { t.stats with
            pollCalls := t.stats.pollCalls + 1
            emptyPolls := t.stats.emptyPolls + 1 } }, []) := by
  simp [pollBatch, hactive, h]

/-- A poll of a queue that is not empty. -/
lemma pollBatch_nonempty (hactive : t.isActive = true) (h : t.cqEntries ≠ []) (n : ℕ) :
    t.pollBatch n
      = (.ok (min n t.cqEntries.length), { t with
          cqEntries := t.cqEntries.drop (min n t.cqEntries.length)
          freeBufferIndices := t.freeBufferIndices
            ++ (t.cqEntries.take (min n t.cqEntries.length)).map (·.bufferIdx)
          stats := { t.stats with
            pollCalls := t.stats.pollCalls + 1
            rxPackets := t.stats.rxPackets + UInt64.ofNat (min n t.cqEntries.length)
            rxBytes := t.stats.rxBytes + UInt64.ofNat
              (((t.cqEntries.take (min n t.cqEntries.length)).map (·.length.toNat)).sum) } },
        (t.cqEntries.take (min n t.cqEntries.length)).map (packet t.fixedBufferPool)) := by
  have hloop := deliver_iterate (min n t.cqEntries.length)
    { transport := { t with stats := { t.stats with pollCalls := t.stats.pollCalls + 1 } }
      handled := []
      bytes := 0 } (Nat.min_le_right _ _)
  unfold pollBatch
  rw [if_neg (by rw [hactive]; decide)]
  dsimp only
  rw [if_neg (by simpa using h), hloop]
  simp

/-! ### Every run -/

/-- What every state of a run satisfies, on a ring whose buffer numbers are distinct. -/
structure Traffic.Inv (entries : ℕ) (t : Traffic) : Prop where
  active : t.transport.isActive = true
  size : t.transport.entries = entries
  pool : t.transport.fixedBufferPool.length = entries
  buffers : t.transport.buffers.Perm (List.range entries)
  fifo : t.delivered ++ t.transport.pending = t.accepted
  lengths : ∀ cq ∈ t.transport.cqEntries,
    cq.length.toNat = (packet t.transport.fixedBufferPool cq).1.length
  rxPackets : t.transport.stats.rxPackets = .ofNat t.delivered.length
  rxBytes : t.transport.stats.rxBytes = .ofNat (t.delivered.map (·.1.length)).sum
  ringOverruns : t.transport.stats.ringOverruns = .ofNat t.refused
  pollCalls : t.transport.stats.pollCalls = .ofNat t.polls
  emptyPolls : t.transport.stats.emptyPolls = .ofNat t.emptyPolls

variable {entries : ℕ} {s : Traffic}

/-- The free buffers and the waiting packets make up the ring. -/
lemma Traffic.Inv.count (h : s.Inv entries) :
    s.transport.freeBufferIndices.length + s.transport.cqEntries.length = entries := by
  have hlength := h.buffers.length_eq
  simpa [IoUringTransport.buffers] using hlength

lemma Traffic.Inv.full_iff (h : s.Inv entries) :
    s.transport.freeBufferIndices = [] ↔ s.transport.pending.length = entries := by
  have hcount := h.count
  rw [← List.length_eq_zero_iff, pending, List.length_map]
  omega

/-- Nothing is pending exactly when all that was accepted is delivered. -/
lemma Traffic.Inv.idle_iff (h : s.Inv entries) :
    s.transport.cqEntries = [] ↔ s.accepted.length = s.delivered.length := by
  have hfifo := congrArg List.length h.fifo
  rw [List.length_append, pending, List.length_map] at hfifo
  rw [← List.length_eq_zero_iff]
  omega

/-- The buffer on top of the free list belongs to the ring and to no waiting packet. -/
lemma Traffic.Inv.fresh (h : s.Inv entries) {free : List UInt32} {idx : UInt32}
    (hfree : s.transport.freeBufferIndices = free ++ [idx]) :
    idx.toNat < entries ∧ ∀ cq ∈ s.transport.cqEntries, cq.bufferIdx.toNat ≠ idx.toNat := by
  have hnodup : s.transport.buffers.Nodup := h.buffers.nodup_iff.mpr List.nodup_range
  have hmem : idx.toNat ∈ s.transport.buffers := by simp [IoUringTransport.buffers, hfree]
  refine ⟨List.mem_range.mp (h.buffers.mem_iff.mp hmem), ?_⟩
  intro cq hcq heq
  rw [IoUringTransport.buffers, hfree, List.map_append, List.nodup_append] at hnodup
  refine hnodup.2.2 idx.toNat (by simp) cq.bufferIdx.toNat ?_ heq.symm
  exact List.mem_map_of_mem (List.mem_map_of_mem hcq)

lemma call_inject_full_inv (h : s.Inv entries) (hfree : s.transport.freeBufferIndices = [])
    (payload : List UInt8) (ts : UInt64) : (s.call (.inject payload ts)).Inv entries := by
  unfold Traffic.call
  dsimp only
  rw [injectPacket_full hfree]
  refine ⟨h.active, h.size, h.pool, h.buffers, h.fifo, h.lengths, h.rxPackets, h.rxBytes, ?_,
    h.pollCalls, h.emptyPolls⟩
  show s.transport.stats.ringOverruns + 1 = .ofNat (s.refused + 1)
  rw [h.ringOverruns, UInt64.ofNat_add]
  rfl

lemma call_inject_room_inv (h : s.Inv entries) {free : List UInt32} {idx : UInt32}
    (hfree : s.transport.freeBufferIndices = free ++ [idx]) (payload : List UInt8) (ts : UInt64) :
    (s.call (.inject payload ts)).Inv entries := by
  obtain ⟨hidx, hother⟩ := h.fresh hfree
  have hsize : (payload.take ioUringEntrySize).length ≤ ioUringEntrySize :=
    List.length_take_le _ _
  rw [← h.pool] at hidx
  unfold Traffic.call
  dsimp only
  rw [injectPacket_room hfree]
  set copied := payload.take ioUringEntrySize with hcopied
  set kept := (s.transport.fixedBufferPool.getD idx.toNat []).drop copied.length
  refine ⟨h.active, h.size, ?_, ?_, ?_, ?_, h.rxPackets, h.rxBytes, h.ringOverruns, h.pollCalls,
    h.emptyPolls⟩
  · exact (List.length_set ..).trans h.pool
  · -- the buffer moves from the end of the free list to the end of the queue
    have hperm := h.buffers
    rw [buffers, hfree] at hperm
    refine List.Perm.trans ?_ hperm
    unfold buffers
    dsimp only
    refine List.Perm.map _ ?_
    rw [List.map_append, List.map_singleton, List.append_assoc free]
    exact List.perm_append_comm.append_left free
  · -- the packets that wait are not in that buffer
    have hkeep : s.transport.cqEntries.map
          (packet (s.transport.fixedBufferPool.set idx.toNat (copied ++ kept)))
        = s.transport.pending :=
      List.map_congr_left fun cq hcq => packet_set_ne (hother cq hcq) _
    show s.delivered ++ (s.transport.cqEntries ++ [_]).map _ = s.accepted ++ [(copied, ts)]
    rw [List.map_append, hkeep, List.map_singleton, packet_set_self hidx hsize,
      ← List.append_assoc, h.fifo]
  · intro cq hcq
    dsimp only at hcq ⊢
    rcases List.mem_append.mp hcq with hcq | hcq
    · rw [packet_set_ne (hother cq hcq)]
      exact h.lengths cq hcq
    · rw [List.mem_singleton.mp hcq, packet_set_self hidx hsize]
      unfold ioUringEntrySize at hsize
      exact UInt32.toNat_ofNat_of_lt' (Nat.lt_of_le_of_lt hsize (by decide))

lemma call_poll_empty_inv (h : s.Inv entries) (hcq : s.transport.cqEntries = []) (n : ℕ) :
    (s.call (.poll n)).Inv entries := by
  unfold Traffic.call
  dsimp only
  rw [pollBatch_empty h.active hcq, if_pos (h.idle_iff.mp hcq), List.append_nil]
  refine ⟨h.active, h.size, h.pool, h.buffers, h.fifo, h.lengths, h.rxPackets, h.rxBytes,
    h.ringOverruns, ?_, ?_⟩
  · show s.transport.stats.pollCalls + 1 = .ofNat (s.polls + 1)
    rw [h.pollCalls, UInt64.ofNat_add]
    rfl
  · show s.transport.stats.emptyPolls + 1 = .ofNat (s.emptyPolls + 1)
    rw [h.emptyPolls, UInt64.ofNat_add]
    rfl

lemma call_poll_nonempty_inv (h : s.Inv entries) (hcq : s.transport.cqEntries ≠ []) (n : ℕ) :
    (s.call (.poll n)).Inv entries := by
  have hbusy : ¬ s.accepted.length = s.delivered.length := fun he => hcq (h.idle_iff.mpr he)
  unfold Traffic.call
  dsimp only
  rw [pollBatch_nonempty h.active hcq, if_neg hbusy]
  set m := min n s.transport.cqEntries.length with hm
  have hsplit := List.take_append_drop m s.transport.cqEntries
  have hbytes : ((s.transport.cqEntries.take m).map (·.length.toNat)).sum
      = (((s.transport.cqEntries.take m).map (packet s.transport.fixedBufferPool)).map
          (·.1.length)).sum := by
    rw [List.map_map]
    congr 1
    exact List.map_congr_left fun cq hmem => h.lengths cq (List.mem_of_mem_take hmem)
  refine ⟨h.active, h.size, h.pool, ?_, ?_, ?_, ?_, ?_, h.ringOverruns, ?_, h.emptyPolls⟩
  · -- the buffers of the delivered packets move to the end of the free list
    refine List.Perm.trans ?_ h.buffers
    unfold buffers
    dsimp only
    rw [List.append_assoc, ← List.map_append, hsplit]
  · show s.delivered ++ (s.transport.cqEntries.take m).map _
      ++ (s.transport.cqEntries.drop m).map _ = s.accepted
    rw [List.append_assoc, ← List.map_append, hsplit]
    exact h.fifo
  · intro cq hmem
    exact h.lengths cq (List.mem_of_mem_drop hmem)
  · show s.transport.stats.rxPackets + .ofNat m = .ofNat _
    rw [h.rxPackets, ← UInt64.ofNat_add, List.length_append, List.length_map, List.length_take,
      Nat.min_eq_left (hm ▸ Nat.min_le_right _ _)]
  · show s.transport.stats.rxBytes + .ofNat _ = .ofNat _
    rw [h.rxBytes, ← UInt64.ofNat_add, hbytes, List.map_append, List.sum_append]
  · show s.transport.stats.pollCalls + 1 = .ofNat (s.polls + 1)
    rw [h.pollCalls, UInt64.ofNat_add]
    rfl

/-- Every call keeps the invariant. -/
lemma call_inv (h : s.Inv entries) (op : Op) : (s.call op).Inv entries := by
  cases op with
  | inject payload ts =>
    rcases List.eq_nil_or_concat s.transport.freeBufferIndices with hfree | ⟨free, idx, hfree⟩
    · exact call_inject_full_inv h hfree payload ts
    · rw [List.concat_eq_append] at hfree
      exact call_inject_room_inv h hfree payload ts
  | poll n =>
    by_cases hcq : s.transport.cqEntries = []
    · exact call_poll_empty_inv h hcq n
    · exact call_poll_nonempty_inv h hcq n

lemma run_inv (h : s.Inv entries) (ops : List Op) : (s.run ops).Inv entries := by
  induction ops generalizing s with
  | nil => exact h
  | cons op ops ih => exact ih (call_inv h op)

/-- Up to `2 ^ 32` entries the cut to 32 bits keeps the buffer numbers. -/
lemma bind_inv {requested : UInt64} (h : ringEntries requested ≤ 2 ^ 32) :
    (Traffic.init requested).Inv (ringEntries requested) := by
  refine ⟨rfl, rfl, List.length_replicate, ?_, rfl, ?_, rfl, rfl, rfl, rfl, rfl⟩
  · refine List.Perm.of_eq ?_
    show ((List.range (ringEntries requested)).map UInt32.ofNat ++ []).map UInt32.toNat = _
    rw [List.append_nil, List.map_map]
    refine (List.map_congr_left ?_).trans (List.map_id _)
    intro i hi
    exact UInt32.toNat_ofNat_of_lt' (Nat.lt_of_lt_of_le (List.mem_range.mp hi) h)
  · intro cq hcq
    exact absurd hcq List.not_mem_nil

/-- With at most `2 ^ 32` entries, after any calls: the free list and the completion queue
share out the buffers; a packet is refused exactly when as many packets wait as there are
entries; what the handlers got, followed by what waits, is what was accepted, in order; and
the counters, as `u64`, count these. -/
theorem bounded_fifo {requested : UInt64} (hsize : ringEntries requested ≤ 2 ^ 32)
    (ops : List Op) :
    let s := (Traffic.init requested).run ops
    s.transport.entries = ringEntries requested ∧
      s.transport.buffers.Perm (List.range s.transport.entries) ∧
      (∀ payload ts, (∃ e, (s.transport.injectPacket payload ts).1 = .error e) ↔
        s.transport.pending.length = s.transport.entries) ∧
      s.delivered ++ s.transport.pending = s.accepted ∧
      s.transport.stats.rxPackets = .ofNat s.delivered.length ∧
      s.transport.stats.rxBytes = .ofNat (s.delivered.map (·.1.length)).sum ∧
      s.transport.stats.ringOverruns = .ofNat s.refused ∧
      s.transport.stats.pollCalls = .ofNat s.polls ∧
      s.transport.stats.emptyPolls = .ofNat s.emptyPolls := by
  intro s
  have h : s.Inv (ringEntries requested) := run_inv (bind_inv hsize) ops
  refine ⟨h.size, ?_, ?_, h.fifo, h.rxPackets, h.rxBytes, h.ringOverruns, h.pollCalls,
    h.emptyPolls⟩
  · rw [h.size]
    exact h.buffers
  · intro payload ts
    rw [h.size, ← h.full_iff]
    rcases List.eq_nil_or_concat s.transport.freeBufferIndices with hfree | ⟨free, idx, hfree⟩
    · rw [injectPacket_full hfree]
      exact ⟨fun _ => hfree, fun _ => ⟨_, rfl⟩⟩
    · rw [List.concat_eq_append] at hfree
      rw [injectPacket_room hfree, hfree]
      simp

/-- Two packets into a ring of two entries, a third that is refused, and polls of all. -/
def threePackets : List Op :=
  [.poll 4, .inject [1, 2] 7, .inject [3] 8, .inject [4] 9, .poll 1, .poll 0, .inject [5] 10]

theorem bounded_fifo_threePackets :
    ringEntries 2 ≤ 2 ^ 32 ∧
      ((Traffic.init 2).run threePackets).delivered
          ++ ((Traffic.init 2).run threePackets).transport.pending
        = ((Traffic.init 2).run threePackets).accepted :=
  ⟨by decide, (bounded_fifo (by decide) threePackets).2.2.2.1⟩

/-- Polls of an empty queue. -/
lemma run_polls (n : ℕ) :
    ((Traffic.init 1).run (List.replicate n (.poll 0))).polls = n := by
  induction n with
  | zero => rfl
  | succ n ih =>
    unfold Traffic.run at ih ⊢
    rw [List.replicate_succ', List.foldl_concat]
    show (List.foldl Traffic.call _ _).polls + 1 = n + 1
    rw [ih]

/-- On a ring of `2 ^ 33` entries the buffer `2 ^ 32` is in neither list, already before the
first call; and the counters wrap after `2 ^ 64` polls. -/
theorem fifo_widths_exceeded :
    (¬ (Traffic.init (2 ^ 33)).transport.buffers.Perm (List.range (ringEntries (2 ^ 33)))) ∧
      ((Traffic.init 1).run (List.replicate (2 ^ 64) (.poll 0))).transport.stats.pollCalls.toNat
        ≠ ((Traffic.init 1).run (List.replicate (2 ^ 64) (.poll 0))).polls := by
  constructor
  · intro hperm
    have hentries : 2 ^ 32 < ringEntries (2 ^ 33) := by decide
    have hmem := hperm.mem_iff.mpr (List.mem_range.mpr hentries)
    obtain ⟨idx, -, hidx⟩ := List.mem_map.mp hmem
    exact absurd idx.toNat_lt (by omega)
  · have hring : ringEntries 1 ≤ 2 ^ 32 := by decide
    have h := run_inv (bind_inv hring) (List.replicate (2 ^ 64) (.poll 0))
    rw [h.pollCalls, run_polls]
    decide

end IoUring
end ChainMarketPrice.CefiIngest
