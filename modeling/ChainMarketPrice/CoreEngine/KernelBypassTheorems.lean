import Mathlib.Data.List.Perm.Basic
import Mathlib.Data.List.Range
import Mathlib.Data.List.GetD
import Mathlib.Data.List.Nodup
import ChainMarketPrice.CoreEngine.KernelBypass

/-!
# Buffer accounting of `KernelBypassBridge`

A poll that delivers packets rebuilds the posted window from its filled part only, so the
descriptors that were posted and not yet filled are forgotten. The pool is empty between
calls (`Inv.freeCount`), so nothing else holds those buffers: `accounted_iff_pollsFilled` says
that the buffers are all accounted for exactly after the runs whose delivering polls find no
posted descriptor unfilled, in a pool of at most `2 ^ 32` frames.
-/

namespace ChainMarketPrice.CoreEngine
namespace KernelBypass

open KernelBypassBridge

variable {k : ℕ}

/-! ## The two lists of buffer ids -/

/-- The free pool: the first `freeCount` entries of `availableIndices`. -/
def DmaBufferPool.freeIds (p : DmaBufferPool) : List ℕ := p.availableIndices.take p.freeCount

/-- The posted ring: `postedDescriptors[0..rxRingTail)`. -/
def KernelBypassBridge.postedIds (b : KernelBypassBridge k) : List ℕ :=
  b.postedDescriptors.take b.rxRingTail

/-- Writing the entry after a prefix extends the prefix. -/
lemma take_succ_set {l : List ℕ} {n : ℕ} (h : n < l.length) (x : ℕ) :
    (l.set n x).take (n + 1) = l.take n ++ [x] := by
  rw [List.take_add_one, List.getElem?_set_self h, List.take_set_of_le (Nat.le_refl n)]
  rfl

/-- What every state of a run satisfies, whatever the calls. -/
structure Inv (b : KernelBypassBridge k) : Prop where
  length_available : b.bufferPool.availableIndices.length = 2 ^ k
  length_posted : b.postedDescriptors.length = 2 ^ k
  freeCount : b.bufferPool.freeCount = 0
  head_le : b.rxRingHead ≤ b.rxRingTail
  tail_le : b.rxRingTail ≤ 2 ^ k

/-! ## The refill loop -/

/-- With room for the whole pool, the refill posts all free buffers, newest first. -/
lemma refillLoop_spec : ∀ (fuel : ℕ) (b : KernelBypassBridge k),
    b.bufferPool.freeCount = fuel → b.bufferPool.availableIndices.length = 2 ^ k →
    b.postedDescriptors.length = 2 ^ k → b.rxRingTail + fuel ≤ 2 ^ k →
    let b' := (b.refillLoop fuel).1
    b'.bufferPool.freeCount = 0 ∧ b'.bufferPool.availableIndices = b.bufferPool.availableIndices ∧
      b'.postedDescriptors.length = 2 ^ k ∧ b'.rxRingHead = b.rxRingHead ∧
      b'.rxRingTail = b.rxRingTail + fuel ∧
      b'.postedIds = b.postedIds ++ b.bufferPool.freeIds.reverse := by
  intro fuel
  induction fuel with
  | zero =>
    intro b hfree _ hpost _
    refine ⟨hfree, rfl, hpost, rfl, rfl, ?_⟩
    simp [refillLoop, DmaBufferPool.freeIds, hfree]
  | succ fuel ih =>
    intro b hfree hav hpost hroom
    have hlt : b.rxRingTail < b.rxRingHead + 2 ^ k := by omega
    have halloc : b.bufferPool.allocateDescriptor
        = some (b.bufferPool.availableIndices.getD fuel 0,
            { b.bufferPool with freeCount := fuel }) := by
      simp [DmaBufferPool.allocateDescriptor, hfree]
    -- the mask does nothing below the capacity
    have hidx : b.rxRingTail &&& (2 ^ k - 1) = b.rxRingTail := by
      rw [Nat.and_two_pow_sub_one_eq_mod]
      exact Nat.mod_eq_of_lt (by omega)
    simp only [refillLoop, if_pos hlt, halloc, hidx]
    -- one turn: the newest free buffer goes to the tail of the ring
    set b1 : KernelBypassBridge k :=
      { b with
        bufferPool := { b.bufferPool with freeCount := fuel }
        postedDescriptors :=
          b.postedDescriptors.set b.rxRingTail (b.bufferPool.availableIndices.getD fuel 0)
        rxRingTail := b.rxRingTail + 1 } with hb1
    have h := ih b1 rfl hav (by simp [hb1, hpost]) (by simp only [hb1]; omega)
    obtain ⟨h1, h2, h3, h4, h5, h6⟩ := h
    refine ⟨h1, h2, h3, h4, by rw [h5, hb1]; dsimp only; omega, ?_⟩
    have hposted : b1.postedIds = b.postedIds ++ [b.bufferPool.availableIndices.getD fuel 0] :=
      take_succ_set (by omega) _
    -- the free list gives up its last entry
    have hids : b.bufferPool.freeIds
        = b1.bufferPool.freeIds ++ [b.bufferPool.availableIndices.getD fuel 0] := by
      have hlen : fuel < b.bufferPool.availableIndices.length := by omega
      rw [DmaBufferPool.freeIds, hfree, List.take_add_one, List.getElem?_eq_getElem hlen,
        List.getD_eq_getElem _ _ hlen]
      rfl
    rw [h6, hposted, hids, List.reverse_append, List.append_assoc]
    rfl

/-- `refill_rx_ring` as a whole. -/
lemma refillRxRing_spec {b : KernelBypassBridge k}
    (hav : b.bufferPool.availableIndices.length = 2 ^ k) (hpost : b.postedDescriptors.length = 2 ^ k)
    (hroom : b.rxRingTail + b.bufferPool.freeCount ≤ 2 ^ k) (hhead : b.rxRingHead ≤ b.rxRingTail) :
    Inv b.refillRxRing.1 ∧ b.refillRxRing.1.rxRingHead = b.rxRingHead ∧
      b.refillRxRing.1.rxRingTail = b.rxRingTail + b.bufferPool.freeCount ∧
      b.refillRxRing.1.postedIds = b.postedIds ++ b.bufferPool.freeIds.reverse := by
  obtain ⟨h1, h2, h3, h4, h5, h6⟩ := refillLoop_spec _ b rfl hav hpost hroom
  refine ⟨?_, h4, h5, h6⟩
  exact
    { length_available := by rw [← hav, ← h2]; rfl
      length_posted := h3
      freeCount := h1
      head_le := by
        show (b.refillLoop _).1.rxRingHead ≤ (b.refillLoop _).1.rxRingTail
        omega
      tail_le := by
        show (b.refillLoop _).1.rxRingTail ≤ 2 ^ k
        omega }

/-! ## The poll -/

/-- Delivery frees the buffers it delivers, oldest first, and leaves the ring alone. -/
lemma deliverLoop_spec {b : KernelBypassBridge k} (h : Inv b) :
    ∀ n ≤ b.rxRingHead,
      let b' := (b.deliverLoop n).1
      b'.bufferPool.availableIndices.length = 2 ^ k ∧ b'.bufferPool.freeCount = n ∧
        b'.bufferPool.freeIds = b.postedDescriptors.take n ∧
        b'.postedDescriptors = b.postedDescriptors ∧ b'.rxRingHead = b.rxRingHead ∧
        b'.rxRingTail = b.rxRingTail := by
  intro n
  induction n with
  | zero =>
    intro _
    refine ⟨h.length_available, h.freeCount, ?_, rfl, rfl, rfl⟩
    simp [deliverLoop, DmaBufferPool.freeIds, h.freeCount]
  | succ n ih =>
    intro hn
    obtain ⟨hav, hfree, hids, hpost, hhead, htail⟩ := ih (by omega)
    have hlt : n < 2 ^ k := by
      have := h.head_le
      have := h.tail_le
      omega
    have hidx : n &&& (2 ^ k - 1) = n := by
      rw [Nat.and_two_pow_sub_one_eq_mod]
      exact Nat.mod_eq_of_lt hlt
    set b1 := (b.deliverLoop n).1 with hb1
    set id := b.postedDescriptors.getD n 0 with hid
    -- one turn: the pool gains the descriptor, at the place that its count names
    have hpool : ((b.deliverLoop (n + 1)).1).bufferPool
        = { b1.bufferPool with
            availableIndices := b1.bufferPool.availableIndices.set n id
            freeCount := n + 1 } := by
      simp only [deliverLoop, DmaBufferPool.releaseDescriptor, ← hb1, hfree, hlt, if_true, hidx,
        hpost, ← hid]
    refine ⟨?_, ?_, ?_, hpost, hhead, htail⟩
    · rw [hpool, List.length_set, hav]
    · rw [hpool]
    · have hlen : n < b.postedDescriptors.length := by
        rw [h.length_posted]
        exact hlt
      rw [hpool, DmaBufferPool.freeIds]
      dsimp only
      rw [take_succ_set (by omega), List.take_add_one, List.getElem?_eq_getElem hlen, hid,
        List.getD_eq_getElem _ _ hlen, ← hids, DmaBufferPool.freeIds, hfree]
      rfl

/-- The shift moves the window `[current, current + n)` to the front: entry `i` is read
before it is overwritten, since the writes stay behind the reads. -/
lemma shiftLoop_spec (posted : List ℕ) (current : ℕ) :
    ∀ n, current + n ≤ posted.length →
      (shiftLoop posted current n).length = posted.length ∧
        (∀ i, n ≤ i → (shiftLoop posted current n)[i]? = posted[i]?) ∧
        (shiftLoop posted current n).take n = (posted.drop current).take n := by
  intro n
  induction n with
  | zero => exact fun _ => ⟨rfl, fun _ _ => rfl, by simp [shiftLoop]⟩
  | succ n ih =>
    intro hn
    obtain ⟨hlen, hrest, htake⟩ := ih (by omega)
    have hread : (shiftLoop posted current n).getD (current + n) 0
        = posted.getD (current + n) 0 := by
      rw [List.getD_eq_getElem?_getD, List.getD_eq_getElem?_getD, hrest _ (by omega)]
    have hlt : current + n < posted.length := by omega
    refine ⟨?_, ?_, ?_⟩
    · rw [shiftLoop, List.length_set, hlen]
    · intro i hi
      rw [shiftLoop, List.getElem?_set_ne (by omega), hrest i (by omega)]
    · rw [shiftLoop, take_succ_set (by omega), hread, htake, List.take_add_one,
        List.getElem?_drop, List.getElem?_eq_getElem hlt, List.getD_eq_getElem _ _ hlt]
      rfl

/-- A poll that delivers nothing changes nothing but counters. -/
lemma pollRxBurst_empty {b : KernelBypassBridge k} {n : ℕ} (hn : min n b.rxRingHead = 0) :
    let b' := (b.pollRxBurst n).1
    b'.bufferPool = b.bufferPool ∧ b'.postedDescriptors = b.postedDescriptors ∧
      b'.rxRingHead = b.rxRingHead ∧ b'.rxRingTail = b.rxRingTail := by
  simp only [pollRxBurst, hn, if_true]
  exact ⟨rfl, rfl, rfl, rfl⟩

/-- A poll that delivers keeps the filled descriptors and no others: first those that still
wait, then those it has delivered. -/
lemma pollRxBurst_delivers {b : KernelBypassBridge k} (h : Inv b) {n : ℕ}
    (hn : min n b.rxRingHead ≠ 0) :
    Inv (b.pollRxBurst n).1 ∧
      (b.pollRxBurst n).1.rxRingHead = b.rxRingHead - min n b.rxRingHead ∧
      (b.pollRxBurst n).1.rxRingTail = b.rxRingHead ∧
      (b.pollRxBurst n).1.postedIds
        = (b.postedDescriptors.drop (min n b.rxRingHead)).take (b.rxRingHead - min n b.rxRingHead)
          ++ (b.postedDescriptors.take (min n b.rxRingHead)).reverse := by
  set limit := min n b.rxRingHead with hlimit
  set b0 : KernelBypassBridge k :=
    { b with metrics := { b.metrics with pollCycles := b.metrics.pollCycles + 1 } } with hb0
  -- the poll counter is no part of the invariant
  have h0 : Inv b0 :=
    ⟨h.length_available, h.length_posted, h.freeCount, h.head_le, h.tail_le⟩
  have hle : limit ≤ b.rxRingHead := Nat.min_le_right _ _
  have htail := h.head_le
  have hcap := h.tail_le
  obtain ⟨hav, hfree, hids, hpost, -, -⟩ := deliverLoop_spec h0 limit hle
  set b1 := (b0.deliverLoop limit).1 with hb1
  have hlen : b.postedDescriptors.length = 2 ^ k := h.length_posted
  have hpost1 : b1.postedDescriptors = b.postedDescriptors := hpost
  obtain ⟨hslen, -, hstake⟩ := shiftLoop_spec b.postedDescriptors limit
    (b.rxRingHead - limit) (by omega)
  -- after the shift: the descriptors that still wait stand at the front
  set b2 : KernelBypassBridge k :=
    { b1 with
      postedDescriptors := shiftLoop b.postedDescriptors limit (b.rxRingHead - limit)
      rxRingHead := b.rxRingHead - limit
      rxRingTail := b.rxRingHead - limit } with hb2
  have hpoll : (b.pollRxBurst n).1 = b2.refillRxRing.1 := by
    rw [hb2, ← hpost1]
    simp only [pollRxBurst, ← hlimit, hn, if_false, ← hb0, ← hb1]
  have hfree2 : b2.bufferPool.freeCount = limit := hfree
  have htail2 : b2.rxRingTail = b.rxRingHead - limit := rfl
  -- the freed buffers are posted behind them
  have hrefill := refillRxRing_spec (b := b2) hav (hslen.trans hlen) (by omega) le_rfl
  obtain ⟨hinv, hhead', htail', hposted'⟩ := hrefill
  rw [hpoll]
  refine ⟨hinv, hhead', by omega, ?_⟩
  have hids2 : b2.bufferPool.freeIds = b.postedDescriptors.take limit := hids
  have hposted2 : b2.postedIds
      = (b.postedDescriptors.drop limit).take (b.rxRingHead - limit) := hstake
  rw [hposted', hposted2, hids2]

/-- The waiting and the delivered descriptors are the filled ones. -/
lemma perm_take_split (posted : List ℕ) {limit head : ℕ} (h : limit ≤ head) :
    ((posted.drop limit).take (head - limit) ++ (posted.take limit).reverse).Perm
      (posted.take head) := by
  have hsplit : posted.take head = posted.take limit ++ (posted.drop limit).take (head - limit) := by
    rw [← List.take_add]
    congr 1
    omega
  rw [hsplit]
  refine List.perm_append_comm.trans ?_
  exact (List.reverse_perm _).append_right _

/-! ## Runs -/

/-- The condition on a call: a poll that delivers packets finds no posted descriptor
unfilled. -/
def PollFilled (s : Session k) : Op → Prop
  | .poll maxPackets =>
    min maxPackets s.bridge.rxRingHead = 0 ∨ s.bridge.rxRingHead = s.bridge.rxRingTail
  | _ => True

/-- All calls of a run meet the condition where they are made. -/
def PollsFilled : Session k → List Op → Prop
  | _, [] => True
  | s, op :: ops => PollFilled s op ∧ PollsFilled (s.call op) ops

instance decidablePollFilled (s : Session k) : ∀ op, Decidable (PollFilled s op)
  | .poll maxPackets =>
    inferInstanceAs (Decidable
      (min maxPackets s.bridge.rxRingHead = 0 ∨ s.bridge.rxRingHead = s.bridge.rxRingTail))
  | .inject _ _ | .refill => .isTrue trivial

instance decidablePollsFilled : ∀ (s : Session k) (ops : List Op), Decidable (PollsFilled s ops)
  | _, [] => .isTrue trivial
  | s, op :: ops =>
    let _ := decidablePollsFilled (s.call op) ops
    inferInstanceAs (Decidable (PollFilled s op ∧ PollsFilled (s.call op) ops))

/-- Every buffer is free or posted, once, and the ring takes a packet while fewer than
`2 ^ k` accepted packets wait. -/
def Accounted (s : Session k) : Prop :=
  (∀ id < 2 ^ k, (s.bridge.bufferPool.freeIds ++ s.bridge.postedIds).count id = 1) ∧
    (s.accepted - s.polled < 2 ^ k →
      ∀ payload ts, (s.bridge.injectPacket payload ts).1 = true)

/-- The invariant of a session: the filled descriptors are the packets not yet polled. -/
structure Session.Inv (s : Session k) : Prop where
  bridge : KernelBypass.Inv s.bridge
  waiting : s.accepted = s.polled + s.bridge.rxRingHead

/-- What a call does to the ring: it keeps the posted buffers, or loses some. -/
structure CallSpec (s : Session k) (op : Op) : Prop where
  inv : (s.call op).Inv
  tail_le : (s.call op).bridge.rxRingTail ≤ s.bridge.rxRingTail
  kept : PollFilled s op → (s.call op).bridge.postedIds.Perm s.bridge.postedIds
  subset : (s.call op).bridge.postedIds ⊆ s.bridge.postedIds
  lost : ¬ PollFilled s op → (s.call op).bridge.rxRingTail < s.bridge.rxRingTail

lemma call_inject_spec {s : Session k} (h : s.Inv) (payload : List UInt8) (ts : ℕ) :
    CallSpec s (.inject payload ts) := by
  obtain ⟨hb, hw⟩ := h
  have htail := hb.head_le
  by_cases hfull : s.bridge.rxRingHead ≥ s.bridge.rxRingTail
  · refine ⟨⟨?_, ?_⟩, ?_, ?_, ?_, ?_⟩
    · simp only [Session.call, injectPacket, hfull, if_true]
      exact ⟨hb.length_available, hb.length_posted, hb.freeCount, hb.head_le, hb.tail_le⟩
    · simpa [Session.call, injectPacket, hfull] using hw
    · simp [Session.call, injectPacket, hfull]
    · intro _
      simp only [Session.call, injectPacket, hfull, if_true]
      exact List.Perm.refl _
    · simp only [Session.call, injectPacket, hfull, if_true]
      exact List.Subset.refl _
    · exact fun hn => absurd trivial hn
  · refine ⟨⟨?_, ?_⟩, ?_, ?_, ?_, ?_⟩
    · simp only [Session.call, injectPacket, hfull, if_false]
      exact ⟨hb.length_available, hb.length_posted, hb.freeCount, Nat.lt_of_not_le hfull,
        hb.tail_le⟩
    · simp only [Session.call, injectPacket, hfull, if_false, if_true]
      omega
    · simp [Session.call, injectPacket, hfull]
    · intro _
      simp only [Session.call, injectPacket, hfull, if_false]
      exact List.Perm.refl _
    · simp only [Session.call, injectPacket, hfull, if_false]
      exact List.Subset.refl _
    · exact fun hn => absurd trivial hn

lemma call_refill_spec {s : Session k} (h : s.Inv) : CallSpec s .refill := by
  obtain ⟨hb, hw⟩ := h
  have hfree := hb.freeCount
  obtain ⟨hinv, hhead, htail, hposted⟩ := refillRxRing_spec hb.length_available hb.length_posted
    (by rw [hfree]; exact hb.tail_le) hb.head_le
  have hids : s.bridge.bufferPool.freeIds = [] := by simp [DmaBufferPool.freeIds, hfree]
  have hsame : (s.call .refill).bridge.postedIds = s.bridge.postedIds := by
    simp only [Session.call, hposted, hids, List.reverse_nil, List.append_nil]
  refine ⟨⟨hinv, ?_⟩, ?_, ?_, ?_, fun hn => absurd trivial hn⟩
  · simp only [Session.call, hhead]
    exact hw
  · simp only [Session.call, htail, hfree]
    omega
  · intro _
    rw [hsame]
  · rw [hsame]
    exact List.Subset.refl _

lemma call_poll_spec {s : Session k} (h : s.Inv) (n : ℕ) : CallSpec s (.poll n) := by
  obtain ⟨hb, hw⟩ := h
  have hcount : (s.call (.poll n)).polled = s.polled + min n s.bridge.rxRingHead := by
    simp only [Session.call, pollRxBurst]
    split <;> rfl
  have hacc : (s.call (.poll n)).accepted = s.accepted := rfl
  have hbridge : (s.call (.poll n)).bridge = (s.bridge.pollRxBurst n).1 := rfl
  have hle := hb.head_le
  by_cases hn : min n s.bridge.rxRingHead = 0
  · -- an empty burst refills nothing
    obtain ⟨hpool, hpost, hhead, htail⟩ := pollRxBurst_empty hn
    have hsame : (s.call (.poll n)).bridge.postedIds = s.bridge.postedIds := by
      rw [hbridge, postedIds, hpost, htail]
      rfl
    refine ⟨⟨?_, ?_⟩, ?_, ?_, ?_, fun hp => absurd (.inl hn) hp⟩
    · rw [hbridge]
      refine ⟨?_, ?_, ?_, ?_, ?_⟩
      · rw [hpool]
        exact hb.length_available
      · rw [hpost]
        exact hb.length_posted
      · rw [hpool]
        exact hb.freeCount
      · rw [hhead, htail]
        exact hb.head_le
      · rw [htail]
        exact hb.tail_le
    · rw [hcount, hacc, hbridge, hhead]
      omega
    · rw [hbridge, htail]
    · intro _
      rw [hsame]
    · rw [hsame]
      exact List.Subset.refl _
  · obtain ⟨hinv, hhead, htail, hposted⟩ := pollRxBurst_delivers hb hn
    have hperm : (s.call (.poll n)).bridge.postedIds.Perm
        (s.bridge.postedDescriptors.take s.bridge.rxRingHead) := by
      rw [hbridge, hposted]
      exact perm_take_split _ (Nat.min_le_right _ _)
    refine ⟨⟨hinv, ?_⟩, ?_, ?_, ?_, ?_⟩
    · rw [hcount, hacc, hbridge, hhead]
      omega
    · rw [hbridge, htail]
      exact hle
    · intro hp
      have hfull : s.bridge.rxRingHead = s.bridge.rxRingTail := hp.resolve_left hn
      have hposted' : s.bridge.postedIds
          = s.bridge.postedDescriptors.take s.bridge.rxRingHead := by
        rw [postedIds, hfull]
      rw [hposted']
      exact hperm
    · intro id hid
      have hfilled := hperm.subset hid
      exact (List.take_sublist_take_left hle).subset hfilled
    · intro hp
      have hne : s.bridge.rxRingHead ≠ s.bridge.rxRingTail := fun he => hp (.inr he)
      rw [hbridge, htail]
      omega

lemma call_spec {s : Session k} (h : s.Inv) : ∀ op, CallSpec s op
  | .inject payload ts => call_inject_spec h payload ts
  | .poll n => call_poll_spec h n
  | .refill => call_refill_spec h

/-- A run keeps the invariant and never grows the ring. -/
lemma run_inv {s : Session k} (h : s.Inv) (ops : List Op) :
    (s.run ops).Inv ∧ (s.run ops).bridge.rxRingTail ≤ s.bridge.rxRingTail := by
  induction ops generalizing s with
  | nil => exact ⟨h, le_rfl⟩
  | cons op ops ih =>
    have hc := call_spec h op
    obtain ⟨hinv, hle⟩ := ih hc.inv
    exact ⟨hinv, hle.trans hc.tail_le⟩

/-- A run posts no buffer that was not posted before. -/
lemma run_subset {s : Session k} (h : s.Inv) (ops : List Op) :
    (s.run ops).bridge.postedIds ⊆ s.bridge.postedIds := by
  induction ops generalizing s with
  | nil => exact List.Subset.refl _
  | cons op ops ih =>
    have hc := call_spec h op
    exact List.Subset.trans (ih hc.inv) hc.subset

/-- A run that meets the condition keeps the posted buffers. -/
lemma run_kept {s : Session k} (h : s.Inv) {ops : List Op} (hp : PollsFilled s ops) :
    (s.run ops).bridge.postedIds.Perm s.bridge.postedIds := by
  induction ops generalizing s with
  | nil => exact List.Perm.refl _
  | cons op ops ih =>
    have hc := call_spec h op
    exact (ih hc.inv hp.2).trans (hc.kept hp.1)

/-- A run that does not ends with a shorter ring. -/
lemma run_lost {s : Session k} (h : s.Inv) {ops : List Op} (hp : ¬ PollsFilled s ops) :
    (s.run ops).bridge.rxRingTail < s.bridge.rxRingTail := by
  induction ops generalizing s with
  | nil => exact absurd trivial hp
  | cons op ops ih =>
    have hc := call_spec h op
    by_cases hop : PollFilled s op
    · have hrest : ¬ PollsFilled (s.call op) ops := fun hr => hp ⟨hop, hr⟩
      exact lt_of_lt_of_le (ih hc.inv hrest) hc.tail_le
    · exact lt_of_le_of_lt (run_inv hc.inv ops).2 (hc.lost hop)

/-- A new bridge has all its buffers posted, the last one first. -/
lemma new_spec (k : ℕ) :
    Inv (new k) ∧ (new k).rxRingHead = 0 ∧ (new k).rxRingTail = 2 ^ k ∧
      (new k).postedIds = ((List.range (2 ^ k)).map (· % 2 ^ 32)).reverse := by
  obtain ⟨hinv, hhead, htail, hposted⟩ := refillRxRing_spec (k := k)
    (b := { metrics := {}, bufferPool := DmaBufferPool.new (2 ^ k), rxRingHead := 0,
            rxRingTail := 0, postedDescriptors := List.replicate (2 ^ k) 0, isActive := true })
    (by simp [DmaBufferPool.new]) (by simp) (by simp [DmaBufferPool.new]) le_rfl
  refine ⟨hinv, hhead, htail.trans (Nat.zero_add _), ?_⟩
  unfold new
  rw [hposted]
  simp [postedIds, DmaBufferPool.freeIds, DmaBufferPool.new]

lemma init_spec (k : ℕ) :
    (Session.init k).Inv ∧ (Session.init k).bridge.rxRingTail = 2 ^ k ∧
      (Session.init k).bridge.postedIds.Perm ((List.range (2 ^ k)).map (· % 2 ^ 32)) := by
  obtain ⟨hinv, hhead, htail, hposted⟩ := new_spec k
  refine ⟨⟨hinv, ?_⟩, htail, ?_⟩
  · unfold Session.init
    rw [hhead]
  · unfold Session.init
    rw [hposted]
    exact List.reverse_perm _

/-- A list in which each of `0 .. n - 1` occurs has at least `n` entries. -/
lemma le_length_of_count {l : List ℕ} {n : ℕ} (h : ∀ id < n, l.count id = 1) : n ≤ l.length := by
  have hsub : (List.range n).Subperm l := by
    refine List.subperm_of_subset List.nodup_range fun id hid => ?_
    rw [← List.one_le_count_iff, h id (List.mem_range.mp hid)]
  simpa using hsub.length_le

/-- Up to `2 ^ 32` buffers have different ids. -/
lemma map_mod_range (hk : k ≤ 32) : (List.range (2 ^ k)).map (· % 2 ^ 32) = List.range (2 ^ k) := by
  have hle : 2 ^ k ≤ 2 ^ 32 := Nat.pow_le_pow_right (by decide) hk
  conv_rhs => rw [← List.map_id (List.range (2 ^ k))]
  apply List.map_congr_left
  intro id hid
  exact Nat.mod_eq_of_lt (lt_of_lt_of_le (List.mem_range.mp hid) hle)

/-- Buffers are all accounted for exactly when their ids fit into 32 bits, after the runs whose
delivering polls found the posted window filled. -/
theorem accounted_iff_pollsFilled (k : ℕ) (ops : List Op) :
    Accounted ((Session.init k).run ops) ↔ k ≤ 32 ∧ PollsFilled (Session.init k) ops := by
  obtain ⟨hinit, htail, hposted⟩ := init_spec k
  obtain ⟨hinv, -⟩ := run_inv hinit ops
  have hsubset := run_subset hinit ops
  set s := (Session.init k).run ops with hs
  have hfree : s.bridge.bufferPool.freeIds = [] := by
    simp [DmaBufferPool.freeIds, hinv.bridge.freeCount]
  have hlen : s.bridge.postedIds.length = s.bridge.rxRingTail := by
    rw [postedIds, List.length_take, hinv.bridge.length_posted]
    exact Nat.min_eq_left hinv.bridge.tail_le
  constructor
  · rintro ⟨hcount, -⟩
    rw [hfree, List.nil_append] at hcount
    constructor
    · by_contra hk
      -- the id `2 ^ 32` is cut to zero, so no buffer carries it
      have hlt : 2 ^ 32 < 2 ^ k := Nat.pow_lt_pow_right (by decide) (by omega)
      have hmem : 2 ^ 32 ∈ s.bridge.postedIds := by
        rw [← List.one_le_count_iff, hcount _ hlt]
      obtain ⟨id, -, hid⟩ := List.mem_map.mp (hposted.subset (hsubset hmem))
      have hmod : id % 2 ^ 32 < 2 ^ 32 := Nat.mod_lt _ (by decide)
      omega
    · by_contra hp
      have hlt := run_lost hinit hp
      rw [← hs, htail] at hlt
      have hge := le_length_of_count hcount
      omega
  · rintro ⟨hk, hp⟩
    rw [map_mod_range hk] at hposted
    have hperm : s.bridge.postedIds.Perm (List.range (2 ^ k)) :=
      (run_kept hinit hp).trans hposted
    refine ⟨fun id hid => ?_, fun hwait payload ts => ?_⟩
    · rw [hfree, List.nil_append, hperm.count_eq]
      exact List.count_eq_one_of_mem List.nodup_range (List.mem_range.mpr hid)
    · have hfull : s.bridge.rxRingTail = 2 ^ k := by
        rw [← hlen, hperm.length_eq, List.length_range]
      have hw := hinv.waiting
      have hroom : ¬ s.bridge.rxRingHead ≥ s.bridge.rxRingTail := by omega
      simp [injectPacket, hroom]

/-- One packet received and polled on a ring of four: the three empty buffers are lost. -/
theorem accounted_fails_after_poll :
    ¬ Accounted ((Session.init 2).run [.inject [] 0, .poll 1]) := by
  rintro ⟨hcount, -⟩
  have h0 := hcount 0 (by decide)
  revert h0
  decide

end KernelBypass
end ChainMarketPrice.CoreEngine
