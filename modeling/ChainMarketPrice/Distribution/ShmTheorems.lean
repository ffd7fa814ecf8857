import Mathlib.Algebra.BigOperators.Group.List.Basic
import ChainMarketPrice.Distribution.Shm

/-!
# Accounting of the shared-memory ring

With whole calls, slot `i` always holds the newest message whose sequence number is `i`
modulo the capacity (`RingInv.window`). So a read in range finds the sequence number it
expects, and a reader's cursor counts what it read and what it was told it missed
(`shm_accounting`), as long as no end of a lap is beyond the last word; there a reader that is
one message behind is told that it missed all words (`not_accounted_lastLap`).
-/

namespace ChainMarketPrice.Distribution

open RingWindow

/-! ## Capacity -/

/-- `create_or_fallback` settles on a power of two. -/
lemma elasticCapacity_eq (requested : ℕ) :
    elasticCapacity requested = 2 ^ (elasticCapacity requested).log2 := by
  rw [elasticCapacity]
  split
  · rename_i h
    exact h.symm
  · obtain ⟨k, hk⟩ := Nat.isPowerOfTwo_nextPowerOfTwo requested
    rw [hk, Nat.log2_two_pow]

lemma ElasticShmRing.capacity_createOrFallback (requested : ℕ) (backend : ShmBackendKind) :
    (createOrFallback requested backend).capacity = elasticCapacity requested :=
  (elasticCapacity_eq requested).symm

namespace Shared

variable {k : ℕ} {ι : Type}

/-! ## The ring -/

/-- The ring holds the last `2 ^ k` messages, numbered from one. -/
structure RingInv (ring : ShmRing k) (published : List ShmMessageSlot) : Prop where
  head_eq : ring.headSequence.toNat = published.length
  numbered : ∀ i m, published[i]? = some m → m.sequence.toNat = i + 1
  window : Window k ring.slots ({} :: published) (max 1 (published.length + 1 - 2 ^ k))
    (published.length + 1)

lemma RingInv.new (k : ℕ) : RingInv (ShmRing.new k) [] where
  head_eq := rfl
  numbered := by simp
  window := by
    intro i h1 h2
    simp only [List.length_nil] at h1 h2
    omega

/-- A publish writes the slot of the oldest message, which leaves the window. -/
lemma RingInv.publish {ring : ShmRing k} {published : List ShmMessageSlot}
    (h : RingInv ring published) (hfits : published.length + 1 < 2 ^ 64)
    {slot : UInt64 → ShmMessageSlot} (hslot : ∀ n, (slot n).sequence = n) (nowNs : UInt64) :
    RingInv (ring.publish slot nowNs).2 (published ++ [slot (ring.publish slot nowNs).1]) := by
  have hnext : (ring.publish slot nowNs).1.toNat = published.length + 1 := by
    rw [← h.head_eq] at hfits ⊢
    exact toNat_succ hfits
  constructor
  · rw [List.length_append, List.length_singleton]
    exact hnext
  · intro i m hm
    rcases Nat.lt_or_ge i published.length with hlt | hge
    · rw [List.getElem?_append_left hlt] at hm
      exact h.numbered i m hm
    · have hi : i = published.length := by
        have hbound := (List.getElem?_eq_some_iff.mp hm).1
        rw [List.length_append, List.length_singleton] at hbound
        omega
      rw [hi, List.getElem?_append_right (le_refl _), Nat.sub_self] at hm
      cases hm
      rw [hslot, hi, hnext]
  · have hpow := Nat.two_pow_pos k
    -- the oldest message gives up its slot before it is overwritten
    have hmono : Window k ring.slots ({} :: published)
        (max 1 (published.length + 2 - 2 ^ k)) (published.length + 1) :=
      h.window.mono (by omega)
    have hwrite := hmono.write (x := published.length + 1) (le_refl _) (by omega)
      (slot (ring.publish slot nowNs).1)
    have hpub := hwrite.publish (by simp) (Function.update_self _ _ _)
    have hslots : (ring.publish slot nowNs).2.slots
        = Function.update ring.slots (slotOf k (published.length + 1))
          (slot (ring.publish slot nowNs).1) := by
      rw [← hnext]
      rfl
    rw [hslots, List.length_append, List.length_singleton]
    exact hpub

/-- The end of the lap that begins at the cursor of a reader behind the writer is a word. -/
lemma RingInv.lap_fits {ring : ShmRing k} {published : List ShmMessageSlot}
    (h : RingInv ring published) (hfits : published.length + 2 ^ k ≤ 2 ^ 64) {cursor : UInt64}
    (hlt : cursor < ring.headSequence) :
    (cursor + capacity64 k).toNat = cursor.toNat + 2 ^ k := by
  have hhead := h.head_eq
  rw [UInt64.lt_iff_toNat_lt] at hlt
  exact toNat_add_capacity64 (by omega)

/-- The three outcomes of a `try_read` by a reader that is not ahead of the writer. The
sequence check of a read in range always succeeds. -/
lemma RingInv.tryRead_cases {ring : ShmRing k} {published : List ShmMessageSlot}
    (h : RingInv ring published) (hfits : published.length + 2 ^ k ≤ 2 ^ 64) {cursor : UInt64}
    (hc : cursor ≤ ring.headSequence) (out : ShmMessageSlot) :
    (cursor = ring.headSequence ∧ ring.tryRead cursor out = (.empty, cursor, out)) ∨
    (cursor < ring.headSequence ∧ cursor.toNat + 2 ^ k < ring.headSequence.toNat ∧
      ring.tryRead cursor out
        = (.overrun (ring.headSequence - (cursor + capacity64 k)),
          ring.headSequence - capacity64 k, out)) ∨
    (cursor < ring.headSequence ∧ ring.headSequence.toNat ≤ cursor.toNat + 2 ^ k ∧
      (ring.slots (slotOf k (cursor + 1).toNat)).sequence = cursor + 1 ∧
      published[cursor.toNat]? = some (ring.slots (slotOf k (cursor + 1).toNat)) ∧
      ring.tryRead cursor out
        = (.ok, cursor + 1, ring.slots (slotOf k (cursor + 1).toNat))) := by
  have hhead := h.head_eq
  by_cases hlt : cursor < ring.headSequence
  · have hne : ¬ cursor ≥ ring.headSequence := UInt64.not_le.mpr hlt
    have hlap := h.lap_fits hfits hlt
    have hlt' := UInt64.lt_iff_toNat_lt.mp hlt
    have hnext : (cursor + 1).toNat = cursor.toNat + 1 := toNat_succ_of_lt hlt'
    by_cases hover : ring.headSequence > cursor + capacity64 k
    · refine .inr (.inl ⟨hlt, ?_, ?_⟩)
      · rw [← hlap]
        exact UInt64.lt_iff_toNat_lt.mp hover
      · simp only [ShmRing.tryRead, hne, if_false, hover, if_true]
    · have hin : ring.headSequence.toNat ≤ cursor.toNat + 2 ^ k := by
        rw [← hlap]
        exact UInt64.le_iff_toNat_le.mp (UInt64.not_lt.mp hover)
      have hpub : published[cursor.toNat]? = some (ring.slots (slotOf k (cursor + 1).toNat)) := by
        rw [hnext]
        exact h.window (cursor.toNat + 1) (by omega) (by omega)
      have hseq : (ring.slots (slotOf k (cursor + 1).toNat)).sequence = cursor + 1 := by
        rw [← UInt64.toNat_inj, h.numbered _ _ hpub, hnext]
      refine .inr (.inr ⟨hlt, hin, hseq, hpub, ?_⟩)
      simp only [ShmRing.tryRead, hne, if_false, hover, hseq, if_true]
  · have hge := UInt64.not_lt.mp hlt
    refine .inl ⟨UInt64.le_antisymm hc hge, ?_⟩
    simp only [ShmRing.tryRead, ge_iff_le, hge, if_true]

end Shared

/-! ## The readers -/

/-- The messages a status reports as missed. -/
def ShmReadStatus.missed : ShmReadStatus → ℕ
  | .overrun missedMessages => missedMessages.toNat
  | .ok | .empty => 0

/-- The reads that returned `Ok`. -/
def Reader.okRecords (rd : Reader) : List ReadRecord := rd.records.filter (·.status = .ok)

namespace Shared

variable {k : ℕ} {ι : Type}

/-- The books of one reader: what its calls so far returned, and what the next one will. -/
structure Accounted (s : Shared k ι) (rd : Reader) : Prop where
  ok_exact : ∀ e ∈ rd.okRecords,
    s.published[e.cursor.toNat]? = some e.out ∧ e.out.sequence.toNat = e.cursor.toNat + 1
  ok_increasing : (rd.okRecords.map (·.out.sequence)).Pairwise (· < ·)
  cursor_eq : rd.cursor.toNat
    = rd.initial.toNat + rd.okRecords.length + (rd.records.map (·.status.missed)).sum
  empty_iff : (s.ring.tryRead rd.cursor rd.out).1 = .empty ↔ rd.cursor = s.ring.headSequence
  ok_after_overrun : ∀ missed cursor out,
    s.ring.tryRead rd.cursor rd.out = (.overrun missed, cursor, out) →
      (s.ring.tryRead cursor out).1 = .ok
  no_mismatch : rd.cursor < s.ring.headSequence →
    s.ring.headSequence ≤ rd.cursor + capacity64 k →
      (s.ring.slots (slotOf k (rd.cursor + 1).toNat)).sequence = rd.cursor + 1

/-- What a reader keeps from call to call. -/
structure ReaderInv (published : List ShmMessageSlot) (rd : Reader) : Prop where
  cursor_le : rd.cursor.toNat ≤ published.length
  ok_exact : ∀ e ∈ rd.okRecords,
    published[e.cursor.toNat]? = some e.out ∧ e.out.sequence.toNat = e.cursor.toNat + 1
  ok_le : ∀ e ∈ rd.okRecords, e.out.sequence.toNat ≤ rd.cursor.toNat
  ok_increasing : (rd.okRecords.map (·.out.sequence)).Pairwise (· < ·)
  cursor_eq : rd.cursor.toNat
    = rd.initial.toNat + rd.okRecords.length + (rd.records.map (·.status.missed)).sum

/-- Messages already published stay. -/
lemma ReaderInv.append {published : List ShmMessageSlot} {rd : Reader}
    (h : ReaderInv published rd) (m : ShmMessageSlot) : ReaderInv (published ++ [m]) rd where
  cursor_le := by
    have := h.cursor_le
    rw [List.length_append, List.length_singleton]
    omega
  ok_exact := by
    intro e he
    obtain ⟨hpub, hseq⟩ := h.ok_exact e he
    have hlt := (List.getElem?_eq_some_iff.mp hpub).1
    rw [List.getElem?_append_left hlt]
    exact ⟨hpub, hseq⟩
  ok_le := h.ok_le
  ok_increasing := h.ok_increasing
  cursor_eq := h.cursor_eq

/-- A call that moves the cursor by what it missed and reads nothing. -/
lemma ReaderInv.skip {published : List ShmMessageSlot} {rd : Reader} (h : ReaderInv published rd)
    {status : ShmReadStatus} (hstatus : status ≠ .ok) (out : ShmMessageSlot) {cursor : UInt64}
    (hmove : cursor.toNat = rd.cursor.toNat + status.missed)
    (hle : cursor.toNat ≤ published.length) :
    ReaderInv published
      { rd with
        cursor := cursor
        out := out
        records := rd.records ++ [{ cursor := rd.cursor, status := status, out := out }] } := by
  -- the new record is none of the reads that succeeded
  have hok : ∀ e : ReadRecord, e.status = status →
      (rd.records ++ [e]).filter (·.status = .ok) = rd.okRecords := by
    intro e he
    rw [List.filter_append, List.filter_singleton]
    simp [he, hstatus, Reader.okRecords]
  refine ⟨hle, ?_, ?_, ?_, ?_⟩
  · intro e he
    rw [Reader.okRecords, hok _ rfl] at he
    exact h.ok_exact e he
  · intro e he
    rw [Reader.okRecords, hok _ rfl] at he
    have := h.ok_le e he
    dsimp only
    omega
  · rw [Reader.okRecords, hok _ rfl]
    exact h.ok_increasing
  · rw [Reader.okRecords, hok _ rfl]
    have := h.cursor_eq
    simp only [List.map_append, List.sum_append, List.map_cons, List.map_nil, List.sum_cons,
      List.sum_nil]
    omega

/-- A call that reads the next message. -/
lemma ReaderInv.ok {published : List ShmMessageSlot} {rd : Reader} (h : ReaderInv published rd)
    {m : ShmMessageSlot} (hpub : published[rd.cursor.toNat]? = some m)
    (hnext : (rd.cursor + 1).toNat = rd.cursor.toNat + 1) (hseq : m.sequence = rd.cursor + 1) :
    ReaderInv published
      { rd with
        cursor := rd.cursor + 1
        out := m
        records := rd.records ++ [{ cursor := rd.cursor, status := .ok, out := m }] } := by
  -- the new record is one of the reads that succeeded
  have hok : ∀ e : ReadRecord, e.status = .ok →
      (rd.records ++ [e]).filter (·.status = .ok) = rd.okRecords ++ [e] := by
    intro e he
    rw [List.filter_append, List.filter_singleton]
    simp [he, Reader.okRecords]
  have hbound := (List.getElem?_eq_some_iff.mp hpub).1
  refine ⟨hnext ▸ hbound, ?_, ?_, ?_, ?_⟩
  · intro e he
    rw [Reader.okRecords, hok _ rfl, List.mem_append, List.mem_singleton] at he
    rcases he with he | rfl
    · exact h.ok_exact e he
    · exact ⟨hpub, hseq ▸ hnext⟩
  · intro e he
    rw [Reader.okRecords, hok _ rfl, List.mem_append, List.mem_singleton] at he
    rcases he with he | rfl
    · have := h.ok_le e he
      dsimp only
      omega
    · exact le_of_eq (congrArg UInt64.toNat hseq)
  · rw [Reader.okRecords, hok _ rfl, List.map_append, List.pairwise_append]
    refine ⟨h.ok_increasing, List.pairwise_singleton _ _, ?_⟩
    intro a ha b hb
    obtain ⟨e, he, rfl⟩ := List.mem_map.mp ha
    simp only [List.map_cons, List.map_nil, List.mem_singleton] at hb
    have := h.ok_le e he
    rw [hb, hseq, UInt64.lt_iff_toNat_lt, hnext]
    omega
  · rw [Reader.okRecords, hok _ rfl]
    have hcursor := h.cursor_eq
    have hmissed : ShmReadStatus.ok.missed = 0 := rfl
    simp only [List.map_append, List.sum_append, List.map_cons, List.map_nil, List.sum_cons,
      List.sum_nil, List.length_append, List.length_singleton, hmissed]
    omega

/-! ## Runs -/

/-- No end of a lap is beyond the last word. -/
def Fits (s : Shared k ι) : Prop := s.published.length + 2 ^ k ≤ 2 ^ 64

/-- The invariant of a run. -/
structure Inv (s : Shared k ι) : Prop where
  ring : RingInv s.ring s.published
  readers : ∀ i rd, s.readers i = some rd → ReaderInv s.published rd

lemma Inv.publish {s : Shared k ι} (h : Inv s) (hfits : s.published.length + 1 < 2 ^ 64)
    {slot : UInt64 → ShmMessageSlot} (hslot : ∀ n, (slot n).sequence = n) (nowNs : UInt64) :
    Inv { s with
      ring := (s.ring.publish slot nowNs).2
      published := s.published ++ [slot (s.ring.publish slot nowNs).1] } where
  ring := h.ring.publish hfits hslot nowNs
  readers := fun i rd hrd => (h.readers i rd hrd).append _

lemma Inv.cursor_le {s : Shared k ι} (h : Inv s) {rd : Reader}
    (hrd : ReaderInv s.published rd) : rd.cursor ≤ s.ring.headSequence := by
  rw [UInt64.le_iff_toNat_le, h.ring.head_eq]
  exact hrd.cursor_le

/-- An overrun moves the cursor to one lap behind the head, by what it reports. -/
lemma RingInv.toNat_overrun {ring : ShmRing k} {published : List ShmMessageSlot}
    (h : RingInv ring published) (hfits : published.length + 2 ^ k ≤ 2 ^ 64) {cursor : UInt64}
    (hlt : cursor < ring.headSequence) (hover : cursor.toNat + 2 ^ k < ring.headSequence.toNat) :
    (ring.headSequence - capacity64 k).toNat = ring.headSequence.toNat - 2 ^ k ∧
      (ring.headSequence - (cursor + capacity64 k)).toNat
        = ring.headSequence.toNat - (cursor.toNat + 2 ^ k) := by
  have hlap := h.lap_fits hfits hlt
  have hcapacity : (capacity64 k).toNat = 2 ^ k := by
    have hword := ring.headSequence.toNat_lt
    exact toNat_capacity64 (by omega)
  constructor
  · rw [UInt64.toNat_sub_of_le _ _ (UInt64.le_iff_toNat_le.mpr (by omega)), hcapacity]
  · rw [UInt64.toNat_sub_of_le _ _ (UInt64.le_iff_toNat_le.mpr (by omega)), hlap]

lemma Inv.read {s : Shared k ι} (h : Inv s) (hfits : s.Fits) {rd : Reader}
    (hrd : ReaderInv s.published rd) : ReaderInv s.published (s.read rd) := by
  have hhead := h.ring.head_eq
  have hcursor := hrd.cursor_le
  have hpow := Nat.two_pow_pos k
  rw [Shared.read]
  rcases h.ring.tryRead_cases hfits (h.cursor_le hrd) rd.out with
    ⟨-, hread⟩ | ⟨hlt, hover, hread⟩ | ⟨hlt, -, hseq, hpub, hread⟩
  · rw [hread]
    exact hrd.skip (by simp : ShmReadStatus.empty ≠ .ok) rd.out rfl hcursor
  · rw [hread]
    obtain ⟨hresume, hmissed⟩ := h.ring.toNat_overrun hfits hlt hover
    refine hrd.skip (by simp) rd.out ?_ ?_
    · rw [ShmReadStatus.missed, hresume, hmissed]
      omega
    · omega
  · rw [hread]
    exact hrd.ok hpub (toNat_succ_of_lt (UInt64.lt_iff_toNat_lt.mp hlt)) hseq

/-- The books of every reader balance in every state the invariant allows. -/
lemma Inv.accounted {s : Shared k ι} (h : Inv s) (hfits : s.Fits) {rd : Reader}
    (hrd : ReaderInv s.published rd) : Accounted s rd := by
  have hpow := Nat.two_pow_pos k
  have hcases := h.ring.tryRead_cases hfits (h.cursor_le hrd) rd.out
  refine ⟨hrd.ok_exact, hrd.ok_increasing, hrd.cursor_eq, ?_, ?_, ?_⟩
  · rcases hcases with ⟨heq, hread⟩ | ⟨hlt, -, hread⟩ | ⟨hlt, -, -, -, hread⟩
    · exact iff_of_true (by rw [hread]) heq
    · simp only [hread, reduceCtorEq, false_iff]
      exact UInt64.ne_of_lt hlt
    · simp only [hread, reduceCtorEq, false_iff]
      exact UInt64.ne_of_lt hlt
  · intro missed cursor out hread
    rcases hcases with ⟨-, hread'⟩ | ⟨hlt, hover, hread'⟩ | ⟨-, -, -, -, hread'⟩
    · rw [hread'] at hread
      cases hread
    · rw [hread'] at hread
      cases hread
      -- the resumed cursor is exactly one lap behind the head
      obtain ⟨hresume, -⟩ := h.ring.toNat_overrun hfits hlt hover
      have hbehind : s.ring.headSequence - capacity64 k ≤ s.ring.headSequence := by
        rw [UInt64.le_iff_toNat_le]
        omega
      rcases h.ring.tryRead_cases hfits hbehind rd.out with
        ⟨heq, -⟩ | ⟨-, hover', -⟩ | ⟨-, -, -, -, hread''⟩
      · have := congrArg UInt64.toNat heq
        omega
      · omega
      · rw [hread'']
    · rw [hread'] at hread
      cases hread
  · intro hlt hle
    have hlap := h.ring.lap_fits hfits hlt
    rw [UInt64.le_iff_toNat_le, hlap] at hle
    rcases hcases with ⟨heq, -⟩ | ⟨-, hover, -⟩ | ⟨-, -, hseq, -, -⟩
    · exact absurd heq (UInt64.ne_of_lt hlt)
    · omega
    · exact hseq

section

variable [DecidableEq ι]

lemma Inv.update {s : Shared k ι} (h : Inv s) (i : ι) {rd : Reader}
    (hrd : ReaderInv s.published rd) :
    Inv { s with readers := Function.update s.readers i (some rd) } where
  ring := h.ring
  readers := by
    intro j rd' hj
    dsimp only at hj
    by_cases hij : j = i
    · subst hij
      rw [Function.update_self] at hj
      cases hj
      exact hrd
    · rw [Function.update_of_ne hij] at hj
      exact h.readers j rd' hj

/-- The invariant holds of all states without a wrap: a call that publishes keeps it. -/
lemma step_inv {s s' : Shared k ι} {c : Call ι} (h : s.Fits → Inv s) (hs : step s c = some s')
    (hfits : s'.Fits) : Inv s' := by
  have hpow := Nat.two_pow_pos k
  have hpublished : ∀ m : ShmMessageSlot, (s.published ++ [m]).length + 2 ^ k ≤ 2 ^ 64 →
      s.Fits ∧ s.published.length + 1 < 2 ^ 64 := by
    intro m hm
    rw [List.length_append, List.length_singleton] at hm
    unfold Fits
    omega
  rcases c with ⟨bbo, nowNs⟩ | ⟨trade, nowNs⟩ | ⟨i, cursor, out⟩ | ⟨i⟩
  · simp only [step, Option.some.injEq] at hs
    subst hs
    obtain ⟨hbefore, hnext⟩ := hpublished _ hfits
    exact (h hbefore).publish hnext (fun _ => rfl : ∀ n, (bboSlot bbo n).sequence = n) nowNs
  · simp only [step, Option.some.injEq] at hs
    subst hs
    obtain ⟨hbefore, hnext⟩ := hpublished _ hfits
    exact (h hbefore).publish hnext (fun _ => rfl : ∀ n, (tradeSlot trade n).sequence = n) nowNs
  · rw [step] at hs
    split at hs
    · rename_i hg
      cases hs
      have hinv := h hfits
      refine hinv.update i ⟨?_, ?_, ?_, ?_, ?_⟩
      · rw [← hinv.ring.head_eq]
        exact UInt64.le_iff_toNat_le.mp hg.2
      all_goals simp [Reader.okRecords]
    · cases hs
  · rw [step, Option.map_eq_some_iff] at hs
    obtain ⟨rd, hrd, rfl⟩ := hs
    have hinv := h hfits
    exact hinv.update i (hinv.read hfits (hinv.readers i rd hrd))

lemma inv_init (k : ℕ) : Inv (machine ι (ShmRing.new k)).init where
  ring := RingInv.new k
  readers := by
    intro i rd hrd
    cases hrd

/-- The books of every reader balance in every state reached on a fresh ring. -/
lemma accounted_of_reachable {s : Shared k ι} (h : (machine ι (ShmRing.new k)).Reachable s)
    (hfits : s.Fits) {i : ι} {rd : Reader} (hi : s.readers i = some rd) : Accounted s rd := by
  have hinv : s.Fits → Inv s := h.invariant (fun _ => inv_init k)
    fun _ _ _ hinv _ hs hfits' => step_inv hinv hs hfits'
  exact (hinv hfits).accounted hfits ((hinv hfits).readers i rd hi)

end

/-- The books of every reader of either ring balance in every run of whole calls that publishes
at most `2 ^ 64 - 2 ^ k` messages. -/
theorem shm_accounting (ι : Type) [DecidableEq ι] :
    (∀ (k : ℕ) (s : Shared k ι), (machine ι (ShmRing.new k : ShmRingBuffer k)).Reachable s →
      s.Fits → ∀ i rd, s.readers i = some rd → Accounted s rd) ∧
    (∀ (requested : ℕ) (backend : ShmBackendKind) (s : Shared _ ι),
      (machine ι (ElasticShmRing.createOrFallback requested backend).ring).Reachable s →
      s.Fits → ∀ i rd, s.readers i = some rd → Accounted s rd) :=
  ⟨fun _ _ h hfits _ _ hi => accounted_of_reachable h hfits hi,
    fun _ _ _ h hfits _ _ hi => accounted_of_reachable h hfits hi⟩

/-- Capacity 2: a reader at cursor 0 is overrun by the third publish, then reads on. -/
def overrunOnce : List (Call Unit) :=
  [.attach () 0 {}, .publishBbo { bidPrice := 1 } 0, .publishTrade { price := 2 } 0,
    .publishBbo { bidPrice := 3 } 0, .tryRead (), .tryRead ()]

lemma overrunOnce_allowed :
    (machine Unit (ShmRing.new 1)).Allowed (fun _ _ => True) (machine Unit (ShmRing.new 1)).init
      overrunOnce := by
  decide

theorem shm_accounting_overrunOnce :
    let s := ((machine Unit (ShmRing.new 1)).exec (machine Unit (ShmRing.new 1)).init
      overrunOnce).get overrunOnce_allowed.isSome
    ∃ rd, s.readers () = some rd ∧ rd.records.map (·.status) = [.overrun 1, .ok] ∧
      rd.out.price = 2 ∧ Accounted s rd := by
  intro s
  refine ⟨(s.readers ()).get (by decide), by simp, by decide, by decide, ?_⟩
  exact (shm_accounting Unit).1 1 s overrunOnce_allowed.reachable
    (show s.published.length + 2 ^ 1 ≤ 2 ^ 64 by decide) () _ (by simp)

/-! ## The last lap -/

lemma reachable_step {s s' : Shared 1 Unit} (h : (machine Unit (ShmRing.new 1)).Reachable s)
    {c : Call Unit} (hs : s.step c = some s') : (machine Unit (ShmRing.new 1)).Reachable s' :=
  h.tail ⟨c, trivial, hs⟩

/-- The head counts the publishes of a run, until it wraps. -/
lemma exists_publishes (n : ℕ) : ∃ s : Shared 1 Unit, (machine Unit (ShmRing.new 1)).Reachable s ∧
    s.ring.headSequence = UInt64.ofNat n ∧ s.readers () = none := by
  induction n with
  | zero => exact ⟨_, .refl, rfl, rfl⟩
  | succ n ih =>
    obtain ⟨s, hreach, hhead, hnone⟩ := ih
    refine ⟨_, reachable_step hreach (c := .publishBbo {} 0) rfl, ?_, hnone⟩
    show s.ring.headSequence + 1 = _
    rw [hhead, UInt64.ofNat_add]
    rfl

/-- The end of the lap of the last but one word wraps to zero. -/
lemma tryRead_last {ring : ShmRing 1} (h : ring.headSequence = 0xFFFFFFFFFFFFFFFF)
    (out : ShmMessageSlot) :
    ring.tryRead 0xFFFFFFFFFFFFFFFE out
      = (.overrun 0xFFFFFFFFFFFFFFFF, 0xFFFFFFFFFFFFFFFD, out) := by
  have hbehind : ¬ (0xFFFFFFFFFFFFFFFE : UInt64) ≥ 0xFFFFFFFFFFFFFFFF := by decide
  have hover : (0xFFFFFFFFFFFFFFFF : UInt64) > 0xFFFFFFFFFFFFFFFE + capacity64 1 := by decide
  unfold ShmRing.tryRead
  dsimp only
  rw [h, if_neg hbehind, if_pos hover]
  rfl

/-- Capacity 2: a reader joins after `2 ^ 64 - 2` publishes. One publish later it is told that it
missed `2 ^ 64 - 1` messages, and its cursor moves back. -/
theorem not_accounted_lastLap :
    ¬ ∀ (ι : Type) (_ : DecidableEq ι) (k : ℕ), k < 64 → ∀ s : Shared k ι,
      (machine ι (ShmRing.new k : ShmRingBuffer k)).Reachable s →
      ∀ i rd, s.readers i = some rd → Accounted s rd := by
  intro h
  obtain ⟨s, hreach, hhead, hnone⟩ := exists_publishes 0xFFFFFFFFFFFFFFFE
  let rd : Reader :=
    { initial := 0xFFFFFFFFFFFFFFFE, cursor := 0xFFFFFFFFFFFFFFFE, out := {}, records := [] }
  let joined : Shared 1 Unit :=
    { s with readers := Function.update s.readers () (some rd) }
  have hjoin : s.step (.attach () 0xFFFFFFFFFFFFFFFE {}) = some joined :=
    if_pos ⟨by rw [hnone]; rfl, by rw [hhead]; decide⟩
  let late : Shared 1 Unit :=
    { joined with
      ring := (s.ring.publishBbo {} 0).2
      published := s.published ++ [bboSlot {} (s.ring.publishBbo {} 0).1] }
  have hpublish : joined.step (.publishBbo {} 0) = some late := rfl
  have hlast : late.ring.headSequence = 0xFFFFFFFFFFFFFFFF := by
    show s.ring.headSequence + 1 = _
    rw [hhead]
    rfl
  have hreader : late.readers () = some rd := Function.update_self () (some rd) s.readers
  have hread : late.step (.tryRead ()) = some
      { late with readers := Function.update late.readers () (some (late.read rd)) } := by
    rw [step, hreader]
    rfl
  have hrun := h Unit inferInstance 1 (by decide) _
    (reachable_step (reachable_step (reachable_step hreach hjoin) hpublish) hread)
    () (late.read rd) (Function.update_self () (some (late.read rd)) late.readers)
  have hback : late.read rd =
      { initial := 0xFFFFFFFFFFFFFFFE
        cursor := 0xFFFFFFFFFFFFFFFD
        out := {}
        records := [⟨0xFFFFFFFFFFFFFFFE, .overrun 0xFFFFFFFFFFFFFFFF, {}⟩] } := by
    rw [Shared.read, tryRead_last hlast]
    rfl
  have hcursor := hrun.cursor_eq
  rw [hback] at hcursor
  revert hcursor
  decide

end Shared
end ChainMarketPrice.Distribution
