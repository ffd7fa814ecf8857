import ChainMarketPrice.CoreEngine.SpscRingBuffer

/-!
# `SpscRingBuffer` is a lossless FIFO

The invariant relates the four cursors and the slots at every access of both sides. Each
side owns one cursor and only reads the other, so an access of one side leaves the other
side's part alone as long as the cursor it reads only grows (`PushOk.mono`, `PopOk.mono`).
-/

namespace ChainMarketPrice.CoreEngine
namespace SpscRingBuffer

open RingWindow

variable {T : Type} {k : ℕ}

/-- The cursors are far enough from `2 ^ 64` that no addition wraps. -/
def CursorsBelow (s : State T k) : Prop :=
  s.ring.producerCursor < 2 ^ 64 - 2 ^ k ∧ s.ring.consumerCursor < 2 ^ 64 - 2 ^ k

instance (s : State T k) : Decidable (CursorsBelow s) :=
  inferInstanceAs (Decidable (_ ∧ _))

lemma add64_eq {a b : ℕ} (h : a + b < 2 ^ 64) : add64 a b = a + b := Nat.mod_eq_of_lt h

/-! ## The invariant -/

/-- What the locals of `try_push` mean while the call is in progress. -/
def PushOk (r : Ring T k) : PushPc T → Prop
  | .idle => True
  | .loadCachedTail _ head => head = r.producerCursor
  | .loadTail _ head => head = r.producerCursor
  | .storeCachedTail _ head tail unpopped =>
    head = r.producerCursor ∧ tail ≤ r.consumerCursor ∧ head ≤ tail + 2 ^ k ∧
      unpopped = head - tail
  | .writeSlot _ head => head = r.producerCursor ∧ head < r.consumerCursor + 2 ^ k
  | .storeHead item head =>
    head = r.producerCursor ∧ head < r.consumerCursor + 2 ^ k ∧ r.buffer (slotOf k head) = item

/-- What the locals of `try_pop` mean while the call is in progress. -/
def PopOk (r : Ring T k) (pushed : List T) : PopPc T → Prop
  | .idle => True
  | .loadCachedHead tail => tail = r.consumerCursor
  | .loadHead tail => tail = r.consumerCursor
  | .storeCachedHead tail head unpopped =>
    tail = r.consumerCursor ∧ head ≤ r.producerCursor ∧ unpopped = head - tail
  | .readSlot tail => tail = r.consumerCursor ∧ tail < r.producerCursor
  | .storeTail item tail =>
    tail = r.consumerCursor ∧ tail < r.producerCursor ∧ pushed[tail]? = some item

/-- The invariant of every interleaving. -/
structure Inv (s : State T k) : Prop where
  length_pushed : s.pushed.length = s.ring.producerCursor
  popped_eq : s.popped = s.pushed.take s.ring.consumerCursor
  tail_le : s.ring.consumerCursor ≤ s.ring.producerCursor
  head_le : s.ring.producerCursor ≤ s.ring.consumerCursor + 2 ^ k
  cachedTail_le : s.ring.cachedConsumerCursor ≤ s.ring.consumerCursor
  cachedHead_le : s.ring.cachedProducerCursor ≤ s.ring.producerCursor
  window : Window k s.ring.buffer s.pushed s.ring.consumerCursor s.ring.producerCursor
  push : PushOk s.ring s.push
  pop : PopOk s.ring s.pushed s.pop
  rejected : ∀ n ∈ s.rejected, n = 2 ^ k
  empties : ∀ n ∈ s.empties, n = 0

lemma Inv.new [Inhabited T] : Inv (State.new : State T k) where
  length_pushed := rfl
  popped_eq := rfl
  tail_le := Nat.le_refl 0
  head_le := Nat.zero_le _
  cachedTail_le := Nat.le_refl 0
  cachedHead_le := Nat.le_refl 0
  window := Window.empty _ _ _
  push := trivial
  pop := trivial
  rejected := by simp [State.new]
  empties := by simp [State.new]

/-- The unpopped items are those between the two cursors. -/
lemma Inv.unpopped_eq {s : State T k} (h : Inv s) :
    s.unpopped = s.ring.producerCursor - s.ring.consumerCursor := by
  have h1 := h.length_pushed
  have h2 := h.tail_le
  rw [State.unpopped, h.popped_eq, List.length_take, h1, Nat.min_eq_left h2]

/-- The producer's part survives a consumer access. -/
lemma PushOk.mono {r r' : Ring T k} {pc : PushPc T} (h : PushOk r pc)
    (hhead : r'.producerCursor = r.producerCursor) (hbuf : r'.buffer = r.buffer)
    (htail : r.consumerCursor ≤ r'.consumerCursor) : PushOk r' pc := by
  cases pc with
  | idle => trivial
  | loadCachedTail item head => exact h.trans hhead.symm
  | loadTail item head => exact h.trans hhead.symm
  | storeCachedTail item head tail unpopped =>
    exact ⟨h.1.trans hhead.symm, Nat.le_trans h.2.1 htail, h.2.2⟩
  | writeSlot item head => exact ⟨h.1.trans hhead.symm, by have := h.2; omega⟩
  | storeHead item head =>
    exact ⟨h.1.trans hhead.symm, by have := h.2.1; omega, by rw [hbuf]; exact h.2.2⟩

/-- The consumer's part survives a producer access. -/
lemma PopOk.mono {r r' : Ring T k} {pushed pushed' : List T} {pc : PopPc T}
    (h : PopOk r pushed pc) (htail : r'.consumerCursor = r.consumerCursor)
    (hhead : r.producerCursor ≤ r'.producerCursor) (hpre : pushed <+: pushed') :
    PopOk r' pushed' pc := by
  cases pc with
  | idle => trivial
  | loadCachedHead tail => exact h.trans htail.symm
  | loadHead tail => exact h.trans htail.symm
  | storeCachedHead tail head unpopped =>
    exact ⟨h.1.trans htail.symm, Nat.le_trans h.2.1 hhead, h.2.2⟩
  | readSlot tail => exact ⟨h.1.trans htail.symm, Nat.lt_of_lt_of_le h.2 hhead⟩
  | storeTail item tail =>
    exact ⟨h.1.trans htail.symm, Nat.lt_of_lt_of_le h.2.1 hhead, getElem?_of_prefix h.2.2 hpre⟩

/-! ## One access -/

/-- An access of the producer keeps the invariant. -/
theorem tryPushStep_inv {s s' : State T k} (h : Inv s) (hb : CursorsBelow s)
    (hs : tryPushStep s = some s') : Inv s' := by
  have hhead := hb.1
  have htail := h.tail_le
  have hpush := h.push
  unfold tryPushStep at hs
  cases hpc : s.push with
  | idle => simp [hpc] at hs
  | loadCachedTail item head =>
    rw [hpc] at hpush hs
    have hcached := h.cachedTail_le
    have hadd : add64 s.ring.cachedConsumerCursor (2 ^ k) = s.ring.cachedConsumerCursor + 2 ^ k :=
      add64_eq (by omega)
    simp only [hadd] at hs
    split at hs
    · cases hs
      exact { h with push := hpush }
    · next hfree =>
      cases hs
      have hroom : head < s.ring.consumerCursor + 2 ^ k := by omega
      exact { h with push := ⟨hpush, hroom⟩ }
  | loadTail item head =>
    rw [hpc] at hpush hs
    cases hs
    have hun := h.unpopped_eq
    have hhead' : head = s.ring.producerCursor := hpush
    exact { h with push := ⟨hpush, Nat.le_refl _, hhead' ▸ h.head_le, by rw [hun, hhead']⟩ }
  | storeCachedTail item head tail unpopped =>
    rw [hpc] at hpush hs
    obtain ⟨hhead', htail', hlap, hun⟩ := hpush
    have hadd : add64 tail (2 ^ k) = tail + 2 ^ k := add64_eq (by omega)
    simp only [hadd] at hs
    split at hs
    · next hfull =>
      cases hs
      have hrej : ∀ n ∈ s.rejected ++ [unpopped], n = 2 ^ k := by
        have hnow : unpopped = 2 ^ k := by omega
        exact List.forall_mem_append.mpr ⟨h.rejected, List.forall_mem_singleton.mpr hnow⟩
      exact { h with
        push := trivial
        cachedTail_le := htail'
        rejected := hrej
        pop := h.pop.mono rfl (Nat.le_refl _) (List.prefix_refl _) }
    · next hfree =>
      cases hs
      have hroom : head < s.ring.consumerCursor + 2 ^ k := by omega
      exact { h with
        push := ⟨hhead', hroom⟩
        cachedTail_le := htail'
        pop := h.pop.mono rfl (Nat.le_refl _) (List.prefix_refl _) }
  | writeSlot item head =>
    rw [hpc] at hpush hs
    obtain ⟨hhead', hroom⟩ := hpush
    cases hs
    -- the slot written is past the window, and less than one lap ahead of its start
    exact { h with
      window := h.window.write (by omega) hroom item
      push := ⟨hhead', hroom, Function.update_self _ _ _⟩
      pop := h.pop.mono rfl (Nat.le_refl _) (List.prefix_refl _) }
  | storeHead item head =>
    rw [hpc] at hpush hs
    obtain ⟨hhead', hroom, hslot⟩ := hpush
    cases hs
    subst hhead'
    have hadd : add64 s.ring.producerCursor 1 = s.ring.producerCursor + 1 := add64_eq (by omega)
    have hlen := h.length_pushed
    have hpopped : s.popped = (s.pushed ++ [item]).take s.ring.consumerCursor := by
      rw [List.take_append_of_le_length (by omega)]
      exact h.popped_eq
    exact { h with
      length_pushed := by simp only [hadd, List.length_append, hlen]; rfl
      popped_eq := hpopped
      tail_le := by simp only [hadd]; omega
      head_le := by simp only [hadd]; omega
      cachedHead_le := by have := h.cachedHead_le; simp only [hadd]; omega
      window := by simp only [hadd]; exact h.window.publish hlen hslot
      push := trivial
      pop := h.pop.mono rfl (by simp only [hadd]; omega) (List.prefix_append _ _) }

/-- An access of the consumer keeps the invariant. -/
theorem tryPopStep_inv {s s' : State T k} (h : Inv s) (hb : CursorsBelow s)
    (hs : tryPopStep s = some s') : Inv s' := by
  have htail := hb.2
  have hpop := h.pop
  unfold tryPopStep at hs
  cases hpc : s.pop with
  | idle => simp [hpc] at hs
  | loadCachedHead tail =>
    rw [hpc] at hpop hs
    have hcached := h.cachedHead_le
    dsimp only at hs
    split at hs
    · cases hs
      exact { h with pop := hpop }
    · next hsome =>
      cases hs
      have hlt : tail < s.ring.producerCursor := by omega
      exact { h with pop := ⟨hpop, hlt⟩ }
  | loadHead tail =>
    rw [hpc] at hpop hs
    cases hs
    have hun := h.unpopped_eq
    have htail' : tail = s.ring.consumerCursor := hpop
    exact { h with pop := ⟨hpop, Nat.le_refl _, by rw [hun, htail']⟩ }
  | storeCachedHead tail head unpopped =>
    rw [hpc] at hpop hs
    obtain ⟨htail', hhead', hun⟩ := hpop
    dsimp only at hs
    split at hs
    · next hempty =>
      cases hs
      have hemp : ∀ n ∈ s.empties ++ [unpopped], n = 0 := by
        have hnow : unpopped = 0 := by omega
        exact List.forall_mem_append.mpr ⟨h.empties, List.forall_mem_singleton.mpr hnow⟩
      exact { h with
        pop := trivial
        cachedHead_le := hhead'
        empties := hemp
        push := h.push.mono rfl rfl (Nat.le_refl _) }
    · next hsome =>
      cases hs
      have hlt : tail < s.ring.producerCursor := by omega
      exact { h with
        pop := ⟨htail', hlt⟩
        cachedHead_le := hhead'
        push := h.push.mono rfl rfl (Nat.le_refl _) }
  | readSlot tail =>
    rw [hpc] at hpop hs
    obtain ⟨htail', hlt⟩ := hpop
    cases hs
    -- the slot read is inside the window, so it still holds the item accepted there
    exact { h with pop := ⟨htail', hlt, h.window tail (by omega) hlt⟩ }
  | storeTail item tail =>
    rw [hpc] at hpop hs
    obtain ⟨htail', hlt, hitem⟩ := hpop
    cases hs
    subst htail'
    have hadd : add64 s.ring.consumerCursor 1 = s.ring.consumerCursor + 1 :=
      add64_eq (by have := Nat.two_pow_pos k; omega)
    have hlap := h.head_le
    exact { h with
      popped_eq := by simp only [hadd, List.take_add_one, hitem, h.popped_eq]; rfl
      tail_le := by simp only [hadd]; omega
      head_le := by simp only [hadd]; omega
      cachedTail_le := by have := h.cachedTail_le; simp only [hadd]; omega
      window := h.window.mono (by simp only [hadd]; omega)
      push := h.push.mono rfl rfl (by simp only [hadd]; omega)
      pop := trivial }

theorem step_inv {s s' : State T k} {a : Action T} (h : Inv s) (hb : CursorsBelow s)
    (hs : step s a = some s') : Inv s' := by
  cases a with
  | callPush item =>
    simp only [step] at hs
    split at hs
    · cases hs
      exact { h with push := rfl }
    · cases hs
  | push => exact tryPushStep_inv h hb hs
  | callPop =>
    simp only [step] at hs
    split at hs
    · cases hs
      exact { h with pop := rfl }
    · cases hs
  | pop => exact tryPopStep_inv h hb hs

/-! ## Every interleaving -/

variable [Inhabited T]

theorem reachable_inv {s : State T k}
    (h : (machine T k).ReachableWhen (fun s _ => CursorsBelow s) s) : Inv s :=
  h.invariant Inv.new fun _ _ _ hinv hb hs => step_inv hinv hb hs

/-- In every interleaving the popped values are a prefix of the accepted ones, the accepted
items not yet popped still stand in their slots, `try_push` fails only when the ring was
full and `try_pop` only when it was empty, each judged at the load of the other side's
cursor. -/
theorem spsc_lossless_fifo (s : State T k)
    (h : (machine T k).ReachableWhen (fun s _ => CursorsBelow s) s) :
    s.popped <+: s.pushed ∧
      (∀ i, s.popped.length ≤ i → i < s.pushed.length →
        s.pushed[i]? = some (s.ring.buffer (slotOf k i))) ∧
      (∀ n ∈ s.rejected, n = 2 ^ k) ∧ (∀ n ∈ s.empties, n = 0) := by
  have hinv := reachable_inv h
  refine ⟨?_, ?_, hinv.rejected, hinv.empties⟩
  · rw [hinv.popped_eq]
    exact List.take_prefix _ _
  · have hlen : s.popped.length = s.ring.consumerCursor := by
      rw [hinv.popped_eq, List.length_take, hinv.length_pushed, Nat.min_eq_left hinv.tail_le]
    rw [hlen, hinv.length_pushed]
    exact hinv.window

/-- `n` accesses of a call to `try_push`, and of a call to `try_pop`. -/
def pushCall (item : ℕ) (n : ℕ) : List (Action ℕ) := .callPush item :: List.replicate n .push

def popCall (n : ℕ) : List (Action ℕ) := .callPop :: List.replicate n .pop

/-- Capacity 2: two pushes are accepted and a third is refused; two pops return the values
in order and a third finds the ring empty. -/
def fillAndDrain : List (Action ℕ) :=
  pushCall 7 3 ++ pushCall 8 3 ++ pushCall 9 3 ++ popCall 5 ++ popCall 3 ++ popCall 3

lemma fillAndDrain_allowed :
    (machine ℕ 1).Allowed (fun s _ => CursorsBelow s) (machine ℕ 1).init fillAndDrain := by
  decide

theorem spsc_lossless_fifo_run :
    let s := ((machine ℕ 1).exec (machine ℕ 1).init fillAndDrain).get fillAndDrain_allowed.isSome
    (s.pushed, s.popped, s.rejected, s.empties) = ([7, 8], [7, 8], [2], [0]) ∧
      s.popped <+: s.pushed :=
  ⟨by decide, (spsc_lossless_fifo _ fillAndDrain_allowed.reachable).1⟩

end SpscRingBuffer
end ChainMarketPrice.CoreEngine
