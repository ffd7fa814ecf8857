import ChainMarketPrice.CoreEngine.IsolatedConsumerQueue

/-!
# Delivery order of `IsolatedConsumerQueue`

An eviction stores the consumer's cursor from the producer's side, so it races with a
`try_pop` in progress. `Safe` is what the two racing accesses of an eviction need:
when it stores the cursor, the consumer has not moved past the evicted item and no pop in
progress is older than it; when it overwrites the evicted slot, no pop still has to read
that slot. Besides, a push begins only where no sum of cursors wraps. Runs that keep it deliver
in order (`delivers_in_order`); without it an item comes out twice (`delivers_twice`).
-/

namespace ChainMarketPrice.CoreEngine
namespace IsolatedConsumerQueue

open RingWindow

variable {T : Type} {k : ℕ}

/-- The cursor a `try_pop` in progress has loaded. -/
def PopPc.loaded : PopPc T → Option UInt64
  | .idle => none
  | .loadCachedHead tail | .loadHead tail | .storeCachedHead tail _ | .readSlot tail
  | .storeTail _ tail => some tail

/-- The position a `try_pop` in progress has still to read, if it does not find the queue
empty. -/
def PopPc.unread : PopPc T → Option UInt64
  | .idle | .storeTail _ _ => none
  | .loadCachedHead tail | .loadHead tail | .storeCachedHead tail _ | .readSlot tail => some tail

/-- The condition on a push that begins and on the accesses of an eviction; every other access
is unrestricted. -/
def Safe (s : State T k) : Action T → Prop
  | .callPush _ _ => s.queue.producerCursor.toNat + 2 ^ k < 2 ^ 64
  | .push =>
    match s.push with
    | .evictTail _ _ actualTail =>
      s.queue.consumerCursor ≤ actualTail + 1 ∧ ∀ tail ∈ s.pop.loaded, actualTail ≤ tail
    | .writeSlot _ head .evictedOldest => ∀ tail ∈ s.pop.unread, head.toNat < tail.toNat + 2 ^ k
    | _ => True
  | _ => True

instance decidableSafe (s : State T k) : ∀ a, Decidable (Safe s a)
  | .callPush _ _ => inferInstanceAs (Decidable (s.queue.producerCursor.toNat + 2 ^ k < 2 ^ 64))
  | .callPop | .pop => .isTrue trivial
  | .push =>
    match h : s.push with
    | .evictTail _ _ actualTail =>
      -- `Option.all`, not a bounded `∀`: the instance found for that one tries every word
      decidable_of_iff
        (s.queue.consumerCursor ≤ actualTail + 1 ∧ s.pop.loaded.all (actualTail ≤ ·))
        (by simp [Safe, h, Option.all_eq_true])
    | .writeSlot _ head .evictedOldest =>
      decidable_of_iff (s.pop.unread.all (head.toNat < ·.toNat + 2 ^ k))
        (by simp [Safe, h, Option.all_eq_true])
    | .writeSlot _ _ .enqueued | .writeSlot _ _ .droppedNewest | .idle | .loadCachedTail _ _ _
    | .loadTail _ _ _ | .storeCachedTail _ _ _ _ | .storeEvictedTail _ _ _ | .storeHead _ _ _ =>
      .isTrue (by simp [Safe, h])

/-! ## The invariant -/

/-- What the locals of `push_with_policy` mean while the call is in progress. -/
def PushOk (q : Queue T k) : PushPc T → Prop
  | .idle => True
  | .loadCachedTail _ _ head | .loadTail _ _ head => head = q.producerCursor
  | .storeCachedTail _ _ head tail =>
    head = q.producerCursor ∧ tail.toNat ≤ q.consumerCursor.toNat ∧
      head.toNat ≤ tail.toNat + 2 ^ k
  | .evictTail _ head tail =>
    head = q.producerCursor ∧ tail.toNat ≤ q.consumerCursor.toNat ∧
      head.toNat = tail.toNat + 2 ^ k
  | .storeEvictedTail _ head tail =>
    head = q.producerCursor ∧ tail.toNat ≤ q.consumerCursor.toNat ∧
      head.toNat < tail.toNat + 2 ^ k
  | .writeSlot _ head _ =>
    head = q.producerCursor ∧ head.toNat < q.consumerCursor.toNat + 2 ^ k
  | .storeHead item head _ =>
    head = q.producerCursor ∧ head.toNat < q.consumerCursor.toNat + 2 ^ k ∧
      q.buffer (slotOf k head.toNat) = item

/-- The producer has evicted position `tail` and not yet overwritten its slot. -/
def EvictPending (k tail : ℕ) : PushPc T → Prop
  | .storeEvictedTail _ head _ | .writeSlot _ head .evictedOldest => head.toNat = tail + 2 ^ k
  | _ => False

/-- A pop that has still to read position `tail`: the position is the next one, or it was
evicted in between and its slot is not yet overwritten. -/
def Unread (q : Queue T k) (push : PushPc T) (accepted : List T) (tail : ℕ) : Prop :=
  tail = q.consumerCursor.toNat ∨
    (tail + 1 = q.consumerCursor.toNat ∧ EvictPending k tail push ∧
      accepted[tail]? = some (q.buffer (slotOf k tail)))

/-- What the locals of `try_pop` mean while the call is in progress. The items popped so far
are below the loaded cursor. -/
def PopOk (q : Queue T k) (push : PushPc T) (accepted popped : List T) : PopPc T → Prop
  | .idle => popped.Sublist (accepted.take q.consumerCursor.toNat)
  | .loadCachedHead tail | .loadHead tail =>
    popped.Sublist (accepted.take tail.toNat) ∧ Unread q push accepted tail.toNat
  | .storeCachedHead tail head =>
    popped.Sublist (accepted.take tail.toNat) ∧ Unread q push accepted tail.toNat ∧
      head.toNat ≤ q.producerCursor.toNat
  | .readSlot tail =>
    popped.Sublist (accepted.take tail.toNat) ∧ Unread q push accepted tail.toNat ∧
      tail.toNat < q.producerCursor.toNat
  | .storeTail item tail =>
    popped.Sublist (accepted.take tail.toNat) ∧ q.consumerCursor.toNat ≤ tail.toNat + 1 ∧
      tail.toNat < q.producerCursor.toNat ∧ accepted[tail.toNat]? = some item

/-- The invariant of every run that keeps `Safe`. -/
structure Inv (s : State T k) : Prop where
  length_accepted : s.accepted.length = s.queue.producerCursor.toNat
  tail_le : s.queue.consumerCursor.toNat ≤ s.queue.producerCursor.toNat
  head_le : s.queue.producerCursor.toNat ≤ s.queue.consumerCursor.toNat + 2 ^ k
  cachedTail_le : s.queue.cachedConsumerCursor.toNat ≤ s.queue.consumerCursor.toNat
  cachedHead_le : s.queue.cachedProducerCursor.toNat ≤ s.queue.producerCursor.toNat
  below : s.push ≠ .idle → s.queue.producerCursor.toNat + 2 ^ k < 2 ^ 64
  window : Window k s.queue.buffer s.accepted s.queue.consumerCursor.toNat
    s.queue.producerCursor.toNat
  push : PushOk s.queue s.push
  pop : PopOk s.queue s.push s.accepted s.popped s.pop

lemma Inv.new [Inhabited T] : Inv (State.new : State T k) where
  length_accepted := rfl
  tail_le := Nat.le_refl 0
  head_le := Nat.zero_le _
  cachedTail_le := Nat.le_refl 0
  cachedHead_le := Nat.le_refl 0
  below := fun h => absurd rfl h
  window := Window.empty _ _ _
  push := trivial
  pop := List.nil_sublist _

lemma unread_eq {q : Queue T k} {push : PushPc T} {accepted : List T} {tail : ℕ}
    (h : Unread q push accepted tail) (hnp : ¬ EvictPending k tail push) :
    tail = q.consumerCursor.toNat := by
  rcases h with h | h
  · exact h
  · exact absurd h.2.1 hnp

/-- A longer log keeps what was below a position. -/
lemma sublist_take_mono {popped accepted accepted' : List T} {n : ℕ}
    (h : popped.Sublist (accepted.take n)) (hpre : accepted <+: accepted') :
    popped.Sublist (accepted'.take n) := by
  obtain ⟨rest, rfl⟩ := hpre
  rw [List.take_append]
  exact h.trans (List.sublist_append_left _ _)

/-- The producer's part survives a consumer access. -/
lemma PushOk.mono {q q' : Queue T k} {pc : PushPc T} (h : PushOk q pc)
    (hhead : q'.producerCursor = q.producerCursor) (hbuf : q'.buffer = q.buffer)
    (htail : q.consumerCursor.toNat ≤ q'.consumerCursor.toNat) : PushOk q' pc := by
  cases pc with
  | idle => trivial
  | loadCachedTail item policy head => exact h.trans hhead.symm
  | loadTail item policy head => exact h.trans hhead.symm
  | storeCachedTail item policy head tail =>
    exact ⟨h.1.trans hhead.symm, Nat.le_trans h.2.1 htail, h.2.2⟩
  | evictTail item head tail => exact ⟨h.1.trans hhead.symm, Nat.le_trans h.2.1 htail, h.2.2⟩
  | storeEvictedTail item head tail =>
    exact ⟨h.1.trans hhead.symm, Nat.le_trans h.2.1 htail, h.2.2⟩
  | writeSlot item head result => exact ⟨h.1.trans hhead.symm, by have := h.2; omega⟩
  | storeHead item head result =>
    exact ⟨h.1.trans hhead.symm, by have := h.2.1; omega, by rw [hbuf]; exact h.2.2⟩

/-- The consumer's part survives a producer access that leaves the cursor alone, as long as
it leaves alone the position still to be read. -/
lemma PopOk.mono {q q' : Queue T k} {push push' : PushPc T} {accepted accepted' popped : List T}
    {pc : PopPc T} (h : PopOk q push accepted popped pc)
    (htail : q'.consumerCursor = q.consumerCursor)
    (hhead : q.producerCursor.toNat ≤ q'.producerCursor.toNat) (hpre : accepted <+: accepted')
    (hunread : ∀ tail ∈ pc.unread, Unread q push accepted tail.toNat →
      Unread q' push' accepted' tail.toNat) :
    PopOk q' push' accepted' popped pc := by
  cases pc with
  | idle =>
    show popped.Sublist (accepted'.take q'.consumerCursor.toNat)
    rw [htail]
    exact sublist_take_mono h hpre
  | loadCachedHead tail =>
    exact ⟨sublist_take_mono h.1 hpre, hunread tail rfl h.2⟩
  | loadHead tail =>
    exact ⟨sublist_take_mono h.1 hpre, hunread tail rfl h.2⟩
  | storeCachedHead tail head =>
    exact ⟨sublist_take_mono h.1 hpre, hunread tail rfl h.2.1, Nat.le_trans h.2.2 hhead⟩
  | readSlot tail =>
    exact ⟨sublist_take_mono h.1 hpre, hunread tail rfl h.2.1,
      Nat.lt_of_lt_of_le h.2.2 hhead⟩
  | storeTail item tail =>
    exact ⟨sublist_take_mono h.1 hpre, by rw [htail]; exact h.2.1,
      Nat.lt_of_lt_of_le h.2.2.1 hhead, getElem?_of_prefix h.2.2.2 hpre⟩

/-- Outside an eviction the position still to be read is the next one. -/
lemma PopOk.mono_of_not_pending {q q' : Queue T k} {push push' : PushPc T}
    {accepted accepted' popped : List T} {pc : PopPc T} (h : PopOk q push accepted popped pc)
    (hnp : ∀ tail, ¬ EvictPending k tail push)
    (htail : q'.consumerCursor = q.consumerCursor)
    (hhead : q.producerCursor.toNat ≤ q'.producerCursor.toNat) (hpre : accepted <+: accepted') :
    PopOk q' push' accepted' popped pc :=
  h.mono htail hhead hpre fun tail _ hu =>
    Or.inl ((unread_eq hu (hnp tail.toNat)).trans (congrArg UInt64.toNat htail.symm))

/-! ## One access -/

/-- The eviction's store of the consumer cursor. -/
lemma evictTail_inv {s : State T k} {item : T} {head tail : UInt64} (h : Inv s)
    (hpc : s.push = .evictTail item head tail) (hok : Safe s .push) :
    Inv { s with
      queue := { s.queue with consumerCursor := tail + 1 }
      push := .storeEvictedTail item head (tail + 1) } := by
  have hpush := h.push
  have hpop := h.pop
  have hbelow := h.below (by rw [hpc]; nofun)
  simp only [Safe, hpc] at hok
  rw [hpc] at hpush hpop
  obtain ⟨hcur, hold⟩ := hok
  obtain ⟨hhead, hle, hfull⟩ := hpush
  have hN := Nat.two_pow_pos k
  have hlen := h.length_accepted
  have hcached := h.cachedTail_le
  have htail := h.tail_le
  rw [hhead] at hfull
  have hnext : (tail + 1).toNat = tail.toNat + 1 := toNat_succ (by omega)
  rw [UInt64.le_iff_toNat_le, hnext] at hcur
  -- the evicted position is `tail`: it is the next one, or it was popped meanwhile
  have hcases : s.queue.consumerCursor.toNat = tail.toNat ∨
      s.queue.consumerCursor.toNat = tail.toNat + 1 := by omega
  have hunread : ∀ t ∈ s.pop.unread, Unread s.queue s.push s.accepted t.toNat →
      Unread { s.queue with consumerCursor := tail + 1 } (.storeEvictedTail item head (tail + 1))
        s.accepted t.toNat := by
    intro t _ hu
    have hnp : ¬ EvictPending k t.toNat s.push := by rw [hpc]; exact id
    have ht := unread_eq hu hnp
    rcases hcases with hc | hc
    · have hwin := h.window t.toNat (by omega) (by omega)
      refine Or.inr ⟨?_, ?_, hwin⟩
      · show t.toNat + 1 = (tail + 1).toNat
        omega
      · show head.toNat = t.toNat + 2 ^ k
        rw [hhead]
        omega
    · refine Or.inl ?_
      show t.toNat = (tail + 1).toNat
      omega
  rw [← hpc] at hpop
  refine
    { length_accepted := hlen
      tail_le := by dsimp only; omega
      head_le := by dsimp only; omega
      cachedTail_le := by dsimp only; omega
      cachedHead_le := h.cachedHead_le
      below := fun _ => hbelow
      window := h.window.mono (by show _ ≤ (tail + 1).toNat; omega)
      push := ⟨hhead, Nat.le_refl _, by rw [hhead]; omega⟩
      pop := ?_ }
  show PopOk _ _ _ _ s.pop
  cases hp : s.pop with
  | idle =>
    rw [hp] at hpop
    exact List.Sublist.trans hpop
      (List.take_sublist_take_left (by show _ ≤ (tail + 1).toNat; omega))
  | loadCachedHead t =>
    rw [hp] at hpop hunread
    exact ⟨hpop.1, hunread t rfl hpop.2⟩
  | loadHead t =>
    rw [hp] at hpop hunread
    exact ⟨hpop.1, hunread t rfl hpop.2⟩
  | storeCachedHead t head' =>
    rw [hp] at hpop hunread
    exact ⟨hpop.1, hunread t rfl hpop.2.1, hpop.2.2⟩
  | readSlot t =>
    rw [hp] at hpop hunread
    exact ⟨hpop.1, hunread t rfl hpop.2.1, hpop.2.2⟩
  | storeTail item' t =>
    have ht := UInt64.le_iff_toNat_le.mp (hold t (by rw [hp]; rfl))
    rw [hp] at hpop
    exact ⟨hpop.1, by show (tail + 1).toNat ≤ t.toNat + 1; omega, hpop.2.2⟩

/-- An evicted slot is only overwritten when no pop has still to read it. -/
lemma eq_of_unread_writeSlot {s : State T k} {item : T} {head tail : UInt64} {result : PushResult}
    (hpc : s.push = .writeSlot item head result) (hok : Safe s .push)
    (hmem : tail ∈ s.pop.unread)
    (hu : Unread s.queue (.writeSlot item head result) s.accepted tail.toNat) :
    tail.toNat = s.queue.consumerCursor.toNat := by
  apply unread_eq hu
  intro hpend
  cases result with
  | enqueued => exact hpend
  | droppedNewest => exact hpend
  | evictedOldest =>
    simp only [Safe, hpc] at hok
    have hlt := hok tail hmem
    have heq : head.toNat = tail.toNat + 2 ^ k := hpend
    omega

/-- The store of the producer cursor publishes the item in the slot. -/
lemma storeHead_accepts {s : State T k} {item : T} {head : UInt64} {result : PushResult}
    (h : Inv s) (hpc : s.push = .storeHead item head result) :
    Inv { s with
      queue :=
        { s.queue with
          producerCursor := head + 1
          metrics := s.queue.metrics.recordPush result }
      push := .idle
      accepted := s.accepted ++ [item]
      results := s.results ++ [result] } := by
  have hpush := h.push
  have hpop := h.pop
  have htail := h.tail_le
  have hcached := h.cachedHead_le
  have hlen := h.length_accepted
  have hbelow := h.below (by rw [hpc]; nofun)
  have hN := Nat.two_pow_pos k
  rw [hpc] at hpush hpop
  obtain ⟨rfl, hroom, hslot⟩ := hpush
  have hnext : (s.queue.producerCursor + 1).toNat = s.queue.producerCursor.toNat + 1 :=
    toNat_succ (by omega)
  exact
    { length_accepted := by dsimp only; rw [List.length_append, hlen, hnext]; rfl
      tail_le := by dsimp only; omega
      head_le := by dsimp only; omega
      cachedTail_le := h.cachedTail_le
      cachedHead_le := by dsimp only; omega
      below := fun hbusy => absurd rfl hbusy
      window := by dsimp only; rw [hnext]; exact h.window.publish hlen hslot
      push := trivial
      pop := hpop.mono_of_not_pending (fun _ => id) rfl (by dsimp only; omega)
        (List.prefix_append _ _) }

/-- An access of the producer keeps the invariant. -/
theorem pushWithPolicyStep_inv {s s' : State T k} (h : Inv s) (hok : Safe s .push)
    (hs : pushWithPolicyStep s = some s') : Inv s' := by
  have hpush := h.push
  have hpop := h.pop
  have htail := h.tail_le
  have hbusy : s.push ≠ .idle := by
    intro hidle
    unfold pushWithPolicyStep at hs
    simp [hidle] at hs
  -- no sum of a cursor and the capacity wraps
  have hbelow := h.below hbusy
  unfold pushWithPolicyStep at hs
  cases hpc : s.push with
  | idle => exact absurd hpc hbusy
  | loadCachedTail item policy head =>
    rw [hpc] at hpush hs hpop
    -- the remembered tail may be old: room by it is room, since the real one is no smaller
    have hcached := h.cachedTail_le
    have hpop' : ∀ push', PopOk s.queue push' s.accepted s.popped s.pop := fun _ =>
      hpop.mono_of_not_pending (fun _ => id) rfl (Nat.le_refl _) (List.prefix_refl _)
    dsimp only at hs
    split at hs
    · next hfast =>
      cases hs
      have hroom : head.toNat < s.queue.consumerCursor.toNat + 2 ^ k := by
        rw [lt_add_capacity64_iff (by omega)] at hfast
        omega
      exact { h with below := fun _ => hbelow, push := ⟨hpush, hroom⟩, pop := hpop' _ }
    · cases hs
      exact { h with below := fun _ => hbelow, push := hpush, pop := hpop' _ }
  | loadTail item policy head =>
    rw [hpc] at hpush hs hpop
    cases hs
    -- the load of the tail itself, which is where it stands now
    have hhead : head = s.queue.producerCursor := hpush
    exact { h with
      below := fun _ => hbelow
      push := ⟨hpush, Nat.le_refl _, hhead ▸ h.head_le⟩
      pop := hpop.mono_of_not_pending (fun _ => id) rfl (Nat.le_refl _) (List.prefix_refl _) }
  | storeCachedTail item policy head tail =>
    rw [hpc] at hpush hs hpop
    obtain ⟨hhead, htail', hlap⟩ := hpush
    -- only the cached tail moves, which the other side never reads
    have hpop' : ∀ (q' : Queue T k) push', q'.consumerCursor = s.queue.consumerCursor →
        s.queue.producerCursor.toNat ≤ q'.producerCursor.toNat →
        PopOk q' push' s.accepted s.popped s.pop := fun _ _ h1 h2 =>
      hpop.mono_of_not_pending (fun _ => id) h1 h2 (List.prefix_refl _)
    have hfits : tail.toNat + 2 ^ k < 2 ^ 64 := by omega
    dsimp only at hs
    split at hs
    · next hfree =>
      cases hs
      rw [lt_add_capacity64_iff hfits] at hfree
      have hroom : head.toNat < s.queue.consumerCursor.toNat + 2 ^ k := by omega
      exact { h with
        cachedTail_le := htail'
        below := fun _ => hbelow
        push := ⟨hhead, hroom⟩
        pop := hpop' _ _ rfl (Nat.le_refl _) }
    · next hfull =>
      rw [lt_add_capacity64_iff hfits] at hfull
      cases policy with
      | dropNewest =>
        cases hs
        exact { h with
          cachedTail_le := htail'
          below := fun _ => hbelow
          push := trivial
          pop := hpop' _ _ rfl (Nat.le_refl _) }
      | dropOldest =>
        cases hs
        exact { h with
          cachedTail_le := htail'
          below := fun _ => hbelow
          push := ⟨hhead, htail', by omega⟩
          pop := hpop' _ _ rfl (Nat.le_refl _) }
  | evictTail item head tail =>
    rw [hpc] at hs
    cases hs
    -- the one store of the producer into the cursor of the consumer
    exact evictTail_inv h hpc hok
  | storeEvictedTail item head tail =>
    rw [hpc] at hpush hs hpop
    obtain ⟨hhead, htail', hroom⟩ := hpush
    cases hs
    exact { h with
      cachedTail_le := htail'
      below := fun _ => hbelow
      push := ⟨hhead, by dsimp only; omega⟩
      pop := hpop.mono rfl (Nat.le_refl _) (List.prefix_refl _) fun _ _ hu => hu }
  | writeSlot item head result =>
    rw [hpc] at hpush hs hpop
    obtain ⟨hhead, hroom⟩ := hpush
    cases hs
    exact { h with
      below := fun _ => hbelow
      -- the slot of `head` lies outside the window of items that wait
      window := h.window.write (by rw [hhead]) hroom item
      push := ⟨hhead, hroom, Function.update_self _ _ _⟩
      pop := hpop.mono rfl (Nat.le_refl _) (List.prefix_refl _)
        fun tail hmem hu => Or.inl (eq_of_unread_writeSlot (s := s) hpc hok hmem hu) }
  | storeHead item head result =>
    rw [hpc] at hs
    cases hs
    exact storeHead_accepts h hpc

/-- An access of the consumer keeps the invariant. -/
theorem tryPopStep_inv {s s' : State T k} (h : Inv s) (hs : tryPopStep s = some s') : Inv s' := by
  have hpop := h.pop
  have hlap := h.head_le
  unfold tryPopStep at hs
  cases hpc : s.pop with
  | idle => simp [hpc] at hs
  | loadCachedHead tail =>
    rw [hpc] at hpop hs
    have hcached := h.cachedHead_le
    dsimp only at hs
    split at hs
    · cases hs
      exact { h with pop := hpop }
    · next hbehind =>
      cases hs
      rw [ge_iff_le, UInt64.le_iff_toNat_le] at hbehind
      have hlt : tail.toNat < s.queue.producerCursor.toNat := by omega
      exact { h with pop := ⟨hpop.1, hpop.2, hlt⟩ }
  | loadHead tail =>
    rw [hpc] at hpop hs
    cases hs
    exact { h with pop := ⟨hpop.1, hpop.2, Nat.le_refl _⟩ }
  | storeCachedHead tail head =>
    rw [hpc] at hpop hs
    obtain ⟨hsub, hunread, hhead⟩ := hpop
    dsimp only at hs
    split at hs
    · cases hs
      have hle : tail.toNat ≤ s.queue.consumerCursor.toNat := by
        rcases hunread with h | h <;> omega
      exact { h with
        cachedHead_le := hhead
        push := h.push.mono rfl rfl (Nat.le_refl _)
        pop := hsub.trans (List.take_sublist_take_left hle) }
    · next hbehind =>
      cases hs
      rw [ge_iff_le, UInt64.le_iff_toNat_le] at hbehind
      have hlt : tail.toNat < s.queue.producerCursor.toNat := by omega
      exact { h with
        cachedHead_le := hhead
        push := h.push.mono rfl rfl (Nat.le_refl _)
        pop := ⟨hsub, hunread, hlt⟩ }
  | readSlot tail =>
    rw [hpc] at hpop hs
    obtain ⟨hsub, hunread, hlt⟩ := hpop
    cases hs
    -- the slot read still holds the item accepted at `tail`
    have hitem : s.accepted[tail.toNat]? = some (s.queue.buffer (slotOf k tail.toNat)) := by
      rcases hunread with hu | hu
      · exact h.window tail.toNat (by omega) hlt
      · exact hu.2.2
    have hle : s.queue.consumerCursor.toNat ≤ tail.toNat + 1 := by
      rcases hunread with hu | hu <;> omega
    exact { h with pop := ⟨hsub, hle, hlt, hitem⟩ }
  | storeTail item tail =>
    rw [hpc] at hpop hs
    obtain ⟨hsub, hle, hlt, hitem⟩ := hpop
    have hnext : (tail + 1).toNat = tail.toNat + 1 := toNat_succ_of_lt hlt
    rw [← hnext] at hle
    cases hs
    exact { h with
      tail_le := by dsimp only; omega
      head_le := by dsimp only; omega
      cachedTail_le := by have := h.cachedTail_le; dsimp only; omega
      window := h.window.mono hle
      push := h.push.mono rfl rfl hle
      pop := by
        show (s.popped ++ [item]).Sublist (s.accepted.take (tail + 1).toNat)
        rw [hnext, List.take_add_one, hitem]
        exact hsub.append_right [item] }

theorem step_inv {s s' : State T k} {a : Action T} (h : Inv s) (hok : Safe s a)
    (hs : step s a = some s') : Inv s' := by
  cases a with
  | callPush item policy =>
    simp only [step] at hs
    split at hs
    · next hidle =>
      cases hs
      -- no eviction is under way before a push begins
      have hnp : ∀ tail, ¬ EvictPending k tail s.push := by
        intro tail
        cases hpc : s.push with
        | idle => exact id
        | _ => simp [hpc] at hidle
      exact { h with
        below := fun _ => hok
        push := rfl
        pop := h.pop.mono_of_not_pending hnp rfl (Nat.le_refl _) (List.prefix_refl _) }
    · cases hs
  | push => exact pushWithPolicyStep_inv h hok hs
  | callPop =>
    simp only [step] at hs
    split at hs
    · next hidle =>
      cases hs
      have hpop := h.pop
      cases hpc : s.pop with
      | idle =>
        rw [hpc] at hpop
        exact { h with pop := ⟨hpop, Or.inl rfl⟩ }
      | _ => simp [hpc] at hidle
    · cases hs
  | pop => exact tryPopStep_inv h hs

/-- The producer moves the consumer cursor in the store of an eviction only. -/
lemma consumerCursor_pushWithPolicyStep {s s' : State T k} (hs : pushWithPolicyStep s = some s') :
    s'.queue.consumerCursor = s.queue.consumerCursor ∨
      ∃ item head tail, s.push = .evictTail item head tail ∧
        s'.queue.consumerCursor = tail + 1 := by
  unfold pushWithPolicyStep at hs
  cases hpc : s.push with
  | idle => simp [hpc] at hs
  | evictTail item head tail =>
    rw [hpc] at hs
    cases hs
    exact .inr ⟨item, head, tail, rfl, rfl⟩
  | loadCachedTail item policy head =>
    rw [hpc] at hs
    dsimp only at hs
    split at hs <;> cases hs <;> exact .inl rfl
  | storeCachedTail item policy head tail =>
    rw [hpc] at hs
    dsimp only at hs
    split at hs
    · cases hs; exact .inl rfl
    · cases policy <;> cases hs <;> exact .inl rfl
  | _ =>
    rw [hpc] at hs
    cases hs
    exact .inl rfl

/-- The consumer moves its cursor in the last store of a pop only. -/
lemma consumerCursor_tryPopStep {s s' : State T k} (hs : tryPopStep s = some s') :
    s'.queue.consumerCursor = s.queue.consumerCursor ∨
      ∃ item tail, s.pop = .storeTail item tail ∧ s'.queue.consumerCursor = tail + 1 := by
  unfold tryPopStep at hs
  cases hpc : s.pop with
  | idle => simp [hpc] at hs
  | storeTail item tail =>
    rw [hpc] at hs
    cases hs
    exact .inr ⟨item, tail, rfl, rfl⟩
  | loadCachedHead tail =>
    rw [hpc] at hs
    dsimp only at hs
    split at hs <;> cases hs <;> exact .inl rfl
  | storeCachedHead tail head =>
    rw [hpc] at hs
    dsimp only at hs
    split at hs <;> cases hs <;> exact .inl rfl
  | _ =>
    rw [hpc] at hs
    cases hs
    exact .inl rfl

/-- The consumer cursor never moves back. -/
theorem consumerCursor_mono {s s' : State T k} {a : Action T} (h : Inv s)
    (hok : Safe s a) (hs : step s a = some s') :
    s.queue.consumerCursor ≤ s'.queue.consumerCursor := by
  cases a with
  | callPush item policy =>
    simp only [step] at hs
    split at hs <;> cases hs
    exact UInt64.le_refl _
  | callPop =>
    simp only [step] at hs
    split at hs <;> cases hs
    exact UInt64.le_refl _
  | push =>
    rcases consumerCursor_pushWithPolicyStep hs with heq | ⟨item, head, tail, hpc, heq⟩
    · exact heq ▸ UInt64.le_refl _
    · -- the eviction is a plain store: it moves forward only because the step is safe
      simp only [Safe, hpc] at hok
      rw [heq]
      exact hok.1
  | pop =>
    rcases consumerCursor_tryPopStep hs with heq | ⟨item, tail, hpc, heq⟩
    · exact heq ▸ UInt64.le_refl _
    · -- the consumer stores the cursor that it loaded, plus one
      have hpop := h.pop
      rw [hpc] at hpop
      have hnext : (tail + 1).toNat = tail.toNat + 1 := toNat_succ_of_lt hpop.2.2.1
      rw [heq, UInt64.le_iff_toNat_le, hnext]
      exact hpop.2.1

/-! ## Every interleaving -/

/-- The delivery property at a state, and at the steps that leave it. -/
def InOrder (ok : State T k → Action T → Prop) (s : State T k) : Prop :=
  s.popped.Sublist s.accepted ∧
    ∀ a s', ok s a → step s a = some s' → s.queue.consumerCursor ≤ s'.queue.consumerCursor

/-- In every interleaving whose steps are safe, the popped items are a subsequence of the
accepted ones and the consumer cursor never moves back. -/
theorem delivers_in_order [Inhabited T] (s : State T k)
    (h : (machine T k).ReachableWhen Safe s) : InOrder Safe s := by
  have hinv : Inv s := h.invariant Inv.new fun _ _ _ hi hok hs => step_inv hi hok hs
  refine ⟨?_, fun a s' hok hs => consumerCursor_mono hinv hok hs⟩
  have hpop := hinv.pop
  cases hpc : s.pop with
  | idle =>
    rw [hpc] at hpop
    exact List.Sublist.trans hpop (List.take_sublist _ _)
  | _ =>
    rw [hpc] at hpop
    exact hpop.1.trans (List.take_sublist _ _)

/-- The accesses of `n` steps of a push, and of a pop. -/
def pushCall (item n : ℕ) (policy : SaturationDropPolicy) : List (Action ℕ) :=
  .callPush item policy :: List.replicate n .push

def popCall (n : ℕ) : List (Action ℕ) := .callPop :: List.replicate n .pop

/-- Capacity 2, no overlap: the third push evicts the first item. -/
def evictOnce : List (Action ℕ) :=
  pushCall 1 3 .dropOldest ++ pushCall 2 3 .dropOldest ++ pushCall 3 7 .dropOldest ++
    popCall 5 ++ popCall 3

lemma evictOnce_allowed :
    (machine ℕ 1).Allowed Safe (machine ℕ 1).init evictOnce := by decide

theorem delivers_in_order_evictOnce :
    let s := ((machine ℕ 1).exec (machine ℕ 1).init evictOnce).get evictOnce_allowed.isSome
    (s.accepted, s.popped) = ([1, 2, 3], [2, 3]) ∧ InOrder Safe s :=
  ⟨by decide, delivers_in_order _ evictOnce_allowed.reachable⟩

/-- Capacity 2, the eviction's cursor store delayed past two pops: the producer loads the
consumer cursor at 0, the consumer pops both items, and the store of 1 moves the cursor
back, so the second item is popped again. -/
def evictLate : List (Action ℕ) :=
  pushCall 1 3 .dropOldest ++ pushCall 2 3 .dropOldest ++ pushCall 3 3 .dropOldest ++
    popCall 5 ++ popCall 3 ++ List.replicate 4 .push ++ popCall 3

lemma evictLate_allowed :
    (machine ℕ 1).Allowed (fun _ _ => True) (machine ℕ 1).init evictLate := by decide

theorem delivers_twice :
    ¬ ∀ (T : Type) (_ : Inhabited T) (k : ℕ) (s : State T k),
      (machine T k).Reachable s → InOrder (fun _ _ => True) s := by
  intro h
  have hrun := (h ℕ inferInstance 1 _ evictLate_allowed.reachable).1
  revert hrun
  decide

end IsolatedConsumerQueue
end ChainMarketPrice.CoreEngine
