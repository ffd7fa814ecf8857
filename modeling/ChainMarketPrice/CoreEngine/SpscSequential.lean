import ChainMarketPrice.CoreEngine.SpscRingBufferTheorems
import ChainMarketPrice.CoreEngine.IsolatedConsumerQueueSequential

/-!
# `SpscRingBuffer` without overlap

Complete calls, one after the other. `tryPush` and `tryPop` are the calls as wholes, and
`exec_push` and `exec_pop` say that they are what the accesses of a call add up to. Used like
this, the ring is the bounded list that drops the newest item (`spsc_refines_bounded_queue`).
-/

namespace ChainMarketPrice.CoreEngine
namespace SpscRingBuffer

open RingWindow
open IsolatedConsumerQueue (BoundedQueue window_append window_tail)

variable {T : Type} {k : ℕ}

/-! ## The calls as wholes -/

namespace Ring

/-- `SpscRingBuffer::new`. -/
def new [Inhabited T] : Ring T k := (State.new : State T k).ring

/-- The item goes to the slot of the head, and the head behind it. -/
def append (r : Ring T k) (item : T) : Ring T k :=
  { r with
    buffer := Function.update r.buffer (slotOf k r.producerCursor) item
    producerCursor := add64 r.producerCursor 1 }

/-- `try_push`. -/
def tryPush (r : Ring T k) (item : T) : Except Unit Unit × Ring T k :=
  let currentHead := r.producerCursor
  let cachedTail := r.cachedConsumerCursor
  -- fullness by the cached cursor first
  if currentHead ≥ add64 cachedTail (2 ^ k) then
    let actualTail := r.consumerCursor
    let r := { r with cachedConsumerCursor := actualTail }
    if currentHead ≥ add64 actualTail (2 ^ k) then (.error (), r)
    else (.ok (), r.append item)
  else (.ok (), r.append item)

/-- The end of `try_pop`: the item in the slot of the tail. -/
def takeFront (r : Ring T k) : Option T × Ring T k :=
  (some (r.buffer (slotOf k r.consumerCursor)),
    { r with consumerCursor := add64 r.consumerCursor 1 })

/-- `try_pop`. -/
def tryPop (r : Ring T k) : Option T × Ring T k :=
  let currentTail := r.consumerCursor
  let cachedHead := r.cachedProducerCursor
  if currentTail ≥ cachedHead then
    let actualHead := r.producerCursor
    let r := { r with cachedProducerCursor := actualHead }
    if currentTail ≥ actualHead then (none, r) else r.takeFront
  else r.takeFront

end Ring

/-! ## The accesses of a call add up to the call -/

/-- The state with the ring and the results of a complete push. -/
def State.afterPush (s : State T k) (item : T) : State T k :=
  match s.ring.tryPush item with
  | (.ok (), r) => { s with ring := r, pushed := s.pushed ++ [item] }
  | (.error (), r) => { s with ring := r, rejected := s.rejected ++ [s.unpopped] }

def State.afterPop (s : State T k) : State T k :=
  match s.ring.tryPop with
  | (some item, r) => { s with ring := r, popped := s.popped ++ [item] }
  | (none, r) => { s with ring := r, empties := s.empties ++ [s.unpopped] }

section Accesses

variable [Inhabited T]

lemma exec_push {s : State T k} (hidle : s.push = .idle) (item : T) :
    ∃ n, (machine T k).exec s (.callPush item :: List.replicate n .push)
      = some (s.afterPush item) := by
  obtain ⟨r, push, pop, pushed, popped, rejected, empties⟩ := s
  have hpush : push = .idle := hidle
  subst hpush
  by_cases hcached : r.producerCursor ≥ add64 r.cachedConsumerCursor (2 ^ k)
  · by_cases hfull : r.producerCursor ≥ add64 r.consumerCursor (2 ^ k)
    · refine ⟨3, ?_⟩
      simp [Machine.exec, machine, step, tryPushStep, State.afterPush, Ring.tryPush,
        List.replicate, hcached, hfull, State.unpopped]
    · refine ⟨5, ?_⟩
      simp [Machine.exec, machine, step, tryPushStep, State.afterPush, Ring.tryPush, Ring.append,
        List.replicate, hcached, hfull]
  · refine ⟨3, ?_⟩
    simp [Machine.exec, machine, step, tryPushStep, State.afterPush, Ring.tryPush, Ring.append,
      List.replicate, hcached]

lemma exec_pop {s : State T k} (hidle : s.pop = .idle) :
    ∃ n, (machine T k).exec s (.callPop :: List.replicate n .pop) = some s.afterPop := by
  obtain ⟨r, push, pop, pushed, popped, rejected, empties⟩ := s
  have hpop : pop = .idle := hidle
  subst hpop
  by_cases hcached : r.consumerCursor ≥ r.cachedProducerCursor
  · by_cases hempty : r.consumerCursor ≥ r.producerCursor
    · refine ⟨3, ?_⟩
      simp [Machine.exec, machine, step, tryPopStep, State.afterPop, Ring.tryPop, List.replicate,
        hcached, hempty, State.unpopped]
    · refine ⟨5, ?_⟩
      simp [Machine.exec, machine, step, tryPopStep, State.afterPop, Ring.tryPop, Ring.takeFront,
        List.replicate, hcached, hempty]
  · refine ⟨3, ?_⟩
    simp [Machine.exec, machine, step, tryPopStep, State.afterPop, Ring.tryPop, Ring.takeFront,
      List.replicate, hcached]

end Accesses

/-! ## The simulation -/

/-- The ring holds the items from its consumer cursor on, and its cached cursors lag behind. -/
structure Represents (r : Ring T k) (items : List T) : Prop where
  head_eq : r.producerCursor = r.consumerCursor + items.length
  cachedTail_le : r.cachedConsumerCursor ≤ r.consumerCursor
  cachedHead_le : r.cachedProducerCursor ≤ r.producerCursor
  window : ∃ gone : List T, gone.length = r.consumerCursor ∧
    Window k r.buffer (gone ++ items) r.consumerCursor r.producerCursor

lemma Represents.new [Inhabited T] : Represents (Ring.new : Ring T k) [] where
  head_eq := rfl
  cachedTail_le := Nat.le_refl 0
  cachedHead_le := Nat.le_refl 0
  window := ⟨[], rfl, Window.empty _ _ _⟩

/-- A push with room. -/
lemma Represents.append {r : Ring T k} {items : List T} (h : Represents r items)
    (hroom : items.length < 2 ^ k) (hbelow : r.producerCursor + 1 < 2 ^ 64) (item : T) :
    Represents (r.append item) (items ++ [item]) where
  head_eq := by
    show add64 r.producerCursor 1 = r.consumerCursor + (items ++ [item]).length
    rw [add64_eq hbelow, List.length_append, h.head_eq]
    rfl
  cachedTail_le := h.cachedTail_le
  cachedHead_le := by
    show r.cachedProducerCursor ≤ add64 r.producerCursor 1
    rw [add64_eq hbelow]
    exact h.cachedHead_le.trans (Nat.le_succ _)
  window := by
    obtain ⟨gone, hgone, hwindow⟩ := h.window
    refine ⟨gone, hgone, ?_⟩
    show Window k _ _ r.consumerCursor (add64 r.producerCursor 1)
    rw [add64_eq hbelow]
    exact window_append hwindow hgone h.head_eq hroom item

/-- The reload of the consumer cursor. -/
lemma Represents.reloadTail {r : Ring T k} {items : List T} (h : Represents r items) :
    Represents { r with cachedConsumerCursor := r.consumerCursor } items :=
  { h with cachedTail_le := Nat.le_refl _ }

/-- A push is accepted exactly when the list is not full. -/
lemma push_simulates {r : Ring T k} {items : List T} (h : Represents r items)
    (hbound : items.length ≤ 2 ^ k) (hbelow : r.producerCursor + 2 ^ k < 2 ^ 64) (item : T) :
    if items.length < 2 ^ k then
      (r.tryPush item).1 = .ok () ∧ Represents (r.tryPush item).2 (items ++ [item])
    else (r.tryPush item).1 = .error () ∧ Represents (r.tryPush item).2 items := by
  have hpos := Nat.two_pow_pos k
  have hhead := h.head_eq
  have hcachedTail := h.cachedTail_le
  have hnext : r.producerCursor + 1 < 2 ^ 64 := by omega
  have hcachedSum := add64_eq (a := r.cachedConsumerCursor) (b := 2 ^ k) (by omega)
  have hsum := add64_eq (a := r.consumerCursor) (b := 2 ^ k) (by omega)
  simp only [Ring.tryPush, hcachedSum, hsum]
  by_cases hroom : items.length < 2 ^ k
  · rw [if_pos hroom]
    -- the remembered cursor may hide the room, and then the real one is loaded
    by_cases hcached : r.producerCursor ≥ r.cachedConsumerCursor + 2 ^ k
    · rw [if_pos hcached, if_neg (by omega)]
      exact ⟨rfl, h.reloadTail.append hroom hnext item⟩
    · rw [if_neg hcached]
      exact ⟨rfl, h.append hroom hnext item⟩
  · rw [if_neg hroom, if_pos (by omega), if_pos (by omega)]
    exact ⟨rfl, h.reloadTail⟩

/-- A pop of a ring that is not empty. -/
lemma Represents.takeFront {r : Ring T k} {x : T} {items : List T}
    (h : Represents r (x :: items)) (hbelow : r.producerCursor < 2 ^ 64) :
    r.takeFront.1 = some x ∧ Represents r.takeFront.2 items := by
  have hhead := h.head_eq
  rw [List.length_cons] at hhead
  have hnext := add64_eq (a := r.consumerCursor) (b := 1) (by omega)
  obtain ⟨gone, hgone, hwindow⟩ := h.window
  constructor
  · have hfirst := hwindow r.consumerCursor (Nat.le_refl _) (by omega)
    rw [List.getElem?_append_right (by omega), hgone, Nat.sub_self, List.getElem?_cons_zero]
      at hfirst
    exact hfirst.symm
  · constructor
    · show r.producerCursor = add64 r.consumerCursor 1 + items.length
      omega
    · show r.cachedConsumerCursor ≤ add64 r.consumerCursor 1
      rw [hnext]
      exact h.cachedTail_le.trans (Nat.le_succ _)
    · exact h.cachedHead_le
    · refine ⟨gone ++ [x], ?_, ?_⟩
      · show (gone ++ [x]).length = add64 r.consumerCursor 1
        rw [hnext, List.length_append, hgone, List.length_singleton]
      · show Window k r.buffer _ (add64 r.consumerCursor 1) r.producerCursor
        rw [hnext]
        exact window_tail hwindow

/-- A pop takes the first item, whatever the cached cursor says. -/
lemma pop_simulates {r : Ring T k} {items : List T} (h : Represents r items)
    (hbelow : r.producerCursor < 2 ^ 64) :
    r.tryPop.1 = items.head? ∧ Represents r.tryPop.2 items.tail := by
  have hhead := h.head_eq
  have hcached := h.cachedHead_le
  have hreload : Represents { r with cachedProducerCursor := r.producerCursor } items :=
    { h with cachedHead_le := Nat.le_refl _ }
  unfold Ring.tryPop
  dsimp only
  cases items with
  | nil =>
    rw [List.length_nil] at hhead
    rw [if_pos (by omega), if_pos (by omega)]
    exact ⟨rfl, hreload⟩
  | cons x items =>
    rw [List.length_cons] at hhead
    by_cases hstale : r.consumerCursor ≥ r.cachedProducerCursor
    · rw [if_pos hstale, if_neg (by omega)]
      exact hreload.takeFront hbelow
    · rw [if_neg hstale]
      exact h.takeFront hbelow

lemma producerCursor_tryPush_le (r : Ring T k) (item : T) :
    (r.tryPush item).2.producerCursor ≤ r.producerCursor + 1 := by
  have hle : add64 r.producerCursor 1 ≤ r.producerCursor + 1 := Nat.mod_le _ _
  unfold Ring.tryPush
  dsimp only
  split
  · split
    · exact Nat.le_succ _
    · exact hle
  · exact hle

lemma producerCursor_tryPop (r : Ring T k) :
    r.tryPop.2.producerCursor = r.producerCursor := by
  unfold Ring.tryPop
  dsimp only
  split
  · split
    · rfl
    · rfl
  · rfl

/-! ## Whole runs -/

inductive Call (T : Type)
  | push (item : T)
  | pop
deriving Repr, DecidableEq

/-- What a call returns. -/
inductive Output (T : Type)
  | pushed (result : Except Unit Unit)
  | popped (item : Option T)

def Ring.call (r : Ring T k) : Call T → Output T × Ring T k
  | .push item => (r.tryPush item).map .pushed id
  | .pop => r.tryPop.map .popped id

/-- The same call on a bounded list: a push drops the newest item. -/
def boundedCall (b : BoundedQueue T k) : Call T → Output T × BoundedQueue T k
  | .push item =>
    let (result, b) := b.push item .dropNewest
    (.pushed (if result = .enqueued then .ok () else .error ()), b)
  | .pop => b.pop.map .popped id

lemma call_simulates {r : Ring T k} {b : BoundedQueue T k} (h : Represents r b.items)
    (hbelow : r.producerCursor + 2 ^ k < 2 ^ 64) (c : Call T) :
    (r.call c).1 = (boundedCall b c).1 ∧ Represents (r.call c).2 (boundedCall b c).2.items := by
  cases c with
  | push item =>
    have hpush := push_simulates h b.bound hbelow item
    simp only [Ring.call, boundedCall, BoundedQueue.push, Prod.map]
    by_cases hroom : b.items.length < 2 ^ k
    · rw [if_pos hroom] at hpush
      rw [dif_pos hroom]
      exact ⟨congrArg Output.pushed hpush.1, hpush.2⟩
    · rw [if_neg hroom] at hpush
      rw [dif_neg hroom]
      exact ⟨congrArg Output.pushed hpush.1, hpush.2⟩
  | pop =>
    obtain ⟨hitem, hnext⟩ := pop_simulates h (Nat.lt_of_le_of_lt (Nat.le_add_right _ _) hbelow)
    exact ⟨congrArg Output.popped hitem, hnext⟩

lemma producerCursor_call_le (r : Ring T k) (c : Call T) :
    (r.call c).2.producerCursor ≤ r.producerCursor + 1 := by
  cases c with
  | push item => exact producerCursor_tryPush_le r item
  | pop => exact (producerCursor_tryPop r).le.trans (Nat.le_succ _)

/-- Any mix of pushes and pops, each call complete before the next: a ring answers like a list
of at most `2 ^ k` items that refuses what does not fit, as long as its cursors do not reach the
end of their words. -/
theorem spsc_refines_bounded_queue [Inhabited T] (k : ℕ) (calls : List (Call T))
    (hbelow : calls.length + 2 ^ k ≤ 2 ^ 64) :
    (Transducer.run Ring.call (Ring.new : Ring T k) calls).1
      = (Transducer.run boundedCall (BoundedQueue.empty : BoundedQueue T k) calls).1 := by
  have hnew : (Ring.new : Ring T k).producerCursor = 0 := rfl
  -- a call moves the head by one at most
  let R (calls : List (Call T)) (r : Ring T k) (b : BoundedQueue T k) : Prop :=
    Represents r b.items ∧ r.producerCursor + calls.length + 2 ^ k ≤ 2 ^ 64
  have hstep : ∀ c calls r b, R (c :: calls) r b →
      (r.call c).1 = (boundedCall b c).1 ∧ R calls (r.call c).2 (boundedCall b c).2 := by
    intro c calls r b ⟨h, hroom⟩
    rw [List.length_cons] at hroom
    have hcall := call_simulates h (by omega) c
    have hcursor := producerCursor_call_le r c
    exact ⟨hcall.1, hcall.2, by omega⟩
  have hinit : R calls Ring.new BoundedQueue.empty := ⟨Represents.new, by omega⟩
  exact (Transducer.run_simulation_ahead (R := R) hstep hinit).1

/-- A ring of two slots refuses the third item, and takes the next one after a pop. -/
theorem spsc_refines_bounded_queue_full :
    (Transducer.run Ring.call (Ring.new : Ring ℕ 1) [.push 1, .push 2, .push 3, .pop, .push 4]).1
      = (Transducer.run boundedCall (BoundedQueue.empty : BoundedQueue ℕ 1)
          [.push 1, .push 2, .push 3, .pop, .push 4]).1 :=
  spsc_refines_bounded_queue 1 [.push 1, .push 2, .push 3, .pop, .push 4] (by decide)

end SpscRingBuffer
end ChainMarketPrice.CoreEngine
