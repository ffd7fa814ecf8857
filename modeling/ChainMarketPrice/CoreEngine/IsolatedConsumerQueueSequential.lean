import ChainMarketPrice.CoreEngine.IsolatedConsumerQueue

/-!
# `IsolatedConsumerQueue` without overlap

Complete calls, one after the other. `pushWithPolicy` and `tryPop` are the calls as wholes, and
`exec_push` and `exec_pop` say that they are what the accesses of a call add up to. A queue that
is used like this is a bounded list with a drop rule, as long as its cursors do not reach the last
lap of their words (`refines_bounded_queue`); there an empty queue refuses a push
(`refuses_last_lap`).
-/

namespace ChainMarketPrice.CoreEngine
namespace IsolatedConsumerQueue

open RingWindow

variable {T : Type} {k : ℕ}

/-! ## The calls as wholes -/

namespace Queue

/-- `IsolatedConsumerQueue::new`. -/
def new [Inhabited T] : Queue T k := (State.new : State T k).queue

/-- The item goes to the slot of the head, and the head behind it. -/
def append (q : Queue T k) (item : T) (result : PushResult) : Queue T k :=
  { q with
    buffer := Function.update q.buffer (slotOf k q.producerCursor.toNat) item
    producerCursor := q.producerCursor + 1
    metrics := q.metrics.recordPush result }

/-- `push_with_policy`. -/
def pushWithPolicy (q : Queue T k) (item : T) (policy : SaturationDropPolicy) :
    PushResult × Queue T k :=
  let currentHead := q.producerCursor
  let cachedTail := q.cachedConsumerCursor
  -- fast path: capacity available
  if currentHead < cachedTail + capacity64 k then (.enqueued, q.append item .enqueued)
  else
    -- potential saturation: reload the consumer cursor
    let actualTail := q.consumerCursor
    let q := { q with cachedConsumerCursor := actualTail }
    if currentHead < actualTail + capacity64 k then (.enqueued, q.append item .enqueued)
    else
      -- saturated: apply the drop policy
      let q :=
        { q with metrics := { q.metrics with saturationEvents := q.metrics.saturationEvents + 1 } }
      match policy with
      | .dropNewest => (.droppedNewest, { q with metrics := q.metrics.recordPush .droppedNewest })
      | .dropOldest =>
        let newTail := actualTail + 1
        let q := { q with consumerCursor := newTail, cachedConsumerCursor := newTail }
        (.evictedOldest, q.append item .evictedOldest)

/-- The end of `try_pop`: the item in the slot of the tail. -/
def takeFront (q : Queue T k) : Option T × Queue T k :=
  (some (q.buffer (slotOf k q.consumerCursor.toNat)),
    { q with
      consumerCursor := q.consumerCursor + 1
      metrics := { q.metrics with totalConsumed := q.metrics.totalConsumed + 1 } })

/-- `try_pop`. -/
def tryPop (q : Queue T k) : Option T × Queue T k :=
  let currentTail := q.consumerCursor
  let cachedHead := q.cachedProducerCursor
  if currentTail ≥ cachedHead then
    let actualHead := q.producerCursor
    let q := { q with cachedProducerCursor := actualHead }
    if currentTail ≥ actualHead then (none, q) else q.takeFront
  else q.takeFront

/-- `len`, a saturating subtraction. -/
def len (q : Queue T k) : ℕ := q.producerCursor.toNat - q.consumerCursor.toNat

end Queue

/-! ## The accesses of a call add up to the call -/

/-- The state with the queue, the results and the accepted items of a complete push. -/
def State.afterPush (s : State T k) (item : T) (policy : SaturationDropPolicy) : State T k :=
  let (result, q) := s.queue.pushWithPolicy item policy
  { s with
    queue := q
    accepted := if result = .droppedNewest then s.accepted else s.accepted ++ [item]
    results := s.results ++ [result] }

def State.afterPop (s : State T k) : State T k :=
  let (item, q) := s.queue.tryPop
  { s with queue := q, popped := s.popped ++ item.toList }

variable [Inhabited T]

lemma exec_push {s : State T k} (hidle : s.push = .idle) (item : T)
    (policy : SaturationDropPolicy) :
    ∃ n, (machine T k).exec s (.callPush item policy :: List.replicate n .push)
      = some (s.afterPush item policy) := by
  obtain ⟨q, push, pop, accepted, results, popped⟩ := s
  have hpush : push = .idle := hidle
  subst hpush
  by_cases hcached : q.producerCursor < q.cachedConsumerCursor + capacity64 k
  · refine ⟨3, ?_⟩
    simp [Machine.exec, machine, step, pushWithPolicyStep, State.afterPush, Queue.pushWithPolicy,
      Queue.append, List.replicate, hcached]
  · by_cases hroom : q.producerCursor < q.consumerCursor + capacity64 k
    · refine ⟨5, ?_⟩
      simp [Machine.exec, machine, step, pushWithPolicyStep, State.afterPush, Queue.pushWithPolicy,
        Queue.append, List.replicate, hcached, hroom]
    · cases policy with
      | dropNewest =>
        refine ⟨3, ?_⟩
        simp [Machine.exec, machine, step, pushWithPolicyStep, State.afterPush,
          Queue.pushWithPolicy, List.replicate, hcached, hroom]
      | dropOldest =>
        refine ⟨7, ?_⟩
        simp [Machine.exec, machine, step, pushWithPolicyStep, State.afterPush,
          Queue.pushWithPolicy, Queue.append, List.replicate, hcached, hroom]

lemma exec_pop {s : State T k} (hidle : s.pop = .idle) :
    ∃ n, (machine T k).exec s (.callPop :: List.replicate n .pop) = some s.afterPop := by
  obtain ⟨q, push, pop, accepted, results, popped⟩ := s
  have hpop : pop = .idle := hidle
  subst hpop
  by_cases hcached : q.consumerCursor ≥ q.cachedProducerCursor
  · by_cases hempty : q.consumerCursor ≥ q.producerCursor
    · refine ⟨3, ?_⟩
      simp [Machine.exec, machine, step, tryPopStep, State.afterPop, Queue.tryPop, List.replicate,
        hcached, hempty]
    · refine ⟨5, ?_⟩
      simp [Machine.exec, machine, step, tryPopStep, State.afterPop, Queue.tryPop, Queue.takeFront,
        List.replicate, hcached, hempty]
  · refine ⟨3, ?_⟩
    simp [Machine.exec, machine, step, tryPopStep, State.afterPop, Queue.tryPop, Queue.takeFront,
      List.replicate, hcached]

/-! ## Bounded lists -/

/-- A list of at most `2 ^ k` items. -/
structure BoundedQueue (T : Type) (k : ℕ) where
  items : List T
  bound : items.length ≤ 2 ^ k

namespace BoundedQueue

def empty : BoundedQueue T k where
  items := []
  bound := Nat.zero_le _

omit [Inhabited T] in
lemma bound_evict {items : List T} (h : items.length ≤ 2 ^ k) (item : T) :
    (items.tail ++ [item]).length ≤ 2 ^ k := by
  have hpos := Nat.two_pow_pos k
  rw [List.length_append, List.length_tail, List.length_singleton]
  omega

/-- A push onto a full list is refused, or removes the head and appends. -/
def push (b : BoundedQueue T k) (item : T) (policy : SaturationDropPolicy) :
    PushResult × BoundedQueue T k :=
  if h : b.items.length < 2 ^ k then
    (.enqueued, { items := b.items ++ [item], bound := by rw [List.length_append]; exact h })
  else
    match policy with
    | .dropNewest => (.droppedNewest, b)
    | .dropOldest =>
      (.evictedOldest, { items := b.items.tail ++ [item], bound := bound_evict b.bound item })

def pop (b : BoundedQueue T k) : Option T × BoundedQueue T k :=
  (b.items.head?,
    { items := b.items.tail
      bound := by rw [List.length_tail]; exact (Nat.sub_le _ _).trans b.bound })

end BoundedQueue

/-! ## Sequences of calls -/

inductive Call (T : Type)
  | push (item : T) (policy : SaturationDropPolicy)
  | pop
deriving Repr, DecidableEq

/-- What a call returns. -/
inductive Output (T : Type)
  | pushed (result : PushResult)
  | popped (item : Option T)
deriving Repr, DecidableEq

/-- A push that was not refused. -/
def Output.isAccepted : Output T → Bool
  | .pushed .enqueued | .pushed .evictedOldest => true
  | .pushed .droppedNewest | .popped _ => false

def Output.isRefused : Output T → Bool
  | .pushed .droppedNewest => true
  | .pushed .enqueued | .pushed .evictedOldest | .popped _ => false

def Output.isPushed : Output T → Bool
  | .pushed _ => true
  | .popped _ => false

def Call.isPush : Call T → Bool
  | .push _ _ => true
  | .pop => false

def Queue.call (q : Queue T k) : Call T → Output T × Queue T k
  | .push item policy => ((q.pushWithPolicy item policy).map .pushed id)
  | .pop => q.tryPop.map .popped id

def BoundedQueue.call (b : BoundedQueue T k) : Call T → Output T × BoundedQueue T k
  | .push item policy => (b.push item policy).map .pushed id
  | .pop => b.pop.map .popped id

/-- A run of calls on a new queue. -/
def runQueue (k : ℕ) (calls : List (Call T)) : List (Output T) × Queue T k :=
  Transducer.run Queue.call .new calls

/-- A run of calls on an empty list. -/
def runList (k : ℕ) (calls : List (Call T)) : List (Output T) × BoundedQueue T k :=
  Transducer.run BoundedQueue.call .empty calls

/-- The queue answers the calls like the bounded list, and its length and counters are those of
the list. -/
structure Refines (k : ℕ) (calls : List (Call T)) : Prop where
  outputs : (runQueue k calls).1 = (runList k calls).1
  len : (runQueue k calls).2.len = (runList k calls).2.items.length
  enqueued : (runQueue k calls).2.metrics.totalEnqueued.toNat
    + (runQueue k calls).2.metrics.totalEvicted.toNat
      = (runQueue k calls).1.countP Output.isAccepted
  consumed : (runQueue k calls).2.metrics.totalConsumed.toNat
    + (runQueue k calls).2.metrics.totalEvicted.toNat + (runQueue k calls).2.len
      = (runQueue k calls).1.countP Output.isAccepted
  saturated : (runQueue k calls).2.metrics.saturationEvents
    = (runQueue k calls).2.metrics.totalDropped + (runQueue k calls).2.metrics.totalEvicted
  saturated_exact : calls.countP Call.isPush < 2 ^ 64 →
    (runQueue k calls).2.metrics.saturationEvents.toNat
      = (runQueue k calls).2.metrics.totalDropped.toNat
        + (runQueue k calls).2.metrics.totalEvicted.toNat

/-! ## The simulation -/

/-- The queue holds the items from its consumer cursor on, its cached cursors lag behind, and its
counters count what moved the cursors. -/
structure Represents (q : Queue T k) (items : List T) : Prop where
  head_eq : q.producerCursor.toNat = q.consumerCursor.toNat + items.length
  cachedTail_le : q.cachedConsumerCursor.toNat ≤ q.consumerCursor.toNat
  cachedHead_le : q.cachedProducerCursor.toNat ≤ q.producerCursor.toNat
  window : ∃ gone : List T, gone.length = q.consumerCursor.toNat ∧
    Window k q.buffer (gone ++ items) q.consumerCursor.toNat q.producerCursor.toNat
  enqueued : q.metrics.totalEnqueued.toNat + q.metrics.totalEvicted.toNat = q.producerCursor.toNat
  consumed : q.metrics.totalConsumed.toNat + q.metrics.totalEvicted.toNat = q.consumerCursor.toNat
  saturated : q.metrics.saturationEvents = q.metrics.totalDropped + q.metrics.totalEvicted

lemma Represents.new : Represents (Queue.new : Queue T k) [] where
  head_eq := rfl
  cachedTail_le := Nat.le_refl 0
  cachedHead_le := Nat.le_refl 0
  window := ⟨[], rfl, Window.empty _ _ _⟩
  enqueued := rfl
  consumed := rfl
  saturated := rfl

omit [Inhabited T]

/-- The slot of the head is free when the list is not full. -/
lemma window_append {buffer : Fin (2 ^ k) → T} {gone items : List T} {tail head : ℕ}
    (h : Window k buffer (gone ++ items) tail head) (hgone : gone.length = tail)
    (hhead : head = tail + items.length) (hroom : items.length < 2 ^ k) (item : T) :
    Window k (Function.update buffer (slotOf k head) item) (gone ++ (items ++ [item])) tail
      (head + 1) := by
  rw [← List.append_assoc]
  apply (h.write (Nat.le_refl _) (by omega) item).publish
  · rw [List.length_append]
    omega
  · exact Function.update_self _ _ _

/-- The first item is no longer in the window when the tail has passed it. -/
lemma window_tail {buffer : Fin (2 ^ k) → T} {gone items : List T} {x : T} {tail head : ℕ}
    (h : Window k buffer (gone ++ x :: items) tail head) :
    Window k buffer ((gone ++ [x]) ++ items) (tail + 1) head := by
  rw [List.append_assoc, List.singleton_append]
  exact h.mono (Nat.le_succ _)

/-- A push with room. -/
lemma Represents.append {q : Queue T k} {items : List T} (h : Represents q items)
    (hroom : items.length < 2 ^ k) (hbelow : q.producerCursor.toNat + 2 ^ k < 2 ^ 64) (item : T) :
    Represents (q.append item .enqueued) (items ++ [item]) := by
  have hhead := h.head_eq
  have henqueued := h.enqueued
  have hcached := h.cachedHead_le
  have hnext : (q.producerCursor + 1).toNat = q.producerCursor.toNat + 1 := toNat_succ (by omega)
  constructor
  · show (q.producerCursor + 1).toNat = q.consumerCursor.toNat + (items ++ [item]).length
    rw [hnext, List.length_append, List.length_singleton]
    omega
  · exact h.cachedTail_le
  · show q.cachedProducerCursor.toNat ≤ (q.producerCursor + 1).toNat
    omega
  · obtain ⟨gone, hgone, hwindow⟩ := h.window
    refine ⟨gone, hgone, ?_⟩
    show Window k _ _ _ (q.producerCursor + 1).toNat
    rw [hnext]
    exact window_append hwindow hgone hhead hroom item
  · show (q.metrics.totalEnqueued + 1).toNat + q.metrics.totalEvicted.toNat
      = (q.producerCursor + 1).toNat
    rw [hnext, toNat_succ (by omega)]
    omega
  · exact h.consumed
  · exact h.saturated

/-- The reload of the consumer cursor. -/
lemma Represents.reloadTail {q : Queue T k} {items : List T} (h : Represents q items) :
    Represents { q with cachedConsumerCursor := q.consumerCursor } items :=
  { h with cachedTail_le := Nat.le_refl _ }

/-- A push onto a full queue that evicts. -/
lemma Represents.evict {q : Queue T k} {items : List T} (h : Represents q items)
    (hfull : items.length = 2 ^ k) (hbelow : q.producerCursor.toNat + 2 ^ k < 2 ^ 64) (item : T) :
    Represents
      (Queue.append
        { q with
          metrics := { q.metrics with saturationEvents := q.metrics.saturationEvents + 1 }
          consumerCursor := q.consumerCursor + 1
          cachedConsumerCursor := q.consumerCursor + 1 }
        item .evictedOldest)
      (items.tail ++ [item]) := by
  -- a full list of capacity `2 ^ k` is not empty
  have hpos := Nat.two_pow_pos k
  obtain ⟨x, items, rfl⟩ := List.exists_cons_of_ne_nil (List.length_pos_iff.mp (hfull ▸ hpos))
  have hhead := h.head_eq
  have henqueued := h.enqueued
  have hconsumed := h.consumed
  have hcached := h.cachedHead_le
  rw [List.length_cons] at hhead hfull
  have hnext : (q.producerCursor + 1).toNat = q.producerCursor.toNat + 1 := toNat_succ (by omega)
  have htail : (q.consumerCursor + 1).toNat = q.consumerCursor.toNat + 1 := toNat_succ (by omega)
  have hevicted : (q.metrics.totalEvicted + 1).toNat = q.metrics.totalEvicted.toNat + 1 :=
    toNat_succ (by omega)
  constructor
  · show (q.producerCursor + 1).toNat = (q.consumerCursor + 1).toNat + (items ++ [item]).length
    rw [hnext, htail, List.length_append, List.length_singleton]
    omega
  · exact Nat.le_refl _
  · show q.cachedProducerCursor.toNat ≤ (q.producerCursor + 1).toNat
    omega
  -- the evicted item joins those that are gone
  · obtain ⟨gone, hgone, hwindow⟩ := h.window
    have hgone' : (gone ++ [x]).length = q.consumerCursor.toNat + 1 := by
      rw [List.length_append, hgone]
      rfl
    refine ⟨gone ++ [x], hgone'.trans htail.symm, ?_⟩
    show Window k _ _ (q.consumerCursor + 1).toNat (q.producerCursor + 1).toNat
    rw [hnext, htail]
    exact window_append (window_tail hwindow) hgone' (by omega) (by omega) item
  · show q.metrics.totalEnqueued.toNat + (q.metrics.totalEvicted + 1).toNat
      = (q.producerCursor + 1).toNat
    omega
  · show q.metrics.totalConsumed.toNat + (q.metrics.totalEvicted + 1).toNat
      = (q.consumerCursor + 1).toNat
    omega
  · show q.metrics.saturationEvents + 1 = q.metrics.totalDropped + (q.metrics.totalEvicted + 1)
    rw [h.saturated, UInt64.add_assoc]

/-- A push answers like the bounded list, through either path and for either policy. -/
lemma push_simulates {q : Queue T k} {b : BoundedQueue T k} (h : Represents q b.items) (item : T)
    (policy : SaturationDropPolicy)
    (hbelow : (b.push item policy).1 ≠ .droppedNewest →
      q.producerCursor.toNat + 2 ^ k < 2 ^ 64) :
    (q.pushWithPolicy item policy).1 = (b.push item policy).1 ∧
      Represents (q.pushWithPolicy item policy).2 (b.push item policy).2.items := by
  have hhead := h.head_eq
  have hbound := b.bound
  have hcached := h.cachedTail_le
  have hword := q.producerCursor.toNat_lt
  unfold Queue.pushWithPolicy
  unfold BoundedQueue.push at hbelow ⊢
  dsimp only
  by_cases hroom : b.items.length < 2 ^ k
  · rw [dif_pos hroom] at hbelow ⊢
    have hbelow := hbelow nofun
    have hroom' : q.producerCursor < q.consumerCursor + capacity64 k := by
      rw [lt_add_capacity64_iff (by omega)]
      omega
    -- the remembered cursor may hide the room, and then the real one is loaded
    by_cases hfast : q.producerCursor < q.cachedConsumerCursor + capacity64 k
    · rw [if_pos hfast]
      exact ⟨rfl, h.append hroom hbelow item⟩
    · rw [if_neg hfast, if_pos hroom']
      exact ⟨rfl, h.reloadTail.append hroom hbelow item⟩
  · have hfull : ∀ tail : UInt64, tail.toNat ≤ q.consumerCursor.toNat →
        ¬ q.producerCursor < tail + capacity64 k := by
      intro tail htail
      rw [lt_add_capacity64_iff (by omega)]
      omega
    rw [dif_neg hroom] at hbelow ⊢
    rw [if_neg (hfull _ hcached), if_neg (hfull _ (Nat.le_refl _))]
    cases policy with
    | dropNewest =>
      refine ⟨rfl, { h.reloadTail with saturated := ?_ }⟩
      show q.metrics.saturationEvents + 1 = q.metrics.totalDropped + 1 + q.metrics.totalEvicted
      rw [h.saturated, UInt64.add_assoc, UInt64.add_assoc, UInt64.add_comm q.metrics.totalEvicted]
    | dropOldest => exact ⟨rfl, h.evict (by omega) (hbelow nofun) item⟩

/-- A pop of a queue that is not empty. -/
lemma Represents.takeFront {q : Queue T k} {x : T} {items : List T}
    (h : Represents q (x :: items)) :
    q.takeFront.1 = some x ∧ Represents q.takeFront.2 items := by
  have hhead := h.head_eq
  have hconsumed := h.consumed
  have hcached := h.cachedTail_le
  rw [List.length_cons] at hhead
  have htail : (q.consumerCursor + 1).toNat = q.consumerCursor.toNat + 1 :=
    toNat_succ_of_lt (y := q.producerCursor) (by omega)
  obtain ⟨gone, hgone, hwindow⟩ := h.window
  constructor
  · have hfirst := hwindow q.consumerCursor.toNat (Nat.le_refl _) (by omega)
    rw [List.getElem?_append_right (by omega), hgone, Nat.sub_self, List.getElem?_cons_zero]
      at hfirst
    exact hfirst.symm
  · constructor
    · show q.producerCursor.toNat = (q.consumerCursor + 1).toNat + items.length
      omega
    · show q.cachedConsumerCursor.toNat ≤ (q.consumerCursor + 1).toNat
      omega
    · exact h.cachedHead_le
    · refine ⟨gone ++ [x], ?_, ?_⟩
      · show (gone ++ [x]).length = (q.consumerCursor + 1).toNat
        rw [htail, List.length_append, hgone]
        rfl
      · show Window k _ _ (q.consumerCursor + 1).toNat _
        rw [htail]
        exact window_tail hwindow
    · exact h.enqueued
    · have hword := q.producerCursor.toNat_lt
      show (q.metrics.totalConsumed + 1).toNat + q.metrics.totalEvicted.toNat
        = (q.consumerCursor + 1).toNat
      rw [toNat_succ (by omega)]
      omega
    · exact h.saturated

/-- A pop answers like the bounded list, whatever the cached cursor says. -/
lemma pop_simulates {q : Queue T k} {b : BoundedQueue T k} (h : Represents q b.items) :
    q.tryPop.1 = b.pop.1 ∧ Represents q.tryPop.2 b.pop.2.items := by
  have hhead := h.head_eq
  have hcached := h.cachedHead_le
  have hreload : Represents { q with cachedProducerCursor := q.producerCursor } b.items :=
    { h with cachedHead_le := Nat.le_refl _ }
  have hge : ∀ head : UInt64, q.consumerCursor ≥ head ↔ head.toNat ≤ q.consumerCursor.toNat :=
    fun _ => UInt64.le_iff_toNat_le
  unfold Queue.tryPop BoundedQueue.pop
  dsimp only
  cases hitems : b.items with
  | nil =>
    rw [hitems] at hhead hreload
    rw [List.length_nil] at hhead
    rw [if_pos ((hge _).mpr (by omega)), if_pos ((hge _).mpr (by omega))]
    exact ⟨rfl, hreload⟩
  | cons x items =>
    rw [hitems] at h hhead hreload
    rw [List.length_cons] at hhead
    have hwaiting : ¬ q.consumerCursor ≥ q.producerCursor := by
      rw [hge]
      omega
    by_cases hstale : q.consumerCursor ≥ q.cachedProducerCursor
    · rw [if_pos hstale, if_neg hwaiting]
      exact hreload.takeFront
    · rw [if_neg hstale]
      exact h.takeFront

/-! ## Whole runs -/

lemma call_simulates {q : Queue T k} {b : BoundedQueue T k} (c : Call T)
    (h : Represents q b.items)
    (hbelow : (b.call c).1.isAccepted = true → q.producerCursor.toNat + 2 ^ k < 2 ^ 64) :
    (q.call c).1 = (b.call c).1 ∧ Represents (q.call c).2 (b.call c).2.items := by
  cases c with
  | push item policy =>
    have haccepted : ∀ result, result ≠ .droppedNewest →
        (Output.pushed result : Output T).isAccepted = true := by
      intro result hresult
      cases result with
      | droppedNewest => exact absurd rfl hresult
      | _ => rfl
    obtain ⟨hresult, hnext⟩ := push_simulates h item policy fun hne => hbelow (haccepted _ hne)
    exact ⟨congrArg Output.pushed hresult, hnext⟩
  | pop =>
    obtain ⟨hitem, hnext⟩ := pop_simulates h
    exact ⟨congrArg Output.popped hitem, hnext⟩

/-- What a call does to a counter of its own kind of outputs, a run does as often as there are
such outputs. -/
lemma counter_run (counter : Queue T k → UInt64) (counted : Output T → Bool)
    (hcall : ∀ q c, counter (q.call c).2
      = counter q + UInt64.ofNat (counted (q.call c).1).toNat)
    (q : Queue T k) (calls : List (Call T)) :
    counter (Transducer.run Queue.call q calls).2
      = counter q + UInt64.ofNat ((Transducer.run Queue.call q calls).1.countP counted) := by
  induction calls generalizing q with
  | nil => exact (UInt64.add_zero _).symm
  | cons c calls ih =>
    have hnext := ih (q.call c).2
    rw [Transducer.run, List.countP_cons]
    refine hnext.trans ?_
    rw [hcall, UInt64.add_assoc, ← UInt64.ofNat_add, Nat.add_comm]
    cases counted (q.call c).1 <;> rfl

/-- On a new queue it is that number, until it wraps. -/
lemma toNat_counter [Inhabited T] (counter : Queue T k → UInt64) {counted : Output T → Bool}
    (hcall : ∀ q c, counter (q.call c).2
      = counter q + UInt64.ofNat (counted (q.call c).1).toNat)
    (hnew : counter .new = 0) {calls : List (Call T)}
    (hfew : (runQueue k calls).1.countP counted < 2 ^ 64) :
    (counter (runQueue k calls).2).toNat = (runQueue k calls).1.countP counted := by
  have hrun := counter_run counter counted hcall Queue.new calls
  rw [runQueue, hrun, hnew, UInt64.zero_add, UInt64.toNat_ofNat']
  exact Nat.mod_eq_of_lt hfew

/-- The producer cursor counts the accepted pushes. -/
lemma producerCursor_call (q : Queue T k) (c : Call T) :
    (q.call c).2.producerCursor
      = q.producerCursor + UInt64.ofNat (q.call c).1.isAccepted.toNat := by
  cases c with
  | push item policy =>
    unfold Queue.call Queue.pushWithPolicy
    dsimp only
    split_ifs
    · rfl
    · rfl
    · cases policy with
      | dropNewest => exact (UInt64.add_zero _).symm
      | dropOldest => rfl
  | pop =>
    unfold Queue.call Queue.tryPop
    dsimp only
    split_ifs <;> exact (UInt64.add_zero _).symm

/-- A counter counts the refused ones. -/
lemma totalDropped_call (q : Queue T k) (c : Call T) :
    (q.call c).2.metrics.totalDropped
      = q.metrics.totalDropped + UInt64.ofNat (q.call c).1.isRefused.toNat := by
  cases c with
  | push item policy =>
    unfold Queue.call Queue.pushWithPolicy
    dsimp only
    split_ifs
    · exact (UInt64.add_zero _).symm
    · exact (UInt64.add_zero _).symm
    · cases policy with
      | dropNewest => rfl
      | dropOldest => exact (UInt64.add_zero _).symm
  | pop =>
    unfold Queue.call Queue.tryPop
    dsimp only
    split_ifs <;> exact (UInt64.add_zero _).symm

/-- A push is accepted or refused. -/
lemma countP_isPushed (outputs : List (Output T)) :
    outputs.countP Output.isAccepted + outputs.countP Output.isRefused
      = outputs.countP Output.isPushed := by
  induction outputs with
  | nil => rfl
  | cons out outputs ih =>
    have hout : (if out.isAccepted = true then 1 else 0) + (if out.isRefused = true then 1 else 0)
        = if out.isPushed = true then 1 else 0 := by
      cases out with
      | pushed result => cases result <;> rfl
      | popped item => rfl
    rw [List.countP_cons, List.countP_cons, List.countP_cons]
    omega

/-- What answers pushes as pushes does so over every run. -/
lemma pushes_run {σ : Type} {f : σ → Call T → Output T × σ}
    (hcall : ∀ s c, (f s c).1.isPushed = c.isPush) (s : σ) (calls : List (Call T)) :
    (Transducer.run f s calls).1.countP Output.isPushed = calls.countP Call.isPush := by
  induction calls generalizing s with
  | nil => rfl
  | cons c calls ih => rw [Transducer.run, List.countP_cons, List.countP_cons, ih, hcall]

lemma Queue.isPushed_call (q : Queue T k) (c : Call T) : (q.call c).1.isPushed = c.isPush := by
  cases c <;> rfl

lemma BoundedQueue.isPushed_call (b : BoundedQueue T k) (c : Call T) :
    (b.call c).1.isPushed = c.isPush := by
  cases c <;> rfl

/-- A sequence of complete calls is one of the interleavings of the two sides. -/
theorem exists_exec_run [Inhabited T] (calls : List (Call T)) {s : State T k}
    (hpush : s.push = .idle) (hpop : s.pop = .idle) :
    ∃ actions s', (machine T k).exec s actions = some s' ∧
      s'.queue = (Transducer.run Queue.call s.queue calls).2 ∧
      s'.push = .idle ∧ s'.pop = .idle := by
  induction calls generalizing s with
  | nil => exact ⟨[], s, rfl, rfl, hpush, hpop⟩
  | cons c calls ih =>
    cases c with
    | push item policy =>
      obtain ⟨n, hexec⟩ := exec_push hpush item policy
      obtain ⟨actions, s', hrest, hqueue, hidle⟩ := ih (s := s.afterPush item policy) hpush hpop
      refine ⟨(.callPush item policy :: List.replicate n .push) ++ actions, s', ?_, hqueue, hidle⟩
      rw [Machine.exec_append, hexec]
      exact hrest
    | pop =>
      obtain ⟨n, hexec⟩ := exec_pop hpop
      obtain ⟨actions, s', hrest, hqueue, hidle⟩ := ih (s := s.afterPop) hpush hpop
      refine ⟨(.callPop :: List.replicate n .pop) ++ actions, s', ?_, hqueue, hidle⟩
      rw [Machine.exec_append, hexec]
      exact hrest

/-- As long as the list accepts at most `2 ^ 64 - 2 ^ k` pushes, the queue answers like the list
and represents it. -/
lemma represents_run [Inhabited T] (k : ℕ) (calls : List (Call T))
    (hbelow : (runList k calls).1.countP Output.isAccepted + 2 ^ k ≤ 2 ^ 64) :
    (runQueue k calls).1 = (runList k calls).1 ∧
      Represents (runQueue k calls).2 (runList k calls).2.items := by
  let R (calls : List (Call T)) (q : Queue T k) (b : BoundedQueue T k) : Prop :=
    Represents q b.items ∧ q.producerCursor.toNat
      + (Transducer.run BoundedQueue.call b calls).1.countP Output.isAccepted + 2 ^ k ≤ 2 ^ 64
  have hstep : ∀ c calls q b, R (c :: calls) q b →
      (q.call c).1 = (b.call c).1 ∧ R calls (q.call c).2 (b.call c).2 := by
    intro c calls q b ⟨hrepresents, hroom⟩
    rw [Transducer.run, List.countP_cons] at hroom
    have hpos := Nat.two_pow_pos k
    obtain ⟨hanswer, hnext⟩ := call_simulates c hrepresents fun haccepted => by
      rw [if_pos haccepted] at hroom
      omega
    refine ⟨hanswer, hnext, ?_⟩
    rw [producerCursor_call, hanswer]
    cases haccepted : (b.call c).1.isAccepted with
    | true =>
      rw [haccepted, if_pos rfl] at hroom
      have hcursor : (q.producerCursor + UInt64.ofNat true.toNat).toNat
          = q.producerCursor.toNat + 1 := toNat_succ (by omega)
      omega
    | false =>
      have hcursor : q.producerCursor + UInt64.ofNat false.toNat = q.producerCursor :=
        UInt64.add_zero _
      rw [haccepted, if_neg Bool.false_ne_true] at hroom
      rw [hcursor]
      omega
  obtain ⟨hanswers, hlast, -⟩ := Transducer.run_simulation_ahead (R := R) hstep
    (show R calls .new .empty from ⟨Represents.new, by
      show 0 + (runList k calls).1.countP Output.isAccepted + 2 ^ k ≤ 2 ^ 64
      omega⟩)
  exact ⟨hanswers, hlast⟩

/-- Any mix of policies, pushes and pops, each call complete before the next: the queue answers
like a bounded list, and its length and counters are those of the list, as long as the list
accepts at most `2 ^ 64 - 2 ^ k` pushes. -/
theorem refines_bounded_queue [Inhabited T] (k : ℕ) (calls : List (Call T))
    (hbelow : (runList k calls).1.countP Output.isAccepted + 2 ^ k ≤ 2 ^ 64) :
    Refines k calls := by
  obtain ⟨houtputs, hlast⟩ := represents_run k calls hbelow
  rw [← houtputs] at hbelow
  have hpos := Nat.two_pow_pos k
  have haccepted : (runQueue k calls).2.producerCursor.toNat
      = (runQueue k calls).1.countP Output.isAccepted :=
    toNat_counter Queue.producerCursor producerCursor_call rfl (by omega)
  have hhead := hlast.head_eq
  have henqueued := hlast.enqueued
  have hconsumed := hlast.consumed
  have hlen : (runQueue k calls).2.len = (runList k calls).2.items.length := by
    unfold Queue.len
    omega
  refine ⟨houtputs, hlen, henqueued.trans haccepted, by omega, hlast.saturated, fun hfew => ?_⟩
  have hcount : (runQueue k calls).1.countP Output.isAccepted
      + (runQueue k calls).1.countP Output.isRefused = calls.countP Call.isPush :=
    (countP_isPushed _).trans (pushes_run Queue.isPushed_call _ _)
  have hdropped : (runQueue k calls).2.metrics.totalDropped.toNat
      = (runQueue k calls).1.countP Output.isRefused :=
    toNat_counter (fun q => q.metrics.totalDropped) totalDropped_call rfl (by omega)
  rw [hlast.saturated, UInt64.toNat_add]
  exact Nat.mod_eq_of_lt (by omega)

/-- Capacity 2: the third push evicts, the last one is refused. -/
def evictAndRefuse : List (Call ℕ) :=
  [.push 1 .dropOldest, .push 2 .dropOldest, .push 3 .dropOldest, .pop, .push 4 .dropNewest,
    .push 5 .dropNewest]

theorem refines_bounded_queue_evictAndRefuse : Refines 1 evictAndRefuse :=
  refines_bounded_queue 1 evictAndRefuse (by decide)

/-! ## The last lap -/

/-- One push and one pop at a time. -/
def rounds (n : ℕ) : List (Call Unit) := (List.replicate n [.push () .dropNewest, .pop]).flatten

/-- The list is empty after each round. -/
lemma runList_rounds (n : ℕ) :
    runList 0 (rounds n)
      = ((List.replicate n [.pushed .enqueued, .popped (some ())]).flatten, .empty) := by
  induction n with
  | zero => rfl
  | succ n ih =>
    have hround : runList 0 [Call.push () .dropNewest, .pop]
        = ([.pushed .enqueued, .popped (some ())], .empty) := rfl
    unfold rounds runList at ih ⊢
    unfold runList at hround
    rw [List.replicate_succ, List.flatten_cons, Transducer.run_append, hround, ih]
    rfl

lemma countP_rounds (n : ℕ) : (runList 0 (rounds n)).1.countP Output.isAccepted = n := by
  rw [runList_rounds, List.countP_flatten, List.map_replicate, List.sum_replicate_nat]
  exact Nat.mul_one n

/-- No sum is above the last word. -/
lemma pushWithPolicy_last {q : Queue Unit 0} (h : q.producerCursor.toNat + 1 = 2 ^ 64) :
    (q.pushWithPolicy () .dropNewest).1 = .droppedNewest := by
  have hlast : ∀ x : UInt64, ¬ q.producerCursor < x := by
    intro x
    have hlt := x.toNat_lt
    rw [UInt64.lt_iff_toNat_lt]
    omega
  unfold Queue.pushWithPolicy
  dsimp only
  rw [if_neg (hlast _), if_neg (hlast _)]

lemma not_refines_rounds {n : ℕ} (hn : n + 1 = 2 ^ 64) :
    ¬ Refines 0 (rounds n ++ [.push () .dropNewest]) := by
  intro h
  have hbelow : (runList 0 (rounds n)).1.countP Output.isAccepted + 2 ^ 0 ≤ 2 ^ 64 := by
    rw [countP_rounds]
    exact hn.le
  obtain ⟨hrounds, -⟩ := represents_run 0 (rounds n) hbelow
  have hcursor : (runQueue 0 (rounds n)).2.producerCursor.toNat + 1 = 2 ^ 64 := by
    have hcount : (runQueue 0 (rounds n)).1.countP Output.isAccepted = n := by
      rw [hrounds, countP_rounds]
    rw [toNat_counter Queue.producerCursor producerCursor_call rfl (by omega), hcount, hn]
  have hqueue : (runQueue 0 (rounds n ++ [.push () .dropNewest])).1
      = (runQueue 0 (rounds n)).1 ++ [.pushed .droppedNewest] := by
    have hpush := congrArg (Output.pushed (T := Unit)) (pushWithPolicy_last hcursor)
    unfold runQueue at hpush ⊢
    rw [Transducer.run_append]
    exact congrArg (fun out : Output Unit => _ ++ [out]) hpush
  have hlist : (runList 0 (rounds n ++ [.push () .dropNewest])).1
      = (runList 0 (rounds n)).1 ++ [.pushed .enqueued] := by
    have hempty := congrArg Prod.snd (runList_rounds n)
    unfold runList at hempty ⊢
    rw [Transducer.run_append, hempty]
    rfl
  have houtputs := h.outputs
  rw [hqueue, hlist, hrounds, List.append_cancel_left_eq] at houtputs
  cases houtputs

/-- After `2 ^ 64 - 1` rounds the empty queue of one slot refuses a push. -/
theorem refuses_last_lap :
    ¬ ∀ (T : Type) (_ : Inhabited T) (k : ℕ), k < 64 → ∀ calls : List (Call T),
      Refines k calls := by
  intro h
  exact not_refines_rounds (n := 2 ^ 64 - 1) (by decide) (h Unit inferInstance 0 (by decide) _)

end IsolatedConsumerQueue
end ChainMarketPrice.CoreEngine
