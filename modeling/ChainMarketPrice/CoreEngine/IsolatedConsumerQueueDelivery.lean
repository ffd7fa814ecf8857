import ChainMarketPrice.CoreEngine.IsolatedConsumerQueueSequential
import ChainMarketPrice.CoreEngine.IsolatedConsumerQueueTheorems

/-!
# What an `IsolatedConsumerQueue` hands out

What comes out of the queue against what went in. Without overlap the items that are missing are
in the queue or counted, whatever the policies (`delivers`). A producer that only refuses never
stores the consumer's cursor; then, in every interleaving, what comes out is the beginning of what
was accepted (`Refusing`).
-/

namespace ChainMarketPrice.CoreEngine
namespace IsolatedConsumerQueue

variable {T : Type} {k : ℕ}

/-! ## Complete calls -/

/-- The item that a call brings. -/
def Call.item? : Call T → Option T
  | .push item _ => some item
  | .pop => none

/-- The item that a call hands out. -/
def Output.item? : Output T → Option T
  | .pushed _ => none
  | .popped item => item

def offered (calls : List (Call T)) : List T := calls.filterMap Call.item?

def received (outputs : List (Output T)) : List T := outputs.filterMap Output.item?

lemma offered_cons (c : Call T) (calls : List (Call T)) :
    offered (c :: calls) = c.item?.toList ++ offered calls := by
  unfold offered
  rw [List.filterMap_eq_flatMap_toList, List.filterMap_eq_flatMap_toList, List.flatMap_cons]

lemma received_cons (out : Output T) (outputs : List (Output T)) :
    received (out :: outputs) = out.item?.toList ++ received outputs := by
  unfold received
  rw [List.filterMap_eq_flatMap_toList, List.filterMap_eq_flatMap_toList, List.flatMap_cons]

/-- Every push brings one item. -/
lemma length_offered (calls : List (Call T)) :
    (offered calls).length = calls.countP Call.isPush := by
  have hpush : (fun c : Call T => c.item?.isSome) = Call.isPush := by
    funext c
    cases c <;> rfl
  rw [offered, List.length_filterMap_eq_countP, hpush]

namespace BoundedQueue

/-- A call may lose an item, but it does not change the order. -/
lemma call_sublist (b : BoundedQueue T k) (c : Call T) :
    ((b.call c).1.item?.toList ++ (b.call c).2.items).Sublist (b.items ++ c.item?.toList) := by
  cases c with
  | push item policy =>
    show ((b.push item policy).2.items).Sublist (b.items ++ [item])
    unfold push
    by_cases hroom : b.items.length < 2 ^ k
    · rw [dif_pos hroom]
    · rw [dif_neg hroom]
      cases policy with
      | dropNewest => exact List.sublist_append_left _ _
      | dropOldest => exact (List.tail_sublist _).append_right _
  | pop =>
    show (b.items.head?.toList ++ b.items.tail).Sublist (b.items ++ [])
    rw [List.append_nil]
    cases b.items with
    | nil => exact .refl _
    | cons x items => exact .refl _

lemma run_sublist (b : BoundedQueue T k) (calls : List (Call T)) :
    (received (Transducer.run call b calls).1 ++ (Transducer.run call b calls).2.items).Sublist
      (b.items ++ offered calls) := by
  induction calls generalizing b with
  | nil => exact List.sublist_append_left _ _
  | cons c calls ih =>
    rw [Transducer.run, received_cons, offered_cons, List.append_assoc, ← List.append_assoc b.items]
    refine ((ih (b.call c).2).append_left _).trans ?_
    rw [← List.append_assoc]
    exact (call_sublist b c).append_right _

end BoundedQueue

/-- A counter counts the items that are handed out. -/
lemma totalConsumed_call (q : Queue T k) (c : Call T) :
    (q.call c).2.metrics.totalConsumed
      = q.metrics.totalConsumed + UInt64.ofNat (q.call c).1.item?.isSome.toNat := by
  cases c with
  | push item policy =>
    unfold Queue.call Queue.pushWithPolicy
    dsimp only
    split_ifs
    · exact (UInt64.add_zero _).symm
    · exact (UInt64.add_zero _).symm
    · cases policy <;> exact (UInt64.add_zero _).symm
  | pop =>
    unfold Queue.call Queue.tryPop
    dsimp only
    split_ifs
    · exact (UInt64.add_zero _).symm
    · rfl
    · rfl

/-- What a consumer gets out of its queue. -/
structure Delivers (q : Queue T k) (pushed popped : List T) : Prop where
  inOrder : popped.Sublist pushed
  missing : popped.length + q.len + q.metrics.totalDropped.toNat + q.metrics.totalEvicted.toNat
    = pushed.length
  complete : q.metrics.totalDropped = 0 → q.metrics.totalEvicted = 0 → popped <+: pushed

lemma delivers [Inhabited T] {k : ℕ} {calls : List (Call T)}
    (hbelow : (offered calls).length + 2 ^ k ≤ 2 ^ 64) :
    Delivers (runQueue k calls).2 (offered calls) (received (runQueue k calls).1) := by
  have hpushes : ∀ outputs : List (Output T), outputs.countP Output.isPushed
      = (offered calls).length → outputs.countP Output.isAccepted
        + outputs.countP Output.isRefused = (offered calls).length := fun outputs h =>
    (countP_isPushed outputs).trans h
  have hlist := hpushes _
    ((pushes_run BoundedQueue.isPushed_call (.empty : BoundedQueue T k) calls).trans
      (length_offered calls).symm)
  have hqueue := hpushes _
    ((pushes_run Queue.isPushed_call (.new : Queue T k) calls).trans (length_offered calls).symm)
  obtain ⟨houtputs, hlast⟩ := represents_run k calls (by unfold runList; omega)
  have hsublist := BoundedQueue.run_sublist (.empty : BoundedQueue T k) calls
  have hpos := Nat.two_pow_pos k
  unfold runList at houtputs hlast
  rw [← houtputs] at hsublist
  rw [← runQueue] at hqueue
  generalize (Transducer.run BoundedQueue.call (.empty : BoundedQueue T k) calls).2 = b at *
  have hshort := hsublist.length_le
  have hempty : (BoundedQueue.empty : BoundedQueue T k).items = [] := rfl
  rw [hempty, List.nil_append] at hsublist hshort
  rw [List.length_append, received, List.length_filterMap_eq_countP] at hshort
  -- no counter wraps, and so each is the number of outputs of its kind
  have haccepted := toNat_counter Queue.producerCursor producerCursor_call rfl
    (show (runQueue k calls).1.countP Output.isAccepted < 2 ^ 64 by omega)
  have hdropped := toNat_counter (fun q => q.metrics.totalDropped) totalDropped_call rfl
    (show (runQueue k calls).1.countP Output.isRefused < 2 ^ 64 by omega)
  have hreceived := toNat_counter (fun q => q.metrics.totalConsumed) totalConsumed_call rfl
    (show (runQueue k calls).1.countP (fun out => out.item?.isSome) < 2 ^ 64 by omega)
  rw [← List.length_filterMap_eq_countP, ← received] at hreceived
  have hhead := hlast.head_eq
  have henqueued := hlast.enqueued
  have hconsumed := hlast.consumed
  have hlen : (runQueue k calls).2.len = b.items.length := by
    unfold Queue.len
    omega
  have hmissing : (received (runQueue k calls).1).length + (runQueue k calls).2.len
      + (runQueue k calls).2.metrics.totalDropped.toNat
      + (runQueue k calls).2.metrics.totalEvicted.toNat = (offered calls).length := by
    omega
  refine ⟨(List.sublist_append_left _ _).trans hsublist, hmissing, fun hnone hnone' => ?_⟩
  -- without a loss, what came out and what is left is all there was
  rw [hnone, hnone', hlen] at hmissing
  have hall := hsublist.eq_of_length (by rw [List.length_append]; exact hmissing)
  rw [← hall]
  exact List.prefix_append _ _

/-! ## Overlapping calls of a producer that only refuses -/

/-- The item of a push that begins. -/
def Action.item? : Action T → Option T
  | .callPush item _ => some item
  | .push | .callPop | .pop => none

/-- The items of the pushes that have begun. -/
def begun (actions : List (Action T)) : List T := actions.filterMap Action.item?

lemma begun_cons (a : Action T) (actions : List (Action T)) :
    begun (a :: actions) = a.item?.toList ++ begun actions := by
  unfold begun
  rw [List.filterMap_eq_flatMap_toList, List.filterMap_eq_flatMap_toList, List.flatMap_cons]

/-- The item of a push in progress. -/
def PushPc.item? : PushPc T → Option T
  | .idle => none
  | .loadCachedTail item _ _ | .loadTail item _ _ | .storeCachedTail item _ _ _
  | .evictTail item _ _ | .storeEvictedTail item _ _ | .writeSlot item _ _
  | .storeHead item _ _ => some item

/-- A push that begins refuses when the queue is full. -/
def Action.Refuses : Action T → Prop
  | .callPush _ policy => policy = .dropNewest
  | .push | .callPop | .pop => True

/-- So does a push in progress. -/
def PushPc.Refuses : PushPc T → Prop
  | .loadCachedTail _ policy _ | .loadTail _ policy _ | .storeCachedTail _ policy _ _ =>
    policy = .dropNewest
  | .evictTail _ _ _ | .storeEvictedTail _ _ _ => False
  | .writeSlot _ _ result => result ≠ .evictedOldest
  | .idle | .storeHead _ _ _ => True

lemma PushPc.Refuses.safe {s : State T k} (h : s.push.Refuses) : Safe s .push := by
  unfold Safe
  dsimp only
  cases hpc : s.push with
  | evictTail item head tail => exact (hpc ▸ h : PushPc.Refuses (.evictTail item head tail)).elim
  | writeSlot item head result =>
    cases result with
    | evictedOldest => exact absurd rfl (hpc ▸ h : PushPc.Refuses (.writeSlot item head _))
    | _ => trivial
  | _ => trivial

/-- What an access of such a producer does: the item of the push stays where it is, or goes to
the accepted ones, or is refused. -/
structure Advances (s s' : State T k) : Prop where
  refuses : s'.push.Refuses
  tail : s'.queue.consumerCursor = s.queue.consumerCursor
  pop : s'.pop = s.pop
  popped : s'.popped = s.popped
  refused : .droppedNewest ∈ s.results → .droppedNewest ∈ s'.results
  items : s'.accepted ++ s'.push.item?.toList = s.accepted ++ s.push.item?.toList ∨
    (s'.accepted = s.accepted ∧ s'.push = .idle ∧ .droppedNewest ∈ s'.results)

lemma advances {s s' : State T k} (h : s.push.Refuses) (hs : pushWithPolicyStep s = some s') :
    Advances s s' := by
  unfold pushWithPolicyStep at hs
  cases hpc : s.push with
  | idle => simp [hpc] at hs
  | loadCachedTail item policy head =>
    rw [hpc] at h hs
    dsimp only at hs
    split at hs
    · cases hs
      exact ⟨nofun, rfl, rfl, rfl, id, .inl (by rw [hpc]; rfl)⟩
    · cases hs
      exact ⟨h, rfl, rfl, rfl, id, .inl (by rw [hpc]; rfl)⟩
  | loadTail item policy head =>
    rw [hpc] at h hs
    cases hs
    exact ⟨h, rfl, rfl, rfl, id, .inl (by rw [hpc]; rfl)⟩
  | storeCachedTail item policy head tail =>
    rw [hpc] at h hs
    dsimp only at hs
    split at hs
    · cases hs
      exact ⟨nofun, rfl, rfl, rfl, id, .inl (by rw [hpc]; rfl)⟩
    · cases h
      cases hs
      exact ⟨trivial, rfl, rfl, rfl, List.mem_append_left _,
        .inr ⟨rfl, rfl, List.mem_append_right _ (List.mem_singleton.mpr rfl)⟩⟩
  | evictTail item head tail =>
    rw [hpc] at h
    exact h.elim
  | storeEvictedTail item head tail =>
    rw [hpc] at h
    exact h.elim
  | writeSlot item head result =>
    rw [hpc] at hs
    cases hs
    exact ⟨trivial, rfl, rfl, rfl, id, .inl (by rw [hpc]; rfl)⟩
  | storeHead item head result =>
    rw [hpc] at hs
    cases hs
    refine ⟨trivial, rfl, rfl, rfl, List.mem_append_left _, .inl ?_⟩
    rw [hpc]
    exact List.append_nil _

/-- The invariant of its runs, with the items of the pushes that have begun. -/
structure Refusing (s : State T k) (items : List T) : Prop where
  inv : Inv s
  refuses : s.push.Refuses
  length_popped : s.popped.length = s.queue.consumerCursor.toNat
  loaded : ∀ tail ∈ s.pop.loaded, tail = s.queue.consumerCursor
  taken : (s.accepted ++ s.push.item?.toList).Sublist items
  complete : .droppedNewest ∉ s.results → s.accepted ++ s.push.item?.toList = items

lemma Refusing.new [Inhabited T] : Refusing (State.new : State T k) [] where
  inv := .new
  refuses := trivial
  length_popped := rfl
  loaded := nofun
  taken := .refl _
  complete := fun _ => rfl

lemma Refusing.callPush {s s' : State T k} {items : List T} {item : T} (h : Refusing s items)
    (hbelow : (items ++ [item]).length + 2 ^ k ≤ 2 ^ 64)
    (hs : step s (.callPush item .dropNewest) = some s') : Refusing s' (items ++ [item]) := by
  have htaken := h.taken
  have hcomplete := h.complete
  have hlen := h.inv.length_accepted
  have hstep := hs
  simp only [step] at hs
  split at hs
  · next hidle =>
    cases hpc : s.push with
    | idle =>
      have hnone : s.accepted ++ s.push.item?.toList = s.accepted := by
        rw [hpc]
        exact List.append_nil _
      rw [hnone] at htaken hcomplete
      have hroom : Safe s (.callPush item .dropNewest) := by
        show s.queue.producerCursor.toNat + 2 ^ k < 2 ^ 64
        have hle := htaken.length_le
        rw [List.length_append, List.length_singleton] at hbelow
        omega
      have hinv := step_inv h.inv hroom hstep
      cases hs
      exact
        { inv := hinv
          refuses := rfl
          length_popped := h.length_popped
          loaded := h.loaded
          taken := htaken.append_right _
          complete := fun hnone => congrArg (· ++ [item]) (hcomplete hnone) }
    | _ => simp [hpc] at hidle
  · cases hs

lemma Refusing.push {s s' : State T k} {items : List T} (h : Refusing s items)
    (hs : pushWithPolicyStep s = some s') : Refusing s' items := by
  obtain ⟨hrefuses, htail, hpop, hpopped, hrefused, hitems⟩ := advances h.refuses hs
  refine
    { inv := pushWithPolicyStep_inv h.inv h.refuses.safe hs
      refuses := hrefuses
      length_popped := by rw [hpopped, htail]; exact h.length_popped
      loaded := by rw [hpop, htail]; exact h.loaded
      taken := ?_
      complete := fun hnone => ?_ }
  · rcases hitems with heq | ⟨haccepted, hidle, -⟩
    · rw [heq]
      exact h.taken
    · -- the refused item is left out
      rw [haccepted, hidle]
      refine List.Sublist.trans ?_ h.taken
      exact List.sublist_append_of_sublist_left (List.append_nil _ ▸ .refl _)
  · rcases hitems with heq | ⟨-, -, hdropped⟩
    · rw [heq]
      exact h.complete fun hmem => hnone (hrefused hmem)
    · exact absurd hdropped hnone

lemma Refusing.pop {s s' : State T k} {items : List T} (h : Refusing s items)
    (hs : tryPopStep s = some s') : Refusing s' items := by
  have hinv := tryPopStep_inv h.inv hs
  have hloaded := h.loaded
  have hpopok := h.inv.pop
  unfold tryPopStep at hs
  cases hpc : s.pop with
  | idle => simp [hpc] at hs
  | loadCachedHead tail =>
    rw [hpc] at hs hloaded
    dsimp only at hs
    split at hs <;> cases hs <;> exact { h with inv := hinv, loaded := hloaded }
  | loadHead tail =>
    rw [hpc] at hs hloaded
    cases hs
    exact { h with inv := hinv, loaded := hloaded }
  | storeCachedHead tail head =>
    rw [hpc] at hs hloaded
    dsimp only at hs
    split at hs
    · cases hs
      exact { h with inv := hinv, loaded := nofun }
    · cases hs
      exact { h with inv := hinv, loaded := hloaded }
  | readSlot tail =>
    rw [hpc] at hs hloaded
    cases hs
    exact { h with inv := hinv, loaded := hloaded }
  | storeTail item tail =>
    rw [hpc] at hs hloaded hpopok
    cases hs
    have htail : tail = s.queue.consumerCursor := hloaded tail rfl
    have hlength := h.length_popped
    refine { h with inv := hinv, length_popped := ?_, loaded := nofun }
    show (s.popped ++ [item]).length = (tail + 1).toNat
    rw [RingWindow.toNat_succ_of_lt hpopok.2.2.1, List.length_append, hlength, htail]
    rfl

lemma Refusing.step {s s' : State T k} {items : List T} {a : Action T} (h : Refusing s items)
    (hrefuses : a.Refuses) (hbelow : (items ++ a.item?.toList).length + 2 ^ k ≤ 2 ^ 64)
    (hs : IsolatedConsumerQueue.step s a = some s') : Refusing s' (items ++ a.item?.toList) := by
  have hsame : items ++ (none : Option T).toList = items := List.append_nil _
  cases a with
  | callPush item policy =>
    cases hrefuses
    exact h.callPush hbelow hs
  | push =>
    rw [Action.item?, hsame]
    exact h.push hs
  | callPop =>
    rw [Action.item?, hsame]
    have hinv := step_inv (a := .callPop) h.inv trivial hs
    simp only [IsolatedConsumerQueue.step] at hs
    split at hs
    · cases hs
      refine { h with inv := hinv, loaded := fun tail htail => ?_ }
      cases htail
      rfl
    · cases hs
  | pop =>
    rw [Action.item?, hsame]
    exact h.pop hs

/-- By induction over the run. -/
lemma Refusing.run [Inhabited T] {actions : List (Action T)} {s s' : State T k} {items : List T}
    (h : Refusing s items) (hrefuses : ∀ a ∈ actions, a.Refuses)
    (hbelow : (items ++ begun actions).length + 2 ^ k ≤ 2 ^ 64)
    (hexec : (machine T k).exec s actions = some s') : Refusing s' (items ++ begun actions) := by
  induction actions generalizing s items with
  | nil =>
    cases hexec
    rw [show begun ([] : List (Action T)) = [] from rfl, List.append_nil]
    exact h
  | cons a actions ih =>
    obtain ⟨t, hs, hrest⟩ := Option.bind_eq_some_iff.mp hexec
    rw [begun_cons, ← List.append_assoc] at hbelow ⊢
    have hfirst := h.step (hrefuses a List.mem_cons_self)
      (by rw [List.length_append] at hbelow; omega) hs
    exact ih hfirst (fun b hb => hrefuses b (List.mem_cons_of_mem a hb)) hbelow hrest

/-- What came out is what was accepted, up to the cursor of the consumer. -/
lemma Refusing.popped_eq {s : State T k} {items : List T} (h : Refusing s items) :
    s.popped = s.accepted.take s.queue.consumerCursor.toNat := by
  have hlength : s.popped.length = (s.accepted.take s.queue.consumerCursor.toNat).length := by
    rw [List.length_take, h.inv.length_accepted, Nat.min_eq_left h.inv.tail_le]
    exact h.length_popped
  refine List.Sublist.eq_of_length ?_ hlength
  have hpop := h.inv.pop
  have hloaded := h.loaded
  cases hpc : s.pop with
  | idle =>
    rw [hpc] at hpop
    exact hpop
  | _ =>
    rw [hpc] at hpop hloaded
    rw [← hloaded _ rfl]
    exact hpop.1

lemma Refusing.popped_initial {s : State T k} {items : List T} (h : Refusing s items) :
    s.popped <+: s.accepted := by
  rw [h.popped_eq]
  exact List.take_prefix _ _

/-- Without a refusal, that is the beginning of what was pushed. -/
lemma Refusing.popped_of_none {s : State T k} {items : List T} (h : Refusing s items)
    (hnone : .droppedNewest ∉ s.results) : s.popped <+: items := by
  rw [← h.complete hnone]
  exact h.popped_initial.trans (List.prefix_append _ _)

lemma Refusing.popped_sublist {s : State T k} {items : List T} (h : Refusing s items) :
    s.popped.Sublist items :=
  h.popped_initial.sublist.trans ((List.sublist_append_left _ _).trans h.taken)

end IsolatedConsumerQueue
end ChainMarketPrice.CoreEngine
