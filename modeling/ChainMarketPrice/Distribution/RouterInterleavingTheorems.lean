import ChainMarketPrice.Distribution.RouterInterleaving
import ChainMarketPrice.Distribution.RouterTheorems

/-!
# Ghost subscriptions

A bit of the index is a ghost when its client is not registered, or is registered but not by
the registration that subscribed. Along the runs whose `subscribe` calls finish in time no
ghost is left once every call has returned (`no_ghosts`); a `subscribe` that finishes after
its client's cleanup leaves one (`ghost_after_unregister`).
-/

namespace ChainMarketPrice.Distribution
namespace RouterInterleaving

open FiniteMap InvertedTopicRouter

/-- Every client in the index is registered, and it is this registration that subscribed. -/
def NoGhosts (s : State) : Prop :=
  ∀ t c, s.router.Indexed t c → s.Registered c ∧ s.subscriber t c = s.removals c

/-- The client's registration that a pending `subscribe` has seen is the present one or an
earlier one. -/
def SeenOk (s : State) : Pending → Prop
  | .insertIntoTopic c _ seen => seen < s.removals c ∨ seen = s.removals c ∧ s.Registered c
  | .removeFromTopics _ => True

/-- A bit of the index is backed by the present registration, or is about to be cleared. -/
def BitOk (s : State) (t : TopicKey) (c : UInt32) : Prop :=
  (s.Registered c ∧ s.subscriber t c = s.removals c) ∨ .removeFromTopics c ∈ s.pending

structure Inv (s : State) : Prop where
  bits : ∀ t c, s.router.Indexed t c → BitOk s t c
  seen : ∀ call ∈ s.pending, SeenOk s call

lemma inv_init : Inv machine.init where
  bits := fun t c h => by
    simp [machine, indexed_iff, InvertedTopicRouter.new, ClientBitmap.bit_new] at h
  seen := fun call h => by
    simp [machine] at h

/-- A pending call stays good while no client leaves the client map. -/
lemma SeenOk.mono {s s' : State} {call : Pending} (h : SeenOk s call)
    (hremovals : s'.removals = s.removals) (hreg : ∀ c, s.Registered c → s'.Registered c) :
    SeenOk s' call := by
  cases call with
  | insertIntoTopic c t seen =>
    unfold SeenOk at h ⊢
    rw [hremovals]
    exact h.imp_right fun hback => ⟨hback.1, hreg c hback.2⟩
  | removeFromTopics c => trivial

/-- A bit stays good while its client stays registered and no cleanup is forgotten. -/
lemma BitOk.mono {s s' : State} {t : TopicKey} {c : UInt32} (h : BitOk s t c)
    (hremovals : s'.removals c = s.removals c) (hsub : s'.subscriber t c = s.subscriber t c)
    (hreg : s.Registered c → s'.Registered c)
    (hpend : .removeFromTopics c ∈ s.pending → .removeFromTopics c ∈ s'.pending) :
    BitOk s' t c := by
  unfold BitOk at h ⊢
  rw [hremovals, hsub]
  exact h.imp (fun hback => ⟨hreg hback.1, hback.2⟩) hpend

/-! ## The first sections -/

lemma registerClient_inv {s : State} (h : Inv s) (session : ClientSession) :
    Inv { s with router := (s.router.registerClient session).2 } := by
  have htopics := s.router.topics_registerClient session
  have hreg : ∀ c, s.Registered c →
      State.Registered { s with router := (s.router.registerClient session).2 } c := by
    intro c hc
    unfold State.Registered registerClient at *
    dsimp only
    split
    · exact hc
    · rw [lookup_insert_eq]
      split
      · rfl
      · exact hc
  refine ⟨?_, ?_⟩
  · intro t c hidx
    have hold := (indexed_congr htopics t c).mp hidx
    exact (h.bits t c hold).mono rfl rfl (hreg c) id
  · intro call hcall
    exact (h.seen call hcall).mono rfl hreg

lemma unsubscribe_inv {s : State} (h : Inv s) (c0 : UInt32) (t0 : TopicKey) :
    Inv { s with router := (s.router.unsubscribe c0 t0).2 } := by
  have hclients : (s.router.unsubscribe c0 t0).2.clients = s.router.clients := by
    unfold InvertedTopicRouter.unsubscribe
    split
    · rfl
    · rfl
  have hreg : ∀ c, s.Registered c →
      State.Registered { s with router := (s.router.unsubscribe c0 t0).2 } c := by
    intro c hc
    unfold State.Registered at *
    rw [hclients]
    exact hc
  refine ⟨?_, ?_⟩
  · intro t c hidx
    have hold := ((indexed_unsubscribe s.router c0 c t0 t).mp hidx).1
    exact (h.bits t c hold).mono rfl rfl (hreg c) id
  · intro call hcall
    exact (h.seen call hcall).mono rfl hreg

/-- The removal of a client makes its bits the business of the cleanup, and every check of
the client an old one. -/
lemma startUnregister_inv {s : State} (h : Inv s) (c0 : UInt32) : Inv (startUnregister s c0) := by
  unfold startUnregister removeClient
  rcases hlookup : s.router.clients.lookup c0 with _ | session
  · exact h
  · dsimp only
    set s' : State :=
      { s with
        router := { s.router with clients := s.router.clients.erase c0 }
        pending := s.pending ++ [.removeFromTopics c0]
        removals := Function.update s.removals c0 (s.removals c0 + 1) }
    -- the other clients are as they were
    have hremovals : ∀ c, c ≠ c0 → s'.removals c = s.removals c := by
      intro c hc
      exact Function.update_of_ne hc _ _
    have hreg : ∀ c, c ≠ c0 → s.Registered c → s'.Registered c := by
      intro c hc hcreg
      show ((s.router.clients.erase c0).lookup c).isSome = true
      rw [lookup_erase_eq, if_neg hc]
      exact hcreg
    refine ⟨?_, ?_⟩
    · intro t c hidx
      by_cases hc : c = c0
      -- bits that the client leaves behind: its cleanup is pending
      · subst hc
        exact .inr (List.mem_append_right _ List.mem_cons_self)
      · exact (h.bits t c hidx).mono (hremovals c hc) rfl (hreg c hc) (List.mem_append_left _)
    · intro call hcall
      rcases List.mem_append.mp hcall with hcall | hcall
      · have hok := h.seen call hcall
        cases call with
        | insertIntoTopic c t seen =>
          by_cases hc : c = c0
          · subst hc
            left
            -- a subscribe of this client checked before the removal, which the counter now shows
            have hcount : s'.removals c = s.removals c + 1 := Function.update_self _ _ _
            rcases hok with hlt | ⟨heq, -⟩
            · omega
            · omega
          · simp only [SeenOk, hremovals c hc] at hok ⊢
            exact hok.imp_right fun hback => ⟨hback.1, hreg c hc hback.2⟩
        | removeFromTopics c => trivial
      · rw [List.mem_singleton.mp hcall]
        trivial

lemma startSubscribe_inv {s : State} (h : Inv s) (c0 : UInt32) (t0 : TopicKey) :
    Inv (startSubscribe s c0 t0) := by
  unfold startSubscribe markSubscribed
  rcases hlookup : s.router.clients.lookup c0 with _ | session
  · exact h
  · dsimp only
    set s' : State :=
      { s with
        router :=
          { s.router with clients := s.router.clients.insert c0 (session.setState .subscribed) }
        pending := s.pending ++ [.insertIntoTopic c0 t0 (s.removals c0)] }
    have hself : s'.Registered c0 := by
      show ((s.router.clients.insert c0 (session.setState .subscribed)).lookup c0).isSome = true
      rw [AList.lookup_insert]
      rfl
    -- marking the session registers nobody and removes nobody
    have hreg : ∀ c, s.Registered c → s'.Registered c := by
      intro c hc
      by_cases hc0 : c = c0
      · rw [hc0]
        exact hself
      · show ((s.router.clients.insert c0 (session.setState .subscribed)).lookup c).isSome = true
        rw [AList.lookup_insert_ne hc0]
        exact hc
    refine ⟨?_, ?_⟩
    · intro t c hidx
      exact (h.bits t c hidx).mono rfl rfl (hreg c) (List.mem_append_left _)
    · intro call hcall
      rcases List.mem_append.mp hcall with hcall | hcall
      · exact (h.seen call hcall).mono rfl hreg
      · rw [List.mem_singleton.mp hcall]
        exact .inr ⟨rfl, hself⟩

/-! ## The second sections -/

/-- Another call stays pending when the `i`-th one is taken out. -/
lemma mem_eraseIdx_of_ne {pending : List Pending} {i : ℕ} {call call' : Pending}
    (hi : pending[i]? = some call) (hmem : call' ∈ pending) (hne : call' ≠ call) :
    call' ∈ pending.eraseIdx i := by
  obtain ⟨j, hj⟩ := List.mem_iff_getElem?.mp hmem
  refine List.mem_eraseIdx_iff_getElem?.mpr ⟨j, ?_, hj⟩
  rintro rfl
  rw [hi] at hj
  cases hj
  exact hne rfl

/-- The cleanup of a client clears all its bits. -/
lemma finishCleanup_inv {s : State} (h : Inv s) {i : ℕ} {c0 : UInt32}
    (hi : s.pending[i]? = some (.removeFromTopics c0)) :
    Inv (finishCall { s with pending := s.pending.eraseIdx i } (.removeFromTopics c0)) := by
  refine ⟨?_, ?_⟩
  · intro t c hidx
    obtain ⟨hold, hc⟩ := (indexed_removeFromTopics s.router c0 c t).mp hidx
    refine (h.bits t c hold).mono rfl rfl id fun hpend => mem_eraseIdx_of_ne hi hpend ?_
    intro heq
    cases heq
    exact hc rfl
  · intro call hcall
    exact (h.seen call (List.mem_of_mem_eraseIdx hcall)).mono rfl fun _ => id

/-- A `subscribe` that finishes in time sets a bit that is backed or about to be cleared. -/
lemma finishSubscribe_inv {s : State} (h : Inv s) {i : ℕ} {c0 : UInt32} {t0 : TopicKey} {seen : ℕ}
    (hi : s.pending[i]? = some (.insertIntoTopic c0 t0 seen))
    (hok : s.MayFinish (.insertIntoTopic c0 t0 seen)) :
    Inv (finishCall { s with pending := s.pending.eraseIdx i } (.insertIntoTopic c0 t0 seen)) := by
  -- a cleanup that is pending stays so: it is not the call that finishes
  have hkeep : ∀ c, Pending.removeFromTopics c ∈ s.pending →
      Pending.removeFromTopics c ∈ s.pending.eraseIdx i := by
    intro c hmem
    exact mem_eraseIdx_of_ne hi hmem (by simp)
  refine ⟨?_, ?_⟩
  · intro t c hidx
    by_cases hnew : t = t0 ∧ c = c0
    · obtain ⟨rfl, rfl⟩ := hnew
      -- in time: no removal since the check, or a cleanup is still to come
      rcases hok with heq | hpend
      · have hreg : s.Registered c := by
          rcases h.seen _ (List.mem_of_getElem? hi) with hlt | ⟨-, hreg⟩
          · omega
          · exact hreg
        refine .inl ⟨hreg, ?_⟩
        simp only [finishCall, Function.update_self]
        exact heq
      · exact .inr (hkeep c hpend)
    · have hold : s.router.Indexed t c := by
        rcases (indexed_insertIntoTopic s.router c0 c t0 t).mp hidx with hold | ⟨ht, hc, -⟩
        · exact hold
        · exact absurd ⟨ht, hc⟩ hnew
      -- the last writer of every other bit is as it was
      have hsame : (finishCall { s with pending := s.pending.eraseIdx i }
          (.insertIntoTopic c0 t0 seen)).subscriber t c = s.subscriber t c := by
        simp only [finishCall]
        by_cases ht : t = t0
        · subst ht
          have hc : c ≠ c0 := fun hc => hnew ⟨rfl, hc⟩
          rw [Function.update_self, Function.update_of_ne hc]
        · rw [Function.update_of_ne ht]
      exact (h.bits t c hold).mono rfl hsame id (hkeep c)
  · intro call hcall
    exact (h.seen call (List.mem_of_mem_eraseIdx hcall)).mono rfl fun _ => id

/-- Every section that is in time keeps the invariant. -/
lemma step_inv {s s' : State} {a : Action} (h : Inv s) (hok : InTime s a)
    (hstep : machine.step s a = some s') : Inv s' := by
  cases a with
  | registerClient session =>
    cases hstep
    exact registerClient_inv h session
  | unsubscribe c t =>
    cases hstep
    exact unsubscribe_inv h c t
  | startUnregister c =>
    cases hstep
    exact startUnregister_inv h c
  | startSubscribe c t =>
    cases hstep
    exact startSubscribe_inv h c t
  | finish i =>
    simp only [machine, step] at hstep
    split at hstep
    · rename_i call hi
      cases hstep
      cases call with
      | insertIntoTopic c t seen => exact finishSubscribe_inv h hi (hok _ hi)
      | removeFromTopics c => exact finishCleanup_inv h hi
    · cases hstep

/-! ## Quiescent states -/

/-- Once every call has returned, the runs whose `subscribe` calls finish in time leave no
ghost in the index. -/
theorem no_ghosts {s : State} (h : machine.ReachableWhen InTime s) (hquiet : s.pending = []) :
    NoGhosts s := by
  have hinv : Inv s := h.invariant inv_init fun _ _ _ => step_inv
  intro t c hidx
  rcases hinv.bits t c hidx with hback | hpend
  · exact hback
  · rw [hquiet] at hpend
    cases hpend

/-- A `subscribe` that finishes too late leaves a ghost, if the bitmaps have a bit for its
client at all. -/
theorem ghost_of_late_subscribe {s s' : State} {i : ℕ} {c : UInt32} {t : TopicKey} {seen : ℕ}
    (hi : s.pending[i]? = some (.insertIntoTopic c t seen)) (hcap : c.toNat < maxClientCapacity)
    (hlate : ¬ InTime s (.finish i)) (hstep : machine.step s (.finish i) = some s') :
    ¬ NoGhosts s' := by
  have hold : seen ≠ s.removals c := by
    intro heq
    refine hlate fun call hcall => ?_
    rw [hi] at hcall
    cases hcall
    exact .inl heq
  simp only [machine, step, hi] at hstep
  cases hstep
  intro hno
  have hidx : (s.router.insertIntoTopic c t).Indexed t c :=
    (indexed_insertIntoTopic s.router c c t t).mpr (.inr ⟨rfl, rfl, hcap⟩)
  obtain ⟨-, hsub⟩ := hno t c hidx
  simp only [finishCall, Function.update_self] at hsub
  exact hold hsub

/-- A `subscribe` overtaken by an `unregister_client`: the check, the removal, the insertion
into the index and the cleanup after it. -/
def overtakenInTime : List Action :=
  [.registerClient (.new 7 .sbe 1000 10 0), .startSubscribe 7 (.new 1 42 streamTypeBbo 0),
    .startUnregister 7, .finish 0, .finish 0]

lemma overtakenInTime_allowed : machine.Allowed InTime machine.init overtakenInTime := by
  decide

theorem no_ghosts_overtakenInTime :
    ∃ s, machine.exec machine.init overtakenInTime = some s ∧ s.removals 7 = 1 ∧ NoGhosts s := by
  refine ⟨_, Option.some_get overtakenInTime_allowed.isSome |>.symm, by decide, ?_⟩
  exact no_ghosts overtakenInTime_allowed.reachable (by decide)

/-- The same calls, with the insertion after the cleanup: the removed client stays in the
index, and whoever registers under its id next is a candidate of a topic it never subscribed
to. -/
def overtakenLate : List Action :=
  [.registerClient (.new 7 .sbe 1000 10 0), .startSubscribe 7 (.new 1 42 streamTypeBbo 0),
    .startUnregister 7, .finish 1, .finish 0]

theorem ghost_after_unregister :
    ∃ s s', machine.exec machine.init overtakenLate = some s ∧ s.pending = [] ∧
      s.router.Indexed (.new 1 42 streamTypeBbo 0) 7 ∧ ¬ s.Registered 7 ∧
      machine.step s (.registerClient (.new 7 .json 1000 10 5)) = some s' ∧ s'.pending = [] ∧
      7 ∈ (s'.router.bboCandidates { venue := 1, marketId := 42 }).ids := by
  refine ⟨_, _, rfl, rfl, by decide, by decide, rfl, rfl, ?_⟩
  rw [mem_bboCandidates]
  left
  decide

end RouterInterleaving
end ChainMarketPrice.Distribution
