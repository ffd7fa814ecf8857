import ChainMarketPrice.CoreEngine.IsolatedConsumerQueueDelivery
import ChainMarketPrice.CoreEngine.SimulatorBursts

/-!
# The simulated feed behind a queue

The stress test of the simulator pushes its events, one after the other, to the queue of each
consumer. A queue that refuses when it is full, as that of the fast consumer does, hands out events
of the feed in their order in every interleaving with the consumer. One that evicts does so as long
as the calls do not overlap, and then the counters of the queue say how many events are missing
(`consumer_follows_feed`).
-/

namespace ChainMarketPrice.CoreEngine

/-! ## The numbers of the events that are received -/

lemma Consecutive.increasing {start : ℕ} {numbers : List ℕ} (h : Consecutive start numbers) :
    numbers.Pairwise (· < ·) := by
  unfold Consecutive at h
  rw [h]
  exact List.pairwise_lt_range'

lemma Consecutive.of_initial {start : ℕ} {numbers numbers' : List ℕ} (h : Consecutive start numbers)
    (hinitial : numbers' <+: numbers) : Consecutive start numbers' := by
  have htake := List.prefix_iff_eq_take.mp hinitial
  unfold Consecutive at h ⊢
  rw [h, List.take_range'_of_length_ge hinitial.length_le] at htake
  exact htake

instance : Inhabited SimulatedFeedEvent := ⟨{}⟩

/-- The numbers of each venue and of the trades increase. -/
structure Increasing (events : List SimulatedFeedEvent) : Prop where
  sequences : ∀ v, (sequences v events).Pairwise (· < ·)
  tradeIds : (tradeIds events).Pairwise (· < ·)

/-- They go on from those of the feed without a gap. -/
structure GapFree (f : Feed) (events : List SimulatedFeedEvent) : Prop where
  sequences : ∀ v, Consecutive (f.sequence v) (sequences v events)
  tradeIds : Consecutive f.tradeId (tradeIds events)

namespace Feed.Follows

variable {f f' : Feed} {es events : List SimulatedFeedEvent}

lemma increasing (h : f.Follows es f') (hsublist : events.Sublist es) : Increasing events where
  sequences v := (h.sequences v).increasing.sublist ((hsublist.filter _).map _)
  tradeIds := h.tradeIds.increasing.sublist ((hsublist.filter _).map _)

lemma gapFree (h : f.Follows es f') (hinitial : events <+: es) : GapFree f events where
  sequences v := (h.sequences v).of_initial ((hinitial.filter _).map _)
  tradeIds := h.tradeIds.of_initial ((hinitial.filter _).map _)

end Feed.Follows

/-- No event is lost between the buffers and the producer. -/
lemma length_written {bursts : List Burst} {results : List (ℕ × List SimulatedFeedEvent)}
    (h : List.Forall₂ Burst.Wrote bursts results) : (written results).length = total bursts := by
  unfold written total
  induction h with
  | nil => rfl
  | @cons b result _ _ hwrote _ ih =>
    have htake : (result.2.take result.1).length = b.count := by
      rw [List.length_take, hwrote.count_eq, hwrote.length_eq]
      exact Nat.min_eq_left (Nat.min_le_right _ _)
    rw [List.flatMap_cons, List.length_append, List.map_cons, List.sum_cons, ih, htake]

open IsolatedConsumerQueue in
/-- As long as there is room for the events of a run of bursts, and their timestamps fit, what the
consumer of a queue gets follows the feed. When the calls of the two sides do not overlap this is
so for every capacity and every choice of policies, and what is missing is still in the queue or
counted as dropped or evicted. When they overlap it is so if the producer does not evict. Without a
loss the consumer sees no gap. -/
theorem consumer_follows_feed (sim : MockExchangeFeedSimulator) {bursts : List Burst}
    (hroom : sim.Room (total bursts)) (hfits : ∀ b ∈ bursts, b.Fits) (k : ℕ)
    (hbelow : total bursts + 2 ^ k ≤ 2 ^ 64) :
    ∃ results sim', sim.run bursts = some (results, sim') ∧
      (∀ calls : List (Call SimulatedFeedEvent), offered calls = written results →
        let run := runQueue k calls
        Delivers run.2 (written results) (received run.1) ∧
        Increasing (received run.1) ∧
        (run.2.metrics.totalDropped = 0 → run.2.metrics.totalEvicted = 0 →
          GapFree sim.feed (received run.1))) ∧
      ∀ actions s, (machine SimulatedFeedEvent k).exec .new actions = some s →
        (∀ a ∈ actions, a.Refuses) → begun actions <+: written results →
        s.popped.Sublist (written results) ∧
        Increasing s.popped ∧
        (.droppedNewest ∉ s.results →
          s.popped <+: written results ∧ GapFree sim.feed s.popped) := by
  obtain ⟨results, sim', hrun, hwrote, hfollows⟩ :=
    MockExchangeFeedSimulator.exists_run hroom hfits
  have hlength := length_written hwrote
  refine ⟨results, sim', hrun, fun calls hcalls => ?_, fun actions s hexec hrefuses hbegun => ?_⟩
  · have hdelivers : Delivers (runQueue k calls).2 (offered calls) (received (runQueue k calls).1) :=
      delivers (by rw [hcalls, hlength]; exact hbelow)
    rw [hcalls] at hdelivers
    exact ⟨hdelivers, hfollows.increasing hdelivers.inOrder,
      fun hnone hnone' => hfollows.gapFree (hdelivers.complete hnone hnone')⟩
  · have hlast := Refusing.new.run hrefuses
      (by rw [List.nil_append]; have := hbegun.length_le; omega) hexec
    rw [List.nil_append] at hlast
    have hsublist := hlast.popped_sublist.trans hbegun.sublist
    exact ⟨hsublist, hfollows.increasing hsublist, fun hnone =>
      have hinitial := (hlast.popped_of_none hnone).trans hbegun
      ⟨hinitial, hfollows.gapFree hinitial⟩⟩

open IsolatedConsumerQueue in
/-- A queue with four slots, in which five events do not fit. -/
theorem consumer_follows_feed_default :
    ∃ results sim', (MockExchangeFeedSimulator.new 42 {}).run MockExchangeFeedSimulator.defaultBursts
        = some (results, sim') ∧
      (∀ calls : List (Call SimulatedFeedEvent), offered calls = written results →
        let run := runQueue 2 calls
        Delivers run.2 (written results) (received run.1) ∧
        Increasing (received run.1) ∧
        (run.2.metrics.totalDropped = 0 → run.2.metrics.totalEvicted = 0 →
          GapFree (MockExchangeFeedSimulator.new 42 {}).feed (received run.1))) ∧
      ∀ actions s, (machine SimulatedFeedEvent 2).exec .new actions = some s →
        (∀ a ∈ actions, a.Refuses) → begun actions <+: written results →
        s.popped.Sublist (written results) ∧
        Increasing s.popped ∧
        (.droppedNewest ∉ s.results →
          s.popped <+: written results ∧
          GapFree (MockExchangeFeedSimulator.new 42 {}).feed s.popped) :=
  consumer_follows_feed (.new 42 {})
    ⟨fun m => by cases m <;> decide, fun v => by cases v <;> decide, by decide⟩ (by decide) 2
    (by decide)

end ChainMarketPrice.CoreEngine
