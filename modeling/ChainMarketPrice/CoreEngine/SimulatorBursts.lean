import ChainMarketPrice.CoreEngine.SimulatorTheorems

/-!
# Bursts of the simulated feed

A burst is a loop of turns, and a run is one burst after the other. As long as no word overflows,
the events of all bursts together are one feed (`bursts_feed`).
-/

namespace ChainMarketPrice.CoreEngine

/-! ## Numbers without a gap -/

lemma SimulatedVenue.id_inj {v v' : SimulatedVenue} : v.id = v'.id ↔ v = v' := by
  cases v <;> cases v' <;> decide

/-- The numbers after `start`, one after the other. -/
def Consecutive (start : ℕ) (numbers : List ℕ) : Prop :=
  numbers = List.range' (start + 1) numbers.length

lemma Consecutive.cons {start : ℕ} {numbers : List ℕ} (h : Consecutive (start + 1) numbers) :
    Consecutive start ((start + 1) :: numbers) := by
  unfold Consecutive at h ⊢
  rw [List.length_cons, List.range'_succ, ← h]

/-- The numbers of the events of a venue. -/
def sequences (v : SimulatedVenue) (es : List SimulatedFeedEvent) : List ℕ :=
  (es.filter fun e => e.venueId = v.id).map (·.sequence.toNat)

/-- The ids of the trades. -/
def tradeIds (es : List SimulatedFeedEvent) : List ℕ :=
  (es.filter fun e => e.kind = .trade).map (·.trade.tradeId.toNat)

namespace Feed

/-- Each venue numbers its events without a gap. -/
lemma Follows.sequences {f f' : Feed} {es : List SimulatedFeedEvent} (h : f.Follows es f')
    (v : SimulatedVenue) : Consecutive (f.sequence v) (sequences v es) := by
  induction h with
  | nil => rfl
  | @cons f f' e es m v' admits rest ih =>
    unfold CoreEngine.sequences at ih ⊢
    by_cases hv : v = v'
    · subst hv
      have hnumber : (f.next m v e).sequence v = f.sequence v + 1 := Function.update_self _ _ _
      rw [hnumber] at ih
      rw [List.filter_cons_of_pos (by rw [admits.venue]; exact decide_eq_true rfl), List.map_cons,
        admits.sequence]
      exact ih.cons
    · have hnumber : (f.next m v' e).sequence v = f.sequence v := Function.update_of_ne hv _ _
      have hother : ¬ e.venueId = v.id := by
        rw [admits.venue, SimulatedVenue.id_inj]
        exact fun hsame => hv hsame.symm
      rw [hnumber] at ih
      rw [List.filter_cons_of_neg (by rw [decide_eq_true_eq]; exact hother)]
      exact ih

/-- The trades of all venues share one sequence of ids. -/
lemma Follows.tradeIds {f f' : Feed} {es : List SimulatedFeedEvent} (h : f.Follows es f') :
    Consecutive f.tradeId (tradeIds es) := by
  induction h with
  | nil => rfl
  | @cons f f' e es m v admits rest ih =>
    unfold CoreEngine.tradeIds at ih ⊢
    unfold next at ih
    cases hkind : e.kind with
    | bbo =>
      rw [hkind] at ih
      rw [List.filter_cons_of_neg (by rw [hkind]; decide)]
      exact ih
    | trade =>
      rw [hkind] at ih
      rw [List.filter_cons_of_pos (by rw [hkind]; rfl), List.map_cons,
        (admits.trade hkind).tradeId_eq]
      exact ih.cons

end Feed

/-! ## Bursts -/

namespace Burst

/-- The number of events that a burst writes. -/
def count (b : Burst) : ℕ := min b.config.burstSize b.outBuffer.length

/-- The last timestamp of a burst is a word. -/
def Fits (b : Burst) : Prop :=
  b.baseTimestampNs.toNat + 10 * b.count
    + max b.config.jitterMinNs.toNat b.config.jitterMaxNs.toNat + 2300 < 2 ^ 64

instance (b : Burst) : Decidable b.Fits := inferInstanceAs (Decidable (_ < _))

/-- What a burst leaves in its buffer: its events, with their timestamps, and behind them what was
there before. -/
structure Wrote (b : Burst) (result : ℕ × List SimulatedFeedEvent) : Prop where
  count_eq : result.1 = b.count
  length_eq : result.2.length = b.outBuffer.length
  untouched : result.2.drop b.count = b.outBuffer.drop b.count
  stamped : ∀ i e, (result.2.take b.count)[i]? = some e → b.Stamped i e.telemetry

end Burst

/-- The number of events of a run. -/
def total (bursts : List Burst) : ℕ := (bursts.map Burst.count).sum

/-- The events of a run. -/
def written (results : List (ℕ × List SimulatedFeedEvent)) : List SimulatedFeedEvent :=
  results.flatMap fun result => result.2.take result.1

namespace MockExchangeFeedSimulator
variable {sim : MockExchangeFeedSimulator}

/-- Whatever a turn draws, it goes on with a walk and an event. -/
lemma exists_draws (sim : MockExchangeFeedSimulator) (config : FeedBurstConfig)
    (baseTimestampNs : UInt64) (i : ℕ) :
    ∃ venueChoice assetChoice isTrade prng,
      sim.generateEvent config baseTimestampNs i
        = sim.walkAndEmit config baseTimestampNs i venueChoice assetChoice isTrade prng := by
  unfold generateEvent
  exact ⟨_, _, _, _, rfl⟩

lemma fill_succ {config : FeedBurstConfig} {baseTimestampNs : UInt64} {i : ℕ}
    {e : SimulatedFeedEvent} {sim₁ : MockExchangeFeedSimulator} (left : ℕ)
    (outBuffer : List SimulatedFeedEvent)
    (h : sim.generateEvent config baseTimestampNs i = some (e, sim₁)) :
    fill config baseTimestampNs (left + 1) i sim outBuffer
      = fill config baseTimestampNs left (i + 1) sim₁ (outBuffer.set i e) := by
  rw [fill, h, Option.bind_eq_bind, Option.bind_some]

/-- The loop writes one event after the other, from position `i` on. -/
lemma exists_fill (b : Burst) {left n : ℕ} {i : ℕ} {sim : MockExchangeFeedSimulator}
    (outBuffer : List SimulatedFeedEvent) (hroom : sim.Room (n + left))
    (hstamps : b.baseTimestampNs.toNat + 10 * (i + left)
      + max b.config.jitterMinNs.toNat b.config.jitterMaxNs.toNat + 2300 < 2 ^ 64)
    (hlength : i + left ≤ outBuffer.length) :
    ∃ events sim', fill b.config b.baseTimestampNs left i sim outBuffer
        = some (outBuffer.take i ++ events ++ outBuffer.drop (i + left), sim') ∧
      events.length = left ∧ Feed.Follows sim.feed events sim'.feed ∧
      (∀ k e, events[k]? = some e → b.Stamped (i + k) e.telemetry) ∧ sim'.Room n := by
  induction left generalizing i sim outBuffer with
  | zero =>
    refine ⟨[], sim, ?_, rfl, .nil _, fun k e hk => ?_, hroom⟩
    · rw [List.append_nil, Nat.add_zero, List.take_append_drop]
      rfl
    · rw [List.getElem?_nil] at hk
      exact nomatch hk
  | succ left ih =>
    obtain ⟨venueChoice, assetChoice, isTrade, prng, hturn⟩ :=
      sim.exists_draws b.config b.baseTimestampNs i
    obtain ⟨m, v, e, sim₁, hevent, hadmits, hnext, hstamped, hroom₁⟩ :=
      sim.exists_walkAndEmit b i hroom (by omega) venueChoice assetChoice isTrade prng
    rw [hevent] at hturn
    obtain ⟨events, sim', hfill, hcount, hfollows, hall, hroom'⟩ := ih (i := i + 1)
      (outBuffer.set i e) hroom₁ (by omega) (by rw [List.length_set]; omega)
    have hbuffer : (outBuffer.set i e).take (i + 1) = outBuffer.take i ++ [e] := by
      rw [List.take_add_one, List.getElem?_set_self (by omega), List.take_set_of_le le_rfl]
      rfl
    have hrest : (outBuffer.set i e).drop (i + 1 + left) = outBuffer.drop (i + (left + 1)) := by
      rw [List.drop_set_of_lt (by omega), Nat.add_assoc, Nat.add_comm 1 left]
    refine ⟨e :: events, sim', ?_, by rw [List.length_cons, hcount], ?_, ?_, hroom'⟩
    · rw [fill_succ left outBuffer hturn, hfill, hbuffer, hrest,
        List.append_assoc (outBuffer.take i) [e], List.singleton_append]
    · exact .cons m v hadmits (hnext ▸ hfollows)
    · intro k e' hk
      cases k with
      | zero =>
        obtain rfl := Option.some.inj hk
        exact hstamped
      | succ k =>
        have hlater := hall k e' hk
        rwa [Nat.add_assoc, Nat.add_comm 1 k] at hlater

/-- A burst for which there is room. -/
lemma exists_burst (b : Burst) {n : ℕ} (hroom : sim.Room (n + b.count)) (hfits : b.Fits) :
    ∃ outBuffer sim', sim.generateBurst b.config b.outBuffer b.baseTimestampNs
        = some (b.count, outBuffer, sim') ∧
      b.Wrote (b.count, outBuffer) ∧
      Feed.Follows sim.feed (outBuffer.take b.count) sim'.feed ∧ sim'.Room n := by
  have hcount : b.count ≤ b.outBuffer.length := Nat.min_le_right _ _
  obtain ⟨events, sim', hfill, hevents, hfollows, hstamped, hroom'⟩ :=
    exists_fill b (i := 0) b.outBuffer hroom (by rw [Nat.zero_add]; exact hfits)
      (by rw [Nat.zero_add]; exact hcount)
  rw [List.take_zero, List.nil_append, Nat.zero_add] at hfill
  have htake : (events ++ b.outBuffer.drop b.count).take b.count = events :=
    List.take_left' hevents
  refine ⟨events ++ b.outBuffer.drop b.count, sim', ?_, ⟨rfl, ?_, ?_, ?_⟩, ?_, hroom'⟩
  · have hloop : fill b.config b.baseTimestampNs (min b.config.burstSize b.outBuffer.length) 0 sim
        b.outBuffer = some (events ++ b.outBuffer.drop b.count, sim') := hfill
    unfold generateBurst
    dsimp only
    rw [hloop]
    rfl
  · dsimp only
    rw [List.length_append, List.length_drop, hevents]
    omega
  · exact List.drop_left' hevents
  · dsimp only
    rw [htake]
    intro i e hi
    have hlater := hstamped i e hi
    rwa [Nat.zero_add] at hlater
  · rw [htake]
    exact hfollows

/-- A run of bursts for which there is room. -/
lemma exists_run {bursts : List Burst} {sim : MockExchangeFeedSimulator}
    (hroom : sim.Room (total bursts)) (hfits : ∀ b ∈ bursts, b.Fits) :
    ∃ results sim', sim.run bursts = some (results, sim') ∧
      List.Forall₂ Burst.Wrote bursts results ∧
      Feed.Follows sim.feed (written results) sim'.feed := by
  induction bursts generalizing sim with
  | nil => exact ⟨[], sim, rfl, .nil, .nil _⟩
  | cons b bs ih =>
    have hsum : total (b :: bs) = total bs + b.count := by
      unfold total
      rw [List.map_cons, List.sum_cons, Nat.add_comm]
    rw [hsum] at hroom
    obtain ⟨outBuffer, sim₁, hburst, hwrote, hfollows, hroom₁⟩ :=
      exists_burst b hroom (hfits b List.mem_cons_self)
    obtain ⟨results, sim', hrun, hall, hrest⟩ :=
      ih hroom₁ fun b' hb' => hfits b' (List.mem_cons_of_mem b hb')
    refine ⟨(b.count, outBuffer) :: results, sim', ?_, .cons hwrote hall, hfollows.append hrest⟩
    simp only [run, hburst, hrun, bind, Option.bind]
    rfl

/-- As long as there is room for the events of a run of bursts, and their timestamps fit, the run
does not panic: each burst writes its events and nothing else, each event is one that the
consumer of the feed admits, and neither a venue nor the trades skip a number. -/
theorem bursts_feed (sim : MockExchangeFeedSimulator) {bursts : List Burst}
    (hroom : sim.Room (total bursts)) (hfits : ∀ b ∈ bursts, b.Fits) :
    ∃ results sim', sim.run bursts = some (results, sim') ∧
      List.Forall₂ Burst.Wrote bursts results ∧
      Feed.Follows sim.feed (written results) sim'.feed ∧
      (∀ v, Consecutive (sim.seq v).toNat (sequences v (written results))) ∧
      Consecutive sim.tradeIdCounter.toNat (tradeIds (written results)) := by
  obtain ⟨results, sim', hrun, hwrote, hfollows⟩ := exists_run hroom hfits
  exact ⟨results, sim', hrun, hwrote, hfollows, hfollows.sequences, hfollows.tradeIds⟩

/-- Two bursts of the default feed, the second one into a buffer with room to spare. -/
def defaultBursts : List Burst :=
  [⟨{}, List.replicate 3 {}, 1000000⟩, ⟨{ burstSize := 2 }, List.replicate 4 {}, 2000000⟩]

theorem bursts_feed_default :
    ∃ results sim', (new 42 {}).run defaultBursts = some (results, sim') ∧
      List.Forall₂ Burst.Wrote defaultBursts results ∧
      Feed.Follows (new 42 {}).feed (written results) sim'.feed ∧
      (∀ v, Consecutive ((new 42 {}).seq v).toNat (sequences v (written results))) ∧
      Consecutive (new 42 {}).tradeIdCounter.toNat (tradeIds (written results)) :=
  bursts_feed (new 42 {})
    ⟨fun m => by cases m <;> decide, fun v => by cases v <;> decide, by decide⟩ (by decide)

end MockExchangeFeedSimulator

end ChainMarketPrice.CoreEngine
