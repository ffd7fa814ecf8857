import ChainMarketPrice.CoreEngine.WaitStrategyTheorems
import ChainMarketPrice.Lib.TumblingWindow

/-!
# Burst mode

The ticks of a run fall into windows (`TumblingWindow`), and a consumer is in burst mode while
a window with enough ticks ended less than the decay ago. After a tick it spins as long as it
is, and then goes through the stages of the strategy inside from their beginning
(`burst_mode_windows`).
-/

namespace ChainMarketPrice.CoreEngine

open Backoff TumblingWindow WaitStrategy

def WaitCall.time : WaitCall → ℕ
  | .reset now => now
  | .idle now => now

/-- The times of the ticks among the calls. -/
def ticksOf (calls : List WaitCall) : List ℕ :=
  calls.filterMap fun
    | .reset now => some now
    | .idle _ => none

@[simp] lemma ticksOf_idle (calls : List WaitCall) (now : ℕ) :
    ticksOf (calls ++ [.idle now]) = ticksOf calls := by simp [ticksOf]

@[simp] lemma ticksOf_reset (calls : List WaitCall) (now : ℕ) :
    ticksOf (calls ++ [.reset now]) = ticksOf calls ++ [now] := by simp [ticksOf]

/-- Whether a window with enough ticks ended less than the decay ago. -/
def Bursts (threshold decay : ℕ) (windows : List (Window ℕ)) (now : ℕ) : Prop :=
  ∃ w ∈ windows, threshold ≤ w.ticks.length ∧ now < w.close + decay

instance (threshold decay : ℕ) (windows : List (Window ℕ)) (now : ℕ) :
    Decidable (Bursts threshold decay windows now) :=
  inferInstanceAs (Decidable (∃ w ∈ windows, threshold ≤ w.ticks.length ∧ now < w.close + decay))

lemma bursts_append (threshold decay : ℕ) (windows : List (Window ℕ)) (w : Window ℕ) (now : ℕ) :
    Bursts threshold decay (windows ++ [w]) now ↔
      Bursts threshold decay windows now ∨ threshold ≤ w.ticks.length ∧ now < w.close + decay := by
  simp only [Bursts, List.mem_append, List.mem_singleton, or_and_right, exists_or,
    exists_eq_left]

namespace AdaptiveBurstWaitStrategy

variable {S : Type}

/-- What a strategy knows of the windows of its ticks. -/
structure Follows (threshold : UInt32) (duration decay start : ℕ) (ticks : List ℕ)
    (windows : List (Window ℕ)) (current : List ℕ) (s : AdaptiveBurstWaitStrategy S) : Prop where
  threshold_eq : s.burstThresholdTicks = threshold
  duration_eq : s.windowDuration = duration
  decay_eq : s.burstDecayDuration = decay
  tumbles : Tumbles duration start ticks windows current
  windowStart : s.windowStart = opened start windows
  ticksInWindow : s.ticksInWindow.toNat = min current.length (2 ^ 32 - 1)
  burst : ∀ now, s.isInBurstMode now = true ↔ Bursts threshold.toNat decay windows now

variable {threshold : UInt32} {duration decay start : ℕ} {ticks current : List ℕ}
  {windows : List (Window ℕ)} {s : AdaptiveBurstWaitStrategy S}

namespace Follows

lemma opened_le (h : Follows threshold duration decay start ticks windows current s) {now : ℕ}
    (hstart : start ≤ now) (hticks : ∀ t ∈ ticks, t ≤ now) : opened start windows ≤ now := by
  cases windows using List.reverseRecOn with
  | nil => exact hstart
  | append_singleton windows w =>
    rw [opened_append]
    exact hticks _ (h.tumbles.close_mem (List.mem_append_right windows List.mem_cons_self))

lemma ticks_succ (h : Follows threshold duration decay start ticks windows current s) :
    (saturatingSucc s.ticksInWindow).toNat = min (current.length + 1) (2 ^ 32 - 1) := by
  rw [toNat_saturatingSucc, h.ticksInWindow]
  omega

/-- A counter that stops at its largest value still tells whether there were enough ticks. -/
lemma enough_iff (h : Follows threshold duration decay start ticks windows current s) :
    saturatingSucc s.ticksInWindow ≥ s.burstThresholdTicks ↔
      threshold.toNat ≤ current.length + 1 := by
  have hsucc := h.ticks_succ
  have hlt := threshold.toNat_lt
  rw [h.threshold_eq, ge_iff_le, UInt32.le_iff_toNat_le, hsucc]
  omega

end Follows

/-! ## One tick -/

variable [WaitStrategy S]

lemma recordTick_inside {s : AdaptiveBurstWaitStrategy S} {now : ℕ}
    (h : ¬ now - s.windowStart ≥ s.windowDuration) :
    s.recordTick now = { s with
      ticksInWindow := saturatingSucc s.ticksInWindow, inner := WaitStrategy.reset s.inner now } := by
  simp only [recordTick, if_neg h]

lemma recordTick_close {s : AdaptiveBurstWaitStrategy S} {now : ℕ}
    (h : now - s.windowStart ≥ s.windowDuration) :
    s.recordTick now = { s with
      ticksInWindow := 0
      windowStart := now
      burstUntil :=
        if saturatingSucc s.ticksInWindow ≥ s.burstThresholdTicks then
          some (now + s.burstDecayDuration)
        else s.burstUntil
      inner := WaitStrategy.reset s.inner now } := by
  simp only [recordTick, if_pos h]
  split
  · rfl
  · rfl

lemma recordTick_inner (s : AdaptiveBurstWaitStrategy S) (now : ℕ) :
    (s.recordTick now).inner = WaitStrategy.reset s.inner now := by
  by_cases hover : now - s.windowStart ≥ s.windowDuration
  · rw [recordTick_close hover]
  · rw [recordTick_inside hover]

/-- A tick is one more of its window, or the last one. -/
lemma Follows.recordTick (h : Follows threshold duration decay start ticks windows current s) {now : ℕ}
    (hstart : start ≤ now) (hticks : ∀ t ∈ ticks, t ≤ now) :
    ∃ windows' current',
      Follows threshold duration decay start (ticks ++ [now]) windows' current'
        (s.recordTick now) := by
  have hopened := h.opened_le hstart hticks
  have hsucc := h.ticks_succ
  by_cases hover : now - s.windowStart ≥ s.windowDuration
  · have hclose : opened start windows + duration ≤ now := by
      rw [h.windowStart, h.duration_eq] at hover
      omega
    rw [recordTick_close hover]
    have hnext : now = opened start (windows ++ [⟨opened start windows, current, now⟩]) := by
      rw [opened_append]
    refine ⟨_, _, h.threshold_eq, h.duration_eq, h.decay_eq, h.tumbles.tick_close hclose,
      hnext, rfl, ?_⟩
    intro now'
    rw [bursts_append, Window.length_ticks, ← h.enough_iff]
    by_cases henough : saturatingSucc s.ticksInWindow ≥ s.burstThresholdTicks
    · -- the window that ends now keeps burst mode on longer than those before it
      have hearlier : Bursts threshold.toNat decay windows now' → now' < now + decay := by
        rintro ⟨w, hw, -, hdecay⟩
        have hle := hticks _ (h.tumbles.close_mem hw)
        omega
      simp only [isInBurstMode, if_pos henough, h.decay_eq, decide_eq_true_eq]
      tauto
    · simp only [isInBurstMode, if_neg henough]
      have hburst := h.burst now'
      simp only [isInBurstMode] at hburst
      tauto
  · have hinside : now < opened start windows + duration := by
      rw [h.windowStart, h.duration_eq] at hover
      omega
    rw [recordTick_inside hover]
    refine ⟨_, _, h.threshold_eq, h.duration_eq, h.decay_eq, h.tumbles.tick_inside hinside,
      h.windowStart, ?_, h.burst⟩
    show (saturatingSucc s.ticksInWindow).toNat = _
    rw [hsucc, List.length_append, List.length_singleton]

/-! ## Runs -/

lemma idle_eq (s : AdaptiveBurstWaitStrategy S) (now : ℕ) :
    s.idle now
      = if s.isInBurstMode now then (.spinLoop, s)
        else ((WaitStrategy.idle s.inner now).1,
          { s with inner := (WaitStrategy.idle s.inner now).2 }) := rfl

/-- An `idle` call touches nothing but the strategy inside. -/
lemma Follows.idle (h : Follows threshold duration decay start ticks windows current s)
    (now : ℕ) : Follows threshold duration decay start ticks windows current (s.idle now).2 := by
  rw [idle_eq]
  split
  · exact h
  · exact ⟨h.threshold_eq, h.duration_eq, h.decay_eq, h.tumbles, h.windowStart, h.ticksInWindow,
      h.burst⟩

omit [WaitStrategy S] in
lemma follows_new (inner : S) (threshold : UInt32) (duration decay start : ℕ) :
    Follows threshold duration decay start [] [] []
      (new inner threshold duration decay start) where
  threshold_eq := rfl
  duration_eq := rfl
  decay_eq := rfl
  tumbles := .nil duration start
  windowStart := rfl
  ticksInWindow := rfl
  burst := by simp [new, isInBurstMode, Bursts]

lemma follows_run (inner : S) (threshold : UInt32) (duration decay start : ℕ)
    (calls : List WaitCall) (hclock : (start :: calls.map WaitCall.time).Pairwise (· ≤ ·)) :
    ∃ windows current,
      Follows threshold duration decay start (ticksOf calls) windows current
        (run (new inner threshold duration decay start) calls) := by
  induction calls using List.reverseRecOn with
  | nil => exact ⟨[], [], follows_new inner threshold duration decay start⟩
  | append_singleton calls call ih =>
    rw [List.map_append, ← List.cons_append, List.pairwise_append] at hclock
    obtain ⟨hbefore, -, hlast⟩ := hclock
    obtain ⟨windows, current, hfollows⟩ := ih hbefore
    rw [run_append]
    cases call with
    | idle now =>
      rw [ticksOf_idle]
      exact ⟨windows, current, hfollows.idle now⟩
    | reset now =>
      have hstart : start ≤ now := hlast start List.mem_cons_self now List.mem_cons_self
      rw [ticksOf_reset]
      refine hfollows.recordTick hstart fun t ht => ?_
      obtain ⟨call, hcall, hsome⟩ := List.mem_filterMap.mp ht
      have htime : call.time = t := by
        cases call with
        | reset now => exact Option.some.inj hsome
        | idle now => cases hsome
      rw [← htime]
      exact hlast _ (List.mem_cons_of_mem _ (List.mem_map_of_mem hcall)) now List.mem_cons_self

/-- The strategy inside is called by the ticks and by the `idle` calls outside burst mode. -/
lemma inner_run {p : Stages} {Inv : S → Prop} {state : S → Stages.State}
    (h : InStages S p Inv state) {s : AdaptiveBurstWaitStrategy S} (hs : Inv s.inner)
    (calls : List WaitCall) : Inv (run s calls).inner := by
  induction calls generalizing s with
  | nil => exact hs
  | cons call calls ih =>
    refine ih ?_
    cases call with
    | reset now =>
      show Inv (s.recordTick now).inner
      rw [recordTick_inner]
      exact h.keeps s.inner (.reset now) hs
    | idle now =>
      show Inv (s.idle now).2.inner
      rw [idle_eq]
      split
      · exact hs
      · exact h.keeps s.inner (.idle now) hs

lemma run_idles (s : AdaptiveBurstWaitStrategy S) (idles : List ℕ) :
    run s (idles.map .idle) = { s with
      inner := run s.inner ((idles.filter fun t => !s.isInBurstMode t).map .idle) } := by
  induction idles generalizing s with
  | nil => rfl
  | cons now idles ih =>
    show run (s.idle now).2 (idles.map .idle) = _
    rw [ih, idle_eq]
    by_cases hburst : s.isInBurstMode now
    · simp [hburst]
    · simp only [hburst, Bool.false_eq_true, if_false, Bool.not_false, List.filter_cons_of_pos,
        List.map_cons]
      rfl

end AdaptiveBurstWaitStrategy

open AdaptiveBurstWaitStrategy

/-- In every run of a burst strategy over a hybrid one, with a clock that does not go back, the
ticks up to any tick fall into windows of the given duration. After that tick an `idle` call
spins while a window with enough ticks ended less than the decay ago; the other `idle` calls
follow the schedule of the hybrid strategy from its beginning. -/
theorem burst_mode_windows (spinLimit yieldLimit maxSleepUs threshold : UInt32)
    (duration decay start : ℕ) (hroom : spinLimit.toNat + yieldLimit.toNat < 2 ^ 32 - 1)
    (hmax : maxSleepUs.toNat < 2 ^ 31) (calls : List WaitCall) (tick : ℕ)
    (hclock : (start :: (calls ++ [WaitCall.reset tick]).map WaitCall.time).Pairwise (· ≤ ·)) :
    ∃ windows current,
      Tumbles duration start (ticksOf calls ++ [tick]) windows current ∧
      ∀ idles now,
        pauseAfter (.new (.new spinLimit yieldLimit maxSleepUs) threshold duration decay start :
            AdaptiveBurstWaitStrategy HybridAdaptiveStrategy) calls tick idles now
          = if Bursts threshold.toNat decay windows now then .spinLoop
            else schedule spinLimit.toNat yieldLimit.toNat 1 (max maxSleepUs.toNat 1)
              ((idles.filter fun t => ¬ Bursts threshold.toNat decay windows t).length + 1) := by
  set strategy : AdaptiveBurstWaitStrategy HybridAdaptiveStrategy :=
    .new (.new spinLimit yieldLimit maxSleepUs) threshold duration decay start with hstrategy
  have hstages := HybridAdaptiveStrategy.inStages spinLimit yieldLimit maxSleepUs
  have hschedule := (HybridAdaptiveStrategy.stages_follow_iff spinLimit yieldLimit maxSleepUs).mpr
    ⟨hroom, hmax⟩
  obtain ⟨windows, current, hfollows⟩ := follows_run
    (.new spinLimit yieldLimit maxSleepUs : HybridAdaptiveStrategy) threshold duration decay start
    (calls ++ [WaitCall.reset tick]) hclock
  rw [ticksOf_reset, run_append] at hfollows
  refine ⟨windows, current, hfollows.tumbles, fun idles now => ?_⟩
  set s := run strategy calls with hs
  have hinv := inner_run hstages (s := strategy) ⟨rfl, rfl, rfl⟩ calls
  have hsplit : run strategy (calls ++ WaitCall.reset tick :: idles.map .idle)
      = run (s.recordTick tick) (idles.map .idle) := run_append strategy calls _
  have hburst : ∀ t, (s.recordTick tick).isInBurstMode t
      = decide (Bursts threshold.toNat decay windows t) := by
    intro t
    rw [Bool.eq_iff_iff, decide_eq_true_eq]
    exact hfollows.burst t
  have hfilter : (idles.filter fun t => !(s.recordTick tick).isInBurstMode t)
      = idles.filter fun t => ¬ Bursts threshold.toNat decay windows t := by
    simp only [hburst, decide_not]
  have hpause := hstages.pause_reset hinv tick
    (idles.filter fun t => ¬ Bursts threshold.toNat decay windows t) now
  have hstep := idle_eq (run (s.recordTick tick) (idles.map .idle)) now
  rw [pauseAfter, hsplit]
  show ((run (s.recordTick tick) (idles.map .idle)).idle now).1 = _
  rw [hstep, run_idles, hfilter, recordTick_inner]
  show (if (s.recordTick tick).isInBurstMode now then _ else _ : Pause × _).1 = _
  rw [hburst]
  by_cases hnow : Bursts threshold.toNat decay windows now
  · simp only [hnow, decide_true, if_true]
  · simp only [hnow, decide_false, if_false, Bool.false_eq_true]
    rw [hpause, hschedule]

/-- Two ticks, an `idle` call, and a third tick that ends the first window. -/
theorem burst_mode_windows_surge :
    ∃ windows current,
      Tumbles 100 0 [10, 40, 110] windows current ∧
      ∀ idles now,
        pauseAfter (.new (.new 256 1024 50) 3 100 50 0 :
            AdaptiveBurstWaitStrategy HybridAdaptiveStrategy)
            [.reset 10, .reset 40, .idle 60] 110 idles now
          = if Bursts 3 50 windows now then .spinLoop
            else schedule 256 1024 1 50
              ((idles.filter fun t => ¬ Bursts 3 50 windows t).length + 1) :=
  burst_mode_windows 256 1024 50 3 100 50 0 (by decide) (by decide)
    [.reset 10, .reset 40, .idle 60] 110 (by decide)

end ChainMarketPrice.CoreEngine
