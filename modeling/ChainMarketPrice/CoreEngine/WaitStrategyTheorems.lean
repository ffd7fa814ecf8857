import Mathlib.Data.List.Induction
import Mathlib.Tactic.Common
import ChainMarketPrice.CoreEngine.WaitStrategy

/-!
# What a waiting consumer does

The two sleeping strategies are loops in three stages (`Backoff.Stages`), so that a run of
either follows its schedule exactly within the bounds of its words
(`strategies_follow_schedule_iff`).
-/

namespace ChainMarketPrice.CoreEngine

open Backoff

/-- A call on a wait strategy, with the time on the clock. -/
inductive WaitCall
  | reset (now : ℕ)
  | idle (now : ℕ)
deriving Repr, DecidableEq

namespace WaitStrategy

variable {S : Type} [WaitStrategy S]

def call (s : S) : WaitCall → S
  | .reset now => reset s now
  | .idle now => (idle s now).2

def run (s : S) (calls : List WaitCall) : S := calls.foldl call s

lemma run_append (s : S) (calls calls' : List WaitCall) :
    run s (calls ++ calls') = run (run s calls) calls' := List.foldl_append

/-- The pause of an `idle` call, after any calls on the strategy, a reset, and further `idle`
calls. -/
def pauseAfter (s : S) (calls : List WaitCall) (resetAt : ℕ) (idles : List ℕ) (now : ℕ) : Pause :=
  (idle (run s (calls ++ .reset resetAt :: idles.map .idle)) now).1

end WaitStrategy

open WaitStrategy

/-! ## Backoff -/

lemma toNat_saturatingSucc (n : UInt32) :
    (saturatingSucc n).toNat = min (n.toNat + 1) (2 ^ 32 - 1) := by
  have hlt := n.toNat_lt
  unfold saturatingSucc
  split
  · rename_i hroom
    rw [UInt32.toNat_add, show (1 : UInt32).toNat = 1 from rfl, Nat.mod_eq_of_lt hroom]
    omega
  · omega

/-- A strategy that waits in stages: after a reset its pauses are those of the loop. -/
structure InStages (S : Type) [WaitStrategy S] (p : Stages) (Inv : S → Prop)
    (state : S → Stages.State) : Prop where
  keeps : ∀ s call, Inv s → Inv (WaitStrategy.call s call)
  reset : ∀ s now, Inv s → state (WaitStrategy.reset s now) = ⟨0, p.first⟩
  idle : ∀ s now, Inv s → (WaitStrategy.idle s now).map id state = p.idle (state s)

namespace InStages

variable {S : Type} [WaitStrategy S] {p : Stages} {Inv : S → Prop} {state : S → Stages.State}

lemma pause (h : InStages S p Inv state) {s : S} (hs : Inv s) (now : ℕ) :
    (WaitStrategy.idle s now).1 = (p.idle (state s)).1 := congrArg Prod.fst (h.idle s now hs)

lemma next (h : InStages S p Inv state) {s : S} (hs : Inv s) (now : ℕ) :
    state (WaitStrategy.idle s now).2 = (p.idle (state s)).2 := congrArg Prod.snd (h.idle s now hs)

lemma inv_run (h : InStages S p Inv state) (calls : List WaitCall) {s : S} (hs : Inv s) :
    Inv (run s calls) := by
  induction calls generalizing s with
  | nil => exact hs
  | cons call calls ih => exact ih (h.keeps s call hs)

lemma state_idles (h : InStages S p Inv state) {s : S} (hs : Inv s) (idles : List ℕ) :
    state (run s (idles.map .idle)) = (fun st => (p.idle st).2)^[idles.length] (state s) := by
  induction idles generalizing s with
  | nil => rfl
  | cons now idles ih =>
    have hnext := h.next hs now
    rw [List.length_cons, Function.iterate_succ_apply, ← hnext]
    exact ih (h.keeps s (.idle now) hs)

/-- The pause of an `idle` call, after a reset and further `idle` calls. -/
lemma pause_reset (h : InStages S p Inv state) {s : S} (hs : Inv s) (resetAt : ℕ) (idles : List ℕ)
    (now : ℕ) :
    (WaitStrategy.idle (run (WaitStrategy.reset s resetAt) (idles.map .idle)) now).1
      = (p.idle (p.after idles.length)).1 := by
  have hreset := h.keeps s (.reset resetAt) hs
  have hstate : state (run (WaitStrategy.reset s resetAt) (idles.map .idle))
      = p.after idles.length := by
    rw [Stages.after, ← h.reset s resetAt hs]
    exact h.state_idles hreset idles
  rw [← hstate]
  exact h.pause (h.inv_run _ hreset) now

lemma pauseAfter_eq (h : InStages S p Inv state) {s : S} (hs : Inv s) (calls : List WaitCall)
    (resetAt : ℕ) (idles : List ℕ) (now : ℕ) :
    pauseAfter s calls resetAt idles now = (p.idle (p.after idles.length)).1 := by
  have hsplit : run s (calls ++ .reset resetAt :: idles.map .idle)
      = run (WaitStrategy.reset (run s calls) resetAt) (idles.map .idle) := run_append s calls _
  rw [pauseAfter, hsplit]
  exact h.pause_reset (h.inv_run calls hs) resetAt idles now

/-- Every pause of the strategy is as planned, if the calls of the loop are. -/
lemma follows_iff (h : InStages S p Inv state) {s : S} (hs : Inv s) (plan : ℕ → Pause) :
    (∀ calls resetAt idles now,
        pauseAfter s calls resetAt idles now = plan (idles.length + 1)) ↔
      ∀ n, (p.idle (p.after n)).1 = plan (n + 1) := by
  constructor
  · intro hfollows n
    have hpause := hfollows [] 0 (List.replicate n 0) 0
    rw [h.pauseAfter_eq hs, List.length_replicate] at hpause
    exact hpause
  · intro hfollows calls resetAt idles now
    rw [h.pauseAfter_eq hs]
    exact hfollows _

end InStages

namespace HybridAdaptiveStrategy

/-- The loop of a strategy with these limits. -/
def stages (spinLimit yieldLimit maxSleepUs : UInt32) : Stages where
  ceiling := 2 ^ 32 - 1
  spins := spinLimit.toNat
  limit := (spinLimit + yieldLimit).toNat
  width := 32
  first := 1
  cap := (max maxSleepUs 1).toNat

def HasLimits (spinLimit yieldLimit maxSleepUs : UInt32) (s : HybridAdaptiveStrategy) : Prop :=
  s.spinLimit = spinLimit ∧ s.yieldLimit = yieldLimit ∧ s.maxSleepUs = max maxSleepUs 1

lemma inStages (spinLimit yieldLimit maxSleepUs : UInt32) :
    InStages HybridAdaptiveStrategy (stages spinLimit yieldLimit maxSleepUs)
      (HasLimits spinLimit yieldLimit maxSleepUs)
      (fun s => ⟨s.counter.toNat, s.currentSleepUs.toNat⟩) where
  keeps := by
    intro s call hs
    cases call with
    | reset now => exact hs
    | idle now =>
      show HasLimits _ _ _ s.idle.2
      unfold idle
      dsimp only
      split
      · exact hs
      · split
        · exact hs
        · exact hs
  reset := fun s now hs => rfl
  idle := by
    rintro s now ⟨rfl, rfl, hmax⟩
    have hcounter := toNat_saturatingSucc s.counter
    have hnext : (min (s.currentSleepUs * 2) s.maxSleepUs).toNat
        = Backoff.next 32 (max maxSleepUs 1).toNat s.currentSleepUs.toNat := by
      rw [UInt32.toNat_min, UInt32.toNat_mul, hmax, Backoff.next, Nat.mul_comm 2]
      rfl
    show s.idle.map id _ = _
    unfold idle
    simp only [UInt32.le_iff_toNat_le, hcounter]
    by_cases hspin : min (s.counter.toNat + 1) (2 ^ 32 - 1) ≤ s.spinLimit.toNat
    · rw [if_pos hspin, Stages.idle_spin hspin, Prod.map, hcounter]
      rfl
    · rw [if_neg hspin]
      by_cases hyield : min (s.counter.toNat + 1) (2 ^ 32 - 1) ≤ (s.spinLimit + s.yieldLimit).toNat
      · rw [if_pos hyield, Stages.idle_yield hspin hyield, Prod.map, hcounter]
        rfl
      · rw [if_neg hyield, Stages.idle_sleep hspin hyield, Prod.map, hcounter, hnext]
        rfl

/-- The calls of the loop follow the schedule. -/
lemma stages_follow_iff (spinLimit yieldLimit maxSleepUs : UInt32) :
    (∀ n, ((stages spinLimit yieldLimit maxSleepUs).idle
          ((stages spinLimit yieldLimit maxSleepUs).after n)).1
        = schedule spinLimit.toNat yieldLimit.toNat 1 (max maxSleepUs.toNat 1) (n + 1)) ↔
      spinLimit.toNat + yieldLimit.toNat < 2 ^ 32 - 1 ∧ maxSleepUs.toNat < 2 ^ 31 := by
  have hspin := spinLimit.toNat_lt
  have hyield := yieldLimit.toNat_lt
  have hmax := maxSleepUs.toNat_lt
  have hcap : (max maxSleepUs 1).toNat = max maxSleepUs.toNat 1 := UInt32.toNat_max _ _
  set p := stages spinLimit yieldLimit maxSleepUs with hp
  have hlimit : p.limit = (p.spins + yieldLimit.toNat) % (p.ceiling + 1) := by
    have hwords : (2 ^ 32 - 1 + 1 : ℕ) = 2 ^ 32 := by norm_num
    show (spinLimit + yieldLimit).toNat = (spinLimit.toNat + yieldLimit.toNat) % (2 ^ 32 - 1 + 1)
    rw [UInt32.toNat_add, hwords]
  have hbounds := Stages.follows_iff hlimit (by simp only [hp, stages]; omega)
    (by simp only [hp, stages]; omega) (by simp only [hp, stages, hcap]; omega)
    (by simp only [hp, stages, hcap]; omega)
  simp only [hp, stages, hcap] at hbounds ⊢
  rw [hbounds]
  omega

end HybridAdaptiveStrategy

namespace PowerEfficientStrategy

/-- The loop of a strategy with these limits, without a stage that yields. -/
def stages (spinLimit : UInt32) (minSleepUs maxSleepUs : UInt64) : Stages where
  ceiling := 2 ^ 32 - 1
  spins := spinLimit.toNat
  limit := spinLimit.toNat
  width := 64
  first := minSleepUs.toNat
  cap := (max maxSleepUs minSleepUs).toNat

def HasLimits (spinLimit : UInt32) (minSleepUs maxSleepUs : UInt64) (s : PowerEfficientStrategy) :
    Prop :=
  s.spinLimit = spinLimit ∧ s.minSleepUs = minSleepUs ∧ s.maxSleepUs = max maxSleepUs minSleepUs

lemma inStages (spinLimit : UInt32) (minSleepUs maxSleepUs : UInt64) :
    InStages PowerEfficientStrategy (stages spinLimit minSleepUs maxSleepUs)
      (HasLimits spinLimit minSleepUs maxSleepUs)
      (fun s => ⟨s.counter.toNat, s.currentSleepUs.toNat⟩) where
  keeps := by
    intro s call hs
    cases call with
    | reset now => exact hs
    | idle now =>
      show HasLimits _ _ _ s.idle.2
      unfold idle
      dsimp only
      split
      · exact hs
      · exact hs
  reset := by
    rintro s now ⟨-, rfl, -⟩
    rfl
  idle := by
    rintro s now ⟨rfl, rfl, hmax⟩
    have hcounter := toNat_saturatingSucc s.counter
    have hnext : (min (s.currentSleepUs * 2) s.maxSleepUs).toNat
        = Backoff.next 64 (max maxSleepUs s.minSleepUs).toNat s.currentSleepUs.toNat := by
      rw [UInt64.toNat_min, UInt64.toNat_mul, hmax, Backoff.next, Nat.mul_comm 2]
      rfl
    show s.idle.map id _ = _
    unfold idle
    simp only [UInt32.le_iff_toNat_le, hcounter]
    by_cases hspin : min (s.counter.toNat + 1) (2 ^ 32 - 1) ≤ s.spinLimit.toNat
    · rw [if_pos hspin, Stages.idle_spin hspin, Prod.map, hcounter]
      rfl
    · rw [if_neg hspin, Stages.idle_sleep hspin hspin, Prod.map, hcounter, hnext]
      rfl

/-- The calls of the loop follow the schedule. -/
lemma stages_follow_iff (spinLimit : UInt32) (minSleepUs maxSleepUs : UInt64) :
    (∀ n, ((stages spinLimit minSleepUs maxSleepUs).idle
          ((stages spinLimit minSleepUs maxSleepUs).after n)).1
        = schedule spinLimit.toNat 0 minSleepUs.toNat (max maxSleepUs.toNat minSleepUs.toNat)
            (n + 1)) ↔
      spinLimit.toNat < 2 ^ 32 - 1 ∧
        (minSleepUs = 0 ∨ max maxSleepUs.toNat minSleepUs.toNat < 2 ^ 63) := by
  have hspin := spinLimit.toNat_lt
  have hmin := minSleepUs.toNat_lt
  have hmax := maxSleepUs.toNat_lt
  have hcap : (max maxSleepUs minSleepUs).toNat = max maxSleepUs.toNat minSleepUs.toNat :=
    UInt64.toNat_max _ _
  set p := stages spinLimit minSleepUs maxSleepUs with hp
  have hlimit : p.limit = (p.spins + 0) % (p.ceiling + 1) := by
    show spinLimit.toNat = (spinLimit.toNat + 0) % (2 ^ 32 - 1 + 1)
    omega
  have hbounds := Stages.follows_iff hlimit (by simp only [hp, stages]; omega) (Nat.zero_le _)
    (by simp only [hp, stages, hcap]; omega) (by simp only [hp, stages, hcap]; omega)
  simp only [hp, stages, hcap] at hbounds ⊢
  rw [hbounds, ← UInt64.toNat_inj, UInt64.toNat_zero]
  omega

end PowerEfficientStrategy

/-- In every run of a strategy, whatever was called before, the pauses after a reset are those
of its schedule: first the spins, then the yields, then sleeps that double up to the maximum.
For the hybrid strategy this holds exactly if spins and yields together stay below the largest
`u32` and the longest sleep is below `2 ^ 31` microseconds; for the power-efficient one, if
the spins do and the longest sleep is below `2 ^ 63` or the shortest is zero. -/
theorem strategies_follow_schedule_iff :
    (∀ spinLimit yieldLimit maxSleepUs : UInt32,
      (∀ calls resetAt idles now,
        pauseAfter (HybridAdaptiveStrategy.new spinLimit yieldLimit maxSleepUs) calls resetAt idles
            now
          = schedule spinLimit.toNat yieldLimit.toNat 1 (max maxSleepUs.toNat 1)
              (idles.length + 1)) ↔
        spinLimit.toNat + yieldLimit.toNat < 2 ^ 32 - 1 ∧ maxSleepUs.toNat < 2 ^ 31) ∧
    (∀ (spinLimit : UInt32) (minSleepUs maxSleepUs : UInt64),
      (∀ calls resetAt idles now,
        pauseAfter (PowerEfficientStrategy.new spinLimit minSleepUs maxSleepUs) calls resetAt idles
            now
          = schedule spinLimit.toNat 0 minSleepUs.toNat (max maxSleepUs.toNat minSleepUs.toNat)
              (idles.length + 1)) ↔
        spinLimit.toNat < 2 ^ 32 - 1 ∧
          (minSleepUs = 0 ∨ max maxSleepUs.toNat minSleepUs.toNat < 2 ^ 63)) := by
  constructor
  · intro spinLimit yieldLimit maxSleepUs
    have hfollows := (HybridAdaptiveStrategy.inStages spinLimit yieldLimit maxSleepUs).follows_iff
      (s := .new spinLimit yieldLimit maxSleepUs) ⟨rfl, rfl, rfl⟩
      (schedule spinLimit.toNat yieldLimit.toNat 1 (max maxSleepUs.toNat 1))
    exact hfollows.trans (HybridAdaptiveStrategy.stages_follow_iff spinLimit yieldLimit maxSleepUs)
  · intro spinLimit minSleepUs maxSleepUs
    have hfollows := (PowerEfficientStrategy.inStages spinLimit minSleepUs maxSleepUs).follows_iff
      (s := .new spinLimit minSleepUs maxSleepUs) ⟨rfl, rfl, rfl⟩
      (schedule spinLimit.toNat 0 minSleepUs.toNat (max maxSleepUs.toNat minSleepUs.toNat))
    exact hfollows.trans (PowerEfficientStrategy.stages_follow_iff spinLimit minSleepUs maxSleepUs)

end ChainMarketPrice.CoreEngine
