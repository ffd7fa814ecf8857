import Mathlib.Data.Nat.Log
import Mathlib.Logic.Function.Iterate
import Mathlib.Tactic.Ring

/-!
# Backoff

A waiting loop spins for some calls, yields for some more and then sleeps, each time twice as
long as before and at most up to a cap. The loop counts its calls in a counter that stops at a
ceiling and doubles in a word of a given width, so that it follows the schedule only if its
parameters leave both enough room (`Stages.follows_iff`).
-/

namespace Backoff

/-! ## Doubling up to a cap -/

/-- Twice the delay, at most the cap. -/
def double (cap delay : ℕ) : ℕ := min (2 * delay) cap

/-- Exact doubling. -/
lemma iterate_double {cap first : ℕ} (hfirst : first ≤ cap) (n : ℕ) :
    (double cap)^[n] first = min (2 ^ n * first) cap := by
  induction n with
  | zero => simp [hfirst]
  | succ n ih =>
    have hpow : 2 ^ (n + 1) * first = 2 * (2 ^ n * first) := by ring
    rw [Function.iterate_succ_apply', ih, double, hpow]
    omega

/-- Doubling in a word of the given width. -/
def next (width cap delay : ℕ) : ℕ := min (2 * delay % 2 ^ width) cap

lemma next_le (width cap delay : ℕ) : next width cap delay ≤ cap := Nat.min_le_right _ _

lemma next_eq_double {width cap delay : ℕ} (hdelay : delay ≤ cap) (hcap : 2 * cap < 2 ^ width) :
    next width cap delay = double cap delay := by
  have hmod : 2 * delay % 2 ^ width = 2 * delay := Nat.mod_eq_of_lt (by omega)
  rw [next, hmod, double]

/-- Doubling from zero stays there. -/
lemma iterate_next_zero (width cap n : ℕ) : (next width cap)^[n] 0 = 0 := by
  induction n with
  | zero => rfl
  | succ n ih => rw [Function.iterate_succ_apply', ih, next, Nat.mul_zero, Nat.zero_mod, Nat.zero_min]

lemma iterate_next_le (width : ℕ) {cap first : ℕ} (hfirst : first ≤ cap) (n : ℕ) :
    (next width cap)^[n] first ≤ cap := by
  cases n with
  | zero => exact hfirst
  | succ n =>
    rw [Function.iterate_succ_apply']
    exact next_le width cap _

lemma iterate_next_eq_double {width cap first : ℕ} (hfirst : first ≤ cap)
    (hcap : 2 * cap < 2 ^ width) (n : ℕ) :
    (next width cap)^[n] first = (double cap)^[n] first := by
  induction n with
  | zero => rfl
  | succ n ih =>
    have hle := iterate_next_le width hfirst n
    rw [Function.iterate_succ_apply', Function.iterate_succ_apply', ← ih,
      next_eq_double hle hcap]

/-- The word is wide enough for all delays exactly when it is for twice the cap. -/
theorem iterate_next_eq_iff {width cap first : ℕ} (hfirst : first ≤ cap) (hcap : cap < 2 ^ width) :
    (∀ n, (next width cap)^[n] first = min (2 ^ n * first) cap) ↔
      first = 0 ∨ 2 * cap < 2 ^ width := by
  constructor
  · intro hexact
    by_contra hneither
    rw [not_or, Nat.not_lt] at hneither
    obtain ⟨hpos, hwide⟩ := hneither
    have hreached : 2 ^ width ≤ 2 ^ width * first := Nat.le_mul_of_pos_right _ (by omega)
    -- once the cap is reached, the next doubling wraps below it
    have hcapped : (next width cap)^[width] first = cap := by
      rw [hexact]
      omega
    have hstays : (next width cap)^[width + 1] first = cap := by
      have hpow : 2 ^ (width + 1) * first = 2 * (2 ^ width * first) := by ring
      rw [hexact, hpow]
      omega
    rw [Function.iterate_succ_apply', hcapped, next] at hstays
    have hwrapped : 2 * cap % 2 ^ width = 2 * cap - 2 ^ width := by
      rw [Nat.mod_eq_sub_mod hwide]
      exact Nat.mod_eq_of_lt (by omega)
    omega
  · rintro (rfl | hwide)
    · intro n
      rw [iterate_next_zero, Nat.mul_zero, Nat.zero_min]
    · intro n
      rw [iterate_next_eq_double hfirst hwide, iterate_double hfirst]

/-! ## Three stages -/

/-- What one call of a waiting loop does. -/
inductive Pause
  | spinLoop
  | yieldNow
  | sleep (delay : ℕ)
deriving Repr, DecidableEq

/-- The `n`-th call of the schedule, from 1 on. -/
def schedule (spins yields first cap n : ℕ) : Pause :=
  if n ≤ spins then .spinLoop
  else if n ≤ spins + yields then .yieldNow
  else .sleep (min (2 ^ (n - (spins + yields) - 1) * first) cap)

/-- The parameters of a loop: where its counter of calls stops, up to which counts it spins and
yields, and the width, the first value and the cap of its delay. -/
structure Stages where
  ceiling : ℕ
  spins : ℕ
  limit : ℕ
  width : ℕ
  first : ℕ
  cap : ℕ

/-- The counter and the next delay. -/
structure Stages.State where
  counter : ℕ
  delay : ℕ
deriving Repr, DecidableEq

namespace Stages

def idle (p : Stages) (s : State) : Pause × State :=
  let counter := min (s.counter + 1) p.ceiling
  if counter ≤ p.spins then (.spinLoop, ⟨counter, s.delay⟩)
  else if counter ≤ p.limit then (.yieldNow, ⟨counter, s.delay⟩)
  else (.sleep s.delay, ⟨counter, next p.width p.cap s.delay⟩)

/-- The state after some calls. -/
def after (p : Stages) (n : ℕ) : State := (fun s => (p.idle s).2)^[n] ⟨0, p.first⟩

variable {p : Stages}

lemma idle_spin {s : State} (h : min (s.counter + 1) p.ceiling ≤ p.spins) :
    p.idle s = (.spinLoop, ⟨min (s.counter + 1) p.ceiling, s.delay⟩) := if_pos h

lemma idle_yield {s : State} (hspin : ¬ min (s.counter + 1) p.ceiling ≤ p.spins)
    (h : min (s.counter + 1) p.ceiling ≤ p.limit) :
    p.idle s = (.yieldNow, ⟨min (s.counter + 1) p.ceiling, s.delay⟩) :=
  (if_neg hspin).trans (if_pos h)

lemma idle_sleep {s : State} (hspin : ¬ min (s.counter + 1) p.ceiling ≤ p.spins)
    (h : ¬ min (s.counter + 1) p.ceiling ≤ p.limit) :
    p.idle s = (.sleep s.delay, ⟨min (s.counter + 1) p.ceiling, next p.width p.cap s.delay⟩) :=
  (if_neg hspin).trans (if_neg h)

lemma after_succ (p : Stages) (n : ℕ) : p.after (n + 1) = (p.idle (p.after n)).2 :=
  Function.iterate_succ_apply' _ _ _

lemma counter_idle (p : Stages) (s : State) :
    (p.idle s).2.counter = min (s.counter + 1) p.ceiling := by
  simp only [idle]
  split
  · rfl
  · split
    · rfl
    · rfl

lemma counter_after (p : Stages) (n : ℕ) : (p.after n).counter = min n p.ceiling := by
  induction n with
  | zero => exact (Nat.zero_min _).symm
  | succ n ih =>
    rw [after_succ, counter_idle, ih]
    omega

/-- What the call number `n + 1` does, by its counter. -/
lemma pause_eq (p : Stages) (n : ℕ) :
    (p.idle (p.after n)).1
      = if min (n + 1) p.ceiling ≤ p.spins then .spinLoop
        else if min (n + 1) p.ceiling ≤ p.limit then .yieldNow
        else .sleep (p.after n).delay := by
  have hcounter : min ((p.after n).counter + 1) p.ceiling = min (n + 1) p.ceiling := by
    rw [counter_after]
    omega
  simp only [idle, hcounter]
  split
  · rfl
  · split
    · rfl
    · rfl

/-- The calls up to the limit leave the delay alone, every later one doubles it. -/
lemma delay_after (hspins : p.spins ≤ p.limit) (hlimit : p.limit < p.ceiling) (n : ℕ) :
    (p.after n).delay = (next p.width p.cap)^[n - p.limit] p.first := by
  induction n with
  | zero => rw [Nat.zero_sub]; rfl
  | succ n ih =>
    have hcounter := counter_after p n
    rw [after_succ]
    simp only [idle, hcounter]
    by_cases hlate : n + 1 ≤ p.limit
    · have hsub : n + 1 - p.limit = n - p.limit := by omega
      rw [hsub, ← ih]
      split
      · rfl
      · rw [if_pos (by omega)]
    · have hsub : n + 1 - p.limit = n - p.limit + 1 := by omega
      rw [if_neg (by omega), if_neg (by omega), hsub, Function.iterate_succ_apply', ← ih]

/-- A loop whose limit is the sum of its spins and yields in a word just large enough for the
counter follows the schedule in all its calls exactly when that sum stays below the ceiling, and
twice the cap fits the word of the delay or there is no delay. -/
theorem follows_iff {yields : ℕ} (hlimit : p.limit = (p.spins + yields) % (p.ceiling + 1))
    (hspins : p.spins ≤ p.ceiling) (hyields : yields ≤ p.ceiling) (hfirst : p.first ≤ p.cap)
    (hcap : p.cap < 2 ^ p.width) :
    (∀ n, (p.idle (p.after n)).1 = schedule p.spins yields p.first p.cap (n + 1)) ↔
      p.spins + yields < p.ceiling ∧ (p.first = 0 ∨ 2 * p.cap < 2 ^ p.width) := by
  constructor
  · intro hfollows
    have hroom : p.spins + yields < p.ceiling := by
      by_contra hfull
      rw [Nat.not_lt] at hfull
      by_cases hspin : p.spins = p.ceiling
      · -- the counter never gets past the spins
        have hlast := hfollows p.ceiling
        rw [pause_eq, if_pos (by omega), schedule, if_neg (by omega)] at hlast
        split at hlast
        · cases hlast
        · cases hlast
      · by_cases hsum : p.spins + yields = p.ceiling
        · -- the counter never gets past the limit
          have hexact : p.limit = p.ceiling := by
            rw [hlimit, hsum]
            exact Nat.mod_eq_of_lt (Nat.lt_succ_self _)
          have hlast := hfollows p.ceiling
          rw [pause_eq, if_neg (by omega), if_pos (by omega), schedule, if_neg (by omega),
            if_neg (by omega)] at hlast
          cases hlast
        · -- the limit wraps below the spins, and the first yield is a sleep
          have hwrapped : p.limit = p.spins + yields - (p.ceiling + 1) := by
            rw [hlimit, Nat.mod_eq_sub_mod (by omega)]
            exact Nat.mod_eq_of_lt (by omega)
          have hfirstYield := hfollows p.spins
          rw [pause_eq, if_neg (by omega), if_neg (by omega), schedule, if_neg (by omega),
            if_pos (by omega)] at hfirstYield
          cases hfirstYield
    refine ⟨hroom, (iterate_next_eq_iff hfirst hcap).mp ?_⟩
    intro n
    have hexact : p.limit = p.spins + yields := by
      rw [hlimit]
      exact Nat.mod_eq_of_lt (by omega)
    have hsleep := hfollows (p.limit + n)
    rw [pause_eq, if_neg (by omega), if_neg (by omega), schedule, if_neg (by omega),
      if_neg (by omega), delay_after (by omega) (by omega)] at hsleep
    have hcalls : p.limit + n - p.limit = n := by omega
    have hsleeps : p.limit + n + 1 - (p.spins + yields) - 1 = n := by omega
    rw [hcalls, hsleeps] at hsleep
    exact Pause.sleep.inj hsleep
  · rintro ⟨hroom, hwide⟩ n
    have hexact : p.limit = p.spins + yields := by
      rw [hlimit]
      exact Nat.mod_eq_of_lt (by omega)
    rw [pause_eq, schedule]
    by_cases hspin : n + 1 ≤ p.spins
    · rw [if_pos (by omega), if_pos hspin]
    · rw [if_neg (by omega), if_neg hspin]
      by_cases hyield : n + 1 ≤ p.spins + yields
      · rw [if_pos (by omega), if_pos hyield]
      · have hsleeps : n + 1 - (p.spins + yields) - 1 = n - p.limit := by omega
        rw [if_neg (by omega), if_neg hyield, delay_after (by omega) (by omega),
          (iterate_next_eq_iff hfirst hcap).mpr hwide, hsleeps]

end Stages
end Backoff
