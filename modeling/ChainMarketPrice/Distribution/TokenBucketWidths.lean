import ChainMarketPrice.Lib.Machine
import ChainMarketPrice.Distribution.TokenBucketTheorems

/-!
# The widths of the token fields

The balance is kept in 24 bits, while a capacity may have 32: a bucket holds its capacity only
below `2 ^ 24` (`holdsCapacity_iff`). The tokens of a refill are added in 32 bits, so a bucket
that is left alone for long may come out with fewer tokens than before (`waitingHelps_iff`).
-/

namespace ChainMarketPrice.Distribution
namespace LockFreeTokenBucket

/-- The answers of a bucket to a sequence of `(tokens, now)` calls, and the bucket that is
left. -/
def consumeAll (b : LockFreeTokenBucket) (calls : List (UInt32 × UInt64)) :
    List Bool × LockFreeTokenBucket :=
  Transducer.run (fun b c => b.tryConsume c.1 c.2) b calls

@[simp] lemma consumeAll_nil (b : LockFreeTokenBucket) : b.consumeAll [] = ([], b) := rfl

lemma consumeAll_cons (b : LockFreeTokenBucket) (c : UInt32 × UInt64)
    (calls : List (UInt32 × UInt64)) :
    b.consumeAll (c :: calls) =
      ((b.tryConsume c.1 c.2).1 :: ((b.tryConsume c.1 c.2).2.consumeAll calls).1,
        ((b.tryConsume c.1 c.2).2.consumeAll calls).2) := rfl

lemma granted_cons (b : LockFreeTokenBucket) (c : UInt32 × UInt64)
    (calls : List (UInt32 × UInt64)) :
    b.granted (c :: calls) = (if (b.tryConsume c.1 c.2).1 then c.1.toNat else 0)
      + (b.tryConsume c.1 c.2).2.granted calls := rfl

/-! ## At one instant -/

lemma refillWrapping_self (rate capacity last avail : ℕ) :
    refillWrapping rate capacity last avail last = (last, avail) := by
  have hzero : refilledTokens rate (last - last) = 0 := by
    rw [refilledTokens, Nat.sub_self, Nat.zero_mul, Nat.zero_mod, Nat.zero_div, Nat.zero_mod]
  rw [refillWrapping, hzero]
  rfl

/-- Without time passing a call takes its tokens from the balance, if they are there. -/
lemma tryConsume_now {b : LockFreeTokenBucket} {now : UInt64} (hnow : lastMs b.state = now.toNat)
    (tokens : UInt32) :
    b.tryConsume tokens now =
      if balance b.state < tokens.toNat then (false, b)
      else (true, b.withWord now.toNat (balance b.state - tokens.toNat)) := by
  rw [tryConsume_wrapping, refillAt, hnow, refillWrapping_self]

/-- Along requests at one instant the balance and what was granted add up. -/
theorem consumeAll_now {now : UInt64} (requests : List UInt32) {b : LockFreeTokenBucket}
    (hnow : lastMs b.state = now.toNat) :
    let calls := requests.map (·, now)
    lastMs (b.consumeAll calls).2.state = now.toNat ∧
      balance (b.consumeAll calls).2.state + b.granted calls = balance b.state ∧
      ((requests.map UInt32.toNat).sum ≤ balance b.state →
        ∀ answer ∈ (b.consumeAll calls).1, answer = true) := by
  have hts : now.toNat < 2 ^ 40 := hnow ▸ lastMs_lt b.state
  dsimp only
  induction requests generalizing b with
  | nil => exact ⟨hnow, rfl, fun _ answer h => absurd h List.not_mem_nil⟩
  | cons tokens requests ih =>
    have hstep := tryConsume_now hnow tokens
    rw [List.map_cons, consumeAll_cons, granted_cons, List.map_cons, List.sum_cons]
    by_cases hlt : balance b.state < tokens.toNat
    · -- denied: the bucket stays as it is
      rw [if_pos hlt] at hstep
      rw [hstep]
      dsimp only
      rw [if_neg Bool.false_ne_true, Nat.zero_add]
      obtain ⟨hlast, hsum, -⟩ := ih hnow
      exact ⟨hlast, hsum, fun hle => by omega⟩
    · rw [if_neg hlt] at hstep
      have hleft := balance_lt b.state
      have hword := (lastMs_withWord b now.toNat (balance b.state - tokens.toNat)).trans
        (Nat.mod_eq_of_lt hts)
      have hbal := (balance_withWord b now.toNat (balance b.state - tokens.toNat)).trans
        (Nat.mod_eq_of_lt (by omega))
      rw [hstep]
      dsimp only
      rw [if_pos rfl]
      obtain ⟨hlast, hsum, hall⟩ := ih hword
      rw [hbal] at hsum hall
      refine ⟨hlast, by omega, fun hle answer h => ?_⟩
      rcases List.mem_cons.mp h with rfl | h
      · rfl
      · exact hall (by omega) answer h

/-! ## The capacity -/

/-- A fresh bucket grants requests at its first instant up to its capacity, and nothing more
once the capacity is spent. -/
def HoldsCapacity (rate capacity : UInt32) (t0 : UInt64) : Prop :=
  ∀ requests : List UInt32,
    let b := new rate capacity t0
    let calls := requests.map (·, t0)
    ((requests.map UInt32.toNat).sum ≤ capacity.toNat →
      ∀ answer ∈ (b.consumeAll calls).1, answer = true) ∧
    (b.granted calls = capacity.toNat → ((b.consumeAll calls).2.tryConsume 1 t0).1 = false)

theorem holdsCapacity_iff (rate capacity : UInt32) {t0 : UInt64} (ht0 : t0.toNat < 2 ^ 40) :
    HoldsCapacity rate capacity t0 ↔ capacity.toNat < 2 ^ 24 := by
  have hlast := (lastMs_new rate capacity t0).trans (Nat.mod_eq_of_lt ht0)
  have hbal := balance_new rate capacity t0
  constructor
  · intro h
    by_contra hbig
    -- the whole capacity is more than the 24 bits that are kept of it
    have hall := (h [capacity]).1 (by simp)
    have hstep := tryConsume_now hlast capacity
    rw [hbal, if_pos (by omega)] at hstep
    rw [List.map_singleton, consumeAll_cons, hstep] at hall
    exact absurd (hall false List.mem_cons_self) (by decide)
  · intro hcap requests
    rw [Nat.mod_eq_of_lt hcap] at hbal
    obtain ⟨hlastNow, hsum, hall⟩ := consumeAll_now requests hlast
    rw [hbal] at hsum hall
    refine ⟨hall, fun hspent => ?_⟩
    have hone : UInt32.toNat 1 = 1 := rfl
    rw [tryConsume_now hlastNow, if_pos (by omega)]

/-- A capacity of 24 bits that is spent in two requests. -/
theorem holdsCapacity_iff_hundred : HoldsCapacity 100 10 1000 :=
  (holdsCapacity_iff 100 10 (by decide)).mpr (by decide)

/-- A bucket for two billion tokens starts with three and a half million. -/
theorem twoBillion_denied :
    ¬ ∀ (rate capacity : UInt32) (t0 : UInt64), t0.toNat < 2 ^ 40 →
      HoldsCapacity rate capacity t0 := by
  intro h
  have hall := (h 2000000000 2000000000 0 (by decide) [2000000000]).1 (by decide)
  exact absurd hall (by decide)

/-! ## Buckets in use -/

/-- The buckets that calls with timestamps below `2 ^ 40` lead to. -/
def Reached (rate capacity : UInt32) (b : LockFreeTokenBucket) : Prop :=
  ∃ (t0 : UInt64) (calls : List (UInt32 × UInt64)), t0.toNat < 2 ^ 40 ∧
    (∀ c ∈ calls, c.2.toNat < 2 ^ 40) ∧ b = ((new rate capacity t0).consumeAll calls).2

/-- What every bucket in use has: its own rate and capacity, and no more tokens than that. -/
structure Sound (rate capacity : UInt32) (b : LockFreeTokenBucket) : Prop where
  rate_eq : b.refillRatePerSec = rate
  capacity_eq : b.burstCapacity = capacity
  balance_le : balance b.state ≤ capacity.toNat

lemma refillWrapping_avail_le (rate last now : ℕ) {capacity avail : ℕ} (h : avail ≤ capacity) :
    (refillWrapping rate capacity last avail now).2 ≤ capacity := by
  unfold refillWrapping
  dsimp only
  split_ifs with hzero hfull
  · exact h
  · exact le_refl _
  · show (avail + refilledTokens rate (now - last)) % 2 ^ 32 ≤ capacity
    omega

lemma Sound.refillAt_le {rate capacity : UInt32} {b : LockFreeTokenBucket}
    (h : Sound rate capacity b) (now : UInt64) : (b.refillAt now).2 ≤ capacity.toNat := by
  have hle := h.balance_le
  rw [← h.capacity_eq] at hle ⊢
  exact refillWrapping_avail_le _ _ _ hle

lemma Sound.tryConsume {rate capacity : UInt32} {b : LockFreeTokenBucket}
    (h : Sound rate capacity b) (tokens : UInt32) (now : UInt64) :
    Sound rate capacity (b.tryConsume tokens now).2 := by
  have havail := h.refillAt_le now
  rw [tryConsume_wrapping]
  split_ifs with hlt
  · exact h
  · refine ⟨h.rate_eq, h.capacity_eq, ?_⟩
    show balance (b.withWord _ ((b.refillAt now).2 - tokens.toNat)).state ≤ capacity.toNat
    rw [balance_withWord]
    exact (Nat.mod_le _ _).trans (by omega)

lemma Reached.sound {rate capacity : UInt32} {b : LockFreeTokenBucket}
    (h : Reached rate capacity b) : Sound rate capacity b := by
  obtain ⟨t0, calls, -, -, rfl⟩ := h
  have hnew : Sound rate capacity (new rate capacity t0) := by
    refine ⟨rfl, rfl, ?_⟩
    rw [balance_new]
    exact Nat.mod_le _ _
  generalize new rate capacity t0 = b at hnew
  induction calls generalizing b with
  | nil => exact hnew
  | cons c calls ih =>
    rw [consumeAll_cons]
    exact ih _ (hnew.tryConsume c.1 c.2)

/-! ## Waiting -/

/-- Whatever a bucket would have granted by some time, it grants then. -/
def WaitingHelps (b : LockFreeTokenBucket) (later : UInt64) : Prop :=
  ∀ (tokens : UInt32) (now : UInt64), now ≤ later →
    (b.tryConsume tokens now).1 = true → (b.tryConsume tokens later).1 = true

/-- The thousandths of a token that the time since the last refill is worth. -/
def earned (b : LockFreeTokenBucket) (now : UInt64) : ℕ :=
  (now.toNat - lastMs b.state) * b.refillRatePerSec.toNat

lemma tryConsume_fst_iff (b : LockFreeTokenBucket) (tokens : UInt32) (now : UInt64) :
    (b.tryConsume tokens now).1 = true ↔ tokens.toNat ≤ (b.refillAt now).2 := by
  rw [tryConsume_wrapping]
  split_ifs with hlt
  · exact iff_of_false (by decide) (by omega)
  · exact iff_of_true rfl (by omega)

variable {rate capacity : UInt32} {b : LockFreeTokenBucket}

lemma earned_mono {now later : UInt64} (hle : now ≤ later) : b.earned now ≤ b.earned later := by
  rw [UInt64.le_iff_toNat_le] at hle
  exact Nat.mul_le_mul_right _ (Nat.sub_le_sub_right hle _)

/-- While the sum fits in 32 bits, it is what a call finds, up to the capacity. -/
lemma Sound.refillAt_eq (h : Sound rate capacity b) {now : UInt64}
    (hfit : balance b.state + b.earned now / 1000 < 2 ^ 32) :
    (b.refillAt now).2 = min (balance b.state + b.earned now / 1000) capacity.toNat := by
  have hle := h.balance_le
  have hrefilled : refilledTokens b.refillRatePerSec.toNat (now.toNat - lastMs b.state)
      = b.earned now / 1000 := by
    rw [refilledTokens, ← earned, Nat.mod_eq_of_lt (show b.earned now < 2 ^ 64 by omega),
      Nat.mod_eq_of_lt (by omega)]
  unfold refillAt refillWrapping
  dsimp only
  rw [hrefilled, h.capacity_eq, Nat.mod_eq_of_lt hfit]
  split_ifs with hzero hfull
  · show balance b.state = _
    omega
  · show capacity.toNat = _
    omega
  · show balance b.state + b.earned now / 1000 = _
    omega

/-- A bucket is full when the sum that is left of 32 bits reaches the capacity. -/
lemma Sound.refillAt_eq_capacity_iff (h : Sound rate capacity b) (now : UInt64) :
    (b.refillAt now).2 = capacity.toNat ↔
      capacity.toNat ≤ (balance b.state + b.earned now % 2 ^ 64 / 1000) % 2 ^ 32 := by
  have hle := h.balance_le
  have hbal := balance_lt b.state
  have hrefilled : refilledTokens b.refillRatePerSec.toNat (now.toNat - lastMs b.state)
      = b.earned now % 2 ^ 64 / 1000 % 2 ^ 32 := rfl
  unfold refillAt refillWrapping
  dsimp only
  rw [hrefilled, h.capacity_eq]
  split_ifs with hzero hfull
  · show balance b.state = _ ↔ _
    omega
  · show capacity.toNat = _ ↔ _
    omega
  · show (balance b.state + b.earned now % 2 ^ 64 / 1000 % 2 ^ 32) % 2 ^ 32 = _ ↔ _
    omega

/-- A refill goes through the capacity before it leaves 32 bits. -/
lemma Sound.exists_full (h : Sound rate capacity b) (hcap : capacity.toNat < 2 ^ 24)
    {later : UInt64} (hlater : later.toNat < 2 ^ 40)
    (hover : 2 ^ 32 ≤ balance b.state + b.earned later / 1000) :
    ∃ now ≤ later, (b.refillAt now).2 = capacity.toNat := by
  have hrate := rate.toNat_lt
  have hle := h.balance_le
  have hlast := lastMs_lt b.state
  have hpos : 0 < rate.toNat := by
    by_contra hzero
    rw [earned, h.rate_eq, Nat.eq_zero_of_not_pos hzero, Nat.mul_zero] at hover
    omega
  -- the milliseconds that the whole capacity takes, rounded up
  obtain ⟨elapsed, helapsed⟩ : ∃ ms, ms = capacity.toNat * 1000 / rate.toNat + 1 := ⟨_, rfl⟩
  have hcut := Nat.div_add_mod (capacity.toNat * 1000) rate.toNat
  have hrest := Nat.mod_lt (capacity.toNat * 1000) hpos
  have hworth : elapsed * rate.toNat = capacity.toNat * 1000 - capacity.toNat * 1000 % rate.toNat
      + rate.toNat := by
    rw [helapsed, Nat.add_mul, Nat.one_mul, Nat.mul_comm]
    omega
  have hbefore : lastMs b.state + elapsed ≤ later.toNat := by
    by_contra hafter
    have hmul := Nat.mul_le_mul_right rate.toNat
      (show later.toNat - lastMs b.state ≤ elapsed by omega)
    rw [earned, h.rate_eq] at hover
    omega
  have hnow : (UInt64.ofNat (lastMs b.state + elapsed)).toNat = lastMs b.state + elapsed :=
    UInt64.toNat_ofNat_of_lt' (show lastMs b.state + elapsed < 2 ^ 64 by omega)
  have hearned : b.earned (UInt64.ofNat (lastMs b.state + elapsed)) = elapsed * rate.toNat := by
    rw [earned, hnow, Nat.add_sub_cancel_left, h.rate_eq]
  refine ⟨UInt64.ofNat (lastMs b.state + elapsed), ?_, ?_⟩
  · rw [UInt64.le_iff_toNat_le, hnow]
    exact hbefore
  · rw [h.refillAt_eq (by rw [hearned]; omega), hearned]
    omega

/-- Waiting helps as long as the tokens that were earned fit in 32 bits with the balance; behind
that, it takes luck. -/
theorem waitingHelps_iff (hcap : capacity.toNat < 2 ^ 24) (hb : Reached rate capacity b)
    {later : UInt64} (hlater : later.toNat < 2 ^ 40) :
    WaitingHelps b later ↔
      balance b.state + b.earned later / 1000 < 2 ^ 32 ∨
      capacity.toNat ≤ (balance b.state + b.earned later % 2 ^ 64 / 1000) % 2 ^ 32 := by
  have h := hb.sound
  rw [← h.refillAt_eq_capacity_iff]
  constructor
  · intro hwait
    rcases Nat.lt_or_ge (balance b.state + b.earned later / 1000) (2 ^ 32) with hfit | hover
    · exact .inl hfit
    · -- on the way there the bucket was full, and full it has to be again
      obtain ⟨now, hle, hfull⟩ := h.exists_full hcap hlater hover
      have hgranted := (tryConsume_fst_iff b capacity now).mpr hfull.ge
      have hstill := (tryConsume_fst_iff b capacity later).mp (hwait capacity now hle hgranted)
      exact .inr (le_antisymm (h.refillAt_le later) hstill)
  · intro hcase tokens now hle hgranted
    rw [tryConsume_fst_iff] at hgranted ⊢
    refine hgranted.trans ?_
    rcases hcase with hfit | hfull
    · have hearned := earned_mono (b := b) hle
      have hdiv := Nat.div_le_div_right (c := 1000) hearned
      rw [h.refillAt_eq hfit, h.refillAt_eq (by omega)]
      exact min_le_min_right _ (by omega)
    · exact hfull ▸ h.refillAt_le now

/-- A bucket that was drained is full a second later. -/
theorem waitingHelps_iff_second : WaitingHelps ((new 1000 10 0).tryConsume 10 0).2 1000 := by
  have hreached : Reached 1000 10 ((new 1000 10 0).tryConsume 10 0).2 :=
    ⟨0, [(10, 0)], by decide, List.forall_mem_singleton.mpr (by decide), rfl⟩
  exact (waitingHelps_iff (by decide) hreached (by decide)).mpr (.inl (by decide))

/-- At a token a millisecond a drained bucket is full after ten of them and empty again after
`2 ^ 32`, fifty days later. -/
theorem waiting_empties :
    ¬ ∀ (rate capacity : UInt32) (b : LockFreeTokenBucket) (tokens : UInt32) (now later : UInt64),
      capacity.toNat < 2 ^ 24 → Reached rate capacity b → now ≤ later → later.toNat < 2 ^ 40 →
      (b.tryConsume tokens now).1 = true → (b.tryConsume tokens later).1 = true := by
  intro h
  have hreached : Reached 1000 10 ((new 1000 10 0).tryConsume 10 0).2 :=
    ⟨0, [(10, 0)], by decide, List.forall_mem_singleton.mpr (by decide), rfl⟩
  have hgranted := h 1000 10 _ 10 10 4294967296 (by decide) hreached (by decide) (by decide)
    (by decide)
  exact absurd hgranted (by decide)

end LockFreeTokenBucket
end ChainMarketPrice.Distribution
