import Mathlib.Algebra.Order.Group.Nat
import Mathlib.Data.List.Chain
import Mathlib.Tactic.Ring
import Mathlib.Tactic.Linarith
import ChainMarketPrice.Distribution.TokenBucket

/-!
# The rate bound of `LockFreeTokenBucket`

A refill rounds twice: the elapsed milliseconds become whole tokens, and the whole tokens
become milliseconds again. The second rounding goes down, so a refill that does not fill
the bucket may charge less time than the tokens it hands out are worth. `chargesInFull` is
the condition under which no refill does so, and `rateBound_iff` says that it is exactly
the condition under which the bucket keeps its rate.
-/

namespace ChainMarketPrice.Distribution
namespace LockFreeTokenBucket

/-! ## Reading the packed word -/

/-- The timestamp field of a packed word. -/
def lastMs (w : UInt64) : ℕ := (w >>> 24).toNat

/-- The token field of a packed word. -/
def balance (w : UInt64) : ℕ := (w &&& 0x00FFFFFF).toNat

lemma balance_eq (w : UInt64) : balance w = w.toNat % 2 ^ 24 := by
  rw [balance, UInt64.toNat_and]
  exact Nat.and_two_pow_sub_one_eq_mod w.toNat 24

lemma lastMs_eq (w : UInt64) : lastMs w = w.toNat / 2 ^ 24 := by
  rw [lastMs, UInt64.toNat_shiftRight, Nat.shiftRight_eq_div_pow]
  rfl

lemma balance_lt (w : UInt64) : balance w < 2 ^ 24 := by
  rw [balance_eq]
  exact Nat.mod_lt _ (by norm_num)

lemma lastMs_lt (w : UInt64) : lastMs w < 2 ^ 40 := by
  rw [lastMs_eq]
  have := w.toNat_lt
  omega

/-- A packed word is its timestamp shifted past the token field, plus the tokens; both are cut
to their fields. -/
lemma toNat_pack (ts : UInt64) (tokens : UInt32) :
    (pack ts tokens).toNat = ts.toNat % 2 ^ 40 * 2 ^ 24 + tokens.toNat % 2 ^ 24 := by
  have htok : (tokens.toUInt64 &&& 0x00FFFFFF).toNat = tokens.toNat % 2 ^ 24 := by
    rw [UInt64.toNat_and, UInt32.toNat_toUInt64]
    exact Nat.and_two_pow_sub_one_eq_mod tokens.toNat 24
  have hshift : (ts <<< 24).toNat = (ts.toNat % 2 ^ 40) <<< 24 := by
    rw [UInt64.toNat_shiftLeft]
    show ts.toNat <<< 24 % 2 ^ 64 = (ts.toNat % 2 ^ 40) <<< 24
    rw [Nat.shiftLeft_eq, Nat.shiftLeft_eq]
    omega
  rw [pack, UInt64.toNat_or, htok, hshift,
    ← Nat.shiftLeft_add_eq_or_of_lt (Nat.mod_lt _ (by norm_num)), Nat.shiftLeft_eq]

lemma lastMs_pack (ts : UInt64) (tokens : UInt32) : lastMs (pack ts tokens) = ts.toNat % 2 ^ 40 := by
  rw [lastMs_eq, toNat_pack]
  omega

lemma balance_pack (ts : UInt64) (tokens : UInt32) :
    balance (pack ts tokens) = tokens.toNat % 2 ^ 24 := by
  rw [balance_eq, toNat_pack]
  omega

lemma lastMs_new (rate capacity : UInt32) (t0 : UInt64) :
    lastMs (new rate capacity t0).state = t0.toNat % 2 ^ 40 := lastMs_pack t0 capacity

lemma balance_new (rate capacity : UInt32) (t0 : UInt64) :
    balance (new rate capacity t0).state = capacity.toNat % 2 ^ 24 := balance_pack t0 capacity

/-! ## The refill on naturals -/

/-- The refill without machine widths: the time charged and the tokens available. -/
def refillNat (rate capacity last avail now : ℕ) : ℕ × ℕ :=
  let refilled := (now - last) * rate / 1000
  if refilled = 0 then (last, avail)
  else if capacity ≤ avail + refilled then (now, capacity)
  else (min (last + refilled * 1000 / rate) now, avail + refilled)

/-- The tokens of `elapsed` milliseconds, as the code computes them: the product is kept in 64
bits and the quotient in 32. -/
def refilledTokens (rate elapsed : ℕ) : ℕ := elapsed * rate % 2 ^ 64 / 1000 % 2 ^ 32

/-- The refill with the widths of the code. -/
def refillWrapping (rate capacity last avail now : ℕ) : ℕ × ℕ :=
  let refilled := refilledTokens rate (now - last)
  if refilled = 0 then (last, avail)
  else if capacity ≤ (avail + refilled) % 2 ^ 32 then (now, capacity)
  else (min (last + refilled * 1000 / rate) now, (avail + refilled) % 2 ^ 32)

lemma toNat_refilled (rate : UInt32) {curr now : UInt64} (hnow : now > curr >>> 24) :
    ((now - curr >>> 24) * rate.toUInt64 / 1000).toUInt32.toNat
      = refilledTokens rate.toNat (now.toNat - lastMs curr) := by
  have helapsed : (now - curr >>> 24).toNat = now.toNat - lastMs curr :=
    UInt64.toNat_sub_of_le _ _ (UInt64.le_of_lt hnow)
  rw [UInt64.toNat_toUInt32, UInt64.toNat_div, UInt64.toNat_mul, helapsed, UInt32.toNat_toUInt64]
  rfl

/-- The timestamp a partial refill of `k` tokens moves to. -/
lemma chargedTs_toNat {rate refilled : UInt32} {curr : UInt64} :
    (curr >>> 24 + refilled.toUInt64 * 1000 / rate.toUInt64).toNat
      = lastMs curr + refilled.toNat * 1000 / rate.toNat := by
  have hr := refilled.toNat_lt
  have hms : (refilled.toUInt64 * 1000 / rate.toUInt64).toNat
      = refilled.toNat * 1000 / rate.toNat := by
    rw [UInt64.toNat_div, UInt64.toNat_mul, UInt32.toNat_toUInt64, UInt32.toNat_toUInt64]
    congr 1
    exact Nat.mod_eq_of_lt (by show refilled.toNat * 1000 < 2 ^ 64; omega)
  have hle : refilled.toNat * 1000 / rate.toNat ≤ refilled.toNat * 1000 := Nat.div_le_self _ _
  have hlast := lastMs_lt curr
  rw [UInt64.toNat_add, hms]
  exact Nat.mod_eq_of_lt (by show lastMs curr + _ < 2 ^ 64; omega)

/-- The timestamp never leaves 64 bits, so nothing but the tokens wraps. -/
theorem toNat_refill (rate capacity : UInt32) (curr now : UInt64) :
    ((refill rate capacity curr now).1.toNat, (refill rate capacity curr now).2.toNat)
      = refillWrapping rate.toNat capacity.toNat (lastMs curr) (balance curr) now.toNat := by
  have havail : (curr &&& 0x00FFFFFF).toUInt32.toNat = balance curr := by
    rw [UInt64.toNat_toUInt32]
    exact Nat.mod_eq_of_lt (lt_trans (balance_lt curr) (by norm_num))
  unfold refill refillWrapping
  dsimp only
  by_cases hnow : now > curr >>> 24
  · have hrefilled := toNat_refilled rate hnow
    set refilled := ((now - curr >>> 24) * rate.toUInt64 / 1000).toUInt32
    set k := refilledTokens rate.toNat (now.toNat - lastMs curr)
    rw [if_pos hnow]
    by_cases hzero : refilled > 0
    · -- whole tokens: the sum may wrap before it is compared with the capacity
      have hkpos : k ≠ 0 := by
        have : 0 < refilled.toNat := hzero
        omega
      have hmin : (min ((curr &&& 0x00FFFFFF).toUInt32 + refilled) capacity).toNat
          = min ((balance curr + k) % 2 ^ 32) capacity.toNat := by
        rw [UInt32.toNat_min, UInt32.toNat_add, havail, hrefilled]
      rw [if_pos hzero, if_neg hkpos]
      by_cases hfull : min ((curr &&& 0x00FFFFFF).toUInt32 + refilled) capacity ≥ capacity
      · have hcap : capacity.toNat ≤ (balance curr + k) % 2 ^ 32 := by
          have : capacity.toNat ≤ min ((balance curr + k) % 2 ^ 32) capacity.toNat := hmin ▸ hfull
          omega
        rw [if_pos hfull, if_pos hcap]
        refine Prod.ext rfl ?_
        show UInt32.toNat _ = _
        rw [hmin, Nat.min_eq_right hcap]
      · have hcap : ¬ capacity.toNat ≤ (balance curr + k) % 2 ^ 32 := by
          have : ¬ capacity.toNat ≤ min ((balance curr + k) % 2 ^ 32) capacity.toNat := hmin ▸ hfull
          omega
        rw [if_neg hfull, if_neg hcap]
        refine Prod.ext ?_ ?_
        · show UInt64.toNat _ = _
          rw [UInt64.toNat_min, chargedTs_toNat, hrefilled]
        · show UInt32.toNat _ = _
          rw [hmin, Nat.min_eq_left (by omega)]
    · -- less than a token: the timestamp stays, so the time is not lost
      have hkzero : k = 0 := by
        have : ¬ 0 < refilled.toNat := hzero
        omega
      rw [if_neg hzero, if_pos hkzero, havail]
      rfl
  · -- a clock that went back refills nothing
    have hge : now.toNat ≤ lastMs curr := Nat.le_of_not_lt hnow
    have hkzero : refilledTokens rate.toNat (now.toNat - lastMs curr) = 0 := by
      rw [refilledTokens, Nat.sub_eq_zero_of_le hge, Nat.zero_mul, Nat.zero_mod, Nat.zero_div,
        Nat.zero_mod]
    rw [if_neg hnow, if_pos hkzero, havail]
    rfl

/-- As long as the refilled tokens fit in 31 bits, nothing wraps. -/
lemma refillWrapping_eq {rate last avail now : ℕ} (capacity : ℕ) (havail : avail < 2 ^ 24)
    (hfit : (now - last) * rate < 1000 * 2 ^ 31) :
    refillWrapping rate capacity last avail now = refillNat rate capacity last avail now := by
  have hrefilled : refilledTokens rate (now - last) = (now - last) * rate / 1000 := by
    rw [refilledTokens, Nat.mod_eq_of_lt (show (now - last) * rate < 2 ^ 64 by omega),
      Nat.mod_eq_of_lt (by omega)]
  have hsum : (avail + (now - last) * rate / 1000) % 2 ^ 32 = avail + (now - last) * rate / 1000 :=
    Nat.mod_eq_of_lt (by omega)
  unfold refillWrapping refillNat
  dsimp only
  rw [hrefilled, hsum]

/-- A refill never moves the timestamp back, and never past `now`. -/
lemma refillNat_ts (rate capacity avail : ℕ) {last now : ℕ} (h : last ≤ now) :
    last ≤ (refillNat rate capacity last avail now).1 ∧
      (refillNat rate capacity last avail now).1 ≤ now := by
  unfold refillNat
  dsimp only
  split_ifs
  · exact ⟨le_refl _, h⟩
  · exact ⟨h, le_refl _⟩
  · exact ⟨le_min (Nat.le_add_right _ _) h, min_le_right _ _⟩

/-- A refill never takes the balance past the capacity. -/
lemma refillNat_avail_le (rate last now : ℕ) {capacity avail : ℕ} (h : avail ≤ capacity) :
    (refillNat rate capacity last avail now).2 ≤ capacity := by
  unfold refillNat
  dsimp only
  split_ifs
  · exact h
  · exact le_refl _
  · simp only; omega

/-! ## One call -/

/-- The bucket after a granted call that leaves `avail` tokens at time `ts`. -/
def withWord (b : LockFreeTokenBucket) (ts avail : ℕ) : LockFreeTokenBucket :=
  { b with state := pack (UInt64.ofNat ts) (UInt32.ofNat avail) }

@[simp] lemma withWord_rate (b : LockFreeTokenBucket) (ts avail : ℕ) :
    (b.withWord ts avail).refillRatePerSec = b.refillRatePerSec := rfl

@[simp] lemma withWord_capacity (b : LockFreeTokenBucket) (ts avail : ℕ) :
    (b.withWord ts avail).burstCapacity = b.burstCapacity := rfl

lemma lastMs_withWord (b : LockFreeTokenBucket) (ts avail : ℕ) :
    lastMs (b.withWord ts avail).state = ts % 2 ^ 40 := by
  have hword : (UInt64.ofNat ts).toNat = ts % 2 ^ 64 := UInt64.toNat_ofNat'
  rw [withWord, lastMs_pack, hword]
  omega

lemma balance_withWord (b : LockFreeTokenBucket) (ts avail : ℕ) :
    balance (b.withWord ts avail).state = avail % 2 ^ 24 := by
  have htokens : (UInt32.ofNat avail).toNat = avail % 2 ^ 32 := UInt32.toNat_ofNat'
  rw [withWord, balance_pack, htokens]
  omega

/-- The refill of a bucket at some time. -/
def refillAt (b : LockFreeTokenBucket) (now : UInt64) : ℕ × ℕ :=
  refillWrapping b.refillRatePerSec.toNat b.burstCapacity.toNat (lastMs b.state) (balance b.state)
    now.toNat

/-- What one call does. -/
theorem tryConsume_wrapping (b : LockFreeTokenBucket) (tokens : UInt32) (now : UInt64) :
    b.tryConsume tokens now =
      if (b.refillAt now).2 < tokens.toNat then (false, b)
      else (true, b.withWord (b.refillAt now).1 ((b.refillAt now).2 - tokens.toNat)) := by
  have hr := toNat_refill b.refillRatePerSec b.burstCapacity b.state now
  unfold tryConsume attempt refillAt
  dsimp only
  rw [← hr]
  dsimp only
  set out := refill b.refillRatePerSec b.burstCapacity b.state now
  by_cases hlt : out.2 < tokens
  · rw [if_pos hlt, if_pos (UInt32.lt_iff_toNat_lt.mp hlt)]
  · have hle : tokens ≤ out.2 := UInt32.not_lt.mp hlt
    rw [if_neg hlt, if_neg (fun h => hlt (UInt32.lt_iff_toNat_lt.mpr h))]
    simp only [withWord, UInt64.ofNat_toNat, ← UInt32.toNat_sub_of_le _ _ hle, UInt32.ofNat_toNat]

/-- What one call does when nothing wraps. -/
theorem tryConsume_eq (b : LockFreeTokenBucket) (tokens : UInt32) (now : UInt64)
    (hfit : (now.toNat - lastMs b.state) * b.refillRatePerSec.toNat < 1000 * 2 ^ 31) :
    b.tryConsume tokens now =
      let r := refillNat b.refillRatePerSec.toNat b.burstCapacity.toNat (lastMs b.state)
        (balance b.state) now.toNat
      if r.2 < tokens.toNat then (false, b) else (true, b.withWord r.1 (r.2 - tokens.toNat)) := by
  rw [tryConsume_wrapping, refillAt,
    refillWrapping_eq b.burstCapacity.toNat (balance_lt b.state) hfit]

/-! ## Whole runs keep the rate when every refill is charged in full -/

/-- The rates and capacities at which a refill never hands out tokens that its time charge
does not pay for: one of the two roundings is exact, or every refill fills the bucket. -/
def ChargesInFull (rate capacity : ℕ) : Prop :=
  rate ∣ 1000 ∨ 1000 ∣ rate ∨ capacity ≤ max 1 (rate / 1000)

/-- The time of the last call, `t0` when there is none. -/
def endTime (t0 : UInt64) (calls : List (UInt32 × UInt64)) : UInt64 :=
  (calls.map Prod.snd).getLastD t0

@[simp] lemma endTime_cons (t0 : UInt64) (c : UInt32 × UInt64) (calls : List (UInt32 × UInt64)) :
    endTime t0 (c :: calls) = endTime c.2 calls := by
  simp only [endTime, List.map_cons, List.getLastD_cons]

/-- The rate bound at one rate and capacity: over every run with non-decreasing times that
fit the packed fields, the tokens granted are at most the burst plus the rate times the
elapsed time. -/
def RateBound (rate capacity : UInt32) : Prop :=
  ∀ (t0 : UInt64) (calls : List (UInt32 × UInt64)),
    List.IsChain (· ≤ ·) (t0 :: calls.map Prod.snd) →
    (endTime t0 calls).toNat < 2 ^ 40 →
    rate.toNat * ((endTime t0 calls).toNat - t0.toNat) / 1000 < 2 ^ 31 →
    (new rate capacity t0).granted calls
      ≤ capacity.toNat + rate.toNat * ((endTime t0 calls).toNat - t0.toNat) / 1000

/-- Times only grow along a run. -/
lemma le_endTime {t0 : UInt64} {calls : List (UInt32 × UInt64)}
    (h : List.IsChain (· ≤ ·) (t0 :: calls.map Prod.snd)) :
    t0.toNat ≤ (endTime t0 calls).toNat := by
  induction calls generalizing t0 with
  | nil => exact le_refl _
  | cons c calls ih =>
    rw [List.map_cons, List.isChain_cons_cons] at h
    rw [endTime_cons]
    exact le_trans (UInt64.le_iff_toNat_le.mp h.1) (ih h.2)

/-- Under `ChargesInFull` the tokens a refill adds are paid for by the time it charges. -/
theorem refillNat_charges (avail : ℕ) {rate capacity last now : ℕ} (hrate : 1 ≤ rate)
    (hc : ChargesInFull rate capacity) (hle : last ≤ now) :
    1000 * (refillNat rate capacity last avail now).2
      ≤ 1000 * avail + rate * ((refillNat rate capacity last avail now).1 - last) := by
  obtain ⟨e, rfl⟩ : ∃ e, now = last + e := ⟨now - last, by omega⟩
  have hfloor : 1000 * (e * rate / 1000) ≤ rate * e := by
    rw [Nat.mul_comm rate]
    exact Nat.mul_div_le _ _
  unfold refillNat
  dsimp only
  rw [Nat.add_sub_cancel_left]
  split_ifs with hzero hfull
  · simp
  · simp only [Nat.add_sub_cancel_left]
    omega
  · -- a partial refill: its charge must be exact
    have hpaid : 1000 * (e * rate / 1000) ≤ rate * (e * rate / 1000 * 1000 / rate) := by
      rcases hc with hd | hd | hcap
      · have hdvd : rate ∣ e * rate / 1000 * 1000 := Dvd.dvd.mul_left hd _
        rw [Nat.mul_div_cancel' hdvd, Nat.mul_comm]
      · have hk : e * rate / 1000 * 1000 = rate * e := by
          rw [Nat.div_mul_cancel (Dvd.dvd.mul_left hd e), Nat.mul_comm]
        rw [hk, Nat.mul_div_cancel_left _ (by omega), Nat.mul_comm 1000, hk]
      · -- every refill fills the bucket, so this branch is not reached
        exfalso
        have hle' : rate / 1000 ≤ e * rate / 1000 := by
          refine Nat.div_le_div_right (Nat.le_mul_of_pos_left _ (Nat.pos_of_ne_zero ?_))
          rintro rfl
          simp at hzero
        omega
    have hle' : e * rate / 1000 * 1000 / rate ≤ e := by
      refine Nat.div_le_of_le_mul ?_
      rw [Nat.mul_comm]
      exact hfloor
    simp only
    rw [Nat.min_eq_left (by omega), Nat.add_sub_cancel_left]
    omega

/-- The run invariant: what a bucket still grants is paid for by its balance and by the
time from its timestamp on. -/
theorem granted_le {rate capacity : UInt32} (hrate : 1 ≤ rate.toNat)
    (hcap : capacity.toNat < 2 ^ 24) (hc : ChargesInFull rate.toNat capacity.toNat)
    (calls : List (UInt32 × UInt64)) :
    ∀ (b : LockFreeTokenBucket) (t : UInt64), b.refillRatePerSec = rate →
      b.burstCapacity = capacity → balance b.state ≤ capacity.toNat →
      lastMs b.state ≤ t.toNat →
      List.IsChain (· ≤ ·) (t :: calls.map Prod.snd) →
      (endTime t calls).toNat < 2 ^ 40 →
      ((endTime t calls).toNat - lastMs b.state) * rate.toNat < 1000 * 2 ^ 31 →
      1000 * b.granted calls
        ≤ 1000 * balance b.state + rate.toNat * ((endTime t calls).toNat - lastMs b.state) := by
  induction calls with
  | nil =>
    intro b t _ _ _ _ _ _ _
    simp [granted]
  | cons c calls ih =>
    obtain ⟨tokens, now⟩ := c
    intro b t hr hb hbal hlast hchain hend hfit
    rw [List.map_cons, List.isChain_cons_cons] at hchain
    rw [endTime_cons] at hend hfit ⊢
    dsimp only at hend hfit hchain ⊢
    obtain ⟨htn, hchain⟩ := hchain
    have hnow : now.toNat ≤ (endTime now calls).toNat := le_endTime hchain
    have hln : lastMs b.state ≤ now.toNat := le_trans hlast (UInt64.le_iff_toNat_le.mp htn)
    have hfit' : (now.toNat - lastMs b.state) * b.refillRatePerSec.toNat < 1000 * 2 ^ 31 := by
      rw [hr]
      exact lt_of_le_of_lt (Nat.mul_le_mul_right _ (by omega)) hfit
    have hstep := tryConsume_eq b tokens now hfit'
    have hts := refillNat_ts b.refillRatePerSec.toNat b.burstCapacity.toNat (balance b.state) hln
    have hav := refillNat_avail_le b.refillRatePerSec.toNat (lastMs b.state) now.toNat
      (hb ▸ hbal)
    have hpay := refillNat_charges (balance b.state) (hr ▸ hrate)
      (hr ▸ hb ▸ hc) hln
    dsimp only at hstep
    rw [hr, hb] at hstep hts hav hpay
    set r := refillNat rate.toNat capacity.toNat (lastMs b.state) (balance b.state) now.toNat
    unfold granted
    rw [hstep]
    by_cases hden : r.2 < tokens.toNat
    · -- denied: the word is unchanged
      rw [if_pos hden]
      simp only [Bool.false_eq_true, if_false, Nat.zero_add]
      exact ih b now hr hb hbal hln hchain hend hfit
    · rw [if_neg hden]
      simp only [if_true]
      have hts40 : r.1 < 2 ^ 40 := by omega
      have hl := (lastMs_withWord b r.1 (r.2 - tokens.toNat)).trans (Nat.mod_eq_of_lt hts40)
      have hbl := (balance_withWord b r.1 (r.2 - tokens.toNat)).trans
        (Nat.mod_eq_of_lt (show r.2 - tokens.toNat < 2 ^ 24 by omega))
      have hih := ih (b.withWord r.1 (r.2 - tokens.toNat)) now hr hb (by rw [hbl]; omega)
        (by rw [hl]; exact hts.2) hchain hend
        (by rw [hl]; exact lt_of_le_of_lt (Nat.mul_le_mul_right _ (by omega)) hfit)
      rw [hl, hbl] at hih
      -- the charge up to `r.1` and the charge after it add up
      have hsplit : rate.toNat * ((endTime now calls).toNat - lastMs b.state)
          = rate.toNat * (r.1 - lastMs b.state)
            + rate.toNat * ((endTime now calls).toNat - r.1) := by
        rw [← Nat.mul_add]
        congr 1
        omega
      omega

/-! ## Undercharged refills exceed the rate -/

@[simp] lemma withWord_withWord (b : LockFreeTokenBucket) (ts avail ts' avail' : ℕ) :
    (b.withWord ts avail).withWord ts' avail' = b.withWord ts' avail' := rfl

/-- A fresh bucket grants its whole capacity at once. -/
lemma new_tryConsume_capacity {rate capacity : UInt32} (hcap : capacity.toNat < 2 ^ 24) :
    (new rate capacity 0).tryConsume capacity 0
      = (true, (new rate capacity 0).withWord 0 0) := by
  have hbal := (balance_new rate capacity 0).trans (Nat.mod_eq_of_lt hcap)
  have hlast : lastMs (new rate capacity 0).state = 0 := lastMs_new rate capacity 0
  have hstep := tryConsume_eq (new rate capacity 0) capacity 0 (by simp)
  rw [hbal, hlast] at hstep
  rw [hstep]
  simp [refillNat]

/-- A drained bucket grants exactly what a refill gives it. -/
lemma drained_tryConsume (b : LockFreeTokenBucket) {ts ts' k now : ℕ} (hts : ts < 2 ^ 40)
    (hk : k < 2 ^ 32) (hnow : now < 2 ^ 64)
    (hfit : (now - ts) * b.refillRatePerSec.toNat < 1000 * 2 ^ 31)
    (h : refillNat b.refillRatePerSec.toNat b.burstCapacity.toNat ts 0 now = (ts', k)) :
    (b.withWord ts 0).tryConsume (UInt32.ofNat k) (UInt64.ofNat now)
      = (true, b.withWord ts' 0) := by
  have hnow' : (UInt64.ofNat now).toNat = now := UInt64.toNat_ofNat_of_lt' hnow
  have hk' : (UInt32.ofNat k).toNat = k := UInt32.toNat_ofNat_of_lt' hk
  have hl := (lastMs_withWord b ts 0).trans (Nat.mod_eq_of_lt hts)
  have hbl : balance (b.withWord ts 0).state = 0 := balance_withWord b ts 0
  have hstep := tryConsume_eq (b.withWord ts 0) (UInt32.ofNat k) (UInt64.ofNat now)
    (by rw [hnow', hl]; exact hfit)
  rw [hl, hbl, hnow', hk', withWord_rate, withWord_capacity, h] at hstep
  rw [hstep]
  simp

/-- Above one token a millisecond the time charged for a single millisecond's refill rounds
to zero, so the refill can be repeated at the same instant. -/
theorem not_rateBound_fast {rate capacity : UInt32} (hrate : 1000 < rate.toNat)
    (hdvd : ¬ 1000 ∣ rate.toNat) (hcap : capacity.toNat < 2 ^ 24)
    (hq : rate.toNat / 1000 < capacity.toNat) : ¬ RateBound rate capacity := by
  intro hbound
  set q := rate.toNat / 1000 with hqdef
  have hrlt := rate.toNat_lt
  have hq32 : q < 2 ^ 32 := by omega
  -- the refill of one millisecond charges no time
  have hrefill : refillNat rate.toNat capacity.toNat 0 0 1 = (0, q) := by
    have hcharge : q * 1000 / rate.toNat = 0 := by
      rw [Nat.div_eq_zero_iff]
      omega
    simp only [refillNat, Nat.sub_zero, Nat.one_mul, ← hqdef, Nat.zero_add, hcharge]
    rw [if_neg (by omega), if_neg (by omega)]
    rfl
  have hgrant := drained_tryConsume (new rate capacity 0) (show 0 < 2 ^ 40 by norm_num)
    hq32 (show 1 < 2 ^ 64 by norm_num) (by show (1 - 0) * rate.toNat < _; omega) hrefill
  -- the whole capacity at once, then the same millisecond twice
  have h := hbound 0 [(capacity, 0), (UInt32.ofNat q, 1), (UInt32.ofNat q, 1)]
    (by simp) (by show (1 : UInt64).toNat < 2 ^ 40; decide)
    (by show rate.toNat * 1 / 1000 < _; omega)
  have hgrant' : ((new rate capacity 0).withWord 0 0).tryConsume (UInt32.ofNat q) 1
      = (true, (new rate capacity 0).withWord 0 0) := hgrant
  simp only [granted, new_tryConsume_capacity hcap, hgrant', if_true,
    UInt32.toNat_ofNat_of_lt' hq32] at h
  have hend : rate.toNat * ((endTime 0 [(capacity, 0), (UInt32.ofNat q, 1),
      (UInt32.ofNat q, 1)]).toNat - UInt64.toNat 0) / 1000 = q := by
    show rate.toNat * 1 / 1000 = q
    omega
  omega

/-- One single-token call each time the elapsed time has just passed `f` milliseconds. -/
def slowCalls (f : ℕ) : ℕ → ℕ → List (UInt32 × UInt64)
  | _, 0 => []
  | i, m + 1 => (1, UInt64.ofNat (i * f + f + 1)) :: slowCalls f (i + 1) m

lemma slowCalls_isChain {f : ℕ} (hf : f ≤ 1000) :
    ∀ (m i : ℕ) (t : UInt64), t.toNat ≤ i * f + 1 → i + m ≤ 2000 →
      List.IsChain (· ≤ ·) (t :: (slowCalls f i m).map Prod.snd) := by
  intro m
  induction m with
  | zero => intro i t _ _; exact List.isChain_singleton t
  | succ m ih =>
    intro i t ht him
    have hif : i * f ≤ 2000 * 1000 := Nat.mul_le_mul (by omega) hf
    have hn : (UInt64.ofNat (i * f + f + 1)).toNat = i * f + f + 1 :=
      UInt64.toNat_ofNat_of_lt' (by show _ < 2 ^ 64; omega)
    rw [slowCalls, List.map_cons, List.isChain_cons_cons]
    refine ⟨UInt64.le_iff_toNat_le.mpr (by rw [hn]; omega), ih (i + 1) _ ?_ (by omega)⟩
    rw [hn, Nat.add_mul]
    omega

lemma endTime_slowCalls (f : ℕ) :
    ∀ (m i : ℕ) (t : UInt64),
      endTime t (slowCalls f i (m + 1)) = UInt64.ofNat ((i + m) * f + f + 1) := by
  intro m
  induction m with
  | zero => intro i t; rfl
  | succ m ih =>
    intro i t
    rw [slowCalls, endTime_cons, ih (i + 1)]
    congr 3
    ring

/-- Every slow call is granted from a bucket with nothing saved. -/
lemma granted_slowCalls {rate capacity : UInt32} (b : LockFreeTokenBucket)
    (hr : b.refillRatePerSec = rate) (hb : b.burstCapacity = capacity)
    (hrate : 1 ≤ rate.toNat) (hrate' : rate.toNat < 1000) (hcap : 2 ≤ capacity.toNat) :
    ∀ m i : ℕ, i + m ≤ 2000 →
      (b.withWord (i * (1000 / rate.toNat)) 0).granted (slowCalls (1000 / rate.toNat) i m) = m := by
  intro m
  induction m with
  | zero => intro i _; rfl
  | succ m ih =>
    intro i him
    set f := 1000 / rate.toNat with hf
    have hf1000 : f ≤ 1000 := Nat.div_le_self _ _
    have hif : i * f ≤ 2000 * 1000 := Nat.mul_le_mul (by omega) hf1000
    -- `f + 1` milliseconds are worth one token and less than two
    have hmod := Nat.div_add_mod 1000 rate.toNat
    have hmodlt := Nat.mod_lt 1000 (show 0 < rate.toNat by omega)
    have hone : (f + 1) * rate.toNat / 1000 = 1 := by
      rw [Nat.add_mul, Nat.one_mul, Nat.mul_comm f, hf]
      omega
    have hrefill : refillNat b.refillRatePerSec.toNat b.burstCapacity.toNat (i * f) 0
        (i * f + f + 1) = ((i + 1) * f, 1) := by
      have hcharge : 1 * 1000 / rate.toNat = f := by rw [Nat.one_mul]
      rw [hr, hb]
      simp only [refillNat, Nat.add_assoc, Nat.add_sub_cancel_left, hone, Nat.zero_add, hcharge]
      rw [if_neg (by omega), if_neg (by omega), Nat.min_eq_left (by omega), Nat.add_mul,
        Nat.one_mul]
    have hfit : (i * f + f + 1 - i * f) * b.refillRatePerSec.toNat < 1000 * 2 ^ 31 := by
      rw [hr, Nat.add_assoc, Nat.add_sub_cancel_left]
      calc (f + 1) * rate.toNat ≤ 1001 * 1000 := Nat.mul_le_mul (by omega) (by omega)
        _ < 1000 * 2 ^ 31 := by norm_num
    have hgrant := drained_tryConsume b (show i * f < 2 ^ 40 by omega) (k := 1) (by norm_num)
      (show i * f + f + 1 < 2 ^ 64 by omega) hfit hrefill
    have hgrant' : (b.withWord (i * f) 0).tryConsume 1 (UInt64.ofNat (i * f + f + 1))
        = (true, b.withWord ((i + 1) * f) 0) := hgrant
    rw [slowCalls, granted, hgrant']
    simp only [if_true]
    rw [ih (i + 1) (by omega)]
    show 1 + m = m + 1
    omega

/-- Below one token a millisecond a token that is not a whole number of milliseconds is
charged too little; after `rate` such tokens the deficit is more than one token. -/
theorem not_rateBound_slow {rate capacity : UInt32} (hrate : 1 ≤ rate.toNat)
    (hrate' : rate.toNat < 1000) (hdvd : ¬ rate.toNat ∣ 1000) (hcap : capacity.toNat < 2 ^ 24)
    (hcap2 : 2 ≤ capacity.toNat) : ¬ RateBound rate capacity := by
  intro hbound
  set f := 1000 / rate.toNat with hf
  have hf1000 : f ≤ 1000 := Nat.div_le_self _ _
  have hfr : rate.toNat * f ≤ 999 := by
    have hle : rate.toNat * f ≤ 1000 := Nat.mul_div_le _ _
    have hne : rate.toNat * f ≠ 1000 := fun h => hdvd ⟨f, h.symm⟩
    omega
  set n := rate.toNat with hn
  have hend : (endTime 0 ((capacity, 0) :: slowCalls f 0 (n + 1))).toNat = (0 + n) * f + f + 1 := by
    rw [endTime_cons, endTime_slowCalls]
    refine UInt64.toNat_ofNat_of_lt' ?_
    have : (0 + n) * f ≤ 1000 * 1000 := Nat.mul_le_mul (by omega) hf1000
    show _ < 2 ^ 64
    omega
  have hnf : (0 + n) * f + f + 1 ≤ 1002 * 1000 := by
    have : (0 + n) * f ≤ 1000 * 1000 := Nat.mul_le_mul (by omega) hf1000
    omega
  -- the deficit: `n + 1` tokens cost at most `999 (n + 1) + n` thousandths
  have hcost : n * ((0 + n) * f + f + 1) ≤ 999 * (n + 1) + n := by
    calc n * ((0 + n) * f + f + 1) = n * f * (n + 1) + n := by ring
      _ ≤ 999 * (n + 1) + n := by
        have := Nat.mul_le_mul_right (n + 1) hfr
        omega
  have h := hbound 0 ((capacity, 0) :: slowCalls f 0 (n + 1))
    (by
      rw [List.map_cons, List.isChain_cons_cons]
      exact ⟨UInt64.le_refl 0, slowCalls_isChain hf1000 (n + 1) 0 0 (by simp) (by omega)⟩)
    (by rw [hend]; omega)
    (by
      rw [hend]
      show n * ((0 + n) * f + f + 1) / 1000 < 2 ^ 31
      omega)
  rw [hend] at h
  have hgrant : ((new rate capacity 0).withWord 0 0).granted (slowCalls f 0 (n + 1)) = n + 1 := by
    have h0 := granted_slowCalls (new rate capacity 0) rfl rfl hrate hrate' hcap2
      (n + 1) 0 (by omega)
    rwa [Nat.zero_mul] at h0
  simp only [granted, new_tryConsume_capacity hcap, if_true, hgrant] at h
  have hdiv : rate.toNat * ((0 + n) * f + f + 1 - UInt64.toNat 0) / 1000 ≤ n := by
    show n * ((0 + n) * f + f + 1) / 1000 ≤ n
    omega
  omega

/-! ## The rate bound, exactly -/

/-- The bucket keeps its rate over every run exactly at the rates and capacities where no
refill is undercharged. -/
theorem rateBound_iff (rate capacity : UInt32) (hrate : 1 ≤ rate.toNat)
    (hcap : capacity.toNat < 2 ^ 24) :
    RateBound rate capacity ↔ ChargesInFull rate.toNat capacity.toNat := by
  constructor
  · intro hbound
    by_contra hc
    simp only [ChargesInFull, not_or, not_le] at hc
    obtain ⟨h1, h2, h3⟩ := hc
    rcases Nat.lt_or_ge rate.toNat 1000 with hlt | hge
    · exact not_rateBound_slow hrate hlt h1 hcap (by omega) hbound
    · have hne : rate.toNat ≠ 1000 := fun h => h2 (by rw [h])
      exact not_rateBound_fast (by omega) h2 hcap (by omega) hbound
  · intro hc t0 calls hchain hend hfit
    have ht0 := le_endTime hchain
    have hts : t0.toNat < 2 ^ 40 := by omega
    have hbal := (balance_new rate capacity t0).trans (Nat.mod_eq_of_lt hcap)
    have hlast := (lastMs_new rate capacity t0).trans (Nat.mod_eq_of_lt hts)
    have h := granted_le hrate hcap hc calls (new rate capacity t0) t0 rfl rfl
      (by rw [hbal]) (by rw [hlast]) hchain hend
      (by rw [hlast, Nat.mul_comm]; omega)
    rw [hbal, hlast] at h
    omega

/-- The iff at a rate that divides 1000 and at one that does not. -/
theorem rateBound_iff_instances :
    (RateBound 100 10 ↔ ChargesInFull 100 10) ∧ (RateBound 1500 2 ↔ ChargesInFull 1500 2) :=
  ⟨rateBound_iff 100 10 (by decide) (by decide), rateBound_iff 1500 2 (by decide) (by decide)⟩

/-- At 1500 tokens a second and a burst of 2, one millisecond after the burst is spent the
bucket grants one token twice: 4 in all, where the bound is 3. -/
theorem rateBound_exceeded : ¬ ∀ rate capacity : UInt32, 1 ≤ rate.toNat →
    capacity.toNat < 2 ^ 24 → RateBound rate capacity := by
  intro h
  have hrun := h 1500 2 (by decide) (by decide) 0 [(2, 0), (1, 1), (1, 1)] (by decide)
    (by decide) (by decide)
  revert hrun
  decide

end LockFreeTokenBucket
end ChainMarketPrice.Distribution
