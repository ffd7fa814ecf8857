import Mathlib.Data.Nat.Factorization.Basic
import ChainMarketPrice.Distribution.TokenBucketWidths

/-!
# The origin of the clock

A timestamp is kept in 40 bits and compared with clock readings of 64. Two buckets whose clocks
differ by an offset behave alike while the readings fit in 40 bits; Unix time in milliseconds
does not. `originFree_iff` says at which rates and capacities the origin never matters.
-/

namespace ChainMarketPrice.Distribution
namespace LockFreeTokenBucket

/-! ## A clock that is put forward -/

/-- Calls at times that do not go back, none of which overflows when the clock is put forward
by `d`. -/
structure ClockRun (t0 d : UInt64) (calls : List (UInt32 × UInt64)) : Prop where
  ordered : List.IsChain (· ≤ ·) (t0 :: calls.map Prod.snd)
  fits : ∀ c ∈ calls, c.2.toNat + d.toNat < 2 ^ 64

/-- A call with the clock put forward. -/
def putForward (d : UInt64) (c : UInt32 × UInt64) : UInt32 × UInt64 := (c.1, c.2 + d)

/-- The answers to a run do not change when the clock is put forward. -/
def OriginFree (rate capacity : UInt32) (t0 d : UInt64) (calls : List (UInt32 × UInt64)) : Prop :=
  ((new rate capacity (t0 + d)).consumeAll (calls.map (putForward d))).1
    = ((new rate capacity t0).consumeAll calls).1

lemma toNat_add_of_fits {now d : UInt64} (h : now.toNat + d.toNat < 2 ^ 64) :
    (now + d).toNat = now.toNat + d.toNat := by
  rw [UInt64.toNat_add]
  exact Nat.mod_eq_of_lt h

/-- Buckets with the same tokens at hand answer alike, and both or neither move on. -/
lemma tryConsume_alike {b b' : LockFreeTokenBucket} {now now' : UInt64}
    (h : (b'.refillAt now').2 = (b.refillAt now).2) (tokens : UInt32) :
    b.tryConsume tokens now = (false, b) ∧ b'.tryConsume tokens now' = (false, b') ∨
      ∃ left, b.tryConsume tokens now = (true, b.withWord (b.refillAt now).1 left) ∧
        b'.tryConsume tokens now' = (true, b'.withWord (b'.refillAt now').1 left) := by
  rw [tryConsume_wrapping, tryConsume_wrapping, h]
  by_cases hlt : (b.refillAt now).2 < tokens.toNat
  · rw [if_pos hlt, if_pos hlt]
    exact .inl ⟨rfl, rfl⟩
  · rw [if_neg hlt, if_neg hlt]
    exact .inr ⟨_, rfl, rfl⟩

/-! ## While the readings fit in 40 bits -/

/-- A refill only looks at the time between its two readings. -/
lemma refillWrapping_add (rate capacity last avail now d : ℕ) :
    refillWrapping rate capacity (last + d) avail (now + d) =
      ((refillWrapping rate capacity last avail now).1 + d,
        (refillWrapping rate capacity last avail now).2) := by
  unfold refillWrapping
  dsimp only
  rw [Nat.add_sub_add_right]
  split_ifs
  · rfl
  · rfl
  · rw [Nat.add_right_comm, Nat.add_min_add_right]

/-- Buckets of one kind and one balance, the second with its clock put forward. -/
structure Ahead (d : ℕ) (b b' : LockFreeTokenBucket) : Prop where
  rate_eq : b'.refillRatePerSec = b.refillRatePerSec
  capacity_eq : b'.burstCapacity = b.burstCapacity
  balance_eq : balance b'.state = balance b.state
  last_eq : lastMs b'.state = lastMs b.state + d

lemma Ahead.refillAt {b b' : LockFreeTokenBucket} {now d : UInt64} (h : Ahead d.toNat b b')
    (hfits : now.toNat + d.toNat < 2 ^ 64) :
    (b'.refillAt (now + d)).1 = (b.refillAt now).1 + d.toNat ∧
      (b'.refillAt (now + d)).2 = (b.refillAt now).2 := by
  unfold LockFreeTokenBucket.refillAt
  rw [h.rate_eq, h.capacity_eq, h.balance_eq, h.last_eq, toNat_add_of_fits hfits,
    refillWrapping_add]
  exact ⟨rfl, rfl⟩

lemma refillAt_ts_lt {b : LockFreeTokenBucket} {now : UInt64} {bound : ℕ}
    (hlast : lastMs b.state < bound) (hnow : now.toNat < bound) : (b.refillAt now).1 < bound := by
  unfold refillAt refillWrapping
  dsimp only
  split_ifs
  · exact hlast
  · exact hnow
  · exact lt_of_le_of_lt (min_le_right _ _) hnow

lemma Ahead.withWord {b b' : LockFreeTokenBucket} {d ts left : ℕ} (h : Ahead d b b')
    (hts : ts + d < 2 ^ 40) : Ahead d (b.withWord ts left) (b'.withWord (ts + d) left) := by
  refine ⟨h.rate_eq, h.capacity_eq, ?_, ?_⟩
  · rw [balance_withWord, balance_withWord]
  · rw [lastMs_withWord, lastMs_withWord, Nat.mod_eq_of_lt hts, Nat.mod_eq_of_lt (by omega)]

/-- What two runs have in common while there are calls to come; behind the last one a reading
may have left the field. -/
structure AheadWith (d : UInt64) (calls : List (UInt32 × UInt64)) (b b' : LockFreeTokenBucket) :
    Prop where
  fits : ∀ c ∈ calls, c.2.toNat + d.toNat < 2 ^ 64
  readings : ∀ c ∈ calls.dropLast, c.2.toNat + d.toNat < 2 ^ 40
  ahead : calls ≠ [] → Ahead d.toNat b b'

lemma AheadWith.step {d : UInt64} {c : UInt32 × UInt64} {calls : List (UInt32 × UInt64)}
    {b b' : LockFreeTokenBucket} (h : AheadWith d (c :: calls) b b') :
    (b.tryConsume c.1 c.2).1 = (b'.tryConsume c.1 (c.2 + d)).1 ∧
      AheadWith d calls (b.tryConsume c.1 c.2).2 (b'.tryConsume c.1 (c.2 + d)).2 := by
  have hahead := h.ahead (List.cons_ne_nil c calls)
  obtain ⟨hts, havail⟩ := hahead.refillAt (h.fits c List.mem_cons_self)
  have hfits := fun x hx => h.fits x (List.mem_cons_of_mem c hx)
  have hreadings : ∀ x ∈ calls.dropLast, x.2.toNat + d.toNat < 2 ^ 40 := by
    intro x hx
    have hne : calls ≠ [] := List.ne_nil_of_mem (List.dropLast_subset calls hx)
    apply h.readings
    rw [List.dropLast_cons_of_ne_nil hne]
    exact List.mem_cons_of_mem c hx
  rcases tryConsume_alike havail c.1 with ⟨hb, hb'⟩ | ⟨left, hb, hb'⟩
  · rw [hb, hb']
    exact ⟨rfl, hfits, hreadings, fun _ => hahead⟩
  · rw [hb, hb']
    refine ⟨rfl, hfits, hreadings, fun hne => ?_⟩
    -- a later call is to come, so the time that is stored now has to fit
    have hnow : c.2.toNat + d.toNat < 2 ^ 40 := by
      apply h.readings
      rw [List.dropLast_cons_of_ne_nil hne]
      exact List.mem_cons_self
    have hlast := hahead.last_eq ▸ lastMs_lt b'.state
    have hbound : (b.refillAt c.2).1 < 2 ^ 40 - d.toNat := refillAt_ts_lt (by omega) (by omega)
    rw [hts]
    exact hahead.withWord (by omega)

/-- The origin does not matter as long as every reading but the last one fits in 40 bits. -/
theorem originFree_of_readings {rate capacity : UInt32} {t0 d : UInt64}
    {calls : List (UInt32 × UInt64)} (hrun : ClockRun t0 d calls)
    (hreadings : ∀ t ∈ (t0 :: calls.map Prod.snd).dropLast, t.toNat + d.toNat < 2 ^ 40) :
    OriginFree rate capacity t0 d calls := by
  have hbefore : calls ≠ [] →
      t0.toNat + d.toNat < 2 ^ 40 ∧ ∀ c ∈ calls.dropLast, c.2.toNat + d.toNat < 2 ^ 40 := by
    intro hne
    rw [List.dropLast_cons_of_ne_nil (by simpa using hne), ← List.map_dropLast] at hreadings
    exact ⟨hreadings t0 List.mem_cons_self, fun c hc =>
      hreadings c.2 (List.mem_cons_of_mem t0 (List.mem_map_of_mem hc))⟩
  have hsim : ∀ c calls b b', AheadWith d (c :: calls) b b' →
      (b.tryConsume c.1 c.2).1 = (b'.tryConsume c.1 (c.2 + d)).1 ∧
        AheadWith d calls (b.tryConsume c.1 c.2).2 (b'.tryConsume c.1 (c.2 + d)).2 :=
    fun c calls b b' h => h.step
  refine Transducer.run_map_simulation hsim ⟨hrun.fits, ?_, ?_⟩
  · intro c hc
    exact (hbefore (List.ne_nil_of_mem (List.dropLast_subset calls hc))).2 c hc
  · intro hne
    have ht0 := (hbefore hne).1
    refine ⟨rfl, rfl, ?_, ?_⟩
    · rw [balance_new, balance_new]
    · rw [lastMs_new, lastMs_new, toNat_add_of_fits (by omega)]
      omega

/-! ## Rates and capacities without an origin -/

/-- The tokens of a refill pay for at most the time that has passed. -/
lemma charged_le (rate elapsed : ℕ) : refilledTokens rate elapsed * 1000 / rate ≤ elapsed := by
  have htokens : refilledTokens rate elapsed * 1000 ≤ elapsed * rate := by
    have hmod := Nat.mod_le (elapsed * rate) (2 ^ 64)
    unfold refilledTokens
    omega
  exact Nat.div_le_of_le_mul (by rwa [Nat.mul_comm rate])

/-- At a multiple of `2 ^ 24` the product keeps no more of the elapsed time than the field does
of the timestamps. -/
lemma refilledTokens_add_mul {rate : ℕ} (h : 2 ^ 24 ∣ rate) (elapsed q : ℕ) :
    refilledTokens rate (elapsed + 2 ^ 40 * q) = refilledTokens rate elapsed := by
  obtain ⟨s, rfl⟩ := h
  have hsplit : (elapsed + 2 ^ 40 * q) * (2 ^ 24 * s) = elapsed * (2 ^ 24 * s) + 2 ^ 64 * (q * s) := by
    ring
  rw [refilledTokens, hsplit, Nat.add_mul_mod_self_left]
  rfl

lemma refillWrapping_modulo {rate last last' d now : ℕ} (capacity avail : ℕ)
    (hrate : 2 ^ 24 ∣ rate) (hlast : last' = (last + d) % 2 ^ 40) (hle : last ≤ now) :
    let r := refillWrapping rate capacity last avail now
    let r' := refillWrapping rate capacity last' avail (now + d)
    r'.2 = r.2 ∧ r'.1 % 2 ^ 40 = (r.1 + d) % 2 ^ 40 ∧ r.1 ≤ now := by
  have helapsed : now + d - last' = (now - last) + 2 ^ 40 * ((last + d) / 2 ^ 40) := by
    omega
  have htokens := refilledTokens_add_mul hrate (now - last) ((last + d) / 2 ^ 40)
  have hcharged := charged_le rate (now - last)
  have hcharged' := charged_le rate (now + d - last')
  rw [helapsed, htokens] at hcharged'
  unfold refillWrapping
  dsimp only
  rw [helapsed, htokens]
  split_ifs with hzero hfull
  · refine ⟨rfl, ?_, hle⟩
    show last' % 2 ^ 40 = (last + d) % 2 ^ 40
    omega
  · exact ⟨rfl, rfl, le_refl now⟩
  · refine ⟨rfl, ?_, min_le_right _ _⟩
    -- neither refill is charged more time than has passed
    show min _ _ % 2 ^ 40 = (min _ _ + d) % 2 ^ 40
    rw [Nat.min_eq_left (by omega), Nat.min_eq_left (by omega)]
    omega

/-- What two runs have in common when both timestamps are cut to their fields. -/
structure AheadModulo (d : UInt64) (calls : List (UInt32 × UInt64))
    (b b' : LockFreeTokenBucket) : Prop where
  fits : ∀ c ∈ calls, c.2.toNat + d.toNat < 2 ^ 64
  ordered : ∃ t : UInt64, lastMs b.state ≤ t.toNat ∧
    List.IsChain (· ≤ ·) (t :: calls.map Prod.snd)
  rate_dvd : 2 ^ 24 ∣ b.refillRatePerSec.toNat
  rate_eq : b'.refillRatePerSec = b.refillRatePerSec
  capacity_eq : b'.burstCapacity = b.burstCapacity
  balance_eq : balance b'.state = balance b.state
  last_eq : lastMs b'.state = (lastMs b.state + d.toNat) % 2 ^ 40

lemma AheadModulo.step {d : UInt64} {c : UInt32 × UInt64} {calls : List (UInt32 × UInt64)}
    {b b' : LockFreeTokenBucket} (h : AheadModulo d (c :: calls) b b') :
    (b.tryConsume c.1 c.2).1 = (b'.tryConsume c.1 (c.2 + d)).1 ∧
      AheadModulo d calls (b.tryConsume c.1 c.2).2 (b'.tryConsume c.1 (c.2 + d)).2 := by
  obtain ⟨t, hlast, hchain⟩ := h.ordered
  rw [List.map_cons, List.isChain_cons_cons] at hchain
  have hle : lastMs b.state ≤ c.2.toNat := hlast.trans (UInt64.le_iff_toNat_le.mp hchain.1)
  have hfits := fun x hx => h.fits x (List.mem_cons_of_mem c hx)
  have hnow := toNat_add_of_fits (h.fits c List.mem_cons_self)
  have hrefill := refillWrapping_modulo b.burstCapacity.toNat (balance b.state) h.rate_dvd
    h.last_eq hle
  rw [← hnow, ← refillAt, ← h.rate_eq, ← h.capacity_eq, ← h.balance_eq, ← refillAt] at hrefill
  obtain ⟨havail, hts, htsLe⟩ := hrefill
  rcases tryConsume_alike havail c.1 with ⟨hb, hb'⟩ | ⟨left, hb, hb'⟩
  · rw [hb, hb']
    exact ⟨rfl, hfits, ⟨c.2, hle, hchain.2⟩, h.rate_dvd, h.rate_eq, h.capacity_eq, h.balance_eq,
      h.last_eq⟩
  · rw [hb, hb']
    refine ⟨rfl, hfits, ⟨c.2, ?_, hchain.2⟩, h.rate_dvd, h.rate_eq, h.capacity_eq, ?_, ?_⟩
    · rw [lastMs_withWord]
      exact (Nat.mod_le _ _).trans htsLe
    · rw [balance_withWord, balance_withWord]
    · rw [lastMs_withWord, lastMs_withWord, hts]
      omega

/-- At a rate that is a multiple of `2 ^ 24` the 40 bits are all that counts. -/
lemma originFree_of_dvd {rate : UInt32} (h : 2 ^ 24 ∣ rate.toNat) (capacity : UInt32)
    {t0 d : UInt64} {calls : List (UInt32 × UInt64)} (hrun : ClockRun t0 d calls) :
    OriginFree rate capacity t0 d calls := by
  have hsim : ∀ c calls b b', AheadModulo d (c :: calls) b b' →
      (b.tryConsume c.1 c.2).1 = (b'.tryConsume c.1 (c.2 + d)).1 ∧
        AheadModulo d calls (b.tryConsume c.1 c.2).2 (b'.tryConsume c.1 (c.2 + d)).2 :=
    fun c calls b b' h => h.step
  refine Transducer.run_map_simulation hsim
    ⟨hrun.fits, ⟨t0, ?_, hrun.ordered⟩, h, rfl, rfl, ?_, ?_⟩
  · rw [lastMs_new]
    exact Nat.mod_le _ _
  · rw [balance_new, balance_new]
  · have hadd := UInt64.toNat_add t0 d
    rw [lastMs_new, lastMs_new, hadd]
    omega

/-- A bucket without a capacity has no tokens at any time. -/
lemma originFree_of_capacity_zero (rate : UInt32) (t0 d : UInt64)
    (calls : List (UInt32 × UInt64)) : OriginFree rate 0 t0 d calls := by
  have hnew : ∀ t, Sound rate 0 (new rate 0 t) := by
    intro t
    exact ⟨rfl, rfl, (balance_new rate 0 t).le⟩
  have hstep : ∀ (c : UInt32 × UInt64) b b', Sound rate 0 b ∧ Sound rate 0 b' →
      (b.tryConsume c.1 c.2).1 = (b'.tryConsume c.1 (c.2 + d)).1 ∧
        Sound rate 0 (b.tryConsume c.1 c.2).2 ∧ Sound rate 0 (b'.tryConsume c.1 (c.2 + d)).2 := by
    rintro c b b' ⟨hb, hb'⟩
    have hempty := Nat.le_zero.mp (hb.refillAt_le c.2)
    have hempty' := Nat.le_zero.mp (hb'.refillAt_le (c.2 + d))
    refine ⟨?_, hb.tryConsume c.1 c.2, hb'.tryConsume c.1 (c.2 + d)⟩
    rcases tryConsume_alike (hempty'.trans hempty.symm) c.1 with ⟨h, h'⟩ | ⟨left, h, h'⟩
    · rw [h, h']
    · rw [h, h']
  exact Transducer.run_map_simulation (R := fun _ b b' => Sound rate 0 b ∧ Sound rate 0 b')
    (fun c _ => hstep c) ⟨hnew t0, hnew (t0 + d)⟩

/-! ## At every other rate it matters -/

lemma exists_mul_mod_eq_two_pow {n rate : ℕ} (h : ¬ 2 ^ n ∣ rate) :
    ∃ m j, j < n ∧ m < 2 ^ n ∧ m * rate % 2 ^ n = 2 ^ j := by
  have hne : rate ≠ 0 := by
    rintro rfl
    exact h (dvd_zero _)
  obtain ⟨j, odd, hodd, rfl⟩ := Nat.exists_eq_two_pow_mul_odd hne
  have hj : j < n := by
    by_contra hge
    exact h ((pow_dvd_pow 2 (by omega)).trans (dvd_mul_right _ _))
  -- the odd part can be inverted modulo the power of two
  have hcop : Nat.Coprime odd (2 ^ n) := (Nat.coprime_two_right.mpr hodd).pow_right n
  obtain ⟨m, hm, hinverse⟩ := Nat.exists_mul_mod_eq_one_of_coprime hcop (Nat.one_lt_two_pow (by omega))
  have hpow : 2 ^ j < 2 ^ n := Nat.pow_lt_pow_right (by decide) hj
  refine ⟨m, j, hj, hm, ?_⟩
  calc m * (2 ^ j * odd) % 2 ^ n = 2 ^ j * (odd * m % 2 ^ n) % 2 ^ n := by
        rw [Nat.mul_mod_mod]
        congr 1
        ring
    _ = 2 ^ j := by rw [hinverse, mul_one, Nat.mod_eq_of_lt hpow]

/-- There is an offset that a timestamp does not show and that is worth tokens. -/
lemma exists_unseen_offset {rate : ℕ} (h : ¬ 2 ^ 24 ∣ rate) :
    ∃ m < 2 ^ 24, 0 < refilledTokens rate (2 ^ 40 * m) ∧
      refilledTokens rate (2 ^ 40 * m) < 2 ^ 32 - 2 ^ 24 := by
  obtain ⟨m, j, hj, hm, hmod⟩ := exists_mul_mod_eq_two_pow h
  have htokens : refilledTokens rate (2 ^ 40 * m) = 2 ^ 40 * 2 ^ j / 1000 % 2 ^ 32 := by
    rw [refilledTokens, mul_assoc, show 2 ^ 64 = 2 ^ 40 * 2 ^ 24 from rfl, Nat.mul_mod_mul_left, hmod]
  have hall : ∀ j < 24, 0 < 2 ^ 40 * 2 ^ j / 1000 % 2 ^ 32 ∧
      2 ^ 40 * 2 ^ j / 1000 % 2 ^ 32 < 2 ^ 32 - 2 ^ 24 := by decide
  exact ⟨m, hm, htokens ▸ hall j hj⟩

lemma refillAt_unseen {b : LockFreeTokenBucket} {d : UInt64} (hlast : lastMs b.state = 0)
    (hpos : 0 < refilledTokens b.refillRatePerSec.toNat d.toNat)
    (hlt : refilledTokens b.refillRatePerSec.toNat d.toNat < 2 ^ 32 - 2 ^ 24) :
    let tokens := balance b.state + refilledTokens b.refillRatePerSec.toNat d.toNat
    (b.refillAt d).2 = min tokens b.burstCapacity.toNat ∧
      (b.burstCapacity.toNat ≤ tokens → (b.refillAt d).1 = d.toNat) := by
  have hbal := balance_lt b.state
  unfold refillAt refillWrapping
  dsimp only
  rw [hlast, Nat.sub_zero, if_neg (by omega), Nat.mod_eq_of_lt (by omega)]
  split_ifs with hfull
  · exact ⟨(Nat.min_eq_right hfull).symm, fun _ => rfl⟩
  · exact ⟨(Nat.min_eq_left (by omega)).symm, fun h => absurd h hfull⟩

/-- A full bucket that is emptied at once is full again when its clock shows the offset. -/
lemma not_originFree_of_lt {rate capacity : UInt32} {d : UInt64} (hunseen : d.toNat % 2 ^ 40 = 0)
    (hpos : 0 < refilledTokens rate.toNat d.toNat)
    (hlt : refilledTokens rate.toNat d.toNat < 2 ^ 32 - 2 ^ 24) (hcap : 0 < capacity.toNat)
    (hsmall : capacity.toNat < 2 ^ 24) :
    ¬ OriginFree rate capacity 0 d [(capacity, 0), (1, 0)] := by
  have hone : UInt32.toNat 1 = 1 := rfl
  intro h
  -- the clock starts at zero
  have hfirst : (new rate capacity 0).tryConsume capacity 0
      = (true, (new rate capacity 0).withWord 0 0) := new_tryConsume_capacity hsmall
  have hsecond : ((new rate capacity 0).withWord 0 0).tryConsume 1 0
      = (false, (new rate capacity 0).withWord 0 0) := by
    have hbal : balance ((new rate capacity 0).withWord 0 0).state = 0 := balance_withWord _ 0 0
    rw [tryConsume_now (lastMs_withWord _ 0 0), hbal, hone, if_pos (by decide)]
  -- the clock starts at the offset
  have hlast := (lastMs_new rate capacity d).trans hunseen
  have hbal := (balance_new rate capacity d).trans (Nat.mod_eq_of_lt hsmall)
  obtain ⟨havail, hts⟩ := refillAt_unseen hlast hpos hlt
  have hcapacity : (new rate capacity d).burstCapacity = capacity := rfl
  have hrate : (new rate capacity d).refillRatePerSec = rate := rfl
  rw [hbal, hcapacity, hrate] at havail hts
  have hfirst' : (new rate capacity d).tryConsume capacity d
      = (true, (new rate capacity d).withWord d.toNat 0) := by
    rw [tryConsume_wrapping, havail, hts (by omega), if_neg (by omega)]
    congr 2
    omega
  have hsecond' : (((new rate capacity d).withWord d.toNat 0).tryConsume 1 d).1 = true := by
    have hlast' := (lastMs_withWord (new rate capacity d) d.toNat 0).trans hunseen
    obtain ⟨havail', -⟩ := refillAt_unseen hlast' hpos hlt
    rw [withWord_rate, hrate] at havail'
    rw [tryConsume_fst_iff, havail', hone]
    exact le_min (by omega) hcap
  unfold OriginFree at h
  simp only [List.map_cons, List.map_nil, putForward, UInt64.zero_add, consumeAll_cons,
    consumeAll_nil, hfirst, hsecond, hfirst', hsecond'] at h
  exact absurd h (by decide)

/-- A bucket that starts with less than its capacity has one token more when its clock shows the
offset. -/
lemma not_originFree_of_ge {rate capacity : UInt32} {d : UInt64} (hunseen : d.toNat % 2 ^ 40 = 0)
    (hpos : 0 < refilledTokens rate.toNat d.toNat)
    (hlt : refilledTokens rate.toNat d.toNat < 2 ^ 32 - 2 ^ 24)
    (hlarge : 2 ^ 24 ≤ capacity.toNat) :
    ¬ OriginFree rate capacity 0 d [(UInt32.ofNat (capacity.toNat % 2 ^ 24 + 1), 0)] := by
  have htokens : (UInt32.ofNat (capacity.toNat % 2 ^ 24 + 1)).toNat = capacity.toNat % 2 ^ 24 + 1 :=
    UInt32.toNat_ofNat_of_lt' (show capacity.toNat % 2 ^ 24 + 1 < 2 ^ 32 by omega)
  intro h
  have hdenied : ((new rate capacity 0).tryConsume
      (UInt32.ofNat (capacity.toNat % 2 ^ 24 + 1)) 0).1 = false := by
    rw [tryConsume_now (lastMs_new rate capacity 0), balance_new, htokens, if_pos (by omega)]
  have hgranted : ((new rate capacity d).tryConsume
      (UInt32.ofNat (capacity.toNat % 2 ^ 24 + 1)) d).1 = true := by
    obtain ⟨havail, -⟩ := refillAt_unseen ((lastMs_new rate capacity d).trans hunseen) hpos hlt
    have hcapacity : (new rate capacity d).burstCapacity = capacity := rfl
    have hrate : (new rate capacity d).refillRatePerSec = rate := rfl
    rw [tryConsume_fst_iff, havail, htokens, balance_new, hcapacity, hrate]
    exact le_min (by omega) (by omega)
  unfold OriginFree at h
  simp only [List.map_cons, List.map_nil, putForward, UInt64.zero_add, consumeAll_cons,
    consumeAll_nil, hdenied, hgranted] at h
  exact absurd h (by decide)

lemma exists_not_originFree {rate capacity : UInt32} (hrate : ¬ 2 ^ 24 ∣ rate.toNat)
    (hcap : capacity ≠ 0) : ∃ d calls, ClockRun 0 d calls ∧ ¬ OriginFree rate capacity 0 d calls := by
  obtain ⟨m, hm, hpos, hlt⟩ := exists_unseen_offset hrate
  have hd : (UInt64.ofNat (2 ^ 40 * m)).toNat = 2 ^ 40 * m :=
    UInt64.toNat_ofNat_of_lt' (show 2 ^ 40 * m < 2 ^ 64 by omega)
  rw [← hd] at hpos hlt
  have hunseen : (UInt64.ofNat (2 ^ 40 * m)).toNat % 2 ^ 40 = 0 := by
    rw [hd]
    omega
  have hpositive : 0 < capacity.toNat := by
    by_contra hzero
    exact hcap (UInt32.toNat_inj.mp (Nat.eq_zero_of_not_pos hzero))
  have hzero : UInt64.toNat 0 + (UInt64.ofNat (2 ^ 40 * m)).toNat < 2 ^ 64 := by
    rw [hd]
    show 0 + 2 ^ 40 * m < 2 ^ 64
    omega
  -- a fresh bucket is full only when its capacity fits in the 24 bits
  rcases Nat.lt_or_ge capacity.toNat (2 ^ 24) with hsmall | hlarge
  · refine ⟨_, _, ⟨by simp, ?_⟩, not_originFree_of_lt hunseen hpos hlt hpositive hsmall⟩
    simpa using hzero
  · refine ⟨_, _, ⟨by simp, ?_⟩, not_originFree_of_ge hunseen hpos hlt hlarge⟩
    simpa using hzero

/-- The origin of the clock never matters at the rates that are multiples of `2 ^ 24` and without
a capacity, and at no others; whatever the rate, it does not matter to a run whose readings up to
the last one fit in 40 bits. -/
theorem originFree_iff (rate capacity : UInt32) :
    ((∀ (t0 d : UInt64) (calls : List (UInt32 × UInt64)), ClockRun t0 d calls →
      OriginFree rate capacity t0 d calls) ↔ 2 ^ 24 ∣ rate.toNat ∨ capacity = 0) ∧
    ∀ (t0 d : UInt64) (calls : List (UInt32 × UInt64)), ClockRun t0 d calls →
      (∀ t ∈ (t0 :: calls.map Prod.snd).dropLast, t.toNat + d.toNat < 2 ^ 40) →
      OriginFree rate capacity t0 d calls := by
  refine ⟨?_, fun t0 d calls => originFree_of_readings⟩
  constructor
  · intro h
    by_contra hnot
    rw [not_or] at hnot
    obtain ⟨d, calls, hrun, hdiff⟩ := exists_not_originFree hnot.1 hnot.2
    exact hdiff (h 0 d calls hrun)
  · rintro (hdvd | rfl) t0 d calls hrun
    · exact originFree_of_dvd hdvd capacity hrun
    · exact originFree_of_capacity_zero rate t0 d calls

/-- With Unix time in milliseconds, a bucket that was just emptied is full again. -/
theorem unixTime_refills :
    ¬ ∀ (rate capacity : UInt32) (t0 d : UInt64) (calls : List (UInt32 × UInt64)),
      ClockRun t0 d calls → OriginFree rate capacity t0 d calls := by
  intro h
  have hrun : ClockRun 0 1700000000000 [(10, 0), (1, 0)] := ⟨by decide, by simp⟩
  have hsame := h 100 10 0 1700000000000 [(10, 0), (1, 0)] hrun
  unfold OriginFree at hsame
  exact absurd hsame (by decide)

end LockFreeTokenBucket
end ChainMarketPrice.Distribution
