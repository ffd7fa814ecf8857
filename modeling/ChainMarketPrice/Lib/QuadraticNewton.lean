import Mathlib.Algebra.Order.Ring.Int
import Mathlib.Tactic.Linarith
import Mathlib.Tactic.Ring

/-!
# Newton's iteration for a quadratic

The positive root of `y * y - p * y = c`, in integers: a step takes `y` to
`(y * y + c) / (2 * y - p)`, rounded down. Wherever it starts, a step ends less than one below
the root. From above it covers half of the distance at least, and it rises only where two
consecutive values are near each other already. So a loop that runs until they are ends soon, and
what it ends with is the floor of the root, or one more where it solves the equation up to one.
-/

namespace QuadraticNewton

/-- The left side less the right: above the root it is positive. -/
def excess (p c y : ℤ) : ℤ := y * y - p * y - c

/-- One step, rounded down. -/
def step (p c y : ℤ) : ℤ := (y * y + c) / (2 * y - p)

/-- At a distance of at most one. -/
def Near (y z : ℤ) : Prop := y ≤ z + 1 ∧ z ≤ y + 1

instance (y z : ℤ) : Decidable (Near y z) := inferInstanceAs (Decidable (_ ∧ _))

/-- The loop from a value takes at most the given number of steps until two values are near each
other; `P` holds of each value from which it takes a step. -/
inductive Settles (next : ℤ → ℤ) (P : ℤ → Prop) : ℕ → ℤ → ℤ → Prop
  | here {k : ℕ} {y : ℤ} (visited : P y) (near : Near (next y) y) :
    Settles next P (k + 1) y (next y)
  | further {k : ℕ} {y result : ℤ} (visited : P y) (far : ¬Near (next y) y)
    (rest : Settles next P k (next y) result) : Settles next P (k + 1) y result

variable {p c y z : ℤ}

/-! ## The excess -/

/-- Only above the root is the excess of a number that is not negative positive. -/
lemma lt_of_excess_pos (hc : 0 ≤ c) (hz : 0 ≤ z) (h : 0 < excess p c z) : 0 < z ∧ p < z := by
  have hprod : 0 < z * (z - p) := by
    have heq : z * (z - p) = excess p c z + c := by
      unfold excess
      ring
    omega
  have hpos : 0 < z := by
    rcases hz.eq_or_lt with hzero | hpos
    · rw [← hzero, zero_mul] at hprod
      exact absurd hprod (lt_irrefl 0)
    · exact hpos
  have hdiff := pos_of_mul_pos_right hprod hz
  omega

lemma excess_pos_mono (hc : 0 ≤ c) (hy : 0 ≤ y) (h : 0 < excess p c y) (hle : y ≤ z) :
    0 < excess p c z := by
  obtain ⟨hpos, hp⟩ := lt_of_excess_pos hc hy h
  have hgrow : y * (y - p) ≤ z * (z - p) :=
    mul_le_mul hle (by omega) (by omega) (by omega)
  have heq : ∀ w, excess p c w = w * (w - p) - c := by
    intro w
    unfold excess
    ring
  rw [heq] at h ⊢
  omega

/-- The first integer above the root. -/
structure IsBar (p c e : ℤ) : Prop where
  pos : 0 < e
  above : 0 < excess p c e
  below : excess p c (e - 1) ≤ 0

lemma exists_isBar (hc : 0 ≤ c) (hz : 0 ≤ z) (h : 0 < excess p c z) : ∃ e, IsBar p c e := by
  classical
  have hexists : ∃ n : ℕ, 0 < excess p c n := ⟨z.toNat, by rwa [Int.toNat_of_nonneg hz]⟩
  have habove := Nat.find_spec hexists
  have hpos := (lt_of_excess_pos hc (Int.natCast_nonneg _) habove).1
  refine ⟨Nat.find hexists, hpos, habove, ?_⟩
  have hpred := Nat.find_min hexists (m := Nat.find hexists - 1) (by omega)
  rw [Int.not_lt] at hpred
  rwa [Int.natCast_sub (by omega), Int.natCast_one] at hpred

lemma IsBar.le_of_excess_pos {e : ℤ} (h : IsBar p c e) (hc : 0 ≤ c) (hz : 0 ≤ z)
    (hexcess : 0 < excess p c z) : e ≤ z := by
  by_contra hlt
  have hle : z ≤ e - 1 := by omega
  have habove := excess_pos_mono hc hz hexcess hle
  exact absurd h.below (Int.not_le.mpr habove)

/-! ## One step -/

lemma step_nonneg (hc : 0 ≤ c) (hslope : 0 < 2 * y - p) : 0 ≤ step p c y :=
  Int.ediv_nonneg (Int.add_nonneg (mul_self_nonneg y) hc) hslope.le

/-- What a step leaves of the excess is at most the square of its length. -/
lemma excess_step_le (hslope : 0 < 2 * y - p) :
    excess p c (step p c y) ≤ (step p c y - y) * (step p c y - y) := by
  have hdiv : step p c y * (2 * y - p) ≤ y * y + c := Int.ediv_mul_le _ hslope.ne'
  unfold excess
  linarith

/-- One above where a step ends is above the root. -/
lemma lt_excess_step_succ (hslope : 0 < 2 * y - p) :
    (step p c y + 1 - y) * (step p c y + 1 - y) < excess p c (step p c y + 1) := by
  have hdiv : y * y + c < (step p c y + 1) * (2 * y - p) := Int.lt_ediv_add_one_mul_self _ hslope
  unfold excess
  linarith

lemma excess_step_succ_pos (hslope : 0 < 2 * y - p) : 0 < excess p c (step p c y + 1) :=
  (mul_self_nonneg _).trans_lt (lt_excess_step_succ hslope)

/-- A step covers half of the distance to a point that is not below the root. -/
lemma two_mul_step_le {e : ℤ} (hslope : 0 < 2 * y - p) (hroot : 0 ≤ excess p c e)
    (he : p ≤ 2 * e) (hle : e ≤ y) : 2 * step p c y ≤ y + e := by
  have hdiv : step p c y * (2 * y - p) ≤ y * y + c := Int.ediv_mul_le _ hslope.ne'
  have hscaled : e * (2 * e - p) ≤ y * (2 * e - p) :=
    mul_le_mul_of_nonneg_right hle (by omega)
  apply le_of_mul_le_mul_right _ hslope
  unfold excess at hroot
  linarith

/-! ## Two steps -/

/-- Where a long step has ended, there is a slope for another one. -/
lemma slope_step_pos (hc : 0 ≤ c) (hy : 0 ≤ y) (hslope : 0 < 2 * y - p)
    (hfar : ¬Near (step p c y) y) : 0 < 2 * step p c y - p := by
  have hnonneg := step_nonneg hc hslope
  obtain ⟨-, hp⟩ := lt_of_excess_pos hc (by omega) (excess_step_succ_pos hslope (c := c))
  by_cases hneg : p < 0
  · omega
  -- without a negative slope, a step from two or more does not get to zero
  have hpos : 1 ≤ step p c y := by
    by_contra hzero
    have hlong : 2 ≤ y := by
      unfold Near at hfar
      omega
    have hquot : 1 ≤ step p c y := by
      refine (Int.le_ediv_iff_mul_le hslope).mpr ?_
      nlinarith
    omega
  omega

/-- After a long step the next one does not rise. -/
lemma step_step_le (hc : 0 ≤ c) (hy : 0 ≤ y) (hslope : 0 < 2 * y - p)
    (hfar : ¬Near (step p c y) y) : step p c (step p c y) ≤ step p c y := by
  by_contra hrise
  have hslope' := slope_step_pos hc hy hslope hfar
  have hlow : (step p c y + 1) * (2 * step p c y - p) ≤ step p c y * step p c y + c :=
    (Int.le_ediv_iff_mul_le hslope').mp (Int.not_le.mp hrise)
  have hsmall : excess p c (step p c y + 1) ≤ 1 := by
    unfold excess
    linarith
  -- so small an excess is left by a step of one only
  have hlength := (lt_excess_step_succ hslope (c := c)).trans_le hsmall
  have hone : step p c y + 1 - y = 0 := by
    by_contra hne
    have hpos := mul_self_pos.mpr hne
    omega
  apply hfar
  unfold Near
  omega

/-- A long step that falls covers half of the distance to the first integer above the root, and
ends no more than one below that. -/
lemma IsBar.halves {e : ℤ} (hbar : IsBar p c e) (hc : 0 ≤ c) (hslope : 0 < 2 * y - p)
    (hfall : step p c y ≤ y) (hfar : ¬Near (step p c y) y) :
    step p c y + 2 ≤ y ∧ e ≤ step p c y + 1 ∧ 2 * (step p c y - e) ≤ y - e := by
  have hnonneg := step_nonneg hc hslope
  have hlong : step p c y + 2 ≤ y := by
    unfold Near at hfar
    omega
  have hland : e ≤ step p c y + 1 :=
    hbar.le_of_excess_pos hc (by omega) (excess_step_succ_pos hslope)
  obtain ⟨-, hp⟩ := lt_of_excess_pos hc hbar.pos.le hbar.above
  have hpos := hbar.pos
  have hhalf : 2 * step p c y ≤ y + e :=
    two_mul_step_le hslope hbar.above.le (by omega) (by omega)
  exact ⟨hlong, hland, by omega⟩

/-! ## The loop -/

/-- What the loop ends with. -/
structure Solves (p c y : ℤ) : Prop where
  nonneg : 0 ≤ y
  excess_le : excess p c y ≤ 1
  above : 0 < excess p c (y + 1)

lemma solves_of_near (hc : 0 ≤ c) (hslope : 0 < 2 * y - p) (hnear : Near (step p c y) y) :
    Solves p c (step p c y) := by
  have hlength : -1 ≤ step p c y - y ∧ step p c y - y ≤ 1 := by
    unfold Near at hnear
    omega
  have hsquare : (step p c y - y) * (step p c y - y) ≤ 1 := by nlinarith
  exact ⟨step_nonneg hc hslope, (excess_step_le hslope).trans hsquare, excess_step_succ_pos hslope⟩

/-- The values from which the loop takes steps. -/
def Visited (p bound v : ℤ) : Prop := 0 ≤ v ∧ v ≤ bound ∧ 0 < 2 * v - p

lemma visited_step {bound : ℤ} (hc : 0 ≤ c) (hy : Visited p bound y)
    (hle : step p c y ≤ bound) (hfar : ¬Near (step p c y) y) : Visited p bound (step p c y) :=
  ⟨step_nonneg hc hy.2.2, hle, slope_step_pos hc hy.1 hy.2.2 hfar⟩

/-- Once a step does not rise, the distance to the root halves until the loop ends. -/
lemma IsBar.exists_settles {e bound : ℤ} (hbar : IsBar p c e) (hc : 0 ≤ c) {m : ℕ}
    (hy : Visited p bound y) (hfall : step p c y ≤ y) (hclose : y - e < 2 ^ m) :
    ∃ result, Settles (step p c) (Visited p bound) (m + 1) y result ∧ Solves p c result ∧
      result ≤ y := by
  induction m generalizing y with
  | zero =>
    by_cases hnear : Near (step p c y) y
    · exact ⟨_, .here hy hnear, solves_of_near hc hy.2.2 hnear, hfall⟩
    · obtain ⟨hlong, hland, hhalf⟩ := hbar.halves hc hy.2.2 hfall hnear
      omega
  | succ m ih =>
    by_cases hnear : Near (step p c y) y
    · exact ⟨_, .here hy hnear, solves_of_near hc hy.2.2 hnear, hfall⟩
    · obtain ⟨hlong, hland, hhalf⟩ := hbar.halves hc hy.2.2 hfall hnear
      have hnext : step p c y - e < 2 ^ m := by
        rw [pow_succ] at hclose
        omega
      have hvisited := visited_step hc hy (hfall.trans hy.2.1) hnear
      obtain ⟨result, hsettles, hsolves, hle⟩ :=
        ih hvisited (step_step_le hc hy.1 hy.2.2 hnear) hnext
      exact ⟨result, .further hy hnear hsettles, hsolves, hle.trans hfall⟩

/-- The loop ends, wherever it starts: two steps more than the first value has binary digits are
enough. What it ends with is not above that value. -/
theorem exists_settles (hc : 0 ≤ c) (hy : 0 ≤ y) (hslope : 0 < 2 * y - p) {m : ℕ}
    (hfirst : step p c y < 2 ^ m) :
    ∃ result, Settles (step p c) (Visited p (max y (step p c y))) (m + 2) y result ∧
      Solves p c result ∧ result ≤ step p c y := by
  have hvisited : Visited p (max y (step p c y)) y := ⟨hy, le_max_left _ _, hslope⟩
  by_cases hnear : Near (step p c y) y
  · exact ⟨_, .here hvisited hnear, solves_of_near hc hslope hnear, le_rfl⟩
  · have hnonneg := step_nonneg hc hslope
    obtain ⟨e, hbar⟩ := exists_isBar hc (by omega) (excess_step_succ_pos hslope (c := c))
    have hpos := hbar.pos
    obtain ⟨result, hsettles, hsolves, hle⟩ := hbar.exists_settles hc
      (visited_step hc hvisited (le_max_right _ _) hnear) (step_step_le hc hy hslope hnear)
      (m := m) (by omega)
    exact ⟨result, .further hvisited hnear hsettles, hsolves, hle⟩

/-! ## Comparing two quadratics -/

/-- Where the excess is larger everywhere, the loop ends at most one higher. -/
lemma Solves.le_succ {p' c' : ℤ} (hy : Solves p c y) (hz : Solves p' c' z) (hc : 0 ≤ c)
    (hexcess : ∀ v, 0 ≤ v → excess p c v ≤ excess p' c' v) : z ≤ y + 1 := by
  by_contra hlt
  have hnonneg := hy.nonneg
  have habove := hy.above
  obtain ⟨-, hp⟩ := lt_of_excess_pos hc (by omega) habove
  -- beyond a point above the root the excess is at least two
  have htwo : 0 < excess p (c + 1) (y + 2) := by
    unfold excess at habove ⊢
    linarith
  have hgrown := excess_pos_mono (by omega) (by omega) htwo (show y + 2 ≤ z by omega)
  have hsmall := (hexcess z hz.nonneg).trans hz.excess_le
  unfold excess at hgrown hsmall
  omega

end QuadraticNewton
