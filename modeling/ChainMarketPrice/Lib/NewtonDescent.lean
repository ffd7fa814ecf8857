import Mathlib.Algebra.Order.Group.Nat
import Mathlib.Tactic.Linarith
import Mathlib.Tactic.Ring

/-!
# Newton's iteration with floored terms

For a monomial `P` of degree `n + 1`, Newton's step for `A * d + P d = T` takes `d` to
`(T + n * P d) * d / (A * d + (n + 1) * P d)`. Here the quotient is rounded down, and so is the
monomial, of which all that is left is `d * p e ≤ e * p d + e` for `e ≤ d`. That is enough for a
fall from above the root to cover an `(n + 1)`-th of the distance to any other point above it.
-/

namespace NewtonDescent

/-- The denominator of a step. -/
def slope (A n : ℕ) (p : ℕ → ℕ) (d : ℕ) : ℕ := A * d + (n + 1) * p d

/-- One step, rounded down. -/
def step (A T n : ℕ) (p : ℕ → ℕ) (d : ℕ) : ℕ := (T + p d * n) * d / slope A n p d

variable {A T n : ℕ} {p : ℕ → ℕ} {d e : ℕ}

/-- What a step leaves of `d`, by the value of the left side there. -/
lemma step_mul_slope_le (A T n : ℕ) (p : ℕ → ℕ) (d : ℕ) :
    step A T n p d * slope A n p d + d * (A * d + p d) ≤ d * T + d * slope A n p d := by
  have hdiv : step A T n p d * slope A n p d ≤ (T + p d * n) * d := Nat.div_mul_le_self _ _
  calc step A T n p d * slope A n p d + d * (A * d + p d)
    _ ≤ (T + p d * n) * d + d * (A * d + p d) := Nat.add_le_add_right hdiv _
    _ = d * T + d * slope A n p d := by
      unfold slope
      ring

/-- Below the root a step does not fall. -/
lemma le_step_of_below (hslope : 0 < slope A n p d) (h : A * d + p d ≤ T) :
    d ≤ step A T n p d := by
  refine (Nat.le_div_iff_mul_le hslope).mpr ?_
  have hle : slope A n p d ≤ T + p d * n := by
    unfold slope
    linarith
  calc d * slope A n p d ≤ d * (T + p d * n) := Nat.mul_le_mul_left _ hle
    _ = (T + p d * n) * d := Nat.mul_comm _ _

/-- A step that falls starts above the root. -/
lemma above_of_step_lt (hslope : 0 < slope A n p d) (h : step A T n p d < d) :
    T < A * d + p d := by
  by_contra hbelow
  exact absurd (le_step_of_below hslope (Nat.not_lt.mp hbelow)) (Nat.not_le.mpr h)

/-- A step that starts above the root does not rise. -/
lemma step_le_of_above (hslope : 0 < slope A n p d) (h : T ≤ A * d + p d) :
    step A T n p d ≤ d := by
  apply Nat.le_of_mul_le_mul_right _ hslope
  have hfall := step_mul_slope_le A T n p d
  have habove := Nat.mul_le_mul_left d h
  omega

/-- A step never gets to zero. -/
lemma step_pos (hslope : 0 < slope A n p d) (hA : A ≤ T) (hd : 0 < d) (hn : 1 ≤ n)
    (hone : d = 1 → p d = 0) : 0 < step A T n p d := by
  refine Nat.div_pos ?_ hslope
  have hlinear : A * d ≤ T * d := Nat.mul_le_mul_right _ hA
  have hfloored : (n + 1) * p d ≤ p d * n * d := by
    by_cases hd1 : d = 1
    · rw [hone hd1, Nat.mul_zero]
      exact Nat.zero_le _
    · have hfactor : n + 1 ≤ n * d := by nlinarith [show 2 ≤ d by omega]
      calc (n + 1) * p d ≤ n * d * p d := Nat.mul_le_mul_right _ hfactor
        _ = p d * n * d := by ring
  unfold slope
  rw [Nat.add_mul T]
  exact Nat.add_le_add hlinear hfloored

/-! ## How far a step falls -/

/-- A step covers an `(n + 1)`-th of the distance to a point that is not below the root. -/
lemma step_contracts (hlt : e < d) (hroot : T ≤ A * e + p e) (hslope : 0 < slope A n p d)
    (hconvex : d * p e ≤ e * p d + e) (hA : n + 1 ≤ n * A) :
    d + (n + 1) * step A T n p d ≤ e + (n + 1) * d := by
  apply Nat.le_of_mul_le_mul_right _ hslope
  have hfall := Nat.mul_le_mul_left (n + 1) (step_mul_slope_le A T n p d)
  have hvalue : (n + 1) * (d * T) ≤ (n + 1) * (d * (A * e + p e)) :=
    Nat.mul_le_mul_left _ (Nat.mul_le_mul_left _ hroot)
  have hscaled := Nat.mul_le_mul_left (n + 1) hconvex
  -- the linear part makes up for what the floor takes from the convexity
  have hlinear : n * A * d * e + (n + 1) * e ≤ n * A * d * d := by
    have hstep : (n + 1) * e ≤ n * A * d := Nat.mul_le_mul hA hlt.le
    have hnext : n * A * d * (e + 1) ≤ n * A * d * d := Nat.mul_le_mul_left _ hlt
    rw [Nat.mul_succ] at hnext
    omega
  unfold slope at hfall ⊢
  nlinarith

/-- A step covers half of the distance where the secant of the monomial is steep enough. -/
lemma step_halves (hle : e ≤ d) (hroot : T ≤ A * e + p e) (hslope : 0 < slope A n p d)
    (hsecant : 2 * d * p e + (n + 1) * d * p d ≤ (n + 1) * e * p d + 2 * d * p d) :
    2 * step A T n p d ≤ d + e := by
  apply Nat.le_of_mul_le_mul_right _ hslope
  have hfall := Nat.mul_le_mul_left 2 (step_mul_slope_le A T n p d)
  have hvalue : 2 * (d * T) ≤ 2 * (d * (A * e + p e)) :=
    Nat.mul_le_mul_left _ (Nat.mul_le_mul_left _ hroot)
  have hlinear : A * d * e ≤ A * d * d := Nat.mul_le_mul_left _ hle
  unfold slope at hfall ⊢
  nlinarith

/-- The convexity of a floored monomial whose cofactor grows. -/
lemma floored_convex {K : ℕ → ℕ} {c : ℕ} (hc : 0 < c) (hK : K e ≤ K d) :
    d * (K e * e / c) ≤ e * (K d * d / c) + e := by
  apply Nat.le_of_mul_le_mul_right _ hc
  have hlow : K e * e / c * c ≤ K e * e := Nat.div_mul_le_self _ _
  have hhigh : K d * d < c * (K d * d / c + 1) := Nat.lt_mul_div_succ _ hc
  calc d * (K e * e / c) * c = d * (K e * e / c * c) := by ring
    _ ≤ d * (K d * e) := Nat.mul_le_mul_left _ (hlow.trans (Nat.mul_le_mul_right _ hK))
    _ = e * (K d * d) := by ring
    _ ≤ e * (c * (K d * d / c + 1)) := Nat.mul_le_mul_left _ hhigh.le
    _ = (e * (K d * d / c) + e) * c := by ring

/-- A sequence that shrinks by a factor in every step. -/
lemma pow_mul_le {u : ℕ → ℕ} {a b k : ℕ} (h : ∀ i < k, b * u (i + 1) ≤ a * u i) :
    b ^ k * u k ≤ a ^ k * u 0 := by
  induction k with
  | zero => exact le_rfl
  | succ k ih =>
    have hk := ih fun i hi => h i (Nat.lt_succ_of_lt hi)
    calc b ^ (k + 1) * u (k + 1) = b ^ k * (b * u (k + 1)) := by ring
      _ ≤ b ^ k * (a * u k) := Nat.mul_le_mul_left _ (h k (Nat.lt_succ_self k))
      _ = a * (b ^ k * u k) := by ring
      _ ≤ a * (a ^ k * u 0) := Nat.mul_le_mul_left _ hk
      _ = a ^ (k + 1) * u 0 := by ring

/-! ## Runs that fall -/

lemma slope_pos (hA : 0 < A) (hd : 0 < d) : 0 < slope A n p d :=
  Nat.add_pos_left (Nat.mul_pos hA hd) _

/-- A run that falls in every step. -/
lemma le_of_falls {run : ℕ → ℕ} {k : ℕ} (hfall : ∀ i ≤ k, run (i + 1) < run i) :
    ∀ i j, i ≤ j → j ≤ k + 1 → run j ≤ run i := by
  intro i j hij
  induction j, hij using Nat.le_induction with
  | base => exact fun _ => le_rfl
  | succ j _ ih => exact fun hj => (hfall j (by omega)).le.trans (ih (by omega))

/-- A run that falls in every step stays above the first point that is not below the root, and
shrinks its distance from there. -/
lemma fall_contracts {run : ℕ → ℕ} {k : ℕ} (hrun : ∀ i ≤ k, run (i + 1) = step A T n p (run i))
    (hfall : ∀ i ≤ k, run (i + 1) < run i) (hA : 0 < A) (hnA : n + 1 ≤ n * A)
    (hconvex : ∀ e d, e ≤ d → d * p e ≤ e * p d + e) :
    ∃ root, T ≤ A * root + p root ∧ (∀ i ≤ k, root ≤ run i ∧ T < A * run i + p (run i)) ∧
      ∀ i < k, (n + 1) * (run (i + 1) - root) ≤ n * (run i - root) := by
  classical
  -- a step falls only from above the root
  have habove : ∀ i ≤ k, T < A * run i + p (run i) := by
    intro i hi
    have hlt := hfall i hi
    apply above_of_step_lt (slope_pos (n := n) hA (Nat.zero_lt_of_lt hlt))
    rw [← hrun i hi]
    exact hlt
  have hexists : ∃ d, T < A * d + p d := ⟨run 0, habove 0 (Nat.zero_le k)⟩
  -- the first point that is not below the root bounds the run from below
  have hroot : ∀ i ≤ k, Nat.find hexists ≤ run i := fun i hi =>
    Nat.find_min' hexists (habove i hi)
  refine ⟨Nat.find hexists, (Nat.find_spec hexists).le, fun i hi => ⟨hroot i hi, habove i hi⟩, ?_⟩
  intro i hi
  have hhere := hroot (i + 1) hi
  have hlt := lt_of_le_of_lt hhere (hfall i hi.le)
  have hstep := step_contracts hlt (Nat.find_spec hexists).le
    (slope_pos (n := n) hA (Nat.zero_lt_of_lt hlt)) (hconvex _ _ hlt.le) hnA
  rw [← hrun i hi.le] at hstep
  generalize Nat.find hexists = root at *
  obtain ⟨a, ha⟩ := Nat.exists_eq_add_of_le hhere
  obtain ⟨b, hb⟩ := Nat.exists_eq_add_of_le hlt.le
  rw [ha, hb] at hstep
  rw [ha, hb, Nat.add_sub_cancel_left, Nat.add_sub_cancel_left]
  linarith

/-- A run whose secants from the root are steep enough halves its distance in every step. -/
lemma fall_halves {k root : ℕ} (run : ℕ → ℕ)
    (hrun : ∀ i < k, run (i + 1) = step A T n p (run i)) (hle : ∀ i ≤ k, root ≤ run i)
    (hA : 0 < A) (hroot : T ≤ A * root + p root)
    (hsecant : ∀ i < k, 2 * run i * p root + (n + 1) * run i * p (run i)
      ≤ (n + 1) * root * p (run i) + 2 * run i * p (run i)) :
    2 ^ k * (run k - root) ≤ run 0 - root := by
  have hpow := pow_mul_le (u := fun i => run i - root) (a := 1) (b := 2) (k := k) ?_
  · rwa [Nat.one_pow, Nat.one_mul] at hpow
  intro i hi
  have hhere := hle i hi.le
  by_cases hzero : run i = 0
  · have hnext : run (i + 1) = 0 := by
      rw [hrun i hi, hzero, step, Nat.mul_zero, Nat.zero_div]
    rw [hnext, hzero, Nat.zero_sub]
  have hstep := step_halves hhere hroot (slope_pos (n := n) hA (by omega)) (hsecant i hi)
  rw [← hrun i hi] at hstep
  omega

end NewtonDescent
