import Mathlib.Data.Nat.Sqrt
import Mathlib.Tactic.Linarith
import Mathlib.Tactic.Ring

/-!
# Heron's method in natural numbers

One step from `x` towards the square root of `n` is `(x + n / x) / 2`. A step never goes below
the floored root, and from above it goes down: a descent that stops when the next step would not
go down stops at the floored root.
-/

namespace Heron

/-- One step. -/
def step (n x : ℕ) : ℕ := (x + n / x) / 2

variable {n x : ℕ}

/-- A step lands at the root or above it. -/
lemma sqrt_le_step (hx : 0 < x) : n.sqrt ≤ step n x := by
  have hroot := Nat.sqrt_le n
  have hdiv : 2 * n.sqrt - x ≤ n / x := by
    rw [Nat.le_div_iff_mul_le hx]
    refine le_trans ?_ hroot
    rcases Nat.le_total (2 * n.sqrt) x with h | h
    · rw [Nat.sub_eq_zero_of_le h, Nat.zero_mul]
      exact Nat.zero_le _
    · -- the product of two numbers with a given sum is largest when they are equal
      obtain ⟨d, hd⟩ := Nat.exists_eq_add_of_le h
      rw [hd, Nat.add_sub_cancel_left]
      nlinarith [sq_nonneg ((d : ℤ) - x)]
  unfold step
  omega

/-- From above the root a step goes down. -/
lemma step_lt (h : n.sqrt < x) : step n x < x := by
  have hdiv : n / x < x := by
    rw [Nat.div_lt_iff_lt_mul (Nat.zero_lt_of_lt h)]
    exact Nat.sqrt_lt.mp h
  unfold step
  omega

/-- The quotient in a step stays near the root. -/
lemma div_le_of_sqrt_le (hx : 0 < x) (h : n.sqrt ≤ x) : n / x ≤ n.sqrt + 2 := by
  have hroot := Nat.lt_succ_sqrt n
  rw [Nat.div_le_iff_le_mul_add_pred hx]
  have hmul : n.sqrt * n.sqrt ≤ x * n.sqrt := Nat.mul_le_mul_right _ h
  have hsucc : n.sqrt.succ * n.sqrt.succ = n.sqrt * n.sqrt + 2 * n.sqrt + 1 := by
    rw [Nat.succ_eq_add_one]
    ring
  rw [hsucc] at hroot
  rw [Nat.mul_add]
  omega

end Heron
