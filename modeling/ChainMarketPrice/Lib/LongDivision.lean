import Mathlib.Data.Nat.Basic
import Mathlib.Tactic.Ring

/-!
# Binary long division

The bits of the dividend are brought down from the highest on; the divisor is subtracted where
it fits. What was brought down so far is the dividend without its last bits, so the remainder
with the next bit never exceeds the dividend.
-/

namespace LongDivision

variable {a b i q r : ℕ}

/-- The bits of `a` from bit `i` on have been divided by `b`: the quotient bits stand in `q`, the
remainder is `r`. -/
structure Divided (a b i q r : ℕ) : Prop where
  quotient : ∃ k, q = 2 ^ i * k ∧ a / 2 ^ i = k * b + r
  rest_lt : r < b

/-- The remainder with the next bit of the dividend. -/
def bringDown (a i r : ℕ) : ℕ := 2 * r + a / 2 ^ i % 2

lemma divided_init (ha : a < 2 ^ i) (hb : 0 < b) : Divided a b i 0 0 where
  quotient := ⟨0, rfl, by rw [Nat.div_eq_of_lt ha, Nat.zero_mul]⟩
  rest_lt := hb

lemma div_two_pow_succ (a i : ℕ) : a / 2 ^ i = 2 * (a / 2 ^ (i + 1)) + a / 2 ^ i % 2 := by
  rw [pow_succ, ← Nat.div_div_eq_div_mul]
  omega

lemma Divided.bringDown_le (h : Divided a b (i + 1) q r) : bringDown a i r ≤ a := by
  obtain ⟨k, -, hcut⟩ := h.quotient
  have hsucc := div_two_pow_succ a i
  have hle := Nat.div_le_self a (2 ^ i)
  unfold bringDown
  omega

lemma Divided.dvd (h : Divided a b i q r) : 2 ^ i ∣ q := by
  obtain ⟨k, rfl, -⟩ := h.quotient
  exact Nat.dvd_mul_right _ _

/-- The divisor fits. -/
lemma Divided.subtract (h : Divided a b (i + 1) q r) (hfits : b ≤ bringDown a i r) :
    Divided a b i (q + 2 ^ i) (bringDown a i r - b) := by
  obtain ⟨k, rfl, hcut⟩ := h.quotient
  have hlt := h.rest_lt
  have hsucc := div_two_pow_succ a i
  unfold bringDown at hfits ⊢
  refine ⟨⟨2 * k + 1, by ring, ?_⟩, by omega⟩
  rw [hsucc, hcut, Nat.add_mul, Nat.mul_assoc]
  omega

/-- The divisor does not fit. -/
lemma Divided.skip (h : Divided a b (i + 1) q r) (hless : bringDown a i r < b) :
    Divided a b i q (bringDown a i r) := by
  obtain ⟨k, rfl, hcut⟩ := h.quotient
  have hsucc := div_two_pow_succ a i
  refine ⟨⟨2 * k, by ring, ?_⟩, hless⟩
  unfold bringDown
  rw [hsucc, hcut, Nat.mul_assoc]
  omega

/-- When no bit is left, the quotient is the quotient. -/
lemma Divided.eq_div (h : Divided a b 0 q r) : q = a / b := by
  obtain ⟨k, rfl, hcut⟩ := h.quotient
  have hlt := h.rest_lt
  rw [pow_zero, Nat.div_one] at hcut
  rw [pow_zero, Nat.one_mul, hcut, Nat.mul_comm, Nat.mul_add_div (by omega), Nat.div_eq_of_lt hlt,
    Nat.add_zero]

end LongDivision
