import Mathlib.Algebra.Order.Group.Nat
import Mathlib.Tactic.Linarith

/-!
# Constant-product exchanges

Two reserves are exchanged against each other so that their product does not fall. Of an input
the fraction `num / den` counts, the rest is the fee; the output is rounded down. The input
reserve gets the whole input.
-/

namespace ConstantProduct

/-- What an input is worth. -/
def output (num den reserveIn reserveOut amount : ℕ) : ℕ :=
  amount * num * reserveOut / (reserveIn * den + amount * num)

variable {num den reserveIn reserveOut : ℕ}

lemma weight_pos (num amount : ℕ) (hden : 0 < den) (hin : 0 < reserveIn) :
    0 < reserveIn * den + amount * num :=
  Nat.lt_of_lt_of_le (Nat.mul_pos hin hden) (Nat.le_add_right _ _)

/-- The output reserve is never emptied. -/
lemma output_lt (num amount : ℕ) (hden : 0 < den) (hin : 0 < reserveIn) (hout : 0 < reserveOut) :
    output num den reserveIn reserveOut amount < reserveOut := by
  have hpaid : 0 < reserveIn * den * reserveOut := Nat.mul_pos (Nat.mul_pos hin hden) hout
  unfold output
  rw [Nat.div_lt_iff_lt_mul (weight_pos num amount hden hin), Nat.mul_comm reserveOut, Nat.add_mul]
  omega

lemma output_le (num den reserveIn reserveOut amount : ℕ) :
    output num den reserveIn reserveOut amount ≤ reserveOut := by
  apply Nat.div_le_of_le_mul
  rw [Nat.add_mul]
  exact Nat.le_add_left _ _

/-- The output is paid for by the input, fee included. -/
lemma output_mul_le (reserveIn reserveOut amount : ℕ) (hden : 0 < den) (hfee : num ≤ den) :
    output num den reserveIn reserveOut amount * (reserveIn + amount) ≤ amount * reserveOut := by
  have hworth : output num den reserveIn reserveOut amount * (reserveIn * den + amount * num)
      ≤ amount * num * reserveOut := Nat.div_mul_le_self _ _
  obtain ⟨left, hleft⟩ := Nat.exists_eq_add_of_le (output_le num den reserveIn reserveOut amount)
  generalize output num den reserveIn reserveOut amount = out at hworth hleft ⊢
  rw [hleft] at hworth ⊢
  have hscaled : out * reserveIn * den ≤ amount * left * den := by
    calc out * reserveIn * den ≤ amount * left * num := by linarith
      _ ≤ amount * left * den := Nat.mul_le_mul_left _ hfee
  have hpaid : out * reserveIn ≤ amount * left := Nat.le_of_mul_le_mul_right hscaled hden
  linarith

/-- A larger input is worth more. -/
lemma output_mono (num reserveOut : ℕ) {amount amount' : ℕ} (hden : 0 < den) (hin : 0 < reserveIn)
    (h : amount ≤ amount') :
    output num den reserveIn reserveOut amount ≤ output num den reserveIn reserveOut amount' := by
  have hweight := weight_pos num amount hden hin
  have hworth : output num den reserveIn reserveOut amount * (reserveIn * den + amount * num)
      ≤ amount * num * reserveOut := Nat.div_mul_le_self _ _
  -- the two fractions by cross-multiplication
  have hcross : amount * num * reserveOut * (reserveIn * den + amount' * num)
      ≤ amount' * num * reserveOut * (reserveIn * den + amount * num) := by
    have hmore : amount * (num * reserveOut * (reserveIn * den))
        ≤ amount' * (num * reserveOut * (reserveIn * den)) := Nat.mul_le_mul_right _ h
    linarith
  refine (Nat.le_div_iff_mul_le (weight_pos num amount' hden hin)).mpr ?_
  generalize output num den reserveIn reserveOut amount = out at hworth ⊢
  apply Nat.le_of_mul_le_mul_right _ hweight
  calc out * (reserveIn * den + amount' * num) * (reserveIn * den + amount * num)
    _ = out * (reserveIn * den + amount * num) * (reserveIn * den + amount' * num) :=
      Nat.mul_right_comm _ _ _
    _ ≤ amount * num * reserveOut * (reserveIn * den + amount' * num) :=
      Nat.mul_le_mul_right _ hworth
    _ ≤ amount' * num * reserveOut * (reserveIn * den + amount * num) := hcross

/-- The product of the reserves does not fall. -/
theorem mul_le_mul_after (reserveIn reserveOut amount : ℕ) (hden : 0 < den) (hfee : num ≤ den) :
    reserveIn * reserveOut ≤
      (reserveIn + amount) * (reserveOut - output num den reserveIn reserveOut amount) := by
  have hpaid := output_mul_le reserveIn reserveOut amount hden hfee
  rw [Nat.mul_sub, Nat.add_mul, Nat.mul_comm (reserveIn + amount)]
  omega

end ConstantProduct
