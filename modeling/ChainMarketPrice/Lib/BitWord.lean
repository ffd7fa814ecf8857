import Mathlib.Data.Nat.Bitwise
import Mathlib.Data.UInt

/-!
# Bits of 64-bit words

The bit operations a word-indexed set is made of, read bit by bit: a single-bit mask,
complement, and the loop step `w & (w - 1)` that clears the lowest set bit.
-/

namespace BitWord

/-- `n & (n - 1)` clears the lowest set bit. -/
lemma testBit_and_sub_one {n t : ℕ} (ht : n.testBit t = true) (hlow : ∀ i < t, n.testBit i = false)
    (j : ℕ) : (n &&& (n - 1)).testBit j = (n.testBit j && decide (j ≠ t)) := by
  have hpow := Nat.two_pow_pos t
  -- `n = 2 ^ t * (2 q + 1)`
  obtain ⟨m, rfl⟩ : ∃ m, n = 2 ^ t * m := by
    have hmod : n % 2 ^ t = 0 := by
      apply Nat.eq_of_testBit_eq
      intro i
      rw [Nat.testBit_mod_two_pow, Nat.zero_testBit]
      by_cases hi : i < t
      · simp [hlow i hi]
      · simp [hi]
    exact ⟨n / 2 ^ t, (Nat.mul_div_cancel' (Nat.dvd_of_mod_eq_zero hmod)).symm⟩
  have hodd : m.testBit 0 = true := by
    rw [Nat.testBit_two_pow_mul] at ht
    simpa using ht
  obtain ⟨q, rfl⟩ : ∃ q, m = 2 * q + 1 := by
    rw [Nat.testBit_zero, decide_eq_true_eq] at hodd
    exact ⟨m / 2, by omega⟩
  have hpred : 2 ^ t * (2 * q + 1) - 1 = 2 ^ t * (2 * q) + (2 ^ t - 1) := by
    rw [Nat.mul_add, Nat.mul_one]
    omega
  rw [hpred, Nat.testBit_and, Nat.testBit_two_pow_mul_add _ (by omega), Nat.testBit_two_pow_mul]
  rcases Nat.lt_trichotomy j t with hj | rfl | hj
  · simp [Nat.not_le.mpr hj]
  · simp
  · obtain ⟨d, rfl⟩ : ∃ d, j = t + (d + 1) := ⟨j - t - 1, by omega⟩
    have h1 : (2 * q + 1).testBit (d + 1) = q.testBit d := by
      rw [Nat.testBit_add_one]
      congr 1
      omega
    have h2 : (2 * q).testBit (d + 1) = q.testBit d := by
      rw [Nat.testBit_add_one]
      congr 1
      omega
    have h3 : ¬ t + (d + 1) < t := by omega
    simp [h1, h2, h3]

/-- The mask of bit `k`. -/
lemma toNat_one_shiftLeft {k : ℕ} (hk : k < 64) : ((1 : UInt64) <<< UInt64.ofNat k).toNat = 2 ^ k := by
  have hk' : (UInt64.ofNat k).toNat = k := UInt64.toNat_ofNat_of_lt' (by
    show k < 2 ^ 64
    omega)
  rw [UInt64.toNat_shiftLeft, hk', Nat.mod_eq_of_lt hk, UInt64.toNat_one, Nat.one_shiftLeft]
  exact Nat.mod_eq_of_lt (Nat.pow_lt_pow_right (by decide) hk)

/-- Testing a word against the mask of bit `k`. -/
lemma and_mask_bne_zero {k : ℕ} (hk : k < 64) (w : UInt64) :
    ((w &&& (1 <<< UInt64.ofNat k)) != 0) = w.toNat.testBit k := by
  rw [Bool.eq_iff_iff, bne_iff_ne, Ne, ← UInt64.toNat_inj, UInt64.toNat_and,
    toNat_one_shiftLeft hk, Nat.and_two_pow, UInt64.toNat_zero]
  have hpow := Nat.two_pow_pos k
  cases w.toNat.testBit k <;> simp

lemma testBit_or_mask {k : ℕ} (hk : k < 64) (w : UInt64) (j : ℕ) :
    (w ||| (1 <<< UInt64.ofNat k)).toNat.testBit j = (w.toNat.testBit j || decide (j = k)) := by
  rw [UInt64.toNat_or, Nat.testBit_or, toNat_one_shiftLeft hk, Nat.testBit_two_pow]
  congr 1
  exact decide_eq_decide.mpr eq_comm

lemma testBit_and_not_mask {k j : ℕ} (hk : k < 64) (hj : j < 64) (w : UInt64) :
    (w &&& ~~~(1 <<< UInt64.ofNat k)).toNat.testBit j
      = (w.toNat.testBit j && decide (j ≠ k)) := by
  rw [UInt64.toNat_and, Nat.testBit_and, UInt64.toNat_not, toNat_one_shiftLeft hk]
  congr 1
  have hsub : UInt64.size - 1 - 2 ^ k = 2 ^ 64 - (2 ^ k + 1) := by
    show 2 ^ 64 - 1 - 2 ^ k = 2 ^ 64 - (2 ^ k + 1)
    omega
  rw [hsub, Nat.testBit_two_pow_sub_succ (Nat.pow_lt_pow_right (by decide) hk),
    Nat.testBit_two_pow]
  simp [hj, eq_comm]

/-- The lowest set bit of a nonzero word. -/
lemma testBit_ctz {w : UInt64} (hw : w ≠ 0) : w.toNat.testBit w.toBitVec.ctz.toNat = true := by
  have hne : w.toBitVec ≠ 0#64 := fun h => hw (UInt64.toBitVec_inj.mp h)
  exact BitVec.getLsbD_true_ctz_of_ne_zero hne

lemma testBit_of_lt_ctz {w : UInt64} {i : ℕ} (hi : i < w.toBitVec.ctz.toNat) :
    w.toNat.testBit i = false :=
  BitVec.getLsbD_false_of_lt_ctz hi

lemma ctz_lt {w : UInt64} (hw : w ≠ 0) : w.toBitVec.ctz.toNat < 64 := by
  by_contra h
  have hbit := testBit_ctz hw
  rw [Nat.testBit_lt_two_pow] at hbit
  · exact absurd hbit (by decide)
  · exact lt_of_lt_of_le w.toNat_lt (Nat.pow_le_pow_right (by decide) (by omega))

/-- The loop step on a word. -/
lemma testBit_clear_lowest {w : UInt64} (hw : w ≠ 0) (j : ℕ) :
    (w &&& (w - 1)).toNat.testBit j
      = (w.toNat.testBit j && decide (j ≠ w.toBitVec.ctz.toNat)) := by
  have hpos : (1 : UInt64) ≤ w := by
    rw [UInt64.le_iff_toNat_le, UInt64.toNat_one]
    have hne : w.toNat ≠ 0 := fun h => hw (UInt64.toNat_inj.mp h)
    omega
  rw [UInt64.toNat_and, UInt64.toNat_sub_of_le _ _ hpos, UInt64.toNat_one]
  exact testBit_and_sub_one (testBit_ctz hw) (fun i hi => testBit_of_lt_ctz hi) j

/-- The set bits are counted one by one. -/
lemma cpopNatRec_eq_length (w : UInt64) (n : ℕ) :
    w.toBitVec.cpopNatRec n 0 = ((List.range n).filter w.toNat.testBit).length := by
  induction n with
  | zero => rfl
  | succ n ih =>
    have hbit : w.toBitVec.getLsbD n = w.toNat.testBit n := rfl
    rw [BitVec.cpopNatRec_succ, BitVec.cpopNatRec_eq, ih, List.range_succ, List.filter_append,
      List.length_append, Nat.zero_add, hbit]
    cases hset : w.toNat.testBit n with
    | true => simp [hset]
    | false => simp [hset]

lemma toNat_cpop_eq (w : UInt64) :
    w.toBitVec.cpop.toNat = ((List.range 64).filter w.toNat.testBit).length := by
  rw [BitVec.toNat_cpop, cpopNatRec_eq_length]

end BitWord
