import Mathlib.Dynamics.PeriodicPts.Lemmas

/-!
# Shifts that are taken together with the word

`x ^^^ (x >>> k)` and `x ^^^ (x <<< k)` lose nothing, as long as the shift is not by zero: from one
end on, every bit is that of `x` or its sum with one that is known already. A generator that keeps
such a word only permutes its states, and so each state comes back.
-/

namespace XorShift

variable {w k : ℕ}

/-- A word that is its own shift to the right. -/
lemma eq_zero_of_eq_ushiftRight (hk : 0 < k) {z : BitVec w} (h : z = z >>> k) : z = 0#w := by
  apply BitVec.eq_of_getLsbD_eq
  -- from the top down, as far as there are bits
  have hbits : ∀ n i, w ≤ i + n → z.getLsbD i = false := by
    intro n
    induction n with
    | zero => exact fun i hi => BitVec.getLsbD_of_ge z i hi
    | succ n ih =>
      intro i hi
      rw [h, BitVec.getLsbD_ushiftRight]
      exact ih (k + i) (by omega)
  intro i _
  rw [hbits w i (by omega), BitVec.getLsbD_zero]

/-- A word that is its own shift to the left. -/
lemma eq_zero_of_eq_shiftLeft (hk : 0 < k) {z : BitVec w} (h : z = z <<< k) : z = 0#w := by
  apply BitVec.eq_of_getLsbD_eq
  intro i _
  rw [BitVec.getLsbD_zero]
  induction i using Nat.strong_induction_on with
  | _ i ih =>
    rw [h, BitVec.getLsbD_shiftLeft]
    by_cases hik : i < k
    · simp [hik]
    · rw [ih (i - k) (by omega) (by omega), Bool.and_false]

lemma xor_eq_of_xor_eq {x y a b : BitVec w} (h : x ^^^ a = y ^^^ b) : x ^^^ y = a ^^^ b := by
  apply BitVec.eq_of_getLsbD_eq
  intro i _
  have hbit := congrArg (fun z => z.getLsbD i) h
  simp only [BitVec.getLsbD_xor] at hbit ⊢
  revert hbit
  cases x.getLsbD i <;> cases y.getLsbD i <;> cases a.getLsbD i <;> cases b.getLsbD i <;> decide

lemma right_injective (hk : 0 < k) : Function.Injective fun x : BitVec w => x ^^^ (x >>> k) := by
  intro x y h
  have hdiff := xor_eq_of_xor_eq h
  rw [← BitVec.ushiftRight_xor_distrib] at hdiff
  exact BitVec.xor_eq_zero_iff.mp (eq_zero_of_eq_ushiftRight hk hdiff)

lemma left_injective (hk : 0 < k) : Function.Injective fun x : BitVec w => x ^^^ (x <<< k) := by
  intro x y h
  have hdiff := xor_eq_of_xor_eq h
  rw [← BitVec.shiftLeft_xor_distrib] at hdiff
  exact BitVec.xor_eq_zero_iff.mp (eq_zero_of_eq_shiftLeft hk hdiff)

end XorShift

/-! ## Generators that permute their states -/

namespace Generator

variable {α β : Type*} [Finite α] {next : α → α} {output : α → β}

/-- A generator whose step and output lose nothing repeats from its start, and before that it
repeats no output. -/
lemma exists_period (hnext : Function.Injective next) (houtput : Function.Injective output)
    (seed : α) :
    ∃ period > 0, ∀ m n, output (next^[m] seed) = output (next^[n] seed) ↔
      m % period = n % period := by
  refine ⟨Function.minimalPeriod next seed,
    Function.minimalPeriod_pos_of_mem_periodicPts (hnext.mem_periodicPts seed), ?_⟩
  intro m n
  have hpos := Function.minimalPeriod_pos_of_mem_periodicPts (hnext.mem_periodicPts seed)
  rw [houtput.eq_iff, ← Function.iterate_mod_minimalPeriod_eq (n := m),
    ← Function.iterate_mod_minimalPeriod_eq (n := n)]
  exact Function.iterate_eq_iterate_iff_of_lt_minimalPeriod (Nat.mod_lt _ hpos)
    (Nat.mod_lt _ hpos)

end Generator
