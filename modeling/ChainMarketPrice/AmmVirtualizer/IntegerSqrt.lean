import ChainMarketPrice.Lib.Checked
import ChainMarketPrice.Lib.Heron
import ChainMarketPrice.AmmVirtualizer.Curve

/-!
# `integer_sqrt`

The Newton iteration of `crates/amm-virtualizer/src/lib.rs` on 128-bit words. The sum in a step
does not wrap, because from the floored root on the quotient is close to the root, and the loop
ends at the floored root. So the iteration with checked operations never stops at a fault.
-/

namespace ChainMarketPrice.AmmVirtualizer

open FixedWidth

/-- `(x + n / x) / 2`. -/
def sqrtStep (n x : U128) : Except Panic U128 := do
  return (x + (← divided n x)) / 2

/-- The loop, from two consecutive values. -/
def sqrtLoop (n x0 x1 : U128) : Except Panic U128 :=
  if _h : x1 < x0 then do
    let x2 ← sqrtStep n x1
    sqrtLoop n x1 x2
  else .ok x0
termination_by x0.toNat
decreasing_by exact _h

def integerSqrt (n : U128) : Except Panic U128 :=
  if n = 0 then .ok 0
  else
    let x0 := n / 2
    if x0 = 0 then .ok 1
    else do
      let x1 ← sqrtStep n x0
      sqrtLoop n x0 x1

/-! ## With checked operations -/

/-- A step as the debug profile runs it: a division by zero or a sum that overflows stops it. -/
def checkedSqrtStep (n x : U128) : Option U128 := do
  let quotient ← if x = 0 then none else some (n / x)
  let sum ← Checked.u128 (x.toNat + quotient.toNat)
  return sum / 2

def checkedSqrtLoop (n x0 x1 : U128) : Option U128 :=
  if _h : x1 < x0 then do
    let x2 ← checkedSqrtStep n x1
    checkedSqrtLoop n x1 x2
  else some x0
termination_by x0.toNat
decreasing_by exact _h

def checkedIntegerSqrt (n : U128) : Option U128 :=
  if n = 0 then some 0
  else
    let x0 := n / 2
    if x0 = 0 then some 1
    else do
      let x1 ← checkedSqrtStep n x0
      checkedSqrtLoop n x0 x1

variable {n x : U128}

/-- At or above the root, and up to the starting value, a step is Heron's, and nothing in it
overflows. -/
lemma sqrtStep_eq (hx : 0 < x.toNat) (hroot : n.toNat.sqrt ≤ x.toNat)
    (hle : x.toNat ≤ n.toNat / 2) :
    ∃ next, sqrtStep n x = .ok next ∧ checkedSqrtStep n x = some next ∧
      next.toNat = Heron.step n.toNat x.toNat := by
  have hne : x ≠ 0 := by
    rintro rfl
    exact absurd hx (by decide)
  have hquot := Heron.div_le_of_sqrt_le hx hroot
  have hsmall : n.toNat.sqrt < 2 ^ 64 := Nat.sqrt_lt.mpr n.isLt
  have hn := n.isLt
  have hdiv : (n / x).toNat = n.toNat / x.toNat := BitVec.toNat_udiv
  -- the value is at most half of the word, and the quotient is not far above the root
  have hfits : x.toNat + (n / x).toNat < 2 ^ 128 := by
    rw [hdiv]
    omega
  refine ⟨(x + n / x) / 2, ?_, ?_, ?_⟩
  · rw [sqrtStep, divided, if_neg hne]
    rfl
  · rw [checkedSqrtStep, if_neg hne]
    show (Checked.u128 (x.toNat + (n / x).toNat) >>= fun sum => some (sum / 2)) = _
    rw [Checked.u128_add hfits]
    rfl
  · rw [BitVec.toNat_udiv, toNat_add_of_lt hfits, hdiv]
    rfl

/-- The induction is on the first value, which the loop lowers to the root. -/
lemma sqrtLoop_eq (hn : 0 < n.toNat) : ∀ x0 x1 : U128, n.toNat.sqrt ≤ x0.toNat →
    x0.toNat ≤ n.toNat / 2 → x1.toNat = Heron.step n.toNat x0.toNat →
    ∃ root, sqrtLoop n x0 x1 = .ok root ∧ checkedSqrtLoop n x0 x1 = some root ∧
      root.toNat = n.toNat.sqrt := by
  have hpos : 0 < n.toNat.sqrt := Nat.sqrt_pos.mpr hn
  intro x0
  induction hm : x0.toNat using Nat.strong_induction_on generalizing x0 with
  | _ m ih =>
    intro x1 hroot hle hstep
    subst hm
    rw [sqrtLoop, checkedSqrtLoop]
    by_cases hlt : x1 < x0
    · have hlt' : x1.toNat < x0.toNat := hlt
      have hroot' : n.toNat.sqrt ≤ x1.toNat := by
        rw [hstep]
        exact Heron.sqrt_le_step (by omega)
      obtain ⟨x2, hx2, hchecked, hnext⟩ := sqrtStep_eq (by omega) hroot' (by omega)
      obtain ⟨root, hloop, hcheckedLoop, hvalue⟩ :=
        ih x1.toNat hlt' x1 rfl x2 hroot' (by omega) hnext
      refine ⟨root, ?_, ?_, hvalue⟩
      · rw [dif_pos hlt, hx2]
        exact hloop
      · rw [dif_pos hlt, hchecked]
        exact hcheckedLoop
    · -- the step does not go down, so this is the root
      refine ⟨x0, dif_neg hlt, dif_neg hlt, ?_⟩
      by_contra hne
      have hdown := Heron.step_lt (show n.toNat.sqrt < x0.toNat by omega)
      rw [← hstep] at hdown
      exact hlt hdown

/-- Half of a number is at its root or above it, from two on. -/
lemma sqrt_le_half {m : ℕ} (hm : 0 < m / 2) : m.sqrt ≤ m / 2 := by
  have hsquare := Nat.sqrt_le m
  by_cases hlarge : 2 ≤ m.sqrt
  · have hdouble := Nat.mul_le_mul_right m.sqrt hlarge
    omega
  · omega

/-- With checked operations or without, the result is the floored root. -/
lemma integerSqrt_spec (n : U128) :
    ∃ root, integerSqrt n = .ok root ∧ checkedIntegerSqrt n = some root ∧
      root.toNat = n.toNat.sqrt := by
  have hhalf : (n / 2).toNat = n.toNat / 2 := BitVec.toNat_udiv
  unfold integerSqrt checkedIntegerSqrt
  by_cases hzero : n = 0
  · refine ⟨0, if_pos hzero, if_pos hzero, ?_⟩
    rw [hzero]
    rfl
  · have hn : 0 < n.toNat := by
      rw [Nat.pos_iff_ne_zero]
      exact fun h => hzero (BitVec.eq_of_toNat_eq h)
    rw [if_neg hzero, if_neg hzero]
    dsimp only
    by_cases hone : n / 2 = 0
    -- the half is zero only for one, which is its own root
    · refine ⟨1, if_pos hone, if_pos hone, ?_⟩
      rw [hone] at hhalf
      have heq : n.toNat = 1 := by
        have hz : BitVec.toNat (0 : U128) = 0 := rfl
        omega
      rw [heq]
      rfl
    · have hpos : 0 < (n / 2).toNat := by
        rw [Nat.pos_iff_ne_zero]
        exact fun h => hone (BitVec.eq_of_toNat_eq h)
      -- the loop starts at or above the root, whence Newton steps descend
      have hroot : n.toNat.sqrt ≤ (n / 2).toNat := by
        rw [hhalf] at hpos ⊢
        exact sqrt_le_half hpos
      rw [if_neg hone, if_neg hone]
      obtain ⟨x1, hx1, hchecked, hstep⟩ := sqrtStep_eq hpos hroot hhalf.le
      obtain ⟨root, hloop, hcheckedLoop, hvalue⟩ := sqrtLoop_eq hn _ x1 hroot hhalf.le hstep
      refine ⟨root, ?_, ?_, hvalue⟩
      · rw [hx1]
        exact hloop
      · rw [hchecked]
        exact hcheckedLoop

/-- The floored square root of every word. -/
theorem integerSqrt_eq (n : U128) :
    ∃ root, integerSqrt n = .ok root ∧ root.toNat = n.toNat.sqrt := by
  obtain ⟨root, hroot, -, hvalue⟩ := integerSqrt_spec n
  exact ⟨root, hroot, hvalue⟩

/-- The loop ends for every word, at the largest number whose square is not above it; no sum in it
overflows, and no division is by zero. -/
theorem integerSqrt_floor (n : U128) :
    ∃ root, integerSqrt n = .ok root ∧ checkedIntegerSqrt n = some root ∧
      root.toNat ^ 2 ≤ n.toNat ∧ n.toNat < (root.toNat + 1) ^ 2 := by
  obtain ⟨root, hroot, hchecked, hvalue⟩ := integerSqrt_spec n
  refine ⟨root, hroot, hchecked, ?_, ?_⟩
  · rw [hvalue]
    exact Nat.sqrt_le' n.toNat
  · rw [hvalue]
    exact Nat.lt_succ_sqrt' n.toNat

end ChainMarketPrice.AmmVirtualizer
