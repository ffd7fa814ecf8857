import ChainMarketPrice.Lib.QuadraticNewton
import ChainMarketPrice.AmmVirtualizer.StableswapConvergence

/-!
# The output reserve of a Stableswap swap

The second solver of `CurvePool`: with the invariant `d`, the other balances and the input
balance `x`, `get_y` looks for the balance `y` at which `y * y + b * y = d * y + c`. Its loop is
Newton's iteration for that quadratic, rounded down once in each step, and so it does not depend
on luck as the one for the invariant does: it always ends, and at the root.
-/

namespace ChainMarketPrice.AmmVirtualizer
namespace CurvePool

open FixedWidth U256 QuadraticNewton

/-! ## A step in 256 bits -/

/-- A step in 256 bits is the step in exact integers. -/
lemma stepY_eq {b c d y : U256} (hnumerator : y.val * y.val + c.val < 2 ^ 256)
    (hdenominator : 2 * y.val + b.val < 2 ^ 256) (hslope : d.val < 2 * y.val + b.val) :
    ∃ next, stepY b c d y = .ok (some next) ∧
      (next.val : ℤ) = step ((d.val : ℤ) - b.val) c.val y.val := by
  have htwo : (U256.fromU128 2).val = 2 := val_fromU128 2
  have hdouble : ((U256.fromU128 2).mul y).val = 2 * y.val := by
    rw [val_mul_of_lt (by rw [htwo]; omega), htwo]
  have hsum : (((U256.fromU128 2).mul y).add b).val = 2 * y.val + b.val := by
    rw [val_add_of_lt (by rw [hdouble]; omega), hdouble]
  have hnum : ((y.mul y).add c).val = y.val * y.val + c.val := by
    have hsquare : (y.mul y).val = y.val * y.val := val_mul_of_lt (by omega)
    rw [val_add_of_lt (by omega), hsquare]
  have hdiff : ((((U256.fromU128 2).mul y).add b).sub d).val = 2 * y.val + b.val - d.val := by
    rw [val_sub_of_le (by omega), hsum]
  have hle : (((U256.fromU128 2).mul y).add b).le d = false := by
    rw [Bool.eq_false_iff]
    intro hle
    rw [le_iff, hsum] at hle
    omega
  obtain ⟨next, hnext, hval⟩ := divided256_eq (a := (y.mul y).add c)
    (b := (((U256.fromU128 2).mul y).add b).sub d) (by omega)
  refine ⟨next, ?_, ?_⟩
  · simp only [stepY, hle, hnext, bind, Except.bind, Bool.false_eq_true, if_false]
    rfl
  · have hcast : ((2 * y.val + b.val - d.val : ℕ) : ℤ)
        = 2 * (y.val : ℤ) - ((d.val : ℤ) - b.val) := by omega
    rw [hval, hnum, hdiff, step, Int.natCast_ediv, hcast, Int.natCast_add, Int.natCast_mul]

/-- The loop in 256 bits leaves with what the one in exact integers ends with. -/
lemma leavesByTest_of_settles {wordStep : U256 → Except Panic (Option U256)} {next : ℤ → ℤ}
    {P : ℤ → Prop}
    (hsim : ∀ v : U256, P v.val → ∃ w, wordStep v = .ok (some w) ∧ (w.val : ℤ) = next v.val)
    {k : ℕ} {y result : ℤ} (h : Settles next P k y result) {v : U256} (hv : (v.val : ℤ) = y) :
    ∃ w, LeavesByTest wordStep w k v ∧ (w.val : ℤ) = result := by
  induction h generalizing v with
  | here visited near =>
    obtain ⟨w, hw, hval⟩ := hsim v (hv ▸ visited)
    rw [hv] at hval
    have hclose : converged w v = true := by
      rw [converged_iff]
      unfold Near at near
      omega
    exact ⟨w, ⟨w, hw, by rw [if_pos hclose]⟩, hval⟩
  | further visited far _ ih =>
    obtain ⟨w, hw, hval⟩ := hsim v (hv ▸ visited)
    rw [hv] at hval
    have hfar : converged w v = false := by
      rw [Bool.eq_false_iff, ne_eq, converged_iff]
      unfold Near at far
      omega
    obtain ⟨result, hresult, heq⟩ := ih hval
    exact ⟨result, ⟨w, hw, by rw [hfar]; exact hresult⟩, heq⟩

lemma LeavesByTest.more_fuel {wordStep : U256 → Except Panic (Option U256)} {result v : U256}
    {k fuel : ℕ} (h : LeavesByTest wordStep result k v) (hle : k ≤ fuel) :
    LeavesByTest wordStep result fuel v := by
  induction k generalizing fuel v with
  | zero => exact h.elim
  | succ k ih =>
    obtain ⟨fuel, rfl⟩ := Nat.exists_eq_add_of_le' hle
    obtain ⟨next, hnext, hrest⟩ := h
    refine ⟨next, hnext, ?_⟩
    split
    · next hclose => rwa [if_pos hclose] at hrest
    · next hfar =>
      rw [if_neg hfar] at hrest
      exact ih hrest (Nat.le_add_left k fuel)

/-! ## Solving for the output reserve -/

variable (pool : CurvePool) (i j : ℕ) (x : U128) (xp : List U128) (d : U128)

/-- The balances that take part, as integers. -/
def exactOthers : List ℕ := (pool.otherBalances i j x xp).map BitVec.toNat

/-- `b` in exact integers. -/
def exactB : ℕ := (pool.exactOthers i j x xp).sum + d.toNat / pool.exactAnn

/-- `c` in exact integers. -/
def exactC : ℕ :=
  exactScale d.toNat pool.nCoins (pool.exactOthers i j x xp) d.toNat * d.toNat
    / (pool.exactAnn * pool.nCoins)

/-- What the loop starts with after its first step, in exact integers. -/
def exactFirst : ℕ :=
  (d.toNat * d.toNat + pool.exactC i j x xp d) / (d.toNat + pool.exactB i j x xp d)

/-- What the solver is given: the invariant, two different coins of two or three, positive other
balances, and room for every value. As the loop falls from the second value on, only the first
two need room. -/
structure OutputSolvable : Prop where
  coins : pool.nCoins = 2 ∨ pool.nCoins = 3
  distinct : i ≠ j ∧ i < pool.nCoins ∧ j < pool.nCoins
  amplified : 1 ≤ pool.a.toNat
  annFits : pool.exactAnn < 2 ^ 128
  invariant : pool.getD xp = .ok (some d)
  positive : ∀ y ∈ pool.otherBalances i j x xp, 0 < y.toNat
  totalFits : (pool.exactOthers i j x xp).sum < 2 ^ 128
  scaleFits : ScaleFits d.toNat pool.nCoins (pool.exactOthers i j x xp) d.toNat
  productFits : exactScale d.toNat pool.nCoins (pool.exactOthers i j x xp) d.toNat * d.toNat
    < 2 ^ 256
  startFits : d.toNat * d.toNat + pool.exactC i j x xp d < 2 ^ 256
  firstFits : pool.exactFirst i j x xp d * pool.exactFirst i j x xp d + pool.exactC i j x xp d
    < 2 ^ 256

variable {pool i j x xp d}

/-- The first step of the loop. -/
lemma step_start (pool : CurvePool) (i j : ℕ) (x : U128) (xp : List U128) (d : U128) :
    step ((d.toNat : ℤ) - pool.exactB i j x xp d) (pool.exactC i j x xp d) d.toNat
      = pool.exactFirst i j x xp d := by
  have hslope : 2 * (d.toNat : ℤ) - ((d.toNat : ℤ) - pool.exactB i j x xp d)
      = ((d.toNat + pool.exactB i j x xp d : ℕ) : ℤ) := by omega
  rw [step, hslope, exactFirst, Int.natCast_ediv, Int.natCast_add (_ * _), Int.natCast_mul]

/-- The input balance is one of those that take part. -/
lemma mem_otherBalances (hi : i < pool.nCoins) : x ∈ pool.otherBalances i j x xp :=
  List.mem_filterMap.mpr ⟨i, List.mem_range.mpr hi, if_pos rfl⟩

namespace OutputSolvable

lemma exactAnn_pos (h : OutputSolvable pool i j x xp d) : 0 < pool.exactAnn := by
  have hn : 0 < pool.nCoins := by
    rcases h.coins with hn | hn <;> omega
  exact Nat.mul_pos h.amplified (Nat.pow_pos hn)

lemma exactB_pos (h : OutputSolvable pool i j x xp d) : 0 < pool.exactB i j x xp d := by
  have hmem : x ∈ pool.otherBalances i j x xp := mem_otherBalances h.distinct.2.1
  have hle : x.toNat ≤ (pool.exactOthers i j x xp).sum :=
    List.single_le_sum (fun _ _ => Nat.zero_le _) _ (List.mem_map_of_mem hmem)
  exact Nat.add_pos_left ((h.positive x hmem).trans_le hle) _

lemma exactB_lt (h : OutputSolvable pool i j x xp d) : pool.exactB i j x xp d < 2 ^ 129 := by
  have hdiv : d.toNat / pool.exactAnn ≤ d.toNat := Nat.div_le_self _ _
  have hd := d.isLt
  have hsum := h.totalFits
  unfold exactB
  omega

/-- The words `b` and `c` with which the loop is entered. -/
lemma getY_eq (h : OutputSolvable pool i j x xp d) :
    ∃ b c : U256, b.val = pool.exactB i j x xp d ∧ c.val = pool.exactC i j x xp d ∧
      pool.getY i j x xp = iterate (stepY b c (.fromU128 d)) 255 (.fromU128 d) := by
  have hd : (fromU128 d).val = d.toNat := val_fromU128 d
  have hann : (fromU128 pool.ann).val = pool.exactAnn := by
    rw [val_fromU128, toNat_ann h.coins h.annFits]
  have hn : (fromU128 pool.coins).val = pool.nCoins := by
    rw [val_fromU128, toNat_coins h.coins]
  have hnPos : 0 < pool.nCoins ∧ pool.nCoins ≤ 3 := by
    rcases h.coins with hn | hn <;> omega
  have hannPos := h.exactAnn_pos
  have hannLt := h.annFits
  -- the product of the loop
  have hscaleFits : ScaleFits (fromU128 d).val (fromU128 pool.coins).val
      (pool.exactOthers i j x xp) (fromU128 d).val := by
    rw [hd, hn]
    exact h.scaleFits
  obtain ⟨scaled, hscaled, hscaledVal⟩ := scaleByBalances_eq (by rw [hn]; exact hnPos) h.positive
    hscaleFits
  rw [hd, hn] at hscaledVal
  have hproduct : (scaled.mul (.fromU128 d)).val = scaled.val * d.toNat := by
    rw [val_mul_of_lt (by rw [hscaledVal, hd]; exact h.productFits), hd]
  -- the divisor of the last product
  have hannN : ((fromU128 pool.ann).mul (fromU128 pool.coins)).val
      = pool.exactAnn * pool.nCoins := by
    have hfits : pool.exactAnn * pool.nCoins < 2 ^ 256 :=
      (Nat.mul_le_mul h.annFits.le hnPos.2).trans_lt (by norm_num)
    rw [val_mul_of_lt (by rw [hann, hn]; exact hfits), hann, hn]
  have hannNPos : 0 < ((fromU128 pool.ann).mul (fromU128 pool.coins)).val := by
    rw [hannN]
    exact Nat.mul_pos hannPos hnPos.1
  have hzero : ((fromU128 pool.ann).mul (fromU128 pool.coins)).isZero = false := by
    rw [Bool.eq_false_iff]
    intro hzero
    rw [isZero_iff] at hzero
    omega
  obtain ⟨c, hc, hcVal⟩ := divided256_eq (a := scaled.mul (.fromU128 d)) hannNPos
  obtain ⟨q, hq, hqVal⟩ := divided256_eq (a := .fromU128 d) (b := .fromU128 pool.ann)
    (by rw [hann]; exact hannPos)
  -- the sum of the other balances
  have hsum : ((pool.otherBalances i j x xp).foldl (· + ·) 0).toNat
      = (pool.exactOthers i j x xp).sum := by
    have hstart : BitVec.toNat (0 : U128) = 0 := rfl
    rw [toNat_foldl_add _ _ (by rw [hstart, Nat.zero_add]; exact h.totalFits), hstart,
      Nat.zero_add]
    rfl
  have hb := h.exactB_lt
  refine ⟨(fromU128 ((pool.otherBalances i j x xp).foldl (· + ·) 0)).add q, c, ?_, ?_, ?_⟩
  · have hqExact : q.val = d.toNat / pool.exactAnn := by rw [hqVal, hd, hann]
    unfold exactB at hb ⊢
    rw [val_add_of_lt (by rw [val_fromU128, hsum, hqExact]; omega), val_fromU128, hsum, hqExact]
  · rw [hcVal, hproduct, hannN, hscaledVal]
    rfl
  · have hargs : ¬(i = j ∨ i ≥ pool.nCoins ∨ j ≥ pool.nCoins) := by
      have hdistinct := h.distinct
      omega
    unfold getY
    simp only [if_neg hargs, h.invariant, hscaled, hzero, hc, hq, bind, Except.bind,
      Bool.false_eq_true, if_false]

lemma exactFirst_lt (h : OutputSolvable pool i j x xp d) :
    pool.exactFirst i j x xp d < 2 ^ 128 := by
  by_contra hle
  have hsquare := Nat.mul_self_le_mul_self (Nat.not_lt.mp hle)
  have hfits := h.firstFits
  omega

/-- Every value from which the loop takes a step has room. -/
lemma numerator_lt (h : OutputSolvable pool i j x xp d) {v : ℕ}
    (hle : v ≤ max d.toNat (pool.exactFirst i j x xp d)) :
    v < 2 ^ 128 ∧ v * v + pool.exactC i j x xp d < 2 ^ 256 := by
  have hd := d.isLt
  have hfirst := h.exactFirst_lt
  have hsquare := Nat.mul_self_le_mul_self hle
  rcases le_total d.toNat (pool.exactFirst i j x xp d) with hmax | hmax
  · rw [max_eq_right hmax] at hle hsquare
    exact ⟨by omega, (Nat.add_le_add_right hsquare _).trans_lt h.firstFits⟩
  · rw [max_eq_left hmax] at hle hsquare
    exact ⟨by omega, (Nat.add_le_add_right hsquare _).trans_lt h.startFits⟩

end OutputSolvable

/-- The balance at which the equation holds, rounded down; or one more, where it holds up to
one. -/
structure IsOutputReserve (b c d y : ℕ) : Prop where
  le : y * y + b * y ≤ d * y + c + 1
  lt_succ : d * (y + 1) + c < (y + 1) * (y + 1) + b * (y + 1)

lemma isOutputReserve_iff {b c d y : ℕ} :
    IsOutputReserve b c d y ↔ Solves ((d : ℤ) - b) c y := by
  have hexcess : ∀ v : ℕ, excess ((d : ℤ) - b) c v = ((v * v + b * v : ℕ) : ℤ) - (d * v + c : ℕ) := by
    intro v
    unfold excess
    push_cast
    ring
  have hsucc := hexcess (y + 1)
  rw [Int.natCast_succ] at hsucc
  constructor
  · intro h
    have hle := h.le
    have hlt := h.lt_succ
    exact ⟨Int.natCast_nonneg y, by rw [hexcess]; omega, by rw [hsucc]; omega⟩
  · intro h
    have hle := h.excess_le
    have hlt := h.above
    rw [hexcess] at hle
    rw [hsucc] at hlt
    exact ⟨by omega, by omega⟩

/-- The loop leaves through its test, with the balance at which the equation holds. -/
lemma OutputSolvable.exists_leavesByTest (h : OutputSolvable pool i j x xp d) {b c : U256}
    (hb : b.val = pool.exactB i j x xp d) (hc : c.val = pool.exactC i j x xp d) :
    ∃ y : U128, LeavesByTest (stepY b c (.fromU128 d)) (.fromU128 y) 130 (.fromU128 d) ∧
      IsOutputReserve (pool.exactB i j x xp d) (pool.exactC i j x xp d) d.toNat y.toNat := by
  have hd : (fromU128 d).val = d.toNat := val_fromU128 d
  have hbPos := h.exactB_pos
  have hbLt := h.exactB_lt
  have hstart := step_start pool i j x xp d
  obtain ⟨result, hsettles, hsolves, hle⟩ := exists_settles
    (p := (d.toNat : ℤ) - pool.exactB i j x xp d) (c := pool.exactC i j x xp d) (y := d.toNat)
    (m := 128) (Int.natCast_nonneg _) (Int.natCast_nonneg _) (by omega)
    (by rw [hstart]; exact_mod_cast h.exactFirst_lt)
  rw [hstart] at hsettles hle
  have hsim : ∀ v : U256, Visited ((d.toNat : ℤ) - pool.exactB i j x xp d)
      (max d.toNat (pool.exactFirst i j x xp d)) v.val →
        ∃ w, stepY b c (.fromU128 d) v = .ok (some w) ∧
          (w.val : ℤ) = step ((d.toNat : ℤ) - pool.exactB i j x xp d)
            (pool.exactC i j x xp d) v.val := by
    intro v hv
    obtain ⟨-, hmax, hslope⟩ := hv
    obtain ⟨hlt, hnumerator⟩ := h.numerator_lt (v := v.val) (by exact_mod_cast hmax)
    rw [← hb, ← hc, ← hd]
    exact stepY_eq (by rw [hc]; exact hnumerator) (by omega) (by omega)
  obtain ⟨w, htest, hw⟩ := leavesByTest_of_settles hsim hsettles (by rw [hd])
  -- what it leaves with is not above the second value, and fits in 128 bits
  have hfirst := h.exactFirst_lt
  obtain ⟨y, rfl⟩ : ∃ y, w = fromU128 y := by
    refine ⟨BitVec.ofNat 128 w.val, ?_⟩
    rw [← val_inj, val_fromU128, BitVec.toNat_ofNat, Nat.mod_eq_of_lt (by omega)]
  refine ⟨y, htest, ?_⟩
  rw [val_fromU128] at hw
  rw [isOutputReserve_iff, hw]
  exact hsolves

/-- The solver leaves its loop through the test after at most 130 of its 255 steps, and returns
the balance at which the equation holds. -/
theorem getY_solves (h : OutputSolvable pool i j x xp d) :
    ∃ (b c : U256) (y : U128), b.val = pool.exactB i j x xp d ∧
      c.val = pool.exactC i j x xp d ∧
      LeavesByTest (stepY b c (.fromU128 d)) (.fromU128 y) 130 (.fromU128 d) ∧
      pool.getY i j x xp = .ok (some y) ∧
      IsOutputReserve (pool.exactB i j x xp d) (pool.exactC i j x xp d) d.toNat y.toNat := by
  obtain ⟨b, c, hb, hc, hgetY⟩ := h.getY_eq
  obtain ⟨y, htest, hy⟩ := h.exists_leavesByTest hb hc
  refine ⟨b, c, y, hb, hc, htest, ?_, hy⟩
  rw [hgetY, (htest.more_fuel (by decide)).iterate_eq]
  rfl

/-- Two coins in equal amounts. -/
def evenPool : CurvePool := new2pool (.replicate 2 1000000) (.replicate 2 18) 100 4

lemma evenPool_invariant :
    evenPool.getD [1000000, 1000000, 0] = .ok (some (BitVec.ofNat 128 2000000)) := by
  decide +kernel

lemma evenPool_solvable : OutputSolvable evenPool 0 1 1001000 [1000000, 1000000, 0] 2000000 where
  coins := .inl rfl
  distinct := by decide
  amplified := by decide
  annFits := by decide
  invariant := evenPool_invariant
  positive := by
    rw [show evenPool.otherBalances 0 1 1001000 [1000000, 1000000, 0] = [1001000] from rfl]
    simp
  totalFits := by decide +kernel
  scaleFits := by decide +kernel
  productFits := by decide +kernel
  startFits := by decide +kernel
  firstFits := by decide +kernel

theorem getY_solves_evenPool :
    ∃ (b c : U256) (y : U128),
      b.val = evenPool.exactB 0 1 1001000 [1000000, 1000000, 0] 2000000 ∧
      c.val = evenPool.exactC 0 1 1001000 [1000000, 1000000, 0] 2000000 ∧
      LeavesByTest (stepY b c (.fromU128 2000000)) (.fromU128 y) 130 (.fromU128 2000000) ∧
      evenPool.getY 0 1 1001000 [1000000, 1000000, 0] = .ok (some y) ∧
      IsOutputReserve (evenPool.exactB 0 1 1001000 [1000000, 1000000, 0] 2000000)
        (evenPool.exactC 0 1 1001000 [1000000, 1000000, 0] 2000000)
        (2000000 : U128).toNat y.toNat :=
  getY_solves evenPool_solvable

/-! ## Larger swaps -/

lemma exactScale_anti {d n : ℕ} (hn : 0 < n) {xs ys : List ℕ} (h : List.Forall₂ (· ≤ ·) xs ys)
    (hpos : ∀ x ∈ xs, 0 < x) {acc acc' : ℕ} (hacc : acc' ≤ acc) :
    exactScale d n ys acc' ≤ exactScale d n xs acc := by
  induction h generalizing acc acc' with
  | nil => exact hacc
  | cons hle _ ih =>
    obtain ⟨hx, hrest⟩ := List.forall_mem_cons.mp hpos
    apply ih hrest
    exact Nat.div_le_div (Nat.mul_le_mul_right _ hacc) (Nat.mul_le_mul_right _ hle)
      (Nat.mul_pos hx hn).ne'

lemma exactOthers_mono {x' : U128} (hle : x.toNat ≤ x'.toNat) :
    List.Forall₂ (· ≤ ·) (pool.exactOthers i j x xp) (pool.exactOthers i j x' xp) := by
  unfold exactOthers otherBalances
  rw [List.map_filterMap, List.map_filterMap]
  refine List.rel_filterMap (R := Eq) ?_ (List.forall₂_refl _)
  intro k k' hk
  subst hk
  show Option.Rel _ (Option.map _ _) (Option.map _ _)
  by_cases hki : k = i
  · rw [if_pos hki, if_pos hki]
    exact .some hle
  · rw [if_neg hki, if_neg hki]
    cases (if k ≠ j then xp[k]? else none : Option U128) with
    | none => exact .none
    | some y => exact .some le_rfl

/-- A larger input balance leaves an output reserve that is at most one larger. -/
lemma output_le_succ {x' y y' : U128} (h : OutputSolvable pool i j x xp d)
    (hle : x.toNat ≤ x'.toNat)
    (hy : IsOutputReserve (pool.exactB i j x xp d) (pool.exactC i j x xp d) d.toNat y.toNat)
    (hy' : IsOutputReserve (pool.exactB i j x' xp d) (pool.exactC i j x' xp d) d.toNat y'.toNat) :
    y'.toNat ≤ y.toNat + 1 := by
  have hothers : List.Forall₂ (· ≤ ·) (pool.exactOthers i j x xp) (pool.exactOthers i j x' xp) :=
    exactOthers_mono hle
  have hn : 0 < pool.nCoins := by
    have hdistinct := h.distinct
    omega
  have hpositive : ∀ v ∈ pool.exactOthers i j x xp, 0 < v := by
    intro v hv
    obtain ⟨w, hw, rfl⟩ := List.mem_map.mp hv
    exact h.positive w hw
  have hb : pool.exactB i j x xp d ≤ pool.exactB i j x' xp d :=
    Nat.add_le_add_right hothers.sum_le_sum _
  have hc : pool.exactC i j x' xp d ≤ pool.exactC i j x xp d :=
    Nat.div_le_div_right (Nat.mul_le_mul_right _ (exactScale_anti hn hothers hpositive le_rfl))
  rw [isOutputReserve_iff] at hy hy'
  have hexcess : ∀ v : ℤ, 0 ≤ v →
      excess ((d.toNat : ℤ) - pool.exactB i j x xp d) (pool.exactC i j x xp d) v
        ≤ excess ((d.toNat : ℤ) - pool.exactB i j x' xp d) (pool.exactC i j x' xp d) v := by
    intro v hv
    have hscaled : (pool.exactB i j x xp d : ℤ) * v ≤ pool.exactB i j x' xp d * v :=
      mul_le_mul_of_nonneg_right (by omega) hv
    have hconst : (pool.exactC i j x' xp d : ℤ) ≤ pool.exactC i j x xp d := by omega
    unfold excess
    linarith
  have hnext := hy.le_succ hy' (Int.natCast_nonneg _) hexcess
  omega

/-- What the trader gets of a balance after the fee. -/
def afterFee (feeBps : ℕ) (v : ℕ) : ℕ := v - v * feeBps / 10000

lemma afterFee_mono (feeBps : ℕ) : Monotone (afterFee feeBps) := by
  apply monotone_nat_of_le_succ
  intro v
  unfold afterFee
  by_cases hfee : feeBps ≤ 10000
  · have hnext : (v + 1) * feeBps / 10000 ≤ v * feeBps / 10000 + 1 := by
      rw [Nat.add_mul, Nat.one_mul]
      omega
    have hle : v * feeBps / 10000 ≤ v := Nat.div_le_of_le_mul (by nlinarith)
    omega
  · -- a fee of more than all of it leaves nothing
    have hall : v ≤ v * feeBps / 10000 := (Nat.le_div_iff_mul_le (by decide)).mpr (by nlinarith)
    omega

lemma afterFee_succ_le (feeBps v : ℕ) : afterFee feeBps (v + 1) ≤ afterFee feeBps v + 1 := by
  have hle : v * feeBps / 10000 ≤ (v + 1) * feeBps / 10000 :=
    Nat.div_le_div_right (Nat.mul_le_mul_right _ (Nat.le_succ v))
  unfold afterFee
  omega

/-- The fee in 128 bits. -/
lemma toNat_afterFee {v : U128} {feeBps : UInt16} (hfits : v.toNat * feeBps.toNat < 2 ^ 128) :
    (satSub v (v * BitVec.ofNat 128 feeBps.toNat / 10000)).toNat
      = afterFee feeBps.toNat v.toNat := by
  have hfee : (BitVec.ofNat 128 feeBps.toNat).toNat = feeBps.toNat := by
    have hlt := feeBps.toNat_lt
    rw [BitVec.toNat_ofNat, Nat.mod_eq_of_lt (by omega)]
  have hproduct : (v * BitVec.ofNat 128 feeBps.toNat).toNat = v.toNat * feeBps.toNat := by
    rw [toNat_mul_of_lt (by rw [hfee]; exact hfits), hfee]
  have hquotient : (v * BitVec.ofNat 128 feeBps.toNat / 10000).toNat
      = v.toNat * feeBps.toNat / 10000 := by
    rw [BitVec.toNat_udiv, hproduct]
    rfl
  unfold satSub afterFee
  split
  · next hle => rw [BitVec.toNat_sub_of_le hle, hquotient]
  · next hgt =>
    have hlarge : v.toNat ≤ v.toNat * feeBps.toNat / 10000 := by
      rw [← hquotient]
      exact (Nat.not_le.mp hgt).le
    rw [Nat.sub_eq_zero_of_le hlarge]
    rfl

/-- What the trader gets: `None` is nothing. -/
def received : Option U128 → ℕ
  | some dy => dy.toNat
  | none => 0

/-- What a swap of `dx` is given: the balances at 18 decimals, room for the input and the fee,
and what the solver asks for at the new input balance. -/
structure SwapSolvable (pool : CurvePool) (i j : ℕ) (dx : U128) (xp : Vector U128 maxCoins)
    (d mI mJ xI xJ : U128) : Prop where
  reserves : pool.normalizedReserves = .ok xp
  multipliers : pool.multipliers[i]? = some mI ∧ pool.multipliers[j]? = some mJ ∧ 0 < mJ.toNat
  balances : xp[i]? = some xI ∧ xp[j]? = some xJ
  inputFits : xI.toNat + dx.toNat * mI.toNat < 2 ^ 128
  feeFits : xJ.toNat * pool.feeBps.toNat < 2 ^ 128
  solvable : OutputSolvable pool i j (xI + dx * mI) xp.toList d

/-- What a swap yields, given the balance that the solver finds. -/
lemma SwapSolvable.exists_output {dx mI mJ xI xJ : U128} {xp : Vector U128 maxCoins}
    (h : SwapSolvable pool i j dx xp d mI mJ xI xJ) :
    ∃ (y : U128) (r : Option U128), pool.calculateSwapOutput i j dx = .ok r ∧
      IsOutputReserve (pool.exactB i j (xI + dx * mI) xp.toList d)
        (pool.exactC i j (xI + dx * mI) xp.toList d) d.toNat y.toNat ∧
      received r = afterFee pool.feeBps.toNat (xJ.toNat - y.toNat) / mJ.toNat := by
  obtain ⟨hmI, hmJ, hpos⟩ := h.multipliers
  obtain ⟨hxI, hxJ⟩ := h.balances
  obtain ⟨b, c, hb, hc, hgetY⟩ := h.solvable.getY_eq
  obtain ⟨y, htest, hy⟩ := h.solvable.exists_leavesByTest hb hc
  rw [(htest.more_fuel (by decide)).iterate_eq] at hgetY
  have hword : (fromU128 y).asU128 = y := rfl
  rw [hword] at hgetY
  by_cases hlt : xJ > y
  · have hlt' : y.toNat < xJ.toNat := hlt
    have hdiff : (xJ - y).toNat = xJ.toNat - y.toNat :=
      BitVec.toNat_sub_of_le (show y.toNat ≤ xJ.toNat from hlt'.le)
    have hfits : (xJ - y).toNat * pool.feeBps.toNat < 2 ^ 128 := by
      rw [hdiff]
      exact (Nat.mul_le_mul_right _ (Nat.sub_le _ _)).trans_lt h.feeFits
    have hnonzero : mJ ≠ 0 := by
      rintro rfl
      exact absurd hpos (by decide)
    refine ⟨y, some (satSub (xJ - y)
      ((xJ - y) * BitVec.ofNat 128 pool.feeBps.toNat / 10000) / mJ), ?_, hy, ?_⟩
    · simp only [calculateSwapOutput, h.reserves, indexed, hmI, hmJ, hxI, hxJ, hgetY, bind,
        Except.bind, if_pos hlt, divided, if_neg hnonzero]
      rfl
    · rw [received, BitVec.toNat_udiv, toNat_afterFee hfits, hdiff]
  · refine ⟨y, none, ?_, hy, ?_⟩
    · simp only [calculateSwapOutput, h.reserves, indexed, hmI, hmJ, hxI, hxJ, hgetY, bind,
        Except.bind, if_neg hlt]
      rfl
    · have hge : xJ.toNat ≤ y.toNat := Nat.not_lt.mp hlt
      rw [Nat.sub_eq_zero_of_le hge, afterFee, Nat.zero_sub, Nat.zero_div]
      rfl

/-- A swap yields no more than the pool has, and a larger one no less than a smaller one, up to
one unit. -/
theorem larger_swap_yields_no_less {dx dx' mI mJ xI xJ : U128} {xp : Vector U128 maxCoins}
    (h : SwapSolvable pool i j dx xp d mI mJ xI xJ)
    (h' : SwapSolvable pool i j dx' xp d mI mJ xI xJ) (hle : dx.toNat ≤ dx'.toNat) :
    ∃ r r', pool.calculateSwapOutput i j dx = .ok r ∧ pool.calculateSwapOutput i j dx' = .ok r' ∧
      received r ≤ received r' + 1 ∧ received r' * mJ.toNat ≤ xJ.toNat := by
  obtain ⟨y, r, hr, hy, hreceived⟩ := h.exists_output
  obtain ⟨y', r', hr', hy', hreceived'⟩ := h'.exists_output
  have hinput : ∀ v : U128, xI.toNat + v.toNat * mI.toNat < 2 ^ 128 →
      (xI + v * mI).toNat = xI.toNat + v.toNat * mI.toNat := by
    intro v hv
    have hproduct : (v * mI).toNat = v.toNat * mI.toNat := toNat_mul_of_lt (by omega)
    rw [toNat_add_of_lt (by rw [hproduct]; exact hv), hproduct]
  have hnext : y'.toNat ≤ y.toNat + 1 := by
    refine output_le_succ h.solvable ?_ hy hy'
    rw [hinput dx h.inputFits, hinput dx' h'.inputFits]
    exact Nat.add_le_add_left (Nat.mul_le_mul_right _ hle) _
  have hpos := h.multipliers.2.2
  refine ⟨r, r', hr, hr', ?_, ?_⟩
  · have hfee : afterFee pool.feeBps.toNat (xJ.toNat - y.toNat)
        ≤ afterFee pool.feeBps.toNat (xJ.toNat - y'.toNat) + mJ.toNat :=
      calc afterFee pool.feeBps.toNat (xJ.toNat - y.toNat)
        _ ≤ afterFee pool.feeBps.toNat (xJ.toNat - y'.toNat + 1) :=
          afterFee_mono _ (by omega)
        _ ≤ afterFee pool.feeBps.toNat (xJ.toNat - y'.toNat) + 1 := afterFee_succ_le _ _
        _ ≤ afterFee pool.feeBps.toNat (xJ.toNat - y'.toNat) + mJ.toNat :=
          Nat.add_le_add_left hpos _
    rw [hreceived, hreceived', ← Nat.add_div_right _ hpos]
    exact Nat.div_le_div_right hfee
  · rw [hreceived']
    calc afterFee pool.feeBps.toNat (xJ.toNat - y'.toNat) / mJ.toNat * mJ.toNat
      _ ≤ afterFee pool.feeBps.toNat (xJ.toNat - y'.toNat) := Nat.div_mul_le_self _ _
      _ ≤ xJ.toNat - y'.toNat := Nat.sub_le _ _
      _ ≤ xJ.toNat := Nat.sub_le _ _

lemma evenPool_solvable_double :
    OutputSolvable evenPool 0 1 1002000 [1000000, 1000000, 0] 2000000 where
  coins := .inl rfl
  distinct := by decide
  amplified := by decide
  annFits := by decide
  invariant := evenPool_invariant
  positive := by
    rw [show evenPool.otherBalances 0 1 1002000 [1000000, 1000000, 0] = [1002000] from rfl]
    simp
  totalFits := by decide +kernel
  scaleFits := by decide +kernel
  productFits := by decide +kernel
  startFits := by decide +kernel
  firstFits := by decide +kernel

lemma evenPool_swapSolvable {dx : U128} (hfits : 1000000 + dx.toNat * 1 < 2 ^ 128)
    (h : OutputSolvable evenPool 0 1 (1000000 + dx * 1) [1000000, 1000000, 0] 2000000) :
    SwapSolvable evenPool 0 1 dx #v[1000000, 1000000, 0] 2000000 1 1 1000000 1000000 where
  reserves := by decide +kernel
  multipliers := by decide +kernel
  balances := by decide +kernel
  inputFits := hfits
  feeFits := by decide +kernel
  solvable := h

/-- Swaps of a thousandth, and of twice as much. -/
theorem larger_swap_evenPool :
    ∃ r r', evenPool.calculateSwapOutput 0 1 1000 = .ok r ∧
      evenPool.calculateSwapOutput 0 1 2000 = .ok r' ∧
      received r ≤ received r' + 1 ∧ received r' * (1 : U128).toNat ≤ (1000000 : U128).toNat :=
  larger_swap_yields_no_less (evenPool_swapSolvable (by decide) evenPool_solvable)
    (evenPool_swapSolvable (by decide) evenPool_solvable_double) (by decide)

end CurvePool

end ChainMarketPrice.AmmVirtualizer
