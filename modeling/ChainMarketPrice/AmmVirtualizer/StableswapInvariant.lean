import ChainMarketPrice.AmmVirtualizer.Curve
import ChainMarketPrice.AmmVirtualizer.U256Theorems

/-!
# The invariant of a Stableswap pool

The loop of `CurvePool::get_d` over the naturals. A step in 256 bits is the step in exact
integers as long as no intermediate value reaches `2 ^ 256` (`stepD_eq`). A balanced pool is
where the iteration starts and stops.
-/

namespace ChainMarketPrice.AmmVirtualizer
namespace CurvePool

open FixedWidth U256

/-! ## The loop in exact integers -/

/-- The inner loop: `acc * d / (x * n)` for each `x`. -/
def exactScale (d n : ℕ) : List ℕ → ℕ → ℕ
  | [], acc => acc
  | x :: xs, acc => exactScale d n xs (acc * d / (x * n))

/-- One Newton step. -/
def exactStep (ann n s : ℕ) (xs : List ℕ) (d : ℕ) : ℕ :=
  (ann * s + exactScale d n xs d * n) * d / ((ann - 1) * d + (n + 1) * exactScale d n xs d)

/-- The products of the inner loop stay below `2 ^ 256`. -/
def ScaleFits (d n : ℕ) : List ℕ → ℕ → Prop
  | [], _ => True
  | x :: xs, acc => acc * d < 2 ^ 256 ∧ ScaleFits d n xs (acc * d / (x * n))

instance ScaleFits.decidable (d n : ℕ) : ∀ xs acc, Decidable (ScaleFits d n xs acc)
  | [], _ => isTrue trivial
  | x :: xs, acc =>
    have := ScaleFits.decidable d n xs (acc * d / (x * n))
    inferInstanceAs (Decidable (acc * d < 2 ^ 256 ∧ ScaleFits d n xs (acc * d / (x * n))))

/-- No intermediate value of a step reaches `2 ^ 256`. -/
structure StepFits (ann n s : ℕ) (xs : List ℕ) (d : ℕ) : Prop where
  scale : ScaleFits d n xs d
  numerator : (ann * s + exactScale d n xs d * n) * d < 2 ^ 256
  denominator : (ann - 1) * d + (n + 1) * exactScale d n xs d < 2 ^ 256

instance (ann n s : ℕ) (xs : List ℕ) : DecidablePred (StepFits ann n s xs) := fun d =>
  decidable_of_iff
    (ScaleFits d n xs d ∧ (ann * s + exactScale d n xs d * n) * d < 2 ^ 256 ∧
      (ann - 1) * d + (n + 1) * exactScale d n xs d < 2 ^ 256)
    ⟨fun ⟨hs, hn, hd⟩ => ⟨hs, hn, hd⟩, fun h => ⟨h.scale, h.numerator, h.denominator⟩⟩

/-! ## A step in 256 bits -/

lemma val_fromU128 (x : U128) : (fromU128 x).val = x.toNat := by
  show 2 ^ 128 * 0 + x.toNat = x.toNat
  omega

lemma val_one : U256.one.val = 1 := rfl

lemma val_mul_of_lt {a b : U256} (h : a.val * b.val < 2 ^ 256) :
    (a.mul b).val = a.val * b.val := by
  rw [val_mul, Nat.mod_eq_of_lt h]

lemma val_add_of_lt {a b : U256} (h : a.val + b.val < 2 ^ 256) :
    (a.add b).val = a.val + b.val := by
  rw [val_add, Nat.mod_eq_of_lt h]

lemma divided256_eq {a b : U256} (hb : 0 < b.val) :
    ∃ q, divided256 a b = .ok q ∧ q.val = a.val / b.val := by
  obtain ⟨q, hq, hval⟩ := val_div a b hb
  refine ⟨q, ?_, hval⟩
  unfold divided256
  rw [hq]

/-- The test holds exactly for values at a distance of at most one. -/
lemma converged_iff (next prev : U256) :
    converged next prev = true ↔ next.val ≤ prev.val + 1 ∧ prev.val ≤ next.val + 1 := by
  unfold converged
  split
  · next hlt =>
    rw [lt_iff] at hlt
    rw [le_iff, val_sub_of_le hlt.le, val_one]
    omega
  · next hge =>
    rw [lt_iff] at hge
    rw [le_iff, val_sub_of_le (by omega), val_one]
    omega

/-- The inner loop in 256 bits. -/
lemma scaleByBalances_eq {d n : U256} (hn : 0 < n.val ∧ n.val ≤ 3) {xs : List U128}
    (hxs : ∀ x ∈ xs, 0 < x.toNat) {acc : U256}
    (h : ScaleFits d.val n.val (xs.map BitVec.toNat) acc.val) :
    ∃ q, scaleByBalances d n xs acc = .ok (some q) ∧
      q.val = exactScale d.val n.val (xs.map BitVec.toNat) acc.val := by
  induction xs generalizing acc with
  | nil => exact ⟨acc, rfl, rfl⟩
  | cons x xs ih =>
    obtain ⟨hprod, hrest⟩ := h
    have hx := hxs x List.mem_cons_self
    have hxlt := x.isLt
    have hbound : x.toNat * n.val ≤ x.toNat * 3 := Nat.mul_le_mul_left _ hn.2
    -- the divisor is below 2^130, and not zero
    have hdenom : ((fromU128 x).mul n).val = x.toNat * n.val := by
      rw [val_mul_of_lt (by rw [val_fromU128]; omega), val_fromU128]
    have hpos : 0 < ((fromU128 x).mul n).val := by
      rw [hdenom]
      exact Nat.mul_pos hx hn.1
    have hzero : ((fromU128 x).mul n).isZero = false := by
      rw [Bool.eq_false_iff]
      intro hzero
      rw [isZero_iff] at hzero
      omega
    obtain ⟨q, hq, hval⟩ := divided256_eq (a := acc.mul d) hpos
    rw [val_mul_of_lt hprod, hdenom] at hval
    rw [← hval] at hrest
    obtain ⟨result, hresult, heq⟩ := ih (fun y hy => hxs y (List.mem_cons_of_mem _ hy)) hrest
    refine ⟨result, ?_, ?_⟩
    · unfold scaleByBalances
      dsimp only
      rw [hzero, hq]
      exact hresult
    · rw [heq, hval]
      rfl

/-- A step in 256 bits is the step in exact integers. -/
lemma stepD_eq {ann n s d : U256} (hann : 2 ≤ ann.val) (hn : 0 < n.val ∧ n.val ≤ 3)
    {xs : List U128} (hxs : ∀ x ∈ xs, 0 < x.toNat) (hd : 0 < d.val)
    (h : StepFits ann.val n.val s.val (xs.map BitVec.toNat) d.val) :
    ∃ next, stepD ann n s xs d = .ok (some next) ∧
      next.val = exactStep ann.val n.val s.val (xs.map BitVec.toNat) d.val := by
  obtain ⟨hscale, hnum, hden⟩ := h
  obtain ⟨dP, hdP, hval⟩ := scaleByBalances_eq hn hxs hscale
  unfold exactStep
  rw [← hval] at hnum hden ⊢
  -- the factors are below the products, as the current value is positive
  have hsum : ann.val * s.val + dP.val * n.val < 2 ^ 256 :=
    lt_of_le_of_lt (Nat.le_mul_of_pos_right _ hd) hnum
  have hnumerator : (((ann.mul s).add (dP.mul n)).mul d).val
      = (ann.val * s.val + dP.val * n.val) * d.val := by
    have hfirst : (ann.mul s).val = ann.val * s.val := val_mul_of_lt (by omega)
    have hsecond : (dP.mul n).val = dP.val * n.val := val_mul_of_lt (by omega)
    have hadd : ((ann.mul s).add (dP.mul n)).val = ann.val * s.val + dP.val * n.val := by
      rw [val_add_of_lt (by omega), hfirst, hsecond]
    rw [val_mul_of_lt (by rw [hadd]; exact hnum), hadd]
  have hdenominator : (((ann.sub .one).mul d).add ((n.add .one).mul dP)).val
      = (ann.val - 1) * d.val + (n.val + 1) * dP.val := by
    have hpred : (ann.sub .one).val = ann.val - 1 := by
      rw [val_sub_of_le (by rw [val_one]; omega), val_one]
    have hsucc : (n.add .one).val = n.val + 1 := by
      rw [val_add_of_lt (by rw [val_one]; omega), val_one]
    have hfirst : ((ann.sub .one).mul d).val = (ann.val - 1) * d.val := by
      rw [val_mul_of_lt (by rw [hpred]; omega), hpred]
    have hsecond : ((n.add .one).mul dP).val = (n.val + 1) * dP.val := by
      rw [val_mul_of_lt (by rw [hsucc]; omega), hsucc]
    rw [val_add_of_lt (by omega), hfirst, hsecond]
  have hpos : 0 < (((ann.sub .one).mul d).add ((n.add .one).mul dP)).val := by
    rw [hdenominator]
    exact Nat.add_pos_left (Nat.mul_pos (by omega) hd) _
  have hzero : (((ann.sub .one).mul d).add ((n.add .one).mul dP)).isZero = false := by
    rw [Bool.eq_false_iff]
    intro hzero
    rw [isZero_iff] at hzero
    omega
  obtain ⟨next, hnext, hvalue⟩ :=
    divided256_eq (a := ((ann.mul s).add (dP.mul n)).mul d) hpos
  refine ⟨next, ?_, ?_⟩
  · simp only [stepD, hdP, bind, Except.bind, hzero, hnext, Bool.false_eq_true, if_false]
    rfl
  · rw [hvalue, hnumerator, hdenominator]

/-! ## Entering the loop -/

/-- A pool of one of the two constructors, with at most 18 decimals for each coin. -/
inductive Built : CurvePool → Prop
  | twoCoins (reserves : Vector U128 2) (decimals : Vector UInt8 2) (a : U128) (feeBps : UInt16)
      (h : ∀ i, (hi : i < 2) → decimals[i] ≤ 18) : Built (new2pool reserves decimals a feeBps)
  | threeCoins (reserves : Vector U128 3) (decimals : Vector UInt8 3) (a : U128)
      (feeBps : UInt16) (h : ∀ i, (hi : i < 3) → decimals[i] ≤ 18) :
      Built (new3pool reserves decimals a feeBps)

variable {pool : CurvePool}

lemma Built.nCoins_eq (h : Built pool) : pool.nCoins = 2 ∨ pool.nCoins = 3 := by
  cases h with
  | twoCoins => exact .inl rfl
  | threeCoins => exact .inr rfl

/-- The amplification as the loop uses it. -/
def exactAnn (pool : CurvePool) : ℕ := pool.a.toNat * pool.nCoins ^ pool.nCoins

lemma toNat_ann (hn : pool.nCoins = 2 ∨ pool.nCoins = 3) (h : pool.exactAnn < 2 ^ 128) :
    pool.ann.toNat = pool.exactAnn := by
  unfold exactAnn ann at *
  rcases hn with hn | hn <;> rw [hn] at h ⊢ <;> exact toNat_mul_of_lt h

lemma toNat_coins (hn : pool.nCoins = 2 ∨ pool.nCoins = 3) :
    pool.coins.toNat = pool.nCoins := by
  unfold coins
  rcases hn with hn | hn <;> rw [hn] <;> rfl

lemma toNat_foldl_add (xs : List U128) (acc : U128)
    (h : acc.toNat + (xs.map BitVec.toNat).sum < 2 ^ 128) :
    (xs.foldl (· + ·) acc).toNat = acc.toNat + (xs.map BitVec.toNat).sum := by
  induction xs generalizing acc with
  | nil => rfl
  | cons x xs ih =>
    rw [List.map_cons, List.sum_cons] at h ⊢
    have hadd : (acc + x).toNat = acc.toNat + x.toNat := toNat_add_of_lt (by omega)
    rw [List.foldl_cons, ih _ (by omega), hadd, Nat.add_assoc]

/-- The sum of the balances that take part. -/
lemma getD_eq {xp xs : List U128} (hlen : pool.nCoins ≤ xp.length)
    (hxs : xp.take pool.nCoins = xs) (hpos : xs.foldl (· + ·) 0 ≠ 0) :
    pool.getD xp =
      iterate (stepD (.fromU128 pool.ann) (.fromU128 pool.coins)
        (.fromU128 (xs.foldl (· + ·) 0)) xs) 255 (.fromU128 (xs.foldl (· + ·) 0)) := by
  unfold getD
  dsimp only
  rw [if_neg (Nat.not_lt.mpr hlen), hxs, if_neg hpos]

/-- One step is enough when its result is close. -/
lemma iterate_of_close {step : U256 → Except Panic (Option U256)} {v next : U256} (fuel : ℕ)
    (hstep : step v = .ok (some next)) (hclose : converged next v = true) :
    iterate step (fuel + 1) v = .ok (some next.asU128) := by
  simp only [iterate, hstep, bind, Except.bind, hclose, if_true]
  rfl

/-- A step of a pool's loop in exact integers. -/
lemma stepD_pool (hn : pool.nCoins = 2 ∨ pool.nCoins = 3) (hlt : pool.exactAnn < 2 ^ 128)
    (hann : 2 ≤ pool.exactAnn) {xs : List U128} (hxs : ∀ x ∈ xs, 0 < x.toNat) {s d : U256}
    (hd : 0 < d.val)
    (h : StepFits pool.exactAnn pool.nCoins s.val (xs.map BitVec.toNat) d.val) :
    ∃ next, stepD (.fromU128 pool.ann) (.fromU128 pool.coins) s xs d = .ok (some next) ∧
      next.val = exactStep pool.exactAnn pool.nCoins s.val (xs.map BitVec.toNat) d.val := by
  have hannVal : (fromU128 pool.ann).val = pool.exactAnn := by
    rw [val_fromU128, toNat_ann hn hlt]
  have hcoins : (fromU128 pool.coins).val = pool.nCoins := by
    rw [val_fromU128, toNat_coins hn]
  rw [← hannVal] at hann
  rw [← hannVal, ← hcoins] at h ⊢
  exact stepD_eq hann (by omega) hxs hd h

/-! ## Balanced pools -/

lemma exactScale_replicate {n x : ℕ} (hn : 0 < n) (hx : 0 < x) (k : ℕ) :
    exactScale (n * x) n (List.replicate k x) (n * x) = n * x := by
  induction k with
  | zero => rfl
  | succ k ih =>
    rw [List.replicate_succ, exactScale, Nat.mul_comm x n,
      Nat.mul_div_cancel _ (Nat.mul_pos hn hx), ih]

lemma scaleFits_replicate {n x : ℕ} (hn : 0 < n) (hx : 0 < x) (h : n * x * (n * x) < 2 ^ 256)
    (k : ℕ) : ScaleFits (n * x) n (List.replicate k x) (n * x) := by
  induction k with
  | zero => trivial
  | succ k ih =>
    rw [List.replicate_succ]
    refine ⟨h, ?_⟩
    rw [Nat.mul_comm x n, Nat.mul_div_cancel _ (Nat.mul_pos hn hx)]
    exact ih

/-- With equal balances the total is a fixed point of the step. -/
lemma exactStep_balanced {ann n x : ℕ} (hann : 1 ≤ ann) (hn : 0 < n) (hx : 0 < x) :
    exactStep ann n (n * x) (List.replicate n x) (n * x) = n * x := by
  have htotal : 0 < n * x := Nat.mul_pos hn hx
  unfold exactStep
  rw [exactScale_replicate hn hx]
  have hnumerator : (ann * (n * x) + n * x * n) * (n * x)
      = n * x * ((ann - 1) * (n * x) + (n + 1) * (n * x)) := by
    rw [← Nat.add_mul, show ann - 1 + (n + 1) = ann + n by omega]
    ring
  rw [hnumerator]
  apply Nat.mul_div_cancel
  exact Nat.add_pos_right _ (Nat.mul_pos (Nat.succ_pos n) htotal)

lemma stepFits_balanced {ann n x : ℕ} (hann : 1 ≤ ann) (hn : 0 < n) (hx : 0 < x)
    (h : (ann + n) * (n * x) ^ 2 < 2 ^ 256) :
    StepFits ann n (n * x) (List.replicate n x) (n * x) := by
  have htotal : 0 < n * x := Nat.mul_pos hn hx
  have hscale := exactScale_replicate hn hx n
  have hsquare : n * x * (n * x) ≤ (ann + n) * (n * x) ^ 2 := by
    rw [← Nat.pow_two]
    exact Nat.le_mul_of_pos_left _ (by omega)
  constructor
  · exact scaleFits_replicate hn hx (lt_of_le_of_lt hsquare h) n
  · rw [hscale]
    calc (ann * (n * x) + n * x * n) * (n * x) = (ann + n) * (n * x) ^ 2 := by ring
      _ < 2 ^ 256 := h
  · rw [hscale, ← Nat.add_mul, show ann - 1 + (n + 1) = ann + n by omega]
    calc (ann + n) * (n * x) ≤ (ann + n) * (n * x) * (n * x) := Nat.le_mul_of_pos_right _ htotal
      _ = (ann + n) * (n * x) ^ 2 := by ring
      _ < 2 ^ 256 := h

/-- What `get_d` takes of the balances. -/
lemma take_balanced {xp : Vector U128 maxCoins} {x : U128} (hle : pool.nCoins ≤ maxCoins)
    (hbalanced : ∀ i, (hi : i < maxCoins) → i < pool.nCoins → xp[i] = x) :
    xp.toList.take pool.nCoins = List.replicate pool.nCoins x := by
  apply List.ext_getElem
  · rw [List.length_take, List.length_replicate, Vector.length_toList, Nat.min_eq_left hle]
  · intro i _ hi
    rw [List.length_replicate] at hi
    rw [List.getElem_take, List.getElem_replicate, Vector.getElem_toList]
    exact hbalanced i (by omega) hi

/-- A balanced pool has its total as invariant. -/
theorem getD_balanced (hbuilt : Built pool) {xp : Vector U128 maxCoins}
    (hxp : pool.normalizedReserves = .ok xp) {x : U128} (hx : 0 < x.toNat)
    (hbalanced : ∀ i, (hi : i < maxCoins) → i < pool.nCoins → xp[i] = x)
    (ha : 1 ≤ pool.a.toNat) (htotal : pool.nCoins * x.toNat < 2 ^ 128)
    (hann : pool.a.toNat * pool.nCoins ^ pool.nCoins < 2 ^ 128)
    (hfits : (pool.a.toNat * pool.nCoins ^ pool.nCoins + pool.nCoins)
      * (pool.nCoins * x.toNat) ^ 2 < 2 ^ 256) :
    ∃ d, (pool.normalizedReserves >>= fun xp => pool.getD xp.toList) = .ok (some d) ∧
      d.toNat = pool.nCoins * x.toNat := by
  have hn := hbuilt.nCoins_eq
  have hle : pool.nCoins ≤ maxCoins := by
    unfold maxCoins
    omega
  have hlen : pool.nCoins ≤ xp.toList.length := by rwa [Vector.length_toList]
  have hzero : BitVec.toNat (0 : U128) = 0 := rfl
  have hvalues : (List.replicate pool.nCoins x).map BitVec.toNat
      = List.replicate pool.nCoins x.toNat := List.map_replicate
  have hsum : ((List.replicate pool.nCoins x).foldl (· + ·) (0 : U128)).toNat
      = pool.nCoins * x.toNat := by
    rw [toNat_foldl_add] <;> rw [hvalues, List.sum_replicate_nat, hzero, Nat.zero_add]
    exact htotal
  have hpos : (List.replicate pool.nCoins x).foldl (· + ·) (0 : U128) ≠ 0 := by
    intro hnil
    rw [hnil, hzero] at hsum
    exact absurd hsum.symm (Nat.mul_pos (by omega) hx).ne'
  rw [hxp]
  show ∃ d, pool.getD xp.toList = .ok (some d) ∧ _
  rw [getD_eq hlen (take_balanced hle hbalanced) hpos]
  generalize (List.replicate pool.nCoins x).foldl (· + ·) (0 : U128) = s at hsum
  have hann4 : 4 ≤ pool.exactAnn := by
    have hpow : 4 ≤ pool.nCoins ^ pool.nCoins := by
      rcases hn with hn | hn <;> rw [hn] <;> decide
    exact le_trans hpow (Nat.le_mul_of_pos_left _ ha)
  have hfit := stepFits_balanced (show 1 ≤ pool.exactAnn by omega)
    (show 0 < pool.nCoins by omega) hx hfits
  have hfixed := exactStep_balanced (show 1 ≤ pool.exactAnn by omega)
    (show 0 < pool.nCoins by omega) hx
  have hs : (fromU128 s).val = pool.nCoins * x.toNat := by rw [val_fromU128, hsum]
  have hxs : ∀ y ∈ List.replicate pool.nCoins x, 0 < y.toNat := by
    intro y hy
    rwa [(List.mem_replicate.mp hy).2]
  rw [← hs, ← hvalues] at hfit hfixed
  -- the first step stays where it started
  have hd : 0 < (fromU128 s).val := by
    rw [hs]
    exact Nat.mul_pos (by omega) hx
  obtain ⟨next, hnext, hval⟩ := stepD_pool hn hann (by omega) hxs hd hfit
  have hsame : next = fromU128 s := by rw [← val_inj, hval, hfixed]
  have hclose : converged next (fromU128 s) = true := by
    rw [converged_iff, hsame]
    omega
  refine ⟨next.asU128, iterate_of_close 254 hnext hclose, ?_⟩
  rw [hsame]
  exact hsum

/-- A million of each of three coins, of which two have 6 decimals. -/
def threePool : CurvePool :=
  new3pool #v[1000000000000000000000000, 1000000000000, 1000000000000] #v[18, 6, 6] 100 4

theorem getD_balanced_threePool :
    ∃ d, (threePool.normalizedReserves >>= fun xp => threePool.getD xp.toList) = .ok (some d) ∧
      d.toNat = 3 * 1000000000000000000000000 := by
  have hxp : threePool.normalizedReserves
      = .ok (Vector.replicate 3 1000000000000000000000000) := by decide +kernel
  refine getD_balanced (.threeCoins _ _ _ _ (by decide)) hxp
    (x := 1000000000000000000000000) (by decide) ?_ (by decide) (by decide) (by decide) (by decide)
  intro i hi _
  exact Vector.getElem_replicate hi

end CurvePool
end ChainMarketPrice.AmmVirtualizer
