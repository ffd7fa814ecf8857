import Mathlib.Algebra.Order.BigOperators.Group.List
import ChainMarketPrice.Lib.NewtonDescent
import ChainMarketPrice.AmmVirtualizer.StableswapInvariant

/-!
# Convergence of the Stableswap loop

Newton's iteration for the invariant starts above the root and falls, but the product term is
rounded down once for each coin, and where a large balance comes before a small one the rounded
term is so much too small that a step rises again: the loop may then go in a circle until its
iterations are used up. As long as no step rises by two or more, the loop leaves through its
test, with a positive result of at most the total.
-/

namespace ChainMarketPrice.AmmVirtualizer
namespace CurvePool

open FixedWidth U256 NewtonDescent

/-! ## Three floors -/

section

variable {u v w : ℕ} {d e : ℕ}

lemma exactScale_pair (u v d : ℕ) : exactScale d 2 [u, v] d = d * d / (u * 2) * d / (v * 2) := rfl

lemma exactScale_triple (u v w d : ℕ) :
    exactScale d 3 [u, v, w] d = d * d / (u * 3) * d / (v * 3) * d / (w * 3) := rfl

lemma pair_convex (hv : 0 < v) (h : e ≤ d) :
    d * exactScale e 2 [u, v] e ≤ e * exactScale d 2 [u, v] d + e :=
  floored_convex (K := fun d => d * d / (u * 2)) (Nat.mul_pos hv (by decide))
    (Nat.div_le_div_right (Nat.mul_le_mul h h))

lemma triple_convex (hw : 0 < w) (h : e ≤ d) :
    d * exactScale e 3 [u, v, w] e ≤ e * exactScale d 3 [u, v, w] d + e :=
  floored_convex (K := fun d => d * d / (u * 3) * d / (v * 3)) (Nat.mul_pos hw (by decide))
    (Nat.div_le_div_right (Nat.mul_le_mul (Nat.div_le_div_right (Nat.mul_le_mul h h)) h))

/-- The floored term is no larger than the product term. -/
lemma triple_mul_le (u v w d : ℕ) :
    27 * (u * v * w) * exactScale d 3 [u, v, w] d ≤ d ^ 4 := by
  have hfirst : d * d / (u * 3) * (u * 3) ≤ d * d := Nat.div_mul_le_self _ _
  rw [exactScale_triple]
  generalize d * d / (u * 3) = a at hfirst ⊢
  have hsecond : a * d / (v * 3) * (v * 3) ≤ a * d := Nat.div_mul_le_self _ _
  generalize a * d / (v * 3) = b at hsecond ⊢
  have hthird : b * d / (w * 3) * (w * 3) ≤ b * d := Nat.div_mul_le_self _ _
  generalize b * d / (w * 3) = c at hthird ⊢
  calc 27 * (u * v * w) * c = u * 3 * (v * 3) * (c * (w * 3)) := by ring
    _ ≤ u * 3 * (v * 3) * (b * d) := Nat.mul_le_mul_left _ hthird
    _ = u * 3 * d * (b * (v * 3)) := by ring
    _ ≤ u * 3 * d * (a * d) := Nat.mul_le_mul_left _ hsecond
    _ = d * d * (a * (u * 3)) := by ring
    _ ≤ d * d * (d * d) := Nat.mul_le_mul_left _ hfirst
    _ = d ^ 4 := by ring

/-- What the three floors take from the product term. -/
def floorLoss (u v w d : ℕ) : ℕ := 3 * u * d ^ 2 + 9 * (u * v) * d + 27 * (u * v * w)

lemma le_triple_mul (hu : 0 < u) (hv : 0 < v) (hw : 0 < w) (d : ℕ) :
    d ^ 4 ≤ 27 * (u * v * w) * exactScale d 3 [u, v, w] d + floorLoss u v w d := by
  have hfirst : d * d < u * 3 * (d * d / (u * 3) + 1) := Nat.lt_mul_div_succ _ (by omega)
  rw [exactScale_triple]
  generalize d * d / (u * 3) = a at hfirst ⊢
  have hsecond : a * d < v * 3 * (a * d / (v * 3) + 1) := Nat.lt_mul_div_succ _ (by omega)
  generalize a * d / (v * 3) = b at hsecond ⊢
  have hthird : b * d < w * 3 * (b * d / (w * 3) + 1) := Nat.lt_mul_div_succ _ (by omega)
  generalize b * d / (w * 3) = c at hthird ⊢
  unfold floorLoss
  calc d ^ 4 = d * d * (d * d) := by ring
    _ ≤ d * d * (u * 3 * (a + 1)) := Nat.mul_le_mul_left _ hfirst.le
    _ = 3 * u * d * (a * d) + 3 * u * d ^ 2 := by ring
    _ ≤ 3 * u * d * (v * 3 * (b + 1)) + 3 * u * d ^ 2 :=
      Nat.add_le_add_right (Nat.mul_le_mul_left _ hsecond.le) _
    _ = 9 * (u * v) * (b * d) + 9 * (u * v) * d + 3 * u * d ^ 2 := by ring
    _ ≤ 9 * (u * v) * (w * 3 * (c + 1)) + 9 * (u * v) * d + 3 * u * d ^ 2 :=
      Nat.add_le_add_right (Nat.add_le_add_right (Nat.mul_le_mul_left _ hthird.le) _) _
    _ = 27 * (u * v * w) * c + (3 * u * d ^ 2 + 9 * (u * v) * d + 27 * (u * v * w)) := by ring

/-- The arithmetic mean of three numbers is no less than the geometric one. -/
lemma amgm_triple (u v w : ℕ) : 27 * (u * v * w) ≤ (u + v + w) ^ 3 := by
  zify
  have hu : (0 : ℤ) ≤ u := Int.natCast_nonneg u
  have hv : (0 : ℤ) ≤ v := Int.natCast_nonneg v
  have hw : (0 : ℤ) ≤ w := Int.natCast_nonneg w
  nlinarith [mul_nonneg hu (sq_nonneg ((v : ℤ) - w)), mul_nonneg hv (sq_nonneg ((w : ℤ) - u)),
    mul_nonneg hw (sq_nonneg ((u : ℤ) - v)), mul_nonneg hu (sq_nonneg ((u : ℤ) - v)),
    mul_nonneg hu (sq_nonneg ((u : ℤ) - w)), mul_nonneg hv (sq_nonneg ((v : ℤ) - w)),
    mul_nonneg hv (sq_nonneg ((v : ℤ) - u)), mul_nonneg hw (sq_nonneg ((w : ℤ) - u)),
    mul_nonneg hw (sq_nonneg ((w : ℤ) - v))]

/-- What the floors take at the total. -/
lemma floorLoss_total_le {S : ℕ} (hS : u + v + w = S) : 4 * floorLoss u v w S ≤ 25 * S ^ 3 := by
  have hmean : 27 * (u * v * w) ≤ S ^ 3 := by
    rw [← hS]
    exact amgm_triple u v w
  have hpair : 4 * (u * v) ≤ S ^ 2 := by
    rw [← hS]
    zify
    nlinarith [sq_nonneg ((u : ℤ) - v)]
  have hlinear := Nat.mul_le_mul_right (12 * S ^ 2) (show u ≤ S by omega)
  have hsquare := Nat.mul_le_mul_right (9 * S) hpair
  unfold floorLoss
  linarith

/-- Above the root, and at some distance from it, the floors take little of the product term. -/
lemma floorLoss_le {S f : ℕ} (hu : 0 < u) (hv : 0 < v) (hw : 0 < w) (hS : u + v + w = S)
    (hlt : S < 2 ^ 128) (hd : d ≤ S) (habove : 27 * (u * v * w) * S < d ^ 4) (hf : 2 ^ 68 ≤ f) :
    5 * floorLoss u v w d ≤ 2 * d ^ 3 * f := by
  have hf2 : 256 * S ≤ f ^ 2 := by
    have hsquare := Nat.pow_le_pow_left hf 2
    omega
  have huv : u * v ≤ u * v * w := Nat.le_mul_of_pos_right _ hw
  have huu : u ≤ u * v := Nat.le_mul_of_pos_right _ hv
  -- each of the three losses is compared by a power in which the fourth power of `d` shows
  have hfirst : 45 * u ≤ 2 * d * f := by
    by_contra hgt
    have hpow := Nat.pow_lt_pow_left (Nat.not_le.mp hgt) (show 4 ≠ 0 by decide)
    have hd4 : 27 * u * S ≤ d ^ 4 := by nlinarith
    have hf4 : 65536 * S ^ 2 ≤ f ^ 4 := by
      calc 65536 * S ^ 2 = (256 * S) ^ 2 := by ring
        _ ≤ (f ^ 2) ^ 2 := Nat.pow_le_pow_left hf2 2
        _ = f ^ 4 := by ring
    have hu3 : u ^ 3 ≤ S ^ 3 := Nat.pow_le_pow_left (by omega) 3
    have hlow : 28311552 * u ^ 4 ≤ (2 * d * f) ^ 4 := by
      calc 28311552 * u ^ 4 = 28311552 * u * u ^ 3 := by ring
        _ ≤ 28311552 * u * S ^ 3 := Nat.mul_le_mul_left _ hu3
        _ = 16 * (27 * u * S * (65536 * S ^ 2)) := by ring
        _ ≤ 16 * (d ^ 4 * f ^ 4) := Nat.mul_le_mul_left _ (Nat.mul_le_mul hd4 hf4)
        _ = (2 * d * f) ^ 4 := by ring
    have hhigh : (45 * u) ^ 4 = 4100625 * u ^ 4 := by ring
    omega
  have hsecond : 135 * (u * v) ≤ 2 * d ^ 2 * f := by
    by_contra hgt
    have hpow := Nat.pow_lt_pow_left (Nat.not_le.mp hgt) (show 2 ≠ 0 by decide)
    have hd4 : 27 * (u * v) * S ≤ d ^ 4 := by nlinarith
    have hmean : 4 * (u * v) ≤ S ^ 2 := by
      have hle : (u + v) ^ 2 ≤ S ^ 2 := Nat.pow_le_pow_left (by omega) 2
      have hsq : 4 * (u * v) ≤ (u + v) ^ 2 := by
        zify
        linarith [sq_nonneg ((u : ℤ) - v)]
      exact hsq.trans hle
    have hlow : 110592 * (u * v) ^ 2 ≤ (2 * d ^ 2 * f) ^ 2 := by
      calc 110592 * (u * v) ^ 2 = 27648 * (u * v) * (4 * (u * v)) := by ring
        _ ≤ 27648 * (u * v) * S ^ 2 := Nat.mul_le_mul_left _ hmean
        _ = 4 * (27 * (u * v) * S * (256 * S)) := by ring
        _ ≤ 4 * (d ^ 4 * f ^ 2) := Nat.mul_le_mul_left _ (Nat.mul_le_mul hd4 hf2)
        _ = (2 * d ^ 2 * f) ^ 2 := by ring
    have hhigh : (135 * (u * v)) ^ 2 = 18225 * (u * v) ^ 2 := by ring
    omega
  have hthird : 405 * (u * v * w) ≤ 2 * d ^ 3 * f := by
    have hd3 : 27 * (u * v * w) ≤ d ^ 3 := by
      have hle := Nat.mul_le_mul_left (27 * (u * v * w)) hd
      have hpow : d ^ 4 = d ^ 3 * d := by ring
      rw [hpow] at habove
      exact Nat.le_of_mul_le_mul_right (hle.trans habove.le) (by
        by_contra hzero
        rw [Nat.eq_zero_of_not_pos hzero] at habove
        simp at habove)
    calc 405 * (u * v * w) ≤ 2 * (27 * (u * v * w)) * 8 := by omega
      _ ≤ 2 * d ^ 3 * f := Nat.mul_le_mul (Nat.mul_le_mul_left _ hd3) (by omega)
  unfold floorLoss
  have hfirst' := Nat.mul_le_mul_right (d ^ 2) hfirst
  have hsecond' := Nat.mul_le_mul_right d hsecond
  nlinarith

/-- Near the root, but not too near, a secant of the floored term is steep. -/
lemma triple_secant {S : ℕ} (hu : 0 < u) (hv : 0 < v) (hw : 0 < w) (hS : u + v + w = S)
    (hlt : S < 2 ^ 128) (hd : d ≤ S) (habove : 27 * (u * v * w) * S < d ^ 4) (hle : e ≤ d)
    (hnear : 3 * (d - e) ≤ d) (hfar : 2 ^ 68 ≤ d - e) :
    2 * d * exactScale e 3 [u, v, w] e + (3 + 1) * d * exactScale d 3 [u, v, w] d
      ≤ (3 + 1) * e * exactScale d 3 [u, v, w] d + 2 * d * exactScale d 3 [u, v, w] d := by
  have hloss := floorLoss_le hu hv hw hS hlt hd habove hfar
  have hupper := triple_mul_le u v w e
  have hlower := le_triple_mul hu hv hw d
  -- `f` is the distance and `g` what the root has beyond twice that: all terms are then positive
  obtain ⟨f, rfl⟩ := Nat.exists_eq_add_of_le hle
  rw [Nat.add_sub_cancel_left] at hnear hloss
  obtain ⟨g, hg⟩ := Nat.exists_eq_add_of_le hnear
  obtain rfl : e = 2 * f + g := by omega
  rw [show 2 * f + g + f = 3 * f + g by omega] at *
  have hQ : 0 < 27 * (u * v * w) := by positivity
  generalize 27 * (u * v * w) = Q at *
  generalize exactScale (3 * f + g) 3 [u, v, w] (3 * f + g) = p at *
  generalize exactScale (2 * f + g) 3 [u, v, w] (2 * f + g) = q at *
  generalize floorLoss u v w (3 * f + g) = W at *
  have hsecant : 5 * (Q * ((3 * f + g) * q)) ≤ 5 * (Q * ((f + g) * p)) := by
    have hscaled := Nat.mul_le_mul_left (5 * (3 * f + g)) hupper
    have hpower := Nat.mul_le_mul_left (5 * (f + g)) hlower
    have hrest := Nat.mul_le_mul_left (f + g) hloss
    -- the quartic at the far end against the near one, with a remainder that only helps
    have hidentity : 5 * (f + g) * (3 * f + g) ^ 4
        = 5 * (3 * f + g) * (2 * f + g) ^ 4 + (f + g) * (2 * (3 * f + g) ^ 3 * f)
          + (3 * f + g) * f * (37 * f ^ 3 + 80 * f ^ 2 * g + 46 * f * g ^ 2 + 8 * g ^ 3) := by
      ring
    linarith [Nat.zero_le ((3 * f + g) * f
      * (37 * f ^ 3 + 80 * f ^ 2 * g + 46 * f * g ^ 2 + 8 * g ^ 3))]
  have hpq := Nat.le_of_mul_le_mul_left (Nat.le_of_mul_le_mul_left hsecant (by decide)) hQ
  linarith

/-! ## Where the loop starts -/

/-- The first step does not rise: the total of two balances is above the root. -/
lemma pair_start_le {ann S : ℕ} (hann : 2 ≤ ann) (hu : 0 < u) (hv : 0 < v) (hS : u + v = S) :
    exactStep ann 2 S [u, v] S ≤ S := by
  have hfirst : v * 2 ≤ S * S / (u * 2) := by
    rw [Nat.le_div_iff_mul_le (by omega), ← hS]
    zify
    nlinarith [sq_nonneg ((u : ℤ) - v)]
  have hscale : S ≤ exactScale S 2 [u, v] S := by
    rw [exactScale_pair, Nat.le_div_iff_mul_le (by omega), Nat.mul_comm]
    exact Nat.mul_le_mul_right _ hfirst
  have hA : 0 < ann - 1 := by omega
  refine step_le_of_above (slope_pos hA (by omega)) ?_
  calc ann * S = (ann - 1) * S + S := by rw [← Nat.succ_mul, show (ann - 1).succ = ann by omega]
    _ ≤ (ann - 1) * S + exactScale S 2 [u, v] S := Nat.add_le_add_left hscale _

/-- With three balances the floors may take the total below the root, but by too little for the
first step to rise. -/
lemma triple_start_le {ann S : ℕ} (hann : 27 ≤ ann) (hu : 0 < u) (hv : 0 < v) (hw : 0 < w)
    (hS : u + v + w = S) : exactStep ann 3 S [u, v, w] S ≤ S := by
  have hpos : 0 < S := by omega
  have hscale : S ≤ exactScale S 3 [u, v, w] S + 25 := by
    by_contra hgap
    obtain ⟨t, ht⟩ := Nat.exists_eq_add_of_le (show 26 ≤ S by omega)
    have hterm := Nat.mul_le_mul_left (27 * (u * v * w))
      (show exactScale S 3 [u, v, w] S ≤ t by omega)
    have hmean : 27 * (u * v * w) * t ≤ S ^ 3 * t := by
      rw [← hS]
      exact Nat.mul_le_mul_right _ (amgm_triple u v w)
    have hpower : S ^ 4 = S ^ 3 * t + 26 * S ^ 3 := by
      calc S ^ 4 = S ^ 3 * S := by ring
        _ = S ^ 3 * (26 + t) := by rw [← ht]
        _ = S ^ 3 * t + 26 * S ^ 3 := by ring
    have hcube : 0 < S ^ 3 := Nat.pow_pos hpos
    have hlower := le_triple_mul hu hv hw S
    have hloss := floorLoss_total_le hS
    omega
  -- what is lost is less than the linear part adds
  rw [← Nat.lt_succ_iff]
  obtain ⟨b, rfl⟩ := Nat.exists_eq_add_of_le hann
  unfold exactStep
  have hstart := Nat.mul_le_mul_right S hscale
  generalize exactScale S 3 [u, v, w] S = p at *
  rw [show 27 + b - 1 = 26 + b by omega, Nat.div_lt_iff_lt_mul (by positivity)]
  nlinarith

/-! ## How long it falls -/

/-- A value at which a step falls has a product term of more than the total. -/
lemma lt_exactScale_of_above {ann n S : ℕ} {xs : List ℕ} (hann : 1 ≤ ann) (hd : d ≤ S)
    (habove : ann * S < (ann - 1) * d + exactScale d n xs d) : S < exactScale d n xs d := by
  obtain ⟨b, rfl⟩ := Nat.exists_eq_add_of_le hann
  rw [Nat.add_sub_cancel_left] at habove
  have hlinear := Nat.mul_le_mul_left b hd
  linarith

/-- Two balances: the distance to the root shrinks by a third. -/
lemma pair_not_falling {ann S : ℕ} (run : ℕ → ℕ) (hann : 4 ≤ ann) (hv : 0 < v)
    (hlt : S < 2 ^ 128) (hstart : run 0 = S)
    (hrun : ∀ i ≤ 254, run (i + 1) = exactStep ann 2 S [u, v] (run i))
    (hfall : ∀ i ≤ 254, run (i + 1) < run i) : False := by
  obtain ⟨root, -, habove, hcontract⟩ := fall_contracts hrun hfall (by omega) (by omega)
    (fun _ _ => pair_convex hv)
  have hpow := pow_mul_le (u := fun i => run i - root) (k := 253)
    fun i hi => hcontract i (by omega)
  have hlast : 1 ≤ run 253 - root := by
    have h254 := (habove (253 + 1) le_rfl).1
    have h253 := hfall 253 (by decide)
    omega
  have hfirst : run 0 - root ≤ 2 ^ 128 := by omega
  have hnumbers : 2 ^ 253 * 2 ^ 128 < (2 + 1) ^ 253 := by decide
  have hupper := Nat.mul_le_mul_left (2 ^ 253) hfirst
  have hlower := Nat.mul_le_mul_left ((2 + 1) ^ 253) hlast
  omega

/-- Where the product term at the total leaves room in 256 bits, values that are far above the
root after 40 steps need a small total. -/
lemma total_lt_of_far {S Q p d : ℕ} (hS : 0 < S) (hbelow : Q * S < d ^ 4)
    (hterm : S ^ 4 ≤ 2 * (Q * p)) (hfit : 3 * (p * S) < 2 ^ 256)
    (hfar : 4 ^ 40 * d ≤ 3 ^ 41 * S) : S < 2 ^ 105 := by
  have hproduct : 4 ^ 160 * Q ≤ 3 ^ 164 * S ^ 3 := by
    apply Nat.le_of_mul_le_mul_right _ hS
    calc 4 ^ 160 * Q * S = 4 ^ 160 * (Q * S) := Nat.mul_assoc _ _ _
      _ ≤ 4 ^ 160 * d ^ 4 := Nat.mul_le_mul_left _ hbelow.le
      _ = (4 ^ 40 * d) ^ 4 := by ring
      _ ≤ (3 ^ 41 * S) ^ 4 := Nat.pow_le_pow_left hfar 4
      _ = 3 ^ 164 * S ^ 3 * S := by ring
  have hsquare : 3 * 4 ^ 160 * S ^ 2 ≤ 2 * 2 ^ 256 * 3 ^ 164 := by
    apply Nat.le_of_mul_le_mul_right _ (Nat.pow_pos hS : 0 < S ^ 3)
    calc 3 * 4 ^ 160 * S ^ 2 * S ^ 3 = 3 * 4 ^ 160 * (S ^ 4 * S) := by ring
      _ ≤ 3 * 4 ^ 160 * (2 * (Q * p) * S) := by gcongr
      _ = 2 * 4 ^ 160 * Q * (3 * (p * S)) := by ring
      _ ≤ 2 * 4 ^ 160 * Q * 2 ^ 256 := Nat.mul_le_mul_left _ hfit.le
      _ = 2 * 2 ^ 256 * (4 ^ 160 * Q) := by ring
      _ ≤ 2 * 2 ^ 256 * (3 ^ 164 * S ^ 3) := Nat.mul_le_mul_left _ hproduct
      _ = 2 * 2 ^ 256 * 3 ^ 164 * S ^ 3 := by ring
  by_contra hlarge
  have hpow := Nat.pow_le_pow_left (Nat.not_lt.mp hlarge) 2
  norm_num at hsquare hpow
  omega

/-- Three balances: the distance to the root shrinks by a quarter, and by a half as soon as the
root is within a third, until the floors show. -/
lemma triple_not_falling {ann S : ℕ} (run : ℕ → ℕ) (hann : 27 ≤ ann) (hu : 0 < u) (hv : 0 < v)
    (hw : 0 < w) (hS : u + v + w = S) (hlt : S < 2 ^ 128)
    (hfit : (ann * S + exactScale S 3 [u, v, w] S * 3) * S < 2 ^ 256) (hstart : run 0 = S)
    (hrun : ∀ i ≤ 254, run (i + 1) = exactStep ann 3 S [u, v, w] (run i))
    (hfall : ∀ i ≤ 254, run (i + 1) < run i) : False := by
  obtain ⟨root, hroot, habove, hcontract⟩ := fall_contracts hrun hfall (by omega) (by omega)
    (fun _ _ => triple_convex hw)
  have hlast : 1 ≤ run 253 - root := by
    have h254 := (habove (253 + 1) le_rfl).1
    have h253 := hfall 253 (by decide)
    omega
  have hdown := le_of_falls hfall
  have hle : ∀ i ≤ 254, run i ≤ S := fun i hi => hstart ▸ hdown 0 i (Nat.zero_le i) (by omega)
  have hbelow : ∀ i ≤ 254, 27 * (u * v * w) * S < run i ^ 4 := by
    intro i hi
    refine lt_of_lt_of_le ?_ (triple_mul_le u v w (run i))
    exact Nat.mul_lt_mul_of_pos_left
      (lt_exactScale_of_above (by omega) (hle i hi) (habove i hi).2) (by positivity)
  have hquarters : ∀ i k, i + k ≤ 254 →
      (3 + 1) ^ k * (run (i + k) - root) ≤ 3 ^ k * (run i - root) := fun i k hk =>
    pow_mul_le (u := fun j => run (i + j) - root) fun j hj => hcontract (i + j) (by omega)
  have hlarge : 2 ^ 105 ≤ S := by
    by_contra hsmall
    have hwhole := hquarters 0 253 (by decide)
    have hupper := Nat.mul_le_mul_left (3 ^ 253) (show run 0 - root ≤ 2 ^ 105 by omega)
    have hlower := Nat.mul_le_mul_left ((3 + 1) ^ 253) hlast
    have hnumbers : 3 ^ 253 * 2 ^ 105 < (3 + 1) ^ 253 := by decide
    rw [Nat.zero_add] at hwhole
    omega
  have hfirst := hquarters 0 40 (by decide)
  rw [Nat.zero_add, hstart] at hfirst
  have hnear : 3 * (run 40 - root) ≤ run 40 := by
    by_contra hfar
    refine absurd (total_lt_of_far (p := exactScale S 3 [u, v, w] S) (by omega)
      (hbelow 40 (by decide)) ?_ ?_ ?_) (Nat.not_lt.mpr hlarge)
    · -- the floors take less than half of the product term at the total
      have hlower := le_triple_mul hu hv hw S
      have hloss := floorLoss_total_le hS
      have hpower : 26 * S ^ 3 ≤ S ^ 4 := by
        rw [show S ^ 4 = S * S ^ 3 by ring]
        exact Nat.mul_le_mul_right _ (by omega)
      omega
    · refine lt_of_le_of_lt ?_ hfit
      rw [Nat.add_mul]
      exact le_trans (le_of_eq (by ring)) (Nat.le_add_left _ _)
    · omega
  have hhalves : run 84 - root < 2 ^ 68 := by
    by_contra hfar
    have hsteps : 2 ^ 44 * (run 84 - root) ≤ run 40 - root := fall_halves (A := ann - 1)
      (T := ann * S) (n := 3) (p := fun d => exactScale d 3 [u, v, w] d) (fun i => run (40 + i))
      (fun i hi => hrun (40 + i) (by omega)) (fun i hi => (habove (40 + i) (by omega)).1)
      (by omega) hroot fun i hi => by
        have hhere := hdown 40 (40 + i) (by omega) (by omega)
        have hthere := hdown (40 + i) 84 (by omega) (by omega)
        have hbetween := (habove (40 + i) (by omega)).1
        exact triple_secant hu hv hw hS hlt (hle (40 + i) (by omega)) (hbelow (40 + i) (by omega))
          hbetween (by omega) (by omega)
    omega
  have hrest : (3 + 1) ^ 169 * (run 253 - root) ≤ 3 ^ 169 * (run 84 - root) :=
    hquarters 84 169 (by decide)
  have hupper := Nat.mul_le_mul_left (3 ^ 169) hhalves.le
  have hlower := Nat.mul_le_mul_left ((3 + 1) ^ 169) hlast
  have hnumbers : 3 ^ 169 * 2 ^ 68 < (3 + 1) ^ 169 := by decide
  omega

end

/-! ## The loop and its test -/

/-- The stopping test on exact integers. -/
def Close (next prev : ℕ) : Prop := next ≤ prev + 1 ∧ prev ≤ next + 1

instance (next prev : ℕ) : Decidable (Close next prev) := inferInstanceAs (Decidable (_ ∧ _))

/-- `P` holds of each value from which the loop takes a step. -/
def EachStep (P : ℕ → Prop) (step : ℕ → ℕ) : ℕ → ℕ → Prop
  | 0, _ => True
  | fuel + 1, d => P d ∧ (¬Close (step d) d → EachStep P step fuel (step d))

instance EachStep.decidable (P : ℕ → Prop) [DecidablePred P] (step : ℕ → ℕ) :
    ∀ fuel d, Decidable (EachStep P step fuel d)
  | 0, _ => isTrue trivial
  | fuel + 1, d =>
    have := EachStep.decidable P step fuel (step d)
    inferInstanceAs (Decidable (P d ∧ (¬Close (step d) d → EachStep P step fuel (step d))))

/-- The value with which the loop leaves through its test, if it does. -/
def leave (step : ℕ → ℕ) : ℕ → ℕ → Option ℕ
  | 0, _ => none
  | fuel + 1, d => if Close (step d) d then some (step d) else leave step fuel (step d)

/-- The loop in 256 bits leaves through its test with `result`. -/
def LeavesByTest (step : U256 → Except Panic (Option U256)) (result : U256) : ℕ → U256 → Prop
  | 0, _ => False
  | fuel + 1, v => ∃ next, step v = .ok (some next) ∧
      if converged next v then result = next else LeavesByTest step result fuel next

/-- What the source's loop returns when it leaves through its test. -/
lemma LeavesByTest.iterate_eq {step : U256 → Except Panic (Option U256)} {result : U256}
    {fuel : ℕ} {v : U256} (h : LeavesByTest step result fuel v) :
    iterate step fuel v = .ok (some result.asU128) := by
  induction fuel generalizing v with
  | zero => exact h.elim
  | succ fuel ih =>
    obtain ⟨next, hnext, hrest⟩ := h
    simp only [iterate, hnext, bind, Except.bind]
    split at hrest
    · next hclose =>
      rw [hrest, if_pos hclose]
      rfl
    · next hfar =>
      rw [if_neg hfar]
      exact ih hrest

section

variable {P : ℕ → Prop} {step : ℕ → ℕ} {fuel d : ℕ}

/-- The loop in 256 bits leaves when the one in exact integers does. -/
lemma leavesByTest_iff {wordStep : U256 → Except Panic (Option U256)} {result v : U256}
    (hsim : ∀ v : U256, 0 < v.val → P v.val →
      ∃ next, wordStep v = .ok (some next) ∧ next.val = step v.val)
    (hpos : ∀ d, 0 < d → 0 < step d) (hv : 0 < v.val) (h : EachStep P step fuel v.val) :
    LeavesByTest wordStep result fuel v ↔ leave step fuel v.val = some result.val := by
  induction fuel generalizing v with
  | zero => simp [LeavesByTest, leave]
  | succ fuel ih =>
    obtain ⟨next, hnext, hval⟩ := hsim v hv h.1
    have hclose : converged next v = true ↔ Close (step v.val) v.val := by
      rw [← hval]
      exact converged_iff next v
    simp only [LeavesByTest, leave, hnext, Except.ok.injEq, Option.some.injEq, exists_eq_left']
    by_cases htest : Close (step v.val) v.val
    · rw [if_pos (hclose.mpr htest), if_pos htest, ← hval, Option.some.injEq, val_inj]
      exact eq_comm
    · have hrest := h.2 htest
      rw [← hval] at hrest
      rw [if_neg fun hc => htest (hclose.mp hc), if_neg htest, ← hval]
      exact ih (by rw [hval]; exact hpos _ hv) hrest

/-- A loop whose steps do not rise either leaves or falls in every step. -/
lemma falls_of_leave_eq_none (hnoRise : ∀ d, 0 < d → P d → step d < d + 2)
    (hpos : ∀ d, 0 < d → 0 < step d) (hd : 0 < d) (h : EachStep P step fuel d)
    (hnone : leave step fuel d = none) : ∀ i < fuel, step^[i + 1] d < step^[i] d := by
  induction fuel generalizing d with
  | zero => exact fun i hi => absurd hi (Nat.not_lt_zero i)
  | succ fuel ih =>
    have hrise := hnoRise d hd h.1
    have hfar : ¬Close (step d) d := by
      intro hclose
      simp [leave, hclose] at hnone
    rw [leave, if_neg hfar] at hnone
    intro i hi
    cases i with
    | zero =>
      show step d < d
      unfold Close at hfar
      omega
    | succ i => exact ih (hpos d hd) (h.2 hfar) hnone i (by omega)

/-- What it leaves with is positive and hardly above where it started. -/
lemma bounds_of_leave_eq_some (hnoRise : ∀ d, 0 < d → P d → step d < d + 2)
    (hpos : ∀ d, 0 < d → 0 < step d) (hd : 0 < d) (h : EachStep P step fuel d) {result : ℕ}
    (hsome : leave step fuel d = some result) : 0 < result ∧ result < d + 2 := by
  induction fuel generalizing d with
  | zero => exact absurd hsome (by simp [leave])
  | succ fuel ih =>
    have hrise := hnoRise d hd h.1
    unfold leave at hsome
    split at hsome
    · obtain rfl := Option.some.inj hsome
      exact ⟨hpos d hd, hrise⟩
    · next hfar =>
      have hrest := ih (hpos d hd) (h.2 hfar) hsome
      unfold Close at hfar
      omega

/-- A loop that cannot fall in every step leaves at or below where it started. -/
lemma exists_leave (hnoRise : ∀ d, 0 < d → P d → step d < d + 2)
    (hpos : ∀ d, 0 < d → 0 < step d) (hd : 0 < d) (hstart : step d ≤ d)
    (h : EachStep P step (fuel + 1) d) (hfalls : ¬∀ i ≤ fuel, step^[i + 1] d < step^[i] d) :
    ∃ result, leave step (fuel + 1) d = some result ∧ 0 < result ∧ result ≤ d := by
  cases hleave : leave step (fuel + 1) d with
  | none =>
    have hall := falls_of_leave_eq_none hnoRise hpos hd h hleave
    exact absurd (fun i hi => hall i (Nat.lt_succ_of_le hi)) hfalls
  | some result =>
    obtain ⟨hresult, hle⟩ := bounds_of_leave_eq_some hnoRise hpos hd h hleave
    refine ⟨result, rfl, hresult, ?_⟩
    unfold leave at hleave
    split at hleave
    · obtain rfl := Option.some.inj hleave
      exact hstart
    · next hfar =>
      -- the first step fell by two or more
      have hrest := bounds_of_leave_eq_some hnoRise hpos (hpos d hd) (h.2 hfar) hleave
      unfold Close at hfar
      omega

end

/-! ## Steps that do not rise -/

/-- The rounded product term at `d` is large enough for a step from `d` to rise by one at most. -/
def NoRise (ann n s : ℕ) (xs : List ℕ) (d : ℕ) : Prop :=
  ann * s * d < (ann - 1) * d * (d + 2) + exactScale d n xs d * (d + 2 * n + 2)

instance (ann n s : ℕ) (xs : List ℕ) : DecidablePred (NoRise ann n s xs) :=
  fun _ => inferInstanceAs (Decidable (_ < _))

lemma noRise_iff {ann n s d : ℕ} {xs : List ℕ} (hann : 2 ≤ ann) (hd : 0 < d) :
    NoRise ann n s xs d ↔ exactStep ann n s xs d < d + 2 := by
  have hslope : 0 < (ann - 1) * d + (n + 1) * exactScale d n xs d :=
    slope_pos (p := fun d => exactScale d n xs d) (by omega) hd
  unfold NoRise exactStep
  rw [Nat.div_lt_iff_lt_mul hslope]
  generalize exactScale d n xs d = p
  have hnumerator : (ann * s + p * n) * d = ann * s * d + p * n * d := Nat.add_mul _ _ _
  have hproduct : (d + 2) * ((ann - 1) * d + (n + 1) * p)
      = (ann - 1) * d * (d + 2) + p * (d + 2 * n + 2) + p * n * d := by ring
  rw [hnumerator, hproduct, Nat.add_lt_add_iff_right]

lemma exactScale_zero (d n : ℕ) (xs : List ℕ) : exactScale d n xs 0 = 0 := by
  induction xs with
  | nil => rfl
  | cons x xs ih => rw [exactScale, Nat.zero_mul, Nat.zero_div, ih]

/-- A step does not get to zero: at one, the first floor takes the whole product term. -/
lemma exactStep_pos {ann n s d : ℕ} {xs : List ℕ} (hann : 2 ≤ ann) (hn : 2 ≤ n)
    (hlen : xs.length = n) (hxs : ∀ x ∈ xs, 0 < x) (hs : 0 < s) (hd : 0 < d) :
    0 < exactStep ann n s xs d := by
  have hlinear : ann - 1 ≤ ann * s := (Nat.sub_le _ _).trans (Nat.le_mul_of_pos_right _ hs)
  refine step_pos (slope_pos (by omega) hd) hlinear hd (by omega) ?_
  intro hone
  cases xs with
  | nil => exact absurd hlen (by rw [List.length_nil]; omega)
  | cons x xs =>
    have hx := hxs x List.mem_cons_self
    have hdenominator : 1 < x * n := lt_of_lt_of_le hn (Nat.le_mul_of_pos_left _ hx)
    rw [hone, exactScale, Nat.div_eq_of_lt hdenominator, exactScale_zero]

/-- The two cases of the loop: a start at which it does not rise, and no way to fall for ever. -/
lemma exactStep_start_and_falls {ann n : ℕ} {xs : List ℕ} (hn : n = 2 ∨ n = 3)
    (hlen : xs.length = n) (hann : n ^ n ≤ ann) (hxs : ∀ x ∈ xs, 0 < x) (hlt : xs.sum < 2 ^ 128)
    (hfits : StepFits ann n xs.sum xs xs.sum) :
    exactStep ann n xs.sum xs xs.sum ≤ xs.sum ∧
      ¬∀ i ≤ 254, (exactStep ann n xs.sum xs)^[i + 1] xs.sum
        < (exactStep ann n xs.sum xs)^[i] xs.sum := by
  rcases hn with rfl | rfl
  · obtain ⟨u, v, rfl⟩ := List.length_eq_two.mp hlen
    have hu := hxs u (by simp)
    have hv := hxs v (by simp)
    have hsum : u + v = [u, v].sum := by simp
    generalize [u, v].sum = S at *
    refine ⟨pair_start_le (le_trans (by decide) hann) hu hv hsum, ?_⟩
    exact pair_not_falling (fun i => (exactStep ann 2 S [u, v])^[i] S) hann hv hlt rfl
      fun i _ => Function.iterate_succ_apply' _ i S
  · obtain ⟨u, v, w, rfl⟩ := List.length_eq_three.mp hlen
    have hu := hxs u (by simp)
    have hv := hxs v (by simp)
    have hw := hxs w (by simp)
    have hsum : u + v + w = [u, v, w].sum := by simp [Nat.add_assoc]
    generalize [u, v, w].sum = S at *
    refine ⟨triple_start_le hann hu hv hw hsum, ?_⟩
    exact triple_not_falling (fun i => (exactStep ann 3 S [u, v, w])^[i] S) hann hu hv hw
      hsum hlt hfits.numerator rfl fun i _ => Function.iterate_succ_apply' _ i S

/-! ## Solving for the invariant -/

variable (pool : CurvePool) (xp : List U128)

/-- The balances that take part, as integers. -/
def exactBalances : List ℕ := (xp.take pool.nCoins).map BitVec.toNat

/-- A step of the loop in exact integers. -/
def exactLoopStep : ℕ → ℕ :=
  exactStep pool.exactAnn pool.nCoins (pool.exactBalances xp).sum (pool.exactBalances xp)

/-- What the loop is given: two or three positive balances, and room for every value. -/
structure Solvable : Prop where
  coins : pool.nCoins = 2 ∨ pool.nCoins = 3
  amplified : 1 ≤ pool.a.toNat
  annFits : pool.exactAnn < 2 ^ 128
  enough : pool.nCoins ≤ xp.length
  positive : ∀ x ∈ xp.take pool.nCoins, 0 < x.toNat
  totalFits : (pool.exactBalances xp).sum < 2 ^ 128
  stepsFit : EachStep
    (StepFits pool.exactAnn pool.nCoins (pool.exactBalances xp).sum (pool.exactBalances xp))
    (pool.exactLoopStep xp) 255 (pool.exactBalances xp).sum

/-- The sum `s` of the source. -/
def total : U128 := (xp.take pool.nCoins).foldl (· + ·) 0

/-- A step of the loop in 256 bits. -/
def loopStep : U256 → Except Panic (Option U256) :=
  stepD (.fromU128 pool.ann) (.fromU128 pool.coins) (.fromU128 (pool.total xp))
    (xp.take pool.nCoins)

/-- The loop leaves through its test, with an invariant of at most the total. -/
def Converges : Prop :=
  ∃ d : U128, LeavesByTest (pool.loopStep xp) (.fromU128 d) 255 (.fromU128 (pool.total xp)) ∧
    pool.getD xp = .ok (some d) ∧ 0 < d.toNat ∧ d.toNat ≤ (pool.exactBalances xp).sum

variable {pool xp}

lemma Solvable.toNat_total (h : Solvable pool xp) :
    (pool.total xp).toNat = (pool.exactBalances xp).sum := by
  have hzero : BitVec.toNat (0 : U128) = 0 := rfl
  unfold total
  rw [toNat_foldl_add _ _ (by rw [hzero, Nat.zero_add]; exact h.totalFits), hzero, Nat.zero_add]
  rfl

lemma Solvable.length_exactBalances (h : Solvable pool xp) :
    (pool.exactBalances xp).length = pool.nCoins := by
  unfold exactBalances
  rw [List.length_map, List.length_take, Nat.min_eq_left h.enough]

lemma Solvable.pos_of_mem (h : Solvable pool xp) : ∀ x ∈ pool.exactBalances xp, 0 < x := by
  intro x hx
  obtain ⟨y, hy, rfl⟩ := List.mem_map.mp hx
  exact h.positive y hy

lemma Solvable.two_le_nCoins (h : Solvable pool xp) : 2 ≤ pool.nCoins := by
  rcases h.coins with hn | hn <;> omega

lemma Solvable.sum_pos (h : Solvable pool xp) : 0 < (pool.exactBalances xp).sum := by
  have hlen := h.length_exactBalances
  have hn := h.two_le_nCoins
  obtain ⟨x, hx⟩ := List.exists_mem_of_length_pos (l := pool.exactBalances xp) (by omega)
  exact lt_of_lt_of_le (h.pos_of_mem x hx) (List.single_le_sum (fun _ _ => Nat.zero_le _) x hx)

lemma Solvable.pow_le_exactAnn (h : Solvable pool xp) :
    pool.nCoins ^ pool.nCoins ≤ pool.exactAnn :=
  Nat.le_mul_of_pos_left _ h.amplified

lemma Solvable.two_le_exactAnn (h : Solvable pool xp) : 2 ≤ pool.exactAnn := by
  refine le_trans ?_ h.pow_le_exactAnn
  rcases h.coins with hn | hn <;> rw [hn] <;> decide

lemma Solvable.exactLoopStep_pos (h : Solvable pool xp) {d : ℕ} (hd : 0 < d) :
    0 < pool.exactLoopStep xp d :=
  exactStep_pos h.two_le_exactAnn h.two_le_nCoins h.length_exactBalances h.pos_of_mem h.sum_pos hd

/-- A step in 256 bits is the step in exact integers. -/
lemma Solvable.loopStep_eq (h : Solvable pool xp) {v : U256} (hv : 0 < v.val)
    (hfits : StepFits pool.exactAnn pool.nCoins (pool.exactBalances xp).sum
      (pool.exactBalances xp) v.val) :
    ∃ next, pool.loopStep xp v = .ok (some next) ∧ next.val = pool.exactLoopStep xp v.val := by
  have hs : (fromU128 (pool.total xp)).val = (pool.exactBalances xp).sum := by
    rw [val_fromU128, h.toNat_total]
  unfold exactLoopStep
  rw [← hs] at hfits ⊢
  exact stepD_pool h.coins h.annFits h.two_le_exactAnn h.positive hv hfits

/-- In 256 bits the loop leaves when the one in exact integers does. -/
lemma Solvable.leavesByTest_iff (h : Solvable pool xp) (result : U256) :
    LeavesByTest (pool.loopStep xp) result 255 (.fromU128 (pool.total xp)) ↔
      leave (pool.exactLoopStep xp) 255 (pool.exactBalances xp).sum = some result.val := by
  have hs : (fromU128 (pool.total xp)).val = (pool.exactBalances xp).sum := by
    rw [val_fromU128, h.toNat_total]
  rw [CurvePool.leavesByTest_iff (fun v hv hstep => h.loopStep_eq hv hstep)
    (fun _ => h.exactLoopStep_pos) (by rw [hs]; exact h.sum_pos) (by rw [hs]; exact h.stepsFit), hs]

/-- As long as no step rises by two or more, the solver leaves its loop through the test within
255 steps, and the invariant is positive and at most the total. -/
theorem getD_converges (h : Solvable pool xp)
    (hrise : EachStep
      (NoRise pool.exactAnn pool.nCoins (pool.exactBalances xp).sum (pool.exactBalances xp))
      (pool.exactLoopStep xp) 255 (pool.exactBalances xp).sum) :
    Converges pool xp := by
  have hnoRise : ∀ d, 0 < d →
      NoRise pool.exactAnn pool.nCoins (pool.exactBalances xp).sum (pool.exactBalances xp) d →
        pool.exactLoopStep xp d < d + 2 := fun d hd => (noRise_iff h.two_le_exactAnn hd).mp
  obtain ⟨hstart, hfalls⟩ := exactStep_start_and_falls h.coins h.length_exactBalances
    h.pow_le_exactAnn h.pos_of_mem h.totalFits h.stepsFit.1
  obtain ⟨d, hleave, hd, hle⟩ := exists_leave hnoRise (fun _ => h.exactLoopStep_pos) h.sum_pos
    hstart hrise hfalls
  have hlt : d < 2 ^ 128 := lt_of_le_of_lt hle h.totalFits
  have hval : (BitVec.ofNat 128 d).toNat = d := by rw [BitVec.toNat_ofNat, Nat.mod_eq_of_lt hlt]
  have htest := (h.leavesByTest_iff (.fromU128 (BitVec.ofNat 128 d))).mpr
    (by rw [hleave, val_fromU128, hval])
  refine ⟨BitVec.ofNat 128 d, htest, ?_, by rwa [hval], by rwa [hval]⟩
  rw [getD_eq h.enough rfl]
  · exact htest.iterate_eq
  · intro hzero
    have hsum := h.sum_pos
    rw [← h.toNat_total, total, hzero] at hsum
    exact absurd hsum (by decide)

/-- Three coins with 18 decimals, in unequal amounts. -/
def unevenPool : CurvePool :=
  new3pool #v[1000000000000000000000000, 2000000000000000000000000, 4000000000000000000000000]
    #v[18, 18, 18] 100 4

theorem getD_converges_unevenPool :
    Converges unevenPool
      [1000000000000000000000000, 2000000000000000000000000, 4000000000000000000000000] :=
  getD_converges
    ⟨by decide, by decide, by decide, by decide, by simp [unevenPool, new3pool], by decide,
      by decide +kernel⟩
    (by decide +kernel)

/-- Two coins, of which the second is nearly used up. -/
def drainedPool : CurvePool := new2pool #v[656, 1] #v[18, 18] 1 4

/-- From 657, the loop goes on for all of its 255 steps. -/
theorem not_converges_drainedPool :
    ∃ xp, drainedPool.normalizedReserves = .ok xp ∧ Solvable drainedPool xp.toList ∧
      (∀ result, ¬LeavesByTest (drainedPool.loopStep xp.toList) result 255
        (.fromU128 (drainedPool.total xp.toList))) ∧
      ¬Converges drainedPool xp.toList := by
  have hsolvable : Solvable drainedPool [656, 1, 0] :=
    ⟨by decide, by decide, by decide, by decide, by simp [drainedPool, new2pool], by decide,
      by decide +kernel⟩
  have hleave : leave (drainedPool.exactLoopStep [656, 1, 0]) 255
      (drainedPool.exactBalances [656, 1, 0]).sum = none := by decide +kernel
  have hnever : ∀ result, ¬LeavesByTest (drainedPool.loopStep [656, 1, 0]) result 255
      (.fromU128 (drainedPool.total [656, 1, 0])) := by
    intro result hresult
    rw [hsolvable.leavesByTest_iff, hleave] at hresult
    exact absurd hresult (by simp)
  exact ⟨#v[656, 1, 0], by decide, hsolvable, hnever, fun ⟨d, hd, _⟩ => hnever _ hd⟩

end CurvePool
end ChainMarketPrice.AmmVirtualizer
