import Mathlib.Data.Nat.ModEq
import Mathlib.Logic.Function.Iterate
import ChainMarketPrice.Lib.Decimal
import ChainMarketPrice.CoreEngine.FixedPoint

/-!
# When fixed-point parsing is exact

All digits of a decimal text go into one 64-bit number before the point is looked at. That is
harmless for up to eight digits behind the point, where the scaling only multiplies; with more
of them the digits have to fit on their own (`parse_exact_iff`).
-/

namespace ChainMarketPrice.CoreEngine

open Text FixedWidth

/-! ## The scan -/

lemma toInt64_digit (b : UInt8) : b.toUInt64.toInt64 = Int64.ofInt b.toNat := by
  have hlt := b.toNat_lt
  have hsmall : b.toUInt64.toNat = b.toNat := UInt8.toNat_toUInt64 b
  rw [← Int64.toInt_inj, toInt_toInt64, hsmall, if_pos (by omega),
    Int64.toInt_ofInt_of_le (by omega) (by omega)]

/-- What a digit does to the counter of places. -/
def countPlace (places : Int32) : Int32 := if places ≥ 0 then places + 1 else places

lemma step_digit {b : UInt8} (h : isDigit b = true) (x : ℤ) (places : Int32) :
    FixedPointScan.step ⟨Int64.ofInt x, places⟩ b =
      ⟨Int64.ofInt (x * 10 + (b - '0'.toUInt8).toNat), countPlace places⟩ := by
  have hpoint : b ≠ '.'.toUInt8 := by
    rintro rfl
    exact absurd h (by decide)
  have hrange : '0'.toUInt8 ≤ b ∧ b ≤ '9'.toUInt8 := by simpa [isDigit] using h
  rw [FixedPointScan.step, if_neg hpoint, if_pos hrange, toInt64_digit, Int64.ofInt_add,
    Int64.ofInt_mul]
  rfl

/-- The result wraps, so it is the digits' number modulo `2 ^ 64` whatever their number. -/
lemma foldl_step_digits {digits : List UInt8} (h : AllDigits digits) (x : ℤ) (places : Int32) :
    digits.foldl FixedPointScan.step ⟨Int64.ofInt x, places⟩ =
      ⟨Int64.ofInt (x * 10 ^ digits.length + decimalValue digits),
        countPlace^[digits.length] places⟩ := by
  induction digits generalizing x places with
  | nil => simp [decimalValue]
  | cons b digits ih =>
    rw [List.foldl_cons, step_digit (h b List.mem_cons_self),
      ih fun c hc => h c (List.mem_cons_of_mem _ hc), List.length_cons,
      Function.iterate_succ_apply]
    have hvalue : decimalValue (b :: digits)
        = (b - '0'.toUInt8).toNat * 10 ^ digits.length + decimalValue digits := by
      rw [decimalValue, List.foldl_cons, Nat.zero_mul, Nat.zero_add, foldl_decimal]
    rw [hvalue]
    congr 2
    push_cast
    ring

/-- The counter after `n` digits behind the point: it wraps at `2 ^ 31` and then stands still. -/
def placesCounted (n : ℕ) : Int32 := if n < 2 ^ 31 then Int32.ofNat n else Int32.minValue

lemma iterate_countPlace_before (n : ℕ) : countPlace^[n] (-1) = -1 :=
  Function.iterate_fixed (by decide) n

lemma iterate_countPlace (n : ℕ) : countPlace^[n] 0 = placesCounted n := by
  induction n with
  | zero => rfl
  | succ n ih =>
    rw [Function.iterate_succ_apply', ih]
    unfold placesCounted countPlace
    rcases Nat.lt_trichotomy (n + 1) (2 ^ 31) with hlt | heq | hgt
    · have hpos : Int32.ofNat n ≥ 0 := by
        rw [ge_iff_le, Int32.le_iff_toInt_le, Int32.toInt_ofNat_of_lt (by omega), Int32.toInt_zero]
        omega
      rw [if_pos (show n < 2 ^ 31 by omega), if_pos hpos, if_pos hlt, Int32.ofNat_add]
      rfl
    · obtain rfl : n = 2 ^ 31 - 1 := by omega
      rfl
    · rw [if_neg (show ¬ n < 2 ^ 31 by omega), if_neg (show ¬ Int32.minValue ≥ 0 by decide),
        if_neg (show ¬ n + 1 < 2 ^ 31 by omega)]

/-! ## Scaling -/

lemma repeat_mul_ten (n : ℕ) (x : ℤ) :
    Nat.repeat (· * 10) n (Int64.ofInt x) = Int64.ofInt (x * 10 ^ n) :=
  repeat_mul_word Int64.ofInt_mul 10 n x

lemma tdiv_tdiv_ten (x : ℤ) (n : ℕ) : (x.tdiv (10 ^ n)).tdiv 10 = x.tdiv (10 ^ (n + 1)) := by
  have hpow : (0 : ℤ) ≤ 10 ^ n := by positivity
  rcases Int.le_total 0 x with h | h
  · rw [Int.tdiv_eq_ediv_of_nonneg h, Int.tdiv_eq_ediv_of_nonneg h,
      Int.tdiv_eq_ediv_of_nonneg (Int.ediv_nonneg h hpow), Int.ediv_ediv_of_nonneg hpow, pow_succ]
  · obtain ⟨y, rfl⟩ : ∃ y, x = -y := ⟨-x, (neg_neg x).symm⟩
    have hy : 0 ≤ y := by omega
    rw [Int.neg_tdiv, Int.neg_tdiv, Int.neg_tdiv, Int.tdiv_eq_ediv_of_nonneg hy,
      Int.tdiv_eq_ediv_of_nonneg hy, Int.tdiv_eq_ediv_of_nonneg (Int.ediv_nonneg hy hpow),
      Int.ediv_ediv_of_nonneg hpow, pow_succ]

lemma toInt_repeat_div_ten (n : ℕ) (r : Int64) :
    (Nat.repeat (· / 10) n r).toInt = r.toInt.tdiv (10 ^ n) := by
  induction n with
  | zero => rw [pow_zero, Int.tdiv_one]; rfl
  | succ n ih =>
    rw [Nat.repeat, ← tdiv_tdiv_ten, ← ih]
    exact Int64.toInt_div_of_ne_right _ _ (by decide)

/-- Without a point, or when the counter has wrapped, eight zeros are put behind the digits. -/
lemma scaleToEight_of_neg {places : Int32} (h : places < 0) (x : ℤ) :
    scaleToEight (Int64.ofInt x) places = Int64.ofInt (x * 10 ^ 8) := by
  unfold scaleToEight
  rw [if_pos h]
  exact repeat_mul_ten 8 x

lemma toInt_shift {k : ℕ} (h : k < 2 ^ 31) :
    (8 - (if placesCounted k < 0 then 0 else placesCounted k)).toInt = 8 - (k : ℤ) := by
  have hcount : placesCounted k = Int32.ofNat k := if_pos h
  have hint := Int32.toInt_ofNat_of_lt h
  have hpos : ¬ Int32.ofNat k < 0 := by
    rw [Int32.lt_iff_toInt_lt, hint, Int32.toInt_zero]
    omega
  rw [hcount, if_neg hpos, Int32.toInt_sub, hint]
  apply Int.bmod_eq_of_le
  · show -(2 ^ 32 / 2 : ℤ) ≤ 8 - (k : ℤ)
    omega
  · show 8 - (k : ℤ) < (2 ^ 32 + 1) / 2
    omega

/-- Up to eight places the digits are multiplied. -/
lemma scaleToEight_of_le {k : ℕ} (h : k ≤ 8) (x : ℤ) :
    scaleToEight (Int64.ofInt x) (placesCounted k) = Int64.ofInt (x * 10 ^ (8 - k)) := by
  have hshift := toInt_shift (show k < 2 ^ 31 by omega)
  unfold scaleToEight
  dsimp only
  generalize 8 - (if placesCounted k < 0 then 0 else placesCounted k) = shift at hshift ⊢
  by_cases hpos : shift > 0
  · rw [if_pos hpos, hshift, show (8 - (k : ℤ)).toNat = 8 - k by omega, repeat_mul_ten]
  · rw [gt_iff_lt, Int32.lt_iff_toInt_lt, hshift, Int32.toInt_zero] at hpos
    obtain rfl : k = 8 := by omega
    have hzero : shift = 0 := Int32.toInt_inj.mp hshift
    rw [if_neg (by rw [hzero]; decide), hzero, Nat.sub_self, pow_zero, mul_one]
    rfl

/-- Behind more than eight places the rest is cut off. -/
lemma scaleToEight_of_gt {k : ℕ} (h : 8 < k) (hlt : k < 2 ^ 31) (r : Int64) :
    (scaleToEight r (placesCounted k)).toInt = r.toInt.tdiv (10 ^ (k - 8)) := by
  have hshift := toInt_shift hlt
  unfold scaleToEight
  dsimp only
  generalize 8 - (if placesCounted k < 0 then 0 else placesCounted k) = shift at hshift ⊢
  have hneg : ¬ shift > 0 := by
    rw [gt_iff_lt, Int32.lt_iff_toInt_lt, hshift, Int32.toInt_zero]
    omega
  have hminus : (-shift).toInt = (k - 8 : ℕ) := by
    rw [Int32.toInt_neg, hshift, show -(8 - (k : ℤ)) = (k - 8 : ℕ) by omega]
    apply Int.bmod_eq_of_le <;> omega
  rw [if_neg hneg, toInt_repeat_div_ten, hminus, Int.toNat_natCast]

/-! ## Dividing a wrapped number -/

lemma bmod_bounds (x : ℤ) : -2 ^ 63 ≤ x.bmod (2 ^ 64) ∧ x.bmod (2 ^ 64) < 2 ^ 63 :=
  ⟨Int.le_bmod (by decide), Int.bmod_lt (by decide)⟩

lemma bmod_eq_self {n : ℕ} (h : n < 2 ^ 63) : (n : ℤ).bmod (2 ^ 64) = n :=
  Int.bmod_eq_of_le (by omega) (by omega)

lemma tdiv_natCast (a b : ℕ) : (a : ℤ).tdiv b = (a / b : ℕ) := by
  rw [Int.tdiv_eq_ediv_of_nonneg (by omega), Int.natCast_div]

/-- Nothing is left of 64 bits behind 19 digits. -/
lemma tdiv_pow_eq_zero {j : ℕ} (hj : 19 ≤ j) (x : ℤ) :
    (x.bmod (2 ^ 64)).tdiv (10 ^ j) = 0 := by
  have hpow : (10 : ℤ) ^ 19 ≤ 10 ^ j := pow_le_pow_right₀ (by decide) hj
  obtain ⟨hle, hlt⟩ := bmod_bounds x
  have hbounds := tdiv_bounds (show (0 : ℤ) < 10 ^ j by omega) ⟨hle, hlt.le⟩
  rw [Int.ediv_eq_zero_of_lt (by decide) (by omega)] at hbounds
  omega

/-- A number that has wrapped does not divide like the number it came from, unless more is cut
off than it has digits. -/
lemma lt_of_tdiv_bmod_eq {j digits : ℕ} (hj : j < 18) (hfit : digits / 10 ^ (j + 1) ≤ 2 ^ 63)
    (h : ((digits : ℤ).bmod (2 ^ 64)).tdiv (10 ^ (j + 1))
      = ((digits / 10 ^ (j + 1) : ℕ) : ℤ).bmod (2 ^ 64)) : digits < 2 ^ 63 := by
  by_contra hbig
  obtain ⟨hle, hlt⟩ := bmod_bounds digits
  have hwrap := Int.bmod_add_bdiv' (digits : ℤ) (2 ^ 64)
  set w := (digits : ℤ).bmod (2 ^ 64)
  -- the quotient has a tenth of the magnitude at most
  have hsmall : -(2 ^ 63 / 10) ≤ w.tdiv (10 ^ (j + 1)) ∧ w.tdiv (10 ^ (j + 1)) ≤ 2 ^ 63 / 10 := by
    rw [← tdiv_tdiv_ten]
    apply tdiv_bounds (by decide)
    have hself := Int.ediv_le_self (10 ^ j) (show (0 : ℤ) ≤ 2 ^ 63 by decide)
    have hbounds := tdiv_bounds (show (0 : ℤ) < 10 ^ j by positivity) ⟨hle, hlt.le⟩
    omega
  have hpow : 10 ^ (j + 1) ≤ 10 ^ 18 := Nat.pow_le_pow_right (by decide) (by omega)
  have hpos : 0 < 10 ^ (j + 1) := by positivity
  have hone : 1 ≤ digits / 10 ^ (j + 1) := by
    rw [Nat.le_div_iff_mul_le hpos]
    omega
  have hquot : digits / 10 ^ (j + 1) < 2 ^ 63 := by
    by_contra htop
    have heq : digits / 10 ^ (j + 1) = 2 ^ 63 := by omega
    rw [h, heq] at hsmall
    revert hsmall
    decide
  rw [bmod_eq_self hquot] at h
  have hw : 0 ≤ w := by
    by_contra hneg
    have hnonneg := Int.tdiv_nonneg (show 0 ≤ -w by omega) (show (0 : ℤ) ≤ 10 ^ (j + 1) by positivity)
    rw [Int.neg_tdiv] at hnonneg
    omega
  rw [Int.tdiv_eq_ediv_of_nonneg hw] at h
  have hcut := Nat.div_add_mod digits (10 ^ (j + 1))
  have hrest : digits % 10 ^ (j + 1) < 10 ^ 18 := lt_of_lt_of_le (Nat.mod_lt digits hpos) hpow
  have hcutw := Int.mul_ediv_add_emod w (10 ^ (j + 1))
  have hrestw := Int.emod_nonneg w (show (10 : ℤ) ^ (j + 1) ≠ 0 by positivity)
  rw [h] at hcutw
  push_cast at hcutw
  zify at hcut hrest hbig
  -- both leave the same quotient, so they are less than `10 ^ 18` apart
  have hdiff : (digits : ℤ) - w = digits % 10 ^ (j + 1) - w % 10 ^ (j + 1) := by linarith
  omega

/-- When a number that was reduced to 64 bits is divided like the number itself. -/
lemma tdiv_bmod_eq_iff {j digits : ℕ} (hfit : digits / 10 ^ (j + 1) ≤ 2 ^ 63) :
    ((digits : ℤ).bmod (2 ^ 64)).tdiv (10 ^ (j + 1))
      = ((digits / 10 ^ (j + 1) : ℕ) : ℤ).bmod (2 ^ 64) ↔
    digits < 2 ^ 63 ∨ 19 ≤ j + 1 ∧ digits < 10 ^ (j + 1) := by
  constructor
  · intro h
    rcases Nat.lt_or_ge j 18 with hj | hj
    · exact .inl (lt_of_tdiv_bmod_eq hj hfit h)
    · refine .inr ⟨by omega, ?_⟩
      rw [tdiv_pow_eq_zero (by omega)] at h
      have hpos : 0 < 10 ^ (j + 1) := by positivity
      apply Nat.lt_of_div_eq_zero hpos
      rcases Nat.lt_or_ge (digits / 10 ^ (j + 1)) (2 ^ 63) with hlt | hge
      · rw [bmod_eq_self hlt] at h
        exact Int.natCast_eq_zero.mp h.symm
      · have htop : digits / 10 ^ (j + 1) = 2 ^ 63 := by omega
        rw [htop] at h
        exact absurd h (by decide)
  · rintro (hlt | ⟨hj, hlt⟩)
    · have hle := Nat.div_le_self digits (10 ^ (j + 1))
      rw [bmod_eq_self hlt, bmod_eq_self (by omega), ← tdiv_natCast, Nat.cast_pow]
      rfl
    · rw [tdiv_pow_eq_zero hj, Nat.div_eq_of_lt hlt]
      rfl

/-! ## Whole texts -/

/-- The digits of a text, scaled: what the parser gives the sign to. -/
def scaledDigits (d : DecimalText) : Int64 :=
  scaleToEight (Int64.ofInt d.digitsValue) (placesCounted d.places)

/-- The scan collects the digits' number; a text without a point is scaled like one without
digits behind it. -/
lemma scaleToEight_scan (d : DecimalText) :
    let st := d.unsigned.foldl FixedPointScan.step {}
    scaleToEight st.result st.decimalPlaces = scaledDigits d := by
  have hstart : ({} : FixedPointScan) = ⟨Int64.ofInt 0, -1⟩ := rfl
  unfold scaledDigits DecimalText.unsigned DecimalText.digitsValue DecimalText.places
    DecimalText.fracDigits
  dsimp only
  rw [hstart, List.foldl_append, foldl_step_digits d.int_digits, iterate_countPlace_before,
    zero_mul, zero_add]
  cases hfrac : d.frac with
  | none =>
    rw [Option.getD_none, List.append_nil]
    show scaleToEight (Int64.ofInt _) (-1) = _
    rw [scaleToEight_of_neg (by decide)]
    exact (scaleToEight_of_le (Nat.zero_le 8) _).symm
  | some f =>
    have hpoint : FixedPointScan.step ⟨Int64.ofInt (decimalValue d.int), -1⟩ '.'.toUInt8
        = ⟨Int64.ofInt (decimalValue d.int), 0⟩ := rfl
    rw [Option.elim_some, Option.getD_some, List.foldl_cons, hpoint,
      foldl_step_digits (d.frac_digits f hfrac), iterate_countPlace, decimalValue_append]
    push_cast
    rfl

/-- The parser gives the scaled digits their sign. -/
lemma parseFixedPoint8_bytes (d : DecimalText) :
    parseFixedPoint8 d.bytes = if d.negative then -scaledDigits d else scaledDigits d := by
  unfold parseFixedPoint8
  dsimp only
  rw [d.head?_bytes, d.unsigned_eq, scaleToEight_scan]

/-- The truncated value, as a number with a sign. -/
lemma truncate_value (d : DecimalText) :
    truncate (d.value * 10 ^ 8) =
      (if d.negative then -1 else 1) * ((d.digitsValue * 10 ^ 8 / 10 ^ d.places : ℕ) : ℤ) := by
  have habs : truncate ((d.digitsValue : ℚ) / 10 ^ d.places * 10 ^ 8)
      = (d.digitsValue * 10 ^ 8 / 10 ^ d.places : ℕ) := by
    rw [← truncate_natCast_div]
    congr 1
    push_cast
    ring
  rw [d.value_eq]
  cases d.negative with
  | true =>
    rw [if_pos rfl, if_pos rfl, neg_one_mul, neg_one_mul, neg_mul, truncate_neg, habs]
  | false =>
    rw [if_neg (by decide), if_neg (by decide), one_mul, one_mul, habs]

/-- A number with its sign is parsed exactly when the digits without it are. -/
lemma toInt_signed_eq_iff {negative : Bool} {r : Int64} {n : ℕ}
    (h : -2 ^ 63 ≤ (if negative then -1 else 1) * (n : ℤ) ∧
      (if negative then -1 else 1) * (n : ℤ) < 2 ^ 63) :
    (if negative then -r else r).toInt = (if negative then -1 else 1) * (n : ℤ) ↔
      r = Int64.ofInt n := by
  cases negative with
  | true =>
    rw [if_pos rfl, neg_one_mul] at h
    rw [if_pos rfl, if_pos rfl, neg_one_mul, ← Int64.toInt_ofInt_of_le h.1 h.2, Int64.toInt_inj,
      Int64.ofInt_neg, Int64.neg_inj]
  | false =>
    rw [if_neg (by decide), one_mul] at h
    rw [if_neg (by decide), if_neg (by decide), one_mul]
    constructor
    · intro hr
      rw [← hr, Int64.ofInt_toInt]
    · rintro rfl
      exact Int64.toInt_ofInt_of_le h.1 h.2

/-- The texts whose digits survive the 64-bit number they are collected in: at most eight places;
or digits that fit, or of which the scaling leaves nothing. Behind `2 ^ 31` places the counter
has wrapped, the digits are multiplied after all, and only a coincidence is right. -/
def ScansExactly (d : DecimalText) : Prop :=
  d.places ≤ 8 ∨
  (d.places < 2 ^ 31 ∧
    (d.digitsValue < 2 ^ 63 ∨ 27 ≤ d.places ∧ d.digitsValue < 10 ^ (d.places - 8))) ∨
  (2 ^ 31 ≤ d.places ∧
    d.digitsValue * 10 ^ 8 ≡ d.digitsValue / 10 ^ (d.places - 8) [MOD 2 ^ 64])

lemma ofInt_eq_ofInt_iff {a b : ℕ} : Int64.ofInt a = Int64.ofInt b ↔ a ≡ b [MOD 2 ^ 64] := by
  have hsize : Int64.size = 2 ^ 64 := rfl
  rw [Int64.ofInt_eq_iff_bmod_eq_toInt, Int64.toInt_ofInt, hsize,
    Int.bmod_eq_bmod_iff_bmod_sub_eq_zero, ← Int.dvd_iff_bmod_eq_zero, dvd_sub_comm,
    Nat.modEq_iff_dvd]

/-- Above eight places the scaling divides. -/
lemma scaled_div {n k : ℕ} (h : 8 < k) : n * 10 ^ 8 / 10 ^ k = n / 10 ^ (k - 8) := by
  obtain ⟨j, rfl⟩ : ∃ j, k = j + 8 := ⟨k - 8, by omega⟩
  rw [pow_add, Nat.mul_div_mul_right _ _ (by decide), Nat.add_sub_cancel]

lemma scaledDigits_eq_iff {d : DecimalText} (h : d.digitsValue * 10 ^ 8 / 10 ^ d.places ≤ 2 ^ 63) :
    scaledDigits d = Int64.ofInt (d.digitsValue * 10 ^ 8 / 10 ^ d.places : ℕ) ↔ ScansExactly d := by
  unfold scaledDigits ScansExactly
  generalize d.digitsValue = n at h ⊢
  generalize d.places = k at h ⊢
  -- more places than eight divide, fewer multiply
  rcases Nat.lt_or_ge 8 k with hk | hk
  · rw [scaled_div hk] at h ⊢
    obtain ⟨j, rfl⟩ : ∃ j, k = j + 9 := ⟨k - 9, by omega⟩
    have hj : j + 9 - 8 = j + 1 := rfl
    rw [hj] at h ⊢
    rcases Nat.lt_or_ge (j + 9) (2 ^ 31) with hlt | hge
    · rw [← Int64.toInt_inj, scaleToEight_of_gt hk hlt, hj, Int64.toInt_ofInt, Int64.toInt_ofInt]
      refine (tdiv_bmod_eq_iff h).trans ?_
      omega
    · have hcount : placesCounted (j + 9) < 0 := by
        unfold placesCounted
        rw [if_neg (by omega)]
        decide
      rw [scaleToEight_of_neg hcount]
      have hcast : (n : ℤ) * 10 ^ 8 = (n * 10 ^ 8 : ℕ) := by push_cast; rfl
      rw [hcast, ofInt_eq_ofInt_iff]
      constructor
      · exact fun hmod => .inr (.inr ⟨hge, hmod⟩)
      · rintro (hle | ⟨hlt, -⟩ | ⟨-, hmod⟩)
        · omega
        · omega
        · exact hmod
  · have hpow : 10 ^ 8 = 10 ^ (8 - k) * 10 ^ k := by rw [← pow_add, Nat.sub_add_cancel hk]
    have hdiv : n * 10 ^ 8 / 10 ^ k = n * 10 ^ (8 - k) := by
      rw [hpow, ← Nat.mul_assoc, Nat.mul_div_cancel _ (by positivity)]
    rw [hdiv, scaleToEight_of_le hk]
    push_cast
    exact iff_of_true rfl (.inl hk)

/-- The parser is exact on a decimal text whose scaled value fits in 64 bits exactly when its
digits survive the scan. -/
theorem parse_exact_iff (d : DecimalText)
    (h : -2 ^ 63 ≤ truncate (d.value * 10 ^ 8) ∧ truncate (d.value * 10 ^ 8) < 2 ^ 63) :
    (parseFixedPoint8 d.bytes).toInt = truncate (d.value * 10 ^ 8) ↔ ScansExactly d := by
  rw [truncate_value] at h ⊢
  have hfit : d.digitsValue * 10 ^ 8 / 10 ^ d.places ≤ 2 ^ 63 := by
    revert h
    cases d.negative <;> simp only [if_true, if_false, Bool.false_eq_true] <;> omega
  rw [parseFixedPoint8_bytes, toInt_signed_eq_iff h, scaledDigits_eq_iff hfit]

/-- Ten, with the eighteen places of a wei amount. -/
def tenEther : DecimalText where
  negative := false
  int := Bytes.ofString "10"
  frac := some (Bytes.ofString "000000000000000000")
  int_ne_nil := by decide
  int_digits := List.all_eq_true.mp (by decide)
  frac_digits := by
    rintro f ⟨⟩
    exact List.all_eq_true.mp (by decide)

lemma truncate_tenEther : truncate (tenEther.value * 10 ^ 8) = 1000000000 := by
  rw [truncate_value]
  decide +kernel

theorem parse_exact_iff_tenEther :
    (parseFixedPoint8 tenEther.bytes).toInt = truncate (tenEther.value * 10 ^ 8) ↔
      ScansExactly tenEther :=
  parse_exact_iff tenEther (by rw [truncate_tenEther]; decide)

/-- `10.000000000000000000` is parsed as `-8.44674407`. -/
theorem tenEther_wraps : ¬ ∀ d : DecimalText,
    -2 ^ 63 ≤ truncate (d.value * 10 ^ 8) ∧ truncate (d.value * 10 ^ 8) < 2 ^ 63 →
    (parseFixedPoint8 d.bytes).toInt = truncate (d.value * 10 ^ 8) := by
  intro h
  have hrun := h tenEther
  rw [truncate_tenEther] at hrun
  have hparsed : parseFixedPoint8 tenEther.bytes = -844674407 := by decide +kernel
  rw [hparsed] at hrun
  revert hrun
  decide

lemma toInt_ofInt_natCast {n : ℕ} (h : n < 2 ^ 63) : (Int64.ofInt n).toInt = n :=
  Int64.toInt_ofInt_of_le (by omega) (by omega)

end ChainMarketPrice.CoreEngine
