import Mathlib.Data.List.Infix
import ChainMarketPrice.Lib.Checked
import ChainMarketPrice.CoreEngine.FixedPointTheorems

/-!
# When fixed-point parsing overflows

The checks pass exactly when the scaled digits fit an `i64` and no count of digits behind a point
reaches `2 ^ 31`, whatever the bytes are (`yields_parseFixedPoint8`).
-/

namespace ChainMarketPrice.CoreEngine

open Text FixedWidth Checked

/-- The digits read so far as one number, and how many of them stand behind the last point. -/
structure ExactScan where
  value : ℕ := 0
  places : Option ℕ := none
deriving Repr, DecidableEq

namespace ExactScan

def step (st : ExactScan) (b : UInt8) : ExactScan :=
  if b = '.'.toUInt8 then { st with places := some 0 }
  else if isDigit b then
    { value := st.value * 10 + (b - '0'.toUInt8).toNat, places := st.places.map (· + 1) }
  else st

/-- The scan of the whole. -/
def scan (bytes : List UInt8) : ExactScan := bytes.foldl step {}

/-- Digits behind the last point. -/
def behind (st : ExactScan) : ℕ := st.places.getD 0

/-- Both numbers fit their words. -/
def Fits (st : ExactScan) : Prop := st.value < 2 ^ 63 ∧ st.behind < 2 ^ 31

/-- The words that the program keeps for them. -/
def words (st : ExactScan) : FixedPointScan where
  result := Int64.ofInt st.value
  decimalPlaces := st.places.elim (-1) Int32.ofNat

end ExactScan

/-- The scaled digits fit an `i64`, and the counter of places an `i32` all along. -/
def FixedPointFits (val : List UInt8) : Prop :=
  let body := if val.head? == some '-'.toUInt8 then val.tail else val
  (∀ pre, pre <+: body → (ExactScan.scan pre).behind < 2 ^ 31) ∧
    (ExactScan.scan body).value * 10 ^ (8 - (ExactScan.scan body).behind) < 2 ^ 63

/-! ## The scan -/

open ExactScan

variable {st : ExactScan}

lemma yields_checked32 (x : ℤ) :
    Yields (checked32 x) (-2 ^ 31 ≤ x ∧ x < 2 ^ 31) (Int32.ofInt x) :=
  ⟨fun h => if_pos h, fun h => if_neg h⟩

lemma toInt_words_result (h : st.Fits) : st.words.result.toInt = st.value :=
  toInt_ofInt_natCast h.1

/-- One more place, if the point was seen. -/
lemma yields_countPlace (h : st.Fits) :
    Yields (checkedCountPlace st.words.decimalPlaces)
      ((st.places.map (· + 1)).getD 0 < 2 ^ 31)
      ((st.places.map (· + 1)).elim (-1) Int32.ofNat) := by
  have hplaces := h.2
  unfold behind at hplaces
  unfold checkedCountPlace
  -- the code counts from -1, the model from the point
  cases hst : st.places with
  | none =>
    have hword : st.words.decimalPlaces = -1 := by
      rw [words, hst]
      rfl
    rw [hword]
    exact (Yields.of_eq rfl).congr ⟨fun _ => by decide, fun _ => trivial⟩
  | some n =>
    have hword : st.words.decimalPlaces = Int32.ofNat n := by
      rw [words, hst]
      rfl
    rw [hst, Option.getD_some] at hplaces
    have hint := Int32.toInt_ofNat_of_lt hplaces
    have hpos : Int32.ofNat n ≥ 0 := by
      rw [ge_iff_le, Int32.le_iff_toInt_le, hint, Int32.toInt_zero]
      omega
    rw [hword, if_pos hpos, hint, Option.map_some, Option.getD_some, Option.elim_some]
    refine ((yields_checked32 _).congr ?_).congr_value ?_
    · omega
    · intro _
      rfl

lemma yields_checkedStep (h : st.Fits) (b : UInt8) :
    Yields (FixedPointScan.checkedStep st.words b) (st.step b).Fits (st.step b).words := by
  unfold FixedPointScan.checkedStep ExactScan.step
  by_cases hpoint : b = '.'.toUInt8
  · rw [if_pos hpoint, if_pos hpoint]
    refine (Yields.of_eq rfl).congr ⟨fun _ => ⟨h.1, ?_⟩, fun _ => trivial⟩
    exact Nat.two_pow_pos 31
  · rw [if_neg hpoint, if_neg hpoint]
    -- the two comparisons of bytes are the test for a digit
    have hrange : ('0'.toUInt8 ≤ b ∧ b ≤ '9'.toUInt8) ↔ isDigit b = true := by simp [isDigit]
    by_cases hdigit : isDigit b = true
    · rw [if_pos (hrange.mpr hdigit), if_pos hdigit, toInt_words_result h]
      -- the operations in the order of the code: times ten, plus the digit, and the count of places
      have htens : Yields (checked64 ((st.value : ℤ) * 10)) (st.value * 10 < 2 ^ 63)
          (Int64.ofInt (st.value * 10 : ℕ)) := by
        refine ((yields_checked64 _).congr ?_).congr_value ?_
        · omega
        · intro _
          push_cast
          rfl
      have hsum : st.value * 10 < 2 ^ 63 →
          Yields (checked64 ((Int64.ofInt (st.value * 10 : ℕ)).toInt + (b - '0'.toUInt8).toNat))
            (st.value * 10 + (b - '0'.toUInt8).toNat < 2 ^ 63)
            (Int64.ofInt (st.value * 10 + (b - '0'.toUInt8).toNat : ℕ)) := by
        intro hfits
        rw [toInt_ofInt_natCast hfits]
        refine ((yields_checked64 _).congr ?_).congr_value ?_
        · omega
        · intro _
          push_cast
          rfl
      refine (htens.bind fun hfits => (hsum hfits).bind fun _ =>
        (yields_countPlace h).map _).congr ?_
      unfold ExactScan.Fits behind
      dsimp only
      omega
    · rw [if_neg (mt hrange.mp hdigit), if_neg hdigit]
      exact (Yields.of_eq rfl).congr ⟨fun _ => h, fun _ => trivial⟩

/-- The whole scan: the checks pass as long as every state fits. -/
lemma yields_foldlM_checkedStep (h : st.Fits) (bytes : List UInt8) :
    Yields (bytes.foldlM FixedPointScan.checkedStep st.words)
      (∀ pre, pre <+: bytes → (pre.foldl ExactScan.step st).Fits)
      (bytes.foldl ExactScan.step st).words := by
  induction bytes generalizing st with
  | nil =>
    refine (Yields.of_eq rfl).congr ⟨fun _ pre hpre => ?_, fun _ => trivial⟩
    rw [List.prefix_nil.mp hpre]
    exact h
  | cons b bytes ih =>
    rw [List.foldlM_cons, List.foldl_cons]
    refine ((yields_checkedStep h b).bind fun hstep => ih hstep).congr ?_
    constructor
    · rintro ⟨-, hrest⟩ pre hpre
      cases pre with
      | nil => exact h
      | cons c pre =>
        obtain ⟨rfl, htail⟩ := List.cons_prefix_cons.mp hpre
        exact hrest pre htail
    · intro hall
      refine ⟨hall [b] (List.cons_prefix_cons.mpr ⟨rfl, List.nil_prefix⟩), ?_⟩
      intro pre hpre
      exact hall (b :: pre) (List.cons_prefix_cons.mpr ⟨rfl, hpre⟩)

lemma countPlace_words (h : (st.places.map (· + 1)).getD 0 < 2 ^ 31) :
    countPlace st.words.decimalPlaces = (st.places.map (· + 1)).elim (-1) Int32.ofNat := by
  unfold words
  cases hst : st.places with
  | none => rfl
  | some n =>
    rw [hst, Option.map_some, Option.getD_some] at h
    have hpos : Int32.ofNat n ≥ 0 := by
      rw [ge_iff_le, Int32.le_iff_toInt_le, Int32.toInt_ofNat_of_lt (by omega), Int32.toInt_zero]
      omega
    show countPlace (Int32.ofNat n) = Int32.ofNat (n + 1)
    rw [countPlace, if_pos hpos, Int32.ofNat_add]
    rfl

/-- The program without checks keeps the same words while they fit. -/
lemma step_words {b : UInt8} (h : (st.step b).Fits) :
    FixedPointScan.step st.words b = (st.step b).words := by
  unfold ExactScan.step at h ⊢
  by_cases hpoint : b = '.'.toUInt8
  · rw [FixedPointScan.step, if_pos hpoint, if_pos hpoint]
    rfl
  · rw [if_neg hpoint] at h ⊢
    by_cases hdigit : isDigit b = true
    · rw [if_pos hdigit] at h ⊢
      have hstep := step_digit hdigit (st.value : ℤ) st.words.decimalPlaces
      rw [countPlace_words h.2] at hstep
      refine hstep.trans ?_
      unfold words
      push_cast
      rfl
    · have hrange : ¬ ('0'.toUInt8 ≤ b ∧ b ≤ '9'.toUInt8) := by simpa [isDigit] using hdigit
      rw [FixedPointScan.step, if_neg hpoint, if_neg hrange, if_neg hdigit]

lemma foldl_step_words {bytes : List UInt8}
    (h : ∀ pre, pre <+: bytes → (pre.foldl ExactScan.step st).Fits) :
    bytes.foldl FixedPointScan.step st.words = (bytes.foldl ExactScan.step st).words := by
  induction bytes generalizing st with
  | nil => rfl
  | cons b bytes ih =>
    rw [List.foldl_cons, List.foldl_cons,
      step_words (h [b] (List.cons_prefix_cons.mpr ⟨rfl, List.nil_prefix⟩))]
    apply ih
    intro pre hpre
    exact h (b :: pre) (List.cons_prefix_cons.mpr ⟨rfl, hpre⟩)

/-- The digits' number only grows. -/
lemma value_le_foldl (st : ExactScan) (bytes : List UInt8) :
    st.value ≤ (bytes.foldl ExactScan.step st).value := by
  induction bytes generalizing st with
  | nil => exact le_refl _
  | cons b bytes ih =>
    have hstep : st.value ≤ (st.step b).value := by
      unfold ExactScan.step
      split
      · exact le_refl _
      · split
        · exact Nat.le_add_right_of_le (Nat.le_mul_of_pos_right _ (by decide))
        · exact le_refl _
    exact hstep.trans (ih _)

/-! ## The scaling -/

lemma yields_repeat_mul_ten {x : ℕ} (hx : x < 2 ^ 63) (n : ℕ) :
    Yields (Nat.repeat (fun r : Option Int64 => r.bind fun result => checked64 (result.toInt * 10))
        n (some (Int64.ofInt x)))
      (x * 10 ^ n < 2 ^ 63) (Int64.ofInt (x * 10 ^ n : ℕ)) := by
  induction n with
  | zero =>
    rw [pow_zero, mul_one]
    exact (Yields.of_eq rfl).congr ⟨fun _ => hx, fun _ => trivial⟩
  | succ n ih =>
    have hstep : x * 10 ^ n < 2 ^ 63 →
        Yields (checked64 ((Int64.ofInt (x * 10 ^ n : ℕ)).toInt * 10)) (x * 10 ^ (n + 1) < 2 ^ 63)
          (Int64.ofInt (x * 10 ^ (n + 1) : ℕ)) := by
      intro hfits
      rw [toInt_ofInt_natCast hfits, pow_succ, ← mul_assoc]
      refine ((yields_checked64 _).congr ?_).congr_value ?_
      · omega
      · intro _
        push_cast
        rfl
    refine (ih.bind hstep).congr ?_
    rw [pow_succ 10 n, ← mul_assoc]
    omega

/-- The shift, with checks and without. -/
lemma shift_words (h : st.Fits) :
    ∃ shift : Int32, shift.toInt = 8 - (st.behind : ℤ) ∧
      checked32 (8 - (if st.words.decimalPlaces < 0 then 0 else st.words.decimalPlaces.toInt))
        = some shift ∧
      8 - (if st.words.decimalPlaces < 0 then 0 else st.words.decimalPlaces) = shift := by
  have hbehind := h.2
  -- no point and the point at the end both mean that no place counts
  have hplaces : (if st.words.decimalPlaces < 0 then 0 else st.words.decimalPlaces.toInt)
        = (st.behind : ℤ) ∧
      (if st.words.decimalPlaces < 0 then 0 else st.words.decimalPlaces)
        = Int32.ofInt st.behind := by
    unfold words behind at *
    cases hst : st.places with
    | none => exact ⟨rfl, rfl⟩
    | some n =>
      rw [hst, Option.getD_some] at hbehind
      have hint := Int32.toInt_ofNat_of_lt hbehind
      have hpos : ¬ Int32.ofNat n < 0 := by
        rw [Int32.lt_iff_toInt_lt, hint, Int32.toInt_zero]
        omega
      show (if Int32.ofNat n < 0 then 0 else (Int32.ofNat n).toInt) = (n : ℤ) ∧
        (if Int32.ofNat n < 0 then 0 else Int32.ofNat n) = Int32.ofInt n
      rw [if_neg hpos, if_neg hpos]
      exact ⟨hint, rfl⟩
  refine ⟨Int32.ofInt (8 - st.behind), ?_, ?_, ?_⟩
  · exact Int32.toInt_ofInt_of_le (by omega) (by omega)
  · rw [hplaces.1, checked32, if_pos (by omega)]
  · rw [hplaces.2, Int32.ofInt_sub]
    rfl

lemma yields_scaleToEight (h : st.Fits) :
    Yields (checkedScaleToEight st.words.result st.words.decimalPlaces)
      (st.value * 10 ^ (8 - st.behind) < 2 ^ 63)
      (scaleToEight st.words.result st.words.decimalPlaces) := by
  obtain ⟨shift, hint, hchecked, hshift⟩ := shift_words h
  have hvalue := h.1
  unfold checkedScaleToEight scaleToEight
  dsimp only
  rw [hshift]
  refine Yields.bind_of_eq hchecked ?_
  by_cases hpos : shift > 0
  · rw [if_pos hpos, if_pos hpos, hint, show (8 - (st.behind : ℤ)).toNat = 8 - st.behind by omega]
    refine (yields_repeat_mul_ten hvalue _).congr_value fun _ => ?_
    rw [words, repeat_mul_ten]
    push_cast
    rfl
  · rw [if_neg hpos, if_neg hpos]
    rw [gt_iff_lt, Int32.lt_iff_toInt_lt, hint, Int32.toInt_zero] at hpos
    have hzero : 8 - st.behind = 0 := by omega
    rw [hzero, pow_zero, mul_one]
    exact (Yields.of_eq rfl).congr ⟨fun _ => hvalue, fun _ => trivial⟩

/-- A scaled number that fits is not negative. -/
lemma toInt_scaleToEight_nonneg (h : st.Fits)
    (hscaled : st.value * 10 ^ (8 - st.behind) < 2 ^ 63) :
    0 ≤ (scaleToEight st.words.result st.words.decimalPlaces).toInt := by
  obtain ⟨shift, hint, -, hshift⟩ := shift_words h
  unfold scaleToEight
  dsimp only
  rw [hshift]
  split
  · rw [hint, show (8 - (st.behind : ℤ)).toNat = 8 - st.behind by omega, words, repeat_mul_ten]
    have hcast : (st.value : ℤ) * 10 ^ (8 - st.behind) = (st.value * 10 ^ (8 - st.behind) : ℕ) := by
      push_cast
      rfl
    rw [hcast, toInt_ofInt_natCast hscaled]
    exact Int.natCast_nonneg _
  · rw [toInt_repeat_div_ten, toInt_words_result h]
    exact Int.tdiv_nonneg (Int.natCast_nonneg _) (by positivity)

/-! ## The whole text -/

lemma fits_scan_iff (body : List UInt8) :
    ((∀ pre, pre <+: body → (scan pre).Fits) ∧
        (scan body).value * 10 ^ (8 - (scan body).behind) < 2 ^ 63) ↔
      (∀ pre, pre <+: body → (scan pre).behind < 2 ^ 31) ∧
        (scan body).value * 10 ^ (8 - (scan body).behind) < 2 ^ 63 := by
  constructor
  · rintro ⟨hfits, hscaled⟩
    exact ⟨fun pre hpre => (hfits pre hpre).2, hscaled⟩
  · rintro ⟨hbehind, hscaled⟩
    refine ⟨fun pre hpre => ⟨?_, hbehind pre hpre⟩, hscaled⟩
    obtain ⟨rest, rfl⟩ := hpre
    have hle : (scan pre).value ≤ (scan (pre ++ rest)).value := by
      unfold scan
      rw [List.foldl_append]
      exact value_le_foldl _ rest
    have hpow : 1 ≤ 10 ^ (8 - (scan (pre ++ rest)).behind) := Nat.one_le_pow _ _ (by decide)
    have hroom := Nat.le_mul_of_pos_right (scan (pre ++ rest)).value hpow
    omega

/-- The checks pass exactly when the text fits, and then they change nothing. -/
theorem yields_parseFixedPoint8 (val : List UInt8) :
    Yields (checkedParseFixedPoint8 val) (FixedPointFits val) (parseFixedPoint8 val) := by
  have hstart : ({} : ExactScan).Fits := ⟨by decide, by decide⟩
  unfold checkedParseFixedPoint8 parseFixedPoint8 FixedPointFits
  dsimp only
  generalize (if val.head? == some '-'.toUInt8 then val.tail else val) = body
  rw [← fits_scan_iff]
  refine (yields_foldlM_checkedStep hstart body).bind fun hscan => ?_
  have hfits : (scan body).Fits := hscan body List.prefix_rfl
  have hwords : body.foldl FixedPointScan.step {} = (scan body).words := foldl_step_words hscan
  rw [hwords]
  refine ((yields_scaleToEight hfits).bind fun hscaled => ?_).congr (iff_of_eq (and_true _))
  have hnonneg := toInt_scaleToEight_nonneg hfits hscaled
  have hlt := Int64.toInt_lt (scaleToEight (scan body).words.result (scan body).words.decimalPlaces)
  refine Yields.of_eq ?_
  split
  · rw [checked64, if_pos (by omega), Int64.ofInt_neg, Int64.ofInt_toInt]
  · rfl

/-! ## Decimal texts -/

lemma foldl_exactStep_digits {digits : List UInt8} (h : AllDigits digits) (st : ExactScan) :
    digits.foldl ExactScan.step st
      = ⟨st.value * 10 ^ digits.length + decimalValue digits,
          st.places.map (· + digits.length)⟩ := by
  induction digits generalizing st with
  | nil => simp [decimalValue]
  | cons b digits ih =>
    have hb : isDigit b = true := h b List.mem_cons_self
    have hpoint : b ≠ '.'.toUInt8 := by
      rintro rfl
      exact absurd hb (by decide)
    have hrest : AllDigits digits := fun c hc => h c (List.mem_cons_of_mem _ hc)
    have hvalue : st.value * 10 ^ (b :: digits).length + decimalValue (b :: digits)
        = (st.value * 10 + (b - '0'.toUInt8).toNat) * 10 ^ digits.length + decimalValue digits := by
      rw [← foldl_decimal, ← foldl_decimal, List.foldl_cons]
    rw [List.foldl_cons, ExactScan.step, if_neg hpoint, if_pos hb, ih hrest, hvalue]
    cases st.places with
    | none => rfl
    | some n => simp [Nat.add_assoc, Nat.add_comm 1]

lemma scan_point {int frac : List UInt8} (hint : AllDigits int) (hfrac : AllDigits frac) :
    scan (int ++ '.'.toUInt8 :: frac) = ⟨decimalValue (int ++ frac), some frac.length⟩ := by
  unfold scan
  rw [List.foldl_append, List.foldl_cons, foldl_exactStep_digits hint, ExactScan.step, if_pos rfl,
    foldl_exactStep_digits hfrac, decimalValue_append]
  simp

lemma scan_digits {int : List UInt8} (hint : AllDigits int) :
    scan int = ⟨decimalValue int, none⟩ := by
  unfold scan
  rw [foldl_exactStep_digits hint]
  simp

lemma scan_unsigned (d : DecimalText) :
    (scan d.unsigned).value = d.digitsValue ∧ (scan d.unsigned).behind = d.places := by
  unfold DecimalText.unsigned DecimalText.digitsValue DecimalText.places DecimalText.fracDigits
  cases hfrac : d.frac with
  | none =>
    rw [Option.elim_none, Option.getD_none, List.append_nil, scan_digits d.int_digits]
    exact ⟨rfl, rfl⟩
  | some f =>
    rw [Option.elim_some, Option.getD_some, scan_point d.int_digits (d.frac_digits f hfrac)]
    exact ⟨rfl, rfl⟩

/-- With one point only, the count of the places grows to the end. -/
lemma behind_prefix_le {d : DecimalText} {pre : List UInt8} (h : pre <+: d.unsigned) :
    (scan pre).behind ≤ d.places := by
  obtain ⟨rest, hsplit⟩ := h
  unfold DecimalText.unsigned at hsplit
  unfold DecimalText.places DecimalText.fracDigits
  rcases List.append_eq_append_iff.mp hsplit with ⟨int', hint, -⟩ | ⟨behind, rfl, htail⟩
  · -- the text ends before the point
    have hdigits : AllDigits pre := fun b hb =>
      d.int_digits b (by rw [hint]; exact List.mem_append_left _ hb)
    rw [scan_digits hdigits]
    exact Nat.zero_le _
  · cases hfrac : d.frac with
    | none =>
      rw [hfrac, Option.elim_none] at htail
      obtain ⟨rfl, -⟩ := List.append_eq_nil_iff.mp htail.symm
      rw [List.append_nil, scan_digits d.int_digits]
      exact Nat.zero_le _
    | some f =>
      rw [hfrac, Option.elim_some] at htail
      cases behind with
      | nil =>
        rw [List.append_nil, scan_digits d.int_digits]
        exact Nat.zero_le _
      | cons b frac' =>
        rw [List.cons_append] at htail
        obtain ⟨rfl, hsplit'⟩ := List.cons.inj htail
        have hdigits : AllDigits frac' := fun c hc =>
          d.frac_digits f hfrac c (by rw [hsplit']; exact List.mem_append_left _ hc)
        rw [scan_point d.int_digits hdigits, Option.getD_some, hsplit', List.length_append]
        exact Nat.le_add_right _ _

/-- With at most eight places nothing overflows before the scaled digits do. -/
theorem checkedParseFixedPoint8_bytes {d : DecimalText} (hk : d.places ≤ 8)
    (h : d.digitsValue * 10 ^ (8 - d.places) < 2 ^ 63) :
    checkedParseFixedPoint8 d.bytes = some (parseFixedPoint8 d.bytes) := by
  obtain ⟨hvalue, hbehind⟩ := scan_unsigned d
  refine (yields_parseFixedPoint8 d.bytes).returns ?_
  unfold FixedPointFits
  dsimp only
  rw [d.head?_bytes, d.unsigned_eq, hvalue, hbehind]
  refine ⟨fun pre hpre => ?_, h⟩
  have hle := behind_prefix_le hpre
  omega

end ChainMarketPrice.CoreEngine
