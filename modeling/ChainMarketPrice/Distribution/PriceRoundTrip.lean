import ChainMarketPrice.CoreEngine.FixedPointOverflow
import ChainMarketPrice.Distribution.FastJsonText

/-!
# Parsing what the JSON writer prints

`write_fixed_point_8` prints a sign, the integer part and eight digits, so the digits of the
text are those of the magnitude and `parse_fixed_point_8` has nothing to scale.
-/

namespace ChainMarketPrice.Distribution
namespace FastJson

open FastJsonWriter Text CoreEngine

lemma toNat_fraction (val : Int64) :
    (unsignedAbs val % 100000000).toNat = val.toInt.natAbs % 10 ^ 8 := by
  rw [UInt64.toNat_mod, toNat_unsignedAbs]
  rfl

/-- The text of a number, by its parts. -/
def fixedDecimal (val : Int64) : DecimalText where
  negative := val < 0
  int := u64Text (unsignedAbs val / 100000000)
  frac := some (fracDigits (unsignedAbs val % 100000000).toNat)
  int_ne_nil := (u64Text_spec _).2.1
  int_digits := (u64Text_spec _).1
  frac_digits := by
    rintro f ⟨⟩
    exact (fracDigits_spec (toNat_fraction_lt _)).1

lemma bytes_fixedDecimal (val : Int64) : (fixedDecimal val).bytes = fixedText val := by
  have hpoint : '.'.toUInt8 = 46 := rfl
  have hminus : '-'.toUInt8 = 45 := rfl
  unfold DecimalText.bytes DecimalText.unsigned fixedDecimal fixedText
  by_cases h : val < 0
  · simp [h, hpoint, hminus]
  · simp [h, hpoint]

lemma places_fixedDecimal (val : Int64) : (fixedDecimal val).places = 8 :=
  length_fracDigits _

/-- The digits of the text are the magnitude. -/
lemma digitsValue_fixedDecimal (val : Int64) :
    (fixedDecimal val).digitsValue = val.toInt.natAbs := by
  have hfrac := toNat_fraction_lt (unsignedAbs val)
  have hint : (unsignedAbs val / 100000000).toNat = val.toInt.natAbs / 10 ^ 8 := by
    rw [UInt64.toNat_div, toNat_unsignedAbs]
    rfl
  show decimalValue (u64Text (unsignedAbs val / 100000000)
    ++ fracDigits (unsignedAbs val % 100000000).toNat) = _
  rw [decimalValue_append, length_fracDigits, (u64Text_spec _).2.2, (fracDigits_spec hfrac).2,
    toNat_fraction, hint]
  exact Nat.div_add_mod' _ _

/-- The text of a number is parsed to the number. -/
lemma parseFixedPoint8_fixedText (val : Int64) : parseFixedPoint8 (fixedText val) = val := by
  rw [← bytes_fixedDecimal, parseFixedPoint8_bytes, scaledDigits, places_fixedDecimal,
    digitsValue_fixedDecimal, scaleToEight_of_le (le_refl 8), Nat.sub_self, pow_zero, mul_one]
  show (if decide (val < 0) = true then _ else _) = _
  have hsign : val < 0 ↔ val.toInt < 0 := by rw [Int64.lt_iff_toInt_lt, Int64.toInt_zero]
  by_cases hneg : val < 0
  · have habs : (val.toInt.natAbs : ℤ) = -val.toInt := by
      have := hsign.mp hneg
      omega
    rw [if_pos (decide_eq_true hneg), habs, Int64.ofInt_neg, Int64.ofInt_toInt, Int64.neg_neg]
  · have habs : (val.toInt.natAbs : ℤ) = val.toInt := by
      have := mt hsign.mpr hneg
      omega
    rw [if_neg (by simpa using hneg), habs, Int64.ofInt_toInt]

/-- Except for the smallest number, with no overflow on the way. -/
lemma checkedParseFixedPoint8_fixedText {val : Int64} (h : Int64.minValue < val) :
    checkedParseFixedPoint8 (fixedText val) = some val := by
  have hplaces := places_fixedDecimal val
  have hfit : (fixedDecimal val).digitsValue * 10 ^ (8 - (fixedDecimal val).places) < 2 ^ 63 := by
    have hmin : Int64.minValue.toInt = -2 ^ 63 := rfl
    have hlt := val.toInt_lt
    rw [Int64.lt_iff_toInt_lt, hmin] at h
    rw [hplaces, digitsValue_fixedDecimal, Nat.sub_self, pow_zero, mul_one]
    omega
  have hchecked := checkedParseFixedPoint8_bytes (by rw [hplaces]) hfit
  rwa [bytes_fixedDecimal, parseFixedPoint8_fixedText] at hchecked

/-- Into a buffer with room for it, a number is printed, and what is printed is parsed back to
the number: with wrapping arithmetic whatever the number, and without any overflow unless it is
the smallest one. -/
theorem parse_undoes_print (val : Int64) (out : List UInt8)
    (hroom : (fixedText val).length ≤ out.length) :
    ∃ w, writeFixedPoint8 val (FastJsonWriter.new out) = .ok () w ∧
      parseFixedPoint8 w.written = val ∧
      (Int64.minValue < val → checkedParseFixedPoint8 w.written = some val) := by
  have hzero : (FastJsonWriter.new out).pos = 0 := rfl
  have hbuf : (FastJsonWriter.new out).buf = out := rfl
  obtain ⟨w, hw, -, -, hwritten⟩ := (prints_writeFixedPoint8 val).writes (FastJsonWriter.new out)
    (by rw [hzero, hbuf]; omega)
  have hnone : (FastJsonWriter.new out).written = [] := rfl
  rw [hnone, List.nil_append] at hwritten
  refine ⟨w, hw, ?_, fun h => ?_⟩
  · rw [hwritten, parseFixedPoint8_fixedText]
  · rw [hwritten, checkedParseFixedPoint8_fixedText h]

/-- A number between minus one and zero. -/
theorem parse_undoes_print_minusOneUnit :
    ∃ w, writeFixedPoint8 (-1) (FastJsonWriter.new (List.replicate 11 0)) = .ok () w ∧
      parseFixedPoint8 w.written = -1 ∧
      (Int64.minValue < -1 → checkedParseFixedPoint8 w.written = some (-1)) :=
  parse_undoes_print (-1) (List.replicate 11 0) (by decide +kernel)

/-- No number needs more than 30 bytes. -/
lemma length_fixedText_le (val : Int64) : (fixedText val).length ≤ 30 :=
  (prints_writeFixedPoint8 val).writes.length_le (fits_writeFixedPoint8 val)

end FastJson
end ChainMarketPrice.Distribution
