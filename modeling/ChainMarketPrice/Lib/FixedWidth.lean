import Mathlib.Data.UInt

/-!
# Fixed-width integers beyond the built-in ones

A 128-bit word is a `BitVec 128`, read as unsigned or as two's complement; its operators wrap.
Here are the operations that do not: saturating arithmetic, arithmetic that is checked for
overflow, and narrowing to 64 bits, which keeps the low half.
-/

namespace FixedWidth

/-- `u128`, and the bits of an `i128`. -/
abbrev U128 := BitVec 128

/-- Addition that stops at the largest word. -/
def satAdd (a b : U128) : U128 :=
  if a.toNat + b.toNat < 2 ^ 128 then a + b else BitVec.allOnes 128

/-- Subtraction that stops at zero. -/
def satSub (a b : U128) : U128 := if b ≤ a then a - b else 0

/-- Signed subtraction that stops at the bounds of `i64`. -/
def satSub64 (a b : Int64) : Int64 := Int64.ofIntClamp (a.toInt - b.toInt)

/-- The `i64` of an exact value, unless it overflows. -/
def checked64 (x : ℤ) : Option Int64 :=
  if -2 ^ 63 ≤ x ∧ x < 2 ^ 63 then some (Int64.ofInt x) else none

/-- The `i32` of an exact value, unless it overflows. -/
def checked32 (x : ℤ) : Option Int32 :=
  if -2 ^ 31 ≤ x ∧ x < 2 ^ 31 then some (Int32.ofInt x) else none

/-- `as u64`. -/
def toU64 (a : U128) : UInt64 := ⟨a.setWidth 64⟩

/-- `as i64`. -/
def toI64 (a : U128) : Int64 := (toU64 a).toInt64

/-- A `u16` as an `i64`. -/
def ofU16 (a : UInt16) : Int64 := a.toUInt64.toInt64

/-! ## Values -/

/-- A factor that goes in again and again: the words wrap, but they multiply as the exact values
do. -/
lemma repeat_mul_word {M N : Type} [Monoid M] [Mul N] {word : M → N}
    (hword : ∀ x y, word (x * y) = word x * word y) (factor : M) (n : ℕ) (x : M) :
    Nat.repeat (· * word factor) n (word x) = word (x * factor ^ n) := by
  induction n with
  | zero =>
    rw [pow_zero, mul_one]
    rfl
  | succ n ih =>
    rw [Nat.repeat, ih, ← hword, mul_assoc, ← pow_succ]

lemma toNat_add_of_lt {a b : U128} (h : a.toNat + b.toNat < 2 ^ 128) :
    (a + b).toNat = a.toNat + b.toNat := by
  rw [BitVec.toNat_add]
  exact Nat.mod_eq_of_lt h

lemma toNat_mul_of_lt {a b : U128} (h : a.toNat * b.toNat < 2 ^ 128) :
    (a * b).toNat = a.toNat * b.toNat := by
  rw [BitVec.toNat_mul]
  exact Nat.mod_eq_of_lt h

lemma toInt_toI64_eq_bmod (a : U128) : (toI64 a).toInt = (a.toNat : ℤ).bmod (2 ^ 64) := by
  have hbits : (toI64 a).toInt = (a.setWidth 64).toInt := rfl
  rw [hbits, BitVec.toInt_setWidth]

/-- A word below `2 ^ 63` keeps its value as an `i64`. -/
lemma toInt_toI64 {a : U128} (h : a.toNat < 2 ^ 63) : (toI64 a).toInt = a.toNat := by
  rw [toInt_toI64_eq_bmod]
  apply Int.bmod_eq_of_le <;> omega

/-- A word of 64 bits read as two's complement. -/
lemma toInt_toInt64 (x : UInt64) :
    x.toInt64.toInt = if x.toNat < 2 ^ 63 then (x.toNat : ℤ) else x.toNat - 2 ^ 64 := by
  have hint : x.toInt64.toInt = if 2 * x.toNat < 2 ^ 64 then (x.toNat : ℤ)
      else x.toNat - 2 ^ 64 := BitVec.toInt_eq_toNat_cond _
  rw [hint]
  split <;> split <;> omega

/-- Narrowing a signed word to 16 bits keeps its residue. -/
lemma toNat_toUInt16 (x : Int64) : (x.toUInt64.toUInt16.toNat : ℤ) = x.toInt % 2 ^ 16 := by
  have hint := toInt_toInt64 x.toUInt64
  rw [Int64.toInt64_toUInt64] at hint
  rw [UInt64.toNat_toUInt16, hint]
  split <;> omega

/-- A sum, a difference or a product that is an `i64` does not wrap. -/
lemma toInt_add_of_fits {a b : Int64} (h : -2 ^ 63 ≤ a.toInt + b.toInt ∧ a.toInt + b.toInt < 2 ^ 63) :
    (a + b).toInt = a.toInt + b.toInt := by
  rw [Int64.toInt_add]
  apply Int.bmod_eq_of_le <;> omega

lemma toInt_sub_of_fits {a b : Int64} (h : -2 ^ 63 ≤ a.toInt - b.toInt ∧ a.toInt - b.toInt < 2 ^ 63) :
    (a - b).toInt = a.toInt - b.toInt := by
  rw [Int64.toInt_sub]
  apply Int.bmod_eq_of_le <;> omega

lemma toInt_mul_of_fits {a b : Int64} (h : -2 ^ 63 ≤ a.toInt * b.toInt ∧ a.toInt * b.toInt < 2 ^ 63) :
    (a * b).toInt = a.toInt * b.toInt := by
  rw [Int64.toInt_mul]
  apply Int.bmod_eq_of_le <;> omega

lemma toInt_ofU16 (bps : UInt16) : (ofU16 bps).toInt = bps.toNat := by
  have hlt : bps.toUInt64.toNat = bps.toNat := rfl
  have hbound := bps.toNat_lt
  rw [ofU16, toInt_toInt64, hlt, if_pos (by omega)]

/-- A difference that is an `i64` is not cut off. -/
lemma toInt_satSub64 {a b : Int64} (h : -2 ^ 63 ≤ a.toInt - b.toInt ∧ a.toInt - b.toInt < 2 ^ 63) :
    (satSub64 a b).toInt = a.toInt - b.toInt := by
  have hmin : Int64.minValue.toInt = -2 ^ 63 := rfl
  have hmax : Int64.maxValue.toInt = 2 ^ 63 - 1 := rfl
  exact Int64.toInt_ofIntClamp (by omega) (by omega)

/-- The difference of positive numbers does not wrap. -/
lemma toInt_sub_of_pos {a b : Int64} (ha : 0 < a) (hb : 0 < b) :
    (a - b).toInt = a.toInt - b.toInt := by
  rw [Int64.lt_iff_toInt_lt, Int64.toInt_zero] at ha hb
  have := a.toInt_lt
  have := b.toInt_lt
  rw [Int64.toInt_sub]
  apply Int.bmod_eq_of_le <;> omega

/-- Truncating division shrinks a bound. -/
lemma tdiv_bounds {x d : ℤ} (hd : 0 < d) {m : ℤ} (hx : -m ≤ x ∧ x ≤ m) :
    -(m / d) ≤ x.tdiv d ∧ x.tdiv d ≤ m / d := by
  rcases Int.le_total 0 x with h | h
  · rw [Int.tdiv_eq_ediv_of_nonneg h]
    have h1 := Int.ediv_le_ediv hd hx.2
    have h2 := Int.ediv_nonneg h hd.le
    omega
  · have hneg := Int.neg_tdiv (a := x) (b := d)
    rw [Int.tdiv_eq_ediv_of_nonneg (by omega)] at hneg
    have h1 := Int.ediv_le_ediv hd (show -x ≤ m by omega)
    have h2 := Int.ediv_nonneg (show 0 ≤ -x by omega) hd.le
    omega

end FixedWidth
