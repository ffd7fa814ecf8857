import ChainMarketPrice.Lib.LongDivision
import ChainMarketPrice.AmmVirtualizer.U256

/-!
# `U256` is arithmetic modulo `2 ^ 256`

Sums and differences recover the carry between the halves, a product is put together from the
four products of 64-bit parts, and the long division never shifts a set bit out of the
remainder, because what was brought down is never more than the dividend.
-/

namespace ChainMarketPrice.AmmVirtualizer
namespace U256

open FixedWidth LongDivision

/-- The number that the halves denote. -/
def val (a : U256) : ℕ := 2 ^ 128 * a.hi.toNat + a.lo.toNat

lemma val_lt (a : U256) : a.val < 2 ^ 256 := by
  have hhi := a.hi.isLt
  have hlo := a.lo.isLt
  unfold val
  omega

lemma val_inj {a b : U256} : a.val = b.val ↔ a = b := by
  obtain ⟨ahi, alo⟩ := a
  obtain ⟨bhi, blo⟩ := b
  have halo := alo.isLt
  have hblo := blo.isLt
  rw [U256.mk.injEq, ← BitVec.toNat_inj, ← BitVec.toNat_inj]
  show 2 ^ 128 * ahi.toNat + alo.toNat = 2 ^ 128 * bhi.toNat + blo.toNat ↔ _
  omega

/-! ## Order -/

lemma lt_iff (a b : U256) : a.lt b = true ↔ a.val < b.val := by
  have ha := a.lo.isLt
  have hb := b.lo.isLt
  unfold lt val
  rw [decide_eq_true_iff, BitVec.lt_def, BitVec.lt_def, ← BitVec.toNat_inj]
  omega

lemma le_iff (a b : U256) : a.le b = true ↔ a.val ≤ b.val := by
  have ha := a.lo.isLt
  have hb := b.lo.isLt
  unfold le val
  rw [decide_eq_true_iff, BitVec.lt_def, BitVec.le_def, ← BitVec.toNat_inj]
  omega

/-! ## Sums, differences and products -/

lemma carry_iff (a b : U128) : carry a b = true ↔ 2 ^ 128 ≤ a.toNat + b.toNat := by
  unfold carry
  exact decide_eq_true_iff

lemma toNat_flag (p : Prop) [Decidable p] :
    (if p then (1 : U128) else 0).toNat = if p then 1 else 0 := by
  split <;> rfl

/-- The wrapped sum and its carry are the sum. -/
lemma toNat_add_carry (a b : U128) :
    (a + b).toNat + 2 ^ 128 * (if carry a b then 1 else 0) = a.toNat + b.toNat := by
  have ha := a.isLt
  have hb := b.isLt
  rw [BitVec.toNat_add]
  split
  · next hcarry =>
    rw [carry_iff] at hcarry
    omega
  · next hcarry =>
    rw [carry_iff] at hcarry
    omega

theorem val_add (a b : U256) : (a.add b).val = (a.val + b.val) % 2 ^ 256 := by
  have hcarry := toNat_add_carry a.lo b.lo
  have hlt := (a.lo + b.lo).isLt
  unfold add val
  dsimp only
  rw [BitVec.toNat_add (a.hi + b.hi), BitVec.toNat_add a.hi, toNat_flag]
  omega

theorem val_sub (a b : U256) : ((a.sub b).val : ℤ) = ((a.val : ℤ) - b.val) % 2 ^ 256 := by
  have halo := a.lo.isLt
  have hblo := b.lo.isLt
  have hbhi := b.hi.isLt
  unfold sub val
  dsimp only
  rw [BitVec.toNat_sub, BitVec.toNat_sub, BitVec.toNat_sub, toNat_flag]
  split
  · next hborrow =>
    rw [BitVec.lt_def] at hborrow
    omega
  · next hborrow =>
    rw [BitVec.lt_def] at hborrow
    omega

lemma val_sub_of_le {a b : U256} (h : b.val ≤ a.val) : (a.sub b).val = a.val - b.val := by
  have hsub := val_sub a b
  have hlt := a.val_lt
  omega

lemma toNat_lowHalf (a : U128) : (lowHalf a).toNat = a.toNat % 2 ^ 64 := by
  unfold lowHalf
  rw [BitVec.toNat_setWidth, BitVec.toNat_setWidth]
  omega

lemma toNat_highHalf (a : U128) : (a >>> 64).toNat = a.toNat / 2 ^ 64 := by
  rw [BitVec.toNat_ushiftRight, Nat.shiftRight_eq_div_pow]

/-- The product of two words, from the four products of their parts. -/
lemma mul_eq_parts (x y : ℕ) :
    x * y = 2 ^ 128 * (x / 2 ^ 64 * (y / 2 ^ 64))
      + 2 ^ 64 * (x % 2 ^ 64 * (y / 2 ^ 64) + x / 2 ^ 64 * (y % 2 ^ 64))
      + x % 2 ^ 64 * (y % 2 ^ 64) := by
  have hx := Nat.div_add_mod x (2 ^ 64)
  have hy := Nat.div_add_mod y (2 ^ 64)
  calc x * y = (2 ^ 64 * (x / 2 ^ 64) + x % 2 ^ 64) * (2 ^ 64 * (y / 2 ^ 64) + y % 2 ^ 64) := by
        rw [hx, hy]
    _ = _ := by ring

/-- The product of parts of 64 bits does not wrap. -/
lemma toNat_mul_parts {x y : U128} (hx : x.toNat < 2 ^ 64) (hy : y.toNat < 2 ^ 64) :
    (x * y).toNat = x.toNat * y.toNat := by
  have hle : x.toNat * y.toNat ≤ (2 ^ 64 - 1) * (2 ^ 64 - 1) :=
    Nat.mul_le_mul (by omega) (by omega)
  exact toNat_mul_of_lt (by omega)

lemma toNat_shiftLeft_lowHalf (a : U128) :
    (lowHalf a <<< 64).toNat = 2 ^ 64 * (a.toNat % 2 ^ 64) := by
  rw [BitVec.toNat_shiftLeft, toNat_lowHalf, Nat.shiftLeft_eq]
  omega

lemma toNat_midHi (mid : U128) (p : Prop) [Decidable p] :
    ((mid >>> 64) + (if p then 0x10000000000000000 else 0)).toNat
      = mid.toNat / 2 ^ 64 + 2 ^ 64 * (if p then 1 else 0) := by
  have hmid := mid.isLt
  have hbit : (0x10000000000000000 : U128).toNat = 2 ^ 64 := by decide
  rw [BitVec.toNat_add, toNat_highHalf]
  split
  · rw [hbit]
    omega
  · show (mid.toNat / 2 ^ 64 + 0) % 2 ^ 128 = _
    omega

/-- The halves of a part are below `2 ^ 64`, so only the two sums carry; their carries stand in
`midHi` and in the last summand of the high half. -/
theorem val_mulU128 (a : U256) (m : U128) : (a.mulU128 m).val = a.val * m.toNat % 2 ^ 256 := by
  have hlo := a.lo.isLt
  have hm := m.isLt
  have hprod := mul_eq_parts a.lo.toNat m.toNat
  have hlo0 : (lowHalf a.lo).toNat < 2 ^ 64 := by rw [toNat_lowHalf]; omega
  have hlo1 : (a.lo >>> 64).toNat < 2 ^ 64 := by rw [toNat_highHalf]; omega
  have hm0 : (lowHalf m).toNat < 2 ^ 64 := by rw [toNat_lowHalf]; omega
  have hm1 : (m >>> 64).toNat < 2 ^ 64 := by rw [toNat_highHalf]; omega
  rw [← toNat_lowHalf, ← toNat_lowHalf, ← toNat_highHalf, ← toNat_highHalf,
    ← toNat_mul_parts hlo1 hm1, ← toNat_mul_parts hlo0 hm1, ← toNat_mul_parts hlo1 hm0,
    ← toNat_mul_parts hlo0 hm0] at hprod
  -- the sum of the two middle parts, and the sum of the low ones, each with its carry
  have hmid := toNat_add_carry (lowHalf a.lo * (m >>> 64)) ((a.lo >>> 64) * lowHalf m)
  have hlow := toNat_add_carry (lowHalf a.lo * lowHalf m)
    (lowHalf (lowHalf a.lo * (m >>> 64) + (a.lo >>> 64) * lowHalf m) <<< 64)
  rw [toNat_shiftLeft_lowHalf] at hlow
  -- the high half adds its product, of which only the low 128 bits stay
  have hval : a.val * m.toNat = 2 ^ 128 * (a.hi.toNat * m.toNat) + a.lo.toNat * m.toNat := by
    unfold val
    ring
  rw [hval, hprod]
  unfold mulU128 val
  dsimp only
  rw [BitVec.toNat_add, BitVec.toNat_add, BitVec.toNat_add, BitVec.toNat_mul a.hi, toNat_midHi,
    toNat_flag]
  omega

theorem val_mul (a b : U256) : (a.mul b).val = a.val * b.val % 2 ^ 256 := by
  have hlow := val_mulU128 a b.lo
  have hval : a.val * b.val = a.val * b.lo.toNat
      + 2 ^ 128 * (a.lo.toNat * b.hi.toNat) + 2 ^ 256 * (a.hi.toNat * b.hi.toNat) := by
    unfold val
    ring
  have hlt := (a.mulU128 b.lo).lo.isLt
  rw [hval]
  unfold mul val
  unfold val at hlow
  dsimp only
  rw [BitVec.toNat_add, BitVec.toNat_mul]
  omega

/-! ## Bits -/

lemma and_one_eq_one_iff (w : U128) : w &&& 1 = 1 ↔ w.toNat % 2 = 1 := by
  rw [← BitVec.toNat_inj, BitVec.toNat_and]
  show w.toNat &&& 1 = 1 ↔ _
  rw [Nat.and_one_is_mod]

lemma testBit_val (a : U256) (i : ℕ) :
    a.val.testBit i = if i < 128 then a.lo.toNat.testBit i else a.hi.toNat.testBit (i - 128) :=
  Nat.testBit_two_pow_mul_add _ a.lo.isLt i

lemma getBit_eq_testBit (a : U256) (i : ℕ) : a.getBit i = a.val.testBit i := by
  have hbit (w : U128) (k : ℕ) : decide ((w >>> k) &&& 1 = 1) = w.toNat.testBit k := by
    rw [Nat.testBit_eq_decide_div_mod_eq, decide_eq_decide, and_one_eq_one_iff,
      BitVec.toNat_ushiftRight, Nat.shiftRight_eq_div_pow]
  rw [testBit_val, ← hbit, ← hbit]
  unfold getBit
  split <;> rfl

lemma toNat_or_mask (w : U128) {k : ℕ} (hk : k < 128) :
    (w ||| ((1 : U128) <<< k)).toNat = w.toNat ||| 2 ^ k := by
  have hlt : 2 ^ k < 2 ^ 128 := Nat.pow_lt_pow_right (by omega) hk
  rw [BitVec.toNat_or, BitVec.toNat_shiftLeft, Nat.shiftLeft_eq]
  show w.toNat ||| (1 * 2 ^ k) % 2 ^ 128 = _
  rw [Nat.one_mul, Nat.mod_eq_of_lt hlt]

lemma val_setBit (a : U256) {i : ℕ} (hi : i < 256) : (a.setBit i).val = a.val ||| 2 ^ i := by
  apply Nat.eq_of_testBit_eq
  intro j
  rw [testBit_val, Nat.testBit_or, testBit_val, Nat.testBit_two_pow]
  by_cases hlow : i < 128
  · have hset : a.setBit i = { a with lo := a.lo ||| ((1 : U128) <<< i) } := if_pos hlow
    rw [hset, toNat_or_mask _ hlow, Nat.testBit_or, Nat.testBit_two_pow]
    split
    · rfl
    · have hne : i ≠ j := by omega
      rw [decide_eq_false hne, Bool.or_false]
  · have hset : a.setBit i = { a with hi := a.hi ||| ((1 : U128) <<< (i - 128)) } := if_neg hlow
    rw [hset, toNat_or_mask _ (by omega), Nat.testBit_or, Nat.testBit_two_pow]
    split
    · have hne : i ≠ j := by omega
      rw [decide_eq_false hne, Bool.or_false]
    · have hiff : i - 128 = j - 128 ↔ i = j := by omega
      rw [decide_eq_decide.mpr hiff]

/-- A bit is set under bits that are clear. -/
lemma val_setBit_of_dvd {q : U256} {i : ℕ} (hi : i < 256) (hdvd : 2 ^ (i + 1) ∣ q.val) :
    (q.setBit i).val = q.val + 2 ^ i := by
  obtain ⟨k, hk⟩ := hdvd
  rw [val_setBit q hi, hk]
  exact (Nat.two_pow_add_eq_or_of_lt (Nat.pow_lt_pow_right (by omega) (by omega)) k).symm

/-- A word shifted by one place with `b` as its last bit. -/
lemma toNat_shiftLeft_one_or (w : U128) {b : U128} (hb : b.toNat < 2) :
    ((w <<< 1) ||| b).toNat = 2 * w.toNat % 2 ^ 128 + b.toNat := by
  have heven : w.toNat * 2 ^ 1 % 2 ^ 128 = 2 ^ 1 * (w.toNat % 2 ^ 127) := by omega
  rw [BitVec.toNat_or, BitVec.toNat_shiftLeft, Nat.shiftLeft_eq, heven,
    ← Nat.two_pow_add_eq_or_of_lt hb]
  omega

lemma toNat_shiftLeft_one (w : U128) : (w <<< 1).toNat = 2 * w.toNat % 2 ^ 128 := by
  rw [BitVec.toNat_shiftLeft, Nat.shiftLeft_eq]
  omega

lemma val_shiftLeft1 (r : U256) : r.shiftLeft1.val = 2 * r.val % 2 ^ 256 := by
  have hlo := r.lo.isLt
  have htop : (r.lo >>> 127).toNat = r.lo.toNat / 2 ^ 127 := by
    rw [BitVec.toNat_ushiftRight, Nat.shiftRight_eq_div_pow]
  have hor := toNat_shiftLeft_one_or r.hi (b := r.lo >>> 127) (by omega)
  unfold shiftLeft1 val
  dsimp only
  rw [hor, toNat_shiftLeft_one, htop]
  omega

/-- The remainder with the next bit of the dividend, as the loop puts it together. -/
def broughtDown (a r : U256) (i : ℕ) : U256 :=
  if a.getBit i then { r.shiftLeft1 with lo := r.shiftLeft1.lo ||| 1 } else r.shiftLeft1

/-- No bit is lost where the number fits. -/
lemma val_broughtDown (a r : U256) (i : ℕ) (hfit : bringDown a.val i r.val < 2 ^ 256) :
    (broughtDown a r i).val = bringDown a.val i r.val := by
  have hshift := val_shiftLeft1 r
  -- the doubled number is even, so the bit is added
  have hor : (r.shiftLeft1.lo ||| 1).toNat = r.shiftLeft1.lo.toNat + 1 := by
    have hlo : r.shiftLeft1.lo = r.lo <<< 1 := rfl
    rw [hlo, toNat_shiftLeft_one_or r.lo (by decide), toNat_shiftLeft_one]
    rfl
  unfold broughtDown
  unfold bringDown at hfit ⊢
  rw [getBit_eq_testBit, Nat.testBit_eq_decide_div_mod_eq]
  split
  · next hbit =>
    rw [decide_eq_true_iff] at hbit
    have hnext : U256.val { r.shiftLeft1 with lo := r.shiftLeft1.lo ||| 1 }
        = r.shiftLeft1.val + 1 := by
      unfold val
      rw [hor]
      rfl
    rw [hnext, hshift]
    omega
  · next hbit =>
    rw [decide_eq_true_iff] at hbit
    rw [hshift]
    omega

/-! ## Division -/

lemma divLoop_succ (a b : U256) (i : ℕ) (q r : U256) :
    divLoop a b (i + 1) q r =
      if b.le (broughtDown a r i) then
        divLoop a b i (q.setBit i) ((broughtDown a r i).sub b)
      else divLoop a b i q (broughtDown a r i) := rfl

/-- The invariant is `Divided`: the bits from bit `i` on are divided. -/
lemma val_divLoop {a b q r : U256} {i : ℕ} (hi : i ≤ 256)
    (h : Divided a.val b.val i q.val r.val) : (divLoop a b i q r).val = a.val / b.val := by
  induction i generalizing q r with
  | zero => exact h.eq_div
  | succ i ih =>
    have hval := val_broughtDown a r i (h.bringDown_le.trans_lt a.val_lt)
    rw [divLoop_succ]
    split
    · next hfits =>
      rw [le_iff, hval] at hfits
      apply ih (by omega)
      rw [val_setBit_of_dvd (by omega) h.dvd, val_sub_of_le (by rw [hval]; exact hfits), hval]
      exact h.subtract hfits
    · next hless =>
      rw [le_iff, hval] at hless
      apply ih (by omega)
      rw [hval]
      exact h.skip (by omega)

lemma isZero_iff (a : U256) : a.isZero = true ↔ a.val = 0 := by
  unfold isZero val
  rw [decide_eq_true_iff, ← BitVec.toNat_inj, ← BitVec.toNat_inj]
  show a.hi.toNat = 0 ∧ a.lo.toNat = 0 ↔ _
  omega

theorem val_div (a b : U256) (hb : 0 < b.val) : ∃ q, a.div b = some q ∧ q.val = a.val / b.val := by
  unfold div
  have hnonzero : ¬b.isZero = true := by
    rw [isZero_iff]
    omega
  rw [if_neg hnonzero]
  split
  · next hlt =>
    refine ⟨zero, rfl, ?_⟩
    rw [lt_iff] at hlt
    exact (Nat.div_eq_of_lt hlt).symm
  · split
    · next hone =>
      refine ⟨a, rfl, ?_⟩
      rw [hone]
      exact (Nat.div_one _).symm
    · exact ⟨_, rfl, val_divLoop le_rfl (divided_init a.val_lt hb)⟩

/-- All operations are those of the numbers modulo `2 ^ 256`; the quotient is exact. -/
theorem u256_exact (a b : U256) (m : U128) :
    (a.add b).val = (a.val + b.val) % 2 ^ 256
      ∧ ((a.sub b).val : ℤ) = ((a.val : ℤ) - b.val) % 2 ^ 256
      ∧ (a.mulU128 m).val = a.val * m.toNat % 2 ^ 256
      ∧ (a.mul b).val = a.val * b.val % 2 ^ 256
      ∧ (a.lt b = true ↔ a.val < b.val)
      ∧ (a.le b = true ↔ a.val ≤ b.val)
      ∧ (a = b ↔ a.val = b.val)
      ∧ (0 < b.val → ∃ q, a.div b = some q ∧ q.val = a.val / b.val) :=
  ⟨val_add a b, val_sub a b, val_mulU128 a m, val_mul a b, lt_iff a b, le_iff a b, val_inj.symm,
    val_div a b⟩

/-- A dividend of two halves. -/
theorem u256_exact_third :
    ∃ q, U256.div ⟨1, 0⟩ ⟨0, 3⟩ = some q ∧ q.val = 2 ^ 128 / 3 :=
  (u256_exact ⟨1, 0⟩ ⟨0, 3⟩ 0).2.2.2.2.2.2.2 (by decide)

end U256
end ChainMarketPrice.AmmVirtualizer
