import Mathlib.Data.UInt
import Mathlib.Data.List.Basic

/-!
# Byte buffers

Fixed-width integers as bytes in either order, and writes into a buffer of fixed length.
-/

namespace Bytes

/-- The `width` low bytes of `n`, lowest first. -/
def toLe (width n : ℕ) : List UInt8 :=
  (List.range width).map fun i => UInt8.ofNat (n / 256 ^ i)

/-- The `width` low bytes of `n`, highest first. -/
def toBe (width n : ℕ) : List UInt8 := (toLe width n).reverse

/-- The number whose bytes are given lowest first. -/
def ofLe : List UInt8 → ℕ
  | [] => 0
  | b :: bs => b.toNat + 256 * ofLe bs

/-- The number whose bytes are given highest first. -/
def ofBe (bs : List UInt8) : ℕ := ofLe bs.reverse

/-- The UTF-8 bytes of a string. -/
def ofString (s : String) : List UInt8 := s.toUTF8.data.toList

/-- `buf[start..start + bytes.len()].copy_from_slice(bytes)`. -/
def copyAt (buf : List UInt8) (start : ℕ) (bytes : List UInt8) : List UInt8 :=
  buf.take start ++ bytes ++ buf.drop (start + bytes.length)

/-- The number in `width` bytes from `start` on, lowest first. -/
def readLe (buf : List UInt8) (start width : ℕ) : ℕ := ofLe ((buf.drop start).take width)

@[simp] lemma length_toLe (width n : ℕ) : (toLe width n).length = width := by
  simp [toLe]

@[simp] lemma length_toBe (width n : ℕ) : (toBe width n).length = width := by
  simp [toBe]

lemma toLe_succ (width n : ℕ) : toLe (width + 1) n = UInt8.ofNat n :: toLe width (n / 256) := by
  unfold toLe
  rw [List.range_succ_eq_map, List.map_cons, List.map_map, Nat.pow_zero, Nat.div_one]
  congr 1
  apply List.map_congr_left
  intro i _
  rw [Function.comp_apply, Nat.pow_succ, Nat.mul_comm, Nat.div_div_eq_div_mul]

/-- Reading what was written, up to the width. -/
lemma ofLe_toLe (width n : ℕ) : ofLe (toLe width n) = n % 256 ^ width := by
  induction width generalizing n with
  | zero => rw [Nat.pow_zero, Nat.mod_one]; rfl
  | succ width ih =>
    have hpow : 256 ^ (width + 1) = 256 * 256 ^ width := Nat.pow_succ'
    rw [toLe_succ, ofLe, ih, UInt8.toNat_ofNat', hpow, Nat.mod_mul]

lemma ofBe_toBe (width n : ℕ) : ofBe (toBe width n) = n % 256 ^ width := by
  rw [ofBe, toBe, List.reverse_reverse, ofLe_toLe]

/-- Writing what was read. -/
lemma toLe_ofLe (bs : List UInt8) : toLe bs.length (ofLe bs) = bs := by
  induction bs with
  | nil => rfl
  | cons b bs ih =>
    have hb := b.toNat_lt
    have hlow : UInt8.ofNat (b.toNat + 256 * ofLe bs) = b := by
      apply UInt8.toNat_inj.mp
      rw [UInt8.toNat_ofNat']
      omega
    have hhigh : (b.toNat + 256 * ofLe bs) / 256 = ofLe bs := by omega
    rw [List.length_cons, ofLe, toLe_succ, hlow, hhigh, ih]

lemma ofLe_lt (bs : List UInt8) : ofLe bs < 256 ^ bs.length := by
  induction bs with
  | nil => simp [ofLe]
  | cons b bs ih =>
    have hb := b.toNat_lt
    rw [ofLe, List.length_cons, Nat.pow_succ]
    omega

lemma ofBe_lt (bs : List UInt8) : ofBe bs < 256 ^ bs.length := by
  have hlt := ofLe_lt bs.reverse
  rwa [List.length_reverse] at hlt

/-- A write inside the buffer keeps its length. -/
lemma length_copyAt {buf : List UInt8} {start : ℕ} {bytes : List UInt8}
    (h : start + bytes.length ≤ buf.length) : (copyAt buf start bytes).length = buf.length := by
  simp only [copyAt, List.length_append, List.length_take, List.length_drop]
  omega

/-- A write behind the first `start` bytes extends them. -/
lemma take_copyAt {buf : List UInt8} {start : ℕ} {bytes : List UInt8} (h : start ≤ buf.length) :
    (copyAt buf start bytes).take (start + bytes.length) = buf.take start ++ bytes := by
  have hlen : (buf.take start ++ bytes).length = start + bytes.length := by
    rw [List.length_append, List.length_take, Nat.min_eq_left h]
  rw [copyAt, ← hlen, List.take_left]

/-- What stands behind a write stays. -/
lemma drop_copyAt {buf : List UInt8} {start n : ℕ} {bytes : List UInt8}
    (h : start + bytes.length ≤ buf.length) (hn : start + bytes.length ≤ n) :
    (copyAt buf start bytes).drop n = buf.drop n := by
  have hlen : (buf.take start ++ bytes).length = start + bytes.length := by
    rw [List.length_append, List.length_take, Nat.min_eq_left (by omega)]
  obtain ⟨k, rfl⟩ := Nat.exists_eq_add_of_le hn
  rw [copyAt, ← hlen, List.drop_length_add_append, List.drop_drop]

end Bytes
