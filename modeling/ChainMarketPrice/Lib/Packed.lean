import Mathlib.Algebra.BigOperators.Group.List.Basic
import ChainMarketPrice.Lib.Bytes

/-!
# Packed records

Numbers of fixed widths one behind the other, lowest byte first and without padding. Reading
by the widths undoes writing, up to the widths (`unpack_pack`), and writing what was read gives
the bytes back (`pack_unpack`).
-/

namespace Bytes

/-- The bytes of a list of widths with numbers. -/
def pack (fields : List (ℕ × ℕ)) : List UInt8 := fields.flatMap fun f => toLe f.1 f.2

/-- The numbers that stand in the bytes, by their widths. -/
def unpack : List ℕ → List UInt8 → List ℕ
  | [], _ => []
  | width :: widths, bytes => ofLe (bytes.take width) :: unpack widths (bytes.drop width)

@[simp] lemma pack_nil : pack [] = [] := rfl

lemma pack_cons (width n : ℕ) (fields : List (ℕ × ℕ)) :
    pack ((width, n) :: fields) = toLe width n ++ pack fields := by
  rw [pack, List.flatMap_cons, ← pack]

lemma pack_append (fields fields' : List (ℕ × ℕ)) :
    pack (fields ++ fields') = pack fields ++ pack fields' := List.flatMap_append

lemma length_pack (fields : List (ℕ × ℕ)) : (pack fields).length = (fields.map Prod.fst).sum := by
  induction fields with
  | nil => rfl
  | cons f fields ih =>
    rw [pack_cons, List.length_append, length_toLe, ih, List.map_cons, List.sum_cons]

lemma unpack_take (n : ℕ) (widths : List ℕ) (bytes : List UInt8) :
    unpack (widths.take n) bytes = (unpack widths bytes).take n := by
  induction widths generalizing n bytes with
  | nil => rw [List.take_nil, unpack, List.take_nil]
  | cons width widths ih =>
    cases n with
    | zero => rfl
    | succ n => rw [List.take_succ_cons, unpack, ih, unpack, List.take_succ_cons]

/-- Reading undoes writing, whatever stands behind. -/
theorem unpack_pack (fields : List (ℕ × ℕ)) (back : List UInt8) :
    unpack (fields.map Prod.fst) (pack fields ++ back)
      = fields.map fun f => f.2 % 256 ^ f.1 := by
  induction fields with
  | nil => rfl
  | cons f fields ih =>
    obtain ⟨width, n⟩ := f
    have hlen : (toLe width n).length = width := length_toLe width n
    rw [List.map_cons, unpack, pack_cons, List.append_assoc, List.take_left' hlen,
      List.drop_left' hlen, ih, ofLe_toLe, List.map_cons]

/-- Writing undoes reading. -/
theorem pack_unpack {widths : List ℕ} {bytes : List UInt8} (h : widths.sum ≤ bytes.length) :
    pack (widths.zip (unpack widths bytes)) = bytes.take widths.sum := by
  induction widths generalizing bytes with
  | nil => simp [unpack]
  | cons width widths ih =>
    rw [List.sum_cons] at h
    have hfirst : (bytes.take width).length = width := by
      rw [List.length_take]
      omega
    have hrest : widths.sum ≤ (bytes.drop width).length := by
      rw [List.length_drop]
      omega
    have hbytes := toLe_ofLe (bytes.take width)
    rw [hfirst] at hbytes
    rw [unpack, List.zip_cons_cons, pack_cons, ih hrest, List.sum_cons, List.take_add, hbytes]

lemma toLe_one (b : UInt8) : toLe 1 b.toNat = [b] := by
  rw [toLe_succ, UInt8.ofNat_toNat]
  rfl

/-! ## Writing a record field by field -/

/-- The buffer is `out` with its first `start` bytes overwritten by the fields. -/
structure Written (buf : List UInt8) (fields : List (ℕ × ℕ)) (start : ℕ) (out : List UInt8) :
    Prop where
  eq : buf = pack fields ++ out.drop start
  size : (pack fields).length = start

lemma Written.nil (out : List UInt8) : Written out [] 0 out := ⟨rfl, rfl⟩

variable {buf out : List UInt8} {fields : List (ℕ × ℕ)} {start : ℕ}

lemma pack_concat (fields : List (ℕ × ℕ)) (width n : ℕ) :
    pack (fields ++ [(width, n)]) = pack fields ++ toLe width n := by
  rw [pack_append, pack_cons, pack_nil, List.append_nil]

/-- A write of the next field right behind the fields written so far. -/
lemma Written.copy (h : Written buf fields start out) (width n : ℕ) :
    Written (copyAt buf start (toLe width n)) (fields ++ [(width, n)]) (start + width) out where
  eq := by
    rw [copyAt, h.eq, List.take_left' h.size, List.drop_append, h.size,
      List.drop_eq_nil_of_le (by rw [h.size]; omega), List.nil_append, Nat.add_sub_cancel_left,
      List.drop_drop, length_toLe, pack_concat]
  size := by rw [pack_concat, List.length_append, h.size, length_toLe]

/-- A field of one byte. -/
lemma Written.set (h : Written buf fields start out) (b : UInt8) (hroom : start < out.length) :
    Written (buf.set start b) (fields ++ [(1, b.toNat)]) (start + 1) out where
  eq := by
    have hbehind : out.drop start = out[start] :: out.drop (start + 1) :=
      List.drop_eq_getElem_cons hroom
    rw [h.eq, List.set_append_right _ _ (by rw [h.size]), h.size, Nat.sub_self, hbehind,
      List.set_cons_zero, pack_concat, toLe_one, List.append_assoc, List.singleton_append]
  size := by rw [pack_concat, List.length_append, h.size, length_toLe]

end Bytes
