import Mathlib.Data.List.GetD
import ChainMarketPrice.Lib.Checked
import ChainMarketPrice.Distribution.FastJsonText

/-!
# Canonical integers

`write_u64` appends the decimal of its argument, without a zero in front, or leaves the writer
as it is. No access to its scratch buffer and its table is out of range: the digits that are still
to be put always fit in front of those that are there.
-/

namespace ChainMarketPrice.Distribution
namespace FastJson

open Bytes FastJsonWriter Text

/-! ## With checked accesses -/

/-- Stores two digits, with each index checked. -/
def checkedPutPair (temp : List UInt8) (idx rem : ℕ) : Option (List UInt8) := do
  let tens ← decDigitsLut[rem * 2]?
  let temp ← Checked.store temp idx tens
  let ones ← decDigitsLut[rem * 2 + 1]?
  Checked.store temp (idx + 1) ones

/-- The loop of `write_u64`. Its turns are counted as well: `fuel` of them have to be enough. -/
def checkedPairLoop : ℕ → ℕ → List UInt8 → ℕ → Option (ℕ × List UInt8 × ℕ)
  | 0, val, temp, idx => if val ≥ 100 then none else some (val, temp, idx)
  | fuel + 1, val, temp, idx =>
    if val ≥ 100 then do
      let rem := val % 100
      let idx ← Checked.sub idx 2
      let temp ← checkedPutPair temp idx rem
      checkedPairLoop fuel (val / 100) temp idx
    else some (val, temp, idx)

/-- The bytes that `write_u64` passes on, with each index into `temp` checked. -/
def checkedU64Text (val : UInt64) : Option (List UInt8) :=
  if val = 0 then some [48]
  else do
    let (val, temp, idx) ← checkedPairLoop 10 val.toNat (List.replicate 20 0) 20
    if val < 10 then
      let idx ← Checked.sub idx 1
      let temp ← Checked.store temp idx (48 + UInt8.ofNat val)
      Checked.slice temp idx 20
    else
      let idx ← Checked.sub idx 2
      let temp ← checkedPutPair temp idx val
      Checked.slice temp idx 20

lemma length_decDigitsLut : decDigitsLut.length = 200 := by decide +kernel

/-- A number below one hundred is in the table. -/
lemma checkedPutPair_eq {temp : List UInt8} {idx rem : ℕ} (hidx : idx + 2 ≤ temp.length)
    (hrem : rem < 100) : checkedPutPair temp idx rem = some (putPair temp idx rem) := by
  have hlut := length_decDigitsLut
  have htens : decDigitsLut[rem * 2]? = some (decDigitsLut.getD (rem * 2) 0) := by
    rw [List.getElem?_eq_getElem (by omega), List.getD_eq_getElem _ _ (by omega)]
  have hones : decDigitsLut[rem * 2 + 1]? = some (decDigitsLut.getD (rem * 2 + 1) 0) := by
    rw [List.getElem?_eq_getElem (by omega), List.getD_eq_getElem _ _ (by omega)]
  unfold checkedPutPair Checked.store
  rw [htens, hones]
  simp only [Option.bind_eq_bind, Option.bind_some]
  rw [if_pos (by omega), Option.bind_some, if_pos (by rw [List.length_set]; omega)]
  rfl

/-- The induction is on the turns; what is left to be put fits in front of `idx`. -/
lemma checkedPairLoop_eq {total : ℕ} : ∀ (fuel val : ℕ) (temp : List UInt8) (idx : ℕ),
    val < 100 ^ (fuel + 1) → Collected total val temp idx →
    checkedPairLoop fuel val temp idx = some (pairLoop fuel val temp idx) := by
  intro fuel
  induction fuel with
  | zero =>
    intro val temp idx hval _
    rw [checkedPairLoop, if_neg (by omega)]
    rfl
  | succ fuel ih =>
    intro val temp idx hval h
    rw [checkedPairLoop, pairLoop]
    by_cases hloop : val ≥ 100
    · have hidx := h.two_le (show 10 ≤ val by omega)
      have hinside := h.inside
      rw [if_pos hloop, if_pos hloop, Checked.sub, if_pos hidx]
      simp only [Option.bind_eq_bind, Option.bind_some]
      rw [checkedPutPair_eq (by omega) (Nat.mod_lt _ (by decide)), Option.bind_some]
      apply ih
      · rw [Nat.div_lt_iff_lt_mul (by decide)]
        rwa [pow_succ] at hval
      · exact h.putPair hidx
    · rw [if_neg hloop, if_neg hloop]

/-- The window from `idx` to the end of the scratch buffer. -/
lemma slice_to_end {temp : List UInt8} {idx : ℕ} (hlen : temp.length = 20) (hidx : idx ≤ 20) :
    Checked.slice temp idx 20 = some (temp.drop idx) := by
  rw [Checked.slice, if_pos ⟨hidx, hlen.ge⟩, List.take_of_length_le]
  rw [List.length_drop, hlen]

/-- No access is out of range. -/
lemma checkedU64Text_eq (val : UInt64) : checkedU64Text val = some (u64Text val) := by
  unfold checkedU64Text u64Text
  by_cases hzero : val = 0
  · rw [if_pos hzero, if_pos hzero]
  · obtain ⟨hpos, hlt, hstart⟩ := collected_start hzero
    obtain ⟨hsmall, hleft, hend⟩ :=
      pairLoop_spec 10 val.toNat (List.replicate 20 0) 20 hlt hpos hstart
    have hlen := length_pairLoop 10 val.toNat (List.replicate 20 0) 20
    rw [List.length_replicate] at hlen
    rw [if_neg hzero, if_neg hzero, checkedPairLoop_eq 10 _ _ _ hlt hstart]
    unfold u64Digits
    simp only [Option.bind_eq_bind, Option.bind_some]
    generalize (pairLoop 10 val.toNat (List.replicate 20 0) 20).1 = n at hsmall hleft hend ⊢
    generalize (pairLoop 10 val.toNat (List.replicate 20 0) 20).2.1 = temp at hend hlen ⊢
    generalize (pairLoop 10 val.toNat (List.replicate 20 0) 20).2.2 = idx at hend ⊢
    have hinside := hend.inside
    -- the tail writes one digit or a pair, and the index has room for it
    by_cases hone : n < 10
    · have hidx := hend.one_le hleft
      rw [if_pos hone, if_pos hone, Checked.sub, if_pos hidx, Option.bind_some, Checked.store,
        if_pos (by omega), Option.bind_some, slice_to_end (by rw [List.length_set, hlen]) (by omega)]
    · have hidx := hend.two_le (show 10 ≤ n by omega)
      rw [if_neg hone, if_neg hone, Checked.sub, if_pos hidx, Option.bind_some,
        checkedPutPair_eq (by omega) hsmall, Option.bind_some,
        slice_to_end (by rw [length_putPair, hlen]) (by omega)]

/-! ## The writer -/

/-- The text of a 64-bit number is canonical. -/
lemma u64Text_eq_decimalText (val : UInt64) : u64Text val = decimalText val.toNat := by
  unfold u64Text
  by_cases hzero : val = 0
  · rw [if_pos hzero, hzero]
    rfl
  · rw [if_neg hzero]
    obtain ⟨hdigits, hne, hvalue, hhead⟩ := u64Digits_spec hzero
    rw [← hvalue]
    exact eq_decimalText hdigits hne hhead

/-- A single byte is written like a slice of one byte. -/
lemma writeByte_eq_writeBytes (b : UInt8) : writeByte b = writeBytes [b] := by
  funext w
  unfold writeByte writeBytes
  dsimp only
  rw [List.length_singleton]
  by_cases hfull : w.pos ≥ w.buf.length
  · rw [if_pos hfull, if_pos (by omega)]
  · rw [if_neg hfull, if_neg (by omega), copyAt, List.length_singleton,
      List.set_eq_take_append_cons_drop, if_pos (by omega), List.append_assoc,
      List.singleton_append]

lemma writeU64_eq_writeBytes (val : UInt64) : writeU64 val = writeBytes (u64Text val) := by
  unfold writeU64 u64Text
  split
  · exact writeByte_eq_writeBytes 48
  · rfl

/-- For every number the decimal without a zero in front goes behind what is written, if there is
room for it, and otherwise nothing changes; no index into the scratch buffer is out of range. -/
theorem writeU64_canonical (val : UInt64) (w : FastJsonWriter) :
    checkedU64Text val = some (decimalText val.toNat) ∧
      ((decimalText val.toNat).head? = some 48 → val = 0) ∧
      writeU64 val w =
        if w.pos + (decimalText val.toNat).length ≤ w.buf.length then
          .ok () { buf := copyAt w.buf w.pos (decimalText val.toNat),
                   pos := w.pos + (decimalText val.toNat).length }
        else
          .error (.bufferTooSmall (w.pos + (decimalText val.toNat).length) w.buf.length) w := by
  rw [checkedU64Text_eq, writeU64_eq_writeBytes, u64Text_eq_decimalText]
  refine ⟨rfl, fun hhead => ?_, ?_⟩
  · by_contra hzero
    rw [← u64Text_eq_decimalText, u64Text, if_neg hzero] at hhead
    exact (u64Digits_spec hzero).2.2.2 hhead
  · unfold writeBytes
    dsimp only
    split
    · next hfull => rw [if_neg (Nat.not_le.mpr hfull)]
    · next hroom => rw [if_pos (Nat.not_lt.mp hroom)]

end FastJson
end ChainMarketPrice.Distribution
