import Mathlib.Data.List.FinRange
import Mathlib.Data.List.Pairwise
import ChainMarketPrice.Lib.BitWord
import ChainMarketPrice.Distribution.ClientBitmap

/-!
# `ClientBitmap` as a set of ids

`bit` reads one position of the bitmap; the operations act on it position by position, and
`for_each` visits the set positions in increasing order.
-/

namespace ChainMarketPrice.Distribution
namespace ClientBitmap

open BitWord

/-! ## Single bits -/

/-- Position `n` of the bitmap. -/
def bit (b : ClientBitmap) (n : ℕ) : Bool :=
  if h : n / 64 < defaultBitmapWords then (b.words ⟨n / 64, h⟩).toNat.testBit (n % 64) else false

lemma bit_of_lt {b : ClientBitmap} {n : ℕ} (h : n / 64 < defaultBitmapWords) :
    b.bit n = (b.words ⟨n / 64, h⟩).toNat.testBit (n % 64) := dif_pos h

/-- The words hold the positions below the capacity. -/
lemma div_lt_words_iff {n : ℕ} : n / 64 < defaultBitmapWords ↔ n < maxClientCapacity := by
  show n / 64 < 16 ↔ n < 16 * 64
  omega

/-- The positions of one word. -/
lemma bit_word (b : ClientBitmap) (i : Fin defaultBitmapWords) {j : ℕ} (hj : j < 64) :
    b.bit (i.val * 64 + j) = (b.words i).toNat.testBit j := by
  have hdiv : (i.val * 64 + j) / 64 = i.val := by omega
  have hmod : (i.val * 64 + j) % 64 = j := by omega
  have hlt : (i.val * 64 + j) / 64 < defaultBitmapWords := by
    rw [hdiv]
    exact i.isLt
  have hidx : (⟨(i.val * 64 + j) / 64, hlt⟩ : Fin defaultBitmapWords) = i := Fin.ext hdiv
  rw [bit_of_lt hlt, hidx, hmod]

lemma lt_of_bit {b : ClientBitmap} {n : ℕ} (h : b.bit n = true) : n < maxClientCapacity := by
  rw [bit] at h
  split at h
  · next hlt => exact div_lt_words_iff.mp hlt
  · exact absurd h (by decide)

lemma contains_eq (b : ClientBitmap) (clientId : UInt32) :
    b.contains clientId = b.bit clientId.toNat := by
  unfold contains locate bit
  dsimp only
  split_ifs with h
  · exact and_mask_bne_zero (Nat.mod_lt _ (by decide)) _
  · rfl

/-- Two positions are the same word and the same bit, or differ. -/
lemma bit_update {b : ClientBitmap} {m n : ℕ} (hm : m / 64 < defaultBitmapWords) (w : UInt64) :
    ({ words := Function.update b.words ⟨m / 64, hm⟩ w } : ClientBitmap).bit n
      = if n / 64 = m / 64 then w.toNat.testBit (n % 64) else b.bit n := by
  by_cases hn : n / 64 = m / 64
  · have hn' : n / 64 < defaultBitmapWords := hn ▸ hm
    have hidx : (⟨n / 64, hn'⟩ : Fin defaultBitmapWords) = ⟨m / 64, hm⟩ := Fin.ext hn
    rw [if_pos hn, bit_of_lt hn', hidx]
    simp only [Function.update_self]
  · rw [if_neg hn]
    unfold bit
    split
    · rename_i hlt
      have hidx : (⟨n / 64, hlt⟩ : Fin defaultBitmapWords) ≠ ⟨m / 64, hm⟩ :=
        fun h => hn (Fin.ext_iff.mp h)
      simp only [Function.update_of_ne hidx]
    · rfl

/-- An insertion sets the position of the id, if the bitmap has room for it. -/
lemma bit_insert (b : ClientBitmap) (clientId : UInt32) (n : ℕ) :
    (b.insert clientId).2.bit n
      = (b.bit n || decide (n = clientId.toNat ∧ n < maxClientCapacity)) := by
  unfold insert locate
  dsimp only
  by_cases hm : clientId.toNat / 64 < defaultBitmapWords
  · rw [dif_pos hm]
    dsimp only
    rw [bit_update hm, testBit_or_mask (Nat.mod_lt _ (by decide))]
    -- positions in the word of the id, and those in other words
    by_cases hn : n / 64 = clientId.toNat / 64
    · have hn' : n / 64 < defaultBitmapWords := hn ▸ hm
      have hidx : (⟨n / 64, hn'⟩ : Fin defaultBitmapWords) = ⟨clientId.toNat / 64, hm⟩ :=
        Fin.ext hn
      have hlt : n < maxClientCapacity := div_lt_words_iff.mp hn'
      have hiff : n % 64 = clientId.toNat % 64 ↔ n = clientId.toNat := by omega
      rw [if_pos hn, bit_of_lt hn', hidx]
      simp [hiff, hlt]
    · have hne : n ≠ clientId.toNat := fun h => hn (by rw [h])
      rw [if_neg hn]
      simp [hne]
  · rw [dif_neg hm]
    have hne : ¬ (n = clientId.toNat ∧ n < maxClientCapacity) := by
      rintro ⟨rfl, hlt⟩
      exact hm (div_lt_words_iff.mpr hlt)
    simp [hne]

/-- A removal clears the position of the id. -/
lemma bit_remove (b : ClientBitmap) (clientId : UInt32) (n : ℕ) :
    (b.remove clientId).2.bit n = (b.bit n && decide (n ≠ clientId.toNat)) := by
  unfold remove locate
  dsimp only
  by_cases hm : clientId.toNat / 64 < defaultBitmapWords
  · rw [dif_pos hm]
    dsimp only
    rw [bit_update hm, testBit_and_not_mask (Nat.mod_lt _ (by decide)) (Nat.mod_lt _ (by decide))]
    by_cases hn : n / 64 = clientId.toNat / 64
    · have hn' : n / 64 < defaultBitmapWords := hn ▸ hm
      have hidx : (⟨n / 64, hn'⟩ : Fin defaultBitmapWords) = ⟨clientId.toNat / 64, hm⟩ :=
        Fin.ext hn
      have hiff : n % 64 ≠ clientId.toNat % 64 ↔ n ≠ clientId.toNat := by omega
      rw [if_pos hn, bit_of_lt hn', hidx, decide_eq_decide.mpr hiff]
    · have hne : n ≠ clientId.toNat := fun h => hn (by rw [h])
      rw [if_neg hn]
      simp [hne]
  · rw [dif_neg hm]
    by_cases hne : n = clientId.toNat
    · have hfalse : b.bit n = false := by
        rw [bit, dif_neg (hne ▸ hm)]
      simp [hfalse]
    · simp [hne]

lemma bit_new (n : ℕ) : new.bit n = false := by
  unfold bit new
  split
  · exact Nat.zero_testBit _
  · rfl

lemma bit_union (b other : ClientBitmap) (n : ℕ) :
    (b.union other).bit n = (b.bit n || other.bit n) := by
  unfold bit union
  split
  · rw [UInt64.toNat_or, Nat.testBit_or]
  · rfl

/-- A bitmap is empty if no position is set. -/
lemma isEmpty_iff (b : ClientBitmap) : b.isEmpty = true ↔ ∀ n, b.bit n = false := by
  rw [isEmpty, List.all_eq_true]
  constructor
  · intro h n
    unfold bit
    split
    · rename_i hlt
      have hzero := h ⟨n / 64, hlt⟩ (List.mem_finRange _)
      rw [beq_iff_eq] at hzero
      rw [hzero]
      exact Nat.zero_testBit _
    · rfl
  · intro h i _
    rw [beq_iff_eq, ← UInt64.toNat_inj]
    apply Nat.eq_of_testBit_eq
    intro j
    rw [UInt64.toNat_zero, Nat.zero_testBit]
    by_cases hj : j < 64
    · rw [← bit_word b i hj]
      exact h (i.val * 64 + j)
    · apply Nat.testBit_lt_two_pow
      exact lt_of_lt_of_le (b.words i).toNat_lt (Nat.pow_le_pow_right (by decide) (by omega))

/-! ## Iteration -/

/-- The set positions of a word from `i` on. -/
def wordBits (w : UInt64) (i : ℕ) : List ℕ := (List.range' i (64 - i)).filter w.toNat.testBit

/-- The ids of the bitmap in increasing order. -/
def ids (b : ClientBitmap) : List UInt32 :=
  (List.finRange defaultBitmapWords).flatMap fun i =>
    (wordBits (b.words i) 0).map fun j => UInt32.ofNat (i.val * 64) + UInt32.ofNat j

/-- The lowest set bit is not among those that are clear. -/
lemma le_ctz {w : UInt64} {i : ℕ} (hw : w ≠ 0) (hlow : ∀ j < i, w.toNat.testBit j = false) :
    i ≤ w.toBitVec.ctz.toNat := by
  by_contra hlt
  have hbit := testBit_ctz hw
  rw [hlow _ (by omega)] at hbit
  exact absurd hbit (by decide)

/-- Up to its lowest set bit a word contributes nothing. -/
lemma wordBits_eq_cons {w : UInt64} {i : ℕ} (hw : w ≠ 0)
    (hlow : ∀ j < i, w.toNat.testBit j = false) :
    wordBits w i
      = w.toBitVec.ctz.toNat :: wordBits (w &&& (w - 1)) (w.toBitVec.ctz.toNat + 1) := by
  set t := w.toBitVec.ctz.toNat with ht
  have hbit : w.toNat.testBit t = true := testBit_ctz hw
  have ht64 : t < 64 := ctz_lt hw
  have hit : i ≤ t := le_ctz hw hlow
  -- cut the positions at the lowest set bit
  have hsplit : List.range' i (64 - i)
      = List.range' i (t - i) ++ t :: List.range' (t + 1) (64 - (t + 1)) := by
    have h1 : 64 - i = (t - i) + (64 - (t + 1) + 1) := by omega
    rw [h1, ← List.range'_append_1, List.range'_succ]
    have h2 : i + (t - i) = t := by omega
    rw [h2]
  have hbelow : (List.range' i (t - i)).filter w.toNat.testBit = [] := by
    rw [List.filter_eq_nil_iff]
    intro j hj
    rw [List.mem_range'_1] at hj
    rw [testBit_of_lt_ctz (show j < w.toBitVec.ctz.toNat by omega)]
    decide
  have habove : (List.range' (t + 1) (64 - (t + 1))).filter w.toNat.testBit
      = wordBits (w &&& (w - 1)) (t + 1) := by
    apply List.filter_congr
    intro j hj
    rw [List.mem_range'_1] at hj
    rw [testBit_clear_lowest hw, ← ht]
    simp [show j ≠ t by omega]
  rw [wordBits, hsplit, List.filter_append, hbelow, List.nil_append,
    List.filter_cons_of_pos hbit, habove]

/-- The bit loop visits the set positions in order. -/
lemma forEachBit_eq {σ : Type*} (f : σ → UInt32 → σ) (baseId : UInt32) :
    ∀ (fuel : ℕ) (w : UInt64) (i : ℕ) (s : σ), 64 - i ≤ fuel →
      (∀ j < i, w.toNat.testBit j = false) →
      forEachBit f baseId fuel w s
        = ((wordBits w i).map fun j => baseId + UInt32.ofNat j).foldl f s := by
  intro fuel
  induction fuel with
  | zero =>
    intro w i s hfuel _
    have hi : 64 - i = 0 := by omega
    simp [forEachBit, wordBits, hi]
  | succ fuel ih =>
    intro w i s hfuel hlow
    by_cases hw : w = 0
    · have hnil : wordBits w i = [] := by
        rw [wordBits, List.filter_eq_nil_iff]
        intro j _
        rw [hw, UInt64.toNat_zero, Nat.zero_testBit]
        decide
      rw [forEachBit, if_pos hw, hnil]
      rfl
    · rw [forEachBit, if_neg hw, wordBits_eq_cons hw hlow]
      -- each turn visits the lowest set bit and clears it
      have ht64 := ctz_lt hw
      have hit := le_ctz hw hlow
      refine ih _ _ _ (by omega) ?_
      intro j hj
      rw [testBit_clear_lowest hw]
      by_cases hjt : j = w.toBitVec.ctz.toNat
      · simp [hjt]
      · rw [testBit_of_lt_ctz (show j < w.toBitVec.ctz.toNat by omega)]
        rfl

/-- `for_each` calls the closure on the ids in turn. -/
lemma forEach_eq {σ : Type*} (b : ClientBitmap) (f : σ → UInt32 → σ) (s : σ) :
    b.forEach f s = b.ids.foldl f s := by
  rw [forEach, ids, List.foldl_flatMap]
  congr 1
  funext s i
  exact forEachBit_eq f _ 64 _ 0 s (by decide) (fun j hj => absurd hj (Nat.not_lt_zero j))

lemma toNat_id {i j : ℕ} (hi : i < defaultBitmapWords) (hj : j < 64) :
    (UInt32.ofNat (i * 64) + UInt32.ofNat j).toNat = i * 64 + j := by
  unfold defaultBitmapWords at hi
  rw [UInt32.toNat_add, UInt32.toNat_ofNat_of_lt' (by show i * 64 < 2 ^ 32; omega),
    UInt32.toNat_ofNat_of_lt' (by show j < 2 ^ 32; omega)]
  exact Nat.mod_eq_of_lt (by omega)

lemma mem_wordBits {w : UInt64} {j : ℕ} :
    j ∈ wordBits w 0 ↔ j < 64 ∧ w.toNat.testBit j = true := by
  rw [wordBits, List.mem_filter, List.mem_range'_1]
  constructor
  · rintro ⟨⟨-, hj⟩, hbit⟩
    exact ⟨by omega, hbit⟩
  · rintro ⟨hj, hbit⟩
    exact ⟨⟨Nat.zero_le _, by omega⟩, hbit⟩

/-- `for_each` visits exactly the members. -/
lemma mem_ids (b : ClientBitmap) (clientId : UInt32) :
    clientId ∈ b.ids ↔ b.contains clientId = true := by
  rw [contains_eq, ids, List.mem_flatMap]
  constructor
  · rintro ⟨i, -, hmem⟩
    rw [List.mem_map] at hmem
    obtain ⟨j, hj, rfl⟩ := hmem
    rw [mem_wordBits] at hj
    obtain ⟨hj64, hbit⟩ := hj
    rw [toNat_id i.isLt hj64, bit_word b i hj64]
    exact hbit
  · intro h
    have hlt : clientId.toNat / 64 < defaultBitmapWords := div_lt_words_iff.mpr (lt_of_bit h)
    have hj64 : clientId.toNat % 64 < 64 := Nat.mod_lt _ (by decide)
    rw [bit_of_lt hlt] at h
    refine ⟨⟨clientId.toNat / 64, hlt⟩, List.mem_finRange _, ?_⟩
    rw [List.mem_map]
    refine ⟨clientId.toNat % 64, mem_wordBits.mpr ⟨hj64, h⟩, ?_⟩
    rw [← UInt32.toNat_inj, toNat_id hlt hj64]
    omega

/-- `for_each` visits in increasing order, so no id twice. -/
lemma ids_increasing (b : ClientBitmap) : b.ids.Pairwise (· < ·) := by
  rw [ids, List.pairwise_flatMap]
  refine ⟨fun i _ => ?_, ?_⟩
  · rw [List.pairwise_map]
    have hsorted : (wordBits (b.words i) 0).Pairwise (· < ·) := by
      rw [wordBits]
      exact List.Pairwise.filter _ List.pairwise_lt_range'
    refine hsorted.imp_of_mem ?_
    intro j j' hj hj' hlt
    rw [UInt32.lt_iff_toNat_lt, toNat_id i.isLt (mem_wordBits.mp hj).1,
      toNat_id i.isLt (mem_wordBits.mp hj').1]
    omega
  · have hsorted : (List.finRange defaultBitmapWords).Pairwise (· < ·) :=
      List.pairwise_lt_finRange _
    refine hsorted.imp ?_
    intro i i' hlt x hx y hy
    obtain ⟨j, hj, rfl⟩ := List.mem_map.mp hx
    obtain ⟨j', hj', rfl⟩ := List.mem_map.mp hy
    have hj64 := (mem_wordBits.mp hj).1
    have hlt' : i.val < i'.val := hlt
    rw [UInt32.lt_iff_toNat_lt, toNat_id i.isLt hj64, toNat_id i'.isLt (mem_wordBits.mp hj').1]
    omega

lemma nodup_ids (b : ClientBitmap) : b.ids.Nodup := by
  apply b.ids_increasing.imp
  intro c c' hlt heq
  rw [heq, UInt32.lt_iff_toNat_lt] at hlt
  omega

lemma ids_eq_nil {b : ClientBitmap} (h : b.isEmpty = true) : b.ids = [] := by
  rw [List.eq_nil_iff_forall_not_mem]
  intro c hc
  rw [mem_ids, contains_eq, (isEmpty_iff b).mp h] at hc
  cases hc

end ClientBitmap
end ChainMarketPrice.Distribution
