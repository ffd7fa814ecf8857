import Mathlib.Order.Bounds.Basic
import ChainMarketPrice.CoreEngine.FixedPointOverflow
import ChainMarketPrice.CefiIngest.CheckedParsers
import ChainMarketPrice.CefiIngest.TimestampTheorems

/-!
# When the Coinbase parsers overflow

No parser reaches out of a slice. What may overflow are the integer fields, the nanoseconds of a
time, the fixed-point prices and sizes and the spread.
-/

namespace ChainMarketPrice.CefiIngest

open Checked FixedWidth
open CoreEngine (FixedPointFits parseFixedPoint8 yields_parseFixedPoint8)
open Text (AllDigits decimalValue isDigit quote)

variable {haystack needle src key payload : List UInt8}

/-! ## Fields -/

/-- Inside the haystack every access of the comparison is in range. -/
lemma checkedTest_eq {first last : UInt8} {s : ℕ} (hfirst : needle[0]? = some first)
    (hlast : needle[needle.length - 1]? = some last) (hs : s + needle.length ≤ haystack.length) :
    checkedTest haystack needle first last s
      = some (decide (haystack[s]? = needle[0]? ∧
          haystack[s + needle.length - 1]? = needle[needle.length - 1]? ∧
          (haystack.drop s).take needle.length = needle)) := by
  obtain ⟨hpos, -⟩ := List.getElem?_eq_some_iff.mp hfirst
  have hb : haystack[s]? = some haystack[s] := List.getElem?_eq_getElem (by omega)
  have he : haystack[s + needle.length - 1]? = some haystack[s + needle.length - 1] :=
    List.getElem?_eq_getElem (by omega)
  have hwindow : Checked.slice haystack s (s + needle.length)
      = some ((haystack.drop s).take needle.length) := by
    rw [Checked.slice, if_pos ⟨by omega, hs⟩, Nat.add_sub_cancel_left]
  unfold checkedTest
  dsimp only
  rw [hfirst, hlast, hb, he, hwindow]
  simp only [Option.bind_eq_bind, Option.bind_some, Option.some_inj]
  split
  · split
    · simp [*]
    · simp [*]
  · simp [*]

lemma checkedFindLoop_eq {first last : UInt8} (hfirst : needle[0]? = some first)
    (hlast : needle[needle.length - 1]? = some last) {left s : ℕ}
    (h : s + left + needle.length ≤ haystack.length + 1) :
    checkedFindLoop haystack needle first last left s
      = some (findLoop haystack needle left s) := by
  induction left generalizing s with
  | zero => rfl
  | succ left ih =>
    rw [checkedFindLoop, checkedTest_eq hfirst hlast (by omega), findLoop]
    simp only [Option.bind_eq_bind, Option.bind_some, decide_eq_true_eq]
    split
    · rfl
    · exact ih (by omega)

lemma checkedFindSubsequence_run (haystack needle : List UInt8) :
    (checkedFindSubsequence haystack needle).run = some (findSubsequence haystack needle) := by
  unfold checkedFindSubsequence findSubsequence
  dsimp only
  split
  · rfl
  · next hshort =>
    have hfirst : needle[0]? = some needle[0] := List.getElem?_eq_getElem (by omega)
    have hlast : needle[needle.length - 1]? = some needle[needle.length - 1] :=
      List.getElem?_eq_getElem (by omega)
    rw [hfirst, hlast]
    exact checkedFindLoop_eq hfirst hlast (by omega)

/-- The needle stands at offset `i` of the haystack. -/
def OccursAt (haystack needle : List UInt8) (i : ℕ) : Prop :=
  i + needle.length ≤ haystack.length ∧ (haystack.drop i).take needle.length = needle

/-- `haystack.windows(n)`. -/
def windows (n : ℕ) (haystack : List UInt8) : List (List UInt8) :=
  (List.range (haystack.length + 1 - n)).map fun i => (haystack.drop i).take n

lemma occursAt_iff_prefix (hne : needle ≠ []) {i : ℕ} :
    OccursAt haystack needle i ↔ needle <+: haystack.drop i := by
  unfold OccursAt
  rw [List.prefix_iff_eq_take, eq_comm (b := needle)]
  constructor
  · exact fun h => h.2
  · intro h
    exact ⟨add_length_le_of_prefix_drop hne (List.prefix_iff_eq_take.mpr h), h⟩

lemma findSubsequence_eq_some_iff (hne : needle ≠ []) {i : ℕ} :
    findSubsequence haystack needle = some i ↔ IsLeast {i | OccursAt haystack needle i} i := by
  rw [findSubsequence_of_firstAt hne]
  unfold FirstAt IsLeast lowerBounds
  simp only [Set.mem_ofPred_eq, occursAt_iff_prefix hne]
  refine and_congr_right fun _ => ⟨fun h j hj => ?_, fun h j hlt hj => ?_⟩
  · by_contra hlt
    exact h j (Nat.not_le.mp hlt) hj
  · exact absurd (h hj) (Nat.not_le.mpr hlt)

lemma findSubsequence_eq_none_iff (hne : needle ≠ []) :
    findSubsequence haystack needle = none ↔ ∀ i, ¬OccursAt haystack needle i := by
  constructor
  · intro hnone i hi
    -- the smallest of the offsets would have been found
    classical
    have hleast : IsLeast {i | OccursAt haystack needle i} (Nat.find ⟨i, hi⟩) :=
      ⟨Nat.find_spec ⟨i, hi⟩, fun j hj => Nat.find_min' ⟨i, hi⟩ hj⟩
    rw [← findSubsequence_eq_some_iff hne, hnone] at hleast
    cases hleast
  · intro hnever
    cases hfind : findSubsequence haystack needle with
    | none => rfl
    | some i => exact absurd ((findSubsequence_eq_some_iff hne).mp hfind).1 (hnever i)

/-- The windows that are the needle. -/
lemma getElem_windows (hne : needle ≠ []) {i : ℕ}
    (hi : i < (windows needle.length haystack).length) :
    (windows needle.length haystack)[i] = needle ↔ OccursAt haystack needle i := by
  have hpos : 0 < needle.length := List.length_pos_of_ne_nil hne
  unfold windows at hi
  rw [List.length_map, List.length_range] at hi
  simp only [windows, List.getElem_map, List.getElem_range]
  exact ⟨fun h => ⟨by omega, h⟩, fun h => h.2⟩

/-- The scan is the naive search: the first of the windows that is the needle. So it returns the
smallest offset of the needle, or `None` where there is none, and no access is out of range. -/
theorem findSubsequence_naive (haystack : List UInt8) (hne : needle ≠ []) :
    findSubsequence haystack needle = (windows needle.length haystack).findIdx? (· == needle) ∧
      (∀ i, findSubsequence haystack needle = some i ↔
        IsLeast {i | OccursAt haystack needle i} i) ∧
      (findSubsequence haystack needle = none ↔ ∀ i, ¬OccursAt haystack needle i) ∧
      (checkedFindSubsequence haystack needle).run = some (findSubsequence haystack needle) := by
  refine ⟨?_, fun _ => findSubsequence_eq_some_iff hne, findSubsequence_eq_none_iff hne,
    checkedFindSubsequence_run haystack needle⟩
  cases hfind : findSubsequence haystack needle with
  | none =>
    have hnever := (findSubsequence_eq_none_iff hne).mp hfind
    rw [eq_comm, List.findIdx?_eq_none_iff]
    intro window hwindow
    obtain ⟨i, hi, rfl⟩ := List.mem_iff_getElem.mp hwindow
    rw [beq_eq_false_iff_ne, Ne, getElem_windows hne]
    exact hnever i
  | some i =>
    obtain ⟨hoccurs, hleast⟩ := (findSubsequence_eq_some_iff hne).mp hfind
    have hinside := hoccurs.1
    have hi : i < (windows needle.length haystack).length := by
      unfold windows
      rw [List.length_map, List.length_range]
      omega
    rw [eq_comm, List.findIdx?_eq_some_iff_getElem]
    refine ⟨hi, ?_, fun j hj => ?_⟩
    · rw [beq_iff_eq, getElem_windows hne]
      exact hoccurs
    · rw [beq_iff_eq, getElem_windows hne]
      exact fun hearlier => absurd (hleast hearlier) (Nat.not_le.mpr hj)

theorem findSubsequence_naive_overlapping :
    findSubsequence [97, 97, 97, 98] [97, 97, 98]
      = (windows 3 [97, 97, 97, 98]).findIdx? (· == [97, 97, 98]) :=
  (findSubsequence_naive [97, 97, 97, 98] (show ([97, 97, 98] : List UInt8) ≠ [] by decide)).1

/-- An occurrence that is found lies inside. -/
lemma add_length_le_of_findSubsequence {pos : ℕ} (h : findSubsequence src key = some pos) :
    pos + key.length ≤ src.length := by
  have hne : key ≠ [] := by
    rintro rfl
    cases h
  exact add_length_le_of_prefix_drop hne ((findSubsequence_of_firstAt hne).mp h).1

lemma checkedAfterKey_run (src key : List UInt8) :
    (checkedAfterKey src key).run = some (afterKey src key) := by
  unfold checkedAfterKey afterKey
  rw [OptionT.run_bind, checkedFindSubsequence_run]
  cases hfind : findSubsequence src key with
  | none => rfl
  | some pos =>
    have hle := add_length_le_of_findSubsequence hfind
    have hslice : Checked.slice src (pos + key.length) src.length
        = some (src.drop (pos + key.length)) := by
      rw [Checked.slice, if_pos ⟨hle, le_refl _⟩, List.take_of_length_le (by simp)]
    show (Checked.slice src (pos + key.length) src.length >>= fun rest => some (some rest)) = _
    rw [hslice]
    rfl

/-- The position behind the blanks. -/
lemma behind_blanks (rest : List UInt8) :
    rest[(rest.takeWhile isBlank).length]? = (rest.dropWhile isBlank).head? ∧
      rest.drop ((rest.takeWhile isBlank).length + 1) = (rest.dropWhile isBlank).tail ∧
      rest.length = (rest.takeWhile isBlank).length + (rest.dropWhile isBlank).length := by
  have hsplit : rest.takeWhile isBlank ++ rest.dropWhile isBlank = rest :=
    List.takeWhile_append_dropWhile
  have hdrop : rest.drop (rest.takeWhile isBlank).length = rest.dropWhile isBlank := by
    have hleft : (rest.takeWhile isBlank ++ rest.dropWhile isBlank).drop
        (rest.takeWhile isBlank).length = rest.dropWhile isBlank := List.drop_left
    rw [hsplit] at hleft
    exact hleft
  refine ⟨?_, ?_, ?_⟩
  · rw [← hdrop, List.head?_drop]
  · rw [← hdrop, List.tail_drop]
  · have hlength := congrArg List.length hsplit
    rw [List.length_append] at hlength
    exact hlength.symm

/-- The loop over the string stops inside exactly if there is a closing quote. -/
lemma length_takeWhile_lt_iff (body : List UInt8) :
    (body.takeWhile (· != quote)).length < body.length ↔ quote ∈ body := by
  have hprefix : body.takeWhile (· != quote) <+: body := List.takeWhile_prefix _
  have hle := hprefix.length_le
  have hwhole : body.takeWhile (· != quote) = body ↔ quote ∉ body := by
    rw [List.takeWhile_eq_self_iff]
    constructor
    · intro hall hmem
      exact absurd (hall quote hmem) (by decide)
    · intro hnot b hb
      rw [bne_iff_ne]
      rintro rfl
      exact hnot hb
  constructor
  · intro hlt
    by_contra hnot
    rw [hwhole.mpr hnot] at hlt
    exact lt_irrefl _ hlt
  · intro hmem
    refine lt_of_le_of_ne hle fun hlen => ?_
    exact hwhole.mp (List.IsPrefix.eq_of_length hprefix hlen) hmem

/-- The loops of the string field stay inside the bytes behind the key. -/
lemma checkedExtractJsonStrField_run (src key : List UInt8) :
    (checkedExtractJsonStrField src key).run = some (extractJsonStrField src key) := by
  unfold checkedExtractJsonStrField extractJsonStrField
  rw [ExceptT.run_mk, checkedAfterKey_run]
  cases afterKey src key with
  | none => rfl
  | some rest =>
    obtain ⟨hat, hbehind, hlength⟩ := behind_blanks rest
    simp only [Option.bind_eq_bind, Option.bind_some]
    rw [hat, hbehind, hlength]
    cases htail : rest.dropWhile isBlank with
    | nil => rfl
    | cons b body =>
      have hinside := length_takeWhile_lt_iff body
      simp only [List.head?_cons, Option.some_inj, List.tail_cons, List.length_cons]
      by_cases hb : b = quote
      · rw [if_pos hb, if_pos hb, quoted]
        by_cases hclosed : quote ∈ body
        · have hlt := hinside.mpr hclosed
          have hslice : Checked.slice rest ((rest.takeWhile isBlank).length + 1)
              ((rest.takeWhile isBlank).length + 1 + (body.takeWhile (· != quote)).length)
              = some (body.takeWhile (· != quote)) := by
            rw [htail, List.length_cons] at hlength
            rw [htail, List.tail_cons] at hbehind
            rw [Checked.slice, if_pos ⟨by omega, by omega⟩, hbehind, Nat.add_sub_cancel_left,
              (List.prefix_iff_eq_take.mp (List.takeWhile_prefix _)).symm]
          rw [if_pos hclosed]
          refine (if_pos (by omega)).trans ?_
          rw [hslice]
          rfl
        · -- the loop runs to the end and finds no quote
          have hge := mt hinside.mp hclosed
          rw [if_neg hclosed]
          exact if_neg (by omega)
      · rw [if_neg hb, if_neg hb]
        rfl

/-- The digits of an integer field, none if it is missing. -/
def fieldDigits (src key : List UInt8) : List UInt8 :=
  (afterKey src key).elim [] fun rest =>
    (rest.dropWhile fun b => isBlank b || b == quote).takeWhile isDigit

/-- The number of the integer field is below `2 ^ 64`. -/
def IntFits (src key : List UInt8) : Prop := decimalValue (fieldDigits src key) < 2 ^ 64

lemma yields_checkedDigit {x : ℕ} (hx : x < 2 ^ 64) (b : UInt8) :
    Yields (checkedDigit (UInt64.ofNat x) b) (x * 10 + (b - '0'.toUInt8).toNat < 2 ^ 64)
      (UInt64.ofNat (x * 10 + (b - '0'.toUInt8).toNat)) := by
  unfold checkedDigit
  rw [toNat_ofNat_of_lt hx]
  have hsum : x * 10 < 2 ^ 64 → Yields (u64 ((UInt64.ofNat (x * 10)).toNat
      + (b - '0'.toUInt8).toNat)) (x * 10 + (b - '0'.toUInt8).toNat < 2 ^ 64)
      (UInt64.ofNat (x * 10 + (b - '0'.toUInt8).toNat)) := by
    intro htens
    rw [toNat_ofNat_of_lt htens]
    exact yields_u64 _
  refine ((yields_u64 _).bind hsum).congr ?_
  omega

lemma yields_foldlM_checkedDigit {x : ℕ} (hx : x < 2 ^ 64) (digits : List UInt8) :
    Yields (digits.foldlM checkedDigit (UInt64.ofNat x))
      (x * 10 ^ digits.length + decimalValue digits < 2 ^ 64)
      (UInt64.ofNat (x * 10 ^ digits.length + decimalValue digits)) := by
  induction digits generalizing x with
  | nil =>
    have hvalue : x * 10 ^ ([] : List UInt8).length + decimalValue [] = x := by
      simp [decimalValue]
    rw [hvalue]
    exact (Yields.of_eq rfl).congr ⟨fun _ => hx, fun _ => trivial⟩
  | cons b digits ih =>
    have hvalue : x * 10 ^ (b :: digits).length + decimalValue (b :: digits)
        = (x * 10 + (b - '0'.toUInt8).toNat) * 10 ^ digits.length + decimalValue digits := by
      rw [← Text.foldl_decimal, ← Text.foldl_decimal, List.foldl_cons]
    -- a number that overflows on the way does not come back below the bound
    have hgrows : x * 10 + (b - '0'.toUInt8).toNat
        ≤ (x * 10 + (b - '0'.toUInt8).toNat) * 10 ^ digits.length :=
      Nat.le_mul_of_pos_right _ (Nat.one_le_pow _ _ (by decide))
    rw [List.foldlM_cons, hvalue]
    refine ((yields_checkedDigit hx b).bind fun hdigit => ih hdigit).congr ?_
    omega

lemma yields_extractJsonIntField (src key : List UInt8) :
    Yields (checkedExtractJsonIntField src key).run (IntFits src key)
      (extractJsonIntField src key) := by
  unfold checkedExtractJsonIntField extractJsonIntField IntFits fieldDigits
  rw [OptionT.run_bind, checkedAfterKey_run]
  cases afterKey src key with
  | none =>
    exact (Yields.of_eq rfl).congr ⟨fun _ => by decide, fun _ => trivial⟩
  | some rest =>
    show Yields (OptionT.run (if ((rest.dropWhile fun b => isBlank b || b == quote).takeWhile
        isDigit).isEmpty then failure else liftM (((rest.dropWhile fun b =>
        isBlank b || b == quote).takeWhile isDigit).foldlM checkedDigit 0))) _ _
    dsimp only [Option.elim_some]
    generalize (rest.dropWhile fun b => isBlank b || b == quote).takeWhile isDigit = digits
    cases digits with
    | nil => exact (Yields.of_eq rfl).congr ⟨fun _ => by decide, fun _ => trivial⟩
    | cons b digits =>
      have hfold := yields_foldlM_checkedDigit (by decide : 0 < 2 ^ 64) (b :: digits)
      rw [Nat.zero_mul, Nat.zero_add] at hfold
      rw [digitsValue_eq]
      exact hfold.map some

/-! ## Timestamps -/

lemma toNat_digit_lt {b : UInt8} (hb : isDigit b = true) : (b - '0'.toUInt8).toNat < 10 := by
  have hlt := Text.decimalValue_digit_lt b hb
  simpa [decimalValue] using hlt

/-- A digit for which there is room. -/
lemma checkedDigit_eq {num : UInt64} {b : UInt8} (hb : isDigit b = true)
    (h : num.toNat * 10 + 9 < 2 ^ 64) :
    checkedDigit num b = some (num * 10 + (b - '0'.toUInt8).toUInt64) ∧
      (num * 10 + (b - '0'.toUInt8).toUInt64).toNat = num.toNat * 10 + (b - '0'.toUInt8).toNat := by
  have hdigit := toNat_digit_lt hb
  have hsum : (num * 10 + (b - '0'.toUInt8).toUInt64).toNat
      = num.toNat * 10 + (b - '0'.toUInt8).toNat := by
    rw [UInt64.toNat_add, UInt64.toNat_mul, UInt8.toNat_toUInt64]
    show (num.toNat * 10 % 2 ^ 64 + (b - '0'.toUInt8).toNat) % 2 ^ 64 = _
    omega
  have hyields := yields_checkedDigit num.toNat_lt b
  rw [UInt64.ofNat_toNat] at hyields
  refine ⟨?_, hsum⟩
  rw [hyields.returns (by omega), ← hsum, UInt64.ofNat_toNat]

/-- Digits that are few enough fit. -/
lemma checkedNum_run {bytes : List UInt8} {v : UInt64}
    (h : (v.toNat + 1) * 10 ^ bytes.length ≤ 2 ^ 64) :
    (checkedNum bytes v).run
      = some (if bytes.all isDigit then
          some (bytes.foldl (fun num b => num * 10 + (b - '0'.toUInt8).toUInt64) v)
        else none) := by
  induction bytes generalizing v with
  | nil => rfl
  | cons b bytes ih =>
    have hpow : 1 ≤ 10 ^ bytes.length := Nat.one_le_pow _ _ (by decide)
    rw [List.length_cons, pow_succ, Nat.mul_comm (10 ^ bytes.length) 10, ← Nat.mul_assoc] at h
    have hroom : (v.toNat + 1) * 10 ≤ 2 ^ 64 := (Nat.le_mul_of_pos_right _ hpow).trans h
    rw [checkedNum]
    by_cases hb : isDigit b = true
    · have hv : v.toNat * 10 + 9 < 2 ^ 64 := by omega
      obtain ⟨hdigit, hvalue⟩ := checkedDigit_eq hb hv
      have hlt := toNat_digit_lt hb
      have hnext : ((v * 10 + (b - '0'.toUInt8).toUInt64).toNat + 1) * 10 ^ bytes.length
          ≤ 2 ^ 64 := by
        rw [hvalue]
        exact (Nat.mul_le_mul_right _ (by omega)).trans h
      rw [if_pos hb, hdigit, List.all_cons, hb, Bool.true_and, List.foldl_cons, ← ih hnext]
      rfl
    · rw [if_neg hb, List.all_cons, if_neg (by simp [hb])]
      rfl

lemma checkedField_run {s : List UInt8} {start stop : ℕ} (hle : start ≤ stop)
    (hstop : stop ≤ s.length) (hshort : stop - start ≤ 4) :
    (checkedField s start stop).run = some (num (slice s start stop)) := by
  have hslice : Checked.slice s start stop = some (slice s start stop) := if_pos ⟨hle, hstop⟩
  have hroom : ((0 : UInt64).toNat + 1) * 10 ^ (slice s start stop).length ≤ 2 ^ 64 := by
    rw [length_slice hstop]
    have hpow : 10 ^ (stop - start) ≤ 10 ^ 4 := Nat.pow_le_pow_right (by decide) hshort
    show (0 + 1) * _ ≤ _
    omega
  unfold checkedField
  rw [hslice]
  exact checkedNum_run hroom

/-- The nine digits that are kept fit. -/
lemma checkedFractionLoop_run (rest : List UInt8) {fracNs : UInt64} {digits : ℕ}
    (hdigits : digits ≤ 9) (h : fracNs.toNat < 10 ^ digits) :
    (checkedFractionLoop rest fracNs digits).run = some (fractionLoop rest fracNs digits) ∧
      ∀ f n tail, fractionLoop rest fracNs digits = some (f, n, tail) →
        n ≤ 9 ∧ f.toNat < 10 ^ n := by
  induction rest generalizing fracNs digits with
  | nil =>
    refine ⟨rfl, ?_⟩
    intro f n tail hloop
    cases hloop
    exact ⟨hdigits, h⟩
  | cons b rest ih =>
    rw [checkedFractionLoop, fractionLoop]
    by_cases hz : b = 'Z'.toUInt8
    · rw [if_pos hz, if_pos hz]
      refine ⟨rfl, ?_⟩
      intro f n tail hloop
      cases hloop
      exact ⟨hdigits, h⟩
    · rw [if_neg hz, if_neg hz]
      by_cases hb : isDigit b = true
      · rw [if_pos hb, if_pos hb]
        by_cases hroom : digits < 9
        · have hpow : 10 ^ digits ≤ 10 ^ 8 := Nat.pow_le_pow_right (by decide) (by omega)
          have hsmall : fracNs.toNat * 10 + 9 < 2 ^ 64 := by omega
          obtain ⟨hdigit, hvalue⟩ := checkedDigit_eq hb hsmall
          have hlt := toNat_digit_lt hb
          have hnext : (fracNs * 10 + (b - '0'.toUInt8).toUInt64).toNat < 10 ^ (digits + 1) := by
            rw [hvalue, pow_succ]
            omega
          rw [if_pos hroom, if_pos hroom, hdigit]
          exact ih hroom hnext
        · -- digits behind the ninth are skipped
          rw [if_neg hroom, if_neg hroom]
          exact ih hdigits h
      · rw [if_neg hb, if_neg hb]
        refine ⟨rfl, ?_⟩
        intro f n tail hloop
        cases hloop

lemma checkedPad_eq {n x : ℕ} (h : x * 10 ^ n < 2 ^ 64) :
    checkedPad n (UInt64.ofNat x) = some (UInt64.ofNat (x * 10 ^ n)) := by
  induction n generalizing x with
  | zero =>
    rw [pow_zero, mul_one]
    rfl
  | succ n ih =>
    have hpow : 1 ≤ 10 ^ n := Nat.one_le_pow _ _ (by decide)
    rw [pow_succ, Nat.mul_comm (10 ^ n) 10, ← Nat.mul_assoc] at h ⊢
    have htens : x * 10 < 2 ^ 64 := (Nat.le_mul_of_pos_right _ hpow).trans_lt h
    have hx : x < 2 ^ 64 := by omega
    rw [checkedPad, toNat_ofNat_of_lt hx, u64, if_pos htens]
    exact ih h

lemma checkedFraction_run {s : List UInt8} (hlen : 20 ≤ s.length) :
    (checkedFraction s).run = some (fraction (s.drop 19)) := by
  have hget : s[19]? = some s[19] := List.getElem?_eq_getElem (by omega)
  have hdrop := cons_drop hget
  unfold checkedFraction
  rw [hget, ← hdrop, fraction]
  show (OptionT.run (if s[19] = '.'.toUInt8 then _ else _)) = _
  by_cases hpoint : s[19] = '.'.toUInt8
  · have hzero : (0 : UInt64).toNat < 10 ^ 0 := by decide
    obtain ⟨hrun, hbound⟩ := checkedFractionLoop_run (s.drop 20) (Nat.zero_le 9) hzero
    rw [if_pos hpoint, if_pos hpoint, OptionT.run_bind, hrun]
    cases hloop : fractionLoop (s.drop 20) 0 0 with
    | none => rfl
    | some result =>
      obtain ⟨f, n, tail⟩ := result
      obtain ⟨hn, hf⟩ := hbound f n tail hloop
      have hfits : f.toNat * 10 ^ (9 - n) < 2 ^ 64 := by
        have hpow : 10 ^ n * 10 ^ (9 - n) = 10 ^ 9 := by
          rw [← pow_add, Nat.add_sub_cancel' hn]
        have hlt : f.toNat * 10 ^ (9 - n) < 10 ^ n * 10 ^ (9 - n) :=
          Nat.mul_lt_mul_of_pos_right hf (Nat.pow_pos (by decide))
        omega
      have hpad := checkedPad_eq hfits
      rw [← repeat_mul_ten, UInt64.ofNat_toNat] at hpad
      show (liftM (checkedPad (9 - n) f) >>= fun fracNs => pure (fracNs, tail) :
        OptionT Option (UInt64 × List UInt8)).run = _
      rw [hpad]
      rfl
  · -- no fraction
    rw [if_neg hpoint, if_neg hpoint]
    rfl

lemma checkedShape_eq {s : List UInt8} {shape : List (ℕ × UInt8)}
    (h : ∀ p ∈ shape, p.1 < s.length) :
    checkedShape s shape = some (shape.all fun p => s[p.1]? == some p.2) := by
  induction shape with
  | nil => rfl
  | cons p shape ih =>
    rw [List.forall_mem_cons] at h
    have hget : s[p.1]? = some s[p.1] := List.getElem?_eq_getElem h.1
    rw [checkedShape, hget, List.all_cons, hget]
    simp only [Option.bind_eq_bind, Option.bind_some, Option.some_beq_some]
    split
    · next heq => rw [ih h.2, beq_iff_eq.mpr heq, Bool.true_and]
    · next hne => rw [beq_eq_false_iff_ne.mpr hne, Bool.false_and]

lemma i64_eq {x : ℤ} (h : -10 ^ 18 ≤ x ∧ x ≤ 10 ^ 18) : i64 x = some x := if_pos (by omega)

/-- A number far inside `i64` is passed on. -/
lemma i64_bind {x : ℤ} (f : ℤ → Option ℤ) (h : -10 ^ 18 ≤ x ∧ x ≤ 10 ^ 18) :
    (i64 x).bind f = f x := by
  rw [i64_eq h, Option.bind_some]

/-- The calendar arithmetic of a four-digit year stays far inside `i64`. -/
lemma checkedDaysFromCivil_eq {y m d : ℤ} (hy : 0 ≤ y ∧ y < 10 ^ 4) (hm : 1 ≤ m ∧ m ≤ 12)
    (hd : 1 ≤ d ∧ d ≤ 31) :
    checkedDaysFromCivil y m d = some (daysFromCivil y m d) ∧ daysFromCivil y m d < 10 ^ 7 := by
  have hyear : (if m ≤ 2 then i64 (y - 1) else some y) = some (if m ≤ 2 then y - 1 else y) := by
    split
    · exact i64_eq (by omega)
    · rfl
  have hbounds : -1 ≤ (if m ≤ 2 then y - 1 else y) ∧ (if m ≤ 2 then y - 1 else y) < 10 ^ 4 := by
    split
    · omega
    · omega
  unfold checkedDaysFromCivil daysFromCivil
  simp only [Option.bind_eq_bind]
  rw [hyear, Option.bind_some]
  generalize (if m ≤ 2 then y - 1 else y) = y' at hbounds
  have hbase : (if y' ≥ 0 then some y' else i64 (y' - 399))
      = some (if y' ≥ 0 then y' else y' - 399) := by
    split
    · rfl
    · exact i64_eq (by omega)
  rw [hbase, Option.bind_some, era_eq]
  -- the quotients, each by its bounds only
  have hera : -1 ≤ y' / 400 ∧ y' / 400 ≤ 25 ∧ 0 ≤ y' - y' / 400 * 400 := by omega
  generalize y' / 400 = era at hera
  have hmp : 0 ≤ (m + 9).tmod 12 ∧ (m + 9).tmod 12 < 12 := by
    rw [Int.tmod_eq_emod_of_nonneg (by omega)]
    omega
  have hmonths : 0 ≤ (153 * (m + 9).tmod 12 + 2).tdiv 5 ∧
      (153 * (m + 9).tmod 12 + 2).tdiv 5 ≤ 10 ^ 3 := by
    rw [Int.tdiv_eq_ediv_of_nonneg (by omega)]
    omega
  have hleaps : 0 ≤ (y' - era * 400).tdiv 4 ∧ (y' - era * 400).tdiv 4 ≤ 10 ^ 4 := by
    rw [Int.tdiv_eq_ediv_of_nonneg (by omega)]
    omega
  have hcommon : 0 ≤ (y' - era * 400).tdiv 100 ∧ (y' - era * 400).tdiv 100 ≤ 10 ^ 4 := by
    rw [Int.tdiv_eq_ediv_of_nonneg (by omega)]
    omega
  -- the year of the era, and the days before the month, counted from March
  rw [i64_bind _ (by omega), i64_bind _ (by omega), i64_bind _ (by omega)]
  rw [i64_bind _ (by omega), i64_bind _ (by omega)]
  generalize (153 * (m + 9).tmod 12 + 2).tdiv 5 = months at hmonths
  generalize (y' - era * 400).tdiv 4 = leaps at hleaps
  generalize (y' - era * 400).tdiv 100 = common at hcommon
  rw [i64_bind _ (by omega), i64_bind _ (by omega), i64_bind _ (by omega), i64_bind _ (by omega),
    i64_bind _ (by omega), i64_bind _ (by omega), i64_bind _ (by omega), i64_bind _ (by omega),
    i64_eq (by omega)]
  refine ⟨rfl, ?_⟩
  omega

lemma yields_add {a b : ℕ} (ha : a < 2 ^ 64) (hb : b < 2 ^ 64) :
    Yields (u64 ((UInt64.ofNat a).toNat + (UInt64.ofNat b).toNat)) (a + b < 2 ^ 64)
      (UInt64.ofNat (a + b)) := by
  rw [toNat_ofNat_of_lt ha, toNat_ofNat_of_lt hb]
  exact yields_u64 _

lemma yields_add_word {a : ℕ} (ha : a < 2 ^ 64) (word : UInt64) :
    Yields (u64 ((UInt64.ofNat a).toNat + word.toNat)) (a + word.toNat < 2 ^ 64)
      (UInt64.ofNat (a + word.toNat)) := by
  rw [toNat_ofNat_of_lt ha]
  exact yields_u64 _

lemma yields_mul {a : ℕ} (ha : a < 2 ^ 64) (n : ℕ) :
    Yields (u64 ((UInt64.ofNat a).toNat * n)) (a * n < 2 ^ 64) (UInt64.ofNat (a * n)) := by
  rw [toNat_ofNat_of_lt ha]
  exact yields_u64 _

/-- The parts of the sum are below the whole, so only the whole has to fit. -/
lemma yields_checkedNanos {days : ℤ} (hdays : 0 ≤ days) (hlt : days < 10 ^ 7)
    (hh mm ss fracNs : UInt64) :
    Yields (checkedNanos days hh mm ss fracNs)
      ((days.toNat * 86400 + hh.toNat * 3600 + mm.toNat * 60 + ss.toNat) * 10 ^ 9
        + fracNs.toNat < 2 ^ 64)
      ((UInt64.ofInt days * 86400 + hh * 3600 + mm * 60 + ss) * 1000000000 + fracNs) := by
  have hday : (UInt64.ofInt days).toNat = days.toNat := by
    rw [UInt64.ofInt, UInt64.toNat_ofNat']
    omega
  have hvalue := nanos_eq hdays hh.toNat mm.toNat ss.toNat fracNs.toNat
  simp only [UInt64.ofNat_toNat] at hvalue
  unfold checkedNanos
  rw [hday, hvalue]
  refine ((yields_u64 _).bind fun hofDays => (yields_u64 _).bind fun hofHours =>
    (yields_add hofDays hofHours).bind fun hsum => (yields_u64 _).bind fun hofMinutes =>
    (yields_add hsum hofMinutes).bind fun hsum => (yields_add_word hsum ss).bind fun hsecs =>
    (yields_mul hsecs 1000000000).bind fun hnanos => yields_add_word hnanos fracNs).congr ?_
  omega

/-- The time that a timestamp gives is below `2 ^ 64` nanoseconds. -/
def TimeFits (s : List UInt8) : Prop :=
  ∀ (f : IsoFields) (tail rest : List UInt8) (nanos : ℕ), s = f.text tail →
    FractionText tail nanos rest → 0 ≤ f.days → f.nanos f.days.toNat nanos < 2 ^ 64

/-- The conversions of a timestamp, with the sum at the end as its exact value: `q` holds of it
whenever it is reached. -/
def AtSum (s : List UInt8) (q : ℕ → Prop) : Prop :=
  ∀ y, num (slice s 0 4) = some y → ∀ m, num (slice s 5 7) = some m →
    ∀ d, num (slice s 8 10) = some d → ∀ hh, num (slice s 11 13) = some hh →
    ∀ mm, num (slice s 14 16) = some mm → ∀ ss, num (slice s 17 19) = some ss →
    ¬ (m < 1 ∨ 12 < m ∨ d < 1 ∨ 31 < d ∨ hh > 23 ∨ mm > 59 ∨ ss > 60) →
    ∀ frac, fraction (s.drop 19) = some frac → ¬ frac.2.head? ≠ some 'Z'.toUInt8 →
    ¬ daysFromCivil y.toNat m.toNat d.toNat < 0 →
    q (((daysFromCivil y.toNat m.toNat d.toNat).toNat * 86400 + hh.toNat * 3600 + mm.toNat * 60
      + ss.toNat) * 10 ^ 9 + frac.1.toNat)

/-- The fields have the bounds that the calendar arithmetic needs. -/
lemma bounds_of_range {s : List UInt8} (hlen : 20 ≤ s.length) {y m d hh mm ss : UInt64}
    (hy : num (slice s 0 4) = some y)
    (hrange : ¬ (m < 1 ∨ 12 < m ∨ d < 1 ∨ 31 < d ∨ hh > 23 ∨ mm > 59 ∨ ss > 60)) :
    y.toNat < 10 ^ 4 ∧ (1 ≤ m.toNat ∧ m.toNat ≤ 12) ∧ 1 ≤ d.toNat ∧ d.toNat ≤ 31 := by
  obtain ⟨n, hn, -, rfl⟩ := (num_eq_some_iff (length_slice (by omega))).mp hy
  rw [toNat_ofNat_small hn]
  simp only [gt_iff_lt, UInt64.lt_iff_toNat_lt] at hrange
  refine ⟨hn, ⟨?_, ?_⟩, ?_, ?_⟩
  · by_contra h
    exact hrange (.inl (Nat.not_le.mp h))
  · by_contra h
    exact hrange (.inr (.inl (Nat.not_le.mp h)))
  · by_contra h
    exact hrange (.inr (.inr (.inl (Nat.not_le.mp h))))
  · by_contra h
    exact hrange (.inr (.inr (.inr (.inl (Nat.not_le.mp h)))))

/-- The parser without checks, each early end as a branch. -/
lemma parseIso8601UtcNs_eq (s : List UInt8) :
    parseIso8601UtcNs s =
      if (!hasIsoShape s) = true then none else
      num (slice s 0 4) >>= fun y => num (slice s 5 7) >>= fun m => num (slice s 8 10) >>= fun d =>
      num (slice s 11 13) >>= fun hh => num (slice s 14 16) >>= fun mm =>
      num (slice s 17 19) >>= fun ss =>
      if m < 1 ∨ 12 < m ∨ d < 1 ∨ 31 < d ∨ hh > 23 ∨ mm > 59 ∨ ss > 60 then none else
      fraction (s.drop 19) >>= fun frac =>
      if frac.2.head? ≠ some 'Z'.toUInt8 then none else
      if daysFromCivil y.toNat m.toNat d.toNat < 0 then none else
      some ((UInt64.ofInt (daysFromCivil y.toNat m.toNat d.toNat) * 86400 + hh * 3600 + mm * 60
        + ss) * 1000000000 + frac.1) := rfl

lemma yields_steps {s : List UInt8} (hlen : 20 ≤ s.length) :
    Yields (checkedParseIso8601UtcNs s).run (hasIsoShape s = true → AtSum s (· < 2 ^ 64))
      (parseIso8601UtcNs s) := by
  have hshape : checkedShape s isoShape = some (hasIsoShape s) := by
    have hinside : ∀ p ∈ isoShape, p.1 < s.length := by
      unfold isoShape
      simp only [List.forall_mem_cons]
      refine ⟨?_, ?_, ?_, ?_, ?_, fun p hp => absurd hp List.not_mem_nil⟩
      all_goals omega
    rw [checkedShape_eq hinside]
    simp [hasIsoShape, isoShape, hlen, Bool.and_assoc]
  have hfield {start stop : ℕ} (hle : start ≤ stop) (hstop : stop ≤ 20) (hshort : stop - start ≤ 4) :
      Yields (checkedField s start stop).run True (num (slice s start stop)) :=
    Yields.of_eq (checkedField_run hle (by omega) hshort)
  unfold checkedParseIso8601UtcNs
  rw [if_neg (by omega), parseIso8601UtcNs_eq]
  apply Yields.congr
  · apply Yields.liftThen (Yields.of_eq hshape)
    intro _
    apply Yields.leave
    intro hshaped
    apply Yields.andThen (hfield (by decide) (by decide) (by decide))
    intro _ y hy
    apply Yields.andThen (hfield (by decide) (by decide) (by decide))
    intro _ m hm
    apply Yields.andThen (hfield (by decide) (by decide) (by decide))
    intro _ d hd
    apply Yields.andThen (hfield (by decide) (by decide) (by decide))
    intro _ hh hhh
    apply Yields.andThen (hfield (by decide) (by decide) (by decide))
    intro _ mm hmm
    apply Yields.andThen (hfield (by decide) (by decide) (by decide))
    intro _ ss hss
    apply Yields.leave
    intro hrange
    apply Yields.andThen (Yields.of_eq (checkedFraction_run hlen))
    intro _ frac hfrac
    apply Yields.leave
    intro hzulu
    -- behind the range checks the calendar arithmetic cannot overflow, only the sum can
    obtain ⟨hyear, hmonth, hday⟩ := bounds_of_range hlen hy hrange
    obtain ⟨hdays, hlt⟩ := checkedDaysFromCivil_eq (y := y.toNat) (m := m.toNat) (d := d.toNat)
      (by omega) (by omega) (by omega)
    apply Yields.liftThen (Yields.of_eq hdays)
    intro _
    apply Yields.leave
    intro hpast
    exact (yields_checkedNanos (Int.not_lt.mp hpast) hlt hh mm ss frac.1).lift
  · unfold AtSum
    simp only [true_and, Bool.not_eq_true', Bool.not_eq_false]

lemma IsoFields.toNat_fields (f : IsoFields) :
    (UInt64.ofNat f.year).toNat = f.year ∧ (UInt64.ofNat f.month).toNat = f.month ∧
      (UInt64.ofNat f.day).toNat = f.day ∧ (UInt64.ofNat f.hour).toNat = f.hour ∧
      (UInt64.ofNat f.minute).toNat = f.minute ∧ (UInt64.ofNat f.second).toNat = f.second := by
  obtain ⟨hyear, hmonth, hday, hhour, hminute, hsecond⟩ := f.lt_ten_pow
  refine ⟨?_, ?_, ?_, ?_, ?_, ?_⟩
  all_goals exact toNat_ofNat_of_lt (by omega)

/-- The sum is reached for the texts of fields, with their nanoseconds. -/
lemma atSum_iff {s : List UInt8} {q : ℕ → Prop} :
    (hasIsoShape s = true → AtSum s q) ↔
      ∀ (f : IsoFields) (tail rest : List UInt8) (nanos : ℕ), s = f.text tail →
        FractionText tail nanos rest → 0 ≤ f.days → q (f.nanos f.days.toNat nanos) := by
  constructor
  · rintro hall f tail rest nanos rfl htext hdays
    obtain ⟨hshape, hy, hm, hd, hhh, hmm, hss, hfrac⟩ := f.steps_text htext
    obtain ⟨hyear, hmonth, hday, hhour, hminute, hsecond⟩ := f.toNat_fields
    obtain ⟨-, hmonth', hday', hhour', hminute', hsecond'⟩ := f.lt_ten_pow
    -- on the text of fields every step succeeds, with the fields themselves
    have hrange := (range_iff hmonth' hday' hhour' hminute' hsecond').mpr
      ⟨f.month_pos, f.month_le, f.day_pos, f.day_le, f.hour_le, f.minute_le, f.second_le⟩
    have hpast : ¬ daysFromCivil (UInt64.ofNat f.year).toNat (UInt64.ofNat f.month).toNat
        (UInt64.ofNat f.day).toNat < 0 := by
      rw [hyear, hmonth, hday]
      exact Int.not_lt.mpr hdays
    have hreached := hall hshape _ hy _ hm _ hd _ hhh _ hmm _ hss hrange _ hfrac
      (not_not.mpr rfl) hpast
    have hnanos := htext.lt
    rw [hyear, hmonth, hday, hhour, hminute, hsecond, toNat_ofNat_of_lt (by omega)] at hreached
    exact hreached
  · intro hall hshape y hy m hm d hd hh hhh mm hmm ss hss hrange frac hfrac hzulu hpast
    -- all steps succeeded, so the input is the text of some fields, and these are what was read
    have hparse := parse_steps.mpr ⟨hshape, y, hy, m, hm, d, hd, hh, hhh, mm, hmm, ss, hss, hrange,
      frac, hfrac, not_not.mp hzulu, hpast, rfl⟩
    obtain ⟨f, tail, rest, nanos, rfl, htext, hdays, -⟩ := parse_eq_some_iff.mp hparse
    obtain ⟨-, hy', hm', hd', hhh', hmm', hss', hfrac'⟩ := f.steps_text htext
    obtain ⟨hyear, hmonth, hday, hhour, hminute, hsecond⟩ := f.toNat_fields
    have hnanos := htext.lt
    rw [hy', Option.some_inj] at hy
    rw [hm', Option.some_inj] at hm
    rw [hd', Option.some_inj] at hd
    rw [hhh', Option.some_inj] at hhh
    rw [hmm', Option.some_inj] at hmm
    rw [hss', Option.some_inj] at hss
    rw [hfrac', Option.some_inj] at hfrac
    rw [← hy, ← hm, ← hd, ← hhh, ← hmm, ← hss, ← hfrac, hyear, hmonth, hday, hhour, hminute,
      hsecond, toNat_ofNat_of_lt (by omega)]
    exact hall f tail rest nanos rfl htext hdays

/-- The checks pass exactly when the time fits. -/
lemma yields_parseIso8601UtcNs (s : List UInt8) :
    Yields (checkedParseIso8601UtcNs s).run (TimeFits s) (parseIso8601UtcNs s) := by
  by_cases hlen : 20 ≤ s.length
  · exact (yields_steps hlen).congr atSum_iff
  · have hshape : hasIsoShape s = false := by simp [hasIsoShape, hlen]
    have hfits : TimeFits s := by
      refine (atSum_iff (q := (· < 2 ^ 64))).mp fun hshaped => ?_
      rw [hshape] at hshaped
      cases hshaped
    rw [parseIso8601UtcNs_eq, hshape, checkedParseIso8601UtcNs, if_pos (by omega)]
    exact (Yields.of_eq rfl).congr ⟨fun _ => hfits, fun _ => trivial⟩

/-! ## Messages -/

namespace CefiParser

/-- The time of a message, if it has one, fits. -/
def ExchangeTimeFits (payload : List UInt8) : Prop :=
  ∀ text, extractJsonStrField payload (keyOf "time") = .ok text → TimeFits text

/-- The scaled difference of the prices fits an `i64`. -/
def SpreadFits (bp ap : Int64) : Prop :=
  0 < bp → bp < ap → (ap.toInt - bp.toInt) * 10000 < 2 ^ 63

/-- What a quote is computed from fits. -/
def QuoteFits (payload : List UInt8) : Prop :=
  ∀ bidPrice bidQty askPrice askQty,
    extractJsonStrField payload (keyOf "best_bid") = .ok bidPrice →
    extractJsonStrField payload (keyOf "best_bid_size") = .ok bidQty →
    extractJsonStrField payload (keyOf "best_ask") = .ok askPrice →
    extractJsonStrField payload (keyOf "best_ask_size") = .ok askQty →
    IntFits payload (keyOf "sequence") ∧
      ((extractJsonIntField payload (keyOf "sequence")).isSome →
        ExchangeTimeFits payload ∧ FixedPointFits bidPrice ∧ FixedPointFits bidQty ∧
          FixedPointFits askPrice ∧ FixedPointFits askQty ∧
          SpreadFits (parseFixedPoint8 bidPrice) (parseFixedPoint8 askPrice))

/-- What a trade is computed from fits. -/
def TradeFits (payload : List UInt8) : Prop :=
  ∀ price size side,
    extractJsonStrField payload (keyOf "price") = .ok price →
    extractJsonStrField payload (keyOf "last_size") = .ok size →
    extractJsonStrField payload (keyOf "side") = .ok side →
    IntFits payload (keyOf "trade_id") ∧
      ((extractJsonIntField payload (keyOf "trade_id")).isSome →
        IntFits payload (keyOf "sequence") ∧ ExchangeTimeFits payload ∧ FixedPointFits price ∧
          FixedPointFits size)

/-- The trade id of a heartbeat fits, under the name it is found by. -/
def TradeIdFits (payload : List UInt8) : Prop :=
  IntFits payload (keyOf "trade_id") ∧
    (extractJsonIntField payload (keyOf "trade_id") = none →
      IntFits payload (keyOf "last_trade_id"))

lemma yields_exchangeTimeNs (payload : List UInt8) :
    Yields (checkedExchangeTimeNs payload) (ExchangeTimeFits payload) (exchangeTimeNs payload) := by
  unfold checkedExchangeTimeNs exchangeTimeNs ExchangeTimeFits
  rw [checkedExtractJsonStrField_run]
  cases extractJsonStrField payload (keyOf "time") with
  | error e =>
    refine (Yields.of_eq rfl).congr ⟨fun _ text htext => ?_, fun _ => trivial⟩
    cases htext
  | ok text =>
    refine ((yields_parseIso8601UtcNs text).map fun time => time.getD 0).congr ?_
    constructor
    · intro hfits text' htext
      cases htext
      exact hfits
    · intro hall
      exact hall text rfl

lemma yields_spreadBps (bp ap : Int64) :
    Yields (checkedSpreadBps bp ap) (SpreadFits bp ap) (spreadBps bp ap) := by
  unfold checkedSpreadBps spreadBps SpreadFits
  by_cases hwide : ap > bp ∧ bp > 0
  · have hbp := Int64.lt_iff_toInt_lt.mp hwide.2
    have hap := Int64.lt_iff_toInt_lt.mp hwide.1
    have hle := ap.toInt_lt
    rw [Int64.toInt_zero] at hbp
    -- the difference of two positive numbers never overflows
    have hdiff : checked64 (ap.toInt - bp.toInt) = some (ap - bp) := by
      rw [checked64, if_pos (by omega), Int64.ofInt_sub, Int64.ofInt_toInt, Int64.ofInt_toInt]
    have hint : (ap - bp).toInt = ap.toInt - bp.toInt :=
      toInt_sub_of_pos (Int64.lt_trans hwide.2 hwide.1) hwide.2
    have hscaled : Yields (checked64 ((ap - bp).toInt * 10000))
        ((ap.toInt - bp.toInt) * 10000 < 2 ^ 63) ((ap - bp) * 10000) := by
      rw [hint]
      refine ((yields_checked64 _).congr ?_).congr_value ?_
      · omega
      · intro _
        rw [← hint, Int64.ofInt_mul, Int64.ofInt_toInt]
        rfl
    rw [if_pos hwide, if_pos hwide, hdiff]
    refine (hscaled.map fun scaled => (scaled / bp).toUInt64.toUInt16).congr ?_
    constructor
    · intro hfits _ _
      exact hfits
    · intro hall
      exact hall hwide.2 hwide.1
  · rw [if_neg hwide, if_neg hwide]
    refine (Yields.of_eq rfl).congr ⟨fun _ hbp hap => absurd ⟨hap, hbp⟩ hwide, fun _ => trivial⟩

lemma yields_okOr {α : Type} {c : OptionT Option α} {fits : Prop} {v : Option α}
    (h : Yields c.run fits v) (message : String) :
    Yields (okOr c message).run fits (v.elim (.error message) .ok) := by
  refine (h.bind (q := True) (b := v.elim (Except.error message) Except.ok) fun _ => ?_).congr
    (iff_of_eq (and_true fits))
  cases v with
  | none => exact Yields.of_eq rfl
  | some a => exact Yields.of_eq rfl

lemma yields_strField (payload key : List UInt8) :
    Yields (checkedExtractJsonStrField payload key).run True (extractJsonStrField payload key) :=
  Yields.of_eq (checkedExtractJsonStrField_run payload key)

lemma elim_ok_iff {α : Type} {v : Option α} {message : String} {q : Prop} :
    (∀ a, v.elim (.error message) .ok = Except.ok a → q) ↔ (v.isSome → q) := by
  cases v with
  | none => simp
  | some a => simp

lemma yields_parseCoinbaseTickerBbo (marketId : UInt32) (payload : List UInt8) (t1Ns : UInt64) :
    Yields (checkedParseCoinbaseTickerBbo marketId payload t1Ns).run (QuoteFits payload)
      (parseCoinbaseTickerBbo marketId payload t1Ns) := by
  unfold checkedParseCoinbaseTickerBbo parseCoinbaseTickerBbo
  apply Yields.congr
  -- the parser step by step, in the order of the code
  · apply Yields.andThenOk (yields_strField payload _)
    intro _ bidPrice hbidPrice
    apply Yields.andThenOk (yields_strField payload _)
    intro _ bidQty hbidQty
    apply Yields.andThenOk (yields_strField payload _)
    intro _ askPrice haskPrice
    apply Yields.andThenOk (yields_strField payload _)
    intro _ askQty haskQty
    apply Yields.andThenOk (yields_okOr (yields_extractJsonIntField payload _) _)
    intro _ seq hseq
    apply Yields.liftThenOk (yields_exchangeTimeNs payload)
    intro _
    apply Yields.liftThenOk (yields_parseFixedPoint8 bidPrice)
    intro _
    apply Yields.liftThenOk (yields_parseFixedPoint8 bidQty)
    intro _
    apply Yields.liftThenOk (yields_parseFixedPoint8 askPrice)
    intro _
    apply Yields.liftThenOk (yields_parseFixedPoint8 askQty)
    intro _
    apply Yields.liftThenOk (yields_spreadBps _ _)
    intro _
    exact Yields.of_eq rfl
  -- the collected conditions are those of a quote
  · simp only [true_and, and_true, elim_ok_iff]
    constructor
    · intro hall bidPrice bidQty askPrice askQty hbidPrice hbidQty haskPrice haskQty
      exact hall bidPrice hbidPrice bidQty hbidQty askPrice haskPrice askQty haskQty
    · intro hfits bidPrice hbidPrice bidQty hbidQty askPrice haskPrice askQty haskQty
      exact hfits bidPrice bidQty askPrice askQty hbidPrice hbidQty haskPrice haskQty

lemma yields_parseCoinbaseTickerTrade (marketId : UInt32) (payload : List UInt8) (t1Ns : UInt64) :
    Yields (checkedParseCoinbaseTickerTrade marketId payload t1Ns).run (TradeFits payload)
      (parseCoinbaseTickerTrade marketId payload t1Ns) := by
  unfold checkedParseCoinbaseTickerTrade parseCoinbaseTickerTrade
  apply Yields.congr
  -- the parser step by step, in the order of the code
  · apply Yields.andThenOk (yields_strField payload _)
    intro _ price hprice
    apply Yields.andThenOk (yields_strField payload _)
    intro _ size hsize
    apply Yields.andThenOk (yields_strField payload _)
    intro _ side hside
    apply Yields.andThenOk (yields_okOr (yields_extractJsonIntField payload _) _)
    intro _ tradeId htradeId
    apply Yields.liftThenOk (yields_extractJsonIntField payload _)
    intro _
    apply Yields.liftThenOk (yields_exchangeTimeNs payload)
    intro _
    apply Yields.liftThenOk (yields_parseFixedPoint8 price)
    intro _
    apply Yields.liftThenOk (yields_parseFixedPoint8 size)
    intro _
    exact Yields.of_eq rfl
  -- the collected conditions are those of a trade
  · simp only [true_and, and_true, elim_ok_iff]
    constructor
    · intro hall price size side hprice hsize hside
      exact hall price hprice size hsize side hside
    · intro hfits price hprice size hsize side hside
      exact hfits price size side hprice hsize hside

lemma yields_coinbaseMessageType (payload : List UInt8) :
    Yields (checkedCoinbaseMessageType payload) True (coinbaseMessageType payload) :=
  (yields_strField payload _).map Except.toOption

lemma yields_coinbaseProductId (payload : List UInt8) :
    Yields (checkedCoinbaseProductId payload) True (coinbaseProductId payload) :=
  (yields_strField payload _).map Except.toOption

lemma yields_coinbaseSequence (payload : List UInt8) :
    Yields (checkedCoinbaseSequence payload) (IntFits payload (keyOf "sequence"))
      (coinbaseSequence payload) :=
  yields_extractJsonIntField payload _

lemma yields_coinbaseTradeId (payload : List UInt8) :
    Yields (checkedCoinbaseTradeId payload) (TradeIdFits payload) (coinbaseTradeId payload) := by
  have hfirst := yields_extractJsonIntField payload (keyOf "trade_id")
  unfold checkedCoinbaseTradeId coinbaseTradeId TradeIdFits
  cases hid : extractJsonIntField payload (keyOf "trade_id") with
  | none =>
    rw [hid] at hfirst
    refine (hfirst.bind fun _ => yields_extractJsonIntField payload _).congr ?_
    exact and_congr_right fun _ => ⟨fun hlast _ => hlast, fun hlast => hlast rfl⟩
  | some tradeId =>
    -- `last_trade_id` is not looked for
    rw [hid] at hfirst
    apply Yields.congr
    · apply Yields.bind hfirst
      intro _
      exact Yields.of_eq rfl
    · exact and_congr_right fun _ => ⟨fun _ hnone => absurd hnone (by simp), fun _ => trivial⟩

end CefiParser
end ChainMarketPrice.CefiIngest
