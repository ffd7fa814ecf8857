import Mathlib.Data.List.Infix
import Mathlib.Data.List.TakeWhile
import ChainMarketPrice.CefiIngest.Json

/-!
# What field extraction finds

The scan for a key compares the first and the last byte before it compares the whole; it finds
the first occurrence all the same (`findSubsequence_of_firstAt`). So a string field is read from
behind the first occurrence of its key (`extractJsonStrField_eq_ok_iff`).
-/

namespace ChainMarketPrice.CefiIngest

open Text (quote)

variable {haystack needle payload key value : List UInt8} {pos : ℕ}

/-! ## The first occurrence -/

/-- `needle` stands at `pos` and nowhere before it. -/
def FirstAt (needle haystack : List UInt8) (pos : ℕ) : Prop :=
  needle <+: haystack.drop pos ∧ ∀ j < pos, ¬ needle <+: haystack.drop j

/-- The two bytes that are compared first are bytes of the needle. -/
lemma findLoop_test_iff {s : ℕ} (hne : needle ≠ []) :
    (haystack[s]? = needle[0]? ∧ haystack[s + needle.length - 1]? = needle[needle.length - 1]? ∧
        (haystack.drop s).take needle.length = needle) ↔ needle <+: haystack.drop s := by
  have hpos : 0 < needle.length := List.length_pos_of_ne_nil hne
  constructor
  · rintro ⟨-, -, htake⟩
    exact List.prefix_iff_eq_take.mpr htake.symm
  · intro h
    have hbyte : ∀ i < needle.length, haystack[s + i]? = needle[i]? := by
      obtain ⟨rest, hrest⟩ := h
      intro i hi
      rw [← List.getElem?_drop, ← hrest, List.getElem?_append_left hi]
    refine ⟨hbyte 0 hpos, ?_, (List.prefix_iff_eq_take.mp h).symm⟩
    rw [← hbyte (needle.length - 1) (by omega), Nat.add_sub_assoc hpos]

lemma findLoop_eq_some_iff (hne : needle ≠ []) {left s : ℕ} :
    findLoop haystack needle left s = some pos ↔
      s ≤ pos ∧ pos < s + left ∧ needle <+: haystack.drop pos ∧
        ∀ j, s ≤ j → j < pos → ¬ needle <+: haystack.drop j := by
  induction left generalizing s with
  | zero =>
    rw [findLoop]
    constructor
    · rintro ⟨⟩
    · rintro ⟨hle, hlt, -⟩
      omega
  | succ left ih =>
    rw [findLoop]
    -- the loop stops at the first position that matches
    by_cases hhere : needle <+: haystack.drop s
    · rw [if_pos ((findLoop_test_iff hne).mpr hhere), Option.some_inj]
      constructor
      · rintro rfl
        exact ⟨le_refl _, by omega, hhere, fun j hle hlt => by omega⟩
      · rintro ⟨hle, -, -, hfirst⟩
        by_contra hsne
        exact hfirst s (le_refl s) (by omega) hhere
    · rw [if_neg (mt (findLoop_test_iff hne).mp hhere), ih]
      constructor
      · rintro ⟨hle, hlt, hat, hfirst⟩
        refine ⟨by omega, by omega, hat, fun j hj hjp => ?_⟩
        rcases Nat.eq_or_lt_of_le hj with rfl | hjs
        · exact hhere
        · exact hfirst j hjs hjp
      · rintro ⟨hle, hlt, hat, hfirst⟩
        have hsne : s ≠ pos := by
          rintro rfl
          exact hhere hat
        exact ⟨by omega, by omega, hat, fun j hj hjp => hfirst j (by omega) hjp⟩

/-- An occurrence lies inside the haystack. -/
lemma add_length_le_of_prefix_drop (hne : needle ≠ []) (h : needle <+: haystack.drop pos) :
    pos + needle.length ≤ haystack.length := by
  have hle := h.length_le
  have hpos : 0 < needle.length := List.length_pos_of_ne_nil hne
  rw [List.length_drop] at hle
  omega

lemma findSubsequence_of_firstAt (hne : needle ≠ []) :
    findSubsequence haystack needle = some pos ↔ FirstAt needle haystack pos := by
  have hpos : 0 < needle.length := List.length_pos_of_ne_nil hne
  unfold findSubsequence FirstAt
  dsimp only
  by_cases hlong : haystack.length < needle.length
  · rw [if_pos (.inr hlong)]
    constructor
    · rintro ⟨⟩
    · rintro ⟨hat, -⟩
      have := add_length_le_of_prefix_drop hne hat
      omega
  · rw [if_neg (by omega), findLoop_eq_some_iff hne]
    constructor
    · rintro ⟨-, -, hat, hfirst⟩
      exact ⟨hat, fun j hj => hfirst j (Nat.zero_le j) hj⟩
    · rintro ⟨hat, hfirst⟩
      have := add_length_le_of_prefix_drop hne hat
      exact ⟨Nat.zero_le pos, by omega, hat, fun j _ hj => hfirst j hj⟩

/-! ## String fields -/

/-- The first field named by `key` is a string with the bytes `value`, with blanks in front of
it or not. -/
def HasString (payload key value : List UInt8) : Prop :=
  ∃ before blanks rest,
    payload = before ++ (key ++ (blanks ++ quote :: (value ++ quote :: rest))) ∧
    FirstAt key payload before.length ∧ (∀ b ∈ blanks, isBlank b = true) ∧ quote ∉ value

/-- The bytes behind the first occurrence of the key. -/
lemma afterKey_eq_some_iff (hne : key ≠ []) {rest : List UInt8} :
    afterKey payload key = some rest ↔
      ∃ before, payload = before ++ (key ++ rest) ∧ FirstAt key payload before.length := by
  unfold afterKey
  rw [Option.map_eq_some_iff]
  constructor
  · rintro ⟨pos, hfind, hrest⟩
    have hfirst := (findSubsequence_of_firstAt hne).mp hfind
    have hinside := add_length_le_of_prefix_drop hne hfirst.1
    have hlen : (payload.take pos).length = pos := List.length_take_of_le (by omega)
    obtain ⟨tail, htail⟩ := hfirst.1
    refine ⟨payload.take pos, ?_, by rwa [hlen]⟩
    have hdrop : payload.drop (pos + key.length) = tail := by
      rw [← List.drop_drop, ← htail, List.drop_left]
    rw [← hrest, hdrop, htail, List.take_append_drop]
  · rintro ⟨before, hpayload, hfirst⟩
    refine ⟨before.length, (findSubsequence_of_firstAt hne).mpr hfirst, ?_⟩
    rw [hpayload, ← List.drop_drop, List.drop_left, List.drop_left]

/-- The bytes up to the next quote. -/
lemma quoted_eq_some_iff {body : List UInt8} :
    quoted body = some value ↔ ∃ rest, body = value ++ quote :: rest ∧ quote ∉ value := by
  unfold quoted
  constructor
  · intro h
    split at h
    · next hmem =>
      have hvalue : body.takeWhile (· != quote) = value := Option.some_inj.mp h
      have hsplit := List.takeWhile_append_dropWhile (p := (· != quote)) (l := body)
      have hnot : quote ∉ value := by
        intro hin
        rw [← hvalue] at hin
        exact absurd (List.mem_takeWhile_imp hin) (by decide)
      -- behind the value stands the quote that stopped it
      cases hdrop : body.dropWhile (· != quote) with
      | nil =>
        rw [hdrop, hvalue, List.append_nil] at hsplit
        exact absurd (hsplit ▸ hmem) hnot
      | cons b rest =>
        have hb : b = quote := by
          have hstop := List.head_dropWhile_not (l := body) (· != quote) (by rw [hdrop]; simp)
          simpa [hdrop] using hstop
        rw [hdrop, hvalue, hb] at hsplit
        exact ⟨rest, hsplit.symm, hnot⟩
    · cases h
  · rintro ⟨rest, rfl, hnot⟩
    have hall : ∀ b ∈ value, (b != quote) = true := by
      intro b hb
      rw [bne_iff_ne]
      rintro rfl
      exact hnot hb
    rw [if_pos (by simp), List.takeWhile_append_of_pos hall, List.takeWhile_cons_of_neg (by decide),
      List.append_nil]

/-- A string field is extracted exactly when the first field of its name is one. -/
theorem extractJsonStrField_eq_ok_iff (hne : key ≠ []) :
    extractJsonStrField payload key = .ok value ↔ HasString payload key value := by
  unfold extractJsonStrField HasString
  constructor
  · intro h
    cases hafter : afterKey payload key with
    | none =>
      rw [hafter] at h
      cases h
    | some tail =>
      obtain ⟨before, hpayload, hfirst⟩ := (afterKey_eq_some_iff hne).mp hafter
      have hsplit := List.takeWhile_append_dropWhile (p := isBlank) (l := tail)
      rw [hafter] at h
      dsimp only at h
      cases hdrop : tail.dropWhile isBlank with
      | nil =>
        rw [hdrop] at h
        cases h
      | cons b body =>
        rw [hdrop] at h
        dsimp only at h
        split at h
        · -- behind the blanks stands a quote
          next hb =>
          cases hquoted : quoted body with
          | none =>
            rw [hquoted] at h
            cases h
          | some text =>
            rw [hquoted] at h
            cases h
            obtain ⟨rest, hbody, hnot⟩ := quoted_eq_some_iff.mp hquoted
            rw [hdrop, hb, hbody] at hsplit
            refine ⟨before, tail.takeWhile isBlank, rest, ?_, hfirst, ?_, hnot⟩
            · rw [hsplit, hpayload]
            · intro b hmem
              exact List.mem_takeWhile_imp hmem
        · cases h
  · rintro ⟨before, blanks, rest, hpayload, hfirst, hblanks, hnot⟩
    have hafter := (afterKey_eq_some_iff hne).mpr ⟨before, hpayload, hfirst⟩
    have hquoted := quoted_eq_some_iff.mpr ⟨rest, rfl, hnot⟩
    rw [hafter]
    dsimp only
    rw [List.dropWhile_append_of_pos hblanks, List.dropWhile_cons_of_neg (by decide)]
    dsimp only
    rw [if_pos rfl, hquoted]

/-! ## Numbers -/

/-- The digits of a number that is accumulated in 64 bits. -/
lemma digitsValue_eq (digits : List UInt8) :
    digitsValue digits = UInt64.ofNat (Text.decimalValue digits) := by
  have hfold (n : ℕ) :
      digits.foldl (fun num b => num * 10 + (b - '0'.toUInt8).toUInt64) (UInt64.ofNat n)
      = UInt64.ofNat (digits.foldl (fun num b => num * 10 + (b - '0'.toUInt8).toNat) n) := by
    induction digits generalizing n with
    | nil => rfl
    | cons b digits ih =>
      have hdigit : (b - '0'.toUInt8).toUInt64 = UInt64.ofNat (b - '0'.toUInt8).toNat := by
        rw [UInt64.ofNat_uInt8ToNat]
      rw [List.foldl_cons, List.foldl_cons, ← ih, UInt64.ofNat_add, UInt64.ofNat_mul, hdigit]
      rfl
  exact hfold 0

/-! ## Fallible steps -/

/-- A sequence of fallible steps that succeeds has succeeded at its first step. -/
lemma exists_of_bind_eq_ok {ε α β : Type} {x : Except ε α} {f : α → Except ε β} {r : β}
    (h : (x >>= f) = .ok r) : ∃ a, x = .ok a ∧ f a = .ok r := by
  cases x with
  | error e => cases h
  | ok a => exact ⟨a, rfl, h⟩

/-- `ok_or` succeeds on a value only. -/
lemma eq_some_of_elim_eq_ok {ε α : Type} {o : Option α} {e : ε} {a : α}
    (h : o.elim (Except.error e) Except.ok = .ok a) : o = some a := by
  cases o with
  | none => cases h
  | some b =>
    cases h
    rfl

end ChainMarketPrice.CefiIngest
