import Mathlib.Data.Rat.Cast.Order
import Mathlib.Data.Rat.Floor
import Mathlib.Tactic.FieldSimp
import Mathlib.Tactic.Linarith
import Mathlib.Tactic.Positivity
import Mathlib.Tactic.Ring
import ChainMarketPrice.Lib.TextBoundary

/-!
# Decimal numbers in texts

A decimal is an optional sign, digits and an optional fraction; it is read as an exact rational.
-/

namespace Text

/-- Bytes that are all digits. -/
def AllDigits (bytes : List UInt8) : Prop := ∀ b ∈ bytes, isDigit b = true

lemma AllDigits.append {a b : List UInt8} (ha : AllDigits a) (hb : AllDigits b) :
    AllDigits (a ++ b) :=
  List.forall_mem_append.mpr ⟨ha, hb⟩

lemma allDigits_singleton {b : UInt8} (h : isDigit b = true) : AllDigits [b] :=
  List.forall_mem_singleton.mpr h

lemma foldl_decimal (digits : List UInt8) (n : ℕ) :
    digits.foldl (fun num b => num * 10 + (b - '0'.toUInt8).toNat) n
      = n * 10 ^ digits.length + decimalValue digits := by
  induction digits generalizing n with
  | nil => simp [decimalValue]
  | cons b digits ih =>
    rw [decimalValue, List.foldl_cons, List.foldl_cons, ih, ih, List.length_cons, pow_succ]
    ring

lemma decimalValue_append (a b : List UInt8) :
    decimalValue (a ++ b) = decimalValue a * 10 ^ b.length + decimalValue b := by
  rw [decimalValue, List.foldl_append, foldl_decimal]
  rfl

/-- A decimal in front of a text: the digits before and behind the point. -/
def readUnsigned (text : List UInt8) : Option ℚ :=
  let int := text.takeWhile isDigit
  let frac :=
    match text.dropWhile isDigit with
    | b :: rest => if b = '.'.toUInt8 then rest.takeWhile isDigit else []
    | [] => []
  if int.isEmpty then none
  else some (decimalValue int + decimalValue frac / 10 ^ frac.length)

/-- A decimal with its sign. -/
def readDecimal : List UInt8 → Option ℚ
  | b :: rest =>
    if b = '-'.toUInt8 then (readUnsigned rest).map (- ·) else readUnsigned (b :: rest)
  | [] => none

/-- A text that does not go on with a digit or a point. -/
def Ends (text : List UInt8) : Prop := ∀ b ∈ text.head?, isDigit b = false ∧ b ≠ '.'.toUInt8

lemma takeWhile_digits {digits rest : List UInt8} (h : AllDigits digits)
    (hrest : ∀ b ∈ rest.head?, isDigit b = false) :
    (digits ++ rest).takeWhile isDigit = digits ∧ (digits ++ rest).dropWhile isDigit = rest := by
  have hstop : rest.takeWhile isDigit = [] ∧ rest.dropWhile isDigit = rest := by
    cases rest with
    | nil => exact ⟨rfl, rfl⟩
    | cons b rest =>
      have hb := hrest b rfl
      rw [List.takeWhile_cons, List.dropWhile_cons, hb]
      exact ⟨rfl, rfl⟩
  rw [List.takeWhile_append_of_pos h, List.dropWhile_append_of_pos h, hstop.1, hstop.2,
    List.append_nil]
  exact ⟨rfl, rfl⟩

/-- Digits alone are an integer. -/
lemma readUnsigned_integer {digits rest : List UInt8} (h : AllDigits digits) (hne : digits ≠ [])
    (hrest : Ends rest) : readUnsigned (digits ++ rest) = some (decimalValue digits : ℚ) := by
  obtain ⟨htake, hdrop⟩ := takeWhile_digits h fun b hb => (hrest b hb).1
  unfold readUnsigned
  rw [htake, hdrop, if_neg (by rwa [List.isEmpty_iff])]
  cases rest with
  | nil => simp [decimalValue]
  | cons b rest =>
    dsimp only
    rw [if_neg (hrest b rfl).2]
    simp [decimalValue]

/-- Digits, a point and digits. -/
lemma readUnsigned_fraction {int frac rest : List UInt8} (hint : AllDigits int) (hne : int ≠ [])
    (hfrac : AllDigits frac) (hrest : ∀ b ∈ rest.head?, isDigit b = false) :
    readUnsigned (int ++ ('.'.toUInt8 :: (frac ++ rest)))
      = some ((decimalValue int : ℚ) + decimalValue frac / 10 ^ frac.length) := by
  have hpoint : ∀ b ∈ ('.'.toUInt8 :: (frac ++ rest)).head?, isDigit b = false := by
    intro b hb
    cases hb
    decide
  obtain ⟨htake, hdrop⟩ := takeWhile_digits hint hpoint
  unfold readUnsigned
  rw [htake, hdrop, if_neg (by rwa [List.isEmpty_iff])]
  dsimp only
  rw [if_pos rfl, (takeWhile_digits hfrac hrest).1]

/-- Without a sign in front. -/
lemma readDecimal_of_digit {text : List UInt8} (h : ∃ b rest, text = b :: rest ∧ isDigit b = true) :
    readDecimal text = readUnsigned text := by
  obtain ⟨b, rest, rfl, hb⟩ := h
  rw [readDecimal, if_neg]
  rintro rfl
  exact absurd hb (by decide)

lemma readDecimal_minus (text : List UInt8) :
    readDecimal ('-'.toUInt8 :: text) = (readUnsigned text).map (- ·) := by
  rw [readDecimal, if_pos rfl]

/-! ## Decimal texts -/

/-- The texts `[-]digits` and `[-]digits.digits`: the fraction may be missing, or have no digits
behind its point. -/
structure DecimalText where
  negative : Bool
  int : List UInt8
  frac : Option (List UInt8)
  int_ne_nil : int ≠ []
  int_digits : AllDigits int
  frac_digits : ∀ f ∈ frac, AllDigits f

namespace DecimalText

variable (d : DecimalText)

/-- The digits behind the point. -/
def fracDigits : List UInt8 := d.frac.getD []

/-- How many digits stand behind the point. -/
def places : ℕ := d.fracDigits.length

/-- All digits read as one number. -/
def digitsValue : ℕ := decimalValue (d.int ++ d.fracDigits)

/-- The bytes behind the sign. -/
def unsigned : List UInt8 := d.int ++ d.frac.elim [] ('.'.toUInt8 :: ·)

def bytes : List UInt8 := if d.negative then '-'.toUInt8 :: d.unsigned else d.unsigned

/-- The number the text denotes. -/
def value : ℚ :=
  (if d.negative then -1 else 1) *
    (decimalValue d.int + decimalValue d.fracDigits / 10 ^ d.places)

lemma value_eq :
    d.value = (if d.negative then -1 else 1) * ((d.digitsValue : ℚ) / 10 ^ d.places) := by
  have hpow : (10 : ℚ) ^ d.places ≠ 0 := pow_ne_zero _ (by norm_num)
  unfold value digitsValue
  rw [decimalValue_append, Nat.cast_add, Nat.cast_mul, Nat.cast_pow]
  congr 1
  rw [add_div]
  congr 1
  rw [Nat.cast_ofNat]
  exact (mul_div_cancel_right₀ _ hpow).symm

/-- A sign or a digit stands in front. -/
lemma head?_bytes : (d.bytes.head? == some '-'.toUInt8) = d.negative := by
  obtain ⟨b, rest, hint⟩ := List.exists_cons_of_ne_nil d.int_ne_nil
  have hb : isDigit b = true := d.int_digits b (by rw [hint]; exact List.mem_cons_self)
  unfold bytes unsigned
  cases d.negative with
  | true => rfl
  | false =>
    rw [hint, if_neg (by decide), List.cons_append, List.head?_cons, beq_eq_false_iff_ne, Ne,
      Option.some_inj]
    rintro rfl
    exact absurd hb (by decide)

lemma unsigned_eq : (if d.negative then d.bytes.tail else d.bytes) = d.unsigned := by
  unfold bytes
  cases d.negative <;> rfl

end DecimalText

/-! ## Truncation toward zero -/

def truncate (q : ℚ) : ℤ := if 0 ≤ q then ⌊q⌋ else ⌈q⌉

lemma truncate_natCast_div (a b : ℕ) : truncate ((a : ℚ) / b) = (a / b : ℕ) := by
  rw [truncate, if_pos (by positivity), Rat.floor_natCast_div_natCast, Int.natCast_div]

lemma truncate_neg (q : ℚ) : truncate (-q) = -truncate q := by
  unfold truncate
  rcases lt_trichotomy q 0 with hq | rfl | hq
  · rw [if_pos (by linarith), if_neg (by linarith), Int.floor_neg]
  · simp
  · rw [if_neg (by linarith), if_pos hq.le, Int.ceil_neg]

/-! ## Digits of fixed width -/

lemma zeros_spec (n : ℕ) :
    AllDigits (List.replicate n 48) ∧ decimalValue (List.replicate n 48) = 0 := by
  induction n with
  | zero => exact ⟨fun b hb => absurd hb List.not_mem_nil, rfl⟩
  | succ n ih =>
    rw [List.replicate_succ', decimalValue_append, ih.2]
    refine ⟨ih.1.append (allDigits_singleton (by decide)), ?_⟩
    rw [Nat.zero_mul]
    rfl

/-- The last `width` decimal digits of a number. -/
def fixedDigits : ℕ → ℕ → List UInt8
  | 0, _ => []
  | width + 1, n => fixedDigits width (n / 10) ++ [UInt8.ofNat (48 + n % 10)]

@[simp]
lemma length_fixedDigits (width n : ℕ) : (fixedDigits width n).length = width := by
  induction width generalizing n with
  | zero => rfl
  | succ width ih => rw [fixedDigits, List.length_append, ih, List.length_singleton]

lemma digit_spec (n : Fin 10) :
    isDigit (UInt8.ofNat (48 + n)) = true ∧ decimalValue [UInt8.ofNat (48 + n)] = n := by
  revert n
  decide

lemma allDigits_fixedDigits (width n : ℕ) : AllDigits (fixedDigits width n) := by
  induction width generalizing n with
  | zero => exact fun b hb => absurd hb List.not_mem_nil
  | succ width ih =>
    have hdigit := (digit_spec ⟨n % 10, Nat.mod_lt n (by decide)⟩).1
    exact (ih (n / 10)).append (allDigits_singleton hdigit)

lemma decimalValue_fixedDigits (width n : ℕ) :
    decimalValue (fixedDigits width n) = n % 10 ^ width := by
  induction width generalizing n with
  | zero =>
    rw [pow_zero, Nat.mod_one]
    rfl
  | succ width ih =>
    have hdigit := (digit_spec ⟨n % 10, Nat.mod_lt n (by decide)⟩).2
    rw [fixedDigits, decimalValue_append, ih, hdigit, List.length_singleton, pow_one,
      pow_succ', Nat.mod_mul, Nat.add_comm, Nat.mul_comm]

lemma decimalValue_digit_lt (b : UInt8) : isDigit b = true → decimalValue [b] < 10 :=
  forall_byte (P := fun b => isDigit b = true → decimalValue [b] < 10) (by decide +kernel) b

lemma ofNat_decimalValue (b : UInt8) :
    isDigit b = true → UInt8.ofNat (48 + decimalValue [b]) = b :=
  forall_byte (P := fun b => isDigit b = true → UInt8.ofNat (48 + decimalValue [b]) = b)
    (by decide +kernel) b

lemma decimalValue_lt {digits : List UInt8} (h : AllDigits digits) :
    decimalValue digits < 10 ^ digits.length := by
  induction digits using List.reverseRecOn with
  | nil => exact Nat.one_pos
  | append_singleton digits b ih =>
    rw [AllDigits, List.forall_mem_append] at h
    have hb : decimalValue [b] < 10 := decimalValue_digit_lt b (h.2 b List.mem_cons_self)
    have hlt := ih h.1
    have hpow : 10 ^ (digits.length + 1) = 10 ^ digits.length * 10 := pow_succ 10 digits.length
    rw [decimalValue_append, List.length_append, List.length_singleton, pow_one]
    omega

/-- Digits are the fixed-width digits of their number. -/
lemma fixedDigits_decimalValue {digits : List UInt8} (h : AllDigits digits) :
    fixedDigits digits.length (decimalValue digits) = digits := by
  induction digits using List.reverseRecOn with
  | nil => rfl
  | append_singleton digits b ih =>
    rw [AllDigits, List.forall_mem_append] at h
    have hb : decimalValue [b] < 10 := decimalValue_digit_lt b (h.2 b List.mem_cons_self)
    have hlast := ofNat_decimalValue b (h.2 b List.mem_cons_self)
    have hdiv : (decimalValue digits * 10 + decimalValue [b]) / 10 = decimalValue digits := by omega
    have hmod : (decimalValue digits * 10 + decimalValue [b]) % 10 = decimalValue [b] := by omega
    rw [List.length_append, List.length_singleton, fixedDigits, decimalValue_append,
      List.length_singleton, pow_one, hdiv, hmod, ih h.1, hlast]

/-! ## Canonical decimals -/

/-- The decimal of a number: its digits, without a zero in front. -/
def decimalText (n : ℕ) : List UInt8 := (Nat.toDigits 10 n).map Char.toUInt8

lemma toUInt8_digitChar : ∀ d : Fin 10, (Nat.digitChar d).toUInt8 = UInt8.ofNat (48 + d) := by
  decide

lemma decimalText_of_lt {d : ℕ} (hd : d < 10) : decimalText d = [UInt8.ofNat (48 + d)] := by
  unfold decimalText
  rw [Nat.toDigits_of_lt_base hd, List.map_singleton, toUInt8_digitChar ⟨d, hd⟩]

lemma decimalText_append_digit {n d : ℕ} (hn : 0 < n) (hd : d < 10) :
    decimalText (n * 10 + d) = decimalText n ++ [UInt8.ofNat (48 + d)] := by
  rw [← decimalText_of_lt hd, Nat.mul_comm]
  unfold decimalText
  rw [← Nat.toDigits_append_toDigits (by decide) hn hd, List.map_append]

/-- Digits that do not start with a zero denote a positive number. -/
lemma decimalValue_pos {digits : List UInt8} (h : AllDigits digits) (hne : digits ≠ [])
    (hhead : digits.head? ≠ some 48) : 0 < decimalValue digits := by
  obtain ⟨b, rest, rfl⟩ := List.exists_cons_of_ne_nil hne
  have hb : decimalValue [b] ≠ 0 := by
    intro hzero
    have hbyte := ofNat_decimalValue b (h b List.mem_cons_self)
    rw [hzero] at hbyte
    exact hhead (by rw [List.head?_cons, ← hbyte]; rfl)
  have hsplit := decimalValue_append [b] rest
  rw [List.singleton_append] at hsplit
  rw [hsplit]
  have hpow : 0 < 10 ^ rest.length := Nat.pow_pos (by decide)
  exact Nat.add_pos_left (Nat.mul_pos (Nat.pos_of_ne_zero hb) hpow) _

/-- Digits that do not start with a zero are the decimal of their number. -/
lemma eq_decimalText {digits : List UInt8} (h : AllDigits digits) (hne : digits ≠ [])
    (hhead : digits.head? ≠ some 48) : digits = decimalText (decimalValue digits) := by
  induction digits using List.reverseRecOn with
  | nil => exact absurd rfl hne
  | append_singleton digits b ih =>
    rw [AllDigits, List.forall_mem_append] at h
    have hdigit := h.2 b List.mem_cons_self
    have hlt := decimalValue_digit_lt b hdigit
    have hbyte := ofNat_decimalValue b hdigit
    by_cases hfirst : digits = []
    · rw [hfirst, List.nil_append, decimalText_of_lt hlt, hbyte]
    · rw [List.head?_append_of_ne_nil _ hfirst] at hhead
      rw [decimalValue_append, List.length_singleton, pow_one,
        decimalText_append_digit (decimalValue_pos h.1 hfirst hhead) hlt, hbyte,
        ← ih h.1 hfirst hhead]

end Text
