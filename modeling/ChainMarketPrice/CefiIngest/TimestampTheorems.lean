import ChainMarketPrice.Lib.Calendar
import ChainMarketPrice.Lib.Decimal
import ChainMarketPrice.Lib.FixedWidth
import ChainMarketPrice.CefiIngest.JsonTheorems
import ChainMarketPrice.CefiIngest.Timestamp

/-!
# What timestamps denote

A time of the years 1970 to 2553 that is written out in full is parsed to its nanoseconds since
the epoch (`parse_isoTime`). The parser takes other texts too: a day past the end of the month, an
empty fraction, bytes behind the `Z`. Which of the texts it takes denote the instant that it
answers is `denotes_iff_proper`.
-/

namespace ChainMarketPrice.CefiIngest

open Bytes Calendar Text

/-! ## Days -/

/-- 1970-01-01. -/
def unixEpoch : Date where
  year := 1970
  month := 1
  day := 1
  month_pos := Nat.le_refl 1
  month_le := Nat.le_of_ble_eq_true rfl
  day_pos := Nat.le_refl 1
  day_le := Nat.le_of_ble_eq_true rfl

/-- The first of January. -/
lemma dayNumber_of_january {date : Date} (hmonth : date.month = 1) (hday : date.day = 1) :
    date.dayNumber = daysBeforeYear date.year := by
  rw [Date.dayNumber, hmonth, hday]
  rfl

lemma dayNumber_unixEpoch : unixEpoch.dayNumber = 719528 := by
  have hyear : unixEpoch.year = 1970 := rfl
  have hyears := daysBeforeYear_add 1970
  rw [dayNumber_of_january rfl rfl, hyear]
  -- the years are not counted one by one
  generalize daysBeforeYear 1970 = years at hyears ⊢
  omega

/-- The era is the quotient rounded down, so the years of the era count from its first one. -/
lemma era_eq (y : ℤ) : (if y ≥ 0 then y else y - 399).tdiv 400 = y / 400 := by
  split
  · next hpos => rw [Int.tdiv_eq_ediv_of_nonneg hpos]
  · next hneg =>
    have hflip : (y - 399).tdiv 400 = -((399 - y).tdiv 400) := by
      rw [← Int.neg_tdiv, Int.neg_sub]
    rw [hflip, Int.tdiv_eq_ediv_of_nonneg (by omega)]
    omega

/-- The days before a year that begins in March, from March of the year 0 on. -/
def marchDays (y : ℤ) : ℤ := 365 * y + y / 4 - y / 100 + y / 400

lemma eraDays_eq (y : ℤ) :
    y / 400 * 146097 + ((y - y / 400 * 400) * 365 + (y - y / 400 * 400).tdiv 4
      - (y - y / 400 * 400).tdiv 100) = marchDays y := by
  rw [Int.tdiv_eq_ediv_of_nonneg (by omega), Int.tdiv_eq_ediv_of_nonneg (by omega), marchDays]
  omega

/-- From January on the year counts as the one before. -/
lemma marchDays_january (y : ℕ) : marchDays (y - 1) + 366 = daysBeforeYear y := by
  have hyears := daysBeforeYear_add y
  unfold marchDays
  omega

/-- From March on the leap day, if there is one, is over. -/
lemma marchDays_march (y : ℕ) : marchDays y + 60 = daysBeforeYear y + daysBeforeMonth y 3 := by
  have hyears := daysBeforeYear_add y
  have hmonths : daysBeforeMonth y 3 = if IsLeap y then 60 else 59 := by
    show 0 + 0 + 31 + (if IsLeap y then 29 else 28) = _
    split
    · rfl
    · rfl
  unfold marchDays
  rw [hmonths]
  split
  · next hleap =>
    unfold IsLeap at hleap
    omega
  · next hleap =>
    unfold IsLeap at hleap
    omega

lemma daysFromCivil_march (y : ℤ) {m : ℤ} (hm : 0 ≤ m) (d : ℤ) :
    daysFromCivil y m d
      = marchDays (if m ≤ 2 then y - 1 else y) + (153 * ((m + 9) % 12) + 2) / 5 + d - 1 - 719468 := by
  have hera := eraDays_eq (if m ≤ 2 then y - 1 else y)
  unfold daysFromCivil
  dsimp only
  rw [era_eq, ← hera, Int.tmod_eq_emod_of_nonneg (by omega : 0 ≤ m + 9),
    Int.tdiv_eq_ediv_of_nonneg (by omega : 0 ≤ 153 * ((m + 9) % 12) + 2)]
  ring

/-- The formula counts the days of the calendar. -/
lemma daysFromCivil_eq (date : Date) :
    daysFromCivil date.year date.month date.day = (date.dayNumber : ℤ) - unixEpoch.dayNumber := by
  obtain ⟨y, m, d, hpos, hle, hday, -⟩ := date
  have hjanuary := marchDays_january y
  have hmarch := marchDays_march y
  rw [dayNumber_unixEpoch, daysFromCivil_march y (Int.natCast_nonneg m)]
  show _ = ((daysBeforeYear y + daysBeforeMonth y m + (d - 1) : ℕ) : ℤ) - 719528
  -- the days before each month, from January or from March
  interval_cases m
  all_goals
    simp only [daysBeforeMonth, daysInMonth] at hmarch ⊢
    norm_num at hjanuary hmarch ⊢
    omega

/-! ## Fractions -/

/-- The first nine digits, zeros behind them. -/
def fractionNanos (digits : List UInt8) : ℕ :=
  decimalValue ((digits ++ List.replicate 9 48).take 9)

lemma fractionNanos_eq (digits : List UInt8) :
    fractionNanos digits = decimalValue (digits.take 9) * 10 ^ (9 - digits.length) := by
  unfold fractionNanos
  rw [List.take_append, List.take_replicate, decimalValue_append, (zeros_spec _).2,
    List.length_replicate, Nat.add_zero, Nat.min_eq_left (Nat.sub_le 9 _)]

lemma fractionNanos_lt {digits : List UInt8} (h : AllDigits digits) :
    fractionNanos digits < 10 ^ 9 := by
  have hall : AllDigits ((digits ++ List.replicate 9 48).take 9) :=
    fun b hb => h.append (zeros_spec 9).1 b (List.mem_of_mem_take hb)
  have hlt := decimalValue_lt hall
  have hlen : ((digits ++ List.replicate 9 48).take 9).length = 9 := by
    rw [List.length_take, List.length_append, List.length_replicate]
    omega
  rw [hlen] at hlt
  exact hlt

lemma repeat_mul_ten (n x : ℕ) :
    Nat.repeat (· * 10) n (UInt64.ofNat x) = UInt64.ofNat (x * 10 ^ n) :=
  FixedWidth.repeat_mul_word UInt64.ofNat_mul 10 n x

/-- The digits up to a `Z`, of which nine are kept. -/
lemma fractionLoop_digits {digits rest : List UInt8} (h : AllDigits digits)
    (hrest : rest = [] ∨ rest.head? = some 'Z'.toUInt8) (fracNs : UInt64) {seen : ℕ}
    (hseen : seen ≤ 9) :
    fractionLoop (digits ++ rest) fracNs seen
      = some ((digits.take (9 - seen)).foldl
          (fun num b => num * 10 + (b - '0'.toUInt8).toUInt64) fracNs,
        min 9 (seen + digits.length), rest) := by
  induction digits generalizing fracNs seen with
  | nil =>
    rw [List.nil_append, List.take_nil, List.foldl_nil, List.length_nil, Nat.add_zero,
      Nat.min_eq_right hseen]
    rcases hrest with rfl | hz
    · rfl
    · obtain ⟨rest, rfl⟩ := List.head?_eq_some_iff.mp hz
      rw [fractionLoop, if_pos rfl]
  | cons b digits ih =>
    rw [AllDigits, List.forall_mem_cons] at h
    have hnotz : b ≠ 'Z'.toUInt8 := by
      intro hz
      rw [hz] at h
      exact absurd h.1 (by decide)
    rw [List.cons_append, fractionLoop, if_neg hnotz, if_pos h.1]
    -- the tenth digit and those behind it are passed without being kept
    by_cases hlt : seen < 9
    · have hnext : seen + 1 ≤ 9 := hlt
      have htake : 9 - seen = 9 - (seen + 1) + 1 := by omega
      rw [if_pos hlt, ih h.2 _ hnext, htake, List.take_succ_cons, List.foldl_cons, List.length_cons,
        Nat.add_right_comm, Nat.add_assoc]
    · have htake : 9 - seen = 0 := by omega
      rw [if_neg hlt, ih h.2 _ hseen, htake, List.take_zero, List.take_zero, List.length_cons]
      congr 3
      omega

/-- A loop that ends has passed digits only, up to a `Z` or to the end. -/
lemma exists_digits_of_fractionLoop {bytes rest : List UInt8} {fracNs result : UInt64}
    {seen seen' : ℕ} (h : fractionLoop bytes fracNs seen = some (result, seen', rest)) :
    ∃ digits, bytes = digits ++ rest ∧ AllDigits digits ∧
      (rest = [] ∨ rest.head? = some 'Z'.toUInt8) := by
  induction bytes generalizing fracNs seen with
  | nil =>
    cases h
    exact ⟨[], rfl, fun b hb => absurd hb List.not_mem_nil, .inl rfl⟩
  | cons b bytes ih =>
    rw [fractionLoop] at h
    split at h
    · next hz =>
      cases h
      exact ⟨[], rfl, fun b hb => absurd hb List.not_mem_nil, .inr (congrArg some hz)⟩
    · split at h
      · next hdigit =>
        have hnext : ∃ digits, bytes = digits ++ rest ∧ AllDigits digits ∧
            (rest = [] ∨ rest.head? = some 'Z'.toUInt8) := by
          split at h
          · exact ih h
          · exact ih h
        obtain ⟨digits, rfl, hdigits, hend⟩ := hnext
        exact ⟨b :: digits, rfl, List.forall_mem_cons.mpr ⟨hdigit, hdigits⟩, hend⟩
      · cases h

/-- The fraction of a second, if there is one, up to the `Z`. -/
inductive FractionText : List UInt8 → ℕ → List UInt8 → Prop
  | absent (rest : List UInt8) : FractionText ('Z'.toUInt8 :: rest) 0 rest
  | digits {digits : List UInt8} (h : AllDigits digits) (rest : List UInt8) :
      FractionText ('.'.toUInt8 :: (digits ++ 'Z'.toUInt8 :: rest)) (fractionNanos digits) rest

lemma FractionText.lt {tail rest : List UInt8} {nanos : ℕ} (h : FractionText tail nanos rest) :
    nanos < 10 ^ 9 := by
  cases h with
  | absent => decide
  | digits hdigits => exact fractionNanos_lt hdigits

lemma fraction_of_text {tail rest : List UInt8} {nanos : ℕ} (h : FractionText tail nanos rest) :
    fraction tail = some (UInt64.ofNat nanos, 'Z'.toUInt8 :: rest) := by
  cases h with
  | absent => rfl
  | @digits digits hdigits =>
    have hloop : fractionLoop (digits ++ 'Z'.toUInt8 :: rest) 0 0 = _ :=
      fractionLoop_digits hdigits (.inr rfl) 0 (Nat.zero_le 9)
    have hvalue : (digits.take 9).foldl (fun num b => num * 10 + (b - '0'.toUInt8).toUInt64) 0
        = UInt64.ofNat (decimalValue (digits.take 9)) := digitsValue_eq _
    have hmissing : 9 - min 9 (0 + digits.length) = 9 - digits.length := by omega
    rw [fraction, if_pos rfl, hloop]
    show some (Nat.repeat (· * 10) (9 - min 9 (0 + digits.length)) _, _) = _
    rw [Nat.sub_zero, hvalue, hmissing, repeat_mul_ten, fractionNanos_eq]

/-- What is accepted behind the seconds. -/
lemma fraction_eq_some_iff {tail rest : List UInt8} {fracNs : UInt64} :
    fraction tail = some (fracNs, 'Z'.toUInt8 :: rest) ↔
      ∃ nanos, FractionText tail nanos rest ∧ fracNs = UInt64.ofNat nanos := by
  constructor
  · intro h
    -- what the loop has passed is a fraction, and its text is read as what it denotes
    have htext : ∃ nanos, FractionText tail nanos rest := by
      unfold fraction at h
      split at h
      · cases h
      · next b tail =>
        split at h
        · next hpoint =>
          split at h
          · next hloop =>
            cases h
            obtain ⟨digits, rfl, hdigits, -⟩ := exists_digits_of_fractionLoop hloop
            rw [hpoint]
            exact ⟨_, .digits hdigits rest⟩
          · cases h
        · cases h
          exact ⟨0, .absent rest⟩
    obtain ⟨nanos, htext⟩ := htext
    rw [fraction_of_text htext] at h
    cases h
    exact ⟨nanos, htext, rfl⟩
  · rintro ⟨nanos, htext, rfl⟩
    exact fraction_of_text htext

/-! ## Numbers -/

lemma num_eq_some_iff {digits : List UInt8} {width : ℕ} (hlen : digits.length = width)
    {v : UInt64} :
    num digits = some v ↔ ∃ n < 10 ^ width, digits = fixedDigits width n ∧ v = UInt64.ofNat n := by
  unfold num
  constructor
  · intro h
    split at h
    · next hall =>
      cases h
      have hdigits : AllDigits digits := List.all_eq_true.mp hall
      have hlt := decimalValue_lt hdigits
      have hfixed := fixedDigits_decimalValue hdigits
      rw [hlen] at hlt hfixed
      exact ⟨decimalValue digits, hlt, hfixed.symm, digitsValue_eq digits⟩
    · cases h
  · rintro ⟨n, hn, rfl, rfl⟩
    have hall : (fixedDigits width n).all isDigit = true :=
      List.all_eq_true.mpr (allDigits_fixedDigits width n)
    rw [if_pos hall, digitsValue_eq, decimalValue_fixedDigits, Nat.mod_eq_of_lt hn]

/-! ## The whole text -/

/-- `YYYY-MM-DDTHH:MM:SS` with the given digits, and what follows. -/
def isoLine (year month day hour minute second tail : List UInt8) : List UInt8 :=
  year ++ '-'.toUInt8 :: (month ++ '-'.toUInt8 :: (day ++ 'T'.toUInt8 :: (hour ++ ':'.toUInt8 ::
    (minute ++ ':'.toUInt8 :: (second ++ tail)))))

/-- The numbers of a text in their ranges. -/
structure IsoFields where
  year : ℕ
  month : ℕ
  day : ℕ
  hour : ℕ
  minute : ℕ
  second : ℕ
  year_lt : year < 10000
  month_pos : 1 ≤ month
  month_le : month ≤ 12
  day_pos : 1 ≤ day
  day_le : day ≤ 31
  hour_le : hour ≤ 23
  minute_le : minute ≤ 59
  -- a leap second
  second_le : second ≤ 60

def IsoFields.text (f : IsoFields) (tail : List UInt8) : List UInt8 :=
  isoLine (fixedDigits 4 f.year) (fixedDigits 2 f.month) (fixedDigits 2 f.day)
    (fixedDigits 2 f.hour) (fixedDigits 2 f.minute) (fixedDigits 2 f.second) tail

/-- The days that the formula gives, and the nanoseconds. -/
def IsoFields.days (f : IsoFields) : ℤ := daysFromCivil f.year f.month f.day

def IsoFields.nanos (f : IsoFields) (days fraction : ℕ) : ℕ :=
  (days * 86400 + f.hour * 3600 + f.minute * 60 + f.second) * 10 ^ 9 + fraction

lemma length_slice {s : List UInt8} {start stop : ℕ} (h : stop ≤ s.length) :
    (slice s start stop).length = stop - start := by
  rw [slice, List.length_take, List.length_drop]
  omega

lemma slice_append_drop (s : List UInt8) {start stop : ℕ} (h : start ≤ stop) :
    slice s start stop ++ s.drop stop = s.drop start := by
  have hstop : s.drop stop = (s.drop start).drop (stop - start) := by
    rw [List.drop_drop, Nat.add_sub_cancel' h]
  rw [slice, hstop, List.take_append_drop]

lemma cons_drop {s : List UInt8} {i : ℕ} {b : UInt8} (h : s[i]? = some b) :
    b :: s.drop (i + 1) = s.drop i := by
  obtain ⟨hi, hb⟩ := List.getElem?_eq_some_iff.mp h
  rw [← hb, List.cons_getElem_drop_succ]

/-- A text with the separators in their places. -/
lemma eq_isoLine {s : List UInt8} (h : hasIsoShape s = true) :
    20 ≤ s.length ∧ s = isoLine (slice s 0 4) (slice s 5 7) (slice s 8 10) (slice s 11 13)
      (slice s 14 16) (slice s 17 19) (s.drop 19) := by
  unfold hasIsoShape at h
  simp only [Bool.and_eq_true, decide_eq_true_iff, beq_iff_eq] at h
  obtain ⟨⟨⟨⟨⟨hlen, h4⟩, h7⟩, h10⟩, h13⟩, h16⟩ := h
  refine ⟨hlen, ?_⟩
  unfold isoLine
  rw [slice_append_drop s (by decide : 17 ≤ 19), cons_drop h16,
    slice_append_drop s (by decide : 14 ≤ 16), cons_drop h13,
    slice_append_drop s (by decide : 11 ≤ 13), cons_drop h10,
    slice_append_drop s (by decide : 8 ≤ 10), cons_drop h7,
    slice_append_drop s (by decide : 5 ≤ 7), cons_drop h4,
    slice_append_drop s (by decide : 0 ≤ 4), List.drop_zero]

/-- The parts of such a text are found again. -/
lemma slices_isoLine {year month day hour minute second tail : List UInt8} (hyear : year.length = 4)
    (hmonth : month.length = 2) (hday : day.length = 2) (hhour : hour.length = 2)
    (hminute : minute.length = 2) (hsecond : second.length = 2) (htail : tail ≠ []) :
    let s := isoLine year month day hour minute second tail
    hasIsoShape s = true ∧ slice s 0 4 = year ∧ slice s 5 7 = month ∧ slice s 8 10 = day ∧
      slice s 11 13 = hour ∧ slice s 14 16 = minute ∧ slice s 17 19 = second ∧
      s.drop 19 = tail := by
  obtain ⟨y0, y1, y2, y3, rfl⟩ := List.length_eq_four.mp hyear
  obtain ⟨m0, m1, rfl⟩ := List.length_eq_two.mp hmonth
  obtain ⟨d0, d1, rfl⟩ := List.length_eq_two.mp hday
  obtain ⟨h0, h1, rfl⟩ := List.length_eq_two.mp hhour
  obtain ⟨i0, i1, rfl⟩ := List.length_eq_two.mp hminute
  obtain ⟨s0, s1, rfl⟩ := List.length_eq_two.mp hsecond
  obtain ⟨b, tail, rfl⟩ := List.exists_cons_of_ne_nil htail
  refine ⟨?_, rfl, rfl, rfl, rfl, rfl, rfl, rfl⟩
  simp [hasIsoShape, isoLine]

/-- The steps of the parser, all of them taken. -/
lemma parse_steps {s : List UInt8} {t : UInt64} :
    parseIso8601UtcNs s = some t ↔
      hasIsoShape s = true ∧ ∃ y, num (slice s 0 4) = some y ∧ ∃ m, num (slice s 5 7) = some m ∧
        ∃ d, num (slice s 8 10) = some d ∧ ∃ hh, num (slice s 11 13) = some hh ∧
        ∃ mm, num (slice s 14 16) = some mm ∧ ∃ ss, num (slice s 17 19) = some ss ∧
        ¬ (m < 1 ∨ 12 < m ∨ d < 1 ∨ 31 < d ∨ hh > 23 ∨ mm > 59 ∨ ss > 60) ∧
        ∃ frac, fraction (s.drop 19) = some frac ∧ frac.2.head? = some 'Z'.toUInt8 ∧
        ¬ daysFromCivil y.toNat m.toNat d.toNat < 0 ∧
        (UInt64.ofInt (daysFromCivil y.toNat m.toNat d.toNat) * 86400 + hh * 3600 + mm * 60 + ss)
          * 1000000000 + frac.1 = t := by
  unfold parseIso8601UtcNs
  simp only [Option.bind_eq_bind, Option.bind_none, Option.ite_none_left_eq_some,
    Option.bind_eq_some_iff, Bool.not_eq_true', Bool.not_eq_false, ne_eq, not_not, Option.some_inj]

/-- The sum of the source, computed without wrapping and reduced at the end. -/
lemma nanos_eq {days : ℤ} (hdays : 0 ≤ days) (hour minute second fraction : ℕ) :
    (UInt64.ofInt days * 86400 + UInt64.ofNat hour * 3600 + UInt64.ofNat minute * 60
        + UInt64.ofNat second) * 1000000000 + UInt64.ofNat fraction
      = UInt64.ofNat ((days.toNat * 86400 + hour * 3600 + minute * 60 + second) * 10 ^ 9
        + fraction) := by
  obtain ⟨n, rfl⟩ := Int.eq_ofNat_of_zero_le hdays
  have hword : UInt64.ofInt (n : ℤ) = UInt64.ofNat n := by
    rw [← UInt64.toNat_inj, UInt64.ofInt, UInt64.toNat_ofNat', UInt64.toNat_ofNat']
    omega
  have hpow : (10 : ℕ) ^ 9 = 1000000000 := rfl
  rw [hword, hpow, Int.toNat_natCast]
  simp only [UInt64.ofNat_add, UInt64.ofNat_mul]
  rfl

lemma toNat_ofNat_small {n : ℕ} (h : n < 10 ^ 4) : (UInt64.ofNat n).toNat = n := by
  rw [UInt64.toNat_ofNat']
  omega

/-- The range check on numbers of at most two digits. -/
lemma range_iff {month day hour minute second : ℕ} (hmonth : month < 10 ^ 2) (hday : day < 10 ^ 2)
    (hhour : hour < 10 ^ 2) (hminute : minute < 10 ^ 2) (hsecond : second < 10 ^ 2) :
    ¬ (UInt64.ofNat month < 1 ∨ 12 < UInt64.ofNat month ∨ UInt64.ofNat day < 1 ∨
        31 < UInt64.ofNat day ∨ UInt64.ofNat hour > 23 ∨ UInt64.ofNat minute > 59 ∨
        UInt64.ofNat second > 60) ↔
      1 ≤ month ∧ month ≤ 12 ∧ 1 ≤ day ∧ day ≤ 31 ∧ hour ≤ 23 ∧ minute ≤ 59 ∧ second ≤ 60 := by
  simp only [gt_iff_lt, UInt64.lt_iff_toNat_lt, toNat_ofNat_small (by omega : month < 10 ^ 4),
    toNat_ofNat_small (by omega : day < 10 ^ 4), toNat_ofNat_small (by omega : hour < 10 ^ 4),
    toNat_ofNat_small (by omega : minute < 10 ^ 4), toNat_ofNat_small (by omega : second < 10 ^ 4)]
  show ¬ (month < 1 ∨ 12 < month ∨ day < 1 ∨ 31 < day ∨ 23 < hour ∨ 59 < minute ∨ 60 < second) ↔ _
  omega

/-- The numbers have the digits that the text has for them. -/
lemma IsoFields.lt_ten_pow (f : IsoFields) :
    f.year < 10 ^ 4 ∧ f.month < 10 ^ 2 ∧ f.day < 10 ^ 2 ∧ f.hour < 10 ^ 2 ∧ f.minute < 10 ^ 2 ∧
      f.second < 10 ^ 2 := by
  obtain ⟨year, month, day, hour, minute, second, hyear, hmonth1, hmonth12, hday1, hday31,
    hhour23, hminute59, hsecond60⟩ := f
  dsimp only
  omega

/-- What the parser reads from the text of some fields. -/
lemma IsoFields.steps_text (f : IsoFields) {tail rest : List UInt8} {nanos : ℕ}
    (htext : FractionText tail nanos rest) :
    hasIsoShape (f.text tail) = true ∧ num (slice (f.text tail) 0 4) = some (UInt64.ofNat f.year) ∧
      num (slice (f.text tail) 5 7) = some (UInt64.ofNat f.month) ∧
      num (slice (f.text tail) 8 10) = some (UInt64.ofNat f.day) ∧
      num (slice (f.text tail) 11 13) = some (UInt64.ofNat f.hour) ∧
      num (slice (f.text tail) 14 16) = some (UInt64.ofNat f.minute) ∧
      num (slice (f.text tail) 17 19) = some (UInt64.ofNat f.second) ∧
      fraction ((f.text tail).drop 19) = some (UInt64.ofNat nanos, 'Z'.toUInt8 :: rest) := by
  have htail : tail ≠ [] := by
    rintro rfl
    cases htext
  obtain ⟨hshape, hyear, hmonth, hday, hhour, hminute, hsecond, hdrop⟩ :=
    slices_isoLine (length_fixedDigits 4 f.year) (length_fixedDigits 2 f.month)
      (length_fixedDigits 2 f.day) (length_fixedDigits 2 f.hour) (length_fixedDigits 2 f.minute)
      (length_fixedDigits 2 f.second) htail
  have hnum {width n : ℕ} (hn : n < 10 ^ width) :
      num (fixedDigits width n) = some (UInt64.ofNat n) :=
    (num_eq_some_iff (length_fixedDigits width n)).mpr ⟨n, hn, rfl, rfl⟩
  obtain ⟨hyear', hmonth', hday', hhour', hminute', hsecond'⟩ := f.lt_ten_pow
  unfold IsoFields.text
  rw [hyear, hmonth, hday, hhour, hminute, hsecond, hdrop]
  exact ⟨hshape, hnum hyear', hnum hmonth', hnum hday', hnum hhour', hnum hminute', hnum hsecond',
    fraction_of_text htext⟩

/-- What is accepted: fields in their ranges, a fraction, a `Z` and anything behind it; and what
it is read as. -/
lemma parse_eq_some_iff {s : List UInt8} {t : UInt64} :
    parseIso8601UtcNs s = some t ↔
      ∃ (f : IsoFields) (tail rest : List UInt8) (nanos : ℕ), s = f.text tail ∧
        FractionText tail nanos rest ∧ 0 ≤ f.days ∧
        t = UInt64.ofNat (f.nanos f.days.toNat nanos) := by
  rw [parse_steps]
  constructor
  -- accepted: each field of the line is the text of a number in its range
  · rintro ⟨hshape, y, hy, m, hm, d, hd, hh, hhh, mm, hmm, ss, hss, hrange, ⟨fracNs, zrest⟩, hfrac,
      hz, hdays, rfl⟩
    obtain ⟨hlen, hline⟩ := eq_isoLine hshape
    obtain ⟨rest, rfl⟩ := List.head?_eq_some_iff.mp hz
    obtain ⟨nanos, htext, rfl⟩ := fraction_eq_some_iff.mp hfrac
    obtain ⟨year, hyear, hyear', rfl⟩ := (num_eq_some_iff (length_slice (by omega))).mp hy
    obtain ⟨month, hmonth, hmonth', rfl⟩ := (num_eq_some_iff (length_slice (by omega))).mp hm
    obtain ⟨day, hday, hday', rfl⟩ := (num_eq_some_iff (length_slice (by omega))).mp hd
    obtain ⟨hour, hhour, hhour', rfl⟩ := (num_eq_some_iff (length_slice (by omega))).mp hhh
    obtain ⟨minute, hminute, hminute', rfl⟩ := (num_eq_some_iff (length_slice (by omega))).mp hmm
    obtain ⟨second, hsecond, hsecond', rfl⟩ := (num_eq_some_iff (length_slice (by omega))).mp hss
    obtain ⟨hmonth1, hmonth12, hday1, hday31, hhour23, hminute59, hsecond60⟩ :=
      (range_iff hmonth hday hhour hminute hsecond).mp hrange
    rw [hyear', hmonth', hday', hhour', hminute', hsecond'] at hline
    rw [toNat_ofNat_small hyear, toNat_ofNat_small (by omega : month < 10 ^ 4),
      toNat_ofNat_small (by omega : day < 10 ^ 4)] at hdays ⊢
    refine ⟨⟨year, month, day, hour, minute, second, hyear, hmonth1, hmonth12, hday1, hday31,
      hhour23, hminute59, hsecond60⟩, s.drop 19, rest, nanos, hline, htext, Int.not_lt.mp hdays, ?_⟩
    exact nanos_eq (Int.not_lt.mp hdays) hour minute second nanos
  -- every step of the parser succeeds on such a text
  · rintro ⟨f, tail, rest, nanos, rfl, htext, hdays, rfl⟩
    obtain ⟨hshape, hyear, hmonth, hday, hhour, hminute, hsecond, hfrac⟩ := f.steps_text htext
    obtain ⟨hyear', hmonth', hday', hhour', hminute', hsecond'⟩ := f.lt_ten_pow
    refine ⟨hshape, _, hyear, _, hmonth, _, hday, _, hhour, _, hminute, _, hsecond, ?_, _, hfrac,
      rfl, ?_, ?_⟩
    · exact (range_iff hmonth' hday' hhour' hminute' hsecond').mpr
        ⟨f.month_pos, f.month_le, f.day_pos, f.day_le, f.hour_le, f.minute_le, f.second_le⟩
    · rw [toNat_ofNat_small hyear', toNat_ofNat_small (by omega), toNat_ofNat_small (by omega)]
      exact Int.not_lt.mpr hdays
    · rw [toNat_ofNat_small hyear', toNat_ofNat_small (by omega), toNat_ofNat_small (by omega)]
      exact nanos_eq hdays f.hour f.minute f.second nanos

/-! ## Exact timestamps -/

/-- A date that exists, a time of that day and the digits of a fraction. -/
structure IsoTime where
  date : Date
  hour : ℕ
  minute : ℕ
  second : ℕ
  fraction : Option (List UInt8)
  year_lt : date.year < 10000
  hour_lt : hour < 24
  minute_lt : minute < 60
  -- a leap second may be written
  second_le : second ≤ 60
  fraction_digits : ∀ digits ∈ fraction, AllDigits digits ∧ digits ≠ []

namespace IsoTime

/-- What stands behind the seconds. -/
def suffix (time : IsoTime) : List UInt8 :=
  match time.fraction with
  | none => ['Z'.toUInt8]
  | some digits => '.'.toUInt8 :: (digits ++ ['Z'.toUInt8])

/-- `YYYY-MM-DDTHH:MM:SS[.f]Z`. -/
def text (time : IsoTime) : List UInt8 :=
  isoLine (fixedDigits 4 time.date.year) (fixedDigits 2 time.date.month)
    (fixedDigits 2 time.date.day) (fixedDigits 2 time.hour) (fixedDigits 2 time.minute)
    (fixedDigits 2 time.second) time.suffix

/-- The nanoseconds since midnight, so many days before. -/
def nanosAfter (time : IsoTime) (days : ℕ) : ℕ :=
  (days * 86400 + time.hour * 3600 + time.minute * 60 + time.second) * 10 ^ 9
    + fractionNanos (time.fraction.getD [])

/-- The numbers of the text. -/
def fields (time : IsoTime) : IsoFields where
  year := time.date.year
  month := time.date.month
  day := time.date.day
  hour := time.hour
  minute := time.minute
  second := time.second
  year_lt := time.year_lt
  month_pos := time.date.month_pos
  month_le := time.date.month_le
  day_pos := time.date.day_pos
  day_le := time.date.day_le.trans (daysInMonth_le _ _)
  hour_le := Nat.le_of_lt_succ time.hour_lt
  minute_le := Nat.le_of_lt_succ time.minute_lt
  second_le := time.second_le

lemma fractionText_suffix (time : IsoTime) :
    FractionText time.suffix (fractionNanos (time.fraction.getD [])) [] := by
  have hdigits := time.fraction_digits
  unfold suffix
  cases hfraction : time.fraction with
  | none => exact .absent []
  | some digits => exact .digits (hdigits digits hfraction).1 []

lemma text_eq (time : IsoTime) : time.text = time.fields.text time.suffix := rfl

lemma days_fields (time : IsoTime) :
    time.fields.days = (time.date.dayNumber : ℤ) - unixEpoch.dayNumber :=
  daysFromCivil_eq time.date

/-- From the epoch on, the time is read as its nanoseconds modulo `2 ^ 64`. -/
lemma parse_text (time : IsoTime) (h : unixEpoch.dayNumber ≤ time.date.dayNumber) :
    parseIso8601UtcNs time.text = some (UInt64.ofNat
      (time.nanosAfter (time.date.dayNumber - unixEpoch.dayNumber))) := by
  have hdays := time.days_fields
  have htoNat : time.fields.days.toNat = time.date.dayNumber - unixEpoch.dayNumber := by omega
  rw [parse_eq_some_iff]
  refine ⟨time.fields, time.suffix, [], _, rfl, time.fractionText_suffix, by omega, ?_⟩
  rw [htoNat]
  rfl

end IsoTime

/-- Every date from 1970 on is some days after the epoch. -/
lemma dayNumber_epoch_le {date : Date} (h : 1970 ≤ date.year) :
    unixEpoch.dayNumber ≤ date.dayNumber := by
  have hyears : daysBeforeYear 1970 ≤ daysBeforeYear date.year :=
    strictMono_daysBeforeYear.monotone h
  have hepoch := daysBeforeYear_add 1970
  rw [dayNumber_unixEpoch]
  unfold Date.dayNumber
  omega

/-- Timestamps of the years 1970 to 2553 are converted exactly: `n` counts the days from the
epoch on. -/
theorem parse_isoTime (time : IsoTime) (hfirst : 1970 ≤ time.date.year)
    (hlast : time.date.year ≤ 2553) :
    ∃ (n : ℕ) (t : UInt64), unixEpoch.addDays n = time.date ∧
      parseIso8601UtcNs time.text = some t ∧ t.toNat = time.nanosAfter n := by
  have hepoch := dayNumber_epoch_le hfirst
  refine ⟨time.date.dayNumber - unixEpoch.dayNumber, _, Date.addDays_sub hepoch,
    time.parse_text hepoch, ?_⟩
  -- the days before 2554 leave room for the seconds of one day more
  have hdays : time.date.dayNumber < daysBeforeYear 2554 := by
    have hyears : daysBeforeYear (time.date.year + 1) ≤ daysBeforeYear 2554 :=
      strictMono_daysBeforeYear.monotone (Nat.succ_le_succ hlast)
    have hday := time.date.dayOfYear_lt
    rw [daysBeforeYear] at hyears
    unfold Date.dayNumber
    omega
  have hbound := daysBeforeYear_add 2554
  have hhour := time.hour_lt
  have hminute := time.minute_lt
  have hsecond := time.second_le
  have hfraction : fractionNanos (time.fraction.getD []) < 10 ^ 9 := by
    apply fractionNanos_lt
    have hdigits := time.fraction_digits
    cases hsome : time.fraction with
    | none => exact fun b hb => absurd hb List.not_mem_nil
    | some digits => exact (hdigits digits hsome).1
  rw [UInt64.toNat_ofNat']
  apply Nat.mod_eq_of_lt
  rw [dayNumber_unixEpoch]
  unfold IsoTime.nanosAfter
  omega

/-- 2024-02-29T12:00:00.5Z. -/
def leapDayNoon : IsoTime where
  date :=
    { year := 2024, month := 2, day := 29, month_pos := by decide, month_le := by decide,
      day_pos := by decide, day_le := by decide }
  hour := 12
  minute := 0
  second := 0
  fraction := some [53]
  year_lt := by decide
  hour_lt := by decide
  minute_lt := by decide
  second_le := by decide
  fraction_digits := by
    intro digits hdigits
    cases hdigits
    exact ⟨allDigits_singleton (by decide), by decide⟩

theorem parse_isoTime_leapDay :
    ∃ (n : ℕ) (t : UInt64), unixEpoch.addDays n = leapDayNoon.date ∧
      parseIso8601UtcNs leapDayNoon.text = some t ∧ t.toNat = leapDayNoon.nanosAfter n :=
  parse_isoTime leapDayNoon (by decide) (by decide)

/-! ## What else is accepted -/

/-- The text is a timestamp, and `t` its nanoseconds since the epoch. -/
def Denotes (s : List UInt8) (t : UInt64) : Prop :=
  ∃ (time : IsoTime) (n : ℕ), s = time.text ∧ unixEpoch.addDays n = time.date ∧
    t.toNat = time.nanosAfter n

/-- The number that the bytes from `start` to `stop` denote. -/
def textNumber (s : List UInt8) (start stop : ℕ) : ℕ := decimalValue (slice s start stop)

/-- The text ends at its first `Z`, digits follow the point, the date exists, and its nanoseconds
since the epoch are a 64-bit number. -/
structure Proper (s : List UInt8) : Prop where
  z_last : 'Z'.toUInt8 ∉ (s.drop 19).dropLast
  digits : s[19]? = some '.'.toUInt8 → s[20]? ≠ some 'Z'.toUInt8
  date : ∃ date : Date, date.year = textNumber s 0 4 ∧ date.month = textNumber s 5 7 ∧
    date.day = textNumber s 8 10 ∧
    ((date.dayNumber - unixEpoch.dayNumber) * 86400 + textNumber s 11 13 * 3600
        + textNumber s 14 16 * 60 + textNumber s 17 19) * 10 ^ 9
      + fractionNanos ((s.drop 20).takeWhile isDigit) < 2 ^ 64

/-- The numbers of a text are its fields. -/
lemma textNumber_text (f : IsoFields) {tail : List UInt8} (htail : tail ≠ []) :
    textNumber (f.text tail) 0 4 = f.year ∧ textNumber (f.text tail) 5 7 = f.month ∧
      textNumber (f.text tail) 8 10 = f.day ∧ textNumber (f.text tail) 11 13 = f.hour ∧
      textNumber (f.text tail) 14 16 = f.minute ∧ textNumber (f.text tail) 17 19 = f.second ∧
      (f.text tail).drop 19 = tail := by
  obtain ⟨-, hyear, hmonth, hday, hhour, hminute, hsecond, hdrop⟩ :=
    slices_isoLine (length_fixedDigits 4 f.year) (length_fixedDigits 2 f.month)
      (length_fixedDigits 2 f.day) (length_fixedDigits 2 f.hour) (length_fixedDigits 2 f.minute)
      (length_fixedDigits 2 f.second) htail
  have hvalue {width n : ℕ} (hn : n < 10 ^ width) : decimalValue (fixedDigits width n) = n := by
    rw [decimalValue_fixedDigits, Nat.mod_eq_of_lt hn]
  have hmonth12 := f.month_le
  have hday31 := f.day_le
  have hhour23 := f.hour_le
  have hminute59 := f.minute_le
  have hsecond60 := f.second_le
  unfold textNumber IsoFields.text
  rw [hyear, hmonth, hday, hhour, hminute, hsecond, hdrop]
  exact ⟨hvalue f.year_lt, hvalue (by omega), hvalue (by omega), hvalue (by omega),
    hvalue (by omega), hvalue (by omega), rfl⟩

/-- Bytes behind a point and digits. -/
lemma getElem?_of_drop {s tail : List UInt8} {i : ℕ} (h : s.drop i = tail) (j : ℕ) :
    s[i + j]? = tail[j]? := by
  rw [← h, List.getElem?_drop]

lemma isDigit_z : ∀ b ∈ ['Z'.toUInt8].head?, isDigit b = false := by
  intro b hb
  cases hb
  decide

lemma proper_of_denotes {s : List UInt8} {t : UInt64} (h : Denotes s t) : Proper s := by
  obtain ⟨time, n, rfl, hdate, hnanos⟩ := h
  have hdigits := time.fraction_digits
  have htail : time.suffix ≠ [] := by
    unfold IsoTime.suffix
    split
    · exact List.cons_ne_nil _ _
    · exact List.cons_ne_nil _ _
  obtain ⟨hyear, hmonth, hday, hhour, hminute, hsecond, hdrop⟩ :=
    textNumber_text time.fields htail
  rw [← time.text_eq] at hyear hmonth hday hhour hminute hsecond hdrop
  have hdrop20 : time.text.drop 20 = time.suffix.tail := by
    rw [← hdrop, List.tail_drop]
  -- the days that the instant denotes are the days between the two dates
  have hn : time.date.dayNumber - unixEpoch.dayNumber = n := by
    rw [← hdate, Date.dayNumber_addDays]
    omega
  have hlt := t.toNat_lt
  refine ⟨?_, ?_, time.date, hyear.symm, hmonth.symm, hday.symm, ?_⟩
  -- the text ends in the one Z: neither the point nor a digit is one
  · rw [hdrop]
    unfold IsoTime.suffix
    split
    · decide
    · next digits hsome =>
      rw [← List.cons_append, List.dropLast_concat]
      intro hz
      rcases List.mem_cons.mp hz with hpoint | hz
      · exact absurd hpoint (by decide)
      · exact absurd ((hdigits digits hsome).1 _ hz) (by decide)
  -- a point is followed by a digit
  · rw [getElem?_of_drop hdrop 0, getElem?_of_drop hdrop 1]
    unfold IsoTime.suffix
    split
    · intro hpoint
      exact absurd hpoint (by decide)
    · next digits hsome =>
      obtain ⟨b, rest, rfl⟩ := List.exists_cons_of_ne_nil (hdigits digits hsome).2
      intro _ hz
      have hb := (hdigits _ hsome).1 b List.mem_cons_self
      rw [Option.some.inj hz] at hb
      exact absurd hb (by decide)
  -- the value fits, as the number of nanoseconds does
  · have hfraction : (time.text.drop 20).takeWhile isDigit = time.fraction.getD [] := by
      rw [hdrop20]
      unfold IsoTime.suffix
      split
      · next hnone =>
        rw [hnone]
        rfl
      · next digits hsome =>
        rw [hsome]
        exact (takeWhile_digits (hdigits digits hsome).1 isDigit_z).1
    rw [hn, hhour, hminute, hsecond, hfraction]
    unfold IsoTime.nanosAfter at hnanos
    show (n * 86400 + time.hour * 3600 + time.minute * 60 + time.second) * 10 ^ 9 + _ < 2 ^ 64
    omega

/-- Behind the seconds of a proper text stands nothing but the fraction and the `Z`. -/
lemma exists_fraction {tail rest : List UInt8} {nanos : ℕ} (htext : FractionText tail nanos rest)
    (hlast : 'Z'.toUInt8 ∉ tail.dropLast)
    (hpoint : tail[0]? = some '.'.toUInt8 → tail[1]? ≠ some 'Z'.toUInt8) :
    ∃ fraction : Option (List UInt8), (∀ digits ∈ fraction, AllDigits digits ∧ digits ≠ []) ∧
      tail = (match fraction with
        | none => ['Z'.toUInt8]
        | some digits => '.'.toUInt8 :: (digits ++ ['Z'.toUInt8])) ∧
      nanos = fractionNanos (fraction.getD []) ∧
      tail.tail.takeWhile isDigit = fraction.getD [] := by
  -- a byte behind the first `Z` would make it one of those before the last
  have hend (front : List UInt8) (h : 'Z'.toUInt8 ∉ (front ++ 'Z'.toUInt8 :: rest).dropLast) :
      rest = [] := by
    by_contra hne
    rw [List.dropLast_append_of_ne_nil (List.cons_ne_nil _ _), List.dropLast_cons_of_ne_nil hne]
      at h
    exact h (List.mem_append_right _ List.mem_cons_self)
  cases htext with
  | absent =>
    obtain rfl := hend [] hlast
    exact ⟨none, fun digits hdigits => (Option.not_mem_none _ hdigits).elim, rfl, rfl, rfl⟩
  | @digits digits hdigits =>
    obtain rfl := hend ('.'.toUInt8 :: digits) hlast
    refine ⟨some digits, ?_, rfl, rfl, (takeWhile_digits hdigits isDigit_z).1⟩
    intro digits' hsome
    cases hsome
    refine ⟨hdigits, ?_⟩
    rintro rfl
    exact hpoint rfl rfl

lemma denotes_of_proper {s : List UInt8} {t : UInt64} (h : parseIso8601UtcNs s = some t)
    (hproper : Proper s) : Denotes s t := by
  obtain ⟨f, tail, rest, nanos, rfl, htext, hdays, rfl⟩ := parse_eq_some_iff.mp h
  obtain ⟨hlast, hpoint, date, hyear, hmonth, hday, hbound⟩ := hproper
  have htail : tail ≠ [] := by
    rintro rfl
    cases htext
  obtain ⟨hyear', hmonth', hday', hhour, hminute, hsecond, hdrop⟩ := textNumber_text f htail
  have hdrop20 : (f.text tail).drop 20 = tail.tail := by
    have htailOf := congrArg List.tail hdrop
    rwa [List.tail_drop] at htailOf
  rw [hdrop] at hlast
  rw [getElem?_of_drop hdrop 0, getElem?_of_drop hdrop 1] at hpoint
  rw [hyear'] at hyear
  rw [hmonth'] at hmonth
  rw [hday'] at hday
  -- what is behind the seconds is the suffix of a well formed time
  obtain ⟨fraction, hfraction, htailEq, hnanos, htake⟩ := exists_fraction htext hlast hpoint
  rw [hhour, hminute, hsecond, hdrop20, htake, ← hnanos] at hbound
  -- the algorithm of the code counts the days of the calendar
  have hcalendar : f.days = (date.dayNumber : ℤ) - unixEpoch.dayNumber := by
    rw [← daysFromCivil_eq, hyear, hmonth, hday]
    rfl
  have hepoch : unixEpoch.dayNumber ≤ date.dayNumber := by omega
  have hcount : f.days.toNat = date.dayNumber - unixEpoch.dayNumber := by omega
  refine ⟨⟨date, f.hour, f.minute, f.second, fraction, ?_, Nat.lt_succ_of_le f.hour_le,
    Nat.lt_succ_of_le f.minute_le, f.second_le, hfraction⟩, date.dayNumber - unixEpoch.dayNumber,
    ?_, Date.addDays_sub hepoch, ?_⟩
  · rw [hyear]
    exact f.year_lt
  · unfold IsoTime.text IsoTime.suffix
    dsimp only
    rw [hyear, hmonth, hday, ← htailEq]
    rfl
  -- the wrapping arithmetic does not wrap, by the bound of a proper text
  · rw [UInt64.toNat_ofNat', hcount]
    unfold IsoFields.nanos IsoTime.nanosAfter
    dsimp only
    rw [← hnanos]
    exact Nat.mod_eq_of_lt hbound

/-- What is accepted denotes what it is read as exactly when it is proper. -/
theorem denotes_iff_proper {s : List UInt8} {t : UInt64} (h : parseIso8601UtcNs s = some t) :
    Denotes s t ↔ Proper s :=
  ⟨proper_of_denotes, denotes_of_proper h⟩

/-- A second before the first leap day of the epoch. -/
theorem denotes_iff_proper_1972 :
    Denotes (ofString "1972-02-28T23:59:59Z") 68169599000000000 ↔
      Proper (ofString "1972-02-28T23:59:59Z") :=
  denotes_iff_proper (by decide)

/-- The 31st of February is accepted. -/
theorem february_31_accepted :
    ¬ ∀ (s : List UInt8) (t : UInt64), parseIso8601UtcNs s = some t → Denotes s t := by
  intro h
  have hfebruary : parseIso8601UtcNs (ofString "2023-02-31T00:00:00Z") = some 1677801600000000000 := by
    decide
  obtain ⟨-, -, date, hyear, hmonth, hday, -⟩ := proper_of_denotes (h _ _ hfebruary)
  have hle := date.day_le
  rw [hyear, hmonth, hday] at hle
  revert hle
  decide

end ChainMarketPrice.CefiIngest
