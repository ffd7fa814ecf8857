import Mathlib.Order.Monotone.Basic
import Mathlib.Tactic.IntervalCases

/-!
# The Gregorian calendar

Leap years, the lengths of the months and the day after a date, from the year 0 on. The number
of a day counts the days of the whole years and months before it; it grows by one from each date
to the next, so it tells how often one has to go on to the next day (`addDays_sub`).
-/

namespace Calendar

/-- Every fourth year, of the centuries only every fourth. -/
def IsLeap (y : ℕ) : Prop := y % 4 = 0 ∧ (y % 100 ≠ 0 ∨ y % 400 = 0)

instance decidableIsLeap (y : ℕ) : Decidable (IsLeap y) :=
  inferInstanceAs (Decidable (y % 4 = 0 ∧ (y % 100 ≠ 0 ∨ y % 400 = 0)))

def daysInMonth (y : ℕ) : ℕ → ℕ
  | 1 | 3 | 5 | 7 | 8 | 10 | 12 => 31
  | 4 | 6 | 9 | 11 => 30
  | 2 => if IsLeap y then 29 else 28
  | _ => 0

/-- The days of the year before a month. -/
def daysBeforeMonth (y : ℕ) : ℕ → ℕ
  | 0 => 0
  | m + 1 => daysBeforeMonth y m + daysInMonth y m

def daysInYear (y : ℕ) : ℕ := daysBeforeMonth y 13

/-- The days of the years before a year. -/
def daysBeforeYear : ℕ → ℕ
  | 0 => 0
  | y + 1 => daysBeforeYear y + daysInYear y

/-- A date that exists. -/
@[ext]
structure Date where
  year : ℕ
  month : ℕ
  day : ℕ
  month_pos : 1 ≤ month
  month_le : month ≤ 12
  day_pos : 1 ≤ day
  day_le : day ≤ daysInMonth year month

/-! ## Years -/

lemma daysInYear_eq (y : ℕ) : daysInYear y = if IsLeap y then 366 else 365 := by
  unfold daysInYear
  simp only [daysBeforeMonth, daysInMonth]
  split
  · rfl
  · rfl

/-- The leap years before a year, and the year 0. -/
lemma daysBeforeYear_add (y : ℕ) :
    daysBeforeYear y + (y + 99) / 100 = 365 * y + (y + 3) / 4 + (y + 399) / 400 := by
  induction y with
  | zero => rfl
  | succ y ih =>
    rw [daysBeforeYear, daysInYear_eq]
    split
    · next hleap =>
      unfold IsLeap at hleap
      omega
    · next hleap =>
      unfold IsLeap at hleap
      omega

lemma strictMono_daysBeforeYear : StrictMono daysBeforeYear := by
  apply strictMono_nat_of_lt_succ
  intro y
  rw [daysBeforeYear, daysInYear_eq]
  split
  · omega
  · omega

lemma monotone_daysBeforeMonth (y : ℕ) : Monotone (daysBeforeMonth y) := by
  apply monotone_nat_of_le_succ
  intro m
  exact Nat.le_add_right _ _

lemma le_daysInMonth (y : ℕ) {m : ℕ} (hpos : 1 ≤ m) (hle : m ≤ 12) : 28 ≤ daysInMonth y m := by
  interval_cases m
  case «2» =>
    show 28 ≤ if IsLeap y then 29 else 28
    split
    · decide
    · decide
  all_goals exact Nat.le_of_ble_eq_true rfl

lemma daysInMonth_le (y m : ℕ) : daysInMonth y m ≤ 31 := by
  unfold daysInMonth
  split
  all_goals first
    | decide
    | split <;> decide

/-- The steps of a monotone function do not overlap. -/
lemma eq_of_between {f : ℕ → ℕ} (hf : Monotone f) {a b n : ℕ} (ha : f a ≤ n) (ha' : n < f (a + 1))
    (hb : f b ≤ n) (hb' : n < f (b + 1)) : a = b := by
  by_contra hne
  rcases Nat.lt_or_gt_of_ne hne with hlt | hlt
  · have hle : f (a + 1) ≤ f b := hf hlt
    omega
  · have hle : f (b + 1) ≤ f a := hf hlt
    omega

/-! ## Days -/

namespace Date

/-- The number of days before a date. -/
def dayNumber (d : Date) : ℕ :=
  daysBeforeYear d.year + daysBeforeMonth d.year d.month + (d.day - 1)

/-- The day after a date: the next of the month, the first of the next month or of the next
year. -/
def tomorrow (d : Date) : Date :=
  if h : d.day < daysInMonth d.year d.month then
    { d with day := d.day + 1, day_pos := Nat.le_add_left 1 d.day, day_le := h }
  else if h12 : d.month < 12 then
    { year := d.year, month := d.month + 1, day := 1, month_pos := Nat.le_add_left 1 d.month,
      month_le := h12, day_pos := le_rfl, day_le :=
        (le_daysInMonth d.year (Nat.le_add_left 1 d.month) h12).trans' (by decide) }
  else
    { year := d.year + 1, month := 1, day := 1, month_pos := le_rfl, month_le := by decide,
      day_pos := le_rfl,
      day_le := (le_daysInMonth (d.year + 1) le_rfl (by decide)).trans' (by decide) }

/-- The date so many days later. -/
def addDays (d : Date) : ℕ → Date
  | 0 => d
  | n + 1 => (d.addDays n).tomorrow

lemma dayNumber_tomorrow (d : Date) : d.tomorrow.dayNumber = d.dayNumber + 1 := by
  have hday := d.day_pos
  have hle := d.day_le
  have hmonth := d.month_le
  unfold tomorrow dayNumber
  split
  · dsimp only
    omega
  · next hend =>
    split
    · show daysBeforeYear d.year + daysBeforeMonth d.year (d.month + 1) + (1 - 1) = _
      rw [daysBeforeMonth]
      omega
    · next hlast =>
      -- the year is over
      have hdecember : d.month = 12 := by omega
      have hyear : daysInYear d.year = daysBeforeMonth d.year 12 + daysInMonth d.year 12 := rfl
      have hfirst : daysBeforeMonth (d.year + 1) 1 = 0 := rfl
      rw [hdecember] at hle hend ⊢
      show daysBeforeYear d.year + daysInYear d.year + daysBeforeMonth (d.year + 1) 1 + (1 - 1) = _
      omega

lemma dayNumber_addDays (d : Date) (n : ℕ) : (d.addDays n).dayNumber = d.dayNumber + n := by
  induction n with
  | zero => rfl
  | succ n ih =>
    show (d.addDays n).tomorrow.dayNumber = _
    rw [dayNumber_tomorrow, ih, Nat.add_assoc]

/-- The day stands within its month. -/
lemma dayOfMonth_lt (d : Date) : d.day - 1 < daysInMonth d.year d.month := by
  have hday := d.day_pos
  have hle := d.day_le
  omega

/-- The day stands within its year. -/
lemma dayOfYear_lt (d : Date) :
    daysBeforeMonth d.year d.month + (d.day - 1) < daysInYear d.year := by
  have hday := d.dayOfMonth_lt
  have hmonth : daysBeforeMonth d.year (d.month + 1) ≤ daysInYear d.year :=
    monotone_daysBeforeMonth d.year (Nat.succ_le_succ d.month_le)
  rw [daysBeforeMonth] at hmonth
  omega

/-- Different dates have different numbers. -/
lemma dayNumber_inj {d d' : Date} (h : d.dayNumber = d'.dayNumber) : d = d' := by
  have hlt := d.dayOfYear_lt
  have hlt' := d'.dayOfYear_lt
  have hday := d.dayOfMonth_lt
  have hday' := d'.dayOfMonth_lt
  have hpos := d.day_pos
  have hpos' := d'.day_pos
  unfold dayNumber at h
  -- both dates lie in the one year whose days contain the number
  have hyear : d.year = d'.year := by
    apply eq_of_between strictMono_daysBeforeYear.monotone
      (n := daysBeforeYear d.year + (daysBeforeMonth d.year d.month + (d.day - 1)))
    · exact Nat.le_add_right _ _
    · rw [daysBeforeYear]
      omega
    · omega
    · rw [daysBeforeYear]
      omega
  rw [← hyear] at h hday'
  -- and within it in one month
  have hmonth : d.month = d'.month := by
    apply eq_of_between (monotone_daysBeforeMonth d.year)
      (n := daysBeforeMonth d.year d.month + (d.day - 1))
    · exact Nat.le_add_right _ _
    · rw [daysBeforeMonth]
      omega
    · omega
    · rw [daysBeforeMonth]
      omega
  rw [← hmonth] at h
  ext
  · exact hyear
  · exact hmonth
  · omega

/-- The difference of the numbers is how many days later the second date is. -/
theorem addDays_sub {d d' : Date} (h : d.dayNumber ≤ d'.dayNumber) :
    d.addDays (d'.dayNumber - d.dayNumber) = d' := by
  apply dayNumber_inj
  rw [dayNumber_addDays]
  omega

end Date

end Calendar
