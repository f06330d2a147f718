/-
# The order of dates

Dates are in the order of their years, within a year of their months, and within a month
of their days, and so are the numbers of their days.

* `daysBeforeYear_succ` : how many days a year has;
* `Date.dayOfYear` : the number of a day in its year;
* `dayNumber_bounds` : the days of the years written with four digits;
* `dayNumber_lt_iff` : the order of dates;
* `dayNumber_eq_iff` : no two dates have the same number;
* `Date.next`, `Date.dayNumber_next` : the next day has the next number.
-/
import Interleave.Time.Calendar

namespace Interleave

/-! ## Years -/

/-- The number of days of a year. -/
def daysInYear (year : Int) : Nat := if isLeapYear year then 366 else 365

/-- A year begins when the days of the year before it are over. -/
theorem daysBeforeYear_succ (year : Int) :
    daysBeforeYear (year + 1) = daysBeforeYear year + daysInYear year := by
  unfold daysBeforeYear daysInYear isLeapYear
  dsimp only
  split
  · next leap =>
      simp at leap
      omega
  · next common =>
      simp at common
      omega

/-- Later years begin later. -/
theorem daysBeforeYear_mono {year year' : Int} (h : year ≤ year') :
    daysBeforeYear year ≤ daysBeforeYear year' := by
  unfold daysBeforeYear
  dsimp only
  omega

/-! ## Months -/

/-- A month begins when the days of the month before it are over. -/
theorem daysBeforeMonth_succ (year : Int) {month : Nat} (pos : 1 ≤ month) :
    daysBeforeMonth year (month + 1) = daysBeforeMonth year month + daysInMonth year month := by
  obtain ⟨n, rfl⟩ : ∃ n, month = n + 1 := ⟨month - 1, by omega⟩
  rfl

/-- Later months begin later. -/
theorem daysBeforeMonth_mono (year : Int) {month month' : Nat} (pos : 1 ≤ month)
    (h : month ≤ month') : daysBeforeMonth year month ≤ daysBeforeMonth year month' := by
  induction h with
  | refl => exact Nat.le_refl _
  | step before ih =>
      rw [daysBeforeMonth_succ year (Nat.le_trans pos before)]
      omega

/-- Twelve months make a year. -/
theorem daysBeforeMonth_thirteen (year : Int) : daysBeforeMonth year 13 = daysInYear year := by
  unfold daysInYear
  cases leap : isLeapYear year <;> simp [daysBeforeMonth, daysInMonth, leap]

/-! ## Dates -/

namespace Date

/-- The date with these parts is the one that has them. -/
theorem ofParts?_eq_some_iff {year : Int} {month day : Nat} {d : Date} :
    ofParts? year month day = some d ↔ d.year = year ∧ d.month = month ∧ d.day = day := by
  constructor
  · intro found
    unfold ofParts? at found
    split at found
    · cases found
      exact ⟨rfl, rfl, rfl⟩
    · cases found
  · rintro ⟨rfl, rfl, rfl⟩
    exact ofParts?_parts d

/-- The number of a day in its year, where the first is 0. -/
def dayOfYear (d : Date) : Nat := daysBeforeMonth d.year d.month + (d.day - 1)

/-- A day is before the month that follows. -/
theorem dayOfYear_lt_succ (d : Date) :
    d.dayOfYear < daysBeforeMonth d.year (d.month + 1) := by
  have last := d.day_le
  have first := d.day_pos
  rw [daysBeforeMonth_succ d.year d.month_pos, dayOfYear]
  omega

/-- A day is before the year that follows. -/
theorem dayOfYear_lt (d : Date) : d.dayOfYear < daysInYear d.year := by
  have next := d.dayOfYear_lt_succ
  have last := daysBeforeMonth_mono d.year (by omega : 1 ≤ d.month + 1)
    (Nat.succ_le_succ d.month_le)
  rw [daysBeforeMonth_thirteen] at last
  omega

/-- The number of a day counts from the beginning of its year. -/
theorem dayNumber_eq (d : Date) :
    d.dayNumber = daysBeforeYear d.year + d.dayOfYear - 719162 := by
  have first := d.day_pos
  unfold dayNumber dayOfYear
  omega

/-- Day 0 is 1970-01-01. -/
example : (ofParts? 1970 1 1).map dayNumber = some 0 := by decide

/-- The days of the years written with four digits. -/
theorem dayNumber_bounds {d : Date} (first : 0 ≤ d.year) (last : d.year < 10000) :
    -719528 ≤ d.dayNumber ∧ d.dayNumber < 2932897 := by
  have day := d.dayOfYear_lt
  have next := daysBeforeYear_succ d.year
  have low := daysBeforeYear_mono first
  have high := daysBeforeYear_mono (Int.add_one_le_iff.mpr last)
  have zero : daysBeforeYear 0 = -366 := by decide
  have most : daysBeforeYear 10000 = 3652059 := by decide
  rw [dayNumber_eq]
  omega

/-- The date is earlier: its year is, or in the same year its month, or in the same month
its day. -/
def Before (a b : Date) : Prop :=
  a.year < b.year ∨ a.year = b.year ∧ (a.month < b.month ∨ a.month = b.month ∧ a.day < b.day)

/-- A day of an earlier month has a lower number in the year. -/
theorem dayOfYear_lt_of_month_lt {a b : Date} (year : a.year = b.year)
    (month : a.month < b.month) : a.dayOfYear < b.dayOfYear := by
  have next := a.dayOfYear_lt_succ
  have later := daysBeforeMonth_mono a.year (by omega : 1 ≤ a.month + 1) month
  rw [year] at next later
  have : b.dayOfYear = daysBeforeMonth b.year b.month + (b.day - 1) := rfl
  omega

/-- **An earlier date** has a lower number. -/
theorem Before.dayNumber_lt {a b : Date} (h : a.Before b) : a.dayNumber < b.dayNumber := by
  rw [dayNumber_eq, dayNumber_eq]
  rcases h with year | ⟨year, month | ⟨month, day⟩⟩
  · have within := a.dayOfYear_lt
    have later := daysBeforeYear_mono (Int.add_one_le_iff.mpr year)
    rw [daysBeforeYear_succ] at later
    omega
  · have less := dayOfYear_lt_of_month_lt year month
    rw [year]
    omega
  · have first := a.day_pos
    unfold dayOfYear
    rw [year, month]
    omega

/-- Of two dates one is earlier, or they are the same. -/
theorem before_or (a b : Date) :
    a.Before b ∨ (a.year = b.year ∧ a.month = b.month ∧ a.day = b.day) ∨ b.Before a := by
  unfold Before
  omega

/-- **Dates** are in the order of their numbers. -/
theorem dayNumber_lt_iff (a b : Date) : a.dayNumber < b.dayNumber ↔ a.Before b := by
  constructor
  · intro less
    rcases a.before_or b with before | ⟨year, month, day⟩ | after
    · exact before
    · have same : a.dayNumber = b.dayNumber := by
        unfold dayNumber
        rw [year, month, day]
      omega
    · have more := after.dayNumber_lt
      omega
  · exact Before.dayNumber_lt

/-- No two dates have the same number. -/
theorem dayNumber_eq_iff (a b : Date) :
    a.dayNumber = b.dayNumber ↔ a.year = b.year ∧ a.month = b.month ∧ a.day = b.day := by
  constructor
  · intro same
    rcases a.before_or b with before | equal | after
    · have less := before.dayNumber_lt
      omega
    · exact equal
    · have more := after.dayNumber_lt
      omega
  · rintro ⟨year, month, day⟩
    unfold dayNumber
    rw [year, month, day]

/-! ## The next day -/

/-- Every month has a day. -/
theorem daysInMonth_pos (year : Int) (month : Nat) : 1 ≤ daysInMonth year month := by
  unfold daysInMonth
  split
  · split <;> decide
  · split <;> decide

/-- The next day: the next of the month, else the first of the next month, else the first of
the next year. -/
def next (d : Date) : Date :=
  if more : d.day < daysInMonth d.year d.month then
    { d with
      day := d.day + 1
      day_pos := Nat.succ_pos _
      day_le := more }
  else if months : d.month < 12 then
    { d with
      month := d.month + 1
      day := 1
      month_pos := Nat.succ_pos _
      month_le := months
      day_pos := Nat.le_refl _
      day_le := daysInMonth_pos _ _ }
  else
    { year := d.year + 1
      month := 1
      day := 1
      month_pos := Nat.le_refl _
      month_le := by decide
      day_pos := Nat.le_refl _
      day_le := daysInMonth_pos _ _ }

/-- The next day is in no earlier year. -/
theorem year_le_year_next (d : Date) : d.year ≤ d.next.year := by
  unfold next
  split
  · exact Int.le_refl _
  · split
    · exact Int.le_refl _
    · exact Int.le_add_one (Int.le_refl _)

/-- **The next day** has the next number. -/
theorem dayNumber_next (d : Date) : d.next.dayNumber = d.dayNumber + 1 := by
  have first := d.day_pos
  have last := d.day_le
  have final := d.month_le
  have months := daysBeforeMonth_succ d.year d.month_pos
  unfold next
  split
  · simp only [dayNumber]
    omega
  · split
    · simp only [dayNumber, months]
      omega
    · have december : d.month = 12 := by omega
      have year := daysBeforeYear_succ d.year
      have begins : daysBeforeMonth (d.year + 1) 1 = 0 := rfl
      have ends : daysBeforeMonth d.year (d.month + 1) = daysInYear d.year := by
        rw [december, daysBeforeMonth_thirteen]
      simp only [dayNumber, year, begins]
      omega

end Date

end Interleave
