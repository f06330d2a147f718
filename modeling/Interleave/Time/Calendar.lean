/-
# The Gregorian calendar

The calendar is extended over all years: it holds before its introduction too, year
0 comes before year 1, and years may be negative.  A `Date` is a day that exists.

* `Date.ofParts?` : the date with a given year, month and day, if there is one;
* `Date.dayNumber` : how many days it lies after 1970-01-01.
-/

namespace Interleave

/-! ## Years and months -/

/-- Every fourth year is a leap year, of the centuries only every fourth. -/
def isLeapYear (year : Int) : Bool :=
  year % 4 == 0 && (year % 100 != 0 || year % 400 == 0)

/-- The number of days of a month, counted from 1. -/
def daysInMonth (year : Int) (month : Nat) : Nat :=
  if month = 2 then (if isLeapYear year then 29 else 28)
  else if month = 4 ∨ month = 6 ∨ month = 9 ∨ month = 11 then 30
  else 31

/-- The number of days from 0001-01-01 to the first day of a year; negative for the
years before. -/
def daysBeforeYear (year : Int) : Int :=
  let years := year - 1
  365 * years + years / 4 - years / 100 + years / 400

/-- The number of days of a year that lie before a month. -/
def daysBeforeMonth (year : Int) : Nat → Nat
  | 0 => 0
  | 1 => 0
  | month + 2 => daysBeforeMonth year (month + 1) + daysInMonth year (month + 1)

/-! ## Dates -/

/-- A day of the calendar. -/
structure Date where
  year : Int
  month : Nat
  day : Nat
  month_pos : 1 ≤ month
  month_le : month ≤ 12
  day_pos : 1 ≤ day
  day_le : day ≤ daysInMonth year month
  deriving DecidableEq, Repr

namespace Date

/-- The date with these parts, if the calendar has one. -/
def ofParts? (year : Int) (month day : Nat) : Option Date :=
  if h : (1 ≤ month ∧ month ≤ 12) ∧ 1 ≤ day ∧ day ≤ daysInMonth year month then
    some ⟨year, month, day, h.1.1, h.1.2, h.2.1, h.2.2⟩
  else
    none

/-- The number of days from 1970-01-01 to this date, which is day 719162 when days
are counted from 0001-01-01. -/
def dayNumber (d : Date) : Int :=
  daysBeforeYear d.year + daysBeforeMonth d.year d.month + (d.day - 1) - 719162

/-- The parts of a date give it back. -/
theorem ofParts?_parts (d : Date) : ofParts? d.year d.month d.day = some d := by
  simp [ofParts?, d.month_pos, d.month_le, d.day_pos, d.day_le]

end Date

end Interleave
