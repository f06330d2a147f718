/-
# The fields of a timestamp

A timestamp is read in two steps.  The first takes its text apart into numbers, the
fields, and asks only for the right characters.  The second, in this module, asks
whether the fields denote an instant: the date exists, the time of day is one, and
the offset is less than a day.

* `Fields` : what a timestamp says;
* `Fields.instant?` : the instant it denotes.
-/
import Interleave.Time.Instant

namespace Interleave

/-- The numbers a timestamp is written with. -/
structure Fields where
  year : Int
  month : Nat
  day : Nat
  hour : Nat
  minute : Nat
  second : Nat
  /-- The fraction of the second. -/
  nanos : Nat
  /-- Seconds by which local time is ahead of universal time. -/
  offset : Int
  deriving DecidableEq, Repr

namespace Fields

/-- The time of day is one, where second 60 stands for a leap second in any minute. -/
def hasTimeOfDay (f : Fields) : Bool :=
  f.hour < 24 && f.minute < 60 && f.second ≤ 60

/-- Local time and universal time differ by less than a day. -/
def hasOffset (f : Fields) : Bool :=
  -86400 < f.offset && f.offset < 86400

/-- The nanosecond count: a leap second goes on where the second before it ends. -/
def nanoCount (f : Fields) : Nat :=
  if f.second = 60 then f.nanos + 1000000000 else f.nanos

/-- The seconds from 1970-01-01T00:00:00Z to the second the fields name on a date. -/
def secondCount (f : Fields) (date : Date) : Int :=
  date.dayNumber * 86400 + f.hour * 3600 + f.minute * 60 + min f.second 59 - f.offset

/-- The instant the fields denote, if they denote one in the supported years. -/
def instant? (f : Fields) : Option Instant :=
  if Instant.yearSupported f.year && f.hasTimeOfDay && f.hasOffset then
    (Date.ofParts? f.year f.month f.day).bind fun date =>
      if h : f.nanoCount < 2000000000 then
        if Instant.supported (f.secondCount date) then
          some ⟨f.secondCount date, f.nanoCount, h⟩
        else
          none
      else
        none
  else
    none

end Fields

end Interleave
