/-
# The spellings of an offset

An offset is written with a colon between its hours and its minutes, with nothing between
them, or as hours alone where there are no minutes.  Every spelling denotes the same: the
instant that the date and the time of day are in universal time, less the offset.  An offset
of a day or more is none.

* `Offset`, `Offset.seconds` : an offset, and the seconds by which local time is ahead;
* `Offset.Spelling`, `Offset.chars` : how it is written;
* `Offset.looseZone_chars` : what is read of it;
* `Civil.exists_shifted` : the instants of a date and a time of day with and without it;
* `offset_spellings` : all spellings denote the same instant.
-/
import Interleave.Proofs.Time.FullWidth

namespace Interleave.Timestamp

open Scan

/-! ## How an offset is written -/

/-- The sign of an offset. -/
inductive OffsetSign where
  | plus
  | hyphen
  /-- The minus sign U+2212. -/
  | minus
  deriving DecidableEq, Repr

namespace OffsetSign

/-- The sign as it is written. -/
def char : OffsetSign → Char
  | .plus => '+'
  | .hyphen => '-'
  | .minus => '\u2212'

/-- Whether local time is ahead of universal time, or behind it. -/
def factor : OffsetSign → Int
  | .plus => 1
  | .hyphen => -1
  | .minus => -1

end OffsetSign

/-- An offset: a sign, two digits of hours and two digits of minutes. -/
structure Offset where
  sign : OffsetSign
  hours : Digits 2
  minutes : Digits 2

namespace Offset

/-- The seconds by which local time is ahead of universal time. -/
def seconds (o : Offset) : Int :=
  o.sign.factor * (o.hours.number * 3600 + o.minutes.number * 60)

/-- The offset is less than a day, and its minutes less than an hour. -/
structure Valid (o : Offset) : Prop where
  hours_lt : o.hours.number < 24
  minutes_lt : o.minutes.number < 60

/-- The ways to write an offset. -/
inductive Spelling where
  /-- A colon between the hours and the minutes, `+05:30`. -/
  | colon
  /-- Nothing between them, `+0530`. -/
  | joined
  /-- No minutes, `+05`. -/
  | hoursOnly
  deriving DecidableEq, Repr

/-- The offset can be written so: minutes are left out only if there are none. -/
def Allows (o : Offset) : Spelling → Prop
  | .colon => True
  | .joined => True
  | .hoursOnly => o.minutes.number = 0

/-- What is written after the hours. -/
def afterHours (o : Offset) : Spelling → List Char
  | .colon => ':' :: o.minutes.chars
  | .joined => o.minutes.chars
  | .hoursOnly => []

/-- What is written. -/
def chars (o : Offset) (s : Spelling) : List Char :=
  o.sign.char :: (o.hours.chars ++ o.afterHours s)

/-- The text of an offset. -/
def text (o : Offset) (s : Spelling) : String := String.ofList (o.chars s)

end Offset

/-! ## What is read of it -/

/-- A sign is read. -/
theorem sign_char (s : OffsetSign) (rest : List Char) :
    sign (s.char :: rest) = some (s.factor, rest) := by
  cases s <;> rfl

/-- Two digits of minutes are read if they are less than an hour. -/
theorem offsetMinutes_chars (d : Digits 2) :
    offsetMinutes d.chars = if d.number < 60 then some d.number else none := by
  obtain ⟨a, b, chars⟩ := List.length_eq_two.mp d.length_chars
  have first : a.isDigit = true := d.isDigit_chars a (by simp [chars])
  have last : b.isDigit = true := d.isDigit_chars b (by simp [chars])
  have tens : value [a] = a.toNat - 48 := by simp [value]
  have both : d.number = value [a] * 10 + (b.toNat - 48) := by
    rw [Digits.number, chars, value_cons, value_cons, tens]
    simp [value]
  have ten := (toNat_of_isDigit last).2
  have small : value [a] ≤ 5 ↔ d.number < 60 := by omega
  rw [chars, offsetMinutes, ← chars]
  simp only [first, last, true_and, small]
  rfl

/-- What stands between the hours and the minutes is skipped. -/
theorem Offset.dropWhile_afterHours (o : Offset) {s : Spelling} (allowed : o.Allows s) :
    (o.afterHours s).dropWhile isOffsetGap = o.minutes.chars ∨
      (o.afterHours s).dropWhile isOffsetGap = [] ∧ o.minutes.number = 0 := by
  have stays : o.minutes.chars.dropWhile isOffsetGap = o.minutes.chars := by
    obtain ⟨a, b, chars⟩ := List.length_eq_two.mp o.minutes.length_chars
    have digit : a.isDigit = true := o.minutes.isDigit_chars a (by simp [chars])
    rw [chars, List.dropWhile_cons_of_neg (by rw [isOffsetGap_of_isDigit digit]; decide)]
  cases s with
  | colon => exact Or.inl stays
  | joined => exact Or.inl stays
  | hoursOnly => exact Or.inr ⟨rfl, allowed⟩

/-- **An offset is read** in every spelling, if its minutes are less than an hour. -/
theorem Offset.looseZone_chars (o : Offset) {s : Spelling} (allowed : o.Allows s) :
    looseZone (o.chars s) = if o.minutes.number < 60 then some o.seconds else none := by
  have plain : Text.isBlank o.sign.char = false := by cases o.sign <;> rfl
  have noZulu : isZulu o.sign.char = false := by cases o.sign <;> rfl
  unfold looseZone looseOffset chars
  simp only [reduceCtorEq, if_false, Text.skipBlanks_cons_of_not_isBlank plain, noZulu,
    Bool.false_eq_true, sign_char, Digits.number_append _ (Nat.le_refl 2), Option.bind_eq_bind,
    Option.bind_some]
  rcases o.dropWhile_afterHours allowed with minutes | ⟨nothing, zero⟩
  · have written : o.minutes.chars ≠ [] := by
      intro none
      have width := o.minutes.length_chars
      rw [none] at width
      cases width
    rw [minutes, if_neg written, offsetMinutes_chars]
    split <;> rfl
  · rw [nothing, if_pos rfl, zero]
    simp [seconds, zero]

/-! ## What it denotes -/

/-- **A date and a time of day with an offset** denote the instant that they are in universal
time, less the offset. -/
theorem Civil.exists_shifted {c : Civil} (valid : c.Valid) {nanos : Nat} (small : nanos < 1000000000)
    {offset : Int} (near : -86400 < offset ∧ offset < 86400) :
    ∃ i j, (c.fields nanos 0).instant? = some i ∧ (c.fields nanos offset).instant? = some j ∧
      j.seconds = i.seconds - offset ∧ j.nanos = i.nanos := by
  obtain ⟨i, given⟩ := Option.isSome_iff_exists.mp
    ((c.isSome_instant?_iff small (by decide : (-86400 : Int) < 0 ∧ (0 : Int) < 86400)).mpr valid)
  obtain ⟨j, given'⟩ := Option.isSome_iff_exists.mp ((c.isSome_instant?_iff small near).mpr valid)
  obtain ⟨date, a⟩ := instant?_eq_some_iff.mp given
  obtain ⟨date', b⟩ := instant?_eq_some_iff.mp given'
  have same : date'.dayNumber = date.dayNumber := by
    rw [Date.dayNumber_eq_iff, a.year, a.month, a.day, b.year, b.month, b.day]
    exact ⟨rfl, rfl, rfl⟩
  refine ⟨i, j, given, given', ?_, b.nanos.trans a.nanos.symm⟩
  rw [a.seconds, b.seconds, Fields.secondCount, Fields.secondCount, same]
  simp only [fields]
  omega

namespace Offset

/-- An offset is valid if it is less than a day, and its minutes less than an hour. -/
theorem valid_iff (o : Offset) :
    o.Valid ↔ (-86400 < o.seconds ∧ o.seconds < 86400) ∧ o.minutes.number < 60 := by
  have amount : o.seconds = o.hours.number * 3600 + o.minutes.number * 60 ∨
      o.seconds = -(o.hours.number * 3600 + o.minutes.number * 60 : Int) := by
    unfold seconds
    cases o.sign <;> simp [OffsetSign.factor]
  constructor
  · rintro ⟨hours, minutes⟩
    omega
  · rintro ⟨near, minutes⟩
    exact ⟨by omega, minutes⟩

/-- The instant that a local time with an offset denotes. -/
theorem parse?_text_append (o : Offset) {s : Spelling} (allowed : o.Allows s) (c : Civil)
    (d : Option Decimals) :
    parse? ((⟨c, d, false⟩ : Word).text ++ o.text s) =
      if o.minutes.number < 60 then
        (c.fields (nanos (⟨c, d, false⟩ : Word).digits) o.seconds).instant?
      else none := by
  have clean : ',' ∉ o.chars s := by
    have sign : ',' ≠ o.sign.char := by cases o.sign <;> decide
    have hours : ',' ∉ o.hours.chars := o.hours.not_mem_chars rfl
    have minutes : ',' ∉ o.minutes.chars := o.minutes.not_mem_chars rfl
    unfold chars afterHours
    cases s <;> simp [sign, hours, minutes]
  have stop : (o.chars s).takeWhile Char.isDigit = [] := by
    unfold chars
    cases o.sign <;> rfl
  have point : exactly '.' (o.chars s) = none := by
    unfold chars
    cases o.sign <;> rfl
  have denoted := (⟨c, d, false⟩ : Word).parse?_text_append clean stop point
  rw [text, denoted]
  show (looseZone (o.chars s)).bind _ = _
  rw [o.looseZone_chars allowed]
  split <;> rfl

end Offset

/-! ## All spellings -/

/-- **All spellings of an offset denote the same.**  A date and a time of day at full width,
with decimals or without, denote an instant with any offset of less than a day, in every
spelling of the offset.  It is the one that they denote with the letter for universal time, the
seconds less those of the offset and the nanoseconds unchanged.  With an offset of a day or
more, or with more than 59 minutes, they denote nothing in any spelling. -/
theorem offset_spellings (c : Civil) (d : Option Decimals) (o : Offset) :
    let front := (⟨c, d, false⟩ : Word).text
    (c.Valid → o.Valid → ∃ i j, parse? (front ++ "Z") = some i ∧
      (∀ s, o.Allows s → parse? (front ++ o.text s) = some j) ∧
      j.seconds = i.seconds - o.seconds ∧ j.nanos = i.nanos) ∧
    (¬ o.Valid → ∀ s, o.Allows s → parse? (front ++ o.text s) = none) := by
  intro front
  constructor
  · intro valid validOffset
    have near := (o.valid_iff.mp validOffset).1
    have small := (⟨c, d, false⟩ : Word).nanos_lt
    obtain ⟨i, j, given, given', seconds, nanos⟩ := c.exists_shifted valid small near
    refine ⟨i, j, ?_, ?_, seconds, nanos⟩
    · have clean : ',' ∉ ['Z'] := by decide
      rw [← given]
      exact (⟨c, d, false⟩ : Word).parse?_text_append clean rfl rfl
    · intro s allowed
      rw [o.parse?_text_append allowed, if_pos validOffset.minutes_lt, given']
  · intro invalid s allowed
    rw [o.parse?_text_append allowed]
    split
    · next minutes =>
        cases given : (c.fields (Scan.nanos (⟨c, d, false⟩ : Word).digits) o.seconds).instant? with
        | none => rfl
        | some i =>
            obtain ⟨date, denoted⟩ := instant?_eq_some_iff.mp given
            exact absurd (o.valid_iff.mpr ⟨denoted.near, minutes⟩) invalid
    · rfl

/-- A leap second at the beginning of year 0 is in the year before, where local time is ahead
of universal time.  An offset of a whole day is none. -/
theorem offset_spellings_year_zero :
    let c : Civil := ⟨.ofNat 4 0, .ofNat 2 1, .ofNat 2 1, .ofNat 2 0, .ofNat 2 0, .ofNat 2 60⟩
    let front := (⟨c, some ⟨true, 0, .ofNat 1 5⟩, false⟩ : Word).text
    front = "0000-01-01T00:00:60,5" ∧
      (∃ i j, parse? (front ++ "Z") = some i ∧ parse? (front ++ "+23:59") = some j ∧
        parse? (front ++ "+2359") = some j ∧ j.seconds = i.seconds - 86340 ∧ j.nanos = 1500000000) ∧
      parse? (front ++ "-24") = none := by
  intro c front
  have valid : c.Valid := ⟨by decide +kernel, by decide, by decide, by decide⟩
  let near : Offset := ⟨.plus, .ofNat 2 23, .ofNat 2 59⟩
  let far : Offset := ⟨.hyphen, .ofNat 2 24, .ofNat 2 0⟩
  obtain ⟨i, j, given, spelled, seconds, nanos⟩ :=
    (offset_spellings c (some ⟨true, 0, .ofNat 1 5⟩) near).1 valid ⟨by decide, by decide⟩
  have refused :=
    (offset_spellings c (some ⟨true, 0, .ofNat 1 5⟩) far).2
      (fun valid => absurd valid.hours_lt (by decide)) .hoursOnly rfl
  have colon := spelled .colon trivial
  have joined := spelled .joined trivial
  have leap : parse? (front ++ "Z") = some ⟨-62167219141, 1500000000, by decide⟩ := by
    decide +kernel
  obtain rfl := Option.some.inj (given.symm.trans leap)
  rw [show near.seconds = 86340 by decide +kernel] at seconds
  rw [show near.text .colon = "+23:59" by decide +kernel] at colon
  rw [show near.text .joined = "+2359" by decide +kernel] at joined
  rw [show far.text .hoursOnly = "-24" by decide +kernel] at refused
  exact ⟨by decide +kernel, ⟨_, j, given, colon, joined, seconds, nanos⟩, refused⟩

end Interleave.Timestamp
