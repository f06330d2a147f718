/-
# Numbers with blanks in front

The looser forms of a timestamp take a number with fewer digits than its full width and with
blanks in front.  A year may have a sign and then any number of digits, an offset may have
blanks in front, and between its hours and its minutes a run of colons and blanks.

* `RunOf`, `Blanks` : runs of characters of a class;
* `SpacedNumber`, `SpacedYear`, `SpacedDate`, `SpacedTime` : numbers with blanks in front, and
  what they make up;
* `SpacedZone` : an offset, the letter for universal time, or nothing;
* `SpacedDate.looseDate_append`, `SpacedTime.looseTime_append`, `SpacedZone.looseZone_chars` :
  they are read;
* `SpacedDate.exists_of_looseDate`, `SpacedTime.exists_of_looseTime`,
  `SpacedZone.exists_of_looseZone`, `SpacedZone.exists_of_strictOffset` : nothing else is.
-/
import Interleave.Proofs.Time.Dates
import Interleave.Proofs.Time.Offsets

namespace Interleave.Timestamp

open Scan

/-! ## Numbers with blanks in front -/

/-- A run of characters of a class. -/
structure RunOf (p : Char → Bool) where
  chars : List Char
  forall_chars : ∀ c ∈ chars, p c = true

/-- Blanks, or none. -/
abbrev Blanks := RunOf Text.isBlank

/-- Blanks are skipped up to what is none. -/
theorem skipBlanks_blanks_append (blanks : Blanks) {text : List Char}
    (stays : Text.skipBlanks text = text) : Text.skipBlanks (blanks.chars ++ text) = text := by
  rw [Text.skipBlanks, List.dropWhile_append_of_pos blanks.forall_chars]
  exact stays

/-- The blanks in front of a text. -/
theorem exists_blanks (text : List Char) :
    ∃ blanks : Blanks, text = blanks.chars ++ Text.skipBlanks text :=
  ⟨⟨text.takeWhile Text.isBlank, fun _ member => List.mem_takeWhile_imp member⟩,
    List.takeWhile_append_dropWhile.symm⟩

/-- A number of at least one digit and at most so many, with blanks in front. -/
structure SpacedNumber (most : Nat) where
  blanks : Blanks
  width : Nat
  width_pos : 1 ≤ width
  width_le : width ≤ most
  digits : Digits width

namespace SpacedNumber

variable {most : Nat}

/-- What is written. -/
def chars (n : SpacedNumber most) : List Char := n.blanks.chars ++ n.digits.chars

/-- The number that is written. -/
def number (n : SpacedNumber most) : Nat := n.digits.number

/-- The number has all its digits and no blanks in front. -/
def IsFull (n : SpacedNumber most) : Prop := n.blanks.chars = [] ∧ n.width = most

/-- A number at full width. -/
def ofDigits (digits : Digits most) (pos : 1 ≤ most) : SpacedNumber most :=
  ⟨⟨[], nofun⟩, most, pos, Nat.le_refl _, digits⟩

/-- A number at full width is written with its digits. -/
theorem IsFull.exists_digits {n : SpacedNumber most} (h : n.IsFull) :
    ∃ digits : Digits most, n.chars = digits.chars ∧ n.number = digits.number := by
  obtain ⟨none, full⟩ := h
  obtain ⟨blanks, width, pos, le, digits⟩ := n
  dsimp only at none full
  subst full
  refine ⟨digits, ?_, rfl⟩
  rw [chars, none, List.nil_append]

/-- A number is scanned with the blanks in front of it. -/
theorem looseNumber_append (n : SpacedNumber most) {rest : List Char}
    (stop : rest.takeWhile Char.isDigit = []) :
    looseNumber most (n.chars ++ rest) = some (n.number, rest) := by
  have fewer : (rest.take (most - n.width)).takeWhile Char.isDigit = [] := by
    have front := takeWhile_of_prefix (List.take_prefix (most - n.width) rest) Char.isDigit
    rw [stop] at front
    exact List.prefix_nil.mp front
  have short : n.digits.chars.length ≤ most := n.digits.length_chars.trans_le n.width_le
  have run : ((n.digits.chars ++ rest).take most).takeWhile Char.isDigit = n.digits.chars := by
    rw [List.take_append, n.digits.length_chars, List.take_of_length_le short,
      List.takeWhile_append_of_pos n.digits.isDigit_chars, fewer, List.append_nil]
  have enough : 1 ≤ n.digits.chars.length := n.digits.length_chars.symm ▸ n.width_pos
  have skipped := skipBlanks_blanks_append n.blanks (n.digits.skipBlanks_append n.width_pos rest)
  rw [chars, List.append_assoc, looseNumber, skipped]
  simp only [Scan.number, Scan.digits, run, enough, if_true, List.drop_left, Option.map_some]
  rfl

/-- What is scanned is a number with blanks in front. -/
theorem exists_of_number {text rest : List Char} {value : Nat}
    (h : Scan.number 1 most text = some (value, rest)) (blanks : Blanks) :
    ∃ n : SpacedNumber most, blanks.chars ++ text = n.chars ++ rest ∧ value = n.number := by
  obtain ⟨⟨run, rest⟩, scanned, same⟩ := Option.map_eq_some_iff.mp h
  cases same
  obtain ⟨digit, least, short⟩ := run_of_digits scanned
  refine ⟨⟨blanks, run.length, least, short, ⟨run, rfl, digit⟩⟩, ?_, rfl⟩
  rw [chars, List.append_assoc, Scan.digits_append scanned]

/-- So is what is scanned with its blanks. -/
theorem exists_of_looseNumber {text rest : List Char} {value : Nat}
    (h : looseNumber most text = some (value, rest)) :
    ∃ n : SpacedNumber most, text = n.chars ++ rest ∧ value = n.number := by
  obtain ⟨blanks, split⟩ := exists_blanks text
  obtain ⟨n, same, number⟩ := exists_of_number h blanks
  exact ⟨n, split.trans same, number⟩

end SpacedNumber

/-! ## Years -/

/-- A year with blanks in front: up to four digits, or a sign and any number of them. -/
inductive SpacedYear where
  | plain (number : SpacedNumber 4)
  | signed (blanks : Blanks) (negative : Bool) (more : Nat) (digits : Digits (more + 1))

namespace SpacedYear

/-- What is written. -/
def chars : SpacedYear → List Char
  | .plain number => number.chars
  | .signed blanks negative more digits =>
      blanks.chars ++ (WrittenYear.signed negative more digits).chars

/-- The number of the year. -/
def number : SpacedYear → Int
  | .plain number => number.number
  | .signed _ negative more digits => (WrittenYear.signed negative more digits).number

/-- The year has four digits, and neither a sign nor blanks in front. -/
def IsFull : SpacedYear → Prop
  | .plain number => number.IsFull
  | .signed .. => False

/-- A year up to its hyphen is scanned, if it is supported. -/
theorem looseYear_append (year : SpacedYear)
    (supported : -262143 ≤ year.number ∧ year.number ≤ 262142) (rest : List Char) :
    looseYear (year.chars ++ '-' :: rest) = some (year.number, '-' :: rest) := by
  cases year with
  | plain number =>
      have stop : ('-' :: rest).takeWhile Char.isDigit = [] := rfl
      have scanned := number.looseNumber_append stop
      have skipped := skipBlanks_blanks_append number.blanks
        (number.digits.skipBlanks_append number.width_pos ('-' :: rest))
      rw [SpacedNumber.chars, List.append_assoc, looseNumber, skipped] at scanned
      rw [chars, SpacedNumber.chars, List.append_assoc, looseYear_eq, skipped]
      cases digits : number.digits.chars with
      | nil =>
          have width := number.digits.length_chars
          rw [digits] at width
          exact absurd width.symm (Nat.ne_of_gt number.width_pos)
      | cons c others =>
          have digit : c.isDigit = true := number.digits.isDigit_chars c (by simp [digits])
          have minus : c ≠ '-' := by rintro rfl; cases digit
          have plus : c ≠ '+' := by rintro rfl; cases digit
          rw [digits, List.cons_append] at scanned
          rw [List.cons_append]
          simp only [bareYear, minus, plus, if_false, scanned, Option.map_some]
          rfl
  | signed blanks negative more digits =>
      have stays : Text.skipBlanks
          ((WrittenYear.signed negative more digits).chars ++ '-' :: rest) =
            (WrittenYear.signed negative more digits).chars ++ '-' :: rest := by
        cases negative <;> exact Text.skipBlanks_cons_of_not_isBlank rfl
      rcases looseYear_chars_append (.signed negative more digits) rest with read | ⟨-, wide⟩
      · rw [looseYear_eq, stays] at read
        rw [chars, List.append_assoc, looseYear_eq, skipBlanks_blanks_append blanks stays]
        exact read
      · exact absurd supported wide

/-- What is scanned of a number of any length is a run of digits. -/
theorem exists_of_wideNumber {text rest : List Char} {n : Nat}
    (h : wideNumber text = some (n, rest)) :
    ∃ more, ∃ digits : Digits (more + 1), text = digits.chars ++ rest ∧ n = digits.number := by
  obtain ⟨⟨run, rest⟩, scanned, valued⟩ := Option.bind_eq_some_iff.mp h
  obtain ⟨n, value, same⟩ := Option.map_eq_some_iff.mp valued
  cases same
  obtain ⟨digit, least, -⟩ := run_of_digits scanned
  rw [wideValue?_eq] at value
  split at value
  · refine ⟨run.length - 1, ⟨run, by omega, digit⟩, Scan.digits_append scanned, ?_⟩
    exact (Option.some.inj value).symm
  · cases value

/-- What is scanned is a year. -/
theorem exists_of_looseYear {text rest : List Char} {value : Int}
    (h : looseYear text = some (value, rest)) :
    ∃ year : SpacedYear, text = year.chars ++ rest ∧ value = year.number := by
  obtain ⟨blanks, split⟩ := exists_blanks text
  rw [looseYear_eq] at h
  cases bare : Text.skipBlanks text with
  | nil =>
      rw [bare] at h
      cases h
  | cons c others =>
      rw [bare] at h split
      unfold bareYear at h
      dsimp only at h
      split_ifs at h with minus plus
      · obtain ⟨⟨n, rest⟩, scanned, same⟩ := Option.map_eq_some_iff.mp h
        cases same
        obtain ⟨more, digits, rfl, rfl⟩ := exists_of_wideNumber scanned
        refine ⟨.signed blanks true more digits, ?_, rfl⟩
        rw [split, minus, chars, List.append_assoc]
        rfl
      · obtain ⟨⟨n, rest⟩, scanned, same⟩ := Option.map_eq_some_iff.mp h
        cases same
        obtain ⟨more, digits, rfl, rfl⟩ := exists_of_wideNumber scanned
        refine ⟨.signed blanks false more digits, ?_, rfl⟩
        rw [split, plus, chars, List.append_assoc]
        rfl
      · obtain ⟨⟨n, rest⟩, scanned, same⟩ := Option.map_eq_some_iff.mp h
        cases same
        obtain ⟨number, same, rfl⟩ := SpacedNumber.exists_of_number scanned blanks
        exact ⟨.plain number, split.trans same, rfl⟩

end SpacedYear

/-! ## Dates and times of day -/

/-- A date: year, month and day with hyphens between them. -/
structure SpacedDate where
  year : SpacedYear
  month : SpacedNumber 2
  day : SpacedNumber 2

namespace SpacedDate

/-- What is written. -/
def chars (d : SpacedDate) : List Char :=
  d.year.chars ++ '-' :: (d.month.chars ++ '-' :: d.day.chars)

/-- The date is at full width. -/
def IsFull (d : SpacedDate) : Prop := d.year.IsFull ∧ d.month.IsFull ∧ d.day.IsFull

/-- A date is read, if its year is supported. -/
theorem looseDate_append (d : SpacedDate)
    (supported : -262143 ≤ d.year.number ∧ d.year.number ≤ 262142) {rest : List Char}
    (stop : rest.takeWhile Char.isDigit = []) :
    looseDate (d.chars ++ rest) = some (d.year.number, d.month.number, d.day.number, rest) := by
  unfold looseDate chars
  simp only [List.append_assoc, List.cons_append, d.year.looseYear_append supported, exactly_cons,
    d.month.looseNumber_append (show ('-' :: (d.day.chars ++ rest)).takeWhile _ = [] from rfl),
    d.day.looseNumber_append stop, Option.bind_eq_bind, Option.bind_some]

/-- What is read is a date. -/
theorem exists_of_looseDate {text rest : List Char} {year : Int} {month day : Nat}
    (h : looseDate text = some (year, month, day, rest)) :
    ∃ d : SpacedDate, text = d.chars ++ rest ∧ year = d.year.number ∧ month = d.month.number ∧
      day = d.day.number := by
  simp only [looseDate, Option.bind_eq_bind, Option.bind_eq_some_iff, Prod.exists,
    exactly_eq_some_iff] at h
  obtain ⟨_, _, readYear, _, rfl, _, _, readMonth, _, rfl, _, _, readDay, same⟩ := h
  cases same
  obtain ⟨year, rfl, rfl⟩ := SpacedYear.exists_of_looseYear readYear
  obtain ⟨month, rfl, rfl⟩ := SpacedNumber.exists_of_looseNumber readMonth
  obtain ⟨day, rfl, rfl⟩ := SpacedNumber.exists_of_looseNumber readDay
  exact ⟨⟨year, month, day⟩, by simp [chars], rfl, rfl, rfl⟩

end SpacedDate

/-- A time of day: hour, minute and second with colons between them. -/
structure SpacedTime where
  hour : SpacedNumber 2
  minute : SpacedNumber 2
  second : SpacedNumber 2

namespace SpacedTime

/-- What is written. -/
def chars (t : SpacedTime) : List Char :=
  t.hour.chars ++ ':' :: (t.minute.chars ++ ':' :: t.second.chars)

/-- The time of day is at full width. -/
def IsFull (t : SpacedTime) : Prop := t.hour.IsFull ∧ t.minute.IsFull ∧ t.second.IsFull

/-- A time of day is read. -/
theorem looseTime_append (t : SpacedTime) {rest : List Char}
    (stop : rest.takeWhile Char.isDigit = []) :
    looseTime (t.chars ++ rest) =
      some (t.hour.number, t.minute.number, t.second.number, rest) := by
  have colon : ∀ others : List Char, (':' :: others).takeWhile Char.isDigit = [] := fun _ => rfl
  unfold looseTime chars
  simp only [List.append_assoc, List.cons_append, t.hour.looseNumber_append (colon _),
    t.minute.looseNumber_append (colon _), t.second.looseNumber_append stop, exactly_cons,
    Option.bind_eq_bind, Option.bind_some]

/-- What is read is a time of day. -/
theorem exists_of_looseTime {text rest : List Char} {hour minute second : Nat}
    (h : looseTime text = some (hour, minute, second, rest)) :
    ∃ t : SpacedTime, text = t.chars ++ rest ∧ hour = t.hour.number ∧ minute = t.minute.number ∧
      second = t.second.number := by
  simp only [looseTime, Option.bind_eq_bind, Option.bind_eq_some_iff, Prod.exists,
    exactly_eq_some_iff] at h
  obtain ⟨_, _, readHour, _, rfl, _, _, readMinute, _, rfl, _, _, readSecond, same⟩ := h
  cases same
  obtain ⟨hour, rfl, rfl⟩ := SpacedNumber.exists_of_looseNumber readHour
  obtain ⟨minute, rfl, rfl⟩ := SpacedNumber.exists_of_looseNumber readMinute
  obtain ⟨second, rfl, rfl⟩ := SpacedNumber.exists_of_looseNumber readSecond
  exact ⟨⟨hour, minute, second⟩, by simp [chars], rfl, rfl, rfl⟩

end SpacedTime

/-! ## Offsets -/

/-- What stands after the decimals: nothing, the letter for universal time, or an offset, with
blanks in front. -/
inductive SpacedZone where
  | none
  | zulu (blanks : Blanks) (capital : Bool)
  | offset (blanks : Blanks) (sign : OffsetSign) (hours : Digits 2) (gap : RunOf isOffsetGap)
      (minutes : Option (Digits 2))

namespace SpacedZone

/-- The minutes as they are written. -/
def minuteChars : Option (Digits 2) → List Char
  | .none => []
  | .some minutes => minutes.chars

/-- What is written. -/
def chars : SpacedZone → List Char
  | .none => []
  | .zulu blanks capital => blanks.chars ++ [if capital then 'Z' else 'z']
  | .offset blanks sign hours gap minutes =>
      blanks.chars ++ sign.char :: (hours.chars ++ (gap.chars ++ minuteChars minutes))

/-- The minutes, which must be less than an hour. -/
def minuteNumber? : Option (Digits 2) → Option Nat
  | .none => some 0
  | .some minutes => if minutes.number < 60 then some minutes.number else Option.none

/-- The seconds by which local time is ahead of universal time. -/
def seconds? : SpacedZone → Option Int
  | .none => some 0
  | .zulu .. => some 0
  | .offset _ sign hours _ minutes =>
      (minuteNumber? minutes).map fun minutes : Nat => sign.factor * (hours.number * 3600 + minutes * 60)

/-- The letter, or an offset with a colon before its minutes, and no blanks. -/
def IsStrict : SpacedZone → Prop
  | .none => False
  | .zulu blanks _ => blanks.chars = []
  | .offset blanks _ _ gap minutes => blanks.chars = [] ∧ gap.chars = [':'] ∧ minutes ≠ Option.none

/-- Nothing, the letter, or an offset with nothing or a colon before its minutes, if it has
any, and no blanks. -/
def IsRegular : SpacedZone → Prop
  | .none => True
  | .zulu blanks _ => blanks.chars = []
  | .offset blanks _ _ gap minutes =>
      blanks.chars = [] ∧ (gap.chars = [] ∨ gap.chars = [':'] ∧ minutes ≠ Option.none)

/-- No digit stands in front. -/
theorem takeWhile_chars (z : SpacedZone) : z.chars.takeWhile Char.isDigit = [] := by
  -- What comes after the blanks is no digit either.
  have stops : ∀ (blanks : Blanks) (c : Char) (rest : List Char), c.isDigit = false →
      (blanks.chars ++ c :: rest).takeWhile Char.isDigit = [] := by
    intro blanks c rest other
    cases shape : blanks.chars with
    | nil => simp [other]
    | cons b others =>
        have blank := blanks.forall_chars b (by simp [shape])
        have none : b.isDigit = false := by
          cases digit : b.isDigit with
          | false => rfl
          | true =>
              rw [isBlank_of_isDigit digit] at blank
              cases blank
        simp [none]
  cases z with
  | none => rfl
  | zulu blanks capital => exact stops blanks _ [] (by cases capital <;> rfl)
  | offset blanks sign hours gap minutes => exact stops blanks _ _ (by cases sign <;> rfl)

/-- Digits of minutes are read if they are less than an hour, and their absence is none. -/
theorem minutes_dropWhile (gap : RunOf isOffsetGap) (minutes : Option (Digits 2)) (f : Nat → Int) :
    let text := (gap.chars ++ minuteChars minutes).dropWhile isOffsetGap
    (if text = [] then some (f 0) else (offsetMinutes text).bind fun n => some (f n)) =
      (minuteNumber? minutes).map f := by
  intro text
  have skipped : text = (minuteChars minutes).dropWhile isOffsetGap :=
    List.dropWhile_append_of_pos gap.forall_chars
  cases minutes with
  | none => rw [skipped]; rfl
  | some minutes =>
      obtain ⟨a, b, two⟩ := List.length_eq_two.mp minutes.length_chars
      have digit : a.isDigit = true := minutes.isDigit_chars a (by simp [two])
      have stays : text = minutes.chars := by
        rw [skipped, minuteChars, two,
          List.dropWhile_cons_of_neg (by rw [isOffsetGap_of_isDigit digit]; decide)]
      have written : text ≠ [] := by rw [stays, two]; exact List.cons_ne_nil _ _
      rw [if_neg written, stays, offsetMinutes_chars, Option.map_eq_bind]
      rfl

/-- **What stands after the decimals** is read. -/
theorem looseZone_chars (z : SpacedZone) : looseZone z.chars = z.seconds? := by
  cases z with
  | none => rfl
  | zulu blanks capital =>
      have stays : Text.skipBlanks [if capital then 'Z' else 'z'] = [if capital then 'Z' else 'z'] := by
        cases capital <;> exact Text.skipBlanks_cons_of_not_isBlank rfl
      have written : blanks.chars ++ [if capital then 'Z' else 'z'] ≠ [] := by simp
      rw [chars, looseZone, if_neg written, looseOffset, skipBlanks_blanks_append blanks stays]
      cases capital <;> rfl
  | offset blanks sign hours gap minutes =>
      have stays : ∀ others, Text.skipBlanks (sign.char :: others) = sign.char :: others := by
        intro others
        cases sign <;> exact Text.skipBlanks_cons_of_not_isBlank rfl
      have noZulu : isZulu sign.char = false := by cases sign <;> rfl
      have written : ∀ others, blanks.chars ++ sign.char :: others ≠ [] := by simp
      rw [chars, looseZone, if_neg (written _), looseOffset,
        skipBlanks_blanks_append blanks (stays _)]
      simp only [noZulu, Bool.false_eq_true, if_false, sign_char,
        Digits.number_append _ (Nat.le_refl 2), Option.bind_eq_bind, Option.bind_some]
      exact minutes_dropWhile gap minutes fun n => sign.factor * (hours.number * 3600 + n * 60)

/-- The sign of an offset is written with its character. -/
theorem exists_of_sign {text rest : List Char} {factor : Int} (h : sign text = some (factor, rest)) :
    ∃ s : OffsetSign, text = s.char :: rest ∧ factor = s.factor := by
  cases text with
  | nil => cases h
  | cons c text =>
      unfold sign at h
      dsimp only at h
      split_ifs at h with plus minus
      · cases h
        exact ⟨.plus, by rw [plus]; rfl, rfl⟩
      · cases h
        rcases minus with rfl | rfl
        · exact ⟨.hyphen, rfl, rfl⟩
        · exact ⟨.minus, rfl, rfl⟩

/-- The minutes of an offset are two digits that are less than an hour. -/
theorem exists_digits_of_offsetMinutes {text : List Char} {n : Nat}
    (h : offsetMinutes text = some n) :
    ∃ minutes : Digits 2, text = minutes.chars ∧ minuteNumber? (some minutes) = some n := by
  obtain ⟨a, b, rfl, first, last⟩ := exists_of_offsetMinutes h
  let minutes : Digits 2 := ⟨[a, b], rfl, by simp [first, last]⟩
  refine ⟨minutes, rfl, ?_⟩
  rw [← h]
  exact (offsetMinutes_chars minutes).symm

/-- The letter for universal time is one of two. -/
theorem exists_of_isZulu {c : Char} (h : isZulu c = true) :
    ∃ capital : Bool, c = if capital then 'Z' else 'z' := by
  simp only [isZulu, Bool.or_eq_true, beq_iff_eq] at h
  rcases h with rfl | rfl
  · exact ⟨true, rfl⟩
  · exact ⟨false, rfl⟩

/-- **What is read** after the decimals. -/
theorem exists_of_looseZone {text : List Char} {offset : Int} (h : looseZone text = some offset) :
    ∃ z : SpacedZone, text = z.chars ∧ z.seconds? = some offset := by
  unfold looseZone at h
  split_ifs at h with nothing
  · exact ⟨.none, nothing, h⟩
  obtain ⟨blanks, split⟩ := exists_blanks text
  unfold looseOffset at h
  cases skipped : Text.skipBlanks text with
  | nil =>
      rw [skipped] at h
      cases h
  | cons c rest =>
      rw [skipped] at h split
      dsimp only at h
      cases zulu : isZulu c with
      | true =>
          simp only [zulu, if_true] at h
          split_ifs at h with last
          obtain ⟨capital, letter⟩ := exists_of_isZulu zulu
          refine ⟨.zulu blanks capital, ?_, h⟩
          rw [split, letter, last]
          rfl
      | false =>
          simp only [zulu, Bool.false_eq_true, if_false, Option.bind_eq_bind,
            Option.bind_eq_some_iff, Prod.exists] at h
          obtain ⟨factor, _, signed, _, after, read, h⟩ := h
          obtain ⟨s, same, rfl⟩ := exists_of_sign signed
          obtain ⟨hours, rfl, rfl⟩ := Digits.exists_of_number read
          let gap : RunOf isOffsetGap :=
            ⟨after.takeWhile isOffsetGap, fun _ member => List.mem_takeWhile_imp member⟩
          have parts : after = gap.chars ++ after.dropWhile isOffsetGap :=
            List.takeWhile_append_dropWhile.symm
          split_ifs at h with last
          · refine ⟨.offset blanks s hours gap Option.none, ?_, h⟩
            rw [split, same, parts, last]
            rfl
          · obtain ⟨n, ended, h⟩ := Option.bind_eq_some_iff.mp h
            obtain ⟨minutes, written, number⟩ := exists_digits_of_offsetMinutes ended
            refine ⟨.offset blanks s hours gap (some minutes), ?_, ?_⟩
            · rw [split, same, parts, written]
              rfl
            · rw [seconds?, number]
              exact h

/-- What is read strictly has no blanks, and a colon before the minutes. -/
theorem exists_of_strictOffset {text : List Char} {offset : Int}
    (h : strictOffset text = some offset) :
    ∃ z : SpacedZone, z.IsStrict ∧ text = z.chars ∧ z.seconds? = some offset := by
  cases text with
  | nil => cases h
  | cons c rest =>
      unfold strictOffset at h
      dsimp only at h
      cases zulu : isZulu c with
      | true =>
          simp only [zulu, if_true] at h
          split_ifs at h with last
          obtain ⟨capital, letter⟩ := exists_of_isZulu zulu
          refine ⟨.zulu ⟨[], nofun⟩ capital, rfl, ?_, h⟩
          rw [letter, last]
          rfl
      | false =>
          simp only [zulu, Bool.false_eq_true, if_false, Option.bind_eq_bind,
            Option.bind_eq_some_iff, Prod.exists, exactly_eq_some_iff] at h
          obtain ⟨factor, _, signed, _, _, read, _, rfl, n, ended, h⟩ := h
          obtain ⟨s, same, rfl⟩ := exists_of_sign signed
          obtain ⟨hours, rfl, rfl⟩ := Digits.exists_of_number read
          obtain ⟨minutes, rfl, number⟩ := exists_digits_of_offsetMinutes ended
          refine ⟨.offset ⟨[], nofun⟩ s hours ⟨[':'], List.forall_mem_singleton.mpr rfl⟩ (some minutes), ?_, same, ?_⟩
          · exact ⟨rfl, rfl, Option.some_ne_none _⟩
          · rw [seconds?, number]
            exact h

/-- What is strict is read strictly. -/
theorem strictOffset_chars {z : SpacedZone} (strict : z.IsStrict) :
    strictOffset z.chars = z.seconds? := by
  cases z with
  | none => cases strict
  | zulu blanks capital =>
      rw [chars, show blanks.chars = [] from strict]
      cases capital <;> rfl
  | offset blanks sign hours gap minutes =>
      obtain ⟨none, colon, written⟩ := strict
      have noZulu : isZulu sign.char = false := by cases sign <;> rfl
      cases minutes with
      | none => exact absurd rfl written
      | some minutes =>
          rw [chars, none, colon]
          simp only [strictOffset, List.nil_append, noZulu, Bool.false_eq_true, if_false, sign_char,
            Digits.number_append _ (Nat.le_refl 2), List.cons_append, exactly_cons, minuteChars,
            offsetMinutes_chars, Option.bind_eq_bind, Option.bind_some, seconds?,
            Option.map_eq_bind]
          rfl

end SpacedZone

end Interleave.Timestamp
