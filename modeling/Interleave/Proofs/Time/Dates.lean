/-
# Dates alone

A date alone denotes the midnight that begins it.  It is accepted if the calendar has it and
its year is supported, and the instants follow the calendar: from one day to the next there
are as many seconds as a day has, from 1970-01-01 on, forwards and backwards.

* `WrittenYear`, `DateWord` : a year of four digits, or a sign and any number of them, with
  a month and a day;
* `DateWord.midnight` : the fields of a date alone;
* `wideNumber_append`, `looseDate_chars_append` : what the looser forms read of it;
* `DateWord.midnight_instant?_eq`, `DateWord.isSome_midnight_instant?_iff` : which dates
  denote an instant, and which;
* `DateWord.parse?_text_append`, `DateWord.parse?_text_eq` : what a date denotes with midnight
  after it, and alone;
* `calendar_dates` : dates alone follow the calendar.
-/
import Interleave.Proofs.Time.FullWidth

namespace Interleave.Timestamp

open Scan

/-! ## Dates as they are written -/

/-- A year as it may be written. -/
inductive WrittenYear where
  /-- Four digits. -/
  | four (digits : Digits 4)
  /-- A sign and any number of digits, at least one. -/
  | signed (negative : Bool) (more : Nat) (digits : Digits (more + 1))

namespace WrittenYear

/-- The number of the year. -/
def number : WrittenYear → Int
  | .four digits => digits.number
  | .signed negative _ digits => if negative then -digits.number else digits.number

/-- What is written. -/
def chars : WrittenYear → List Char
  | .four digits => digits.chars
  | .signed negative _ digits => (if negative then '-' else '+') :: digits.chars

/-- The year is one of those whose dates can be read. -/
def Supported (year : WrittenYear) : Prop := -262143 ≤ year.number ∧ year.number ≤ 262142

end WrittenYear

/-- A date alone: a year, and two digits of a month and of a day. -/
structure DateWord where
  year : WrittenYear
  month : Digits 2
  day : Digits 2

namespace DateWord

/-- What is written. -/
def chars (w : DateWord) : List Char :=
  w.year.chars ++ '-' :: (w.month.chars ++ '-' :: w.day.chars)

/-- The text of a date. -/
def text (w : DateWord) : String := String.ofList w.chars

/-- The date that is written. -/
def Names (w : DateWord) (date : Date) : Prop :=
  date.year = w.year.number ∧ date.month = w.month.number ∧ date.day = w.day.number

/-- The fields that are read: the midnight that begins the day. -/
def midnight (w : DateWord) : Fields :=
  ⟨w.year.number, w.month.number, w.day.number, 0, 0, 0, 0, 0⟩

end DateWord

/-! ## What is read -/

/-- A number of any length is read if it is less than the bound. -/
theorem wideNumber_append {width : Nat} (d : Digits width) (pos : 1 ≤ width) {rest : List Char}
    (stop : rest.takeWhile Char.isDigit = []) :
    wideNumber (d.chars ++ rest) =
      if d.number < wideBound then some (d.number, rest) else none := by
  have run : (d.chars ++ rest).takeWhile Char.isDigit = d.chars := by
    rw [List.takeWhile_append_of_pos d.isDigit_chars, stop, List.append_nil]
  have enough : 1 ≤ d.chars.length := by
    rw [d.length_chars]
    exact pos
  simp only [wideNumber, Scan.digits, List.take_length, run, enough, if_true, List.drop_left,
    Option.bind_some, wideValue?_eq]
  show Option.map _ (if d.number < wideBound then some d.number else none) = _
  split <;> rfl

/-- A signed year is read if it is less than the bound. -/
theorem looseYear_signed_append {more : Nat} (digits : Digits (more + 1)) (negative : Bool)
    (rest : List Char) :
    looseYear ((WrittenYear.signed negative more digits).chars ++ '-' :: rest) =
      if digits.number < wideBound then
        some ((WrittenYear.signed negative more digits).number, '-' :: rest)
      else none := by
  have stop : ('-' :: rest).takeWhile Char.isDigit = [] := rfl
  have scanned := wideNumber_append digits (Nat.succ_pos more) stop
  rw [looseYear_eq]
  cases negative with
  | false =>
      show (wideNumber (digits.chars ++ '-' :: rest)).map _ = _
      rw [scanned]
      split <;> rfl
  | true =>
      show (wideNumber (digits.chars ++ '-' :: rest)).map _ = _
      rw [scanned]
      split <;> rfl

/-- A year is read if it is supported. -/
theorem looseYear_chars_append (year : WrittenYear) (rest : List Char) :
    looseYear (year.chars ++ '-' :: rest) = some (year.number, '-' :: rest) ∨
      looseYear (year.chars ++ '-' :: rest) = none ∧ ¬ year.Supported := by
  cases year with
  | four digits => exact Or.inl (looseYear_append digits ('-' :: rest))
  | signed negative more digits =>
      rw [looseYear_signed_append]
      split
      · exact Or.inl rfl
      · next wide =>
          right
          refine ⟨rfl, ?_⟩
          unfold wideBound at wide
          rw [WrittenYear.Supported, WrittenYear.number]
          cases negative <;> simp <;> omega

/-- A date is read if its year is supported. -/
theorem looseDate_chars_append (w : DateWord) (rest : List Char) :
    looseDate (w.chars ++ rest) =
        some (w.year.number, w.month.number, w.day.number, rest) ∨
      looseDate (w.chars ++ rest) = none ∧ ¬ w.year.Supported := by
  unfold looseDate DateWord.chars
  simp only [List.append_assoc, List.cons_append]
  rcases looseYear_chars_append w.year (w.month.chars ++ '-' :: (w.day.chars ++ rest)) with
    read | ⟨refused, unsupported⟩
  · left
    simp only [read, exactly_cons, Digits.looseNumber_append _ (by decide : 1 ≤ 2),
      Option.bind_eq_bind, Option.bind_some]
  · right
    exact ⟨by rw [refused]; rfl, unsupported⟩

/-- A date has no comma. -/
theorem DateWord.comma_notMem (w : DateWord) : ',' ∉ w.chars := by
  have year : ',' ∉ w.year.chars := by
    cases w.year with
    | four digits => exact digits.not_mem_chars rfl
    | signed negative more digits =>
        have others : ',' ∉ digits.chars := digits.not_mem_chars rfl
        cases negative <;> simp [WrittenYear.chars, others]
  have month : ',' ∉ w.month.chars := w.month.not_mem_chars rfl
  have day : ',' ∉ w.day.chars := w.day.not_mem_chars rfl
  simp [DateWord.chars, year, month, day]

/-! ## Which dates there are -/

/-- Days of supported years begin in the supported span. -/
theorem supported_dayNumber {date : Date} (first : -262143 ≤ date.year)
    (last : date.year ≤ 262142) : Instant.supported (date.dayNumber * 86400) = true := by
  have within := date.dayOfYear_lt
  have low := daysBeforeYear_mono first
  have high := daysBeforeYear_mono (by omega : date.year + 1 ≤ 262143)
  rw [daysBeforeYear_succ] at high
  rw [Instant.supported, Instant.startOfYear, Instant.startOfYear, date.dayNumber_eq,
    Bool.and_eq_true, decide_eq_true_eq, decide_eq_true_eq]
  omega

namespace DateWord

/-- The second in which a date begins is counted in days. -/
theorem secondCount_midnight (w : DateWord) (date : Date) :
    w.midnight.secondCount date = date.dayNumber * 86400 := by
  simp [Fields.secondCount, midnight]

/-- **A date of the calendar** denotes the instant in which it begins, if its year is
supported. -/
theorem midnight_instant?_eq {w : DateWord} {date : Date} (named : w.Names date)
    (supported : w.year.Supported) :
    w.midnight.instant? = some ⟨date.dayNumber * 86400, 0, by decide⟩ := by
  obtain ⟨year, month, day⟩ := named
  refine instant?_eq_some_iff.mpr ⟨date, ?_⟩
  exact
    { year, month, day, supported
      time := by simp [midnight]
      near := by simp [midnight]
      span := by
        rw [secondCount_midnight]
        exact supported_dayNumber (year ▸ supported.1) (year ▸ supported.2)
      seconds := (w.secondCount_midnight date).symm
      nanos := rfl }

/-- **Which dates denote an instant**: those of the calendar, in supported years. -/
theorem isSome_midnight_instant?_iff (w : DateWord) :
    w.midnight.instant?.isSome = true ↔ w.year.Supported ∧ ∃ date, w.Names date := by
  constructor
  · intro denotes
    obtain ⟨i, given⟩ := Option.isSome_iff_exists.mp denotes
    obtain ⟨date, denoted⟩ := instant?_eq_some_iff.mp given
    exact ⟨denoted.supported, date, denoted.year, denoted.month, denoted.day⟩
  · rintro ⟨supported, date, named⟩
    rw [midnight_instant?_eq named supported]
    rfl

end DateWord

/-! ## What a date denotes -/

/-- A loose date with midnight after it denotes what it does alone. -/
theorem ofChars?_of_midnight {text zone : List Char} {year : Int} {month day : Nat}
    (universal : zone = [] ∨ zone = ['Z'])
    (h : looseDate (pointForComma text) = some (year, month, day, "T00:00:00".toList ++ zone)) :
    ofChars? text = Fields.instant? ⟨year, month, day, 0, 0, 0, 0, 0⟩ := by
  have read : looseDateTime (pointForComma text) =
      some (⟨year, month, day, 0, 0, 0, 0, 0⟩, zone) := by
    unfold looseDateTime
    rw [h]
    rcases universal with rfl | rfl <;> rfl
  have zoned : looseZone zone = some 0 := by
    rcases universal with rfl | rfl <;> rfl
  rw [ofChars?_of_looseDateTime read, zoned]
  rfl

/-- **A date denotes its midnight**, if what follows it leaves that to the date. -/
theorem DateWord.parse?_text_append (w : DateWord) {rest : List Char} (clean : ',' ∉ rest)
    (midnight : ∀ {text year month day},
      looseDate (pointForComma text) = some (year, month, day, rest) →
        ofChars? text = Fields.instant? ⟨year, month, day, 0, 0, 0, 0, 0⟩) :
    parse? (w.text ++ String.ofList rest) = w.midnight.instant? := by
  have point : pointForComma (w.chars ++ rest) = w.chars ++ rest := by
    apply pointForComma_of_notMem
    rw [List.mem_append, not_or]
    exact ⟨w.comma_notMem, clean⟩
  rw [parse?, text, ← String.ofList_append, String.toList_ofList]
  rcases looseDate_chars_append w rest with read | ⟨refused, unsupported⟩
  · rw [← point] at read
    exact midnight read
  · have nothing : widest (pointForComma (w.chars ++ rest)) = none := by
      rw [point, widest, refused]
      rfl
    rw [ofChars?_eq_none nothing]
    cases given : w.midnight.instant? with
    | none => rfl
    | some i =>
        have accepted := w.isSome_midnight_instant?_iff.mp (by rw [given]; rfl)
        exact absurd accepted.1 unsupported

/-- A date alone denotes its midnight. -/
theorem DateWord.parse?_text (w : DateWord) : parse? w.text = w.midnight.instant? := by
  have denoted := w.parse?_text_append List.not_mem_nil ofChars?_of_looseDate
  rwa [String.ofList_nil, String.append_empty] at denoted

/-- **A date of the calendar alone** denotes the instant in which it begins, if its year is
supported. -/
theorem DateWord.parse?_text_eq {w : DateWord} {date : Date} (named : w.Names date)
    (supported : w.year.Supported) :
    parse? w.text = some ⟨date.dayNumber * 86400, 0, by decide⟩ := by
  rw [w.parse?_text, midnight_instant?_eq named supported]

/-! ## Dates follow the calendar -/

/-- **Dates alone follow the calendar.**  A date alone is accepted if and only if its year is
supported and the calendar has it.  1970-01-01 is second 0, and from a date to the next there
are 86400 seconds, and no nanoseconds.  A date with midnight after it, with or without the
letter for universal time, denotes what it does alone. -/
theorem calendar_dates (w : DateWord) :
    ((parse? w.text).isSome = true ↔
      (-262143 ≤ w.year.number ∧ w.year.number ≤ 262142) ∧ ∃ date, w.Names date) ∧
    (w.year.number = 1970 → w.month.number = 1 → w.day.number = 1 →
      parse? w.text = some ⟨0, 0, by decide⟩) ∧
    (∀ (w' : DateWord) (date : Date), w.Names date → w'.Names date.next →
      -262143 ≤ w.year.number → w'.year.number ≤ 262142 →
      ∃ i j, parse? w.text = some i ∧ parse? w'.text = some j ∧
        j.seconds = i.seconds + 86400 ∧ i.nanos = 0 ∧ j.nanos = 0) ∧
    parse? (w.text ++ "T00:00:00") = parse? w.text ∧
    parse? (w.text ++ "T00:00:00Z") = parse? w.text := by
  refine ⟨?_, ?_, ?_, ?_, ?_⟩
  · rw [w.parse?_text]
    exact w.isSome_midnight_instant?_iff
  · intro year month day
    let epoch : Date := ⟨1970, 1, 1, by decide, by decide, by decide, by decide⟩
    have named : w.Names epoch := ⟨year.symm, month.symm, day.symm⟩
    have supported : w.year.Supported := ⟨by omega, by omega⟩
    have given := DateWord.parse?_text_eq named supported
    rwa [show epoch.dayNumber = 0 by decide, Int.zero_mul] at given
  · intro w' date named named' first last
    have order := date.year_le_year_next
    rw [named.1, named'.1] at order
    have given := DateWord.parse?_text_eq named ⟨first, by omega⟩
    have given' := DateWord.parse?_text_eq named' ⟨by omega, last⟩
    refine ⟨_, _, given, given', ?_, rfl, rfl⟩
    dsimp only
    rw [date.dayNumber_next]
    omega
  · rw [w.parse?_text]
    exact w.parse?_text_append (by decide) (ofChars?_of_midnight (Or.inl rfl))
  · rw [w.parse?_text]
    exact w.parse?_text_append (by decide) (ofChars?_of_midnight (Or.inr rfl))

/-- 1900 is no leap year. -/
example : parse? "1900-02-29" = none := by decide +kernel

/-- The last day before year 0 and the first day of it, and the first day of 1970 with a
year of seven digits. -/
theorem calendar_dates_year_zero :
    let last : DateWord := ⟨.signed true 3 (.ofNat 4 1), .ofNat 2 12, .ofNat 2 31⟩
    let first : DateWord := ⟨.four (.ofNat 4 0), .ofNat 2 1, .ofNat 2 1⟩
    let epoch : DateWord := ⟨.signed false 6 (.ofNat 7 1970), .ofNat 2 1, .ofNat 2 1⟩
    last.text = "-0001-12-31" ∧ first.text = "0000-01-01" ∧ epoch.text = "+0001970-01-01" ∧
      (∃ i j, parse? last.text = some i ∧ parse? first.text = some j ∧
        j.seconds = i.seconds + 86400) ∧
      parse? epoch.text = some ⟨0, 0, by decide⟩ := by
  intro last first epoch
  let date : Date := ⟨-1, 12, 31, by decide, by decide, by decide, by decide⟩
  obtain ⟨i, j, given, given', seconds, -⟩ :=
    (calendar_dates last).2.2.1 first date ⟨by decide, by decide, by decide⟩
      ⟨by decide, by decide, by decide⟩ (by decide) (by decide)
  have zero := (calendar_dates epoch).2.1 (by decide) (by decide) (by decide)
  exact ⟨by decide +kernel, by decide +kernel, by decide +kernel, ⟨i, j, given, given', seconds⟩,
    zero⟩

end Interleave.Timestamp
