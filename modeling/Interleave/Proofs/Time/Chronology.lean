/-
# The order of timestamps

Timestamps at full width in universal time are in the order of their texts.  What is written
up to the seconds goes first, and then the first nine decimals, where missing ones are
zeros.  A leap second comes after the second before it, whatever its decimals, and before
the next minute.

* `text_lt_iff`, `text_eq_iff` : texts are in the order of their numbers;
* `Word.ninths` : the nine decimals that count;
* `Civil.Denotes` : the instant of a date and a time of day, by its parts;
* `denotes_of_instant?` : what the fields of a date and a time of day denote;
* `Denotes.minuteText_lt_iff` : texts up to the minutes are in the order of the minutes;
* `Denotes.lt_iff`, `Denotes.eq_iff` : the order of instants;
* `ordered_words` : the order of timestamps.
-/
import Interleave.Proofs.Time.FullWidth

namespace Interleave.Timestamp

/-! ## The order of what is written -/

/-- Texts with the same mark between their parts are in the order of these. -/
theorem append_mark_lt_iff {a a' : List Char} (width : a.length = a'.length) (mark : Char)
    (b b' : List Char) : a ++ mark :: b < a' ++ mark :: b' ↔ a < a' ∨ a = a' ∧ b < b' := by
  rw [append_lt_append_iff width, List.cons_lt_cons_iff]
  simp

/-- Texts with the same mark between their parts are the same if these are. -/
theorem append_mark_eq_iff {a a' : List Char} (width : a.length = a'.length) (mark : Char)
    (b b' : List Char) : a ++ mark :: b = a' ++ mark :: b' ↔ a = a' ∧ b = b' := by
  constructor
  · intro same
    obtain ⟨front, back⟩ := List.append_inj same width
    exact ⟨front, List.tail_eq_of_cons_eq back⟩
  · rintro ⟨rfl, rfl⟩
    rfl

namespace Civil

variable (c c' : Civil)

/-- Dates at full width have the same length. -/
theorem length_dateText : c.dateText.length = c'.dateText.length := by
  simp [dateText, Digits.length_chars]

/-- So have dates and times of day up to the minutes. -/
theorem length_minuteText : c.minuteText.length = c'.minuteText.length := by
  simp [minuteText, c.length_dateText c', Digits.length_chars]

/-- Dates are in the order of their numbers. -/
theorem dateText_lt_iff :
    c.dateText < c'.dateText ↔
      c.year.number < c'.year.number ∨ c.year.number = c'.year.number ∧
        (c.month.number < c'.month.number ∨
          c.month.number = c'.month.number ∧ c.day.number < c'.day.number) := by
  rw [dateText, dateText, append_mark_lt_iff (c.year.length_eq _),
    append_mark_lt_iff (c.month.length_eq _)]
  simp only [Digits.chars_lt_iff, Digits.chars_eq_iff]

/-- Dates are the same if their numbers are. -/
theorem dateText_eq_iff :
    c.dateText = c'.dateText ↔
      c.year.number = c'.year.number ∧ c.month.number = c'.month.number ∧
        c.day.number = c'.day.number := by
  rw [dateText, dateText, append_mark_eq_iff (c.year.length_eq _),
    append_mark_eq_iff (c.month.length_eq _)]
  simp only [Digits.chars_eq_iff]

/-- Up to the minutes, texts are in the order of their dates and then of their numbers. -/
theorem minuteText_lt_iff :
    c.minuteText < c'.minuteText ↔
      c.dateText < c'.dateText ∨ c.dateText = c'.dateText ∧
        (c.hour.number < c'.hour.number ∨
          c.hour.number = c'.hour.number ∧ c.minute.number < c'.minute.number) := by
  rw [minuteText, minuteText, append_mark_lt_iff (c.length_dateText c'),
    append_mark_lt_iff (c.hour.length_eq _)]
  simp only [Digits.chars_lt_iff, Digits.chars_eq_iff]

/-- Up to the minutes, texts are the same if their dates and their numbers are. -/
theorem minuteText_eq_iff :
    c.minuteText = c'.minuteText ↔
      c.dateText = c'.dateText ∧ c.hour.number = c'.hour.number ∧
        c.minute.number = c'.minute.number := by
  rw [minuteText, minuteText, append_mark_eq_iff (c.length_dateText c'),
    append_mark_eq_iff (c.hour.length_eq _)]
  simp only [Digits.chars_eq_iff]

/-- Texts are in the order of their minutes and then of their seconds. -/
theorem text_lt_iff :
    c.text < c'.text ↔
      c.minuteText < c'.minuteText ∨
        c.minuteText = c'.minuteText ∧ c.second.number < c'.second.number := by
  rw [text, text, append_mark_lt_iff (c.length_minuteText c'), Digits.chars_lt_iff]

/-- Texts are the same if their minutes and their seconds are. -/
theorem text_eq_iff :
    c.text = c'.text ↔
      c.minuteText = c'.minuteText ∧ c.second.number = c'.second.number := by
  rw [text, text, append_mark_eq_iff (c.length_minuteText c'), Digits.chars_eq_iff]

/-- What is read of a text depends on nothing else. -/
theorem fields_congr {c c' : Civil} (same : c.text = c'.text) {nanos : Nat} {offset : Int} :
    c.fields nanos offset = c'.fields nanos offset := by
  obtain ⟨minute, second⟩ := (text_eq_iff c c').mp same
  obtain ⟨date, hour, minute⟩ := (minuteText_eq_iff c c').mp minute
  obtain ⟨year, month, day⟩ := (dateText_eq_iff c c').mp date
  simp only [fields, year, month, day, hour, minute, second]

end Civil

/-! ## The decimals that count -/

namespace Word

/-- The first nine decimals, where missing ones are zeros. -/
def ninths (w : Word) : Digits 9 where
  chars := (w.digits ++ List.replicate 9 '0').take 9
  length_chars := Scan.length_padded w.digits
  isDigit_chars := Scan.isDigit_padded w.isDigit_digits

/-- The nine decimals are the nanoseconds. -/
theorem number_ninths (w : Word) : w.ninths.number = Scan.nanos w.digits :=
  Scan.value_padded w.digits

end Word

/-! ## The instant of a date and a time of day -/

/-- The number of the minute in which a time of day is on a date. -/
def Civil.minuteNumber (c : Civil) (date : Date) : Int :=
  date.dayNumber * 1440 + c.hour.number * 60 + c.minute.number

/-- The date and the time of day, with so many nanoseconds, denote this instant on this
date. -/
structure Civil.Denotes (c : Civil) (nanos : Nat) (date : Date) (i : Instant) : Prop where
  valid : c.Valid
  year : date.year = c.year.number
  month : date.month = c.month.number
  day : date.day = c.day.number
  /-- A leap second has the number of the second before it. -/
  seconds : i.seconds = c.minuteNumber date * 60 + min c.second.number 59
  nanos : i.nanos = if c.second.number = 60 then nanos + 1000000000 else nanos

/-- Fields in universal time that denote an instant do so on a date. -/
theorem denotes_of_instant? {c : Civil} {nanos : Nat} {i : Instant}
    (h : (c.fields nanos 0).instant? = some i) : ∃ date, c.Denotes nanos date i := by
  obtain ⟨date, denoted⟩ := instant?_eq_some_iff.mp h
  refine ⟨date, Civil.valid_of_instant? h, denoted.year, denoted.month, denoted.day, ?_,
    denoted.nanos⟩
  rw [denoted.seconds, Fields.secondCount, Civil.minuteNumber]
  simp only [Civil.fields]
  omega

namespace Civil.Denotes

variable {c c' : Civil} {n n' : Nat} {date date' : Date} {i j : Instant}

/-- Dates are in the order of their texts. -/
theorem dateText_lt_iff (a : c.Denotes n date i) (b : c'.Denotes n' date' j) :
    c.dateText < c'.dateText ↔ date.dayNumber < date'.dayNumber := by
  rw [Civil.dateText_lt_iff, Date.dayNumber_lt_iff, Date.Before, a.year, a.month, a.day, b.year,
    b.month, b.day, Int.ofNat_lt, Int.ofNat_inj]

/-- Dates are the same if their texts are. -/
theorem dateText_eq_iff (a : c.Denotes n date i) (b : c'.Denotes n' date' j) :
    c.dateText = c'.dateText ↔ date.dayNumber = date'.dayNumber := by
  rw [Civil.dateText_eq_iff, Date.dayNumber_eq_iff, a.year, a.month, a.day, b.year, b.month,
    b.day, Int.ofNat_inj]

/-- **Minutes** are in the order of their texts. -/
theorem minuteText_lt_iff (a : c.Denotes n date i) (b : c'.Denotes n' date' j) :
    c.minuteText < c'.minuteText ↔ c.minuteNumber date < c'.minuteNumber date' := by
  rw [Civil.minuteText_lt_iff, a.dateText_lt_iff b, a.dateText_eq_iff b]
  have hour := a.valid.hour_lt
  have minute := a.valid.minute_lt
  have hour' := b.valid.hour_lt
  have minute' := b.valid.minute_lt
  unfold minuteNumber
  omega

/-- Minutes are the same if their texts are. -/
theorem minuteText_eq_iff (a : c.Denotes n date i) (b : c'.Denotes n' date' j) :
    c.minuteText = c'.minuteText ↔ c.minuteNumber date = c'.minuteNumber date' := by
  rw [Civil.minuteText_eq_iff, a.dateText_eq_iff b]
  have hour := a.valid.hour_lt
  have minute := a.valid.minute_lt
  have hour' := b.valid.hour_lt
  have minute' := b.valid.minute_lt
  unfold minuteNumber
  omega

/-- **Instants** are in the order of the texts of their seconds and then of their
nanoseconds. -/
theorem lt_iff (a : c.Denotes n date i) (b : c'.Denotes n' date' j) (small : n < 1000000000)
    (small' : n' < 1000000000) : i < j ↔ c.text < c'.text ∨ c.text = c'.text ∧ n < n' := by
  rw [Civil.text_lt_iff, Civil.text_eq_iff, a.minuteText_lt_iff b, a.minuteText_eq_iff b,
    Instant.lt_def, a.seconds, b.seconds, a.nanos, b.nanos]
  have second := a.valid.second_le
  have second' := b.valid.second_le
  split <;> split <;> omega

/-- Instants are the same if the texts of their seconds and their nanoseconds are. -/
theorem eq_iff (a : c.Denotes n date i) (b : c'.Denotes n' date' j) (small : n < 1000000000)
    (small' : n' < 1000000000) : i = j ↔ c.text = c'.text ∧ n = n' := by
  have parts : i = j ↔ i.seconds = j.seconds ∧ i.nanos = j.nanos := by
    cases i
    cases j
    simp
  rw [parts, Civil.text_eq_iff, a.minuteText_eq_iff b, a.seconds, b.seconds, a.nanos, b.nanos]
  have second := a.valid.second_le
  have second' := b.valid.second_le
  split <;> split <;> omega

end Civil.Denotes

/-! ## The order of timestamps -/

/-- **Timestamps are in the order of their texts.**  A word denotes an instant if its date
exists and its time of day is one.  Of two words that do, the earlier instant is that of
the word whose text is earlier up to the seconds, or the same there and earlier in the first
nine decimals, where missing ones are zeros; and it is one instant if all of these are the
same.  So second 60 comes after every second 59 of its minute, and all of a minute before
the next.  Which mark is before the decimals, what follows the ninth of them and whether
there is a letter for universal time does not matter. -/
theorem ordered_words (x y : Word) :
    ((parse? x.text).isSome = true ↔ x.civil.Valid) ∧
    (x.civil.text = y.civil.text → x.ninths.chars = y.ninths.chars →
      parse? x.text = parse? y.text) ∧
    ∀ i j, parse? x.text = some i → parse? y.text = some j →
      (i < j ↔ x.civil.text < y.civil.text ∨
        x.civil.text = y.civil.text ∧ x.ninths.chars < y.ninths.chars) ∧
      (i = j ↔ x.civil.text = y.civil.text ∧ x.ninths.chars = y.ninths.chars) ∧
      (x.civil.minuteText = y.civil.minuteText → x.civil.second.chars = ['5', '9'] →
        y.civil.second.chars = ['6', '0'] → i < j) ∧
      (x.civil.minuteText < y.civil.minuteText → i < j) := by
  refine ⟨x.isSome_parse?_text, ?_⟩
  rw [x.parse?_text, y.parse?_text]
  constructor
  · intro same ninths
    rw [Digits.chars_eq_iff, x.number_ninths, y.number_ninths] at ninths
    rw [Word.fields, Word.fields, ninths, Civil.fields_congr same]
  · intro i j given given'
    obtain ⟨date, a⟩ := denotes_of_instant? given
    obtain ⟨date', b⟩ := denotes_of_instant? given'
    have order := a.lt_iff b x.nanos_lt y.nanos_lt
    have same := a.eq_iff b x.nanos_lt y.nanos_lt
    rw [← x.number_ninths, ← y.number_ninths] at order same
    refine ⟨?_, ?_, ?_, ?_⟩
    · rw [order, Digits.chars_lt_iff]
    · rw [same, Digits.chars_eq_iff]
    · intro minute second second'
      apply order.mpr
      left
      rw [Civil.text_lt_iff]
      right
      refine ⟨minute, ?_⟩
      rw [Digits.number, Digits.number, second, second']
      decide
    · intro earlier
      apply order.mpr
      left
      rw [Civil.text_lt_iff]
      exact Or.inl earlier

/-- The last second of 2016 was a leap second.  Half of it was over before 2017, however
many decimals are written. -/
theorem ordered_words_leap_second :
    let leap : Civil :=
      ⟨.ofNat 4 2016, .ofNat 2 12, .ofNat 2 31, .ofNat 2 23, .ofNat 2 59, .ofNat 2 60⟩
    let after : Civil :=
      ⟨.ofNat 4 2017, .ofNat 2 1, .ofNat 2 1, .ofNat 2 0, .ofNat 2 0, .ofNat 2 0⟩
    let x : Word := ⟨leap, some ⟨true, 0, .ofNat 1 5⟩, true⟩
    let x' : Word := ⟨leap, some ⟨false, 9, .ofNat 10 5000000009⟩, false⟩
    let y : Word := ⟨after, none, true⟩
    x.text = "2016-12-31T23:59:60,5Z" ∧ x'.text = "2016-12-31T23:59:60.5000000009" ∧
      y.text = "2017-01-01T00:00:00Z" ∧ parse? x.text = parse? x'.text ∧
      ∃ i j, parse? x.text = some i ∧ parse? y.text = some j ∧ i < j := by
  intro leap after x x' y
  have same := (ordered_words x x').2.1 rfl (by decide +kernel)
  have given : parse? x.text = some ⟨1483228799, 1500000000, by decide⟩ := by decide +kernel
  have given' : parse? y.text = some ⟨1483228800, 0, by decide⟩ := by decide +kernel
  obtain ⟨-, -, -, earlier⟩ := (ordered_words x y).2.2 _ _ given given'
  have minute : x.civil.minuteText < y.civil.minuteText := by decide +kernel
  exact ⟨by decide +kernel, by decide +kernel, by decide +kernel, same, _, _, given, given',
    earlier minute⟩

end Interleave.Timestamp
