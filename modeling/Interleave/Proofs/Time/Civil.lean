/-
# Dates and times of day at full width

A date and a time of day that are written out have four digits of a year and two of
everything else.  The looser forms read all these numbers, up to what follows the seconds,
and the strict form reads nothing else.

* `pointForComma_append` : where the first comma is;
* `looseYear_append` : the year that the looser forms read;
* `Civil` : a date and a time of day at full width;
* `Civil.text`, `Civil.fields` : what is written, and the fields that are read;
* `Civil.looseDate_append`, `Civil.looseDateTime_append` : what the looser forms read of it;
* `exists_civil_of_rfc3339` : what the strict form reads.
-/
import Interleave.Proofs.Time.Digits
import Interleave.Time.Timestamp

namespace Interleave.Timestamp

open Scan

/-! ## Years and commas -/

/-- A year of four digits is read by the looser forms. -/
theorem looseYear_append (year : Digits 4) (rest : List Char) :
    looseYear (year.chars ++ rest) = some ((year.number : Int), rest) := by
  have scanned := year.number_append (by decide : 1 ≤ 4) rest
  have minus : '-' ∉ year.chars := year.not_mem_chars rfl
  have plus : '+' ∉ year.chars := year.not_mem_chars rfl
  have width := year.length_chars
  unfold looseYear
  rw [year.skipBlanks_append (by decide)]
  cases chars : year.chars with
  | nil =>
      rw [chars, List.length_nil] at width
      omega
  | cons c others =>
      rw [chars] at scanned minus plus
      have minus : c ≠ '-' := Ne.symm (List.ne_of_not_mem_cons minus)
      have plus : c ≠ '+' := Ne.symm (List.ne_of_not_mem_cons plus)
      rw [List.cons_append] at scanned ⊢
      simp only [minus, plus, if_false, scanned, Option.map_some]

/-- What has no comma is left alone. -/
theorem pointForComma_append {front : List Char} (clean : ',' ∉ front) (rest : List Char) :
    pointForComma (front ++ rest) = front ++ pointForComma rest := by
  induction front with
  | nil => rfl
  | cons c front ih =>
      have first : c ≠ ',' := Ne.symm (List.ne_of_not_mem_cons clean)
      have others : ',' ∉ front := List.not_mem_of_not_mem_cons clean
      rw [List.cons_append, pointForComma, if_neg first, ih others, List.cons_append]

/-! ## Date and time of day -/

/-- A date and a time of day, each number with its full width. -/
structure Civil where
  year : Digits 4
  month : Digits 2
  day : Digits 2
  hour : Digits 2
  minute : Digits 2
  second : Digits 2

namespace Civil

/-- The date as it is written. -/
def dateText (c : Civil) : List Char :=
  c.year.chars ++ '-' :: (c.month.chars ++ '-' :: c.day.chars)

/-- What is written up to the minutes. -/
def minuteText (c : Civil) : List Char :=
  c.dateText ++ 'T' :: (c.hour.chars ++ ':' :: c.minute.chars)

/-- What is written up to the seconds. -/
def text (c : Civil) : List Char := c.minuteText ++ ':' :: c.second.chars

/-- The fields that are read, with decimals and an offset. -/
def fields (c : Civil) (nanos : Nat) (offset : Int) : Fields :=
  { year := c.year.number
    month := c.month.number
    day := c.day.number
    hour := c.hour.number
    minute := c.minute.number
    second := c.second.number
    nanos
    offset }

/-- What is written, number by number. -/
theorem text_append (c : Civil) (rest : List Char) :
    c.text ++ rest =
      c.dateText ++
        'T' :: (c.hour.chars ++ ':' :: (c.minute.chars ++ ':' :: (c.second.chars ++ rest))) := by
  simp [text, minuteText]

/-- The first comma comes after it. -/
theorem pointForComma_text_append (c : Civil) (rest : List Char) :
    pointForComma (c.text ++ rest) = c.text ++ pointForComma rest := by
  apply pointForComma_append
  have clean : ∀ {width} (d : Digits width), ',' ∉ d.chars := fun d => d.not_mem_chars rfl
  simp [text, minuteText, dateText, clean]

/-- The looser forms read a date. -/
theorem looseDate_append (c : Civil) (rest : List Char) :
    looseDate (c.dateText ++ rest) =
      some ((c.year.number : Int), c.month.number, c.day.number, rest) := by
  unfold looseDate dateText
  simp only [List.append_assoc, List.cons_append, looseYear_append,
    Digits.looseNumber_append _ (by decide : 1 ≤ 2), Scan.exactly_cons, Option.bind_eq_bind,
    Option.bind_some]

/-- The looser forms read a time of day. -/
theorem looseTime_append (c : Civil) (rest : List Char) :
    looseTime (c.hour.chars ++ ':' :: (c.minute.chars ++ ':' :: (c.second.chars ++ rest))) =
      some (c.hour.number, c.minute.number, c.second.number, rest) := by
  unfold looseTime
  simp only [Digits.looseNumber_append _ (by decide : 1 ≤ 2), Scan.exactly_cons,
    Option.bind_eq_bind, Option.bind_some]

/-- The looser forms read all numbers and then the decimals. -/
theorem looseDateTime_append (c : Civil) (rest : List Char) :
    looseDateTime (c.text ++ rest) =
      (Scan.fraction rest).map fun (nanos, text) => (c.fields nanos 0, text) := by
  unfold looseDateTime
  rw [text_append, looseDate_append]
  simp only [Scan.exactly_cons, looseTime_append, Option.bind_eq_bind, Option.bind_some,
    Option.map_eq_bind]
  rfl

end Civil

/-! ## The strict form -/

/-- A separator is one character. -/
theorem separator_eq_some {text rest : List Char} (h : separator text = some rest) :
    ∃ mark, text = mark :: rest ∧ isSeparator mark = true := by
  unfold separator at h
  split at h
  · cases h
  · next mark _ =>
      split at h
      · next separates =>
          exact ⟨mark, by rw [Option.some.inj h], separates⟩
      · cases h

/-- What the strict form reads starts with a date and a time of day at full width, with a
separator between them. -/
theorem exists_civil_of_rfc3339 {text : List Char} {fields : Fields}
    (h : rfc3339 text = some fields) :
    ∃ (c : Civil) (mark : Char) (rest zone : List Char) (nanos : Nat) (offset : Int),
      text = c.dateText ++ mark :: (c.hour.chars ++ ':' ::
        (c.minute.chars ++ ':' :: (c.second.chars ++ rest))) ∧
      isSeparator mark = true ∧ fraction rest = some (nanos, zone) ∧
      strictOffset zone = some offset ∧ fields = c.fields nanos offset := by
  simp only [rfc3339, Option.bind_eq_bind, Option.bind_eq_some_iff, Prod.exists,
    exactly_eq_some_iff] at h
  obtain ⟨_, _, readYear, _, rfl, _, _, readMonth, _, rfl, _, _, readDay, _, marked, _, _, readHour,
    _, rfl, _, _, readMinute, _, rfl, _, rest, readSecond, nanos, zone, decimals, offset, ended,
    same⟩ := h
  obtain ⟨year, rfl, rfl⟩ := Digits.exists_of_number readYear
  obtain ⟨month, rfl, rfl⟩ := Digits.exists_of_number readMonth
  obtain ⟨day, rfl, rfl⟩ := Digits.exists_of_number readDay
  obtain ⟨mark, rfl, separates⟩ := separator_eq_some marked
  obtain ⟨hour, rfl, rfl⟩ := Digits.exists_of_number readHour
  obtain ⟨minute, rfl, rfl⟩ := Digits.exists_of_number readMinute
  obtain ⟨second, rfl, rfl⟩ := Digits.exists_of_number readSecond
  refine ⟨⟨year, month, day, hour, minute, second⟩, mark, rest, zone, nanos, offset, ?_, separates,
    decimals, ended, (Option.some.inj same).symm⟩
  simp [Civil.dateText]

end Interleave.Timestamp
