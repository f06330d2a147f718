/-
# Timestamps at full width

A timestamp that is written out has a date and a time of day at full width, and perhaps
decimals of the second after a point or a comma.  It denotes an instant if the date exists
and the time of day is one.

* `DenotesOn`, `instant?_eq_some_iff` : which fields denote an instant;
* `Civil.Valid`, `Civil.isSome_instant?_iff` : which dates and times of day denote an instant;
* `Decimals`, `Word` : a timestamp in universal time, with or without the letter for it;
* `Word.parse?_text_append` : the instant that it denotes with more text after it;
* `Word.parse?_text`, `Word.isSome_parse?_text` : the instant that it denotes, if it does.
-/
import Interleave.Proofs.Time.Agreement
import Interleave.Proofs.Time.Calendar

namespace Interleave.Timestamp

/-! ## Fields that denote an instant -/

/-- The fields denote this instant, on this date. -/
structure DenotesOn (f : Fields) (date : Date) (i : Instant) : Prop where
  year : date.year = f.year
  month : date.month = f.month
  day : date.day = f.day
  supported : -262143 ≤ f.year ∧ f.year ≤ 262142
  time : f.hour < 24 ∧ f.minute < 60 ∧ f.second ≤ 60
  near : -86400 < f.offset ∧ f.offset < 86400
  span : Instant.supported (f.secondCount date) = true
  seconds : i.seconds = f.secondCount date
  nanos : i.nanos = f.nanoCount

/-- **Fields denote an instant** on the date that they name. -/
theorem instant?_eq_some_iff {f : Fields} {i : Instant} :
    f.instant? = some i ↔ ∃ date, DenotesOn f date i := by
  have plain : (Instant.yearSupported f.year && f.hasTimeOfDay && f.hasOffset) = true ↔
      (-262143 ≤ f.year ∧ f.year ≤ 262142) ∧ (f.hour < 24 ∧ f.minute < 60 ∧ f.second ≤ 60) ∧
        -86400 < f.offset ∧ f.offset < 86400 := by
    simp only [Instant.yearSupported, Fields.hasTimeOfDay, Fields.hasOffset, Bool.and_eq_true,
      decide_eq_true_eq, and_assoc]
  unfold Fields.instant?
  constructor
  · intro h
    split at h
    · next valid =>
        obtain ⟨supported, time, near⟩ := plain.mp valid
        obtain ⟨date, parts, found⟩ := Option.bind_eq_some_iff.mp h
        obtain ⟨year, month, day⟩ := Date.ofParts?_eq_some_iff.mp parts
        split at found
        · split at found
          · next span =>
              cases found
              exact ⟨date, year, month, day, supported, time, near, span, rfl, rfl⟩
          · cases found
        · cases found
    · cases h
  · rintro ⟨date, h⟩
    have count : f.nanoCount < 2000000000 := h.nanos ▸ i.nanos_lt
    rw [if_pos (plain.mpr ⟨h.supported, h.time, h.near⟩),
      Date.ofParts?_eq_some_iff.mpr ⟨h.year, h.month, h.day⟩, Option.bind_some, dif_pos count,
      if_pos h.span]
    cases i
    simp only [← h.seconds, ← h.nanos]

/-! ## Which dates and times of day denote one -/

/-- The date exists, and the time of day is one. -/
structure Civil.Valid (c : Civil) : Prop where
  date : (Date.ofParts? c.year.number c.month.number c.day.number).isSome = true
  hour_lt : c.hour.number < 24
  minute_lt : c.minute.number < 60
  second_le : c.second.number ≤ 60

/-- Seconds of the years written with four digits are supported, with any offset. -/
theorem Civil.supported_secondCount (c : Civil) {date : Date} {nanos : Nat} {offset : Int}
    (valid : c.Valid) (year : date.year = c.year.number)
    (near : -86400 < offset ∧ offset < 86400) :
    Instant.supported ((c.fields nanos offset).secondCount date) = true := by
  have small := c.year.number_lt
  have hour := valid.hour_lt
  have minute := valid.minute_lt
  obtain ⟨low, high⟩ := Date.dayNumber_bounds (d := date) (by omega) (by omega)
  have first : Instant.startOfYear (-262143) = -8334601228800 := by decide
  have last : Instant.startOfYear 262143 = 8210266876800 := by decide
  rw [Instant.supported, first, last, Fields.secondCount, Bool.and_eq_true, decide_eq_true_eq,
    decide_eq_true_eq]
  simp only [fields]
  omega

/-- What denotes an instant is valid. -/
theorem Civil.valid_of_instant? {c : Civil} {nanos : Nat} {offset : Int} {i : Instant}
    (h : (c.fields nanos offset).instant? = some i) : c.Valid := by
  obtain ⟨date, denoted⟩ := instant?_eq_some_iff.mp h
  obtain ⟨hour, minute, second⟩ := denoted.time
  refine ⟨?_, hour, minute, second⟩
  exact Option.isSome_iff_exists.mpr
    ⟨date, Date.ofParts?_eq_some_iff.mpr ⟨denoted.year, denoted.month, denoted.day⟩⟩

/-- **Which dates and times of day denote an instant**: those that are valid. -/
theorem Civil.isSome_instant?_iff (c : Civil) {nanos : Nat} {offset : Int}
    (small : nanos < 1000000000) (near : -86400 < offset ∧ offset < 86400) :
    (c.fields nanos offset).instant?.isSome = true ↔ c.Valid := by
  constructor
  · intro denotes
    obtain ⟨i, given⟩ := Option.isSome_iff_exists.mp denotes
    exact valid_of_instant? given
  · intro valid
    obtain ⟨date, parts⟩ := Option.isSome_iff_exists.mp valid.date
    obtain ⟨year, month, day⟩ := Date.ofParts?_eq_some_iff.mp parts
    have count : (c.fields nanos offset).nanoCount < 2000000000 := by
      unfold Fields.nanoCount fields
      dsimp only
      split <;> omega
    have four := c.year.number_lt
    have supported : (-262143 : Int) ≤ c.year.number ∧ (c.year.number : Int) ≤ 262142 := by omega
    have denoted : DenotesOn (c.fields nanos offset) date
        ⟨(c.fields nanos offset).secondCount date, (c.fields nanos offset).nanoCount, count⟩ :=
      { year, month, day, supported, near
        time := ⟨valid.hour_lt, valid.minute_lt, valid.second_le⟩
        span := c.supported_secondCount valid year near
        seconds := rfl
        nanos := rfl }
    rw [instant?_eq_some_iff.mpr ⟨date, denoted⟩]
    rfl

/-! ## Decimals -/

/-- The decimals of a second, at least one of them, after a point or a comma. -/
structure Decimals where
  comma : Bool
  /-- How many digits there are after the first. -/
  more : Nat
  run : Digits (more + 1)

namespace Decimals

/-- What is written before the digits. -/
def mark (d : Decimals) : Char := if d.comma then ',' else '.'

/-- The digits. -/
def digits (d : Decimals) : List Char := d.run.chars

/-- Decimals are scanned after a point, up to what is no digit. -/
theorem fraction_append (d : Decimals) {rest : List Char}
    (stop : rest.takeWhile Char.isDigit = []) :
    Scan.fraction ('.' :: (d.digits ++ rest)) = some (Scan.nanos d.digits, rest) := by
  have all : (d.digits ++ rest).takeWhile Char.isDigit = d.digits := by
    rw [digits, List.takeWhile_append_of_pos d.run.isDigit_chars, stop, List.append_nil]
  have some : 1 ≤ d.digits.length := by
    rw [digits, d.run.length_chars]
    omega
  unfold Scan.fraction Scan.digits
  simp only [Scan.exactly_cons, List.take_length, all, some, List.drop_left, if_true,
    Option.map_some]

end Decimals

/-! ## Timestamps in universal time -/

/-- A timestamp at full width, perhaps with decimals, in universal time, with the letter
for it or without. -/
structure Word where
  civil : Civil
  decimals : Option Decimals
  zulu : Bool

namespace Word

/-- What is written after the decimals. -/
def zone (w : Word) : List Char := if w.zulu then ['Z'] else []

/-- What is written after the seconds. -/
def tail (w : Word) : List Char :=
  match w.decimals with
  | none => w.zone
  | some d => d.mark :: (d.digits ++ w.zone)

/-- What is written after the seconds with a point for a comma. -/
def pointTail (w : Word) : List Char :=
  match w.decimals with
  | none => w.zone
  | some d => '.' :: (d.digits ++ w.zone)

/-- The word. -/
def text (w : Word) : String := String.ofList (w.civil.text ++ w.tail)

/-- The decimals that are written. -/
def digits (w : Word) : List Char :=
  match w.decimals with
  | none => []
  | some d => d.digits

/-- What is written of the decimals are digits. -/
theorem isDigit_digits (w : Word) : ∀ c ∈ w.digits, c.isDigit = true := by
  unfold digits
  split
  · intro c member
    cases member
  · next d _ => exact d.run.isDigit_chars

/-- Decimals make less than a second. -/
theorem nanos_lt (w : Word) : Scan.nanos w.digits < 1000000000 := Scan.nanos_lt w.isDigit_digits

/-- The fields of the word. -/
def fields (w : Word) : Fields := w.civil.fields (Scan.nanos w.digits) 0

/-! ## What the forms read -/

/-- A comma before the decimals is made a point. -/
theorem pointForComma_tail_append (w : Word) {rest : List Char} (clean : ',' ∉ rest) :
    pointForComma (w.tail ++ rest) = w.pointTail ++ rest := by
  have cleanZone : ',' ∉ w.zone ++ rest := by
    unfold zone
    split <;> simp [clean]
  unfold tail pointTail
  split
  · exact pointForComma_of_notMem cleanZone
  · next d _ =>
      have digits : ',' ∉ d.digits := d.run.not_mem_chars rfl
      have cleanTail : ',' ∉ d.digits ++ (w.zone ++ rest) := by
        rw [List.mem_append, not_or]
        exact ⟨digits, cleanZone⟩
      rw [List.cons_append, List.cons_append, List.append_assoc]
      cases comma : d.comma with
      | true => simp [Decimals.mark, comma, pointForComma]
      | false => simp [Decimals.mark, comma, pointForComma, pointForComma_of_notMem cleanTail]

/-- The decimals are scanned after a point, up to what is neither a digit nor a point. -/
theorem fraction_pointTail_append (w : Word) {rest : List Char}
    (stop : (w.zone ++ rest).takeWhile Char.isDigit = [])
    (point : Scan.exactly '.' (w.zone ++ rest) = none) :
    Scan.fraction (w.pointTail ++ rest) = some (Scan.nanos w.digits, w.zone ++ rest) := by
  unfold pointTail digits
  split
  · simp only [Scan.fraction, point]
    rfl
  · next d _ =>
      rw [List.cons_append, List.append_assoc]
      exact d.fraction_append stop

/-- The instant that a word denotes with more text after it. -/
theorem parse?_text_append (w : Word) {rest : List Char} (clean : ',' ∉ rest)
    (stop : (w.zone ++ rest).takeWhile Char.isDigit = [])
    (point : Scan.exactly '.' (w.zone ++ rest) = none) :
    parse? (w.text ++ String.ofList rest) =
      (looseZone (w.zone ++ rest)).bind fun offset =>
        (w.civil.fields (Scan.nanos w.digits) offset).instant? := by
  have read : looseDateTime (pointForComma (w.civil.text ++ (w.tail ++ rest))) =
      some (w.fields, w.zone ++ rest) := by
    rw [Civil.pointForComma_text_append, w.pointForComma_tail_append clean,
      Civil.looseDateTime_append, w.fraction_pointTail_append stop point]
    rfl
  rw [parse?, text, ← String.ofList_append, String.toList_ofList, List.append_assoc]
  exact ofChars?_of_looseDateTime read

/-- **A word** denotes the instant that its fields do. -/
theorem parse?_text (w : Word) : parse? w.text = w.fields.instant? := by
  have ends : (w.zone ++ []).takeWhile Char.isDigit = [] ∧ Scan.exactly '.' (w.zone ++ []) = none ∧
      looseZone (w.zone ++ []) = some 0 := by
    unfold zone
    split <;> exact ⟨rfl, rfl, rfl⟩
  obtain ⟨stop, point, universal⟩ := ends
  have denoted := w.parse?_text_append List.not_mem_nil stop point
  rwa [universal, String.ofList_nil, String.append_empty] at denoted

/-- **A word is accepted** if its date exists and its time of day is one. -/
theorem isSome_parse?_text (w : Word) : (parse? w.text).isSome = true ↔ w.civil.Valid := by
  rw [parse?_text]
  exact w.civil.isSome_instant?_iff w.nanos_lt (by decide)

end Word

end Interleave.Timestamp
