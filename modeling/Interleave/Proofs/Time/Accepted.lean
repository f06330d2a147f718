/-
# What is accepted as a timestamp

A timestamp is accepted in whatever way its numbers are spaced and however few digits they
have.  Only where everything is at full width may the separator of date and time be anything
but a `T`.  Nothing else is accepted.  So the first word of a line may be three short numbers
with hyphens between them, and still denote an instant.

* `isWordChar`, `OfWordChars` : the characters of a timestamp;
* `SpacedWord`, `SpacedWord.chars`, `SpacedWord.instant?` : a timestamp as it may be written,
  and the instant that it denotes;
* `SpacedWord.Separated`, `SpacedWord.IsRegular` : which separators are accepted, and the
  timestamps at full width;
* `ofChars?_eq_some_iff` : what is accepted, and the instant that it denotes;
* `accepted_lines` : which lines start with a timestamp.
-/
import Interleave.Log.FirstWord
import Interleave.Proofs.Text.Pieces
import Interleave.Proofs.Time.DecimalMark
import Interleave.Proofs.Time.Spaced

namespace Interleave.Timestamp

open Scan

/-! ## The characters of a timestamp -/

/-- A character of a timestamp, but for the mark before its decimals. -/
def isWordChar (c : Char) : Bool :=
  c.isDigit || Text.isBlank c || c ∈ ['-', '+', '\u2212', ':', 'T', 't', 'Z', 'z']

/-- Such characters only. -/
def OfWordChars (text : List Char) : Prop := ∀ c ∈ text, isWordChar c = true

namespace OfWordChars

/-- A text has only such characters if its parts have. -/
theorem append {a b : List Char} (h : OfWordChars a) (h' : OfWordChars b) : OfWordChars (a ++ b) :=
  List.forall_mem_append.mpr ⟨h, h'⟩

/-- A text has only such characters if the first is one and the others are. -/
theorem cons {c : Char} {text : List Char} (h : isWordChar c = true) (h' : OfWordChars text) :
    OfWordChars (c :: text) :=
  List.forall_mem_cons.mpr ⟨h, h'⟩

/-- So have digits. -/
theorem digits {width : Nat} (d : Digits width) : OfWordChars d.chars := by
  intro c member
  rw [isWordChar, d.isDigit_chars c member, Bool.true_or, Bool.true_or]

/-- So have blanks. -/
theorem blanks (b : Blanks) : OfWordChars b.chars := by
  intro c member
  rw [isWordChar, b.forall_chars c member, Bool.or_true, Bool.true_or]

/-- So has what stands before the minutes of an offset. -/
theorem gap (g : RunOf isOffsetGap) : OfWordChars g.chars := by
  intro c member
  have either := g.forall_chars c member
  simp only [isOffsetGap, Bool.or_eq_true, beq_iff_eq] at either
  rcases either with rfl | blank
  · rfl
  · rw [isWordChar, blank, Bool.or_true, Bool.true_or]

/-- A number with blanks in front has only such characters. -/
theorem number {most : Nat} (n : SpacedNumber most) : OfWordChars n.chars :=
  (blanks n.blanks).append (digits n.digits)

/-- So has a date. -/
theorem date (d : SpacedDate) : OfWordChars d.chars := by
  have year : OfWordChars d.year.chars := by
    cases d.year with
    | plain n => exact number n
    | signed b negative more run =>
        refine (blanks b).append ?_
        cases negative <;> exact cons rfl (digits run)
  exact year.append (cons rfl ((number d.month).append (cons rfl (number d.day))))

/-- So has a time of day. -/
theorem time (t : SpacedTime) : OfWordChars t.chars :=
  (number t.hour).append (cons rfl ((number t.minute).append (cons rfl (number t.second))))

/-- So has what stands after the decimals. -/
theorem zone (z : SpacedZone) : OfWordChars z.chars := by
  cases z with
  | none => exact List.forall_mem_nil _
  | zulu b capital =>
      refine (blanks b).append (cons ?_ (List.forall_mem_nil _))
      cases capital <;> rfl
  | offset b sign hours g minutes =>
      have last : OfWordChars (SpacedZone.minuteChars minutes) := by
        cases minutes with
        | none => exact List.forall_mem_nil _
        | some minutes => exact digits minutes
      refine (blanks b).append (cons ?_ ((digits hours).append ((gap g).append last)))
      cases sign <;> rfl

/-- There is no mark among them. -/
theorem unmarked {text : List Char} (h : OfWordChars text) : Unmarked text :=
  .of_forall isWordChar rfl rfl h

end OfWordChars

/-! ## Timestamps -/

namespace Decimals

/-- Decimals as they are written, if there are any. -/
def written : Option Decimals → List Char
  | none => []
  | some d => d.mark :: d.digits

/-- The same after a point. -/
def pointed : Option Decimals → List Char
  | none => []
  | some d => '.' :: d.digits

/-- The nanoseconds that they make. -/
def nanos : Option Decimals → Nat
  | none => 0
  | some d => Scan.nanos d.digits

/-- Decimals after a point are read, or their absence. -/
theorem fraction_pointed (d : Option Decimals) {rest : List Char} (plain : Unmarked rest)
    (stop : rest.takeWhile Char.isDigit = []) :
    fraction (pointed d ++ rest) = some (nanos d, rest) := by
  cases d with
  | none =>
      have point : exactly '.' rest = none := by
        cases there : exactly '.' rest with
        | none => rfl
        | some others =>
            rw [exactly_eq_some_iff.mp there] at plain
            cases (Unmarked.cons_iff.mp plain).1
      rw [pointed, List.nil_append, fraction, point]
      rfl
  | some d => exact d.fraction_append stop

/-- What is read are decimals after a point, or none. -/
theorem exists_of_fraction {text rest : List Char} {n : Nat} (h : fraction text = some (n, rest)) :
    ∃ d, text = pointed d ++ rest ∧ n = nanos d := by
  unfold fraction at h
  split at h
  · cases h
    exact ⟨none, rfl, rfl⟩
  · next decimals there =>
      obtain ⟨⟨run, rest⟩, scanned, same⟩ := Option.map_eq_some_iff.mp h
      cases same
      obtain ⟨digit, least, -⟩ := run_of_digits scanned
      refine ⟨some ⟨false, run.length - 1, ⟨run, by omega, digit⟩⟩, ?_, rfl⟩
      rw [exactly_eq_some_iff.mp there, Scan.digits_append scanned]
      rfl

end Decimals

/-- A timestamp as it may be written: a date, alone or with a time of day, decimals, and what
stands after them. -/
inductive SpacedWord where
  | alone (date : SpacedDate)
  | withTime (date : SpacedDate) (separator : Char) (time : SpacedTime)
      (decimals : Option Decimals) (zone : SpacedZone)

namespace SpacedWord

/-- What is written. -/
def chars : SpacedWord → List Char
  | .alone date => date.chars
  | .withTime date separator time decimals zone =>
      date.chars ++ separator :: (time.chars ++ (Decimals.written decimals ++ zone.chars))

/-- The same with a point before the decimals. -/
def pointed : SpacedWord → List Char
  | .alone date => date.chars
  | .withTime date separator time decimals zone =>
      date.chars ++ separator :: (time.chars ++ (Decimals.pointed decimals ++ zone.chars))

/-- The fields that the timestamp says. -/
def fields? : SpacedWord → Option Fields
  | .alone date => some ⟨date.year.number, date.month.number, date.day.number, 0, 0, 0, 0, 0⟩
  | .withTime date _ time decimals zone =>
      zone.seconds?.map fun offset =>
        ⟨date.year.number, date.month.number, date.day.number, time.hour.number,
          time.minute.number, time.second.number, Decimals.nanos decimals, offset⟩

/-- The instant that it denotes. -/
def instant? (w : SpacedWord) : Option Instant := w.fields?.bind Fields.instant?

/-- The separator of date and time is a `T`, or another one where everything is at full width
and the offset is strict. -/
def Separated : SpacedWord → Prop
  | .alone _ => True
  | .withTime date separator time _ zone =>
      separator = 'T' ∨
        isSeparator separator = true ∧ date.IsFull ∧ time.IsFull ∧ zone.IsStrict

/-- Everything is at full width, and there are no blanks but perhaps for the separator. -/
def IsRegular : SpacedWord → Prop
  | .alone date => date.IsFull
  | .withTime date separator time _ zone =>
      isSeparator separator = true ∧ date.IsFull ∧ time.IsFull ∧ zone.IsRegular

/-- There is a separator where one is accepted. -/
theorem isSeparator_of_separated {date : SpacedDate} {separator : Char} {time : SpacedTime}
    {decimals : Option Decimals} {zone : SpacedZone}
    (h : (withTime date separator time decimals zone).Separated) : isSeparator separator = true := by
  rcases h with rfl | ⟨separates, -⟩
  · rfl
  · exact separates

/-! ### Commas -/

/-- What stands before the decimals has no mark. -/
theorem unmarked_front (date : SpacedDate) {separator : Char} (h : isSeparator separator = true)
    (time : SpacedTime) : Unmarked (date.chars ++ separator :: time.chars) :=
  Unmarked.append_iff.mpr ⟨(OfWordChars.date date).unmarked,
    Unmarked.cons_iff.mpr ⟨isMark_eq_false isSeparator rfl rfl h, (OfWordChars.time time).unmarked⟩⟩

/-- What stands after the point has no mark. -/
theorem unmarked_back (d : Decimals) (zone : SpacedZone) : Unmarked (d.digits ++ zone.chars) :=
  Unmarked.append_iff.mpr ⟨(OfWordChars.digits d.run).unmarked, (OfWordChars.zone zone).unmarked⟩

/-- A comma before the decimals is made a point. -/
theorem pointForComma_chars {w : SpacedWord} (h : w.Separated) :
    pointForComma w.chars = w.pointed := by
  cases w with
  | alone date =>
      exact pointForComma_of_notMem ((OfWordChars.date date).unmarked.notMem rfl)
  | withTime date separator time decimals zone =>
      have front := unmarked_front date (isSeparator_of_separated h) time
      have split : ∀ back, date.chars ++ separator :: (time.chars ++ back) =
          (date.chars ++ separator :: time.chars) ++ back := by simp
      rw [chars, pointed, split, split, pointForComma_append (front.notMem rfl)]
      congr 1
      cases decimals with
      | none => exact pointForComma_of_notMem ((OfWordChars.zone zone).unmarked.notMem rfl)
      | some d =>
          have clean : ',' ∉ d.digits ++ zone.chars := (unmarked_back d zone).notMem rfl
          show pointForComma (d.mark :: (d.digits ++ zone.chars)) = '.' :: (d.digits ++ zone.chars)
          unfold Decimals.mark
          cases d.comma with
          | true => rfl
          | false => exact pointForComma_of_notMem (by simpa using clean)

/-- Without a comma a text is left alone, and with one there is a point in its place. -/
theorem eq_or_exists_of_pointForComma {text pointed : List Char}
    (point : pointForComma text = pointed) :
    text = pointed ∨ ∃ a b, text = a ++ ',' :: b ∧ pointed = a ++ '.' :: b := by
  by_cases comma : ',' ∈ text
  · obtain ⟨a, b, rfl, first⟩ := List.eq_append_cons_of_mem comma
    rw [pointForComma_comma first] at point
    exact Or.inr ⟨a, b, rfl, point.symm⟩
  · rw [pointForComma_of_notMem comma] at point
    exact Or.inl point

/-- A text that reads without a point had no comma. -/
theorem eq_of_pointForComma {text pointed : List Char} (point : pointForComma text = pointed)
    (clean : Unmarked pointed) : text = pointed := by
  rcases eq_or_exists_of_pointForComma point with same | ⟨a, b, -, rfl⟩
  · exact same
  · exact absurd (List.mem_append_right a List.mem_cons_self) (clean.notMem rfl)

/-- A text that reads as this word with a point is this word with a point or a comma. -/
theorem exists_of_pointForComma {w : SpacedWord} (h : w.Separated) {text : List Char}
    (point : pointForComma text = w.pointed) :
    ∃ w' : SpacedWord, w'.Separated ∧ w'.chars = text ∧ w'.instant? = w.instant? := by
  cases w with
  | alone date =>
      exact ⟨.alone date, h, (eq_of_pointForComma point (OfWordChars.date date).unmarked).symm, rfl⟩
  | withTime date separator time decimals zone =>
      have front := unmarked_front date (isSeparator_of_separated h) time
      have whole : ∀ back : List Char, date.chars ++ separator :: (time.chars ++ back) =
          (date.chars ++ separator :: time.chars) ++ back := by simp
      cases decimals with
      | none =>
          have clean : Unmarked (withTime date separator time none zone).pointed := by
            rw [pointed, whole]
            exact Unmarked.append_iff.mpr ⟨front, (OfWordChars.zone zone).unmarked⟩
          exact ⟨.withTime date separator time none zone, h, (eq_of_pointForComma point clean).symm,
            rfl⟩
      | some d =>
          rcases eq_or_exists_of_pointForComma point with same | ⟨a, b, rfl, split⟩
          · exact ⟨.withTime date separator time (some { d with comma := false }) zone, h,
              same.symm, rfl⟩
          · rw [pointed, whole] at split
            obtain ⟨rfl, -, rfl⟩ := (List.append_cons_inj_of_notMem (front.notMem rfl)
              ((unmarked_back d zone).notMem rfl)).mp split
            exact ⟨.withTime date separator time (some { d with comma := true }) zone, h,
              whole _, rfl⟩

/-! ### What is accepted -/

/-- A timestamp of which the looser forms read the numbers. -/
theorem looseDateTime_pointed (date : SpacedDate)
    (supported : -262143 ≤ date.year.number ∧ date.year.number ≤ 262142) (time : SpacedTime)
    (decimals : Option Decimals) (zone : SpacedZone) :
    looseDateTime (withTime date 'T' time decimals zone).pointed =
      some (⟨date.year.number, date.month.number, date.day.number, time.hour.number,
        time.minute.number, time.second.number, Decimals.nanos decimals, 0⟩, zone.chars) := by
  have plain := (OfWordChars.zone zone).unmarked
  have stop : (Decimals.pointed decimals ++ zone.chars).takeWhile Char.isDigit = [] := by
    cases decimals with
    | none => exact zone.takeWhile_chars
    | some d => rfl
  unfold looseDateTime pointed
  simp only [date.looseDate_append supported (show ('T' :: _).takeWhile Char.isDigit = [] from rfl),
    exactly_cons, time.looseTime_append stop,
    Decimals.fraction_pointed decimals plain zone.takeWhile_chars, Option.bind_eq_bind,
    Option.bind_some]

/-- A timestamp at full width is read by the strict form, whatever its separator. -/
theorem rfc3339_pointed {date : SpacedDate} {mark : Char} {time : SpacedTime}
    (decimals : Option Decimals) {zone : SpacedZone} (separates : isSeparator mark = true)
    (dateFull : date.IsFull) (timeFull : time.IsFull) (strict : zone.IsStrict) :
    rfc3339 (withTime date mark time decimals zone).pointed =
      (withTime date mark time decimals zone).fields? := by
  obtain ⟨year, month, day⟩ := date
  obtain ⟨yearFull, monthFull, dayFull⟩ := dateFull
  obtain ⟨hourFull, minuteFull, secondFull⟩ := timeFull
  cases year with
  | signed blanks negative more digits => cases yearFull
  | plain year =>
      obtain ⟨_, yearChars, yearNumber⟩ := SpacedNumber.IsFull.exists_digits yearFull
      obtain ⟨_, monthChars, monthNumber⟩ := monthFull.exists_digits
      obtain ⟨_, dayChars, dayNumber⟩ := dayFull.exists_digits
      obtain ⟨_, hourChars, hourNumber⟩ := hourFull.exists_digits
      obtain ⟨_, minuteChars, minuteNumber⟩ := minuteFull.exists_digits
      obtain ⟨_, secondChars, secondNumber⟩ := secondFull.exists_digits
      have decimal := Decimals.fraction_pointed decimals (OfWordChars.zone zone).unmarked
        zone.takeWhile_chars
      unfold rfc3339 pointed fields? SpacedDate.chars SpacedTime.chars SpacedYear.chars
      simp only [yearChars, monthChars, dayChars, hourChars, minuteChars, secondChars,
        List.append_assoc, List.cons_append, Digits.number_append _ (Nat.le_refl _), exactly_cons,
        Timestamp.separator, separates, if_true, decimal, SpacedZone.strictOffset_chars strict,
        Option.bind_eq_bind, Option.bind_some, yearNumber, monthNumber, dayNumber, hourNumber,
        minuteNumber, secondNumber, SpacedYear.number, Option.map_eq_bind]
      rfl

/-- **A timestamp as it may be written** denotes its instant. -/
theorem ofChars?_chars {w : SpacedWord} (h : w.Separated) {i : Instant}
    (denotes : w.instant? = some i) : ofChars? w.chars = some i := by
  obtain ⟨fields, said, given⟩ := Option.bind_eq_some_iff.mp denotes
  obtain ⟨day, denoted⟩ := instant?_eq_some_iff.mp given
  have point := pointForComma_chars h
  cases w with
  | alone date =>
      cases said
      have read := date.looseDate_append denoted.supported List.takeWhile_nil
      rw [List.append_nil] at read
      rw [show date.chars = (alone date).pointed from rfl, ← point] at read
      rw [ofChars?_of_looseDate read, given]
  | withTime date separator time decimals zone =>
      rcases h with rfl | ⟨separates, dateFull, timeFull, strict⟩
      · obtain ⟨offset, seconds, same⟩ := Option.map_eq_some_iff.mp said
        have supported : -262143 ≤ date.year.number ∧ date.year.number ≤ 262142 := by
          have year := denoted.supported
          rwa [← same] at year
        have read := looseDateTime_pointed date supported time decimals zone
        rw [← point] at read
        rw [ofChars?_of_looseDateTime read, zone.looseZone_chars, seconds, Option.bind_some, same,
          given]
      · have read := rfc3339_pointed decimals separates dateFull timeFull strict
        rw [← point, said] at read
        have fits : Form.strictPoint.fields?
            (withTime date separator time decimals zone).chars = some fields := read
        rw [ofChars?_of_fields? fits, given]

/-- What the strict form reads is a timestamp at full width. -/
theorem exists_of_rfc3339 {text : List Char} {fields : Fields} (h : rfc3339 text = some fields) :
    ∃ w : SpacedWord, w.Separated ∧ w.pointed = text ∧ w.fields? = some fields := by
  obtain ⟨c, separator, rest, zone, nanos, offset, rfl, separates, decimal, ended, rfl⟩ :=
    exists_civil_of_rfc3339 h
  obtain ⟨decimals, rfl, rfl⟩ := Decimals.exists_of_fraction decimal
  obtain ⟨zone, strict, rfl, seconds⟩ := SpacedZone.exists_of_strictOffset ended
  let full : Digits 2 → SpacedNumber 2 := fun d => .ofDigits d (by decide)
  have isFull : ∀ d, (full d).IsFull := fun _ => ⟨rfl, rfl⟩
  refine ⟨.withTime ⟨.plain (.ofDigits c.year (by decide)), full c.month, full c.day⟩ separator
    ⟨full c.hour, full c.minute, full c.second⟩ decimals zone, ?_, ?_, ?_⟩
  · exact Or.inr ⟨separates, ⟨⟨rfl, rfl⟩, isFull _, isFull _⟩, ⟨isFull _, isFull _, isFull _⟩, strict⟩
  · simp [pointed, SpacedDate.chars, SpacedTime.chars, SpacedYear.chars, SpacedNumber.chars,
      SpacedNumber.ofDigits, full, Civil.dateText]
  · rw [fields?, seconds]
    rfl

/-- What the looser forms read of a date and a time of day. -/
theorem exists_of_looseDateTime {text rest : List Char} {fields : Fields}
    (h : looseDateTime text = some (fields, rest)) :
    ∃ (date : SpacedDate) (time : SpacedTime) (decimals : Option Decimals),
      text = date.chars ++ 'T' :: (time.chars ++ (Decimals.pointed decimals ++ rest)) ∧
      fields = ⟨date.year.number, date.month.number, date.day.number, time.hour.number,
        time.minute.number, time.second.number, Decimals.nanos decimals, 0⟩ := by
  simp only [looseDateTime, Option.bind_eq_bind, Option.bind_eq_some_iff, Prod.exists,
    exactly_eq_some_iff] at h
  obtain ⟨_, _, _, _, readDate, _, rfl, _, _, _, _, readTime, _, _, decimal, same⟩ := h
  cases same
  obtain ⟨date, rfl, rfl, rfl, rfl⟩ := SpacedDate.exists_of_looseDate readDate
  obtain ⟨time, rfl, rfl, rfl, rfl⟩ := SpacedTime.exists_of_looseTime readTime
  obtain ⟨decimals, rfl, rfl⟩ := Decimals.exists_of_fraction decimal
  exact ⟨date, time, decimals, rfl, rfl⟩

/-- **What a form reads** is a timestamp as it may be written. -/
theorem exists_of_fields? {form : Form} {text : List Char} {fields : Fields}
    (h : form.fields? text = some fields) :
    ∃ w : SpacedWord, w.Separated ∧ w.pointed = pointForComma text ∧ w.fields? = some fields := by
  cases form with
  | strict =>
      rw [pointForComma_of_notMem (comma_notMem_of_widest (widest_of_rfc3339 h))]
      exact exists_of_rfc3339 h
  | strictPoint => exact exists_of_rfc3339 h
  | withOffset =>
      simp only [Form.fields?, Timestamp.withOffset, Option.bind_eq_bind, Option.bind_eq_some_iff,
        Prod.exists] at h
      obtain ⟨universal, rest, read, offset, ended, same⟩ := h
      obtain ⟨date, time, decimals, split, rfl⟩ := exists_of_looseDateTime read
      have zoned : looseZone rest = some offset := by
        unfold looseZone
        split_ifs with nothing
        · rw [nothing] at ended
          cases ended
        · exact ended
      obtain ⟨zone, rfl, seconds⟩ := SpacedZone.exists_of_looseZone zoned
      refine ⟨.withTime date 'T' time decimals zone, Or.inl rfl, split.symm, ?_⟩
      rw [fields?, seconds]
      exact same
  | withoutOffset =>
      simp only [Form.fields?, Timestamp.withoutOffset, Option.bind_eq_bind,
        Option.bind_eq_some_iff, Prod.exists] at h
      obtain ⟨fields, rest, read, ended⟩ := h
      obtain ⟨date, time, decimals, split, rfl⟩ := exists_of_looseDateTime read
      split_ifs at ended with nothing
      rw [nothing] at split
      exact ⟨.withTime date 'T' time decimals .none, Or.inl rfl, split.symm, ended⟩
  | wholeSeconds =>
      simp only [Form.fields?, Timestamp.wholeSeconds, Option.bind_eq_bind,
        Option.bind_eq_some_iff, Prod.exists, exactly_eq_some_iff] at h
      obtain ⟨_, _, _, _, readDate, _, rfl, _, _, _, rest, readTime, ended⟩ := h
      obtain ⟨date, split, rfl, rfl, rfl⟩ := SpacedDate.exists_of_looseDate readDate
      obtain ⟨time, rfl, rfl, rfl, rfl⟩ := SpacedTime.exists_of_looseTime readTime
      split_ifs at ended with nothing
      rw [nothing] at split
      exact ⟨.withTime date 'T' time none .none, Or.inl rfl, split.symm, ended⟩
  | dateOnly =>
      simp only [Form.fields?, Timestamp.dateOnly, Option.bind_eq_bind, Option.bind_eq_some_iff,
        Prod.exists] at h
      obtain ⟨_, _, _, rest, readDate, ended⟩ := h
      obtain ⟨date, split, rfl, rfl, rfl⟩ := SpacedDate.exists_of_looseDate readDate
      split_ifs at ended with nothing
      rw [nothing, List.append_nil] at split
      exact ⟨.alone date, trivial, split.symm, ended⟩

/-- The characters of a timestamp. -/
theorem isWordChar_or_isMark {w : SpacedWord} (h : w.Separated) :
    ∀ c ∈ w.chars, isWordChar c = true ∨ isMark c = true := by
  have plain : ∀ {text : List Char}, OfWordChars text →
      ∀ c ∈ text, isWordChar c = true ∨ isMark c = true := fun h c member => Or.inl (h c member)
  cases w with
  | alone date => exact plain (OfWordChars.date date)
  | withTime date separator time decimals zone =>
      have separates : isWordChar separator = true := by
        have among := isSeparator_of_separated h
        simp only [isSeparator, Bool.or_eq_true, beq_iff_eq] at among
        rcases among with (rfl | rfl) | rfl <;> rfl
      have decimal : ∀ c ∈ Decimals.written decimals, isWordChar c = true ∨ isMark c = true := by
        cases decimals with
        | none => exact List.forall_mem_nil _
        | some d =>
            refine List.forall_mem_cons.mpr ⟨Or.inr ?_, plain (OfWordChars.digits d.run)⟩
            unfold Decimals.mark
            cases d.comma <;> rfl
      exact List.forall_mem_append.mpr ⟨plain (OfWordChars.date date),
        List.forall_mem_cons.mpr ⟨Or.inl separates,
          List.forall_mem_append.mpr ⟨plain (OfWordChars.time time),
            List.forall_mem_append.mpr ⟨decimal, plain (OfWordChars.zone zone)⟩⟩⟩⟩

end SpacedWord

/-- **What is accepted**: a text denotes an instant if and only if it is a timestamp as it may be
written that denotes this instant. -/
theorem ofChars?_eq_some_iff {text : List Char} {i : Instant} :
    ofChars? text = some i ↔
      ∃ w : SpacedWord, w.Separated ∧ w.chars = text ∧ w.instant? = some i := by
  constructor
  · intro given
    obtain ⟨form, -, denoted⟩ := List.exists_of_findSome?_eq_some given
    obtain ⟨fields, read, denoted⟩ := Option.bind_eq_some_iff.mp denoted
    obtain ⟨w, separated, point, said⟩ := SpacedWord.exists_of_fields? read
    obtain ⟨w', separated', chars, same⟩ := SpacedWord.exists_of_pointForComma separated point.symm
    refine ⟨w', separated', chars, same.trans ?_⟩
    rw [SpacedWord.instant?, said]
    exact denoted
  · rintro ⟨w, separated, rfl, denotes⟩
    exact SpacedWord.ofChars?_chars separated denotes

/-- The characters of a text that is accepted. -/
theorem isWordChar_of_ofChars? {text : List Char} {i : Instant} (h : ofChars? text = some i)
    {c : Char} (member : c ∈ text) : isWordChar c = true ∨ isMark c = true := by
  obtain ⟨w, separated, rfl, -⟩ := ofChars?_eq_some_iff.mp h
  exact SpacedWord.isWordChar_or_isMark separated c member

/-! ## Lines -/

/-- A line has an instant if its first word denotes it. -/
theorem ofLine_eq_timestamp_iff {raw : Bytes} {i : Instant} :
    FirstWord.ofLine raw = .timestamp i ↔
      ∃ token, firstWord raw = some token ∧ FirstWord.instant? token = some i := by
  unfold FirstWord.ofLine
  cases firstWord raw with
  | none => simp
  | some token => cases given : FirstWord.instant? token <;> simp [given]

/-- Its first word is no timestamp if it denotes nothing. -/
theorem ofLine_eq_other_iff {raw token : Bytes} :
    FirstWord.ofLine raw = .other token ↔
      firstWord raw = some token ∧ FirstWord.instant? token = none := by
  unfold FirstWord.ofLine
  cases firstWord raw with
  | none => simp
  | some word =>
      cases given : FirstWord.instant? word with
      | none => simpa [given] using fun same => same ▸ given
      | some i =>
          simp only [given, reduceCtorEq, Option.some.injEq, false_iff, not_and]
          rintro rfl none
          rw [given] at none
          cases none

/-- **Which words denote an instant**: the bytes of a timestamp that denotes it. -/
theorem firstWord_instant?_eq_some_iff {token : Bytes} {i : Instant} :
    FirstWord.instant? token = some i ↔
      ∃ w : SpacedWord, w.Separated ∧ token = Utf8.encode w.chars ∧ w.instant? = some i := by
  rw [FirstWord.instant?, Option.bind_eq_some_iff]
  constructor
  · rintro ⟨text, decoded, given⟩
    obtain ⟨w, separated, same, denotes⟩ := ofChars?_eq_some_iff.mp given
    exact ⟨w, separated, same ▸ Utf8.decode?_eq_some_iff.mp decoded, denotes⟩
  · rintro ⟨w, separated, rfl, denotes⟩
    refine ⟨String.ofList w.chars, Utf8.decode?_eq_some_iff.mpr ?_, ?_⟩
    · rw [String.toList_ofList]
    · rw [parse?, String.toList_ofList]
      exact ofChars?_eq_some_iff.mpr ⟨w, separated, rfl, denotes⟩

/-- **Which lines start with a timestamp.**  A line has an instant if and only if its first word
is the bytes of a timestamp as it may be written that denotes this instant.  Any other first
word is no timestamp. -/
theorem accepted_lines (raw : Bytes) :
    (∀ i, FirstWord.ofLine raw = .timestamp i ↔
      ∃ token, firstWord raw = some token ∧
        ∃ w : SpacedWord, w.Separated ∧ token = Utf8.encode w.chars ∧ w.instant? = some i) ∧
    ∀ token, FirstWord.ofLine raw = .other token ↔
      firstWord raw = some token ∧
        ¬ ∃ (w : SpacedWord) (i : Instant),
          w.Separated ∧ token = Utf8.encode w.chars ∧ w.instant? = some i := by
  refine ⟨fun i => ?_, fun token => ?_⟩
  · rw [ofLine_eq_timestamp_iff]
    exact exists_congr fun token => and_congr_right fun _ => firstWord_instant?_eq_some_iff
  · rw [ofLine_eq_other_iff]
    refine and_congr_right fun _ => ?_
    rw [Option.eq_none_iff_forall_ne_some, ← not_exists]
    refine not_congr ⟨?_, ?_⟩
    · rintro ⟨i, given⟩
      obtain ⟨w, accepted⟩ := firstWord_instant?_eq_some_iff.mp given
      exact ⟨w, i, accepted⟩
    · rintro ⟨w, i, accepted⟩
      exact ⟨i, firstWord_instant?_eq_some_iff.mpr ⟨w, accepted⟩⟩

/-- Everything at full width takes ten characters. -/
theorem SpacedWord.length_of_isRegular {w : SpacedWord} (h : w.IsRegular) : 10 ≤ w.chars.length := by
  have date_length : ∀ {d : SpacedDate}, d.IsFull → d.chars.length = 10 := by
    rintro ⟨year, month, day⟩ ⟨yearFull, monthFull, dayFull⟩
    obtain ⟨m, monthChars, -⟩ := monthFull.exists_digits
    obtain ⟨d, dayChars, -⟩ := dayFull.exists_digits
    cases year with
    | signed blanks negative more digits => cases yearFull
    | plain year =>
        obtain ⟨y, yearChars, -⟩ := SpacedNumber.IsFull.exists_digits yearFull
        simp only [SpacedDate.chars, SpacedYear.chars, yearChars, monthChars, dayChars,
          List.length_append, List.length_cons, Digits.length_chars]
  cases w with
  | alone date => exact Nat.le_of_eq (date_length h).symm
  | withTime date separator time decimals zone =>
      rw [chars, List.length_append, date_length h.2.1]
      omega

/-- Three short numbers with hyphens between them are accepted, at the head of any message. -/
theorem short_numbers_accepted :
    FirstWord.ofLine (Ascii.encode "1-2-3 go\n") =
        .timestamp ⟨-62132745600, 0, by decide⟩ ∧
      parse? "1-2-3" = some ⟨-62132745600, 0, by decide⟩ ∧
      ¬ ∃ w : SpacedWord, w.IsRegular ∧ w.chars = "1-2-3".toList := by
  refine ⟨by decide +kernel, by decide +kernel, ?_⟩
  rintro ⟨w, regular, chars⟩
  have long := SpacedWord.length_of_isRegular regular
  rw [chars] at long
  exact absurd long (by decide)

/-- A year with a sign, numbers of one digit and a run of colons are accepted. -/
theorem accepted_lines_signed_year :
    FirstWord.ofLine (Ascii.encode "+2024-1-2T3:4:5+05::30 up\n") =
      .timestamp ⟨1704144845, 0, by decide⟩ := by
  let one (n : Nat) : SpacedNumber 2 := ⟨⟨[], List.forall_mem_nil _⟩, 1, by decide, by decide, .ofNat 1 n⟩
  let w : SpacedWord := .withTime
    ⟨.signed ⟨[], List.forall_mem_nil _⟩ false 3 (.ofNat 4 2024), one 1, one 2⟩ 'T'
    ⟨one 3, one 4, one 5⟩ none
    (.offset ⟨[], List.forall_mem_nil _⟩ .plus (.ofNat 2 5) ⟨[':', ':'], List.all_eq_true.mp rfl⟩
      (some (.ofNat 2 30)))
  exact ((accepted_lines _).1 _).mpr
    ⟨Ascii.encode "+2024-1-2T3:4:5+05::30", by decide +kernel, w, Or.inl rfl, by decide +kernel,
      by decide +kernel⟩

end Interleave.Timestamp
