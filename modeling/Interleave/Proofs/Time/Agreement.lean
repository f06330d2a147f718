/-
# The forms agree

All forms of a timestamp that fit a text read the same fields of it, because each of them is
a case of one form that is wider than all.  So it does not matter in which order the forms
are tried, and a text denotes an instant if it does in any of them.

* `widest` : the form of which all others are cases;
* `looseOffset_of_strictOffset`, `widest_of_rfc3339` : the strict form is a case of it;
* `widest_of_looseDateTime` : so are the looser forms;
* `Form.widest_of_fields?` : so is every form;
* `Form.fields?_agree` : the forms that fit read the same fields;
* `ofChars?_of_fields?`, `ofChars?_eq_none` : what a text denotes of which one form fits, or
  not even the widest;
* `order_of_forms` : the order of the forms does not matter.
-/
import Interleave.Proofs.Time.Civil
import Interleave.Proofs.Time.Fronts

namespace Interleave.Timestamp

open Scan

/-! ## The widest form -/

/-- An offset, or none at all, as in universal time. -/
def looseZone (text : List Char) : Option Int :=
  if text = [] then some 0 else looseOffset text

/-- The widest form: a loose date, alone or with any separator, a loose time of day, decimals
and an offset after it, if there are any. -/
def widest (text : List Char) : Option Fields := do
  let (year, month, day, text) ← looseDate text
  match text with
  | [] => some ⟨year, month, day, 0, 0, 0, 0, 0⟩
  | c :: text =>
      if isSeparator c then do
        let (hour, minute, second, text) ← looseTime text
        let (nanos, text) ← fraction text
        let offset ← looseZone text
        some ⟨year, month, day, hour, minute, second, nanos, offset⟩
      else none

/-! ## The strict form -/

/-- No digit stands between the hours and the minutes of an offset. -/
theorem isOffsetGap_of_isDigit {c : Char} (h : c.isDigit = true) : isOffsetGap c = false := by
  rw [isOffsetGap, isBlank_of_isDigit h, Bool.or_false, beq_eq_false_iff_ne]
  rintro rfl
  cases h

/-- **A strict offset** is a loose one. -/
theorem looseOffset_of_strictOffset {text : List Char} {offset : Int}
    (h : strictOffset text = some offset) : looseOffset text = some offset := by
  cases text with
  | nil => cases h
  | cons c rest =>
      unfold strictOffset at h
      unfold looseOffset
      cases zulu : isZulu c with
      | true =>
          have plain : Text.isBlank c = false := by
            simp only [isZulu, Bool.or_eq_true, beq_iff_eq] at zulu
            rcases zulu with rfl | rfl <;> rfl
          simp only [Text.skipBlanks_cons_of_not_isBlank plain, zulu, if_true] at h ⊢
          exact h
      | false =>
          simp only [zulu, Bool.false_eq_true, if_false, Option.bind_eq_bind,
            Option.bind_eq_some_iff, Prod.exists, exactly_eq_some_iff] at h
          obtain ⟨s, _, signed, hours, _, read, _, rfl, minutes, ended, same⟩ := h
          have plain : Text.isBlank c = false := by
            rcases (sign_cons signed).1 with rfl | rfl | rfl <;> rfl
          obtain ⟨a, b, rfl, digit, -⟩ := exists_of_offsetMinutes ended
          have gap : [':', a, b].dropWhile isOffsetGap = [a, b] := by
            rw [List.dropWhile_cons_of_pos rfl,
              List.dropWhile_cons_of_neg (by rw [isOffsetGap_of_isDigit digit]; decide)]
          simp only [Text.skipBlanks_cons_of_not_isBlank plain, zulu,
            Bool.false_eq_true, if_false, signed, read, gap, ended, Option.bind_eq_bind,
            Option.bind_some, same, reduceCtorEq]

/-- **The strict form** is a case of the widest. -/
theorem widest_of_rfc3339 {text : List Char} {fields : Fields} (h : rfc3339 text = some fields) :
    widest text = some fields := by
  obtain ⟨c, mark, rest, zone, nanos, offset, rfl, separates, decimals, ended, rfl⟩ :=
    exists_civil_of_rfc3339 h
  have zoned : looseZone zone = some offset := by
    have loose := looseOffset_of_strictOffset ended
    unfold looseZone
    split
    · next nothing =>
        rw [nothing] at loose
        cases loose
    · exact loose
  unfold widest
  simp only [Civil.looseDate_append, separates, if_true, Civil.looseTime_append, decimals, zoned,
    Option.bind_eq_bind, Option.bind_some]
  rfl

/-! ## The looser forms -/

/-- **A loose date and time of day** are a case of the widest form, if an offset follows or
nothing. -/
theorem widest_of_looseDateTime {text : List Char} {fields : Fields} {rest : List Char}
    (h : looseDateTime text = some (fields, rest)) :
    fields.offset = 0 ∧
      widest text = (looseZone rest).map fun offset => { fields with offset } := by
  simp only [looseDateTime, Option.bind_eq_bind, Option.bind_eq_some_iff, Prod.exists,
    exactly_eq_some_iff] at h
  obtain ⟨year, month, day, _, date, _, rfl, hour, minute, second, _, time, nanos, _, decimals,
    same⟩ := h
  cases same
  refine ⟨rfl, ?_⟩
  unfold widest
  simp only [date, time, decimals, show isSeparator 'T' = true from rfl, if_true,
    Option.bind_eq_bind, Option.bind_some, Option.map_eq_bind]
  rfl

/-- The looser form with an offset is a case. -/
theorem widest_of_withOffset {text : List Char} {fields : Fields}
    (h : withOffset text = some fields) : widest text = some fields := by
  simp only [withOffset, Option.bind_eq_bind, Option.bind_eq_some_iff, Prod.exists] at h
  obtain ⟨universal, rest, read, offset, ended, same⟩ := h
  cases same
  have zoned : looseZone rest = some offset := by
    unfold looseZone
    split
    · next nothing =>
        rw [nothing] at ended
        cases ended
    · exact ended
  rw [(widest_of_looseDateTime read).2, zoned]
  rfl

/-- The looser form without an offset is a case. -/
theorem widest_of_withoutOffset {text : List Char} {fields : Fields}
    (h : withoutOffset text = some fields) : widest text = some fields := by
  simp only [withoutOffset, Option.bind_eq_bind, Option.bind_eq_some_iff, Prod.exists] at h
  obtain ⟨fields, rest, read, ended⟩ := h
  split at ended
  · next nothing =>
      cases ended
      obtain ⟨universal, wide⟩ := widest_of_looseDateTime read
      rw [wide, nothing, looseZone, if_pos rfl, Option.map_some, ← universal]
  · cases ended

/-- The looser form in whole seconds is a case. -/
theorem widest_of_wholeSeconds {text : List Char} {fields : Fields}
    (h : wholeSeconds text = some fields) : widest text = some fields := by
  simp only [wholeSeconds, Option.bind_eq_bind, Option.bind_eq_some_iff, Prod.exists,
    exactly_eq_some_iff] at h
  obtain ⟨year, month, day, _, date, _, rfl, hour, minute, second, rest, time, ended⟩ := h
  split at ended
  · next nothing =>
      cases ended
      unfold widest
      simp only [date, time, nothing, show isSeparator 'T' = true from rfl, if_true,
        Option.bind_eq_bind, Option.bind_some]
      rfl
  · cases ended

/-- A loose date alone is a case. -/
theorem widest_of_dateOnly {text : List Char} {fields : Fields} (h : dateOnly text = some fields) :
    widest text = some fields := by
  simp only [dateOnly, Option.bind_eq_bind, Option.bind_eq_some_iff, Prod.exists] at h
  obtain ⟨year, month, day, rest, date, ended⟩ := h
  split at ended
  · next nothing =>
      cases ended
      unfold widest
      simp only [date, nothing, Option.bind_eq_bind, Option.bind_some]
  · cases ended

/-! ## Commas and points -/

/-- A date and a time of day with a separator between them, which ends with its seconds. -/
def UpToSeconds (text : List Char) : Prop :=
  ∃ date mark time, text = date ++ mark :: time ∧ isSeparator mark = true ∧
    (∃ year month day, looseDate date = some (year, month, day, [])) ∧
    ∃ hour minute second, looseTime time = some (hour, minute, second, [])

/-- **Where there is a point**: the widest form has no comma, and a point only after the
seconds and before a digit. -/
theorem widest_cases {text : List Char} {fields : Fields} (h : widest text = some fields) :
    Unmarked text ∨ ∃ front digit back, text = front ++ '.' :: digit :: back ∧
      UpToSeconds front ∧ digit.isDigit = true ∧ Unmarked front ∧ Unmarked back := by
  simp only [widest, Option.bind_eq_bind, Option.bind_eq_some_iff, Prod.exists] at h
  obtain ⟨year, month, day, afterDate, read, h⟩ := h
  obtain ⟨date, rfl, plainDate, dated⟩ := exists_front_of_looseDate read
  cases afterDate with
  | nil =>
      left
      rwa [List.append_nil]
  | cons mark afterMark =>
      dsimp only at h
      split at h
      · next separates =>
          simp only [Option.bind_eq_some_iff, Prod.exists] at h
          obtain ⟨hour, minute, second, afterTime, read, nanos, zone, decimals, offset, ended, -⟩ := h
          obtain ⟨time, rfl, plainTime, timed⟩ := exists_front_of_looseTime read
          have plainMark : isMark mark = false := isMark_eq_false isSeparator rfl rfl separates
          have plainZone : Unmarked zone := by
            unfold looseZone at ended
            split at ended
            · next nothing =>
                rw [nothing]
                exact Unmarked.nil
            · exact unmarked_of_looseOffset ended
          have plainFront : Unmarked (date ++ mark :: time) :=
            Unmarked.append_iff.mpr ⟨plainDate, Unmarked.cons_iff.mpr ⟨plainMark, plainTime⟩⟩
          rcases fraction_cases decimals with rfl | ⟨digit, digits, rfl, first, plainDigits⟩
          · left
            have all := Unmarked.append_iff.mpr ⟨plainFront, plainZone⟩
            rwa [List.append_assoc, List.cons_append] at all
          · right
            refine ⟨date ++ mark :: time, digit, digits ++ zone, ?_, ?_, first, plainFront,
              Unmarked.append_iff.mpr ⟨plainDigits, plainZone⟩⟩
            · simp
            · exact ⟨date, mark, time, rfl, separates, ⟨year, month, day, dated⟩,
                ⟨hour, minute, second, timed⟩⟩
      · cases h

/-- The widest form has no comma. -/
theorem comma_notMem_of_widest {text : List Char} {fields : Fields}
    (h : widest text = some fields) : ',' ∉ text := by
  rcases widest_cases h with plain | ⟨front, digit, back, rfl, -, first, plainFront, plainBack⟩
  · exact plain.notMem rfl
  · have plainDigit : isMark digit = false := isMark_of_isDigit first
    have all : ',' ∉ digit :: back :=
      Unmarked.notMem (Unmarked.cons_iff.mpr ⟨plainDigit, plainBack⟩) rfl
    have before := plainFront.notMem (c := ',') rfl
    simp only [List.mem_append, List.mem_cons, not_or] at all ⊢
    exact ⟨before, by decide, all⟩

/-! ## All forms -/

/-- A text without a comma is left alone. -/
theorem pointForComma_of_notMem {text : List Char} (h : ',' ∉ text) : pointForComma text = text := by
  have same := pointForComma_append h []
  rwa [List.append_nil, pointForComma, List.append_nil] at same

namespace Form

/-- **Every form** is a case of the widest. -/
theorem widest_of_fields? {form : Form} {text : List Char} {fields : Fields}
    (h : form.fields? text = some fields) : widest (pointForComma text) = some fields := by
  cases form with
  | strict =>
      have wide := widest_of_rfc3339 h
      rwa [pointForComma_of_notMem (comma_notMem_of_widest wide)]
  | strictPoint => exact widest_of_rfc3339 h
  | withOffset => exact widest_of_withOffset h
  | withoutOffset => exact widest_of_withoutOffset h
  | wholeSeconds => exact widest_of_wholeSeconds h
  | dateOnly => exact widest_of_dateOnly h

/-- **Forms that fit** read the same fields. -/
theorem fields?_agree {form other : Form} {text : List Char} {fields fields' : Fields}
    (h : form.fields? text = some fields) (h' : other.fields? text = some fields') :
    fields = fields' := by
  have wide := widest_of_fields? h
  rw [widest_of_fields? h'] at wide
  exact (Option.some.inj wide).symm

/-- An instant that a form gives is that of the fields of any form that fits. -/
theorem instant?_of_fields? {form other : Form} {text : List Char} {fields : Fields} {i : Instant}
    (h : form.fields? text = some fields) (given : other.instant? text = some i) :
    fields.instant? = some i := by
  obtain ⟨fields', read, denoted⟩ := Option.bind_eq_some_iff.mp given
  rw [fields?_agree h read]
  exact denoted

/-- Forms that give instants give the same one. -/
theorem instant?_agree {form other : Form} {text : List Char} {i j : Instant}
    (h : form.instant? text = some i) (h' : other.instant? text = some j) : i = j := by
  obtain ⟨fields, read, denoted⟩ := Option.bind_eq_some_iff.mp h
  have same := instant?_of_fields? read h'
  rw [denoted] at same
  exact Option.some.inj same

end Form

/-! ## What a text denotes -/

/-- The first form that gives an instant gives what any does. -/
theorem findSome?_instant?_iff {forms : List Form} (all : ∀ form : Form, form ∈ forms)
    (text : List Char) (i : Instant) :
    forms.findSome? (fun form => form.instant? text) = some i ↔
      ∃ form : Form, form.instant? text = some i := by
  constructor
  · intro found
    obtain ⟨form, -, given⟩ := List.exists_of_findSome?_eq_some found
    exact ⟨form, given⟩
  · rintro ⟨form, given⟩
    cases found : forms.findSome? fun form => form.instant? text with
    | none =>
        have refused := List.findSome?_eq_none_iff.mp found form (all form)
        rw [given] at refused
        cases refused
    | some j =>
        obtain ⟨other, -, given'⟩ := List.exists_of_findSome?_eq_some found
        rw [Form.instant?_agree given given']

/-- All forms are tried. -/
theorem Form.mem_all (form : Form) : form ∈ Form.all := by
  cases form <;> decide

/-- A text denotes what the fields of a form that fits do. -/
theorem ofChars?_of_fields? {form : Form} {text : List Char} {fields : Fields}
    (h : form.fields? text = some fields) : ofChars? text = fields.instant? := by
  cases denoted : fields.instant? with
  | some i =>
      have given : form.instant? text = some i := by
        rw [Form.instant?, h, Option.bind_some, denoted]
      exact (findSome?_instant?_iff Form.mem_all text i).mpr ⟨form, given⟩
  | none =>
      apply List.findSome?_eq_none_iff.mpr
      intro other _
      cases given : other.instant? text with
      | none => rfl
      | some i =>
          rw [Form.instant?_of_fields? h given] at denoted
          cases denoted

/-- A text that is not even of the widest form denotes nothing. -/
theorem ofChars?_eq_none {text : List Char} (h : widest (pointForComma text) = none) :
    ofChars? text = none := by
  apply List.findSome?_eq_none_iff.mpr
  intro form _
  cases read : form.fields? text with
  | none => rw [Form.instant?, read, Option.bind_none]
  | some fields =>
      rw [Form.widest_of_fields? read] at h
      cases h

/-- A text of a loose date and time of day denotes what these do with the offset that
follows, if one follows or nothing. -/
theorem ofChars?_of_looseDateTime {text : List Char} {fields : Fields} {rest : List Char}
    (h : looseDateTime (pointForComma text) = some (fields, rest)) :
    ofChars? text = (looseZone rest).bind fun offset => Fields.instant? { fields with offset } := by
  obtain ⟨universal, wide⟩ := widest_of_looseDateTime h
  cases zoned : looseZone rest with
  | none =>
      rw [zoned] at wide
      exact ofChars?_eq_none wide
  | some offset =>
      by_cases nothing : rest = []
      · rw [looseZone, if_pos nothing] at zoned
        cases zoned
        have fits : Form.withoutOffset.fields? text = some fields := by
          simp only [Form.fields?, Timestamp.withoutOffset, h, nothing, if_true,
            Option.bind_eq_bind, Option.bind_some]
        rw [ofChars?_of_fields? fits, Option.bind_some, ← universal]
      · rw [looseZone, if_neg nothing] at zoned
        have fits : Form.withOffset.fields? text = some { fields with offset } := by
          simp only [Form.fields?, Timestamp.withOffset, h, zoned, Option.bind_eq_bind,
            Option.bind_some]
        rw [ofChars?_of_fields? fits, Option.bind_some]

/-- A text of a loose date denotes the midnight that begins it. -/
theorem ofChars?_of_looseDate {text : List Char} {year : Int} {month day : Nat}
    (h : looseDate (pointForComma text) = some (year, month, day, [])) :
    ofChars? text = Fields.instant? ⟨year, month, day, 0, 0, 0, 0, 0⟩ := by
  have fits : Form.dateOnly.fields? text = some ⟨year, month, day, 0, 0, 0, 0, 0⟩ := by
    simp only [Form.fields?, Timestamp.dateOnly, h, if_true, Option.bind_eq_bind, Option.bind_some]
  exact ofChars?_of_fields? fits

/-! ## The order of the forms -/

/-- **The order of the forms does not matter.**  Forms that give an instant for a word give the
same one; a word denotes an instant if and only if some form gives it; and whatever the order
in which all forms are tried, the first instant that is given is the one the word denotes. -/
theorem order_of_forms (word : String) :
    (∀ (form other : Form) (i j : Instant), form.instant? word.toList = some i →
      other.instant? word.toList = some j → i = j) ∧
    (∀ i, parse? word = some i ↔ ∃ form : Form, form.instant? word.toList = some i) ∧
    ∀ forms : List Form, (∀ form, form ∈ forms) →
      forms.findSome? (fun form => form.instant? word.toList) = parse? word := by
  have union := findSome?_instant?_iff Form.mem_all word.toList
  refine ⟨fun _ _ _ _ => Form.instant?_agree, union, ?_⟩
  intro forms all
  apply Option.ext
  intro i
  rw [findSome?_instant?_iff all word.toList i]
  exact (union i).symm

/-- With a minus sign before its offset and a comma before its decimals a leap second is read
in two of the forms, and in the same way when they are tried from the last to the first. -/
theorem order_of_forms_minus_sign :
    let word := "2016-12-31T23:59:60,25\u221205:30"
    (∃ i j, Form.strictPoint.instant? word.toList = some i ∧
      Form.withOffset.instant? word.toList = some j ∧ i = j) ∧
    (∃ i, parse? word = some i) ∧
    Form.all.reverse.findSome? (fun form => form.instant? word.toList) = parse? word := by
  intro word
  obtain ⟨agree, union, orders⟩ := order_of_forms word
  have strict : Form.strictPoint.instant? word.toList =
      some ⟨1483248599, 1250000000, by decide⟩ := by decide +kernel
  have loose : Form.withOffset.instant? word.toList =
      some ⟨1483248599, 1250000000, by decide⟩ := by decide +kernel
  refine ⟨⟨_, _, strict, loose, agree _ _ _ _ strict loose⟩, ⟨_, (union _).mpr ⟨_, loose⟩⟩, ?_⟩
  exact orders _ fun form => List.mem_reverse.mpr form.mem_all

end Interleave.Timestamp
