/-
# The mark before the decimals

A comma before the decimals of a second is as good as a point.  That is all a comma is good
for: a text with a comma anywhere else, with two of them or with a comma and a point, denotes
nothing, and the comma of a text that does is the only one.

* `widest_point` : where the point is in a text of the widest form;
* `ofChars?_comma` : a comma denotes what a point does;
* `comma_as_point` : where the comma is in a timestamp.
-/
import Mathlib.Data.List.Basic
import Interleave.Proofs.Time.Agreement

namespace Interleave.Timestamp

open Scan

/-! ## The point -/

/-- **A point** of the widest form comes after the seconds and before a digit, and is the only
mark. -/
theorem widest_point {a b : List Char} {fields : Fields}
    (h : widest (a ++ '.' :: b) = some fields) :
    UpToSeconds a ∧ Unmarked a ∧ Unmarked b ∧
      ∃ digit back, b = digit :: back ∧ digit.isDigit = true := by
  rcases widest_cases h with plain | ⟨front, digit, back, split, upTo, first, plainFront, plainBack⟩
  · have member : '.' ∈ a ++ '.' :: b := by simp
    exact absurd member (plain.notMem rfl)
  · have plain : Unmarked (digit :: back) :=
      Unmarked.cons_iff.mpr ⟨isMark_of_isDigit first, plainBack⟩
    -- Two points would be two in the widest form.
    obtain ⟨rfl, -, rfl⟩ := (List.append_cons_inj_of_notMem (plainFront.notMem rfl)
      (plain.notMem rfl)).mp split.symm
    exact ⟨upTo, plainFront, plain, digit, back, rfl, first⟩

/-! ## The comma -/

/-- The first comma is made a point. -/
theorem pointForComma_comma {a : List Char} (first : ',' ∉ a) (b : List Char) :
    pointForComma (a ++ ',' :: b) = a ++ '.' :: b := by
  rw [pointForComma_append first]
  rfl

/-- The strict form does not take a comma. -/
theorem rfc3339_comma (a b : List Char) : rfc3339 (a ++ ',' :: b) = none := by
  cases read : rfc3339 (a ++ ',' :: b) with
  | none => rfl
  | some fields =>
      have member : ',' ∈ a ++ ',' :: b := by simp
      exact absurd member (comma_notMem_of_widest (widest_of_rfc3339 read))

/-- Where there is one comma, the forms that give an instant give it for a point too. -/
theorem exists_instant?_comma_iff {a b : List Char} (first : ',' ∉ a) (only : ',' ∉ b)
    (i : Instant) :
    (∃ form : Form, form.instant? (a ++ ',' :: b) = some i) ↔
      ∃ form : Form, form.instant? (a ++ '.' :: b) = some i := by
  have clean : ',' ∉ a ++ '.' :: b := by
    simp [first, only]
  -- All forms but the first see the same text.
  have same : ∀ form : Form, form ≠ .strict →
      form.instant? (a ++ ',' :: b) = form.instant? (a ++ '.' :: b) := by
    intro form loose
    have point := pointForComma_of_notMem clean
    cases form with
    | strict => exact absurd rfl loose
    | _ => simp only [Form.instant?, Form.fields?, pointForComma_comma first, point]
  constructor
  · rintro ⟨form, given⟩
    by_cases strict : form = .strict
    · rw [strict, Form.instant?, Form.fields?, rfc3339_comma] at given
      cases given
    · exact ⟨form, (same form strict).symm.trans given⟩
  · rintro ⟨form, given⟩
    by_cases strict : form = .strict
    · refine ⟨.strictPoint, ?_⟩
      rw [strict, Form.instant?, Form.fields?] at given
      rw [Form.instant?, Form.fields?, pointForComma_comma first]
      exact given
    · exact ⟨form, (same form strict).trans given⟩

/-- A text with two commas denotes nothing. -/
theorem ofChars?_two_commas {a b : List Char} (first : ',' ∉ a) (more : ',' ∈ b) :
    ofChars? (a ++ ',' :: b) = none := by
  apply ofChars?_eq_none
  rw [pointForComma_comma first]
  cases read : widest (a ++ '.' :: b) with
  | none => rfl
  | some fields => exact absurd more ((widest_point read).2.2.1.notMem rfl)

/-- So does one with a comma after a point. -/
theorem ofChars?_point_comma {a b : List Char} (first : ',' ∉ a) (more : ',' ∈ b) :
    ofChars? (a ++ '.' :: b) = none := by
  obtain ⟨middle, back, rfl, second⟩ := List.eq_append_cons_of_mem more
  apply ofChars?_eq_none
  have before : ',' ∉ a ++ '.' :: middle := by
    simp [first, second]
  have point := pointForComma_comma before back
  rw [List.append_assoc, List.cons_append, List.append_assoc, List.cons_append] at point
  rw [point]
  cases read : widest (a ++ '.' :: (middle ++ '.' :: back)) with
  | none => rfl
  | some fields =>
      have member : '.' ∈ middle ++ '.' :: back := by simp
      exact absurd member ((widest_point read).2.2.1.notMem rfl)

/-- **A comma** denotes what a point does in its place. -/
theorem ofChars?_comma {a : List Char} (first : ',' ∉ a) (b : List Char) :
    ofChars? (a ++ ',' :: b) = ofChars? (a ++ '.' :: b) := by
  by_cases only : ',' ∈ b
  · rw [ofChars?_two_commas first only, ofChars?_point_comma first only]
  · apply Option.ext
    intro i
    rw [ofChars?, ofChars?, findSome?_instant?_iff Form.mem_all, findSome?_instant?_iff Form.mem_all]
    exact exists_instant?_comma_iff first only i

/-! ## Commas in timestamps -/

/-- **A comma is as good as a point.**  A word denotes what it does with its first comma made
a point.  If a word with a comma denotes an instant, it has no other comma and no point, and
the comma stands after a date and a time of day, directly after the seconds, and before a
digit. -/
theorem comma_as_point (word : String) :
    (∀ a b, word.toList = a ++ ',' :: b → ',' ∉ a →
      parse? word = parse? (String.ofList (a ++ '.' :: b))) ∧
    ((parse? word).isSome = true → ',' ∈ word.toList →
      word.toList.count ',' = 1 ∧ '.' ∉ word.toList ∧
      ∃ front digit back, word.toList = front ++ ',' :: digit :: back ∧ UpToSeconds front ∧
        digit.isDigit = true) := by
  constructor
  · intro a b split first
    rw [parse?, parse?, String.toList_ofList, split]
    exact ofChars?_comma first b
  · intro denotes member
    obtain ⟨a, b, split, first⟩ := List.eq_append_cons_of_mem member
    cases read : widest (pointForComma word.toList) with
    | none =>
        rw [parse?, ofChars?_eq_none read] at denotes
        cases denotes
    | some fields =>
        rw [split, pointForComma_comma first] at read
        obtain ⟨upTo, plainFront, plainBack, digit, back, rfl, isDigit⟩ := widest_point read
        have noneBefore := plainFront.notMem (c := ',') rfl
        have noneAfter := plainBack.notMem (c := ',') rfl
        rw [split]
        refine ⟨?_, ?_, a, digit, back, rfl, upTo, isDigit⟩
        · rw [List.count_append, List.count_cons_self, List.count_eq_zero_of_not_mem noneBefore,
            List.count_eq_zero_of_not_mem noneAfter]
        · have pointBefore := plainFront.notMem (c := '.') rfl
          have pointAfter := plainBack.notMem (c := '.') rfl
          rw [List.mem_append, List.mem_cons, not_or, not_or]
          exact ⟨pointBefore, by decide, pointAfter⟩

/-- Half of a leap second, in a zone that is ahead of universal time. -/
theorem comma_as_point_leap_second :
    let word := "2016-12-31T23:59:60,5+0530"
    parse? word = parse? "2016-12-31T23:59:60.5+0530" ∧ (∃ i, parse? word = some i) ∧
      word.toList.count ',' = 1 ∧ '.' ∉ word.toList := by
  intro word
  obtain ⟨same, comma⟩ := comma_as_point word
  have given : parse? word = some ⟨1483208999, 1500000000, by decide⟩ := by decide +kernel
  have found := comma (by rw [given]; rfl) (by decide +kernel)
  refine ⟨?_, ⟨_, given⟩, found.1, found.2.1⟩
  exact same "2016-12-31T23:59:60".toList "5+0530".toList (by decide +kernel) (by decide +kernel)

end Interleave.Timestamp
