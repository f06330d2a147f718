/-
# What scanners take

A scanner that leaves a rest has taken the text in front of it.  It takes the same front if
only a part of the rest follows, so what it reads does not depend on what comes later.  No
scanner of a date or of a time of day takes a comma or a point.

* `isMark`, `Unmarked` : commas and points, and texts without them;
* `Takes`, `TakesFronts` : what a scanner takes, whatever part of the rest follows;
* `TakesFronts.bind`, `TakesFronts.afterBlanks` : scanners one after the other, and after
  blanks;
* `exists_front_of_looseDate`, `exists_front_of_looseTime` : what is taken of a date, and of
  a time of day.
-/
import Mathlib.Data.List.Infix
import Interleave.Proofs.Time.Digits
import Interleave.Time.Timestamp

namespace Interleave.Scan

/-! ## Commas and points -/

/-- What may stand before the decimals of a second: a comma or a point. -/
def isMark (c : Char) : Bool := c == ',' || c == '.'

/-- There is neither a comma nor a point. -/
def Unmarked (text : List Char) : Prop := ∀ c ∈ text, isMark c = false

/-- A class of characters that has neither the comma nor the point has no mark. -/
theorem isMark_eq_false (p : Char → Bool) (comma : p ',' = false) (point : p '.' = false)
    {c : Char} (h : p c = true) : isMark c = false := by
  rw [isMark, Bool.or_eq_false_iff, beq_eq_false_iff_ne, beq_eq_false_iff_ne]
  constructor
  · rintro rfl
    rw [comma] at h
    cases h
  · rintro rfl
    rw [point] at h
    cases h

/-- A digit is no mark. -/
theorem isMark_of_isDigit {c : Char} (h : c.isDigit = true) : isMark c = false :=
  isMark_eq_false Char.isDigit rfl rfl h

namespace Unmarked

/-- Nothing has no mark. -/
theorem nil : Unmarked [] := List.forall_mem_nil _

/-- A text of such a class has no mark. -/
theorem of_forall (p : Char → Bool) (comma : p ',' = false) (point : p '.' = false)
    {text : List Char} (h : ∀ c ∈ text, p c = true) : Unmarked text :=
  fun c member => isMark_eq_false p comma point (h c member)

/-- A text has no mark if its parts have none. -/
theorem append_iff {a b : List Char} : Unmarked (a ++ b) ↔ Unmarked a ∧ Unmarked b :=
  List.forall_mem_append

/-- A text has no mark if its first character is none and the others have none. -/
theorem cons_iff {c : Char} {text : List Char} :
    Unmarked (c :: text) ↔ isMark c = false ∧ Unmarked text :=
  List.forall_mem_cons

/-- There is no such character in it. -/
theorem notMem {text : List Char} (h : Unmarked text) {c : Char} (mark : isMark c = true) :
    c ∉ text := by
  intro member
  rw [h c member] at mark
  cases mark

end Unmarked

/-! ## Scanners -/

variable {α β : Type}

/-- A scanner takes this front, and leaves the rest. -/
structure Takes (scan : List Char → Option (α × List Char)) (front : List Char) (a : α)
    (rest : List Char) : Prop where
  unmarked : Unmarked front
  /-- It does so too if only a part of the rest follows. -/
  scan_append : ∀ part, part <+: rest → scan (front ++ part) = some (a, part)

/-- What a scanner leaves as the rest comes after such a front. -/
def TakesFronts (scan : List Char → Option (α × List Char)) : Prop :=
  ∀ text a rest, scan text = some (a, rest) →
    ∃ front, text = front ++ rest ∧ Takes scan front a rest

namespace TakesFronts

/-- What is taken has no mark, and is read in the same way on its own. -/
theorem exists_front {scan : List Char → Option (α × List Char)} (taking : TakesFronts scan)
    {text : List Char} {a : α} {rest : List Char} (h : scan text = some (a, rest)) :
    ∃ front, text = front ++ rest ∧ Unmarked front ∧ scan front = some (a, []) := by
  obtain ⟨front, split, taken⟩ := taking text a rest h
  have alone := taken.scan_append [] List.nil_prefix
  rw [List.append_nil] at alone
  exact ⟨front, split, taken.unmarked, alone⟩

/-- One scanner after another takes what both take. -/
theorem bind {scan : List Char → Option (α × List Char)}
    {next : α → List Char → Option (β × List Char)} (first : TakesFronts scan)
    (second : ∀ a, TakesFronts (next a)) :
    TakesFronts fun text => (scan text).bind fun (a, rest) => next a rest := by
  intro text b rest h
  obtain ⟨⟨a, middle⟩, scanned, scanned'⟩ := Option.bind_eq_some_iff.mp h
  obtain ⟨front, rfl, taken⟩ := first text a middle scanned
  obtain ⟨back, rfl, taken'⟩ := second a middle b rest scanned'
  refine ⟨front ++ back, (List.append_assoc front back rest).symm, ?_, ?_⟩
  · exact Unmarked.append_iff.mpr ⟨taken.unmarked, taken'.unmarked⟩
  · intro part less
    have scanned := taken.scan_append (back ++ part) ((List.prefix_append_right_inj back).mpr less)
    rw [List.append_assoc, scanned]
    exact taken'.scan_append part less

/-- What is made of the value changes nothing. -/
theorem map {scan : List Char → Option (α × List Char)} (taking : TakesFronts scan) (f : α → β) :
    TakesFronts fun text => (scan text).map fun (a, rest) => (f a, rest) := by
  intro text b rest h
  obtain ⟨⟨a, rest⟩, scanned, same⟩ := Option.map_eq_some_iff.mp h
  cases same
  obtain ⟨front, rfl, taken⟩ := taking text a rest scanned
  refine ⟨front, rfl, taken.unmarked, ?_⟩
  intro part less
  rw [taken.scan_append part less]
  rfl

/-- A character that is asked for is taken. -/
theorem exactly {scan : List Char → Option (α × List Char)} {c : Char} (unmarked : isMark c = false)
    (taking : TakesFronts scan) : TakesFronts fun text => (Scan.exactly c text).bind scan := by
  intro text a rest h
  obtain ⟨middle, there, scanned⟩ := Option.bind_eq_some_iff.mp h
  obtain ⟨front, rfl, taken⟩ := taking middle a rest scanned
  refine ⟨c :: front, exactly_eq_some_iff.mp there, ?_, ?_⟩
  · exact Unmarked.cons_iff.mpr ⟨unmarked, taken.unmarked⟩
  · intro part less
    rw [List.cons_append, exactly_cons]
    exact taken.scan_append part less

/-- Blanks in front are taken by a scanner that skips them, if it takes none itself. -/
theorem afterBlanks {scan : List Char → Option (α × List Char)} (taking : TakesFronts scan)
    (starts : ∀ c text, Text.isBlank c = true → scan (c :: text) = none) :
    TakesFronts fun text => scan (Text.skipBlanks text) := by
  intro text a rest h
  obtain ⟨front, split, taken⟩ := taking _ a rest h
  have blanks : ∀ c ∈ text.takeWhile Text.isBlank, Text.isBlank c = true :=
    fun c member => List.mem_takeWhile_imp member
  refine ⟨text.takeWhile Text.isBlank ++ front, ?_, ?_, ?_⟩
  · rw [List.append_assoc, ← split]
    exact List.takeWhile_append_dropWhile.symm
  · exact Unmarked.append_iff.mpr ⟨.of_forall Text.isBlank rfl rfl blanks, taken.unmarked⟩
  · intro part less
    have scanned := taken.scan_append part less
    have stays : Text.skipBlanks (front ++ part) = front ++ part := by
      cases shape : front ++ part with
      | nil => rfl
      | cons c others =>
          rw [shape] at scanned
          cases blank : Text.isBlank c with
          | false => exact Text.skipBlanks_cons_of_not_isBlank blank
          | true =>
              rw [starts c others blank] at scanned
              cases scanned
    have skipped : Text.skipBlanks (text.takeWhile Text.isBlank ++ front ++ part) =
        Text.skipBlanks (front ++ part) := by
      rw [List.append_assoc]
      exact List.dropWhile_append_of_pos blanks
    show scan (Text.skipBlanks _) = _
    rw [skipped, stays, scanned]

end TakesFronts

/-! ## Numbers -/

/-- A part of a text in front has no longer run in front. -/
theorem takeWhile_of_prefix {a b : List Char} (h : a <+: b) (p : Char → Bool) :
    a.takeWhile p <+: b.takeWhile p := by
  obtain ⟨c, rfl⟩ := h
  rw [List.takeWhile_append]
  split
  · exact (List.takeWhile_prefix p).trans (List.prefix_append a _)
  · exact List.prefix_rfl

/-- The same run is taken if only a part of the rest follows. -/
theorem digits_append_part {least most fewer : Nat} {text run rest part : List Char}
    (h : digits least most text = some (run, rest)) (less : part <+: rest)
    (enough : run.length ≤ fewer) (bound : fewer ≤ most) :
    digits least fewer (run ++ part) = some (run, part) := by
  obtain ⟨digit, asked, -⟩ := run_of_digits h
  have longest : (text.take most).takeWhile Char.isDigit = run := by
    dsimp only [digits] at h
    split at h
    · exact (Prod.mk.inj (Option.some.inj h)).1
    · cases h
  have front : run ++ part <+: text := by
    rw [digits_append h]
    exact (List.prefix_append_right_inj run).mpr less
  -- A shorter text has no longer run, and the run is in front of it.
  have shorter : (run ++ part).take fewer <+: text.take most :=
    (List.take_prefix_take_left bound).trans (List.IsPrefix.take front most)
  have atMost : ((run ++ part).take fewer).takeWhile Char.isDigit <+: run := by
    have less := takeWhile_of_prefix shorter Char.isDigit
    rwa [longest] at less
  have atLeast : run <+: ((run ++ part).take fewer).takeWhile Char.isDigit := by
    rw [List.take_append, List.take_of_length_le enough, List.takeWhile_append_of_pos digit]
    exact List.prefix_append _ _
  have same : ((run ++ part).take fewer).takeWhile Char.isDigit = run :=
    atMost.eq_of_length_le atLeast.length_le
  simp only [digits, same, asked, if_true, List.drop_left]

/-- A number takes its digits. -/
theorem takesFronts_number (least most : Nat) : TakesFronts (number least most) := by
  intro text n rest h
  obtain ⟨⟨run, rest⟩, scanned, same⟩ := Option.map_eq_some_iff.mp h
  cases same
  obtain ⟨digit, -, most⟩ := run_of_digits scanned
  refine ⟨run, digits_append scanned, .of_forall Char.isDigit rfl rfl digit, ?_⟩
  intro part less
  rw [number, digits_append_part scanned less most (Nat.le_refl _)]
  rfl

/-- A number does not start with a blank. -/
theorem number_cons_of_isBlank {most : Nat} {c : Char} {text : List Char}
    (blank : Text.isBlank c = true) : number 1 most (c :: text) = none := by
  have digit : c.isDigit = false := by
    cases digit : c.isDigit with
    | false => rfl
    | true =>
        rw [isBlank_of_isDigit digit] at blank
        cases blank
  cases most with
  | zero => rfl
  | succ most => simp [number, digits, digit]

/-- A number with blanks in front takes them too. -/
theorem takesFronts_looseNumber (most : Nat) : TakesFronts (looseNumber most) :=
  (takesFronts_number 1 most).afterBlanks fun _ _ blank => number_cons_of_isBlank blank

/-- A number of any length takes its digits. -/
theorem takesFronts_wideNumber : TakesFronts wideNumber := by
  intro text n rest h
  obtain ⟨⟨run, rest⟩, scanned, valued⟩ := Option.bind_eq_some_iff.mp h
  obtain ⟨n, value, same⟩ := Option.map_eq_some_iff.mp valued
  cases same
  obtain ⟨digit, -, -⟩ := run_of_digits scanned
  refine ⟨run, digits_append scanned, .of_forall Char.isDigit rfl rfl digit, ?_⟩
  intro part less
  have length : (run ++ part).length ≤ text.length := by
    rw [digits_append scanned, List.length_append, List.length_append]
    have := less.length_le
    omega
  have enough : run.length ≤ (run ++ part).length := by simp
  rw [wideNumber, digits_append_part scanned less enough length, Option.bind_some]
  simp only [value, Option.map_some]

/-- A number, and two more with a mark before each. -/
def threeNumbers (first : List Char → Option (α × List Char)) (mark : Char) (text : List Char) :
    Option (α × Nat × Nat × List Char) := do
  let (a, text) ← first text
  let text ← exactly mark text
  let (m, text) ← looseNumber 2 text
  let text ← exactly mark text
  let (n, text) ← looseNumber 2 text
  some (a, m, n, text)

/-- Three numbers take what each of them takes. -/
theorem takesFronts_threeNumbers {first : List Char → Option (α × List Char)}
    (taking : TakesFronts first) {mark : Char} (unmarked : isMark mark = false) :
    TakesFronts fun text =>
      (threeNumbers first mark text).map fun (a, m, n, rest) => ((a, m, n), rest) := by
  have chained : TakesFronts fun text =>
      (first text).bind fun (a, text) =>
        (exactly mark text).bind fun text =>
          (looseNumber 2 text).bind fun (m, text) =>
            (exactly mark text).bind fun text =>
              (looseNumber 2 text).map fun (n, text) => ((a, m, n), text) :=
    taking.bind fun a => .exactly unmarked <|
      (takesFronts_looseNumber 2).bind fun m => .exactly unmarked <|
        (takesFronts_looseNumber 2).map fun n => (a, m, n)
  simpa only [threeNumbers, Option.bind_eq_bind, Option.map_eq_bind, Function.comp_def,
    Option.bind_assoc, Option.bind_some] using chained

/-- Three numbers are in front of what follows them, and have no mark. -/
theorem exists_front_of_threeNumbers {first : List Char → Option (α × List Char)}
    (taking : TakesFronts first) {mark : Char} (unmarked : isMark mark = false)
    {text : List Char} {a : α} {m n : Nat} {rest : List Char}
    (h : threeNumbers first mark text = some (a, m, n, rest)) :
    ∃ front, text = front ++ rest ∧ Unmarked front ∧
      threeNumbers first mark front = some (a, m, n, []) := by
  have scanned : (threeNumbers first mark text).map (fun (a, m, n, rest) => ((a, m, n), rest)) =
      some ((a, m, n), rest) := by
    rw [h]
    rfl
  obtain ⟨front, split, plain, alone⟩ :=
    (takesFronts_threeNumbers taking unmarked).exists_front scanned
  obtain ⟨⟨a, m, n, rest⟩, read, same⟩ := Option.map_eq_some_iff.mp alone
  cases same
  exact ⟨front, split, plain, read⟩

end Interleave.Scan

namespace Interleave.Timestamp

open Scan

/-! ## Dates and times of day -/

/-- A year with no blanks in front. -/
def bareYear : List Char → Option (Int × List Char)
  | [] => none
  | c :: rest =>
      if c = '-' then (wideNumber rest).map fun (n, rest) => (-n, rest)
      else if c = '+' then (wideNumber rest).map fun (n, rest) => (n, rest)
      else (number 1 4 (c :: rest)).map fun (n, rest) => (n, rest)

/-- A loose year may have blanks in front. -/
theorem looseYear_eq (text : List Char) : looseYear text = bareYear (Text.skipBlanks text) := rfl

/-- A year takes its sign and its digits. -/
theorem takesFronts_bareYear : TakesFronts bareYear := by
  intro text year rest h
  -- A sign is taken, and then what the number after it takes.
  have signed : ∀ (c : Char) (f : Nat → Int) (others : List Char), isMark c = false →
      (∀ text, bareYear (c :: text) = (wideNumber text).map fun (n, rest) => (f n, rest)) →
      bareYear (c :: others) = some (year, rest) →
      ∃ front, c :: others = front ++ rest ∧ Takes bareYear front year rest := by
    intro c f others unmarked reads h
    rw [reads] at h
    obtain ⟨front, rfl, taken⟩ := takesFronts_wideNumber.map f others year rest h
    refine ⟨c :: front, rfl, Unmarked.cons_iff.mpr ⟨unmarked, taken.unmarked⟩, ?_⟩
    intro part less
    rw [List.cons_append, reads]
    exact taken.scan_append part less
  cases text with
  | nil => cases h
  | cons c others =>
      by_cases minus : c = '-'
      · subst minus
        exact signed '-' (fun n => -n) others rfl (fun _ => rfl) h
      by_cases plus : c = '+'
      · subst plus
        exact signed '+' (fun n => n) others rfl (fun _ => rfl) h
      have unsigned : ∀ text,
          bareYear (c :: text) = (number 1 4 (c :: text)).map fun (n, rest) => ((n : Int), rest) := by
        intro text
        simp only [bareYear, minus, plus, if_false]
      rw [unsigned] at h
      obtain ⟨front, split, taken⟩ :=
        (takesFronts_number 1 4).map (fun n => (n : Int)) (c :: others) year rest h
      cases front with
      | nil => cases taken.scan_append [] List.nil_prefix
      | cons d digits =>
          obtain ⟨rfl, -⟩ := List.cons.inj split
          refine ⟨c :: digits, split, taken.unmarked, ?_⟩
          intro part less
          rw [List.cons_append, unsigned]
          exact taken.scan_append part less

/-- So does a year that may have blanks in front, and takes these. -/
theorem takesFronts_looseYear : TakesFronts looseYear := by
  refine takesFronts_bareYear.afterBlanks ?_
  intro c text blank
  have minus : c ≠ '-' := by rintro rfl; cases blank
  have plus : c ≠ '+' := by rintro rfl; cases blank
  simp only [bareYear, minus, plus, if_false, number_cons_of_isBlank blank, Option.map_none]

/-- A date is three numbers with hyphens between them. -/
theorem looseDate_eq : looseDate = threeNumbers looseYear '-' := rfl

/-- A time of day is three numbers with colons between them. -/
theorem looseTime_eq : looseTime = threeNumbers (looseNumber 2) ':' := rfl

/-- A date is in front of what follows it, and has no mark. -/
theorem exists_front_of_looseDate {text : List Char} {year : Int} {month day : Nat}
    {rest : List Char} (h : looseDate text = some (year, month, day, rest)) :
    ∃ date, text = date ++ rest ∧ Unmarked date ∧
      looseDate date = some (year, month, day, []) := by
  rw [looseDate_eq] at h ⊢
  exact exists_front_of_threeNumbers takesFronts_looseYear rfl h

/-- A time of day is in front of what follows it, and has no mark. -/
theorem exists_front_of_looseTime {text : List Char} {hour minute second : Nat}
    {rest : List Char} (h : looseTime text = some (hour, minute, second, rest)) :
    ∃ time, text = time ++ rest ∧ Unmarked time ∧
      looseTime time = some (hour, minute, second, []) := by
  rw [looseTime_eq] at h ⊢
  exact exists_front_of_threeNumbers (takesFronts_looseNumber 2) rfl h

/-! ## What follows a time of day -/

/-- Decimals are a point and at least one digit, and there may be none. -/
theorem fraction_cases {text : List Char} {n : Nat} {rest : List Char}
    (h : fraction text = some (n, rest)) :
    text = rest ∨ ∃ digit digits, text = '.' :: digit :: (digits ++ rest) ∧
      digit.isDigit = true ∧ Unmarked digits := by
  unfold fraction at h
  split at h
  · cases h
    exact Or.inl rfl
  · next decimals there =>
      obtain ⟨⟨run, rest⟩, scanned, same⟩ := Option.map_eq_some_iff.mp h
      cases same
      obtain ⟨digit, asked, -⟩ := run_of_digits scanned
      cases run with
      | nil => cases asked
      | cons c run =>
          obtain ⟨first, others⟩ := List.forall_mem_cons.mp digit
          refine Or.inr ⟨c, run, ?_, first, .of_forall Char.isDigit rfl rfl others⟩
          rw [exactly_eq_some_iff.mp there, digits_append scanned, List.cons_append]

/-- A sign is one of three characters. -/
theorem sign_cons {c : Char} {text : List Char} {s : Int} {rest : List Char}
    (h : sign (c :: text) = some (s, rest)) :
    (c = '+' ∨ c = '-' ∨ c = '\u2212') ∧ rest = text := by
  unfold sign at h
  dsimp only at h
  split at h
  · next plus =>
      cases h
      exact ⟨Or.inl plus, rfl⟩
  · split at h
    · next minus =>
        cases h
        exact ⟨Or.inr minus, rfl⟩
    · cases h

/-- The minutes of an offset are two digits. -/
theorem exists_of_offsetMinutes {text : List Char} {n : Nat} (h : offsetMinutes text = some n) :
    ∃ a b, text = [a, b] ∧ a.isDigit = true ∧ b.isDigit = true := by
  unfold offsetMinutes at h
  split at h
  · next a b =>
      split at h
      · next digits => exact ⟨a, b, rfl, digits.1, digits.2.1⟩
      · cases h
  · cases h

/-- So they have no mark. -/
theorem unmarked_of_offsetMinutes {text : List Char} {n : Nat}
    (h : offsetMinutes text = some n) : Unmarked text := by
  obtain ⟨a, b, rfl, first, last⟩ := exists_of_offsetMinutes h
  exact Unmarked.cons_iff.mpr ⟨isMark_of_isDigit first,
    Unmarked.cons_iff.mpr ⟨isMark_of_isDigit last, Unmarked.nil⟩⟩

/-- **An offset has no mark.** -/
theorem unmarked_of_looseOffset {text : List Char} {offset : Int}
    (h : looseOffset text = some offset) : Unmarked text := by
  have blanks : Unmarked (text.takeWhile Text.isBlank) :=
    .of_forall Text.isBlank rfl rfl fun c member => List.mem_takeWhile_imp member
  rw [← List.takeWhile_append_dropWhile (p := Text.isBlank) (l := text)]
  refine Unmarked.append_iff.mpr ⟨blanks, ?_⟩
  unfold looseOffset at h
  change Unmarked (Text.skipBlanks text)
  split at h
  · cases h
  · next c rest skipped =>
      rw [skipped]
      split at h
      · next zulu =>
          split at h
          · next nothing =>
              rw [nothing]
              exact Unmarked.cons_iff.mpr ⟨isMark_eq_false isZulu rfl rfl zulu, Unmarked.nil⟩
          · cases h
      · simp only [Option.bind_eq_bind, Option.bind_eq_some_iff, Prod.exists] at h
        obtain ⟨s, _, signed, hours, afterHours, read, ended⟩ := h
        obtain ⟨among, rfl⟩ := sign_cons signed
        have unmarked : isMark c = false := by rcases among with rfl | rfl | rfl <;> rfl
        obtain ⟨digits, rfl, digit, -⟩ := (takesFronts_number 2 2).exists_front read
        have gap : Unmarked (afterHours.takeWhile isOffsetGap) :=
          .of_forall isOffsetGap rfl rfl fun c member => List.mem_takeWhile_imp member
        have last : Unmarked (afterHours.dropWhile isOffsetGap) := by
          split at ended
          · next nothing =>
              rw [nothing]
              exact Unmarked.nil
          · obtain ⟨minutes, ended, -⟩ := Option.bind_eq_some_iff.mp ended
            exact unmarked_of_offsetMinutes ended
        rw [← List.takeWhile_append_dropWhile (p := isOffsetGap) (l := afterHours)]
        exact Unmarked.cons_iff.mpr ⟨unmarked, Unmarked.append_iff.mpr ⟨digit,
          Unmarked.append_iff.mpr ⟨gap, last⟩⟩⟩

end Interleave.Timestamp
