/-
# Numbers and strings as they are printed

An integer is printed in decimal digits, with a sign if it is below zero.  A string is
printed as a basic string, where a quote and the mark of an escape stand after that
mark, and a control character is given by its number.  Whatever the integer or the
string is, it is read back.

* `decimals`, `escaped` : the spelling of an integer and of a character;
* `scalarAt?_decimals`, `string?_escaped` : what is read back of a spelling.
-/
import Interleave.Proofs.Time.Digits
import Interleave.Toml.Document

namespace Interleave.Toml

/-! ## Runs -/

/-- A run of characters is taken as far as it goes. -/
theorem takeWhile_run {p : Char → Bool} {run rest : List Char} {d : Char}
    (all : ∀ c ∈ run, p c = true) (stop : p d = false) :
    (run ++ d :: rest).takeWhile p = run := by
  rw [List.takeWhile_append_of_pos all, List.takeWhile_cons, if_neg (by simp [stop]),
    List.append_nil]

/-- The rest stays after it. -/
theorem dropWhile_run {p : Char → Bool} {run rest : List Char} {d : Char}
    (all : ∀ c ∈ run, p c = true) (stop : p d = false) :
    (run ++ d :: rest).dropWhile p = d :: rest := by
  rw [List.dropWhile_append_of_pos all, List.dropWhile_cons, if_neg (by simp [stop])]

/-- Nothing is skipped in front of another character than a space. -/
theorem skipSpaces_cons {c : Char} (full : isSpace c = false) (rest : List Char) :
    skipSpaces (c :: rest) = c :: rest := by
  rw [skipSpaces, List.dropWhile_cons, if_neg (by simp [full])]

/-! ## Digits -/

/-- The value of a decimal digit. -/
theorem digitValue?_of_isDigit {c : Char} (h : c.isDigit = true) :
    digitValue? c = some (c.toNat - '0'.toNat) := by
  rw [digitValue?, if_pos h]
  rfl

/-- A decimal digit is one of base ten. -/
theorem isDigitOf_ten {c : Char} (h : c.isDigit = true) : isDigitOf 10 c = true := by
  have bounds := Scan.toNat_of_isDigit h
  have : '0'.toNat = 48 := rfl
  simp only [isDigitOf, digitValue?_of_isDigit h, decide_eq_true_eq]
  omega

/-- Digits are read without underscores between them. -/
theorem ungroupedFrom?_digits {taken digits : List Char} (nonempty : digits ≠ [])
    (run : ∀ c ∈ digits, c.isDigit = true) :
    ungroupedFrom? 10 taken digits = some (taken.reverse ++ digits) := by
  induction digits generalizing taken with
  | nil => exact absurd rfl nonempty
  | cons c digits ih =>
      have good : isDigitOf 10 c = true := isDigitOf_ten (run c List.mem_cons_self)
      cases digits with
      | nil => rw [ungroupedFrom?, if_pos good, List.reverse_cons]
      | cons d digits =>
          have more : ∀ c ∈ d :: digits, c.isDigit = true := fun c mem =>
            run c (List.mem_cons_of_mem _ mem)
          have mark : d ≠ '_' := by
            rintro rfl
            exact absurd (more '_' List.mem_cons_self) (by decide)
          rw [ungroupedFrom?, if_pos good, ih (List.cons_ne_nil _ _) more]
          · simp
          · exact mark

/-- The value of digits in base ten. -/
theorem digitsValue_ten {digits : List Char} (run : ∀ c ∈ digits, c.isDigit = true) :
    digitsValue 10 digits = Nat.ofDigitChars 10 digits 0 := by
  suffices ∀ n, digits.foldl (fun n c => n * 10 + (digitValue? c).getD 0) n =
      Nat.ofDigitChars 10 digits n from this 0
  intro n
  induction digits generalizing n with
  | nil => rfl
  | cons c digits ih =>
      rw [List.foldl_cons, ih fun c mem => run c (List.mem_cons_of_mem _ mem),
        digitValue?_of_isDigit (run c List.mem_cons_self), Nat.ofDigitChars_cons,
        Nat.mul_comm]
      rfl

/-- The decimal digits of a number. -/
theorem isDigit_toDigits {n : Nat} {c : Char} (mem : c ∈ Nat.toDigits 10 n) :
    c.isDigit = true :=
  Nat.isDigit_of_mem_toDigits (by decide) (by decide) mem

/-- A number has no other characters in it. -/
theorem not_mem_toDigits {c : Char} (other : c.isDigit = false) (n : Nat) :
    c ∉ Nat.toDigits 10 n := fun mem => by
  rw [isDigit_toDigits mem] at other
  cases other

/-- The number that the digits of a number write. -/
theorem digitsValue_toDigits (n : Nat) : digitsValue 10 (Nat.toDigits 10 n) = n := by
  rw [digitsValue_ten fun _ => isDigit_toDigits, Nat.ofDigitChars_toDigits (by decide) (by decide)]

/-- The digits of a number start with a zero only if that is the number. -/
theorem toDigits_eq_zero_cons {n : Nat} {digits : List Char}
    (h : Nat.toDigits 10 n = '0' :: digits) : digits = [] := by
  induction n using Nat.strongRecOn generalizing digits with
  | ind n ih =>
      rw [Nat.toDigits_eq_if (by decide)] at h
      split at h
      case isTrue => exact (List.cons.inj h).2.symm
      case isFalse large =>
        obtain ⟨first, digits', start⟩ : ∃ c l, Nat.toDigits 10 (n / 10) = c :: l :=
          List.exists_cons_of_ne_nil Nat.toDigits_ne_nil
        rw [start, List.cons_append, List.cons.injEq] at h
        obtain ⟨rfl, -⟩ := h
        have alone := ih (n / 10) (by omega) start
        have value : Nat.ofDigitChars 10 (Nat.toDigits 10 (n / 10)) 0 = 0 := by
          rw [start, alone]
          rfl
        rw [Nat.ofDigitChars_toDigits (by decide) (by decide)] at value
        omega

/-! ## Integers -/

/-- An integer in decimal digits. -/
def decimals : Int → List Char
  | .ofNat n => Nat.toDigits 10 n
  | .negSucc n => '-' :: Nat.toDigits 10 (n + 1)

/-- Digits are read as the number that they write. -/
theorem decimal?_toDigits (n : Nat) :
    decimal? (Nat.toDigits 10 n) = some (Nat.toDigits 10 n) := by
  unfold decimal?
  split
  case h_1 start => cases toDigits_eq_zero_cons start
  case h_2 => exact ungroupedFrom?_digits Nat.toDigits_ne_nil fun _ => isDigit_toDigits

/-- What stands after the sign of an integer, if it has one. -/
theorem splitSign_decimals (n : Int) :
    splitSign (decimals n) = (decide (n < 0), Nat.toDigits 10 n.natAbs) := by
  cases n with
  | ofNat n =>
      unfold splitSign decimals
      dsimp only
      split
      case h_1 start => exact absurd (by simp [start]) (not_mem_toDigits (c := '-') (by decide) n)
      case h_2 start => exact absurd (by simp [start]) (not_mem_toDigits (c := '+') (by decide) n)
      case h_3 => simp
  | negSucc n => simp [decimals, splitSign]

/-- Only the first character of an integer can be its sign. -/
theorem isDigit_of_mem_tail {n : Int} {c : Char} (mem : c ∈ (decimals n).tail) :
    c.isDigit = true := by
  cases n with
  | ofNat n => exact isDigit_toDigits (List.mem_of_mem_tail mem)
  | negSucc n => exact isDigit_toDigits mem

/-- After the first character there are digits only. -/
theorem not_mem_tail {c : Char} (other : c.isDigit = false) (n : Int) :
    c ∉ (decimals n).tail := fun mem => by
  rw [isDigit_of_mem_tail mem] at other
  cases other

/-- An integer is a run of the characters of a number. -/
theorem isScalarChar_of_mem {n : Int} {c : Char} (mem : c ∈ decimals n) :
    isScalarChar c = true := by
  have digit : c.isDigit = true → isScalarChar c = true := fun h => by
    simp [isScalarChar, Char.isAlphanum, h]
  cases n with
  | ofNat n => exact digit (isDigit_toDigits mem)
  | negSucc n =>
      rcases List.mem_cons.mp mem with rfl | mem
      · decide
      · exact digit (isDigit_toDigits mem)

/-- The first character of a number is its sign or a digit, and no other. -/
theorem exists_decimals_eq_cons (n : Int) :
    ∃ c rest, decimals n = c :: rest ∧ ∀ d : Char, d ≠ '-' → d.isDigit = false → c ≠ d := by
  cases n with
  | ofNat n =>
      obtain ⟨c, rest, start⟩ : ∃ c l, Nat.toDigits 10 n = c :: l :=
        List.exists_cons_of_ne_nil Nat.toDigits_ne_nil
      refine ⟨c, rest, start, fun d _ other same => ?_⟩
      exact not_mem_toDigits other n (by simp [start, same])
  | negSucc n => exact ⟨'-', _, rfl, fun d sign _ => sign.symm⟩

/-! ### What an integer is not -/

/-- An integer is no date. -/
theorem isDate_decimals (n : Int) : isDate (decimals n) = false := by
  unfold isDate
  split
  case h_1 start => exact absurd (by simp [start]) (not_mem_tail (c := '-') (by decide) n)
  case h_2 => rfl

/-- An integer is no time of day. -/
theorem isTime_decimals (n : Int) : isTime (decimals n) = false := by
  unfold isTime afterTime?
  split
  case h_1 start => exact absurd (by simp [start]) (not_mem_tail (c := ':') (by decide) n)
  case h_2 => rfl

/-- An integer is no date and no time. -/
theorem isMoment_decimals (n : Int) : isMoment (decimals n) = false := by
  unfold isMoment
  split
  case h_1 => rw [isDate_decimals, isTime_decimals, Bool.or_false]
  case h_2 c rest start =>
    have mem : c ∈ (decimals n).tail := by
      refine List.mem_of_mem_drop (i := 9) ?_
      rw [← List.drop_one, List.drop_drop, start]
      exact List.mem_cons_self
    have upper : c ≠ 'T' := fun same => not_mem_tail (by decide) n (same ▸ mem)
    have lower : c ≠ 't' := fun same => not_mem_tail (by decide) n (same ▸ mem)
    simp [isTime_decimals, upper, lower]

/-- An integer is no floating point number: it has neither a point nor an `e`. -/
theorem isFloat_decimals (n : Int) : isFloat (decimals n) = false := by
  have no : ∀ c : Char, c.isDigit = false → c ∉ Nat.toDigits 10 n.natAbs := fun _ other =>
    not_mem_toDigits other _
  have whole : (Nat.toDigits 10 n.natAbs).takeWhile
      (fun c => c != '.' && c != 'e' && c != 'E') = Nat.toDigits 10 n.natAbs := by
    have all : (Nat.toDigits 10 n.natAbs).all fun c => c != '.' && c != 'e' && c != 'E' := by
      refine List.all_eq_true.mpr fun c mem => ?_
      have point : c ≠ '.' := fun same => no '.' (by decide) (same ▸ mem)
      have small : c ≠ 'e' := fun same => no 'e' (by decide) (same ▸ mem)
      have large : c ≠ 'E' := fun same => no 'E' (by decide) (same ▸ mem)
      simp [point, small, large]
    have taken : (Nat.toDigits 10 n.natAbs ++ []).takeWhile _ = _ ++ [].takeWhile _ :=
      List.takeWhile_append_of_pos (List.all_eq_true.mp all)
    rwa [List.takeWhile_nil, List.append_nil] at taken
  have digits : isDigitFloat (decimals n) = false := by
    simp [isDigitFloat, splitSign_decimals, whole]
  have inf : ¬ Nat.toDigits 10 n.natAbs = "inf".toList := fun same =>
    no 'i' (by decide) (same ▸ by decide)
  have nan : ¬ Nat.toDigits 10 n.natAbs = "nan".toList := fun same =>
    no 'n' (by decide) (same ▸ by decide)
  simp only [isFloat, splitSign_decimals, inf, nan, digits, decide_false, Bool.or_self]

/-! ### What it is -/

/-- An integer of 64 bits is read back. -/
theorem integer?_decimals {n : Int} (fits : fitsWord n = true) :
    integer? (decimals n) = some n := by
  unfold integer?
  split
  case h_1 start => exact absurd (by simp [start]) (not_mem_tail (c := 'x') (by decide) n)
  case h_2 start => exact absurd (by simp [start]) (not_mem_tail (c := 'o') (by decide) n)
  case h_3 start => exact absurd (by simp [start]) (not_mem_tail (c := 'b') (by decide) n)
  case h_4 =>
    have value : (if n < 0 then -(n.natAbs : Int) else n.natAbs) = n := by
      split <;> omega
    simp only [splitSign_decimals, decimal?_toDigits, Option.map_some, digitsValue_toDigits,
      decide_eq_true_eq]
    rw [value, Option.filter_some, if_pos fits]

/-- An integer of 64 bits is the value of its run. -/
theorem scalar?_decimals {n : Int} (fits : fitsWord n = true) :
    scalar? (decimals n) = some (.integer n) := by
  have yes : decimals n ≠ "true".toList := fun same =>
    not_mem_tail (c := 'r') (by decide) n (same ▸ by decide)
  have no : decimals n ≠ "false".toList := fun same =>
    not_mem_tail (c := 'a') (by decide) n (same ▸ by decide)
  rw [scalar?, if_neg yes, if_neg no, isMoment_decimals, isFloat_decimals,
    integer?_decimals fits]
  rfl

/-- A number is read up to the end of its line. -/
theorem scalarAt?_decimals {n : Int} (fits : fitsWord n = true) (rest : List Char) :
    scalarAt? (decimals n ++ '\n' :: rest) = some (.integer n, '\n' :: rest) := by
  have ends : isScalarChar '\n' = false := by decide
  have split : scalarRun (decimals n ++ '\n' :: rest) = (decimals n, '\n' :: rest) := by
    rw [scalarRun, takeWhile_run (fun _ => isScalarChar_of_mem) ends,
      dropWhile_run (fun _ => isScalarChar_of_mem) ends]
  simp [scalarAt?, split, isDate_decimals, scalar?_decimals fits]

/-! ## Strings -/

/-- A character in a basic string. -/
def escaped (c : Char) : List Char :=
  if c = doubleQuote ∨ c = escapeMark then [escapeMark, c]
  else if isCommentChar c then [c]
  else
    -- A control character is given by its number, which is less than 128.
    [escapeMark, 'u', '0', '0', Nat.digitChar (c.toNat / 16), Nat.digitChar (c.toNat % 16)]

/-- The digits of base sixteen are read back. -/
theorem digitValue?_digitChar : ∀ d < 16, digitValue? (Nat.digitChar d) = some d := by
  decide

/-- A number of two digits of base sixteen is read back. -/
theorem escapedChar?_digitChar {c : Char} (small : c.toNat < 256) :
    escapedChar? ['0', '0', Nat.digitChar (c.toNat / 16), Nat.digitChar (c.toNat % 16)] =
      some c := by
  have high := digitValue?_digitChar (c.toNat / 16) (by omega)
  have low := digitValue?_digitChar (c.toNat % 16) (by omega)
  have zero : digitValue? '0' = some 0 := by decide
  have value : digitsValue 16
      ['0', '0', Nat.digitChar (c.toNat / 16), Nat.digitChar (c.toNat % 16)] = c.toNat := by
    simp only [digitsValue, List.foldl_cons, List.foldl_nil, zero, high, low, Option.getD_some]
    omega
  have digits : ['0', '0', Nat.digitChar (c.toNat / 16), Nat.digitChar (c.toNat % 16)].all
      (isDigitOf 16) = true := by
    simp only [List.all_cons, List.all_nil, isDigitOf, zero, high, low, Bool.and_true,
      Bool.and_eq_true, decide_eq_true_eq]
    omega
  have valid : c.toNat.isValidChar := c.valid
  simp only [escapedChar?, value, digits, valid, and_self, if_true, Char.ofNat_toNat]

/-- A control character has a small number. -/
theorem toNat_lt_of_not_isCommentChar {c : Char} (control : ¬ isCommentChar c = true) :
    c.toNat < 256 := by
  have : ¬ (0x20 ≤ c.toNat ∧ c.toNat ≠ 0x7F) := by
    intro plain
    exact control (by simp [isCommentChar, plain])
  omega

/-- A character of a basic string is read back. -/
theorem basic?_escaped (taken : List Char) (c : Char) (rest : List Char) :
    basic? taken (escaped c ++ rest) = basic? (c :: taken) rest := by
  unfold escaped
  split
  case isTrue marked =>
    have itself : escape? c = some c := by
      rcases marked with rfl | rfl <;> rfl
    rw [List.cons_append, List.cons_append, List.nil_append, escapeMark, basic?.eq_4, itself]
    · rintro a b c d rest rfl
      exact absurd marked (by decide)
    · rintro a b c d e f g h rest rfl
      exact absurd marked (by decide)
  case isFalse unmarked =>
    rw [not_or] at unmarked
    split
    case isTrue plain =>
      rw [List.cons_append, List.nil_append, basic?.eq_5, if_neg unmarked.1,
        if_pos ⟨unmarked.2, plain⟩]
      all_goals
        intros
        exact absurd ‹c = '\\'› unmarked.2
    case isFalse control =>
      rw [List.cons_append, List.cons_append, List.cons_append, List.cons_append,
        List.cons_append, List.cons_append, List.nil_append, escapeMark, basic?,
        escapedChar?_digitChar (toNat_lt_of_not_isCommentChar control)]

/-- The characters of a basic string are read back, up to its end. -/
theorem basic?_flatMap_escaped (taken text rest : List Char) :
    basic? taken (text.flatMap escaped ++ doubleQuote :: rest) =
      some (String.ofList (taken.reverse ++ text), rest) := by
  induction text generalizing taken with
  | nil =>
      rw [List.flatMap_nil, List.nil_append, basic?.eq_5, if_pos rfl, quoted, List.append_nil]
      all_goals
        intros
        exact absurd ‹doubleQuote = _› (by decide)
  | cons c text ih =>
      rw [List.flatMap_cons, List.append_assoc, basic?_escaped, ih, List.reverse_cons,
        List.append_assoc, List.singleton_append]

/-- No character of a basic string begins with a quote. -/
theorem exists_escaped_eq_cons (c : Char) :
    ∃ first more, escaped c = first :: more ∧ first ≠ doubleQuote := by
  unfold escaped
  split
  case isTrue => exact ⟨_, _, rfl, by decide⟩
  case isFalse unmarked =>
    split
    case isTrue => exact ⟨_, _, rfl, fun same => unmarked (.inl same)⟩
    case isFalse => exact ⟨_, _, rfl, by decide⟩

/-- No quotes stand in front of anything else. -/
theorem leadingQuotes_of_head {quote : Char} {text : List Char} (other : text.head? ≠ some quote) :
    leadingQuotes quote text = 0 := by
  cases text with
  | nil => rfl
  | cons c text =>
      have : (c == quote) = false := beq_false_of_ne fun same => other (congrArg some same)
      rw [leadingQuotes, List.takeWhile_cons, this]
      rfl

/-- A quote in front is one more. -/
theorem leadingQuotes_cons (quote : Char) (text : List Char) :
    leadingQuotes quote (quote :: text) = leadingQuotes quote text + 1 := by
  simp [leadingQuotes]

/-- A string begins with one quote, or it is empty and has two. -/
theorem leadingQuotes_lt {text rest : List Char} (unquoted : rest.head? ≠ some doubleQuote) :
    leadingQuotes doubleQuote
      (doubleQuote :: (text.flatMap escaped ++ doubleQuote :: rest)) < 3 := by
  rw [leadingQuotes_cons]
  cases text with
  | nil =>
      rw [List.flatMap_nil, List.nil_append, leadingQuotes_cons, leadingQuotes_of_head unquoted]
      decide
  | cons c text =>
      obtain ⟨first, more, spelled, other⟩ := exists_escaped_eq_cons c
      rw [List.flatMap_cons, spelled, List.cons_append, List.cons_append, leadingQuotes_of_head]
      · decide
      · exact fun same => other (Option.some.inj same)

/-- A string that is printed as a basic one is read back. -/
theorem string?_escaped {text : String} {rest : List Char}
    (unquoted : rest.head? ≠ some doubleQuote) :
    string? (doubleQuote :: (text.toList.flatMap escaped ++ doubleQuote :: rest)) =
      some (text, rest) := by
  have few : ¬ 3 ≤ leadingQuotes doubleQuote
      (doubleQuote :: (text.toList.flatMap escaped ++ doubleQuote :: rest)) :=
    Nat.not_le.mpr (leadingQuotes_lt unquoted)
  simp only [string?, List.head?_cons, if_true, if_neg few, List.drop_one, List.tail_cons]
  rw [basic?_flatMap_escaped, List.reverse_nil, List.nil_append, String.ofList_toList]

end Interleave.Toml
