/-
# Runs of digits

Runs of digits of the same width are in the order of their values, and texts of the same
length that follow one another are in the order of the first that differ.  A scanner that
asks for such a run takes all of it.

* `append_lt_append_iff` : the order of texts after texts;
* `value_append` : the value of one run after another;
* `value_padded` : nanoseconds as the value of nine decimals;
* `value_lt_pow` : what the value of a run is less than;
* `lt_iff_value_lt` : runs of the same width and their values;
* `Digits` : a run of digits of a given width;
* `Digits.ofNat` : the last digits of a number;
* `Digits.number_append`, `Digits.looseNumber_append` : the number that is scanned;
* `Digits.exists_of_number` : what is scanned at full width.
-/
import Mathlib.Data.List.TakeWhile
import Mathlib.Tactic.Ring
import Interleave.Time.Scan

namespace Interleave

/-! ## The order of texts -/

/-- Texts after texts of the same length are in the order of these, and if these are the
same in their own. -/
theorem append_lt_append_iff {a a' : List Char} (width : a.length = a'.length)
    (b b' : List Char) : a ++ b < a' ++ b' ↔ a < a' ∨ a = a' ∧ b < b' := by
  induction a generalizing a' with
  | nil =>
      obtain rfl := List.length_eq_zero_iff.mp width.symm
      simp
  | cons c a ih =>
      obtain ⟨d, a', rfl⟩ := List.exists_cons_of_length_eq_add_one width.symm
      have width : a.length = a'.length := by simpa using width
      rw [List.cons_append, List.cons_append, List.cons_lt_cons_iff, List.cons_lt_cons_iff,
        ih width, List.cons.injEq]
      tauto

/-! ## Characters -/

namespace Scan

/-- A character that is asked for is taken. -/
@[simp] theorem exactly_cons (c : Char) (rest : List Char) : exactly c (c :: rest) = some rest :=
  if_pos rfl

/-- A character is asked for and is there. -/
theorem exactly_eq_some_iff {c : Char} {text rest : List Char} :
    exactly c text = some rest ↔ text = c :: rest := by
  constructor
  · intro h
    unfold exactly at h
    split at h
    · cases h
    · split at h
      · next same =>
          rw [same, Option.some.inj h]
      · cases h
  · rintro rfl
    exact exactly_cons c rest

/-! ## Values -/

/-- The value of a run of digits after a number. -/
theorem foldl_value (digits : List Char) (n : Nat) :
    digits.foldl (fun n c => n * 10 + (c.toNat - 48)) n =
      n * 10 ^ digits.length + value digits := by
  unfold value
  induction digits generalizing n with
  | nil => simp
  | cons c digits ih =>
      rw [List.foldl_cons, List.foldl_cons, ih, ih (0 * 10 + (c.toNat - 48)), List.length_cons,
        Nat.pow_succ]
      ring

/-- The value of one run after another. -/
theorem value_append (a b : List Char) : value (a ++ b) = value a * 10 ^ b.length + value b := by
  rw [value, List.foldl_append, foldl_value]
  rfl

/-- The value of a run and a digit before it. -/
theorem value_cons (c : Char) (digits : List Char) :
    value (c :: digits) = (c.toNat - 48) * 10 ^ digits.length + value digits := by
  have first : value [c] = c.toNat - 48 := Nat.zero_add _
  rw [← first]
  exact value_append [c] digits

/-- A digit is a character from `0` to `9`. -/
theorem toNat_of_isDigit {c : Char} (h : c.isDigit = true) : 48 ≤ c.toNat ∧ c.toNat ≤ 57 := by
  simpa [Char.isDigit, UInt32.le_iff_toNat_le] using h

/-- A digit is no blank. -/
theorem isBlank_of_isDigit {c : Char} (h : c.isDigit = true) : Text.isBlank c = false := by
  have digit := toNat_of_isDigit h
  simp only [Text.isBlank, Bool.or_eq_false_iff, Bool.and_eq_false_iff, beq_eq_false_iff_ne,
    decide_eq_false_iff_not]
  omega

/-- All digits of a run are taken. -/
theorem takeWhile_of_run {digits : List Char} (run : ∀ c ∈ digits, c.isDigit = true) :
    digits.takeWhile Char.isDigit = digits := by
  have all : (digits ++ []).takeWhile Char.isDigit = digits ++ [].takeWhile Char.isDigit :=
    List.takeWhile_append_of_pos run
  rwa [List.append_nil, List.takeWhile_nil, List.append_nil] at all

/-- The value of a run has as many digits. -/
theorem value_lt_pow {digits : List Char} (run : ∀ c ∈ digits, c.isDigit = true) :
    value digits < 10 ^ digits.length := by
  induction digits with
  | nil => decide
  | cons c digits ih =>
      obtain ⟨first, others⟩ := List.forall_mem_cons.mp run
      have digit := toNat_of_isDigit first
      have rest := ih others
      have most : (c.toNat - 48) * 10 ^ digits.length ≤ 9 * 10 ^ digits.length :=
        Nat.mul_le_mul_right _ (by omega)
      rw [value_cons, List.length_cons, Nat.pow_succ]
      omega

/-- Zeros have no value. -/
theorem value_replicate_zero (n : Nat) : value (List.replicate n '0') = 0 := by
  induction n with
  | zero => rfl
  | succ n ih =>
      rw [List.replicate_succ, value_cons, ih]
      simp

/-- The nanoseconds are the first nine decimals, where missing ones are zeros. -/
theorem value_padded (digits : List Char) :
    value ((digits ++ List.replicate 9 '0').take 9) = nanos digits := by
  have zeros : min (9 - digits.length) 9 = 9 - (digits.take 9).length := by
    rw [List.length_take]
    omega
  rw [List.take_append, value_append, List.take_replicate, value_replicate_zero,
    List.length_replicate, zeros]
  rfl

/-- Nine decimals count. -/
theorem length_padded (digits : List Char) :
    ((digits ++ List.replicate 9 '0').take 9).length = 9 := by
  simp

/-- Decimals and the zeros for missing ones are digits. -/
theorem isDigit_padded {digits : List Char} (run : ∀ c ∈ digits, c.isDigit = true) :
    ∀ c ∈ (digits ++ List.replicate 9 '0').take 9, c.isDigit = true := by
  intro c member
  rcases List.mem_append.mp (List.mem_of_mem_take member) with digit | zero
  · exact run c digit
  · rw [List.eq_of_mem_replicate zero]
    rfl

/-- Decimals make less than a second. -/
theorem nanos_lt {digits : List Char} (run : ∀ c ∈ digits, c.isDigit = true) :
    nanos digits < 1000000000 := by
  have small := value_lt_pow (isDigit_padded run)
  rwa [value_padded, length_padded] at small

/-- Numbers with a digit before them are in the order of these, and if these are the same
in their own. -/
theorem mul_add_lt_iff {x y u v p : Nat} (small : u < p) (small' : v < p) :
    (x * p + u < y * p + v ↔ x < y ∨ x = y ∧ u < v) ∧
      (x * p + u = y * p + v ↔ x = y ∧ u = v) := by
  rcases Nat.lt_trichotomy x y with less | rfl | more
  · have := Nat.mul_le_mul_right p less
    rw [Nat.succ_mul] at this
    omega
  · omega
  · have := Nat.mul_le_mul_right p more
    rw [Nat.succ_mul] at this
    omega

/-- **Runs of the same width** are in the order of their values. -/
theorem lt_iff_value_lt {a b : List Char} (width : a.length = b.length)
    (runA : ∀ c ∈ a, c.isDigit = true) (runB : ∀ c ∈ b, c.isDigit = true) :
    (a < b ↔ value a < value b) ∧ (a = b ↔ value a = value b) := by
  induction a generalizing b with
  | nil =>
      obtain rfl := List.length_eq_zero_iff.mp width.symm
      simp
  | cons c a ih =>
      obtain ⟨d, b, rfl⟩ := List.exists_cons_of_length_eq_add_one width.symm
      obtain ⟨firstA, othersA⟩ := List.forall_mem_cons.mp runA
      obtain ⟨firstB, othersB⟩ := List.forall_mem_cons.mp runB
      have width : a.length = b.length := by simpa using width
      obtain ⟨less, same⟩ := ih width othersA othersB
      have digitA := toNat_of_isDigit firstA
      have digitB := toNat_of_isDigit firstB
      have first : c < d ↔ c.toNat - 48 < d.toNat - 48 := by
        show c.toNat < d.toNat ↔ _
        omega
      have first_same : c = d ↔ c.toNat - 48 = d.toNat - 48 := by
        rw [← Char.toNat_inj]
        omega
      have small := value_lt_pow othersA
      rw [width] at small
      obtain ⟨number_less, number_same⟩ :=
        mul_add_lt_iff (x := c.toNat - 48) (y := d.toNat - 48) small (value_lt_pow othersB)
      rw [value_cons, value_cons, width, number_less, number_same, List.cons_lt_cons_iff,
        List.cons.injEq, first, first_same, less, same]
      exact ⟨Iff.rfl, Iff.rfl⟩

/-! ## Runs that are scanned -/

/-- A run that is taken has digits only, as many as were asked for. -/
theorem run_of_digits {least most : Nat} {text run rest : List Char}
    (h : digits least most text = some (run, rest)) :
    (∀ c ∈ run, c.isDigit = true) ∧ least ≤ run.length ∧ run.length ≤ most := by
  dsimp only [digits] at h
  split at h
  · next enough =>
      obtain ⟨rfl, -⟩ := Prod.mk.inj (Option.some.inj h)
      refine ⟨fun c member => List.mem_takeWhile_imp member, enough, ?_⟩
      have short := (List.takeWhile_prefix (l := text.take most) Char.isDigit).length_le
      rw [List.length_take] at short
      omega
  · cases h

end Scan

/-! ## Runs of a given width -/

/-- A run of digits of a given width. -/
structure Digits (width : Nat) where
  chars : List Char
  length_chars : chars.length = width
  isDigit_chars : ∀ c ∈ chars, c.isDigit = true

namespace Digits

variable {width : Nat}

/-- The number that is written. -/
def number (d : Digits width) : Nat := Scan.value d.chars

/-- A number has as many digits as its run. -/
theorem number_lt (d : Digits width) : d.number < 10 ^ width := by
  have small := Scan.value_lt_pow d.isDigit_chars
  rwa [d.length_chars] at small

/-- Runs of the same width have the same length. -/
theorem length_eq (a b : Digits width) : a.chars.length = b.chars.length :=
  a.length_chars.trans b.length_chars.symm

/-- A character that is no digit is not in the run. -/
theorem not_mem_chars (d : Digits width) {c : Char} (h : c.isDigit = false) : c ∉ d.chars := by
  intro member
  rw [d.isDigit_chars c member] at h
  cases h

/-- Runs of the same width are in the order of their numbers. -/
theorem chars_lt_iff (a b : Digits width) : a.chars < b.chars ↔ a.number < b.number :=
  (Scan.lt_iff_value_lt (a.length_eq b) a.isDigit_chars b.isDigit_chars).1

/-- Runs of the same width are the same if their numbers are. -/
theorem chars_eq_iff (a b : Digits width) : a.chars = b.chars ↔ a.number = b.number :=
  (Scan.lt_iff_value_lt (a.length_eq b) a.isDigit_chars b.isDigit_chars).2

/-! ## Writing -/

/-- The last digits of a number, as many as the width, with zeros in front. -/
def ofNat : (width n : Nat) → Digits width
  | 0, _ => ⟨[], rfl, nofun⟩
  | width + 1, n =>
      let front := ofNat width (n / 10)
      { chars := front.chars ++ [Nat.digitChar (n % 10)]
        length_chars := by rw [List.length_append, front.length_chars, List.length_singleton]
        isDigit_chars := by
          intro c member
          rcases List.mem_append.mp member with before | last
          · exact front.isDigit_chars c before
          · rw [List.mem_singleton.mp last, Nat.isDigit_digitChar]
            exact decide_eq_true (Nat.mod_lt n (by decide)) }

/-! ## Scanning -/

/-- A scanner that takes no more digits than the run has takes all of it. -/
theorem digits_append (d : Digits width) {least : Nat} (enough : least ≤ width)
    (rest : List Char) : Scan.digits least width (d.chars ++ rest) = some (d.chars, rest) := by
  have front : (d.chars ++ rest).take width = d.chars := List.take_left' d.length_chars
  have all : d.chars.takeWhile Char.isDigit = d.chars := Scan.takeWhile_of_run d.isDigit_chars
  have back : (d.chars ++ rest).drop width = rest := List.drop_left' d.length_chars
  unfold Scan.digits
  simp only [front, all, d.length_chars, back, enough, if_true]

/-- The number of the run is scanned. -/
theorem number_append (d : Digits width) {least : Nat} (enough : least ≤ width)
    (rest : List Char) : Scan.number least width (d.chars ++ rest) = some (d.number, rest) := by
  rw [Scan.number, d.digits_append enough]
  rfl

/-- A run of at least one digit does not start with a blank. -/
theorem skipBlanks_append (d : Digits width) (pos : 1 ≤ width) (rest : List Char) :
    Text.skipBlanks (d.chars ++ rest) = d.chars ++ rest := by
  have width := d.length_chars
  have run := d.isDigit_chars
  cases chars : d.chars with
  | nil =>
      rw [chars, List.length_nil] at width
      omega
  | cons c others =>
      rw [chars] at run
      exact Text.skipBlanks_cons_of_not_isBlank (Scan.isBlank_of_isDigit (run c List.mem_cons_self))

/-- The number of the run is scanned where blanks may be in front. -/
theorem looseNumber_append (d : Digits width) (pos : 1 ≤ width) (rest : List Char) :
    Scan.looseNumber width (d.chars ++ rest) = some (d.number, rest) := by
  rw [Scan.looseNumber, d.skipBlanks_append pos, d.number_append pos]

/-- A number that is scanned at full width is that of a run. -/
theorem exists_of_number {n : Nat} {text rest : List Char}
    (h : Scan.number width width text = some (n, rest)) :
    ∃ d : Digits width, text = d.chars ++ rest ∧ n = d.number := by
  obtain ⟨⟨run, rest⟩, scanned, same⟩ := Option.map_eq_some_iff.mp h
  cases same
  obtain ⟨digit, least, most⟩ := Scan.run_of_digits scanned
  exact ⟨⟨run, Nat.le_antisymm most least, digit⟩, Scan.digits_append scanned, rfl⟩

end Digits

end Interleave
