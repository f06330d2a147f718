/-
# Scanning text from the left

Each scanner takes characters off the front of a text.  It gives what it read
together with the rest, or nothing where the text does not start as asked.

* `exactly` : one given character;
* `number` : a run of digits, as many as there are up to a bound;
* `wideNumber` : a run of any number of digits, whose value is bounded;
* `fraction` : the decimals of a second.
-/
import Interleave.Text.Blank

namespace Interleave.Scan

/-- The value of a run of decimal digits. -/
def value (digits : List Char) : Nat :=
  digits.foldl (fun n c => n * 10 + (c.toNat - 48)) 0

/-- The rest of a text that starts with the given character. -/
def exactly (c : Char) : List Char → Option (List Char)
  | [] => none
  | d :: rest => if d = c then some rest else none

/-- A run of at least `least` digits.  It takes all the digits that follow one
another, but no more than `most`. -/
def digits (least most : Nat) (text : List Char) : Option (List Char × List Char) :=
  let run := (text.take most).takeWhile Char.isDigit
  if least ≤ run.length then some (run, text.drop run.length) else none

/-- The number that such a run writes. -/
def number (least most : Nat) (text : List Char) : Option (Nat × List Char) :=
  (digits least most text).map fun (run, rest) => (value run, rest)

/-- A number of up to `most` digits that may have blanks in front. -/
def looseNumber (most : Nat) (text : List Char) : Option (Nat × List Char) :=
  number 1 most (Text.skipBlanks text)

/-- What a signed number of 64 bits is less than. -/
def wideBound : Nat := 0x8000000000000000

/-- The value of a run of decimal digits if it is less than the bound.  Digits after
the first excess are not counted. -/
def wideValue? (digits : List Char) : Option Nat :=
  digits.foldlM (fun n c =>
    let next := n * 10 + (c.toNat - 48)
    if next < wideBound then some next else none) 0

/-- The number that a run of digits of any length writes, which must be less than the
bound. -/
def wideNumber (text : List Char) : Option (Nat × List Char) :=
  (digits 1 text.length text).bind fun (run, rest) =>
    (wideValue? run).map fun n => (n, rest)

/-- Nanoseconds from the decimals of a second: nine count, missing ones are zeros. -/
def nanos (decimals : List Char) : Nat :=
  let counted := decimals.take 9
  value counted * Nat.pow 10 (9 - counted.length)

/-- The decimals of a second: a point with at least one digit after it, or no point
at all.  All digits are taken, though only nine count. -/
def fraction (text : List Char) : Option (Nat × List Char) :=
  match exactly '.' text with
  | none => some (0, text)
  | some rest =>
      (digits 1 rest.length rest).map fun (run, rest) => (nanos run, rest)

/-- More digits never make a number less. -/
theorem le_foldl_value (digits : List Char) (n : Nat) :
    n ≤ digits.foldl (fun n c => n * 10 + (c.toNat - 48)) n := by
  induction digits generalizing n with
  | nil => exact Nat.le_refl n
  | cons c digits ih =>
      have rest := ih (n * 10 + (c.toNat - 48))
      rw [List.foldl_cons]
      omega

/-- **A wide value is the value**, where that is less than the bound. -/
theorem wideValue?_eq (digits : List Char) :
    wideValue? digits = if value digits < wideBound then some (value digits) else none := by
  have from_here : ∀ n < wideBound,
      digits.foldlM (fun n c =>
          let next := n * 10 + (c.toNat - 48)
          if next < wideBound then some next else none) n =
        let whole := digits.foldl (fun n c => n * 10 + (c.toNat - 48)) n
        if whole < wideBound then some whole else none := by
    induction digits with
    | nil =>
        intro n small
        exact (if_pos small).symm
    | cons c digits ih =>
        intro n small
        rw [List.foldlM_cons, List.foldl_cons]
        by_cases fits : n * 10 + (c.toNat - 48) < wideBound
        · simp only [fits, if_true]
          exact ih _ fits
        · have grows := le_foldl_value digits (n * 10 + (c.toNat - 48))
          have excess : ¬ digits.foldl (fun n c => n * 10 + (c.toNat - 48))
              (n * 10 + (c.toNat - 48)) < wideBound := by omega
          simp only [fits, excess, if_false]
          rfl
  exact from_here 0 (by decide)

/-- What a run of digits reads is the front of the text. -/
theorem digits_append {least most : Nat} {text run rest : List Char}
    (h : digits least most text = some (run, rest)) : text = run ++ rest := by
  dsimp only [digits] at h
  split at h
  · obtain ⟨rfl, rfl⟩ := Prod.mk.inj (Option.some.inj h)
    conv => lhs; rw [← List.take_append_drop
      ((text.take most).takeWhile Char.isDigit).length text]
    congr 1
    have front : (text.take most).takeWhile Char.isDigit <+: text :=
      (List.takeWhile_prefix _).trans (List.take_prefix _ _)
    exact (List.prefix_iff_eq_take.mp front).symm
  · cases h

end Interleave.Scan
