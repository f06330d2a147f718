/-
# Words that differ in case

Two characters beyond ASCII have small forms with an ASCII letter in them: the Kelvin
sign, which becomes a `k`, and the capital I with a dot, which keeps its dot as a
second character.  So a name of ASCII letters without a `k` is the small form of those
words only that are written in ASCII, and among them of those that differ from it in
case.

* `beyond_of_mem_blocks`, `valid_of_mem_turns` : where small forms lie;
* `exists_mem_smallForm` : what a small form beyond ASCII has in it;
* `lowercase_eq_iff` : the words whose small form is a name.
-/
import Interleave.Proofs.Text.Encoding
import Interleave.Text.Lowercase

namespace Interleave

open Capitals

/-! ## The tables -/

/-- The small forms of a block lie beyond ASCII, and are characters.  The Kelvin sign
is a block of its own, whose small form is a `k`. -/
theorem beyond_of_mem_blocks : ∀ block ∈ blocks, ∀ n, block.has n = true →
    block.small + (n - block.first) = 'k'.toNat ∨
      0x80 ≤ block.small + (n - block.first) ∧
        (block.small + (n - block.first)).isValidChar := by
  have bounds : ∀ block ∈ blocks,
      (block.small = 'k'.toNat ∧ block.last = block.first) ∨
        0x80 ≤ block.small ∧ (block.small + (block.last - block.first) < 0xD800 ∨
          0xDFFF < block.small ∧ block.small + (block.last - block.first) < 0x110000) := by
    decide +kernel
  intro block mem n has
  have has : block.first ≤ n ∧ n ≤ block.last := by simpa [Block.has] using has
  rcases bounds block mem with ⟨kelvin, alone⟩ | ⟨low, valid⟩
  · left
    omega
  · right
    refine ⟨by omega, ?_⟩
    rcases valid with valid | valid
    · exact .inl (by omega)
    · exact .inr ⟨by omega, by omega⟩

/-- What follows a capital that takes turns is a character. -/
theorem valid_of_mem_turns : ∀ row ∈ turns, ∀ n, row.has n = true → (n + 1).isValidChar := by
  have bounds : ∀ row ∈ turns, row.last < 0xD7FF := by decide
  intro row mem n has
  have has : row.first ≤ n ∧ n ≤ row.last := by
    simp only [Turns.has, Bool.and_eq_true, decide_eq_true_eq] at has
    exact has.1
  have := bounds row mem
  exact .inl (by omega)

/-! ## Small forms -/

/-- A number beyond ASCII leads to a `k` or beyond ASCII again. -/
theorem smallNumber_beyond {n : Nat} (beyond : 0x80 ≤ n) (valid : n.isValidChar) :
    smallNumber n = 'k'.toNat ∨ 0x80 ≤ smallNumber n ∧ (smallNumber n).isValidChar := by
  unfold smallNumber
  split
  case h_1 block found =>
    have has : block.has n = true := by simpa using List.find?_some found
    exact beyond_of_mem_blocks block (List.mem_of_find?_eq_some found) n has
  case h_2 =>
    split
    case isTrue some =>
      obtain ⟨row, mem, has⟩ := List.any_eq_true.mp some
      exact .inr ⟨by omega, valid_of_mem_turns row mem n has⟩
    case isFalse => exact .inr ⟨beyond, valid⟩

/-- The small form of a character beyond ASCII has a `k` in it, or a character beyond
ASCII. -/
theorem exists_mem_smallForm {c : Char} (beyond : 0x80 ≤ c.toNat) :
    ∃ d ∈ smallForm c, d = 'k' ∨ 0x80 ≤ d.toNat := by
  unfold smallForm
  rw [if_neg (by omega)]
  split
  case isTrue => exact ⟨'\u0307', by simp, .inr (by decide)⟩
  case isFalse =>
    refine ⟨Char.ofNat (smallNumber c.toNat), List.mem_singleton_self _, ?_⟩
    rcases smallNumber_beyond beyond c.valid with kelvin | ⟨low, valid⟩
    · exact .inl (by rw [kelvin]; rfl)
    · exact .inr (by rwa [Utf8.toNat_ofNat valid])

/-- An ASCII text becomes small letter by letter. -/
theorem flatMap_smallForm {word : List Char} (ascii : ∀ c ∈ word, c.toNat < 0x80) :
    word.flatMap smallForm = word.map Char.toLower := by
  rw [List.map_eq_flatMap, List.flatMap_def, List.flatMap_def]
  congr 1
  exact List.map_congr_left fun c mem => if_pos (ascii c mem)

/-- A character whose small form by the rule for ASCII is in ASCII is in ASCII too. -/
theorem toNat_lt_of_toLower {c : Char} (ascii : c.toLower.toNat < 0x80) : c.toNat < 0x80 := by
  by_cases capital : c.val ≥ 'A'.val ∧ c.val ≤ 'Z'.val
  · exact Nat.lt_of_le_of_lt (UInt32.le_iff_toNat_le.mp capital.2) (by decide)
  · have same : c.toLower = c := dif_neg capital
    rwa [same] at ascii

/-- The words whose small form is a name of ASCII letters without a `k`: those that
differ from it in case. -/
theorem lowercase_eq_iff {word name : String}
    (plain : ∀ d ∈ name.toList, d.toNat < 0x80 ∧ d ≠ 'k') :
    lowercase word = name ↔ word.toList.map Char.toLower = name.toList := by
  have small : lowercase word = name ↔ word.toList.flatMap smallForm = name.toList := by
    rw [lowercase, ← String.toList_inj, String.toList_ofList]
  rw [small]
  constructor
  · intro same
    have ascii : ∀ c ∈ word.toList, c.toNat < 0x80 := by
      refine fun c mem => Nat.lt_of_not_le fun beyond => ?_
      obtain ⟨d, memForm, bad⟩ := exists_mem_smallForm beyond
      have := plain d (same ▸ List.mem_flatMap.mpr ⟨c, mem, memForm⟩)
      rcases bad with rfl | bad
      · exact this.2 rfl
      · omega
    rw [← flatMap_smallForm ascii, same]
  · intro same
    have ascii : ∀ c ∈ word.toList, c.toNat < 0x80 := fun c mem =>
      toNat_lt_of_toLower (plain _ (same ▸ List.mem_map_of_mem mem)).1
    rw [flatMap_smallForm ascii, same]

end Interleave
