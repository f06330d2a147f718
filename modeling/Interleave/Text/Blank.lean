/-
# White space in text

The characters with the Unicode property `White_Space`.  Timestamps may have them in
front of a number, and the excerpt of a line drops them at its end.

* `isBlank` : the property;
* `skipBlanks`, `trimEnd` : the same text without blanks in front, or at the end.
-/

namespace Interleave.Text

/-- The characters with the Unicode property `White_Space`, twenty-five of them. -/
def isBlank (c : Char) : Bool :=
  let n := c.toNat
  (0x09 ≤ n && n ≤ 0x0D) || n == 0x20 || n == 0x85 || n == 0xA0 || n == 0x1680 ||
    (0x2000 ≤ n && n ≤ 0x200A) || n == 0x2028 || n == 0x2029 || n == 0x202F ||
    n == 0x205F || n == 0x3000

/-- The text without the blanks it starts with. -/
def skipBlanks (text : List Char) : List Char :=
  text.dropWhile isBlank

/-- The text without the blanks it ends with. -/
def trimEnd (text : List Char) : List Char :=
  (text.reverse.dropWhile isBlank).reverse

/-- A text that starts with no blank is left alone. -/
theorem skipBlanks_cons_of_not_isBlank {c : Char} {text : List Char}
    (h : isBlank c = false) : skipBlanks (c :: text) = c :: text := by
  simp [skipBlanks, h]

end Interleave.Text
