/-
# What a merge counts

* `Tally` : the counts;
* `Tally.count` : a line is written;
* `Tally.compare` : two waiting lines are compared.
-/
import Interleave.Log.Line

namespace Interleave

/-- The counts of a merge. -/
structure Tally where
  /-- Lines written, of each side. -/
  lines : Both Nat := ⟨0, 0⟩
  /-- Blank lines among them. -/
  blanks : Nat := 0
  /-- How often two waiting lines had the same key. -/
  ties : Nat := 0
  deriving DecidableEq, Repr

namespace Tally

/-- All lines written. -/
def total (t : Tally) : Nat := t.lines.left + t.lines.right

/-- The counts with one more line written. -/
def count (t : Tally) (l : Line) : Tally :=
  { t with
    lines := t.lines.set l.side (t.lines.get l.side + 1)
    blanks := if l.blank then t.blanks + 1 else t.blanks }

/-- The counts with one more comparison, tied or not. -/
def compare (t : Tally) (tie : Bool) : Tally :=
  { t with ties := if tie then t.ties + 1 else t.ties }

/-- A line written is one line more. -/
theorem total_count (t : Tally) (l : Line) : (t.count l).total = t.total + 1 := by
  cases h : l.side <;> simp [count, total, h, Both.set, Both.get] <;> omega

/-- A comparison writes no line. -/
theorem total_compare (t : Tally) (tie : Bool) : (t.compare tie).total = t.total := rfl

end Tally

end Interleave
