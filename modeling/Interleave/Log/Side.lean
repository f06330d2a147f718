/-
# The two sides

Two inputs are merged, a left one and a right one.  What holds for one holds for the
other but for two things: their tags, and that the left goes first where their lines
belong to the same instant.

* `Side` : left or right;
* `Both` : one value for each side.
-/
import Interleave.Text.Ascii

namespace Interleave

/-! ## Sides -/

/-- One of the two inputs. -/
inductive Side where
  | left
  | right
  deriving DecidableEq, Repr

namespace Side

/-- The tag that marks a written line as one of this side. -/
def tag : Side → String
  | .left => "L<<"
  | .right => ">>R"

/-- The name of the side in reports. -/
def label : Side → String
  | .left => "left"
  | .right => "right"

/-- The other side. -/
def other : Side → Side
  | .left => .right
  | .right => .left

/-- A side that is not a given one is the other. -/
theorem eq_other_of_ne {s t : Side} (h : s ≠ t) : s = t.other := by
  cases s <;> cases t
  · exact absurd rfl h
  · rfl
  · rfl
  · exact absurd rfl h

end Side

/-- What stands between a tag and the line it marks. -/
def tagSeparator : String := " "

/-! ## A value for each side -/

/-- One value for each of the two inputs. -/
structure Both (α : Type) where
  left : α
  right : α
  deriving DecidableEq, Repr

namespace Both

variable {α β : Type}

/-- The value of a side. -/
def get (b : Both α) : Side → α
  | .left => b.left
  | .right => b.right

/-- The same values but for one side. -/
def set (b : Both α) (side : Side) (a : α) : Both α :=
  match side with
  | .left => { b with left := a }
  | .right => { b with right := a }

/-- A function of each value. -/
def map (f : α → β) (b : Both α) : Both β := ⟨f b.left, f b.right⟩

/-- The values with the sides exchanged. -/
def swap (b : Both α) : Both α := ⟨b.right, b.left⟩

/-- A value that is set is there. -/
@[simp] theorem get_set_self (b : Both α) (s : Side) (a : α) : (b.set s a).get s = a := by
  cases s <;> rfl

/-- Setting one side leaves the other alone. -/
@[simp] theorem get_set_other (b : Both α) (s : Side) (a : α) :
    (b.set s a).get s.other = b.get s.other := by
  cases s <;> rfl

/-- Setting one side leaves every other one alone. -/
theorem get_set_ne (b : Both α) {s t : Side} (a : α) (h : s ≠ t) :
    (b.set s a).get t = b.get t := by
  rw [Side.eq_other_of_ne h.symm, get_set_other]

/-- A function is applied on each side. -/
@[simp] theorem get_map (f : α → β) (b : Both α) (s : Side) :
    (b.map f).get s = f (b.get s) := by
  cases s <;> rfl

/-- Exchanging the sides exchanges the values. -/
@[simp] theorem get_swap (b : Both α) (s : Side) : b.swap.get s = b.get s.other := by
  cases s <;> rfl

end Both

end Interleave
