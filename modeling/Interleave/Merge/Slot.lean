/-
# The lines that wait

Each input has at most one line that has been taken and not yet written.  The slot
of the input holds it.  Of two waiting lines the one with the earlier key is written
first, and of two with the same key the left one.

* `Slot` : the line of an input that waits;
* `Choice.between` : which of two waiting lines goes first;
* `Draw.ofSlots` : the next line to write, and the slots without it;
* `filled_slots` : a draw takes exactly one of the lines that wait.
-/
import Interleave.Log.Failure
import Interleave.Log.Line
import Interleave.Log.Waiting

namespace Interleave

/-! ## Slots -/

/-- The line of an input that waits to be written, if there is one. -/
structure Slot where
  line : Option Line := none
  deriving DecidableEq, Repr

namespace Slot

/-- The slot after an attempt to take a line from its input.  A failed attempt
changes nothing. -/
def receive (s : Slot) (result : Except Failure (Option Line)) : Slot :=
  match result with
  | .ok line => ⟨line⟩
  | .error _ => s

/-- The line that waits, and the slot without it. -/
def lift (s : Slot) : Option Line × Slot := (s.line, {})

/-- Puts a line back, so that it is compared again. -/
def putBack (_ : Slot) (l : Line) : Slot := ⟨some l⟩

/-- How many lines wait: one or none. -/
def size (s : Slot) : Nat := if s.line.isSome then 1 else 0

/-- How many lines wait on both sides. -/
def filled (slots : Both Slot) : Nat := slots.left.size + slots.right.size

end Slot

/-! ## Choosing a line -/

/-- Which side goes first, and whether both might have. -/
structure Choice where
  side : Side
  tie : Bool
  deriving DecidableEq, Repr

/-- Which of a left and a right line goes first. -/
def Choice.between (left right : Line) : Choice :=
  if Key.notLater left.key right.key then ⟨.left, left.key == right.key⟩
  else ⟨.right, false⟩

/-- The next line to write. -/
structure Draw where
  line : Line
  /-- The side whose slot held it. -/
  side : Side
  /-- Which lines were waiting. -/
  waiting : Waiting
  /-- The other line has the same key. -/
  tie : Bool
  /-- The slots without the line. -/
  slots : Both Slot
  deriving DecidableEq, Repr

namespace Draw

/-- The next line to write, if any line waits.  A line that is not chosen is put
back. -/
def ofSlots (slots : Both Slot) : Option Draw :=
  let (leftLine, leftSlot) := slots.left.lift
  let (rightLine, rightSlot) := slots.right.lift
  let waiting := Waiting.ofSides leftLine.isSome rightLine.isSome
  match leftLine, rightLine with
  | none, none => none
  | some l, none => some ⟨l, .left, waiting, false, leftSlot, rightSlot⟩
  | none, some r => some ⟨r, .right, waiting, false, leftSlot, rightSlot⟩
  | some l, some r =>
      let choice := Choice.between l r
      match choice.side with
      | .left => some ⟨l, .left, waiting, choice.tie, leftSlot, rightSlot.putBack r⟩
      | .right => some ⟨r, .right, waiting, choice.tie, leftSlot.putBack l, rightSlot⟩

/-- The slot that held the line is empty without it. -/
theorem get_slots_side {slots : Both Slot} {d : Draw} (h : ofSlots slots = some d) :
    d.slots.get d.side = {} := by
  obtain ⟨⟨left⟩, ⟨right⟩⟩ := slots
  cases left <;> cases right <;> simp only [ofSlots, Slot.lift] at h
  · cases h
  · cases h
    rfl
  · cases h
    rfl
  · split at h <;> cases h <;> rfl

/-- A draw takes one of the lines that wait. -/
theorem filled_slots {slots : Both Slot} {d : Draw} (h : ofSlots slots = some d) :
    Slot.filled d.slots + 1 = Slot.filled slots := by
  obtain ⟨⟨left⟩, ⟨right⟩⟩ := slots
  cases left <;> cases right <;> simp only [ofSlots, Slot.lift] at h
  · cases h
  · cases h
    rfl
  · cases h
    rfl
  · split at h <;> cases h <;> rfl

end Draw

end Interleave
