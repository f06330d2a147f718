/-
# Merging by hand

The parts of a merge can be worked one by one: take a line from an input, lift it out
of its slot, put it back, write it.  The bench has two inputs with their slots, a
hand for each side that holds at most one line, and a sink.

* `Bench` : the inputs, slots and hands;
* `Move` : what can be done;
* `Bench.apply` : a move, and what it gives.
-/
import Interleave.Merge.Input
import Interleave.Merge.Slot
import Interleave.Stream.Sink

namespace Interleave

/-- Two inputs with their slots, a hand for each side, and a sink. -/
structure Bench (σ : Type) where
  inputs : Both Input
  slots : Both Slot := ⟨{}, {}⟩
  hands : Both (Option Line) := ⟨none, none⟩
  sink : σ

/-- What can be done at the bench. -/
inductive Move where
  /-- Takes the next line of an input into its slot. -/
  | fetch (side : Side)
  /-- Lifts the line that waits into the hand. -/
  | lift (side : Side)
  /-- Puts the held line back. -/
  | putBack (side : Side)
  /-- Writes the held line. -/
  | write (side : Side)
  /-- Asks which of the two held lines goes first. -/
  | choose
  /-- Asks which hands hold a line. -/
  | look
  deriving DecidableEq, Repr

/-- What a move gives. -/
inductive Reply where
  | done
  | failed (failure : Failure)
  | lifted (line : Option Line)
  | chosen (choice : Choice)
  | seen (waiting : Waiting)
  /-- The move needs a line in hand. -/
  | nothingHeld

namespace Bench

variable {σ : Type}

/-- The bench with another line, or none, in one hand. -/
def holding (b : Bench σ) (side : Side) (line : Option Line) : Bench σ :=
  { b with hands := b.hands.set side line }

/-- Takes the next line of an input into its slot. -/
def fetch (b : Bench σ) (side : Side) : Reply × Bench σ :=
  let reading := (b.inputs.get side).next
  let after := { b with
    inputs := b.inputs.set side reading.input
    slots := b.slots.set side ((b.slots.get side).receive reading.result) }
  match reading.result with
  | .ok _ => (.done, after)
  | .error failure => (.failed failure, after)

/-- Lifts the line that waits; what the hand held is dropped. -/
def lift (b : Bench σ) (side : Side) : Reply × Bench σ :=
  let (line, slot) := (b.slots.get side).lift
  (.lifted line, { b with slots := b.slots.set side slot }.holding side line)

/-- Puts the held line back. -/
def putBack (b : Bench σ) (side : Side) : Reply × Bench σ :=
  match b.hands.get side with
  | none => (.nothingHeld, b)
  | some line =>
      let slot := (b.slots.get side).putBack line
      (.done, { b with slots := b.slots.set side slot }.holding side none)

/-- Writes the held line. -/
def write [ByteSink σ] (b : Bench σ) (side : Side) : Reply × Bench σ :=
  match b.hands.get side with
  | none => (.nothingHeld, b)
  | some line =>
      match ByteSink.writeEach b.sink line.parts with
      | (.ok (), sink) => (.done, { b with sink }.holding side none)
      | (.error cause, sink) => (.failed (.cannotWrite cause), { b with sink })

/-- Which of the two held lines goes first. -/
def choose (b : Bench σ) : Reply :=
  match b.hands.left, b.hands.right with
  | some left, some right => .chosen (Choice.between left right)
  | _, _ => .nothingHeld

/-- Which hands hold a line. -/
def look (b : Bench σ) : Reply :=
  .seen (.ofSides b.hands.left.isSome b.hands.right.isSome)

/-- A move, and what it gives. -/
def apply [ByteSink σ] (b : Bench σ) : Move → Reply × Bench σ
  | .fetch side => b.fetch side
  | .lift side => b.lift side
  | .putBack side => b.putBack side
  | .write side => b.write side
  | .choose => (b.choose, b)
  | .look => (b.look, b)

/-- Several moves, and what each gives. -/
def applyAll [ByteSink σ] (b : Bench σ) : List Move → List Reply × Bench σ
  | [] => ([], b)
  | move :: moves =>
      let (reply, b) := b.apply move
      let (replies, b) := b.applyAll moves
      (reply :: replies, b)

end Bench

end Interleave
