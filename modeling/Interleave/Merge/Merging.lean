/-
# The merge

A merge takes turns.  In each it draws a line, writes it, and takes the next line of
the input the drawn one came from; the other input's line goes on waiting.  It ends
when no line waits, or at the first failure.  What was written before stays written.

The merge keeps a history of what it did: every attempt to take a line with what it
gave, every line written, and everything reported.

* `Merging` : a merge under way;
* `Merging.turn` : one turn;
* `Merging.run` : all turns, which come to an end because every turn writes a line
  that has been taken from an input;
* `merge` : the merge of two inputs.
-/
import Interleave.Merge.Input
import Interleave.Merge.Slot
import Interleave.Stream.Sink

namespace Interleave

/-! ## What happens in a merge -/

/-- One thing that a merge does. -/
inductive Act where
  /-- It asks an input for a line, with what that gives. -/
  | read (side : Side) (result : Except Failure (Option Line))
  /-- It has written a line, all of its record. -/
  | wrote (side : Side) (line : Line)
  /-- It asks the output to pass on all that was written. -/
  | flushed
  /-- It reports something. -/
  | noted (event : Event)

/-- What an act reports. -/
def Act.event? : Act → Option Event
  | .noted event => some event
  | _ => none

/-- A merge under way. -/
structure Merging (σ : Type) where
  inputs : Both Input
  slots : Both Slot
  sink : σ
  tally : Tally
  /-- What has been done, the latest first. -/
  acts : List Act

/-- How a merge ended, and where it stood then. -/
structure Outcome (σ : Type) where
  result : Except Failure Tally
  last : Merging σ

/-- Whether a merge goes on after a step. -/
inductive Progress (σ : Type) where
  | going (m : Merging σ)
  | stopped (failure : Failure) (m : Merging σ)

namespace Merging

variable {σ : Type}

/-- What has been done, in order. -/
def history (m : Merging σ) : List Act := m.acts.reverse

/-- What has been reported, in order. -/
def events (m : Merging σ) : List Event := m.history.filterMap Act.event?

/-- The merge with one more act. -/
def did (m : Merging σ) (act : Act) : Merging σ := { m with acts := act :: m.acts }

/-! ## Taking lines -/

/-- A merge that has done nothing yet. -/
def start (inputs : Both Input) (sink : σ) : Merging σ :=
  { inputs, slots := ⟨{}, {}⟩, sink, tally := {}, acts := [] }

/-- The merge after an attempt to take a line of one side. -/
def received (m : Merging σ) (side : Side) (reading : Reading) : Merging σ :=
  { m with
    inputs := m.inputs.set side reading.input
    slots := m.slots.set side ((m.slots.get side).receive reading.result)
    acts := .read side reading.result :: (reading.notices.reverse.map Act.noted ++ m.acts) }

/-- Goes on after an attempt to take a line, unless it failed. -/
def absorb (m : Merging σ) (side : Side) (reading : Reading) : Progress σ :=
  match reading.result with
  | .ok _ => .going (m.received side reading)
  | .error failure => .stopped failure (m.received side reading)

/-- Takes the next line of one side. -/
def fetch (m : Merging σ) (side : Side) : Progress σ :=
  m.absorb side (m.inputs.get side).next

/-! ## What is left to do -/

/-- What is left to do on one side: bytes to take and a line to write. -/
def loadOf (i : Input) (s : Slot) : Nat := i.remaining + s.size

/-- What is left to do on both sides. -/
def load (m : Merging σ) : Nat :=
  loadOf m.inputs.left m.slots.left + loadOf m.inputs.right m.slots.right

/-- Taking a line into an empty slot adds nothing to what is left. -/
theorem loadOf_next_le (i : Input) :
    loadOf i.next.input (({} : Slot).receive i.next.result) ≤ loadOf i {} := by
  have bound := i.remaining_next_le
  cases given : i.next.result with
  | error e => simpa [loadOf, Slot.receive] using bound
  | ok line =>
      cases line with
      | none => simpa [loadOf, Slot.receive, Slot.size] using bound
      | some l =>
          have := Input.remaining_next_lt given
          simp [loadOf, Slot.receive, Slot.size]
          omega

/-- An attempt for a side whose slot is empty adds nothing to what is left. -/
theorem load_fetch {m m' : Merging σ} {side : Side} (empty : m.slots.get side = {})
    (h : m.fetch side = .going m') : m'.load ≤ m.load := by
  unfold fetch absorb at h
  split at h
  · cases h
    cases side with
    | left =>
        have := loadOf_next_le m.inputs.left
        have empty : m.slots.left = {} := empty
        simp only [load, received, Both.set, Both.get, empty]
        omega
    | right =>
        have := loadOf_next_le m.inputs.right
        have empty : m.slots.right = {} := empty
        simp only [load, received, Both.set, Both.get, empty]
        omega
  · cases h

/-! ## Turns -/

/-- The merge when a line has been drawn and is about to be written. -/
def drew (m : Merging σ) (d : Draw) : Merging σ :=
  { m with
    slots := d.slots
    tally := m.tally.compare d.tie
    acts := .noted (.writing d.waiting d.line.side d.line.number (Line.excerpt d.line.raw)) :: m.acts }

/-- The merge when a line has been written. -/
def wrote (m : Merging σ) (d : Draw) (sink : σ) : Merging σ :=
  { m with
    sink
    tally := m.tally.count d.line
    acts := .wrote d.side d.line :: m.acts }

variable [ByteSink σ]

/-- Reports and writes the line that is drawn. -/
def write (m : Merging σ) (d : Draw) : Progress σ :=
  match ByteSink.writeEach m.sink d.line.parts with
  | (.error cause, sink) => .stopped (.cannotWrite cause) { m.drew d with sink }
  | (.ok (), sink) => .going ((m.drew d).wrote d sink)

/-- One turn: writes the line that is drawn and takes the next one from the place where
that waited.  It is the side that the line bears wherever each input bears the side of its
place, as in a run over files (`Plan.Sided.pick`). -/
def turn (m : Merging σ) (d : Draw) : Progress σ :=
  match m.write d with
  | .stopped failure m => .stopped failure m
  | .going m => m.fetch d.side

/-- The end of a merge with no line left. -/
def finish (m : Merging σ) : Outcome σ :=
  match ByteSink.flush m.sink with
  | (.error cause, sink) => ⟨.error (.cannotWrite cause), { m with sink }.did .flushed⟩
  | (.ok (), sink) =>
      ⟨.ok m.tally, ({ m with sink }.did .flushed).did (.noted (.complete m.tally))⟩

/-! ## All turns -/

/-- Writing a line leaves one less to write. -/
theorem load_write {m m' : Merging σ} {d : Draw} (drawn : Draw.ofSlots m.slots = some d)
    (h : m.write d = .going m') : m'.load + 1 = m.load ∧ m'.slots = d.slots := by
  unfold write at h
  split at h
  · cases h
  · cases h
    have fewer := Draw.filled_slots drawn
    refine ⟨?_, rfl⟩
    simp only [Slot.filled] at fewer
    simp only [load, loadOf, wrote, drew]
    omega

/-- Every turn leaves less to do. -/
theorem load_turn {m m' : Merging σ} {d : Draw} (drawn : Draw.ofSlots m.slots = some d)
    (h : m.turn d = .going m') : m'.load < m.load := by
  unfold turn at h
  split at h
  · cases h
  · next written =>
      have ⟨less, same⟩ := load_write drawn written
      have := load_fetch (same ▸ Draw.get_slots_side drawn) h
      omega

/-- Takes turns until no line waits or a turn fails. -/
def run (m : Merging σ) : Outcome σ :=
  match _drawn : Draw.ofSlots m.slots with
  | none => m.finish
  | some d =>
      match _after : m.turn d with
      | .stopped failure m => ⟨.error failure, m⟩
      | .going m => m.run
termination_by m.load
decreasing_by exact load_turn (by assumption) (by assumption)

end Merging

/-! ## The merge of two inputs -/

/-- Merges two inputs into a sink, beginning with the first line of each. -/
def merge {σ : Type} [ByteSink σ] (inputs : Both Input) (sink : σ) : Outcome σ :=
  match (Merging.start inputs sink).fetch .left with
  | .stopped failure m => ⟨.error failure, m⟩
  | .going m =>
      match m.fetch .right with
      | .stopped failure m => ⟨.error failure, m⟩
      | .going m => m.run

end Interleave
