/-
# An input, line by line

An input turns a stream into lines.  It numbers them, holds each to the limit, finds
its key, and counts the lines that go back in time.

* `Input.next` : an attempt to take the next line;
* `Input.attempts`, `Input.readings` : several attempts, one after another;
* `remaining_next_lt` : a line takes bytes from the stream, so an input comes to an
  end;
* `next_error` : an attempt that fails leaves the last timestamp and the count alone.
-/
import Interleave.Log.Failure
import Interleave.Log.FirstWord
import Interleave.Log.Line
import Interleave.Report.Event
import Interleave.Stream.Reader

namespace Interleave

/-- One of the inputs of a merge. -/
structure Input where
  side : Side
  /-- The path of the input, for reports. -/
  path : String
  reader : Reader
  /-- How many bytes a line may have, its line end included, if there is a limit. -/
  limit : Option Nat
  /-- How many lines have been taken. -/
  lineNumber : Nat := 0
  /-- The closest timestamp before the lines not yet taken. -/
  lastTimestamp : Key := none
  /-- How many timestamps were earlier than the one before them. -/
  descents : Nat := 0
  deriving DecidableEq, Repr

/-- What an attempt to take a line gives. -/
structure Reading where
  /-- The line, nothing at the end of the input, or a failure. -/
  result : Except Failure (Option Line)
  /-- What is reported on the way. -/
  notices : List Event
  /-- The input after the attempt. -/
  input : Input

namespace Input

/-! ## Taking a line -/

/-- An input that has handed out nothing yet. -/
def ofReader (side : Side) (path : String) (reader : Reader) (limit : Option Nat) : Input :=
  { side, path, reader, limit }

/-- How many bytes are asked for: one more than the limit, which is enough to see
that a line is too long. -/
def quota (i : Input) : Option Nat := i.limit.map (· + 1)

/-- The limit, if there is one and the line is longer. -/
def exceeded? (limit : Option Nat) (raw : Bytes) : Option Nat :=
  limit.filter fun most => most < raw.length

/-- The timestamp goes back in time. -/
def goesBack (i : Input) (instant : Instant) : Bool :=
  match i.lastTimestamp with
  | none => false
  | some last => instant < last

/-- A line with a timestamp.  The first one that goes back in time is reported. -/
def stamped (i : Input) (raw : Bytes) (instant : Instant) : Reading :=
  let descents := if i.goesBack instant then i.descents + 1 else i.descents
  { result := .ok (some ⟨i.side, i.lineNumber, some instant, raw, false⟩)
    notices :=
      if i.goesBack instant ∧ descents = 1 then [.unordered i.side i.path i.lineNumber] else []
    input := { i with lastTimestamp := some instant, descents } }

/-- A line of white space, which has the key of the closest timestamp before it. -/
def blank (i : Input) (raw : Bytes) : Reading :=
  { result := .ok (some ⟨i.side, i.lineNumber, i.lastTimestamp, raw, true⟩)
    notices := []
    input := i }

/-- An attempt that fails. -/
def fail (i : Input) (failure : Failure) : Reading :=
  { result := .error failure, notices := [], input := i }

/-- A line whose bytes have been taken from the stream and counted. -/
def accept (i : Input) (raw : Bytes) : Reading :=
  match exceeded? i.limit raw with
  | some most => i.fail (.lineTooLong i.path i.lineNumber raw.length most)
  | none =>
      match FirstWord.ofLine raw with
      | .missing => i.blank raw
      | .timestamp instant => i.stamped raw instant
      | .other word => i.fail (.notTimestamped i.path i.lineNumber (Utf8.decodeLossy word))

/-- An attempt to take the next line.  Where the stream fails no line is counted, so
the next attempt is for the same one. -/
def next (i : Input) : Reading :=
  match i.reader.gather i.quota with
  | .failed cause reader =>
      { i with reader }.fail (.cannotRead i.path (i.lineNumber + 1) cause)
  | .line [] reader => { result := .ok none, notices := [], input := { i with reader } }
  | .line (b :: raw) reader =>
      { i with reader, lineNumber := i.lineNumber + 1 }.accept (b :: raw)

/-! ## What an attempt leaves -/

/-- How many bytes have not been taken. -/
def remaining (i : Input) : Nat := i.reader.rest.length

/-- Accepting a line takes nothing more from the stream. -/
theorem remaining_accept (i : Input) (raw : Bytes) :
    (i.accept raw).input.remaining = i.remaining := by
  unfold accept
  split
  · rfl
  · split <;> rfl

/-- An attempt never adds bytes. -/
theorem remaining_next_le (i : Input) : i.next.input.remaining ≤ i.remaining := by
  unfold next
  split
  · next gathered => exact (Reader.rest_gather_failed gathered).length_le
  · next gathered =>
      have kept := congrArg List.length (Reader.rest_gather gathered)
      simp at kept
      exact Nat.le_of_eq kept
  · next gathered =>
      rw [remaining_accept]
      have kept := congrArg List.length (Reader.rest_gather gathered)
      simp at kept
      simp [remaining]
      omega

/-- **An input comes to an end.**  An attempt that gives a line takes at least one
byte. -/
theorem remaining_next_lt {i : Input} {l : Line} (h : i.next.result = .ok (some l)) :
    i.next.input.remaining < i.remaining := by
  unfold next at h ⊢
  split at h
  · cases h
  · cases h
  · next gathered =>
      simp only [remaining_accept]
      have kept := congrArg List.length (Reader.rest_gather gathered)
      simp at kept
      simp [remaining]
      omega

/-- A line that is refused leaves the last timestamp and the count alone. -/
theorem accept_error {i : Input} {raw : Bytes} {e : Failure}
    (h : (i.accept raw).result = .error e) : (i.accept raw).input = i := by
  unfold accept at h ⊢
  split at h
  · rfl
  · split at h
    · cases h
    · cases h
    · rfl

/-- **A failing attempt leaves no trace in the order.** -/
theorem next_error {i : Input} {e : Failure} (h : i.next.result = .error e) :
    i.next.input.lastTimestamp = i.lastTimestamp ∧ i.next.input.descents = i.descents := by
  unfold next at h ⊢
  split at h
  · exact ⟨rfl, rfl⟩
  · cases h
  · rw [accept_error h]
    exact ⟨rfl, rfl⟩

/-! ## Several attempts -/

/-- A given number of attempts, whatever each of them gives. -/
def attempts : Nat → Input → List Reading
  | 0, _ => []
  | n + 1, i =>
      let reading := i.next
      reading :: attempts n reading.input

/-- Attempts up to the end of the input or the first failure, which is the last. -/
def readings (i : Input) : List Reading :=
  match _given : i.next.result with
  | .ok (some _) => i.next :: i.next.input.readings
  | _ => [i.next]
termination_by i.remaining
decreasing_by exact remaining_next_lt (by assumption)

end Input

end Interleave
