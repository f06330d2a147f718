/-
# Writing to a stream

A sink takes bytes until its room is used up and then refuses.  It may take only a
few bytes each time it is asked, so that a run of bytes is written in several goes.

* `ByteSink` : what can be written to;
* `Sink` : a stream with bounded room;
* `contents_take` : what a sink holds grows by what it takes, in order.
-/
import Interleave.Text.Ascii
import Interleave.Stream.IoError

namespace Interleave

/-! ## What can be written to -/

/-- A place to write bytes to.  Writing changes the place, also where it fails. -/
class ByteSink (σ : Type) where
  /-- Writes all the bytes, in order, or as many as it can before it fails. -/
  writeAll : σ → Bytes → Except IoError Unit × σ
  /-- Passes on whatever has been held back. -/
  flush : σ → Except IoError Unit × σ

/-- Writes several runs of bytes one after another and stops at the first failure. -/
def ByteSink.writeEach {σ : Type} [ByteSink σ] : σ → List Bytes → Except IoError Unit × σ
  | sink, [] => (.ok (), sink)
  | sink, run :: runs =>
      match ByteSink.writeAll sink run with
      | (.ok (), sink) => ByteSink.writeEach sink runs
      | (.error cause, sink) => (.error cause, sink)

/-! ## Sinks with bounded room -/

/-- A stream that is written to. -/
structure Sink where
  /-- How many more bytes it takes, if there is a bound. -/
  room : Option Nat := none
  /-- How many bytes it takes each time it is asked, if there is a bound. -/
  perCall : Option Nat := none
  /-- How it refuses when its room is used up; without a reason it takes no bytes. -/
  refusal : Option IoError := none
  /-- How it fails when it is flushed, if it does. -/
  flushFailure : Option IoError := none
  /-- The bytes taken, newest first. -/
  taken : Bytes := []
  /-- How often it has been flushed. -/
  flushes : Nat := 0
  deriving Repr

namespace Sink

/-- The bytes taken, in order. -/
def contents (s : Sink) : Bytes := s.taken.reverse

/-- A sink that takes everything. -/
def unbounded : Sink := {}

/-- A sink that takes nothing and gives a reason. -/
def refusing (cause : IoError) : Sink := { room := some 0, refusal := some cause }

/-- The front of a run of bytes that is taken when the sink is asked once.  It is
never empty while there is room, so a bound of zero bytes counts as one. -/
def portion (s : Sink) (run : Bytes) : Bytes :=
  let asked := match s.perCall with
    | some most => run.take (max 1 most)
    | none => run
  match s.room with
  | some room => asked.take room
  | none => asked

/-- The sink after it has taken some bytes. -/
def take (s : Sink) (part : Bytes) : Sink :=
  { s with
    room := s.room.map (· - part.length)
    taken := part.reverseAux s.taken }

/-- Why the sink takes none of the bytes it is offered. -/
def refuse (s : Sink) : IoError := s.refusal.getD .writeZero

/-- Offers the bytes again and again until all are taken or the sink refuses.  A
refusal ends the writing whatever its reason. -/
def writeAll (s : Sink) (run : Bytes) : Except IoError Unit × Sink :=
  if run = [] then (.ok (), s)
  else
    match h : s.portion run with
    | [] => (.error s.refuse, s)
    | b :: part => (s.take (b :: part)).writeAll (run.drop (part.length + 1))
termination_by run.length
decreasing_by
  have : run ≠ [] := by assumption
  have := List.length_pos_iff.mpr this
  simp
  omega

/-- Counts the flush, which may fail. -/
def flush (s : Sink) : Except IoError Unit × Sink :=
  let flushed := { s with flushes := s.flushes + 1 }
  match s.flushFailure with
  | some cause => (.error cause, flushed)
  | none => (.ok (), flushed)

instance : ByteSink Sink where
  writeAll := writeAll
  flush := flush

/-! ## What a sink holds -/

/-- A portion is the front of the bytes offered. -/
theorem portion_prefix (s : Sink) (run : Bytes) : s.portion run <+: run := by
  unfold portion
  cases s.perCall <;> cases s.room <;> simp only
  · exact List.prefix_rfl
  · exact List.take_prefix _ _
  · exact List.take_prefix _ _
  · exact (List.take_prefix _ _).trans (List.take_prefix _ _)

/-- Bytes that are taken come last. -/
theorem contents_take (s : Sink) (part : Bytes) :
    (s.take part).contents = s.contents ++ part := by
  simp [take, contents, List.reverseAux_eq]

/-- Flushing takes no bytes. -/
theorem contents_flush (s : Sink) : s.flush.2.contents = s.contents := by
  unfold flush
  split <;> rfl

end Sink

end Interleave
