/-
# A sink that refuses

Where a sink takes only so many bytes, wherever in a record this is, the merge writes
as much of its output and then fails.  A sink that has room for the whole output makes
no difference.  The sink is flushed only at the end, after the last line of both
inputs.

* `Source.Exhausted` : all lines of both sources have been read and written;
* `flushes_of_fits`, `flushes_of_short` : when the sink is flushed;
* `truncated_merge` : the merge into a bounded sink and into an unbounded one.
-/
import Interleave.Proofs.Merge.Sources

namespace Interleave

/-- Every line is of one of the two sides. -/
theorem Line.length_eq_add (ls : List Line) :
    ls.length = (ls.filter fun l => l.side = .left).length +
      (ls.filter fun l => l.side = .right).length := by
  have others : (ls.filter fun l => !decide (l.side = .left)) =
      ls.filter fun l => l.side = .right := by
    refine List.filter_congr fun l _ => ?_
    cases l.side <;> rfl
  rw [← others, ← List.length_append]
  exact (List.filter_append_perm (fun l : Line => decide (l.side = .left)) ls).length_eq.symm

namespace Source

/-- All lines of both sources have been read without a failure, and they have been
written. -/
def Exhausted (sources : Both Source) (m : Merging Sink) : Prop :=
  ∀ side, ((sources.get side).input side).readings.map Reading.result =
      (Line.ofContent side (sources.get side).content).map (fun l => .ok (some l)) ++ [.ok none] ∧
    (m.written.filter fun l => l.side = side) = Line.ofContent side (sources.get side).content

variable {sources : Both Source} {m : Merging Sink} {s : Sink}

/-- Reading a source to its end meets no failure. -/
theorem failure?_of_readings {s : Source} {side : Side} {lines : List Line}
    (h : (s.input side).readings.map Reading.result =
      lines.map (fun l => .ok (some l)) ++ [.ok none]) :
    (s.input side).feed.failure? = none := by
  rw [Input.results_readings, Feed.results_eq] at h
  have last := (List.append_inj' h rfl).2
  cases given : (s.input side).feed.failure? with
  | none => rfl
  | some failure =>
      rw [given] at last
      cases last

/-- Sources of which all lines have been written have not failed, and their plan has
been carried out. -/
theorem Exhausted.whole (h : Exhausted sources m) :
    (plan sources).stop? = none ∧ m.written.length = (plan sources).lines.length := by
  have whole := fun side => failure?_of_readings (h side).1
  refine ⟨(stop?_plan_eq_none_iff sources).mpr whole, ?_⟩
  rw [Line.length_eq_add, Line.length_eq_add (plan sources).lines, (h .left).2, (h .right).2,
    ← given_plan_of_whole whole .left, ← given_plan_of_whole whole .right]
  rfl

/-- A plan of sources that do not fail exhausts them. -/
theorem exhausted_of_whole (whole : (plan sources).stop? = none)
    (written : m.written = (plan sources).lines) : Exhausted sources m := by
  have whole := (stop?_plan_eq_none_iff sources).mp whole
  intro side
  constructor
  · rw [Input.results_readings, Feed.results_eq, whole side, lines_feed_of_whole (whole side)]
  · rw [written]
    exact given_plan_of_whole whole side

/-- Sinks with room that fail alike when they are flushed make no difference. -/
theorem result_eq_of_fits {s' : Sink} (fits : s.Fits (plan sources).bytes.length)
    (fits' : s'.Fits (plan sources).bytes.length) (same : s.flushFailure = s'.flushFailure) :
    (merge (inputs sources) s).result = (merge (inputs sources) s').result := by
  cases stop : (plan sources).stop? with
  | none => rw [(merge_of_whole fits stop).1, (merge_of_whole fits' stop).1, same]
  | some halt => rw [(merge_of_stop fits stop).1, (merge_of_stop fits' stop).1]

/-- A sink with room is flushed once if all lines have been written, and otherwise
never. -/
theorem flushes_of_fits (fits : s.Fits (plan sources).bytes.length) (fresh : s.flushes = 0) :
    let last := (merge (inputs sources) s).last
    (Exhausted sources last ∧ last.sink.flushes = 1) ∨
      (¬ Exhausted sources last ∧ last.sink.flushes = 0) := by
  intro last
  cases stop : (plan sources).stop? with
  | none =>
      obtain ⟨-, sink, written, -⟩ := merge_of_whole fits stop
      refine Or.inl ⟨exhausted_of_whole stop written, ?_⟩
      show Sink.flushes (merge _ _).last.sink = 1
      rw [sink, fresh]
  | some halt =>
      obtain ⟨-, sink, -, -⟩ := merge_of_stop fits stop
      refine Or.inr ⟨fun all => ?_, ?_⟩
      · rw [all.whole.1] at stop
        cases stop
      · show Sink.flushes (merge _ _).last.sink = 0
        rw [sink]
        exact fresh

/-- A sink that refuses is never flushed, and not all lines have been written. -/
theorem flushes_of_short {room : Nat} (given : s.room = some room)
    (short : room < (plan sources).bytes.length) (fresh : s.flushes = 0) :
    let last := (merge (inputs sources) s).last
    ¬ Exhausted sources last ∧ last.sink.flushes = 0 := by
  intro last
  obtain ⟨-, sink, fewer, -⟩ := merge_of_short given short
  -- Had all lines been written, their number would be that of the plan.
  refine ⟨fun all => Nat.ne_of_lt fewer all.whole.2, ?_⟩
  show Sink.flushes (merge _ _).last.sink = 0
  rw [sink]
  exact fresh

/-- A flush that fails makes the merge fail. -/
theorem result_of_flush {cause : IoError} (fails : s.flushFailure = some cause)
    (fresh : s.flushes = 0) (flushed : (merge (inputs sources) s).last.sink.flushes = 1) :
    (merge (inputs sources) s).result = .error (.cannotWrite cause) := by
  by_cases fits : s.Fits (plan sources).bytes.length
  · rcases flushes_of_fits fits fresh with ⟨all, -⟩ | ⟨-, never⟩
    · rw [(merge_of_whole fits all.whole.1).1, fails]
    · rw [never] at flushed
      cases flushed
  · obtain ⟨room, given, short⟩ := Sink.exists_room_of_not_fits fits
    rw [(flushes_of_short given short fresh).2] at flushed
    cases flushed

end Source

/-- **A bounded sink and an unbounded one.**  Both are flushed alike.  The bounded one
holds as much of the output of the merge as it has room for.  If that is all, the merge
ends alike; if not, the output cannot be written, whatever else might have come later.
The sink is flushed once if all lines of both inputs have been written and otherwise
never, and a flush that fails makes the merge fail. -/
theorem truncated_merge (sources : Both Source) (limit : Nat) (perCall : Option Nat)
    (refusal flushFailure : Option IoError) :
    let ideal := merge (Source.inputs sources) { flushFailure : Sink }
    let outcome := merge (Source.inputs sources)
      { room := some limit, perCall, refusal, flushFailure : Sink }
    outcome.last.sink.contents = ideal.last.sink.contents.take limit ∧
      outcome.result =
        (if ideal.last.sink.contents.length ≤ limit then ideal.result
          else .error (.cannotWrite (refusal.getD .writeZero))) ∧
      ((Source.Exhausted sources outcome.last ∧ outcome.last.sink.flushes = 1) ∨
        (¬ Source.Exhausted sources outcome.last ∧ outcome.last.sink.flushes = 0)) ∧
      (outcome.last.sink.flushes = 1 → ∀ cause, flushFailure = some cause →
        outcome.result = .error (.cannotWrite cause)) := by
  intro ideal outcome
  have whole : ideal.last.sink.contents = (Source.plan sources).bytes :=
    Source.contents_of_fits (Sink.fits_of_room_eq_none rfl _)
  have flush : outcome.last.sink.flushes = 1 → ∀ cause, flushFailure = some cause →
      outcome.result = .error (.cannotWrite cause) := by
    intro flushed cause fails
    exact Source.result_of_flush fails rfl flushed
  rw [whole]
  by_cases within : (Source.plan sources).bytes.length ≤ limit
  · have fits : ({ room := some limit, perCall, refusal, flushFailure : Sink }).Fits
        (Source.plan sources).bytes.length := by
      intro room given
      cases given
      exact within
    refine ⟨?_, ?_, Source.flushes_of_fits fits rfl, flush⟩
    · rw [List.take_of_length_le within]
      exact Source.contents_of_fits fits
    · rw [if_pos within]
      exact Source.result_eq_of_fits fits (Sink.fits_of_room_eq_none rfl _) rfl
  · have short : limit < (Source.plan sources).bytes.length := Nat.lt_of_not_le within
    obtain ⟨result, sink, -, -⟩ := Source.merge_of_short
      (s := { room := some limit, perCall, refusal, flushFailure }) rfl short
    refine ⟨?_, ?_, Or.inr (Source.flushes_of_short rfl short rfl), flush⟩
    · show Sink.contents (merge _ _).last.sink = _
      rw [sink]
      exact Sink.contents_take _ _
    · rw [if_neg within]
      exact result

end Interleave
