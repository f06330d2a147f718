/-
# The merge of two sources

A merge carries out the plan of its two sources.  Into a sink with room for all of it
the whole plan goes, and otherwise as much as there is room for.

* `Source.plan` : the plan of the merge of two sources;
* `merge_of_whole`, `merge_of_stop` : what comes of it where there is room;
* `merge_of_short` : what comes of it where there is not;
* `result_eq_ok_iff` : when a merge succeeds;
* `of_result_ok` : a merge that succeeds has written the plan of sources that do not
  fail.
-/
import Interleave.Proofs.Merge.Rows

namespace Interleave

namespace Source

/-- What two sources give. -/
def feeds (sources : Both Source) : Both Feed := (inputs sources).map Input.feed

@[simp] theorem get_feeds (sources : Both Source) (side : Side) :
    (feeds sources).get side = ((sources.get side).input side).feed := by
  rw [feeds, Both.get_map, get_inputs]

/-- The lines that are read of a source are of its side. -/
theorem sided_feeds (sources : Both Source) : Plan.Sided (feeds sources) := by
  intro side l member
  rw [get_feeds] at member
  exact side_of_mem_feed member

/-- The plan of the merge of two sources. -/
def plan (sources : Both Source) : Plan := Plan.ofFeeds (feeds sources)

/-- A plan comes to its end if neither source fails. -/
theorem stop?_plan_eq_none_iff (sources : Both Source) :
    (plan sources).stop? = none ↔
      ∀ side, ((sources.get side).input side).feed.failure? = none := by
  rw [plan, Plan.stop?_eq_none_iff]
  exact forall_congr' fun side => by rw [get_feeds]

/-- The first lines of each side are written. -/
theorem given_plan_isPrefix (sources : Both Source) (side : Side) :
    (plan sources).given side <+: Line.ofContent side (sources.get side).content := by
  obtain ⟨others, written, -⟩ := Plan.lines_eq_given_append (sided_feeds sources) side
  obtain ⟨others', read, -⟩ := (sources.get side).lines_feed side
  rw [read, ← get_feeds, written, ← plan, List.append_assoc]
  exact List.prefix_append _ _

/-- Of sources that do not fail all lines are written. -/
theorem given_plan_of_whole {sources : Both Source}
    (whole : ∀ side, ((sources.get side).input side).feed.failure? = none) (side : Side) :
    (plan sources).given side = Line.ofContent side (sources.get side).content := by
  have stop := (stop?_plan_eq_none_iff sources).mpr whole
  obtain ⟨others, lines, all⟩ := Plan.lines_eq_given_append (sided_feeds sources) side
  have none : others = [] := all fun failure => by
    rw [← plan, stop]
    exact nofun
  rw [get_feeds, lines_feed_of_whole (whole side), none, List.append_nil] at lines
  exact lines.symm

/-- The rows of sources that do not fail. -/
theorem rows_plan_of_whole {sources : Both Source}
    (whole : ∀ side, ((sources.get side).input side).feed.failure? = none) :
    (plan sources).rows =
      Row.ofLines (Line.ofContent .left (sources.get .left).content)
        (Line.ofContent .right (sources.get .right).content) := by
  have merged := Plan.rows_of_whole (whole .left) (whole .right)
  rw [lines_feed_of_whole (whole .left), lines_feed_of_whole (whole .right),
    ← get_feeds sources .left, ← get_feeds sources .right] at merged
  exact merged

/-- The lines of sources that do not fail, merged by their keys. -/
theorem lines_plan_of_whole {sources : Both Source}
    (whole : ∀ side, ((sources.get side).input side).feed.failure? = none) :
    (plan sources).lines =
      (Line.ofContent .left (sources.get .left).content).merge
        (Line.ofContent .right (sources.get .right).content) Line.notLater := by
  rw [← Plan.map_line_rows, rows_plan_of_whole whole, Row.map_line_ofLines]

/-- Sources without faults do not fail if each of their lines is blank or begins with a
timestamp, and none is too long. -/
theorem whole_of_dated {sources : Both Source}
    (limitless : ∀ side, (sources.get side).limit = none)
    (faultless : ∀ side, (sources.get side).faults = [])
    (dated : ∀ side, ∀ raw ∈ (sources.get side).content.lines, Line.Dated raw) (side : Side) :
    ((sources.get side).input side).feed.failure? = none := by
  refine failure?_feed_of_faultless side (faultless side) fun raw member => ?_
  refine ⟨?_, dated side raw member⟩
  rw [limitless side]
  exact nofun

/-- A merge that succeeds, whatever it writes to, is one of sources that do not fail. -/
theorem whole_of_result_ok {σ : Type} [ByteSink σ] {sources : Both Source} {sink : σ}
    {tally : Tally} (h : (merge (inputs sources) sink).result = .ok tally) (side : Side) :
    ((sources.get side).input side).feed.failure? = none := by
  have performed := congrArg Performed.result (performed_merge (inputs sources) sink)
  have stop := Plan.stop?_of_result_ok (performed.symm.trans h)
  exact (stop?_plan_eq_none_iff sources).mp stop side

/-! ## Into a sink -/

variable {sources : Both Source} {s : Sink}

/-- A merge that has room carries out the whole plan. -/
theorem performed_of_fits (fits : s.Fits (plan sources).bytes.length) :
    (merge (inputs sources) s).performed =
      (match (plan sources).stop? with
        | none => Plan.close (s.take (plan sources).bytes) ((plan sources).tally {})
        | some (side, failure) =>
            ⟨.error failure, s.take (plan sources).bytes, [], some side⟩).after
        (plan sources).lines := by
  rw [performed_merge]
  exact Plan.perform_of_fits fits

/-- **A merge with room whose sources do not fail.**  All lines are written, and then
the sink is flushed. -/
theorem merge_of_whole (fits : s.Fits (plan sources).bytes.length)
    (whole : (plan sources).stop? = none) :
    (merge (inputs sources) s).result =
        (match s.flushFailure with
          | none => .ok ((plan sources).tally {})
          | some cause => .error (.cannotWrite cause)) ∧
      (merge (inputs sources) s).last.sink =
        { s.take (plan sources).bytes with flushes := s.flushes + 1 } ∧
      (merge (inputs sources) s).last.written = (plan sources).lines ∧
      (merge (inputs sources) s).last.failed = none := by
  have performed := performed_of_fits fits
  rw [whole, Plan.close_sink] at performed
  obtain ⟨result, sink, written, failed⟩ := Outcome.of_performed performed
  exact ⟨result, sink, written.trans (List.append_nil _), failed⟩

/-- **A merge with room that meets a failure.**  The lines before it are written, and
the sink is not flushed. -/
theorem merge_of_stop (fits : s.Fits (plan sources).bytes.length) {side : Side}
    {failure : Failure} (stop : (plan sources).stop? = some (side, failure)) :
    (merge (inputs sources) s).result = .error failure ∧
      (merge (inputs sources) s).last.sink = s.take (plan sources).bytes ∧
      (merge (inputs sources) s).last.written = (plan sources).lines ∧
      (merge (inputs sources) s).last.failed = some side := by
  have performed := performed_of_fits fits
  rw [stop] at performed
  obtain ⟨result, sink, written, failed⟩ := Outcome.of_performed performed
  exact ⟨result, sink, written.trans (List.append_nil _), failed⟩

/-- A merge that has room writes all that is planned. -/
theorem contents_of_fits (fits : s.Fits (plan sources).bytes.length) :
    (merge (inputs sources) s).last.sink.contents = s.contents ++ (plan sources).bytes := by
  cases stop : (plan sources).stop? with
  | none =>
      rw [(merge_of_whole fits stop).2.1]
      exact Sink.contents_take s _
  | some halt =>
      rw [(merge_of_stop fits stop).2.1]
      exact Sink.contents_take s _

/-- **A merge without enough room.**  As many bytes are written as there is room for. -/
theorem merge_of_short {room : Nat} (given : s.room = some room)
    (short : room < (plan sources).bytes.length) :
    (merge (inputs sources) s).result = .error (.cannotWrite s.refuse) ∧
      (merge (inputs sources) s).last.sink = s.take ((plan sources).bytes.take room) ∧
      (merge (inputs sources) s).last.written.length < (plan sources).lines.length ∧
      (merge (inputs sources) s).last.failed = none := by
  have performed := Plan.perform_of_short (t := {}) given short
  rw [plan, feeds, ← performed_merge] at performed
  exact performed

/-- **When a merge succeeds.**  There is room for all of its plan, neither source fails,
and neither does the flushing of the sink. -/
theorem result_eq_ok_iff {tally : Tally} :
    (merge (inputs sources) s).result = .ok tally ↔
      s.Fits (plan sources).bytes.length ∧ (plan sources).stop? = none ∧
        s.flushFailure = none ∧ (plan sources).tally {} = tally := by
  constructor
  · intro succeeds
    by_cases fits : s.Fits (plan sources).bytes.length
    · cases stop : (plan sources).stop? with
      | none =>
          rw [(merge_of_whole fits stop).1] at succeeds
          cases flush : s.flushFailure with
          | none =>
              rw [flush] at succeeds
              exact ⟨fits, rfl, rfl, Except.ok.inj succeeds⟩
          | some cause =>
              rw [flush] at succeeds
              cases succeeds
      | some halt =>
          rw [(merge_of_stop fits stop).1] at succeeds
          cases succeeds
    · obtain ⟨room, given, short⟩ := Sink.exists_room_of_not_fits fits
      rw [(merge_of_short given short).1] at succeeds
      cases succeeds
  · rintro ⟨fits, stop, flush, rfl⟩
    rw [(merge_of_whole fits stop).1, flush]

/-- **A merge that succeeds** has written the plan of sources that do not fail. -/
theorem of_result_ok {tally : Tally} (h : (merge (inputs sources) s).result = .ok tally) :
    (∀ side, ((sources.get side).input side).feed.failure? = none) ∧
      (merge (inputs sources) s).last.written = (plan sources).lines ∧
      (merge (inputs sources) s).last.sink.contents = s.contents ++ (plan sources).bytes := by
  obtain ⟨fits, stop, -, -⟩ := result_eq_ok_iff.mp h
  exact ⟨whole_of_result_ok h, (merge_of_whole fits stop).2.2.1, contents_of_fits fits⟩

end Source

end Interleave
