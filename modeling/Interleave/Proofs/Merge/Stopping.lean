/-
# A line that cannot be taken

A merge ends at the first line that an input cannot give.  What was written before
stays written: all earlier lines of that input, the last of them last, and whole lines
of the other one.

* `Source.plan_first` : the plan with the failing source cut off goes at least as far;
* `stopped_merge` : what is left of a merge that meets a failure of an input.
-/
import Interleave.Proofs.Merge.Sources

namespace Interleave

namespace Source

/-- A plan that stops does so at the failure of a source. -/
theorem failure?_of_stop?_plan {sources : Both Source} {side : Side} {failure : Failure}
    (stop : (plan sources).stop? = some (side, failure)) :
    ((sources.get side).input side).feed.failure? = some failure := by
  rw [← get_feeds]
  exact Plan.failure?_of_stop? stop

/-- Of the source that stops a plan all lines are written that can be read. -/
theorem given_plan_of_stop {sources : Both Source} {side : Side} {failure : Failure}
    (stop : (plan sources).stop? = some (side, failure)) :
    (plan sources).given side = ((sources.get side).input side).feed.lines := by
  obtain ⟨others, lines, all⟩ := Plan.lines_eq_given_append (sided_feeds sources) side
  have none : others = [] := by
    refine all fun failure' other => ?_
    rw [← plan, stop] at other
    cases side <;> cases other
  rw [get_feeds, none, List.append_nil] at lines
  exact lines.symm

/-- **Cutting the failing source off** takes no line away from the plan. -/
theorem plan_first (sources : Both Source) (side : Side) :
    (plan sources).bytes <+:
      (plan (sources.set side ((sources.get side).first
        ((sources.get side).input side).feed.lines.length))).bytes := by
  have mended : feeds (sources.set side ((sources.get side).first
      ((sources.get side).input side).feed.lines.length)) =
      (feeds sources).set side ((feeds sources).get side).mend := by
    cases side
    · exact congrArg (Both.mk · _) (feed_first sources.left .left)
    · exact congrArg (Both.mk _) (feed_first sources.right .right)
  -- One feed is mended and the other is left as it is.
  have lines : (plan sources).lines <+: (Plan.ofFeeds ((feeds sources).set side
      ((feeds sources).get side).mend)).lines := by
    cases side
    · exact Plan.lines_prefix_of_shortens (Feed.shortens_mend _) (.refl _)
    · exact Plan.lines_prefix_of_shortens (.refl _) (Feed.shortens_mend _)
  rw [Plan.bytes, Plan.bytes, plan, plan, mended]
  obtain ⟨more, given⟩ := lines.map Line.record
  refine ⟨more.flatten, ?_⟩
  rw [← List.flatten_append]
  exact congrArg List.flatten given

end Source

/-- **A merge that meets a failure of an input.**  Into a sink that takes everything no
other failure can be met.  It is the one that the input fails with when it is read on
its own, after its first `n` lines.  Only whole records are written, among them those
of the `n` lines, of which the last is the last record.  With the input cut off after
the `n` lines the merge writes all of this, and maybe more.  Nothing is flushed. -/
theorem stopped_merge (sources : Both Source) (perCall : Option Nat) (failure : Failure)
    (fails : (merge (Source.inputs sources) { perCall : Sink }).result = .error failure) :
    let last := (merge (Source.inputs sources) { perCall : Sink }).last
    ∃ side n, last.failed = some side ∧
      failure.place? = some ((sources.get side).path, n + 1) ∧
      let lines := (Line.ofContent side (sources.get side).content).take n
      lines.length = n ∧
        ((sources.get side).input side).readings.map Reading.result =
          lines.map (fun l => .ok (some l)) ++ [.error failure] ∧
        last.sink.contents = (last.written.map Line.record).flatten ∧
        (last.written.filter fun l => l.side = side) = lines ∧
        last.written.getLast? = lines.getLast? ∧
        last.sink.contents <+:
          (merge (Source.inputs (sources.set side ((sources.get side).first n)))
            { perCall : Sink }).last.sink.contents ∧
        last.sink.flushes = 0 := by
  intro last
  have fits : ∀ n, ({ perCall : Sink }).Fits n := Sink.fits_of_room_eq_none rfl
  -- Without a failure of an input the merge would succeed, since the sink does not fail.
  cases stop : (Source.plan sources).stop? with
  | none =>
      rw [(Source.merge_of_whole (fits _) stop).1] at fails
      cases fails
  | some halt =>
      obtain ⟨side, failure'⟩ := halt
      obtain ⟨result, sink, written, failed⟩ := Source.merge_of_stop (fits _) stop
      rw [fails, Except.error.injEq] at result
      subst result
      have own := Source.failure?_of_stop?_plan stop
      obtain ⟨others, content, -⟩ := (sources.get side).lines_feed side
      have lines : (Line.ofContent side (sources.get side).content).take
          ((sources.get side).input side).feed.lines.length =
          ((sources.get side).input side).feed.lines := by
        rw [content, List.take_left]
      have output : last.sink.contents = (Source.plan sources).bytes :=
        Source.contents_of_fits (fits _)
      refine ⟨side, _, failed, Source.place?_of_failure?_feed own, ?_⟩
      rw [lines]
      refine ⟨rfl, ?_, ?_, ?_, ?_, ?_, ?_⟩
      · rw [Input.results_readings, Feed.results_eq, own]
      · rw [output, written]
        rfl
      · rw [written]
        exact Source.given_plan_of_stop stop
      · rw [written, ← Source.get_feeds]
        exact Plan.getLast?_of_stop? stop
      · rw [output, Source.contents_of_fits (fits _)]
        exact Source.plan_first sources side
      · show Sink.flushes (merge _ _).last.sink = 0
        rw [sink]
        rfl

/-- The left line before the failure is written, and the right line that waits is not. -/
theorem stopped_merge_at_second_line :
    let left := Ascii.encode "2024-01-01T00:00:00Z a\nb c\n"
    let right := Ascii.encode "2024-01-02T00:00:00Z x\n"
    let sources : Both Source :=
      ⟨{ path := "l.log", content := left }, { path := "r.log", content := right }⟩
    let outcome := merge (Source.inputs sources) ({} : Sink)
    outcome.result = .error (.notTimestamped "l.log" 2 "b") ∧
      outcome.last.failed = some .left ∧
      (outcome.last.written.filter fun l => l.side = .left) =
        (Line.ofContent .left left).take 1 ∧
      outcome.last.sink.flushes = 0 := by
  intro left right sources outcome
  let a : Line := ⟨.left, 1, some ⟨1704067200, 0, by decide⟩,
    Ascii.encode "2024-01-01T00:00:00Z a\n", false⟩
  let x : Line := ⟨.right, 1, some ⟨1704153600, 0, by decide⟩,
    Ascii.encode "2024-01-02T00:00:00Z x\n", false⟩
  have first : (sources.left.input .left).next.result = .ok (some a) := by
    with_unfolding_all rfl
  have second : (sources.left.input .left).next.input.next.result =
      .error (.notTimestamped "l.log" 2 "b") := by
    with_unfolding_all rfl
  have other : (sources.right.input .right).next.result = .ok (some x) := by
    with_unfolding_all rfl
  have stop : (Source.plan sources).stop? =
      some (.left, .notTimestamped "l.log" 2 "b") := by
    show ((sources.left.input .left).feed.plan (sources.right.input .right).feed).stop? = _
    rw [Input.feed_of_line first, Input.feed_of_error second, Input.feed_of_line other,
      Feed.plan, if_pos (by decide +kernel), Feed.plan]
    rfl
  have fails := (Source.merge_of_stop (s := {}) (Sink.fits_of_room_eq_none rfl _) stop).1
  obtain ⟨side, n, failed, place, -, -, -, own, -, -, flushes⟩ :=
    stopped_merge sources none _ fails
  obtain ⟨path, line⟩ := Prod.mk.inj (Option.some.inj place)
  cases side with
  | left =>
      obtain rfl : n = 1 := Nat.succ.inj line.symm
      exact ⟨fails, failed, own, flushes⟩
  | right =>
      have path : "l.log" = "r.log" := path
      exact absurd path (by decide)

end Interleave
