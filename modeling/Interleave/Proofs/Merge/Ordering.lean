/-
# Output in order

The records of a merge come out in order of time if and only if no input goes back in
time.  So the counts of the two inputs say exactly whether the output is in order, and
what goes back within one input is not hidden by lines of the other.

* `pairwise_lines_iff` : the merge of two sources is in order if both sources are, and
  only then;
* `ordered_merge_iff` : it is in order if nothing has been counted.
-/
import Interleave.Proofs.Merge.Draining
import Interleave.Proofs.Merge.Sources

namespace Interleave

/-- **Order is kept on both sides.**  The lines of two sources that do not fail are
merged in order if the lines of each source are in order, and only then. -/
theorem Source.pairwise_lines_iff {sources : Both Source}
    (whole : ∀ side, ((sources.get side).input side).feed.failure? = none) :
    ((plan sources).lines.Pairwise fun a b => a.notLater b = true) ↔
      ∀ side, (Line.ofContent side (sources.get side).content).Pairwise fun a b =>
        a.notLater b = true := by
  constructor
  · -- The lines of one side stand in the merge in their own order.
    intro ordered side
    rw [← given_plan_of_whole whole side, Plan.given]
    exact ordered.filter _
  · intro ordered
    rw [lines_plan_of_whole whole]
    exact List.pairwise_merge Line.orders_notLater.trans Line.orders_notLater.total _ _
      (ordered .left) (ordered .right)

/-- **When the output is in order.**  A merge that succeeds writes the records of all
lines of both inputs, each input's in their order.  The keys of the records never go
back, from the first record to the last, if and only if neither input has counted a
line that goes back in time. -/
theorem ordered_merge_iff (sources : Both Source) (s : Sink) (tally : Tally)
    (succeeds : (merge (Source.inputs sources) s).result = .ok tally) :
    let last := (merge (Source.inputs sources) s).last
    last.sink.contents = s.contents ++ (last.written.map Line.record).flatten ∧
      (∀ side, (last.written.filter fun l => l.side = side) =
        Line.ofContent side (sources.get side).content) ∧
      ((last.written.Pairwise fun a b => Key.notLater a.key b.key = true) ↔
        ∀ side, (last.inputs.get side).descents = 0) := by
  intro last
  obtain ⟨whole, written, contents⟩ := Source.of_result_ok succeeds
  have written : last.written = (Source.plan sources).lines := written
  refine ⟨?_, ?_, ?_⟩
  · rw [written]
    exact contents
  · intro side
    rw [written]
    exact Source.given_plan_of_whole whole side
  · rw [written]
    refine (Source.pairwise_lines_iff whole).trans (forall_congr' fun side => ?_)
    -- Nothing comes before the first line, so only the lines among themselves matter.
    have counted : (last.inputs.get side).descents =
        Line.descents none (Line.ofContent side (sources.get side).content) :=
      Source.descents_merge succeeds whole side
    rw [counted, Line.descents_eq_zero_iff]
    exact (and_iff_right fun l _ => Key.none_notLater l.key).symm

/-- A left line goes back in time after a blank one.  A right line is written before the
three, and the output is out of order all the same. -/
theorem ordered_merge_iff_back_after_blank :
    let left := Ascii.encode "2024-01-03T00:00:00Z c\n \n2024-01-01T00:00:00Z a\n"
    let right := Ascii.encode "2024-01-02T00:00:00Z b\n"
    let sources : Both Source :=
      ⟨{ path := "l.log", content := left }, { path := "r.log", content := right }⟩
    let outcome := merge (Source.inputs sources) ({} : Sink)
    (∃ tally, outcome.result = .ok tally) ∧
      (outcome.last.inputs.get .left).descents = 1 ∧
      (outcome.last.inputs.get .right).descents = 0 ∧
      ¬ outcome.last.written.Pairwise fun a b => Key.notLater a.key b.key = true := by
  intro left right sources outcome
  have whole : ∀ side, ((sources.get side).input side).feed.failure? = none :=
    Source.whole_of_dated (by rintro (_ | _) <;> rfl) (by rintro (_ | _) <;> rfl)
      (by rintro (_ | _) <;> decide +kernel)
  have succeeds := (Source.merge_of_whole (s := {}) (Sink.fits_of_room_eq_none rfl _)
    ((Source.stop?_plan_eq_none_iff sources).mpr whole)).1
  have lefts : (outcome.last.inputs.get .left).descents = 1 :=
    (Source.descents_merge succeeds whole .left).trans (by decide +kernel)
  have rights : (outcome.last.inputs.get .right).descents = 0 :=
    (Source.descents_merge succeeds whole .right).trans (by decide +kernel)
  obtain ⟨-, -, ordered⟩ := ordered_merge_iff sources {} _ succeeds
  refine ⟨⟨_, succeeds⟩, lefts, rights, fun keys => ?_⟩
  have none : (outcome.last.inputs.get .left).descents = 0 := ordered.mp keys .left
  rw [lefts] at none
  exact Nat.one_ne_zero none

end Interleave
