/-
# Logs that go on in further logs

A log that is closed at some point goes on in a further one.  Where the logs of both
sides are closed before the further ones begin, it makes no difference to a merge
whether it is given each log whole or first the one part of both and then the other.

* `Source.Continued` : two logs, cut at the same point in time;
* `exists_rows` : the rows of the whole logs are those of the parts;
* `continued_merge` : the merge of the whole logs and the merges of the parts.
-/
import Interleave.Proofs.Merge.Draining
import Interleave.Proofs.Merge.Sources

namespace Interleave

/-- Two logs, each of which is an early part and a late one after it.  What is late on
either side is later than what is early on either side; within the parts the lines
need not be in order. -/
structure Source.Continued (early late joined : Both Source) : Prop where
  plain_early : ∀ side, (early.get side).Plain
  plain_late : ∀ side, (late.get side).Plain
  plain_joined : ∀ side, (joined.get side).Plain
  content : ∀ side, (joined.get side).content = (early.get side).content ++ (late.get side).content
  /-- The early part is empty or ends in a line end. -/
  closed : ∀ side, (early.get side).content = [] ∨
    (early.get side).content.getLast? = some newline
  /-- The late part does not begin with a blank line. -/
  fresh : ∀ side, Line.Fresh (late.get side).content.lines
  dated_early : ∀ side, ∀ raw ∈ (early.get side).content.lines, Line.Dated raw
  dated_late : ∀ side, ∀ raw ∈ (late.get side).content.lines, Line.Dated raw
  earlier : ∀ side side', ∀ instant ∈ Line.timestamps (early.get side).content.lines,
    ∀ instant' ∈ Line.timestamps (late.get side').content.lines, instant < instant'

namespace Source

/-- A merge with room, of sources that do not fail, into a sink that nothing has been
written to. -/
theorem merge_of_unbounded {sources : Both Source}
    (whole : ∀ side, ((sources.get side).input side).feed.failure? = none)
    (perCall : Option Nat) :
    let outcome := merge (inputs sources) { perCall : Sink }
    outcome.result = .ok ((plan sources).tally {}) ∧
      outcome.last.sink.contents = (plan sources).bytes ∧
      ∀ side, (outcome.last.inputs.get side).descents =
        Line.descents none (Line.ofContent side (sources.get side).content) := by
  intro outcome
  have fits : ({ perCall : Sink }).Fits (plan sources).bytes.length :=
    Sink.fits_of_room_eq_none rfl _
  have result : outcome.result = .ok ((plan sources).tally {}) :=
    (merge_of_whole fits ((stop?_plan_eq_none_iff sources).mpr whole)).1
  exact ⟨result, contents_of_fits fits, descents_merge result whole⟩

/-! ## The lines of the parts -/

namespace Continued

variable {early late joined : Both Source} (h : Continued early late joined)

include h

/-- The early part lacks no line end. -/
theorem ended (side : Side) : (early.get side).content.ended = (early.get side).content := by
  rw [Bytes.ended, if_pos (h.closed side)]

/-- The lines of the whole log are those of its parts. -/
theorem lines_joined (side : Side) :
    (joined.get side).content.lines =
      (early.get side).content.lines ++ (late.get side).content.lines := by
  rw [h.content, Bytes.lines_append_of_ended (h.ended side)]

/-- None of the merges meets a failure. -/
theorem whole :
    (∀ side, ((early.get side).input side).feed.failure? = none) ∧
      (∀ side, ((late.get side).input side).feed.failure? = none) ∧
      ∀ side, ((joined.get side).input side).feed.failure? = none := by
  refine ⟨whole_of_dated (fun side => (h.plain_early side).limitless)
      (fun side => (h.plain_early side).faultless) h.dated_early,
    whole_of_dated (fun side => (h.plain_late side).limitless)
      (fun side => (h.plain_late side).faultless) h.dated_late,
    whole_of_dated (fun side => (h.plain_joined side).limitless)
      (fun side => (h.plain_joined side).faultless) ?_⟩
  intro side raw member
  rw [h.lines_joined, List.mem_append] at member
  exact member.elim (h.dated_early side raw) (h.dated_late side raw)

/-- Early lines are earlier than late ones, also those that are blank. -/
theorem not_notLater {side side' : Side} {number : Nat} {before : Key} {a b : Line}
    (inEarly : a ∈ Line.ofContent side (early.get side).content)
    (inLate : b ∈ Line.numbered side' number before (late.get side').content.lines) :
    ¬ b.notLater a = true := by
  obtain ⟨instant', inLate', key'⟩ := (h.fresh side').key_of_mem (h.dated_late side') inLate
  rw [Line.notLater, key']
  rcases Line.key_of_mem_numbered inEarly with key | ⟨instant, inEarly', key⟩
  · rw [key]
    exact Bool.false_ne_true
  · rw [key]
    show ¬ decide (instant' ≤ instant) = true
    rw [decide_eq_true_iff, Instant.not_le]
    exact h.earlier side side' instant inEarly' instant' inLate'

/-- The lines of a side are its early lines and then its late ones, which have numbers of
their own only. -/
theorem exists_lines (side : Side) :
    ∃ ls, Line.ofContent side (joined.get side).content =
        Line.ofContent side (early.get side).content ++ ls ∧
      ls.map Line.unnumbered =
        (Line.ofContent side (late.get side).content).map Line.unnumbered ∧
      ∀ b ∈ ls, ∀ side', ∀ a ∈ Line.ofContent side' (early.get side').content,
        ¬ b.notLater a = true := by
  obtain ⟨number, before, lines, same⟩ :=
    Line.ofContent_append (h.ended side) (h.fresh side) (h.dated_late side) side
  refine ⟨_, ?_, same, fun b inLate side' a inEarly => h.not_notLater inEarly inLate⟩
  rw [h.content, lines]

/-! ## The merges -/

/-- **The rows of the whole logs** are those of the early parts and then those of the
late parts, but for the numbers of the lines. -/
theorem exists_rows :
    ∃ es, (plan joined).rows = (plan early).rows ++ es ∧
      es.map Row.unnumbered = (plan late).rows.map Row.unnumbered := by
  obtain ⟨wholeEarly, wholeLate, wholeJoined⟩ := h.whole
  obtain ⟨ls, lefts, sameLefts, laterLefts⟩ := h.exists_lines .left
  obtain ⟨rs, rights, sameRights, laterRights⟩ := h.exists_lines .right
  refine ⟨Row.ofLines ls rs, ?_, ?_⟩
  · rw [rows_plan_of_whole wholeJoined, rows_plan_of_whole wholeEarly, lefts, rights]
    refine Row.ofLines_append fun a inEarly b inLate => ?_
    rcases List.mem_append.mp inLate with inLate | inLate
    · rcases List.mem_append.mp inEarly with inEarly | inEarly
      · exact laterLefts b inLate .left a inEarly
      · exact laterLefts b inLate .right a inEarly
    · rcases List.mem_append.mp inEarly with inEarly | inEarly
      · exact laterRights b inLate .left a inEarly
      · exact laterRights b inLate .right a inEarly
  · rw [rows_plan_of_whole wholeLate, Row.map_unnumbered_ofLines,
      Row.map_unnumbered_ofLines, sameLefts, sameRights]

/-- The bytes of the parts are those of the whole logs. -/
theorem bytes_plan : (plan joined).bytes = (plan early).bytes ++ (plan late).bytes := by
  obtain ⟨es, rows, same⟩ := h.exists_rows
  rw [← Plan.bytes_rows, ← Plan.bytes_rows, ← Plan.bytes_rows, rows,
    Row.bytes_append, ← Row.bytes_map_unnumbered es, same, Row.bytes_map_unnumbered]

/-- The counts of the parts add up to those of the whole logs. -/
theorem tally_plan : (plan joined).tally {} = (plan early).tally {} + (plan late).tally {} := by
  obtain ⟨es, rows, same⟩ := h.exists_rows
  rw [Plan.tally_eq_after, Plan.tally_eq_after, Plan.tally_eq_after, rows,
    Tally.after_append, ← Tally.after_map_unnumbered _ es, same, Tally.after_map_unnumbered]

/-- Of the whole logs as many lines go back in time as of the parts. -/
theorem descents_ofContent (side : Side) :
    Line.descents none (Line.ofContent side (joined.get side).content) =
      Line.descents none (Line.ofContent side (early.get side).content) +
        Line.descents none (Line.ofContent side (late.get side).content) := by
  obtain ⟨ls, lines, same, later⟩ := h.exists_lines side
  rw [lines, Line.descents_append_of_notLater, ← Line.descents_map_unnumbered none ls, same,
    Line.descents_map_unnumbered]
  intro l inEarly l' inLate
  exact (Key.notLater_total l.key l'.key).resolve_right (later l' inLate side l inEarly)

end Continued

end Source

/-- **Logs that go on in further logs.**  The merge of the whole logs writes what the
merge of the early parts writes and then what the merge of the late parts writes.  Each
of its counts is the sum of theirs, and so is the number of lines of each side that go
back in time.  All three succeed. -/
theorem continued_merge (early late joined : Both Source)
    (continued : Source.Continued early late joined) (perCall : Option Nat) :
    let one := merge (Source.inputs early) { perCall : Sink }
    let two := merge (Source.inputs late) { perCall : Sink }
    let both := merge (Source.inputs joined) { perCall : Sink }
    ∃ t t', one.result = .ok t ∧ two.result = .ok t' ∧ both.result = .ok (t + t') ∧
      both.last.sink.contents = one.last.sink.contents ++ two.last.sink.contents ∧
      ∀ side, (both.last.inputs.get side).descents =
        (one.last.inputs.get side).descents + (two.last.inputs.get side).descents := by
  intro one two both
  obtain ⟨wholeEarly, wholeLate, wholeJoined⟩ := continued.whole
  obtain ⟨result, contents, descents⟩ := Source.merge_of_unbounded wholeEarly perCall
  obtain ⟨result', contents', descents'⟩ := Source.merge_of_unbounded wholeLate perCall
  obtain ⟨sum, joined_contents, joined_descents⟩ :=
    Source.merge_of_unbounded wholeJoined perCall
  refine ⟨_, _, result, result', ?_, ?_, fun side => ?_⟩
  · rw [← continued.tally_plan]
    exact sum
  · rw [contents, contents', joined_contents, continued.bytes_plan]
  · rw [descents, descents', joined_descents, continued.descents_ofContent]

/-- The early left log goes back in time, the early right one begins with a blank line,
and in either part lines of both sides tie. -/
theorem continued_merge_back_in_early :
    let early : Both Source :=
      ⟨{ path := "l.1.log", content :=
          Ascii.encode "2024-01-02T00:00:00Z b\n \n2024-01-01T00:00:00Z a\n" },
        { path := "r.1.log", content := Ascii.encode "\n2024-01-02T00:00:00Z x\n" }⟩
    let late : Both Source :=
      ⟨{ path := "l.2.log", content := Ascii.encode "2024-02-01T00:00:00Z c\n" },
        { path := "r.2.log", content := Ascii.encode "2024-02-01T00:00:00Z y" }⟩
    let joined : Both Source :=
      ⟨{ path := "l.log", content := early.left.content ++ late.left.content, chunk := some 7 },
        { path := "r.log", content := early.right.content ++ late.right.content }⟩
    let one := merge (Source.inputs early) ({} : Sink)
    let two := merge (Source.inputs late) ({} : Sink)
    let both := merge (Source.inputs joined) ({} : Sink)
    Source.Continued early late joined ∧
      one.result = .ok ⟨⟨3, 2⟩, 2, 2⟩ ∧ two.result = .ok ⟨⟨1, 1⟩, 0, 1⟩ ∧
      both.result = .ok ⟨⟨4, 3⟩, 2, 3⟩ ∧
      both.last.sink.contents = one.last.sink.contents ++ two.last.sink.contents ∧
      (both.last.inputs.get .left).descents = 1 := by
  intro early late joined one two both
  have continued : Source.Continued early late joined :=
    { plain_early := by rintro (_ | _) <;> exact ⟨rfl, rfl⟩
      plain_late := by rintro (_ | _) <;> exact ⟨rfl, rfl⟩
      plain_joined := by rintro (_ | _) <;> exact ⟨rfl, rfl⟩
      content := by rintro (_ | _) <;> rfl
      closed := by rintro (_ | _) <;> exact Or.inr (by decide +kernel)
      fresh := by rintro (_ | _) <;> decide +kernel
      dated_early := by rintro (_ | _) <;> decide +kernel
      dated_late := by rintro (_ | _) <;> decide +kernel
      earlier := by rintro (_ | _) (_ | _) <;> decide +kernel }
  have ties : (Source.plan early).tally {} = ⟨⟨3, 2⟩, 2, 2⟩ := by
    rw [Plan.tally_eq_after, Source.rows_plan_of_whole continued.whole.1]
    decide +kernel
  have ties' : (Source.plan late).tally {} = ⟨⟨1, 1⟩, 0, 1⟩ := by
    rw [Plan.tally_eq_after, Source.rows_plan_of_whole continued.whole.2.1]
    decide +kernel
  obtain ⟨result, -, descents⟩ := Source.merge_of_unbounded continued.whole.1 none
  obtain ⟨result', -, descents'⟩ := Source.merge_of_unbounded continued.whole.2.1 none
  rw [ties] at result
  rw [ties'] at result'
  obtain ⟨t, t', given, given', sum, contents, counted⟩ :=
    continued_merge early late joined continued none
  rw [result, Except.ok.injEq] at given
  rw [result', Except.ok.injEq] at given'
  subst given given'
  refine ⟨continued, result, result', sum, contents, ?_⟩
  refine (counted .left).trans ?_
  rw [descents, descents']
  decide +kernel

end Interleave
