/-
# Blank lines stay where they belong

A blank line says nothing about time.  It belongs to the line before it in its input,
and a merge writes it right after that line, whether the inputs are in order or not.
The blank lines at the beginning of an input belong to nothing, and come before
everything else.

* `Ranked.infix_ofLines` : two lines of one key that follow one another have one rank;
* `infix_lines_of_white` : a blank line follows the line before it;
* `leading_isPrefix` : the blank lines at the beginning come first;
* `attached_merge` : where a merge that succeeds writes the blank lines.
-/
import Interleave.Proofs.Log.BlankLines
import Interleave.Proofs.Merge.Ranking

namespace Interleave

/-! ## Lines of one key -/

/-- What has come to a key stays there where the key comes again. -/
theorem Key.latest_latest_self (a b : Key) : (a.latest b).latest b = a.latest b := by
  rcases latest_eq_or a b with same | same
  · rw [same]
    exact same
  · rw [same, latest, if_pos (notLater_refl b)]

namespace Ranked

/-- The ranks of lines after lines follow what those have come to. -/
theorem ofLines_append (before : Key) (ls ls' : List Line) :
    ∃ before', ofLines before (ls ++ ls') = ofLines before ls ++ ofLines before' ls' := by
  induction ls generalizing before with
  | nil => exact ⟨before, rfl⟩
  | cons l ls ih =>
      obtain ⟨before', rest⟩ := ih (before.latest l.key)
      refine ⟨before', ?_⟩
      rw [List.cons_append, ofLines, ofLines, rest, List.cons_append]

/-- **Lines of one key** that follow one another have one rank. -/
theorem infix_ofLines (before : Key) {ls : List Line} {p l : Line} (h : [p, l] <:+: ls)
    (same : l.key = p.key) : ∃ rank, [⟨rank, p⟩, ⟨rank, l⟩] <:+: ofLines before ls := by
  obtain ⟨front, back, rfl⟩ := h
  obtain ⟨before', ranks⟩ := ofLines_append before (front ++ [p, l]) back
  obtain ⟨before'', ranks'⟩ := ofLines_append before front [p, l]
  refine ⟨before''.latest p.key, ofLines before front, ofLines before' back, ?_⟩
  rw [ranks, ranks', ofLines, ofLines, ofLines, same, Key.latest_latest_self]

end Ranked

/-! ## Lines that come first -/

section

variable {xs xs' ys ys' : List Line}

/-- Left lines that are not later than the first right line come before it. -/
theorem merge_append_left (first : ∀ x ∈ xs, ∀ y ∈ ys.head?, x.notLater y = true) :
    (xs ++ xs').merge ys Line.notLater = xs ++ xs'.merge ys Line.notLater := by
  induction xs with
  | nil => rfl
  | cons x xs ih =>
      have rest := ih fun x' member => first x' (List.mem_cons_of_mem x member)
      cases ys with
      | nil => rw [List.merge_right, List.merge_right]
      | cons y ys =>
          rw [List.cons_append, List.cons_merge_cons, if_pos (first x List.mem_cons_self y rfl),
            rest, List.cons_append]

/-- Right lines that are earlier than the first left line come before it. -/
theorem merge_append_right (first : ∀ y ∈ ys, ∀ x ∈ xs.head?, ¬ x.notLater y = true) :
    xs.merge (ys ++ ys') Line.notLater = ys ++ xs.merge ys' Line.notLater := by
  induction ys with
  | nil => rfl
  | cons y ys ih =>
      have rest := ih fun y' member => first y' (List.mem_cons_of_mem y member)
      cases xs with
      | nil => rw [List.nil_merge, List.nil_merge]
      | cons x xs =>
          rw [List.cons_append, List.cons_merge_cons, if_neg (first y List.mem_cons_self x rfl),
            rest, List.cons_append]

end

namespace Source

variable {sources : Both Source}

/-- What is read of a source that does not fail is dated. -/
theorem dated_of_whole {s : Source} {side : Side}
    (whole : (s.input side).feed.failure? = none) {l : Line}
    (member : l ∈ Line.ofContent side s.content) : Line.Dated l.raw := by
  rw [← lines_feed_of_whole whole] at member
  exact (Input.admitted_of_mem_feed member).2

/-- The first line of a source that is not blank is later than nothing at all. -/
theorem exists_instant_of_head? {s : Source} {side : Side}
    (whole : (s.input side).feed.failure? = none) {l : Line}
    (first : l ∈ ((Line.ofContent side s.content).dropWhile Line.isWhite).head?) :
    ∃ instant, l.key = some instant := by
  have member : l ∈ Line.ofContent side s.content :=
    (List.dropWhile_sublist _).subset (List.mem_of_mem_head? first)
  have black := List.head?_dropWhile_not Line.isWhite (Line.ofContent side s.content)
  rw [Option.mem_def.mp first] at black
  exact Line.exists_instant member (dated_of_whole whole member) black

/-- **The blank lines at the beginning come first**, the left ones before the right
ones. -/
theorem leading_isPrefix (whole : ∀ side, ((sources.get side).input side).feed.failure? = none) :
    (Line.ofContent .left (sources.get .left).content).takeWhile Line.isWhite ++
        (Line.ofContent .right (sources.get .right).content).takeWhile Line.isWhite <+:
      (plan sources).lines := by
  have merged := lines_plan_of_whole whole
  rw [← List.takeWhile_append_dropWhile (p := Line.isWhite)
      (l := Line.ofContent .left (sources.get .left).content), merge_append_left,
    ← List.takeWhile_append_dropWhile (p := Line.isWhite)
      (l := Line.ofContent .right (sources.get .right).content), merge_append_right,
    ← List.append_assoc] at merged
  · rw [merged]
    exact List.prefix_append _ _
  · -- The first left line that is not blank has a timestamp, and these have none.
    intro y inRight x inLeft
    obtain ⟨instant, key⟩ := exists_instant_of_head? (whole .left) inLeft
    rw [Line.notLater, Line.key_of_mem_leading inRight, key]
    exact Bool.false_ne_true
  · intro x inLeft y _
    rw [Line.notLater, Line.key_of_mem_leading inLeft]
    exact Key.none_notLater y.key

/-- **A blank line follows the line before it.** -/
theorem infix_lines_of_white (whole : ∀ side, ((sources.get side).input side).feed.failure? = none)
    {side : Side} {p l : Line}
    (follows : [p, l] <:+: Line.ofContent side (sources.get side).content)
    (white : l.isWhite = true) : [p, l] <:+: (plan sources).lines := by
  have same : l.key = p.key := Line.key_of_blank_after follows white
  obtain ⟨rank, together⟩ := Ranked.infix_ofLines none follows same
  have among : [⟨rank, p⟩, ⟨rank, l⟩] <:+:
      Ranked.ofLines none (Line.ofContent .left (sources.get .left).content) ++
        Ranked.ofLines none (Line.ofContent .right (sources.get .right).content) := by
    cases side with
    | left => exact together.trans (List.prefix_append _ _).isInfix
    | right => exact together.trans (List.suffix_append _ _).isInfix
  have ties : (⟨rank, p⟩ : Ranked).rank = (⟨rank, l⟩ : Ranked).rank := rfl
  rw [lines_plan_of_whole whole, merge_eq_map_mergeSort]
  exact (infix_mergeSort ties among).map Ranked.line

end Source

/-- **Where the blank lines go.**  A merge that succeeds writes each blank line right
after the line before it in its input, with no line of the other input between them.
The blank lines at the beginning of the left input come first of all, and then those
at the beginning of the right one. -/
theorem attached_merge (sources : Both Source) (s : Sink) (tally : Tally)
    (succeeds : (merge (Source.inputs sources) s).result = .ok tally) :
    let lines := fun side => Line.ofContent side (sources.get side).content
    let last := (merge (Source.inputs sources) s).last
    last.sink.contents = s.contents ++ (last.written.map Line.record).flatten ∧
      (∀ side, (last.written.filter fun l => l.side = side) = lines side) ∧
      (∀ side before p l after, lines side = before ++ p :: l :: after →
        l.isWhite = true → [p, l] <:+: last.written) ∧
      (lines .left).takeWhile Line.isWhite ++ (lines .right).takeWhile Line.isWhite <+:
        last.written := by
  intro lines last
  obtain ⟨whole, written, contents⟩ := Source.of_result_ok succeeds
  have written : last.written = (Source.plan sources).lines := written
  rw [written]
  refine ⟨contents, Source.given_plan_of_whole whole, ?_, Source.leading_isPrefix whole⟩
  intro side before p l after parts white
  have follows : [p, l] <:+: Line.ofContent side (sources.get side).content := by
    refine ⟨before, after, ?_⟩
    rw [List.append_assoc]
    exact parts.symm
  exact Source.infix_lines_of_white whole follows white

/-- The left input goes back in time with a blank line after its first line, and both
inputs begin with blank lines. -/
theorem attached_merge_after_late_line :
    let left := Ascii.encode "\n2024-01-03T00:00:00Z c\n \n2024-01-01T00:00:00Z a\n"
    let right := Ascii.encode "\t\n2024-01-02T00:00:00Z b\n"
    let sources : Both Source :=
      ⟨{ path := "l.log", content := left }, { path := "r.log", content := right }⟩
    let outcome := merge (Source.inputs sources) ({} : Sink)
    let c : Line := ⟨.left, 2, some ⟨1704240000, 0, by decide⟩,
      Ascii.encode "2024-01-03T00:00:00Z c\n", false⟩
    (∃ tally, outcome.result = .ok tally) ∧
      [c, ⟨.left, 3, c.key, Ascii.encode " \n", true⟩] <:+: outcome.last.written ∧
      [⟨.left, 1, none, Ascii.encode "\n", true⟩, ⟨.right, 1, none, Ascii.encode "\t\n", true⟩] <+:
        outcome.last.written := by
  intro left right sources outcome c
  have lefts : left.lines = [Ascii.encode "\n", Ascii.encode "2024-01-03T00:00:00Z c\n",
      Ascii.encode " \n", Ascii.encode "2024-01-01T00:00:00Z a\n"] := by decide +kernel
  have whole : ∀ side, ((sources.get side).input side).feed.failure? = none :=
    Source.whole_of_dated (by rintro (_ | _) <;> rfl) (by rintro (_ | _) <;> rfl)
      (by rintro (_ | _) <;> decide +kernel)
  have succeeds := (Source.merge_of_whole (s := {}) (Sink.fits_of_room_eq_none rfl _)
    ((Source.stop?_plan_eq_none_iff sources).mpr whole)).1
  obtain ⟨-, -, follows, leading⟩ := attached_merge sources {} _ succeeds
  refine ⟨⟨_, succeeds⟩, ?_, ?_⟩
  · refine follows .left [⟨.left, 1, none, Ascii.encode "\n", true⟩] c _
      [⟨.left, 4, some ⟨1704067200, 0, by decide⟩,
        Ascii.encode "2024-01-01T00:00:00Z a\n", false⟩] ?_ (by decide +kernel)
    decide +kernel
  · have first : (Line.ofContent .left left).takeWhile Line.isWhite ++
        (Line.ofContent .right right).takeWhile Line.isWhite =
        [⟨.left, 1, none, Ascii.encode "\n", true⟩,
          ⟨.right, 1, none, Ascii.encode "\t\n", true⟩] := by decide +kernel
    rw [← first]
    exact leading

end Interleave
