/-
# What a merge has counted

The counts of a merge that succeeds can be told from its inputs: how many lines each of
them has, and how many of these are blank.  A tie is counted where two waiting lines
have the same key.  If neither input goes back in time this says something about the
inputs too, since a left line is then written while the first right line that is not
earlier waits: the ties are the left lines whose keys are keys of right lines.

* `lines_after`, `blanks_after`, `ties_after` : what is counted for rows;
* `countP_tie_ofLines` : the ties of two inputs in order;
* `counted_merge` : the counts of a merge that succeeds.
-/
import Interleave.Proofs.Log.BlankLines
import Interleave.Proofs.Merge.Sources

namespace Interleave

/-! ## Counts of rows -/

namespace Tally

/-- What each row of a kind raises by one is raised as often as there are such rows. -/
theorem count_after {f : Tally → Nat} {p : Row → Bool}
    (step : ∀ t e, f (t.enter e) = f t + if p e = true then 1 else 0) (t : Tally)
    (es : List Row) : f (t.after es) = f t + es.countP p := by
  induction es generalizing t with
  | nil => rfl
  | cons e es ih =>
      have rest := ih (t.enter e)
      have first := step t e
      rw [after] at rest ⊢
      rw [List.foldl_cons, rest, first, List.countP_cons]
      omega

/-- The lines of a side are counted. -/
theorem lines_after (t : Tally) (es : List Row) (side : Side) :
    (t.after es).lines.get side =
      t.lines.get side + es.countP fun e => e.line.side = side := by
  refine count_after (f := fun t => t.lines.get side) (fun t e => ?_) t es
  by_cases own : e.line.side = side
  · subst own
    simp [enter, count, compare]
  · simp [enter, count, compare, own, Both.get_set_ne]

/-- All lines are counted. -/
theorem total_after (t : Tally) (es : List Row) : (t.after es).total = t.total + es.length := by
  have rows := count_after (f := Tally.total) (p := fun _ => true)
    (fun t e => t.total_compare e.tie ▸ (t.compare e.tie).total_count e.line) t es
  rwa [List.countP_true] at rows

/-- The blank lines are counted. -/
theorem blanks_after (t : Tally) (es : List Row) :
    (t.after es).blanks = t.blanks + es.countP fun e => e.line.blank := by
  refine count_after (f := Tally.blanks) (fun t e => ?_) t es
  cases blank : e.line.blank <;> simp [enter, count, compare, blank]

/-- The ties are counted. -/
theorem ties_after (t : Tally) (es : List Row) :
    (t.after es).ties = t.ties + es.countP Row.tie := by
  refine count_after (f := Tally.ties) (fun t e => ?_) t es
  cases tie : e.tie <;> simp [enter, count, compare, tie]

end Tally

/-! ## Ties of inputs in order -/

namespace Key

/-- A key that is not later than another and that the other is not later than is the
same. -/
theorem eq_of_notLater {a b : Key} (ab : notLater a b = true) (ba : notLater b a = true) :
    a = b := by
  cases a with
  | none =>
      cases b with
      | none => rfl
      | some b => cases ba
  | some a =>
      cases b with
      | none => cases ab
      | some b =>
          obtain ⟨seconds, nanos, _⟩ := a
          obtain ⟨seconds', nanos', _⟩ := b
          simp only [notLater, decide_eq_true_iff, Instant.le_def] at ab ba
          obtain ⟨rfl, rfl⟩ : seconds = seconds' ∧ nanos = nanos' := by omega
          rfl

end Key

namespace Line

/-- Some of the lines has the key of the line. -/
def hasTie (ls : List Line) (l : Line) : Bool := ls.any fun l' => l'.key == l.key

/-- A line that is earlier than the first of lines in order has the key of none. -/
theorem hasTie_eq_false {x y : Line} {ys : List Line} (earlier : ¬ y.notLater x = true)
    (sorted : (y :: ys).Pairwise fun a b => a.notLater b = true) : hasTie (y :: ys) x = false := by
  rw [hasTie, List.any_eq_false]
  intro y' member same
  have later : y.notLater y' = true := StableSort.Orders.head_le Line.orders_notLater sorted member
  refine earlier ?_
  rw [Line.notLater] at later ⊢
  rwa [beq_iff_eq.mp same] at later

end Line

namespace Row

/-- Lines alone tie with nothing. -/
theorem countP_tie_untied (ls : List Line) : (ls.map untied).countP tie = 0 := by
  rw [List.countP_eq_zero]
  intro e member
  obtain ⟨l, -, rfl⟩ := List.mem_map.mp member
  exact Bool.false_ne_true

/-- **The ties of two sides in order** are the left lines that have the key of a right
line. -/
theorem countP_tie_ofLines {xs ys : List Line}
    (lefts : xs.Pairwise fun a b => a.notLater b = true)
    (rights : ys.Pairwise fun a b => a.notLater b = true) :
    (ofLines xs ys).countP tie = xs.countP (Line.hasTie ys) := by
  fun_induction ofLines xs ys with
  | case1 ys => rw [countP_tie_untied, List.countP_nil]
  | case2 x xs =>
      rw [countP_tie_untied]
      exact (List.countP_eq_zero.mpr fun l _ => Bool.false_ne_true).symm
  | case3 x xs y ys first ih =>
      -- The left line is written.  The right one that waits is the first that may tie with it.
      have own : (x.key == y.key) = Line.hasTie (y :: ys) x := by
        by_cases after : y.notLater x = true
        · have same : x.key = y.key := Key.eq_of_notLater first after
          simp [Line.hasTie, same]
        · have apart : x.key ≠ y.key := by
            intro same
            rw [Line.notLater, same] at after
            exact after (Key.notLater_refl y.key)
          rw [Line.hasTie_eq_false after rights]
          exact beq_eq_false_iff_ne.mpr apart
      rw [List.countP_cons, List.countP_cons, ih lefts.of_cons rights, own]
  | case4 x xs y ys second ih =>
      -- The right line is written.  All left lines are later, so none has its key.
      have others : ∀ x' ∈ x :: xs, Line.hasTie (y :: ys) x' = Line.hasTie ys x' := by
        intro x' member
        have later : x.notLater x' = true :=
          StableSort.Orders.head_le Line.orders_notLater lefts member
        have apart : (y.key == x'.key) = false := by
          refine beq_eq_false_iff_ne.mpr fun same => second ?_
          rw [Line.notLater] at later ⊢
          rwa [same]
        rw [Line.hasTie, List.any_cons, apart, Bool.false_or, Line.hasTie]
      have same : (x :: xs).countP (Line.hasTie (y :: ys)) = (x :: xs).countP (Line.hasTie ys) :=
        List.countP_congr fun x' member => by rw [others x' member]
      rw [List.countP_cons, ih lefts rights.of_cons, same]
      rfl

end Row

/-! ## Counts of sources -/

namespace Source

variable {sources : Both Source}

/-- A merge that succeeds has counted its plan. -/
theorem tally_of_result_ok {s : Sink} {tally : Tally}
    (h : (merge (inputs sources) s).result = .ok tally) : tally = (plan sources).tally {} :=
  (result_eq_ok_iff.mp h).2.2.2.symm

/-- A content has as many lines as it is cut into. -/
theorem length_ofContent (side : Side) (content : Bytes) :
    (Line.ofContent side content).length = content.lines.length := by
  rw [← List.length_map (f := Line.raw), Line.ofContent, Line.map_raw_numbered]

/-- The blank lines of a content are its lines of white space. -/
theorem countP_blank_ofContent (side : Side) (content : Bytes) :
    (Line.ofContent side content).countP Line.blank =
      content.lines.countP fun raw => raw.all Ascii.isBlank := by
  have raws : (Line.ofContent side content).map Line.raw = content.lines :=
    Line.map_raw_numbered side 1 none content.lines
  conv => rhs; rw [← raws, List.countP_map]
  refine List.countP_congr fun l member => ?_
  rw [Line.blank_of_mem_numbered member]
  rfl

/-- All records are counted. -/
theorem total_tally_plan (sources : Both Source) :
    ((plan sources).tally {}).total = (plan sources).lines.length := by
  rw [Plan.tally_eq_after, Tally.total_after, ← Plan.map_line_rows, List.length_map]
  exact Nat.zero_add _

variable (whole : ∀ side, ((sources.get side).input side).feed.failure? = none)

include whole

/-- All lines of both sides are counted. -/
theorem lines_tally_plan (side : Side) :
    ((plan sources).tally {}).lines.get side = (sources.get side).content.lines.length := by
  have own : ((plan sources).tally {}).lines.get side =
      0 + (plan sources).rows.countP fun e => e.line.side = side := by
    rw [Plan.tally_eq_after, Tally.lines_after]
    cases side <;> rfl
  have lines : (plan sources).rows.countP (fun e => e.line.side = side) =
      ((plan sources).given side).length := by
    rw [Plan.given, ← List.countP_eq_length_filter, ← Plan.map_line_rows, List.countP_map]
    rfl
  rw [own, lines, given_plan_of_whole whole, length_ofContent, Nat.zero_add]

/-- The lines of white space of both sides are counted. -/
theorem blanks_tally_plan :
    ((plan sources).tally {}).blanks =
      ((sources.get .left).content.lines ++ (sources.get .right).content.lines).countP
        fun raw => raw.all Ascii.isBlank := by
  have rows : (plan sources).rows.countP (fun e => e.line.blank) =
      (plan sources).lines.countP Line.blank := by
    rw [← Plan.map_line_rows, List.countP_map]
    rfl
  rw [Plan.tally_eq_after, Tally.blanks_after, rows, lines_plan_of_whole whole,
    (List.merge_perm_append Line.notLater).countP_eq, List.countP_append, countP_blank_ofContent,
    countP_blank_ofContent, ← List.countP_append]
  exact Nat.zero_add _

/-- The ties of sources in order are counted. -/
theorem ties_tally_plan (ordered : ∀ side,
    (Line.ofContent side (sources.get side).content).Pairwise fun a b => a.notLater b = true) :
    ((plan sources).tally {}).ties =
      (Line.ofContent .left (sources.get .left).content).countP
        (Line.hasTie (Line.ofContent .right (sources.get .right).content)) := by
  rw [Plan.tally_eq_after, Tally.ties_after, rows_plan_of_whole whole,
    Row.countP_tie_ofLines (ordered .left) (ordered .right)]
  exact Nat.zero_add _

end Source

/-- **What a merge has counted** when it succeeds: of each side the lines of its input,
all the records that have been written, and the lines of white space of both inputs.
If neither input goes back in time, the ties are the left lines whose key is the key of
at least one right line, also where that is none. -/
theorem counted_merge (sources : Both Source) (s : Sink) (tally : Tally)
    (succeeds : (merge (Source.inputs sources) s).result = .ok tally) :
    let lines := fun side => Line.ofContent side (sources.get side).content
    let last := (merge (Source.inputs sources) s).last
    (∀ side, tally.lines.get side = (sources.get side).content.lines.length) ∧
      last.sink.contents = s.contents ++ (last.written.map Line.record).flatten ∧
      tally.total = last.written.length ∧
      tally.blanks =
        ((sources.get .left).content.lines ++ (sources.get .right).content.lines).countP
          (fun raw => raw.all Ascii.isBlank) ∧
      ((∀ side, (lines side).Pairwise fun a b => Key.notLater a.key b.key = true) →
        tally.ties =
          (lines .left).countP fun l => (lines .right).any fun r => r.key == l.key) := by
  intro lines last
  obtain ⟨whole, written, contents⟩ := Source.of_result_ok succeeds
  have written : last.written = (Source.plan sources).lines := written
  obtain rfl := Source.tally_of_result_ok succeeds
  refine ⟨Source.lines_tally_plan whole, ?_, ?_, Source.blanks_tally_plan whole,
    Source.ties_tally_plan whole⟩
  · rw [written]
    exact contents
  · rw [written]
    exact Source.total_tally_plan sources

/-- Both inputs begin with blank lines, which tie, and of three left lines of the same
instant as a right line two are written with an offset. -/
theorem counted_merge_of_runs :
    let left := Ascii.encode ("\n2024-01-01T00:00:00Z a\n2024-01-01T01:00:00+01:00 b\n" ++
      "2023-12-31T23:00:00-01:00 c\n")
    let right := Ascii.encode " \n\n2024-01-01T00:00:00Z x\n2024-01-01T00:00:00Z y\n"
    let sources : Both Source :=
      ⟨{ path := "l.log", content := left }, { path := "r.log", content := right }⟩
    let outcome := merge (Source.inputs sources) ({} : Sink)
    ∃ tally, outcome.result = .ok tally ∧ tally.lines.get .left = 4 ∧
      tally.total = outcome.last.written.length ∧ tally.blanks = 3 ∧ tally.ties = 4 := by
  intro left right sources outcome
  have whole : ∀ side, ((sources.get side).input side).feed.failure? = none :=
    Source.whole_of_dated (by rintro (_ | _) <;> rfl) (by rintro (_ | _) <;> rfl)
      (by rintro (_ | _) <;> decide +kernel)
  have succeeds := (Source.merge_of_whole (s := {}) (Sink.fits_of_room_eq_none rfl _)
    ((Source.stop?_plan_eq_none_iff sources).mpr whole)).1
  obtain ⟨lines, -, total, blanks, ties⟩ := counted_merge sources {} _ succeeds
  refine ⟨_, succeeds, (lines .left).trans (by decide +kernel), total,
    blanks.trans (by decide +kernel), (ties ?_).trans (by decide +kernel)⟩
  rintro (_ | _)
  · exact (by decide +kernel : (Line.ofContent .left left).Pairwise
      fun a b => Key.notLater a.key b.key = true)
  · exact (by decide +kernel : (Line.ofContent .right right).Pairwise
      fun a b => Key.notLater a.key b.key = true)

end Interleave
