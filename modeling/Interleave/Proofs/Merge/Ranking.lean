/-
# Where each line goes

A merge compares the lines that wait by their keys and knows nothing of the lines
before them.  All the same its lines come out sorted: by the latest key that their
input has come to with them.  An input that goes back in time is held up by nothing,
since its rank stays where it is.

* `Ranked.ofLines` : lines with the latest keys up to them;
* `Abreast` : what holds of the latest keys written on both sides, whenever two lines
  are compared;
* `merge_eq_map_mergeSort` : merging lines by key is sorting them by rank;
* `written_merge` : the place of every line in a merge that succeeds.
-/
import Interleave.Proofs.Merge.Sources

namespace Interleave

/-! ## Ranks -/

/-- A line with its rank. -/
structure Ranked where
  /-- The latest key in the input of the line, up to the line and including it. -/
  rank : Key
  line : Line
  deriving DecidableEq, Repr

namespace Ranked

/-- The order of ranks: the first is not later than the second. -/
def notLater (a b : Ranked) : Bool := Key.notLater a.rank b.rank

theorem orders_notLater : StableSort.Orders Ranked.notLater :=
  Key.orders_notLater.comap Ranked.rank

/-- Lines with their ranks, after lines whose latest key is `before`. -/
def ofLines : Key → List Line → List Ranked
  | _, [] => []
  | before, l :: ls => ⟨before.latest l.key, l⟩ :: ofLines (before.latest l.key) ls

/-- Ranking lines leaves them as they are. -/
theorem map_line_ofLines (before : Key) (ls : List Line) :
    (ofLines before ls).map line = ls := by
  induction ls generalizing before with
  | nil => rfl
  | cons l ls ih => rw [ofLines, List.map_cons, ih]

/-- No rank goes back behind what came before. -/
theorem notLater_of_mem {before : Key} {ls : List Line} {r : Ranked}
    (h : r ∈ ofLines before ls) : Key.notLater before r.rank = true := by
  induction ls generalizing before with
  | nil => cases h
  | cons l ls ih =>
      have first := Key.notLater_latest_left before l.key
      rcases List.mem_cons.mp h with rfl | later
      · exact first
      · exact Key.notLater_trans first (ih later)

/-- **Ranks never go back.** -/
theorem pairwise_ofLines (before : Key) (ls : List Line) :
    (ofLines before ls).Pairwise fun a b => a.notLater b = true := by
  induction ls generalizing before with
  | nil => exact List.Pairwise.nil
  | cons l ls ih => exact List.pairwise_cons.mpr ⟨fun _ member => notLater_of_mem member, ih _⟩

/-- A line whose key is below its rank has the rank of the line right before it. -/
theorem exists_before {before : Key} {ls : List Line} {r : Ranked}
    (h : r ∈ ofLines before ls) (below : ¬ Key.notLater r.rank r.line.key = true) :
    (r.rank = before ∧ [r] <+: ofLines before ls) ∨
      ∃ p, p.rank = r.rank ∧ [p, r] <:+: ofLines before ls := by
  induction ls generalizing before with
  | nil => cases h
  | cons l ls ih =>
      rcases List.mem_cons.mp h with rfl | later
      · refine Or.inl ⟨(Key.latest_eq_or before l.key).resolve_right fun own => below ?_, ?_⟩
        · rw [own]
          exact Key.notLater_refl l.key
        · exact List.prefix_append [_] _
      · rcases ih later with ⟨same, first⟩ | ⟨p, same, together⟩
        · refine Or.inr ⟨⟨before.latest l.key, l⟩, same.symm, ?_⟩
          exact (List.cons_prefix_cons.mpr ⟨rfl, first⟩).isInfix
        · exact Or.inr ⟨p, same, List.infix_cons together⟩

end Ranked

/-! ## Keys and ranks -/

/-- Two inputs have come so far abreast: what was written of the left is not later than
the rank of the next right line, and what was written of the right is earlier than the
rank of the next left line, or has no timestamp at all. -/
structure Abreast (left right : Key) (xs ys : List Line) : Prop where
  left_notLater : ∀ y ∈ ys.head?, Key.notLater left (right.latest y.key) = true
  right_earlier : right = none ∨ ∀ x ∈ xs.head?, ¬ Key.notLater (left.latest x.key) right = true

namespace Abreast

variable {left right : Key} {x y : Line} {xs ys : List Line}

/-- Nothing has been written. -/
theorem start (xs ys : List Line) : Abreast none none xs ys :=
  ⟨fun _ _ => rfl, Or.inl rfl⟩

/-- **Of two lines that wait** the keys are in the same order as the ranks. -/
theorem notLater_iff (h : Abreast left right (x :: xs) (y :: ys)) :
    (⟨left.latest x.key, x⟩ : Ranked).notLater ⟨right.latest y.key, y⟩ = true ↔
      x.notLater y = true := by
  constructor
  -- The right rank is the key of its line, or the rank of a line written before.
  · intro (ranks : Key.notLater (left.latest x.key) (right.latest y.key) = true)
    rcases Key.latest_eq_or right y.key with same | same
    · rw [same] at ranks
      rcases h.right_earlier with rfl | earlier
      · exact Key.notLater_trans (Key.notLater_latest_right left x.key)
          (Key.notLater_trans ranks (Key.none_notLater y.key))
      · exact absurd ranks (earlier x rfl)
    · rw [same] at ranks
      exact Key.notLater_trans (Key.notLater_latest_right left x.key) ranks
  · intro keys
    exact Key.latest_notLater (h.left_notLater y rfl)
      (Key.notLater_trans keys (Key.notLater_latest_right right y.key))

/-- A left line has been written. -/
theorem write_left (h : Abreast left right (x :: xs) (y :: ys))
    (first : x.notLater y = true) : Abreast (left.latest x.key) right xs (y :: ys) := by
  refine ⟨?_, h.right_earlier.imp_right fun earlier x' _ ranks => ?_⟩
  · intro y' member
    cases member
    exact h.notLater_iff.mpr first
  · exact earlier x rfl (Key.notLater_trans (Key.notLater_latest_left _ x'.key) ranks)

/-- A right line has been written. -/
theorem write_right (h : Abreast left right (x :: xs) (y :: ys))
    (second : ¬ x.notLater y = true) : Abreast left (right.latest y.key) (x :: xs) ys := by
  refine ⟨?_, Or.inr ?_⟩
  · intro y' _
    exact Key.notLater_trans (h.left_notLater y rfl) (Key.notLater_latest_left _ y'.key)
  · intro x' member
    cases member
    exact fun ranks => second (h.notLater_iff.mp ranks)

end Abreast

/-- **Merging by key is merging by rank.** -/
theorem merge_eq_map_merge {left right : Key} {xs ys : List Line}
    (h : Abreast left right xs ys) :
    xs.merge ys Line.notLater =
      ((Ranked.ofLines left xs).merge (Ranked.ofLines right ys) Ranked.notLater).map
        Ranked.line := by
  -- Both merges drop a line of the same list, so the induction follows the two lists and
  -- `Abreast` holds again of what is left.
  induction xs generalizing left right ys with
  | nil =>
      rw [List.nil_merge, Ranked.ofLines, List.nil_merge, Ranked.map_line_ofLines]
  | cons x xs ihx =>
      induction ys generalizing left right with
      | nil =>
          rw [List.merge_right, Ranked.ofLines, List.merge_right, Ranked.map_line_ofLines]
      | cons y ys ihy =>
          rw [Ranked.ofLines, Ranked.ofLines, List.cons_merge_cons, List.cons_merge_cons]
          by_cases first : x.notLater y = true
          · rw [if_pos first, if_pos (h.notLater_iff.mpr first), List.map_cons,
              ihx (h.write_left first), Ranked.ofLines]
          · rw [if_neg first, if_neg (fun ranks => first (h.notLater_iff.mp ranks)),
              List.map_cons, ihy (h.write_right first), Ranked.ofLines]

/-- **Merging by key is sorting by rank.** -/
theorem merge_eq_map_mergeSort (xs ys : List Line) :
    xs.merge ys Line.notLater =
      ((Ranked.ofLines none xs ++ Ranked.ofLines none ys).mergeSort Ranked.notLater).map
        Ranked.line := by
  rw [merge_eq_map_merge (Abreast.start xs ys),
    StableSort.merge_eq_mergeSort Ranked.orders_notLater (Ranked.pairwise_ofLines none xs)
      (Ranked.pairwise_ofLines none ys)]

/-! ## Lines that stay together -/

/-- Lines that follow one another with the same rank follow one another when they are
sorted. -/
theorem infix_mergeSort {p r : Ranked} {rs : List Ranked} (same : p.rank = r.rank)
    (together : [p, r] <:+: rs) : [p, r] <:+: rs.mergeSort Ranked.notLater := by
  have self : Ranked.notLater r r = true := Key.notLater_refl r.rank
  have ties : StableSort.tied Ranked.notLater r p = true := by
    rw [StableSort.tied, Ranked.notLater, Ranked.notLater, same]
    exact (Bool.and_self _).trans self
  have ties' : StableSort.tied Ranked.notLater r r = true :=
    StableSort.tied_self Ranked.orders_notLater r
  have kept : [p, r].filter (StableSort.tied Ranked.notLater r) = [p, r] := by
    rw [List.filter_cons_of_pos ties, List.filter_cons_of_pos ties', List.filter_nil]
  -- The two stand together among those that tie with them, which sorting leaves alone.
  have among := together.filter (StableSort.tied Ranked.notLater r)
  rw [kept, ← StableSort.filter_tied_mergeSort Ranked.orders_notLater] at among
  exact among.trans (StableSort.filter_tied_isInfix Ranked.orders_notLater
    (StableSort.pairwise_mergeSort Ranked.orders_notLater rs) r)

/-- Lines of the same key keep their order when they are sorted. -/
theorem filter_key_mergeSort (ls : List Line) (key : Key) :
    ((ls.mergeSort Line.notLater).filter fun l => l.key = key) =
      ls.filter fun l => l.key = key := by
  rw [StableSort.filter_mergeSort Line.orders_notLater]
  refine List.mergeSort_of_pairwise (List.pairwise_of_forall_mem_list ?_)
  intro a inA b inB
  rw [Line.notLater, of_decide_eq_true (List.mem_filter.mp inA).2,
    of_decide_eq_true (List.mem_filter.mp inB).2]
  exact Key.notLater_refl key

/-! ## Merges -/

/-- **The place of every line.**  A merge that succeeds writes all left lines and all
right lines, stably sorted by their ranks.  If neither input goes back in time they are
sorted by their keys, of each key the left lines before the right ones.  A line that
goes back behind its rank follows right after the line before it in its input. -/
theorem written_merge (sources : Both Source) (s : Sink) (tally : Tally)
    (succeeds : (merge (Source.inputs sources) s).result = .ok tally) :
    let lines := fun side => Line.ofContent side (sources.get side).content
    let last := (merge (Source.inputs sources) s).last
    last.written =
        ((Ranked.ofLines none (lines .left) ++ Ranked.ofLines none (lines .right)).mergeSort
          Ranked.notLater).map Ranked.line ∧
      last.sink.contents = s.contents ++ (last.written.map Line.record).flatten ∧
      ((∀ side, (lines side).Pairwise fun a b => a.notLater b = true) →
        last.written = (lines .left ++ lines .right).mergeSort Line.notLater ∧
          ∀ key, (last.written.filter fun l => l.key = key) =
            ((lines .left).filter fun l => l.key = key) ++
              (lines .right).filter fun l => l.key = key) ∧
      ∀ side, ∀ r ∈ Ranked.ofLines none (lines side),
        ¬ Key.notLater r.rank r.line.key = true →
          ∃ p, [p, r.line] <:+: lines side ∧ [p, r.line] <:+: last.written := by
  intro lines last
  obtain ⟨whole, written, contents⟩ := Source.of_result_ok succeeds
  have merged : last.written = (lines .left).merge (lines .right) Line.notLater :=
    written.trans (Source.lines_plan_of_whole whole)
  have ranked := merged.trans (merge_eq_map_mergeSort (lines .left) (lines .right))
  refine ⟨ranked, ?_, ?_, ?_⟩
  · rw [written]
    exact contents
  · intro ordered
    have sorted : last.written = (lines .left ++ lines .right).mergeSort Line.notLater :=
      merged.trans (StableSort.merge_eq_mergeSort Line.orders_notLater (ordered .left)
        (ordered .right))
    refine ⟨sorted, fun key => ?_⟩
    rw [sorted, filter_key_mergeSort, List.filter_append]
  · intro side r member below
    -- Nothing is below the rank of a first line, since its rank is its key.
    obtain ⟨p, same, together⟩ :=
      (Ranked.exists_before member below).resolve_left fun first => below (by
        rw [first.1]
        exact Key.none_notLater r.line.key)
    refine ⟨p.line, ?_, ?_⟩
    · rw [← Ranked.map_line_ofLines none (lines side)]
      exact together.map Ranked.line
    · have among : [p, r] <:+:
          Ranked.ofLines none (lines .left) ++ Ranked.ofLines none (lines .right) := by
        cases side with
        | left => exact together.trans (List.prefix_append _ _).isInfix
        | right => exact together.trans (List.suffix_append _ _).isInfix
      rw [ranked]
      exact (infix_mergeSort same among).map Ranked.line

/-- A left line that goes back in time stays behind the line before it, even where a
right line between the two in time is written first. -/
theorem written_merge_back_in_time :
    let left := Ascii.encode "2024-01-03T00:00:00Z c\n2024-01-01T00:00:00Z a\n"
    let right := Ascii.encode "2024-01-02T00:00:00Z b\n"
    let sources : Both Source :=
      ⟨{ path := "l.log", content := left }, { path := "r.log", content := right }⟩
    let outcome := merge (Source.inputs sources) ({} : Sink)
    (∃ tally, outcome.result = .ok tally) ∧
      outcome.last.written.map (fun l => (l.side, l.number)) =
        [(.right, 1), (.left, 1), (.left, 2)] := by
  intro left right sources outcome
  have lefts : left.lines = [Ascii.encode "2024-01-03T00:00:00Z c\n",
      Ascii.encode "2024-01-01T00:00:00Z a\n"] := by decide +kernel
  have rights : right.lines = [Ascii.encode "2024-01-02T00:00:00Z b\n"] := by decide +kernel
  have whole : ∀ side, ((sources.get side).input side).feed.failure? = none :=
    Source.whole_of_dated (by rintro (_ | _) <;> rfl) (by rintro (_ | _) <;> rfl)
      (by rintro (_ | _) <;> decide +kernel)
  have succeeds := (Source.merge_of_whole (s := {}) (Sink.fits_of_room_eq_none rfl _)
    ((Source.stop?_plan_eq_none_iff sources).mpr whole)).1
  obtain ⟨ranked, -⟩ := written_merge sources {} _ succeeds
  refine ⟨⟨_, succeeds⟩, ?_⟩
  rw [ranked, ← merge_eq_map_mergeSort]
  show (List.merge (Line.numbered .left 1 none left.lines)
    (Line.numbered .right 1 none right.lines) Line.notLater).map _ = _
  simp only [lefts, rights, Line.numbered]
  rw [List.cons_merge_cons, if_neg (by decide +kernel), List.merge_right]
  rfl

end Interleave
