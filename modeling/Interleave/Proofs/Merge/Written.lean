/-
# What a plan writes

The lines of a plan are those of its two feeds, each feed's in its own order.  Of a
feed that stops the plan all lines are written, the last of them last.

* `stop?_eq_none_iff` : a plan comes to its end if neither feed fails;
* `lines_eq_given_append` : the lines of one side among those of the plan;
* `getLast?_of_stop?` : the last line before a failure;
* `lines_prefix_of_shortens` : a failure only takes lines away.
-/
import Interleave.Proofs.Merge.Plan
import Interleave.Proofs.Stream.Room

namespace Interleave

namespace Plan

/-! ## How a plan ends -/

/-- What is left after a line still fails as it would have. -/
theorem failure?_set {feeds : Both Feed} {pick : Pick} {tail : Feed}
    (given : feeds.get pick.side = .line pick.line tail) (side : Side) :
    ((feeds.set pick.side tail).get side).failure? = (feeds.get side).failure? := by
  by_cases own : pick.side = side
  · rw [← own, given, Both.get_set_self]
    rfl
  · rw [Both.get_set_ne _ _ own]

/-- A plan that stops does so at the failure of a feed. -/
theorem failure?_of_stop? {feeds : Both Feed} {side : Side} {failure : Failure}
    (h : (ofFeeds feeds).stop? = some (side, failure)) :
    (feeds.get side).failure? = some failure := by
  induction feeds using feeds_induction with
  | finish plan =>
      rw [plan] at h
      cases h
  | halt feeds s f broken plan =>
      rw [plan] at h
      cases h
      rw [broken]
      rfl
  | write feeds pick tail given whole plan ih =>
      rw [plan] at h
      rw [← failure?_set given]
      exact ih h

/-- A plan comes to its end if neither feed fails. -/
theorem stop?_eq_none_iff (feeds : Both Feed) :
    (ofFeeds feeds).stop? = none ↔ ∀ side, (feeds.get side).failure? = none := by
  induction feeds using feeds_induction with
  | finish plan =>
      rw [plan]
      exact ⟨fun _ side => by cases side <;> rfl, fun _ => rfl⟩
  | halt feeds s f broken plan =>
      rw [plan]
      refine ⟨nofun, fun whole => ?_⟩
      have none := whole s
      rw [broken] at none
      cases none
  | write feeds pick tail given whole plan ih =>
      rw [plan, stop?, ih]
      simp only [failure?_set given]

/-- A plan that is stopped does not end well, whatever it writes to. -/
theorem stop?_of_result_ok {σ : Type} [ByteSink σ] {p : Plan} {sink : σ} {t tally : Tally}
    (h : (p.perform sink t).result = .ok tally) : p.stop? = none := by
  induction p generalizing sink t with
  | finish => rfl
  | halt side failure => cases h
  | write pick rest ih =>
      rw [perform] at h
      cases written : ByteSink.writeEach sink pick.line.parts with
      | mk result sink' =>
          rw [written] at h
          cases result with
          | error cause => cases h
          | ok _ => exact ih h

/-! ## The lines of one side -/

/-- All lines of a feed are of the side it is on. -/
def Sided (feeds : Both Feed) : Prop := ∀ side, ∀ l ∈ (feeds.get side).lines, l.side = side

/-- What is left after a line is still of its side. -/
theorem Sided.set {feeds : Both Feed} (sided : Sided feeds) {pick : Pick} {tail : Feed}
    (given : feeds.get pick.side = .line pick.line tail) : Sided (feeds.set pick.side tail) := by
  intro side l member
  by_cases own : pick.side = side
  · rw [← own, Both.get_set_self] at member
    refine sided side l ?_
    rw [← own, given]
    exact List.mem_cons_of_mem _ member
  · rw [Both.get_set_ne _ _ own] at member
    exact sided side l member

/-- A line is of the side it is picked from. -/
theorem Sided.pick {feeds : Both Feed} (sided : Sided feeds) {pick : Pick} {tail : Feed}
    (given : feeds.get pick.side = .line pick.line tail) : pick.line.side = pick.side := by
  refine sided pick.side pick.line ?_
  rw [given]
  exact List.mem_cons_self

/-- **The lines of one side.**  A plan writes the first lines of each feed, and all of
them unless the other feed stops it. -/
theorem lines_eq_given_append {feeds : Both Feed} (sided : Sided feeds) (side : Side) :
    ∃ others, (feeds.get side).lines = (ofFeeds feeds).given side ++ others ∧
      ((∀ failure, (ofFeeds feeds).stop? ≠ some (side.other, failure)) → others = []) := by
  induction feeds using feeds_induction with
  | finish plan =>
      rw [plan]
      cases side <;> exact ⟨[], rfl, fun _ => rfl⟩
  | halt feeds s f broken plan =>
      rw [plan]
      refine ⟨(feeds.get side).lines, rfl, fun other => ?_⟩
      by_cases own : s = side
      · rw [← own, broken]
        rfl
      · exact absurd (congrArg (fun t => some (t, f)) (Side.eq_other_of_ne own)) (other f)
  | write feeds pick tail given whole plan ih =>
      obtain ⟨others, lines, all⟩ := ih (sided.set given)
      rw [plan]
      refine ⟨others, ?_, all⟩
      by_cases own : pick.side = side
      · subst own
        rw [Both.get_set_self] at lines
        rw [given, Feed.lines, lines, given_write_self (sided.pick given)]
        rfl
      · rw [Both.get_set_ne _ _ own] at lines
        rw [lines, given_write_ne ((sided.pick given) ▸ own)]

/-- **The last line before a failure.**  It is the last of the feed that fails, and if
that gives none nothing is written. -/
theorem getLast?_of_stop? {feeds : Both Feed} {side : Side} {failure : Failure}
    (h : (ofFeeds feeds).stop? = some (side, failure)) :
    (ofFeeds feeds).lines.getLast? = (feeds.get side).lines.getLast? := by
  induction feeds using feeds_induction with
  | finish plan =>
      rw [plan] at h
      cases h
  | halt feeds s f broken plan =>
      rw [plan] at h ⊢
      cases h
      rw [broken]
      rfl
  | write feeds pick tail given whole plan ih =>
      have fails := failure?_of_stop? h
      rw [plan] at h ⊢
      rw [lines, List.getLast?_cons, ih h]
      by_cases own : pick.side = side
      · subst own
        rw [given, Feed.lines, List.getLast?_cons, Both.get_set_self]
      · rw [Both.get_set_ne _ _ own]
        -- The feed that is going to fail still gives a line, which is written later.
        cases still : feeds.get side with
        | done =>
            rw [still] at fails
            cases fails
        | broken f => exact absurd still (whole side f)
        | line l ls => rw [Feed.lines, List.getLast?_cons, Option.getD_some]

/-! ## Failures and lines -/

/-- **A failure only takes lines away.**  Feeds that give more, where they failed before,
begin with the same lines. -/
theorem lines_prefix_of_shortens {left right left' right' : Feed}
    (shorter : left.Shortens left') (shorter' : right.Shortens right') :
    (left.plan right).lines <+: (left'.plan right').lines := by
  -- Where a feed is broken nothing is written, so only the cases of a line are left.  In
  -- them the feed that keeps its line waiting is compared as a whole.
  fun_induction Feed.plan left right generalizing left' right' with
  | case1 failure g => exact List.nil_prefix
  | case2 failure => exact List.nil_prefix
  | case3 l ls failure => exact List.nil_prefix
  | case4 => exact List.nil_prefix
  | case5 l ls ih =>
      obtain ⟨ls', rfl, rest⟩ := shorter.exists_line
      obtain rfl := shorter'.eq_done
      rw [Feed.plan, lines, lines]
      exact List.cons_prefix_cons.mpr ⟨rfl, ih rest shorter'⟩
  | case6 r rs ih =>
      obtain rfl := shorter.eq_done
      obtain ⟨rs', rfl, rest⟩ := shorter'.exists_line
      rw [Feed.plan, lines, lines]
      exact List.cons_prefix_cons.mpr ⟨rfl, ih shorter rest⟩
  | case7 l ls r rs first ih =>
      obtain ⟨ls', rfl, rest⟩ := shorter.exists_line
      have waiting := shorter'
      obtain ⟨rs', rfl, -⟩ := shorter'.exists_line
      rw [Feed.plan, if_pos first, lines, lines]
      exact List.cons_prefix_cons.mpr ⟨rfl, ih rest waiting⟩
  | case8 l ls r rs second ih =>
      have waiting := shorter
      obtain ⟨ls', rfl, -⟩ := shorter.exists_line
      obtain ⟨rs', rfl, rest⟩ := shorter'.exists_line
      rw [Feed.plan, if_neg second, lines, lines]
      exact List.cons_prefix_cons.mpr ⟨rfl, ih waiting rest⟩

/-! ## Into a sink -/

/-- A line adds its record to the bytes. -/
theorem bytes_write (pick : Pick) (rest : Plan) :
    (write pick rest).bytes = pick.line.parts.flatten ++ rest.bytes := by
  rw [bytes, lines, List.map_cons, List.flatten_cons, Line.record, ← bytes]

/-- At the end the sink is flushed, which may fail. -/
theorem close_sink (s : Sink) (t : Tally) :
    close s t =
      ⟨match s.flushFailure with
        | none => .ok t
        | some cause => .error (.cannotWrite cause),
        { s with flushes := s.flushes + 1 }, [], none⟩ := by
  have flush : ByteSink.flush s =
      (match s.flushFailure with
        | none => .ok ()
        | some cause => .error cause, { s with flushes := s.flushes + 1 }) := by
    show s.flush = _
    unfold Sink.flush
    cases s.flushFailure <;> rfl
  rw [close, flush]
  cases s.flushFailure <;> rfl

/-- **A plan that fits** is carried out whole. -/
theorem perform_of_fits {p : Plan} {s : Sink} {t : Tally} (h : s.Fits p.bytes.length) :
    p.perform s t =
      (match p.stop? with
        | none => close (s.take p.bytes) (p.tally t)
        | some (side, failure) => ⟨.error failure, s.take p.bytes, [], some side⟩).after p.lines := by
  induction p generalizing s t with
  | finish =>
      show close s t = (close (s.take []) t).after []
      rw [Sink.take_nil]
      rfl
  | halt side failure =>
      show _ = Performed.mk (.error failure) (s.take []) [] (some side)
      rw [Sink.take_nil]
      rfl
  | write pick rest ih =>
      rw [bytes_write, List.length_append] at h
      rw [perform, Sink.writeEach_of_fits (h.mono (Nat.le_add_right _ _))]
      show (rest.perform _ _).after [pick.line] = _
      rw [ih (Sink.fits_take h), bytes_write, ← Sink.take_take, Performed.after_after]
      rfl

/-- **A plan that does not fit** is carried out as far as there is room. -/
theorem perform_of_short {p : Plan} {s : Sink} {t : Tally} {room : Nat}
    (given : s.room = some room) (h : room < p.bytes.length) :
    (p.perform s t).result = .error (.cannotWrite s.refuse) ∧
      (p.perform s t).sink = s.take (p.bytes.take room) ∧
      (p.perform s t).written.length < p.lines.length ∧ (p.perform s t).failed = none := by
  induction p generalizing s t room with
  | finish => exact absurd h (Nat.not_lt_zero room)
  | halt side failure => exact absurd h (Nat.not_lt_zero room)
  | write pick rest ih =>
      rw [bytes_write, List.length_append] at h
      rw [perform, bytes_write, lines]
      by_cases excess : room < pick.line.parts.flatten.length
      · rw [Sink.writeEach_of_short given excess,
          List.take_append_of_le_length (Nat.le_of_lt excess)]
        exact ⟨rfl, rfl, Nat.succ_pos _, rfl⟩
      · -- The record fits, and the room it leaves is too small for the rest.
        have within : pick.line.parts.flatten.length ≤ room := Nat.le_of_not_lt excess
        have fits : s.Fits pick.line.parts.flatten.length := by
          intro n same
          rw [given, Option.some.injEq] at same
          omega
        rw [Sink.writeEach_of_fits fits, List.take_append, List.take_of_length_le within,
          ← Sink.take_take]
        obtain ⟨result, sink, fewer, failed⟩ :=
          ih (t := (t.compare pick.tie).count pick.line) (Sink.room_take given pick.line.parts.flatten)
            (by omega)
        exact ⟨result, sink, Nat.succ_lt_succ fewer, failed⟩

end Plan

end Interleave
