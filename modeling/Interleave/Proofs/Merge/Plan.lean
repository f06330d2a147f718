/-
# The plan of a merge

Which lines a merge writes and how it ends can be told from its inputs before
anything is written.  The plan says it; the sink only decides how far the plan is
carried out.

* `Feed.plan` : the plan of a merge, from what each of its inputs gives;
* `Plan.perform` : carrying out a plan;
* `performed_merge` : a merge carries out the plan of its inputs.
-/
import Interleave.Proofs.Log.Feed
import Interleave.Proofs.Merge.Course

namespace Interleave

/-! ## Plans -/

/-- A line that is to be written. -/
structure Pick where
  /-- The side that gave it. -/
  side : Side
  line : Line
  /-- Which lines were waiting. -/
  waiting : Waiting
  /-- The other line has the same key. -/
  tie : Bool
  deriving DecidableEq, Repr

/-- What a merge is going to do. -/
inductive Plan where
  /-- No line is left. -/
  | finish
  /-- The next line of a side cannot be taken. -/
  | halt (side : Side) (failure : Failure)
  | write (pick : Pick) (rest : Plan)

/-- The plan of a merge.  A failure is met before anything else, the left one first;
of two lines the one with the earlier key is written, and the left one if they tie. -/
def Feed.plan : Feed → Feed → Plan
  | .broken failure, _ => .halt .left failure
  | .done, .broken failure => .halt .right failure
  | .line _ _, .broken failure => .halt .right failure
  | .done, .done => .finish
  | .line l ls, .done => .write ⟨.left, l, .leftOnly, false⟩ (plan ls .done)
  | .done, .line r rs => .write ⟨.right, r, .rightOnly, false⟩ (plan .done rs)
  | .line l ls, .line r rs =>
      if Key.notLater l.key r.key then
        .write ⟨.left, l, .both, l.key == r.key⟩ (plan ls (.line r rs))
      else .write ⟨.right, r, .both, false⟩ (plan (.line l ls) rs)
termination_by f g => sizeOf f + sizeOf g

/-- The plan of a merge of two feeds. -/
def Plan.ofFeeds (feeds : Both Feed) : Plan := feeds.left.plan feeds.right

/-- What holds where both feeds have ended and where one is broken, and where a line is
written if it holds of the feeds after that line, holds of any two feeds. -/
theorem Plan.feeds_induction {motive : Both Feed → Prop}
    (finish : ofFeeds ⟨.done, .done⟩ = .finish → motive ⟨.done, .done⟩)
    (halt : ∀ feeds side failure, feeds.get side = .broken failure →
      ofFeeds feeds = .halt side failure → motive feeds)
    (write : ∀ feeds pick tail, feeds.get pick.side = .line pick.line tail →
      (∀ side failure, feeds.get side ≠ .broken failure) →
      ofFeeds feeds = .write pick (ofFeeds (feeds.set pick.side tail)) →
      motive (feeds.set pick.side tail) → motive feeds)
    (feeds : Both Feed) : motive feeds := by
  obtain ⟨left, right⟩ := feeds
  fun_induction Feed.plan left right with
  | case1 failure g =>
      refine halt ⟨.broken failure, g⟩ .left failure rfl ?_
      rw [ofFeeds, Feed.plan]
  | case2 failure =>
      refine halt ⟨.done, .broken failure⟩ .right failure rfl ?_
      rw [ofFeeds, Feed.plan]
  | case3 l ls failure =>
      refine halt ⟨.line l ls, .broken failure⟩ .right failure rfl ?_
      rw [ofFeeds, Feed.plan]
  | case4 =>
      refine finish ?_
      rw [ofFeeds, Feed.plan]
  | case5 l ls ih =>
      refine write ⟨.line l ls, .done⟩ ⟨.left, l, .leftOnly, false⟩ ls rfl ?_ ?_ ih
      · rintro (_ | _) failure impossible <;> cases impossible
      · rw [ofFeeds, Feed.plan]
        rfl
  | case6 r rs ih =>
      refine write ⟨.done, .line r rs⟩ ⟨.right, r, .rightOnly, false⟩ rs rfl ?_ ?_ ih
      · rintro (_ | _) failure impossible <;> cases impossible
      · rw [ofFeeds, Feed.plan]
        rfl
  | case7 l ls r rs first ih =>
      refine write ⟨.line l ls, .line r rs⟩ ⟨.left, l, .both, l.key == r.key⟩ ls rfl ?_ ?_ ih
      · rintro (_ | _) failure impossible <;> cases impossible
      · rw [ofFeeds, Feed.plan, if_pos first]
        rfl
  | case8 l ls r rs second ih =>
      refine write ⟨.line l ls, .line r rs⟩ ⟨.right, r, .both, false⟩ rs rfl ?_ ?_ ih
      · rintro (_ | _) failure impossible <;> cases impossible
      · rw [ofFeeds, Feed.plan, if_neg second]
        rfl

namespace Plan

/-- The lines that are to be written. -/
def lines : Plan → List Line
  | .finish => []
  | .halt _ _ => []
  | .write pick rest => pick.line :: rest.lines

/-- The failure that stops the plan, with its side. -/
def stop? : Plan → Option (Side × Failure)
  | .finish => none
  | .halt side failure => some (side, failure)
  | .write _ rest => rest.stop?

/-- The counts after the plan. -/
def tally : Plan → Tally → Tally
  | .finish, t => t
  | .halt _ _, t => t
  | .write pick rest, t => rest.tally ((t.compare pick.tie).count pick.line)

/-- The lines of one side that are to be written. -/
def given (p : Plan) (side : Side) : List Line := p.lines.filter fun l => l.side = side

/-- The bytes that are to be written. -/
def bytes (p : Plan) : Bytes := (p.lines.map Line.record).flatten

/-- A line of the side comes before those to be written after it. -/
theorem given_write_self {pick : Pick} {side : Side} (h : pick.line.side = side)
    (rest : Plan) : (write pick rest).given side = pick.line :: rest.given side := by
  rw [given, lines, List.filter_cons, if_pos (decide_eq_true h)]
  rfl

/-- A line of the other side is none of the side. -/
theorem given_write_ne {pick : Pick} {side : Side} (h : pick.line.side ≠ side)
    (rest : Plan) : (write pick rest).given side = rest.given side := by
  rw [given, lines, List.filter_cons, if_neg (by simpa using h)]
  rfl

end Plan

variable {σ : Type}

/-! ## What has come of a merge -/

/-- The line that an act has written. -/
def Act.line? : Act → Option Line
  | .wrote _ line => some line
  | _ => none

/-- The side that an act has failed to take a line of. -/
def Act.failed? : Act → Option Side
  | .read side (.error _) => some side
  | _ => none

namespace Merging

/-- The lines whose records have been written, in order. -/
def written (m : Merging σ) : List Line := m.history.filterMap Act.line?

/-- The side whose next line could not be taken, if that was the last act. -/
def failed (m : Merging σ) : Option Side := m.acts.head?.bind Act.failed?

end Merging

/-- What has come of a merge. -/
structure Performed (σ : Type) where
  result : Except Failure Tally
  sink : σ
  /-- The lines whose records have been written. -/
  written : List Line
  /-- The side whose next line could not be taken, if this ended the merge. -/
  failed : Option Side

/-- What has come of a merge, told from how it ended. -/
def Outcome.performed (o : Outcome σ) : Performed σ :=
  ⟨o.result, o.last.sink, o.last.written, o.last.failed⟩

/-- What has come of a merge, part by part. -/
theorem Outcome.of_performed {o : Outcome σ} {p : Performed σ} (h : o.performed = p) :
    o.result = p.result ∧ o.last.sink = p.sink ∧ o.last.written = p.written ∧
      o.last.failed = p.failed := by
  subst h
  exact ⟨rfl, rfl, rfl, rfl⟩

/-- What has come of a merge that had written lines before. -/
def Performed.after (p : Performed σ) (before : List Line) : Performed σ :=
  { p with written := before ++ p.written }

/-- Lines are written after lines. -/
theorem Performed.after_after (p : Performed σ) (a b : List Line) :
    (p.after b).after a = p.after (a ++ b) := by
  rw [after, after, after, List.append_assoc]

/-! ## Carrying out a plan -/

namespace Plan

variable [ByteSink σ]

/-- Flushes the sink when no line is left. -/
def close (sink : σ) (tally : Tally) : Performed σ :=
  match ByteSink.flush sink with
  | (.error cause, sink) => ⟨.error (.cannotWrite cause), sink, [], none⟩
  | (.ok (), sink) => ⟨.ok tally, sink, [], none⟩

/-- Carries out a plan, up to the first failure of the sink. -/
def perform : Plan → σ → Tally → Performed σ
  | .finish, sink, tally => close sink tally
  | .halt side failure, sink, _ => ⟨.error failure, sink, [], some side⟩
  | .write pick rest, sink, tally =>
      match ByteSink.writeEach sink pick.line.parts with
      | (.error cause, sink) => ⟨.error (.cannotWrite cause), sink, [], none⟩
      | (.ok (), sink) =>
          (rest.perform sink ((tally.compare pick.tie).count pick.line)).after [pick.line]

end Plan

/-! ## A merge carries out its plan -/

/-- What is still given of one side: the line that waits, and what its input gives
after it.  A side with no line waiting has ended. -/
def Slot.feed (s : Slot) (i : Input) : Feed :=
  match s.line with
  | none => .done
  | some l => .line l i.feed

namespace Merging

/-- What is still given of a side. -/
def feed (m : Merging σ) (side : Side) : Feed := (m.slots.get side).feed (m.inputs.get side)

/-- The plan of the rest of a merge. -/
def plan (m : Merging σ) : Plan := Feed.plan (m.feed .left) (m.feed .right)

/-- The plan of the rest of a merge that is about to take the next line of a side. -/
def planTaking (m : Merging σ) : Side → Plan
  | .left => Feed.plan m.inputs.left.feed (m.feed .right)
  | .right => Feed.plan (m.feed .left) m.inputs.right.feed

/-- A draw is what the plan begins with. -/
theorem plan_of_draw {m : Merging σ} {d : Draw} (drawn : Draw.ofSlots m.slots = some d) :
    m.plan = .write ⟨d.side, d.line, d.waiting, d.tie⟩
      ({ m with slots := d.slots }.planTaking d.side) := by
  obtain ⟨inputs, ⟨⟨left⟩, ⟨right⟩⟩, sink, tally, acts⟩ := m
  cases left with
  | none =>
      cases right with
      | none => cases drawn
      | some r =>
          cases drawn
          show Feed.plan .done (.line r _) = _
          rw [Feed.plan]
          rfl
  | some l =>
      cases right with
      | none =>
          cases drawn
          show Feed.plan (.line l _) .done = _
          rw [Feed.plan]
          rfl
      | some r =>
          show Feed.plan (.line l _) (.line r _) = _
          rw [Feed.plan]
          simp only [Draw.ofSlots, Slot.lift, Choice.between] at drawn
          split
          · next first =>
              rw [if_pos first] at drawn
              cases drawn
              rfl
          · next second =>
              rw [if_neg second] at drawn
              cases drawn
              rfl

/-- Where no line waits the plan is at its end. -/
theorem plan_of_no_draw {m : Merging σ} (drawn : Draw.ofSlots m.slots = none) :
    m.plan = .finish := by
  obtain ⟨inputs, ⟨⟨left⟩, ⟨right⟩⟩, sink, tally, acts⟩ := m
  cases left with
  | none =>
      cases right with
      | none =>
          show Feed.plan .done .done = _
          rw [Feed.plan]
      | some r => cases drawn
  | some l =>
      cases right with
      | none => cases drawn
      | some r =>
          simp only [Draw.ofSlots, Slot.lift] at drawn
          split at drawn <;> cases drawn

/-- Taking the next line changes nothing about what a side is going to give. -/
theorem feed_receive {i : Input} {line : Option Line} (s : Slot)
    (h : i.next.result = .ok line) : (s.receive i.next.result).feed i.next.input = i.feed := by
  rw [h]
  cases line with
  | none => exact (Input.feed_of_end h).symm
  | some l => exact (Input.feed_of_line h).symm

/-- Reading writes no line. -/
theorem written_received (m : Merging σ) (side : Side) (reading : Reading) :
    (m.received side reading).written = m.written := by
  have noted : ∀ events : List Event, (events.map Act.noted).filterMap Act.line? = [] := by
    intro events
    rw [List.filterMap_map]
    exact List.filterMap_eq_nil_iff.mpr fun _ _ => rfl
  unfold written history received
  rw [List.reverse_cons, List.reverse_append, List.filterMap_append, List.filterMap_append,
    ← List.map_reverse, noted, List.append_nil]
  exact List.append_nil _

/-- Taking the next line of a side fills its slot and leaves the other side alone. -/
theorem feed_of_fetch {m m' : Merging σ} {side : Side} (h : m.fetch side = .going m') :
    m'.feed side = (m.inputs.get side).feed ∧ m'.feed side.other = m.feed side.other ∧
      m'.inputs.get side.other = m.inputs.get side.other := by
  obtain ⟨line, given, rfl⟩ := fetch_eq_going h
  refine ⟨?_, ?_, Both.get_set_other _ _ _⟩
  · rw [feed, received, Both.get_set_self, Both.get_set_self, feed_receive _ given]
  · rw [feed, received, Both.get_set_other, Both.get_set_other, ← feed]

/-- The next line of a side is taken. -/
theorem fetch_going {m m' : Merging σ} {side : Side} (h : m.fetch side = .going m') :
    m'.plan = m.planTaking side ∧ m'.sink = m.sink ∧ m'.tally = m.tally ∧
      m'.written = m.written := by
  have ⟨own, other, _⟩ := feed_of_fetch h
  refine ⟨?_, ?_⟩
  · -- The plan takes the left feed first, so the two sides are told apart here.
    cases side with
    | left =>
        show Feed.plan (m'.feed .left) (m'.feed .right) = _
        rw [own, show m'.feed .right = m.feed .right from other]
        rfl
    | right =>
        show Feed.plan (m'.feed .left) (m'.feed .right) = _
        rw [own, show m'.feed .left = m.feed .left from other]
        rfl
  · obtain ⟨line, given, rfl⟩ := fetch_eq_going h
    exact ⟨rfl, rfl, written_received m side _⟩

/-- The next line of a side cannot be taken. -/
theorem fetch_stopped {m m' : Merging σ} {side : Side} {failure : Failure}
    (h : m.fetch side = .stopped failure m') :
    (m.inputs.get side).feed = .broken failure ∧ m'.sink = m.sink ∧ m'.written = m.written ∧
      m'.failed = some side := by
  obtain ⟨given, rfl⟩ := fetch_eq_stopped h
  refine ⟨Input.feed_of_error given, rfl, written_received m side _, ?_⟩
  show Act.failed? (.read side (m.inputs.get side).next.result) = _
  rw [given]
  rfl

/-- The plan where the next line of a side cannot be taken. -/
theorem planTaking_of_broken {m : Merging σ} {side : Side} {failure : Failure}
    (h : (m.inputs.get side).feed = .broken failure) :
    m.planTaking side = .halt side failure := by
  cases side with
  | left =>
      have h : m.inputs.left.feed = .broken failure := h
      rw [planTaking, h, Feed.plan]
  | right =>
      have h : m.inputs.right.feed = .broken failure := h
      rw [planTaking, h, feed, Slot.feed]
      split <;> rw [Feed.plan]

/-! ## Turns and runs -/

/-- An act that writes no line. -/
theorem written_did {m : Merging σ} {act : Act} (h : act.line? = none) :
    (m.did act).written = m.written := by
  unfold written history did
  rw [List.reverse_cons, List.filterMap_append, List.filterMap_cons_none h]
  exact List.append_nil _

/-- A line that is drawn has not been written. -/
theorem written_drew (m : Merging σ) (d : Draw) : (m.drew d).written = m.written :=
  written_did rfl

/-- A line that is written comes after those written before. -/
theorem written_wrote (m : Merging σ) (d : Draw) (sink : σ) :
    ((m.drew d).wrote d sink).written = m.written ++ [d.line] := by
  rw [← written_drew m d]
  unfold written history wrote
  rw [List.reverse_cons, List.filterMap_append]
  rfl

variable [ByteSink σ]

/-- What comes of the rest of a merge if its plan is carried out. -/
def prospect (m : Merging σ) : Performed σ := (m.plan.perform m.sink m.tally).after m.written

/-- A turn goes as planned. -/
theorem turn_going {m m' : Merging σ} {d : Draw} (drawn : Draw.ofSlots m.slots = some d)
    (h : m.turn d = .going m') : m'.prospect = m.prospect := by
  obtain ⟨sink, taken, fetched⟩ := turn_eq_going h
  obtain ⟨plan, same_sink, same_tally, same_written⟩ := fetch_going fetched
  rw [prospect, prospect, plan_of_draw drawn, Plan.perform, taken, plan, same_sink, same_tally,
    same_written, written_wrote, ← Performed.after_after]
  rfl

/-- A turn that stops the merge goes as planned. -/
theorem turn_stopped {m m' : Merging σ} {d : Draw} {failure : Failure}
    (drawn : Draw.ofSlots m.slots = some d) (h : m.turn d = .stopped failure m') :
    (Outcome.mk (.error failure) m').performed = m.prospect := by
  rw [prospect, plan_of_draw drawn, Plan.perform]
  rcases turn_eq_stopped h with ⟨cause, sink, refused, rfl, rfl⟩ | ⟨sink, taken, fetched⟩
  · rw [refused]
    show Performed.mk (.error (.cannotWrite cause)) sink (m.drew d).written none =
      Performed.mk _ sink (m.written ++ []) none
    rw [written_drew, List.append_nil]
  · obtain ⟨broken, same_sink, same_written, failed⟩ := fetch_stopped fetched
    rw [taken, planTaking_of_broken (m := { m with slots := d.slots }) broken,
      Outcome.performed, same_sink, same_written, failed, written_wrote]
    rfl

/-- The end of a merge is as planned. -/
theorem finish_performed {m : Merging σ} (drawn : Draw.ofSlots m.slots = none) :
    m.finish.performed = m.prospect := by
  rw [prospect, plan_of_no_draw drawn, Plan.perform, Plan.close, finish]
  cases done : ByteSink.flush m.sink with
  | mk result sink =>
      cases result with
      | error cause =>
          show Performed.mk (.error (.cannotWrite cause)) sink (m.did .flushed).written none =
            Performed.mk _ sink (m.written ++ []) none
          rw [written_did rfl, List.append_nil]
      | ok _ =>
          show Performed.mk (.ok m.tally) sink
              ((m.did .flushed).did (.noted (.complete m.tally))).written none =
            Performed.mk _ sink (m.written ++ []) none
          rw [written_did rfl, written_did rfl, List.append_nil]

/-- **A merge under way carries out its plan.** -/
theorem performed_run (m : Merging σ) : m.run.performed = m.prospect := by
  induction m using run_induction with
  | finish m drawn =>
      rw [run_eq, drawn]
      exact finish_performed drawn
  | turn m d drawn ih =>
      rw [run_eq, drawn]
      dsimp only
      cases after : m.turn d with
      | stopped failure m' => exact turn_stopped drawn after
      | going m' => exact (ih m' after).trans (turn_going drawn after)

end Merging

/-- **A merge carries out the plan of its inputs.** -/
theorem performed_merge [ByteSink σ] (inputs : Both Input) (sink : σ) :
    (merge inputs sink).performed =
      (Plan.ofFeeds (inputs.map Input.feed)).perform sink {} := by
  unfold merge
  cases first : (Merging.start inputs sink).fetch .left with
  | stopped failure m =>
      obtain ⟨broken, same_sink, same_written, failed⟩ := Merging.fetch_stopped first
      have broken : inputs.left.feed = .broken failure := broken
      rw [Plan.ofFeeds, Both.map, broken, Feed.plan, Plan.perform, Outcome.performed, same_sink,
        same_written, failed]
      rfl
  | going m =>
      obtain ⟨left, -, right⟩ := Merging.feed_of_fetch first
      obtain ⟨-, same_sink, same_tally, same_written⟩ := Merging.fetch_going first
      have taking : m.planTaking .right = Plan.ofFeeds (inputs.map Input.feed) := by
        show Feed.plan (m.feed .left) m.inputs.right.feed = _
        rw [left, show m.inputs.right = inputs.right from right]
        rfl
      rw [← taking]
      dsimp only
      cases second : m.fetch .right with
      | stopped failure m' =>
          obtain ⟨broken, sink', written', failed⟩ := Merging.fetch_stopped second
          rw [Merging.planTaking_of_broken broken, Plan.perform, Outcome.performed, sink',
            written', failed, same_sink, same_written]
          rfl
      | going m' =>
          obtain ⟨plan, sink', tally', written'⟩ := Merging.fetch_going second
          show m'.run.performed = _
          rw [Merging.performed_run, Merging.prospect, plan, sink', tally', written', same_sink,
            same_tally, same_written]
          rfl

end Interleave
