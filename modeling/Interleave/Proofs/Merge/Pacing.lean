/-
# The pace of a merge

A merge never looks further ahead than it has to.  Seen from one side it takes a line,
writes it and only then takes the next one, until the input has ended or failed; after
that it leaves the input alone.  And it comes to an end, since every turn but the last
writes a line.

* `Merging.acted`, `Merging.due` : what has been done on one side, and what is to come;
* `acted_turn_going`, `acted_run` : a merge does what is due, one thing after another;
* `Merging.Polled` : there are no attempts but those that are recorded;
* `Progress.Ends` : how a merge ends, and after how many turns;
* `paced_merge` : the pace of a merge, and how long it takes.
-/
import Interleave.Proofs.Log.Attempts
import Interleave.Proofs.Merge.Counting
import Interleave.Proofs.Merge.Draining
import Interleave.Proofs.Merge.History
import Interleave.Proofs.Merge.Truncation

namespace Interleave

variable {σ : Type}

/-! ## What is done on one side -/

/-- What is done with an input begins with an attempt to take a line. -/
theorem Input.acts_feed (i : Input) (side : Side) :
    i.feed.acts side = .read side i.next.result :: (i.feed.acts side).tail := by
  cases given : i.next.result with
  | error failure => simp [feed_of_error given, Feed.acts]
  | ok line =>
      cases line with
      | none => simp [feed_of_end given, Feed.acts]
      | some l => simp [feed_of_line given, Feed.acts]

namespace Merging

/-- What has been done with the input of a side. -/
def acted (m : Merging σ) (side : Side) : List Act := m.history.filter (Act.concerns side)

/-- What is to be done with the input of a side.  The line that waits has been taken. -/
def due (m : Merging σ) (side : Side) : List Act := ((m.feed side).acts side).tail

variable {m m' : Merging σ} {side : Side} {d : Draw} {failure : Failure}

/-- Where no line waits nothing is due. -/
theorem due_of_no_draw (drawn : Draw.ofSlots m.slots = none) (side : Side) :
    m.due side = [] := by
  rw [due, feed, Slot.feed, Draw.line_of_none drawn side]
  rfl

/-- Where a line is drawn it is due to be written, and then the next one is to be taken. -/
theorem due_of_draw (drawn : Draw.ofSlots m.slots = some d) :
    m.due d.side = .wrote d.side d.line :: (m.inputs.get d.side).feed.acts d.side := by
  rw [due, feed, Slot.feed, (Draw.get_slots drawn).1]
  rfl

/-- Reports are no matter of a side. -/
theorem filter_concerns_noted (side : Side) (events : List Event) :
    (events.map Act.noted).filter (Act.concerns side) = [] := by
  simp [Act.concerns]

/-- An attempt to take a line of a side is done with its input. -/
theorem acted_received (m : Merging σ) (side : Side) (reading : Reading) :
    (m.received side reading).acted side = m.acted side ++ [.read side reading.result] := by
  simp [acted, history_received, filter_concerns_noted, Act.concerns]

/-- An attempt to take a line of a side is no matter of the other. -/
theorem acted_received_other (m : Merging σ) (side : Side) (reading : Reading) :
    (m.received side reading).acted side.other = m.acted side.other := by
  cases side <;> simp [acted, history_received, filter_concerns_noted, Act.concerns, Side.other]

/-- A line that is drawn has not been written. -/
theorem acted_drew (m : Merging σ) (d : Draw) (side : Side) :
    (m.drew d).acted side = m.acted side := by
  simp [acted, history_drew, Act.concerns]

/-- A line that is written is one of its side. -/
theorem acted_wrote (m : Merging σ) (d : Draw) (sink : σ) :
    ((m.drew d).wrote d sink).acted d.side = m.acted d.side ++ [.wrote d.side d.line] := by
  rw [← acted_drew m d]
  simp [acted, history_wrote, Act.concerns]

/-- A line that is written is none of the other side. -/
theorem acted_wrote_other (m : Merging σ) (d : Draw) (sink : σ) :
    ((m.drew d).wrote d sink).acted d.side.other = m.acted d.side.other := by
  rw [← acted_drew m d]
  cases side : d.side <;> simp [acted, history_wrote, Act.concerns, Side.other, side]

/-! ## Step after step -/

/-- Taking a line is the first thing that is to be done with an input. -/
theorem acted_fetch_going (h : m.fetch side = .going m') :
    m'.acted side ++ m'.due side = m.acted side ++ (m.inputs.get side).feed.acts side ∧
      m'.acted side.other ++ m'.due side.other = m.acted side.other ++ m.due side.other := by
  obtain ⟨own, other, -⟩ := feed_of_fetch h
  obtain ⟨line, given, rfl⟩ := fetch_eq_going h
  constructor
  · rw [due, own, acted_received, (m.inputs.get side).acts_feed side, List.append_assoc]
    rfl
  · rw [due, other, acted_received_other, ← due]

/-- A failure is all that is to be done with an input that fails. -/
theorem acted_fetch_stopped (h : m.fetch side = .stopped failure m') :
    m'.acted side = m.acted side ++ (m.inputs.get side).feed.acts side ∧
      m'.acted side.other = m.acted side.other := by
  obtain ⟨given, rfl⟩ := fetch_eq_stopped h
  refine ⟨?_, acted_received_other m side _⟩
  rw [acted_received, Input.feed_of_error given, given]
  rfl

variable [ByteSink σ]

/-- **A turn does what is due.** -/
theorem acted_turn_going (drawn : Draw.ofSlots m.slots = some d) (h : m.turn d = .going m')
    (side : Side) : m'.acted side ++ m'.due side = m.acted side ++ m.due side := by
  obtain ⟨sink, -, fetched⟩ := turn_eq_going h
  obtain ⟨own, other⟩ := acted_fetch_going fetched
  by_cases same : side = d.side
  · rw [same, own, acted_wrote, due_of_draw drawn, List.append_assoc]
    rfl
  · -- The other slot is as it was.
    have waits : ((m.drew d).wrote d sink).due d.side.other = m.due d.side.other := by
      show (((d.slots.get d.side.other).feed (m.inputs.get d.side.other)).acts _).tail = _
      rw [(Draw.get_slots drawn).2]
      rfl
    rw [Side.eq_other_of_ne same, other, acted_wrote_other, waits]

/-- A turn that stops the merge has done some of what is due. -/
theorem acted_turn_stopped (drawn : Draw.ofSlots m.slots = some d)
    (h : m.turn d = .stopped failure m') (side : Side) :
    m'.acted side <+: m.acted side ++ m.due side := by
  rcases turn_eq_stopped h with ⟨cause, sink, -, -, rfl⟩ | ⟨sink, -, fetched⟩
  · exact (acted_drew m d side) ▸ List.prefix_append _ _
  · obtain ⟨own, other⟩ := acted_fetch_stopped fetched
    by_cases same : side = d.side
    · rw [same, own, acted_wrote, due_of_draw drawn, List.append_assoc]
      exact List.prefix_rfl
    · rw [Side.eq_other_of_ne same, other, acted_wrote_other]
      exact List.prefix_append _ _

/-- The end of a merge is no matter of a side. -/
theorem acted_finish (m : Merging σ) (side : Side) : m.finish.last.acted side = m.acted side := by
  rw [finish]
  cases ByteSink.flush m.sink with
  | mk result sink => cases result <;> simp [acted, history, did, Act.concerns]

/-- **A run does what is due**, all of it where it succeeds. -/
theorem acted_run (m : Merging σ) (side : Side) :
    m.run.last.acted side <+: m.acted side ++ m.due side ∧
      ∀ tally, m.run.result = .ok tally → m.run.last.acted side = m.acted side ++ m.due side := by
  induction m using run_induction with
  | finish m drawn =>
      rw [run_eq, drawn, due_of_no_draw drawn, List.append_nil, acted_finish]
      exact ⟨List.prefix_rfl, fun _ _ => rfl⟩
  | turn m d drawn ih =>
      rw [run_eq, drawn]
      dsimp only
      cases after : m.turn d with
      | stopped failure m' => exact ⟨acted_turn_stopped drawn after side, nofun⟩
      | going m' =>
          rw [← acted_turn_going drawn after side]
          exact ih m' after

end Merging

/-! ## The whole merge -/

/-- A merge as it is when it has taken the first line of each input. -/
def Merging.begin (inputs : Both Input) (sink : σ) : Progress σ :=
  match (start inputs sink).fetch .left with
  | .stopped failure m => .stopped failure m
  | .going m => m.fetch .right

/-- A merge begins and then runs. -/
theorem merge_eq_begin_ending [ByteSink σ] (inputs : Both Input) (sink : σ) :
    merge inputs sink = (Merging.begin inputs sink).ending Merging.run := by
  rw [merge_eq, Merging.begin]
  cases (Merging.start inputs sink).fetch .left <;> rfl

namespace Merging

variable {inputs : Both Input} {sink : σ} {m : Merging σ} {failure : Failure}

/-- What holds at the start and is kept where a side is asked holds when a merge has
begun. -/
theorem holds_begin {P : Merging σ → Prop} (holds : P (start inputs sink))
    (received : ∀ m side, P m → P (m.received side (m.inputs.get side).next)) :
    P (begin inputs sink).merging := by
  have first := received (start inputs sink) .left holds
  rw [← merging_fetch] at first
  rw [begin]
  cases taken : (start inputs sink).fetch .left with
  | stopped failure m =>
      rw [taken] at first
      exact first
  | going m =>
      rw [taken] at first
      dsimp only
      rw [merging_fetch]
      exact received m .right first

/-- When the first left line has been taken, nothing has been done on the right. -/
theorem acted_first (h : (start inputs sink).fetch .left = .going m) :
    m.acted .left ++ m.due .left = inputs.left.feed.acts .left ∧ m.acted .right = [] ∧
      m.inputs.get .right = inputs.get .right := by
  obtain ⟨own, -⟩ := acted_fetch_going h
  obtain ⟨-, -, same⟩ := feed_of_fetch h
  refine ⟨own, ?_, same⟩
  obtain ⟨line, -, rfl⟩ := fetch_eq_going h
  exact acted_received_other _ .left _

/-- When a merge has begun, all that there is to do with its inputs is done or due. -/
theorem acted_begin_going (h : begin inputs sink = .going m) (side : Side) :
    m.acted side ++ m.due side = (inputs.get side).feed.acts side := by
  rw [begin] at h
  cases first : (start inputs sink).fetch .left with
  | stopped failure m' =>
      rw [first] at h
      cases h
  | going m' =>
      rw [first] at h
      obtain ⟨left, untouched, same⟩ := acted_first first
      obtain ⟨right', left'⟩ := acted_fetch_going h
      cases side with
      | left => exact left'.trans left
      | right => rw [right', untouched, same, List.nil_append]

/-- Where a merge cannot begin, only part of what there is to do has been done. -/
theorem acted_begin_stopped (h : begin inputs sink = .stopped failure m) (side : Side) :
    m.acted side <+: (inputs.get side).feed.acts side := by
  rw [begin] at h
  cases first : (start inputs sink).fetch .left with
  | stopped failure' m' =>
      rw [first] at h
      cases h
      obtain ⟨left, right⟩ := acted_fetch_stopped first
      cases side with
      | left =>
          rw [left]
          exact List.prefix_rfl
      | right => exact ⟨_, congrArg (· ++ _) right⟩
  | going m' =>
      rw [first] at h
      obtain ⟨left, untouched, same⟩ := acted_first first
      obtain ⟨right', left'⟩ := acted_fetch_stopped h
      cases side with
      | left => exact ⟨m'.due .left, (congrArg (· ++ _) left').trans left⟩
      | right =>
          rw [right', untouched, same]
          exact List.prefix_rfl

/-- When a merge has begun, its plan is that of its inputs. -/
theorem plan_begin (h : begin inputs sink = .going m) :
    m.plan = Plan.ofFeeds (inputs.map Input.feed) := by
  rw [begin] at h
  cases first : (start inputs sink).fetch .left with
  | stopped failure m' =>
      rw [first] at h
      cases h
  | going m' =>
      rw [first] at h
      obtain ⟨left, -, right⟩ := feed_of_fetch first
      rw [(fetch_going h).1]
      show Feed.plan (m'.feed .left) (m'.inputs.get .right).feed = _
      rw [left, show m'.inputs.get .right = inputs.get .right from right]
      rfl

end Merging

/-- **A merge takes and writes one line after another** on each side, all of them where
it succeeds. -/
theorem acted_merge [ByteSink σ] (inputs : Both Input) (sink : σ) (side : Side) :
    (merge inputs sink).last.acted side <+: (inputs.get side).feed.acts side ∧
      ∀ tally, (merge inputs sink).result = .ok tally →
        (merge inputs sink).last.acted side = (inputs.get side).feed.acts side := by
  rw [merge_eq_begin_ending]
  cases begun : Merging.begin inputs sink with
  | stopped failure m => exact ⟨Merging.acted_begin_stopped begun side, nofun⟩
  | going m =>
      rw [← Merging.acted_begin_going begun side]
      exact m.acted_run side

/-! ## Nothing else is read -/

/-- Each input is as many attempts further as there have been for its side. -/
def Merging.Polled (inputs : Both Input) (m : Merging σ) : Prop :=
  ∀ side, m.inputs.get side = (inputs.get side).after (Act.results side m.history).length

namespace Merging

variable {inputs : Both Input} {m : Merging σ}

/-- An attempt is one more for its side and none for the other. -/
theorem Polled.received (polled : m.Polled inputs) (side : Side) :
    (m.received side (m.inputs.get side).next).Polled inputs := by
  intro side'
  by_cases own : side = side'
  · subst own
    have attempts : Act.results side (m.received side (m.inputs.get side).next).history =
        Act.results side m.history ++ [(m.inputs.get side).next.result] := by
      simp [history_received, Act.results_append, Act.results_map_noted]
    rw [attempts, List.length_append, Merging.received, Both.get_set_self, polled side]
    rfl
  · have attempts : Act.results side' (m.received side (m.inputs.get side).next).history =
        Act.results side' m.history := by
      simp [history_received, Act.results_append, Act.results_map_noted, Act.results_read_ne own]
    rw [attempts, Merging.received, Both.get_set_ne _ _ own]
    exact polled side'

/-- What takes no line changes nothing about the attempts. -/
theorem Polled.congr {m' : Merging σ} (polled : m.Polled inputs) (same : m'.inputs = m.inputs)
    (attempts : ∀ side, Act.results side m'.history = Act.results side m.history) :
    m'.Polled inputs := by
  intro side
  rw [same, attempts]
  exact polled side

/-- **Every attempt is recorded.** -/
theorem kept_polled [ByteSink σ] (inputs : Both Input) : Kept (σ := σ) (Polled inputs) where
  received m side polled := polled.received side
  wrote m d sink polled :=
    polled.congr rfl fun side => by simp [history_wrote, history_drew, Act.results_append]
  refused m d sink polled :=
    polled.congr rfl fun side => by simp [history, drew, Act.results_append]
  flushed m sink polled :=
    polled.congr rfl fun side => by simp [history, did, Act.results_append]
  completed m polled :=
    polled.congr rfl fun side => by simp [history, did, Act.results_append]

end Merging

/-! ## How long a merge takes -/

/-- How a merge ends that goes on in a given way, and after how many turns.  A turn is
taken as long as a line waits. -/
inductive Progress.Ends [ByteSink σ] : Progress σ → Nat → Outcome σ → Prop where
  | stopped (failure : Failure) (m : Merging σ) :
      Ends (.stopped failure m) 0 ⟨.error failure, m⟩
  | finish {m : Merging σ} : Draw.ofSlots m.slots = none → Ends (.going m) 0 m.finish
  | turn {m : Merging σ} {d : Draw} {turns : Nat} {outcome : Outcome σ} :
      Draw.ofSlots m.slots = some d → Ends (m.turn d) turns outcome →
        Ends (.going m) (turns + 1) outcome

namespace Merging

variable [ByteSink σ]

/-- After a turn the plan is what it was but for the line that is written. -/
theorem plan_turn {m m' : Merging σ} {d : Draw} (drawn : Draw.ofSlots m.slots = some d)
    (h : m.turn d = .going m') :
    m.plan = .write ⟨d.side, d.line, d.waiting, d.tie⟩ m'.plan := by
  obtain ⟨sink, -, fetched⟩ := turn_eq_going h
  rw [(fetch_going fetched).1]
  exact plan_of_draw drawn

/-- **A run ends** after as many turns as there are lines to write, or sooner. -/
theorem ends_run (m : Merging σ) :
    ∃ turns ≤ m.plan.lines.length, (Progress.going m).Ends turns m.run := by
  induction m using run_induction with
  | finish m drawn =>
      rw [run_eq, drawn]
      exact ⟨0, Nat.zero_le _, .finish drawn⟩
  | turn m d drawn ih =>
      rw [run_eq, drawn]
      dsimp only
      cases after : m.turn d with
      | stopped failure m' =>
          refine ⟨1, ?_, .turn drawn ?_⟩
          · rw [plan_of_draw drawn]
            exact Nat.le_add_left _ _
          · rw [after]
            exact .stopped failure m'
      | going m' =>
          obtain ⟨turns, bound, ends⟩ := ih m' after
          refine ⟨turns + 1, ?_, .turn drawn ?_⟩
          · rw [plan_turn drawn after]
            exact Nat.succ_le_succ bound
          · rw [after]
            exact ends

end Merging

/-- A plan has no more lines than the contents of its sources. -/
theorem Source.length_lines_plan_le (sources : Both Source) :
    (plan sources).lines.length ≤
      (sources.get .left).content.lines.length + (sources.get .right).content.lines.length := by
  have given : ∀ side, ((plan sources).given side).length ≤
      (sources.get side).content.lines.length := by
    intro side
    have first := (given_plan_isPrefix sources side).length_le
    rwa [length_ofContent] at first
  rw [Line.length_eq_add]
  exact Nat.add_le_add (given .left) (given .right)

/-- **A merge ends** after as many turns as its sources have lines, or sooner. -/
theorem Source.ends_merge [ByteSink σ] (sources : Both Source) (sink : σ) :
    ∃ turns ≤ (sources.get .left).content.lines.length + (sources.get .right).content.lines.length,
      (Merging.begin (inputs sources) sink).Ends turns (merge (inputs sources) sink) := by
  rw [merge_eq_begin_ending]
  cases begun : Merging.begin (inputs sources) sink with
  | stopped failure m => exact ⟨0, Nat.zero_le _, .stopped failure m⟩
  | going m =>
      obtain ⟨turns, bound, ends⟩ := m.ends_run
      rw [Merging.plan_begin begun] at bound
      exact ⟨turns, Nat.le_trans bound (length_lines_plan_le sources), ends⟩

/-- **The pace of a merge**, whatever it writes to.  It ends, after as many turns as its
inputs have lines or sooner.  At every moment of it the lines that a side has handed out
are those of the side that have been written, and at most one more.  When an attempt to
take a line of a side has given none, no further one is made.  What is taken of a side
is what it gives when it is read on its own, in as many attempts as the history tells of,
and a merge that succeeds has made one for each line of the side and one more. -/
theorem paced_merge [ByteSink σ] (sources : Both Source) (sink : σ) :
    let outcome := merge (Source.inputs sources) sink
    (∃ turns ≤ (sources.get .left).content.lines.length +
          (sources.get .right).content.lines.length,
        (Merging.begin (Source.inputs sources) sink).Ends turns outcome) ∧
      ∀ side,
        (∀ acts, acts <+: outcome.last.history → ∃ waiting : Option Line,
          Act.handed side acts = Act.written side acts ++ waiting.toList) ∧
        (∀ before result after, outcome.last.history = before ++ .read side result :: after →
          (∀ l, result ≠ .ok (some l)) → Act.results side after = []) ∧
        Act.results side outcome.last.history <+:
          ((sources.get side).input side).readings.map Reading.result ∧
        outcome.last.inputs.get side =
          ((sources.get side).input side).after (Act.results side outcome.last.history).length ∧
        (∀ tally, outcome.result = .ok tally →
          (Act.results side outcome.last.history).length =
            (sources.get side).content.lines.length + 1) := by
  intro outcome
  refine ⟨Source.ends_merge sources sink, fun side => ?_⟩
  obtain ⟨some, all⟩ := acted_merge (Source.inputs sources) sink side
  rw [Source.get_inputs] at some all
  have some : outcome.last.history.filter (Act.concerns side) <+:
      ((sources.get side).input side).feed.acts side := some
  refine ⟨?_, ?_, ?_, ?_, ?_⟩
  · intro acts moment
    obtain ⟨waiting, handed⟩ :=
      Feed.handed_of_prefix ((moment.filter (Act.concerns side)).trans some)
    rw [Act.handed_filter, Act.written_filter] at handed
    exact ⟨waiting, handed⟩
  · intro before result after parts last
    have own : Act.concerns side (.read side result) = true := decide_eq_true rfl
    rw [parts, List.filter_append, List.filter_cons_of_pos own] at some
    rw [← Act.results_filter, Feed.eq_nil_of_prefix some last, Act.results_nil]
  · rw [Input.results_readings, ← Feed.results_acts side, ← Act.results_filter]
    exact some.filterMap _
  · have begun : (Merging.start (Source.inputs sources) sink).Polled (Source.inputs sources) :=
      fun _ => rfl
    rw [← Source.get_inputs]
    exact (Merging.kept_polled _).merge begun side
  · intro tally succeeds
    have whole := Source.whole_of_result_ok succeeds side
    have read : Act.results side outcome.last.history =
        ((sources.get side).input side).feed.results := by
      rw [← Act.results_filter, ← Feed.results_acts side]
      exact congrArg (Act.results side) (all tally succeeds)
    rw [read, Feed.results_eq, List.length_append, List.length_map,
      Source.lines_feed_of_whole whole, Source.length_ofContent]
    rfl

/-- The right input is empty.  It is asked once, and the left one three times. -/
theorem paced_merge_beside_nothing :
    let left := Ascii.encode "2024-01-02T00:00:00Z b\n2024-01-01T00:00:00Z a"
    let sources : Both Source :=
      ⟨{ path := "l.log", content := left, chunk := some 5 }, { path := "r.log", content := [] }⟩
    let outcome := merge (Source.inputs sources) ({} : Sink)
    (∃ tally, outcome.result = .ok tally) ∧
      (Act.results .left outcome.last.history).length = 3 ∧
      (Act.results .right outcome.last.history).length = 1 := by
  intro left sources outcome
  have whole : ∀ side, ((sources.get side).input side).feed.failure? = none :=
    Source.whole_of_dated (by rintro (_ | _) <;> rfl) (by rintro (_ | _) <;> rfl)
      (by rintro (_ | _) <;> decide +kernel)
  have succeeds := (Source.merge_of_whole (s := {}) (Sink.fits_of_room_eq_none rfl _)
    ((Source.stop?_plan_eq_none_iff sources).mpr whole)).1
  obtain ⟨-, pace⟩ := paced_merge sources ({} : Sink)
  obtain ⟨-, -, -, -, lefts⟩ := pace .left
  obtain ⟨-, -, -, -, rights⟩ := pace .right
  exact ⟨⟨_, succeeds⟩, (lefts _ succeeds).trans (by decide +kernel),
    (rights _ succeeds).trans (by decide +kernel)⟩

end Interleave
