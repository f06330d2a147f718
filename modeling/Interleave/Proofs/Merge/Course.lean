/-
# The course of a merge

A merge goes on from step to step unless a step stops it.  Written this way, what is
shown of one step carries over to the steps that follow, and from there to the whole
merge.

* `fetch_eq_going`, `write_eq_going`, `turn_eq_going` : what a step has done that does
  not stop the merge;
* `Progress.ending` : how a merge ends that goes on in a given way;
* `run_eq`, `merge_eq` : the steps of a run and of a merge;
* `run_induction` : what holds before a turn if it holds after it holds of every run;
* `contents_run` : what has been written stays written;
* `Merging.Kept` : what every step keeps holds at the end of a merge.
-/
import Interleave.Merge.Merging
import Interleave.Proofs.Stream.Room

namespace Interleave

variable {σ : Type}

/-! ## What a step has done -/

namespace Merging

variable {m m' : Merging σ} {side : Side} {d : Draw} {failure : Failure}

/-- A side that is asked and does not fail has given what there was. -/
theorem fetch_eq_going (h : m.fetch side = .going m') :
    ∃ line, (m.inputs.get side).next.result = .ok line ∧
      m' = m.received side (m.inputs.get side).next := by
  rw [fetch, absorb] at h
  split at h
  · next line given =>
      cases h
      exact ⟨line, given, rfl⟩
  · cases h

/-- A side that is asked and fails stops the merge. -/
theorem fetch_eq_stopped (h : m.fetch side = .stopped failure m') :
    (m.inputs.get side).next.result = .error failure ∧
      m' = m.received side (m.inputs.get side).next := by
  rw [fetch, absorb] at h
  split at h
  · cases h
  · next given =>
      cases h
      exact ⟨given, rfl⟩

variable [ByteSink σ]

/-- A line that is written has been taken by the sink. -/
theorem write_eq_going (h : m.write d = .going m') :
    ∃ sink, ByteSink.writeEach m.sink d.line.parts = (.ok (), sink) ∧
      m' = (m.drew d).wrote d sink := by
  rw [write] at h
  split at h
  · cases h
  · next sink taken =>
      cases h
      exact ⟨sink, taken, rfl⟩

/-- A line that is not written has been refused by the sink. -/
theorem write_eq_stopped (h : m.write d = .stopped failure m') :
    ∃ cause sink, ByteSink.writeEach m.sink d.line.parts = (.error cause, sink) ∧
      failure = .cannotWrite cause ∧ m' = { m.drew d with sink } := by
  rw [write] at h
  split at h
  · next cause sink refused =>
      cases h
      exact ⟨cause, sink, refused, rfl, rfl⟩
  · cases h

/-- A turn writes a line and then asks its side. -/
theorem turn_eq_going (h : m.turn d = .going m') :
    ∃ sink, ByteSink.writeEach m.sink d.line.parts = (.ok (), sink) ∧
      ((m.drew d).wrote d sink).fetch d.side = .going m' := by
  rw [turn] at h
  split at h
  · cases h
  · next written =>
      obtain ⟨sink, taken, rfl⟩ := write_eq_going written
      exact ⟨sink, taken, h⟩

/-- A turn stops the merge where the line is not written, and where it is written and its
side fails. -/
theorem turn_eq_stopped (h : m.turn d = .stopped failure m') :
    (∃ cause sink, ByteSink.writeEach m.sink d.line.parts = (.error cause, sink) ∧
      failure = .cannotWrite cause ∧ m' = { m.drew d with sink }) ∨
    ∃ sink, ByteSink.writeEach m.sink d.line.parts = (.ok (), sink) ∧
      ((m.drew d).wrote d sink).fetch d.side = .stopped failure m' := by
  rw [turn] at h
  split at h
  · next stopped =>
      cases h
      exact Or.inl (write_eq_stopped stopped)
  · next written =>
      obtain ⟨sink, taken, rfl⟩ := write_eq_going written
      exact Or.inr ⟨sink, taken, h⟩

end Merging

/-! ## Step after step -/

/-- How a merge ends that goes on as `rest` says, unless it has been stopped. -/
def Progress.ending (p : Progress σ) (rest : Merging σ → Outcome σ) : Outcome σ :=
  match p with
  | .stopped failure m => ⟨.error failure, m⟩
  | .going m => rest m

namespace Merging

variable [ByteSink σ]

/-- After a turn the side is asked whose line has been written. -/
theorem turn_ending (m : Merging σ) (d : Draw) (rest : Merging σ → Outcome σ) :
    (m.turn d).ending rest = (m.write d).ending fun m => (m.fetch d.side).ending rest := by
  rw [turn]
  cases m.write d with
  | stopped failure m => rfl
  | going m => rfl

/-- A run is a turn and the run after it, as long as a line waits. -/
theorem run_eq (m : Merging σ) :
    m.run =
      match Draw.ofSlots m.slots with
      | none => m.finish
      | some d => (m.turn d).ending run := by
  -- The matches of `run` carry their equations, so they are split and not rewritten.
  rw [run]
  split
  · next drawn => rw [drawn]
  · next d drawn =>
      rw [drawn]
      dsimp only
      split
      · next after => rw [after, Progress.ending]
      · next after => rw [after, Progress.ending]

/-- What holds where no line waits, and before a turn if it holds after it, holds of
every merge under way. -/
theorem run_induction {motive : Merging σ → Prop}
    (finish : ∀ m, Draw.ofSlots m.slots = none → motive m)
    (turn : ∀ m d, Draw.ofSlots m.slots = some d →
      (∀ m', m.turn d = .going m' → motive m') → motive m)
    (m : Merging σ) : motive m := by
  induction m using run.induct with
  | case1 m drawn => exact finish m drawn
  | case2 m d drawn failure m' stopped =>
      refine turn m d drawn fun m'' going => ?_
      rw [stopped] at going
      cases going
  | case3 m d drawn m' going ih =>
      refine turn m d drawn fun m'' going' => ?_
      rw [going] at going'
      cases going'
      exact ih

end Merging

/-- A merge asks the left side, then the right side, and then runs. -/
theorem merge_eq [ByteSink σ] (inputs : Both Input) (sink : σ) :
    merge inputs sink =
      ((Merging.start inputs sink).fetch .left).ending fun m =>
        (m.fetch .right).ending Merging.run := by
  rw [merge]
  cases (Merging.start inputs sink).fetch .left with
  | stopped failure m => rfl
  | going m => rfl

/-! ## What has been written -/

namespace Sink

/-- What is written comes after what has been written. -/
theorem contents_writeEach (s : Sink) (runs : List Bytes) :
    s.contents <+: (ByteSink.writeEach s runs).2.contents := by
  by_cases fits : s.Fits runs.flatten.length
  · rw [writeEach_of_fits fits, contents_take]
    exact List.prefix_append _ _
  · obtain ⟨room, given, short⟩ := exists_room_of_not_fits fits
    rw [writeEach_of_short given short, contents_take]
    exact List.prefix_append _ _

end Sink

/-- The merge after a step, stopped or not. -/
def Progress.merging : Progress σ → Merging σ
  | .going m => m
  | .stopped _ m => m

/-- Where a step is followed by what keeps the writing, the writing up to the step is
kept. -/
theorem Progress.contents_ending {p : Progress Sink} {rest : Merging Sink → Outcome Sink}
    (keeps : ∀ m, p = .going m → m.sink.contents <+: (rest m).last.sink.contents) :
    p.merging.sink.contents <+: (p.ending rest).last.sink.contents := by
  cases p with
  | going m => exact keeps m rfl
  | stopped failure m => exact List.prefix_rfl

namespace Merging

/-- Whether a side that is asked fails or not, its answer has been received. -/
theorem merging_fetch (m : Merging σ) (side : Side) :
    (m.fetch side).merging = m.received side (m.inputs.get side).next := by
  rw [fetch, absorb]
  cases (m.inputs.get side).next.result with
  | error failure => rfl
  | ok line => rfl

/-- Asking a side for a line writes nothing. -/
theorem sink_fetch (m : Merging σ) (side : Side) : (m.fetch side).merging.sink = m.sink := by
  rw [merging_fetch]
  rfl

/-- Asking a side before what keeps the writing keeps it. -/
theorem contents_fetch_ending {rest : Merging Sink → Outcome Sink}
    (keeps : ∀ m, m.sink.contents <+: (rest m).last.sink.contents) (m : Merging Sink)
    (side : Side) : m.sink.contents <+: ((m.fetch side).ending rest).last.sink.contents := by
  have grows := Progress.contents_ending (p := m.fetch side) fun m' _ => keeps m'
  rwa [sink_fetch] at grows

/-- A turn keeps what has been written. -/
theorem contents_turn (m : Merging Sink) (d : Draw) :
    m.sink.contents <+: (m.turn d).merging.sink.contents := by
  have grows := m.sink.contents_writeEach d.line.parts
  rw [turn, write]
  cases done : ByteSink.writeEach m.sink d.line.parts with
  | mk result sink =>
      rw [done] at grows
      cases result with
      | error cause => exact grows
      | ok _ =>
          dsimp only
          rw [sink_fetch]
          exact grows

/-- **What has been written stays written.** -/
theorem contents_run (m : Merging Sink) : m.sink.contents <+: m.run.last.sink.contents := by
  induction m using run_induction with
  | finish m drawn =>
      have kept : m.sink.contents <+: m.sink.flush.2.contents :=
        ⟨[], by rw [List.append_nil, Sink.contents_flush]⟩
      rw [run_eq, drawn]
      dsimp only
      rw [finish]
      cases done : ByteSink.flush m.sink with
      | mk result sink =>
          have same : sink = m.sink.flush.2 := (congrArg Prod.snd done).symm
          subst same
          cases result with
          | error cause => exact kept
          | ok _ => exact kept
  | turn m d drawn ih =>
      rw [run_eq, drawn]
      exact (m.contents_turn d).trans (Progress.contents_ending ih)

end Merging

/-! ## What every step keeps -/

namespace Merging

/-- What is kept by each thing that a merge does. -/
structure Kept [ByteSink σ] (P : Merging σ → Prop) : Prop where
  /-- It is kept where a side is asked for a line. -/
  received : ∀ m side, P m → P (m.received side (m.inputs.get side).next)
  /-- It is kept where a line is drawn and written. -/
  wrote : ∀ m d sink, P m → P ((m.drew d).wrote d sink)
  /-- It is kept where a line is drawn and refused. -/
  refused : ∀ m d sink, P m → P { m.drew d with sink }
  /-- It is kept where the sink is flushed. -/
  flushed : ∀ m sink, P m → P ({ m with sink }.did .flushed)
  /-- It is kept where the end is reported. -/
  completed : ∀ m, P m → P (m.did (.noted (.complete m.tally)))

variable [ByteSink σ] {P : Merging σ → Prop}

/-- What is kept by every step is kept where a side is asked. -/
theorem Kept.fetch (kept : Kept P) {m : Merging σ} (holds : P m) (side : Side)
    {rest : Merging σ → Outcome σ} (follows : ∀ m, P m → P (rest m).last) :
    P ((m.fetch side).ending rest).last := by
  have after := kept.received m side holds
  rw [Merging.fetch, absorb]
  cases (m.inputs.get side).next.result with
  | error failure => exact after
  | ok line => exact follows _ after

/-- **What is kept by every step** is kept by a run. -/
theorem Kept.run (kept : Kept P) {m : Merging σ} (holds : P m) : P m.run.last := by
  induction m using run_induction with
  | finish m drawn =>
      rw [run_eq, drawn]
      dsimp only
      rw [finish]
      cases ByteSink.flush m.sink with
      | mk result sink =>
          cases result with
          | error cause => exact kept.flushed m sink holds
          | ok _ => exact kept.completed _ (kept.flushed m sink holds)
  | turn m d drawn ih =>
      rw [run_eq, drawn]
      dsimp only
      cases after : m.turn d with
      | stopped failure m' =>
          rcases turn_eq_stopped after with ⟨cause, sink, -, -, rfl⟩ | ⟨sink, -, fetched⟩
          · exact kept.refused m d sink holds
          · obtain ⟨-, rfl⟩ := fetch_eq_stopped fetched
            exact kept.received _ d.side (kept.wrote m d sink holds)
      | going m' =>
          obtain ⟨sink, -, fetched⟩ := turn_eq_going after
          obtain ⟨line, -, rfl⟩ := fetch_eq_going fetched
          exact ih _ after (kept.received _ d.side (kept.wrote m d sink holds))

/-- **What is kept by every step** and holds at the start holds at the end of a merge. -/
theorem Kept.merge (kept : Kept P) {inputs : Both Input} {sink : σ}
    (holds : P (start inputs sink)) : P (merge inputs sink).last := by
  rw [merge_eq]
  exact kept.fetch holds .left fun _ later => kept.fetch later .right fun _ => kept.run

end Merging

end Interleave
