/-
# Sources

A source is an input as it is given: the content, the limit, the sizes of the
deliveries and the faults on the way.

* `Source.input`, `Source.inputs` : the inputs that read sources;
* `Source.lines_feed` : what is read of a source that does not fail is its content;
* `Source.first` : the source cut off after its first lines, without the faults from
  there on;
* `Source.feed_first` : cut off before the line that fails, a source gives the same
  lines and then ends.
-/
import Interleave.Proofs.Log.Feed

namespace Interleave

/-- An input as it is given. -/
structure Source where
  path : String
  content : Bytes
  /-- The size of the deliveries, all at once if there is none. -/
  chunk : Option Nat := none
  faults : List Fault := []
  limit : Option Nat := none

/-- The source has no limit and meets no faults. -/
structure Source.Plain (s : Source) : Prop where
  limitless : s.limit = none
  faultless : s.faults = []

namespace Source

/-! ## Reading sources -/

/-- The input that reads a source. -/
def input (s : Source) (side : Side) : Input :=
  .ofReader side s.path (.ofContent s.content s.chunk s.faults) s.limit

/-- The inputs that read two sources. -/
def inputs (sources : Both Source) : Both Input :=
  ⟨sources.left.input .left, sources.right.input .right⟩

@[simp] theorem get_inputs (sources : Both Source) (side : Side) :
    (inputs sources).get side = (sources.get side).input side := by
  cases side <;> rfl

theorem rest_input (s : Source) (side : Side) : (s.input side).reader.rest = s.content :=
  Reader.rest_ofContent s.content s.chunk s.faults

/-- What is read of a source are the first lines of its content, and all of them where
it does not fail. -/
theorem lines_feed (s : Source) (side : Side) :
    ∃ others, Line.ofContent side s.content = (s.input side).feed.lines ++ others ∧
      ((s.input side).feed.failure? = none → others = []) := by
  have lines := (s.input side).lines_feed
  rwa [rest_input] at lines

/-- What is read of a source that does not fail. -/
theorem lines_feed_of_whole {s : Source} {side : Side}
    (h : (s.input side).feed.failure? = none) :
    (s.input side).feed.lines = Line.ofContent side s.content := by
  obtain ⟨others, lines, whole⟩ := s.lines_feed side
  rw [lines, whole h, List.append_nil]

/-- The lines that are read are of the side that is read. -/
theorem side_of_mem_feed {s : Source} {side : Side} {l : Line}
    (h : l ∈ (s.input side).feed.lines) : l.side = side := by
  obtain ⟨others, lines, -⟩ := s.lines_feed side
  have member : l ∈ Line.ofContent side s.content := by
    rw [lines]
    exact List.mem_append_left _ h
  exact Line.side_of_mem_numbered member

/-- A source fails at the line after those that are read. -/
theorem place?_of_failure?_feed {s : Source} {side : Side} {failure : Failure}
    (h : (s.input side).feed.failure? = some failure) :
    failure.place? = some (s.path, (s.input side).feed.lines.length + 1) := by
  rw [Input.place?_of_failure?_feed h]
  show some (s.path, 0 + (s.input side).feed.lines.length + 1) = _
  rw [Nat.zero_add]

/-- The tape of a source without faults holds the content and nothing else. -/
theorem tape_of_faultless {s : Source} (side : Side) (faultless : s.faults = []) :
    (s.input side).reader.tape = Tape.ofBytes s.content := by
  show (Reader.ofContent s.content s.chunk s.faults).tape = _
  rw [Reader.tape_ofContent, faultless, Reader.inOrder, List.mergeSort_nil]
  rfl

/-- A source without faults does not fail if each of its lines is one under its
limit. -/
theorem failure?_feed_of_faultless {s : Source} (side : Side) (faultless : s.faults = [])
    (admitted : ∀ raw ∈ s.content.lines, Line.Admitted s.limit raw) :
    (s.input side).feed.failure? = none := by
  refine Input.failure?_feed_eq_none ?_ ?_
  · intro cause
    rw [tape_of_faultless side faultless]
    exact Tape.failure_notMem_ofBytes cause s.content
  · rw [rest_input]
    exact admitted

/-! ## Cutting a source off -/

/-- The bytes of the first lines of a source. -/
def front (s : Source) (n : Nat) : Bytes := (s.content.lines.take n).flatten

/-- The source cut off after its first `n` lines, without the faults from there on. -/
def first (s : Source) (n : Nat) : Source :=
  { s with
    content := s.front n
    faults := s.faults.filter (Fault.before (s.front n).length) }

/-- The first lines are the front of the content. -/
theorem front_eq_take (s : Source) (n : Nat) :
    s.front n = s.content.take (s.front n).length := by
  have whole : s.front n ++ (s.content.lines.drop n).flatten = s.content := by
    rw [front, ← List.flatten_append, List.take_append_drop, Bytes.flatten_lines]
  conv => rhs; rw [← whole]
  rw [List.take_left]

/-- The lines that are read, as the first lines of the content. -/
theorem map_raw_feed (s : Source) (side : Side) :
    (s.input side).feed.lines.map Line.raw =
      s.content.lines.take (s.input side).feed.lines.length := by
  obtain ⟨others, lines, -⟩ := s.lines_feed side
  have raws := congrArg (List.map Line.raw) lines
  rw [Line.ofContent, Line.map_raw_numbered, List.map_append] at raws
  have size : (s.input side).feed.lines.length =
      ((s.input side).feed.lines.map Line.raw).length := (List.length_map _).symm
  rw [raws, size, List.take_left]

/-- The tape of the lines that are read holds nothing else. -/
theorem tape_first (s : Source) (side : Side) :
    ((s.first (s.input side).feed.lines.length).input side).reader.tape =
      Tape.ofBytes (s.front (s.input side).feed.lines.length) := by
  obtain ⟨t, tape⟩ := (s.input side).tape_feed
  rw [map_raw_feed, ← front] at tape
  have cut := Reader.tape_ofContent_take s.content s.chunk s.faults
    (s.front (s.input side).feed.lines.length).length
  rw [← front_eq_take] at cut
  refine cut.trans ?_
  show Tape.upTo _ (s.input side).reader.tape = _
  rw [tape, Tape.upTo_ofBytes_append_ge _ _ _ (Nat.le_refl _), List.take_length]

/-- **A source cut off before the line that fails** gives the same lines and then
ends. -/
theorem feed_first (s : Source) (side : Side) :
    ((s.first (s.input side).feed.lines.length).input side).feed =
      (s.input side).feed.mend := by
  have whole : ((s.first (s.input side).feed.lines.length).input side).feed.failure? = none := by
    refine Input.failure?_feed_eq_none ?_ ?_
    · intro cause
      rw [tape_first]
      exact Tape.failure_notMem_ofBytes cause _
    · intro raw member
      rw [rest_input] at member
      have read : raw ∈ (s.input side).feed.lines.map Line.raw := by
        rw [map_raw_feed, ← Bytes.lines_flatten_take]
        exact member
      obtain ⟨l, given, rfl⟩ := List.mem_map.mp read
      show Line.Admitted (s.input side).limit l.raw
      exact Input.admitted_of_mem_feed given
  refine Feed.ext ?_ ?_
  · -- Not failing, it gives all its lines, and these are the first lines of the source.
    obtain ⟨others, lines, -⟩ := s.lines_feed side
    rw [lines_feed_of_whole whole, Feed.lines_mend, Line.ofContent]
    show Line.numbered side 1 none (Bytes.lines (s.front _)) = _
    rw [front, Bytes.lines_flatten_take, Line.numbered_take]
    show (Line.ofContent side s.content).take _ = _
    rw [lines, List.take_left]
  · rw [whole, Feed.failure?_mend]

end Source

end Interleave
