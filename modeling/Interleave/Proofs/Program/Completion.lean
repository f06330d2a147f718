/-
# Exit status and output

A run is a plan too: one that halts at a file that cannot be opened, and the plan of the
merge otherwise.  What the command leaves is told from that plan and from the room that
standard output has.

* `filesPlan` : the plan of a run over two files;
* `interleave_eq_perform` : a run carries out its plan;
* `not_cannotWrite_of_stop?` : no file stops a run with a failure of the output;
* `completed_merge` : exit status and output with standard output readable, closed and
  full.
-/
import Interleave.Program.Command
import Interleave.Proofs.Merge.Buffering

namespace Interleave

/-! ## Asking for a merge -/

/-- After two hyphens any two paths ask for a merge, but for empty ones. -/
theorem Request.ofArguments_paths {left right : String} (l : left ≠ "") (r : right ≠ "") :
    ofArguments ["--", left, right] = .ok (.merge ⟨left, right⟩ false) := by
  simp [ofArguments, ofArgumentsFrom, Partly.argument, Partly.path, Partly.finish, l, r]

/-! ## The plan of a run -/

/-- What a run over two files is going to do. -/
def filesPlan (lookup : String → Except IoError Entry) (paths : Both String)
    (limit : Option Nat) : Plan :=
  match openFile lookup paths.left with
  | .error failure => .halt .left failure
  | .ok left =>
      match openFile lookup paths.right with
      | .error failure => .halt .right failure
      | .ok right => Plan.ofFeeds ((fileInputs paths ⟨left, right⟩ limit).map Input.feed)

/-- **A run carries out its plan.** -/
theorem interleave_eq_perform {σ : Type} [ByteSink σ] (lookup : String → Except IoError Entry)
    (paths : Both String) (limit : Option Nat) (sink : σ) :
    (interleave lookup paths limit sink).result =
        ((filesPlan lookup paths limit).perform sink {}).result ∧
      (interleave lookup paths limit sink).sink =
        ((filesPlan lookup paths limit).perform sink {}).sink := by
  rw [interleave, filesPlan]
  cases openFile lookup paths.left with
  | error failure => exact ⟨rfl, rfl⟩
  | ok left =>
      cases openFile lookup paths.right with
      | error failure => exact ⟨rfl, rfl⟩
      | ok right =>
          obtain ⟨result, sink', -, -⟩ :=
            Outcome.of_performed (performed_merge (fileInputs paths ⟨left, right⟩ limit) sink)
          exact ⟨result, sink'⟩

variable {lookup : String → Except IoError Entry} {paths : Both String} {limit : Option Nat}

/-- Into a sink that takes everything a run ends as it is planned, and writes all of its
bytes. -/
theorem interleave_of_open (lookup : String → Except IoError Entry) (paths : Both String)
    (limit : Option Nat) {s : Sink} (boundless : s.room = none)
    (calm : s.flushFailure = none) :
    (interleave lookup paths limit s).result = (filesPlan lookup paths limit).outcome {} ∧
      (interleave lookup paths limit s).sink.contents =
        s.contents ++ (filesPlan lookup paths limit).bytes := by
  obtain ⟨result, sink⟩ := interleave_eq_perform lookup paths limit s
  rw [result, sink]
  exact Plan.perform_of_open boundless calm

/-- A file that cannot be opened is named. -/
theorem exists_cannotOpen {path : String} {failure : Failure}
    (h : openFile lookup path = .error failure) : ∃ cause, failure = .cannotOpen path cause := by
  unfold openFile at h
  split at h <;> cases h <;> exact ⟨_, rfl⟩

/-- A file that cannot be opened stops the run before anything is written, the left one
first. -/
theorem filesPlan_of_openFile {side : Side} {failure : Failure}
    (unopened : openFile lookup (paths.get side) = .error failure)
    (first : side = .right → ∃ file, openFile lookup paths.left = .ok file) :
    filesPlan lookup paths limit = .halt side failure := by
  rw [filesPlan]
  cases side with
  | left =>
      have unopened : openFile lookup paths.left = .error failure := unopened
      rw [unopened]
  | right =>
      obtain ⟨file, opened⟩ := first rfl
      have unopened : openFile lookup paths.right = .error failure := unopened
      rw [opened, unopened]

/-- **What stops a run** is never a failure of the output. -/
theorem not_cannotWrite_of_stop? {side : Side} {failure : Failure}
    (stop : (filesPlan lookup paths limit).stop? = some (side, failure)) (cause : IoError) :
    failure ≠ .cannotWrite cause := by
  rintro rfl
  rw [filesPlan] at stop
  cases left : openFile lookup paths.left with
  | error failure =>
      obtain ⟨cause', rfl⟩ := exists_cannotOpen left
      rw [left] at stop
      cases stop
  | ok leftFile =>
      cases right : openFile lookup paths.right with
      | error failure =>
          obtain ⟨cause', rfl⟩ := exists_cannotOpen right
          rw [left, right] at stop
          cases stop
      | ok rightFile =>
          -- A failure of an input names a line of it.
          rw [left, right] at stop
          have fails := Plan.failure?_of_stop? stop
          rw [Both.get_map] at fails
          have place := Input.place?_of_failure?_feed fails
          cases place

/-! ## The exit status -/

namespace Invocation

/-- The command ends well where the merge does, and where nobody wants more output. -/
theorem exitStatus_eq_zero_iff {result : Except Failure Tally} :
    exitStatus result = 0 ↔ (∃ tally, result = .ok tally) ∨
      ∃ failure, result = .error failure ∧ failure.isBrokenPipe = true := by
  cases result with
  | ok tally => exact ⟨fun _ => Or.inl ⟨tally, rfl⟩, fun _ => rfl⟩
  | error failure =>
      rw [exitStatus]
      cases broken : failure.isBrokenPipe <;> simp [exitFailure, broken]

/-- The command fails where the merge fails otherwise, and says why. -/
theorem exitStatus_eq_one_iff {result : Except Failure Tally} :
    exitStatus result = 1 ↔
      ∃ failure, result = .error failure ∧ failure.isBrokenPipe = false := by
  cases result with
  | ok tally => exact ⟨nofun, nofun⟩
  | error failure =>
      rw [exitStatus]
      cases broken : failure.isBrokenPipe <;> simp [exitFailure, broken]

/-- A merge leaves no other exit status. -/
theorem exitStatus_eq_zero_or_one (result : Except Failure Tally) :
    exitStatus result = 0 ∨ exitStatus result = 1 := by
  cases result with
  | ok tally => exact Or.inl rfl
  | error failure =>
      rw [exitStatus]
      cases failure.isBrokenPipe
      · exact Or.inr rfl
      · exact Or.inl rfl

/-- Only a failure of the output can be that its reader has gone. -/
theorem isBrokenPipe_eq_false {failure : Failure} (h : ∀ cause, failure ≠ .cannotWrite cause) :
    failure.isBrokenPipe = false := by
  cases failure with
  | cannotWrite cause => exact absurd rfl (h cause)
  | _ => rfl

/-- A failure that is complained about. -/
theorem complaints_of_error {failure : Failure} (h : failure.isBrokenPipe = false) :
    complaints (.error failure) = [s!"Error: {failure.message}"] := by
  rw [complaints, h]
  rfl

/-! ## What the command leaves -/

/-- What the command leaves with standard output being this one. -/
def completeOn (i : Invocation) (s : Sink) : Completion :=
  { i with stdout := s : Invocation }.complete

/-- The plan of the merge that the command is asked for. -/
def plan (i : Invocation) (paths : Both String) : Plan :=
  filesPlan i.lookup paths (Settings.load i.place.file i.settingsFile).settings.limit

/-- Where the plan goes as planned the command ends well if it is not stopped. -/
theorem exitStatus_outcome (i : Invocation) (paths : Both String) :
    exitStatus ((i.plan paths).outcome {}) = 0 ↔ (i.plan paths).stop? = none := by
  rw [exitStatus_eq_zero_iff, Plan.outcome_eq_ok_iff]
  refine ⟨fun ends => ends.resolve_right ?_, Or.inl⟩
  rintro ⟨failure, result, broken⟩
  obtain ⟨side, stop⟩ := Plan.outcome_eq_error_iff.mp result
  rw [isBrokenPipe_eq_false (not_cannotWrite_of_stop? stop)] at broken
  cases broken

section Merges

variable {i : Invocation} {paths : Both String} {debug : Bool}
  (asks : Request.ofArguments i.arguments = .ok (.merge paths debug))

include asks

/-- What the command leaves that is asked for a merge. -/
theorem complete_of_asks (s : Sink) :
    let done := (i.plan paths).perform (BlockBuffered.ofDevice s) {}
    let left := i.completeOn s
    left.exitStatus = exitStatus done.result ∧ left.complaints = complaints done.result ∧
      left.stdout = done.sink.close.inner.device := by
  intro done left
  have merges : left = { i with stdout := s : Invocation }.merge paths debug := by
    show i.completeOn s = _
    rw [completeOn, complete, show Request.ofArguments _ = _ from asks]
  obtain ⟨result, sink⟩ := interleave_eq_perform i.lookup paths
    (Settings.load i.place.file i.settingsFile).settings.limit (BlockBuffered.ofDevice s)
  rw [merges, merge]
  dsimp only
  rw [result, sink]
  exact ⟨rfl, rfl, rfl⟩

/-- Standard output has what it takes of the bytes. -/
theorem contents_complete {s : Sink} (calm : s.flushFailure = none) :
    (i.completeOn s).stdout.contents =
      s.contents ++ s.admitted (i.plan paths).bytes := by
  rw [(complete_of_asks asks s).2.2]
  exact Plan.delivered_perform calm

/-- Where standard output has room for all bytes the plan goes as planned. -/
theorem complete_of_fits {s : Sink} (calm : s.flushFailure = none)
    (fits : s.Fits (i.plan paths).bytes.length) :
    (i.completeOn s).exitStatus =
        exitStatus ((i.plan paths).outcome {}) ∧
      (i.completeOn s).complaints =
        complaints ((i.plan paths).outcome {}) := by
  obtain ⟨status, said, -⟩ := complete_of_asks asks s
  rw [status, said, Plan.result_of_fits calm fits]
  exact ⟨rfl, rfl⟩

/-- Where it has not, the command ends as standard output refuses, or with the failure
that stops the plan. -/
theorem complete_of_not_fits {s : Sink} (calm : s.flushFailure = none)
    (short : ¬ s.Fits (i.plan paths).bytes.length) :
    (i.completeOn s).exitStatus =
        exitStatus (.error (.cannotWrite s.refuse)) ∨
      ∃ side failure, (i.plan paths).stop? = some (side, failure) ∧
        (i.completeOn s).exitStatus = 1 ∧
        (i.completeOn s).complaints = complaints (.error failure) := by
  obtain ⟨status, said, -⟩ := complete_of_asks asks s
  rw [status, said]
  rcases Plan.result_of_not_fits calm short with result | ⟨side, failure, stop, result⟩
  · rw [result]
    exact Or.inl rfl
  · rw [result]
    have input := isBrokenPipe_eq_false (not_cannotWrite_of_stop? stop)
    exact Or.inr ⟨side, failure, stop, exitStatus_eq_one_iff.mpr ⟨failure, rfl, input⟩, rfl⟩

/-- **The reader of standard output goes away.**  The command ends well all the same if
the plan is not stopped, and it fails only with what stops the plan. -/
theorem complete_of_broken {s : Sink} (calm : s.flushFailure = none)
    (broken : s.refuse.isBrokenPipe = true) :
    ((i.plan paths).stop? = none → (i.completeOn s).exitStatus = 0) ∧
      ((i.completeOn s).exitStatus = 1 →
        ∃ side failure, (i.plan paths).stop? = some (side, failure) ∧
          (i.completeOn s).complaints = complaints (.error failure)) := by
  by_cases fits : s.Fits (i.plan paths).bytes.length
  · obtain ⟨status, said⟩ := complete_of_fits asks calm fits
    rw [status, said]
    refine ⟨(exitStatus_outcome i paths).mpr, fun fails => ?_⟩
    obtain ⟨failure, result, -⟩ := exitStatus_eq_one_iff.mp fails
    obtain ⟨side, stop⟩ := Plan.outcome_eq_error_iff.mp result
    exact ⟨side, failure, stop, by rw [result]⟩
  · rcases complete_of_not_fits asks calm fits with status | ⟨side, failure, stop, -, said⟩
    · have well : exitStatus (.error (.cannotWrite s.refuse)) = 0 :=
        exitStatus_eq_zero_iff.mpr (Or.inr ⟨_, rfl, broken⟩)
      rw [status, well]
      exact ⟨fun _ => rfl, nofun⟩
    · refine ⟨fun whole => ?_, fun _ => ⟨side, failure, stop, said⟩⟩
      rw [stop] at whole
      cases whole

/-- **Standard output refuses for another reason.**  The command ends well if and only if
the plan is not stopped and there is room for all of its bytes. -/
theorem exitStatus_complete_eq_zero_iff {s : Sink} (calm : s.flushFailure = none)
    (unbroken : s.refuse.isBrokenPipe = false) :
    (i.completeOn s).exitStatus = 0 ↔
      (i.plan paths).stop? = none ∧ s.Fits (i.plan paths).bytes.length := by
  by_cases fits : s.Fits (i.plan paths).bytes.length
  · rw [(complete_of_fits asks calm fits).1, exitStatus_outcome]
    exact ⟨fun whole => ⟨whole, fits⟩, And.left⟩
  · have fails : (i.completeOn s).exitStatus = 1 := by
      rcases complete_of_not_fits asks calm fits with status | ⟨-, -, -, status, -⟩
      · rw [status]
        exact exitStatus_eq_one_iff.mpr ⟨_, rfl, unbroken⟩
      · exact status
    rw [fails]
    exact ⟨nofun, fun ⟨_, within⟩ => absurd within fits⟩

end Merges

end Invocation

/-- **Exit status and output tell the truth.**  The command is asked to merge two files,
which may fail while they are read.  `run` is the run into a place that takes everything.

With standard output a pipe that is read to its end, the command ends well if and only
if the run does; all that the run writes is read, and a failure is the one that is
complained about.  Where a file cannot be opened nothing is written, and the file is
named, the left one if it is not to be opened.

With a pipe whose reader goes away after `room` bytes, the command ends well where it
ends well with the other pipe.  If it fails then with a failure of the run, which is not
one of the output, and says so.

With a device that is full, the command ends well if and only if it ends well with the
pipe and has nothing to write. -/
theorem completed_merge (i : Invocation) (paths : Both String) (debug : Bool)
    (asks : Request.ofArguments i.arguments = .ok (.merge paths debug))
    (perCall perCall' : Option Nat) (room : Nat) :
    let limit := (Settings.load i.place.file i.settingsFile).settings.limit
    let run := interleave i.lookup paths limit { perCall := perCall' : Sink }
    let piped := i.completeOn { perCall }
    let closed := i.completeOn { room := some room, perCall, refusal := some .brokenPipe }
    let full := i.completeOn (.refusing .noSpace)
    ((piped.exitStatus = 0 ∨ piped.exitStatus = 1) ∧
        (piped.exitStatus = 0 ↔ ∃ tally, run.result = .ok tally) ∧
        piped.stdout.contents = run.sink.contents ∧
        ∀ failure, run.result = .error failure →
          piped.complaints = [s!"Error: {failure.message}"]) ∧
      (∀ side failure, openFile i.lookup (paths.get side) = .error failure →
        (side = .right → ∃ file, openFile i.lookup paths.left = .ok file) →
        (∃ cause, run.result = .error (.cannotOpen (paths.get side) cause)) ∧
          piped.stdout.contents = []) ∧
      ((piped.exitStatus = 0 → closed.exitStatus = 0) ∧
        closed.stdout.contents = run.sink.contents.take room ∧
        (closed.exitStatus = 1 → ∃ failure, run.result = .error failure ∧
          (∀ cause, failure ≠ .cannotWrite cause) ∧
          closed.complaints = [s!"Error: {failure.message}"] ∧
          closed.complaints = piped.complaints)) ∧
      (full.exitStatus = 0 ↔ piped.exitStatus = 0 ∧ piped.stdout.contents = []) := by
  intro limit run piped closed full
  obtain ⟨ended, written⟩ : run.result = (i.plan paths).outcome {} ∧
      run.sink.contents = (i.plan paths).bytes :=
    interleave_of_open i.lookup paths limit rfl rfl
  have succeeds : (∃ tally, run.result = .ok tally) ↔ (i.plan paths).stop? = none := by
    rw [ended, Plan.outcome_eq_ok_iff]
  -- The pipe that is read to its end takes everything too.
  obtain ⟨status, said⟩ := Invocation.complete_of_fits asks (s := { perCall }) rfl
    (Sink.fits_of_room_eq_none rfl _)
  have output : piped.stdout.contents = (i.plan paths).bytes :=
    Invocation.contents_complete asks (s := { perCall }) rfl
  have zero : piped.exitStatus = 0 ↔ (i.plan paths).stop? = none := by
    rw [← Invocation.exitStatus_outcome i paths, ← status]
  -- What stops the run comes from the inputs.
  have input : ∀ failure, run.result = .error failure → ∀ cause, failure ≠ .cannotWrite cause := by
    intro failure result
    rw [ended] at result
    obtain ⟨side, stop⟩ := Plan.outcome_eq_error_iff.mp result
    exact not_cannotWrite_of_stop? stop
  have complains : ∀ failure, run.result = .error failure →
      piped.complaints = [s!"Error: {failure.message}"] := by
    intro failure result
    have said : piped.complaints = _ := said
    rw [said, ← ended, result]
    exact Invocation.complaints_of_error (Invocation.isBrokenPipe_eq_false (input failure result))
  let reader : Sink := { room := some room, perCall, refusal := some .brokenPipe }
  have calm : reader.flushFailure = none := rfl
  have brokenly := Invocation.complete_of_broken asks calm rfl
  rw [written, output, succeeds, zero]
  refine ⟨⟨?_, Iff.rfl, rfl, complains⟩, ?_, ⟨?_, ?_, ?_⟩, ?_⟩
  · rw [← zero]
    have status : piped.exitStatus = _ := status
    rw [status]
    exact Invocation.exitStatus_eq_zero_or_one _
  · intro side failure unopened first
    obtain ⟨cause, rfl⟩ := exists_cannotOpen unopened
    have halts : i.plan paths = .halt side (.cannotOpen (paths.get side) cause) :=
      filesPlan_of_openFile unopened first
    rw [ended, halts]
    exact ⟨⟨cause, rfl⟩, rfl⟩
  · exact brokenly.1
  · exact Invocation.contents_complete asks calm
  · intro fails
    obtain ⟨side, failure, stop, said⟩ := brokenly.2 fails
    have result : run.result = .error failure :=
      ended.trans (Plan.outcome_eq_error_iff.mpr ⟨side, stop⟩)
    have alike : closed.complaints = [s!"Error: {failure.message}"] := said.trans
      (Invocation.complaints_of_error (Invocation.isBrokenPipe_eq_false (input failure result)))
    refine ⟨failure, result, input failure result, alike, ?_⟩
    exact alike.trans (complains failure result).symm
  · rw [Invocation.exitStatus_complete_eq_zero_iff asks (s := .refusing .noSpace) rfl rfl]
    refine and_congr_right fun _ => ⟨fun fits => ?_, fun none => ?_⟩
    · exact List.length_eq_zero_iff.mp (Nat.le_zero.mp (fits 0 rfl))
    · rw [none]
      exact fun _ _ => Nat.zero_le _

/-- One line is written whole into the pipe, and its first three bytes where nobody reads
more. -/
theorem completed_merge_of_one_line :
    let line := Ascii.encode "2024-01-01T00:00:00Z a\n"
    let i : Invocation :=
      { arguments := ["--", "l.log", "r.log"]
        reportFilter := none
        place := SettingsPlace.ofEnvironment none "/home"
        settingsFile := none
        lookup := fun path => .ok (.file (if path = "l.log" then line else []))
        stdout := {} }
    let piped := i.completeOn {}
    let closed := i.completeOn { room := some 3, refusal := some .brokenPipe }
    let full := i.completeOn (.refusing .noSpace)
    piped.exitStatus = 0 ∧ piped.stdout.contents = Ascii.encode "L<< 2024-01-01T00:00:00Z a\n" ∧
      closed.exitStatus = 0 ∧ closed.stdout.contents = Ascii.encode "L<<" ∧
      full.exitStatus ≠ 0 := by
  intro line i piped closed full
  have asks : Request.ofArguments i.arguments = .ok (.merge ⟨"l.log", "r.log"⟩ false) :=
    Request.ofArguments_paths (by decide) (by decide)
  let a : Line := ⟨.left, 1, some ⟨1704067200, 0, by decide⟩, line, false⟩
  have first : (Input.ofReader .left "l.log" (.ofBytes line) none).next.result = .ok (some a) := by
    with_unfolding_all rfl
  have second : (Input.ofReader .left "l.log" (.ofBytes line) none).next.input.next.result =
      .ok none := by
    with_unfolding_all rfl
  have other : (Input.ofReader .right "r.log" (.ofBytes []) none).next.result = .ok none := by
    with_unfolding_all rfl
  have plan : filesPlan i.lookup ⟨"l.log", "r.log"⟩ none =
      .write ⟨.left, a, .leftOnly, false⟩ .finish := by
    show (Input.ofReader .left "l.log" (.ofBytes line) none).feed.plan
      (Input.ofReader .right "r.log" (.ofBytes []) none).feed = _
    rw [Input.feed_of_line first, Input.feed_of_end second, Input.feed_of_end other, Feed.plan,
      Feed.plan]
  obtain ⟨result, bytes⟩ := interleave_of_open i.lookup ⟨"l.log", "r.log"⟩ none (s := {}) rfl rfl
  rw [plan] at result bytes
  have record : (Plan.write ⟨.left, a, .leftOnly, false⟩ .finish).bytes =
      Ascii.encode "L<< 2024-01-01T00:00:00Z a\n" := by decide +kernel
  obtain ⟨⟨-, well, output, -⟩, -, ⟨survives, front, -⟩, refused⟩ :=
    completed_merge i _ false asks none none 3
  have ends : piped.exitStatus = 0 := well.mpr ⟨_, result⟩
  have output : piped.stdout.contents = Ascii.encode "L<< 2024-01-01T00:00:00Z a\n" :=
    output.trans (bytes.trans record)
  refine ⟨ends, output, survives ends, ?_, fun full => ?_⟩
  · have front := front.trans (congrArg (List.take 3) (bytes.trans record))
    exact front.trans (by decide +kernel)
  · have none := (refused.mp full).2
    rw [show piped.stdout.contents = _ from output] at none
    cases none

end Interleave
