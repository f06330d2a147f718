/-
# A run over two files

Both files are opened before anything is written, so a file that is not there never
leaves a part of the output behind.  Then the files are merged, and a run that
succeeds reports the inputs that went back in time.

* `openFile` : a file to read from;
* `interleave` : the run.
-/
import Interleave.Files.Tree
import Interleave.Merge.Merging

namespace Interleave

/-- How a run ended, where its output went, and what it reported. -/
structure RunReport (σ : Type) where
  result : Except Failure Tally
  sink : σ
  events : List Event

/-- The file that a path leads to.  Nothing of it is read yet, so a failure in reading it
is not met here. -/
def openFile (lookup : String → Except IoError Entry) (path : String) :
    Except Failure OpenFile :=
  match lookup path with
  | .ok (.stream file) => .ok file
  | .ok .directory => .error (.cannotOpen path .directoryAsInput)
  | .ok (.unreadable cause) => .error (.cannotOpen path cause)
  | .error cause => .error (.cannotOpen path cause)

/-- The event for an open file. -/
def openedEvent (path : String) (file : OpenFile) : Event := .opened path file.size

/-- The events for the inputs that went back in time. -/
def descentEvents (inputs : Both Input) : List Event :=
  [inputs.left, inputs.right].filterMap fun input =>
    if input.descents = 0 then none
    else some (.descents input.side input.path input.descents)

/-- What a merge reports after it has come to its end. -/
def closingEvents {σ : Type} (outcome : Outcome σ) : List Event :=
  match outcome.result with
  | .ok tally => descentEvents outcome.last.inputs ++ [.finished tally]
  | .error _ => []

/-- The inputs of a merge of two open files with these paths. -/
def fileInputs (paths : Both String) (files : Both OpenFile) (limit : Option Nat) :
    Both Input :=
  ⟨.ofReader .left paths.left files.left.reader limit,
    .ofReader .right paths.right files.right.reader limit⟩

/-- Merges two files into a sink. -/
def interleave {σ : Type} [ByteSink σ] (lookup : String → Except IoError Entry)
    (paths : Both String) (limit : Option Nat) (sink : σ) : RunReport σ :=
  match openFile lookup paths.left with
  | .error failure => ⟨.error failure, sink, []⟩
  | .ok left =>
      match openFile lookup paths.right with
      | .error failure => ⟨.error failure, sink, [openedEvent paths.left left]⟩
      | .ok right =>
          let outcome := merge (fileInputs paths ⟨left, right⟩ limit) sink
          { result := outcome.result
            sink := outcome.last.sink
            events :=
              [openedEvent paths.left left, openedEvent paths.right right,
                .merging paths.left paths.right] ++
                outcome.last.events ++ closingEvents outcome }

end Interleave
