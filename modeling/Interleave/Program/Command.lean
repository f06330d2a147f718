/-
# The command

The command reads its arguments and settings, merges the two files to standard
output, and tells by its exit status how that went.  Standard output is buffered;
what is buffered when a merge fails is written all the same.  A reader of the output
who goes away ends the run and is no failure.

* `Invocation` : what the command is given;
* `Completion` : what it leaves;
* `Invocation.complete` : the command.
-/
import Interleave.Program.Arguments
import Interleave.Program.Usage
import Interleave.Session
import Interleave.Settings.Place
import Interleave.Stream.Buffered

namespace Interleave

/-! ## What the command is given and leaves -/

/-- What the command is given. -/
structure Invocation where
  arguments : List String
  /-- The level of the report that the environment asks for, if it does. -/
  reportFilter : Option String
  /-- Where the settings are kept. -/
  place : SettingsPlace
  /-- The file of settings, if it is there. -/
  settingsFile : Option Entry
  /-- What paths lead to. -/
  lookup : String → Except IoError Entry
  stdout : Sink

/-- What the command leaves. -/
structure Completion where
  exitStatus : Nat
  stdout : Sink
  /-- What is said on standard error, the report apart. -/
  complaints : List String
  /-- The report. -/
  events : List Event

/-- The exit status of a run that fails. -/
def exitFailure : Nat := 1

/-- The exit status where the arguments are wrong. -/
def exitUsage : Nat := 2

/-! ## The report -/

/-- The level that a word of the environment asks for, nothing for no report at all.
An empty word asks for errors. -/
def filterLevel (word : String) : Option Level :=
  if word = "" then some .error
  else Level.ofName? (String.ofList (word.toList.map Char.toLower))

/-- The level of the report.  The environment comes first, then the flag, then the
settings. -/
def reportLevel (filter : Option String) (debug : Bool) (level : Option Level) : Option Level :=
  match filter with
  | some word => filterLevel word
  | none => if debug then some .debug else some (level.getD .ofRun)

/-- The events that belong to the report. -/
def reported (level : Option Level) (events : List Event) : List Event :=
  match level with
  | none => []
  | some level => events.filter (·.isReportedAt level)

/-! ## The command -/

namespace Invocation

/-- Writes a text to standard output and ends. -/
def say (i : Invocation) (text : String) : Completion :=
  let (_, stdout) := i.stdout.writeAll text.toUTF8.toList
  { exitStatus := 0, stdout, complaints := [], events := [] }

/-- The exit status after a merge. -/
def exitStatus (result : Except Failure Tally) : Nat :=
  match result with
  | .ok _ => 0
  | .error failure => if failure.isBrokenPipe then 0 else exitFailure

/-- What is said on standard error after a merge. -/
def complaints (result : Except Failure Tally) : List String :=
  match result with
  | .ok _ => []
  | .error failure => if failure.isBrokenPipe then [] else [s!"Error: {failure.message}"]

/-- What is reported after a merge. -/
def lastEvents (result : Except Failure Tally) : List Event :=
  match result with
  | .ok _ => []
  | .error failure => if failure.isBrokenPipe then [.outputClosed] else [.failed failure.message]

/-- What is reported before a merge. -/
def firstEvents (i : Invocation) (debug : Bool) (loaded : Settings.Loaded) : List Event :=
  [.reporting i.reportFilter.isSome debug, .starting i.place.file loaded.settings.limit] ++
    loaded.warnings.map .settingsWarning

/-- Merges two files to standard output. -/
def merge (i : Invocation) (paths : Both String) (debug : Bool) : Completion :=
  let loaded := Settings.load i.place.file i.settingsFile
  let run := interleave i.lookup paths loaded.settings.limit (BlockBuffered.ofDevice i.stdout)
  { exitStatus := exitStatus run.result
    stdout := run.sink.close.inner.device
    complaints := complaints run.result
    events :=
      reported (reportLevel i.reportFilter debug loaded.settings.level)
        (i.firstEvents debug loaded ++ run.events ++ lastEvents run.result) }

/-- The command. -/
def complete (i : Invocation) : Completion :=
  match Request.ofArguments i.arguments with
  | .ok (.merge paths debug) => i.merge paths debug
  | .ok .version => i.say versionText
  | .ok (.help long) => i.say (helpText long)
  | .error e =>
      { exitStatus := exitUsage
        stdout := i.stdout
        complaints := [s!"error: {e.message}", "", usageLine]
        events := [] }

end Invocation

end Interleave
