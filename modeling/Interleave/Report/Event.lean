/-
# Events

What a run reports about itself while it goes on.  An event has a level, a message
and named values.

* `Event` : what is reported;
* `Event.level`, `Event.message`, `Event.fields` : how it is reported;
* `Event.text` : an event on one line.
-/
import Interleave.Log.Waiting
import Interleave.Log.Tally
import Interleave.Report.Identity
import Interleave.Report.Level
import Interleave.Settings.Warning

namespace Interleave

/-! ## Events -/

/-- What a run reports. -/
inductive Event where
  /-- Reporting begins; whether the environment, or an argument, asks for a level. -/
  | reporting (fromEnvironment debugFlag : Bool)
  /-- The settings are read. -/
  | starting (settings : String) (limit : Option Nat)
  /-- Something is wrong with the settings. -/
  | settingsWarning (warning : Settings.Warning)
  /-- An input is open. -/
  | opened (path : String) (size : Nat)
  /-- The merge begins. -/
  | merging (left right : String)
  /-- An input goes back in time for the first time. -/
  | unordered (side : Side) (path : String) (line : Nat)
  /-- A line is about to be written. -/
  | writing (waiting : Waiting) (side : Side) (line : Nat) (excerpt : String)
  /-- All lines are written. -/
  | complete (tally : Tally)
  /-- How often an input went back in time. -/
  | descents (side : Side) (path : String) (lines : Nat)
  /-- The merge is finished. -/
  | finished (tally : Tally)
  /-- Nobody wants more output. -/
  | outputClosed
  /-- The run fails. -/
  | failed (message : String)
  deriving DecidableEq, Repr

/-- A value of an event: a word in quotes, or anything as it is. -/
inductive FieldValue where
  | quoted (text : String)
  | bare (text : String)
  deriving DecidableEq, Repr

namespace FieldValue

/-- The value alone. -/
def text : FieldValue → String
  | .quoted text => text
  | .bare text => text

/-- The value on a line. -/
def shown : FieldValue → String
  | .quoted text => s!"\"{text}\""
  | .bare text => text

/-- A number. -/
def number (n : Nat) : FieldValue := .bare (toString n)

/-- A truth value. -/
def truth (b : Bool) : FieldValue := .bare (if b then "true" else "false")

/-- A number that may be missing. -/
def optionalNumber : Option Nat → FieldValue
  | none => .bare "None"
  | some n => .bare s!"Some({n})"

end FieldValue

namespace Event

/-- How severe an event is. -/
def level : Event → Level
  | .reporting .. => .debug
  | .starting .. => .debug
  | .settingsWarning .. => .warn
  | .opened .. => .debug
  | .merging .. => .info
  | .unordered .. => .warn
  | .writing .. => .trace
  | .complete .. => .debug
  | .descents .. => .warn
  | .finished .. => .info
  | .outputClosed => .debug
  | .failed .. => .error

/-- The message of an event. -/
def message : Event → String
  | .reporting .. => "Diagnostics enabled"
  | .starting .. => s!"{identity.name} starting"
  | .settingsWarning .. => "Config warning"
  | .opened .. => "Opened input"
  | .merging .. => "Weaving logs"
  | .unordered .. =>
      "Input is not in timestamp order; merged output will not be fully ordered"
  | .writing .. => "Emit"
  | .complete .. => "Merge complete"
  | .descents .. => "Input had lines earlier than their predecessor"
  | .finished .. => "Weave finished"
  | .outputClosed => "Output closed by reader; stopping"
  | .failed .. => "Weave failed"

/-- The named values of an event. -/
def fields : Event → List (String × FieldValue)
  | .reporting fromEnvironment debugFlag =>
      [("app", .quoted identity.name), ("version", .quoted identity.version),
        ("rust_log", .truth fromEnvironment), ("debug_flag", .truth debugFlag)]
  | .starting settings limit =>
      [("version", .quoted identity.version), ("config", .bare settings),
        ("max_line_bytes", .optionalNumber limit)]
  | .settingsWarning warning => [("warning", .bare warning.message)]
  | .opened path size => [("path", .bare path), ("size", .number size)]
  | .merging left right => [("left", .bare left), ("right", .bare right)]
  | .unordered side path line =>
      [("side", .quoted side.label), ("path", .bare path), ("line", .number line)]
  | .writing waiting side line excerpt =>
      [("state", .bare waiting.label), ("side", .quoted side.label),
        ("line", .number line), ("preview", .bare excerpt)]
  | .complete tally =>
      [("left", .number tally.lines.left), ("right", .number tally.lines.right),
        ("blank", .number tally.blanks), ("ties", .number tally.ties)]
  | .descents side path lines =>
      [("side", .quoted side.label), ("path", .bare path), ("lines", .number lines)]
  | .finished tally =>
      [("total", .number tally.total), ("left", .number tally.lines.left),
        ("right", .number tally.lines.right)]
  | .outputClosed => []
  | .failed message => [("error", .bare message)]

/-- An event on one line: the message, and the values with their names. -/
def text (e : Event) : String :=
  e.fields.foldl (fun line (name, value) => s!"{line} {name}={value.shown}") e.message

/-- The event belongs to a report of the given level. -/
def isReportedAt (e : Event) (level : Level) : Bool := e.level.rank ≤ level.rank

end Event

end Interleave
