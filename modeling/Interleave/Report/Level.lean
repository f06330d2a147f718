/-
# Levels

How severe a reported event is.  Settings name a level, and a report holds the events
of that level and of those more severe.

* `Level` : the five levels;
* `Level.ofName?` : the level with a given name.
-/

namespace Interleave

/-- How severe an event is. -/
inductive Level where
  | error
  | warn
  | info
  | debug
  | trace
  deriving DecidableEq, Repr

namespace Level

/-- The levels, the most severe first. -/
def all : List Level := [.error, .warn, .info, .debug, .trace]

/-- The name of a level in settings. -/
def name : Level → String
  | .error => "error"
  | .warn => "warn"
  | .info => "info"
  | .debug => "debug"
  | .trace => "trace"

/-- The name of a level in reports. -/
def label : Level → String
  | .error => "ERROR"
  | .warn => "WARN"
  | .info => "INFO"
  | .debug => "DEBUG"
  | .trace => "TRACE"

/-- The place of a level, 0 for the most severe. -/
def rank : Level → Nat
  | .error => 0
  | .warn => 1
  | .info => 2
  | .debug => 3
  | .trace => 4

/-- The level with a given name. -/
def ofName? (name : String) : Option Level :=
  all.find? fun level => level.name == name

/-- The level that is reported when nothing asks for another. -/
def ofRun : Level := .warn

/-- Every level is known by its name. -/
theorem ofName?_name (level : Level) : ofName? level.name = some level := by
  cases level <;> decide

end Level

end Interleave
