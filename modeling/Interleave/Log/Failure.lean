/-
# What ends a merge

Every failure ends the merge, and says which input it is about and at which line.

* `Failure.message` : the report;
* `Failure.isBrokenPipe` : the one failure that is no failure of the merge, because
  nobody wants more output.
-/
import Interleave.Stream.IoError

namespace Interleave

/-- What ends a merge early. -/
inductive Failure where
  /-- An input cannot be opened. -/
  | cannotOpen (path : String) (cause : IoError)
  /-- An input cannot be read on. -/
  | cannotRead (path : String) (line : Nat) (cause : IoError)
  /-- A line is longer than the limit. -/
  | lineTooLong (path : String) (line length limit : Nat)
  /-- A line that is not blank does not start with a timestamp. -/
  | notTimestamped (path : String) (line : Nat) (word : String)
  /-- The output cannot be written. -/
  | cannotWrite (cause : IoError)
  deriving DecidableEq, Repr

namespace Failure

/-- The report of a failure. -/
def message : Failure → String
  | .cannotOpen path cause => s!"Cannot open input '{path}': {cause.message}"
  | .cannotRead path line cause =>
      s!"'{path}' line {line}: I/O error while reading: {cause.message}"
  | .lineTooLong path line length limit =>
      s!"'{path}' line {line}: line is at least {length} bytes, exceeds maximum of {limit}. " ++
        "Increase [input] max_line_bytes in config.toml."
  | .notTimestamped path line word =>
      s!"'{path}' line {line}: cannot parse leading token '{word}' as an ISO-8601 timestamp"
  | .cannotWrite cause => s!"Failed to write output: {cause.message}"

/-- The error of the system behind a failure. -/
def cause? : Failure → Option IoError
  | .cannotOpen _ cause => some cause
  | .cannotRead _ _ cause => some cause
  | .cannotWrite cause => some cause
  | .lineTooLong .. => none
  | .notTimestamped .. => none

/-- The reader of the output has gone. -/
def isBrokenPipe : Failure → Bool
  | .cannotWrite cause => cause.isBrokenPipe
  | _ => false

end Failure

end Interleave
