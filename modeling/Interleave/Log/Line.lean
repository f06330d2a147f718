/-
# Log lines

A line as it was read from one of the inputs, with the key that decides its place in
the merge, and the record that is written for it.

* `Line.record` : the bytes written for a line: tag, separator, the line as it was
  read, and a line end where the input had none;
* `Line.excerpt` : the start of a line as text, for the trace.
-/
import Interleave.Log.Side
import Interleave.Text.Blank
import Interleave.Text.Utf8
import Interleave.Time.Instant

namespace Interleave

/-- A line of one of the inputs. -/
structure Line where
  side : Side
  /-- The number of the line in its input, counted from 1. -/
  number : Nat
  /-- The instant of the line.  A blank line has the one of the closest timestamp
  before it in its input. -/
  key : Key
  /-- The bytes of the line, with the line end if there is one. -/
  raw : Bytes
  /-- The line has no timestamp of its own. -/
  blank : Bool
  deriving DecidableEq, Repr

namespace Line

/-! ## What is written -/

/-- The line ends in a line end. -/
def isTerminated (l : Line) : Bool := l.raw.getLast? == some newline

/-- What is written for a line, in pieces. -/
def parts (l : Line) : List Bytes :=
  [Ascii.encode l.side.tag, Ascii.encode tagSeparator, l.raw] ++
    (if l.isTerminated then [] else [[newline]])

/-- What is written for a line. -/
def record (l : Line) : Bytes := l.parts.flatten

/-! ## The excerpt -/

/-- How many bytes of a line the trace shows. -/
def excerptBytes : Nat := 200

/-- The start of a line as text, without white space at its end. -/
def excerpt (raw : Bytes) : String :=
  String.ofList (Text.trimEnd (Utf8.decodeLossy (raw.take excerptBytes)).toList)

end Line

end Interleave
