/-
# Which inputs still have lines

A merge goes on as long as at least one of its inputs has a line that waits to be
written.

* `Waiting` : the four situations.
-/
import Interleave.Log.Side

namespace Interleave

/-- Which inputs have a line that waits to be written. -/
inductive Waiting where
  | both
  | leftOnly
  | rightOnly
  | neither
  deriving DecidableEq, Repr

namespace Waiting

/-- The situation in which the left, and the right input, has a line waiting or not. -/
def ofSides : Bool → Bool → Waiting
  | true, true => .both
  | true, false => .leftOnly
  | false, true => .rightOnly
  | false, false => .neither

/-- The name of a situation in the trace. -/
def label : Waiting → String
  | .both => "BothPending"
  | .leftOnly => "LeftOnly"
  | .rightOnly => "RightOnly"
  | .neither => "BothExhausted"

end Waiting

end Interleave
